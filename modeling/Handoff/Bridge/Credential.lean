import Handoff.Error
import Handoff.Text.Utf8

namespace Handoff

/-- Bytes of every credential. -/
def Credential.size : Nat := 32

/-- A secret text of fixed size. -/
structure Credential where
  text : String
  size_text : (Text.utf8 text).length = Credential.size

namespace Credential

def ofToken (token : String) : Except BridgeError Credential :=
  if h : (Text.utf8 token).length = size then .ok ⟨token, h⟩
  else .error (.fatal
    s!"loopback credential is {(Text.utf8 token).length} bytes, expected {size}")

def bytes (c : Credential) : List UInt8 :=
  Text.utf8 c.text

/-- The bytes and a terminator. -/
def terminated (c : Credential) : List UInt8 :=
  c.bytes ++ [0]

/-- Says that there is a credential and not which. -/
def debug (_ : Credential) : String :=
  "Credential(<redacted>)"

end Credential
end Handoff
