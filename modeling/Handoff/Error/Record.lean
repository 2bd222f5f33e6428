import Handoff.Error
import Handoff.Text.Boundary

namespace Handoff

/-- The text of the last failure on one server. -/
structure ErrorRecord where
  text : String := ""
  deriving DecidableEq

/-- Cuts `text` to what fits in `capacity` bytes beside a terminator. -/
def truncate (text : String) (capacity : Nat) : Except BridgeError String :=
  if capacity = 0 then .error (.insufficientBuffer (text.utf8ByteSize + 1) 0)
  else if text.utf8ByteSize ≤ capacity - 1 then .ok text
  else .ok (Text.before (Text.lastBoundary (Text.utf8 text) (capacity - 1)) text)

namespace ErrorRecord

def fetch (r : ErrorRecord) (capacity : Nat) : Except BridgeError String :=
  truncate r.text capacity

/-- Writes the text and a terminator over the front of `buffer`. Here the text is cut between bytes,
not between characters. -/
def copyInto (r : ErrorRecord) (buffer : List UInt8) : Status × List UInt8 :=
  if buffer = [] then (.tooSmall, [])
  else
    let bytes := Text.utf8 r.text
    let copied := bytes.take (buffer.length - 1)
    (if copied.length < bytes.length then .tooSmall else .ok,
     copied ++ 0 :: buffer.drop (copied.length + 1))

end ErrorRecord
end Handoff
