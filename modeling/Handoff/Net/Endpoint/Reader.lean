import Handoff.Net.Endpoint
import Handoff.Net.Address.Reader
import Handoff.Text.Quoted

namespace Handoff

/-- Why a text is no port number. -/
inductive PortError where
  | empty
  | invalidDigit
  | tooLarge
  deriving DecidableEq

def PortError.message : PortError → String
  | empty => "cannot parse integer from empty string"
  | invalidDigit => "invalid digit found in string"
  | tooLarge => "number too large to fit in target type"

namespace Port

/-- Reads digits from left to right on top of `value`; the first one that does not belong or does
not fit decides. -/
def readDigits : (value : Nat) → List Char → Except PortError Port
  | value, [] => .ok (.ofNat value)
  | value, c :: cs =>
    if '0' ≤ c ∧ c ≤ '9' then
      let value := value * 10 + (c.toNat - '0'.toNat)
      if 65535 < value then .error .tooLarge else readDigits value cs
    else .error .invalidDigit

/-- One leading plus sign is allowed, and any number of zeros. -/
def parse : List Char → Except PortError Port
  | [] => .error .empty
  | ['+'] => .error .invalidDigit
  | '+' :: cs => readDigits 0 cs
  | cs => readDigits 0 cs

end Port

/-- Why a text is no host and port. -/
inductive HostPortError where
  | missingPort
  | invalidPort (cause : PortError)
  deriving DecidableEq

/-- A host, as a text, and a port. -/
structure HostPort where
  host : List Char
  port : Port
  deriving DecidableEq

namespace HostPort

/-- What is before and after the last colon. -/
def splitLastColon : List Char → Option (List Char × List Char)
  | [] => none
  | c :: cs =>
    match splitLastColon cs with
    | some (before, after) => some (c :: before, after)
    | none => if c = ':' then some ([], cs) else none

/-- A host without the brackets around it. -/
def trimBrackets (host : List Char) : List Char :=
  ((host.dropWhile (· = '[')).reverse.dropWhile (· = ']')).reverse

def parse (cs : List Char) : Except HostPortError HostPort :=
  match splitLastColon cs with
  | none => .error .missingPort
  | some (host, port) =>
    match Port.parse port with
    | .error e => .error (.invalidPort e)
    | .ok port => .ok ⟨trimBrackets host, port⟩

end HostPort

namespace Endpoint

/-- Digits that end the text, with a value below `limit`. -/
def readNumber (limit : Nat) (cs : List Char) : Option (Nat × List Char) :=
  let (ds, rest) := takeDigits 10 cs
  if ds = [] ∨ limit ≤ valueOf 10 ds then none else some (valueOf 10 ds, rest)

def readPort (cs : List Char) : Option Port := do
  let (port, rest) ← readNumber 65536 (← expect ':' cs)
  if rest = [] then some (.ofNat port) else none

/-- An address with its port; a scope number inside the brackets is read and left out. -/
def parse? (cs : List Char) : Option Endpoint :=
  match V4.read cs with
  | some (ip, rest) => (readPort rest).map fun port => ⟨.v4 ip, port⟩
  | none => do
    let (ip, rest) ← V6.read (← expect '[' cs)
    let rest ← match expect '%' rest with
      | some scope => (readNumber 4294967296 scope).map Prod.snd
      | none => some rest
    let port ← readPort (← expect ']' rest)
    return ⟨.v6 ip, port⟩

end Endpoint
end Handoff
