import Handoff.Handle
import Handoff.Text.Quoted

namespace Handoff

/-- The integer that stands for an outcome across a language boundary. -/
abbrev Status := Int32

namespace Status
def ok : Status := 0
def failed : Status := -1
def badHandle : Status := 9
def tryAgain : Status := 11
def tooSmall : Status := 34
end Status

/-- Why a bridge operation gave no result; the constructor says what the caller can do. -/
inductive BridgeError where
  /-- The handle is stale, unknown or already closed. -/
  | badHandle (handle : Handle)
  /-- Nothing is pending; ask again later. -/
  | wouldBlock
  /-- The sending side of a listener's channel is gone. -/
  | connectionReset
  /-- The text and its terminator take `needed` bytes. -/
  | insufficientBuffer (needed capacity : Nat)
  /-- The network failed; the server's error record holds the same text. -/
  | fatal (text : String)
  /-- The control session is over. -/
  | sessionBroken (reason : String)
  deriving DecidableEq

namespace BridgeError

def message : BridgeError → String
  | badHandle h => s!"bad handle {h}"
  | wouldBlock => "no connection pending"
  | connectionReset => "descriptor channel reset by peer"
  | insufficientBuffer needed capacity => s!"buffer too small: need {needed} bytes, have {capacity}"
  | fatal text => text
  | sessionBroken reason => s!"control session broken: {reason}"

def status : BridgeError → Status
  | badHandle _ => .badHandle
  | insufficientBuffer .. => .tooSmall
  | wouldBlock => .tryAgain
  | connectionReset | fatal _ | sessionBroken _ => .failed

/-- The error a remote status stands for, of a request about `h`. -/
def ofStatus (s : Status) (h : Handle) : Option BridgeError :=
  if s = .ok then none
  else if s = .badHandle then some (badHandle h)
  else if s = .tooSmall then some (insufficientBuffer 0 0)
  else if s = .tryAgain then some wouldBlock
  else some (fatal s!"remote operation on {h} failed with status {s.toInt}")

/-- The same call may simply be made again. -/
def isRetryable : BridgeError → Bool
  | wouldBlock => true
  | _ => false

/-- The error's constructor and its arguments as text. -/
def debug : BridgeError → String
  | badHandle h => s!"BadHandle(Handle({h}))"
  | wouldBlock => "WouldBlock"
  | connectionReset => "ConnectionReset"
  | insufficientBuffer needed capacity =>
    s!"InsufficientBuffer \x7b needed: {needed}, capacity: {capacity} \x7d"
  | fatal text => s!"Fatal({Text.quoted text})"
  | sessionBroken reason => s!"SessionBroken({Text.quoted reason})"

end BridgeError

/-- The status of a result. -/
def statusOf {α : Type} : Except BridgeError α → Status
  | .ok _ => .ok
  | .error e => e.status

/-- `text` and its terminator have to fit in `capacity` bytes. -/
def ensureFits (text : String) (capacity : Nat) : Except BridgeError Unit :=
  if text.utf8ByteSize + 1 ≤ capacity then .ok ()
  else .error (.insufficientBuffer (text.utf8ByteSize + 1) capacity)

end Handoff
