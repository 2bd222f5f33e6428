import Handoff.Text.Hex

namespace Handoff.Wire

/-- Longest error text that is sent at once, in bytes. -/
def maxText : Nat := 4096

/-- Why a pipe gave or took too little. -/
inductive PipeFault where
  /-- It ended before everything was read. -/
  | ended
  /-- It takes no more bytes. -/
  | full
  | failed (text : String)
  deriving DecidableEq

def PipeFault.message : PipeFault → String
  | ended => "failed to fill whole buffer"
  | full => "failed to write whole buffer"
  | failed text => text

/-- Why what a pipe gave cannot be read. -/
inductive Fault where
  /-- No request starts with this byte. -/
  | unknownOpcode (opcode : UInt8)
  /-- A text is announced with more bytes than are ever sent. -/
  | tooLong (length : UInt32)
  | pipe (cause : PipeFault)
  deriving DecidableEq

def Fault.message : Fault → String
  | unknownOpcode opcode => s!"unknown opcode 0x{String.ofList (Text.hex 2 opcode.toNat)}"
  | tooLong length => s!"error text of {length.toNat} bytes exceeds limit of {maxText}"
  | pipe cause => cause.message

end Handoff.Wire
