import Handoff.Text.Utf8

namespace Handoff.Text

/-- A byte that goes on with a character. -/
def isTrailing (b : UInt8) : Bool :=
  0x80 ≤ b && b < 0xC0

/-- Whether no character lies on both sides of the place before the `k`-th byte. -/
def isBoundary (bytes : List UInt8) (k : Nat) : Bool :=
  k = 0 || match bytes[k]? with
    | some b => !isTrailing b
    | none => k = bytes.length

/-- The last such place that is not after the `k`-th byte, searched for backwards. -/
def lastBoundary (bytes : List UInt8) : Nat → Nat
  | 0 => 0
  | k + 1 => if isBoundary bytes (k + 1) then k + 1 else lastBoundary bytes k

def charsBefore : List Char → (k : Nat) → List Char
  | [], _ => []
  | c :: cs, k => if k = 0 then [] else c :: charsBefore cs (k - c.utf8Size)

/-- The text of the first `k` bytes, which have to end between two characters. -/
def before (k : Nat) (s : String) : String :=
  String.ofList (charsBefore s.toList k)

end Handoff.Text
