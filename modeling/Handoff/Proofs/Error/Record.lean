import Handoff.Error.Record
import Handoff.Proofs.Text.Cutting

namespace Handoff
variable {text : String} {capacity : Nat}

theorem truncate_of_lt (h : text.utf8ByteSize < capacity) : truncate text capacity = .ok text := by
  rw [truncate, if_neg (by omega), if_pos (by omega)]

/-- What is left leaves room for a terminator. -/
theorem truncate_succ (text : String) (room : Nat) :
    truncate text (room + 1) = .ok (Text.cut room text) := by
  rw [truncate, if_neg (Nat.succ_ne_zero room), Nat.add_sub_cancel]
  split
  · rw [Text.cut_of_le ‹_›]
  · rw [Text.before_lastBoundary]

end Handoff
