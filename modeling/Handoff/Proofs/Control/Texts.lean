import Handoff.Control.Worker
import Handoff.Proofs.Bridge.Records
import Handoff.Proofs.Error.Record
import Handoff.Proofs.Wire.Field

namespace Handoff
open Text Wire Source

structure CutTo (room : Nat) (message kept : String) : Prop where
  longest : ∀ p, Longest room message p ↔ p = kept
  /-- A search backwards from the limit finds the same end. -/
  searched : utf8 kept = (utf8 message).take (lastBoundary (utf8 message) room)
  whole : kept = message ↔ message.utf8ByteSize ≤ room
  tight : kept ≠ message → room ≤ kept.utf8ByteSize + 3

structure Sent (message kept : String) : Prop where
  encoded : Wire.text message = word (.ofNat kept.utf8ByteSize) ++ utf8 kept
  length : (UInt32.ofNat kept.utf8ByteSize).toNat = kept.utf8ByteSize
  limit : kept.utf8ByteSize ≤ maxText
  /-- What has been cut is not cut again. -/
  again : Wire.text kept = Wire.text message
  /-- It is read back before whatever follows, and nothing after it is touched. -/
  readBack : ∀ (f : PipeFault) (src : Source) (rest : List UInt8),
    Gives f src (Wire.text message ++ rest) →
      ∃ src', readText src = (.ok kept, src') ∧ Gives f src' rest

theorem cutTo_cut (room : Nat) (message : String) : CutTo room message (cut room message) where
  longest p := ⟨Longest.unique, fun h => h ▸ longest_cut room message⟩
  searched := utf8_cut room message
  whole := cut_eq_self_iff
  tight h := by
    have := cut_tight h
    rwa [length_utf8_eq] at this

theorem text_of_le {text : String} (h : text.utf8ByteSize ≤ maxText) :
    Wire.text text = word (.ofNat text.utf8ByteSize) ++ utf8 text := by
  rw [text_eq, cut_of_le h, length_utf8_eq]

theorem utf8ByteSize_cut_le (room : Nat) (message : String) :
    (cut room message).utf8ByteSize ≤ room := by
  rw [← length_utf8_eq]
  exact length_utf8_cut_le room message

theorem text_cut (message : String) : Wire.text (cut maxText message) = Wire.text message := by
  rw [text_of_le (utf8ByteSize_cut_le ..), text_eq, length_utf8_eq]

theorem sent_cut (message : String) : Sent message (cut maxText message) where
  encoded := by rw [← text_cut, text_of_le (utf8ByteSize_cut_le ..)]
  length := by
    rw [← length_utf8_eq]
    exact toNat_length (length_utf8_cut_le ..)
  limit := utf8ByteSize_cut_le ..
  again := text_cut message
  readBack _ _ _ h := readText_text message h

namespace Control.Worker
variable {W : Type} {b : Bridge W} {h : Handle} {message : String}

/-- Fetching keeps what is left of the server's last error after a cut, and tells its length. -/
theorem fetch_of_recordOf (w : Worker) (hm : b.recordOf h = some message) :
    w.fetch b h = (.announced .ok (.ofNat (cut maxText message).utf8ByteSize),
      { w with snapshot := assign w.snapshot h (some (cut maxText message)) }) := by
  obtain ⟨entry, hs, rfl⟩ := Option.map_eq_some_iff.mp hm
  rw [fetch, Bridge.lastError, HandleTable.get_ok_iff.mpr hs]
  dsimp only [Except.bind]
  rw [ErrorRecord.fetch, truncate_succ]

theorem fetch_of_recordOf_none (w : Worker) (hm : b.recordOf h = none) :
    w.fetch b h = (.announced .badHandle 0, w) := by
  rw [fetch, Bridge.lastError, HandleTable.get_eq, Option.map_eq_none_iff.mp hm]
  rfl

end Control.Worker

/-- A text is cut to the longest front that leaves room for a terminator. With room for as much as
is sent at once, that is what a worker keeps of a server's last error, what is sent of it and what
is read back. -/
theorem texts_cut_alike (message : String) :
    (∀ room, ∃ kept, truncate message (room + 1) = .ok kept ∧ CutTo room message kept) ∧
    ∃ kept, truncate message (maxText + 1) = .ok kept ∧ Sent message kept ∧
      ∀ {W : Type} (b : Bridge W) (w : Control.Worker) (h : Handle),
        b.recordOf h = some message →
        w.fetch b h = (.announced .ok (.ofNat kept.utf8ByteSize),
          { w with snapshot := assign w.snapshot h (some kept) }) := by
  refine ⟨?_, _, truncate_succ .., sent_cut message, ?_⟩
  · intro room
    exact ⟨_, truncate_succ .., cutTo_cut room message⟩
  · intro W b w h hm
    exact w.fetch_of_recordOf hm

end Handoff
