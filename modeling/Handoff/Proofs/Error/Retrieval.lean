import Handoff.Proofs.Bridge.Records
import Handoff.Proofs.Error.Record
import Handoff.Tailnet.Network
import Mathlib.Data.List.TakeWhile

namespace Handoff
open Text

/-- The bytes a buffer holds for whoever reads it up to its terminator. -/
def cString (buffer : List UInt8) : List UInt8 :=
  buffer.takeWhile (· ≠ 0)

theorem cString_terminated {bytes : List UInt8} (rest : List UInt8) (h : 0 ∉ bytes) :
    cString (bytes ++ 0 :: rest) = bytes := by
  have hne : ∀ b ∈ bytes, decide (b ≠ 0) = true := by
    intro b hb
    rw [decide_eq_true_iff]
    rintro rfl
    exact h hb
  rw [cString, List.takeWhile_append_of_pos hne, List.takeWhile_cons_of_neg (by simp),
    List.append_nil]

theorem zero_notMem_cString (buffer : List UInt8) : 0 ∉ cString buffer := by
  intro h
  simpa using List.mem_takeWhile_imp h

/-- What stands in front is read in full, and nothing after it, if the terminator follows at once
and is the first. -/
theorem cString_eq_iff {bytes part rest : List UInt8} (h : 0 ∉ part) :
    cString (bytes ++ part ++ 0 :: rest) = bytes ↔ part = [] ∧ 0 ∉ bytes := by
  constructor
  · intro he
    have h0 : 0 ∉ bytes := he ▸ zero_notMem_cString _
    rw [cString_terminated rest (by simp [h0, h])] at he
    exact ⟨List.append_right_eq_self.mp he, h0⟩
  · rintro ⟨rfl, h0⟩
    rw [List.append_nil]
    exact cString_terminated rest h0

/-- What the two ways to ask for `message` give, one by its capacity and one in `buffer`. Both hold
the longest `text` that leaves room for a terminator. In the buffer it is followed by `part`, as
much of the next character as there is room for. -/
structure Retrieves (message : String) (buffer : List UInt8) (text : String) (part : List UInt8)
    (told : Except BridgeError String) (status : Status) (written : List UInt8) : Prop where
  longest : Longest (buffer.length - 1) message text
  fetched : told = .ok text
  /-- After the terminator the buffer is as it was. -/
  copied : written = utf8 text ++ part ++ 0 :: buffer.drop ((utf8 text ++ part).length + 1)
  sameLength : written.length = buffer.length
  filled : utf8 text ++ part = (utf8 message).take (buffer.length - 1)
  front : part = [] ∨ ∃ c back, message.toList = text.toList ++ c :: back ∧
    part <+: String.utf8EncodeChar c ∧ part.length < c.utf8Size
  /-- Nothing follows where all of the message has room, or where the room ends between two
  characters. -/
  clean : part = [] ↔
    message.utf8ByteSize < buffer.length ∨ isBoundary (utf8 message) (buffer.length - 1) = true
  fits : status = if message.utf8ByteSize < buffer.length then .ok else .tooSmall
  agree : cString written = utf8 text ↔ part = [] ∧ '\x00' ∉ text.toList
  complete : cString written = utf8 message ↔ status = .ok ∧ '\x00' ∉ message.toList

section
variable {message : String} {buffer : List UInt8} {room : Nat}

/-- A record is written up to the last byte of the buffer at most, in the middle of a character if
need be. -/
theorem ErrorRecord.copyInto_eq (r : ErrorRecord) (h : buffer ≠ []) :
    r.copyInto buffer =
      let bytes := utf8 (cut (buffer.length - 1) r.text) ++ torn (buffer.length - 1) r.text
      (if r.text.utf8ByteSize < buffer.length then .ok else .tooSmall,
        bytes ++ 0 :: buffer.drop (bytes.length + 1)) := by
  have hpos := List.length_pos_iff.mpr h
  have hstatus : ((utf8 r.text).take (buffer.length - 1)).length < (utf8 r.text).length ↔
      ¬ r.text.utf8ByteSize < buffer.length := by
    rw [List.length_take, length_utf8_eq]
    omega
  rw [copyInto, if_neg h]
  dsimp only
  rw [← take_utf8]
  simp only [hstatus, ite_not]

theorem torn_front (room : Nat) (s : String) : torn room s = [] ∨
    ∃ c back, s.toList = (cut room s).toList ++ c :: back ∧
      torn room s <+: String.utf8EncodeChar c ∧ (torn room s).length < c.utf8Size := by
  rcases torn_cases room s with ⟨-, ht⟩ | ⟨c, back, hs, hle, hlt, ht⟩
  · exact .inl ht
  · refine .inr ⟨c, back, hs, ?_, ?_⟩
    · rw [ht]
      exact List.take_prefix ..
    · rw [ht, List.length_take]
      omega

/-- What follows the text is no longer than the room that the text leaves. -/
theorem length_cut_torn (room : Nat) (s : String) :
    (utf8 (cut room s) ++ torn room s).length ≤ room := by
  rw [← take_utf8, List.length_take]
  exact Nat.min_le_left ..

/-- The message is read in full where it has room, and only there, if it has no zero in it. -/
theorem cString_eq_message (rest : List UInt8) (room : Nat) (s : String) :
    cString (utf8 (cut room s) ++ torn room s ++ 0 :: rest) = utf8 s ↔
      s.utf8ByteSize ≤ room ∧ '\x00' ∉ s.toList := by
  rw [← zero_mem_utf8, ← take_utf8]
  constructor
  · intro he
    have h0 : 0 ∉ utf8 s := he ▸ zero_notMem_cString _
    rw [cString_terminated rest fun h => h0 (List.mem_of_mem_take h)] at he
    have hlen := congrArg List.length he
    rw [List.length_take, length_utf8_eq] at hlen
    exact ⟨by omega, h0⟩
  · rintro ⟨hle, h0⟩
    rw [List.take_of_length_le (by rwa [length_utf8_eq])]
    exact cString_terminated rest h0

theorem ErrorRecord.retrieves (r : ErrorRecord) (h : buffer ≠ []) :
    Retrieves r.text buffer (cut (buffer.length - 1) r.text) (torn (buffer.length - 1) r.text)
      (r.fetch buffer.length) (r.copyInto buffer).1 (r.copyInto buffer).2 := by
  have hpos := List.length_pos_iff.mpr h
  have hlt : r.text.utf8ByteSize < buffer.length ↔ r.text.utf8ByteSize ≤ buffer.length - 1 := by
    omega
  rw [r.copyInto_eq h]
  constructor
  case longest => exact longest_cut ..
  case fetched =>
    obtain ⟨room, hroom⟩ := Nat.exists_eq_add_of_lt hpos
    rw [fetch, show buffer.length = room + 1 by omega, truncate_succ, Nat.add_sub_cancel]
  case copied => rfl
  case sameLength =>
    have hroom := length_cut_torn (buffer.length - 1) r.text
    dsimp only
    rw [List.length_append, List.length_cons, List.length_drop]
    omega
  case filled => exact (take_utf8 ..).symm
  case front => exact torn_front ..
  case clean => rw [hlt, torn_eq_nil_iff]
  case fits => rfl
  case agree =>
    dsimp only
    rw [cString_eq_iff (zero_notMem_torn _ _), zero_mem_utf8]
  case complete =>
    have hstatus : (if r.text.utf8ByteSize < buffer.length then .ok else .tooSmall) = Status.ok ↔
        r.text.utf8ByteSize < buffer.length := by
      rw [ite_eq_left_iff]
      exact not_imp_comm.trans (imp_iff_right (by decide))
    dsimp only
    rw [cString_eq_message, hstatus, hlt]

end

namespace Bridge
variable {W : Type} {buffer : List UInt8}

/-- Asked for the last error of a server in a buffer of some length, or by that length, a bridge
gives the same text, except that the buffer may end within a character. -/
theorem retrieves_last_error (b : Bridge W) (server : Handle) (h : buffer ≠ []) :
    (∀ message, b.recordOf server = some message →
      ∃ text part, Retrieves message buffer text part (b.lastError server buffer.length)
        (b.lastErrorInto server buffer).1 (b.lastErrorInto server buffer).2) ∧
    (b.recordOf server = none →
      b.lastError server buffer.length = .error (.badHandle server) ∧
      b.lastErrorInto server buffer = (.badHandle, buffer)) := by
  rw [Tables.recordOf]
  refine ⟨?_, ?_⟩
  · intro message hm
    obtain ⟨entry, hs, rfl⟩ := Option.map_eq_some_iff.mp hm
    rw [lastError, lastErrorInto, HandleTable.get_ok_iff.mpr hs]
    exact ⟨_, _, entry.record.retrieves h⟩
  · intro hm
    have hget : b.servers.get server = .error (.badHandle server) := by
      rw [HandleTable.get_eq, Option.map_eq_none_iff.mp hm]
    rw [lastError, lastErrorInto, hget]
    exact ⟨rfl, rfl⟩

def accented : Bridge Tailnet :=
  let b := ((newServer { net := {} }).2.perform (.configure ⟨2752513⟩ (.hostname "é"))).2
  (b.perform (.dial ⟨2752513⟩ "tcp" "é:80")).2

theorem retrieves_accented :
    accented.recordOf ⟨2752513⟩ = some "dial tcp é:80: connection refused" ∧
    ∃ text part, Retrieves "dial tcp é:80: connection refused" (List.replicate 11 0xFF) text part
      (accented.lastError ⟨2752513⟩ 11)
      (accented.lastErrorInto ⟨2752513⟩ (List.replicate 11 0xFF)).1
      (accented.lastErrorInto ⟨2752513⟩ (List.replicate 11 0xFF)).2 := by
  have hrecord : accented.recordOf ⟨2752513⟩ = some "dial tcp é:80: connection refused" := by
    decide +kernel
  exact ⟨hrecord, (retrieves_last_error accented _ (by decide)).1 _ hrecord⟩

/-- The buffer ends in half of the accented letter, which the other way to ask leaves out. -/
theorem halved_accented :
    ¬ ∀ buffer : List UInt8, buffer ≠ [] →
      (accented.lastError ⟨2752513⟩ buffer.length).map utf8 =
        .ok (cString (accented.lastErrorInto ⟨2752513⟩ buffer).2) := by
  intro h
  exact absurd (h (List.replicate 11 0xFF) (by decide)) (by decide +kernel)

end Bridge
end Handoff
