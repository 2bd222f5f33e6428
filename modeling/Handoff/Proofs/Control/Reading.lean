import Handoff.Control.Client
import Handoff.Proofs.Wire.Field

namespace Handoff.Control
open Wire Wire.Source

def Short (r : Request) (bs : List UInt8) : Prop :=
  match r.width? with
  | some n => bs.length < n
  | none => bs.length < 4 ∨
    ∃ length text, bs = word length ++ text ∧ text.length < length.toNat ∧ length.toNat ≤ maxText

def TooLong (r : Request) (length : UInt32) (bs : List UInt8) : Prop :=
  r.width? = none ∧ maxText < length.toNat ∧ ∃ text, bs = word length ++ text

theorem split_at (n : Nat) (bs : List UInt8) :
    bs.length < n ∨ ∃ front rest, bs = front ++ rest ∧ front.length = n := by
  by_cases h : bs.length < n
  · exact .inl h
  · refine .inr ⟨bs.take n, bs.drop n, (List.take_append_drop n bs).symm, ?_⟩
    rw [List.length_take]
    omega

/-- Any bytes start with a whole response, or break off in one, or announce too long a text. -/
theorem replies_or_not (r : Request) (bs : List UInt8) :
    (∃ response rest, bs = response ++ rest ∧ Replies r response) ∨ Short r bs ∨
      ∃ length, TooLong r length bs := by
  cases hw : r.width? with
  | some n =>
    simp only [Replies, Short, hw]
    rcases split_at n bs with h | ⟨front, rest, he, hl⟩
    · exact .inr (.inl h)
    · exact .inl ⟨front, rest, he, hl⟩
  | none =>
    simp only [Replies, Short, TooLong, hw, true_and]
    rcases split_at 4 bs with h | ⟨front, text, rfl, hl⟩
    · exact .inr (.inl (.inl h))
    rw [← word_ofWord hl]
    by_cases hmax : maxText < (ofWord front).toNat
    · exact .inr (.inr ⟨ofWord front, hmax, text, rfl⟩)
    rcases split_at (ofWord front).toNat text with h | ⟨text, rest, rfl, hlen⟩
    · exact .inr (.inl (.inr ⟨ofWord front, text, rfl, h, by omega⟩))
    · refine .inl ⟨word (ofWord front) ++ text, rest, (List.append_assoc ..).symm, ?_⟩
      exact ⟨ofWord front, text, rfl, hlen, by omega⟩

/-- How the response to a request is read: what is taken off the pipe, what it comes to, and how
reading fails. -/
structure Reads {α : Type} (r : Request) (read : Source → Except Fault α × Source)
    (value : List UInt8 → α) : Prop where
  whole {f src response rest} : Gives f src (response ++ rest) → Replies r response →
    ∃ src', read src = (.ok (value response), src') ∧ Gives f src' rest
  short {f src bs} : Gives f src bs → Short r bs → ∃ src', read src = (.error (.pipe f), src')
  tooLong {f src bs length} : Gives f src bs → TooLong r length bs →
    ∃ src', read src = (.error (.tooLong length), src')

def statusIn (response : List UInt8) : Status :=
  (ofWord (response.take 4)).toInt32

section Readers
variable {r : Request}

theorem readWord_gives {f : PipeFault} {src : Source} {bs rest : List UInt8}
    (h : Gives f src (bs ++ rest)) (hl : bs.length = 4) :
    ∃ src', readWord src = (.ok (ofWord bs), src') ∧ Gives f src' rest := by
  rw [← word_ofWord hl] at h
  exact readWord_word (ofWord bs) h

theorem reads_created : Reads .createServer Session.readCreated fun bs => ⟨ofWord bs⟩ where
  whole hg hr := by
    obtain ⟨src', hw, hg'⟩ := readWord_gives hg hr
    exact ⟨src', by simp [Session.readCreated, readHandle, hw, Except.map], hg'⟩
  short hg hs := by
    obtain ⟨src', hw⟩ := readWord_short hg hs
    exact ⟨src', by simp [Session.readCreated, readHandle, hw, Except.map]⟩
  tooLong _ ht := by cases ht.1

theorem reads_done (hr : r.width? = some 4) : Reads r Session.readDone statusIn where
  whole hg hw := by
    rw [Replies, hr] at hw
    obtain ⟨src', hread, hg'⟩ := readWord_gives hg hw
    refine ⟨src', ?_, hg'⟩
    rw [statusIn, List.take_of_length_le (Nat.le_of_eq hw)]
    simp [Session.readDone, readStatus, hread, Except.map]
  short hg hs := by
    rw [Short, hr] at hs
    obtain ⟨src', hw⟩ := readWord_short hg hs
    exact ⟨src', by simp [Session.readDone, readStatus, hw, Except.map]⟩
  tooLong _ ht := by
    rw [TooLong, hr] at ht
    cases ht.1

theorem reads_announced (h : Handle) :
    Reads (.fetchErrorMessage h) Session.readAnnounced statusIn where
  whole {f src response rest} hg hr := by
    have hr : response.length = 8 := hr
    rw [← List.take_append_drop 4 response, List.append_assoc] at hg
    obtain ⟨src₁, hw₁, hg₁⟩ := readWord_gives hg (by rw [List.length_take]; omega)
    obtain ⟨src₂, hw₂, hg₂⟩ := readWord_gives hg₁ (by rw [List.length_drop]; omega)
    refine ⟨src₂, ?_, hg₂⟩
    simp [Session.readAnnounced, readStatus, statusIn, hw₁, hw₂, Except.map]
  short {f src bs} hg hs := by
    have hs : bs.length < 8 := hs
    rcases split_at 4 bs with hl | ⟨front, rest, rfl, hl⟩
    · obtain ⟨src', hw⟩ := readWord_short hg hl
      exact ⟨src', by simp [Session.readAnnounced, readStatus, hw, Except.map]⟩
    · rw [List.length_append] at hs
      obtain ⟨src₁, hw₁, hg₁⟩ := readWord_gives hg hl
      obtain ⟨src₂, hw₂⟩ := readWord_short hg₁ (by omega)
      refine ⟨src₂, ?_⟩
      simp [Session.readAnnounced, readStatus, hw₁, hw₂, Except.map]
  tooLong _ ht := by cases ht.1

theorem reads_text (h : Handle) : Reads (.readErrorMessage h) readText
    fun bs => Text.ofUtf8Lossy (bs.drop 4) where
  whole {f src response rest} hg hr := by
    obtain ⟨length, text, rfl, hl, hmax⟩ := hr
    rw [List.append_assoc] at hg
    obtain ⟨src₁, hw, hg₁⟩ := readWord_word length hg
    obtain ⟨src₂, ht, hg₂⟩ := hg₁.readExact
    refine ⟨src₂, ?_, hg₂⟩
    rw [hl] at ht hmax
    rw [readText, hw]
    dsimp only
    rw [if_neg (by omega), ht, List.drop_left' (length_word length)]
    rfl
  short {f src bs} hg hs := by
    rcases hs with hl | ⟨length, text, rfl, hl, hmax⟩
    · obtain ⟨src', hw⟩ := readWord_short hg hl
      exact ⟨src', by rw [readText, hw]⟩
    · obtain ⟨src₁, hw, hg₁⟩ := readWord_word length hg
      obtain ⟨rfl, rfl⟩ := hg₁
      obtain ⟨src₂, ht⟩ := readExact_of_lt hl
      refine ⟨src₂, ?_⟩
      rw [readText, hw]
      dsimp only
      rw [if_neg (by omega), ht]
      rfl
  tooLong {f src bs length} hg ht := by
    obtain ⟨-, hmax, text, rfl⟩ := ht
    obtain ⟨src', hw, -⟩ := readWord_word length hg
    exact ⟨src', by rw [readText, hw]; dsimp only; rw [if_pos hmax]⟩

end Readers

end Handoff.Control
