import Handoff.Wire.Sink
import Handoff.Wire.Source

namespace Handoff.Wire
namespace Source

/-- The pipe gives just these bytes, in whatever pieces, and never fails. -/
inductive Carries : Source → List UInt8 → Prop where
  | done : Carries [] []
  | again {src bs} : Carries src bs → Carries (.interrupted :: src) bs
  | piece {front src bs} : front ≠ [] → Carries src bs → Carries (.bytes front :: src) (front ++ bs)

theorem carries_bytes {bs : List UInt8} (h : bs ≠ []) : Carries [.bytes bs] bs := by
  have := Carries.piece h .done
  rwa [List.append_nil] at this

theorem carries_unread {src : Source} {bs : List UInt8} (h : Carries src bs) (front : List UInt8) :
    Carries (unread front src) (front ++ bs) := by
  unfold unread
  split
  · rename_i he
    rwa [he]
  · rename_i hne
    exact .piece hne h

theorem Carries.append {src src' : Source} {bs bs' : List UInt8} (h : Carries src bs)
    (h' : Carries src' bs') : Carries (src ++ src') (bs ++ bs') := by
  induction h with
  | done => exact h'
  | again _ ih => exact .again ih
  | piece hne _ ih =>
    rw [List.append_assoc]
    exact .piece hne ih

/-- Reading takes what is asked for off the front, wherever the pieces end. -/
theorem Carries.readExact_of_le {src : Source} {all : List UInt8} {n : Nat} (h : Carries src all)
    (hn : n ≤ all.length) :
    ∃ src', src.readExact n = (.ok (all.take n), src') ∧ Carries src' (all.drop n) := by
  induction h generalizing n with
  | done =>
    obtain rfl : n = 0 := Nat.le_zero.mp hn
    exact ⟨[], rfl, .done⟩
  | @again src bs hsrc ih =>
    cases n with
    | zero => exact ⟨_, rfl, .again hsrc⟩
    | succ n => exact ih hn
  | @piece front src bs hne hsrc ih =>
    cases n with
    | zero => exact ⟨_, rfl, .piece hne hsrc⟩
    | succ n =>
      rw [List.length_append] at hn
      rw [Source.readExact, if_neg hne]
      split
      · rename_i hlt
        rw [List.take_append_of_le_length (by omega), List.drop_append_of_le_length (by omega)]
        have hmore : front.drop (n + 1) ≠ [] := by
          rw [ne_eq, List.drop_eq_nil_iff]
          omega
        exact ⟨_, rfl, .piece hmore hsrc⟩
      · -- the piece is used up
        have hle : front.length ≤ n + 1 := by omega
        obtain ⟨src', hr, hc⟩ := ih (n := n + 1 - front.length) (by omega)
        rw [hr, List.take_append, List.drop_append, List.take_of_length_le hle,
          List.drop_of_length_le hle]
        exact ⟨src', rfl, hc⟩

theorem Carries.readExact {src : Source} {front rest : List UInt8}
    (h : Carries src (front ++ rest)) :
    ∃ src', src.readExact front.length = (.ok front, src') ∧ Carries src' rest := by
  obtain ⟨src', hr, hc⟩ := h.readExact_of_le (n := front.length) (by simp)
  rw [List.take_left] at hr
  rw [List.drop_left] at hc
  exact ⟨src', hr, hc⟩

theorem Carries.readByte {src : Source} {all bs : List UInt8} {b : UInt8} (h : Carries src all)
    (he : all = b :: bs) :
    ∃ src', src.readByte = (.ok (some b), src') ∧ Carries src' bs := by
  induction h generalizing bs with
  | done => simp at he
  | again _ ih => exact ih he
  | @piece part src rest hne hsrc ih =>
    cases part with
    | nil => exact absurd rfl hne
    | cons c part =>
      obtain ⟨rfl, rfl⟩ := List.cons.inj he
      exact ⟨_, rfl, carries_unread hsrc part⟩

/-- A way to say what a pipe still gives that reading keeps up. -/
class Kept (P : Source → List UInt8 → Prop) : Prop where
  readExact {src front rest} : P src (front ++ rest) →
    ∃ src', src.readExact front.length = (.ok front, src') ∧ P src' rest
  readByte {src b rest} : P src (b :: rest) →
    ∃ src', src.readByte = (.ok (some b), src') ∧ P src' rest

instance : Kept Carries where
  readExact h := h.readExact
  readByte h := h.readByte rfl

/-- All bytes of a source, as if it never failed. -/
def content : Source → List UInt8
  | [] => []
  | .bytes bs :: src => bs ++ content src
  | _ :: src => content src

theorem Carries.content {src : Source} {bs : List UInt8} (h : Carries src bs) :
    src.content = bs := by
  induction h with
  | done => rfl
  | again _ ih => exact ih
  | piece _ _ ih => rw [Source.content, ih]

end Source

namespace Sink

structure Unfailing (s : Sink) : Prop where
  limit : s.limit = none
  flush : s.flushFault = none
  chunk : s.chunk ≠ some 0
  writes : ∀ e ∈ s.writes, e = .interrupted ∨ ∃ n, e = .takes (n + 1)
  flushes : ∀ f ∈ s.flushes, f = none

theorem Unfailing.share_pos {s : Sink} (h : s.Unfailing) {n : Nat} (hn : 0 < n) :
    0 < s.share n := by
  have hroom : s.room = none := by rw [room, h.limit]; rfl
  rw [share, hroom, Option.getD_none]
  cases hc : s.chunk with
  | none => simpa using hn
  | some k =>
    have : k ≠ 0 := fun hk => h.chunk (hc.trans (by rw [hk]))
    rw [Option.getD_some]
    omega

/-- What the next write does is no failure, and neither is what comes after it. -/
theorem Unfailing.next {s : Sink} (h : s.Unfailing) {e : WriteEvent} {writes : List WriteEvent}
    (he : s.writes = e :: writes) (written : List UInt8) :
    (e = .interrupted ∨ ∃ n, e = .takes (n + 1)) ∧ Unfailing { s with writes, written } := by
  have hw := h.writes
  rw [he] at hw
  exact ⟨hw e (List.mem_cons_self ..), h.limit, h.flush, h.chunk,
    fun e' he' => hw e' (List.mem_cons_of_mem _ he'), h.flushes⟩

theorem Unfailing.writeAll {s : Sink} (h : s.Unfailing) (bs : List UInt8) :
    ∃ s', s.writeAll bs = (.ok (), s') ∧ s'.written = s.written ++ bs ∧ s'.Unfailing := by
  fun_induction s.writeAll bs with
  | case1 s => exact ⟨s, rfl, (List.append_nil _).symm, h⟩
  | case2 s bs hne writes hw ih => exact ih (h.next hw s.written).2
  | case3 s bs hne text writes hw =>
    obtain ⟨he | ⟨n, he⟩, -⟩ := h.next hw s.written <;> cases he
  | case4 s bs hne writes hw =>
    obtain ⟨he | ⟨n, he⟩, -⟩ := h.next hw s.written <;> cases he
  | case5 s bs hne n writes hw hn ih =>
    obtain ⟨s', hs, hbs, hu⟩ := ih (h.next hw _).2
    refine ⟨s', hs, ?_, hu⟩
    rw [hbs, List.append_assoc, List.take_append_drop]
  | case6 s bs hne hw k hk ih => exact ih ⟨h.limit, h.flush, h.chunk, h.writes, h.flushes⟩
  | case7 s bs hne hw hk hz =>
    have := h.share_pos (List.length_pos_iff.mpr hne)
    omega
  | case8 s bs hne hw hk hz ih =>
    obtain ⟨s', hs, hbs, hu⟩ := ih ⟨h.limit, h.flush, h.chunk, h.writes, h.flushes⟩
    refine ⟨s', hs, ?_, hu⟩
    rw [hbs, List.append_assoc, List.take_append_drop]

theorem Unfailing.flushed {s : Sink} (h : s.Unfailing) :
    ∃ s', s.flush = (.ok (), s') ∧ s'.written = s.written ∧ s'.Unfailing := by
  unfold Sink.flush
  split
  · rename_i text rest hf
    cases h.flushes (some text) (hf ▸ List.mem_cons_self ..)
  · rename_i rest hf
    exact ⟨_, rfl, rfl, h.limit, h.flush, h.chunk, h.writes,
      fun f hm => h.flushes f (hf ▸ List.mem_cons_of_mem _ hm)⟩
  · rw [h.flush]
    exact ⟨s, rfl, rfl, h⟩

theorem Unfailing.send {s : Sink} (h : s.Unfailing) (bs : List UInt8) :
    ∃ s', s.send bs = (.ok (), s') ∧ s'.written = s.written ++ bs ∧ s'.Unfailing := by
  obtain ⟨s₁, hw, hs₁, hu₁⟩ := h.writeAll bs
  obtain ⟨s', hf, hs', hu'⟩ := hu₁.flushed
  exact ⟨s', by rw [Sink.send, hw]; exact hf, hs'.trans hs₁, hu'⟩

end Sink
end Handoff.Wire
