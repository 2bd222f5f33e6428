import Handoff.Proofs.Wire.Pipe

namespace Handoff.Wire
namespace Source

def delivered : Source → List UInt8
  | .bytes (b :: bs) :: src => b :: bs ++ delivered src
  | .interrupted :: src => delivered src
  | _ => []

/-- What a read comes to when it asks for more than these. -/
def ending : Source → PipeFault
  | .bytes (_ :: _) :: src => ending src
  | .interrupted :: src => ending src
  | .failed text :: _ => .failed text
  | _ => .ended

/-- The pipe gives just these bytes, in whatever pieces, and then ends or fails like this. -/
structure Gives (f : PipeFault) (src : Source) (bs : List UInt8) : Prop where
  bytes : src.delivered = bs
  ending : src.ending = f

theorem gives (src : Source) : Gives src.ending src src.delivered :=
  ⟨rfl, rfl⟩

theorem Carries.gives {src : Source} {bs : List UInt8} (h : Carries src bs) :
    Gives .ended src bs := by
  induction h with
  | done => exact ⟨rfl, rfl⟩
  | again _ ih => exact ⟨ih.bytes, ih.ending⟩
  | @piece front src bs hne _ ih =>
    cases front with
    | nil => exact absurd rfl hne
    | cons b front => exact ⟨congrArg (b :: front ++ ·) ih.bytes, ih.ending⟩

section
variable {src : Source} {bs : List UInt8} {f : PipeFault}

theorem Gives.piece (h : Gives f src bs) {front : List UInt8} (hne : front ≠ []) :
    Gives f (.bytes front :: src) (front ++ bs) := by
  cases front with
  | nil => exact absurd rfl hne
  | cons b front => exact ⟨congrArg (b :: front ++ ·) h.bytes, h.ending⟩

theorem Gives.unread (h : Gives f src bs) (front : List UInt8) :
    Gives f (unread front src) (front ++ bs) := by
  unfold Source.unread
  split
  · rename_i he
    rwa [he]
  · rename_i hne
    exact h.piece hne

theorem delivered_piece {front : List UInt8} (hne : front ≠ []) (src : Source) :
    delivered (.bytes front :: src) = front ++ delivered src :=
  ((gives src).piece hne).bytes

theorem ending_piece {front : List UInt8} (hne : front ≠ []) (src : Source) :
    ending (.bytes front :: src) = ending src :=
  ((gives src).piece hne).ending

/-- What there is enough of is read off the front, wherever the pieces end. -/
theorem readExact_of_le {n : Nat} {src : Source} (hn : n ≤ src.delivered.length) :
    ∃ src', src.readExact n = (.ok (src.delivered.take n), src') ∧
      Gives src.ending src' (src.delivered.drop n) := by
  fun_induction readExact n src with
  | case1 src => exact ⟨src, rfl, gives src⟩
  | case2 => exact absurd hn (Nat.not_succ_le_zero _)
  | case3 n src ih => exact ih hn
  | case4 => exact absurd hn (Nat.not_succ_le_zero _)
  | case5 => exact absurd hn (Nat.not_succ_le_zero _)
  | case6 n front src hne hlt =>
    rw [delivered_piece hne, ending_piece hne, List.take_append_of_le_length (by omega),
      List.drop_append_of_le_length (by omega)]
    have hmore : front.drop (n + 1) ≠ [] := by
      rw [ne_eq, List.drop_eq_nil_iff]
      omega
    exact ⟨_, rfl, (gives src).piece hmore⟩
  | case7 n front src hne hlt r rest hr ih =>
    rw [delivered_piece hne, List.length_append] at hn
    obtain ⟨src', hr', hg⟩ := ih (by omega)
    obtain ⟨rfl, rfl⟩ := Prod.mk.inj (hr.symm.trans hr')
    have hle : front.length ≤ n + 1 := by omega
    rw [delivered_piece hne, ending_piece hne, List.take_append, List.drop_append,
      List.take_of_length_le hle, List.drop_of_length_le hle]
    exact ⟨rest, rfl, hg⟩

/-- Of what there is too little, nothing is read; the pipe's end is told. -/
theorem readExact_of_lt {n : Nat} {src : Source} (hn : src.delivered.length < n) :
    ∃ src', src.readExact n = (.error src.ending, src') := by
  fun_induction readExact n src with
  | case1 => exact absurd hn (Nat.not_lt_zero _)
  | case2 => exact ⟨[], rfl⟩
  | case3 n src ih => exact ih hn
  | case4 n text src => exact ⟨src, rfl⟩
  | case5 n src => exact ⟨src, rfl⟩
  | case6 n front src hne hlt =>
    rw [delivered_piece hne, List.length_append] at hn
    omega
  | case7 n front src hne hlt r rest hr ih =>
    rw [delivered_piece hne, List.length_append] at hn
    obtain ⟨src', hr'⟩ := ih (by omega)
    obtain ⟨rfl, rfl⟩ := Prod.mk.inj (hr.symm.trans hr')
    rw [ending_piece hne]
    exact ⟨rest, rfl⟩

theorem Gives.readExact {front rest : List UInt8} (h : Gives f src (front ++ rest)) :
    ∃ src', src.readExact front.length = (.ok front, src') ∧ Gives f src' rest := by
  have hle : front.length ≤ src.delivered.length := by
    rw [h.bytes, List.length_append]
    exact Nat.le_add_right ..
  obtain ⟨src', hr, hg⟩ := readExact_of_le hle
  rw [h.bytes, List.take_left] at hr
  rw [h.bytes, List.drop_left, h.ending] at hg
  exact ⟨src', hr, hg⟩

theorem Gives.readByte {b : UInt8} (h : Gives f src (b :: bs)) :
    ∃ src', src.readByte = (.ok (some b), src') ∧ Gives f src' bs := by
  obtain ⟨hb, rfl⟩ := h
  fun_induction Source.readByte src with
  | case1 => cases hb
  | case2 src ih => exact ih hb
  | case3 => cases hb
  | case4 => cases hb
  | case5 c cs src =>
    obtain ⟨rfl, rfl⟩ := List.cons.inj hb
    exact ⟨_, rfl, (gives src).unread cs⟩

theorem Gives.readByte_nil (h : Gives f src []) :
    ∃ src', src.readByte = (if f = .ended then .ok none else .error f, src') := by
  obtain ⟨hb, rfl⟩ := h
  fun_induction Source.readByte src with
  | case1 => exact ⟨[], rfl⟩
  | case2 src ih => exact ih hb
  | case3 text src => exact ⟨src, rfl⟩
  | case4 src => exact ⟨src, rfl⟩
  | case5 => cases hb

end

instance (f : PipeFault) : Kept (Gives f) where
  readExact h := h.readExact
  readByte h := h.readByte

end Source
end Handoff.Wire
