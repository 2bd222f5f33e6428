import Mathlib.Algebra.GroupWithZero.Nat
import Handoff.Text.Utf8

namespace Handoff.Text

section Lead
variable {b : UInt8}

theorem leadOf_one (h : b.toNat < 0x80) : Lead.of b = .single := by
  rw [Lead.of, if_pos (UInt8.lt_iff_toNat_lt.mpr h)]

theorem leadOf_two (h₁ : 0xC2 ≤ b.toNat) (h₂ : b.toNat < 0xE0) :
    Lead.of b = .opens 1 0x80 0xBF := by
  rw [Lead.of, if_neg, if_neg, if_pos]
  all_goals rw [UInt8.lt_iff_toNat_lt]
  all_goals simp only [UInt8.reduceToNat]
  all_goals omega

theorem leadOf_three (h₁ : 0xE0 ≤ b.toNat) (h₂ : b.toNat < 0xF0) :
    Lead.of b =
      .opens 2 (if b.toNat = 0xE0 then 0xA0 else 0x80) (if b.toNat = 0xED then 0x9F else 0xBF) := by
  have hlt {n : UInt8} : b < n ↔ b.toNat < n.toNat := UInt8.lt_iff_toNat_lt
  have heq {n : UInt8} : b = n ↔ b.toNat = n.toNat := UInt8.toNat_inj.symm
  simp only [Lead.of, hlt, heq, UInt8.reduceToNat]
  rw [if_neg (by omega), if_neg (by omega), if_neg (by omega)]
  by_cases h₃ : b.toNat = 0xE0
  · simp [h₃]
  · by_cases h₄ : b.toNat = 0xED <;> simp [h₃, h₄, h₂]

theorem leadOf_four (h₁ : 0xF0 ≤ b.toNat) (h₂ : b.toNat < 0xF5) :
    Lead.of b =
      .opens 3 (if b.toNat = 0xF0 then 0x90 else 0x80) (if b.toNat = 0xF4 then 0x8F else 0xBF) := by
  have hlt {n : UInt8} : b < n ↔ b.toNat < n.toNat := UInt8.lt_iff_toNat_lt
  have heq {n : UInt8} : b = n ↔ b.toNat = n.toNat := UInt8.toNat_inj.symm
  simp only [Lead.of, hlt, heq, UInt8.reduceToNat]
  rw [if_neg (by omega), if_neg (by omega), if_neg (by omega), if_neg (by omega),
    if_neg (by omega), if_neg (by omega)]
  by_cases h₃ : b.toNat = 0xF0
  · simp [h₃]
  · by_cases h₄ : b.toNat = 0xF4
    · simp [h₄]
    · rw [if_neg h₃, if_pos (by omega), if_neg h₃, if_neg h₄]

end Lead

theorem toNat_byte {n : Nat} (h : n < 256) : (UInt8.ofNat n).toNat = n := by
  rw [UInt8.toNat_ofNat']
  exact Nat.mod_eq_of_lt h

section Follow
variable {more value : Nat} {bytes : List UInt8} (n : Nat)

/-- A byte that goes on with a character adds six bits. -/
theorem follow_cons {low high : UInt8} (h₁ : low.toNat ≤ n % 0x40 + 0x80)
    (h₂ : n % 0x40 + 0x80 ≤ high.toNat) :
    follow (more + 1) low high value (UInt8.ofNat (n % 0x40 + 0x80) :: bytes) =
      follow more 0x80 0xBF (value * 64 + n % 0x40) bytes := by
  have hb := toNat_byte (n := n % 0x40 + 0x80) (by omega)
  have hbits : (n % 0x40 + 0x80) % 64 = n % 0x40 := by omega
  rw [follow, if_pos, hb, hbits]
  rw [UInt8.le_iff_toNat_le, UInt8.le_iff_toNat_le, hb]
  exact ⟨h₁, h₂⟩

theorem follow_trail :
    follow (more + 1) 0x80 0xBF value (UInt8.ofNat (n % 0x40 + 0x80) :: bytes) =
      follow more 0x80 0xBF (value * 64 + n % 0x40) bytes := by
  apply follow_cons
  · exact Nat.le_add_left ..
  · simp only [UInt8.reduceToNat]
    omega

end Follow

/-- A character is read back from its bytes, whatever follows them. -/
theorem takeChar_encode (c : Char) (rest : List UInt8) :
    ∃ b bytes, String.utf8EncodeChar c = b :: bytes ∧
      takeChar b (bytes ++ rest) = (some c, rest) := by
  have hvalid : c.val.toNat < 0xD800 ∨ 0xDFFF < c.val.toNat ∧ c.val.toNat < 0x110000 := c.valid
  have hc : Char.ofNat c.val.toNat = c := Char.ofNat_toNat c
  unfold String.utf8EncodeChar
  generalize c.val.toNat = v at hvalid hc
  have hread : ∀ {n}, n = v → (some (Char.ofNat n), rest) = (some c, rest) := by
    rintro _ rfl
    rw [hc]
  dsimp only
  split
  · have hb := toNat_byte (n := v) (by omega)
    refine ⟨_, _, rfl, ?_⟩
    rw [takeChar, leadOf_one (by omega), hb, hc]
    rfl
  · split
    · have hb := toNat_byte (n := v / 64 % 0x20 + 0xc0) (by omega)
      refine ⟨_, _, rfl, ?_⟩
      rw [takeChar, leadOf_two (by omega) (by omega)]
      dsimp only [List.cons_append, List.nil_append]
      rw [follow_trail, follow, leadBits, hb]
      apply hread
      simp only [if_true]
      omega
    · split
      · have hb := toNat_byte (n := v / 4096 % 0x10 + 0xe0) (by omega)
        refine ⟨_, _, rfl, ?_⟩
        rw [takeChar, leadOf_three (by omega) (by omega), hb]
        dsimp only [List.cons_append, List.nil_append]
        rw [follow_cons, follow_trail, follow, leadBits, hb]
        · apply hread
          simp only [Nat.reduceEqDiff, if_true, if_false]
          omega
        · split <;> simp only [UInt8.reduceToNat] <;> omega
        · split <;> simp only [UInt8.reduceToNat] <;> omega
      · have hb := toNat_byte (n := v / 262144 % 0x08 + 0xf0) (by omega)
        refine ⟨_, _, rfl, ?_⟩
        rw [takeChar, leadOf_four (by omega) (by omega), hb]
        dsimp only [List.cons_append, List.nil_append]
        rw [follow_cons, follow_trail, follow_trail, follow, leadBits, hb]
        · apply hread
          simp only [Nat.reduceEqDiff, if_false]
          omega
        · split <;> simp only [UInt8.reduceToNat] <;> omega
        · split <;> simp only [UInt8.reduceToNat] <;> omega

theorem lossy_flatMap_encode (cs : List Char) : lossy (cs.flatMap String.utf8EncodeChar) = cs := by
  induction cs with
  | nil => simp [lossy]
  | cons c cs ih =>
    obtain ⟨b, bytes, he, ht⟩ := takeChar_encode c (cs.flatMap String.utf8EncodeChar)
    rw [List.flatMap_cons, he, List.cons_append, lossy, ht, ih]
    rfl

/-- Lossy reading loses nothing of what was a text. -/
theorem ofUtf8Lossy_utf8 (s : String) : ofUtf8Lossy (utf8 s) = s := by
  rw [ofUtf8Lossy, utf8, lossy_flatMap_encode, String.ofList_toList]

theorem strict_flatMap_encode (cs : List Char) :
    strict (cs.flatMap String.utf8EncodeChar) = some cs := by
  induction cs with
  | nil => simp [strict]
  | cons c cs ih =>
    obtain ⟨b, bytes, he, ht⟩ := takeChar_encode c (cs.flatMap String.utf8EncodeChar)
    rw [List.flatMap_cons, he, List.cons_append, strict, ht]
    dsimp only
    rw [ih]
    rfl

/-- The bytes of a text are well formed. -/
theorem ofUtf8?_utf8 (s : String) : ofUtf8? (utf8 s) = some s := by
  rw [ofUtf8?, utf8, strict_flatMap_encode, Option.map_some, String.ofList_toList]

theorem length_flatMap_encode (cs : List Char) :
    (cs.flatMap String.utf8EncodeChar).length = (cs.map Char.utf8Size).sum := by
  simp [List.length_flatMap]

theorem length_utf8 (s : String) : (utf8 s).length = (s.toList.map Char.utf8Size).sum :=
  length_flatMap_encode _

theorem length_utf8_eq (s : String) : (utf8 s).length = s.utf8ByteSize := by
  rw [← String.ofList_toList (s := s), String.utf8ByteSize, String.toByteArray_ofList,
    List.utf8Encode]
  simp [utf8]

/-- The longest leading part of a text that takes at most `room` bytes. -/
def fit : List Char → Nat → List Char
  | [], _ => []
  | c :: cs, room => if c.utf8Size ≤ room then c :: fit cs (room - c.utf8Size) else []

def cut (room : Nat) (s : String) : String :=
  String.ofList (fit s.toList room)

theorem sum_fit_le (cs : List Char) (room : Nat) :
    ((fit cs room).map Char.utf8Size).sum ≤ room := by
  induction cs generalizing room with
  | nil => simp [fit]
  | cons c cs ih =>
    unfold fit
    split
    · rename_i hle
      have := ih (room - c.utf8Size)
      simp only [List.map_cons, List.sum_cons]
      omega
    · simp

theorem fit_of_sum_le {cs : List Char} {room : Nat} (h : (cs.map Char.utf8Size).sum ≤ room) :
    fit cs room = cs := by
  induction cs generalizing room with
  | nil => rfl
  | cons c cs ih =>
    simp only [List.map_cons, List.sum_cons] at h
    rw [fit, if_pos (by omega), ih (by omega)]

theorem toList_cut (room : Nat) (s : String) : (cut room s).toList = fit s.toList room :=
  String.toList_ofList

theorem length_utf8_cut_le (room : Nat) (s : String) : (utf8 (cut room s)).length ≤ room := by
  rw [length_utf8, toList_cut]
  exact sum_fit_le ..

/-- What is short enough is not cut. -/
theorem cut_of_le {room : Nat} {s : String} (h : s.utf8ByteSize ≤ room) : cut room s = s := by
  rw [← length_utf8_eq, length_utf8] at h
  rw [cut, fit_of_sum_le h, String.ofList_toList]

/-- What was cut once is short enough. -/
theorem cut_cut (room : Nat) (s : String) : cut room (cut room s) = cut room s := by
  have h := fit_of_sum_le (sum_fit_le s.toList room)
  rw [cut, toList_cut, h]
  rfl

end Handoff.Text
