import Handoff.Proofs.Text.Utf8
import Handoff.Text.Boundary

namespace Handoff.Text

structure Longest (room : Nat) (s p : String) : Prop where
  leading : p.toList <+: s.toList
  fits : (utf8 p).length ≤ room
  longest : ∀ q : String, q.toList <+: s.toList → (utf8 q).length ≤ room → q.toList <+: p.toList

/-- What is left of a character that a cut between bytes goes through. -/
def torn (room : Nat) (s : String) : List UInt8 :=
  ((utf8 s).take room).drop (utf8 (cut room s)).length

section Bytes

theorem isTrailing_byte (n : Nat) : isTrailing (UInt8.ofNat (n % 0x40 + 0x80)) = true := by
  have hb := toNat_byte (n := n % 0x40 + 0x80) (by omega)
  simp only [isTrailing, Bool.and_eq_true, decide_eq_true_eq, UInt8.le_iff_toNat_le,
    UInt8.lt_iff_toNat_lt, hb, UInt8.reduceToNat]
  omega

theorem isTrailing_of_lt {b : UInt8} (h : b.toNat < 0x80) : isTrailing b = false := by
  simp only [isTrailing, Bool.and_eq_false_iff, decide_eq_false_iff_not, UInt8.le_iff_toNat_le,
    UInt8.lt_iff_toNat_lt, UInt8.reduceToNat]
  omega

theorem isTrailing_of_le {b : UInt8} (h : 0xC0 ≤ b.toNat) : isTrailing b = false := by
  simp only [isTrailing, Bool.and_eq_false_iff, decide_eq_false_iff_not, UInt8.le_iff_toNat_le,
    UInt8.lt_iff_toNat_lt, UInt8.reduceToNat]
  omega

/-- A trailing byte is not zero. -/
theorem ne_zero_of_isTrailing {b : UInt8} (h : isTrailing b = true) : b ≠ 0 := by
  rintro rfl
  exact absurd h (by decide)

structure Shaped (c : Char) (b : UInt8) (bytes : List UInt8) : Prop where
  encoded : String.utf8EncodeChar c = b :: bytes
  first : isTrailing b = false
  later : ∀ x ∈ bytes, isTrailing x = true
  /-- Only one character has a zero byte, and it has no other. -/
  zero : b = 0 → c = '\x00'

theorem shaped_of_le {c : Char} {n : Nat} (more : List Nat) (hl : 0xC0 ≤ n) (hn : n < 0x100)
    (he : String.utf8EncodeChar c =
      UInt8.ofNat n :: more.map fun m => UInt8.ofNat (m % 0x40 + 0x80)) :
    ∃ b bytes, Shaped c b bytes := by
  have hb := toNat_byte hn
  refine ⟨_, _, he, isTrailing_of_le (by rwa [hb]), ?_, fun h => ?_⟩
  · intro x hx
    obtain ⟨m, -, rfl⟩ := List.mem_map.mp hx
    exact isTrailing_byte m
  · rw [h, UInt8.toNat_zero] at hb
    omega

theorem shaped (c : Char) : ∃ b bytes, Shaped c b bytes := by
  have he := String.utf8EncodeChar.eq_1 c
  generalize hv : c.val.toNat = v at he
  split at he
  · have hb := toNat_byte (n := v) (by omega)
    refine ⟨_, [], he, isTrailing_of_lt (by omega), by simp, fun h => Char.ext ?_⟩
    rw [h, UInt8.toNat_zero, ← hv] at hb
    exact UInt32.toNat_inj.mp hb.symm
  · split at he
    · exact shaped_of_le [v] (by omega) (by omega) he
    · split at he
      · exact shaped_of_le [v / 64, v] (by omega) (by omega) he
      · exact shaped_of_le [v / 4096, v / 64, v] (by omega) (by omega) he

end Bytes

section Boundaries
variable {c : Char} {cs front back : List Char} {bytes : List UInt8} {k j : Nat}

theorem isBoundary_zero (bytes : List UInt8) : isBoundary bytes 0 = true := by
  simp [isBoundary]

/-- Inside a character there is no place to cut. -/
theorem isBoundary_within (hk : 0 < k) (hc : k < c.utf8Size) :
    isBoundary (String.utf8EncodeChar c ++ bytes) k = false := by
  obtain ⟨b, more, he, -, hl, -⟩ := shaped c
  have hlen : more.length + 1 = c.utf8Size := by
    rw [← String.length_utf8EncodeChar, he, List.length_cons]
  obtain ⟨k, rfl⟩ := Nat.exists_eq_add_of_le' hk
  have hget : (b :: more ++ bytes)[k + 1]? = some more[k] := by
    rw [List.cons_append, List.getElem?_cons_succ, List.getElem?_append_left (by omega),
      List.getElem?_eq_getElem]
  rw [he, isBoundary, hget]
  simp [hl _ (List.getElem_mem _)]

/-- After a character the places to cut are those of what follows it. -/
theorem isBoundary_after (c : Char) (cs : List Char) (j : Nat) :
    isBoundary (String.utf8EncodeChar c ++ cs.flatMap String.utf8EncodeChar) (c.utf8Size + j) =
      isBoundary (cs.flatMap String.utf8EncodeChar) j := by
  have hpos := c.utf8Size_pos
  have hget : (String.utf8EncodeChar c ++ cs.flatMap String.utf8EncodeChar)[c.utf8Size + j]? =
      (cs.flatMap String.utf8EncodeChar)[j]? := by
    rw [List.getElem?_append_right (by simp), String.length_utf8EncodeChar, Nat.add_sub_cancel_left]
  rw [isBoundary, hget]
  cases j with
  | succ j => simp [isBoundary]
  | zero =>
    rw [isBoundary_zero]
    cases cs with
    | nil => simp
    | cons d cs =>
      obtain ⟨b, more, he, hf, -, -⟩ := shaped d
      simp [he, hf]

/-- The places to cut are those after some of the characters, by induction on these. -/
theorem isBoundary_iff : isBoundary (cs.flatMap String.utf8EncodeChar) k = true ↔
    ∃ front, front <+: cs ∧ (front.flatMap String.utf8EncodeChar).length = k := by
  induction cs generalizing k with
  | nil => simp [isBoundary, eq_comm]
  | cons c cs ih =>
    rw [List.flatMap_cons]
    constructor
    · intro h
      rcases Nat.eq_zero_or_pos k with rfl | hk
      · exact ⟨[], List.nil_prefix, rfl⟩
      · rcases Nat.lt_or_ge k c.utf8Size with hc | hc
        · rw [isBoundary_within hk hc] at h
          cases h
        · obtain ⟨j, rfl⟩ := Nat.exists_eq_add_of_le hc
          rw [isBoundary_after] at h
          obtain ⟨front, hf, rfl⟩ := ih.mp h
          exact ⟨c :: front, List.cons_prefix_cons.mpr ⟨rfl, hf⟩, by simp⟩
    · rintro ⟨front, hf, rfl⟩
      cases front with
      | nil => exact isBoundary_zero _
      | cons d front =>
        obtain ⟨rfl, htail⟩ := List.cons_prefix_cons.mp hf
        rw [List.flatMap_cons, List.length_append, String.length_utf8EncodeChar, isBoundary_after]
        exact ih.mpr ⟨front, htail, rfl⟩

theorem lastBoundary_self (h : isBoundary bytes k = true) : lastBoundary bytes k = k := by
  cases k with
  | zero => rfl
  | succ k => exact if_pos h

/-- Searching backwards stops at a place to cut and passes none. -/
theorem lastBoundary_eq (hj : j ≤ k) (hb : isBoundary bytes j = true)
    (hno : ∀ i, j < i → i ≤ k → isBoundary bytes i = false) : lastBoundary bytes k = j := by
  induction k with
  | zero => exact (Nat.le_zero.mp hj).symm
  | succ k ih =>
    unfold lastBoundary
    rcases Nat.lt_or_eq_of_le hj with hlt | rfl
    · rw [hno (k + 1) hlt (Nat.le_refl _), if_neg Bool.false_ne_true]
      exact ih (Nat.le_of_lt_succ hlt) fun i hi hk => hno i hi (Nat.le_succ_of_le hk)
    · rw [if_pos hb]

end Boundaries

section Cutting
variable {s p : String} {cs front : List Char} {room : Nat}

/-- Fewer characters take fewer bytes. -/
theorem length_front_le (h : front <+: cs) :
    (front.flatMap String.utf8EncodeChar).length ≤ (cs.flatMap String.utf8EncodeChar).length := by
  obtain ⟨back, rfl⟩ := h
  simp

theorem fit_prefix (cs : List Char) (room : Nat) : fit cs room <+: cs := by
  induction cs generalizing room with
  | nil => exact List.nil_prefix
  | cons c cs ih =>
    unfold fit
    split
    · exact List.cons_prefix_cons.mpr ⟨rfl, ih _⟩
    · exact List.nil_prefix

/-- Every leading part that fits is within the one that is taken. -/
theorem prefix_fit (h : front <+: cs) (hs : (front.map Char.utf8Size).sum ≤ room) :
    front <+: fit cs room := by
  induction cs generalizing front room with
  | nil => exact h
  | cons c cs ih =>
    cases front with
    | nil => exact List.nil_prefix
    | cons d front =>
      obtain ⟨rfl, htail⟩ := List.cons_prefix_cons.mp h
      rw [List.map_cons, List.sum_cons] at hs
      rw [fit, if_pos (by omega)]
      exact List.cons_prefix_cons.mpr ⟨rfl, ih htail (by omega)⟩

/-- Where a text is cut, the next character does not fit. -/
theorem fit_stops (cs : List Char) (room : Nat) : fit cs room = cs ∨
    ∃ c back, cs = fit cs room ++ c :: back ∧
      room < ((fit cs room).map Char.utf8Size).sum + c.utf8Size := by
  induction cs generalizing room with
  | nil => exact .inl rfl
  | cons c cs ih =>
    unfold fit
    split
    · rename_i hc
      rcases ih (room - c.utf8Size) with h | ⟨d, back, h, hlt⟩
      · exact .inl (congrArg (c :: ·) h)
      · refine .inr ⟨d, back, congrArg (c :: ·) h, ?_⟩
        rw [List.map_cons, List.sum_cons]
        omega
    · rename_i hc
      exact .inr ⟨c, cs, rfl, by simpa using hc⟩

theorem longest_cut (room : Nat) (s : String) : Longest room s (cut room s) where
  leading := by
    rw [toList_cut]
    exact fit_prefix ..
  fits := length_utf8_cut_le room s
  longest := fun q hq hl => by
    rw [toList_cut]
    exact prefix_fit hq (by rwa [← length_utf8])

theorem Longest.unique (h : Longest room s p) : p = cut room s := by
  have hc := longest_cut room s
  have hle := h.longest _ hc.leading hc.fits
  have hge := hc.longest _ h.leading h.fits
  exact String.toList_inj.mp (hge.eq_of_length_le hle.length_le)

/-- A search backwards from the limit stops where the cut is. -/
theorem lastBoundary_utf8 (room : Nat) (s : String) :
    lastBoundary (utf8 s) room = (utf8 (cut room s)).length := by
  have hc := longest_cut room s
  refine lastBoundary_eq hc.fits (isBoundary_iff.mpr ⟨_, hc.leading, rfl⟩) fun i hlt hi => ?_
  rw [← Bool.not_eq_true, utf8, isBoundary_iff]
  rintro ⟨front, hf, rfl⟩
  have hq := hc.longest (String.ofList front) (by rwa [String.toList_ofList])
    (by rwa [utf8, String.toList_ofList])
  rw [String.toList_ofList] at hq
  exact absurd (length_front_le hq) (Nat.not_le.mpr hlt)

theorem utf8_cut (room : Nat) (s : String) :
    utf8 (cut room s) = (utf8 s).take (lastBoundary (utf8 s) room) := by
  obtain ⟨back, hb⟩ := (longest_cut room s).leading
  rw [lastBoundary_utf8, utf8, utf8, ← hb, List.flatMap_append, List.take_left]

theorem charsBefore_front (front back : List Char) :
    charsBefore (front ++ back) (front.flatMap String.utf8EncodeChar).length = front := by
  induction front with
  | nil => cases back <;> rfl
  | cons c front ih =>
    have hpos := c.utf8Size_pos
    rw [List.flatMap_cons, List.length_append, String.length_utf8EncodeChar, List.cons_append,
      charsBefore, if_neg (by omega), Nat.add_sub_cancel_left, ih]

/-- What stands before the place that the search finds is the cut. -/
theorem before_lastBoundary (room : Nat) (s : String) :
    before (lastBoundary (utf8 s) room) s = cut room s := by
  obtain ⟨back, hb⟩ := (longest_cut room s).leading
  rw [before, lastBoundary_utf8, ← hb, utf8, charsBefore_front, String.ofList_toList]

/-- A text that is cut loses at least a character, and less than one of what would fit. -/
theorem cut_stops (room : Nat) (s : String) : cut room s = s ∧ s.utf8ByteSize ≤ room ∨
    ∃ c back, s.toList = (cut room s).toList ++ c :: back ∧
      (utf8 (cut room s)).length ≤ room ∧ room < (utf8 (cut room s)).length + c.utf8Size := by
  have hle := length_utf8_cut_le room s
  rcases fit_stops s.toList room with h | ⟨c, back, h, hlt⟩
  · have hs : cut room s = s := by rw [cut, h, String.ofList_toList]
    refine .inl ⟨hs, ?_⟩
    rwa [hs, length_utf8_eq] at hle
  · refine .inr ⟨c, back, by rwa [toList_cut], hle, ?_⟩
    rwa [length_utf8, toList_cut]

theorem length_of_split {c : Char} {back : List Char} (h : s.toList = p.toList ++ c :: back) :
    (utf8 p).length + c.utf8Size ≤ (utf8 s).length := by
  rw [utf8, utf8, h, List.flatMap_append, List.flatMap_cons, List.length_append, List.length_append,
    String.length_utf8EncodeChar]
  omega

theorem cut_eq_self_iff : cut room s = s ↔ s.utf8ByteSize ≤ room := by
  refine ⟨fun h => ?_, cut_of_le⟩
  have hle := length_utf8_cut_le room s
  rwa [h, length_utf8_eq] at hle

/-- No character takes more than four bytes. -/
theorem cut_tight (h : cut room s ≠ s) : room ≤ (utf8 (cut room s)).length + 3 := by
  rcases cut_stops room s with ⟨he, -⟩ | ⟨c, back, -, -, hlt⟩
  · exact absurd he h
  · have := c.utf8Size_le_four
    omega

end Cutting

section Torn
variable {s : String} {room : Nat}

/-- Cutting between bytes keeps the text that is cut between characters, and part of a character. -/
theorem take_utf8 (room : Nat) (s : String) :
    (utf8 s).take room = utf8 (cut room s) ++ torn room s := by
  have hle := length_utf8_cut_le room s
  obtain ⟨back, hb⟩ := (longest_cut room s).leading
  have hs : utf8 s = utf8 (cut room s) ++ back.flatMap String.utf8EncodeChar := by
    rw [utf8, utf8, ← List.flatMap_append, hb]
  rw [torn, hs, List.take_append, List.take_of_length_le hle, List.drop_left]

/-- Where something is torn off, it is the front of the character that does not fit. -/
theorem torn_cases (room : Nat) (s : String) : s.utf8ByteSize ≤ room ∧ torn room s = [] ∨
    ∃ c back, s.toList = (cut room s).toList ++ c :: back ∧
      (utf8 (cut room s)).length ≤ room ∧ room < (utf8 (cut room s)).length + c.utf8Size ∧
      torn room s = (String.utf8EncodeChar c).take (room - (utf8 (cut room s)).length) := by
  have htake := take_utf8 room s
  rcases cut_stops room s with ⟨he, hle⟩ | ⟨c, back, hs, hle, hlt⟩
  · refine .inl ⟨hle, ?_⟩
    rw [he, List.take_of_length_le (by rwa [length_utf8_eq])] at htake
    exact List.self_eq_append_right.mp htake
  · refine .inr ⟨c, back, hs, hle, hlt, ?_⟩
    have hbytes : utf8 s = utf8 (cut room s) ++
        (String.utf8EncodeChar c ++ back.flatMap String.utf8EncodeChar) := by
      rw [utf8, utf8, hs, List.flatMap_append, List.flatMap_cons]
    rw [hbytes, List.take_append, List.take_of_length_le hle,
      List.take_append_of_le_length (by rw [String.length_utf8EncodeChar]; omega)] at htake
    exact (List.append_cancel_left htake).symm

theorem torn_eq_nil_iff : torn room s = [] ↔
    s.utf8ByteSize ≤ room ∨ isBoundary (utf8 s) room = true := by
  rcases torn_cases room s with ⟨hle, ht⟩ | ⟨c, back, hs, hle, hlt, ht⟩
  · exact iff_of_true ht (.inl hle)
  · have hlong : ¬ s.utf8ByteSize ≤ room := by
      have := length_of_split hs
      rw [length_utf8_eq s] at this
      omega
    have hbound : isBoundary (utf8 s) room = true ↔ (utf8 (cut room s)).length = room := by
      constructor
      · intro h
        have hcut := utf8_cut room s
        rw [lastBoundary_self h] at hcut
        rw [hcut, List.length_take, length_utf8_eq s]
        omega
      · intro h
        exact isBoundary_iff.mpr ⟨_, (longest_cut room s).leading, h⟩
    rw [or_iff_right hlong, hbound, ht, List.take_eq_nil_iff]
    simp only [String.utf8EncodeChar_ne_nil, or_false]
    omega

/-- Only a character that is kept whole has a zero byte. -/
theorem zero_notMem_torn (room : Nat) (s : String) : 0 ∉ torn room s := by
  intro h
  rcases torn_cases room s with ⟨-, ht⟩ | ⟨c, back, -, hle, hlt, ht⟩
  · rw [ht] at h
    cases h
  · have hroom : 0 < room - (utf8 (cut room s)).length := by
      refine Nat.pos_of_ne_zero fun h0 => ?_
      rw [ht, h0] at h
      cases h
    obtain ⟨b, more, he, -, hl, hz⟩ := shaped c
    rw [ht, he] at h
    rcases List.mem_cons.mp (List.mem_of_mem_take h) with h0 | hm
    · obtain rfl := hz h0.symm
      have hone : Char.utf8Size '\x00' = 1 := rfl
      omega
    · exact ne_zero_of_isTrailing (hl _ hm) rfl

theorem zero_mem_utf8 (s : String) : 0 ∈ utf8 s ↔ '\x00' ∈ s.toList := by
  rw [utf8, List.mem_flatMap]
  constructor
  · rintro ⟨c, hc, h0⟩
    obtain ⟨b, more, he, -, hl, hz⟩ := shaped c
    rw [he] at h0
    rcases List.mem_cons.mp h0 with hb | hm
    · rwa [← hz hb.symm]
    · exact absurd rfl (ne_zero_of_isTrailing (hl _ hm))
  · intro h
    exact ⟨_, h, List.mem_cons_self ..⟩

end Torn
end Handoff.Text
