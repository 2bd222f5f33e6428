import Mathlib.Algebra.GroupWithZero.Nat
import Handoff.Net.Endpoint.Reader

/-!
Numbers written in digits are read back, by the readers of addresses as by that of ports, whatever
follows that is no digit.
-/

namespace Handoff

namespace Text

theorem hexDigit?_digitChar : ∀ d < 16, hexDigit? (Nat.digitChar d) = some d := by decide

end Text

/-- The digits of a number in a base, with no zero before others. -/
structure Digits (base n : Nat) (ds : List Nat) : Prop where
  below : ∀ d ∈ ds, d < base
  value : valueOf base ds = n
  ne_nil : ds ≠ []
  leading : ds.head? = some 0 → ds = [0]

section
variable {base n : Nat} {ds : List Nat} {rest : List Char}

theorem Digits.length_ne_zero (h : Digits base n ds) : ds.length ≠ 0 :=
  fun hlength => h.ne_nil (List.eq_nil_of_length_eq_zero hlength)

theorem valueOf_concat (base d : Nat) (ds : List Nat) :
    valueOf base (ds ++ [d]) = valueOf base ds * base + d := by
  simp [valueOf]

theorem digits_of_lt (h : n < base) : Digits base n [n] where
  below := by simpa using h
  value := by simp [valueOf]
  ne_nil := by simp
  leading := by simp

theorem Digits.concat (h : Digits base (n / base) ds) (hbase : 0 < base) (hn : base ≤ n) :
    Digits base n (ds ++ [n % base]) where
  below := by
    intro d hd
    rcases List.mem_append.mp hd with hd | hd
    · exact h.below d hd
    · rw [List.mem_singleton.mp hd]
      exact Nat.mod_lt _ hbase
  value := by
    rw [valueOf_concat, h.value]
    exact Nat.div_add_mod' n base
  ne_nil := by simp
  leading := by
    intro hhead
    obtain ⟨d, ds', rfl⟩ := List.exists_cons_of_ne_nil h.ne_nil
    -- then nothing but zero is before the last digit
    have hvalue := h.value
    rw [h.leading hhead, show valueOf base [0] = 0 by simp [valueOf]] at hvalue
    exact absurd hvalue (Nat.ne_of_lt (Nat.div_pos hn hbase))

/-- What is written for a number are its digits. -/
theorem exists_digits (hbase : 1 < base) (n : Nat) :
    ∃ ds, Digits base n ds ∧ Nat.toDigits base n = ds.map Nat.digitChar := by
  induction n using Nat.strongRecOn with
  | ind n ih =>
    rcases Nat.lt_or_ge n base with hlt | hge
    · exact ⟨[n], digits_of_lt hlt, Nat.toDigits_of_lt_base hlt⟩
    · obtain ⟨ds, hds, htext⟩ := ih (n / base) (Nat.div_lt_self (by omega) hbase)
      refine ⟨ds ++ [n % base], hds.concat (by omega) hge, ?_⟩
      rw [Nat.toDigits_of_base_le hbase hge, htext, List.map_append]
      rfl

theorem length_digits_le (htext : Nat.toDigits base n = ds.map Nat.digitChar) (hbase : 1 < base)
    {k : Nat} (hk : 0 < k) (hn : n < base ^ k) : ds.length ≤ k := by
  have hlength := (Nat.length_toDigits_le_iff hbase hk).mpr hn
  rwa [htext, List.length_map] at hlength

/-- All digits are taken, and no more. -/
theorem takeDigits_map (hbase : base ≤ 16) (hds : ∀ d ∈ ds, d < base)
    (hrest : takeDigits base rest = ([], rest)) :
    takeDigits base (ds.map Nat.digitChar ++ rest) = (ds, rest) := by
  induction ds with
  | nil => exact hrest
  | cons d ds ih =>
    have hd : d < base := hds d List.mem_cons_self
    rw [List.map_cons, List.cons_append, takeDigits,
      Text.hexDigit?_digitChar d (Nat.lt_of_lt_of_le hd hbase)]
    simp only [if_pos hd, ih fun x hx => hds x (List.mem_cons_of_mem _ hx)]

/-- A decimal number that starts a text of hexadecimal digits ends in front of one of them, or of
what follows them. -/
theorem expect_dot_takeDigits (ds : List Nat) (hrest : takeDigits 10 rest = ([], rest))
    (hdot : expect '.' rest = none) :
    expect '.' (takeDigits 10 (ds.map Nat.digitChar ++ rest)).2 = none := by
  induction ds with
  | nil => rwa [List.map_nil, List.nil_append, hrest]
  | cons d ds ih =>
    have hhere : expect '.' (Nat.digitChar d :: (ds.map Nat.digitChar ++ rest)) = none := by
      rw [expect, if_neg (Nat.digitChar_ne '.' (by decide)).symm]
    rw [List.map_cons, List.cons_append, takeDigits]
    split
    · split
      · exact ih
      · exact hhere
    · exact hhere

theorem mem_toDigits (hbase : 1 < base) (hle : base ≤ 16) {c : Char}
    (hc : c ∈ Nat.toDigits base n) : ∃ d < 16, c = Nat.digitChar d := by
  obtain ⟨ds, hds, htext⟩ := exists_digits hbase n
  rw [htext] at hc
  obtain ⟨d, hd, rfl⟩ := List.mem_map.mp hc
  exact ⟨d, Nat.lt_of_lt_of_le (hds.below d hd) hle, rfl⟩

end

namespace Port
variable {ds : List Nat} {value : Nat}

theorem le_foldl_digits (ds : List Nat) (value : Nat) :
    value ≤ ds.foldl (fun n d => n * 10 + d) value := by
  induction ds generalizing value with
  | nil => exact Nat.le_refl _
  | cons d ds ih =>
    have := ih (value * 10 + d)
    rw [List.foldl_cons]
    omega

theorem digitChar_range : ∀ d < 10, '0' ≤ Nat.digitChar d ∧ Nat.digitChar d ≤ '9' := by decide

theorem readDigits_map (hds : ∀ d ∈ ds, d < 10)
    (hfits : ds.foldl (fun n d => n * 10 + d) value ≤ 65535) :
    readDigits value (ds.map Nat.digitChar) =
      .ok (.ofNat (ds.foldl (fun n d => n * 10 + d) value)) := by
  induction ds generalizing value with
  | nil => rfl
  | cons d ds ih =>
    have hd : d < 10 := hds d List.mem_cons_self
    have hle := le_foldl_digits ds (value * 10 + d)
    rw [List.foldl_cons] at hfits
    rw [List.map_cons, readDigits, if_pos (digitChar_range d hd), Nat.toNat_digitChar_of_lt_ten hd]
    have hvalue : value * 10 + (48 + d - '0'.toNat) = value * 10 + d := by
      rw [show '0'.toNat = 48 from rfl, Nat.add_sub_cancel_left]
    dsimp only
    rw [hvalue, if_neg (by omega), List.foldl_cons]
    exact ih (fun x hx => hds x (List.mem_cons_of_mem _ hx)) hfits

theorem parse_toDigits (port : Port) : parse (Nat.toDigits 10 port.toNat) = .ok port := by
  obtain ⟨ds, hds, htext⟩ := exists_digits (by decide : 1 < 10) port.toNat
  have hvalue : ds.foldl (fun n d => n * 10 + d) 0 = port.toNat := hds.value
  have hread : readDigits 0 (ds.map Nat.digitChar) = .ok port := by
    rw [readDigits_map hds.below (by have := port.toNat_lt; omega), hvalue]
    exact congrArg Except.ok (UInt16.ofNat_toNat ..)
  rw [htext]
  cases ds with
  | nil => exact absurd rfl hds.ne_nil
  | cons d ds =>
    have hplus : Nat.digitChar d ≠ '+' := Nat.digitChar_ne '+' (by decide)
    rw [List.map_cons] at hread ⊢
    rw [parse]
    · exact hread
    · rintro ⟨⟩
    · rintro h
      exact hplus (List.cons.inj h).1
    · rintro cs h
      exact hplus (List.cons.inj h).1

end Port
end Handoff
