import Handoff.Net.Address.Reader
import Handoff.Proofs.Text.Digits

/-!
Every address is the one its text is read as. A longer address has texts of three kinds, with two
colons for its zeros, with octets at the end, or with all eight groups; the reader meets the colons
of each where a group could end.
-/

namespace Handoff

namespace V4
variable {ip : V4} {rest : List Char}

theorem readOctet_toDigits (x : UInt8) (hrest : takeDigits 10 rest = ([], rest)) :
    readOctet (Nat.toDigits 10 x.toNat ++ rest) = some (x, rest) := by
  obtain ⟨ds, hds, htext⟩ := exists_digits (by decide : 1 < 10) x.toNat
  have hx : x.toNat < 256 := x.toNat_lt
  have hlength : ds.length ≤ 3 := length_digits_le htext (by decide) (by decide) (by omega)
  have hpos := hds.length_ne_zero
  have hzero : ¬(ds.head? = some 0 ∧ 1 < ds.length) := by
    rintro ⟨hhead, hlong⟩
    rw [hds.leading hhead] at hlong
    exact Nat.lt_irrefl 1 hlong
  rw [htext, readOctet, takeDigits_map (by decide) hds.below hrest]
  dsimp only
  rw [if_neg (by omega), if_neg hzero, hds.value, if_neg (by omega), UInt8.ofNat_toNat]

theorem rest_readOctet {cs : List Char} {x : UInt8} (h : readOctet cs = some (x, rest)) :
    rest = (takeDigits 10 cs).2 := by
  unfold readOctet at h
  dsimp only at h
  split at h
  · cases h
  · split at h
    · cases h
    · split at h
      · cases h
      · cases h
        rfl

/-- Octets are read before anything that goes on without a digit. -/
theorem read_text (ip : V4) (hrest : takeDigits 10 rest = ([], rest)) :
    read (ip.text ++ rest) = some (ip, rest) := by
  have hdot : ∀ cs, takeDigits 10 ('.' :: cs) = ([], '.' :: cs) := fun _ => rfl
  have hexpect : ∀ cs, expect '.' ('.' :: cs) = some cs := fun _ => rfl
  simp only [text, List.append_assoc, List.cons_append, read, readOctet_toDigits _ (hdot _),
    readOctet_toDigits _ hrest, hexpect, Option.bind_eq_bind, Option.bind_some, pure]

theorem read_whole (ip : V4) : read ip.text = some (ip, []) := by
  simpa using read_text ip (rfl : takeDigits 10 [] = ([], []))

theorem mem_text {c : Char} (hc : c ∈ ip.text) : (∃ d < 16, c = Nat.digitChar d) ∨ c = '.' := by
  have hdigit : ∀ x : UInt8, c ∈ Nat.toDigits 10 x.toNat → ∃ d < 16, c = Nat.digitChar d :=
    fun _ => mem_toDigits (by decide) (by decide)
  simp only [text, List.mem_append, List.mem_cons] at hc
  rcases hc with ((hc | hc | hc) | hc | hc) | hc | hc
  · exact .inl (hdigit _ hc)
  · exact .inr hc
  · exact .inl (hdigit _ hc)
  · exact .inr hc
  · exact .inl (hdigit _ hc)
  · exact .inr hc
  · exact .inl (hdigit _ hc)

theorem groups_ofGroups (high low : UInt16) : (ofGroups high low).groups = [high, low] := by
  have hjoin : ∀ g : UInt16, UInt16.ofNat
      ((UInt8.ofNat (g.toNat / 256)).toNat * 256 + (UInt8.ofNat g.toNat).toNat) = g := by
    intro g
    have hg : g.toNat < 65536 := g.toNat_lt
    apply UInt16.toNat_inj.mp
    simp only [UInt16.toNat_ofNat', UInt8.toNat_ofNat']
    omega
  simp only [ofGroups, groups, hjoin]

end V4

namespace V6

/-- What comes after a group: the end, or a colon. -/
inductive Breaks : List Char → Prop where
  | done : Breaks []
  | colon (cs : List Char) : Breaks (':' :: cs)

/-- What comes after the last of some groups: the end, or two colons. -/
inductive Stops : List Char → Prop where
  | done : Stops []
  | colons (cs : List Char) : Stops (':' :: ':' :: cs)

def linked (gs : List UInt16) : List Char :=
  gs.flatMap fun g => ':' :: groupText g

section Reading
variable {g : UInt16} {gs : List UInt16} {cs rest : List Char} {room : Nat} {first : Bool}

theorem groupsText_cons (g : UInt16) (gs : List UInt16) :
    groupsText (g :: gs) = groupText g ++ linked gs := by
  induction gs generalizing g with
  | nil => simp [groupsText, linked]
  | cons g' gs ih =>
    have hnext : groupsText (g :: g' :: gs) = groupText g ++ ':' :: groupsText (g' :: gs) := by
      simp [groupsText, List.intercalate]
    rw [hnext, ih]
    simp [linked]

theorem Stops.breaks (h : Stops rest) : Breaks rest := by
  cases h with
  | done => exact .done
  | colons cs => exact .colon _

theorem breaks_linked (h : Breaks rest) (gs : List UInt16) : Breaks (linked gs ++ rest) := by
  cases gs with
  | nil => exact h
  | cons g gs => exact .colon _

theorem Breaks.takeDigits (h : Breaks rest) (base : Nat) :
    Handoff.takeDigits base rest = ([], rest) := by
  cases h <;> rfl

theorem Breaks.expect_dot (h : Breaks rest) : expect '.' rest = none := by
  cases h <;> rfl

theorem Breaks.readGroup (h : Breaks rest) : readGroup rest = none := by
  rw [V6.readGroup, h.takeDigits]
  rfl

theorem Breaks.readOctets (h : Breaks rest) : V4.read rest = none := by
  rw [V4.read, V4.readOctet, h.takeDigits]
  rfl

theorem readGroup_groupText (g : UInt16) (h : Breaks rest) :
    readGroup (groupText g ++ rest) = some (g, rest) := by
  obtain ⟨ds, hds, htext⟩ := exists_digits (by decide : 1 < 16) g.toNat
  have hg : g.toNat < 65536 := g.toNat_lt
  have hlength : ds.length ≤ 4 := length_digits_le htext (by decide) (by decide) (by omega)
  have hpos := hds.length_ne_zero
  rw [groupText, htext, readGroup, takeDigits_map (by decide) hds.below (h.takeDigits 16)]
  dsimp only
  rw [if_neg (by omega), hds.value, UInt16.ofNat_toNat]

/-- A group is not taken for octets, for no dot comes after it. -/
theorem readOctets_groupText (g : UInt16) (h : Breaks rest) :
    V4.read (groupText g ++ rest) = none := by
  obtain ⟨ds, hds, htext⟩ := exists_digits (by decide : 1 < 16) g.toNat
  have hdot := expect_dot_takeDigits ds (h.takeDigits 10) h.expect_dot
  rw [groupText, htext]
  cases hread : V4.readOctet (ds.map Nat.digitChar ++ rest) with
  | none => rw [V4.read, hread]; rfl
  | some p =>
    obtain ⟨x, after⟩ := p
    rw [V4.read, hread]
    simp only [Option.bind_eq_bind, Option.bind_some, V4.rest_readOctet hread, hdot,
      Option.bind_none]

theorem readGroups_group (hin : (if first then some cs else expect ':' cs) =
      some (groupText g ++ rest)) (h : Breaks rest) :
    readGroups (room + 1) first cs = ⟨g :: (readGroups room false rest).groups,
      (readGroups room false rest).octets, (readGroups room false rest).rest⟩ := by
  rw [readGroups, hin]
  dsimp only
  rw [readOctets_groupText g h, ite_self, readGroup_groupText g h]

theorem readGroups_first (h : Breaks rest) :
    readGroups (room + 1) true (groupText g ++ rest) = ⟨g :: (readGroups room false rest).groups,
      (readGroups room false rest).octets, (readGroups room false rest).rest⟩ :=
  readGroups_group rfl h

theorem readGroups_further (h : Breaks rest) :
    readGroups (room + 1) false (':' :: (groupText g ++ rest)) =
      ⟨g :: (readGroups room false rest).groups, (readGroups room false rest).octets,
        (readGroups room false rest).rest⟩ :=
  readGroups_group rfl h

theorem readGroups_none (hin : ∀ cs, (if first then some rest else expect ':' rest) = some cs →
    Breaks cs) : readGroups room first rest = ⟨[], false, rest⟩ := by
  cases room with
  | zero => rfl
  | succ room =>
    rw [readGroups]
    split
    · rfl
    · rename_i cs hcs
      rw [(hin cs hcs).readOctets, ite_self, (hin cs hcs).readGroup]

/-- Two colons end the groups, as the end of the text does. -/
theorem readGroups_stop (h : Stops rest) : readGroups room first rest = ⟨[], false, rest⟩ := by
  refine readGroups_none fun cs hcs => ?_
  cases first with
  | true =>
    cases hcs
    exact h.breaks
  | false =>
    cases h with
    | done => cases hcs
    | colons cs =>
      cases hcs
      exact .colon cs

theorem readGroups_linked (gs : List UInt16) (h : Stops rest) (hroom : gs.length ≤ room) :
    readGroups room false (linked gs ++ rest) = ⟨gs, false, rest⟩ := by
  induction gs generalizing room with
  | nil => exact readGroups_stop h
  | cons g gs ih =>
    have htext : linked (g :: gs) ++ rest = ':' :: (groupText g ++ (linked gs ++ rest)) := by
      rw [linked, List.flatMap_cons, List.cons_append, List.cons_append, List.append_assoc]
      rfl
    cases room with
    | zero => exact absurd hroom (Nat.not_succ_le_zero _)
    | succ room =>
      rw [htext, readGroups_further (breaks_linked h.breaks gs),
        ih (Nat.le_of_succ_le_succ hroom)]

/-- All groups are read, up to the end or up to two colons. -/
theorem readGroups_groupsText (gs : List UInt16) (h : Stops rest) (hroom : gs.length ≤ room) :
    readGroups room true (groupsText gs ++ rest) = ⟨gs, false, rest⟩ := by
  cases gs with
  | nil => exact readGroups_stop h
  | cons g gs =>
    cases room with
    | zero => exact absurd hroom (Nat.not_succ_le_zero _)
    | succ room =>
      rw [groupsText_cons, List.append_assoc, readGroups_first (breaks_linked h.breaks gs),
        readGroups_linked gs h (Nat.le_of_succ_le_succ hroom)]

/-- The same where nothing follows. -/
theorem readGroups_whole (gs : List UInt16) (hroom : gs.length ≤ room) :
    readGroups room true (groupsText gs) = ⟨gs, false, []⟩ := by
  simpa using readGroups_groupsText gs .done hroom

end Reading

section Zeros
variable {gs : List UInt16} {best : ZeroRun}

def ZeroRun.Within (r : ZeroRun) (gs : List UInt16) : Prop :=
  ∃ before after, gs = before ++ List.replicate r.length 0 ++ after ∧ before.length = r.start

/-- What is found are zeros, if what was found before is: the last `run` of the groups passed are
zeros, and a longer run starts with them. -/
theorem within_longestZeros (rest front : List UInt16) (run : Nat)
    (hgs : gs = front ++ List.replicate run 0 ++ rest) (hbest : best.Within gs) :
    (longestZeros rest (front.length + run) run best).Within gs := by
  induction rest generalizing front run best with
  | nil => exact hbest
  | cons g rest ih =>
    unfold longestZeros
    split
    · rename_i hg
      subst hg
      have hnext : gs = front ++ List.replicate (run + 1) 0 ++ rest := by
        rw [hgs, List.replicate_succ', List.append_assoc, List.append_assoc, List.append_assoc]
        rfl
      refine ih front (run + 1) hnext ?_
      split
      · exact ⟨front, rest, hnext, by simp⟩
      · exact hbest
    · have hnext : gs = (front ++ List.replicate run 0 ++ [g]) ++ List.replicate 0 0 ++ rest := by
        rw [hgs]
        simp
      have := ih (front ++ List.replicate run 0 ++ [g]) 0 hnext hbest
      simpa [Nat.add_assoc] using this

end Zeros

section Text
variable {ip : V6} {before after : List UInt16} {n : Nat} {cs rest : List Char} {octets : Bool}

/-- Two colons stand for the zeros between the groups around them. -/
theorem read_colons (hgroups : ip.groups = before ++ List.replicate n 0 ++ after) (hn : 0 < n)
    (htail : readGroups (7 - before.length) true cs = ⟨after, octets, []⟩) :
    read (groupsText before ++ ':' :: ':' :: cs) = some (ip, []) := by
  have hlength := ip.length_groups
  rw [hgroups, List.length_append, List.length_append, List.length_replicate] at hlength
  have hhead : readGroups 8 true (groupsText before ++ ':' :: ':' :: cs) =
      ⟨before, false, ':' :: ':' :: cs⟩ := readGroups_groupsText before (.colons cs) (by omega)
  have hzeros : 8 - before.length - after.length = n := by omega
  have hcolon : ∀ cs, expect ':' (':' :: cs) = some cs := fun _ => rfl
  obtain ⟨groups, length_groups⟩ := ip
  subst hgroups
  simp only [read, hhead, htail, hzeros, hcolon, Option.bind_eq_bind, Option.bind_some]
  rw [dif_neg (by omega), if_neg (by simp), dif_pos length_groups]

theorem read_all (ip : V6) : read (groupsText ip.groups) = some (ip, []) := by
  simp only [read, readGroups_whole ip.groups (Nat.le_of_eq ip.length_groups)]
  rw [dif_pos ip.length_groups]

theorem groups_of_mapped? {octets : V4} (h : ip.mapped? = some octets) :
    ip.groups = List.replicate 5 0 ++ 0xFFFF :: octets.groups := by
  unfold mapped? at h
  split at h
  · rename_i high low hgroups
    cases h
    rw [hgroups, V4.groups_ofGroups]
    rfl
  · cases h

/-- The octets that end a mapped address are read as the last two groups. -/
theorem readGroups_octets (octets : V4) :
    readGroups 7 true ("ffff:".toList ++ octets.text) = ⟨0xFFFF :: octets.groups, true, []⟩ := by
  have htext : "ffff:".toList ++ octets.text = groupText 0xFFFF ++ ':' :: octets.text := by
    rw [show groupText 0xFFFF = "ffff".toList by decide]
    rfl
  have hrest : readGroups 6 false (':' :: octets.text) = ⟨octets.groups, true, []⟩ := by
    rw [readGroups]
    simp only [Bool.false_eq_true, if_false, expect, if_true, V4.read_whole]
    rfl
  rw [htext, readGroups_first (.colon _), hrest]

inductive Written (ip : V6) : List Char → Prop where
  | mapped (octets : V4) : ip.groups = List.replicate 5 0 ++ 0xFFFF :: octets.groups →
    Written ip (':' :: ':' :: ("ffff:".toList ++ octets.text))
  | shortened (before after : List UInt16) (n : Nat) :
    ip.groups = before ++ List.replicate n 0 ++ after → 1 < n →
    Written ip (groupsText before ++ ':' :: ':' :: groupsText after)
  | full : Written ip (groupsText ip.groups)

theorem written_text (ip : V6) : Written ip ip.text := by
  unfold text
  split
  · rename_i octets hmapped
    exact .mapped octets (groups_of_mapped? hmapped)
  · have hzeros : (longestZeros ip.groups 0 0 ⟨0, 0⟩).Within ip.groups :=
      within_longestZeros ip.groups [] 0 rfl ⟨[], ip.groups, rfl, rfl⟩
    generalize longestZeros ip.groups 0 0 ⟨0, 0⟩ = zeros at hzeros ⊢
    obtain ⟨before, after, hgroups, hstart⟩ := hzeros
    dsimp only
    split
    · rename_i hlong
      have hbefore : ip.groups.take zeros.start = before := by
        rw [hgroups, List.append_assoc, ← hstart, List.take_left]
      have hafter : ip.groups.drop (zeros.start + zeros.length) = after := by
        rw [hgroups, List.drop_left' (by simp [hstart])]
      rw [hbefore, hafter]
      exact .shortened before after zeros.length hgroups hlong
    · exact .full

theorem read_text (ip : V6) : read ip.text = some (ip, []) := by
  have hwritten := written_text ip
  generalize ip.text = cs at hwritten
  cases hwritten with
  | mapped octets hgroups =>
    have hgroups : ip.groups = [] ++ List.replicate 5 0 ++ 0xFFFF :: octets.groups := by
      rw [List.nil_append, hgroups]
    have := read_colons hgroups (by decide) (readGroups_octets octets)
    rwa [show groupsText [] = [] from rfl, List.nil_append] at this
  | shortened before after n hgroups hn =>
    have hlength := ip.length_groups
    rw [hgroups, List.length_append, List.length_append, List.length_replicate] at hlength
    exact read_colons hgroups (by omega) (readGroups_whole after (by omega))
  | full => exact read_all ip

theorem readOctets_groupsText (gs : List UInt16) (h : Breaks rest) :
    V4.read (groupsText gs ++ rest) = none := by
  cases gs with
  | nil => exact h.readOctets
  | cons g gs =>
    rw [groupsText_cons, List.append_assoc]
    exact readOctets_groupText g (breaks_linked h gs)

/-- No text of a longer address starts like octets. -/
theorem readOctets_text (ip : V6) : V4.read ip.text = none := by
  have hwritten := written_text ip
  generalize ip.text = cs at hwritten
  cases hwritten with
  | mapped octets => exact Breaks.readOctets (.colon _)
  | shortened before after n => exact readOctets_groupsText before (.colon _)
  | full => simpa using readOctets_groupsText ip.groups .done

theorem mem_groupsText {gs : List UInt16} {c : Char} (hc : c ∈ groupsText gs) :
    (∃ d < 16, c = Nat.digitChar d) ∨ c = ':' := by
  have hdigit : ∀ g, c ∈ groupText g → ∃ d < 16, c = Nat.digitChar d :=
    fun _ => mem_toDigits (by decide) (by decide)
  cases gs with
  | nil => simp [groupsText] at hc
  | cons g gs =>
    rw [groupsText_cons, List.mem_append] at hc
    rcases hc with hc | hc
    · exact .inl (hdigit g hc)
    · obtain ⟨g', -, hc⟩ := List.mem_flatMap.mp hc
      rcases List.mem_cons.mp hc with hc | hc
      · exact .inr hc
      · exact .inl (hdigit g' hc)

end Text
end V6

namespace Address

/-- The text of an address is read as the address. -/
theorem parse?_text (ip : Address) : parse? ip.text = some ip := by
  have hread : read ip.text = some (ip, []) := by
    cases ip with
    | v4 ip => rw [text, read, V4.read_whole]
    | v6 ip =>
      rw [text, read, V6.readOctets_text, V6.read_text]
      rfl
  rw [parse?, hread]

/-- Digits, dots and colons are all that an address is written with. -/
theorem mem_text {ip : Address} {c : Char} (hc : c ∈ ip.text) :
    (∃ d < 16, c = Nat.digitChar d) ∨ c = '.' ∨ c = ':' := by
  cases ip with
  | v4 ip =>
    rcases V4.mem_text hc with hd | hdot
    · exact .inl hd
    · exact .inr (.inl hdot)
  | v6 ip =>
    have hgroups : ∀ gs, c ∈ V6.groupsText gs →
        (∃ d < 16, c = Nat.digitChar d) ∨ c = '.' ∨ c = ':' := fun gs h =>
      (V6.mem_groupsText h).imp_right .inr
    have hwritten := V6.written_text ip
    rw [text] at hc
    generalize ip.text = cs at hwritten hc
    cases hwritten with
    | mapped octets =>
      have hfront : ∀ x ∈ "::ffff:".toList, x = Nat.digitChar 15 ∨ x = ':' := by
        simp [Nat.digitChar]
      rcases List.mem_append.mp (show c ∈ "::ffff:".toList ++ octets.text from hc) with hc | hc
      · rcases hfront c hc with hd | hcolon
        · exact .inl ⟨15, by decide, hd⟩
        · exact .inr (.inr hcolon)
      · exact (V4.mem_text hc).imp_right .inl
    | shortened before after n =>
      rw [List.mem_append, List.mem_cons, List.mem_cons] at hc
      rcases hc with hc | hc | hc | hc
      · exact hgroups before hc
      · exact .inr (.inr hc)
      · exact .inr (.inr hc)
      · exact hgroups after hc
    | full => exact hgroups _ hc

theorem notMem_text {ip : Address} {c : Char} (hdigit : ∀ d < 16, Nat.digitChar d ≠ c)
    (hdot : '.' ≠ c) (hcolon : ':' ≠ c) : c ∉ ip.text := by
  intro hc
  rcases mem_text hc with ⟨d, hd, rfl⟩ | rfl | rfl
  · exact hdigit d hd rfl
  · exact hdot rfl
  · exact hcolon rfl

end Address
end Handoff
