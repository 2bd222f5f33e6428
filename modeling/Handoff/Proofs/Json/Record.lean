import Handoff.Json.Record
import Handoff.Proofs.Json.Reading

/-!
A record is read as it was written: every member of the object fills the field that it was written
for, and the reader is at the object's end after the last one.
-/

namespace Handoff.Json
open Schema (Draft)

theorem readText_quote (v : String) (rest : List Char) :
    readText (' ' :: (quote v ++ rest)) = .ok (some v, rest) := by
  have htrim : trim (' ' :: (quote v ++ rest)) =
      '"' :: (v.toList.flatMap escape ++ '"' :: rest) := by
    rw [quote_append]
    rfl
  simp only [readText, htrim, if_true, chars_flatMap_escape, Except.map, String.ofList_toList]

/-- A value is read back whatever follows it. -/
theorem readValue_written (rest : List Char) : ∀ (k : Kind) (v : k.Value),
    readValue k (' ' :: (written k v ++ rest)) = .ok (v, rest)
  | .text, some v => readText_quote v rest
  | .text, none => rfl
  | .flag, true => rfl
  | .flag, false => rfl

section Members
variable {ι : Type} [DecidableEq ι] {s : Schema ι} {d d' : s.Draft} {es : List s.Entry}

theorem readMembers_end {first : Bool} {cs rest : List Char}
    (h : nextMember first cs = .ok (false, rest)) : readMembers first d cs = .ok (d, rest) := by
  rw [readMembers]
  split
  · rename_i he
    cases he.symm.trans h
  · rename_i he
    cases he.symm.trans h
    rfl
  · rename_i he
    cases he.symm.trans h

theorem readMembers_next {first : Bool} {cs rest rest' : List Char}
    (h : nextMember first cs = .ok (true, rest)) (hm : readMember d rest = .ok (d', rest')) :
    readMembers first d cs = readMembers false d' rest' := by
  rw [readMembers]
  split
  · rename_i he
    cases he.symm.trans h
  · rename_i he
    cases he.symm.trans h
  · rename_i he
    cases he.symm.trans h
    split
    · rename_i he'
      cases he'.symm.trans hm
    · rename_i he'
      cases he'.symm.trans hm
      rfl

/-- A member is read from the quote that opens its name on. -/
theorem readMember_written {i : ι} (hnew : (d i).isSome = false) (v : (s.kind i).Value)
    (rest : List Char) :
    readMember d ((s.name i).toList.flatMap escape ++
      '"' :: ':' :: ' ' :: (written (s.kind i) v ++ rest)) = .ok (d.put i v, rest) := by
  have hcolon : skipColon (':' :: ' ' :: (written (s.kind i) v ++ rest)) =
      .ok (' ' :: (written (s.kind i) v ++ rest)) := rfl
  have hname : s.field? (s.name i) = some i := s.named i
  simp only [readMember, chars_flatMap_escape, String.ofList_toList, hname, hnew,
    Bool.false_eq_true, if_false, hcolon, Except.bind, readField, readValue_written, Except.map]

/-- Reading goes on with what follows the first member's value as it does after it. -/
theorem readMembers_further (h : d.fill es = some d') :
    readMembers false d (furtherMembers (es.map member)) = .ok (d', []) := by
  induction es generalizing d with
  | nil =>
    cases h
    exact readMembers_end rfl
  | cons e es ih =>
    obtain ⟨i, v⟩ := e
    obtain ⟨hnew, hmore⟩ := Option.ite_none_left_eq_some.mp h
    have hnext : nextMember false (furtherMembers ((⟨i, v⟩ :: es : List s.Entry).map member)) =
        .ok (true, (s.name i).toList.flatMap escape ++
          '"' :: ':' :: ' ' :: (written (s.kind i) v ++ furtherMembers (es.map member))) := by
      rw [List.map_cons, member, furtherMembers, quote_append]
      rfl
    rw [readMembers_next hnext (readMember_written (eq_false_of_ne_true hnew) v _), ih hmore]

theorem readMembers_object (h : d.fill es = some d') :
    ∃ cs, object (es.map member) = '\x7b' :: cs ∧ readMembers true d cs = .ok (d', []) := by
  cases es with
  | nil =>
    cases h
    exact ⟨['\x7d'], rfl, readMembers_end rfl⟩
  | cons e es =>
    obtain ⟨i, v⟩ := e
    obtain ⟨hnew, hmore⟩ := Option.ite_none_left_eq_some.mp h
    refine ⟨_, object_cons .., ?_⟩
    rw [quote_append, readMembers_next rfl (readMember_written (eq_false_of_ne_true hnew) v _),
      readMembers_further hmore]

end Members

theorem format_lawful : format.Lawful := by
  intro ι _ s es d h
  obtain ⟨cs, hcs, hread⟩ := readMembers_object h
  have htrim : trim ('\x7b' :: cs) = '\x7b' :: cs := rfl
  show readRecord s (String.ofList (object (es.map member))).toList = .ok d
  rw [String.toList_ofList, hcs, readRecord, htrim]
  dsimp only
  rw [if_pos rfl, hread]
  rfl

end Handoff.Json
