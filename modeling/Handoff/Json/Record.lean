import Handoff.Format
import Handoff.Json.Skip
import Handoff.Json.Text

namespace Handoff.Json
open Schema (Draft)

/-- A value in the place of a field. -/
def written : (k : Kind) → k.Value → List Char
  | .text, some v => quote v
  | .text, none => ['n', 'u', 'l', 'l']
  | .flag, true => ['t', 'r', 'u', 'e']
  | .flag, false => ['f', 'a', 'l', 's', 'e']

/-- The fault that reading a value found, or else that it stands where it should not. -/
def orMistyped {α : Type} : Except Fault α → Fault
  | .error f => f
  | .ok _ => .mistyped

/-- What a value amounts to in the place of one of another kind; `c` is its first character. -/
def misplaced (c : Char) (cs : List Char) : Fault :=
  if c = 'n' then orMistyped (takeWord ['u', 'l', 'l'] cs)
  else if c = 't' then orMistyped (takeWord ['r', 'u', 'e'] cs)
  else if c = 'f' then orMistyped (takeWord ['a', 'l', 's', 'e'] cs)
  else if c = '-' then numberFault cs
  else if c.isDigit then numberFault (c :: cs)
  else if c = '"' then orMistyped (chars cs)
  else if c = '[' ∨ c = '\x7b' then .mistyped
  else .malformed

/-- A text, or nothing in its place. -/
def readText (cs : List Char) : Read (Option String) :=
  match trim cs with
  | [] => .error .ended
  | c :: rest =>
    if c = '"' then (chars rest).map fun (s, rest) => (some (String.ofList s), rest)
    else if c = 'n' then (takeWord ['u', 'l', 'l'] rest).map (none, ·)
    else .error (misplaced c rest)

def readFlag (cs : List Char) : Read Bool :=
  match trim cs with
  | [] => .error .ended
  | c :: rest =>
    if c = 't' then (takeWord ['r', 'u', 'e'] rest).map (true, ·)
    else if c = 'f' then (takeWord ['a', 'l', 's', 'e'] rest).map (false, ·)
    else .error (misplaced c rest)

def readValue : (k : Kind) → List Char → Read k.Value
  | .text => readText
  | .flag => readFlag

/-- Goes to the name of an object's next field, if there is one. -/
def nextMember (first : Bool) (cs : List Char) : Read Bool :=
  match trim cs with
  | [] => .error .ended
  | c :: rest =>
    if c = '\x7d' then .ok (false, rest)
    else if first then if c = '"' then .ok (true, rest) else .error .malformed
    else if c = ',' then
      match trim rest with
      | [] => .error .ended
      | c :: rest => if c = '"' then .ok (true, rest) else .error .malformed
    else .error .malformed

/-- Goes to a list's next element, if there is one, and else stays at its end. -/
def nextElement (first : Bool) (cs : List Char) : Read Bool :=
  match trim cs with
  | [] => .error .ended
  | c :: rest =>
    if c = ']' then .ok (false, c :: rest)
    else if first then .ok (true, c :: rest)
    else if c = ',' then
      match trim rest with
      | [] => .error .ended
      | c :: rest => if c = ']' then .error .malformed else .ok (true, c :: rest)
    else .error .malformed

theorem nextMember_length {first more : Bool} {cs rest : List Char}
    (h : nextMember first cs = .ok (more, rest)) : rest.length < cs.length := by
  have ht := trim_length cs
  unfold nextMember at h
  split at h
  · cases h
  · rename_i c rest' heq
    rw [heq, List.length_cons] at ht
    have ht' := trim_length rest'
    split at h
    · cases h; omega
    split at h
    · split at h
      · cases h; omega
      · cases h
    split at h
    · split at h
      · cases h
      · rename_i heq'
        rw [heq', List.length_cons] at ht'
        split at h
        · cases h; omega
        · cases h
    · cases h

theorem takeWord_map_length {α : Type} {word cs rest : List Char} {a v : α}
    (h : (takeWord word cs).map (a, ·) = .ok (v, rest)) : rest.length ≤ cs.length := by
  cases hw : takeWord word cs with
  | error f => rw [hw] at h; cases h
  | ok r =>
    rw [hw] at h
    cases h
    exact takeWord_length hw

theorem readText_length {cs rest : List Char} {v : Option String}
    (h : readText cs = .ok (v, rest)) : rest.length < cs.length := by
  have ht := trim_length cs
  unfold readText at h
  split at h
  · cases h
  · rename_i c rest' heq
    rw [heq, List.length_cons] at ht
    split at h
    · cases hc : chars rest' with
      | error f => rw [hc] at h; cases h
      | ok r =>
        rw [hc] at h
        cases h
        have := chars_length hc
        omega
    split at h
    · have := takeWord_map_length h
      omega
    · cases h

theorem readFlag_length {cs rest : List Char} {v : Bool} (h : readFlag cs = .ok (v, rest)) :
    rest.length < cs.length := by
  have ht := trim_length cs
  unfold readFlag at h
  split at h
  · cases h
  · rename_i c rest' heq
    rw [heq, List.length_cons] at ht
    split at h
    · have := takeWord_map_length h
      omega
    split at h
    · have := takeWord_map_length h
      omega
    · cases h

theorem readValue_length : ∀ {k : Kind} {cs rest : List Char} {v : k.Value},
    readValue k cs = .ok (v, rest) → rest.length < cs.length
  | .text, _, _, _, h => readText_length h
  | .flag, _, _, _, h => readFlag_length h

section Record
variable {ι : Type} {s : Schema ι}

/-- A field's name, with its value as it is written. -/
def member (e : s.Entry) : String × List Char :=
  (s.name e.1, written (s.kind e.1) e.2)

variable [DecidableEq ι]

/-- Reads the value of a field. -/
def readField (d : s.Draft) (i : ι) (cs : List Char) : Read s.Draft :=
  (readValue (s.kind i) cs).map fun (v, rest) => (d.put i v, rest)

/-- Reads a field from the quote that opens its name on. A field of an unknown name is passed over;
one that is there already is refused before its value is looked at. -/
def readMember (d : s.Draft) (cs : List Char) : Read s.Draft :=
  match chars cs with
  | .error f => .error f
  | .ok (name, rest) =>
    match s.field? (String.ofList name) with
    | none => ((skipColon rest).bind skip).map (d, ·)
    | some i => if (d i).isSome then .error .mistyped else (skipColon rest).bind (readField d i)

theorem readField_length {d d' : s.Draft} {i : ι} {cs rest : List Char}
    (h : readField d i cs = .ok (d', rest)) : rest.length < cs.length := by
  unfold readField at h
  cases hv : readValue (s.kind i) cs with
  | error f => rw [hv] at h; cases h
  | ok r => rw [hv] at h; cases h; exact readValue_length hv

theorem readMember_length {d d' : s.Draft} {cs rest : List Char}
    (h : readMember d cs = .ok (d', rest)) : rest.length < cs.length := by
  unfold readMember at h
  split at h
  · cases h
  · rename_i name rest' hc
    have hlt := chars_length hc
    split at h
    · cases hs : skipColon rest' with
      | error f => simp only [hs, Except.bind] at h; cases h
      | ok r =>
        have hlt' := skipColon_length hs
        cases hk : skip r with
        | error f => simp only [hs, Except.bind, hk] at h; cases h
        | ok r' =>
          simp only [hs, Except.bind, hk] at h
          cases h
          have := skip_length hk
          omega
    · split at h
      · cases h
      · cases hs : skipColon rest' with
        | error f => simp only [hs, Except.bind] at h; cases h
        | ok r =>
          simp only [hs, Except.bind] at h
          have := skipColon_length hs
          have := readField_length h
          omega

/-- Reads an object's fields up to its end. -/
def readMembers (first : Bool) (d : s.Draft) (cs : List Char) : Read s.Draft :=
  match h : nextMember first cs with
  | .error f => .error f
  | .ok (false, rest) => .ok (d, rest)
  | .ok (true, rest) =>
    match h' : readMember d rest with
    | .error f => .error f
    | .ok (d, rest') =>
      have : rest'.length < cs.length :=
        Nat.lt_trans (readMember_length h') (nextMember_length h)
      readMembers false d rest'
termination_by cs.length

/-- Reads a list's elements into these fields; there may be fewer. -/
def readElements (first : Bool) (d : s.Draft) : List ι → List Char → Read s.Draft
  | [], cs => .ok (d, cs)
  | i :: is, cs =>
    match nextElement first cs with
    | .error f => .error f
    | .ok (false, rest) => .ok (d, rest)
    | .ok (true, rest) =>
      match readField d i rest with
      | .error f => .error f
      | .ok (d, rest) => readElements false d is rest

end Record

/-- The end of a list that has nothing more to read. -/
def closeList (cs : List Char) : Except Fault (List Char) :=
  match trim cs with
  | [] => .error .ended
  | c :: rest => if c = ']' then .ok rest else .error .malformed

/-- The end of the text. -/
def finish {α : Type} (a : α) (cs : List Char) : Except Fault α :=
  if trim cs = [] then .ok a else .error .malformed

/-- Reads a record from an object or from a list of its fields. The first thing that is wrong from
left to right counts. -/
def readRecord {ι : Type} [DecidableEq ι] (s : Schema ι) (cs : List Char) :
    Except Fault s.Draft :=
  match trim cs with
  | [] => .error .ended
  | c :: rest =>
    if c = '\x7b' then (readMembers true .empty rest).bind fun (d, rest) => finish d rest
    else if c = '[' then
      (readElements true .empty s.order rest).bind fun (d, rest) =>
        (closeList rest).bind (finish d)
    else .error (misplaced c rest)

def format : Format Fault where
  write _ es := String.ofList (object (es.map member))
  read := readRecord

end Handoff.Json
