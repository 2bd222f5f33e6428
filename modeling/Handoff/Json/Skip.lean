import Handoff.Json.Number
import Handoff.Json.String

namespace Handoff.Json

inductive Bracket where
  | list
  | object
  deriving DecidableEq

def Bracket.closing : Bracket → Char
  | list => ']'
  | object => '\x7d'

/-- What comes next while values are passed over. -/
inductive Spot where
  | value
  /-- The name of an object's field. -/
  | key
  /-- Whatever may follow an opening bracket. -/
  | first
  /-- Whatever may follow a value. -/
  | next
  deriving DecidableEq

/-- Where the items of a bracket start. -/
def Bracket.item : Bracket → Spot
  | list => .value
  | object => .key

/-- The brackets that are open, innermost first, and what comes next inside them. -/
structure Nest where
  stack : List Bracket
  spot : Spot
  deriving DecidableEq

abbrev Skip := Except Fault (Nest × List Char)

/-- Passes over a value that holds no others; `c` is its first character. -/
def skipPlain (c : Char) (cs : List Char) : Except Fault (List Char) :=
  if c = 'n' then takeWord ['u', 'l', 'l'] cs
  else if c = 't' then takeWord ['r', 'u', 'e'] cs
  else if c = 'f' then takeWord ['a', 'l', 's', 'e'] cs
  else if c = '"' then skipChars cs
  else if c = '-' then skipNumber cs
  else if c.isDigit then skipNumber (c :: cs)
  else .error .malformed

/-- Passes over a value, or over the bracket that opens it. -/
def skipValue (stack : List Bracket) (cs : List Char) : Skip :=
  match trim cs with
  | [] => .error .ended
  | '[' :: rest => .ok (⟨.list :: stack, .first⟩, rest)
  | '\x7b' :: rest => .ok (⟨.object :: stack, .first⟩, rest)
  | c :: rest => (skipPlain c rest).map (⟨stack, .next⟩, ·)

/-- Passes over the colon between a field's name and its value. -/
def skipColon (cs : List Char) : Except Fault (List Char) :=
  match trim cs with
  | [] => .error .ended
  | c :: rest => if c = ':' then .ok rest else .error .malformed

/-- Passes over a field's name and its colon. -/
def skipKey (stack : List Bracket) (cs : List Char) : Skip :=
  match trim cs with
  | [] => .error .ended
  | c :: rest =>
    if c = '"' then ((skipChars rest).bind skipColon).map (⟨stack, .value⟩, ·)
    else .error .malformed

def skipItem (b : Bracket) (stack : List Bracket) (cs : List Char) : Skip :=
  match b with
  | .list => skipValue stack cs
  | .object => skipKey stack cs

/-- One step of passing over values. -/
def Nest.step (n : Nest) (cs : List Char) : Skip :=
  match n.stack, n.spot with
  | _, .value => skipValue n.stack cs
  | _, .key => skipKey n.stack cs
  | [], _ => skipValue [] cs
  | b :: outer, .first =>
    match trim cs with
    | [] => .error .ended
    | c :: rest => if c = b.closing then .ok (⟨outer, .next⟩, rest) else skipItem b n.stack cs
  | b :: outer, .next =>
    match trim cs with
    | [] => .error .ended
    | c :: rest =>
      if c = ',' then .ok (⟨n.stack, b.item⟩, rest)
      else if c = b.closing then .ok (⟨outer, .next⟩, rest)
      else .error .malformed

theorem skipPlain_length {c : Char} {cs rest : List Char} (h : skipPlain c cs = .ok rest) :
    rest.length ≤ cs.length := by
  unfold skipPlain at h
  split at h
  · exact takeWord_length h
  split at h
  · exact takeWord_length h
  split at h
  · exact takeWord_length h
  split at h
  · exact Nat.le_of_lt (skipChars_length h)
  split at h
  · exact Nat.le_of_lt (skipNumber_length h)
  split at h
  · exact Nat.le_of_lt_succ (skipNumber_length h)
  · cases h

theorem skipColon_length {cs rest : List Char} (h : skipColon cs = .ok rest) :
    rest.length < cs.length := by
  have ht := trim_length cs
  unfold skipColon at h
  split at h
  · cases h
  · rename_i heq
    rw [heq, List.length_cons] at ht
    split at h
    · cases h; omega
    · cases h

theorem skipValue_length {stack : List Bracket} {cs rest : List Char} {n : Nest}
    (h : skipValue stack cs = .ok (n, rest)) : rest.length < cs.length := by
  have ht := trim_length cs
  unfold skipValue at h
  split at h
  · cases h
  · rename_i heq
    rw [heq, List.length_cons] at ht
    cases h; omega
  · rename_i heq
    rw [heq, List.length_cons] at ht
    cases h; omega
  · rename_i c rest' _ _ heq
    rw [heq, List.length_cons] at ht
    cases hp : skipPlain c rest' with
    | error f => rw [hp] at h; cases h
    | ok r =>
      rw [hp] at h
      cases h
      have := skipPlain_length hp
      omega

theorem skipKey_length {stack : List Bracket} {cs rest : List Char} {n : Nest}
    (h : skipKey stack cs = .ok (n, rest)) : rest.length < cs.length := by
  have ht := trim_length cs
  unfold skipKey at h
  split at h
  · cases h
  · rename_i c rest' heq
    rw [heq, List.length_cons] at ht
    split at h
    · cases hs : skipChars rest' with
      | error f => rw [hs] at h; cases h
      | ok r =>
        rw [hs] at h
        have hr := skipChars_length hs
        cases hc : skipColon r with
        | error f => simp only [Except.bind, hc] at h; cases h
        | ok r' =>
          simp only [Except.bind, hc] at h
          cases h
          have := skipColon_length hc
          omega
    · cases h

theorem skipItem_length {b : Bracket} {stack : List Bracket} {cs rest : List Char} {n : Nest}
    (h : skipItem b stack cs = .ok (n, rest)) : rest.length < cs.length := by
  cases b with
  | list => exact skipValue_length h
  | object => exact skipKey_length h

theorem Nest.step_length {n n' : Nest} {cs rest : List Char} (h : n.step cs = .ok (n', rest)) :
    rest.length < cs.length := by
  have ht := trim_length cs
  unfold Nest.step at h
  split at h
  · exact skipValue_length h
  · exact skipKey_length h
  · exact skipValue_length h
  · split at h
    · cases h
    · rename_i heq
      rw [heq, List.length_cons] at ht
      split at h
      · cases h; omega
      · exact skipItem_length h
  · split at h
    · cases h
    · rename_i heq
      rw [heq, List.length_cons] at ht
      split at h
      · cases h; omega
      · split at h
        · cases h; omega
        · cases h

/-- Passes over values until no bracket is open and no value is due. -/
def skipNest (n : Nest) (cs : List Char) : Except Fault (List Char) :=
  if n = ⟨[], .next⟩ then .ok cs
  else
    match h : n.step cs with
    | .error f => .error f
    | .ok (n, rest) =>
      have := Nest.step_length h
      skipNest n rest
termination_by cs.length

/-- Passes over one value, however deep it is. -/
def skip (cs : List Char) : Except Fault (List Char) :=
  skipNest ⟨[], .value⟩ cs

theorem skipNest_length {n : Nest} {cs rest : List Char} (h : skipNest n cs = .ok rest) :
    rest.length ≤ cs.length := by
  fun_induction skipNest n cs with
  | case1 => cases h; exact Nat.le_refl _
  | case2 => cases h
  | case3 n cs _ n' rest' _ hlt ih => exact Nat.le_trans (ih h) (Nat.le_of_lt hlt)

theorem skip_length {cs rest : List Char} (h : skip cs = .ok rest) : rest.length ≤ cs.length :=
  skipNest_length h

end Handoff.Json
