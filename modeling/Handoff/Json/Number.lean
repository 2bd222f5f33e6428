import Handoff.Json.Scan

namespace Handoff.Json

/-- The number nearest to `n` with at most 53 significant bits; a half goes to the even one. -/
def round53 (n : Nat) : Nat :=
  let unit := Nat.pow 2 (n.log2 + 1 - 53)
  let low := n / unit
  let rest := 2 * (n % unit)
  if rest < unit ∨ rest = unit ∧ low % 2 = 0 then low * unit else (low + 1) * unit

/-- From here on a number with a point or an exponent is out of range. -/
def tooLarge : Nat := Nat.pow 2 1024 - Nat.pow 2 970

/-- Whether `significand * 10 ^ exponent` is out of range, both factors rounded first. -/
def isOutOfRange (significand : Nat) (exponent : Int) : Bool :=
  if exponent < 0 || significand = 0 then false
  else 308 < exponent || tooLarge ≤ round53 significand * round53 (Nat.pow 10 exponent.toNat)

/-- What a number in the place of something else amounts to. -/
def rangeFault (significand : Nat) (exponent : Int) : Fault :=
  if isOutOfRange significand exponent then .malformed else .mistyped

def digitValue (c : Char) : Nat :=
  c.toNat - '0'.toNat

/-- Reads digits onto a number of at most 64 bits: the number, and how many digits from the first
one that does not fit were left out. -/
def accumulate : (n : Nat) → List Char → Nat × Nat
  | n, [] => (n, 0)
  | n, d :: ds =>
    if Nat.pow 2 64 ≤ n * 10 + digitValue d then (n, ds.length + 1)
    else accumulate (n * 10 + digitValue d) ds

/-- The value of an exponent; none if it takes more than 31 bits. -/
def exponentValue? (ds : List Char) : Option Nat :=
  let n := ds.foldl (fun n d => n * 10 + digitValue d) 0
  if n < Nat.pow 2 31 then some n else none

/-- The end of a number, from its exponent on. -/
def exponentFault (significand : Nat) (scale : Int) (cs : List Char) : Fault :=
  let negative := cs.head? = some '-'
  let cs := if negative ∨ cs.head? = some '+' then cs.drop 1 else cs
  match cs with
  | [] => .ended
  | c :: _ =>
    if !c.isDigit then .malformed
    else match exponentValue? (cs.takeWhile Char.isDigit) with
      | none => if significand ≠ 0 ∧ !negative then .malformed else .mistyped
      | some e => rangeFault significand (if negative then scale - e else scale + e)

/-- The end of a number, from the digits after its point on. -/
def fractionFault (significand : Nat) (scale : Int) (cs : List Char) : Fault :=
  let ds := cs.takeWhile Char.isDigit
  let (significand, left) := accumulate significand ds
  let scale := scale - (ds.length - left : Nat)
  match ds, cs.dropWhile Char.isDigit with
  | [], [] => .ended
  | [], _ => .malformed
  | _, 'e' :: cs => exponentFault significand scale cs
  | _, 'E' :: cs => exponentFault significand scale cs
  | _, _ => rangeFault significand scale

/-- What a number, without its sign, amounts to in the place of something else: a value of the wrong
kind if it is a number, and else what is wrong with it. -/
def numberFault (cs : List Char) : Fault :=
  match cs with
  | [] => .ended
  | '0' :: d :: cs =>
    if d.isDigit then .malformed
    else if d = '.' then fractionFault 0 0 cs
    else if d = 'e' ∨ d = 'E' then exponentFault 0 0 cs
    else .mistyped
  | c :: _ =>
    if !c.isDigit then .malformed
    else
      let (significand, left) := accumulate 0 (cs.takeWhile Char.isDigit)
      match cs.dropWhile Char.isDigit with
      | '.' :: cs => fractionFault significand left cs
      | 'e' :: cs => exponentFault significand left cs
      | 'E' :: cs => exponentFault significand left cs
      | _ => rangeFault significand left

/-- Passes over at least one digit. -/
def skipDigits (cs : List Char) : Except Fault (List Char) :=
  if (cs.head?.map Char.isDigit).getD false then .ok (cs.dropWhile Char.isDigit)
  else .error .malformed

def skipExponent (cs : List Char) : Except Fault (List Char) :=
  match cs with
  | c :: rest =>
    if c = 'e' ∨ c = 'E' then
      skipDigits (if rest.head? = some '+' ∨ rest.head? = some '-' then rest.drop 1 else rest)
    else .ok cs
  | [] => .ok []

def skipFraction (cs : List Char) : Except Fault (List Char) :=
  match cs with
  | '.' :: rest => (skipDigits rest).bind skipExponent
  | _ => skipExponent cs

/-- Passes over a number of any size, without its sign. -/
def skipNumber (cs : List Char) : Except Fault (List Char) :=
  match cs with
  | '0' :: rest =>
    if (rest.head?.map Char.isDigit).getD false then .error .malformed else skipFraction rest
  | _ => (skipDigits cs).bind skipFraction

theorem skipDigits_length {cs rest : List Char} (h : skipDigits cs = .ok rest) :
    rest.length < cs.length := by
  unfold skipDigits at h
  split at h
  · rename_i hd
    cases h
    cases cs with
    | nil => simp at hd
    | cons c cs =>
      have hc : c.isDigit = true := by simpa using hd
      simp only [List.dropWhile_cons, hc, if_true, List.length_cons]
      exact Nat.lt_succ_of_le (List.dropWhile_suffix _).length_le
  · cases h

theorem skipExponent_length {cs rest : List Char} (h : skipExponent cs = .ok rest) :
    rest.length ≤ cs.length := by
  unfold skipExponent at h
  split at h
  · rename_i c rest'
    split at h
    · have hlt := skipDigits_length h
      have hle : (if rest'.head? = some '+' ∨ rest'.head? = some '-' then rest'.drop 1
          else rest').length ≤ rest'.length := by
        split
        · simp only [List.length_drop]; omega
        · exact Nat.le_refl _
      simp only [List.length_cons]
      omega
    · cases h; exact Nat.le_refl _
  · cases h; exact Nat.le_refl _

theorem skipFraction_length {cs rest : List Char} (h : skipFraction cs = .ok rest) :
    rest.length ≤ cs.length := by
  unfold skipFraction at h
  split at h
  · rename_i rest'
    cases hd : skipDigits rest' with
    | error f => rw [hd] at h; cases h
    | ok r =>
      rw [hd] at h
      have := skipDigits_length hd
      have : rest.length ≤ r.length := skipExponent_length h
      simp only [List.length_cons]
      omega
  · exact skipExponent_length h

theorem skipNumber_length {cs rest : List Char} (h : skipNumber cs = .ok rest) :
    rest.length < cs.length := by
  unfold skipNumber at h
  split at h
  · split at h
    · cases h
    · exact Nat.lt_succ_of_le (skipFraction_length h)
  · cases hd : skipDigits cs with
    | error f => rw [hd] at h; cases h
    | ok r =>
      rw [hd] at h
      have hle : rest.length ≤ r.length := skipFraction_length h
      exact Nat.lt_of_le_of_lt hle (skipDigits_length hd)

end Handoff.Json
