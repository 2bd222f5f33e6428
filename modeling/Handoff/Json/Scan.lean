import Handoff.Text.Hex

namespace Handoff.Json

/-- What is wrong with a JSON text. -/
inductive Fault where
  /-- No JSON text goes on like this. -/
  | malformed
  /-- A value of another kind stands here, or a field stands here again. -/
  | mistyped
  /-- The text ends too soon. -/
  | ended
  deriving DecidableEq

/-- What was read, and what is left of the text. -/
abbrev Read (α : Type) := Except Fault (α × List Char)

def isBlank (c : Char) : Bool :=
  c = ' ' || c = '\n' || c = '\t' || c = '\r'

def trim (cs : List Char) : List Char :=
  cs.dropWhile isBlank

/-- Takes `word`, character by character. -/
def takeWord : (word : List Char) → List Char → Except Fault (List Char)
  | [], cs => .ok cs
  | _ :: _, [] => .error .ended
  | w :: ws, c :: cs => if c = w then takeWord ws cs else .error .malformed

/-- The number of four hexadecimal digits. The text has ended if it has fewer than four bytes. -/
def hexEscape (cs : List Char) : Read Nat :=
  match cs with
  | a :: b :: c :: d :: rest =>
    match Text.hexDigit? a, Text.hexDigit? b, Text.hexDigit? c, Text.hexDigit? d with
    | some a, some b, some c, some d => .ok (((a * 16 + b) * 16 + c) * 16 + d, rest)
    | _, _, _, _ => .error .malformed
  | _ => if cs.foldl (fun n c => n + c.utf8Size) 0 < 4 then .error .ended else .error .malformed

def simpleEscape? : Char → Option Char
  | '"' => some '"'
  | '\\' => some '\\'
  | '/' => some '/'
  | 'b' => some '\x08'
  | 'f' => some '\x0c'
  | 'n' => some '\n'
  | 'r' => some '\r'
  | 't' => some '\t'
  | _ => none

/-- The character of two surrogates. -/
def pair (high low : Nat) : Char :=
  .ofNat (0x10000 + (high - 0xD800) * 0x400 + (low - 0xDC00))

/-- The second half of a character that takes two escapes. -/
def lowEscape (high : Nat) (cs : List Char) : Read Char :=
  match cs with
  | [] => .error .ended
  | ['\\'] => .error .ended
  | '\\' :: 'u' :: cs =>
    match hexEscape cs with
    | .error f => .error f
    | .ok (low, rest) =>
      if 0xDC00 ≤ low ∧ low ≤ 0xDFFF then .ok (pair high low, rest) else .error .malformed
  | _ => .error .malformed

/-- A character given by number. -/
def codeEscape (cs : List Char) : Read Char :=
  match hexEscape cs with
  | .error f => .error f
  | .ok (n, rest) =>
    if 0xDC00 ≤ n ∧ n ≤ 0xDFFF then .error .malformed
    else if 0xD800 ≤ n ∧ n ≤ 0xDBFF then lowEscape n rest
    else .ok (.ofNat n, rest)

/-- What follows a backslash. -/
def escaped (cs : List Char) : Read Char :=
  match cs with
  | [] => .error .ended
  | 'u' :: cs => codeEscape cs
  | c :: cs =>
    match simpleEscape? c with
    | some e => .ok (e, cs)
    | none => .error .malformed

/-- What follows a backslash in a text that nobody looks at: surrogates need no partner. -/
def skipEscaped (cs : List Char) : Read Unit :=
  match cs with
  | [] => .error .ended
  | 'u' :: cs => (hexEscape cs).map fun (_, rest) => ((), rest)
  | c :: cs => if (simpleEscape? c).isSome then .ok ((), cs) else .error .malformed

theorem trim_length (cs : List Char) : (trim cs).length ≤ cs.length :=
  (List.dropWhile_suffix _).length_le

theorem takeWord_length {word cs rest : List Char} (h : takeWord word cs = .ok rest) :
    rest.length ≤ cs.length := by
  induction word generalizing cs with
  | nil => cases h; exact Nat.le_refl _
  | cons w ws ih =>
    cases cs with
    | nil => cases h
    | cons c cs =>
      unfold takeWord at h
      split at h
      · exact Nat.le_succ_of_le (ih h)
      · cases h

theorem hexEscape_length {cs rest : List Char} {n : Nat} (h : hexEscape cs = .ok (n, rest)) :
    rest.length < cs.length := by
  unfold hexEscape at h
  split at h
  · split at h
    · cases h; simp only [List.length_cons]; omega
    · cases h
  · split at h <;> cases h

theorem lowEscape_length {high : Nat} {cs rest : List Char} {c : Char}
    (h : lowEscape high cs = .ok (c, rest)) : rest.length < cs.length := by
  unfold lowEscape at h
  split at h
  · cases h
  · cases h
  · split at h
    · cases h
    · rename_i hx
      split at h
      · have := hexEscape_length hx
        simp only [Except.ok.injEq, Prod.mk.injEq] at h
        obtain ⟨-, rfl⟩ := h
        simp only [List.length_cons]
        omega
      · cases h
  · cases h

theorem codeEscape_length {cs rest : List Char} {c : Char} (h : codeEscape cs = .ok (c, rest)) :
    rest.length < cs.length := by
  unfold codeEscape at h
  split at h
  · cases h
  · rename_i hx
    have hlt := hexEscape_length hx
    split at h
    · cases h
    · split at h
      · exact Nat.lt_trans (lowEscape_length h) hlt
      · cases h; exact hlt

theorem escaped_length {cs rest : List Char} {c : Char} (h : escaped cs = .ok (c, rest)) :
    rest.length < cs.length := by
  unfold escaped at h
  split at h
  · cases h
  · exact Nat.lt_succ_of_lt (codeEscape_length h)
  · rename_i c' cs' _
    cases he : simpleEscape? c' with
    | none => rw [he] at h; cases h
    | some e => rw [he] at h; cases h; exact Nat.lt_succ_self _

theorem skipEscaped_length {cs rest : List Char} (h : skipEscaped cs = .ok ((), rest)) :
    rest.length < cs.length := by
  unfold skipEscaped at h
  split at h
  · cases h
  · rename_i cs'
    cases hx : hexEscape cs' with
    | error f => rw [hx] at h; cases h
    | ok r =>
      rw [hx] at h
      cases h
      exact Nat.lt_succ_of_lt (hexEscape_length hx)
  · split at h
    · cases h; exact Nat.lt_succ_self _
    · cases h

end Handoff.Json
