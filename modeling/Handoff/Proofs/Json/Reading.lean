import Handoff.Json.String
import Handoff.Json.Text
import Handoff.Proofs.Text.Digits

/-!
A text that was written as a string is read back whole, whatever characters it has and whatever
follows it: each character's escape gives the character again, and only the quote after the last one
ends the text.
-/

namespace Handoff.Text

/-- Control characters need only two of the four digits. -/
theorem hex_control : ∀ n < 0x20,
    hex 4 n = ['0', '0', Nat.digitChar (n / 16), Nat.digitChar (n % 16)] := by decide

end Handoff.Text

namespace Handoff.Json
open Text (hexDigit?_digitChar hex_control)

theorem hexEscape_control {n : Nat} (h : n < 0x20) (rest : List Char) :
    hexEscape (Text.hex 4 n ++ rest) = .ok (n, rest) := by
  have hzero : Text.hexDigit? '0' = some 0 := rfl
  have hhigh := hexDigit?_digitChar (n / 16) (by omega)
  have hlow := hexDigit?_digitChar (n % 16) (by omega)
  have hn : ((0 * 16 + 0) * 16 + n / 16) * 16 + n % 16 = n := by omega
  rw [hex_control n h]
  simp only [List.cons_append, List.nil_append, hexEscape, hzero, hhigh, hlow, hn]

theorem codeEscape_control {c : Char} (h : c.toNat < 0x20) (rest : List Char) :
    codeEscape (Text.hex 4 c.toNat ++ rest) = .ok (c, rest) := by
  simp only [codeEscape, hexEscape_control h]
  rw [if_neg (by omega), if_neg (by omega), Char.ofNat_toNat]

theorem chars_escaped {cs rest : List Char} {c : Char} (h : escaped cs = .ok (c, rest)) :
    chars ('\\' :: cs) = (chars rest).map fun (s, rest) => (c :: s, rest) := by
  rw [chars]
  split
  · rename_i he
    cases he.symm.trans h
  · rename_i he
    cases he.symm.trans h
    cases chars rest <;> rfl

theorem chars_plain {c : Char} (hquote : c ≠ '"') (hslash : c ≠ '\\') (hc : ¬c.toNat < 0x20)
    (cs : List Char) : chars (c :: cs) = (chars cs).map fun (s, rest) => (c :: s, rest) := by
  rw [chars]
  · have hlt : ¬c < ' ' := hc
    rw [if_neg hlt]
    cases chars cs <;> rfl
  · exact hquote
  · exact hslash

/-- One character's escape is read as the character. -/
theorem chars_escape (c : Char) (cs : List Char) :
    chars (escape c ++ cs) = (chars cs).map fun (s, rest) => (c :: s, rest) := by
  unfold escape
  split
  case h_8 hquote hslash _ _ _ _ _ =>
    split
    · rename_i hc
      exact chars_escaped (codeEscape_control hc cs)
    · rename_i hc
      exact chars_plain hquote hslash hc cs
  all_goals exact chars_escaped rfl

/-- A text with its closing quote is read as the text. -/
theorem chars_flatMap_escape (cs rest : List Char) :
    chars (cs.flatMap escape ++ '"' :: rest) = .ok (cs, rest) := by
  induction cs with
  | nil => rw [List.flatMap_nil, List.nil_append, chars]
  | cons c cs ih => rw [List.flatMap_cons, List.append_assoc, chars_escape, ih]; rfl

theorem quote_append (s : String) (rest : List Char) :
    quote s ++ rest = '"' :: (s.toList.flatMap escape ++ '"' :: rest) := by
  simp only [quote, List.cons_append, List.append_assoc, List.nil_append]

/-- The members of an object after the first, with its end. -/
def furtherMembers : List (String × List Char) → List Char
  | [] => ['\n', '\x7d']
  | (key, value) :: more =>
    ',' :: '\n' :: ' ' :: ' ' :: (quote key ++ ':' :: ' ' :: (value ++ furtherMembers more))

theorem object_cons (key : String) (value : List Char) (more : List (String × List Char)) :
    object ((key, value) :: more) =
      '\x7b' :: '\n' :: ' ' :: ' ' ::
        (quote key ++ ':' :: ' ' :: (value ++ furtherMembers more)) := by
  induction more generalizing key value with
  | nil => simp [object, furtherMembers]
  | cons next more ih =>
    have hnext := ih next.1 next.2
    simp only [object, List.map_cons, List.intercalate_cons_cons, furtherMembers,
      List.append_assoc, List.cons_append, List.nil_append, List.cons.injEq, true_and,
      List.append_cancel_left_eq] at hnext ⊢
    exact hnext

end Handoff.Json
