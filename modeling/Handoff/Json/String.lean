import Handoff.Json.Scan

namespace Handoff.Json

/-- The characters of a string, after the quote that opens it. -/
def chars (cs : List Char) : Read (List Char) :=
  match cs with
  | [] => .error .ended
  | '"' :: cs => .ok ([], cs)
  | '\\' :: cs =>
    match h : escaped cs with
    | .error f => .error f
    | .ok (c, rest) =>
      have := escaped_length h
      match chars rest with
      | .error f => .error f
      | .ok (s, rest) => .ok (c :: s, rest)
  | c :: cs =>
    if c < ' ' then .error .malformed
    else match chars cs with
      | .error f => .error f
      | .ok (s, rest) => .ok (c :: s, rest)
termination_by cs.length
decreasing_by
  · simp only [List.length_cons]; omega
  · simp only [List.length_cons]; omega

/-- Passes over a string, after the quote that opens it. -/
def skipChars (cs : List Char) : Except Fault (List Char) :=
  match cs with
  | [] => .error .ended
  | '"' :: cs => .ok cs
  | '\\' :: cs =>
    match h : skipEscaped cs with
    | .error f => .error f
    | .ok ((), rest) =>
      have := skipEscaped_length h
      skipChars rest
  | c :: cs => if c < ' ' then .error .malformed else skipChars cs
termination_by cs.length
decreasing_by
  · simp only [List.length_cons]; omega
  · simp only [List.length_cons]; omega

theorem chars_length {cs rest s : List Char} (h : chars cs = .ok (s, rest)) :
    rest.length < cs.length := by
  fun_induction chars cs generalizing s rest with
  | case1 => cases h
  | case2 => cases h; exact Nat.lt_succ_self _
  | case3 => cases h
  | case4 => cases h
  | case5 cs c rest' he hlt s' rest'' hr ih =>
    cases h
    have := ih hr
    simp only [List.length_cons]
    omega
  | case6 => cases h
  | case7 => cases h
  | case8 c cs _ _ _ s' rest' hr ih =>
    cases h
    exact Nat.lt_succ_of_lt (ih hr)

theorem skipChars_length {cs rest : List Char} (h : skipChars cs = .ok rest) :
    rest.length < cs.length := by
  fun_induction skipChars cs with
  | case1 => cases h
  | case2 => cases h; exact Nat.lt_succ_self _
  | case3 => cases h
  | case4 cs rest' he hlt ih =>
    have := ih h
    simp only [List.length_cons]
    omega
  | case5 => cases h
  | case6 c cs _ _ _ ih => exact Nat.lt_succ_of_lt (ih h)

end Handoff.Json
