import Handoff.Text.Hex
import Handoff.Text.Unprintable
import Handoff.Text.GraphemeExtend

namespace Handoff.Text

/-- A letter of Hangul that is written as nothing. -/
def isFiller (c : Char) : Bool :=
  c = '\u115f' || c = '\u1160' || c = '\u3164' || c = '\uffa0'

/-- A voicing mark of half width, which extends the letter before it and is seen by itself. -/
def isHalfwidthMark (c : Char) : Bool :=
  c = '\uff9e' || c = '\uff9f'

/-- A character that would not be seen, or would merge with the quote. -/
def isHidden (c : Char) : Bool :=
  (isGraphemeExtend c && !isHalfwidthMark c) || isUnprintable c || isFiller c

/-- A character that is hidden is shown by its code. -/
def quotedChar (c : Char) : List Char :=
  match c with
  | '"' => ['\\', '"']
  | '\\' => ['\\', '\\']
  | '\n' => ['\\', 'n']
  | '\r' => ['\\', 'r']
  | '\t' => ['\\', 't']
  | '\x00' => ['\\', '0']
  | _ =>
    if isHidden c then
      ['\\', 'u', '\x7b'] ++ hex 1 c.toNat ++ ['\x7d']
    else [c]

/-- A text in double quotes, readable as one token of a message. -/
def quoted (s : String) : String :=
  String.ofList ('"' :: s.toList.flatMap quotedChar ++ ['"'])

end Handoff.Text
