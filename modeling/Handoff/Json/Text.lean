import Handoff.Text.Hex

namespace Handoff.Json

/-- How a character stands inside a JSON text. -/
def escape (c : Char) : List Char :=
  match c with
  | '"' => ['\\', '"']
  | '\\' => ['\\', '\\']
  | '\x08' => ['\\', 'b']
  | '\x0c' => ['\\', 'f']
  | '\n' => ['\\', 'n']
  | '\r' => ['\\', 'r']
  | '\t' => ['\\', 't']
  | _ => if c.toNat < 0x20 then ['\\', 'u'] ++ Text.hex 4 c.toNat else [c]

/-- A text as a JSON string. -/
def quote (s : String) : List Char :=
  '"' :: s.toList.flatMap escape ++ ['"']

/-- An object with one field per line, indented by two spaces; the values are written already. -/
def object : List (String × List Char) → List Char
  | [] => ['\x7b', '\x7d']
  | fields =>
    ['\x7b', '\n'] ++
      [',', '\n'].intercalate (fields.map fun (key, value) =>
        [' ', ' '] ++ quote key ++ [':', ' '] ++ value) ++
      ['\n', '\x7d']

end Handoff.Json
