import Handoff.Net.Address

namespace Handoff

/-- The value of digits in a base. -/
def valueOf (base : Nat) (digits : List Nat) : Nat :=
  digits.foldl (fun n d => n * base + d) 0

/-- The digits of a base at the front of a text, and what follows them. -/
def takeDigits (base : Nat) : List Char → List Nat × List Char
  | [] => ([], [])
  | c :: cs =>
    match Text.hexDigit? c with
    | some d =>
      if d < base then
        let (ds, rest) := takeDigits base cs
        (d :: ds, rest)
      else ([], c :: cs)
    | none => ([], c :: cs)

/-- The text after `c`, which has to come first. -/
def expect (c : Char) : List Char → Option (List Char)
  | [] => none
  | c' :: cs => if c = c' then some cs else none

namespace V4

/-- One to three digits, no leading zero, at most 255. -/
def readOctet (cs : List Char) : Option (UInt8 × List Char) :=
  let (ds, rest) := takeDigits 10 cs
  if ds.length = 0 ∨ 3 < ds.length then none
  else if ds.head? = some 0 ∧ 1 < ds.length then none
  else if 255 < valueOf 10 ds then none
  else some (.ofNat (valueOf 10 ds), rest)

def read (cs : List Char) : Option (V4 × List Char) := do
  let (a, cs) ← readOctet cs
  let (b, cs) ← readOctet (← expect '.' cs)
  let (c, cs) ← readOctet (← expect '.' cs)
  let (d, cs) ← readOctet (← expect '.' cs)
  return (⟨a, b, c, d⟩, cs)

end V4

namespace V6

/-- One to four hexadecimal digits. -/
def readGroup (cs : List Char) : Option (UInt16 × List Char) :=
  let (ds, rest) := takeDigits 16 cs
  if ds.length = 0 ∨ 4 < ds.length then none
  else some (.ofNat (valueOf 16 ds), rest)

/-- Groups read off the front of a text. -/
structure Groups where
  groups : List UInt16
  /-- The last two of them were written as octets. -/
  octets : Bool
  rest : List Char

/-- Groups with colons between them, as many as there are but at most `room`. -/
def readGroups : (room : Nat) → (first : Bool) → List Char → Groups
  | 0, _, cs => ⟨[], false, cs⟩
  | room + 1, first, cs =>
    match if first then some cs else expect ':' cs with
    | none => ⟨[], false, cs⟩
    | some cs' =>
      match if room = 0 then none else V4.read cs' with
      | some (ip, rest) => ⟨ip.groups, true, rest⟩
      | none =>
        match readGroup cs' with
        | none => ⟨[], false, cs⟩
        | some (g, rest) =>
          let more := readGroups room false rest
          ⟨g :: more.groups, more.octets, more.rest⟩

/-- Eight groups, or fewer around two colons that stand for one zero group or more. -/
def read (cs : List Char) : Option (V6 × List Char) :=
  let head := readGroups 8 true cs
  if h : head.groups.length = 8 then some (⟨head.groups, h⟩, head.rest)
  else if head.octets then none
  else do
    let cs ← expect ':' (← expect ':' head.rest)
    let tail := readGroups (7 - head.groups.length) true cs
    let zeros := List.replicate (8 - head.groups.length - tail.groups.length) 0
    let gs := head.groups ++ zeros ++ tail.groups
    if h : gs.length = 8 then some (⟨gs, h⟩, tail.rest) else none

end V6

namespace Address

def read (cs : List Char) : Option (Address × List Char) :=
  match V4.read cs with
  | some (ip, rest) => some (.v4 ip, rest)
  | none => (V6.read cs).map fun (ip, rest) => (.v6 ip, rest)

/-- The address that the whole text is a spelling of. -/
def parse? (cs : List Char) : Option Address :=
  match read cs with
  | some (a, []) => some a
  | _ => none

end Address
end Handoff
