import Handoff.Text.Hex

namespace Handoff

/-- Four octets, written with dots between them. -/
structure V4 where
  a : UInt8
  b : UInt8
  c : UInt8
  d : UInt8
  deriving DecidableEq

namespace V4

def toNat (ip : V4) : Nat :=
  ((ip.a.toNat * 256 + ip.b.toNat) * 256 + ip.c.toNat) * 256 + ip.d.toNat

def ofNat (n : Nat) : V4 :=
  ⟨.ofNat (n / 256 / 256 / 256), .ofNat (n / 256 / 256), .ofNat (n / 256), .ofNat n⟩

def text (ip : V4) : List Char :=
  let octet (x : UInt8) := Nat.toDigits 10 x.toNat
  octet ip.a ++ '.' :: octet ip.b ++ '.' :: octet ip.c ++ '.' :: octet ip.d

/-- The octets as two groups of sixteen bits. -/
def groups (ip : V4) : List UInt16 :=
  [.ofNat (ip.a.toNat * 256 + ip.b.toNat), .ofNat (ip.c.toNat * 256 + ip.d.toNat)]

def ofGroups (high low : UInt16) : V4 :=
  ⟨.ofNat (high.toNat / 256), .ofNat high.toNat, .ofNat (low.toNat / 256), .ofNat low.toNat⟩

end V4

/-- Eight groups of sixteen bits. -/
structure V6 where
  groups : List UInt16
  length_groups : groups.length = 8
  deriving DecidableEq

namespace V6

/-- The groups of a 128-bit number, most significant first. -/
def ofNat (n : Nat) : V6 where
  groups := [7, 6, 5, 4, 3, 2, 1, 0].map fun i => .ofNat (n / Nat.pow 65536 i)
  length_groups := rfl

def toNat (ip : V6) : Nat :=
  ip.groups.foldl (fun n g => n * 65536 + g.toNat) 0

def groupText (g : UInt16) : List Char :=
  Nat.toDigits 16 g.toNat

/-- Groups with colons between them. -/
def groupsText (gs : List UInt16) : List Char :=
  [':'].intercalate (gs.map groupText)

/-- Where a run of zero groups starts and how long it is. -/
structure ZeroRun where
  start : Nat
  length : Nat

/-- The longest run of zeros in `gs`, the first one of several. `at` counts the groups passed and
`run` the zeros just before them. -/
def longestZeros : (gs : List UInt16) → (place run : Nat) → ZeroRun → ZeroRun
  | [], _, _, best => best
  | g :: gs, place, run, best =>
    if g = 0 then
      longestZeros gs (place + 1) (run + 1)
        (if best.length < run + 1 then ⟨place - run, run + 1⟩ else best)
    else longestZeros gs (place + 1) 0 best

/-- The last two groups, of an address that stands for a four-octet one. -/
def mapped? (ip : V6) : Option V4 :=
  match ip.groups with
  | [0, 0, 0, 0, 0, 0xFFFF, high, low] => some (.ofGroups high low)
  | _ => none

/-- Lower case without leading zeros; the first longest run of at least two zero groups is
written as two colons, and a mapped address ends in octets. -/
def text (ip : V6) : List Char :=
  match ip.mapped? with
  | some v4 => "::ffff:".toList ++ v4.text
  | none =>
    let zeros := longestZeros ip.groups 0 0 ⟨0, 0⟩
    if 1 < zeros.length then
      groupsText (ip.groups.take zeros.start) ++ ':' :: ':' ::
        groupsText (ip.groups.drop (zeros.start + zeros.length))
    else groupsText ip.groups

end V6

inductive Address where
  | v4 (ip : V4)
  | v6 (ip : V6)
  deriving DecidableEq

namespace Address

def text : Address → List Char
  | v4 ip => ip.text
  | v6 ip => ip.text

def name (a : Address) : String :=
  String.ofList a.text

/-- The address every program of one machine reaches itself under. -/
def localhost : Address :=
  v4 ⟨127, 0, 0, 1⟩

end Address
end Handoff
