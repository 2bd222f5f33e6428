namespace Handoff.Text

/-- The bytes of a text. -/
def utf8 (s : String) : List UInt8 :=
  s.toList.flatMap String.utf8EncodeChar

/-- What the first byte of a sequence says about the bytes after it. -/
inductive Lead where
  /-- The byte is a whole character. -/
  | single
  /-- `more` bytes follow, the first of them between `low` and `high`. -/
  | opens (more : Nat) (low high : UInt8)
  /-- No sequence starts with this byte. -/
  | stray

def Lead.of (b : UInt8) : Lead :=
  if b < 0x80 then .single
  else if b < 0xC2 then .stray
  else if b < 0xE0 then .opens 1 0x80 0xBF
  else if b = 0xE0 then .opens 2 0xA0 0xBF
  else if b = 0xED then .opens 2 0x80 0x9F
  else if b < 0xF0 then .opens 2 0x80 0xBF
  else if b = 0xF0 then .opens 3 0x90 0xBF
  else if b < 0xF4 then .opens 3 0x80 0xBF
  else if b = 0xF4 then .opens 3 0x80 0x8F
  else .stray

/-- Takes the `more` bytes that have to follow and adds their six bits each to `value`. The rest
starts at the first byte that does not belong to the sequence. -/
def follow : (more : Nat) → (low high : UInt8) → (value : Nat) → List UInt8 →
    Option Nat × List UInt8
  | 0, _, _, value, bytes => (some value, bytes)
  | _ + 1, _, _, _, [] => (none, [])
  | more + 1, low, high, value, b :: bytes =>
    if low ≤ b ∧ b ≤ high then follow more 0x80 0xBF (value * 64 + b.toNat % 64) bytes
    else (none, b :: bytes)

/-- The bits of the character that its first byte holds. -/
def leadBits (more : Nat) (b : UInt8) : Nat :=
  b.toNat % (if more = 1 then 32 else if more = 2 then 16 else 8)

/-- One character off the front; `none` for a malformed sequence, which ends before the first byte
that cannot belong to it. -/
def takeChar (b : UInt8) (bytes : List UInt8) : Option Char × List UInt8 :=
  match Lead.of b with
  | .single => (some (Char.ofNat b.toNat), bytes)
  | .stray => (none, bytes)
  | .opens more low high =>
    let (value, rest) := follow more low high (leadBits more b) bytes
    (value.map Char.ofNat, rest)

theorem follow_length (more : Nat) (low high : UInt8) (value : Nat) (bytes : List UInt8) :
    (follow more low high value bytes).2.length ≤ bytes.length := by
  induction more generalizing low high value bytes with
  | zero => simp [follow]
  | succ more ih =>
    cases bytes with
    | nil => simp [follow]
    | cons b bytes =>
      unfold follow
      split
      · exact Nat.le_succ_of_le (ih ..)
      · exact Nat.le_refl _

theorem takeChar_length (b : UInt8) (bytes : List UInt8) :
    (takeChar b bytes).2.length ≤ bytes.length := by
  unfold takeChar
  split
  · exact Nat.le_refl _
  · exact Nat.le_refl _
  · exact follow_length ..

/-- Reads any bytes as text: each malformed sequence becomes one replacement character. -/
def lossy : List UInt8 → List Char
  | [] => []
  | b :: bytes =>
    let taken := takeChar b bytes
    taken.1.getD '\uFFFD' :: lossy taken.2
termination_by bytes => bytes.length
decreasing_by exact Nat.lt_succ_of_le (takeChar_length b bytes)

/-- Reads bytes as text; `none` unless they are well formed throughout. -/
def strict : List UInt8 → Option (List Char)
  | [] => some []
  | b :: bytes =>
    let taken := takeChar b bytes
    match taken.1 with
    | none => none
    | some c => (strict taken.2).map (c :: ·)
termination_by bytes => bytes.length
decreasing_by exact Nat.lt_succ_of_le (takeChar_length b bytes)

def ofUtf8Lossy (bytes : List UInt8) : String := String.ofList (lossy bytes)

def ofUtf8? (bytes : List UInt8) : Option String := (strict bytes).map String.ofList

end Handoff.Text
