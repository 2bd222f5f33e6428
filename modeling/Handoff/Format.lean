namespace Handoff

/-- What a field of a record holds. -/
inductive Kind where
  /-- A text that may be missing. -/
  | text
  | flag
  deriving DecidableEq

def Kind.Value : Kind → Type
  | text => Option String
  | flag => Bool

/-- The fields of a record. -/
structure Schema (ι : Type) where
  name : ι → String
  kind : ι → Kind
  /-- The fields in the order they have in a list. -/
  order : List ι
  named : ∀ i, order.find? (fun j => name j = name i) = some i

namespace Schema
variable {ι : Type} {s : Schema ι}

def field? (s : Schema ι) (name : String) : Option ι :=
  s.order.find? fun i => s.name i = name

abbrev Entry (s : Schema ι) := (i : ι) × (s.kind i).Value

/-- The fields read so far. -/
abbrev Draft (s : Schema ι) := (i : ι) → Option (s.kind i).Value

def Draft.empty : s.Draft := fun _ => none

variable [DecidableEq ι]

def Draft.put (d : s.Draft) (i : ι) (v : (s.kind i).Value) : s.Draft :=
  fun j => if h : i = j then some (h ▸ v) else d j

/-- Takes in entries, unless a field is there again. -/
def Draft.fill (d : s.Draft) : List s.Entry → Option s.Draft
  | [] => some d
  | ⟨i, v⟩ :: es => if (d i).isSome then none else (d.put i v).fill es

end Schema

/-- A text format for records. It knows of a record what its schema says and nothing else. -/
structure Format (ε : Type) where
  write : {ι : Type} → (s : Schema ι) → List s.Entry → String
  read : {ι : Type} → [DecidableEq ι] → (s : Schema ι) → List Char → Except ε s.Draft

/-- Entries are read as they were written, if there are not two for one field. -/
def Format.Lawful {ε : Type} (f : Format ε) : Prop :=
  ∀ {ι : Type} [DecidableEq ι] (s : Schema ι) (es : List s.Entry) (d : s.Draft),
    Schema.Draft.empty.fill es = some d → f.read s (f.write s es).toList = .ok d

end Handoff
