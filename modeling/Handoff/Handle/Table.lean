import Handoff.Error

namespace Handoff

/-- The largest value issued; handles stay representable as signed 32-bit integers. -/
def maxRaw : UInt32 := 2147483647

/-- Puts `a` under `k` into a list ascending by key. -/
def place {α : Type} (k : UInt32) (a : α) : List (UInt32 × α) → List (UInt32 × α)
  | [] => [(k, a)]
  | (k', a') :: rest =>
    if k < k' then (k, a) :: (k', a') :: rest
    else if k = k' then (k, a) :: rest
    else (k', a') :: place k a rest

theorem mem_keys_place {α : Type} (k x : UInt32) (a : α) (l : List (UInt32 × α)) :
    x ∈ (place k a l).map Prod.fst ↔ x = k ∨ x ∈ l.map Prod.fst := by
  induction l with
  | nil => simp [place]
  | cons p rest ih =>
    obtain ⟨k', a'⟩ := p
    unfold place
    split
    · simp
    · split
      · subst_vars; simp
      · rw [List.map_cons, List.mem_cons, ih, List.map_cons, List.mem_cons]
        exact or_left_comm

theorem ascending_place {α : Type} (k : UInt32) (a : α) (l : List (UInt32 × α))
    (h : (l.map Prod.fst).Pairwise (· < ·)) :
    ((place k a l).map Prod.fst).Pairwise (· < ·) := by
  induction l with
  | nil => simp [place]
  | cons p rest ih =>
    obtain ⟨k', a'⟩ := p
    simp only [List.map_cons, List.pairwise_cons] at h
    unfold place
    split
    · rename_i hlt
      simp only [List.map_cons, List.pairwise_cons]
      refine ⟨?_, h⟩
      intro x hx
      rcases List.mem_cons.mp hx with rfl | hx
      · exact hlt
      · exact UInt32.lt_trans hlt (h.1 x hx)
    · split
      · subst_vars
        exact List.pairwise_cons.mpr h
      · rename_i hge hne
        simp only [List.map_cons, List.pairwise_cons]
        refine ⟨?_, ih h.2⟩
        intro x hx
        rcases (mem_keys_place ..).mp hx with rfl | hx
        · exact UInt32.lt_of_le_of_ne (UInt32.not_lt.mp hge) (Ne.symm hne)
        · exact h.1 x hx

/-- The live handles of one kind with their entries. -/
structure HandleTable (α : Type) where
  kind : HandleKind
  base : UInt32
  /-- Where the search for the next free value starts. -/
  cursor : UInt32
  live : List (UInt32 × α)
  ascending : (live.map Prod.fst).Pairwise (· < ·)

namespace HandleTable
variable {α : Type}

def empty (kind : HandleKind) (base : UInt32) : HandleTable α :=
  ⟨kind, base, base, [], by simp⟩

/-- The value after `raw` in the cycle from `base` to the largest one. -/
def advance (base raw : UInt32) : UInt32 :=
  if maxRaw ≤ raw then base else raw + 1

def isLive (t : HandleTable α) (raw : UInt32) : Bool :=
  (t.live.lookup raw).isSome

/-- The first value from `raw` on that is not live. `live.length` steps pass every live value, so
they suffice whenever a value of the cycle is free. -/
def firstFree (t : HandleTable α) : (steps : Nat) → (raw : UInt32) → UInt32
  | 0, raw => raw
  | steps + 1, raw => if t.isLive raw then t.firstFree steps (advance t.base raw) else raw

/-- The value the next entry gets. -/
def nextRaw (t : HandleTable α) : UInt32 :=
  t.firstFree t.live.length t.cursor

/-- Numbering goes on from the value issued last, so a retired value comes back as late as
possible. -/
def allocate (t : HandleTable α) (a : α) : Handle × HandleTable α :=
  (⟨t.nextRaw⟩,
   { t with
     cursor := advance t.base t.nextRaw
     live := place t.nextRaw a t.live
     ascending := ascending_place _ _ _ t.ascending })

def get (t : HandleTable α) (h : Handle) : Except BridgeError α :=
  match t.live.lookup h.raw with
  | some a => .ok a
  | none => .error (.badHandle h)

def contains (t : HandleTable α) (h : Handle) : Bool :=
  t.isLive h.raw

/-- The table without `h`. -/
def erase (t : HandleTable α) (h : Handle) : HandleTable α :=
  { t with
    live := t.live.filter fun p => p.1 != h.raw
    ascending := t.ascending.sublist (List.filter_sublist.map _) }

/-- Retires `h` and returns its entry; a second close is a bad handle. -/
def close (t : HandleTable α) (h : Handle) : Except BridgeError (α × HandleTable α) :=
  (t.get h).map fun a => (a, t.erase h)

/-- Changes the entry of `h`, if it is live. -/
def modify (t : HandleTable α) (h : Handle) (f : α → α) : HandleTable α :=
  { t with
    live := t.live.map fun p => (p.1, if p.1 = h.raw then f p.2 else p.2)
    ascending := by rw [List.map_map]; exact t.ascending }

/-- The live handles whose entries satisfy `p`, ascending. -/
def handlesWhere (t : HandleTable α) (p : α → Bool) : List Handle :=
  t.live.filterMap fun q => if p q.2 then some ⟨q.1⟩ else none

def handles (t : HandleTable α) : List Handle :=
  t.handlesWhere fun _ => true

def entries (t : HandleTable α) : List α :=
  t.live.map Prod.snd

def size (t : HandleTable α) : Nat :=
  t.live.length

def debug (t : HandleTable α) : String :=
  s!"HandleTable \x7b kind: {t.kind.title}, base: {t.base.toNat}, live: {t.size} \x7d"

end HandleTable
end Handoff
