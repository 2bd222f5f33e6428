import Handoff.Config.Text
import Handoff.Proofs.Format
import Handoff.Proofs.Json.Record
import Mathlib.Data.List.Nodup

/-!
What is written of a configuration is read as that configuration, whatever lawful format it is
written in: the fields that are left out are those that a missing field gives back.
-/

namespace Handoff.Config

def draft (c : Config) : schema.Draft :=
  fun i => if tells (schema.kind i) (c.value i) then some (c.value i) else none

theorem fill_entries (c : Config) : Schema.Draft.empty.fill c.entries = some c.draft := by
  have hdistinct : (schema.order.filter fun i => tells (schema.kind i) (c.value i)).Nodup :=
    List.Nodup.filter _ (by decide)
  have hall : ∀ i : Field, i ∈ schema.order := by
    intro i
    cases i <;> decide
  rw [entries, Schema.Draft.empty.fill_map hdistinct fun _ _ => rfl]
  congr 1
  funext i
  simp only [draft, List.mem_filter, hall, true_and]
  rfl

theorem ofDraft_draft (c : Config) : ofDraft c.draft = c := by
  -- each text is there or missing
  obtain ⟨_ | _, _ | _, _ | _, _ | _, _⟩ := c <;> rfl

theorem decode_encode {ε : Type} {f : Format ε} (h : f.Lawful) (c : Config) :
    decode f (c.encode f).toList = .ok c := by
  rw [decode, encode, h schema c.entries c.draft c.fill_entries]
  exact congrArg Except.ok c.ofDraft_draft

/-- A configuration's text is read as the configuration. -/
theorem parse_text (c : Config) : parse c.text.toList = .ok c :=
  decode_encode Json.format_lawful c

end Handoff.Config
