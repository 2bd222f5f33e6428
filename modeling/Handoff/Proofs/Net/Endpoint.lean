import Mathlib.Data.List.TakeWhile
import Handoff.Net.Endpoint.Reader
import Handoff.Proofs.Net.Address

/-!
An address text is split at its last colon. The texts of an endpoint, with brackets or without, are
split into the text of its address and its port.
-/

namespace Handoff

namespace HostPort
variable {cs before after host : List Char} {port : Port}

theorem splitLastColon_none (h : ':' ∉ cs) : splitLastColon cs = none := by
  induction cs with
  | nil => rfl
  | cons c cs ih =>
    simp only [List.mem_cons, not_or] at h
    simp [splitLastColon, ih h.2, Ne.symm h.1]

theorem splitLastColon_append (h : ':' ∉ after) :
    splitLastColon (before ++ ':' :: after) = some (before, after) := by
  induction before with
  | nil => simp [splitLastColon, splitLastColon_none h]
  | cons c before ih => simp [splitLastColon, ih]

theorem colon_of_splitLastColon (h : splitLastColon cs = none) : ':' ∉ cs := by
  induction cs with
  | nil => simp
  | cons c cs ih =>
    unfold splitLastColon at h
    split at h
    · cases h
    · split at h
      · cases h
      · rename_i hnone hc
        simp [Ne.symm hc, ih hnone]

/-- A text is split at its last colon. -/
theorem splitLastColon_iff :
    splitLastColon cs = some (before, after) ↔ cs = before ++ ':' :: after ∧ ':' ∉ after := by
  refine ⟨fun h => ?_, fun ⟨hcs, ha⟩ => hcs ▸ splitLastColon_append ha⟩
  induction cs generalizing before with
  | nil => cases h
  | cons c cs ih =>
    unfold splitLastColon at h
    split at h
    · rename_i hs
      cases h
      obtain ⟨hcs, ha⟩ := ih hs
      exact ⟨by rw [hcs]; rfl, ha⟩
    · rename_i hs
      split at h
      · rename_i hc
        cases h
        exact ⟨by rw [hc]; rfl, colon_of_splitLastColon hs⟩
      · cases h

structure Splits (cs : List Char) (before after : List Char) (port : Port) : Prop where
  text : cs = before ++ ':' :: after
  last : ':' ∉ after
  port : Port.parse after = .ok port

theorem parse_ok_iff : parse cs = .ok ⟨host, port⟩ ↔
    ∃ before after, Splits cs before after port ∧ host = trimBrackets before := by
  unfold parse
  constructor
  · intro h
    split at h
    · cases h
    · rename_i before after hs
      obtain ⟨htext, hlast⟩ := splitLastColon_iff.mp hs
      split at h
      · cases h
      · rename_i p hp
        cases h
        exact ⟨before, after, ⟨htext, hlast, hp⟩, rfl⟩
  · rintro ⟨before, after, ⟨htext, hlast, hp⟩, rfl⟩
    rw [splitLastColon_iff.mpr ⟨htext, hlast⟩]
    simp [hp]

theorem dropWhile_eq_self {c : Char} (hc : c ∉ cs) : cs.dropWhile (· = c) = cs := by
  refine List.dropWhile_eq_self_iff.mpr fun hpos hfirst => hc ?_
  rw [← of_decide_eq_true hfirst]
  exact List.getElem_mem hpos

/-- A host without brackets stays as it is, and from around it they are taken. -/
theorem trimBrackets_text (hopen : '[' ∉ host) (hclose : ']' ∉ host) :
    trimBrackets host = host ∧ trimBrackets ('[' :: host ++ [']']) = host := by
  have hreverse : host.reverse.dropWhile (· = ']') = host.reverse :=
    dropWhile_eq_self (by simpa using hclose)
  constructor
  · rw [trimBrackets, dropWhile_eq_self hopen, hreverse, List.reverse_reverse]
  · have hfront : ('[' :: host ++ [']']).dropWhile (· = '[') = host ++ [']'] := by
      rw [List.cons_append, List.dropWhile_cons_of_pos (by decide)]
      exact dropWhile_eq_self (by simpa using hopen)
    rw [trimBrackets, hfront, List.reverse_append, List.reverse_singleton, List.singleton_append,
      List.dropWhile_cons_of_pos (by decide), hreverse, List.reverse_reverse]

end HostPort

namespace Endpoint
variable {e : Endpoint} {cs : List Char}

/-- The texts for an address with its port: its own, and the one that has no brackets. -/
inductive Spelled (e : Endpoint) : List Char → Prop where
  | text : Spelled e e.text
  | bare : Spelled e (e.ip.text ++ ':' :: Nat.toDigits 10 e.port.toNat)

/-- Before the last colon of such a text is its address, perhaps in brackets. -/
theorem Spelled.splits (h : e.Spelled cs) : ∃ before,
    HostPort.Splits cs before (Nat.toDigits 10 e.port.toNat) e.port ∧
      HostPort.trimBrackets before = e.ip.text := by
  have hdigits : ∀ d < 16, Nat.digitChar d ≠ '[' ∧ Nat.digitChar d ≠ ']' ∧
      Nat.digitChar d ≠ ':' := by decide
  have hopen : '[' ∉ e.ip.text :=
    Address.notMem_text (fun d hd => (hdigits d hd).1) (by decide) (by decide)
  have hclose : ']' ∉ e.ip.text :=
    Address.notMem_text (fun d hd => (hdigits d hd).2.1) (by decide) (by decide)
  have hlast : ':' ∉ Nat.toDigits 10 e.port.toNat := by
    intro hc
    obtain ⟨d, hd, hc⟩ := mem_toDigits (by decide) (by decide) hc
    exact (hdigits d hd).2.2 hc.symm
  have hport := Port.parse_toDigits e.port
  obtain ⟨hplain, hbrackets⟩ := HostPort.trimBrackets_text hopen hclose
  cases h with
  | bare => exact ⟨e.ip.text, ⟨rfl, hlast, hport⟩, hplain⟩
  | text =>
    obtain ⟨ip, port⟩ := e
    cases ip with
    | v4 ip => exact ⟨ip.text, ⟨rfl, hlast, hport⟩, hplain⟩
    | v6 ip => exact ⟨'[' :: ip.text ++ [']'], ⟨rfl, hlast, hport⟩, hbrackets⟩

theorem Spelled.parse (h : e.Spelled cs) : HostPort.parse cs = .ok ⟨e.ip.text, e.port⟩ := by
  obtain ⟨before, hs, hhost⟩ := h.splits
  exact HostPort.parse_ok_iff.mpr ⟨before, _, hs, hhost.symm⟩

end Endpoint
end Handoff
