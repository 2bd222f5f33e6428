import Handoff.Proofs.Tailnet.Naming

namespace Handoff.Tailnet
variable {D : StreamId → Prop} {t t' u : Tailnet} {n m : NodeId} {started : List NodeId}

section Addresses
variable {k : Nat}

def firstV4 : V4 :=
  ⟨100, 64, 0, 0⟩

def firstV6 : V6 :=
  ⟨[0xFD7A, 0x115C, 0xA1E0, 0, 0, 0, 0, 0], rfl⟩

theorem toNat_hostV4 (hk : k < 2 ^ 22) : (hostV4 k).toNat = firstV4.toNat + k := by
  simp only [hostV4, V4.ofNat, V4.toNat, firstV4, UInt8.toNat_ofNat', UInt8.reduceToNat]
  omega

theorem toNat_hostV6 (hk : k < 2 ^ 22) : (hostV6 k).toNat = firstV6.toNat + k := by
  simp only [hostV6, V6.ofNat, V6.toNat, firstV6, List.map_cons, List.map_nil, List.foldl_cons,
    List.foldl_nil, UInt16.toNat_ofNat', UInt16.reduceToNat, Nat.pow_eq]
  omega

/-- The first ten bits are the same. -/
theorem prefix_hostV4 (hk : k < 2 ^ 22) :
    (hostV4 k).toNat / 2 ^ 22 = firstV4.toNat / 2 ^ 22 := by
  rw [toNat_hostV4 hk]
  simp only [firstV4, V4.toNat, UInt8.reduceToNat]
  omega

theorem addresses_of_host {x : Node} (h : x.host = some k) :
    x.addresses = [.v4 (hostV4 k), .v6 (hostV6 k)] := by
  rw [Node.addresses, h]

theorem addresses_running (h : t.Runs n) (hk : (t.node n).host = some k) :
    t.addresses n = .ok [.v4 (hostV4 k), .v6 (hostV6 k)] :=
  (if_pos h).trans (congrArg _ (addresses_of_host hk))

end Addresses

inductive Numbers (t t' : Tailnet) : Prop where
  | nobody : (∀ m, ¬ t.Starts t' m) → t'.registry.lastHost = t.registry.lastHost →
    (∀ m, (t'.node m).host = (t.node m).host) → Numbers t t'
  | next (n : NodeId) : (∀ m, t.Starts t' m ↔ m = n) →
    t'.registry.lastHost = t.registry.lastHost + 1 →
    (t'.node n).host = some t'.registry.lastHost →
    (∀ m, m ≠ n → (t'.node m).host = (t.node m).host) → Numbers t t'

theorem not_starts_of_phase (h : (t'.node n).phase = (t.node n).phase) : ¬ t.Starts t' n := by
  rintro ⟨hfresh, hruns⟩
  cases hruns.symm.trans (h.trans hfresh)

/-- Serving a node gives it a number when it joins, and only then. -/
theorem Registers.host (h : Registers n D t u) :
    u.registry.lastHost = t.registry.lastHost ∧ (∀ m, (u.node m).host = (t.node m).host) ∧
        (u.node n).phase = (t.node n).phase ∨
      t.Starts u n ∧ u.registry.lastHost = t.registry.lastHost + 1 ∧
        (u.node n).host = some u.registry.lastHost ∧
        ∀ m, m ≠ n → (u.node m).host = (t.node m).host := by
  induction h with
  | still hs => exact .inl ⟨hs.lastHost, hs.host, hs.phase n⟩
  | @joined u w _ hf hw ih =>
    rcases ih with ⟨hlast, hhost, hphase⟩ | ⟨⟨-, hruns⟩, -⟩
    · have hnumber : w.registry.lastHost = u.registry.lastHost + 1 := hw.lastHost
      refine .inr ⟨⟨hphase ▸ hf, ?_⟩, hlast ▸ hnumber, ?_, fun m hm => ?_⟩
      · rw [Runs, hw.phase, node_joined, if_pos rfl]
      · rw [hw.host, node_joined, if_pos rfl, hnumber]
      · rw [hw.host, node_joined, if_neg hm, hhost]
    · cases hruns.symm.trans hf
  | @dialed u w id target _ _ _ _ hw ih =>
    have hlast : w.registry.lastHost = u.registry.lastHost :=
      hw.lastHost.trans (lastHost_recordDialer ..)
    have hnode : ∀ m, (w.node m).host = (u.node m).host := fun m => by
      rw [hw.host, node_recordDialer]
    have hphase : ∀ m, (w.node m).phase = (u.node m).phase := fun m => by
      rw [hw.phase, node_recordDialer]
    rcases ih with ⟨h₁, h₂, h₃⟩ | ⟨⟨hfresh, hruns⟩, h₁, h₂, h₃⟩
    · exact .inl ⟨hlast.trans h₁, fun m => (hnode m).trans (h₂ m), (hphase n).trans h₃⟩
    · refine .inr ⟨⟨hfresh, (hphase n).trans hruns⟩, hlast.trans h₁, ?_, fun m hm => ?_⟩
      · rw [hnode, h₂, hlast]
      · rw [hnode, h₃ m hm]

theorem Registers.numbers (h : Registers n D t u) : Numbers t u := by
  have hothers : ∀ m, m ≠ n → ¬ t.Starts u m := fun m hm => not_starts_of_phase (h.phase hm)
  rcases h.host with ⟨hlast, hhost, hphase⟩ | ⟨hstarts, hlast, hself, hhost⟩
  · refine .nobody (fun m => ?_) hlast hhost
    by_cases hm : m = n
    · rw [hm]
      exact not_starts_of_phase hphase
    · exact hothers m hm
  · refine .next n (fun m => ⟨fun hm => ?_, fun hm => hm ▸ hstarts⟩) hlast hself hhost
    by_contra hne
    exact hothers m hne hm

/-- A node that ends keeps its number. -/
theorem Strikes.numbers (h : Strikes n t u) : Numbers t u := by
  refine .nobody (not_starts_of_strikes h) h.lastHost fun m => ?_
  obtain ⟨-, v, htv, hvu⟩ := h
  rw [hvu.host, ← htv.host]
  change (assign v.node n _ m).host = _
  rw [assign_apply]
  split
  · rw [‹m = n›]
  · rfl

/-- Nodes have their numbers in the order in which they started, the last one first, and nobody else
has any. -/
structure Counted (started : List NodeId) (t : Tailnet) : Prop where
  once : started.Nodup
  numbered : ∀ k n, started.reverse[k]? = some n → (t.node n).host = some (k + 1)
  others : ∀ n, n ∉ started → (t.node n).host = none

theorem Counted.same (h : Counted started t) (hh : ∀ m, (t'.node m).host = (t.node m).host) :
    Counted started t' where
  once := h.once
  numbered := fun k n hk => (hh n).trans (h.numbered k n hk)
  others := fun n hn => (hh n).trans (h.others n hn)

/-- The next node that starts gets the number after all that were given. -/
theorem Counted.next (h : Counted started t) (hn : n ∉ started)
    (hself : (t'.node n).host = some (started.length + 1))
    (hh : ∀ m, m ≠ n → (t'.node m).host = (t.node m).host) : Counted (n :: started) t' where
  once := List.nodup_cons.mpr ⟨hn, h.once⟩
  numbered := fun k m hk => by
    rw [List.reverse_cons] at hk
    rcases Nat.lt_trichotomy k started.reverse.length with hlt | heq | hgt
    · rw [List.getElem?_append_left hlt] at hk
      have hm : m ≠ n := fun he => hn (he ▸ List.mem_reverse.mp (List.mem_of_getElem? hk))
      rw [hh m hm, h.numbered k m hk]
    · rw [heq, List.getElem?_concat_length] at hk
      obtain rfl := Option.some.inj hk
      rw [hself, heq, List.length_reverse]
    · rw [List.getElem?_eq_none (by rw [List.length_append]; exact hgt)] at hk
      cases hk
  others := fun m hm => by
    rw [List.mem_cons, not_or] at hm
    rw [hh m hm.1, h.others m hm.2]

end Handoff.Tailnet
