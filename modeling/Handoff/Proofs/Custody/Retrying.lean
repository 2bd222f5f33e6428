import Handoff.Proofs.Bridge.Retrying
import Handoff.Proofs.Custody.Standing

namespace Handoff.Custody
open Bridge (Refused)
variable {c : Custody} {i : Nat} {h : Handle} {capacity needed given : Nat}

/-- A server's local surface once it has been asked for: `a`, for as long as the handle stands for
the node, and only the room for its address decides whether a caller is told. -/
structure Settled (c : Custody) (i : Nat) (h : Handle) (n : NodeId) (a : Loopback) (needed : Nat) :
    Prop where
  stored : (c.net.node n).loopback = some a.info
  told : ∀ room, (c.bridge i).loopback h room =
    (if needed ≤ room then .ok a else .error (.insufficientBuffer needed room), c.bridge i)

/-- What callers are told who were refused for want of room and call again. -/
structure Retries (c : Custody) (i : Nat) : Prop where
  addresses : ∀ h capacity needed given,
    ((c.bridge i).addresses h capacity).1 = .error (.insufficientBuffer needed given) →
      ∃ text, Refused (·.addresses h) id (c.bridge i) capacity needed given text
  certDomains : ∀ h capacity needed given,
    ((c.bridge i).certDomains h capacity).1 = .error (.insufficientBuffer needed given) →
      ∃ text, Refused (·.certDomains h) id (c.bridge i) capacity needed given text
  remoteAddress : ∀ l conn capacity needed given,
    ((c.bridge i).remoteAddress l conn capacity).1 = .error (.insufficientBuffer needed given) →
      ∃ text, Refused (·.remoteAddress l conn) id (c.bridge i) capacity needed given text
  /-- The call that is refused has made the surface that is told of later. -/
  loopback : ∀ h capacity needed given,
    ((c.bridge i).loopback h capacity).1 = .error (.insufficientBuffer needed given) →
      ∃ n a, Stands c i h n ∧
        Refused (·.loopback h) Loopback.address (c.bridge i) capacity needed given a ∧
        ∀ c', Later (c.perform i (.loopback h capacity)) c' → Stands c' i h n →
          Settled c' i h n a needed
  lastError : ∀ h message, (c.bridge i).recordOf h = some message →
    ∃ needed, (c.bridge i).lastError h 0 = .error (.insufficientBuffer needed 0) ∧
      needed = message.utf8ByteSize + 1 ∧
      ∀ room, needed ≤ room → (c.bridge i).lastError h room = .ok message
  /-- Nothing but a room of no bytes is too little for the front of a message. -/
  lastErrorOnly : ∀ h room needed given,
    (c.bridge i).lastError h room = .error (.insufficientBuffer needed given) → room = 0

theorem settled_of_surfaced {n : NodeId} {a : Loopback} (hs : Stands c i h n)
    (ha : c.net.Surfaced n a.info) : Settled c i h n a (a.address.utf8ByteSize + 1) := by
  obtain ⟨s, hserver, rfl⟩ := hs.server
  refine ⟨ha.2, fun room => ?_⟩
  rw [← Bridge.within_eq]
  exact Bridge.offers_surfaced (b := c.bridge i) hserver ha room

theorem retries_loopback (hr : Reachable c)
    (he : ((c.bridge i).loopback h capacity).1 = .error (.insufficientBuffer needed given)) :
    ∃ n a, Stands c i h n ∧
      Refused (·.loopback h) Loopback.address (c.bridge i) capacity needed given a ∧
      ∀ c', Later (c.perform i (.loopback h capacity)) c' → Stands c' i h n →
        Settled c' i h n a needed := by
  rcases Bridge.loopback_cases (c.bridge i) h fun s _ =>
    (Tailnet.surfaces_loopback c.net s.node).minted (hr.minted s.node) with
    hfails | ⟨s, a, hs, hsurfaced, hoffers⟩
  · exact (Bridge.not_refused_of_fails hfails he).elim
  · have hagain := Bridge.offers_surfaced
      (b := { c.bridge i with net := (c.net.loopback s.node).2 }) hs hsurfaced
    have hrefused := Bridge.refused_of_offers hoffers hagain rfl he
    refine ⟨s.node, a, stands_of_server hs, hrefused, fun c' hl hend => ?_⟩
    let c₁ := c.perform i (.loopback h capacity)
    have hbridge : c₁.bridge i = { c.bridge i with net := (c.net.loopback s.node).2 } :=
      (bridge_perform c i (.loopback h capacity)).trans (congrArg Prod.snd (hoffers capacity))
    have hnet : c₁.net = (c.net.loopback s.node).2 := congrArg Bridge.net hbridge
    have htables : c₁.tables i = c.tables i := congrArg Bridge.toTables hbridge
    have hstands : Stands c₁ i h s.node := by
      rw [Stands, htables]
      exact stands_of_server hs
    have hr₁ : Reachable c₁ := hr.next (.perform i _ fun _ _ _ _ he => by cases he)
    rw [← hrefused.size]
    exact settled_of_surfaced hend (surfaced_later hr₁ hl hstands hend (hnet ▸ hsurfaced))

/-- A call that is refused for want of room says how much is enough, and the same call with as much
is answered. -/
theorem retries_of_reachable (hr : Reachable c) (i : Nat) : Retries c i where
  addresses := fun h capacity needed given he => by
    rcases Bridge.addresses_cases (c.bridge i) h with hfails | ⟨text, hoffers⟩
    · exact (Bridge.not_refused_of_fails hfails he).elim
    · exact ⟨text, Bridge.refused_of_offers hoffers hoffers rfl he⟩
  certDomains := fun h capacity needed given he => by
    rcases Bridge.certDomains_cases (c.bridge i) h with hfails | ⟨text, hoffers⟩
    · exact (Bridge.not_refused_of_fails hfails he).elim
    · exact ⟨text, Bridge.refused_of_offers hoffers hoffers rfl he⟩
  remoteAddress := fun l conn capacity needed given he => by
    rcases Bridge.remoteAddress_cases (c.bridge i) l conn with hfails | ⟨text, hoffers⟩
    · exact (Bridge.not_refused_of_fails hfails he).elim
    · exact ⟨text, Bridge.refused_of_offers hoffers hoffers rfl he⟩
  loopback := fun _ _ _ _ he => retries_loopback hr he
  lastError := fun h message hm => by
    refine ⟨message.utf8ByteSize + 1, Bridge.lastError_live hm 0, rfl, fun room hroom => ?_⟩
    rw [Bridge.lastError_live hm, truncate_of_lt hroom]
  lastErrorOnly := fun h room needed given he => by
    cases hm : (c.bridge i).recordOf h with
    | none =>
      rw [Bridge.lastError_dead hm] at he
      cases he
    | some message =>
      rw [Bridge.lastError_live hm, truncate] at he
      split at he
      · assumption
      · split at he <;> cases he

/-- Each call lacks one byte. -/
theorem retries_of_paired :
    errorOf ((paired.bridge 0).addresses ⟨2752513⟩ 28).1 = some (.insufficientBuffer 29 28) ∧
    errorOf ((paired.bridge 0).certDomains ⟨2752513⟩ 26).1 = some (.insufficientBuffer 27 26) ∧
    errorOf ((paired.bridge 0).remoteAddress ⟨2818049⟩ ⟨2883587⟩ 10).1 =
      some (.insufficientBuffer 11 10) ∧
    errorOf ((paired.bridge 0).loopback ⟨2752513⟩ 15).1 = some (.insufficientBuffer 16 15) ∧
    Retries paired 0 :=
  ⟨by decide +kernel, by decide +kernel, by decide +kernel, by decide +kernel,
    retries_of_reachable reachable_paired 0⟩

end Handoff.Custody
