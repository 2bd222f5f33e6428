import Handoff.Proofs.Tailnet.Listening

/-!
An address that is written out, with a port, means itself wherever a tailnet is given an address
text. No name is asked for it, whoever may be called that.
-/

namespace Handoff.Tailnet
variable {t : Tailnet} {n : NodeId} {network address : String} {funnel : Option FunnelMode}
  {e : Endpoint} {k : Nat} {es : List Endpoint}

theorem resolve_text (r : Registry) (ip : Address) : r.resolve ip.text = some ip := by
  rw [Registry.resolve, Address.parse?_text]

theorem targets_spelled {r : Registry} {e' : Endpoint} (h : e.Spelled address.toList) :
    r.Targets address e' ↔ e' = e := by
  rw [targets_iff, h.parse]
  constructor
  · rintro ⟨host, hp, hip⟩
    obtain ⟨rfl, hport⟩ := HostPort.mk.inj (Except.ok.inj hp)
    have hip := Option.some.inj ((resolve_text r e.ip).symm.trans hip)
    cases e
    cases e'
    simp_all
  · rintro rfl
    exact ⟨_, rfl, resolve_text r e'.ip⟩

/-- What a dial finds depends on the route of the address alone. -/
theorem planDial_spelled (h : e.Spelled address.toList) : t.planDial network address =
    match t.registry.routes e with
    | none => .error (.refused network address)
    | some route =>
      if route.funnelOnly then .error (.funnelTraffic network address) else .ok ⟨e, route⟩ := by
  obtain ⟨ip, port⟩ := e
  rw [planDial, h.parse]
  cases hroute : t.registry.routes ⟨ip, port⟩ with
  | none => simp only [resolve_text, hroute]
  | some route => simp only [resolve_text, hroute]

/-- Where a listener that is asked for at `e` opens: with no port given, at the one its socket
gets. -/
def openedAt (e : Endpoint) (socket : Port) : Endpoint :=
  ⟨e.ip, if e.port = 0 then socket else e.port⟩

theorem asks_spelled {node : Node} (h : e.Spelled address.toList) :
    node.Asks address funnel socket es ↔ e.ip ∈ node.addresses ∧
      (funnel ≠ none → e.port = 443 ∨ e.port = 8443 ∨ e.port = 10000) ∧
      es = [openedAt e socket] := by
  have hne : e.ip.text ≠ [] := by
    intro hnil
    have := Address.parse?_text e.ip
    rw [hnil] at this
    cases this
  constructor
  · rintro ⟨hs, hf, hhost, hm⟩
    obtain ⟨hmeant, rfl⟩ := HostPort.mk.inj
      (Except.ok.inj ((HostPort.parse_ok_iff.mpr ⟨_, _, hs, rfl⟩).symm.trans h.parse))
    rw [hmeant] at hm
    cases hm with
    | all hnil => exact absurd hnil hne
    | spelled ip _ hp hip =>
      obtain rfl := Option.some.inj ((Address.parse?_text e.ip).symm.trans hp)
      exact ⟨mem_addresses.mpr ⟨_, hhost, hip⟩, hf, rfl⟩
    | named _ hp =>
      rw [Address.parse?_text] at hp
      cases hp
  · rintro ⟨hip, hf, rfl⟩
    obtain ⟨number, hhost, hip⟩ := mem_addresses.mp hip
    obtain ⟨before, hs, hmeant⟩ := h.splits
    have hm : node.Means number (HostPort.trimBrackets before) [e.ip] := by
      rw [hmeant]
      exact .spelled e.ip hne (Address.parse?_text e.ip) hip
    exact .at hs hf hhost hm

/-- A node listens at an address that is written out if it is one of its own. -/
theorem admits_spelled (h : e.Spelled address.toList) :
    Admits t n network address funnel k es ↔
      (network = "tcp" ∨ network = "tcp4" ∨ network = "tcp6") ∧ (t.Runs n ∨ t.Ready n) ∧
        e.ip ∈ ((t.start n).2.node n).addresses ∧
        (funnel ≠ none → e.port = 443 ∨ e.port = 8443 ∨ e.port = 10000) ∧
        t.nextPort = some k ∧ t.registry.routes (openedAt e (t.supply.port k)) = none ∧
        es = [openedAt e (t.supply.port k)] := by
  constructor
  · rintro ⟨hnet, hrun, hasks, hfree, hk⟩
    obtain ⟨hip, hf, rfl⟩ := (asks_spelled h).mp hasks
    exact ⟨hnet, hrun, hip, hf, hk, hfree _ List.mem_cons_self, rfl⟩
  · rintro ⟨hnet, hrun, hip, hf, hk, hfree, rfl⟩
    refine ⟨hnet, hrun, (asks_spelled h).mpr ⟨hip, hf, rfl⟩, fun x hx => ?_, hk⟩
    rw [List.mem_singleton.mp hx]
    exact hfree

end Handoff.Tailnet
