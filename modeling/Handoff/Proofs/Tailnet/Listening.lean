import Handoff.Proofs.Tailnet.Origin

namespace Handoff.Tailnet
variable {t t' : Tailnet} {n : NodeId} {node : Node} {network address : String}
  {funnel : Option FunnelMode} {host : List Char} {number k : Nat} {ips : List Address}
  {es : List Endpoint}

/-- The addresses that a host stands for at a node with this number that is to listen there. -/
inductive Node.Means (node : Node) (number : Nat) (host : List Char) : List Address → Prop where
  | all : host = [] → Means node number host [.v4 (hostV4 number), .v6 (hostV6 number)]
  /-- One of its two addresses, however it is spelled. -/
  | spelled (ip : Address) : host ≠ [] → Address.parse? host = some ip →
    ip = .v4 (hostV4 number) ∨ ip = .v6 (hostV6 number) → Means node number host [ip]
  | named : host ≠ [] → Address.parse? host = none → String.ofList host = node.hostname →
    Means node number host [.v4 (hostV4 number)]

/-- The endpoints that an address text asks for at a node, if its socket gets this port. -/
inductive Node.Asks (node : Node) (address : String) (funnel : Option FunnelMode)
    (socket : Port) : List Endpoint → Prop where
  | at {before after : List Char} {port : Port} {number : Nat} {ips : List Address} :
    HostPort.Splits address.toList before after port →
    (funnel ≠ none → port = 443 ∨ port = 8443 ∨ port = 10000) →
    node.host = some number → node.Means number (HostPort.trimBrackets before) ips →
    Asks node address funnel socket (ips.map (⟨·, if port = 0 then socket else port⟩))

structure Admits (t : Tailnet) (n : NodeId) (network address : String)
    (funnel : Option FunnelMode) (k : Nat) (es : List Endpoint) : Prop where
  network : network = "tcp" ∨ network = "tcp4" ∨ network = "tcp6"
  running : t.Runs n ∨ t.Ready n
  asks : ((t.start n).2.node n).Asks address funnel (t.supply.port k) es
  unrouted : ∀ e ∈ es, t.registry.routes e = none
  /-- The system has a socket to give. -/
  socket : t.nextPort = some k

theorem ownAddresses_ok_iff (hn : node.host = some number) :
    ownAddresses node network address host = .ok ips ↔ node.Means number host ips := by
  have haddr : node.addresses = [.v4 (hostV4 number), .v6 (hostV6 number)] := by
    rw [Node.addresses, hn]
  unfold ownAddresses
  rw [haddr]
  dsimp only
  constructor
  · intro h
    split at h
    · rename_i hnil
      cases h
      exact .all hnil
    · rename_i hne
      split at h
      · rename_i ip hp
        split at h
        · rename_i hmem
          cases h
          exact .spelled ip hne hp (by simpa using hmem)
        · cases h
      · rename_i hp
        split at h
        · rename_i hname
          cases h
          exact .named hne hp hname
        · cases h
  · rintro (hnil | ⟨ip, hne, hp, hip⟩ | ⟨hne, hp, hname⟩)
    · rw [if_pos hnil]
    · rw [if_neg hne, hp]
      dsimp only
      rw [if_pos (by simpa using hip)]
    · rw [if_neg hne, hp]
      dsimp only
      rw [if_pos hname]

theorem mem_funnelPorts {port : Port} :
    port ∈ funnelPorts ↔ port = 443 ∨ port = 8443 ∨ port = 10000 := by
  simp [funnelPorts]

/-- A plan is made of what is asked for, if nothing of it has a route and there is a socket. -/
theorem planListen_ok_iff (hn : (t.node n).host ≠ none) :
    (∃ port, t.planListen n network address funnel = .ok ⟨es, funnel, k, port⟩) ↔
      (t.node n).Asks address funnel (t.supply.port k) es ∧ (∀ e ∈ es, t.registry.routes e = none) ∧
        t.nextPort = some k := by
  obtain ⟨number, hnumber⟩ := Option.ne_none_iff_exists'.mp hn
  unfold planListen
  constructor
  · rintro ⟨port, h⟩
    split at h
    · cases h
    · rename_i host asked hp
      obtain ⟨before, after, hs, rfl⟩ := HostPort.parse_ok_iff.mp hp
      split at h
      · cases h
      · rename_i hf
        split at h
        · cases h
        · rename_i ips hips
          split at h
          · cases h
          · rename_i j hj
            dsimp only at h
            split at h
            · cases h
            · rename_i hfree
              cases h
              refine ⟨.at hs ?_ hnumber ((ownAddresses_ok_iff hnumber).mp hips), ?_, hj⟩
              · intro hne
                rw [← mem_funnelPorts]
                by_contra hport
                exact hf ⟨Option.isSome_iff_ne_none.mpr hne, hport⟩
              · intro e he
                simpa using List.find?_eq_none.mp hfree e he
  · rintro ⟨⟨hs, hf, hhost, hm⟩, hfree, hk⟩
    rw [HostPort.parse_ok_iff.mpr ⟨_, _, hs, rfl⟩]
    dsimp only
    rw [if_neg, (ownAddresses_ok_iff hhost).mpr hm]
    · dsimp only
      rw [hk]
      dsimp only
      rw [List.find?_eq_none.mpr]
      · exact ⟨_, rfl⟩
      · intro e he
        simp [hfree e he]
    · rintro ⟨hsome, hport⟩
      exact hport (mem_funnelPorts.mpr (hf (Option.isSome_iff_ne_none.mp hsome)))

theorem funnel_planListen {plan : ListenPlan}
    (h : t.planListen n network address funnel = .ok plan) : plan.funnel = funnel := by
  unfold planListen at h
  split at h
  · cases h
  · split at h
    · cases h
    · split at h
      · cases h
      · split at h
        · cases h
        · dsimp only at h
          split at h
          · cases h
          · cases h
            rfl

theorem unbound_eq (hs : t'.supply = t.supply) (hb : t'.bound = t.bound) (m j : Nat) :
    t'.unbound m j = t.unbound m j := by
  induction m generalizing j with
  | zero => rfl
  | succ m ih => rw [unbound, unbound, loopbackAt, hs, hb, ih, loopbackAt]

/-- A start takes no socket. -/
theorem nextPort_start (t : Tailnet) (n : NodeId) : (t.start n).2.nextPort = t.nextPort := by
  have hports : (t.start n).2.ports = t.ports := by
    rcases start_outcomes t n with ⟨-, h⟩ | ⟨f, files, h⟩ | ⟨-, files, h⟩
    · rw [h]
    · rw [h]
    · rw [h]
      rfl
  have hrest := rests_start t n
  rw [nextPort, hports, hrest.supply, unbound_eq hrest.supply hrest.bound, nextPort]

inductive Listened (t : Tailnet) (n : NodeId) (network address : String)
    (funnel : Option FunnelMode) : Except Fault ListenerId × Tailnet → Prop where
  | unsupported (f : Fault) : isNetwork network = false →
    Listened t n network address funnel (.error f, t)
  | unstarted (f : Fault) : (t.start n).1 = .error f →
    Listened t n network address funnel (.error f, (t.start n).2)
  | unplanned (f : Fault) : (t.start n).2.planListen n network address funnel = .error f →
    Listened t n network address funnel (.error f, (t.start n).2)
  | opened (plan : ListenPlan) (files : Files) : isNetwork network = true →
    (t.start n).1 = .ok () → (t.start n).2.planListen n network address funnel = .ok plan →
    Listened t n network address funnel (.ok ((t.start n).2.openListener n plan).1,
      { ((t.start n).2.openListener n plan).2 with files })

theorem listened_listen (t : Tailnet) (n : NodeId) (network address : String)
    (funnel : Option FunnelMode) :
    Listened t n network address funnel (t.listen n network address funnel) := by
  unfold listen
  cases hnet : isNetwork network with
  | false => exact .unsupported _ hnet
  | true =>
    simp only [Bool.not_true, Bool.false_eq_true, if_false]
    cases hs : t.start n with
    | mk r t₁ =>
      have hr : (t.start n).1 = r := congrArg Prod.fst hs
      obtain rfl : (t.start n).2 = t₁ := congrArg Prod.snd hs
      cases r with
      | error f => exact .unstarted f hr
      | ok =>
        dsimp only
        split
        · rename_i f hplan
          exact .unplanned f hplan
        · rename_i plan hplan
          obtain ⟨files, hlog⟩ := log_eq ((t.start n).2.openListener n plan).2 n
            s!"listening on {address} (port {plan.port.toNat})"
          rw [hlog]
          exact .opened plan files hnet hr hplan

section
variable (hnum : Numbered t)
include hnum

/-- After a start that succeeded a plan is made just where everything is as it should be. -/
theorem planListen_start (hs : (t.start n).1 = .ok ()) (hnet : isNetwork network = true) :
    (∃ port, (t.start n).2.planListen n network address funnel = .ok ⟨es, funnel, k, port⟩) ↔
      Admits t n network address funnel k es := by
  have hnumbered := (hnum.registers (registers_start (D := fun _ => False) t n)) n (runs_start hs)
  have hrest := rests_start t n
  rw [planListen_ok_iff hnumbered, hrest.routes, hrest.supply, nextPort_start]
  exact ⟨fun ⟨ha, hr, hk⟩ => ⟨isNetwork_iff.mp hnet, start_ok_iff.mp hs, ha, hr, hk⟩,
    fun h => ⟨h.asks, h.unrouted, h.socket⟩⟩

theorem listen_ok_iff : (∃ l, (t.listen n network address funnel).1 = .ok l) ↔
    ∃ k es, Admits t n network address funnel k es := by
  have h := listened_listen t n network address funnel
  generalize t.listen n network address funnel = r at h ⊢
  cases h with
  | unsupported f hnet =>
    refine iff_of_false (by rintro ⟨_, ⟨⟩⟩) ?_
    rintro ⟨k, es, ha⟩
    rw [isNetwork_iff.mpr ha.network] at hnet
    cases hnet
  | unstarted f hs =>
    refine iff_of_false (by rintro ⟨_, ⟨⟩⟩) ?_
    rintro ⟨k, es, ha⟩
    rw [start_ok_iff.mpr ha.running] at hs
    cases hs
  | unplanned f hplan =>
    refine iff_of_false (by rintro ⟨_, ⟨⟩⟩) ?_
    rintro ⟨k, es, ha⟩
    obtain ⟨port, hp⟩ := (planListen_start hnum (start_ok_iff.mpr ha.running)
      (isNetwork_iff.mpr ha.network)).mpr ha
    cases hp.symm.trans hplan
  | opened plan files hnet hs hplan =>
    refine iff_of_true ⟨_, rfl⟩ ⟨plan.socket, plan.addresses, ?_⟩
    obtain rfl := funnel_planListen hplan
    exact (planListen_start hnum hs hnet).mp ⟨plan.port, hplan⟩

end

/-- A listen that fails has started its node at most. -/
theorem listen_fails {f : Fault} (hf : (t.listen n network address funnel).1 = .error f) :
    (t.listen n network address funnel).2 = t ∨
      (t.listen n network address funnel).2 = (t.start n).2 := by
  have h := listened_listen t n network address funnel
  generalize t.listen n network address funnel = r at h hf ⊢
  cases h with
  | unsupported => exact .inl rfl
  | unstarted => exact .inr rfl
  | unplanned => exact .inr rfl
  | opened => cases hf

end Handoff.Tailnet
