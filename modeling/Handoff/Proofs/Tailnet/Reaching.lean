import Handoff.Proofs.Net.Endpoint
import Handoff.Proofs.Tailnet.Dialing
import Handoff.Proofs.Tailnet.Starting

namespace Handoff

namespace Tailnet
variable {t t' : Tailnet} {n m : NodeId} {network address : String} {l : ListenerId}

theorem isNetwork_iff : isNetwork network = true ↔
    network = "tcp" ∨ network = "tcp4" ∨ network = "tcp6" := by
  simp [isNetwork, or_assoc]

/-- The address a host stands for: itself if it is one, else the one its name is registered for. -/
inductive Registry.Means (r : Registry) (host : List Char) : Address → Prop where
  | literal (ip : Address) : Address.parse? host = some ip → Means r host ip
  | registered (ip : V4) : Address.parse? host = none → r.names (String.ofList host) = some ip →
    Means r host (.v4 ip)

theorem resolve_iff {r : Registry} {host : List Char} {ip : Address} :
    r.resolve host = some ip ↔ r.Means host ip := by
  unfold Registry.resolve
  constructor
  · intro h
    split at h
    · rename_i ip' hp
      cases h
      exact .literal _ hp
    · rename_i hp
      obtain ⟨v, hv, rfl⟩ := Option.map_eq_some_iff.mp h
      exact .registered v hp hv
  · rintro (⟨_, hp⟩ | ⟨v, hp, hv⟩)
    · rw [hp]
    · rw [hp, hv]
      rfl

structure Registry.Targets (r : Registry) (address : String) (e : Endpoint) : Prop where
  split : ∃ before after, HostPort.Splits address.toList before after e.port ∧
    r.Means (HostPort.trimBrackets before) e.ip

/-- The listener is reached under `e` from other nodes. -/
structure Takes (t : Tailnet) (l : ListenerId) (e : Endpoint) : Prop where
  serves : t.Serves l e
  inward : (t.listener l).funnel ≠ some .funnelOnly

theorem planDial_ok_iff {e : Endpoint} {route : Route} :
    t.planDial network address = .ok ⟨e, route⟩ ↔
      t.registry.Targets address e ∧ t.registry.routes e = some route ∧
        route.funnelOnly = false := by
  unfold planDial
  constructor
  · intro h
    split at h
    · cases h
    · rename_i host port hp
      obtain ⟨before, after, hs, rfl⟩ := HostPort.parse_ok_iff.mp hp
      split at h
      · cases h
      · rename_i ip hip
        split at h
        · cases h
        · rename_i route' hroute
          split at h
          · cases h
          · rename_i hf
            cases h
            exact ⟨⟨before, after, hs, resolve_iff.mp hip⟩, hroute, (Bool.not_eq_true _).mp hf⟩
  · rintro ⟨⟨before, after, hs, hm⟩, hroute, hf⟩
    rw [HostPort.parse_ok_iff.mpr ⟨before, after, hs, rfl⟩]
    simp only [resolve_iff.mpr hm, hroute, hf, Bool.false_eq_true, if_false]

theorem funnelOnly_route {x : Listener} : x.route.funnelOnly = false ↔
    x.funnel ≠ some .funnelOnly := by
  simp [Listener.route]

/-- A route that private traffic may take leads to an open listener. -/
theorem takes_of_route (hw : Wired t) {e : Endpoint} {route : Route}
    (hroute : t.registry.routes e = some route) (hf : route.funnelOnly = false) :
    ∃ l, t.Takes l e ∧ route = (t.listener l).route := by
  obtain ⟨l, hl, rfl⟩ := hw.routed e route hroute
  exact ⟨l, ⟨hl, funnelOnly_route.mp hf⟩, rfl⟩

theorem takes_iff (hw : Wired t) (ho : Owned t) (hlast : t.registry.lastHost < 2 ^ 32)
    {e : Endpoint} {route : Route} :
    t.registry.routes e = some route ∧ route.funnelOnly = false ↔
      ∃ l, t.Takes l e ∧ route = (t.listener l).route := by
  constructor
  · rintro ⟨hroute, hf⟩
    exact takes_of_route hw hroute hf
  · rintro ⟨l, hl, rfl⟩
    exact ⟨ho.routed hlast l e hl.serves, funnelOnly_route.mpr hl.inward⟩

/-- At one address only one listener is reached. -/
theorem serves_unique (hw : Wired t) (ho : Owned t) (hlast : t.registry.lastHost < 2 ^ 32)
    {k : ListenerId} {e : Endpoint} (hl : t.Serves l e) (hk : t.Serves k e) : k = l := by
  have hroute : (t.listener k).route = (t.listener l).route :=
    Option.some.inj ((ho.routed hlast k e hk).symm.trans (ho.routed hlast l e hl))
  exact hw.backing_inj hk.1 hl.1 (congrArg Route.backing hroute)

structure Rests (t t' : Tailnet) (n : NodeId) : Prop where
  listener : t'.listener = t.listener
  bound : t'.bound = t.bound
  streams : t'.streams = t.streams
  routes : t'.registry.routes = t.registry.routes
  dialers : t'.registry.dialers = t.registry.dialers
  others : ∀ m, m ≠ n → t'.node m = t.node m
  loopbackUp : t'.loopbackUp = t.loopbackUp
  supply : t'.supply = t.supply

theorem rests_start (t : Tailnet) (n : NodeId) : Rests t (t.start n).2 n := by
  have hnode := fun m => node_start_ne (t := t) (n := n) (m := m)
  rcases start_outcomes t n with ⟨-, h⟩ | ⟨f, files, h⟩ | ⟨-, files, h⟩ <;> rw [h] at hnode ⊢ <;>
    exact ⟨rfl, rfl, rfl, rfl, rfl, hnode, rfl, rfl⟩

inductive Dialed (t : Tailnet) (n : NodeId) (network address : String) :
    Except Fault Descriptor × Tailnet → Prop where
  | unsupported (f : Fault) : isNetwork network = false → Dialed t n network address (.error f, t)
  | unstarted (f : Fault) : (t.start n).1 = .error f →
    Dialed t n network address (.error f, (t.start n).2)
  | astray (f : Fault) : (t.start n).2.planDial network address = .error f →
    Dialed t n network address (.error f, (t.start n).2)
  | unconnected (f : Fault) (e : SystemError) (plan : DialPlan) :
    (t.start n).2.planDial network address = .ok plan →
    (t.start n).2.connect plan.route.backing .dialed = .error e →
    Dialed t n network address (.error f, (t.start n).2)
  | connected (plan : DialPlan) (l : ListenerId) (t' : Tailnet) :
    isNetwork network = true → (t.start n).1 = .ok () →
    (t.start n).2.planDial network address = .ok plan →
    (t.start n).2.bound plan.route.backing = some l →
    (∀ k, t'.listener k = if k = l then { (t.start n).2.listener l with
      backlog := ((t.start n).2.listener l).backlog ++ [.dialed t.streams.count] }
      else (t.start n).2.listener k) →
    Dialed t n network address (.ok ⟨t.streams.count, .near⟩, t')

theorem dialed_dial (t : Tailnet) (n : NodeId) (network address : String) :
    Dialed t n network address (t.dial n network address) := by
  rw [dial_eq]
  cases hnet : isNetwork network with
  | false => exact .unsupported _ hnet
  | true =>
    simp only [Bool.not_true, Bool.false_eq_true, if_false]
    cases hs : t.start n with
    | mk r t₁ =>
      have hr : (t.start n).1 = r := congrArg Prod.fst hs
      have ht : t₁ = (t.start n).2 := (congrArg Prod.snd hs).symm
      have hrest := rests_start t n
      cases r with
      | error f =>
        rw [ht]
        exact .unstarted f hr
      | ok =>
        subst ht
        dsimp only
        split
        · rename_i f hplan
          exact .astray f hplan
        · rename_i target route hplan
          split
          · rename_i e hconn
            exact .unconnected _ e _ hplan hconn
          · rename_i id t₂ hconn
            obtain ⟨l, hl, rfl, rfl⟩ := connect_ok hconn
            rw [hrest.streams]
            refine .connected ⟨target, route⟩ l _ hnet hr hplan hl fun k => ?_
            rw [listener_log, listener_recordDialer]
            exact listener_setListener ..

theorem connect_error {backing : Endpoint} {arrival : StreamId → Arrival} {e : SystemError}
    (hup : t.loopbackUp = true) (h : t.connect backing arrival = .error e) :
    t.bound backing = none := by
  unfold connect at h
  rw [hup] at h
  simp only [Bool.not_true, Bool.false_eq_true, if_false] at h
  split at h
  · assumption
  · cases h

/-- A dial from the node leads to `e`, where the listener `l` takes it. -/
structure Reaches (t : Tailnet) (n : NodeId) (network address : String) (e : Endpoint)
    (l : ListenerId) : Prop where
  network : network = "tcp" ∨ network = "tcp4" ∨ network = "tcp6"
  running : t.Runs n ∨ t.Ready n
  targets : (t.start n).2.registry.Targets address e
  takes : t.Takes l e

section Dialing
variable (hw : Wired t)
include hw

/-- Where the machine reaches itself, nothing but the checks before it can fail a dial. -/
theorem dial_ok_iff_planned (hup : t.loopbackUp = true) :
    (∃ d, (t.dial n network address).1 = .ok d) ↔
      (network = "tcp" ∨ network = "tcp4" ∨ network = "tcp6") ∧ (t.Runs n ∨ t.Ready n) ∧
        ∃ plan, (t.start n).2.planDial network address = .ok plan := by
  have hrest := rests_start t n
  have h := dialed_dial t n network address
  generalize t.dial n network address = r at h ⊢
  constructor
  · rintro ⟨d, hd⟩
    cases h with
    | connected plan l t' hnet hs hp hl hlisteners =>
      exact ⟨isNetwork_iff.mp hnet, start_ok_iff.mp hs, plan, hp⟩
    | _ => cases hd
  · rintro ⟨hnet, hrun, plan, hp⟩
    cases h with
    | unsupported f hno =>
      rw [isNetwork_iff.mpr hnet] at hno
      cases hno
    | unstarted f hf =>
      rw [start_ok_iff.mpr hrun] at hf
      cases hf
    | astray f hf =>
      rw [hp] at hf
      cases hf
    | unconnected f x plan' hp' hconn =>
      -- a route leads to a socket that is bound
      obtain ⟨target, route⟩ := plan'
      obtain ⟨-, hroute, hf⟩ := planDial_ok_iff.mp hp'
      rw [hrest.routes] at hroute
      obtain ⟨l, hl, rfl⟩ := takes_of_route hw hroute hf
      have hbound := connect_error (hrest.loopbackUp.trans hup) hconn
      rw [hrest.bound] at hbound
      cases hbound.symm.trans (hw.bound l (hw.held l hl.serves.1))
    | connected plan k t' => exact ⟨_, rfl⟩

/-- The connection joins the queue of a listener that is reached there, and no other. -/
theorem dial_enters {d : Descriptor} (hd : (t.dial n network address).1 = .ok d) :
    ∃ e l, Reaches t n network address e l ∧ d = ⟨t.streams.count, .near⟩ ∧
      (t.dial n network address).2.listener l =
        { t.listener l with backlog := (t.listener l).backlog ++ [.dialed d.stream] } ∧
      ∀ k, k ≠ l → (t.dial n network address).2.listener k = t.listener k := by
  have hrest := rests_start t n
  have h := dialed_dial t n network address
  generalize t.dial n network address = r at h hd ⊢
  cases h with
  | connected plan l t' hnet hs hp hl hlisteners =>
    obtain ⟨target, route⟩ := plan
    obtain ⟨ht, hroute, hf⟩ := planDial_ok_iff.mp hp
    rw [hrest.routes] at hroute
    obtain ⟨k, hk, hroute⟩ := takes_of_route hw hroute hf
    -- the socket behind the route is that of the listener
    obtain rfl : k = l := by
      rw [hrest.bound, hroute] at hl
      exact Option.some.inj ((hw.bound k (hw.held k hk.serves.1)).symm.trans hl)
    cases hd
    refine ⟨_, k, ⟨isNetwork_iff.mp hnet, start_ok_iff.mp hs, ht, hk⟩, rfl, ?_, fun j hj => ?_⟩
    · rw [hlisteners, if_pos rfl, hrest.listener]
    · rw [hlisteners, if_neg hj, hrest.listener]
  | _ => cases hd

section
variable (ho : Owned t) (hlast : t.registry.lastHost < 2 ^ 32)
include ho hlast

/-- Names are looked up after the start, routes are as before it. -/
theorem planDial_start {e : Endpoint} {route : Route} :
    (t.start n).2.planDial network address = .ok ⟨e, route⟩ ↔
      (t.start n).2.registry.Targets address e ∧
        ∃ l, t.Takes l e ∧ route = (t.listener l).route := by
  rw [planDial_ok_iff, (rests_start t n).routes, takes_iff hw ho hlast]

theorem dial_ok_iff (hup : t.loopbackUp = true) :
    (∃ d, (t.dial n network address).1 = .ok d) ↔ ∃ e l, Reaches t n network address e l := by
  rw [dial_ok_iff_planned hw hup]
  constructor
  · rintro ⟨hnet, hrun, ⟨e, route⟩, hp⟩
    obtain ⟨ht, l, hl, -⟩ := (planDial_start hw ho hlast).mp hp
    exact ⟨e, l, hnet, hrun, ht, hl⟩
  · rintro ⟨e, l, hnet, hrun, ht, hl⟩
    exact ⟨hnet, hrun, _, (planDial_start hw ho hlast).mpr ⟨ht, l, hl, rfl⟩⟩

/-- It is the one listener that is reached there. -/
theorem dial_reaches {d : Descriptor} (hd : (t.dial n network address).1 = .ok d) :
    ∃ e l, Reaches t n network address e l ∧ (∀ k, t.Serves k e → k = l) ∧
      d = ⟨t.streams.count, .near⟩ ∧
      (t.dial n network address).2.listener l =
        { t.listener l with backlog := (t.listener l).backlog ++ [.dialed d.stream] } ∧
      ∀ k, k ≠ l → (t.dial n network address).2.listener k = t.listener k := by
  obtain ⟨e, l, hr, hd⟩ := dial_enters hw hd
  exact ⟨e, l, hr, fun k hk => serves_unique hw ho hlast hr.takes.serves hk, hd⟩

end

end Dialing

/-- A dial that fails has started its node at most. -/
theorem dial_fails {f : Fault} (hf : (t.dial n network address).1 = .error f) :
    (t.dial n network address).2 = t ∨ (t.dial n network address).2 = (t.start n).2 := by
  have h := dialed_dial t n network address
  revert h hf
  generalize t.dial n network address = r
  intro hf h
  cases h with
  | unsupported => exact .inl rfl
  | unstarted => exact .inr rfl
  | astray => exact .inr rfl
  | unconnected => exact .inr rfl
  | connected => cases hf

/-- What has started a node at most moves no connection and no route. -/
theorem rests_of_start (h : t' = t ∨ t' = (t.start n).2) : Rests t t' n := by
  rcases h with rfl | rfl
  · exact ⟨rfl, rfl, rfl, rfl, rfl, fun _ _ => rfl, rfl, rfl⟩
  · exact rests_start t n

theorem rests_dial {f : Fault} (hf : (t.dial n network address).1 = .error f) :
    Rests t (t.dial n network address).2 n :=
  rests_of_start (dial_fails hf)

/-- The start a dial makes gives the node a number and registers its name, or changes nothing. -/
theorem registry_start (t : Tailnet) (n : NodeId) : (t.start n).2.registry = t.registry ∨
    t.Ready n ∧ (t.start n).2.registry = t.registry.addHost (t.node n).hostname := by
  rcases start_outcomes t n with ⟨-, h⟩ | ⟨f, files, h⟩ | ⟨hready, files, h⟩ <;> rw [h]
  · exact .inl rfl
  · exact .inl rfl
  · exact .inr ⟨hready, rfl⟩

section Refusing
variable {r : Registry} {e e' : Endpoint}

theorem targets_iff : r.Targets address e ↔
    ∃ host, HostPort.parse address.toList = .ok ⟨host, e.port⟩ ∧ r.resolve host = some e.ip := by
  constructor
  · rintro ⟨before, after, hs, hm⟩
    exact ⟨_, HostPort.parse_ok_iff.mpr ⟨before, after, hs, rfl⟩, resolve_iff.mpr hm⟩
  · rintro ⟨host, hp, hr⟩
    obtain ⟨before, after, hs, rfl⟩ := HostPort.parse_ok_iff.mp hp
    exact ⟨before, after, hs, resolve_iff.mp hr⟩

/-- A text means the same where the name it could be stands for the same. -/
theorem targets_unique {r' : Registry} (hnames : ∀ x v v', r.names x = some v →
    r'.names x = some v' → .v4 v' = e'.ip → v' = v) (h : r.Targets address e)
    (h' : r'.Targets address e') : e' = e := by
  obtain ⟨host, hp, hip⟩ := targets_iff.mp h
  obtain ⟨host', hp', hip'⟩ := targets_iff.mp h'
  obtain ⟨rfl, hport⟩ := HostPort.mk.inj (Except.ok.inj (hp.symm.trans hp'))
  have haddress : e'.ip = e.ip := by
    unfold Registry.resolve at hip hip'
    split at hip
    · rename_i ip hparse
      rw [hparse] at hip'
      exact Option.some.inj (hip'.symm.trans hip)
    · rename_i hparse
      rw [hparse] at hip'
      obtain ⟨v, hv, hve⟩ := Option.map_eq_some_iff.mp hip
      obtain ⟨v', hv', hve'⟩ := Option.map_eq_some_iff.mp hip'
      rw [← hve, ← hve', hnames _ v v' hv hv' hve']
  cases e
  cases e'
  simp_all

/-- A dial that succeeds has found a route. -/
theorem dial_routed {d : Descriptor} (hd : (t.dial n network address).1 = .ok d) :
    ∃ e, (t.start n).2.registry.Targets address e ∧ t.registry.routes e ≠ none := by
  have h := dialed_dial t n network address
  revert h hd
  generalize t.dial n network address = p
  intro hd h
  cases h with
  | connected plan l t' hnet hs hplan hl hlisteners =>
    obtain ⟨target, route⟩ := plan
    obtain ⟨ht, hroute, -⟩ := planDial_ok_iff.mp hplan
    rw [(rests_start t n).routes] at hroute
    exact ⟨target, ht, by simp [hroute]⟩
  | _ => cases hd

theorem dial_unrouted (ht : (t.start n).2.registry.Targets address e)
    (hnone : t.registry.routes e = none) : ∃ f, (t.dial n network address).1 = .error f := by
  cases hd : (t.dial n network address).1 with
  | error f => exact ⟨f, rfl⟩
  | ok d =>
    obtain ⟨e', ht', hroute⟩ := dial_routed hd
    obtain rfl := targets_unique (fun x v v' hv hv' _ => Option.some.inj (hv'.symm.trans hv))
      ht ht'
    exact absurd hnone hroute

/-- What a text meant while names were known that are forgotten now is dialed in vain, too: if the
dialing node takes such a name over, nobody listens at its new address yet. -/
theorem dial_forgotten (hw : Wired t) (ho : Owned t) (hlast : t.registry.lastHost + 1 < 2 ^ 32)
    (hnames : ∀ x v, t.registry.names x = some v → r.names x = some v)
    (ht : r.Targets address e) (hnone : t.registry.routes e = none) :
    ∃ f, (t.dial n network address).1 = .error f := by
  cases hd : (t.dial n network address).1 with
  | error f => exact ⟨f, rfl⟩
  | ok d =>
    exfalso
    obtain ⟨e', ht', hroute⟩ := dial_routed hd
    obtain ⟨route, hroute⟩ := Option.ne_none_iff_exists'.mp hroute
    have hnew : e'.ip ≠ .v4 (hostV4 (t.registry.lastHost + 1)) := by
      -- whoever listens at the address has a number already
      intro hip
      obtain ⟨l, ⟨hopen, hserves⟩, -⟩ := hw.routed e' route hroute
      obtain ⟨m, -, -, haddr⟩ := ho.owner l hopen
      obtain ⟨k, hk, hv | hv⟩ := mem_addresses.mp (haddr e' hserves)
      · rw [hip] at hv
        have hle := ho.hosts m k hk
        have heq := hostV4_inj hlast (by omega) (Address.v4.inj hv)
        omega
      · rw [hip] at hv
        cases hv
    have hsame : ∀ x v v', r.names x = some v → (t.start n).2.registry.names x = some v' →
        .v4 v' = e'.ip → v' = v := by
      intro x v v' hv hv' hip
      have hold : t.registry.names x = some v' → v' = v := fun hv' =>
        Option.some.inj ((hnames x v' hv').symm.trans hv)
      rcases registry_start t n with hsame | ⟨-, hadd⟩
      · exact hold (hsame ▸ hv')
      · rw [hadd] at hv'
        change assign t.registry.names _ _ x = some v' at hv'
        rw [assign_apply] at hv'
        split at hv'
        · obtain rfl := Option.some.inj hv'
          exact absurd hip.symm hnew
        · exact hold hv'
    obtain rfl := targets_unique hsame ht ht'
    rw [hnone] at hroute
    cases hroute

end Refusing
end Tailnet
end Handoff
