import Handoff.Proofs.Tailnet.Opening

namespace Handoff.Tailnet
variable {t t' : Tailnet} {l : ListenerId} {n : NodeId} {network address : String}

/-- Where a dial of a node leads: the tailnet address it means, and the listener whose socket is
behind the route there. -/
def destination (t : Tailnet) (n : NodeId) (network address : String) :
    Option (Endpoint × ListenerId) :=
  match (t.start n).2.planDial network address with
  | .ok plan => ((t.start n).2.bound plan.route.backing).map (plan.target, ·)
  | .error _ => none

theorem planDial_ok {plan : DialPlan} (h : t.planDial network address = .ok plan) :
    t.registry.routes plan.target = some plan.route := by
  unfold planDial at h
  split at h
  · cases h
  · split at h
    · cases h
    · split at h
      · cases h
      · split at h
        · cases h
        · cases h
          assumption

structure Moves (t t' : Tailnet) (l : ListenerId) (backlog : List Arrival) : Prop
    extends Kept t t' where
  here : t'.listener l = { t.listener l with backlog }
  steady : ∀ k, k ≠ l → t'.Open k → t'.listener k = t.listener k

theorem moves_setBacklog (hw : Wired t) (l : ListenerId) (backlog : List Arrival)
    (streams : Streams) (hs : t.streams.count ≤ streams.count) (ports : Nat) :
    Moves t { t.setListener l { t.listener l with backlog } with streams, ports } l backlog :=
  ⟨(same_setBacklog t l backlog streams hs ports).kept hw, assign_same ..,
    fun _ hk _ => assign_of_ne _ _ _ hk⟩

theorem Moves.open {backlog : List Arrival} (h : Moves t t' l backlog) {k : ListenerId}
    (hk : t'.Open k) : t.Open k := by
  by_cases hkl : k = l
  · subst k
    rwa [Open, h.here] at hk
  · rwa [Open, h.steady k hkl hk] at hk

theorem Moves.before {backlog : List Arrival} {t₁ t₂ : Tailnet} (hc : Calm t t₁)
    (h : Moves t₁ t₂ l backlog) (hl : t₁.Open l) : Moves t t₂ l backlog :=
  ⟨hc.toKept.trans h.toKept, by rw [h.here, hc.steady l hl],
    fun k hk ho => (h.steady k hk ho).trans (hc.steady k (h.open ho))⟩

theorem Moves.after {backlog : List Arrival} {t₁ t₂ : Tailnet} (h : Moves t t₁ l backlog)
    (hc : Calm t₁ t₂) (hl : t₂.listener l = t₁.listener l) : Moves t t₂ l backlog :=
  ⟨h.toKept.trans hc.toKept, hl.trans h.here,
    fun k hk ho => (hc.steady k ho).trans (h.steady k hk (hc.open ho))⟩

theorem Calm.moves (hc : Calm t t') (hl : t'.listener l = t.listener l) :
    Moves t t' l (t.listener l).backlog :=
  ⟨hc.toKept, hl, fun k _ hk => hc.steady k hk⟩

/-- At a listener that is closed, nothing matters that moves. -/
theorem Moves.calm {backlog : List Arrival} (h : Moves t t' l backlog) (hl : ¬ t.Open l) :
    Calm t t' :=
  ⟨h.toKept, fun k hk => h.steady k (fun he => hl (he ▸ h.open hk)) hk⟩

/-- A dial that succeeds leaves its connection at the back of the queue of the open listener that
is reached under the address it means; the stream is a new one. -/
structure Arrives (t t' : Tailnet) (target : Endpoint) (l : ListenerId) (id : StreamId) : Prop
    extends Moves t t' l ((t.listener l).backlog ++ [.dialed id]) where
  serves : t.Serves l target
  fresh : t.streams.count ≤ id
  counted : id < t'.streams.count

theorem calm_recordDialer (hw : Wired t) (n : NodeId) (id : StreamId) (target : Endpoint) :
    Calm t (t.recordDialer n id target) := by
  unfold recordDialer
  split
  · exact .refl hw
  · exact calm_of_eq hw rfl rfl rfl rfl rfl rfl (Nat.le_refl _) (Nat.le_refl _)

theorem listener_recordDialer (t : Tailnet) (n : NodeId) (id : StreamId) (target : Endpoint) :
    (t.recordDialer n id target).listener = t.listener := by
  unfold recordDialer
  split <;> rfl

theorem dial_cases (hw : Wired t) (n : NodeId) (network address : String) :
    (∃ f, (t.dial n network address).1 = .error f ∧ Calm t (t.dial n network address).2) ∨
    ∃ target l id, (t.dial n network address).1 = .ok ⟨id, .near⟩ ∧
      t.destination n network address = some (target, l) ∧
      Arrives t (t.dial n network address).2 target l id := by
  have hs := calm_start hw n
  rw [dial_eq]
  unfold destination
  split
  · exact .inl ⟨_, rfl, .refl hw⟩
  · revert hs
    generalize t.start n = r
    obtain ⟨r, t₁⟩ := r
    intro hs
    replace hs : Calm t t₁ := hs
    cases r with
    | error f => exact .inl ⟨f, rfl, hs⟩
    | ok =>
      dsimp only
      split
      · exact .inl ⟨_, rfl, hs⟩
      · rename_i target route hplan
        split
        · exact .inl ⟨_, rfl, hs⟩
        · rename_i id t₂ hconn
          obtain ⟨l, hl, rfl, rfl⟩ := connect_ok hconn
          obtain ⟨k, ⟨hk, hmem⟩, hroute⟩ := hs.wired.routed _ _ (planDial_ok hplan)
          -- the route leads to the socket of the listener that is reached there
          replace hroute : route = (t₁.listener k).route := hroute
          obtain rfl : l = k := by
            have hb := hs.wired.bound k (hs.wired.held k hk)
            rw [hroute] at hl
            exact Option.some.inj (hl.symm.trans hb)
          have hm := moves_setBacklog hs.wired l
            ((t₁.listener l).backlog ++ [.dialed t₁.streams.count])
            (t₁.streams.connect (t₁.loopbackAt t₁.ports) route.backing).2 (Nat.le_succ _)
            (t₁.ports + 1)
          have hr := calm_recordDialer hm.wired n t₁.streams.count target
          have hg := calm_log hr.wired n s!"dialed {target.name}"
          have hall := ((hm.before hs hk).after hr
            (congrFun (listener_recordDialer ..) l)).after hg (congrFun (listener_log ..) l)
          have hsame := hs.steady l hk
          refine .inr ⟨target, l, t₁.streams.count, rfl, by rw [hplan]; simp only [hl]; rfl, ?_,
            ⟨by rwa [Open, ← hsame], by rwa [← hsame]⟩, hs.count, ?_⟩
          · rw [← hsame]
            exact hall
          exact Nat.lt_of_lt_of_le (Nat.lt_succ_self _) (Nat.le_trans hr.count hg.count)

theorem calm_surface (hw : Wired t) (n : NodeId) (info : LoopbackInfo) (ports credentials : Nat) :
    Calm t { t.setNode n { t.node n with loopback := some info } with ports, credentials } := by
  have hn : Calm t (t.setNode n { t.node n with loopback := some info }) :=
    calm_setNode hw rfl rfl rfl
  exact hn.trans (calm_of_eq hn.wired rfl rfl rfl rfl rfl rfl (Nat.le_refl _) (Nat.le_refl _))

theorem calm_loopback (hw : Wired t) (n : NodeId) : Calm t (t.loopback n).2 := by
  have hs := calm_start hw n
  unfold loopback
  revert hs
  generalize t.start n = r
  obtain ⟨r, t₁⟩ := r
  intro hs
  cases r with
  | error f => exact hs
  | ok =>
    dsimp only
    split
    · exact hs
    · split
      · exact hs
      · rename_i k hk
        have hsurf := calm_surface hs.wired n
          ⟨(t₁.loopbackAt k).name, t₁.supply.token t₁.credentials,
            t₁.supply.token (t₁.credentials + 1)⟩ (k + 1)
          (t₁.credentials + 2)
        exact (hs.trans hsurf).trans (calm_log hsurf.wired n _)

section Accepting

theorem acceptStep_entering (h : t.Open l) :
    acceptStep l .entering t = (.proceeds .waiting, t) := by
  unfold acceptStep
  simp only [show (t.listener l).closed = false from h, Bool.false_eq_true, if_false]

theorem acceptStep_waiting : acceptStep l .waiting t =
    match (t.listener l).backlog with
    | [] => (.blocked, t)
    | a :: rest => (.proceeds (.arrived ⟨a.stream, .far⟩),
        t.setListener l { t.listener l with backlog := rest }) := rfl

theorem acceptStep_arrived (h : t.Open l) (d : Descriptor) :
    acceptStep l (.arrived d) t = (.accepted d, t) := by
  unfold acceptStep
  simp only [show (t.listener l).closed = false from h, Bool.false_eq_true, if_false]

theorem acceptStep_entering_closed (h : ¬ t.Open l) :
    acceptStep l .entering t = (.failed Fault.listenerClosed.toFailure, t) := by
  rw [acceptStep, if_pos (by simpa [Open] using h)]

theorem acceptStep_arrived_closed (h : ¬ t.Open l) (d : Descriptor) :
    acceptStep l (.arrived d) t = (.failed Fault.listenerClosed.toFailure,
      { t with streams := t.streams.close d }) := by
  rw [acceptStep, if_pos (by simpa [Open] using h)]

end Accepting

end Handoff.Tailnet
