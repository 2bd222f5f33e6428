import Handoff.Proofs.Tailnet.Fates
import Handoff.Proofs.Tailnet.Listening
import Handoff.Proofs.Tailnet.Tallying
import Handoff.Proofs.Traffic.Indifference

/-!
Which listeners a node lets go of, whatever it is asked for.
-/

namespace Handoff.Tailnet
variable {t u : Tailnet} {l : ListenerId} {n : NodeId} {o : Nat} {q : List Descriptor}

section LettingGo
variable {x : Node} {ls : List ListenerId}

structure Drops (l : ListenerId) (o : Nat) (t u : Tailnet) : Prop where
  tallied : u.Tallied l o
  unlisted : u.Unlisted l
  closed : ¬ t.Open l → ¬ u.Open l
  ends : ¬ t.Open l → o = 0 → (u.listener l).queued = [] ∧
    (t.Sole l → ∀ d ∈ (t.listener l).queued, (u.streams.own d).ended = true)

theorem Drops.adrift (h : Drops l 0 t u) (hs : t.streams.Ebbs u.streams)
    (hl : l ∈ (t.node n).listeners) (ht : t.Adrift l q) : u.Adrift l q where
  closed := h.closed ht.closed
  tallied := h.tallied
  made := fun d hd => Nat.lt_of_lt_of_le (ht.made d hd) hs.count
  waits := fun m hm => absurd hm (h.unlisted m)
  ends := fun _ => by
    obtain ⟨rfl, hsole⟩ := ht.waits n hl
    obtain ⟨hq, hended⟩ := h.ends ht.closed rfl
    exact ⟨hq, hended hsole⟩

theorem Tallied.count_eq_one (h : t.Tallied l o) (hl : l ∈ (t.node n).listeners) :
    (t.node n).listeners.count l = 1 ∧ (∀ m, m ≠ n → l ∉ (t.node m).listeners) ∧
      (t.listener l).holders = o + 1 := by
  rcases h.held with ⟨m, hone, hothers, hholders⟩ | ⟨hnone, -⟩
  · obtain rfl : n = m := by
      by_contra hne
      exact hothers n hne hl
    exact ⟨hone, hothers, hholders⟩
  · exact absurd hl (hnone n)

theorem drops_letGo (ht : t.Tallied l o) (hl : l ∈ (t.node n).listeners) (hx : l ∉ x.listeners)
    (hls : ls.count l = (t.node n).listeners.count l) :
    Drops l o t (ls.foldl releaseListener (t.setNode n x)) := by
  obtain ⟨hone, hothers, hholders⟩ := ht.count_eq_one hl
  rw [hone] at hls
  -- the listener is let go of once, between others
  obtain ⟨before, after, rfl⟩ : ∃ before after, ls = before ++ l :: after := by
    apply List.append_of_mem
    rw [← List.count_pos_iff, hls]
    exact Nat.one_pos
  rw [List.count_append, List.count_cons_self] at hls
  let v := t.setNode n x
  let v₁ := before.foldl releaseListener v
  let v₂ := v₁.releaseListener l
  have hbefore : Retains l v v₁ :=
    retains_releaseListeners (List.count_eq_zero.mp (by omega))
  have hafter : Retains l v₂ (after.foldl releaseListener v₂) :=
    retains_releaseListeners (List.count_eq_zero.mp (by omega))
  have hunlisted : v.Unlisted l := by
    intro m
    rw [node_setNode]
    split
    · exact hx
    · exact hothers m ‹_›
  have htallied : v₁.Tallied l (o + 1) := hbefore.tallied ⟨ht.made, .inr ⟨hunlisted, hholders⟩⟩
  have hreleased := listener_releaseListener (hbefore.holders.trans hholders)
  have hclosed : ¬ t.Open l → ¬ v₂.Open l := by
    intro hc
    have hc₁ : ¬ v₁.Open l := hbefore.closed hc
    rwa [Open, hreleased]
  rw [List.foldl_append, List.foldl_cons]
  exact {
    tallied := hafter.tallied htallied.release
    unlisted := by
      rw [hafter.unlisted_iff, Unlisted, node_releaseListener]
      exact hbefore.unlisted_iff.mpr hunlisted
    closed := fun hc => hafter.closed (hclosed hc)
    ends := by
      rintro hc rfl
      have hsame : v₁.listener l = t.listener l := hbefore.rests hc
      obtain ⟨hq, hended⟩ := release_ends (hbefore.holders.trans hholders)
      refine ⟨by rwa [hafter.rests (hclosed hc)], fun hsole d hd => ?_⟩
      rw [← hsame] at hd
      have hsole₁ : v₁.Sole l := hbefore.sole hsole
      have hmade := Nat.lt_of_lt_of_le (hsole₁ d hd).1 (queues_releaseListener v₁ l l).count
      exact hafter.ended d hmade (hended hsole₁ d hd) }

/-- A node lets go of listeners that it takes off its list, or keeps `l` there. -/
theorem tends_letGo
    (h : ls.count l = 0 ∧ x.listeners.count l = (t.node n).listeners.count l ∨
      ls.count l = (t.node n).listeners.count l ∧ x.listeners.count l = 0) :
    Tends l t (ls.foldl releaseListener (t.setNode n x)) := by
  have hqueues : Queues l t (ls.foldl releaseListener (t.setNode n x)) := by
    have hreleased := queues_releaseListeners (t.setNode n x) l ls
    exact ⟨hreleased.toEbbs, hreleased.waits⟩
  have hstays : ls.count l = 0 → x.listeners.count l = (t.node n).listeners.count l →
      Tends l t (ls.foldl releaseListener (t.setNode n x)) := fun hls hx =>
    ((retains_setNode hx).trans (retains_releaseListeners (List.count_eq_zero.mp hls))).tends
  rcases h with ⟨hls, hx⟩ | ⟨hls, hx⟩
  · exact hstays hls hx
  · by_cases hl : l ∈ (t.node n).listeners
    · have hdrops : ∀ {o}, t.Tallied l o →
          Drops l o t (ls.foldl releaseListener (t.setNode n x)) := fun ht =>
        drops_letGo ht hl (List.count_eq_zero.mp hx) hls
      exact ⟨hqueues, fun o ht => (hdrops ht).tallied,
        fun q ht => (hdrops ht.tallied).adrift hqueues.toEbbs hl ht⟩
    · rw [List.count_eq_zero.mpr hl] at hls
      exact hstays hls (hx.trans (List.count_eq_zero.mpr hl).symm)

theorem tends_dropListeners (t : Tailnet) (l : ListenerId) (n : NodeId) :
    Tends l t (t.dropListeners n) :=
  tends_letGo (.inr ⟨rfl, rfl⟩)

theorem tends_releaseNode (t : Tailnet) (l : ListenerId) (n : NodeId) :
    Tends l t (t.releaseNode n) := by
  have hset : Retains l (t.dropListeners n) (t.releaseNode n) := retains_setNode rfl
  exact (tends_dropListeners t l n).trans hset.tends

theorem tends_releaseNodes (t : Tailnet) (l : ListenerId) (ns : List NodeId) :
    Tends l t (ns.foldl (fun t n => t.releaseNode n) t) := by
  induction ns generalizing t with
  | nil => exact .refl l t
  | cons n ns ih => exact (tends_releaseNode t l n).trans (ih _)

theorem tends_pruneListeners (t : Tailnet) (l : ListenerId) (n : NodeId) :
    Tends l t (t.pruneListeners n) := by
  apply tends_letGo
  by_cases ho : t.Open l
  · have ho : (t.listener l).closed = false := ho
    left
    constructor
    · rw [List.count_eq_zero, List.mem_filter, ho]
      simp
    · exact List.count_filter (by simp [ho])
  · have hc : (t.listener l).closed = true := (Bool.not_eq_false _).mp ho
    right
    constructor
    · exact List.count_filter hc
    · rw [List.count_eq_zero, List.mem_filter, hc]
      simp

end LettingGo

section Asking
variable {α : Type}

theorem retains_log (t : Tailnet) (l : ListenerId) (n : NodeId) (line : String) :
    Retains l t (t.log n line) := by
  obtain ⟨files, hlog⟩ := log_eq t n line
  rw [hlog]
  exact .of_eq rfl rfl (fun _ => rfl) (Nat.le_refl _)

theorem retains_start (t : Tailnet) (l : ListenerId) (n : NodeId) :
    Retains l t (t.start n).2 := by
  have hrest := rests_start t n
  refine .of_eq hrest.streams (congrFun hrest.listener l) (fun m => ?_) ?_
  · by_cases hm : m = n
    · subst m
      obtain ⟨_, _, hnode⟩ := node_start t n
      rw [hnode]
    · rw [hrest.others m hm]
  · rcases start_outcomes t n with ⟨-, h⟩ | ⟨f, files, h⟩ | ⟨-, files, h⟩ <;> rw [h]
    exact Nat.le_refl _

/-- What goes on from the start of a node. -/
theorem retains_of {k : Tailnet → Except Fault α × Tailnet} (hk : ∀ t, Retains l t (k t).2)
    {p : Except Fault α × Tailnet}
    (hp : p = match t.start n with
      | (.error f, t) => (.error f, t)
      | (.ok (), t) => k t) : Retains l t p.2 :=
  of_start (P := fun p => Retains l t p.2) (fun _ _ => retains_start t l n)
    (fun _ => (retains_start t l n).trans (hk _)) hp

theorem retains_up (t : Tailnet) (l : ListenerId) (n : NodeId) : Retains l t (t.up n).2 := by
  refine retains_of (fun t => ?_) rfl
  split
  · exact .refl l t
  · split
    · exact .refl l t
    · split
      · exact .refl l t
      · rename_i u hsaved
        obtain ⟨files, rfl⟩ := saveState_ok hsaved
        have hfiles : Retains l t { t with files } := .of_eq rfl rfl (fun _ => rfl) (Nat.le_refl _)
        have hset : Retains l { t with files }
            ({ t with files : Tailnet }.setNode n { t.node n with online := true }) :=
          retains_setNode rfl
        exact (hfiles.trans hset).trans (retains_log _ l n _)

theorem retains_loopback (t : Tailnet) (l : ListenerId) (n : NodeId) :
    Retains l t (t.loopback n).2 := by
  refine retains_of (fun t => ?_) rfl
  split
  · exact .refl l t
  · split
    · exact .refl l t
    · rename_i k _
      let info : LoopbackInfo :=
        ⟨(t.loopbackAt k).name, t.supply.token t.credentials,
          t.supply.token (t.credentials + 1)⟩
      have hset : Retains l t (t.setNode n { t.node n with loopback := some info }) :=
        retains_setNode rfl
      refine (hset.trans ?_).trans (retains_log _ l n _)
      exact .of_eq rfl rfl (fun _ => rfl) (Nat.le_refl _)

theorem retains_configure (t : Tailnet) (l : ListenerId) (n : NodeId) (option : NodeOption) :
    Retains l t (t.configure n option).2 := by
  unfold configure
  split
  · exact retains_setNode (by cases option <;> rfl)
  · exact .refl l t

theorem holds_dial (t : Tailnet) (l : ListenerId) (n : NodeId) (network address : String) :
    Holds l t (t.dial n network address).2 := by
  rw [dial_eq]
  split
  · exact .refl l t
  · refine of_start (P := fun p => Holds l t p.2) (fun _ _ => (retains_start t l n).toHolds)
      (fun _ => (retains_start t l n).toHolds.trans ?_) rfl
    generalize (t.start n).2 = u
    split
    · exact .refl l u
    · split
      · exact .refl l u
      · rename_i target _ _ _ id v h
        have hmade : Holds l u v := holds_connect (fun _ => rfl) h
        have hnoted : Retains l v (v.recordDialer n id target) := by
          unfold recordDialer
          split
          · exact .refl l v
          · exact .of_eq rfl rfl (fun _ => rfl) (Nat.le_refl _)
        exact (hmade.trans hnoted.toHolds).trans (retains_log _ l n _).toHolds

/-- No route leads to a listener that is closed. -/
theorem retains_dial (hw : Wired t) (l : ListenerId) (n : NodeId) (network address : String) :
    Retains l t (t.dial n network address).2 where
  toHolds := holds_dial t l n network address
  rests := fun hc => by
    have hrest := congrFun (rests_start t n).listener l
    have hdialed := dialed_dial t n network address
    generalize t.dial n network address = r at hdialed ⊢
    cases hdialed with
    | unsupported => rfl
    | unstarted => exact hrest
    | astray => exact hrest
    | unconnected => exact hrest
    | connected plan k t' _ _ hplan hk hlisteners =>
      rw [hlisteners, if_neg, hrest]
      rintro rfl
      have hw' := (calm_start hw n).wired
      obtain ⟨j, ⟨hj, -⟩, hroute⟩ := hw'.routed _ _ (planDial_ok hplan)
      rw [hroute] at hk
      obtain rfl := Option.some.inj (hk.symm.trans (hw'.bound j (hw'.held j hj)))
      rw [Open, hrest] at hj
      exact hc hj

theorem tends_install (t : Tailnet) (l : ListenerId) (n : NodeId) (plan : ListenPlan) :
    Tends l t (t.install n plan).2 := by
  by_cases hl : l = t.listeners
  · subst hl
    have hnone : ∀ {o}, ¬ t.Tallied t.listeners o := fun ht => absurd ht.made (Nat.lt_irrefl _)
    refine ⟨⟨.refl _, fun d hd => ?_⟩, fun o ht => absurd ht hnone,
      fun q ht => absurd ht.tallied hnone⟩
    rw [new_install] at hd
    cases hd
  · apply Retains.tends
    refine .of_eq rfl (old_install hl) (fun m => ?_) (Nat.le_succ _)
    rw [node_install]
    split
    · rename_i hm
      rw [hm, List.count_append, List.count_singleton, if_neg (by simpa using Ne.symm hl),
        Nat.add_zero]
    · rfl

theorem tends_listen (t : Tailnet) (l : ListenerId) (n : NodeId) (network address : String)
    (funnel : Option FunnelMode) : Tends l t (t.listen n network address funnel).2 := by
  have hstart := (retains_start t l n).tends
  have hlistened := listened_listen t n network address funnel
  generalize t.listen n network address funnel = r at hlistened ⊢
  cases hlistened with
  | unsupported => exact .refl l t
  | unstarted => exact hstart
  | unplanned => exact hstart
  | opened plan files _ _ _ =>
    let u := (t.start n).2.pruneListeners n
    have hopened := (tends_pruneListeners (t.start n).2 l n).trans (tends_install u l n plan)
    have hfiles : Retains l (u.install n plan).2 { (u.install n plan).2 with files } :=
      .of_eq rfl rfl (fun _ => rfl) (Nat.le_refl _)
    exact (hstart.trans hopened).trans hfiles.tends

theorem tends_close (hw : Wired t) (l : ListenerId) (n : NodeId) : Tends l t (t.close n).2 := by
  unfold close
  dsimp only
  split
  · exact .refl l t
  · have hclosed := retains_closeListeners hw l (t.node n).listeners
    have hnode := node_closeListeners t (t.node n).listeners
    rw [closeListeners_setNode]
    generalize (t.node n).listeners.foldl closeListener t = u at hclosed hnode
    rw [← hnode]
    let v := u.setNode n { u.node n with phase := .closed, online := false, loopback := none }
    have hended : Retains l u v := retains_setNode rfl
    have hforgotten : ∀ registry, Retains l (v.dropListeners n)
        { v.dropListeners n with registry } := fun _ =>
      .of_eq rfl rfl (fun _ => rfl) (Nat.le_refl _)
    have hdropped := (hclosed.trans hended).tends.trans (tends_dropListeners v l n)
    exact (hdropped.trans (hforgotten _).tends).trans (retains_log _ l n _).tends

/-- Whatever a node is asked for. -/
theorem tends_ask (hw : Wired t) (l : ListenerId) (n : NodeId) (v : NodeVerb) :
    Tends l t (t.ask n v).2 := by
  cases v with
  | configure option => exact (retains_configure t l n option).tends
  | start => exact (retains_start t l n).tends
  | up => exact (retains_up t l n).tends
  | dial network address => exact (retains_dial hw l n network address).tends
  | listen network address funnel => exact tends_listen t l n network address funnel
  | addresses => exact .refl l t
  | certDomains => exact .refl l t
  | loopback => exact (retains_loopback t l n).tends
  | close => exact tends_close hw l n

end Asking

section Lists
variable {m : NodeId} {network address : String} {funnel : Option FunnelMode}

/-- No node has a listener more on its list, and one that has lost any has lost all. -/
def Thins (t u : Tailnet) : Prop :=
  ∀ n, (∀ l, l ∈ (u.node n).listeners ↔ l ∈ (t.node n).listeners) ∨ (u.node n).listeners = []

theorem thins_of_node (h : u.node = t.node) : Thins t u :=
  fun _ => .inl fun _ => by rw [h]

theorem thins_of_holds (h : ∀ l, Holds l t u) : Thins t u :=
  fun _ => .inl fun l => (h l).mem_iff

theorem indifferent_thins : Indifferent Thins where
  refl := fun _ => thins_of_node rfl
  trans := fun h h' n => by
    rcases h' n with hsame | hnone
    · refine (h n).imp (fun hsame' l => (hsame l).trans (hsame' l)) fun hnone => ?_
      rw [hnone] at hsame
      exact List.eq_nil_iff_forall_not_mem.mpr fun l hl => List.not_mem_nil ((hsame l).mp hl)
    · exact .inr hnone
  streams := fun _ _ _ => thins_of_node rfl
  backlog := fun _ _ _ => thins_of_node rfl
  close := fun t l => thins_of_node (node_closeListener t l)
  release := fun t l => thins_of_node (node_releaseListener t l)

theorem thins_releaseNode (t : Tailnet) (n : NodeId) : Thins t (t.releaseNode n) := by
  intro m
  rw [node_releaseNode]
  split
  · exact .inr rfl
  · exact .inl fun _ => Iff.rfl

theorem thins_ask (t : Tailnet) (n : NodeId) {v : NodeVerb}
    (hv : ∀ network address funnel, v ≠ .listen network address funnel) :
    Thins t (t.ask n v).2 := by
  cases v with
  | configure option => exact thins_of_holds fun l => (retains_configure t l n option).toHolds
  | start => exact thins_of_holds fun l => (retains_start t l n).toHolds
  | up => exact thins_of_holds fun l => (retains_up t l n).toHolds
  | dial network address => exact thins_of_holds fun l => holds_dial t l n network address
  | listen network address funnel => exact absurd rfl (hv network address funnel)
  | addresses => exact indifferent_thins.refl t
  | certDomains => exact indifferent_thins.refl t
  | loopback => exact thins_of_holds fun l => (retains_loopback t l n).toHolds
  | close =>
    intro m
    change _ ∨ ((t.close n).2.node m).listeners = []
    change (∀ l, l ∈ ((t.close n).2.node m).listeners ↔ _) ∨ _
    rw [node_close]
    split
    · exact .inr rfl
    · exact .inl fun _ => Iff.rfl

/-- A node has the listener on its list that had it there before, and has neither lost all nor
opened another. -/
def Relists (l : ListenerId) (t u : Tailnet) : Prop :=
  ∀ n, l ∈ (u.node n).listeners ↔ l ∈ (t.node n).listeners ∧ (u.node n).listeners ≠ [] ∧
    ∀ k ∈ (u.node n).listeners, k < t.listeners

theorem Thins.relists (hw : Wired t) (h : Thins t u) (l : ListenerId) : Relists l t u := by
  intro n
  rcases h n with hsame | hnone
  · constructor
    · intro hl
      exact ⟨(hsame l).mp hl, List.ne_nil_of_mem hl,
        fun k hk => hw.listed n k ((hsame k).mp hk)⟩
    · exact fun hl => (hsame l).mpr hl.1
  · rw [hnone]
    exact iff_of_false List.not_mem_nil fun hl => hl.2.1 rfl

theorem node_openListener (t : Tailnet) (n : NodeId) (plan : ListenPlan) (m : NodeId) :
    ((t.openListener n plan).2.node m).listeners = if m = n then
      (t.node n).listeners.filter (fun l => !(t.listener l).closed) ++
        [(t.pruneListeners n).listeners] else (t.node m).listeners := by
  have hpruned : (t.pruneListeners n).node = (t.setNode n { t.node n with
      listeners := (t.node n).listeners.filter fun l => !(t.listener l).closed }).node :=
    node_releaseListeners _ _
  rw [openListener, node_install, hpruned]
  split
  · rw [node_setNode, if_pos rfl]
  · rw [node_setNode, if_neg ‹_›]

/-- A listener that is closed goes from the list of a node that opens another. -/
theorem relists_listen (hw : Wired t) (hl : l < t.listeners) (hc : ¬ t.Open l) (n : NodeId)
    (network address : String) (funnel : Option FunnelMode) :
    Relists l t (t.listen n network address funnel).2 := by
  have hstart := thins_of_holds fun k => (retains_start t k n).toHolds
  have hcalm := calm_start hw n
  have hlistened := listened_listen t n network address funnel
  generalize t.listen n network address funnel = r at hlistened ⊢
  cases hlistened with
  | unsupported => exact (indifferent_thins.refl t).relists hw l
  | unstarted => exact hstart.relists hw l
  | unplanned => exact hstart.relists hw l
  | opened plan files _ _ _ =>
    intro m
    change l ∈ (((t.start n).2.openListener n plan).2.node m).listeners ↔
      _ ∧ (((t.start n).2.openListener n plan).2.node m).listeners ≠ [] ∧
        ∀ k ∈ (((t.start n).2.openListener n plan).2.node m).listeners, k < t.listeners
    rw [node_openListener]
    split
    · have hlisteners : ((t.start n).2.pruneListeners n).listeners = t.listeners :=
        (calm_pruneListeners hcalm.wired n).listeners.trans hcalm.listeners
      rw [hlisteners]
      apply iff_of_false
      · rw [List.mem_append, List.mem_singleton, List.mem_filter,
          congrFun (rests_start t n).listener]
        rintro (⟨-, ho⟩ | rfl)
        · exact hc ((Bool.not_eq_true' _).mp ho)
        · exact Nat.lt_irrefl _ hl
      · rintro ⟨-, -, hold⟩
        exact Nat.lt_irrefl _ (hold _ (List.mem_append_right _ (List.mem_singleton_self _)))
    · exact hstart.relists hw l m

/-- A listener that is opened is held by its node and whoever opened it. -/
theorem tallied_listen (hw : Wired t) (h : (t.listen n network address funnel).1 = .ok l) :
    (t.listen n network address funnel).2.Tallied l 1 ∧
      ((t.listen n network address funnel).2.listener l).queued = [] := by
  have hlistened := listened_listen t n network address funnel
  generalize t.listen n network address funnel = r at h hlistened ⊢
  cases hlistened with
  | unsupported => cases h
  | unstarted => cases h
  | unplanned => cases h
  | opened plan files _ _ _ =>
    let u := (t.start n).2.pruneListeners n
    have hu : u.Wired := (calm_pruneListeners (calm_start hw n).wired n).wired
    obtain rfl : u.listeners = l := Except.ok.inj h
    have hnew : (u.install n plan).2.listener u.listeners = plan.listener u := new_install
    refine ⟨⟨Nat.lt_succ_self _, .inl ⟨n, ?_, fun m hm hl => ?_, ?_⟩⟩, ?_⟩
    · change (((u.install n plan).2.node n).listeners).count u.listeners = 1
      rw [node_install, if_pos rfl, List.count_append, List.count_singleton_self,
        List.count_eq_zero.mpr fun hl => Nat.lt_irrefl _ (hu.listed n _ hl)]
    · change u.listeners ∈ ((u.install n plan).2.node m).listeners at hl
      rw [node_install, if_neg hm] at hl
      exact Nat.lt_irrefl _ (hu.listed m _ hl)
    · exact congrArg Listener.holders hnew
    · exact congrArg Listener.queued hnew

end Lists

end Handoff.Tailnet
