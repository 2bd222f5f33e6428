import Handoff.Proofs.Tailnet.Starting

namespace Handoff.Tailnet
variable {t t' u w : Tailnet} {n m : NodeId}

inductive NodeVerb where
  | configure (option : NodeOption)
  | start
  | up
  | dial (network address : String)
  | listen (network address : String) (funnel : Option FunnelMode)
  | loopback
  | addresses
  | certDomains
  | close

/-- The verb needs its node to run, and starts one that has not started. -/
def NodeVerb.starts : NodeVerb → Bool
  | start | up | loopback => true
  | dial network _ | listen network _ _ => isNetwork network
  | configure _ | addresses | certDomains | close => false

section Asking
variable {α : Type}

def settled (r : Except Fault α) : Except Fault Unit :=
  r.map fun _ => ()

def ask (t : Tailnet) (n : NodeId) : NodeVerb → Except Fault Unit × Tailnet
  | .configure option => t.configure n option
  | .start => t.start n
  | .up => t.up n
  | .dial network address => (t.dial n network address).map settled id
  | .listen network address funnel => (t.listen n network address funnel).map settled id
  | .loopback => (t.loopback n).map settled id
  | .addresses => (settled (t.addresses n), t)
  | .certDomains => (settled (t.certDomains n), t)
  | .close => t.close n

def passes (t : Tailnet) (n : NodeId) (v : NodeVerb) : Bool :=
  v.starts && (t.start n).1.isOk

theorem isOk_iff {r : Except Fault Unit} : r.isOk = true ↔ r = .ok () := by
  cases r <;> simp [Except.isOk, Except.toBool]

theorem passes_iff {v : NodeVerb} :
    t.passes n v = true ↔ v.starts = true ∧ (t.start n).1 = .ok () := by
  simp [passes, isOk_iff]

/-- What a running node does changes neither its settings nor its number, and no other node. -/
structure Works (t t' : Tailnet) (n : NodeId) : Prop where
  own : ∃ online listeners loopback,
    t'.node n = { t.node n with online, listeners, loopback }
  others : ∀ m, m ≠ n → t'.node m = t.node m

theorem Works.of_eq (h : t'.node = t.node) : Works t t' n :=
  ⟨⟨_, _, _, by rw [h]⟩, fun m _ => by rw [h]⟩

theorem Works.log (h : Works t t' n) (line : String) : Works t (t'.log n line) n :=
  ⟨by simpa only [node_log] using h.own, fun m hm => (node_log ..).trans (h.others m hm)⟩

inductive Begins (t : Tailnet) (n : NodeId) : Except Fault α × Tailnet → Prop where
  | failed (f : Fault) : (t.start n).1 = .error f → Begins t n (.error f, (t.start n).2)
  | worked (r : Except Fault α) (t' : Tailnet) : (t.start n).1 = .ok () →
    Works (t.start n).2 t' n → Begins t n (r, t')

theorem begins_of {k : Tailnet → Except Fault α × Tailnet} (hk : ∀ t, Works t (k t).2 n)
    {p : Except Fault α × Tailnet}
    (hp : p = match t.start n with
      | (.error f, t) => (.error f, t)
      | (.ok (), t) => k t) : Begins t n p :=
  of_start (fun f hf => .failed f hf) (fun hs => .worked _ _ hs (hk _)) hp

theorem begins_start (t : Tailnet) (n : NodeId) : Begins t n (t.start n) := by
  refine begins_of (k := fun t => (.ok (), t)) (fun t => .of_eq rfl) ?_
  obtain ⟨r, t₁⟩ := t.start n
  cases r <;> rfl

theorem begins_up (t : Tailnet) (n : NodeId) : Begins t n (t.up n) := by
  refine begins_of (fun t => ?_) rfl
  split
  · exact .of_eq rfl
  · split
    · exact .of_eq rfl
    · split
      · exact .of_eq rfl
      · rename_i t₂ h₂
        obtain ⟨files, rfl⟩ := saveState_ok h₂
        apply Works.log
        exact ⟨⟨true, _, _, assign_same ..⟩, fun m hm => assign_of_ne _ _ _ hm⟩

theorem begins_loopback (t : Tailnet) (n : NodeId) : Begins t n (t.loopback n) := by
  refine begins_of (fun t => ?_) rfl
  split
  · exact .of_eq rfl
  · split
    · exact .of_eq rfl
    · apply Works.log
      exact ⟨⟨_, _, _, assign_same ..⟩, fun m hm => assign_of_ne _ _ _ hm⟩

theorem node_recordDialer (t : Tailnet) (n : NodeId) (id : StreamId) (target : Endpoint) :
    (t.recordDialer n id target).node = t.node := by
  unfold recordDialer
  split <;> rfl

theorem begins_dial {network address : String} (h : isNetwork network = true) :
    Begins t n (t.dial n network address) := by
  rw [dial_eq]
  rw [h]
  refine begins_of (fun t => ?_) rfl
  split
  · exact .of_eq rfl
  · split
    · exact .of_eq rfl
    · rename_i id t₂ hconn
      obtain ⟨l, -, -, rfl⟩ := connect_ok hconn
      apply Works.log
      exact .of_eq (node_recordDialer ..)

theorem works_openListener (t : Tailnet) (n : NodeId) (plan : ListenPlan) :
    Works t (t.openListener n plan).2 n := by
  obtain ⟨listeners, hnode⟩ := node_pruneListeners t n
  refine ⟨⟨(t.node n).online, listeners ++ [(t.pruneListeners n).listeners],
    (t.node n).loopback, ?_⟩, fun m hm => node_openListener_ne hm⟩
  rw [openListener, node_install, if_pos rfl, hnode]

theorem begins_listen {network address : String} {funnel : Option FunnelMode}
    (h : isNetwork network = true) : Begins t n (t.listen n network address funnel) := by
  unfold listen
  rw [h]
  refine begins_of (fun t => ?_) rfl
  split
  · exact .of_eq rfl
  · apply Works.log
    exact works_openListener t n _

theorem Begins.settled {p : Except Fault α × Tailnet} (h : Begins t n p) :
    Begins t n (p.map Tailnet.settled id) := by
  cases h with
  | failed f hf => exact .failed f hf
  | worked r t' hs hw => exact .worked (Tailnet.settled r) t' hs hw

theorem begins_ask {v : NodeVerb} (hv : v.starts = true) : Begins t n (t.ask n v) := by
  cases v with
  | start => exact begins_start t n
  | up => exact begins_up t n
  | dial network address => exact (begins_dial hv).settled
  | listen network address funnel => exact (begins_listen hv).settled
  | loopback => exact (begins_loopback t n).settled
  | configure _ => cases hv
  | addresses => cases hv
  | certDomains => cases hv
  | close => cases hv

end Asking

def Node.Has (x : Node) : NodeOption → Prop
  | .dir path => x.settings.dir = some path
  | .hostname name => x.settings.hostname = some name
  | .authkey key => x.settings.authkey = some key
  | .controlUrl url => x.settings.controlUrl = some url
  | .ephemeral on => x.settings.ephemeral = on
  | .logFile path => x.log = path

structure Node.Sets (option : NodeOption) (x y : Node) : Prop where
  has : y.Has option
  others : ∀ o : NodeOption, o.name ≠ option.name → (y.Has o ↔ x.Has o)
  phase : y.phase = x.phase
  host : y.host = x.host
  online : y.online = x.online
  listeners : y.listeners = x.listeners
  loopback : y.loopback = x.loopback

theorem sets_configure (option : NodeOption) (x : Node) :
    Node.Sets option x (x.configure option) := by
  refine ⟨?_, ?_, ?_, ?_, ?_, ?_, ?_⟩
  · cases option <;> rfl
  · intro o ho
    cases option <;> cases o <;> first | exact Iff.rfl | exact absurd rfl ho
  all_goals cases option <;> rfl

inductive Turn (t : Tailnet) (n : NodeId) : NodeVerb → Except Fault Unit × Tailnet → Prop where
  | set (option : NodeOption) : (t.node n).phase = .fresh →
    Turn t n (.configure option) (.ok (), t.setNode n ((t.node n).configure option))
  | refused (v : NodeVerb) (f : Fault) (files : Files) : t.passes n v = false →
    (v = .close → (t.node n).phase = .closed) → Turn t n v (.error f, { t with files })
  | told (v : NodeVerb) : t.Runs n → v = .addresses ∨ v = .certDomains → Turn t n v (.ok (), t)
  | ran (v : NodeVerb) (r : Except Fault Unit) (t' : Tailnet) : t.passes n v = true →
    Works (t.start n).2 t' n → Turn t n v (r, t')
  | ended (t' : Tailnet) : (t.node n).phase ≠ .closed →
    t'.node n = { t.node n with
      phase := .closed, online := false, loopback := none, listeners := [] } →
    Turn t n .close (.ok (), t')

theorem Begins.turn {v : NodeVerb} (hv : v.starts = true) {p : Except Fault Unit × Tailnet}
    (h : Begins t n p) : Turn t n v p := by
  cases h with
  | failed f hf =>
    obtain ⟨files, he⟩ := start_error hf
    rw [he]
    refine .refused v f files ?_ ?_
    · rw [passes, hf]
      exact Bool.and_false _
    · rintro rfl
      cases hv
  | worked r t' hs hw => exact .ran v r t' (passes_iff.mpr ⟨hv, hs⟩) hw

theorem turn_ask (t : Tailnet) (n : NodeId) (v : NodeVerb) : Turn t n v (t.ask n v) := by
  by_cases hv : v.starts = true
  · exact (begins_ask hv).turn hv
  -- what is left needs no start, or names a network that is none
  have hpass : t.passes n v = false := by
    simp [passes, (Bool.not_eq_true _).mp hv]
  cases v with
  | configure option =>
    change Turn t n _ (t.configure n option)
    unfold configure
    split
    · exact .set option ‹_›
    · exact .refused _ _ t.files hpass nofun
  | dial network address =>
    have he : t.dial n network address = (.error (.unsupportedNetwork network), t) := by
      rw [dial_eq]
      rw [if_pos (by simpa [NodeVerb.starts] using hv)]
    change Turn t n _ ((t.dial n network address).map settled id)
    rw [he]
    exact .refused _ _ t.files hpass nofun
  | listen network address funnel =>
    have he : t.listen n network address funnel = (.error (.unsupportedNetwork network), t) := by
      unfold listen
      rw [if_pos (by simpa [NodeVerb.starts] using hv)]
    change Turn t n _ ((t.listen n network address funnel).map settled id)
    rw [he]
    exact .refused _ _ t.files hpass nofun
  | addresses =>
    change Turn t n _ (settled (t.addresses n), t)
    unfold addresses
    split
    · exact .told _ ‹_› (.inl rfl)
    · exact .refused _ _ t.files hpass nofun
  | certDomains =>
    change Turn t n _ (settled (t.certDomains n), t)
    unfold certDomains
    split
    · exact .told _ ‹_› (.inr rfl)
    · exact .refused _ _ t.files hpass nofun
  | close =>
    change Turn t n _ (t.close n)
    by_cases hc : (t.node n).phase = .closed
    · have he : t.close n = (.error .alreadyClosed, t) := by
        unfold close
        exact if_pos hc
      rw [he]
      exact .refused _ _ t.files hpass fun _ => hc
    · have hok : t.close n = (.ok (), (t.close n).2) := by
        unfold close
        simp only [if_neg hc]
      rw [hok]
      refine .ended _ hc ?_
      rw [node_close, if_pos ⟨rfl, hc⟩]
  | start => cases hv rfl
  | up => cases hv rfl
  | loopback => cases hv rfl

/-- A verb of a node touches no other. -/
theorem node_ask_ne (hm : m ≠ n) (v : NodeVerb) : (t.ask n v).2.node m = t.node m := by
  by_cases hv : v = .close
  · subst hv
    exact node_close_ne hm
  have h := turn_ask t n v
  revert h
  generalize t.ask n v = r
  intro h
  cases h with
  | set option _ => exact assign_of_ne _ _ _ hm
  | refused => rfl
  | told => rfl
  | ran _ r t' _ hw => exact (hw.others m hm).trans (node_start_ne hm)
  | ended => exact absurd rfl hv

/-- What the life of a node is made of is the same in both states. -/
structure Kin (n : NodeId) (t t' : Tailnet) : Prop where
  settings : (t'.node n).settings = (t.node n).settings
  phase : (t'.node n).phase = (t.node n).phase
  host : (t'.node n).host = (t.node n).host
  online : (t'.node n).online = (t.node n).online

theorem Kin.of_node (h : t'.node n = t.node n) : Kin n t t' := by
  constructor <;> rw [h]

theorem kin_ask (hm : n ≠ m) (v : NodeVerb) : Kin n t (t.ask m v).2 :=
  .of_node (node_ask_ne hm v)

structure Asked where
  verb : NodeVerb
  /-- It got past starting the node. -/
  passed : Bool

/-- What the node `n` is asked from `t` on, one verb after the other. Whatever else happens
meanwhile leaves alone what its life is made of. -/
inductive Life (n : NodeId) (t : Tailnet) : List Asked → Tailnet → Prop where
  | begin : Life n t [] t
  | ask {log : List Asked} {u : Tailnet} (v : NodeVerb) : Life n t log u →
    Life n t (log ++ [⟨v, u.passes n v⟩]) (u.ask n v).2
  | elsewhere {log : List Asked} {u w : Tailnet} : Life n t log u → Kin n u w → Life n t log w

def Phase.Leads : Phase → Phase → Prop
  | .fresh, _ => True
  | .running, p => p ≠ .fresh
  | .closed, p => p = .closed

structure Follows (log : List Asked) (x : Node) : Prop where
  closed : x.phase = .closed ↔ ∃ a ∈ log, a.verb = .close
  running : x.phase = .running ↔ (∃ a ∈ log, a.passed = true) ∧ ∀ a ∈ log, a.verb ≠ .close
  online : x.online = true → x.phase = .running

theorem Follows.kin {log : List Asked} (h : Follows log (t.node n)) (hk : Kin n t t') :
    Follows log (t'.node n) := by
  constructor
  · rw [hk.phase]
    exact h.closed
  · rw [hk.phase]
    exact h.running
  · rw [hk.online, hk.phase]
    exact h.online

/-- A verb that neither starts its node nor ends it. -/
theorem Follows.idle {log : List Asked} {x y : Node} (h : Follows log x) {v : NodeVerb}
    (hv : v = .close → x.phase = .closed) (hp : y.phase = x.phase) (ho : y.online = x.online) :
    Follows (log ++ [⟨v, false⟩]) y := by
  constructor
  · rw [hp, h.closed]
    simp only [List.mem_append, List.mem_singleton]
    constructor
    · rintro ⟨a, ha, he⟩
      exact ⟨a, .inl ha, he⟩
    · rintro ⟨a, ha | rfl, he⟩
      · exact ⟨a, ha, he⟩
      · exact h.closed.mp (hv he)
  · rw [hp, h.running]
    simp only [List.mem_append, List.mem_singleton]
    constructor
    · rintro ⟨⟨a, ha, hpass⟩, hnone⟩
      refine ⟨⟨a, .inl ha, hpass⟩, ?_⟩
      rintro b (hb | rfl) hclose
      · exact hnone b hb hclose
      · obtain ⟨c, hc, he⟩ := h.closed.mp (hv hclose)
        exact hnone c hc he
    · rintro ⟨⟨a, ha | rfl, hpass⟩, hnone⟩
      · exact ⟨⟨a, ha, hpass⟩, fun b hb => hnone b (.inl hb)⟩
      · cases hpass
  · rw [ho, hp]
    exact h.online

theorem Works.runs (hw : Works t t' n) (hr : t.Runs n) : t'.Runs n := by
  obtain ⟨online, listeners, loopback, hnode⟩ := hw.own
  rw [Runs, hnode]
  exact hr

theorem Follows.ask {log : List Asked} (h : Follows log (t.node n)) (v : NodeVerb) :
    Follows (log ++ [⟨v, t.passes n v⟩]) ((t.ask n v).2.node n) := by
  have hturn := turn_ask t n v
  revert hturn
  generalize t.ask n v = r
  intro hturn
  cases hturn with
  | set option hf =>
    have hsets := sets_configure option (t.node n)
    rw [node_setNode, if_pos rfl]
    exact h.idle (by rintro ⟨⟩) hsets.phase hsets.online
  | refused v f files hp hc =>
    rw [hp]
    exact h.idle hc rfl rfl
  | told v hr hv =>
    have hp : t.passes n v = false := by rcases hv with rfl | rfl <;> rfl
    rw [hp]
    exact h.idle (by rcases hv with rfl | rfl <;> rintro ⟨⟩) rfl rfl
  | ran v r t' hp hw =>
    have hpass := passes_iff.mp hp
    have hruns : t'.Runs n := hw.runs (runs_start hpass.2)
    have hopen : (t.node n).phase ≠ .closed := by
      intro hc
      rw [start_closed hc] at hpass
      cases hpass.2
    -- a node that gets past its start was never closed
    have hnone : ∀ a ∈ log ++ [⟨v, t.passes n v⟩], a.verb ≠ .close := by
      intro a ha
      rcases List.mem_append.mp ha with ha | ha
      · exact fun he => hopen (h.closed.mpr ⟨a, ha, he⟩)
      · rw [List.mem_singleton.mp ha]
        rintro rfl
        cases hpass.1
    rw [Runs] at hruns
    constructor
    · rw [hruns]
      constructor
      · rintro ⟨⟩
      · rintro ⟨a, ha, he⟩
        exact absurd he (hnone a ha)
    · rw [hruns]
      simp only [true_iff]
      exact ⟨⟨⟨v, t.passes n v⟩, by simp, hp⟩, hnone⟩
    · exact fun _ => hruns
  | ended t' ho hnode =>
    rw [hnode]
    constructor
    · simp only [true_iff]
      exact ⟨⟨.close, t.passes n .close⟩, by simp, rfl⟩
    · constructor
      · rintro ⟨⟩
      · rintro ⟨-, hnone⟩
        exact absurd rfl (hnone ⟨.close, t.passes n .close⟩ (by simp))
    · rintro ⟨⟩

theorem Life.follows {log : List Asked} (h : Life n t log u) (hnew : t.node n = {}) :
    Follows log (u.node n) := by
  induction h with
  | begin =>
    rw [hnew]
    exact ⟨by simp, by simp, by simp⟩
  | ask v _ ih => exact ih.ask v
  | elsewhere _ hk ih => exact ih.kin hk

theorem leads_ask (t : Tailnet) (n : NodeId) (v : NodeVerb) :
    (t.node n).phase.Leads ((t.ask n v).2.node n).phase := by
  have hself : ∀ p : Phase, p.Leads p := by
    intro p
    cases p <;> simp [Phase.Leads]
  have h := turn_ask t n v
  revert h
  generalize t.ask n v = r
  intro h
  cases h with
  | set option hf =>
    rw [hf]
    trivial
  | refused => exact hself _
  | told => exact hself _
  | ran _ r t' hp hw =>
    have hpass := (passes_iff.mp hp).2
    have hruns := hw.runs (runs_start hpass)
    rw [Runs] at hruns
    rw [hruns]
    cases hphase : (t.node n).phase with
    | closed =>
      rw [start_closed hphase] at hpass
      cases hpass
    | fresh => trivial
    | running => rintro ⟨⟩
  | ended t' ho hnode =>
    rw [hnode]
    cases hphase : (t.node n).phase with
    | closed => exact absurd hphase ho
    | fresh => trivial
    | running => rintro ⟨⟩

/-- Only a verb that gets past the start makes a node run, whatever comes of it then. -/
theorem runs_ask (hr : ¬ t.Runs n) (v : NodeVerb) :
    (t.ask n v).2.Runs n ↔ t.passes n v = true := by
  have h := turn_ask t n v
  revert h
  generalize t.ask n v = r
  intro h
  cases h with
  | set option hf =>
    rw [Runs, node_setNode, if_pos rfl, (sets_configure option _).phase, hf]
    simp [passes, NodeVerb.starts]
  | refused v f files hp hc =>
    rw [hp]
    constructor
    · exact fun h => absurd h hr
    · rintro ⟨⟩
  | told v h hv => exact absurd h hr
  | ran v r t' hp hw => exact ⟨fun _ => hp, fun _ => hw.runs (runs_start (passes_iff.mp hp).2)⟩
  | ended t' ho hnode =>
    rw [Runs, hnode]
    constructor <;> rintro ⟨⟩

/-- A node that started, or ended, keeps its settings and its number. -/
theorem Life.frozen {log : List Asked} (h : Life n t log u) (hf : (t.node n).phase ≠ .fresh) :
    (u.node n).settings = (t.node n).settings ∧ (u.node n).host = (t.node n).host ∧
      (u.node n).phase ≠ .fresh := by
  induction h with
  | begin => exact ⟨rfl, rfl, hf⟩
  | elsewhere _ hk ih =>
    rw [hk.settings, hk.host, hk.phase]
    exact ih
  | @ask log u v _ ih =>
    obtain ⟨hs, hh, hp⟩ := ih
    have hturn := turn_ask u n v
    revert hturn
    generalize u.ask n v = r
    intro hturn
    cases hturn with
    | set option hfresh => exact absurd hfresh hp
    | refused => exact ⟨hs, hh, hp⟩
    | told => exact ⟨hs, hh, hp⟩
    | ran _ r t' hpass hw =>
      have hruns : u.Runs n := by
        rcases start_ok_iff.mp (passes_iff.mp hpass).2 with hr | hready
        · exact hr
        · exact absurd hready.fresh hp
      rw [start_running hruns] at hw
      obtain ⟨online, listeners, loopback, hnode⟩ := hw.own
      rw [hnode]
      exact ⟨hs, hh, hp⟩
    | ended t' ho hnode =>
      rw [hnode]
      exact ⟨hs, hh, nofun⟩

/-- A node that ended fails whatever it is asked. -/
theorem refused_of_closed (h : (t.node n).phase = .closed) (v : NodeVerb) :
    ∃ f, (t.ask n v).1 = .error f := by
  have hturn := turn_ask t n v
  revert hturn
  generalize t.ask n v = r
  intro hturn
  cases hturn with
  | set option hf =>
    rw [h] at hf
    cases hf
  | refused v f => exact ⟨f, rfl⟩
  | told v hr _ =>
    rw [Runs, h] at hr
    cases hr
  | ran v r t' hp hw =>
    have hs := (passes_iff.mp hp).2
    rw [start_closed h] at hs
    cases hs
  | ended t' ho => exact absurd h ho

theorem Life.closed {log : List Asked} (h : Life n t log u) (hc : (t.node n).phase = .closed) :
    (u.node n).phase = .closed := by
  induction h with
  | begin => exact hc
  | elsewhere _ hk ih => rw [hk.phase, ih]
  | @ask log u v _ ih =>
    have hleads := leads_ask u n v
    rw [ih] at hleads
    exact hleads

/-- What a start that fails is told, and why. -/
theorem start_blames {f : Fault} (hf : (t.node n).phase = .fresh)
    (h : (t.start n).1 = .error f) :
    (¬ (t.node n).settings.HasUrl ∧
      ∃ url, (t.node n).settings.controlUrl = some url ∧ f = .badControlUrl url) ∨
    (¬ t.HasDirectory n ∧
      ∃ dir e, (t.node n).settings.dir = some dir ∧ f = .stateDirectory dir e) := by
  unfold start at h
  rw [hf] at h
  dsimp only at h
  split at h
  · rename_i g hg
    refine .inl ⟨fun hu => ?_, ?_⟩
    · rw [urlFault_eq_none.mpr hu] at hg
      cases hg
    · unfold Settings.urlFault at hg
      split at hg
      · cases hg
      · rename_i url hurl
        split at hg
        · cases hg
        · cases hg
          cases h
          exact ⟨url, hurl, rfl⟩
  · have hmade := makeStateDirectory_ok (t := t) (n := n)
    unfold makeStateDirectory at h hmade
    revert h hmade
    cases (t.node n).settings.dir with
    | none =>
      intro h _
      cases h
    | some dir =>
      dsimp only
      cases (t.files.makeDirectories dir).1 with
      | ok =>
        intro h _
        cases h
      | error e =>
        intro h hmade
        cases h
        exact .inr ⟨fun hd => (by cases hmade.mpr hd), dir, e, rfl, rfl⟩

/-- A verb whose start fails is told so, and all it leaves is what it made of the directory. -/
theorem ask_unstarted {v : NodeVerb} {f : Fault} (hv : v.starts = true)
    (h : (t.start n).1 = .error f) : ∃ files, t.ask n v = (.error f, { t with files }) := by
  obtain ⟨files, hs⟩ := start_error h
  have hb := begins_ask (t := t) (n := n) hv
  revert hb
  generalize t.ask n v = r
  intro hb
  cases hb with
  | failed g hg =>
    rw [h] at hg
    cases hg
    rw [hs]
    exact ⟨files, rfl⟩
  | worked r t' hok =>
    rw [h] at hok
    cases hok

/-- The life of a node, by what it was asked so far. -/
structure Lifecycle (n : NodeId) (log : List Asked) (t : Tailnet) : Prop
    extends Follows log (t.node n) where
  onward : ∀ v, (t.node n).phase.Leads ((t.ask n v).2.node n).phase
  /-- A verb gets past the start where it needs the node, and the node runs or can be started. -/
  passes : ∀ v, t.passes n v = true ↔ v.starts = true ∧ (t.Runs n ∨ t.Ready n)
  runs : ∀ v, ¬ t.Runs n → ((t.ask n v).2.Runs n ↔ t.passes n v = true)
  configures : ∀ option, (t.configure n option).1 = .ok () ↔ (t.node n).phase = .fresh
  configured : ∀ option, (t.node n).phase = .fresh →
    ∃ x, (t.configure n option).2 = t.setNode n x ∧ Node.Sets option (t.node n) x
  unconfigured : ∀ option, (t.node n).phase ≠ .fresh →
    t.configure n option = (.error (.alreadyStarted option.name), t)
  /-- No number is used up, no name registered and no setting lost. -/
  unstarted : ∀ v f, v.starts = true → (t.start n).1 = .error f →
    ∃ files, t.ask n v = (.error f, { t with files })
  blames : ∀ f, (t.node n).phase = .fresh → (t.start n).1 = .error f →
    (¬ (t.node n).settings.HasUrl ∧
      ∃ url, (t.node n).settings.controlUrl = some url ∧ f = .badControlUrl url) ∨
    (¬ t.HasDirectory n ∧
      ∃ dir e, (t.node n).settings.dir = some dir ∧ f = .stateDirectory dir e)
  correctedUrl : ∀ url, (t.node n).phase = .fresh → t.HasDirectory n →
    "http://".toList <+: url.toList ∨ "https://".toList <+: url.toList →
    ((t.configure n (.controlUrl url)).2.start n).1 = .ok ()
  correctedDirectory : ∀ dir, (t.node n).phase = .fresh → (t.node n).settings.HasUrl →
    (t.files.makeDirectories dir).1 = .ok () →
    ((t.configure n (.dir dir)).2.start n).1 = .ok ()
  frozen : ∀ more u, Life n t more u → (t.node n).phase ≠ .fresh →
    (u.node n).settings = (t.node n).settings ∧ (u.node n).hostname = (t.node n).hostname ∧
      (u.node n).addresses = (t.node n).addresses
  ended : ∀ more u, Life n t more u → (t.node n).phase = .closed →
    ∀ v, ∃ f, (u.ask n v).1 = .error f

/-- Whatever a node is asked, and whatever happens around it meanwhile. -/
theorem lifecycle_of_life {log : List Asked} (h : Life n t log u) (hnew : t.node n = {}) :
    Lifecycle n log u := by
  have hset : ∀ option, (u.node n).phase = .fresh →
      u.configure n option = (.ok (), u.setNode n ((u.node n).configure option)) := fun option hf =>
    if_pos hf
  exact {
    h.follows hnew with
    onward := leads_ask u n
    passes := fun v => by rw [passes_iff, start_ok_iff]
    runs := fun v hr => runs_ask hr v
    configures := fun option => by
      by_cases hf : (u.node n).phase = .fresh
      · simp [hset option hf, hf]
      · rw [configure, if_neg hf]
        exact ⟨nofun, fun h => absurd h hf⟩
    configured := fun option hf =>
      ⟨_, congrArg Prod.snd (hset option hf), sets_configure option (u.node n)⟩
    unconfigured := fun option hf => if_neg hf
    unstarted := fun v f hv hf => ask_unstarted hv hf
    blames := fun f => start_blames
    correctedUrl := fun url hf hd hurl => by
      rw [hset _ hf]
      refine start_ok_iff.mpr (.inr ⟨?_, ?_, ?_⟩)
      · rw [node_setNode, if_pos rfl, (sets_configure _ _).phase, hf]
      · rw [node_setNode, if_pos rfl]
        rintro _ ⟨⟩
        exact hurl
      · rw [HasDirectory, node_setNode, if_pos rfl]
        exact hd
    correctedDirectory := fun dir hf hu hd => by
      rw [hset _ hf]
      refine start_ok_iff.mpr (.inr ⟨?_, ?_, ?_⟩)
      · rw [node_setNode, if_pos rfl, (sets_configure _ _).phase, hf]
      · rw [node_setNode, if_pos rfl]
        exact hu
      · rw [HasDirectory, node_setNode, if_pos rfl]
        rintro _ ⟨⟩
        exact hd
    frozen := fun more w hl hf => by
      obtain ⟨hs, hh, -⟩ := hl.frozen hf
      exact ⟨hs, by rw [Node.hostname, hs, Node.hostname],
        by rw [Node.addresses, hh, Node.addresses]⟩
    ended := fun more w hl hc v => refused_of_closed (hl.closed hc) v }

def corrected : Tailnet :=
  let t : Tailnet := {}
  let t := (t.ask 0 (.configure (.controlUrl "ftp://control"))).2
  let t := (t.ask 0 .start).2
  let t := (t.ask 1 .start).2
  let t := (t.ask 0 (.configure (.controlUrl "http://control"))).2
  let t := (t.ask 0 (.dial "tcp" "100.64.0.1:80")).2
  (t.ask 0 .close).2

theorem lifecycle_of_corrected : corrected.registry.lastHost = 2 ∧ ∃ log,
    log.map Asked.passed = [false, false, false, true, false] ∧ Lifecycle 0 log corrected := by
  have hrefused := ((Life.begin (n := 0) (t := {})).ask
    (.configure (.controlUrl "ftp://control"))).ask .start
  have helsewhere := hrefused.elsewhere (kin_ask (m := 1) (by decide) .start)
  have hcorrected := helsewhere.ask (.configure (.controlUrl "http://control"))
  have hall := (hcorrected.ask (.dial "tcp" "100.64.0.1:80")).ask .close
  exact ⟨by decide +kernel, _, by decide +kernel, lifecycle_of_life hall rfl⟩

end Handoff.Tailnet
