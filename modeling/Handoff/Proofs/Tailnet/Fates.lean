import Handoff.Proofs.Tailnet.Registering

namespace Handoff.Tailnet
variable {t u w : Tailnet} {n m : NodeId}

inductive Fate where
  | asked (v : NodeVerb)
  /-- Whoever it was made for lets go of it. -/
  | released

def meet (t : Tailnet) (n : NodeId) : Fate → Tailnet
  | .asked v => (t.ask n v).2
  | .released => t.releaseNode n

/-- What happens to the node `n` from `t` on is something that `P` holds of, one thing after the
other. Whatever else happens meanwhile leaves the node as it is. -/
inductive Meets (P : Fate → Prop) (n : NodeId) (t : Tailnet) : Tailnet → Prop where
  | nothing {u : Tailnet} : u.node n = t.node n → Meets P n t u
  | next {u w : Tailnet} (e : Fate) : P e → Meets P n t u →
    w.node n = (u.meet n e).node n → Meets P n t w

theorem node_meet_ne (hm : m ≠ n) (e : Fate) : (t.meet n e).node m = t.node m := by
  cases e with
  | asked v => exact node_ask_ne hm v
  | released => exact (node_releaseNode t n m).trans (if_neg hm)

section Meeting
variable {P Q : Fate → Prop}

theorem Meets.elsewhere (h : Meets P n t u) (hw : w.node n = u.node n) : Meets P n t w := by
  cases h with
  | nothing hu => exact .nothing (hw.trans hu)
  | next e he h hu => exact .next e he h (hw.trans hu)

theorem Meets.trans (h : Meets P n t u) (h' : Meets P n u w) : Meets P n t w := by
  induction h' with
  | nothing hu => exact h.elsewhere hu
  | next e he _ hw ih => exact .next e he ih hw

theorem Meets.mono (hPQ : ∀ e, P e → Q e) (h : Meets P n t u) : Meets Q n t u := by
  induction h with
  | nothing hu => exact .nothing hu
  | next e he _ hw ih => exact .next e (hPQ e he) ih hw

/-- What happens to the node `m` matters to `n` if that is the same. -/
theorem meets_meet (e : Fate) (he : m = n → P e) : Meets P n t (t.meet m e) := by
  by_cases hm : m = n
  · subst m
    exact .next e (he rfl) (.nothing rfl) rfl
  · exact .nothing (node_meet_ne (Ne.symm hm) e)

/-- A node to which nothing can happen. -/
theorem Meets.same (h : Meets P n t u) (hP : ∀ e, ¬ P e) : u.node n = t.node n := by
  cases h with
  | nothing hu => exact hu
  | next e he => exact absurd he (hP e)

end Meeting

section Settings
variable {P : Fate → Prop}

theorem Phase.Leads.refl (p : Phase) : p.Leads p := by
  cases p <;> simp [Phase.Leads]

theorem Phase.Leads.trans {p q r : Phase} (h : p.Leads q) (h' : q.Leads r) : p.Leads r := by
  cases p <;> cases q <;> cases r <;> simp_all [Phase.Leads]

/-- A node does not start again, nor come back once it has ended. -/
theorem Meets.leads (h : Meets P n t u) : (t.node n).phase.Leads (u.node n).phase := by
  induction h with
  | nothing hu =>
    rw [hu]
    exact .refl _
  | @next u w e _ _ hw ih =>
    rw [hw]
    cases e with
    | asked v => exact ih.trans (leads_ask u n v)
    | released =>
      rw [meet, node_releaseNode, if_pos rfl]
      exact ih

/-- Starting a node gives it a phase and a number. -/
theorem node_start (t : Tailnet) (n : NodeId) : ∃ phase host,
    (t.start n).2.node n = { t.node n with phase, host } := by
  rcases start_outcomes t n with ⟨-, h⟩ | ⟨f, files, h⟩ | ⟨-, files, h⟩ <;> rw [h]
  · exact ⟨_, _, rfl⟩
  · exact ⟨_, _, rfl⟩
  · exact ⟨_, _, (node_joined t n n).trans (if_pos rfl)⟩

/-- Settings are made before a node starts, and only when it is asked for that. -/
theorem settings_ask (t : Tailnet) (n : NodeId) {v : NodeVerb}
    (hv : (t.node n).phase = .fresh → ∀ o, v ≠ .configure o) :
    ((t.ask n v).2.node n).settings = (t.node n).settings := by
  have hturn := turn_ask t n v
  revert hturn
  generalize t.ask n v = r
  intro hturn
  cases hturn with
  | set option hf => exact absurd rfl (hv hf option)
  | refused => rfl
  | told => rfl
  | ran v r t' _ hw =>
    obtain ⟨_, _, _, hown⟩ := hw.own
    obtain ⟨_, _, hstart⟩ := node_start t n
    rw [hown, hstart]
  | ended t' _ hnode => rw [hnode]

theorem Phase.Leads.fresh {p : Phase} (h : p.Leads .fresh) : p = .fresh := by
  cases p with
  | fresh => rfl
  | running => exact absurd rfl h
  | closed => cases h

/-- Settings last while nothing is set, and from when the node starts. -/
theorem Meets.settings (h : Meets P n t u)
    (hP : (t.node n).phase = .fresh → ∀ o, ¬ P (.asked (.configure o))) :
    (u.node n).settings = (t.node n).settings := by
  induction h with
  | nothing hu => rw [hu]
  | @next u w e he hmeets hw ih =>
    rw [hw, ← ih]
    cases e with
    | asked v =>
      refine settings_ask _ n fun hf o ho => ?_
      have hfresh : (t.node n).phase = .fresh := (hf ▸ hmeets.leads).fresh
      exact hP hfresh o (ho ▸ he)
    | released =>
      rw [meet, node_releaseNode, if_pos rfl]

end Settings

section Surface

def Sized (info : LoopbackInfo) : Prop :=
  (Text.utf8 info.proxyCredential).length = Credential.size ∧
    (Text.utf8 info.apiCredential).length = Credential.size

inductive Surfaces (x y : Node) : Prop where
  | kept : y.loopback = x.loopback → Surfaces x y
  | made (info : LoopbackInfo) : x.loopback = none → y.loopback = some info → Sized info →
    Surfaces x y

theorem loopback_start (t : Tailnet) (n : NodeId) :
    ((t.start n).2.node n).loopback = (t.node n).loopback := by
  obtain ⟨_, _, h⟩ := node_start t n
  rw [h]

variable {α : Type}

/-- What goes on from the start of its node. -/
theorem surfaces_of {k : Tailnet → Except Fault α × Tailnet}
    (hk : ∀ t, Surfaces (t.node n) ((k t).2.node n)) {p : Except Fault α × Tailnet}
    (hp : p = match t.start n with
      | (.error f, t) => (.error f, t)
      | (.ok (), t) => k t) : Surfaces (t.node n) (p.2.node n) := by
  have hstart := loopback_start t n
  refine of_start (P := fun p => Surfaces (t.node n) (p.2.node n)) (fun _ _ => .kept hstart)
    (fun _ => ?_) hp
  rcases hk (t.start n).2 with hkept | ⟨info, hnone, hmade, hsized⟩
  · exact .kept (hkept.trans hstart)
  · exact .made info (hstart ▸ hnone) hmade hsized

theorem surfaces_up (t : Tailnet) (n : NodeId) : Surfaces (t.node n) ((t.up n).2.node n) := by
  refine surfaces_of (fun t => ?_) rfl
  split
  · exact .kept rfl
  · split
    · exact .kept rfl
    · split
      · exact .kept rfl
      · rename_i u hsaved
        obtain ⟨files, rfl⟩ := saveState_ok hsaved
        refine .kept ?_
        rw [node_log, node_setNode, if_pos rfl]

theorem surfaces_loopback (t : Tailnet) (n : NodeId) :
    Surfaces (t.node n) ((t.loopback n).2.node n) := by
  refine surfaces_of (fun t => ?_) rfl
  split
  · exact .kept rfl
  · rename_i hnone
    split
    · exact .kept rfl
    · rename_i k _
      let info : LoopbackInfo :=
        ⟨(t.loopbackAt k).name, t.supply.token t.credentials, t.supply.token (t.credentials + 1)⟩
      have hsized : Sized info := ⟨t.supply.size_token _, t.supply.size_token _⟩
      refine .made info hnone ?_ hsized
      rw [node_log]
      exact congrArg Node.loopback (assign_same ..)

theorem surfaces_dial (t : Tailnet) (n : NodeId) (network address : String) :
    Surfaces (t.node n) ((t.dial n network address).2.node n) := by
  rw [dial_eq]
  split
  · exact .kept rfl
  · refine surfaces_of (fun t => ?_) rfl
    split
    · exact .kept rfl
    · split
      · exact .kept rfl
      · rename_i id u hconn
        obtain ⟨l, -, -, rfl⟩ := connect_ok hconn
        refine .kept ?_
        rw [node_log, node_recordDialer]
        rfl

theorem surfaces_listen (t : Tailnet) (n : NodeId) (network address : String)
    (funnel : Option FunnelMode) :
    Surfaces (t.node n) ((t.listen n network address funnel).2.node n) := by
  unfold listen
  split
  · exact .kept rfl
  · refine surfaces_of (fun t => ?_) rfl
    split
    · exact .kept rfl
    · rename_i plan _
      obtain ⟨listeners, hnode⟩ := node_pruneListeners t n
      refine .kept ?_
      rw [node_log, openListener, node_install, if_pos rfl, hnode]

theorem surfaces_ask (t : Tailnet) (n : NodeId) {v : NodeVerb} (hv : v ≠ .close) :
    Surfaces (t.node n) ((t.ask n v).2.node n) := by
  cases v with
  | configure option =>
    refine .kept ?_
    change ((t.configure n option).2.node n).loopback = _
    unfold configure
    split
    · rw [node_setNode, if_pos rfl, (sets_configure option _).loopback]
    · rfl
  | start => exact .kept (loopback_start t n)
  | up => exact surfaces_up t n
  | dial network address => exact surfaces_dial t n network address
  | listen network address funnel => exact surfaces_listen t n network address funnel
  | loopback => exact surfaces_loopback t n
  | addresses => exact .kept rfl
  | certDomains => exact .kept rfl
  | close => exact absurd rfl hv

def Surfaced (n : NodeId) (info : LoopbackInfo) (t : Tailnet) : Prop :=
  t.Runs n ∧ (t.node n).loopback = some info

/-- A node that runs does so until it ends. -/
theorem Runs.ask (h : t.Runs n) {v : NodeVerb} (hv : v ≠ .close) : (t.ask n v).2.Runs n := by
  have hturn := turn_ask t n v
  revert hturn
  generalize t.ask n v = r
  intro hturn
  cases hturn with
  | set option hf => cases hf.symm.trans h
  | refused => exact h
  | told => exact h
  | ran v r t' hp hw => exact hw.runs (runs_start (passes_iff.mp hp).2)
  | ended => exact absurd rfl hv

variable {P : Fate → Prop} {info : LoopbackInfo}

/-- The local surface lasts until its node ends or is let go of. -/
theorem Meets.surfaced (h : Meets P n t u) (hclose : ¬ P (.asked .close))
    (hrelease : ¬ P .released) (hs : t.Surfaced n info) : u.Surfaced n info := by
  induction h with
  | nothing hu => rwa [Surfaced, Runs, hu]
  | @next u w e he _ hw ih =>
    rw [Surfaced, Runs, hw]
    cases e with
    | released => exact absurd he hrelease
    | asked v =>
      have hv : v ≠ .close := fun hv => hclose (hv ▸ he)
      refine ⟨ih.1.ask hv, ?_⟩
      rcases surfaces_ask u n hv with hkept | ⟨_, hnone, -, -⟩
      · exact hkept.trans ih.2
      · cases hnone.symm.trans ih.2

def Node.Minted (x : Node) : Prop :=
  ∀ info, x.loopback = some info → Sized info

theorem Surfaces.minted {x y : Node} (h : Surfaces x y) (hx : x.Minted) : y.Minted := by
  intro info hinfo
  rcases h with hkept | ⟨made, -, hmade, hsized⟩
  · exact hx info (hkept ▸ hinfo)
  · obtain rfl := Option.some.inj (hmade.symm.trans hinfo)
    exact hsized

theorem Meets.minted (h : Meets P n t u) (ht : (t.node n).Minted) : (u.node n).Minted := by
  induction h with
  | nothing hu => rwa [hu]
  | @next u w e _ _ hw ih =>
    rw [hw]
    cases e with
    | released =>
      rw [meet, node_releaseNode, if_pos rfl]
      rintro _ ⟨⟩
    | asked v =>
      by_cases hv : v = .close
      · subst hv
        rw [meet, ask, node_close]
        split
        · rintro _ ⟨⟩
        · exact ih
      · exact (surfaces_ask u n hv).minted ih

end Surface

end Handoff.Tailnet
