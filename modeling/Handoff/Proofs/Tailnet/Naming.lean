import Handoff.Proofs.Tailnet.Registering

namespace Handoff.Tailnet
variable {D : StreamId → Prop} {t t' u w : Tailnet} {n m : NodeId} {started : List NodeId}
  {name : String}

/-- A name is forgotten if it leads to one of the addresses that are. -/
theorem Registry.forget_names (r : Registry) (ips : List Address) (hostname x : String) :
    (r.forget ips hostname).names x =
      if x = hostname then (r.names x).filter fun v => .v4 v ∉ ips else r.names x := by
  unfold Registry.forget
  dsimp only
  by_cases hx : x = hostname
  · subst x
    cases hv : r.names hostname with
    | none => simp [hv]
    | some v =>
      by_cases hin : .v4 v ∈ ips
      · simp [hin, Option.filter_some_neg]
      · simp [hin, hv, Option.filter_some_pos]
  · rw [if_neg hx]
    cases r.names hostname with
    | none => rfl
    | some v =>
      dsimp only
      split
      · exact assign_of_ne _ _ _ hx
      · rfl

/-- The node called `name` that started last. The nodes are given as they started, the last one
first. -/
def latest (t : Tailnet) (started : List NodeId) (name : String) : Option NodeId :=
  started.find? fun n => (t.node n).hostname = name

/-- The address by which a node is known under its name, from when it starts until it ends. -/
def Node.known (x : Node) : Option V4 :=
  if x.phase = .closed then none else x.host.map hostV4

structure Named (started : List NodeId) (t : Tailnet) : Prop where
  count : t.registry.lastHost = started.length
  past : ∀ n ∈ started, (t.node n).phase ≠ .fresh
  numbered : ∀ n ∈ started, (t.node n).host ≠ none
  names : ∀ name, t.registry.names name =
    (t.latest started name).bind fun n => (t.node n).known

theorem known_eq_some {x : Node} {v : V4} :
    x.known = some v ↔ x.phase ≠ .closed ∧ .v4 v ∈ x.addresses := by
  rw [Node.known, mem_addresses]
  split
  · rename_i hc
    simp [hc]
  · rename_i hc
    simp [hc, eq_comm]

theorem mem_of_latest (h : t.latest started name = some n) :
    n ∈ started ∧ (t.node n).hostname = name :=
  ⟨List.mem_of_find?_eq_some h, by simpa using List.find?_some h⟩

theorem latest_congr (h : ∀ n ∈ started, (t'.node n).hostname = (t.node n).hostname)
    (name : String) : t'.latest started name = t.latest started name := by
  induction started with
  | nil => rfl
  | cons n started ih =>
    have hrest := ih fun m hm => h m (List.mem_cons_of_mem _ hm)
    unfold latest at hrest ⊢
    simp only [List.find?_cons, h n (List.mem_cons_self ..), hrest]

theorem Named.still (h : Named started t) (hs : Still t t') : Named started t' where
  count := hs.lastHost.trans h.count
  past := fun n hn => hs.phase n ▸ h.past n hn
  numbered := fun n hn => hs.host n ▸ h.numbered n hn
  names := fun name => by
    rw [hs.names, h.names, latest_congr fun n hn => hs.hostname (h.past n hn)]
    simp only [Node.known, hs.phase, hs.host]

/-- A node that starts takes its name over from whoever had it. -/
theorem Named.joined (h : Named started t) (hf : (t.node n).phase = .fresh) :
    Named (n :: started) (t.joined n) := by
  have hnew : n ∉ started := fun hn => h.past n hn hf
  have hself : (t.joined n).node n =
      { t.node n with phase := .running, host := some (t.registry.lastHost + 1) } := assign_same ..
  have hother : ∀ m ∈ started, (t.joined n).node m = t.node m := fun m hm =>
    assign_of_ne _ _ _ fun he => hnew (he ▸ hm)
  refine ⟨congrArg (· + 1) h.count, fun m hm => ?_, fun m hm => ?_, fun name => ?_⟩
  · rcases List.mem_cons.mp hm with rfl | hm
    · rw [hself]
      nofun
    · rw [hother m hm]
      exact h.past m hm
  · rcases List.mem_cons.mp hm with rfl | hm
    · rw [hself]
      nofun
    · rw [hother m hm]
      exact h.numbered m hm
  · have hlatest := latest_congr (fun m hm => congrArg Node.hostname (hother m hm)) name
    change assign t.registry.names (t.node n).hostname _ name =
      (List.find? _ (n :: started)).bind _
    have hname : ((t.joined n).node n).hostname = (t.node n).hostname := by rw [hself]; rfl
    rw [assign_apply, List.find?_cons, hname]
    by_cases hn : (t.node n).hostname = name
    · rw [if_pos hn.symm]
      simp [hn, hself, Node.known]
    · rw [if_neg (Ne.symm hn), h.names name, ← hlatest]
      simp only [hn, decide_false]
      refine Option.bind_congr fun m hm => ?_
      rw [hother m (mem_of_latest hm).1]

theorem Named.recordDialer (h : Named started t) (n : NodeId) (id : StreamId)
    (target : Endpoint) : Named started (t.recordDialer n id target) := by
  unfold Tailnet.recordDialer
  split
  · exact h
  · exact ⟨h.count, h.past, h.numbered, h.names⟩

section Ending
variable (h : Named started t)
  (hunique : ∀ m ip, ip ∈ (t.node n).addresses → ip ∈ (t.node m).addresses → m = n)
include h hunique

/-- A node that ends takes a name with it that leads to it, and no other. -/
theorem Named.names_struck (name : String) : (t.struck n).registry.names name =
    if t.latest started name = some n then none else t.registry.names name := by
  refine (Registry.forget_names ..).trans ?_
  rw [h.names name]
  cases hl : t.latest started name with
  | none => simp
  | some m =>
    simp only [Option.bind_some, Option.some.injEq]
    cases hk : (t.node m).known with
    | none => simp
    | some v =>
      have hmem := (known_eq_some.mp hk).2
      by_cases hm : m = n
      · subst m
        rw [if_pos (mem_of_latest hl).2.symm, if_pos rfl]
        simp [hmem, Option.filter_some_neg]
      · have hout : .v4 v ∉ (t.node n).addresses := fun hin => hm (hunique m _ hin hmem)
        simp [hm, hout, Option.filter_some_pos]

theorem Named.struck : Named started (t.struck n) := by
  have hself : (t.struck n).node n = { t.node n with phase := .closed } := assign_same ..
  have hother : ∀ m, m ≠ n → (t.struck n).node m = t.node m := fun m hm => assign_of_ne _ _ _ hm
  have hsame : ∀ m, ((t.struck n).node m).host = (t.node m).host ∧
      ((t.struck n).node m).hostname = (t.node m).hostname := by
    intro m
    by_cases hm : m = n
    · subst m
      rw [hself]
      exact ⟨rfl, rfl⟩
    · rw [hother m hm]
      exact ⟨rfl, rfl⟩
  refine ⟨h.count, fun m hm => ?_, fun m hm => (hsame m).1 ▸ h.numbered m hm, fun name => ?_⟩
  · by_cases hmn : m = n
    · subst m
      rw [hself]
      nofun
    · rw [hother m hmn]
      exact h.past m hm
  · rw [h.names_struck hunique, latest_congr fun m _ => (hsame m).2, h.names name]
    cases t.latest started name with
    | none => rfl
    | some m =>
      by_cases hm : m = n
      · subst m
        simp [hself, Node.known]
      · simp [hm, hother m hm]

end Ending

def Starts (t t' : Tailnet) (n : NodeId) : Prop :=
  (t.node n).phase = .fresh ∧ t'.Runs n

/-- Serving a node starts it, which gives it its name, or leaves names as they are. -/
theorem Named.registers (h : Named started t) (hr : Registers n D t u) :
    Named started u ∧ (u.node n).phase = (t.node n).phase ∨
      Named (n :: started) u ∧ t.Starts u n := by
  induction hr with
  | still hs => exact .inl ⟨h.still hs, hs.phase n⟩
  | @joined u w _ hf hw ih =>
    rcases ih with ⟨hnamed, hsame⟩ | ⟨-, -, hruns⟩
    · refine .inr ⟨(hnamed.joined hf).still hw, hsame.symm.trans hf, ?_⟩
      rw [Runs, hw.phase, node_joined, if_pos rfl]
    · cases hruns.symm.trans hf
  | @dialed u w id target _ _ _ _ hw ih =>
    have hphase : (w.node n).phase = (u.node n).phase := by
      rw [hw.phase, node_recordDialer]
    rcases ih with ⟨hnamed, hsame⟩ | ⟨hnamed, hfresh, hruns⟩
    · exact .inl ⟨(hnamed.recordDialer n id target).still hw, hphase.trans hsame⟩
    · exact .inr ⟨(hnamed.recordDialer n id target).still hw, hfresh, hphase.trans hruns⟩

/-- The end of a node leaves every name that leads to another. -/
theorem Named.strikes (h : Named started t) (ho : Owned t) (hlast : t.registry.lastHost < 2 ^ 32)
    (hs : Strikes n t u) : Named started u ∧ ∀ name, u.registry.names name =
      if t.latest started name = some n then none else t.registry.names name := by
  obtain ⟨-, v, htv, hvu⟩ := hs
  have hv := h.still htv
  have hunique : ∀ m ip, ip ∈ (v.node n).addresses → ip ∈ (v.node m).addresses → m = n := by
    intro m ip hn hm
    rw [htv.addresses] at hn hm
    exact ho.address_unique hlast hn hm
  refine ⟨(hv.struck hunique).still hvu, fun name => ?_⟩
  rw [hvu.names, hv.names_struck hunique, latest_congr fun m hm => htv.hostname (h.past m hm),
    htv.names]

/-- A node that has ended has no name. -/
theorem Named.names_closed (h : Named started t) (hc : (t.node n).phase = .closed)
    (name : String) : t.registry.names name =
      if t.latest started name = some n then none else t.registry.names name := by
  split
  · rename_i hl
    rw [h.names, hl, Option.bind_some, Node.known, if_pos hc]
  · rfl

theorem not_starts_of_strikes (hs : Strikes n t u) (m : NodeId) : ¬ t.Starts u m := by
  rintro ⟨hfresh, hruns⟩
  rw [Runs, hs.phase] at hruns
  split at hruns
  · cases hruns
  · cases hruns.symm.trans hfresh

end Handoff.Tailnet
