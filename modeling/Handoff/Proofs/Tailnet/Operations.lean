import Handoff.Proofs.Tailnet.Wired

namespace Handoff.Tailnet
variable {t t' : Tailnet} {l : ListenerId} {n : NodeId}

theorem node_setNode (t : Tailnet) (n m : NodeId) (x : Node) :
    (t.setNode n x).node m = if m = n then x else t.node m := rfl

theorem listener_setListener (t : Tailnet) (l k : ListenerId) (x : Listener) :
    (t.setListener l x).listener k = if k = l then x else t.listener k := rfl

theorem node_log (t : Tailnet) (n m : NodeId) (line : String) :
    (t.log n line).node m = t.node m := by
  unfold log
  split
  · rfl
  · split <;> rfl

theorem listener_log (t : Tailnet) (n : NodeId) (line : String) :
    (t.log n line).listener = t.listener := by
  unfold log
  split
  · rfl
  · split <;> rfl

theorem registry_log (t : Tailnet) (n : NodeId) (line : String) :
    (t.log n line).registry = t.registry := by
  unfold log
  split
  · rfl
  · split <;> rfl

section Quiet
variable (hw : Wired t)
include hw

/-- Only what nobody is routed by has changed. -/
theorem calm_of_eq (hl : t'.listener = t.listener) (hls : t'.listeners = t.listeners)
    (hb : t'.bound = t.bound) (hr : t'.registry.routes = t.registry.routes)
    (hh : t'.registry.lastHost = t.registry.lastHost) (hn : t'.node = t.node)
    (hns : t.nodes ≤ t'.nodes) (hc : t.streams.count ≤ t'.streams.count) : Calm t t' :=
  Same.calm ⟨fun l => ⟨_, congrFun hl l⟩, hls, hb, hr, hh, fun n => by rw [hn],
    fun n => by rw [hn], fun n => by rw [hn], hns, hc⟩ hw hl

/-- A change of what a node says or keeps, not of what it runs. -/
theorem calm_setNode {x : Node} (hp : x.phase = (t.node n).phase) (hh : x.host = (t.node n).host)
    (hl : x.listeners = (t.node n).listeners) : Calm t (t.setNode n x) := by
  refine Same.calm ?_ hw rfl
  refine ⟨fun _ => ⟨_, rfl⟩, rfl, rfl, rfl, rfl, ?_, ?_, ?_, Nat.le_refl _, Nat.le_refl _⟩
  all_goals
    intro m
    rw [node_setNode]
    split
    · subst m
      assumption
    · rfl

theorem calm_log (n : NodeId) (line : String) : Calm t (t.log n line) := by
  unfold log
  split
  · exact .refl hw
  · split
    · exact calm_of_eq hw rfl rfl rfl rfl rfl rfl (Nat.le_refl _) (Nat.le_refl _)
    · exact .refl hw

theorem calm_newNode : Calm t t.newNode.2 :=
  calm_of_eq hw rfl rfl rfl rfl rfl rfl (Nat.le_succ _) (Nat.le_refl _)

theorem calm_withFiles (files : Files) : Calm t { t with files } :=
  calm_of_eq hw rfl rfl rfl rfl rfl rfl (Nat.le_refl _) (Nat.le_refl _)

theorem calm_withStreams {streams : Streams} (hs : t.streams.count ≤ streams.count) :
    Calm t { t with streams } :=
  calm_of_eq hw rfl rfl rfl rfl rfl rfl (Nat.le_refl _) hs

theorem calm_configure (n : NodeId) (option : NodeOption) : Calm t (t.configure n option).2 := by
  unfold configure
  split
  · cases option <;> exact calm_setNode hw rfl rfl rfl
  · exact .refl hw

end Quiet

/-- A node that starts gets a number that no node has. -/
theorem calm_join (hw : Wired t) (hf : (t.node n).phase = .fresh) : Calm t (t.join n) := by
  let t₁ : Tailnet := { t.setNode n { t.node n with
      phase := .running, host := some (t.registry.lastHost + 1) } with
    registry := t.registry.addHost (t.node n).hostname }
  have hnode : ∀ m, t₁.node m = if m = n then { t.node n with
      phase := .running, host := some (t.registry.lastHost + 1) } else t.node m := fun _ => rfl
  have hlists : ∀ m, (t₁.node m).listeners = (t.node m).listeners := by
    intro m
    rw [hnode]
    split
    · subst m
      rfl
    · rfl
  have hw₁ : Wired t₁ :=
    ⟨hw.made, fun m l hl => hw.listed m l (by rwa [hlists] at hl), hw.held, hw.bound, hw.routed⟩
  have ho₁ : Owned t → Owned t₁ := fun ho => {
    hosts := fun m k hk => by
      rw [hnode] at hk
      change k ≤ t.registry.lastHost + 1
      split at hk
      · cases hk
        exact Nat.le_refl _
      · exact Nat.le_succ_of_le (ho.hosts m k hk)
    distinct := fun a b k ha hb => by
      rw [hnode] at ha hb
      split at ha <;> split at hb
      · subst a b
        rfl
      · cases ha
        exact absurd (ho.hosts b _ hb) (Nat.not_succ_le_self _)
      · cases hb
        exact absurd (ho.hosts a _ ha) (Nat.not_succ_le_self _)
      · exact ho.distinct a b k ha hb
    owner := fun l hl => by
      obtain ⟨m, hr, hm, ha⟩ := ho.owner l hl
      have hne : m ≠ n := by
        rintro rfl
        rw [Runs, hf] at hr
        cases hr
      have hm₁ : t₁.node m = t.node m := by rw [hnode, if_neg hne]
      exact ⟨m, by rwa [Runs, hm₁], by rwa [hm₁], by rwa [hm₁]⟩
    routed := fun hk => ho.routed (Nat.lt_of_succ_lt hk) }
  have h₁ : Calm t t₁ := {
    wired := hw₁
    owned := ho₁
    listeners := rfl
    nodes := Nat.le_refl _
    count := Nat.le_refl _
    lists := fun m => by
      rw [hlists]
      exact List.Subset.refl _
    steady := fun _ _ => rfl }
  exact h₁.trans (calm_log hw₁ n _)

/-- All that starting a node can come to. -/
theorem start_cases (t : Tailnet) (n : NodeId) :
    (t.Runs n ∧ t.start n = (.ok (), t)) ∨
    (∃ f files, t.start n = (.error f, { t with files })) ∨
    (t.node n).phase = .fresh ∧
      ∃ files, t.start n = (.ok (), { t with files : Tailnet }.join n) := by
  unfold start
  split
  · exact .inl ⟨by assumption, rfl⟩
  · exact .inr (.inl ⟨_, t.files, rfl⟩)
  · rename_i hf
    split
    · exact .inr (.inl ⟨_, t.files, rfl⟩)
    · unfold makeStateDirectory
      cases (t.node n).settings.dir with
      | none => exact .inr (.inr ⟨hf, t.files, rfl⟩)
      | some dir =>
        rcases hm : t.files.makeDirectories dir with ⟨made, files⟩
        simp only [hm]
        cases made with
        | error e => exact .inr (.inl ⟨.stateDirectory dir e, files, rfl⟩)
        | ok => exact .inr (.inr ⟨hf, files, rfl⟩)

theorem calm_start (hw : Wired t) (n : NodeId) : Calm t (t.start n).2 := by
  rcases start_cases t n with ⟨-, h⟩ | ⟨f, files, h⟩ | ⟨hf, files, h⟩
  · rw [h]
    exact .refl hw
  · rw [h]
    exact calm_withFiles hw files
  · rw [h]
    have hc := calm_withFiles hw files
    exact hc.trans (calm_join hc.wired hf)

theorem node_join (t : Tailnet) (n : NodeId) : (t.join n).node n =
    { t.node n with phase := .running, host := some (t.registry.lastHost + 1) } := by
  rw [join]
  dsimp only
  rw [node_log]
  exact assign_same ..

/-- After a start that succeeded the node runs. -/
theorem runs_start (h : (t.start n).1 = .ok ()) : (t.start n).2.Runs n := by
  rcases start_cases t n with ⟨hr, he⟩ | ⟨f, files, he⟩ | ⟨-, files, he⟩
  · rwa [he]
  · rw [he] at h
    cases h
  · rw [he, Runs, node_join]

theorem routes_start (t : Tailnet) (n : NodeId) :
    (t.start n).2.registry.routes = t.registry.routes := by
  rcases start_cases t n with ⟨-, h⟩ | ⟨f, files, h⟩ | ⟨-, files, h⟩
  · rw [h]
  · rw [h]
  · rw [h, join]
    dsimp only
    rw [registry_log]
    rfl

theorem saveState_ok (h : t.saveState n = .ok t') : ∃ files, t' = { t with files } := by
  unfold saveState at h
  dsimp only at h
  split at h
  · cases h
    exact ⟨t.files, rfl⟩
  · split at h
    · cases h
      exact ⟨t.files, rfl⟩
    · split at h
      · cases h
        exact ⟨_, rfl⟩
      · cases h

theorem calm_up (hw : Wired t) (n : NodeId) : Calm t (t.up n).2 := by
  have hs := calm_start hw n
  unfold up
  revert hs
  generalize t.start n = r
  obtain ⟨r, t₁⟩ := r
  intro hs
  cases r with
  | error f => exact hs
  | ok =>
    dsimp only
    split
    · exact hs
    · split
      · exact hs
      · split
        · exact hs
        · rename_i t₂ h₂
          obtain ⟨files, rfl⟩ := saveState_ok h₂
          have h₃ := hs.trans (calm_withFiles hs.wired files)
          have h₄ := h₃.trans (calm_setNode h₃.wired (x := { t₁.node n with online := true })
            rfl rfl rfl)
          exact h₄.trans (calm_log h₄.wired n _)

end Handoff.Tailnet
