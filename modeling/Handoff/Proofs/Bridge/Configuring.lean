import Handoff.Proofs.Bridge.Stale
import Handoff.Proofs.Tailnet.Registering
import Handoff.Proofs.Traffic.Quiet

namespace Handoff
open Tailnet (Fault Node Settings)

namespace Config

/-- Settings under a configuration: what it gives counts, and what it does not give stays. -/
def overlay (config : Config) (s : Settings) : Settings where
  dir := config.stateDir.or s.dir
  hostname := config.hostname.or s.hostname
  authkey := config.authkey.or s.authkey
  controlUrl := config.controlUrl.or s.controlUrl
  ephemeral := config.ephemeral || s.ephemeral

theorem overlay_overlay (config : Config) (s : Settings) :
    config.overlay (config.overlay s) = config.overlay s := by
  simp only [overlay, ← Option.or_assoc, Option.or_self, ← Bool.or_assoc, Bool.or_self]

theorem options_eq_nil {config : Config} : config.options = [] ↔ config = {} := by
  obtain ⟨dir, hostname, authkey, controlUrl, ephemeral⟩ := config
  simp [options]

/-- Whichever fields are given, the settings that are made for them are those of the overlay. -/
theorem foldl_options (config : Config) (x : Node) :
    config.options.foldl (fun x option => x.configure option) x =
      { x with settings := config.overlay x.settings } := by
  obtain ⟨dir, hostname, authkey, controlUrl, ephemeral⟩ := config
  cases dir <;> cases hostname <;> cases authkey <;> cases controlUrl <;> cases ephemeral <;> rfl

end Config

namespace Tailnet
variable (t : Tailnet) (n : NodeId) (config : Config)

def configured : Tailnet :=
  t.setNode n { t.node n with settings := config.overlay (t.node n).settings }

theorem node_configured : (t.configured n config).node n =
    { t.node n with settings := config.overlay (t.node n).settings } :=
  assign_same ..

theorem configured_configured :
    (t.configured n config).configured n config = t.configured n config := by
  rw [configured, node_configured, Config.overlay_overlay, configured, setNode_setNode]

end Tailnet

namespace Bridge
variable {b : Bridge Tailnet} {server : Handle} {a : Server}

section Configuring

theorem configure_tell (ha : b.servers.find? server = some a) (option : NodeOption) :
    b.configure server option = b.tell server (b.net.configure a.node option) :=
  withNode_tell ha (fun n => Network.configure n option) (fun n t => t.configure n option)
    fun _ _ => rfl

theorem configure_fresh (ha : b.servers.find? server = some a)
    (hf : (b.net.node a.node).phase = .fresh) (option : NodeOption) :
    b.configure server option = (.ok (),
      { b with net := b.net.setNode a.node ((b.net.node a.node).configure option) }) := by
  rw [configure_tell ha, Tailnet.configure, if_pos hf]
  rfl

theorem configure_started (ha : b.servers.find? server = some a)
    (hf : (b.net.node a.node).phase ≠ .fresh) (option : NodeOption) :
    b.configure server option = b.fail server (Fault.alreadyStarted option.name).toFailure := by
  rw [configure_tell ha, Tailnet.configure, if_neg hf]
  rfl

/-- Making settings does not start a node, so that none of them is refused if the first is not. -/
theorem configureAll_fresh (ha : b.servers.find? server = some a)
    (hf : (b.net.node a.node).phase = .fresh) (options : List NodeOption) :
    b.configureAll server options = (.ok (), { b with
      net := b.net.setNode a.node
        (options.foldl (fun x option => x.configure option) (b.net.node a.node)) }) := by
  induction options generalizing b with
  | nil =>
    have hsame : b.net.setNode a.node (b.net.node a.node) = b.net := by
      rw [Tailnet.setNode, assign_self]
    rw [configureAll, List.foldl_nil, hsame]
  | cons option options ih =>
    let x := (b.net.node a.node).configure option
    have hset : (b.net.setNode a.node x).node a.node = x := assign_same ..
    have hphase : x.phase = .fresh := (Tailnet.sets_configure ..).phase.trans hf
    have hrest := ih (b := { b with net := b.net.setNode a.node x }) ha
      ((congrArg Node.phase hset).trans hphase)
    dsimp only at hrest
    rw [hset, Tailnet.setNode_setNode] at hrest
    rw [configureAll, configure_fresh ha hf]
    exact hrest

/-- On a server that has not started a configuration is laid over the settings it has. -/
theorem applyConfig_fresh (ha : b.servers.find? server = some a)
    (hf : (b.net.node a.node).phase = .fresh) (config : Config) :
    b.applyConfig server config = (.ok (), { b with net := b.net.configured a.node config }) := by
  rw [applyConfig, configureAll_fresh ha hf, Config.foldl_options]
  rfl

/-- The same configuration changes nothing the second time. -/
theorem applyConfig_again (ha : b.servers.find? server = some a)
    (hf : (b.net.node a.node).phase = .fresh) (config : Config) :
    ({ b with net := b.net.configured a.node config } : Bridge Tailnet).applyConfig server config =
      (.ok (), { b with net := b.net.configured a.node config }) := by
  have hphase : ((b.net.configured a.node config).node a.node).phase = .fresh :=
    (congrArg Node.phase (b.net.node_configured a.node config)).trans hf
  rw [applyConfig_fresh (b := { b with net := b.net.configured a.node config }) ha hphase,
    Tailnet.configured_configured]

theorem applyConfig_empty (b : Bridge Tailnet) (server : Handle) :
    b.applyConfig server {} = (.ok (), b) :=
  rfl

theorem applyConfig_dead (ha : b.servers.find? server = none) {config : Config}
    (hconfig : config ≠ {}) : b.applyConfig server config = (.error (.badHandle server), b) := by
  obtain ⟨option, options, ho⟩ := List.exists_cons_of_ne_nil (Config.options_eq_nil.not.mpr hconfig)
  rw [applyConfig, ho, configureAll, configure, Traffic.withNode_dead ha]

theorem applyConfig_started (ha : b.servers.find? server = some a)
    (hf : (b.net.node a.node).phase ≠ .fresh) {config : Config} (hconfig : config ≠ {}) :
    ∃ option ∈ config.options.head?,
      b.applyConfig server config = b.fail server (Fault.alreadyStarted option.name).toFailure := by
  obtain ⟨option, options, ho⟩ := List.exists_cons_of_ne_nil (Config.options_eq_nil.not.mpr hconfig)
  refine ⟨option, by rw [ho]; rfl, ?_⟩
  rw [applyConfig, ho, configureAll, configure_started ha hf]
  rfl

/-- That a configuration is refused is said on the server's record, if there is a server. -/
theorem applyConfig_error {config : Config} {e : BridgeError}
    (he : (b.applyConfig server config).1 = .error e) :
    (b.applyConfig server config).2 = b ∨
      ∃ text, (b.applyConfig server config).2 = b.record server text := by
  have hconfig : config ≠ {} := by
    rintro rfl
    cases he
  cases ha : b.servers.find? server with
  | none => exact .inl (congrArg Prod.snd (applyConfig_dead ha hconfig))
  | some a =>
    by_cases hf : (b.net.node a.node).phase = .fresh
    · rw [applyConfig_fresh ha hf] at he
      cases he
    · obtain ⟨option, -, hfail⟩ := applyConfig_started ha hf hconfig
      exact .inr ⟨_, congrArg Prod.snd hfail⟩

end Configuring

def Unstarted (b : Bridge Tailnet) (server : Handle) : Prop :=
  ∃ a, b.servers.find? server = some a ∧ (b.net.node a.node).phase = .fresh

structure Guards (b : Bridge Tailnet) (server : Handle) (config : Config) : Prop where
  dead : b.servers.find? server = none →
    (b.applyConfig server config).1 = .error (.badHandle server)
  started : ∀ a, b.servers.find? server = some a → (b.net.node a.node).phase ≠ .fresh →
    ∃ text, (b.applyConfig server config).1 = .error (.fatal text)
  accepted : (b.applyConfig server config).1 = .ok () → b.Unstarted server

/-- What applying a configuration comes to where it is not laid over settings. -/
structure Answers (b : Bridge Tailnet) (server : Handle) (config : Config) : Prop where
  empty : config = {} → b.applyConfig server config = (.ok (), b)
  dead : config ≠ {} → b.servers.find? server = none →
    b.applyConfig server config = (.error (.badHandle server), b)
  /-- The first of its settings is refused, and the server's record says so. -/
  started : config ≠ {} → ∀ a, b.servers.find? server = some a →
    (b.net.node a.node).phase ≠ .fresh → ∃ option ∈ config.options.head?,
      b.applyConfig server config = b.fail server (Fault.alreadyStarted option.name).toFailure
  accepted : (b.applyConfig server config).1 = .ok () ↔ config = {} ∨ b.Unstarted server
  guards : b.Guards server config ↔ config ≠ {} ∨ b.Unstarted server

theorem accepted_iff {config : Config} : (b.applyConfig server config).1 = .ok () ↔
    config = {} ∨ b.Unstarted server := by
  by_cases hconfig : config = {}
  · subst hconfig
    simp [applyConfig_empty]
  cases ha : b.servers.find? server with
  | none => simp [applyConfig_dead ha hconfig, hconfig, Unstarted, ha]
  | some a =>
    by_cases hf : (b.net.node a.node).phase = .fresh
    · simp [applyConfig_fresh ha hf, Unstarted, ha, hf]
    · obtain ⟨option, -, he⟩ := applyConfig_started ha hf hconfig
      simp [he, fail, hconfig, Unstarted, ha, hf]

/-- Nothing is checked where there is nothing to set. -/
theorem guards_iff {config : Config} : b.Guards server config ↔
    config ≠ {} ∨ b.Unstarted server := by
  constructor
  · intro h
    by_cases hconfig : config = {}
    · exact .inr (h.accepted (accepted_iff.mpr (.inl hconfig)))
    · exact .inl hconfig
  · rintro (hconfig | ⟨a, ha, hf⟩)
    · refine ⟨fun ha => ?_, fun a ha hf => ?_, fun hok => ?_⟩
      · rw [applyConfig_dead ha hconfig]
      · obtain ⟨option, -, he⟩ := applyConfig_started ha hf hconfig
        exact ⟨_, congrArg Prod.fst he⟩
      · exact (accepted_iff.mp hok).resolve_left hconfig
    · refine ⟨fun hnone => ?_, fun a' ha' hf' => ?_, fun _ => ⟨a, ha, hf⟩⟩
      · cases ha.symm.trans hnone
      · cases ha.symm.trans ha'
        exact absurd hf hf'

/-- A configuration that gives anything is applied only to a server that is live and has not
started. One that gives nothing is applied to any handle. -/
theorem applyConfig_answers (b : Bridge Tailnet) (server : Handle) (config : Config) :
    b.Answers server config where
  empty := by
    rintro rfl
    exact applyConfig_empty b server
  dead := fun hconfig ha => applyConfig_dead ha hconfig
  started := fun hconfig _ ha hf => applyConfig_started ha hf hconfig
  accepted := accepted_iff
  guards := guards_iff

/-- A server was closed, and the configuration gives nothing. -/
theorem unguarded_of_closed : ¬ ∀ issued (b : Bridge Tailnet), Turns { net := {} } issued b →
    ∀ server config, b.Guards server config := by
  intro h
  let b := (newServer ({ net := {} } : Bridge Tailnet)).2
  have hturns : Turns ({ net := {} } : Bridge Tailnet) _ (b.perform (.close ⟨2752513⟩)).2 :=
    (Turns.stay.turn .newServer).turn (.call .served)
  rcases guards_iff.mp (h _ _ hturns ⟨2752513⟩ {}) with hconfig | ⟨a, ha, -⟩
  · exact hconfig rfl
  · have hdead : (b.perform (.close ⟨2752513⟩)).2.servers.find? ⟨2752513⟩ = none := rfl
    cases hdead.symm.trans ha

end Bridge
end Handoff
