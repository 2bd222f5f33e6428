import Handoff.Control.Worker
import Handoff.Proofs.Bridge.Configuring
import Handoff.Proofs.Bridge.Heeding
import Handoff.Proofs.Custody.Standing

namespace Handoff.Custody
open Control (Worker)
variable {c c' : Custody} {i : Nat} {h : Handle} {n : NodeId} {a : Server} {config : Config}

/-- A move that makes no settings of the server, unless its node has started and refuses them. -/
def Spares (i : Nat) (h : Handle) (n : NodeId) (c c' : Custody) : Prop :=
  Move c c' ∧ ((c.net.node n).phase = .fresh → ¬ Configures i h c c')

/-- The configuration was laid over the settings of the server `a`, and nothing else was done. -/
structure Overlaid (c : Custody) (i : Nat) (h : Handle) (a : Server) (config : Config) : Prop where
  accepted : ((c.bridge i).applyConfig h config).1 = .ok ()
  net : (c.perform i (.applyConfig h config)).net = c.net.configured a.node config
  tables : (c.perform i (.applyConfig h config)).tables = c.tables
  again : ((c.perform i (.applyConfig h config)).bridge i).applyConfig h config =
    (.ok (), (c.perform i (.applyConfig h config)).bridge i)

structure Declined (c c' : Custody) (i : Nat) (h : Handle) : Prop where
  net : c'.net = c.net
  elsewhere : ∀ j, j ≠ i → c'.tables j = c.tables j
  servers : ∀ k, k ≠ h → (c'.tables i).servers.find? k = (c.tables i).servers.find? k
  node : ((c'.tables i).servers.find? h).map Server.node =
    ((c.tables i).servers.find? h).map Server.node
  listeners : (c'.tables i).listeners = (c.tables i).listeners
  conns : (c'.tables i).conns = (c.tables i).conns

/-- The tailnet once a request was answered by a worker with the configuration, whose bridge is the
`i`-th. -/
def served (c : Custody) (i : Nat) (config : Config) : Wire.Request → Custody
  | .createServer => (c.newServer i).perform i (.applyConfig (c.bridge i).newServer.1 config)
  | .startServer h => c.perform i (.start h)
  | .up h => c.perform i (.up h)
  | .closeServer h => c.perform i (.close h)
  | .fetchErrorMessage _ | .readErrorMessage _ => c

inductive Serving (i : Nat) (config : Config) : Worker → Custody → Prop where
  | start {c : Custody} : Reachable c → c.tables i = {} →
    Serving i config { config := some config } c
  | answer {w : Worker} {c : Custody} (r : Wire.Request) : Serving i config w c →
    (r = .createServer → (c.tables i).servers.HasRoom) →
    Serving i config (w.answer c.net r).2.1 (c.served i config r)
  /-- Others do something elsewhere. -/
  | elsewhere {w : Worker} {c c' : Custody} : Serving i config w c → Move c c' →
    c'.tables i = c.tables i → (∀ h, ¬ Configures i h c c') → Serving i config w c'

/-- What configuring servers of the `i`-th bridge comes to. -/
structure Configuring (c : Custody) (i : Nat) : Prop where
  overlaid : ∀ h a config, (c.tables i).servers.find? h = some a →
    (c.net.node a.node).phase = .fresh → Overlaid c i h a config
  /-- The server goes by the settings it was given for as long as no others are made. -/
  heeded : ∀ h a config, (c.tables i).servers.find? h = some a →
    (c.net.node a.node).phase = .fresh → ∀ c',
      Relation.ReflTransGen (Spares i h a.node) (c.perform i (.applyConfig h config)) c' →
        Stands c' i h a.node →
          (c'.bridge i).Heeds h a.node (config.overlay (c.net.node a.node).settings)
  declined : ∀ h config e, ((c.bridge i).applyConfig h config).1 = .error e →
    Declined c (c.perform i (.applyConfig h config)) i h
  others : ∀ h config j k, j ≠ i ∨ k ≠ h →
    ((c.perform i (.applyConfig h config)).tables j).servers.find? k =
      (c.tables j).servers.find? k ∧
    ∀ a, (c.tables j).servers.find? k = some a →
      (c.perform i (.applyConfig h config)).net.node a.node = c.net.node a.node
  created : ∃ a, ((c.newServer i).tables i).servers.find? (c.bridge i).newServer.1 = some a ∧
    (c.newServer i).net.node a.node = {} ∧
    ∀ config, Overlaid (c.newServer i) i (c.bridge i).newServer.1 a config
  /-- A worker of which this is the bridge gives each server that it creates its configuration. -/
  worker : ∀ (w : Worker) config, w.tables = c.tables i → w.config = some config →
    ∃ h n, w.answer c.net .createServer = (.created h,
        { w with tables := (c.served i config .createServer).tables i },
        (c.served i config .createServer).net) ∧
      Stands (c.served i config .createServer) i h n ∧
      (c.served i config .createServer).net.node n = { settings := config.overlay {} }
  /-- So all its servers go by that configuration for as long as they are there. -/
  carried : ∀ w config, Serving i config w c → w.tables = c.tables i ∧
    ∀ h n, Stands c i h n → (c.bridge i).Heeds h n (config.overlay {})

theorem tables_of_bridge {v : Verb} (ht : ((c.perform i v).bridge i).toTables = c.tables i) :
    (c.perform i v).tables = c.tables := by
  rw [bridge_perform] at ht
  let b := ((c.bridge i).perform v).2.keep ((c.bridge i).perform v).1
  change assign c.tables i b.toTables = _
  rw [ht, assign_self]

theorem overlaid_of_fresh (ha : (c.tables i).servers.find? h = some a)
    (hf : (c.net.node a.node).phase = .fresh) (config : Config) : Overlaid c i h a config := by
  have happlied := Bridge.applyConfig_fresh (b := c.bridge i) ha hf config
  have hbridge : (c.perform i (.applyConfig h config)).bridge i =
      { c.bridge i with net := c.net.configured a.node config } :=
    (bridge_perform c i _).trans (congrArg Prod.snd happlied)
  refine ⟨congrArg Prod.fst happlied, congrArg Bridge.net hbridge, tables_of_bridge ?_, ?_⟩
  · exact congrArg Bridge.toTables hbridge
  · rw [hbridge]
    exact Bridge.applyConfig_again (b := c.bridge i) ha hf config

theorem declined_of_error {e : BridgeError}
    (he : ((c.bridge i).applyConfig h config).1 = .error e) :
    Declined c (c.perform i (.applyConfig h config)) i h := by
  have hbridge : (c.perform i (.applyConfig h config)).bridge i =
      ((c.bridge i).applyConfig h config).2 := bridge_perform c i _
  have helsewhere : ∀ j, j ≠ i → (c.perform i (.applyConfig h config)).tables j = c.tables j :=
    fun j hj => assign_of_ne _ _ _ hj
  rcases Bridge.applyConfig_error he with hsame | ⟨text, hrecord⟩
  · rw [hsame] at hbridge
    have htables : (c.perform i (.applyConfig h config)).tables i = c.tables i :=
      congrArg Bridge.toTables hbridge
    refine ⟨congrArg Bridge.net hbridge, helsewhere, fun k _ => ?_, ?_, ?_, ?_⟩ <;> rw [htables]
  · rw [hrecord] at hbridge
    have htables : (c.perform i (.applyConfig h config)).tables i =
        ((c.bridge i).record h text).toTables := congrArg Bridge.toTables hbridge
    refine ⟨congrArg Bridge.net hbridge, helsewhere, fun k hk => ?_, ?_, ?_, ?_⟩ <;> rw [htables]
    · exact (HandleTable.find?_modify ..).trans (if_neg hk)
    · exact (Traffic.alike_record (c.bridge i) h text).nodes h
    · rfl
    · rfl

/-- A server has its node to itself, so that only its own node is configured with it. -/
theorem others_applyConfig (hr : Reachable c) (h : Handle) (config : Config) {j : Nat} {k : Handle}
    (hk : j ≠ i ∨ k ≠ h) :
    ((c.perform i (.applyConfig h config)).tables j).servers.find? k =
      (c.tables j).servers.find? k ∧
    ∀ a, (c.tables j).servers.find? k = some a →
      (c.perform i (.applyConfig h config)).net.node a.node = c.net.node a.node := by
  cases hresult : ((c.bridge i).applyConfig h config).1 with
  | error e =>
    have hdeclined := declined_of_error hresult
    refine ⟨?_, fun a _ => by rw [hdeclined.net]⟩
    by_cases hj : j = i
    · subst j
      exact hdeclined.servers k (hk.resolve_left (not_not.mpr rfl))
    · rw [hdeclined.elsewhere j hj]
  | ok =>
    rcases Bridge.accepted_iff.mp hresult with rfl | ⟨a, ha, hf⟩
    · have hsame : (c.perform i (.applyConfig h {})).bridge i = c.bridge i := bridge_perform c i _
      have htables : (c.perform i (.applyConfig h {})).tables = c.tables :=
        tables_of_bridge (congrArg Bridge.toTables hsame)
      exact ⟨by rw [htables], fun a _ => rfl⟩
    · have hoverlaid := overlaid_of_fresh (c := c) ha hf config
      refine ⟨by rw [hoverlaid.tables], fun b hb => ?_⟩
      rw [hoverlaid.net]
      refine assign_of_ne _ _ _ fun hn => ?_
      obtain ⟨rfl, rfl⟩ := hr.intact.apart j i k h b a hb ha hn
      rcases hk with hj | hh
      · exact hj rfl
      · exact hh rfl

/-- The settings of a server that has some last while nobody makes others. -/
theorem settings_spared (hr : Reachable c) (hs : Stands c i h n)
    (hl : Relation.ReflTransGen (Spares i h n) c c') (hend : Stands c' i h n) :
    (c'.net.node n).settings = (c.net.node n).settings := by
  induction hl with
  | refl => rfl
  | @tail c₁ c₂ hl hspares ih =>
    have hlater : Later c c₁ := Relation.ReflTransGen.mono (fun _ _ => And.left) _ _ hl
    have hr₁ := hr.later hlater
    have hmade := Nat.lt_of_lt_of_le (hs.made hr) (nodes_later hr hlater)
    have hstands := stands_move hr₁ hspares.1 hend hmade
    refine ((meets_move hr₁ hspares.1 n).settings fun hf option hbefalls => ?_).trans (ih hstands)
    exact hspares.2 hf (hbefalls.sets option rfl i h hstands)

theorem heeds_of_stands (hs : Stands c i h n) :
    (c.bridge i).Heeds h n (c.net.node n).settings := by
  obtain ⟨a, ha, rfl⟩ := hs.server
  exact Bridge.heeds_settings (b := c.bridge i) ha

theorem heeded_of_overlaid (hr : Reachable c) (ha : (c.tables i).servers.find? h = some a)
    (ho : Overlaid c i h a config)
    (hl : Relation.ReflTransGen (Spares i h a.node) (c.perform i (.applyConfig h config)) c')
    (hend : Stands c' i h a.node) :
    (c'.bridge i).Heeds h a.node (config.overlay (c.net.node a.node).settings) := by
  have hr₁ : Reachable (c.perform i (.applyConfig h config)) :=
    hr.next (.perform i _ fun _ _ _ _ he => by cases he)
  have hstands : Stands (c.perform i (.applyConfig h config)) i h a.node := by
    rw [Stands, ho.tables]
    exact stands_of_server ha
  have hsettings : ((c.perform i (.applyConfig h config)).net.node a.node).settings =
      config.overlay (c.net.node a.node).settings := by
    rw [ho.net, Tailnet.node_configured]
  rw [← hsettings, ← settings_spared hr₁ hstands hl hend]
  exact heeds_of_stands hend

theorem find?_newServer (c : Custody) (i : Nat) (h : Handle) :
    ((c.newServer i).tables i).servers.find? h =
      if h = (c.bridge i).newServer.1 then some { node := c.net.nodes }
      else (c.tables i).servers.find? h := by
  have htables : (c.newServer i).tables i = (c.bridge i).newServer.2.toTables :=
    congrArg Bridge.toTables (bridge_newServer c i)
  rw [htables]
  exact HandleTable.find?_allocate ..

/-- A server that was just created has a node to which nothing has happened. -/
theorem overlaid_newServer (hr : Reachable c) (i : Nat) (config : Config) :
    Overlaid (c.newServer i) i (c.bridge i).newServer.1 { node := c.net.nodes } config := by
  have hnode : (c.newServer i).net.node c.net.nodes = {} := hr.unmade _ (Nat.le_refl _)
  refine overlaid_of_fresh ?_ (congrArg Tailnet.Node.phase hnode) config
  rw [find?_newServer, if_pos rfl]

section Serving
variable {w : Worker}

theorem bridge_of_tables (hw : w.tables = c.tables i) : w.bridge c.net = c.bridge i := by
  rw [Worker.bridge, hw]
  rfl

theorem answer_createServer (hw : w.tables = c.tables i) (hconfig : w.config = some config) :
    w.answer c.net .createServer = (.created (c.bridge i).newServer.1,
      { w with tables := (c.served i config .createServer).tables i },
      (c.served i config .createServer).net) := by
  have hperform := bridge_perform (c.newServer i) i (.applyConfig (c.bridge i).newServer.1 config)
  rw [bridge_newServer] at hperform
  have hcreate : w.create (w.bridge c.net) =
      ((c.bridge i).newServer.1, (c.served i config .createServer).bridge i) := by
    rw [served, hperform, Worker.create, bridge_of_tables hw, hconfig]
    rfl
  rw [Worker.answer, hcreate]
  rfl

/-- What a worker does is done on its bridge. -/
theorem answer_served (hw : w.tables = c.tables i) (hconfig : w.config = some config)
    (r : Wire.Request) :
    (w.answer c.net r).2.1.tables = (c.served i config r).tables i ∧
      (w.answer c.net r).2.2 = (c.served i config r).net := by
  have hbridge := bridge_of_tables hw
  have hperform := fun v => congrArg Bridge.toTables (bridge_perform c i v)
  cases r with
  | createServer =>
    rw [answer_createServer hw hconfig]
    exact ⟨rfl, rfl⟩
  | startServer h =>
    rw [Worker.answer, hbridge]
    exact ⟨(hperform (.start h)).symm, rfl⟩
  | up h =>
    rw [Worker.answer, hbridge]
    exact ⟨(hperform (.up h)).symm, rfl⟩
  | closeServer h =>
    rw [Worker.answer, hbridge]
    exact ⟨(hperform (.close h)).symm, rfl⟩
  | fetchErrorMessage h =>
    refine ⟨?_, rfl⟩
    change (w.fetch _ h).2.tables = _
    unfold Worker.fetch
    split <;> exact hw
  | readErrorMessage h => exact ⟨hw, rfl⟩

theorem config_answer (w : Worker) (net : Tailnet) (r : Wire.Request) :
    (w.answer net r).2.1.config = w.config := by
  cases r with
  | fetchErrorMessage h =>
    change (w.fetch _ h).2.config = _
    unfold Worker.fetch
    split <;> rfl
  | _ => rfl

theorem Serving.given (hs : Serving i config w c) : w.config = some config := by
  induction hs with
  | start => rfl
  | answer r _ _ ih => rw [config_answer, ih]
  | elsewhere _ _ _ _ ih => exact ih

theorem Serving.tables (hs : Serving i config w c) : w.tables = c.tables i := by
  induction hs with
  | start _ hnew => exact hnew.symm
  | answer r hs _ ih => exact (answer_served ih hs.given r).1
  | elsewhere _ _ hsame _ ih => exact ih.trans hsame.symm

theorem Serving.reachable (hs : Serving i config w c) : Reachable c := by
  induction hs with
  | start hr _ => exact hr
  | answer r _ hroom hr =>
    cases r with
    | createServer =>
      exact (hr.next (.newServer i (hroom rfl))).next (.perform i _ fun _ _ _ _ he => by cases he)
    | startServer h | up h | closeServer h =>
      exact hr.next (.perform i _ fun _ _ _ _ he => by cases he)
    | fetchErrorMessage h | readErrorMessage h => exact hr
  | elsewhere _ hm _ _ hr => exact hr.next hm

theorem stands_created (hr : Reachable c) (i : Nat) (config : Config) :
    Stands (c.served i config .createServer) i (c.bridge i).newServer.1 c.net.nodes := by
  rw [Stands, served, (overlaid_newServer hr i config).tables, find?_newServer, if_pos rfl]
  rfl

theorem node_created (hr : Reachable c) (i : Nat) (config : Config) :
    (c.served i config .createServer).net.node c.net.nodes =
      { settings := config.overlay {} } := by
  have hnode : (c.newServer i).net.node c.net.nodes = {} := hr.unmade _ (Nat.le_refl _)
  rw [served, (overlaid_newServer hr i config).net, Tailnet.node_configured, hnode]

theorem settings_createServer (hr : Reachable c)
    (hold : ∀ h n, Stands c i h n → (c.net.node n).settings = config.overlay {})
    (hs : Stands (c.served i config .createServer) i h n) :
    ((c.served i config .createServer).net.node n).settings = config.overlay {} := by
  have hoverlaid := overlaid_newServer hr i config
  rw [Stands, served, hoverlaid.tables, find?_newServer] at hs
  split at hs
  · obtain rfl : c.net.nodes = n := Option.some.inj hs
    rw [node_created hr]
  · have hmade : n < c.net.nodes := Stands.made hr hs
    have hnode : (c.served i config .createServer).net.node n = c.net.node n := by
      rw [served, hoverlaid.net]
      exact assign_of_ne _ _ _ (Nat.ne_of_lt hmade)
    rw [hnode]
    exact hold h n hs

/-- A server that is still there after another was closed is as it was. -/
theorem node_close (hr : Reachable c) {k : Handle}
    (hs : Stands (c.perform i (.close k)) i h n) :
    (c.perform i (.close k)).net.node n = c.net.node n := by
  cases hk : (c.tables i).servers.find? k with
  | none =>
    change ((c.bridge i).close k).2.net.node n = _
    rw [Bridge.close_none (b := c.bridge i) hk]
    rfl
  | some a =>
    obtain ⟨s, hfound, rfl⟩ := hs.server
    exact (retires_of_reachable hr hk).node s.node (alone_close hr hk hfound)

/-- No request but the one that creates a server makes settings. -/
theorem Serving.settings (hs : Serving i config w c) :
    ∀ h n, Stands c i h n → (c.net.node n).settings = config.overlay {} := by
  induction hs with
  | start _ hnew =>
    intro h n hstands
    rw [Stands, hnew] at hstands
    cases hstands
  | @answer w c r hs _ ih =>
    intro h n hstands
    have hw : (c.bridge i).net.Wired := hs.reachable.intact.wired
    have hbefore : ∀ v, Stands (c.perform i v) i h n → Stands c i h n := fun v =>
      stands_assign rfl (Bridge.nodes_perform (b := c.bridge i) hw)
    cases r with
    | createServer => exact settings_createServer hs.reachable ih hstands
    | startServer k =>
      refine ((c.bridge i).settings_perform (v := .start k) ?_ ?_ n).trans
        (ih h n (hbefore _ hstands))
      · rintro _ ⟨⟩
      · rintro _ (⟨_, ⟨⟩⟩ | ⟨_, ⟨⟩⟩)
    | up k =>
      refine ((c.bridge i).settings_perform (v := .up k) ?_ ?_ n).trans
        (ih h n (hbefore _ hstands))
      · rintro _ ⟨⟩
      · rintro _ (⟨_, ⟨⟩⟩ | ⟨_, ⟨⟩⟩)
    | closeServer k =>
      exact (congrArg Tailnet.Node.settings (node_close hs.reachable hstands)).trans
        (ih h n (hbefore _ hstands))
    | fetchErrorMessage k => exact ih h n hstands
    | readErrorMessage k => exact ih h n hstands
  | @elsewhere w c c' hs hm hsame hnone ih =>
    intro h n hstands
    rw [Stands, hsame] at hstands
    refine ((meets_move hs.reachable hm n).settings fun _ option hbefalls => ?_).trans
      (ih h n hstands)
    exact hnone h (hbefalls.sets option rfl i h hstands)

end Serving

/-- A configuration is applied as a whole or not at all. -/
theorem configuring_of_reachable (hr : Reachable c) (i : Nat) : Configuring c i where
  overlaid := fun _ _ config ha hf => overlaid_of_fresh ha hf config
  heeded := fun _ _ config ha hf _ hl hend =>
    heeded_of_overlaid hr ha (overlaid_of_fresh ha hf config) hl hend
  declined := fun _ _ _ => declined_of_error
  others := fun h config _ _ hk => others_applyConfig hr h config hk
  created := by
    refine ⟨{ node := c.net.nodes }, ?_, hr.unmade _ (Nat.le_refl _), overlaid_newServer hr i⟩
    rw [find?_newServer, if_pos rfl]
  worker := fun _ config hw hconfig =>
    ⟨_, _, answer_createServer hw hconfig, stands_created hr i config, node_created hr i config⟩
  carried := fun _ _ hserving => by
    refine ⟨hserving.tables, fun h n hstands => ?_⟩
    rw [← hserving.settings h n hstands]
    exact heeds_of_stands hstands

/-- A server that has not started, beside ones that have. -/
theorem configuring_of_paired :
    ((paired.newServer 0).bridge 0).Unstarted ⟨2752515⟩ ∧
    errorOf (((paired.newServer 0).bridge 0).applyConfig ⟨2752513⟩ { hostname := some "a" }).1 =
      some (.fatal "hostname must be set before the server starts") ∧
    Configuring (paired.newServer 0) 0 :=
  ⟨⟨⟨2, {}⟩, rfl, by decide +kernel⟩, by decide +kernel, configuring_of_reachable
    (reachable_paired.next (.newServer 0 ⟨2752515, by decide, by decide +kernel⟩)) 0⟩

end Handoff.Custody
