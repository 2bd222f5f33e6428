import Handoff.Proofs.Custody.Standing
import Handoff.Proofs.Tailnet.Readmitting

/-!
Nodes that share directories: a node that comes up leaves a file, by which later ones need no key.
Main statement: whether a file is at a place is decided by what was there at first and by which
nodes came up, and by nothing else that anybody is asked.
-/

namespace Handoff

theorem Verb.Asks.up {v : Verb} (h : v.Asks .up) : ∃ server, v = .up server := by
  cases v with
  | up server => exact ⟨server, rfl⟩
  | applyConfig =>
    obtain ⟨_, -, he⟩ := h
    cases he
  | _ => cases h

/-- A configuration names no log. -/
theorem Verb.Asks.log {v : Verb} {path : Option String} (h : v.Asks (.configure (.logFile path))) :
    ∃ server, v = .configure server (.logFile path) := by
  cases v with
  | configure server option =>
    cases h
    exact ⟨server, rfl⟩
  | applyConfig server config =>
    obtain ⟨_, ho, he⟩ := h
    cases he
    simp [Config.options] at ho
  | _ => cases h

namespace Custody
open Tailnet (Untouched indifferent_untouched Settings)
variable {p : Place} {files₀ : Files} {ns : List NodeId} {c c' : Custody} {i : Nat}
  {h k : Handle} {n : NodeId}

inductive CameUp (c c' : Custody) (n : NodeId) : Prop where
  | byHandle (i : Nat) (h : Handle) : Stands c i h n → ((c.bridge i).up h).1 = .ok () →
    c' = c.perform i (.up h) → CameUp c c' n
  | byNode : (c.net.up n).1 = .ok () → c' = c.use n .up → CameUp c c' n

/-- A run in which nobody else changes what is at the place `p` or takes a directory away, and the
nodes that came up in it, the last one first. -/
inductive Logins (p : Place) (files₀ : Files) : List NodeId → Custody → Prop where
  | begin (suffix : String) (supply : Tailnet.Supply) (loopbackUp : Bool) :
    Logins p files₀ [] { net := { suffix, supply, loopbackUp, files := files₀ } }
  | idle {ns : List NodeId} {c c' : Custody} : Logins p files₀ ns c → Move c c' →
    c'.net.Aloof p →
    (∀ files, c' = { c with net := { c.net with files } } → c.net.files.Spares p files) →
    (∀ n, ¬ CameUp c c' n) → Logins p files₀ ns c'
  | login {ns : List NodeId} {c c' : Custody} (n : NodeId) : Logins p files₀ ns c → Move c c' →
    c'.net.Aloof p → CameUp c c' n → Logins p files₀ (n :: ns) c'

theorem Logins.reachable (h : Logins p files₀ ns c) : Reachable c := by
  induction h with
  | begin suffix supply loopbackUp => exact .start suffix supply loopbackUp files₀
  | idle _ hm _ _ _ ih => exact ih.next hm
  | login _ _ hm _ _ ih => exact ih.next hm

theorem Logins.aloof (h : Logins p files₀ ns c) : c.net.Aloof p := by
  cases h with
  | begin => exact fun _ _ hlog => by cases hlog
  | idle _ _ haloof => exact haloof
  | login _ _ _ haloof => exact haloof

/-- Bringing up a server brings up its node. -/
theorem bringsUp {a : Server} (ha : (c.tables i).servers.find? h = some a) :
    (((c.bridge i).up h).1 = .ok () ↔ (c.net.up a.node).1 = .ok ()) ∧
      (c.perform i (.up h)).net = (c.net.up a.node).2 := by
  have hup : (c.bridge i).up h = (c.bridge i).tell h (c.net.up a.node) :=
    Bridge.withNode_tell (b := c.bridge i) ha Network.up Tailnet.up fun _ _ => rfl
  refine ⟨by rw [hup, Bridge.tell_ok_iff], ?_⟩
  change ((c.bridge i).up h).2.net = _
  rw [hup, Bridge.net_tell]

theorem CameUp.net (hc : CameUp c c' n) :
    (c.net.up n).1 = .ok () ∧ c'.net = (c.net.up n).2 := by
  cases hc with
  | byHandle i h hs hok he =>
    subst he
    obtain ⟨a, ha, rfl⟩ := hs.server
    exact ⟨(bringsUp ha).1.mp hok, (bringsUp ha).2⟩
  | byNode hok he =>
    subst he
    exact ⟨hok, net_use .up⟩

section Keeping
variable (haloof : c.net.Aloof p) (haloof' : c'.net.Aloof p)

/-- What is there is kept by all that is done by handle but bringing up servers and handing logs to
them. -/
theorem untouched_asking (b : Bridge Tailnet) {v : Verb} (hup : ∀ server, v ≠ .up server)
    (hlog : ∀ server path, v ≠ .configure server (.logFile path)) (haloof : b.net.Aloof p) :
    Untouched p b.net (b.perform v).2.net := by
  have hR : Tailnet.Indifferent fun t u => t.Aloof p → Untouched p t u := {
    refl := fun t _ => .refl p t
    trans := fun h h' ha => (h ha).trans (h' ((h ha).aloof ha))
    streams := fun t s hs _ => (indifferent_untouched p).streams t s hs
    backlog := fun t l backlog _ => (indifferent_untouched p).backlog t l backlog
    close := fun t l _ => Tailnet.untouched_closeListener t l
    release := fun t l _ => Tailnet.untouched_releaseListener t l }
  refine Bridge.within_perform hR b v (fun nv hasks t n ha => ?_)
    (fun t n _ => Tailnet.untouched_releaseNode t n) haloof
  refine Tailnet.untouched_ask ha ?_ (fun path => ?_) n
  · rintro rfl
    obtain ⟨server, he⟩ := hasks.up
    exact hup server he
  · rintro rfl
    obtain ⟨server, he⟩ := hasks.log
    exact hlog server path he

include haloof'

/-- A log that is handed over is written to only later. -/
theorem untouched_handLog {path : Option String}
    (hnet : c'.net = (c.net.configure n (.logFile path)).2) : Untouched p c.net c'.net := by
  refine ⟨?_, fun m hm => ?_, fun _ => haloof'⟩
  · rw [hnet]
    unfold Tailnet.configure
    split <;> exact .refl p c.net.files
  · rw [hnet] at hm
    unfold Tailnet.configure at hm
    split at hm
    · rw [Tailnet.node_setNode] at hm
      split at hm
      · subst m
        exact hm
      · exact hm
    · exact hm

include haloof

theorem untouched_perform (v : Verb) (hc' : c' = c.perform i v) (hidle : ∀ n, ¬ CameUp c c' n) :
    Untouched p c.net c'.net := by
  by_cases hup : ∃ server, v = .up server
  · obtain ⟨server, rfl⟩ := hup
    subst hc'
    cases hs : (c.tables i).servers.find? server with
    | none =>
      have hdead : (c.perform i (.up server)).net = c.net :=
        congrArg (fun r => r.2.net) (Traffic.withNode_dead (b := c.bridge i) hs Network.up)
      rw [hdead]
      exact .refl p c.net
    | some a =>
      obtain ⟨hok, hnet⟩ := bringsUp hs
      rw [hnet]
      refine (Tailnet.up_cases haloof a.node).elim And.left fun hin => ?_
      exact absurd (.byHandle i server (stands_of_server hs) (hok.mpr hin.1) rfl) (hidle a.node)
  · by_cases hlog : ∃ server path, v = .configure server (.logFile path)
    · obtain ⟨server, path, rfl⟩ := hlog
      subst hc'
      rcases Traffic.withNode_worded (c.bridge i) server
        (fun n => Network.configure n (.logFile path)) (fun n t => t.configure n (.logFile path))
        (fun _ _ => rfl) with ⟨e, he⟩ | ⟨s, -, ⟨f, -, he⟩ | ⟨a, -, he⟩⟩
      · have hdead : (c.perform i (.configure server (.logFile path))).net = c.net :=
          congrArg (fun r : Outcome Tailnet Unit => r.2.net) he
        rw [hdead]
        exact .refl p c.net
      · exact untouched_handLog haloof' (congrArg (fun r : Outcome Tailnet Unit => r.2.net) he)
      · exact untouched_handLog haloof' (congrArg (fun r : Outcome Tailnet Unit => r.2.net) he)
    · subst hc'
      exact untouched_asking (c.bridge i) (fun server he => hup ⟨server, he⟩)
        (fun server path he => hlog ⟨server, path, he⟩) haloof

theorem untouched_use {n : NodeId} (u : NodeUse) (hc' : c' = c.use n u)
    (hidle : ∀ n, ¬ CameUp c c' n) : Untouched p c.net c'.net := by
  have hnet := (congrArg (fun c : Custody => c.net) hc').trans (net_use u)
  have hask : ∀ nv : Tailnet.NodeVerb, nv ≠ .up → (∀ path, nv ≠ .configure (.logFile path)) →
      c'.net = (c.net.ask n nv).2 → Untouched p c.net c'.net := fun nv hup hlog he =>
    he ▸ Tailnet.untouched_ask haloof hup hlog n
  cases u with
  | configure option =>
    by_cases hlog : ∃ path, option = .logFile path
    · obtain ⟨path, rfl⟩ := hlog
      exact untouched_handLog haloof' hnet
    · refine hask (.configure option) nofun (fun path he => ?_) hnet
      exact hlog ⟨path, Tailnet.NodeVerb.configure.inj he⟩
  | up =>
    rw [hnet]
    refine (Tailnet.up_cases haloof n).elim And.left fun hin => ?_
    exact absurd (.byNode hin.1 hc') (hidle n)
  | start => exact hask .start nofun nofun hnet
  | loopback => exact hask .loopback nofun nofun hnet
  | close => exact hask .close nofun nofun hnet
  | listen network address funnel => exact hask (.listen network address funnel) nofun nofun hnet
  | dial network address => exact hask (.dial network address) nofun nofun hnet

/-- A move by which no node comes up, and that is nobody else's, leaves the file as it is. -/
theorem untouched_move (hm : Move c c')
    (hfiles : ∀ files, c' = { c with net := { c.net with files } } → c.net.files.Spares p files)
    (hidle : ∀ n, ¬ CameUp c c' n) : Untouched p c.net c'.net := by
  have hR := indifferent_untouched p
  generalize he : c' = d at hm
  cases hm with
  | newServer i _ => exact Tailnet.untouched_of_eq rfl rfl
  | perform i v _ => exact he ▸ untouched_perform haloof haloof' v he hidle
  | resume w _ =>
    rw [net_resume]
    exact Bridge.within_takes hR (takes_resumed c w)
  | pump i k _ =>
    unfold Traffic.pump
    dsimp only
    split
    · rename_i f net hs
      exact hR.advance (Feed.advance_of_step hs)
    · exact .refl p c.net
  | dropBridge i _ => exact Bridge.within_drop hR Tailnet.untouched_releaseNode (c.bridge i)
  | newNode => exact Tailnet.untouched_of_eq rfl rfl
  | use n u _ _ => exact he ▸ untouched_use haloof haloof' u he hidle
  | closeListener l => exact Tailnet.untouched_closeListener c.net l
  | useFiles files => exact Tailnet.untouched_of_node (hfiles files he) rfl
  | useStream d u _ => exact Tailnet.untouched_of_eq rfl rfl
  | release d _ => exact Tailnet.untouched_of_eq rfl rfl

end Keeping

structure Tracks (p : Place) (files₀ : Files) (ns : List NodeId) (c : Custody) : Prop where
  online : ∀ n, (c.net.node n).online = true → n ∈ ns
  begun : ∀ n ∈ ns, (c.net.node n).phase ≠ .fresh
  place : ∀ n ∈ ns, (c.net.node n).settings.HasPlace c.net.files
  file : c.net.files.HoldsFile p ↔
    files₀.HoldsFile p ∨ ∃ n ∈ ns, (c.net.node n).settings.Leaves c.net.files p

/-- A node that has started keeps its settings, and does not start again. -/
theorem begun_move (hr : Reachable c) (hm : Move c c') (hn : (c.net.node n).phase ≠ .fresh) :
    (c'.net.node n).phase ≠ .fresh ∧ (c'.net.node n).settings = (c.net.node n).settings := by
  have hmeets := meets_move hr hm n
  refine ⟨fun hf => ?_, hmeets.settings fun hf => absurd hf hn⟩
  have hleads := hmeets.leads
  rw [hf] at hleads
  exact hn hleads.fresh

section Tracking
variable (hr : Reachable c) (hm : Move c c') (ht : Tracks p files₀ ns c)
include hr hm ht

theorem Tracks.untouched (hu : Untouched p c.net c'.net) : Tracks p files₀ ns c' := by
  have hsettings : ∀ n ∈ ns, (c'.net.node n).settings = (c.net.node n).settings :=
    fun n hn => (begun_move hr hm (ht.begun n hn)).2
  refine ⟨fun n ho => ht.online n (hu.online n ho),
    fun n hn => (begun_move hr hm (ht.begun n hn)).1, fun n hn he path hpath => ?_, ?_⟩
  · rw [hsettings n hn] at he hpath
    exact (ht.place n hn).kept hu.files.directories he path hpath
  · rw [hu.files.file, ht.file]
    refine or_congr_right (exists_congr fun n => and_congr_right fun hn => ?_)
    rw [hsettings n hn, (ht.place n hn).leaves_iff hu.files.directories]

/-- The node that comes up leaves a file, or none; the others have left theirs. -/
theorem Tracks.logsIn (hin : Tailnet.LogsIn p n c.net c'.net) : Tracks p files₀ (n :: ns) c' := by
  have hkept := fun m hm' => begun_move hr hm (ht.begun m hm')
  have hd := hin.files.directories
  refine ⟨fun m ho => ?_, fun m hm' => ?_, fun m hm' => ?_, ?_⟩
  · by_cases hmn : m = n
    · exact hmn ▸ List.mem_cons_self ..
    · exact List.mem_cons_of_mem _ (ht.online m (hin.online m hmn ho))
  · obtain rfl | hm' := List.mem_cons.mp hm'
    · rw [show (c'.net.node m).phase = .running from hin.runs]
      exact nofun
    · exact (hkept m hm').1
  · obtain rfl | hm' := List.mem_cons.mp hm'
    · rw [hin.settings]
      exact hin.files.place
    · rw [(hkept m hm').2]
      exact (ht.place m hm').kept hd
  · have hothers : (∃ m ∈ ns, (c'.net.node m).settings.Leaves c'.net.files p) ↔
        ∃ m ∈ ns, (c.net.node m).settings.Leaves c.net.files p := by
      refine exists_congr fun m => and_congr_right fun hm' => ?_
      rw [(hkept m hm').2, (ht.place m hm').leaves_iff hd]
    rw [hin.files.file, ht.file]
    simp only [List.mem_cons, exists_eq_or_imp, hin.settings, hothers]
    rw [or_assoc, or_comm (b := (c.net.node n).settings.Leaves c'.net.files p)]

end Tracking

/-- A node that is online and is brought up again is counted twice, which says no more. -/
theorem Tracks.again (ht : Tracks p files₀ ns c) (hn : n ∈ ns) : Tracks p files₀ (n :: ns) c := by
  have hmem : ∀ m, m ∈ n :: ns ↔ m ∈ ns := fun m =>
    ⟨fun h => (List.mem_cons.mp h).elim (· ▸ hn) id, List.mem_cons_of_mem n⟩
  refine ⟨fun m ho => (hmem m).mpr (ht.online m ho), fun m hm => ht.begun m ((hmem m).mp hm),
    fun m hm => ht.place m ((hmem m).mp hm), ht.file.trans (or_congr_right ?_)⟩
  exact exists_congr fun m => and_congr_left' (hmem m).symm

theorem Logins.tracks (h : Logins p files₀ ns c) : Tracks p files₀ ns c := by
  induction h with
  | begin suffix supply loopbackUp =>
    refine ⟨nofun, nofun, nofun, (or_iff_left ?_).symm⟩
    rintro ⟨n, hn, -⟩
    cases hn
  | idle h hm haloof hfiles hidle ih =>
    exact ih.untouched h.reachable hm (untouched_move h.aloof haloof hm hfiles hidle)
  | @login ns c c' n h hm haloof hcame ih =>
    obtain ⟨hok, hnet⟩ := hcame.net
    rcases Tailnet.up_cases h.aloof n with ⟨huntouched, honline⟩ | ⟨-, hin⟩
    · rw [← hnet] at huntouched
      exact (ih.untouched h.reachable hm huntouched).again (ih.online n (honline hok))
    · rw [← hnet] at hin
      exact ih.logsIn h.reachable hm hin

theorem Reachable.steady (hr : Reachable c) (n : NodeId) : (c.net.node n).Steady := by
  induction hr with
  | start => exact nofun
  | next hr hm ih => exact (meets_move hr hm n).steady ih

/-- Who is admitted, and what is left at the place `p` for later nodes, after a run that began with
the files `files₀` and in which the nodes `ns` came up. -/
structure Admission (p : Place) (files₀ : Files) (ns : List NodeId) (c : Custody) : Prop where
  /-- A file is there if there was one at first, or a node that came up left it there. -/
  file : c.net.files.HoldsFile p ↔
    files₀.HoldsFile p ∨ ∃ n ∈ ns, (c.net.node n).settings.Leaves c.net.files p
  /-- A node that runs or can be started is admitted if it is online, has a key, or finds the file.
  One that leaves no file of its own is admitted by a directory of that name as well. -/
  admitted : ∀ n, (c.net.start n).1 = .ok () → (c.net.start n).2.CanSave n →
    ((c.net.up n).1 = .ok () ↔ (c.net.node n).online = true ∨
      (c.net.node n).settings.authkey ≠ none ∨ (c.net.start n).2.HasState n ∨
        (c.net.node n).settings.ephemeral = true ∧ (c.net.start n).2.HasNamesake n)
  /-- Starting a node makes no file and takes none away. -/
  started : ∀ n, c.net.files.Spares p (c.net.start n).2.files
  running : ∀ n, c.net.Runs n → c.net.start n = (.ok (), c.net)
  online : ∀ n, (c.net.up n).1 = .ok () → ((c.net.up n).2.node n).online = true
  /-- A node that is refused has started, and nothing else has happened. -/
  refused : ∀ n f, (c.net.start n).1 = .ok () → (c.net.up n).1 = .error f →
    (c.net.up n).2 = (c.net.start n).2 ∧ (c.net.start n).2.Runs n ∧
      ((c.net.start n).2.node n).online = false
  again : ∀ n, (c.net.node n).online = true → c.net.up n = (.ok (), c.net)
  ephemeral : ∀ n, (c.net.node n).settings.ephemeral = true →
    c.net.files.Spares p (c.net.up n).2.files
  /-- A server is brought up as its node is. -/
  byHandle : ∀ i h a, (c.tables i).servers.find? h = some a →
    (((c.bridge i).up h).1 = .ok () ↔ (c.net.up a.node).1 = .ok ()) ∧
      (c.perform i (.up h)).net = (c.net.up a.node).2

/-- Starting a node changes neither its settings nor whether it is online. -/
theorem start_keeps (t : Tailnet) (n : NodeId) :
    ((t.start n).2.node n).settings = (t.node n).settings ∧
      ((t.start n).2.node n).online = (t.node n).online := by
  obtain ⟨_, _, hnode⟩ := Tailnet.node_start t n
  rw [hnode]
  exact ⟨rfl, rfl⟩

/-- Nodes are admitted by what earlier ones left in their directory, and nothing else puts a file
there. -/
theorem admission_of_logins (h : Logins p files₀ ns c) : Admission p files₀ ns c where
  file := h.tracks.file
  admitted := fun n hs hsave => by
    have hup := Tailnet.up_ok_iff hs hsave
    rwa [(start_keeps c.net n).1, (start_keeps c.net n).2] at hup
  started := fun n => (Tailnet.untouched_start h.aloof n).files
  running := fun _ hr => Tailnet.start_running hr
  online := fun _ => Tailnet.online_up
  refused := fun _ _ => Tailnet.up_refused
  again := fun n ho => Tailnet.up_again (h.reachable.steady n ho) ho
  ephemeral := fun n he => Tailnet.spares_up h.aloof he
  byHandle := fun _ _ _ ha => bringsUp ha

/-- While no node is online, whatever else happens makes none come up. -/
theorem Logins.quiet (h : Logins p files₀ ns c) (hoff : ∀ n, (c.net.node n).online = false)
    (hm : Move c c') (hu : Untouched p c.net c'.net) :
    Logins p files₀ ns c' ∧ ∀ n, (c'.net.node n).online = false := by
  have hoff' : ∀ n, (c'.net.node n).online = false := by
    intro n
    rw [← Bool.not_eq_true]
    intro ho
    cases (hoff n).symm.trans (hu.online n ho)
  refine ⟨h.idle hm (hu.aloof h.aloof) (fun files he => ?_) fun n hcame => ?_, hoff'⟩
  · have hfiles : c'.net.files = files := congrArg (fun c : Custody => c.net.files) he
    exact hfiles ▸ hu.files
  · obtain ⟨hok, hnet⟩ := hcame.net
    have ho := Tailnet.online_up hok
    rw [← hnet, hoff' n] at ho
    cases ho

theorem Logins.newServer (h : Logins p files₀ ns c) (hoff : ∀ n, (c.net.node n).online = false)
    {i : Nat} (hroom : (c.tables i).servers.HasRoom) :
    Logins p files₀ ns (c.newServer i) ∧ ∀ n, ((c.newServer i).net.node n).online = false :=
  h.quiet hoff (.newServer i hroom) (Tailnet.untouched_of_eq rfl rfl)

theorem Logins.configure (h : Logins p files₀ ns c) (hoff : ∀ n, (c.net.node n).online = false)
    (i : Nat) (server : Handle) (option : NodeOption) (hlog : ∀ path, option ≠ .logFile path) :
    Logins p files₀ ns (c.perform i (.configure server option)) ∧
      ∀ n, ((c.perform i (.configure server option)).net.node n).online = false := by
  refine h.quiet hoff (.perform i _ fun _ _ _ _ he => by cases he) ?_
  refine untouched_asking (c.bridge i) (v := .configure server option) (fun _ he => by cases he)
    (fun _ path he => ?_) h.aloof
  exact hlog path (by cases he; rfl)

theorem Logins.start (h : Logins p files₀ ns c) (hoff : ∀ n, (c.net.node n).online = false)
    (i : Nat) (server : Handle) : Logins p files₀ ns (c.perform i (.start server)) ∧
      ∀ n, ((c.perform i (.start server)).net.node n).online = false := by
  refine h.quiet hoff (.perform i _ fun _ _ _ _ he => by cases he) ?_
  exact untouched_asking (c.bridge i) (v := .start server) (fun _ he => by cases he)
    (fun _ _ he => by cases he) h.aloof

theorem Logins.up (h : Logins p files₀ ns c) (hs : Stands c i k n)
    (hok : ((c.bridge i).up k).1 = .ok ()) :
    Logins p files₀ (n :: ns) (c.perform i (.up k)) := by
  refine h.login n (.perform i _ fun _ _ _ _ he => by cases he) ?_ (.byHandle i k hs hok rfl)
  obtain ⟨a, ha, -⟩ := hs.server
  rw [(bringsUp ha).2]
  exact Tailnet.aloof_up h.aloof a.node

def housemates : Custody :=
  let c := (newServer { net := {} } 0).newServer 0
  let c := c.perform 0 (.configure ⟨2752513⟩ (.dir "/tmp/a"))
  let c := c.perform 0 (.configure ⟨2752513⟩ (.authkey "k"))
  c.perform 0 (.configure ⟨2752514⟩ (.dir "/tmp/a"))

def settled : Custody :=
  (housemates.perform 0 (.up ⟨2752513⟩)).perform 0 (.up ⟨2752514⟩)

def sharedState : Place := ["tmp", "a", "tailscaled.state"]

theorem logins_begin : Logins p .root [] ((newServer { net := {} } 0).newServer 0) ∧
    ∀ n, ((((newServer { net := {} } 0).newServer 0)).net.node n).online = false := by
  have hbegin : Logins p .root [] { net := {} } := .begin "bridge.ts.net" .standard true
  obtain ⟨hone, hoff⟩ :=
    hbegin.newServer (fun _ => rfl) (i := 0) ⟨2752513, by decide, by decide +kernel⟩
  exact hone.newServer hoff (i := 0) ⟨2752514, by decide, by decide +kernel⟩

theorem logins_settled : Logins sharedState .root [1, 0] settled := by
  obtain ⟨hbegin, hoff⟩ := logins_begin (p := sharedState)
  obtain ⟨hdir, hoff⟩ := hbegin.configure hoff 0 ⟨2752513⟩ (.dir "/tmp/a") nofun
  obtain ⟨hkey, hoff⟩ := hdir.configure hoff 0 ⟨2752513⟩ (.authkey "k") nofun
  obtain ⟨hshared, -⟩ := hkey.configure hoff 0 ⟨2752514⟩ (.dir "/tmp/a") nofun
  have hfirst := hshared.up (i := 0) (k := ⟨2752513⟩) (n := 0) (by rw [Stands]; decide +kernel)
    (by decide +kernel)
  exact hfirst.up (i := 0) (k := ⟨2752514⟩) (n := 1) (by rw [Stands]; decide +kernel)
    (by decide +kernel)

theorem admission_of_settled : Files.root.entry sharedState = none ∧
    (settled.net.files.entry sharedState).isSome = true ∧
    (settled.net.node 1).settings.authkey = none ∧ (settled.net.node 1).online = true ∧
    Admission sharedState .root [1, 0] settled :=
  ⟨by decide +kernel, by decide +kernel, by decide +kernel, by decide +kernel,
    admission_of_logins logins_settled⟩

/-- The directory of one server is where another, which has no key, would find its state. -/
def misled : Custody :=
  let c := (newServer { net := {} } 0).newServer 0
  let c := c.perform 0 (.configure ⟨2752513⟩ (.dir "/tmp/a/tailscaled.state"))
  let c := c.perform 0 (.start ⟨2752513⟩)
  let c := c.perform 0 (.configure ⟨2752514⟩ (.dir "/tmp/a"))
  c.perform 0 (.configure ⟨2752514⟩ (.ephemeral true))

theorem logins_misled : Logins sharedState .root [] misled := by
  obtain ⟨hbegin, hoff⟩ := logins_begin (p := sharedState)
  obtain ⟨hdir, hoff⟩ :=
    hbegin.configure hoff 0 ⟨2752513⟩ (.dir "/tmp/a/tailscaled.state") nofun
  obtain ⟨hstart, hoff⟩ := hdir.start hoff 0 ⟨2752513⟩
  obtain ⟨hother, hoff⟩ := hstart.configure hoff 0 ⟨2752514⟩ (.dir "/tmp/a") nofun
  exact (hother.configure hoff 0 ⟨2752514⟩ (.ephemeral true) nofun).1

/-- A directory is taken for the state that a node has left. -/
theorem admitted_by_namesake : Logins sharedState .root [] misled ∧
    (misled.net.start 1).1 = .ok () ∧ (misled.net.start 1).2.CanSave 1 ∧
    ¬ ((misled.net.up 1).1 = .ok () ↔ (misled.net.node 1).online = true ∨
      (misled.net.node 1).settings.authkey ≠ none ∨ (misled.net.start 1).2.HasState 1) := by
  have hstate : ¬ (misled.net.start 1).2.HasState 1 := by
    rintro ⟨path, p, hpath, hp, hfile⟩
    have hthere : ((misled.net.start 1).2.node 1).settings.stateFile =
        some "/tmp/a/tailscaled.state" := by decide +kernel
    obtain rfl := Option.some.inj (hthere.symm.trans hpath)
    have hplace : (misled.net.start 1).2.files.locate "/tmp/a/tailscaled.state" =
        .ok sharedState := by decide +kernel
    obtain rfl := Except.ok.inj (hplace.symm.trans hp)
    exact Files.not_holdsFile_of_directory (by decide +kernel) hfile
  have hup : (misled.net.up 1).1 = .ok () := by decide +kernel
  refine ⟨logins_misled, by decide +kernel,
    Tailnet.canSave_of_ephemeral (by decide +kernel), fun hclaim => ?_⟩
  rcases hclaim.mp hup with ho | hkey | hfound
  · exact absurd ho (by decide +kernel)
  · exact hkey (by decide +kernel)
  · exact hstate hfound

end Custody
end Handoff
