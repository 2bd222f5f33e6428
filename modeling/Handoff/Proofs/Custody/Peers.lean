import Handoff.Proofs.Bridge.LastError
import Handoff.Proofs.Custody.Origin
import Handoff.Proofs.Custody.Standing

namespace Handoff.Custody
variable {c c₀ c₁ : Custody} {n : NodeId} {network address : String} {id : StreamId}

/-- Who is at the other end of the connections that bridges have accepted. -/
structure Identifies (c : Custody) : Prop where
  /-- The peer is the node that dialed, by its address of the family of the one it dialed. A name
  means an address of four octets. -/
  told : ∀ c₀ c₁ n network address id, Reachable c₀ → Dials c₀ n network address id c₁ →
    Later c₁ c → (c.net.node n).phase ≠ .closed →
    ∃ target ip, (c₀.net.start n).2.registry.Targets address target ∧
      (c.net.node n).addressLike target.ip = some ip ∧
      ∀ i l k, Received c i l k id → ∀ capacity,
        (∀ text, ((c.bridge i).remoteAddress l k capacity).1 = .ok text → text = ip.name) ∧
        ((c.tables i).listeners.contains l = true → c.net.streams.isOver ⟨id, .far⟩ = false →
          ensureFits ip.name capacity = .ok () →
          ((c.bridge i).remoteAddress l k capacity).1 = .ok ip.name)
  refused : ∀ i l e k, (c.tables i).listeners.find? l = some e →
    (c.tables i).conns.contains k = true → ¬ AcceptedBy i l k c → ∀ capacity,
    ((c.bridge i).remoteAddress l k capacity).1 =
      .error (.fatal s!"conn {k} was not accepted by listener {l}") ∧
    ((c.bridge i).remoteAddress l k capacity).2.recordOf e.server =
      some s!"conn {k} was not accepted by listener {l}"

/-- A connection is known by the node that dialed it for as long as that node lasts, whatever others
do. Nodes are numbered with 32 bits, and no dialer gets the loopback address of another. -/
theorem identifies_of_reachable (hr : Reachable c) (hlast : c.net.registry.lastHost < 2 ^ 32)
    (hd : Distinct c) : Identifies c where
  told := fun c₀ c₁ n network address id hr₀ hdial hl hopen => by
    obtain ⟨target, ip, htarget, ho⟩ := origin_of_dials hr₀ hdial hl hd hlast
    have hshown : c.net.shown n ip = ip := if_neg hopen
    refine ⟨target, ip, htarget, ho.like, fun i l k h capacity => ⟨fun text ht => ?_, ?_⟩⟩
    · rw [text_of_received hr ho h ht, hshown]
    · intro hlive hthere hfits
      rw [remoteAddress_received hr ho h, hlive, hthere, hshown, hfits]
      rfl
  refused := fun i l e k hl hk hnot capacity => by
    obtain ⟨x, hx⟩ := Option.isSome_iff_exists.mp hk
    have hother : x.listener ≠ some l := fun h => hnot ((acceptedBy_iff hr hx).mpr h)
    obtain ⟨s, hserver, -⟩ := (hr.housed.lodged i).homes l e hl
    rw [Bridge.remoteAddress_refused (b := c.bridge i) hl hx hother]
    refine ⟨rfl, ?_⟩
    rw [Bridge.recordOf_record, if_pos rfl, Tables.recordOf]
    exact congrArg (Option.map _) (congrArg (Option.map _) hserver)

instance (c : Custody) : Decidable c.Distinct :=
  inferInstanceAs (Decidable (∀ id ∈ _, ∀ id' ∈ _, _ → _))

def offering : Custody :=
  let c := (newServer { net := {} } 0).newServer 0
  let c := c.perform 0 (.configure ⟨2752513⟩ (.hostname "db"))
  c.perform 0 (.listen ⟨2752513⟩ "tcp" ":80" none)

def calling : Custody :=
  offering.perform 0 (.dial ⟨2752514⟩ "tcp" "db:80")

def pumped (c : Custody) (n : Nat) : Custody :=
  { c with toTraffic := n.repeat (fun s => s.pump 0 0) c.toTraffic }

def greeted : Custody :=
  let c := calling.perform 0 (.dial ⟨2752514⟩ "tcp" "[fd7a:115c:a1e0::1]:80")
  let c := (c.pumped 8).perform 0 (.acceptNonblocking ⟨2818049⟩)
  c.perform 0 (.acceptNonblocking ⟨2818049⟩)

theorem reachable_offering : Reachable offering := by
  have hfirst : Reachable (newServer { net := {} } 0) :=
    .next (.start "bridge.ts.net" .standard true .root)
      (.newServer 0 ⟨2752513, by decide, by decide +kernel⟩)
  have hservers := hfirst.next (.newServer 0 ⟨2752514, by decide, by decide +kernel⟩)
  have hnamed := hservers.next
    (.perform 0 (.configure ⟨2752513⟩ (.hostname "db")) fun _ _ _ _ he => by cases he)
  exact hnamed.next (.perform 0 (.listen ⟨2752513⟩ "tcp" ":80" none)
    fun _ _ _ _ _ => ⟨2818049, by decide, by decide +kernel⟩)

theorem dials_calling : Dials offering 1 "tcp" "db:80" 0 calling := by
  obtain ⟨a, ha⟩ : ∃ a, (offering.tables 0).servers.find? ⟨2752514⟩ = some a :=
    Option.isSome_iff_exists.mp (by decide +kernel)
  have hnode : ((offering.tables 0).servers.find? ⟨2752514⟩).map Server.node = some 1 := by
    decide +kernel
  rw [ha] at hnode
  exact .byHandle 0 ⟨2752514⟩ a ha (Option.some.inj hnode) (by decide +kernel)

theorem feeds_pump (s : Traffic) (i k : Nat) : ((s.pump i k).tables i).feeds =
    (s.tables i).feeds := by
  unfold Traffic.pump
  split
  · rename_i f net _
    change (assign s.tables i (Bridge.setFeed { s.bridge i with net } k f).toTables i).feeds = _
    rw [assign_same]
    rfl
  · rfl

theorem later_pumped (hk : 0 < (c.tables 0).feeds) (n : Nat) :
    Later c (c.pumped n) ∧ 0 < ((c.pumped n).tables 0).feeds := by
  induction n with
  | zero => exact ⟨.refl, hk⟩
  | succ n ih =>
    obtain ⟨hlater, hfeeds⟩ := ih
    refine ⟨hlater.tail (.pump 0 0 hfeeds), ?_⟩
    change 0 < (((c.pumped n).toTraffic.pump 0 0).tables 0).feeds
    rwa [feeds_pump]

theorem later_greeted : Later calling greeted := by
  have hagain : Later calling
      (calling.perform 0 (.dial ⟨2752514⟩ "tcp" "[fd7a:115c:a1e0::1]:80")) :=
    .single (.perform 0 _ fun _ _ _ _ he => by cases he)
  have hpumps := hagain.trans (later_pumped (by decide +kernel) 8).1
  have haccepts := hpumps.tail
    (.perform 0 (.acceptNonblocking ⟨2818049⟩) fun _ _ _ _ he => by cases he)
  exact haccepts.tail (.perform 0 (.acceptNonblocking ⟨2818049⟩) fun _ _ _ _ he => by cases he)

theorem reachable_greeted : Reachable greeted :=
  (reachable_offering.next dials_calling.move).later later_greeted

theorem identifies_of_greeted :
    ((greeted.bridge 0).remoteAddress ⟨2818049⟩ ⟨2883587⟩ 64).1.toOption = some "100.64.0.2" ∧
      ((greeted.bridge 0).remoteAddress ⟨2818049⟩ ⟨2883588⟩ 64).1.toOption =
        some "fd7a:115c:a1e0::2" ∧ Identifies greeted :=
  ⟨by decide +kernel, by decide +kernel,
    identifies_of_reachable reachable_greeted (by decide +kernel) (by decide +kernel)⟩

/-- The peer of a connection is told by a tailnet address until the node that dialed it ends. From
then on it is told by the address under which the machine reaches itself. -/
theorem told_until_closed (hr : Reachable c₀) (hdial : Dials c₀ n network address id c₁)
    (hl : Later c₁ c) (hlast : c.net.registry.lastHost < 2 ^ 32) (hd : Distinct c) :
    ∃ target ip, (c₀.net.start n).2.registry.Targets address target ∧
      (c.net.node n).addressLike target.ip = some ip ∧
      ∀ i l k, Received c i l k id → ∀ capacity text,
        ((c.bridge i).remoteAddress l k capacity).1 = .ok text →
        text = if (c.net.node n).phase = .closed then "127.0.0.1" else ip.name := by
  obtain ⟨target, ip, htarget, ho⟩ := origin_of_dials hr hdial hl hd hlast
  refine ⟨target, ip, htarget, ho.like, fun i l k h capacity text ht => ?_⟩
  have hreached := (hr.next hdial.move).later hl
  rw [text_of_received hreached ho h ht, Tailnet.shown]
  split <;> rfl

/-- The server that dialed is closed, and its connections are still there. -/
def bereft : Custody :=
  greeted.perform 0 (.close ⟨2752514⟩)

theorem later_bereft : Later calling bereft :=
  later_greeted.tail (.perform 0 (.close ⟨2752514⟩) fun _ _ _ _ he => by cases he)

theorem told_until_closed_bereft :
    ∃ target ip, (offering.net.start 1).2.registry.Targets "db:80" target ∧
      (bereft.net.node 1).addressLike target.ip = some ip ∧
      ∀ i l k, Received bereft i l k 0 → ∀ capacity text,
        ((bereft.bridge i).remoteAddress l k capacity).1 = .ok text →
        text = if (bereft.net.node 1).phase = .closed then "127.0.0.1" else ip.name :=
  told_until_closed reachable_offering dials_calling later_bereft (by decide +kernel)
    (by decide +kernel)

/-- The node `n` is in the middle of a dial: it has the connection `id` to `target`, and has not
noted yet where that comes from. Others go on meanwhile; whoever asks the node itself waits until
the dial is over. -/
inductive Dialing (n : NodeId) (network address : String) (target : Endpoint) (id : StreamId) :
    Custody → Prop where
  | connected {c : Custody} {net : Tailnet} : Reachable c → n < c.net.nodes →
    c.net.beginDial n network address = (.ok (id, target), net) →
    Dialing n network address target id { c with net }
  | meanwhile {c c' : Custody} : Dialing n network address target id c → Move c c' →
    c'.net.node n = c.net.node n → Dialing n network address target id c'

/-- The other server has connected, and its connection is accepted before it goes on. -/
def underway : Custody :=
  let c : Custody := { offering with net := (offering.net.beginDial 1 "tcp" "db:80").2 }
  (c.pumped 4).perform 0 (.acceptNonblocking ⟨2818049⟩)

theorem node_pump (s : Traffic) (i k : Nat) : (s.pump i k).net.node = s.net.node := by
  unfold Traffic.pump
  split
  · exact Feed.node_advance (Feed.advance_of_step ‹_›)
  · rfl

theorem dialing_pumped {target : Endpoint} (h : Dialing n network address target id c)
    (hk : 0 < (c.tables 0).feeds) (m : Nat) : Dialing n network address target id (c.pumped m) := by
  induction m with
  | zero => exact h
  | succ m ih =>
    have hfeeds : 0 < ((c.pumped m).tables 0).feeds := (later_pumped hk m).2
    exact ih.meanwhile (.pump 0 0 hfeeds) (congrFun (node_pump (c.pumped m).toTraffic 0 0) n)

theorem dialing_underway :
    Dialing 1 "tcp" "db:80" ⟨.v4 (Tailnet.hostV4 1), 80⟩ 0 underway := by
  have hmade : (offering.net.beginDial 1 "tcp" "db:80").1 =
      .ok (0, ⟨.v4 (Tailnet.hostV4 1), 80⟩) := by
    decide +kernel
  let c : Custody := { offering with net := (offering.net.beginDial 1 "tcp" "db:80").2 }
  have hconnected : Dialing 1 "tcp" "db:80" ⟨.v4 (Tailnet.hostV4 1), 80⟩ 0 c :=
    .connected reachable_offering (by decide +kernel) (Prod.ext hmade rfl)
  have hpumped := dialing_pumped hconnected (by decide +kernel) 4
  let b : Bridge Tailnet := (c.pumped 4).bridge 0
  have htakes : b.Takes (b.acceptNonblocking ⟨2818049⟩).2 :=
    Bridge.takes_acceptNonblocking .nothing ⟨2818049⟩
  exact hpumped.meanwhile
    (.perform 0 (.acceptNonblocking ⟨2818049⟩) fun _ _ _ _ he => by cases he)
    (congrFun (Bridge.node_takes htakes) 1)

/-- What was told by a tailnet address is no more once the server that dialed is closed, and it is
not yet while a dial goes on. -/
theorem loopback_of_bereft : Received bereft 0 ⟨2818049⟩ ⟨2883587⟩ 0 ∧
    ((greeted.bridge 0).remoteAddress ⟨2818049⟩ ⟨2883587⟩ 64).1.toOption = some "100.64.0.2" ∧
    ((bereft.bridge 0).remoteAddress ⟨2818049⟩ ⟨2883587⟩ 64).1.toOption = some "127.0.0.1" ∧
    Dialing 1 "tcp" "db:80" ⟨.v4 (Tailnet.hostV4 1), 80⟩ 0 underway ∧
    ((underway.bridge 0).remoteAddress ⟨2818049⟩ ⟨2883585⟩ 64).1.toOption = some "127.0.0.1" :=
  ⟨received_of_find? ((reachable_offering.next dials_calling.move).later later_bereft) ⟨2752513⟩
      (by decide +kernel),
    by decide +kernel, by decide +kernel, dialing_underway, by decide +kernel⟩

end Handoff.Custody
