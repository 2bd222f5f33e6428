import Handoff.Proofs.Custody.Accepting
import Handoff.Proofs.Custody.Registering
import Handoff.Proofs.Tailnet.Origin

namespace Handoff

namespace Bridge
variable {b : Bridge Tailnet} {l k : Handle} {e : ListenerEntry} {x : Conn} {id : StreamId}
  {n : NodeId} {target : Endpoint} {ip : Address}

def notAccepted (l k : Handle) : String :=
  s!"conn {k} was not accepted by listener {l}"

theorem remoteAddress_refused (hl : b.listeners.find? l = some e) (hk : b.conns.find? k = some x)
    (hx : x.listener ≠ some l) (capacity : Nat) : b.remoteAddress l k capacity =
      (.error (.fatal (notAccepted l k)), b.record e.server (notAccepted l k)) := by
  unfold remoteAddress
  rw [HandleTable.get_ok_iff.mpr hl, HandleTable.get_ok_iff.mpr hk]
  dsimp only
  rw [if_pos hx]
  rfl

/-- The listener of a connection that was dialed on the tailnet tells who is at the other end, as
long as it has its handle and the connection is there. -/
theorem remoteAddress_accepted (ho : b.net.Origin n target ip id)
    (hk : b.conns.find? k = some x) (hx : x.listener = some l) (hd : x.descriptor = ⟨id, .far⟩)
    (capacity : Nat) : (b.remoteAddress l k capacity).1 =
      if b.listeners.contains l = false then .error (.badHandle l)
      else if b.net.streams.isOver ⟨id, .far⟩ then
        .error (.fatal (Tailnet.Fault.peerAddress .notConnected).toFailure.message)
      else (ensureFits (b.net.shown n ip).name capacity).map fun _ => (b.net.shown n ip).name := by
  have hpeer : Network.remoteAddress (W := Tailnet) = fun _ d t =>
    (Tailnet.worded (t.remoteAddress ((t.streams.peerAddress d).map some)), t) := rfl
  unfold remoteAddress
  rw [HandleTable.contains_eq, HandleTable.get_eq]
  cases b.listeners.find? l with
  | none => rfl
  | some e =>
    rw [HandleTable.get_ok_iff.mpr hk]
    simp only [hx, ne_eq, not_true_eq_false, if_false, Option.isSome_some, Bool.true_eq_false, hd,
      hpeer, Streams.peerAddress]
    cases hover : b.net.streams.isOver ⟨id, .far⟩ with
    | true => rfl
    | false =>
      have htold := ho.remoteAddress
      change b.net.remoteAddress (.ok (some (b.net.streams.peer ⟨id, .far⟩).address)) = _ at htold
      simp only [Bool.false_eq_true, if_false, Except.map, htold]
      rfl

end Bridge

namespace Custody
open Tailnet (Origin Numbered Registers Strikes)
variable {c c₀ c' : Custody} {n : NodeId} {network address : String} {id : StreamId}
  {target : Endpoint} {ip : Address}

/-- The node `n` dials, by a handle or without a bridge, and the connection `id` comes of it. -/
inductive Dials (c : Custody) (n : NodeId) (network address : String) (id : StreamId) :
    Custody → Prop where
  | byHandle (i : Nat) (server : Handle) (a : Server) :
    (c.tables i).servers.find? server = some a → a.node = n →
    (c.net.dial n network address).1 = .ok ⟨id, .near⟩ →
    Dials c n network address id (c.perform i (.dial server network address))
  | byNode : n < c.net.nodes → c.Loose n → (c.net.dial n network address).1 = .ok ⟨id, .near⟩ →
    Dials c n network address id (c.use n (.dial network address))

/-- No loopback address was given to two dialers. -/
def Distinct (c : Custody) : Prop :=
  ∀ id ∈ Traffic.streamsOf c.log, ∀ id' ∈ Traffic.streamsOf c.log,
    c.net.source id = c.net.source id' → id = id'

structure Extends (c c' : Custody) : Prop where
  log : c.log <+: c'.log
  streams : c.net.streams.Grows c'.net.streams
  hosts : c.net.registry.lastHost ≤ c'.net.registry.lastHost

theorem Extends.refl (c : Custody) : Extends c c :=
  ⟨List.prefix_refl _, .refl _, Nat.le_refl _⟩

theorem Extends.trans {c'' : Custody} (h : Extends c c') (h' : Extends c' c'') : Extends c c'' :=
  ⟨h.log.trans h'.log, h.streams.trans h'.streams, Nat.le_trans h.hosts h'.hosts⟩

theorem log_move (hm : Move c c') : c.log <+: c'.log := by
  have hsame : c.log <+: c.log := List.prefix_refl _
  cases hm with
  | perform i v _ => exact List.prefix_append ..
  | resume w _ =>
    change c.log <+: (c.toTraffic.resume w).log
    unfold Traffic.resume
    dsimp only
    split
    · exact hsame
    · exact List.prefix_append ..
    · exact hsame
  | pump i k _ =>
    change c.log <+: (c.toTraffic.pump i k).log
    unfold Traffic.pump
    split <;> exact hsame
  | use n u _ _ =>
    change c.log <+: (c.toTraffic.use n u).log
    unfold Traffic.use
    cases u with
    | dial network address =>
      dsimp only
      split
      · exact List.prefix_append ..
      · exact hsame
    | _ => exact hsame
  | _ => exact hsame

theorem extends_move (hw : c.net.Wired) (hm : Move c c') : Extends c c' := by
  obtain ⟨n, hserved | hended⟩ := registers_move hw hm
  · exact ⟨log_move hm, hserved.streams, hserved.lastHost⟩
  · exact ⟨log_move hm, hended.streams, Nat.le_of_eq hended.lastHost.symm⟩

theorem extends_later (h : Reachable c) (hl : Later c c') : Extends c c' := by
  induction hl with
  | refl => exact .refl c
  | tail hl hm ih => exact ih.trans (extends_move (h.later hl).intact.wired hm)

theorem made_of_mem (h : Reachable c) (hid : id ∈ Traffic.streamsOf c.log) :
    id < c.net.streams.count := by
  obtain ⟨target, l, hm⟩ := Traffic.mem_streamsOf.mp hid
  exact (h.intact.dialed target l id hm).2.1

theorem Distinct.before (h : Distinct c') (hr : Reachable c) (he : Extends c c') :
    Distinct c := by
  intro id hid id' hid' hsame
  have hmade := made_of_mem hr hid
  have hmade' := made_of_mem hr hid'
  have hlog : ∀ {id}, id ∈ Traffic.streamsOf c.log → id ∈ Traffic.streamsOf c'.log :=
    fun hid => (he.log.sublist.filterMap _).subset hid
  apply h id (hlog hid) id' (hlog hid')
  rwa [Tailnet.source_of_grows he.streams hmade, Tailnet.source_of_grows he.streams hmade']

theorem Reachable.numbered (h : Reachable c) : Numbered c.net := by
  induction h with
  | start suffix supply loopbackUp files => exact fun n hn => by cases hn
  | next hr hm ih =>
    obtain ⟨n, hserved | hended⟩ := registers_move hr.intact.wired hm
    · exact ih.registers hserved
    · exact ih.strikes hended

/-- Nothing that happens puts another node on record for a connection, as long as no other dialer
gets its address. -/
theorem origin_move (hr : Reachable c) (hm : Move c c') (hd : Distinct c')
    (hlast : c.net.registry.lastHost < 2 ^ 32) (hid : id ∈ Traffic.streamsOf c.log)
    (h : c.net.Origin n target ip id) : c'.net.Origin n target ip id := by
  obtain ⟨m, hserved | hended⟩ := registers_move hr.intact.wired hm
  · refine h.registers hserved fun id' hid' hnew _ hsame => ?_
    have hmem : id ∈ Traffic.streamsOf c'.log :=
      ((log_move hm).sublist.filterMap _).subset hid
    obtain rfl := hd id' hid' id hmem hsame
    exact absurd h.made (Nat.not_lt.mpr hnew)
  · exact h.strikes hr.intact.owned hlast hended

theorem origin_later (hr : Reachable c) (hl : Later c c') (hd : Distinct c')
    (hlast : c'.net.registry.lastHost < 2 ^ 32) (hid : id ∈ Traffic.streamsOf c.log)
    (h : c.net.Origin n target ip id) : c'.net.Origin n target ip id := by
  induction hl with
  | refl => exact h
  | tail hl hm ih =>
    have hrb := hr.later hl
    have hstep := extends_move hrb.intact.wired hm
    have hlast' := Nat.lt_of_le_of_lt hstep.hosts hlast
    have hid' := ((extends_later hr hl).log.sublist.filterMap _).subset hid
    exact origin_move hrb hm hd hlast' hid' (ih (hd.before hrb hstep) hlast')

theorem Dials.move (h : Dials c n network address id c') : Move c c' := by
  cases h with
  | byHandle i server a _ _ _ => exact .perform i _ fun _ _ _ _ he => by cases he
  | byNode hn hloose _ => exact .use n _ hn hloose

theorem Dials.net (h : Dials c n network address id c') :
    c'.net = (c.net.dial n network address).2 := by
  cases h with
  | byHandle i server a ha hn _ =>
    subst hn
    change ((c.bridge i).dial server network address).2.net = _
    have hdials := Traffic.dialsAs_dial (b := c.bridge i) ha network address
    revert hdials
    generalize (c.bridge i).dial server network address = r
    intro hdials
    cases hdials <;> rfl
  | byNode => exact net_use _

theorem Dials.dialed (h : Dials c n network address id c') :
    (c.net.dial n network address).1 = .ok ⟨id, .near⟩ := by
  cases h <;> assumption

theorem Dials.logged (h : Dials c n network address id c') (hw : c.net.Wired) :
    id ∈ Traffic.streamsOf c'.log := by
  have hd := h.dialed
  cases h with
  | byHandle i server a ha hn _ =>
    subst hn
    obtain ⟨target, l, hlog⟩ := log_dial hw ha hd
    rw [hlog]
    exact mem_streamsOf_append
  | byNode =>
    obtain ⟨target, l, hlog⟩ := log_dialByNode hw hd
    rw [hlog]
    exact mem_streamsOf_append

/-- From a dial on, its node is on record for the connection that came of it. -/
theorem origin_of_dials (hr : Reachable c) (h : Dials c n network address id c₀)
    (hl : Later c₀ c') (hd : Distinct c') (hlast : c'.net.registry.lastHost < 2 ^ 32) :
    ∃ target ip, (c.net.start n).2.registry.Targets address target ∧
      c'.net.Origin n target ip id := by
  obtain ⟨target, ip, htarget, ho⟩ := Tailnet.origin_dial hr.numbered h.dialed
  rw [← h.net] at ho
  exact ⟨target, ip, htarget,
    origin_later (hr.next h.move) hl hd hlast (h.logged hr.intact.wired) ho⟩

/-- The connection for which `k` stands on the `i`-th bridge is the far end of `id`, and the
listener `l` accepted it. -/
structure Received (c : Custody) (i : Nat) (l k : Handle) (id : StreamId) : Prop where
  accepted : AcceptedBy i l k c
  far : ∃ x, (c.tables i).conns.find? k = some x ∧ x.descriptor = ⟨id, .far⟩

theorem received_of_find? (hr : Reachable c) {i : Nat} {l k : Handle} (server : Handle)
    (hk : (c.tables i).conns.find? k = some ⟨server, some l, ⟨id, .far⟩⟩) : Received c i l k id :=
  ⟨(acceptedBy_iff hr hk).mpr rfl, _, hk, rfl⟩

/-- What a listener answers when it is asked who is at the other end of a connection that it
accepted, and that was dialed on the tailnet. -/
theorem remoteAddress_received (hr : Reachable c) (ho : c.net.Origin n target ip id) {i : Nat}
    {l k : Handle} (h : Received c i l k id) (capacity : Nat) :
    ((c.bridge i).remoteAddress l k capacity).1 =
      if (c.tables i).listeners.contains l = false then .error (.badHandle l)
      else if c.net.streams.isOver ⟨id, .far⟩ then
        .error (.fatal (Tailnet.Fault.peerAddress .notConnected).toFailure.message)
      else (ensureFits (c.net.shown n ip).name capacity).map fun _ => (c.net.shown n ip).name := by
  obtain ⟨haccepted, x, hk, hfar⟩ := h
  exact Bridge.remoteAddress_accepted (b := c.bridge i) ho hk ((acceptedBy_iff hr hk).mp haccepted)
    hfar capacity

/-- Only one text is told of a peer. -/
theorem text_of_received (hr : Reachable c) (ho : c.net.Origin n target ip id) {i : Nat}
    {l k : Handle} (h : Received c i l k id) {capacity : Nat} {text : String}
    (ht : ((c.bridge i).remoteAddress l k capacity).1 = .ok text) :
    text = (c.net.shown n ip).name := by
  rw [remoteAddress_received hr ho h] at ht
  split at ht
  · cases ht
  · split at ht
    · cases ht
    · cases hfits : ensureFits (c.net.shown n ip).name capacity with
      | error e =>
        rw [hfits] at ht
        cases ht
      | ok =>
        rw [hfits] at ht
        exact (Except.ok.inj ht).symm

end Custody
end Handoff
