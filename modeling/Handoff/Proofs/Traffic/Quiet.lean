import Handoff.Proofs.Handle.Table
import Handoff.Proofs.Traffic.Sound

namespace Handoff

namespace Bridge
variable {α : Type} {b : Bridge Tailnet} {server : Handle} {a : Server}

/-- What a caller is told of what a server's node answers; a fault stays on the server's record. -/
def tell (b : Bridge Tailnet) (server : Handle) (r : Except Tailnet.Fault α × Tailnet) :
    Outcome Tailnet α :=
  match r with
  | (.ok a, net) => (.ok a, { b with net })
  | (.error f, net) => ({ b with net } : Bridge Tailnet).fail server f.toFailure

theorem tell_ok_iff {r : Except Tailnet.Fault α × Tailnet} {x : α} :
    (b.tell server r).1 = .ok x ↔ r.1 = .ok x := by
  obtain ⟨r, net⟩ := r
  cases r <;> simp [tell, fail]

theorem net_tell (b : Bridge Tailnet) (server : Handle) (r : Except Tailnet.Fault α × Tailnet) :
    (b.tell server r).2.net = r.2 := by
  obtain ⟨r, net⟩ := r
  cases r <;> rfl

theorem withNode_tell (ha : b.servers.find? server = some a)
    (op : NodeId → Tailnet → Except Failure α × Tailnet)
    (raw : NodeId → Tailnet → Except Tailnet.Fault α × Tailnet)
    (heq : ∀ n t, op n t = (raw n t).map Tailnet.worded id) :
    b.withNode server op = b.tell server (raw a.node b.net) := by
  rw [withNode, HandleTable.get_ok_iff.mpr ha]
  dsimp only
  rw [heq]
  generalize raw a.node b.net = r
  obtain ⟨r, net⟩ := r
  cases r <;> rfl

end Bridge

namespace Traffic

/-- An operation on a bridge that opens no listener, brings no connection and retires no handle of
a server or a listener. -/
structure Quiet (b b' : Bridge Tailnet) : Prop where
  calm : b.net.Calm b'.net
  alike : Alike b.toTables b'.toTables

variable {b b' b'' : Bridge Tailnet} {α : Type}

theorem Quiet.refl (hw : b.net.Wired) : Quiet b b :=
  ⟨.refl hw, .refl _⟩

theorem Quiet.trans (h : Quiet b b') (h' : Quiet b' b'') : Quiet b b'' :=
  ⟨h.calm.trans h'.calm, h.alike.trans h'.alike⟩

/-- All that an operation on a server's node can come to. -/
theorem withNode_cases (b : Bridge Tailnet) (server : Handle)
    (op : NodeId → Tailnet → Except Failure α × Tailnet) :
    (∃ e, b.withNode server op = (.error e, b)) ∨
    ∃ s, b.servers.find? server = some s ∧
      ((∃ f net, op s.node b.net = (.error f, net) ∧
        b.withNode server op = ({ b with net } : Bridge Tailnet).fail server f) ∨
      ∃ a net, op s.node b.net = (.ok a, net) ∧
        b.withNode server op = (.ok a, { b with net })) := by
  unfold Bridge.withNode
  split
  · exact .inl ⟨_, rfl⟩
  · rename_i s hs
    refine .inr ⟨s, HandleTable.get_ok_iff.mp hs, ?_⟩
    split
    · exact .inr ⟨_, _, by assumption, rfl⟩
    · exact .inl ⟨_, _, by assumption, rfl⟩

theorem withNode_dead {server : Handle} (hs : b.servers.find? server = none)
    (op : NodeId → Tailnet → Except Failure α × Tailnet) :
    b.withNode server op = (.error (.badHandle server), b) := by
  rw [Bridge.withNode, HandleTable.get_eq, hs]

theorem withNode_ok {server : Handle} {s : Server} (hs : b.servers.find? server = some s)
    {op : NodeId → Tailnet → Except Failure α × Tailnet} {a : α} {net : Tailnet}
    (hop : op s.node b.net = (.ok a, net)) : b.withNode server op = (.ok a, { b with net }) := by
  rw [Bridge.withNode, HandleTable.get_ok_iff.mpr hs]
  dsimp only
  rw [hop]

/-- An operation of the tailnet itself, whose faults are worded on the way, on the node of a server
that is live. -/
theorem withNode_live {server : Handle} {s : Server} (hs : b.servers.find? server = some s)
    (op : NodeId → Tailnet → Except Failure α × Tailnet)
    (raw : NodeId → Tailnet → Except Tailnet.Fault α × Tailnet)
    (heq : ∀ n t, op n t = (raw n t).map Tailnet.worded id) :
    (∃ f, (raw s.node b.net).1 = .error f ∧ b.withNode server op =
      ({ b with net := (raw s.node b.net).2 } : Bridge Tailnet).fail server f.toFailure) ∨
    ∃ a, (raw s.node b.net).1 = .ok a ∧
      b.withNode server op = (.ok a, { b with net := (raw s.node b.net).2 }) := by
  rw [Bridge.withNode_tell hs op raw heq]
  generalize raw s.node b.net = r
  obtain ⟨r, net⟩ := r
  cases r with
  | error f => exact .inl ⟨f, rfl, rfl⟩
  | ok a => exact .inr ⟨a, rfl, rfl⟩

/-- All that such an operation can come to. -/
theorem withNode_worded (b : Bridge Tailnet) (server : Handle)
    (op : NodeId → Tailnet → Except Failure α × Tailnet)
    (raw : NodeId → Tailnet → Except Tailnet.Fault α × Tailnet)
    (heq : ∀ n t, op n t = (raw n t).map Tailnet.worded id) :
    (∃ e, b.withNode server op = (.error e, b)) ∨
    ∃ s, b.servers.find? server = some s ∧
      ((∃ f, (raw s.node b.net).1 = .error f ∧ b.withNode server op =
        ({ b with net := (raw s.node b.net).2 } : Bridge Tailnet).fail server f.toFailure) ∨
      ∃ a, (raw s.node b.net).1 = .ok a ∧
        b.withNode server op = (.ok a, { b with net := (raw s.node b.net).2 })) := by
  cases hs : b.servers.find? server with
  | none => exact .inl ⟨_, withNode_dead hs op⟩
  | some s => exact .inr ⟨s, rfl, withNode_live hs op raw heq⟩

theorem alike_record (b : Bridge Tailnet) (server : Handle) (text : String) :
    Alike b.toTables (b.record server text).toTables := by
  refine .of_eq (fun h => ?_) rfl rfl rfl
  change ((b.servers.modify server _).find? h).map _ = _
  rw [HandleTable.find?_modify]
  split
  · rw [Option.map_map]
    rfl
  · rfl

/-- Connections may come and go. -/
theorem alike_setConns (a : Tables) (conns : HandleTable Conn) : Alike a { a with conns } :=
  .of_eq (fun _ => rfl) rfl rfl rfl

section Operations
variable (hw : b.net.Wired)
include hw

theorem quiet_record (server : Handle) (text : String) : Quiet b (b.record server text) :=
  ⟨.refl hw, alike_record b server text⟩

theorem quiet_refuse (server : Handle) (e : BridgeError) :
    Quiet b (b.refuse (α := α) server e).2 := by
  unfold Bridge.refuse
  split
  · exact quiet_record hw server _
  · exact quiet_record hw server _
  · exact .refl hw

theorem quiet_withStreams (f : Streams → Streams)
    (hf : (f b.net.streams).count = b.net.streams.count) : Quiet b (b.withStreams f) :=
  ⟨Tailnet.calm_withStreams hw (Nat.le_of_eq hf.symm), .refl _⟩

theorem quiet_connStream (conn : Handle) : Quiet b (b.connStream conn).2 := by
  unfold Bridge.connStream
  split
  · exact .refl hw
  · rename_i c _
    exact quiet_withStreams hw (·.copy c.descriptor) rfl

theorem quiet_setConns (conns : HandleTable Conn) : Quiet b { b with conns } :=
  ⟨.refl hw, alike_setConns b.toTables conns⟩

theorem quiet_takeConn (conn : Handle) : Quiet b (b.takeConn conn).2 := by
  unfold Bridge.takeConn
  split
  · exact .refl hw
  · exact quiet_setConns hw _

theorem quiet_closeConn (conn : Handle) : Quiet b (b.closeConn conn).2 := by
  unfold Bridge.closeConn
  split
  · exact .refl hw
  · rename_i c conns _
    exact (quiet_setConns hw conns).trans
      (quiet_withStreams (b := { b with conns }) hw (·.close c.descriptor) rfl)

end Operations

end Traffic
end Handoff
