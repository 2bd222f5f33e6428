import Mathlib.Algebra.GroupWithZero.Nat
import Handoff.Descriptor.Channel

namespace Handoff

/-- The one of some descriptors that is handed out, if a receive has room for all of them. -/
def Channel.handed {δ : Type} (ds : List δ) : Option δ :=
  if Channel.descriptorRoom < ds.length then none else ds.head?

/-- What a message is good for: its first descriptor, if it travels and fits. -/
def Message.delivery {δ : Type} (m : Message δ) : Option δ :=
  if m.payload = 0 then none else Channel.handed m.descriptors

namespace Channel
variable {δ : Type} {c : Channel δ} {q q' : List (Message δ)} {room bytes : Nat} {ds : List δ}

def unread (q : List (Message δ)) : Nat :=
  (q.map Message.payload).sum

/-- Messages as they are queued: without payload nothing is. -/
def Solid (q : List (Message δ)) : Prop :=
  ∀ m ∈ q, 0 < m.payload

/-- One read of the queue `q`, with room for `room` bytes, takes `bytes` of them and the descriptors
`ds`, and leaves `q'`. -/
structure Takes (q : List (Message δ)) (room bytes : Nat) (ds : List δ) (q' : List (Message δ)) :
    Prop where
  progress : q ≠ [] → 0 < room → 0 < bytes
  bound : bytes ≤ room
  payload : unread q = bytes + unread q'
  descriptors : q.flatMap Message.descriptors = ds ++ q'.flatMap Message.descriptors
  /-- Descriptors of two messages are never taken together. -/
  single : ds = [] ∨ ∃ m ∈ q, m.descriptors = ds
  deliveries : q.filterMap Message.delivery =
    (handed ds).toList ++ q'.filterMap Message.delivery
  solid : Solid q'

theorem handed_nil : handed ([] : List δ) = none := by
  simp [handed]

theorem delivery_solid {m : Message δ} (h : 0 < m.payload) : m.delivery = handed m.descriptors := by
  rw [Message.delivery, if_neg (Nat.ne_of_gt h)]

theorem filterMap_delivery_cons {m : Message δ} (h : 0 < m.payload) (ms : List (Message δ)) :
    (m :: ms).filterMap Message.delivery =
      (handed m.descriptors).toList ++ ms.filterMap Message.delivery := by
  rw [List.filterMap_cons, delivery_solid h]
  cases handed m.descriptors <;> rfl

/-- A message that carries descriptors ends the read, whether its bytes fit or not. -/
theorem takes_front {m : Message δ} {ms : List (Message δ)} (hs : Solid (m :: ms))
    (hroom : 0 < room) (h : room < m.payload) :
    Takes (m :: ms) room room m.descriptors ({ payload := m.payload - room } :: ms) where
  progress _ _ := hroom
  bound := Nat.le_refl _
  payload := by
    simp only [unread, List.map_cons, List.sum_cons]
    omega
  descriptors := by simp
  single := .inr ⟨m, List.mem_cons_self .., rfl⟩
  deliveries := by
    have hrest : 0 < ({ payload := m.payload - room } : Message δ).payload := Nat.sub_pos_of_lt h
    rw [filterMap_delivery_cons (hs m (List.mem_cons_self ..)), filterMap_delivery_cons hrest,
      handed_nil]
    rfl
  solid := by
    intro x hx
    rcases List.mem_cons.mp hx with rfl | hx
    · exact Nat.sub_pos_of_lt h
    · exact hs x (List.mem_cons_of_mem _ hx)

theorem takes_whole {m : Message δ} {ms : List (Message δ)} (hs : Solid (m :: ms))
    (h : m.payload ≤ room) : Takes (m :: ms) room m.payload m.descriptors ms where
  progress _ _ := hs m (List.mem_cons_self ..)
  bound := h
  payload := by simp [unread]
  descriptors := by simp
  single := .inr ⟨m, List.mem_cons_self .., rfl⟩
  deliveries := filterMap_delivery_cons (hs m (List.mem_cons_self ..)) ms
  solid x hx := hs x (List.mem_cons_of_mem _ hx)

/-- Bytes without descriptors are read together with what follows them. -/
theorem Takes.merge {m : Message δ} (ht : Takes q (room - m.payload) bytes ds q')
    (hpos : 0 < m.payload) (hd : m.descriptors = []) (h : m.payload ≤ room) :
    Takes (m :: q) room (m.payload + bytes) ds q' where
  progress _ _ := Nat.add_pos_left hpos _
  bound := by
    have := ht.bound
    omega
  payload := by
    have := ht.payload
    simp only [unread, List.map_cons, List.sum_cons] at this ⊢
    omega
  descriptors := by rw [List.flatMap_cons, hd, List.nil_append, ht.descriptors]
  single := ht.single.imp id fun ⟨x, hx, he⟩ => ⟨x, List.mem_cons_of_mem _ hx, he⟩
  deliveries := by
    rw [filterMap_delivery_cons hpos, hd, handed_nil, ht.deliveries]
    rfl
  solid := ht.solid

theorem takes_gather (hs : Solid q) (room : Nat) :
    Takes q room (gather q room).1 (gather q room).2.1 (gather q room).2.2 := by
  induction q generalizing room with
  | nil => exact ⟨fun h => absurd rfl h, Nat.zero_le _, rfl, rfl, .inl rfl, rfl, hs⟩
  | cons m ms ih =>
    have hms : Solid ms := fun x hx => hs x (List.mem_cons_of_mem _ hx)
    unfold gather
    split
    · rename_i h0
      subst h0
      exact ⟨fun _ h => h, Nat.le_refl _, (Nat.zero_add _).symm, rfl, .inl rfl, rfl, hs⟩
    · split
      · exact takes_front hs (Nat.pos_of_ne_zero ‹_›) ‹_›
      · split
        · exact (ih hms _).merge (hs m (List.mem_cons_self ..)) (List.isEmpty_iff.mp ‹_›)
            (Nat.le_of_not_lt ‹_›)
        · exact takes_whole hs (Nat.le_of_not_lt ‹_›)

/-- While somebody receives, a descriptor that is sent joins the end of the queue. -/
theorem send_open (h : c.receiverOpen = true) (d : δ) :
    c.send d = .ok { c with queue := c.queue ++ [⟨1, [d]⟩] } := by
  unfold send sendMessage
  rw [if_neg, if_neg, if_neg]
  · exact Nat.one_ne_zero
  · rw [h]
    simp
  · simp [messageRoom]

/-- Nobody receives what is sent to a channel that was shut down. -/
theorem send_shut (h : c.receiverOpen = false) (d : δ) : c.send d = .error .brokenPipe := by
  unfold send sendMessage
  rw [if_neg (by simp [messageRoom]), h]
  rfl

/-- Messages that carry one descriptor each come out one at a time, in order. -/
theorem receive_marked {d : δ} {rest : List (Message δ)} (h : c.queue = ⟨1, [d]⟩ :: rest) :
    c.receive = ⟨.ok d, [], { c with queue := rest }⟩ := by
  unfold receive
  rw [h]
  simp [gather, payloadRoom, descriptorRoom]

theorem receive_empty (h : c.queue = []) :
    c.receive = ⟨.error (if c.senderOpen && c.receiverOpen then .wouldBlock
      else .connectionReset), [], c⟩ := by
  unfold receive
  rw [h]
  rfl

/-- Only where nothing is queued does a receive say that it would have to wait. -/
theorem queue_of_wouldBlock (h : c.receive.result = .error .wouldBlock) : c.queue = [] := by
  unfold receive at h
  split at h
  · exact List.isEmpty_iff.mp ‹_›
  · dsimp only at h
    split at h
    · cases h
    · split at h <;> cases h

theorem descriptors_gather (q : List (Message δ)) (room : Nat) :
    (gather q room).2.1 ++ (gather q room).2.2.flatMap Message.descriptors =
      q.flatMap Message.descriptors := by
  induction q generalizing room with
  | nil => rfl
  | cons m ms ih =>
    unfold gather
    split
    · rfl
    · split
      · rfl
      · split
        · rename_i hd
          rw [List.flatMap_cons, List.isEmpty_iff.mp hd]
          exact ih (room - m.payload)
        · rfl

/-- A receive loses no descriptor: it gives one, drops some and leaves the others. -/
theorem pending_receive (c : Channel δ) :
    c.receive.result.toOption.toList ++ c.receive.dropped ++ c.receive.channel.pending =
      c.pending := by
  have hg := descriptors_gather c.queue payloadRoom
  unfold receive
  split
  · rfl
  · revert hg
    generalize gather c.queue payloadRoom = g
    obtain ⟨bytes, ds, rest⟩ := g
    intro hg
    dsimp only
    split
    · exact hg
    · cases ds with
      | nil => exact hg
      | cons d extra => exact hg

def nextBytes (c : Channel δ) : Nat :=
  unread c.queue - unread c.receive.channel.queue

def nextDescriptors (c : Channel δ) : List δ :=
  c.pending.take (c.pending.length - c.receive.channel.pending.length)

def outcome (bytes : Nat) (ds : List δ) : Except RecvError δ :=
  match handed ds with
  | some d => .ok d
  | none => .error (if ds = [] then .noDescriptor bytes else .truncated)

theorem receive_queued (h : c.queue ≠ []) :
    c.receive.result = outcome (gather c.queue payloadRoom).1 (gather c.queue payloadRoom).2.1 ∧
      c.receive.channel = { c with queue := (gather c.queue payloadRoom).2.2 } := by
  unfold receive
  rw [if_neg (by rwa [List.isEmpty_iff])]
  generalize gather c.queue payloadRoom = g
  obtain ⟨bytes, ds, rest⟩ := g
  dsimp only
  split
  · rename_i hlong
    have hne : ds ≠ [] := by rintro rfl; simp at hlong
    refine ⟨?_, rfl⟩
    rw [outcome, handed, if_pos hlong, if_neg hne]
  · rename_i hshort
    split
    · simp [outcome, handed_nil]
    · refine ⟨?_, rfl⟩
      rw [outcome, handed, if_neg hshort, List.head?_cons]

theorem Takes.next (ht : Takes c.queue room bytes ds c.receive.channel.queue) :
    c.nextBytes = bytes ∧ c.nextDescriptors = ds := by
  constructor
  · rw [nextBytes, ht.payload, Nat.add_sub_cancel]
  · have hp : c.pending = ds ++ c.receive.channel.pending := ht.descriptors
    rw [nextDescriptors, hp, List.length_append, Nat.add_sub_cancel, List.take_left]

/-- A receive reads the queue once, and makes of it what it took. -/
theorem takes_receive (hs : Solid c.queue) :
    Takes c.queue payloadRoom c.nextBytes c.nextDescriptors c.receive.channel.queue ∧
      (c.queue ≠ [] → c.receive.result = outcome c.nextBytes c.nextDescriptors) := by
  have hg := takes_gather hs payloadRoom
  by_cases hq : c.queue = []
  · have ht : Takes c.queue payloadRoom 0 [] c.receive.channel.queue := by
      rw [hq] at hg ⊢
      rw [receive_empty hq, hq]
      exact hg
    obtain ⟨hb, hd⟩ := ht.next
    exact ⟨by rwa [hb, hd], fun h => absurd hq h⟩
  · obtain ⟨hr, hc⟩ := receive_queued hq
    have ht : Takes c.queue payloadRoom (gather c.queue payloadRoom).1
        (gather c.queue payloadRoom).2.1 c.receive.channel.queue := by
      rw [hc]
      exact hg
    obtain ⟨hb, hd⟩ := ht.next
    exact ⟨by rwa [hb, hd], fun _ => by rw [hr, hb, hd]⟩

theorem open_receive (c : Channel δ) : c.receive.channel.senderOpen = c.senderOpen ∧
    c.receive.channel.receiverOpen = c.receiverOpen := by
  by_cases hq : c.queue = []
  · rw [receive_empty hq]
    exact ⟨rfl, rfl⟩
  · rw [(receive_queued hq).2]
    exact ⟨rfl, rfl⟩

/-- A message that is sent joins the end of the queue, unless it has no payload to travel with. -/
theorem sendMessage_ok {c' : Channel δ} {m : Message δ} (h : c.sendMessage m = .ok c') :
    c' = { c with queue := c.queue ++ if m.payload = 0 then [] else [m] } := by
  unfold sendMessage at h
  split at h
  · cases h
  · split at h
    · cases h
    · split at h
      · rename_i h0
        cases h
        rw [if_pos h0, List.append_nil]
      · rename_i h0
        cases h
        rw [if_neg h0]

end Channel
end Handoff
