import Handoff.Proofs.Descriptor.Receiving

namespace Handoff.Channel

inductive Event (δ : Type) where
  | sent (m : Message δ)
  | refused (m : Message δ) (cause : SystemError)
  /-- A receive took so many payload bytes off the queue. -/
  | received (bytes : Nat) (result : Except RecvError δ)
  | shutDown
  | senderDropped

variable {δ : Type}

/-- The messages that went on their way, in order. -/
def sent (log : List (Event δ)) : List (Message δ) :=
  log.filterMap fun
    | .sent m => some m
    | _ => none

def handedOut (log : List (Event δ)) : List δ :=
  log.filterMap fun
    | .received _ (.ok d) => some d
    | _ => none

def taken (log : List (Event δ)) : Nat :=
  (log.map fun
    | .received bytes _ => bytes
    | _ => 0).sum

/-- What can happen to a new channel, in any order: a descriptor is sent, or any message; somebody
receives, and waits for it only until there is something to tell; either end ends it. -/
inductive Run : List (Event δ) → Channel δ → Prop
  | start : Run [] {}
  | send {log c c'} (d : δ) : Run log c → c.senderOpen = true → c.send d = .ok c' →
    Run (log ++ [.sent ⟨1, [d]⟩]) c'
  | sendMessage {log c c'} (m : Message δ) : Run log c → c.senderOpen = true →
    c.sendMessage m = .ok c' → Run (log ++ [.sent m]) c'
  | refuse {log c e} (m : Message δ) : Run log c → c.senderOpen = true →
    c.sendMessage m = .error e → Run (log ++ [.refused m e]) c
  | receive {log c} (blocking : Bool) : Run log c → (blocking = true → c.isReadable = true) →
    Run (log ++ [.received c.nextBytes c.receive.result]) c.receive.channel
  | shutdown {log c} : Run log c → Run (log ++ [.shutDown]) c.shutdown
  | dropSender {log c} : Run log c → c.senderOpen = true →
    Run (log ++ [.senderDropped]) c.dropSender

variable {c c' : Channel δ} {log : List (Event δ)} {m : Message δ}

structure Sound (log : List (Event δ)) (c : Channel δ) : Prop where
  solid : Solid c.queue
  inOrder : (sent log).filterMap Message.delivery =
    handedOut log ++ c.queue.filterMap Message.delivery
  account : unread (sent log) = taken log + unread c.queue
  sender : c.senderOpen = false ↔ .senderDropped ∈ log
  receiver : c.receiverOpen = false ↔ .shutDown ∈ log
  marked : (∀ m ∈ sent log, ∃ d, m = ⟨1, [d]⟩) → ∀ m ∈ c.queue, ∃ d, m = ⟨1, [d]⟩

section Log
variable (log : List (Event δ))

theorem sent_append (es : List (Event δ)) : sent (log ++ es) = sent log ++ sent es :=
  List.filterMap_append ..

theorem handedOut_append (es : List (Event δ)) :
    handedOut (log ++ es) = handedOut log ++ handedOut es :=
  List.filterMap_append ..

theorem taken_append (es : List (Event δ)) : taken (log ++ es) = taken log + taken es := by
  simp only [taken, List.map_append, List.sum_append]

theorem unread_append (q q' : List (Message δ)) : unread (q ++ q') = unread q + unread q' := by
  simp only [unread, List.map_append, List.sum_append]

end Log

/-- A message without payload is good for nothing, so leaving it out changes nothing. -/
theorem Sound.send (hs : Sound log c) (h : c.sendMessage m = .ok c') :
    Sound (log ++ [.sent m]) c' := by
  obtain rfl := sendMessage_ok h
  have hsent : sent [Event.sent m] = [m] := rfl
  have hhand : handedOut [Event.sent m] = [] := rfl
  have htake : taken [Event.sent m] = 0 := rfl
  refine ⟨?_, ?_, ?_, ?_, ?_, ?_⟩
  · intro x hx
    rcases List.mem_append.mp hx with hx | hx
    · exact hs.solid x hx
    · split at hx
      · cases hx
      · obtain rfl := List.mem_singleton.mp hx
        exact Nat.pos_of_ne_zero ‹_›
  · rw [sent_append, handedOut_append, hsent, hhand, List.append_nil, List.filterMap_append,
      hs.inOrder, List.filterMap_append, List.append_assoc]
    split
    · simp [Message.delivery, *]
    · rfl
  · rw [sent_append, taken_append, hsent, htake, unread_append, hs.account, unread_append]
    split <;> simp [unread, *, Nat.add_assoc]
  · simpa using hs.sender
  · simpa using hs.receiver
  · intro hm x hx
    have hall : ∀ x ∈ sent log ++ [m], ∃ d, x = ⟨1, [d]⟩ := by rwa [sent_append] at hm
    rcases List.mem_append.mp hx with hx | hx
    · exact hs.marked (fun y hy => hall y (List.mem_append_left _ hy)) x hx
    · split at hx
      · cases hx
      · exact hall x (List.mem_append_right _ hx)

/-- A receive hands out the one descriptor that what it took is good for, or none. -/
theorem Sound.handedOut_receive (hs : Sound log c) (bytes : Nat) :
    handedOut [.received bytes c.receive.result] ++
      c.receive.channel.queue.filterMap Message.delivery = c.queue.filterMap Message.delivery := by
  by_cases hq : c.queue = []
  · rw [receive_empty hq]
    rfl
  · obtain ⟨ht, hr⟩ := takes_receive hs.solid
    rw [ht.deliveries, hr hq, outcome]
    cases handed c.nextDescriptors <;> rfl

theorem Sound.receive (hs : Sound log c) :
    Sound (log ++ [.received c.nextBytes c.receive.result]) c.receive.channel := by
  have ht := (takes_receive hs.solid).1
  have hsent : sent [Event.received c.nextBytes c.receive.result] = [] := rfl
  have htake : taken [Event.received c.nextBytes c.receive.result] = c.nextBytes :=
    Nat.add_zero _
  refine ⟨ht.solid, ?_, ?_, ?_, ?_, ?_⟩
  · rw [sent_append, handedOut_append, hsent, List.append_nil, List.append_assoc,
      hs.handedOut_receive, hs.inOrder]
  · rw [sent_append, taken_append, hsent, htake, List.append_nil, hs.account, ht.payload,
      Nat.add_assoc]
  · rw [(open_receive c).1]
    simpa using hs.sender
  · rw [(open_receive c).2]
    simpa using hs.receiver
  · rw [sent_append, hsent, List.append_nil]
    intro hm
    have hq := hs.marked hm
    cases hc : c.queue with
    | nil =>
      rw [receive_empty hc]
      exact hq
    | cons x rest =>
      obtain ⟨d, rfl⟩ := hq x (hc ▸ List.mem_cons_self ..)
      rw [receive_marked hc]
      exact fun y hy => hq y (hc ▸ List.mem_cons_of_mem _ hy)

/-- What puts nothing on the queue and takes nothing off it. -/
theorem Sound.still (hs : Sound log c) {e : Event δ} (hsent : sent [e] = [])
    (hhand : handedOut [e] = []) (htake : taken [e] = 0) (hq : c'.queue = c.queue)
    (hsender : c'.senderOpen = false ↔ .senderDropped ∈ log ++ [e])
    (hreceiver : c'.receiverOpen = false ↔ .shutDown ∈ log ++ [e]) : Sound (log ++ [e]) c' where
  solid := hq ▸ hs.solid
  inOrder := by
    rw [sent_append, handedOut_append, hsent, hhand, hq, List.append_nil, List.append_nil,
      hs.inOrder]
  account := by rw [sent_append, taken_append, hsent, htake, hq, List.append_nil, hs.account]; rfl
  sender := hsender
  receiver := hreceiver
  marked := by
    rw [sent_append, hsent, hq, List.append_nil]
    exact hs.marked

theorem Run.sound (run : Run log c) : Sound log c := by
  induction run with
  | start =>
    have hnone : ∀ m : Message δ, m ∉ ({} : Channel δ).queue := fun _ => List.not_mem_nil
    exact ⟨fun m h => absurd h (hnone m), rfl, rfl, by simp, by simp,
      fun _ m h => absurd h (hnone m)⟩
  | send d _ _ h ih => exact ih.send h
  | sendMessage m _ _ h ih => exact ih.send h
  | receive _ _ _ ih => exact ih.receive
  | refuse m _ _ _ ih =>
    exact ih.still rfl rfl rfl rfl (by simpa using ih.sender) (by simpa using ih.receiver)
  | shutdown _ ih =>
    exact ih.still rfl rfl rfl rfl (by simpa [Channel.shutdown] using ih.sender)
      (by simp [Channel.shutdown])
  | dropSender _ _ ih =>
    exact ih.still rfl rfl rfl rfl (by simp [Channel.dropSender])
      (by simpa [Channel.dropSender] using ih.receiver)

/-- What the next receive answers, and what it takes, by what happened to the channel so far. -/
structure Faithful (log : List (Event δ)) (c : Channel δ) : Prop where
  /-- The descriptors that messages were sent for come out in their order and each once. -/
  inOrder : (sent log).filterMap Message.delivery =
    handedOut log ++ c.queue.filterMap Message.delivery
  /-- No byte is lost, and none is taken twice. -/
  account : unread (sent log) = taken log + unread c.queue
  front : c.pending = c.nextDescriptors ++ c.receive.channel.pending
  ends : c.senderOpen = false ↔ .senderDropped ∈ log
  shuts : c.receiverOpen = false ↔ .shutDown ∈ log
  wouldBlock : c.receive.result = .error .wouldBlock ↔
    c.queue = [] ∧ .senderDropped ∉ log ∧ .shutDown ∉ log
  connectionReset : c.receive.result = .error .connectionReset ↔
    c.queue = [] ∧ (.senderDropped ∈ log ∨ .shutDown ∈ log)
  fatal : (∃ detail, c.receive.result = .error (.fatal detail)) ↔
    0 < c.nextBytes ∧ (c.nextDescriptors = [] ∨
      ∃ m ∈ c.queue, c.nextDescriptors = m.descriptors ∧ descriptorRoom < m.descriptors.length)
  /-- What a receive refuses would have given no descriptor. -/
  harmless : ∀ detail, c.receive.result = .error (.fatal detail) →
    c.receive.channel.queue.filterMap Message.delivery = c.queue.filterMap Message.delivery
  /-- Nothing is owed where nothing is left. -/
  drained : c.receive.result = .error .wouldBlock ∨ c.receive.result = .error .connectionReset →
    handedOut log = (sent log).filterMap Message.delivery
  /-- A receive that may wait has to, as long as one that may not would say so. -/
  waits : c.isReadable = false ↔ c.receive.result = .error .wouldBlock
  marked : (∀ m ∈ sent log, ∃ d, m = ⟨1, [d]⟩) →
    ∀ detail, c.receive.result ≠ .error (.fatal detail)

section Answers
variable {bytes : Nat} {ds : List δ}

theorem handed_eq_none_iff : handed ds = none ↔ ds = [] ∨ descriptorRoom < ds.length := by
  unfold handed
  split
  · simp [*]
  · cases ds <;> simp_all

/-- What was taken off the queue is handed out or refused for good. -/
theorem outcome_error {e : RecvError} (h : outcome bytes ds = .error e) :
    ∃ detail, e = .fatal detail := by
  unfold outcome at h
  split at h
  · cases h
  · split at h
    · cases h
      exact ⟨_, rfl⟩
    · cases h
      exact ⟨_, rfl⟩

theorem outcome_fatal_iff : (∃ detail, outcome bytes ds = .error (.fatal detail)) ↔
    handed ds = none := by
  unfold outcome
  split
  · simp [*]
  · simp only [*, iff_true]
    split
    · exact ⟨_, rfl⟩
    · exact ⟨_, rfl⟩

end Answers

/-- Any other answer without a descriptor says that nothing is queued. -/
theorem receive_error_iff {e : RecvError} (he : ∀ detail, e ≠ .fatal detail) :
    c.receive.result = .error e ↔ c.queue = [] ∧
      e = if c.senderOpen && c.receiverOpen then .wouldBlock else .connectionReset := by
  by_cases hq : c.queue = []
  · rw [receive_empty hq]
    simp only [hq, true_and, Except.error.injEq]
    exact eq_comm
  · rw [(receive_queued hq).1]
    constructor
    · intro h
      obtain ⟨detail, hd⟩ := outcome_error h
      exact absurd hd (he detail)
    · rintro ⟨h, -⟩
      exact absurd h hq

theorem Sound.wouldBlock_iff (hs : Sound log c) : c.receive.result = .error .wouldBlock ↔
    c.queue = [] ∧ .senderDropped ∉ log ∧ .shutDown ∉ log := by
  rw [← hs.sender, ← hs.receiver, receive_error_iff (by simp)]
  cases c.senderOpen <;> cases c.receiverOpen <;> simp

theorem Sound.connectionReset_iff (hs : Sound log c) :
    c.receive.result = .error .connectionReset ↔
      c.queue = [] ∧ (.senderDropped ∈ log ∨ .shutDown ∈ log) := by
  rw [← hs.sender, ← hs.receiver, receive_error_iff (by simp)]
  cases c.senderOpen <;> cases c.receiverOpen <;> simp

theorem Sound.fatal_iff (hs : Sound log c) :
    (∃ detail, c.receive.result = .error (.fatal detail)) ↔
      0 < c.nextBytes ∧ (c.nextDescriptors = [] ∨
        ∃ m ∈ c.queue, c.nextDescriptors = m.descriptors ∧
          descriptorRoom < m.descriptors.length) := by
  obtain ⟨ht, hr⟩ := takes_receive hs.solid
  by_cases hq : c.queue = []
  · have hb : c.nextBytes = 0 := by
      rw [nextBytes, receive_empty hq, Nat.sub_self]
    rw [receive_empty hq, hb]
    constructor
    · rintro ⟨detail, hd⟩
      dsimp only at hd
      split at hd <;> cases hd
    · rintro ⟨h, -⟩
      cases h
  · have hpos := ht.progress hq (by decide)
    rw [hr hq, outcome_fatal_iff, handed_eq_none_iff]
    constructor
    · rintro (hnil | hlong)
      · exact ⟨hpos, .inl hnil⟩
      · refine ⟨hpos, ?_⟩
        rcases ht.single with hnil | ⟨m, hm, he⟩
        · exact .inl hnil
        · exact .inr ⟨m, hm, he.symm, by rwa [he]⟩
    · rintro ⟨-, hnil | ⟨m, -, he, hlong⟩⟩
      · exact .inl hnil
      · exact .inr (by rwa [he])

theorem Sound.harmless (hs : Sound log c) {e : RecvError} (he : c.receive.result = .error e) :
    c.receive.channel.queue.filterMap Message.delivery = c.queue.filterMap Message.delivery := by
  have h := hs.handedOut_receive 0
  rw [he] at h
  exact h

theorem Sound.not_fatal (hs : Sound log c) (hm : ∀ m ∈ sent log, ∃ d, m = ⟨1, [d]⟩)
    (detail : String) : c.receive.result ≠ .error (.fatal detail) := by
  intro hf
  have hmark := hs.marked hm
  cases hq : c.queue with
  | nil =>
    rw [receive_empty hq] at hf
    dsimp only at hf
    split at hf <;> cases hf
  | cons x rest =>
    obtain ⟨d, rfl⟩ := hmark x (hq ▸ List.mem_cons_self ..)
    rw [receive_marked hq] at hf
    cases hf

/-- Whatever is sent, received and ended, in whatever order: every descriptor that can be handed out
is, once and in its turn, and every receive says what there is to say. -/
theorem faithful_of_run (run : Run log c) : Faithful log c := by
  have hs := run.sound
  exact {
    inOrder := hs.inOrder
    account := hs.account
    front := (takes_receive hs.solid).1.descriptors
    ends := hs.sender
    shuts := hs.receiver
    wouldBlock := hs.wouldBlock_iff
    connectionReset := hs.connectionReset_iff
    fatal := hs.fatal_iff
    harmless := fun _ he => hs.harmless he
    drained := fun h => by
      have hq : c.queue = [] :=
        h.elim (fun h => (hs.wouldBlock_iff.mp h).1) fun h => (hs.connectionReset_iff.mp h).1
      have horder := hs.inOrder
      rw [hq] at horder
      exact ((List.append_nil _).symm.trans horder.symm)
    waits := by
      rw [hs.wouldBlock_iff, ← hs.sender, ← hs.receiver, isReadable]
      simp [and_assoc]
    marked := hs.not_fatal }

/-- Bytes that come before descriptors or are left after them, a message with more descriptors than
fit, and the end of the channel. -/
def mixed : List (Event Nat) :=
  [.sent ⟨10, []⟩, .sent ⟨300, [1, 2]⟩, .received 256 (.ok 1), .sent ⟨5, List.replicate 61 0⟩,
    .received 59 (.error .truncated), .sent ⟨1, [3]⟩, .shutDown, .refused ⟨1, [4]⟩ .brokenPipe,
    .received 1 (.ok 3)]

theorem run_mixed : Run mixed { receiverOpen := false } := by
  have hbytes := Run.sendMessage (δ := Nat) ⟨10, []⟩ .start rfl rfl
  have hlong := hbytes.sendMessage ⟨300, [1, 2]⟩ rfl rfl
  have hone := hlong.receive false (by decide)
  have hmany := hone.sendMessage ⟨5, List.replicate 61 0⟩ rfl rfl
  have htruncated := hmany.receive true (by decide)
  have hmarked := htruncated.send 3 rfl rfl
  have hrefused := hmarked.shutdown.refuse (e := .brokenPipe) ⟨1, [4]⟩ rfl rfl
  exact hrefused.receive true (by decide)

theorem faithful_of_mixed : Run mixed { receiverOpen := false } ∧ handedOut mixed = [1, 3] ∧
    Faithful mixed { receiverOpen := false } :=
  ⟨run_mixed, rfl, faithful_of_run run_mixed⟩

end Handoff.Channel
