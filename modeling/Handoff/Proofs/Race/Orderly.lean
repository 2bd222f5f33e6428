import Handoff.Proofs.Bridge.Records
import Handoff.Proofs.Race.Closing
import Handoff.Proofs.Traffic.Reachable

namespace Handoff

/-- What nobody at the listener `l` changes about it but its closed flag. -/
structure Tailnet.Sited (t t' : Tailnet) (l : ListenerId) : Prop where
  bound : t'.bound = t.bound
  backing : (t'.listener l).backing = (t.listener l).backing
  loopbackUp : t'.loopbackUp = t.loopbackUp

structure Tailnet.Stays (t t' : Tailnet) (l : ListenerId) : Prop extends Tailnet.Sited t t' l where
  closed : (t'.listener l).closed = (t.listener l).closed

theorem Tailnet.Stays.open {t t' : Tailnet} {l : ListenerId} (h : t.Stays t' l) :
    t'.Open l ↔ t.Open l := by
  rw [Open, h.closed]
  rfl

theorem Tailnet.Connects.stays {t t' : Tailnet} {l : ListenerId} {a : Tailnet.Arrival}
    {id : StreamId} (h : t.Connects t' l a id) : t.Stays t' l :=
  ⟨⟨h.bound, by rw [h.here], h.loopbackUp⟩, by rw [h.here]⟩

theorem Feed.stays_advance {f f' : Feed} {t t' : Tailnet} (h : f.Advance t f' t')
    (hl : f.pump = .leaving → ¬ t.Open f.listener) : t.Stays t' f.listener := by
  cases h with
  | arrive hp hb =>
    refine ⟨⟨rfl, ?_, rfl⟩, ?_⟩ <;> rw [Tailnet.listener_setListener, if_pos rfl]
  | leave hp =>
    rw [Tailnet.closeListener, if_pos (by simpa [Tailnet.Open] using hl hp)]
    exact ⟨⟨rfl, rfl, rfl⟩, rfl⟩
  | _ => exact ⟨⟨rfl, rfl, rfl⟩, rfl⟩

/-- Who closes the listener `l`, `a` and `b`, share the work: whoever sets the flag wakes the
pump. -/
structure Shared (l : ListenerId) (t : Tailnet) (w : WakeUp) (a b : Shutting) : Prop where
  begun : a.isBegun ∨ b.isBegun → ¬ t.Open l
  fresh : t.Open l → w = .pending
  owing : w = .pending → ¬ t.Open l → a.owes ≠ b.owes
  paid : w ≠ .pending → a.owes = false ∧ b.owes = false

namespace Shared
variable {l : ListenerId} {t t' : Tailnet} {w w' : WakeUp} {a a' b : Shutting}

theorem symm (h : Shared l t w a b) : Shared l t w b a :=
  ⟨h.begun ∘ Or.symm, h.fresh, fun hw ho => (h.owing hw ho).symm, fun hw => (h.paid hw).symm⟩

theorem stays (h : Shared l t w a b) (hs : t.Stays t' l) : Shared l t' w a b :=
  ⟨fun hb => hs.open.not.mpr (h.begun hb), fun ho => h.fresh (hs.open.mp ho),
    fun hw ho => h.owing hw (hs.open.not.mp ho), h.paid⟩

/-- Whoever has woken the pump, or failed to, is done. -/
theorem ended (hc : ¬ t.Open l) (hw : w ≠ .pending) (hb : b.owes = false) :
    Shared l t w .ended b where
  begun := fun _ => hc
  fresh := fun ho => absurd ho hc
  owing := fun hw' => absurd hw' hw
  paid := fun _ => ⟨rfl, hb⟩

theorem open_unbegun (h : Shared l t w a b) (ho : t.Open l) : a = .marking ∧ b = .marking := by
  have ha : ¬ a.isBegun := fun hb => h.begun (.inl hb) ho
  have hb : ¬ b.isBegun := fun hb => h.begun (.inr hb) ho
  refine ⟨?_, ?_⟩
  · cases a <;> first | rfl | exact absurd rfl ha
  · cases b <;> first | rfl | exact absurd rfl hb

/-- Only one of them owes the connection that wakes the pump. -/
theorem debt (h : Shared l t w a b) (ha : a.owes = true) :
    ¬ t.Open l ∧ w = .pending ∧ b.owes = false := by
  have hbegun : a.isBegun = true := by cases a <;> first | rfl | cases ha
  have hc := h.begun (.inl hbegun)
  have hw : w = .pending := by
    by_contra hw
    exact Bool.false_ne_true ((h.paid hw).1.symm.trans ha)
  refine ⟨hc, hw, ?_⟩
  have := h.owing hw hc
  rw [ha] at this
  exact (Bool.not_eq_true _).mp this.symm

end Shared

namespace Shutting.Step
variable {l : ListenerId} {t t' : Tailnet} {w w' : WakeUp} {s s' other : Shutting}

theorem sited (h : s.Step l t w s' t' w') (hb : t.bound (t.listener l).backing = some l) :
    t.Sited t' l := by
  cases h with
  | found | unroute | unwoken => exact ⟨rfl, rfl, rfl⟩
  | mark =>
    refine ⟨rfl, ?_, rfl⟩
    rw [Tailnet.markClosed, Tailnet.listener_setListener, if_pos rfl]
  | wake hc =>
    have hs := (Tailnet.connects_of_connect hb hc).stays
    exact ⟨hs.bound, hs.backing, hs.loopbackUp⟩

theorem shared (h : s.Step l t w s' t' w') (hb : t.bound (t.listener l).backing = some l)
    (hs : Shared l t w s other) : Shared l t' w' s' other := by
  cases h with
  | found hc => exact ⟨fun _ => hc, hs.fresh, hs.owing, hs.paid⟩
  | mark ho =>
    obtain ⟨-, rfl⟩ := hs.open_unbegun ho
    have hc : ¬ (t.markClosed l).Open l := by
      rw [Tailnet.Open, Tailnet.markClosed, Tailnet.listener_setListener, if_pos rfl]
      simp
    exact ⟨fun _ => hc, fun ho' => absurd ho' hc, fun _ _ => Bool.false_ne_true.symm,
      fun hw => absurd (hs.fresh ho) hw⟩
  | unroute => exact ⟨fun _ => hs.begun (.inl rfl), hs.fresh, hs.owing, hs.paid⟩
  | @wake id t₁ hc =>
    obtain ⟨hclosed, -, ho⟩ := hs.debt rfl
    have hclosed' : ¬ t₁.Open l :=
      (Tailnet.connects_of_connect hb hc).stays.open.not.mpr hclosed
    exact .ended hclosed' WakeUp.noConfusion ho
  | unwoken =>
    obtain ⟨hclosed, -, ho⟩ := hs.debt rfl
    exact .ended hclosed WakeUp.noConfusion ho

theorem closed (h : s.Step l t w s' t' w') (hb : t.bound (t.listener l).backing = some l)
    (hc : ¬ t.Open l) : ¬ t'.Open l := by
  cases h with
  | found | unroute | unwoken => exact hc
  | mark ho => exact absurd ho hc
  | wake hw => exact (Tailnet.connects_of_connect hb hw).stays.open.not.mpr hc

/-- Closing the listener is nothing but another arrival to what goes through its feed. -/
theorem flow {f : Feed} {taken : List Descriptor} {sent steps : Nat}
    (h : s.Step f.listener t w s' t' w')
    (hb : t.bound (t.listener f.listener).backing = some f.listener)
    (hs : Shared f.listener t w s other) (hf : Flow t f taken w sent steps) :
    Flow t' f taken w' sent steps := by
  cases h with
  | found => exact hf
  | mark ho => exact hf.mark ho
  | unroute => exact hf.still_there rfl (Nat.le_refl _)
  | wake hc =>
    have hw := hf.wake (hs.debt rfl).1 (Tailnet.connects_of_connect hb hc)
    exact hw.still_there rfl (Nat.le_refl _)
  | unwoken => exact hf.unwoken

/-- Where the machine reaches itself, the pump is woken. -/
theorem unfailed (h : s.Step l t w s' t' w') (hb : t.bound (t.listener l).backing = some l)
    (hw : w = .failed → t.loopbackUp = false) : w' = .failed → t'.loopbackUp = false := by
  cases h with
  | found | mark | unroute => exact hw
  | wake hc => exact nofun
  | unwoken hc =>
    intro _
    unfold Tailnet.connect at hc
    split at hc
    · simpa using ‹(!t.loopbackUp) = true›
    · rw [hb] at hc
      cases hc

end Shutting.Step

/-- Whoever closes a listener can go on until it is over. -/
theorem Shutting.can_step (l : ListenerId) (t : Tailnet) (w : WakeUp) (s : Shutting) :
    s = .ended ∨ ∃ s' t' w', s.Step l t w s' t' w' := by
  cases s with
  | marking =>
    by_cases ho : t.Open l
    · exact .inr ⟨_, _, _, .mark ho⟩
    · exact .inr ⟨_, _, _, .found ho⟩
  | unrouting => exact .inr ⟨_, _, _, .unroute⟩
  | waking =>
    cases hc : t.connect (t.listener l).backing .wakeUp with
    | ok r => exact .inr ⟨_, _, _, .wake hc⟩
    | error e => exact .inr ⟨_, _, _, .unwoken hc⟩
  | ended => exact .inl rfl

theorem Shutting.Step.left_lt {l : ListenerId} {t t' : Tailnet} {w w' : WakeUp} {s s' : Shutting}
    (h : s.Step l t w s' t' w') : s'.left < s.left := by
  cases h <;> decide

namespace Race
variable {h : Handle} {e : ListenerEntry} {r r' : Race} {a : Actor}

section Accept
variable {b b' : Bridge Tailnet} {place : Waiting} {result : Except BridgeError Handle}

structure Resumed (b : Bridge Tailnet) (place : Waiting) (result : Except BridgeError Handle)
    (b' : Bridge Tailnet) : Prop where
  net : b'.net = b.net
  listeners : b'.listeners = b.listeners
  gives : result = .error .connectionReset ∧ b'.feed place.feed = b.feed place.feed ∨
    ∃ d rest k, (b.feed place.feed).channel.queue = ⟨1, [d]⟩ :: rest ∧ result = .ok k ∧
      b'.conns.find? k = some ⟨place.server, some place.listener, d⟩ ∧
      b'.feed place.feed = { b.feed place.feed with
        channel := { (b.feed place.feed).channel with queue := rest } }

theorem resumed_marked {d : Descriptor} {rest : List (Message Descriptor)}
    (hq : (b.feed place.feed).channel.queue = ⟨1, [d]⟩ :: rest) :
    Resumed b place (b.takeNext place).1 (b.takeNext place).2 := by
  have ht : b.takeNext place = (b.conns.allocate ⟨place.server, some place.listener, d⟩).map .ok
      fun conns => { b.setFeed place.feed { b.feed place.feed with
        channel := { (b.feed place.feed).channel with queue := rest } } with conns } := by
    unfold Bridge.takeNext
    dsimp only
    rw [Channel.receive_marked hq]
    rfl
  rw [ht]
  exact ⟨rfl, rfl, .inr ⟨d, rest, _, hq, rfl, HandleTable.find?_allocated .., assign_same ..⟩⟩

theorem resumed_ended (hq : (b.feed place.feed).channel.queue = [])
    (he : ((b.feed place.feed).channel.senderOpen &&
      (b.feed place.feed).channel.receiverOpen) = false) :
    Resumed b place (b.takeNext place).1 (b.takeNext place).2 := by
  have ht : b.takeNext place =
      (b.setFeed place.feed (b.feed place.feed)).refuse place.server .connectionReset := by
    unfold Bridge.takeNext
    dsimp only
    rw [Channel.receive_empty hq, he]
    rfl
  rw [ht]
  exact ⟨rfl, rfl, .inl ⟨rfl, assign_same ..⟩⟩

theorem resumed (hm : ∀ m ∈ (b.feed place.feed).channel.queue, ∃ d, m = ⟨1, [d]⟩)
    (h : b.resumeAccept place = (.done result, b')) : Resumed b place result b' := by
  unfold Bridge.resumeAccept at h
  split at h
  · rename_i hready
    obtain ⟨hr, rfl⟩ := Prod.mk.inj h
    obtain rfl := Acceptance.done.inj hr
    cases hq : (b.feed place.feed).channel.queue with
    | nil =>
      refine resumed_ended hq ?_
      rw [Bridge.isReady, Channel.isReadable, hq] at hready
      rw [Bool.and_eq_false_iff]
      simpa using hready
    | cons m rest =>
      obtain ⟨d, rfl⟩ := hm m (hq ▸ List.mem_cons_self ..)
      exact resumed_marked hq
  · cases h

/-- An accept does not wait any longer once the channel has ended. -/
theorem resumeAccept_shut (h : (b.feed place.feed).channel.receiverOpen = false) :
    b.resumeAccept place = (b.takeNext place).map .done id := by
  unfold Bridge.resumeAccept Bridge.isReady Channel.isReadable
  rw [h]
  simp

end Accept

def Answered (h : Handle) (e : ListenerEntry) (r : Race) : Prop :=
  match r.accept with
  | .waiting place => place = ⟨h, e.server, e.feed⟩
  | .done (.error x) => x = .connectionReset
  | .done (.ok k) =>
    ∃ c, r.bridge.conns.find? k = some c ∧ c.listener = some h ∧ c.server = e.server

structure Orderly (h : Handle) (e : ListenerEntry) (r : Race) : Prop where
  listener : (r.bridge.feed e.feed).listener = e.listener
  live : r.closing = .retiring → r.bridge.listeners.find? h = some e
  bound : r.net.bound (r.net.listener e.listener).backing = some e.listener
  shared : Shared e.listener r.net r.wakeUp r.closing.stage r.other
  receiver : (r.bridge.feed e.feed).channel.receiverOpen = !r.closing.isShut
  unfailed : r.wakeUp = .failed → r.net.loopbackUp = false
  answered : Answered h e r
  flow : Flow r.net (r.bridge.feed e.feed) r.taken r.wakeUp r.sent r.steps

namespace Orderly

/-- The network changes, and nothing of it that matters but what goes through the feed. -/
theorem move {t : Tailnet} (ho : Orderly h e r) (hs : r.net.Sited t e.listener) :
    t.bound (t.listener e.listener).backing = some e.listener := by
  rw [hs.bound, hs.backing]
  exact ho.bound

theorem closer {s s' : Shutting} {t : Tailnet} {w : WakeUp} (ho : Orderly h e r)
    (hc : r.closing = .shutting s) (hs : s.Step e.listener r.net r.wakeUp s' t w) :
    Orderly h e { r.setNet t with closing := .shutting s', wakeUp := w } := by
  have hshared : Shared e.listener r.net r.wakeUp s r.other := by
    have := ho.shared
    rwa [hc] at this
  exact {
    listener := ho.listener
    live := nofun
    bound := ho.move (hs.sited ho.bound)
    shared := hs.shared ho.bound hshared
    receiver := by
      have := ho.receiver
      rwa [hc] at this
    unfailed := hs.unfailed ho.bound ho.unfailed
    answered := ho.answered
    flow := by
      have hf := ho.listener
      have hb := ho.bound
      rw [← hf] at hs hb hshared
      exact hs.flow hb hshared ho.flow }

theorem other {s' : Shutting} {t : Tailnet} {w : WakeUp} (ho : Orderly h e r)
    (hs : r.other.Step e.listener r.net r.wakeUp s' t w) :
    Orderly h e { r.setNet t with other := s', wakeUp := w } where
  listener := ho.listener
  live := ho.live
  bound := ho.move (hs.sited ho.bound)
  shared := (hs.shared ho.bound ho.shared.symm).symm
  receiver := ho.receiver
  unfailed := hs.unfailed ho.bound ho.unfailed
  answered := ho.answered
  flow := by
    have hf := ho.listener
    have hb := ho.bound
    have hshared := ho.shared.symm
    rw [← hf] at hs hb hshared
    exact hs.flow hb hshared ho.flow

theorem shutdown (ho : Orderly h e r) (hc : r.closing = .shutting .ended) :
    Orderly h e { r.setFeed e.feed { r.bridge.feed e.feed with
      channel := (r.bridge.feed e.feed).channel.shutdown } with closing := .joining } := by
  have hshared := ho.shared
  rw [hc] at hshared
  have hclosed : ¬ r.net.Open (r.bridge.feed e.feed).listener := by
    rw [ho.listener]
    exact hshared.begun (.inl rfl)
  exact {
    listener := by simpa only [feed_setFeed] using ho.listener
    live := nofun
    bound := ho.bound
    shared := hshared
    receiver := by simp only [feed_setFeed]; rfl
    unfailed := ho.unfailed
    answered := ho.answered
    flow := by
      simp only [feed_setFeed]
      exact ho.flow.shutdown hclosed }

theorem pump {f : Feed} {t : Tailnet} (ho : Orderly h e r)
    (hs : (r.bridge.feed e.feed).step r.net = some (f, t)) :
    Orderly h e { (r.setNet t).setFeed e.feed f with
      sent := if r.net.Open e.listener then r.sent
        else r.sent + (f.channel.queue.length - (r.bridge.feed e.feed).channel.queue.length)
      steps := if r.net.Open e.listener then r.steps else r.steps + 1 } := by
  have ha := Feed.advance_of_step hs
  have hflow := ho.flow.advance ha
  have hstays := Feed.stays_advance ha fun hl => ho.flow.shut (ho.flow.leaving hl)
  rw [ho.listener] at hflow hstays
  exact {
    listener := by
      simp only [feed_setFeed]
      exact (Feed.listener_advance ha).trans ho.listener
    live := ho.live
    bound := ho.move hstays.toSited
    shared := ho.shared.stays hstays
    receiver := by
      simp only [feed_setFeed]
      exact (Feed.receiver_advance ha).trans ho.receiver
    unfailed := fun hw => hstays.loopbackUp.trans (ho.unfailed hw)
    answered := ho.answered
    flow := by
      simp only [feed_setFeed]
      exact hflow }

theorem dial {id : StreamId} {t : Tailnet} (ho : Orderly h e r)
    (hc : r.net.connect (r.net.listener e.listener).backing .dialed = .ok (id, t)) :
    Orderly h e (r.setNet t) := by
  have hconn := Tailnet.connects_of_connect ho.bound hc
  have hstays := hconn.stays
  exact {
    listener := ho.listener
    live := ho.live
    bound := ho.move hstays.toSited
    shared := ho.shared.stays hstays
    receiver := ho.receiver
    unfailed := fun hw => hstays.loopbackUp.trans (ho.unfailed hw)
    answered := ho.answered
    flow := by
      rw [← ho.listener] at hconn
      exact ho.flow.arrives hconn }

theorem waiting {place : Waiting} (ho : Orderly h e r) (hw : r.accept = .waiting place) :
    place = ⟨h, e.server, e.feed⟩ ∧ r.taken = [] := by
  have hplace := ho.answered
  unfold Answered at hplace
  unfold taken
  rw [hw] at hplace ⊢
  exact ⟨hplace, rfl⟩

theorem accept {place : Waiting} {result : Except BridgeError Handle} {b : Bridge Tailnet}
    (ho : Orderly h e r) (hw : r.accept = .waiting place)
    (hr : r.bridge.resumeAccept place = (.done result, b)) :
    Orderly h e { r with bridge := b, accept := .done result } := by
  obtain ⟨rfl, htaken⟩ := ho.waiting hw
  have hflow := ho.flow
  rw [htaken] at hflow
  obtain ⟨hnet, hlisteners, hgives⟩ := resumed ho.flow.marked hr
  obtain ⟨⟨servers, listeners, conns, feed, feeds⟩, t⟩ := b
  obtain rfl : t = r.bridge.net := hnet
  obtain rfl : listeners = r.bridge.listeners := hlisteners
  rcases hgives with ⟨rfl, hfeed⟩ | ⟨d, rest, k, hq, rfl, hfind, hfeed⟩
  · exact { ho with
      listener := (congrArg Feed.listener hfeed).trans ho.listener
      receiver := (congrArg (·.channel.receiverOpen) hfeed).trans ho.receiver
      answered := rfl
      flow := hfeed ▸ hflow }
  · exact { ho with
      listener := (congrArg Feed.listener hfeed).trans ho.listener
      receiver := (congrArg (·.channel.receiverOpen) hfeed).trans ho.receiver
      answered := ⟨_, hfind, rfl, rfl⟩
      flow := by
        have ht := hflow.take hq
        rw [← hfeed] at ht
        unfold taken
        dsimp only
        rw [hfind]
        exact ht }

/-- The close gets further where nobody but itself takes note. -/
theorem onward {c : Closing} {listeners : HandleTable ListenerEntry} (ho : Orderly h e r)
    (hstage : c.stage = r.closing.stage) (hshut : c.isShut = r.closing.isShut)
    (hc : c ≠ .retiring) :
    Orderly h e { r with bridge := { r.bridge with listeners }, closing := c } :=
  { ho with
    live := fun h => absurd h hc
    shared := by
      rw [hstage]
      exact ho.shared
    receiver := by
      rw [hshut]
      exact ho.receiver }

theorem step (ho : Orderly h e r) (hs : r.Step h e a r') : Orderly h e r' := by
  cases hs with
  | retire hc => exact ho.onward (by rw [hc]; rfl) (by rw [hc]; rfl) nofun
  | shut hc hs => exact ho.closer hc hs
  | shutdown hc => exact ho.shutdown hc
  | join hc => exact ho.onward (by rw [hc]; rfl) (by rw [hc]; rfl) nofun
  | shutToo hs => exact ho.other hs
  | pump hs => exact ho.pump hs
  | accept hw hr => exact ho.accept hw hr
  | dial hc => exact ho.dial hc

theorem run {actors : List Actor} (ho : Orderly h e r) (hr : Run h e actors r r') :
    Orderly h e r' := by
  induction hr with
  | refl => exact ho
  | step _ hs ih => exact (ih ho).step hs

end Orderly

/-- What goes through the feed of an open listener on a tailnet with bridges. -/
theorem flow_start {s : Traffic} {i : Nat} (hs : s.Intact)
    (he : (s.tables i).listeners.find? h = some e) (ho : s.net.Open e.listener) :
    Flow s.net ((s.tables i).feed e.feed) [] .pending 0 0 := by
  have hline := hs.lines i h e he ho
  have hl := (hs.entries i h e he).2
  have hrecv := hline.receiver
  exact {
    marked := hline.marked
    ended := by
      rw [hline.sender]
      obtain ⟨phase, hp | ⟨d, hp⟩⟩ := hline.moving <;> rw [hp] <;> simp
    leaving := by
      obtain ⟨phase, hp | ⟨d, hp⟩⟩ := hline.moving <;> rw [hp] <;> nofun
    shut := fun hr => by
      rw [hrecv] at hr
      cases hr
    known := fun d hd => by
      rw [List.nil_append, hl] at hd
      have hmem : d ∈ Traffic.dialedTo s.log e.listener := by
        rw [hline.balance, List.append_assoc, List.append_assoc]
        exact List.mem_append_right _ (by simpa only [List.append_assoc] using hd)
      obtain ⟨target, id, hm, rfl⟩ := Traffic.mem_dialedTo.mp hmem
      exact (hs.dialed _ _ _ hm).2.1
    still := fun _ => ⟨rfl, rfl⟩
    sent := (Nat.zero_add _).symm ▸ Pump.length_handing_le _
    steps := (Nat.zero_add _).symm ▸ Pump.rest_le _
    made := nofun
    awake := nofun
    hidden := nofun }

/-- The close of any listener that came about and is open starts in order. -/
theorem orderly_start {s : Traffic} {i : Nat} (hs : s.Intact)
    (he : (s.tables i).listeners.find? h = some e) (ho : s.net.Open e.listener) :
    Orderly h e (.of (s.bridge i) h e) where
  listener := (hs.entries i h e he).2
  live := fun _ => he
  bound := hs.wired.bound _ (hs.wired.held _ ho)
  shared := ⟨fun hb => hb.elim nofun nofun, fun _ => rfl, fun _ hc => absurd ho hc,
    fun hw => absurd rfl hw⟩
  receiver := (hs.lines i h e he ho).receiver
  unfailed := nofun
  answered := rfl
  flow := flow_start hs he ho

end Race
end Handoff
