import Handoff.Proofs.Stream.Account
import Handoff.Proofs.Tailnet.Reaching
import Handoff.Proofs.Traffic.Calls

namespace Handoff

/-- The connections that are between a listener's socket and whoever accepts them. -/
def Feed.kept (f : Feed) : List Descriptor :=
  f.channel.pending ++ f.pump.held.toList

namespace Tailnet
variable {base : Streams} {tables : Nat → Tables} {hand : List Descriptor} {t t' : Tailnet}
  {n : NodeId} {l : ListenerId} {d : Descriptor}

def keptAt (t : Tailnet) (tables : Nat → Tables) (hand : List Descriptor) :
    Spot → List Descriptor
  | .hand => hand
  | .conns i => (tables i).conns.entries.map Conn.descriptor
  | .feed i k => ((tables i).feed k).kept
  | .queue l => (t.listener l).queued

def Keeps (base : Streams) (tables : Nat → Tables) (hand : List Descriptor) (t : Tailnet) : Prop :=
  Accounted base t.streams (t.keptAt tables hand)

theorem keptAt_setListener (t : Tailnet) (l : ListenerId) (x : Listener) :
    (t.setListener l x).keptAt tables hand = assign (t.keptAt tables hand) (.queue l) x.queued := by
  funext r
  rw [assign_apply]
  cases r with
  | queue k =>
    simp only [keptAt, listener_setListener, Spot.queue.injEq]
    split <;> rfl
  | _ => rfl

theorem keptAt_hand (t : Tailnet) (tables : Nat → Tables) (hand hand' : List Descriptor) :
    t.keptAt tables hand' = assign (t.keptAt tables hand) .hand hand' := by
  funext r
  cases r <;> rfl

structure Idle (t t' : Tailnet) : Prop where
  streams : t'.streams = t.streams
  queued : ∀ l, (t'.listener l).queued = (t.listener l).queued

theorem Idle.of_eq (hs : t'.streams = t.streams) (hl : t'.listener = t.listener) : Idle t t' :=
  ⟨hs, fun _ => by rw [hl]⟩

theorem streams_log (t : Tailnet) (n : NodeId) (line : String) :
    (t.log n line).streams = t.streams := by
  unfold log
  split
  · rfl
  · split <;> rfl

theorem Rests.idle (h : Rests t t' n) : Idle t t' :=
  .of_eq h.streams h.listener

theorem idle_setListener {x : Listener} (hx : x.backlog = (t.listener l).backlog) :
    Idle t (t.setListener l x) := by
  refine ⟨rfl, fun k => ?_⟩
  rw [listener_setListener]
  split
  · subst k
    rw [Listener.queued, hx]
    rfl
  · rfl

theorem Keeps.idle (h : Keeps base tables hand t) (hi : Idle t t') :
    Keeps base tables hand t' := by
  unfold Keeps
  rw [hi.streams]
  apply h.fewer
  intro r e
  cases r with
  | queue l => simp only [keptAt, hi.queued, Nat.le_refl]
  | _ => exact Nat.le_refl _

theorem Keeps.of_eq (h : Keeps base tables hand t) (hs : t'.streams = t.streams)
    (hl : t'.listener = t.listener) : Keeps base tables hand t' :=
  h.idle (.of_eq hs hl)

theorem Keeps.log (h : Keeps base tables hand t) (n : NodeId) (line : String) :
    Keeps base tables hand (t.log n line) :=
  h.of_eq (streams_log ..) (listener_log ..)

theorem Keeps.hand_perm {hand' : List Descriptor} (h : Keeps base tables hand t)
    (hp : hand'.Perm hand) : Keeps base tables hand' t := by
  unfold Keeps
  rw [keptAt_hand t tables hand hand']
  apply h.fewer_at
  intro e
  exact Nat.le_of_eq (hp.count_eq e)

/-- Somebody closes a copy of their own. -/
theorem Keeps.close (h : Keeps base tables (d :: hand) t) :
    Keeps base tables hand { t with streams := t.streams.close d } := by
  unfold Keeps
  change Accounted base (t.streams.close d) (t.keptAt tables hand)
  rw [keptAt_hand t tables (d :: hand) hand]
  apply Accounted.close h
  intro e
  simp only [keptAt, List.count_cons, List.count_nil]
  omega

/-- A connection is made: the other end waits at the listener. -/
theorem Keeps.connect (h : Keeps base tables hand t) {backing : Endpoint}
    {arrival : StreamId → Arrival} (ha : ∀ id, (arrival id).stream = id) {id : StreamId}
    (hc : t.connect backing arrival = .ok (id, t')) :
    Keeps base tables (⟨id, .near⟩ :: hand) t' := by
  obtain ⟨l, -, rfl, rfl⟩ := connect_ok hc
  unfold Keeps
  have hmade := Accounted.connect h (t.loopbackAt t.ports) backing (p := .queue l) nofun
  rw [keptAt_hand _ tables hand]
  change Accounted base (t.streams.connect (t.loopbackAt t.ports) backing).2
    (assign ((t.setListener l _).keptAt tables hand) .hand _)
  rw [keptAt_setListener]
  have hqueued : Listener.queued { t.listener l with
      backlog := (t.listener l).backlog ++ [arrival t.streams.count] } =
      (t.listener l).queued ++ [⟨t.streams.count, .far⟩] := by
    simp only [Listener.queued, List.map_append, List.map_cons, List.map_nil, ha]
  rw [hqueued]
  exact hmade

theorem Keeps.wake (h : Keeps base tables hand t) (l : ListenerId) :
    Keeps base tables hand (t.wake l) := by
  unfold Tailnet.wake
  split
  · exact h
  · rename_i id u hc
    have hmade := h.connect (fun _ => rfl) hc
    exact hmade.close

theorem Keeps.closeListener (h : Keeps base tables hand t) (l : ListenerId) :
    Keeps base tables hand (t.closeListener l) := by
  unfold Tailnet.closeListener
  split
  · exact h
  · have hmarked : Keeps base tables hand (t.markClosed l) := h.idle (idle_setListener rfl)
    have hshut : Keeps base tables hand ((t.markClosed l).unroute l) := hmarked.of_eq rfl rfl
    exact hshut.wake l

/-- With the last hold on a listener the connections that wait there end. -/
theorem Keeps.releaseListener (h : Keeps base tables hand t) (l : ListenerId) :
    Keeps base tables hand (t.releaseListener l) := by
  unfold Tailnet.releaseListener
  dsimp only
  split
  · exact h
  · unfold Keeps
    change Accounted base (t.streams.closeAll (t.listener l).queued)
      ((t.setListener l _).keptAt tables hand)
    rw [keptAt_setListener]
    apply Accounted.closeAll _ h
    intro e
    simp [Listener.queued, keptAt]
  · exact h.idle (idle_setListener rfl)

theorem Keeps.foldl {f : Tailnet → ListenerId → Tailnet}
    (hf : ∀ t l, Keeps base tables hand t → Keeps base tables hand (f t l))
    (h : Keeps base tables hand t) (ls : List ListenerId) :
    Keeps base tables hand (ls.foldl f t) := by
  induction ls generalizing t with
  | nil => exact h
  | cons l ls ih => exact ih (hf t l h)

theorem Keeps.releaseListeners (h : Keeps base tables hand t) (ls : List ListenerId) :
    Keeps base tables hand (ls.foldl Tailnet.releaseListener t) :=
  h.foldl (fun _ l ht => ht.releaseListener l) ls

theorem Keeps.setNode (h : Keeps base tables hand t) (n : NodeId) (x : Node) :
    Keeps base tables hand (t.setNode n x) :=
  h.of_eq rfl rfl

theorem Keeps.dropListeners (h : Keeps base tables hand t) (n : NodeId) :
    Keeps base tables hand (t.dropListeners n) :=
  (h.setNode n _).releaseListeners _

theorem Keeps.releaseNode (h : Keeps base tables hand t) (n : NodeId) :
    Keeps base tables hand (t.releaseNode n) :=
  (h.dropListeners n).setNode n _

theorem Keeps.releaseNodes (h : Keeps base tables hand t) (ns : List NodeId) :
    Keeps base tables hand (ns.foldl (fun t n => t.releaseNode n) t) := by
  induction ns generalizing t with
  | nil => exact h
  | cons n ns ih => exact ih (h.releaseNode n)

theorem Keeps.configure (h : Keeps base tables hand t) (n : NodeId) (option : NodeOption) :
    Keeps base tables hand (t.configure n option).2 := by
  unfold Tailnet.configure
  split
  · exact h.setNode n _
  · exact h

theorem Keeps.endNode (h : Keeps base tables hand t) (n : NodeId) :
    Keeps base tables hand (t.close n).2 := by
  unfold Tailnet.close
  dsimp only
  split
  · exact h
  · apply Keeps.log
    have hended := h.setNode n
      { t.node n with phase := .closed, online := false, loopback := none }
    have hclosed := hended.foldl (fun _ l ht => ht.closeListener l) (t.node n).listeners
    exact (hclosed.dropListeners n).of_eq rfl rfl

section Starting
variable {α : Type}

theorem Keeps.start (h : Keeps base tables hand t) (n : NodeId) :
    Keeps base tables hand (t.start n).2 :=
  h.idle (rests_start t n).idle

/-- A verb that starts its node goes on from there, or fails. -/
theorem Keeps.begins {k : Tailnet → Except Fault α × Tailnet}
    (hk : ∀ t, Keeps base tables hand t → Keeps base tables hand (k t).2)
    (h : Keeps base tables hand t) {p : Except Fault α × Tailnet}
    (hp : p = match t.start n with
      | (.error f, t) => (.error f, t)
      | (.ok (), t) => k t) : Keeps base tables hand p.2 :=
  of_start (P := fun p => Keeps base tables hand p.2) (fun _ _ => h.start n)
    (fun _ => hk _ (h.start n)) hp

theorem Keeps.up (h : Keeps base tables hand t) (n : NodeId) :
    Keeps base tables hand (t.up n).2 := by
  refine h.begins (fun t h => ?_) rfl
  split
  · exact h
  · split
    · exact h
    · split
      · exact h
      · rename_i t₂ h₂
        obtain ⟨files, rfl⟩ := saveState_ok h₂
        apply Keeps.log
        exact h.of_eq rfl rfl

theorem Keeps.loopback (h : Keeps base tables hand t) (n : NodeId) :
    Keeps base tables hand (t.loopback n).2 := by
  refine h.begins (fun t h => ?_) rfl
  split
  · exact h
  · split
    · exact h
    · apply Keeps.log
      exact h.of_eq rfl rfl

/-- Asking a node for something moves no connection, nor does it make or close one. -/
theorem Keeps.ask (h : Keeps base tables hand t) {v : NodeVerb} (hv : v.isQuiet = true)
    (n : NodeId) : Keeps base tables hand (t.ask n v).2 := by
  cases v with
  | configure option => exact h.configure n option
  | start => exact h.start n
  | up => exact h.up n
  | loopback => exact h.loopback n
  | addresses => exact h
  | certDomains => exact h
  | dial _ _ => cases hv
  | listen _ _ _ => cases hv
  | close => cases hv

theorem Keeps.pruneListeners (h : Keeps base tables hand t) (n : NodeId) :
    Keeps base tables hand (t.pruneListeners n) :=
  (h.setNode n _).releaseListeners _

/-- At a new listener nobody waits. -/
theorem Keeps.install (h : Keeps base tables hand t) (n : NodeId) (plan : ListenPlan) :
    Keeps base tables hand (t.install n plan).2 := by
  let x : Listener :=
    { backing := t.loopbackAt plan.socket
      addresses := plan.addresses
      funnel := plan.funnel
      holders := 2 }
  have hnew : Keeps base tables hand (t.setListener t.listeners x) := by
    unfold Keeps
    rw [keptAt_setListener]
    apply h.fewer_at
    intro e
    exact Nat.zero_le _
  exact hnew.of_eq rfl rfl

theorem Keeps.listen (h : Keeps base tables hand t) (n : NodeId) (network address : String)
    (funnel : Option FunnelMode) :
    Keeps base tables hand (t.listen n network address funnel).2 := by
  unfold Tailnet.listen
  split
  · exact h
  · refine h.begins (fun t h => ?_) rfl
    split
    · exact h
    · rename_i plan _
      apply Keeps.log
      exact (h.pruneListeners n).install n plan

/-- A dial that succeeds gives its caller the near end. -/
theorem Keeps.dial (h : Keeps base tables hand t) (n : NodeId) (network address : String) :
    Keeps base tables ((t.dial n network address).1.toOption.toList ++ hand)
      (t.dial n network address).2 := by
  rw [Tailnet.dial_eq]
  split
  · exact h
  · have hs := h.start n
    revert hs
    generalize t.start n = r
    obtain ⟨r, t₁⟩ := r
    intro hs
    cases r with
    | error f => exact hs
    | ok =>
      dsimp only
      split
      · exact hs
      · split
        · exact hs
        · rename_i target route _ _ id t₂ hc
          have hmade := hs.connect (fun _ => rfl) hc
          apply Keeps.log
          apply hmade.of_eq
          · unfold recordDialer
            split <;> rfl
          · exact listener_recordDialer ..

end Starting
end Tailnet
end Handoff
