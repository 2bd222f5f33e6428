import Handoff.Proofs.Stream.Growing
import Handoff.Proofs.Traffic.Sparing

/-!
Who holds a listener. A node that lists it does, also after it was closed, and lets go of it when
it opens another listener or ends.
-/

namespace Handoff.Tailnet
variable {t u w : Tailnet} {l k : ListenerId} {n : NodeId} {o : Nat} {q : List Descriptor}

def Unlisted (t : Tailnet) (l : ListenerId) : Prop :=
  ∀ n, l ∉ (t.node n).listeners

/-- One node lists the listener, once, and holds it, or none does; and so do `o` others. -/
structure Tallied (t : Tailnet) (l : ListenerId) (o : Nat) : Prop where
  made : l < t.listeners
  held : (∃ n, (t.node n).listeners.count l = 1 ∧ (∀ m, m ≠ n → l ∉ (t.node m).listeners) ∧
      (t.listener l).holders = o + 1) ∨
    t.Unlisted l ∧ (t.listener l).holders = o

/-- Nobody else has a copy of a connection that waits at the listener. -/
def Sole (t : Tailnet) (l : ListenerId) : Prop :=
  ∀ d ∈ (t.listener l).queued, d.stream < t.streams.count ∧ (t.streams.own d).holders ≤ 1

/-- The listener is closed, and nobody but a node holds it. The connections `q` wait there while
one does, and have ended after that. -/
structure Adrift (t : Tailnet) (l : ListenerId) (q : List Descriptor) : Prop where
  closed : ¬ t.Open l
  tallied : t.Tallied l 0
  made : ∀ d ∈ q, d.stream < t.streams.count
  waits : ∀ n, l ∈ (t.node n).listeners → (t.listener l).queued = q ∧ t.Sole l
  ends : t.Unlisted l → (t.listener l).queued = [] ∧ ∀ d ∈ q, (t.streams.own d).ended = true

/-- Of the connections that wait at the listener after something happened, the others waited there
before, and none has got another copy. -/
structure Queues (l : ListenerId) (t u : Tailnet) : Prop extends t.streams.Ebbs u.streams where
  waits : ∀ d ∈ (u.listener l).queued,
    d ∈ (t.listener l).queued ∧ (u.streams.own d).holders ≤ (t.streams.own d).holders ∨
      t.streams.count ≤ d.stream ∧ d.stream < u.streams.count ∧ (u.streams.own d).holders ≤ 1

structure Holds (l : ListenerId) (t u : Tailnet) : Prop extends Queues l t u where
  listeners : t.listeners ≤ u.listeners
  lists : ∀ n, (u.node n).listeners.count l = (t.node n).listeners.count l
  holders : (u.listener l).holders = (t.listener l).holders

structure Retains (l : ListenerId) (t u : Tailnet) : Prop extends Holds l t u where
  rests : ¬ t.Open l → u.listener l = t.listener l

structure Tends (l : ListenerId) (t u : Tailnet) : Prop extends Queues l t u where
  tallied : ∀ o, t.Tallied l o → u.Tallied l o
  adrift : ∀ q, t.Adrift l q → u.Adrift l q

theorem Queues.refl (l : ListenerId) (t : Tailnet) : Queues l t t :=
  ⟨.refl _, fun _ hd => .inl ⟨hd, Nat.le_refl _⟩⟩

theorem Queues.trans (h : Queues l t u) (h' : Queues l u w) : Queues l t w where
  toEbbs := h.toEbbs.trans h'.toEbbs
  waits := fun d hd => by
    rcases h'.waits d hd with ⟨hu, hle⟩ | ⟨hnew, hmade, hone⟩
    · rcases h.waits d hu with ⟨ht, hle'⟩ | ⟨hnew, hmade, hone⟩
      · exact .inl ⟨ht, Nat.le_trans hle hle'⟩
      · exact .inr ⟨hnew, Nat.lt_of_lt_of_le hmade h'.count, Nat.le_trans hle hone⟩
    · exact .inr ⟨Nat.le_trans h.count hnew, hmade, hone⟩

theorem Queues.sole (h : Queues l t u) (ht : t.Sole l) : u.Sole l := by
  intro d hd
  rcases h.waits d hd with ⟨hold, hle⟩ | ⟨-, hnew⟩
  · obtain ⟨hmade, hone⟩ := ht d hold
    exact ⟨Nat.lt_of_lt_of_le hmade h.count, Nat.le_trans hle hone⟩
  · exact hnew

theorem Holds.refl (l : ListenerId) (t : Tailnet) : Holds l t t :=
  ⟨.refl l t, Nat.le_refl _, fun _ => rfl, rfl⟩

theorem Holds.trans (h : Holds l t u) (h' : Holds l u w) : Holds l t w where
  toQueues := h.toQueues.trans h'.toQueues
  listeners := Nat.le_trans h.listeners h'.listeners
  lists := fun n => (h'.lists n).trans (h.lists n)
  holders := h'.holders.trans h.holders

theorem Retains.refl (l : ListenerId) (t : Tailnet) : Retains l t t :=
  ⟨.refl l t, fun _ => rfl⟩

theorem Retains.closed (h : Retains l t u) (hc : ¬ t.Open l) : ¬ u.Open l := by
  rwa [Open, h.rests hc]

theorem Retains.trans (h : Retains l t u) (h' : Retains l u w) : Retains l t w where
  toHolds := h.toHolds.trans h'.toHolds
  rests := fun hc => (h'.rests (h.closed hc)).trans (h.rests hc)

theorem Tends.refl (l : ListenerId) (t : Tailnet) : Tends l t t :=
  ⟨.refl l t, fun _ => id, fun _ => id⟩

theorem Tends.trans (h : Tends l t u) (h' : Tends l u w) : Tends l t w where
  toQueues := h.toQueues.trans h'.toQueues
  tallied := fun o ht => h'.tallied o (h.tallied o ht)
  adrift := fun q ht => h'.adrift q (h.adrift q ht)

section Holding
variable (h : Holds l t u)
include h

theorem Holds.mem_iff : l ∈ (u.node n).listeners ↔ l ∈ (t.node n).listeners := by
  rw [← List.count_pos_iff, h.lists, List.count_pos_iff]

theorem Holds.unlisted_iff : u.Unlisted l ↔ t.Unlisted l :=
  forall_congr' fun _ => not_congr h.mem_iff

theorem Holds.tallied (ht : t.Tallied l o) : u.Tallied l o where
  made := Nat.lt_of_lt_of_le ht.made h.listeners
  held := by
    rcases ht.held with ⟨n, hone, hothers, hholders⟩ | ⟨hnone, hholders⟩
    · refine .inl ⟨n, (h.lists n).trans hone, fun m hm => ?_, h.holders.trans hholders⟩
      exact fun hl => hothers m hm (h.mem_iff.mp hl)
    · exact .inr ⟨h.unlisted_iff.mpr hnone, h.holders.trans hholders⟩

end Holding

theorem Retains.adrift (h : Retains l t u) (ht : t.Adrift l q) : u.Adrift l q where
  closed := h.closed ht.closed
  tallied := h.tallied ht.tallied
  made := fun d hd => Nat.lt_of_lt_of_le (ht.made d hd) h.count
  waits := fun n hn => by
    obtain ⟨hq, hsole⟩ := ht.waits n (h.mem_iff.mp hn)
    exact ⟨(congrArg Listener.queued (h.rests ht.closed)).trans hq, h.sole hsole⟩
  ends := fun hnone => by
    obtain ⟨hq, hended⟩ := ht.ends (h.unlisted_iff.mp hnone)
    refine ⟨(congrArg Listener.queued (h.rests ht.closed)).trans hq, fun d hd => ?_⟩
    exact h.ended d (ht.made d hd) (hended d hd)

theorem Retains.tends (h : Retains l t u) : Tends l t u :=
  ⟨h.toQueues, fun _ => h.tallied, fun _ => h.adrift⟩

/-- The listener and the lists are as they were. -/
theorem Retains.of_eq (hs : u.streams = t.streams) (hl : u.listener l = t.listener l)
    (hlists : ∀ n, (u.node n).listeners.count l = (t.node n).listeners.count l)
    (hls : t.listeners ≤ u.listeners) : Retains l t u where
  count := Nat.le_of_eq (congrArg Streams.count hs.symm)
  ended := fun d _ he => by rwa [hs]
  waits := fun d hd => .inl ⟨hl ▸ hd, Nat.le_of_eq (by rw [hs])⟩
  listeners := hls
  lists := hlists
  holders := congrArg Listener.holders hl
  rests := fun _ => hl

/-- Connections are used and closed, and no copy is made of one that waits at the listener. -/
theorem retains_streams {streams : Streams} (he : t.streams.Ebbs streams)
    (hle : ∀ d ∈ (t.listener l).queued, (streams.own d).holders ≤ (t.streams.own d).holders) :
    Retains l t { t with streams } where
  toEbbs := he
  waits := fun d hd => .inl ⟨hd, hle d hd⟩
  listeners := Nat.le_refl _
  lists := fun _ => rfl
  holders := rfl
  rests := fun _ => rfl

theorem retains_closeStream (t : Tailnet) (l : ListenerId) (d : Descriptor) :
    Retains l t { t with streams := t.streams.close d } :=
  retains_streams (t.streams.ebbs_close d) fun e _ => t.streams.holders_close_le d e

theorem retains_closeAll (t : Tailnet) (l : ListenerId) (ds : List Descriptor) :
    Retains l t { t with streams := t.streams.closeAll ds } :=
  retains_streams (t.streams.ebbs_closeAll ds) fun e _ => t.streams.holders_closeAll_le ds e

theorem retains_setNode {x : Node}
    (hx : x.listeners.count l = (t.node n).listeners.count l) : Retains l t (t.setNode n x) := by
  refine .of_eq rfl rfl (fun m => ?_) (Nat.le_refl _)
  rw [node_setNode]
  split
  · rw [‹m = n›, hx]
  · rfl

/-- Of a listener other than `l`. -/
theorem retains_setListener {x : Listener} (hk : k ≠ l) : Retains l t (t.setListener k x) := by
  refine .of_eq rfl ?_ (fun _ => rfl) (Nat.le_refl _)
  rw [listener_setListener, if_neg hk.symm]

/-- Connections are taken from where they wait. -/
theorem holds_setBacklog {backlog : List Arrival} (hsub : backlog ⊆ (t.listener k).backlog) :
    Holds l t (t.setListener k { t.listener k with backlog }) where
  toEbbs := .refl _
  waits := fun d hd => by
    refine .inl ⟨?_, Nat.le_refl _⟩
    rw [listener_setListener] at hd
    split at hd
    · subst k
      obtain ⟨a, ha, rfl⟩ := List.mem_map.mp hd
      exact List.mem_map_of_mem (hsub ha)
    · exact hd
  listeners := Nat.le_refl _
  lists := fun _ => rfl
  holders := by
    rw [listener_setListener]
    split
    · rw [‹l = k›]
    · rfl

theorem holds_connect {backing : Endpoint} {arrival : StreamId → Arrival} {id : StreamId}
    (ha : ∀ id, (arrival id).stream = id) (h : t.connect backing arrival = .ok (id, u)) :
    Holds l t u := by
  obtain ⟨k, -, rfl, rfl⟩ := connect_ok h
  let made := (t.streams.connect (t.loopbackAt t.ports) backing).2
  have hnew : ∀ d, d.stream = t.streams.count → (made.own d).holders = 1 := by
    intro d hd
    rw [Streams.own_connect, if_pos hd]
  have hold : ∀ d, d.stream ≠ t.streams.count → made.own d = t.streams.own d := by
    intro d hd
    rw [Streams.own_connect, if_neg hd]
  exact {
    toEbbs := t.streams.ebbs_connect _ _
    waits := fun d hd => by
      by_cases hd' : d.stream = t.streams.count
      · exact .inr ⟨Nat.le_of_eq hd'.symm, Nat.lt_succ_of_le (Nat.le_of_eq hd'),
          Nat.le_of_eq (hnew d hd')⟩
      · refine .inl ⟨?_, Nat.le_of_eq (congrArg StreamEnd.holders (hold d hd'))⟩
        change d ∈ ((t.setListener k _).listener l).queued at hd
        rw [listener_setListener] at hd
        split at hd
        · subst k
          rw [Listener.queued, List.map_append, List.mem_append] at hd
          refine hd.resolve_right fun hlast => hd' ?_
          rw [List.mem_singleton.mp hlast]
          exact ha _
        · exact hd
    listeners := Nat.le_refl _
    lists := fun _ => rfl
    holders := by
      change ((t.setListener k _).listener l).holders = _
      rw [listener_setListener]
      split
      · rw [‹l = k›]
      · rfl }

theorem holds_wake (t : Tailnet) (l k : ListenerId) : Holds l t (t.wake k) := by
  unfold wake
  split
  · exact .refl l t
  · rename_i id u h
    have hmade : Holds l t u := holds_connect (fun _ => rfl) h
    exact hmade.trans (retains_closeStream u l _).toHolds

theorem holds_closeListener (t : Tailnet) (l k : ListenerId) : Holds l t (t.closeListener k) := by
  unfold closeListener
  split
  · exact .refl l t
  · have hmarked : Holds l t ((t.markClosed k).unroute k) := {
      toEbbs := .refl _
      waits := fun d hd => by
        refine .inl ⟨?_, Nat.le_refl _⟩
        rw [listener_shut] at hd
        split at hd
        · subst k
          exact hd
        · exact hd
      listeners := Nat.le_refl _
      lists := fun _ => rfl
      holders := by
        rw [listener_shut]
        split
        · rw [‹l = k›]
        · rfl }
    exact hmarked.trans (holds_wake _ l k)

/-- The connection that wakes an accept waits at the listener that is closed, and no other. -/
theorem listener_closeListener_ne (hw : Wired t) (hk : l ≠ k) :
    (t.closeListener k).listener l = t.listener l := by
  have hin : Inside (· = k) ((t.listener k).addresses.map Endpoint.ip) t := by
    rintro _ rfl - e he
    exact List.mem_map_of_mem he
  exact (spares_closeListener hw hin rfl).listener l hk

theorem retains_closeListener (hw : Wired t) (l k : ListenerId) :
    Retains l t (t.closeListener k) where
  toHolds := holds_closeListener t l k
  rests := fun hc => by
    by_cases hk : l = k
    · rw [← hk, closeListener_closed hc]
    · exact listener_closeListener_ne hw hk

theorem retains_closeListeners (hw : Wired t) (l : ListenerId) (ls : List ListenerId) :
    Retains l t (ls.foldl closeListener t) := by
  induction ls generalizing t with
  | nil => exact .refl l t
  | cons k ls ih =>
    exact (retains_closeListener hw l k).trans (ih (calm_closeListener hw k).wired)

section Releasing

theorem retains_releaseListener (t : Tailnet) (hk : k ≠ l) :
    Retains l t (t.releaseListener k) := by
  have hset : ∀ x, Retains l t (t.setListener k x) := fun x => retains_setListener hk
  unfold releaseListener
  dsimp only
  split
  · exact .refl l t
  · let v : Tailnet := { t.setListener k { t.listener k with holders := 0, backlog := [] } with
      bound := assign t.bound (t.listener k).backing none }
    have hunbound :
        Retains l (t.setListener k { t.listener k with holders := 0, backlog := [] }) v :=
      .of_eq rfl rfl (fun _ => rfl) (Nat.le_refl _)
    exact ((hset _).trans hunbound).trans (retains_closeAll v l _)
  · exact hset _

theorem retains_releaseListeners {ls : List ListenerId} (hl : l ∉ ls) :
    Retains l t (ls.foldl releaseListener t) := by
  induction ls generalizing t with
  | nil => exact .refl l t
  | cons k ls ih =>
    rw [List.mem_cons, not_or] at hl
    exact (retains_releaseListener t (Ne.symm hl.1)).trans (ih hl.2)

/-- With the last hold the queue goes. -/
theorem queues_releaseListener (t : Tailnet) (l k : ListenerId) :
    Queues l t (t.releaseListener k) := by
  by_cases hk : k = l
  · subst k
    unfold releaseListener
    dsimp only
    split
    · exact .refl l t
    · refine ⟨t.streams.ebbs_closeAll _, fun d hd => ?_⟩
      change d ∈ ((t.setListener l _).listener l).queued at hd
      rw [listener_setListener, if_pos rfl] at hd
      cases hd
    · refine ⟨.refl _, fun d hd => .inl ⟨?_, Nat.le_refl _⟩⟩
      rw [listener_setListener, if_pos rfl] at hd
      exact hd
  · exact (retains_releaseListener t hk).toQueues

theorem queues_releaseListeners (t : Tailnet) (l : ListenerId) (ls : List ListenerId) :
    Queues l t (ls.foldl releaseListener t) := by
  induction ls generalizing t with
  | nil => exact .refl l t
  | cons k ls ih => exact (queues_releaseListener t l k).trans (ih _)

theorem listeners_releaseListener (t : Tailnet) (l : ListenerId) :
    (t.releaseListener l).listeners = t.listeners := by
  unfold releaseListener
  dsimp only
  split <;> rfl

theorem listener_releaseListener (h : (t.listener l).holders = o + 1) :
    (t.releaseListener l).listener l = { t.listener l with
      holders := o
      backlog := if o = 0 then [] else (t.listener l).backlog } := by
  unfold releaseListener
  dsimp only
  rw [h]
  cases o with
  | zero => exact assign_same ..
  | succ o => exact assign_same ..

/-- One hold less. -/
theorem Tallied.release (ht : t.Tallied l (o + 1)) : (t.releaseListener l).Tallied l o where
  made := by
    rw [listeners_releaseListener]
    exact ht.made
  held := by
    rw [Unlisted, node_releaseListener]
    rcases ht.held with ⟨n, hone, hothers, hholders⟩ | ⟨hnone, hholders⟩
    · exact .inl ⟨n, hone, hothers, congrArg Listener.holders (listener_releaseListener hholders)⟩
    · exact .inr ⟨hnone, congrArg Listener.holders (listener_releaseListener hholders)⟩

/-- With the last hold the connections end that wait. -/
theorem release_ends (h : (t.listener l).holders = 1) :
    ((t.releaseListener l).listener l).queued = [] ∧ (t.Sole l →
      ∀ d ∈ (t.listener l).queued, ((t.releaseListener l).streams.own d).ended = true) := by
  constructor
  · rw [listener_releaseListener h]
    rfl
  · intro hsole d hd
    obtain ⟨hmade, hlast⟩ := hsole d hd
    unfold releaseListener
    dsimp only
    rw [h]
    exact Streams.ended_closeAll hd hmade hlast

/-- When the last of the others lets go of a closed listener, the connections that wait there end
unless a node has it on its list. -/
theorem Tallied.adrift (ht : t.Tallied l 1) (hw : t.Wired) (hc : ¬ t.Open l) (hs : t.Sole l) :
    (t.releaseListener l).Adrift l (t.listener l).queued where
  closed := fun ho => hc ((calm_releaseListener hw hc).open ho)
  tallied := ht.release
  made := fun d hd =>
    Nat.lt_of_lt_of_le (hs d hd).1 (queues_releaseListener t l l).count
  waits := fun n hn => by
    rw [node_releaseListener] at hn
    rcases ht.held with ⟨m, -, -, hholders⟩ | ⟨hnone, -⟩
    · refine ⟨?_, (queues_releaseListener t l l).sole hs⟩
      rw [listener_releaseListener hholders]
      rfl
    · exact absurd hn (hnone n)
  ends := fun hnone => by
    rw [Unlisted, node_releaseListener] at hnone
    rcases ht.held with ⟨m, hone, -, -⟩ | ⟨-, hholders⟩
    · exact absurd (List.count_pos_iff.mp (hone ▸ Nat.one_pos)) (hnone m)
    · obtain ⟨hqueue, hended⟩ := release_ends hholders
      exact ⟨hqueue, hended hs⟩

end Releasing

end Handoff.Tailnet
