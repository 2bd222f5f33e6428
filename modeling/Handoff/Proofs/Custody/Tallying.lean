import Handoff.Proofs.Custody.Standing
import Handoff.Proofs.Traffic.Draining

/-!
Who holds the listeners that bridges have handles of, and that the connections which wait there are
open and nobody else's.
-/

namespace Handoff

namespace Tailnet

structure Waited (t : Tailnet) (l : ListenerId) : Prop where
  sole : t.Sole l
  unended : ∀ d ∈ (t.listener l).queued, (t.streams.own d).ended = false

theorem waited_of_empty {t : Tailnet} {l : ListenerId} (h : (t.listener l).queued = []) :
    t.Waited l := by
  constructor
  · intro d hd
    rw [h] at hd
    cases hd
  · intro d hd
    rw [h] at hd
    cases hd

end Tailnet

namespace Custody
open Tailnet (Queues Holds Tends Waited)
open Traffic (Stays Still fits_bridge)
variable {c c' : Custody} {i : Nat} {l : ListenerId} {h : Handle} {e : ListenerEntry}
  {d : Descriptor}

/-- As long as its handle stays, nobody but a node lets go of the listener, and nobody takes a
connection from it. -/
structure Minds (l : ListenerId) (c c' : Custody) : Prop extends Queues l c.net c'.net where
  handles : ∀ i, Stays l (c'.tables i) (c.tables i)
  tends : (∀ i, Stays l (c.tables i) (c'.tables i)) → Tends l c.net c'.net
  still : (∀ i, Stays l (c.tables i) (c'.tables i)) → ∀ i, Still l (c.tables i) (c'.tables i)

theorem minds_bridge {b : Bridge Tailnet} (hb : Traffic.Minds l (c.bridge i) b)
    (hn : c'.net = b.net) (ht : c'.tables = assign c.tables i b.toTables) : Minds l c c' := by
  have hhere : (∀ j, Stays l (c.tables j) (c'.tables j)) → Stays l (c.tables i) b.toTables := by
    intro hs
    have hi := hs i
    rwa [ht, assign_same] at hi
  refine ⟨hn ▸ hb.toQueues, fun j => ?_, fun hs => hn ▸ hb.tends (hhere hs), fun hs j => ?_⟩
  · rw [ht, assign_apply]
    split
    · rw [‹j = i›]
      exact hb.handles
    · exact fun _ _ he _ => he
  · rw [ht, assign_apply]
    split
    · rw [‹j = i›]
      exact hb.still (hhere hs)
    · exact .refl l _

theorem minds_net (hn : Tends l c.net c'.net) (ht : c'.tables = c.tables) : Minds l c c' where
  toQueues := hn.toQueues
  handles := fun i => by
    rw [ht]
    exact fun _ _ he _ => he
  tends := fun _ => hn
  still := fun _ i => by
    rw [ht]
    exact .refl l _

section Waiting

/-- A copy that is anywhere else is one too many. -/
theorem not_queued (hr : Reachable c) (hs : c.net.Sole l) {p : Spot} (hp : p ≠ .queue l)
    (hd : d ∈ c.kept p) : d ∉ (c.net.listener l).queued := by
  intro hq
  have hcovers := (hr.known.held.covered d).at_two hp
  have hthere : 1 ≤ (c.kept p).count d := List.one_le_count_iff.mpr hd
  have hhere : 1 ≤ (c.kept (.queue l)).count d := List.one_le_count_iff.mpr hq
  have hone := (hs d hq).2
  omega

/-- A connection that waits ends only when it is let go of. -/
theorem waited_move (hr : Reachable c) (hm : Move c c') (hq : Queues l c.net c'.net)
    (hw : c.net.Waited l) : c'.net.Waited l := by
  refine ⟨hq.sole hw.sole, fun d hd => ?_⟩
  have hheld := (hr.next hm).known.held
  rcases carries_move hr.known.held hm with hcarries | ⟨f, u, hf, rfl⟩
  · cases hended : (c'.net.streams.own d).ended with
    | false => rfl
    | true =>
      rcases hcarries.accounted.ended d hended with ⟨hmade, hbefore⟩ | hnone
      · rcases hq.waits d hd with ⟨hold, -⟩ | ⟨hnew, -⟩
        · exact absurd hbefore (by rw [hw.unended d hold]; exact Bool.false_ne_true)
        · exact absurd hmade (Nat.not_lt.mpr hnew)
      · exact absurd hnone (Nat.ne_of_gt (hheld.holders_pos (p := .queue l) hd))
  · -- whoever uses a connection has a copy of it
    have hne : d ≠ f := by
      rintro rfl
      exact not_queued hr hw.sole (p := .hand) nofun hf hd
    exact ((c.net.streams.used_use f u).ended_ne hne).trans (hw.unended d hd)

end Waiting

/-- Whatever happens, unless the listener's own pump makes a step. -/
theorem minds_move (hr : Reachable c) (hm : Move c c') (hl : l < c.net.listeners)
    (hs : c.net.Sole l) : Minds l c c' ∨ ∃ i k, k < (c.tables i).feeds ∧
      ((c.tables i).feed k).listener = l ∧
        c' = { c with toTraffic := c.toTraffic.pump i k } := by
  have hw : c.net.Wired := hr.intact.wired
  have hstill : ∀ {net}, Tailnet.Retains l c.net net →
      Minds l c { c with net } := fun hn => minds_net hn.tends rfl
  cases hm with
  | newServer i _ =>
    refine .inl (minds_bridge (b := (c.bridge i).newServer.2) ?_ rfl rfl)
    have hnode : Tailnet.Retains l c.net c.net.newNode.2 :=
      .of_eq rfl rfl (fun _ => rfl) (Nat.le_refl _)
    exact (Traffic.minds_net hnode.tends).trans (Traffic.minds_servers _ l _)
  | perform i v _ =>
    have hperforms : Traffic.Minds l (c.bridge i) ((c.bridge i).perform v).2 :=
      Traffic.minds_perform (fits_bridge hr.intact i) hl
        (fun k conn hk => not_queued hr hs (p := .conns i) nofun (mem_conns hk)) v
    exact .inl (minds_bridge (hperforms.trans (Traffic.minds_keep _ l _)) rfl rfl)
  | resume w _ =>
    exact .inl (minds_bridge (Traffic.minds_takes l (takes_resumed c w)) (net_resume c w)
      (tables_resume c w))
  | pump i k hk =>
    by_cases hown : ((c.tables i).feed k).listener = l
    · exact .inr ⟨i, k, hk, hown, rfl⟩
    · left
      unfold Traffic.pump
      split
      · rename_i f net hstep
        exact minds_bridge (b := ({ c.bridge i with net } : Bridge Tailnet).setFeed k f)
          (Traffic.minds_advance hw hown (Feed.advance_of_step hstep)) rfl rfl
      · exact minds_net (.refl l c.net) rfl
  | dropBridge i _ =>
    exact .inl (minds_bridge (Traffic.minds_drop (fits_bridge hr.intact i) l) rfl rfl)
  | newNode => exact .inl (hstill (.of_eq rfl rfl (fun _ => rfl) (Nat.le_refl _)))
  | use n u _ _ =>
    refine .inl (minds_net ?_ (tables_use c n u))
    rw [net_use]
    cases u with
    | configure option => exact Tailnet.tends_ask hw l n (.configure option)
    | start => exact Tailnet.tends_ask hw l n .start
    | up => exact Tailnet.tends_ask hw l n .up
    | loopback => exact Tailnet.tends_ask hw l n .loopback
    | close => exact Tailnet.tends_ask hw l n .close
    | listen network address funnel =>
      exact Tailnet.tends_ask hw l n (.listen network address funnel)
    | dial network address => exact Tailnet.tends_ask hw l n (.dial network address)
  | closeListener k => exact .inl (hstill (Tailnet.retains_closeListener hw l k))
  | useFiles files => exact .inl (hstill (.of_eq rfl rfl (fun _ => rfl) (Nat.le_refl _)))
  | useStream d u _ =>
    have hused := c.net.streams.used_use d u
    have hnet : Tailnet.Retains l c.net (c.useStream d u).net :=
      Tailnet.retains_streams hused.ebbs fun f _ => Nat.le_of_eq (hused.holders f)
    exact .inl (minds_net hnet.tends rfl)
  | release d _ =>
    have hnet : Tailnet.Retains l c.net (c.release d).net :=
      Tailnet.retains_closeStream c.net l d
    exact .inl (minds_net hnet.tends rfl)

section Entries

/-- A handle is a listener's from before, or it is that of a listener that was opened, where
nobody waits yet. -/
theorem handle_perform (hw : c.net.Wired) {v : Verb}
    (he : ((c.bridge i).perform v).2.listeners.find? h = some e) :
    (c.tables i).listeners.find? h = some e ∨
      ((c.bridge i).perform v).2.net.Tallied e.listener 1 ∧
        (((c.bridge i).perform v).2.net.listener e.listener).queued = [] := by
  let b := c.bridge i
  by_cases hv : v.isMild = true
  · rw [(mild_perform (b := b) hw hv).shaped.listeners] at he
    exact .inl he
  cases v with
  | close server =>
    cases hs : b.servers.find? server with
    | none =>
      rw [show (b.perform (.close server)).2 = b from
        congrArg Prod.snd (Bridge.close_none hs)] at he
      exact .inl he
    | some s => exact .inl ((thinner_close hs).entries h e he).1
  | closeListener k => exact .inl ((thinner_closeListener b k).entries h e he).1
  | listen server network address funnel =>
    change (b.listen server network address funnel).2.listeners.find? h = some e at he
    change _ ∨ (b.listen server network address funnel).2.net.Tallied e.listener 1 ∧
      ((b.listen server network address funnel).2.net.listener e.listener).queued = []
    rcases Traffic.listen_worded b server network address funnel with
      ⟨f, hf⟩ | ⟨s, -, ⟨f, -, hf⟩ | ⟨k, hk, hf⟩⟩
    · rw [hf] at he
      exact .inl he
    · rw [hf] at he
      exact .inl he
    · rw [hf] at he ⊢
      change (b.listeners.allocate _).2.find? h = some e at he
      rw [HandleTable.find?_allocate] at he
      split at he
      · cases he
        exact .inr (Tailnet.tallied_listen hw hk)
      · exact .inl he
  | _ => exact absurd rfl hv

theorem handle_move (hr : Reachable c) (hm : Move c c')
    (he : (c'.tables i).listeners.find? h = some e) :
    (c.tables i).listeners.find? h = some e ∨
      c'.net.Tallied e.listener 1 ∧ (c'.net.listener e.listener).queued = [] := by
  have hassign : ∀ {j : Nat} {T : Tables}, (assign c.tables j T i).listeners.find? h = some e →
      (i = j → T.listeners.find? h = some e → (c.tables i).listeners.find? h = some e) →
      (c.tables i).listeners.find? h = some e := by
    intro j T hT hhere
    rw [assign_apply] at hT
    split at hT
    · exact hhere ‹i = j› hT
    · exact hT
  cases hm with
  | newServer j _ => exact .inl (hassign he fun hj hT => hj ▸ hT)
  | perform j v _ =>
    unfold perform Traffic.perform Fleet.setBridge at he
    dsimp only at he
    rw [assign_apply] at he
    split at he
    · subst j
      exact handle_perform hr.intact.wired he
    · exact .inl he
  | resume w _ =>
    rw [tables_resume] at he
    refine .inl (hassign he fun hj hT => ?_)
    rw [(mild_takes (takes_resumed c w)).shaped.listeners] at hT
    exact hj ▸ hT
  | pump j k _ =>
    left
    unfold Traffic.pump at he
    split at he
    · exact hassign he fun hj hT => hj ▸ hT
    · exact he
  | dropBridge j _ => exact .inl (hassign he fun _ hT => by cases hT)
  | use n u _ _ =>
    rw [tables_use] at he
    exact .inl he
  | _ => exact .inl he

/-- A listener has one handle. -/
theorem handle_unique (hr : Reachable c) (he : (c.tables i).listeners.find? h = some e) {j : Nat}
    {k : Handle} {a : ListenerEntry} (ha : (c.tables j).listeners.find? k = some a)
    (hl : a.listener = e.listener) : j = i ∧ k = h := by
  have hs := hr.intact
  obtain ⟨hlt, hfeed⟩ := hs.entries i h e he
  obtain ⟨hlt', hfeed'⟩ := hs.entries j k a ha
  obtain ⟨rfl, hsame⟩ := hs.split j i a.feed e.feed hlt' hlt
    (hfeed'.trans (hl.trans hfeed.symm))
  exact ⟨rfl, hs.single j k h a e ha he hsame⟩

/-- A listener that has a handle is held by whoever has it, and by the node that lists it. -/
structure Attended (c : Custody) (l : ListenerId) : Prop where
  tallied : c.net.Tallied l 1
  waited : c.net.Waited l

theorem attended_move (hr : Reachable c) (hm : Move c c')
    (hold : (c.tables i).listeners.find? h = some e) (ht : Attended c e.listener)
    (he : (c'.tables i).listeners.find? h = some e) : Attended c' e.listener := by
  rcases minds_move hr hm ht.tallied.made ht.waited.sole with hminds | ⟨j, k, -, -, rfl⟩
  · have hstays : ∀ j, Stays e.listener (c.tables j) (c'.tables j) := by
      intro j k a ha hl
      obtain ⟨rfl, rfl⟩ := handle_unique hr hold ha hl
      obtain rfl := Option.some.inj (hold.symm.trans ha)
      exact he
    exact ⟨(hminds.tends hstays).tallied 1 ht.tallied,
      waited_move hr hm hminds.toQueues ht.waited⟩
  · have hholds : Holds e.listener c.net (c.toTraffic.pump j k).net := by
      unfold Traffic.pump
      split
      · exact Feed.holds_advance (Feed.advance_of_step ‹_›) e.listener
      · exact .refl e.listener c.net
    exact ⟨hholds.tallied ht.tallied, waited_move hr hm hholds.toQueues ht.waited⟩

theorem Reachable.attended (hr : Reachable c) (he : (c.tables i).listeners.find? h = some e) :
    Attended c e.listener := by
  induction hr with
  | start suffix supply loopbackUp files => cases he
  | next hr hm ih =>
    rcases handle_move hr hm he with hold | ⟨htallied, hempty⟩
    · exact attended_move hr hm hold (ih hold) he
    · exact ⟨htallied, Tailnet.waited_of_empty hempty⟩

end Entries
end Custody
end Handoff
