import Handoff.Proofs.Traffic.Opening

namespace Handoff

def Event.listener : Event → ListenerId
  | dialed _ l _ => l
  | accepted l _ _ => l

namespace Traffic
variable {net net' : Tailnet} {tables tables' : Nat → Tables} {waiting : List Waiter}
  {log ev : List Event} {i : Nat} {b : Bridge Tailnet} {l : ListenerId}

theorem dialedTo_append (log ev : List Event) (l : ListenerId) :
    dialedTo (log ++ ev) l = dialedTo log l ++ dialedTo ev l :=
  List.filterMap_append

theorem acceptedAt_append (log ev : List Event) (l : ListenerId) :
    acceptedAt (log ++ ev) l = acceptedAt log l ++ acceptedAt ev l :=
  List.filterMap_append

theorem dialedTo_of_ne {k : ListenerId} (hev : ∀ x ∈ ev, x.listener = l) (hk : k ≠ l) :
    dialedTo ev k = [] :=
  List.eq_nil_iff_forall_not_mem.mpr fun d hd => by
    obtain ⟨target, id, hm, -⟩ := mem_dialedTo.mp hd
    exact hk (hev _ hm)

theorem acceptedAt_of_ne {k : ListenerId} (hev : ∀ x ∈ ev, x.listener = l) (hk : k ≠ l) :
    acceptedAt ev k = [] :=
  List.eq_nil_iff_forall_not_mem.mpr fun _ hp => hk (hev _ (mem_acceptedAt.mp hp))

/-- Tables that differ in no node and no listener, and in no feed but that of the listener `l`. -/
structure AlikeBut (l : ListenerId) (a b : Tables) : Prop extends Shaped a b where
  feed : ∀ k, (a.feed k).listener ≠ l → b.feed k = a.feed k

theorem nodup_streamsOf_append (h : (streamsOf log).Nodup) (hn : (streamsOf ev).Nodup)
    (hnew : ∀ id ∈ streamsOf log, id ∉ streamsOf ev) : (streamsOf (log ++ ev)).Nodup := by
  rw [streamsOf, List.filterMap_append]
  refine List.nodup_append.mpr ⟨h, hn, ?_⟩
  rintro id hid _ hid' rfl
  exact hnew id hid hid'

theorem mem_streamsOf {id : StreamId} :
    id ∈ streamsOf log ↔ ∃ target l, .dialed target l id ∈ log := by
  simp only [streamsOf, List.mem_filterMap]
  constructor
  · rintro ⟨x, hx, he⟩
    cases x with
    | accepted => cases he
    | dialed target l id =>
      obtain rfl := Option.some.inj he
      exact ⟨target, l, hx⟩
  · rintro ⟨target, l, hm⟩
    exact ⟨_, hm, rfl⟩

/-- What happens to one listener, its feed and what is known of it, leaves the others sound. -/
theorem Sound.at {backlog : List Tailnet.Arrival} (h : Sound net tables waiting log)
    (hm : net.Moves net' l backlog) (ht : ∀ i, AlikeBut l (tables i) (tables' i))
    (hl : l < net.listeners) (hev : ∀ x ∈ ev, x.listener = l)
    (hd : ∀ target id, .dialed target l id ∈ ev →
      net.streams.count ≤ id ∧ id < net'.streams.count ∧ target ∈ (net.listener l).addresses)
    (hn : (streamsOf ev).Nodup)
    (hline : ∀ i k e, (tables i).listeners.find? k = some e → e.listener = l → net'.Open l →
      Line net' (log ++ ev) ((tables' i).feed e.feed) i k e) :
    Sound net' tables' waiting (log ++ ev) := by
  have haddr : ∀ k, net'.Open k → (net'.listener k).addresses = (net.listener k).addresses := by
    intro k hk
    by_cases hkl : k = l
    · rw [hkl, hm.here]
    · rw [hm.steady k hkl hk]
  refine h.reshape hm.toKept (fun _ => hm.open) (fun i => (ht i).toShaped) ?_ ?_ ?_ ?_
  · intro j k e he ho
    by_cases hel : e.listener = l
    · exact hline j k e he hel (hel ▸ ho)
    · have hf : (tables' j).feed e.feed = (tables j).feed e.feed :=
        (ht j).feed _ (by rwa [(h.entries j k e he).2])
      have hold := h.lines j k e he (hm.open ho)
      rw [hf]
      exact { hold with
        balance := by
          rw [dialedTo_append, acceptedAt_append, dialedTo_of_ne hev hel,
            acceptedAt_of_ne hev hel, List.append_nil, List.append_nil, hold.balance,
            hm.steady _ hel ho]
        records := fun p hp => by
          rw [acceptedAt_append, acceptedAt_of_ne hev hel, List.append_nil] at hp
          exact hold.records p hp }
  · intro target k id hmem
    rcases List.mem_append.mp hmem with hmem | hmem
    · obtain ⟨hk, hid, hs⟩ := h.dialed target k id hmem
      exact ⟨hk, Nat.lt_of_lt_of_le hid hm.count, fun ho => haddr k ho ▸ hs (hm.open ho)⟩
    · obtain rfl : k = l := hev _ hmem
      obtain ⟨-, hid, hs⟩ := hd target id hmem
      exact ⟨hl, hid, fun ho => haddr k ho ▸ hs⟩
  · intro k j c hmem
    rcases List.mem_append.mp hmem with hmem | hmem
    · exact h.accepted k j c hmem
    · have hk : k = l := hev _ hmem
      exact hk ▸ hl
  · -- a stream that was dialed before was made before
    refine nodup_streamsOf_append h.fresh hn fun id hid hid' => ?_
    obtain ⟨target, k, hx⟩ := mem_streamsOf.mp hid
    obtain ⟨target', k', hy⟩ := mem_streamsOf.mp hid'
    obtain rfl : k' = l := hev _ hy
    exact absurd (h.dialed _ _ _ hx).2.1 (Nat.not_lt.mpr (hd _ _ hy).1)

theorem listener_assign {feed : FeedId → Feed} {k : FeedId} {f : Feed}
    (hf : f.listener = (feed k).listener) (m : FeedId) :
    (assign feed k f m).listener = (feed m).listener := by
  rw [assign_apply]
  split
  · rw [hf, ‹m = k›]
  · rfl

theorem AlikeBut.refl (l : ListenerId) (a : Tables) : AlikeBut l a a :=
  ⟨(Alike.refl a).toShaped, fun _ _ => rfl⟩

theorem alikeBut_setFeed (a : Tables) (k : FeedId) (f : Feed)
    (hf : f.listener = (a.feed k).listener) :
    AlikeBut (a.feed k).listener a { a with feed := assign a.feed k f } where
  nodes := fun _ => rfl
  listeners := rfl
  feeds := rfl
  same := listener_assign hf
  feed := fun _ hm => assign_of_ne _ _ _ fun he => hm (he ▸ rfl)

/-- What happens to one feed and its listener: only the listener's own handle has to be looked
at. -/
theorem Fits.at_feed {b b' : Bridge Tailnet} {k : FeedId} {backlog : List Tailnet.Arrival}
    (h : Fits tables waiting log i b) (hk : k < b.feeds)
    (hm : b.net.Moves b'.net (b.feed k).listener backlog)
    (ht : AlikeBut (b.feed k).listener b.toTables b'.toTables)
    (hev : ∀ x ∈ ev, ∃ c, x = .accepted (b.feed k).listener i c)
    (hline : ∀ x e, b.listeners.find? x = some e → e.feed = k →
      e.listener = (b.feed k).listener → b'.net.Open (b.feed k).listener →
      Line b.net log (b.feed k) i x e → Line b'.net (log ++ ev) (b'.feed k) i x e) :
    Fits tables waiting (log ++ ev) i b' := by
  have hki : k < (assign tables i b.toTables i).feeds := by rwa [assign_same]
  have hnone : streamsOf ev = [] :=
    List.eq_nil_iff_forall_not_mem.mpr fun id hid => by
      obtain ⟨target, m, hx⟩ := mem_streamsOf.mp hid
      obtain ⟨c, hc⟩ := hev _ hx
      cases hc
  refine Sound.at h hm (assign_cases (P := fun _ => AlikeBut _) ht fun _ _ _ => .refl _ _)
    ?_ ?_ ?_ ?_ ?_
  · have := h.feeds i k hki
    rwa [assign_same] at this
  · intro x hx
    obtain ⟨c, rfl⟩ := hev x hx
    rfl
  · intro target id hid
    obtain ⟨c, he⟩ := hev _ hid
    cases he
  · rw [hnone]
    exact List.nodup_nil
  · intro j x e he hel ho
    have hent := h.entries j x e he
    obtain ⟨rfl, hf⟩ := h.split j i e.feed k hent.1 hki (by
      rw [hent.2, assign_same]
      exact hel)
    rw [assign_same] at he ⊢
    rw [hf]
    have hold := h.lines j x e (by rwa [assign_same]) (by rw [hel]; exact hm.open ho)
    rw [assign_same, hf] at hold
    exact hline x e he hf hel ho hold

end Traffic
end Handoff
