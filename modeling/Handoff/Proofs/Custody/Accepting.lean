import Handoff.Proofs.Custody.System
import Handoff.Proofs.Traffic.Delivery
import Handoff.Proofs.Traffic.Reaching

namespace Handoff

def Acceptance.given : Acceptance → Option Handle
  | .done r => r.toOption
  | .waiting _ => none

theorem Acceptance.given_eq_some {a : Acceptance} {k : Handle} :
    a.given = some k ↔ a.reaction = .ends (.ok (.handle k)) := by
  rcases a with (_ | k) | _ <;> simp [given, reaction, Except.toOption, Except.map]

namespace Bridge
variable {b b' : Bridge Tailnet} {conns conns' : HandleTable Conn} {l k : Handle} {x : Conn}
  {given? : Option Handle} {v : Verb}

/-- What an accept at the listener `l` does to the handles of connections: the one it gives stands
for a connection of this listener. -/
inductive Admits (l : Handle) (conns : HandleTable Conn) :
    Option Handle → HandleTable Conn → Prop where
  | nothing : Admits l conns none conns
  | one (server : Handle) (d : Descriptor) : Admits l conns
      (some (conns.allocate ⟨server, some l, d⟩).1) (conns.allocate ⟨server, some l, d⟩).2

theorem Admits.entry (h : Admits l conns given? conns') (hk : conns'.find? k = some x) :
    conns.find? k = some x ∨ given? = some k ∧ x.listener = some l := by
  cases h with
  | nothing => exact .inl hk
  | one server d =>
    rw [HandleTable.find?_allocate] at hk
    split at hk
    · subst k
      cases hk
      exact .inr ⟨rfl, rfl⟩
    · exact .inl hk

theorem Admits.same (h : Admits l conns none conns') : conns' = conns := by
  cases h
  rfl

theorem Admits.given (h : Admits l conns (some k) conns') :
    ∃ x, conns'.find? k = some x ∧ x.listener = some l := by
  cases h with
  | one server d => exact ⟨_, HandleTable.find?_allocated .., rfl⟩

theorem conns_refuse {α : Type} (b : Bridge Tailnet) (server : Handle) (e : BridgeError) :
    (b.refuse (α := α) server e).2.conns = b.conns := by
  cases e <;> rfl

theorem admits_takeNext (b : Bridge Tailnet) (place : Waiting) :
    Admits place.listener b.conns (b.takeNext place).1.toOption (b.takeNext place).2.conns := by
  unfold takeNext
  dsimp only
  split
  · rename_i e _
    rw [refuse_fst, conns_refuse]
    exact .nothing
  · exact .one ..

theorem admits_acceptNonblocking (b : Bridge Tailnet) (l : Handle) : Admits l b.conns
    (b.acceptNonblocking l).1.toOption (b.acceptNonblocking l).2.conns := by
  unfold acceptNonblocking
  cases hl : b.listeners.find? l with
  | none =>
    rw [placeAt_none hl]
    exact .nothing
  | some e =>
    rw [placeAt_some hl]
    exact admits_takeNext b ⟨l, e.server, e.feed⟩

theorem admits_resumeAccept (b : Bridge Tailnet) (place : Waiting) : Admits place.listener b.conns
    (b.resumeAccept place).1.given (b.resumeAccept place).2.conns := by
  unfold resumeAccept
  split
  · exact admits_takeNext b place
  · exact .nothing

theorem admits_accept (b : Bridge Tailnet) (l : Handle) :
    Admits l b.conns (b.accept l).1.given (b.accept l).2.conns := by
  unfold accept
  cases hl : b.listeners.find? l with
  | none =>
    rw [placeAt_none hl]
    exact .nothing
  | some e =>
    rw [placeAt_some hl]
    exact admits_resumeAccept b ⟨l, e.server, e.feed⟩

theorem admits_resumeAcceptReady (b : Bridge Tailnet) (place : Waiting) :
    Admits place.listener b.conns (b.resumeAcceptReady place).1.given
      (b.resumeAcceptReady place).2.conns := by
  have htry := admits_acceptNonblocking b place.listener
  unfold resumeAcceptReady
  split
  · split <;> rename_i he <;> rw [he] at htry <;> exact htry
  · exact .nothing

theorem admits_resume (b : Bridge Tailnet) (ready : Bool) (place : Waiting) :
    Admits place.listener b.conns (b.resume ready place).1.given (b.resume ready place).2.conns :=
  resume_of (P := fun a b' => Admits place.listener b.conns a.given b'.conns)
    (admits_resumeAcceptReady b place) (admits_resumeAccept b place) (fun _ _ => id) ready

theorem admits_acceptReady (b : Bridge Tailnet) (l : Handle) :
    Admits l b.conns (b.acceptReady l).1.given (b.acceptReady l).2.conns := by
  have htry := admits_acceptNonblocking b l
  unfold acceptReady
  split
  · rename_i b₁ he
    rw [he] at htry
    -- nothing was taken yet
    have hsame : b₁.conns = b.conns := htry.same
    rw [← hsame]
    cases hl : b₁.listeners.find? l with
    | none =>
      rw [placeAt_none hl]
      exact .nothing
    | some e =>
      rw [placeAt_some hl]
      exact admits_resumeAcceptReady b₁ ⟨l, e.server, e.feed⟩
  · rename_i r b₁ _ he
    rw [he] at htry
    exact htry

theorem admits_perform (b : Bridge Tailnet) (hv : v ∈ Traffic.acceptVerbs l) :
    ∃ given?, Admits l b.conns given? (b.perform v).2.conns ∧
      ∀ k, given? = some k ↔ (b.perform v).1 = .ends (.ok (.handle k)) := by
  simp only [Traffic.acceptVerbs, List.mem_cons, List.not_mem_nil, or_false] at hv
  rcases hv with rfl | rfl | rfl
  · exact ⟨_, admits_accept b l, fun _ => Acceptance.given_eq_some⟩
  · exact ⟨_, admits_acceptNonblocking b l,
      fun _ => Acceptance.given_eq_some (a := .done (b.acceptNonblocking l).1)⟩
  · exact ⟨_, admits_acceptReady b l, fun _ => Acceptance.given_eq_some⟩

def Spares (b b' : Bridge Tailnet) : Prop :=
  ∀ k x, b'.conns.find? k = some x → b.conns.find? k = some x

theorem spares_of_eq (h : b'.conns = b.conns) : Spares b b' :=
  fun _ _ hk => h ▸ hk

theorem spares_asks (h : Asks b b') : Spares b b' := by
  apply spares_of_eq
  induction h with
  | nothing => rfl
  | asked _ _ _ _ ih => exact ih
  | noted _ _ _ ih => exact ih

theorem conns_closeListener (b : Bridge Tailnet) (l : Handle) :
    (b.closeListener l).2.conns = b.conns := by
  cases hl : b.listeners.find? l with
  | none => rw [closeListener_none hl]
  | some e =>
    rw [closeListener_some hl]
    rfl

theorem conns_closeListeners (b : Bridge Tailnet) (ls : List Handle) :
    (b.closeListeners ls).conns = b.conns := by
  induction ls generalizing b with
  | nil => rfl
  | cons l ls ih => exact (ih _).trans (b.conns_closeListener l)

theorem spares_close (b : Bridge Tailnet) (server : Handle) : Spares b (b.close server).2 := by
  apply spares_of_eq
  cases hs : b.servers.find? server with
  | none => rw [close_none hs]
  | some s =>
    rw [close_some hs]
    exact conns_closeListeners { b with servers := b.servers.erase server } (b.listenersOf server)

theorem spares_listen (b : Bridge Tailnet) (server : Handle) (network address : String)
    (funnel : Option FunnelMode) : Spares b (b.listen server network address funnel).2 := by
  apply spares_of_eq
  rcases Traffic.listen_worded b server network address funnel with
    ⟨e, he⟩ | ⟨s, -, ⟨f, -, he⟩ | ⟨l, -, he⟩⟩ <;> rw [he] <;> rfl

theorem spares_erase (k : Handle) (h : b'.conns = b.conns.erase k) : Spares b b' := by
  intro k' x hk
  rw [h, HandleTable.find?_erase] at hk
  split at hk
  · cases hk
  · exact hk

theorem spares_takeConn (b : Bridge Tailnet) (k : Handle) : Spares b (b.takeConn k).2 := by
  unfold takeConn
  rw [HandleTable.close_eq]
  cases b.conns.find? k with
  | none => exact spares_of_eq rfl
  | some x => exact spares_erase k rfl

theorem spares_closeConn (b : Bridge Tailnet) (k : Handle) : Spares b (b.closeConn k).2 := by
  unfold closeConn
  rw [HandleTable.close_eq]
  cases b.conns.find? k with
  | none => exact spares_of_eq rfl
  | some x => exact spares_erase k rfl

/-- The handle that a dial gives stands for a connection that no listener has accepted. -/
theorem entry_dial (b : Bridge Tailnet) (server : Handle) (network address : String)
    (hk : (b.dial server network address).2.conns.find? k = some x) :
    b.conns.find? k = some x ∨ x.listener = none := by
  cases ha : b.servers.find? server with
  | none =>
    have hnone : b.dial server network address = (.error (.badHandle server), b) := by
      rw [dial, withNode, HandleTable.get_eq, ha]
    rw [hnone] at hk
    exact .inl hk
  | some a =>
    have hdials := Traffic.dialsAs_dial ha network address
    revert hk hdials
    generalize b.dial server network address = r
    intro hk hdials
    cases hdials with
    | connected h conns d _ hnew hold =>
      by_cases hkh : k = h
      · subst h
        cases hnew.symm.trans hk
        exact .inr rfl
      · exact .inl ((hold k hkh).symm.trans hk)
    | refused e f servers _ => exact .inl hk

/-- Whatever is done with a bridge, a handle stands for the connection it stood for, one that was
dialed now, or one that was accepted now and that the answer gives. -/
theorem entry_perform (hk : (b.perform v).2.conns.find? k = some x) :
    b.conns.find? k = some x ∨ x.listener = none ∨ ∃ l, x.listener = some l ∧
      v ∈ Traffic.acceptVerbs l ∧ (b.perform v).1 = .ends (.ok (.handle k)) := by
  have haccept : ∀ l, v ∈ Traffic.acceptVerbs l → b.conns.find? k = some x ∨
      x.listener = none ∨ ∃ l, x.listener = some l ∧ v ∈ Traffic.acceptVerbs l ∧
        (b.perform v).1 = .ends (.ok (.handle k)) := by
    intro l hv
    obtain ⟨_, hadmits, hgiven⟩ := b.admits_perform hv
    rcases hadmits.entry hk with hold | ⟨hnew, hl⟩
    · exact .inl hold
    · exact .inr (.inr ⟨l, hl, hv, (hgiven k).mp hnew⟩)
  cases v with
  | accept l => exact haccept l (by simp [Traffic.acceptVerbs])
  | acceptNonblocking l => exact haccept l (by simp [Traffic.acceptVerbs])
  | acceptReady l => exact haccept l (by simp [Traffic.acceptVerbs])
  | dial server network address =>
    exact (b.entry_dial server network address hk).imp_right .inl
  | close server => exact .inl (b.spares_close server k x hk)
  | listen server network address funnel =>
    exact .inl (b.spares_listen server network address funnel k x hk)
  | closeListener l => exact .inl (b.conns_closeListener l ▸ hk)
  | connStream conn =>
    left
    change (b.connStream conn).2.conns.find? k = some x at hk
    unfold connStream at hk
    split at hk <;> exact hk
  | takeConn conn => exact .inl (b.spares_takeConn conn k x hk)
  | closeConn conn => exact .inl (b.spares_closeConn conn k x hk)
  | _ => exact .inl (spares_asks (b.asks_perform rfl) k x hk)

end Bridge

namespace Custody
variable {c c' : Custody} {i : Nat} {l k : Handle} {x : Conn}

inductive Accepts (c : Custody) (i : Nat) (l k : Handle) : Custody → Prop where
  | called (v : Verb) : v ∈ Traffic.acceptVerbs l →
    ((c.bridge i).perform v).1 = .ends (.ok (.handle k)) → Accepts c i l k (c.perform i v)
  | waited (w : Waiter) : w ∈ c.waiting → w.bridge = i → w.place.listener = l →
    (c.resumed w).1 = .done (.ok k) → Accepts c i l k (c.resume w)

/-- An accept at the listener `l` has given the handle `k`, which has stood for the same connection
ever since. A listener is who has its handle, as it is to everybody who calls. -/
inductive AcceptedBy (i : Nat) (l k : Handle) : Custody → Prop where
  | now {c c' : Custody} : Reachable c → Accepts c i l k c' → AcceptedBy i l k c'
  | later {c c' : Custody} : AcceptedBy i l k c → Move c c' →
    (c'.tables i).conns.find? k = (c.tables i).conns.find? k → AcceptedBy i l k c'

theorem admits_resumed (c : Custody) (w : Waiter) : Bridge.Admits w.place.listener
    (c.tables w.bridge).conns (c.resumed w).1.given (c.resumed w).2.conns := by
  exact Bridge.admits_resume (c.bridge w.bridge) w.ready w.place

theorem Accepts.entry (h : Accepts c i l k c') :
    ∃ x, (c'.tables i).conns.find? k = some x ∧ x.listener = some l := by
  cases h with
  | called v hv hr =>
    obtain ⟨_, hadmits, hgiven⟩ := (c.bridge i).admits_perform hv
    rw [(hgiven k).mpr hr] at hadmits
    obtain ⟨x, hx, hl⟩ := hadmits.given
    refine ⟨x, ?_, hl⟩
    change (assign c.tables i _ i).conns.find? k = some x
    rwa [assign_same]
  | waited w _ hi hl hr =>
    subst hi hl
    have hadmits := admits_resumed c w
    rw [hr] at hadmits
    obtain ⟨x, hx, hlx⟩ := hadmits.given
    refine ⟨x, ?_, hlx⟩
    rwa [tables_resume, assign_same]

/-- Where the tables of one bridge change, and no handle is given. -/
theorem entry_assign {tables : Nat → Tables} {j : Nat} {T : Tables}
    (hT : T.conns.find? k = some x → (tables j).conns.find? k = some x)
    (hk : (assign tables j T i).conns.find? k = some x) :
    (tables i).conns.find? k = some x := by
  rw [assign_apply] at hk
  split at hk
  · subst i
    exact hT hk
  · exact hk

/-- Whatever happens, a handle stands for the connection it stood for, one that was dialed now, or
one that was accepted now. -/
theorem entry_move (hm : Move c c') (hk : (c'.tables i).conns.find? k = some x) :
    (c.tables i).conns.find? k = some x ∨ x.listener = none ∨
      ∃ l, x.listener = some l ∧ Accepts c i l k c' := by
  cases hm with
  | newServer j _ => exact .inl (entry_assign (T := (c.bridge j).newServer.2.toTables) id hk)
  | perform j v _ =>
    unfold perform Traffic.perform Fleet.setBridge at hk
    dsimp only at hk
    rw [assign_apply] at hk
    split at hk
    · subst j
      refine (Bridge.entry_perform hk).imp_right (.imp_right ?_)
      rintro ⟨l, hl, hv, hr⟩
      exact ⟨l, hl, .called v hv hr⟩
    · exact .inl hk
  | resume w hw =>
    rw [tables_resume, assign_apply] at hk
    split at hk
    · rename_i hi
      rcases (admits_resumed c w).entry hk with hold | ⟨hnew, hl⟩
      · exact .inl (hi ▸ hold)
      · refine .inr (.inr ⟨_, hl, .waited w hw hi.symm rfl ?_⟩)
        revert hnew
        generalize (c.resumed w).1 = a
        rcases a with (_ | h) | _ <;> simp [Acceptance.given, Except.toOption]
    · exact .inl hk
  | pump j m _ =>
    left
    unfold Traffic.pump at hk
    split at hk
    · rename_i f net _
      exact entry_assign (T := (Bridge.setFeed { c.bridge j with net } m f).toTables) id hk
    · exact hk
  | dropBridge j _ => exact .inl (entry_assign (T := {}) nofun hk)
  | newNode => exact .inl hk
  | use n u _ _ =>
    rw [tables_use] at hk
    exact .inl hk
  | closeListener _ => exact .inl hk
  | useFiles _ => exact .inl hk
  | useStream _ _ _ => exact .inl hk
  | release _ _ => exact .inl hk

/-- What a bridge notes of a connection is which listener accepted it. -/
theorem acceptedBy_iff (hr : Reachable c) (hk : (c.tables i).conns.find? k = some x) :
    AcceptedBy i l k c ↔ x.listener = some l := by
  constructor
  · intro h
    have hentry : ∃ x, (c.tables i).conns.find? k = some x ∧ x.listener = some l := by
      clear hr hk
      induction h with
      | now _ ha => exact ha.entry
      | later _ _ hsame ih => rwa [hsame]
    obtain ⟨y, hy, hl⟩ := hentry
    obtain rfl := Option.some.inj (hk.symm.trans hy)
    exact hl
  · intro hl
    induction hr with
    | start => cases hk
    | next hr hm ih =>
      rcases entry_move hm hk with hold | hnone | ⟨l', hl', ha⟩
      · exact .later (ih hold) hm (hk.trans hold.symm)
      · cases hl.symm.trans hnone
      · cases hl.symm.trans hl'
        exact .now hr ha

end Custody
end Handoff
