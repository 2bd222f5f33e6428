import Handoff.Proofs.Bridge.Checking

namespace Handoff

def Verb.issues? : Verb → Option HandleKind
  | dial .. | accept _ | acceptNonblocking _ | acceptReady _ => some .conn
  | listen .. => some .listener
  | _ => none

def Verb.issued? (v : Verb) : Reaction → Option (HandleKind × Handle)
  | .ends (.ok (.handle h)) => v.issues?.map fun kind => (kind, h)
  | _ => none

def Verb.retires? : Verb → Option (HandleKind × Handle)
  | close s => some (.server, s)
  | closeListener l => some (.listener, l)
  | takeConn c | closeConn c => some (.conn, c)
  | _ => none

namespace Tables

def retire (t : Tables) : HandleKind × Handle → Tables
  | (.server, h) => { t with servers := t.servers.erase h }
  | (.listener, h) => { t with listeners := t.listeners.erase h }
  | (.conn, h) => { t with conns := t.conns.erase h }

/-- Of all handles only this one, if any, is live after it was not. -/
def Adds (t : Tables) (new? : Option (HandleKind × Handle)) (t' : Tables) : Prop :=
  ∀ k, t'.holds k = true → t.holds k = true ∨ new? = some k

section
variable {t t₁ t' : Tables} {new? : Option (HandleKind × Handle)} {k : HandleKind × Handle}

theorem holds_retire (t : Tables) (k x : HandleKind × Handle) :
    (t.retire k).holds x = if x = k then false else t.holds x := by
  obtain ⟨kind, h⟩ := k
  obtain ⟨kind', h'⟩ := x
  have erased : ∀ {α : Type} (t : HandleTable α),
      (t.erase h).contains h' = if h' = h then false else t.contains h' := by
    intro α t
    rw [HandleTable.contains_eq, HandleTable.find?_erase]
    split <;> rfl
  cases kind <;> cases kind' <;> simp [retire, holds, erased]

theorem Adds.refl (t : Tables) : Adds t new? t :=
  fun _ => .inl

theorem Adds.trans (h : Adds t none t₁) (h' : Adds t₁ new? t') : Adds t new? t' := by
  intro k hk
  rcases h' k hk with hk | hn
  · rcases h k hk with hk | hn
    · exact .inl hk
    · cases hn
  · exact .inr hn

theorem Adds.any (h : Adds t none t') : Adds t new? t' :=
  h.trans (.refl t')

theorem adds_of_holds (h : t'.holds = t.holds) : Adds t new? t' :=
  fun k hk => .inl (by rwa [h] at hk)

theorem adds_retire (t : Tables) (k : HandleKind × Handle) : Adds t new? (t.retire k) := by
  intro x hx
  rw [holds_retire] at hx
  split at hx
  · cases hx
  · exact .inl hx

/-- A handle that is stale stays so until it is issued. -/
theorem Adds.stale (h : Adds t new? t') (hk : t.holds k = false) (hn : new? ≠ some k) :
    t'.holds k = false := by
  rw [← Bool.not_eq_true]
  intro hk'
  rcases h k hk' with hlive | he
  · rw [hk] at hlive
    cases hlive
  · exact hn he

end

end Tables

namespace Bridge
variable {W : Type} {α : Type}

section Adding
variable {b b' : Bridge W} {new? : Option (HandleKind × Handle)}

theorem adds_record (b : Bridge W) (server : Handle) (text : String) :
    b.Adds new? (b.record server text).toTables := by
  apply Tables.adds_of_holds
  funext ⟨kind, h⟩
  cases kind with
  | server =>
    change ((b.servers.modify server _).find? h).isSome = (b.servers.find? h).isSome
    rw [HandleTable.find?_modify]
    split
    · exact Option.isSome_map
    · rfl
  | listener => rfl
  | conn => rfl

theorem adds_refuse (b : Bridge W) (server : Handle) (e : BridgeError) :
    b.Adds new? (b.refuse (α := α) server e).2.toTables := by
  cases e with
  | fatal text => exact adds_record b server text
  | connectionReset => exact adds_record b server _
  | _ => exact .refl _

theorem adds_withNode (b : Bridge W) (server : Handle)
    (op : NodeId → W → Except Failure α × W) :
    b.Adds new? (b.withNode server op).2.toTables := by
  unfold withNode
  split
  · exact .refl _
  · split
    · exact .refl _
    · exact adds_record _ server _

theorem holds_allocated {α : Type} {t : HandleTable α} {a : α} {h : Handle}
    (hk : (t.allocate a).2.contains h = true) :
    t.contains h = true ∨ h = (t.allocate a).1 := by
  rw [HandleTable.contains_eq, HandleTable.find?_allocate] at hk
  split at hk
  · exact .inr ‹_›
  · exact .inl hk

theorem adds_conn (t : Tables) (c : Conn) :
    t.Adds (some (.conn, (t.conns.allocate c).1)) { t with conns := (t.conns.allocate c).2 } := by
  rintro ⟨kind, h⟩ hk
  cases kind with
  | server => exact .inl hk
  | listener => exact .inl hk
  | conn => exact (holds_allocated hk).imp id fun he => by rw [he]

def Retires (b : Bridge W) (k : HandleKind × Handle) (b' : Bridge W) : Prop :=
  (b.retire k).Adds none b'.toTables

theorem Retires.adds {k : HandleKind × Handle} (h : Retires b k b') :
    b.Adds new? b'.toTables :=
  (b.adds_retire k).trans h.any

theorem Retires.stale {k : HandleKind × Handle} (h : Retires b k b') : b'.holds k = false := by
  apply Tables.Adds.stale h
  · rw [Tables.holds_retire, if_pos rfl]
  · intro he
    cases he

/-- What is not live does not have to be retired. -/
theorem retires_of_stale {k : HandleKind × Handle} (hk : b.holds k = false) : Retires b k b := by
  intro x hx
  rw [Tables.holds_retire]
  split
  · rename_i he
    rw [he, hk] at hx
    cases hx
  · exact .inl hx

/-- An operation that lets go of a connection. -/
theorem retires_conn {conn : Handle} (hnone : b.conns.find? conn = none → b' = b)
    (hsome : ∀ c, b.conns.find? conn = some c → (b.retire (.conn, conn)).Adds none b'.toTables) :
    Retires b (.conn, conn) b' := by
  cases hc : b.conns.find? conn with
  | none =>
    rw [hnone hc]
    exact retires_of_stale (congrArg Option.isSome hc)
  | some c => exact hsome c hc

theorem retires_takeConn (b : Bridge W) (conn : Handle) :
    Retires b (.conn, conn) (b.takeConn conn).2 := by
  apply retires_conn
  · intro hc
    rw [takeConn, HandleTable.close_eq, hc]
  · intro c hc
    rw [takeConn, HandleTable.close_ok_iff.mpr ⟨hc, rfl⟩]
    exact .refl _

end Adding

section Operations
variable [Network W] (b : Bridge W) {new? : Option (HandleKind × Handle)}

theorem adds_configureAll (server : Handle) (options : List NodeOption) :
    b.Adds new? (b.configureAll server options).2.toTables := by
  induction options generalizing b with
  | nil => exact .refl _
  | cons option options ih =>
    have hb : b.Adds none (b.configure server option).2.toTables := adds_withNode b server _
    unfold configureAll
    split
    · rename_i e b₁ he
      rw [he] at hb
      exact hb.any
    · rename_i b₁ he
      rw [he] at hb
      exact hb.trans (ih b₁)

theorem adds_loopback (server : Handle) (capacity : Nat) :
    b.Adds new? (b.loopback server capacity).2.toTables := by
  have hb : b.Adds none (b.withNode server Network.loopback).2.toTables := adds_withNode b server _
  unfold loopback
  split
  · rename_i e b₁ he
    rw [he] at hb
    exact hb.any
  · rename_i info b₁ he
    rw [he] at hb
    split
    · exact hb.any
    · split
      · exact hb.trans (adds_refuse _ _ _)
      · exact hb.any

theorem adds_remoteAddress (listener conn : Handle) (capacity : Nat) :
    b.Adds new? (b.remoteAddress listener conn capacity).2.toTables := by
  unfold remoteAddress
  split
  · exact .refl _
  split
  · exact .refl _
  split
  · exact adds_refuse _ _ _
  split
  · exact adds_record _ _ _
  · exact .refl _

theorem adds_newServer : b.Adds (some (.server, b.newServer.1)) b.newServer.2.toTables := by
  rintro ⟨kind, h⟩ hk
  cases kind with
  | server => exact (holds_allocated hk).imp id fun he => by rw [he]; rfl
  | listener => exact .inl hk
  | conn => exact .inl hk

def issuedAs (kind : HandleKind) : Except BridgeError Handle → Option (HandleKind × Handle)
  | .ok h => some (kind, h)
  | .error _ => none

theorem adds_dial (server : Handle) (network address : String) :
    b.Adds (issuedAs .conn (b.dial server network address).1)
      (b.dial server network address).2.toTables := by
  have hb : b.Adds none (b.withNode server fun n => Network.dial n network address).2.toTables :=
    adds_withNode b server _
  unfold dial
  split
  · rename_i e b₁ he
    rwa [he] at hb
  · rename_i d b₁ he
    rw [he] at hb
    exact hb.trans (adds_conn b₁.toTables _)

theorem adds_listen (server : Handle) (network address : String) (funnel : Option FunnelMode) :
    b.Adds (issuedAs .listener (b.listen server network address funnel).1)
      (b.listen server network address funnel).2.toTables := by
  have hb : b.Adds none
      (b.withNode server fun n => Network.listen n network address funnel).2.toTables :=
    adds_withNode b server _
  unfold listen
  split
  · rename_i e b₁ he
    rwa [he] at hb
  · rename_i listener b₁ he
    rw [he] at hb
    apply hb.trans
    rintro ⟨kind, h⟩ hk
    cases kind with
    | server => exact .inl hk
    | listener => exact (holds_allocated hk).imp id fun he => by rw [he]; rfl
    | conn => exact .inl hk

theorem adds_listenRefused (server : Handle) (network address : String)
    (funnel : Option FunnelMode) (f : Failure) :
    b.Adds new? (b.listenRefused server network address funnel f).2.toTables := by
  have hb : b.Adds none
      (b.withNode server fun n => Network.listen n network address funnel).2.toTables :=
    adds_withNode b server _
  unfold listenRefused
  split
  · rename_i e b₁ he
    rw [he] at hb
    exact hb.any
  · rename_i listener b₁ he
    rw [he] at hb
    exact hb.trans (adds_record _ server _)

theorem adds_takeNext (place : Waiting) :
    b.Adds (issuedAs .conn (b.takeNext place).1) (b.takeNext place).2.toTables := by
  unfold takeNext
  dsimp only
  split
  · exact adds_refuse _ _ _
  · exact adds_conn _ _

theorem adds_acceptNonblocking (listener : Handle) :
    b.Adds (issuedAs .conn (b.acceptNonblocking listener).1)
      (b.acceptNonblocking listener).2.toTables := by
  unfold acceptNonblocking
  split
  · exact .refl _
  · exact adds_takeNext _ _

theorem issued?_handle {v : Verb} {kind : HandleKind} (hv : v.issues? = some kind)
    (r : Except BridgeError Handle) : v.issued? (.ends (r.map .handle)) = issuedAs kind r := by
  cases r with
  | error e => rfl
  | ok h => simp [Except.map, Verb.issued?, issuedAs, hv]

theorem adds_resumeAccept {v : Verb} (hv : v.issues? = some .conn) (place : Waiting) :
    b.Adds (v.issued? (b.resumeAccept place).1.reaction) (b.resumeAccept place).2.toTables := by
  unfold resumeAccept
  split
  · have hb := adds_takeNext b place
    rwa [← issued?_handle hv] at hb
  · exact .refl _

theorem adds_resumeAcceptReady {v : Verb} (hv : v.issues? = some .conn) (place : Waiting) :
    b.Adds (v.issued? (b.resumeAcceptReady place).1.reaction)
      (b.resumeAcceptReady place).2.toTables := by
  have hb := adds_acceptNonblocking b place.listener
  unfold resumeAcceptReady
  split
  · split
    · rename_i b₁ ha
      rw [ha] at hb
      exact hb.any
    · rename_i r b₁ _ ha
      rw [ha, ← issued?_handle hv] at hb
      exact hb
  · exact .refl _

theorem adds_resume {v : Verb} (hv : v.issues? = some .conn) (ready : Bool) (place : Waiting) :
    b.Adds (v.issued? (b.resume ready place).1.reaction) (b.resume ready place).2.toTables :=
  resume_of (P := fun a b' => b.Adds (v.issued? a.reaction) b'.toTables)
    (adds_resumeAcceptReady b hv place) (adds_resumeAccept b hv place) (fun _ _ => id) ready

theorem adds_accept {v : Verb} (hv : v.issues? = some .conn) (listener : Handle) :
    b.Adds (v.issued? (b.accept listener).1.reaction) (b.accept listener).2.toTables := by
  unfold accept
  split
  · exact .refl _
  · exact adds_resumeAccept b hv _

theorem adds_acceptReady {v : Verb} (hv : v.issues? = some .conn) (listener : Handle) :
    b.Adds (v.issued? (b.acceptReady listener).1.reaction)
      (b.acceptReady listener).2.toTables := by
  have hb := adds_acceptNonblocking b listener
  unfold acceptReady
  split
  · rename_i b₁ ha
    rw [ha] at hb
    split
    · exact hb.any
    · exact hb.trans (adds_resumeAcceptReady b₁ hv _)
  · rename_i r b₁ _ ha
    rw [ha, ← issued?_handle hv] at hb
    exact hb

theorem adds_acceptReadyRefused (listener : Handle) (cause : String) :
    b.Adds (issuedAs .conn (b.acceptReadyRefused listener cause).1)
      (b.acceptReadyRefused listener cause).2.toTables := by
  have hb := adds_acceptNonblocking b listener
  unfold acceptReadyRefused listenerRefused
  split
  · rename_i b₁ ha
    rw [ha] at hb
    split
    · exact hb
    · exact hb.trans (adds_refuse _ _ _)
  · rename_i r b₁ _ ha
    rwa [ha] at hb

theorem retires_closeListener (listener : Handle) :
    Retires b (.listener, listener) (b.closeListener listener).2 := by
  cases he : b.listeners.find? listener with
  | none =>
    rw [closeListener_none he]
    exact retires_of_stale (congrArg Option.isSome he)
  | some entry =>
    rw [closeListener_some he]
    apply Tables.adds_of_holds
    funext ⟨kind, h⟩
    cases kind <;> rfl

theorem adds_closeListeners (ls : List Handle) :
    b.Adds new? (b.closeListeners ls).toTables := by
  induction ls generalizing b with
  | nil => exact .refl _
  | cons l ls ih => exact (retires_closeListener b l).adds.trans (ih _)

theorem retires_close (server : Handle) :
    Retires b (.server, server) (b.close server).2 := by
  cases hs : b.servers.find? server with
  | none =>
    rw [close, HandleTable.close_eq, hs]
    exact retires_of_stale (congrArg Option.isSome hs)
  | some s =>
    rw [close, HandleTable.close_ok_iff.mpr ⟨hs, rfl⟩]
    exact adds_closeListeners { b with servers := b.servers.erase server } _

theorem retires_takeConnRefused (conn : Handle) (cause : String) :
    Retires b (.conn, conn) (b.takeConnRefused conn cause).2 := by
  apply retires_conn
  · intro hc
    rw [takeConnRefused, HandleTable.close_eq, hc]
  · intro c hc
    rw [takeConnRefused, HandleTable.close_ok_iff.mpr ⟨hc, rfl⟩]
    exact adds_refuse _ _ _

theorem retires_closeConn (conn : Handle) : Retires b (.conn, conn) (b.closeConn conn).2 := by
  apply retires_conn
  · intro hc
    rw [closeConn, HandleTable.close_eq, hc]
  · intro c hc
    rw [closeConn, HandleTable.close_ok_iff.mpr ⟨hc, rfl⟩]
    exact .refl _

/-- An operation issues the handle it answers with, and no other. -/
theorem perform_adds (v : Verb) :
    b.Adds (v.issued? (b.perform v).1) (b.perform v).2.toTables := by
  cases v with
  | start s => exact adds_withNode b s _
  | up s => exact adds_withNode b s _
  | close s => exact (retires_close b s).adds
  | configure s option => exact adds_withNode b s _
  | applyConfig s config => exact adds_configureAll b s _
  | dial s network address =>
    have hb := adds_dial b s network address
    rwa [← issued?_handle (v := .dial s network address) rfl] at hb
  | listen s network address funnel =>
    have hb := adds_listen b s network address funnel
    rwa [← issued?_handle (v := .listen s network address funnel) rfl] at hb
  | addresses s capacity => exact adds_withNode b s _
  | certDomains s capacity => exact adds_withNode b s _
  | loopback s capacity => exact adds_loopback b s capacity
  | lastError s capacity => exact .refl _
  | accept l => exact adds_accept b rfl l
  | acceptNonblocking l =>
    have hb := adds_acceptNonblocking b l
    rwa [← issued?_handle (v := .acceptNonblocking l) rfl] at hb
  | acceptReady l => exact adds_acceptReady b rfl l
  | listenerReadable l => exact .refl _
  | closeListener l => exact (retires_closeListener b l).adds
  | remoteAddress l c capacity => exact adds_remoteAddress b l c capacity
  | connStream c =>
    change b.Adds _ (b.connStream c).2.toTables
    unfold connStream
    split <;> exact .refl _
  | takeConn c => exact (retires_takeConn b c).adds
  | closeConn c => exact (retires_closeConn b c).adds

theorem performRefused_adds (r : Refusal) (v : Verb) :
    b.Adds (v.issued? (b.performRefused r v).1) (b.performRefused r v).2.toTables := by
  unfold performRefused
  split
  · exact adds_listenRefused b _ _ _ _ _
  · exact adds_listenRefused b _ _ _ _ _
  · rename_i cause c
    change b.Adds _ (b.connStreamRefused c cause).2.toTables
    unfold connStreamRefused
    split
    · exact .refl _
    · exact adds_refuse _ _ _
  · rename_i cause c
    exact (retires_takeConnRefused b c cause).adds
  · rename_i cause l
    change b.Adds _ (b.listenerRefused (α := Bool) l cause).2.toTables
    unfold listenerRefused
    split
    · exact .refl _
    · exact adds_refuse _ _ _
  · rename_i cause l
    have hb := adds_acceptReadyRefused b l cause
    rwa [← issued?_handle (v := .acceptReady l) rfl] at hb
  · exact perform_adds b v

theorem perform_retires {v : Verb} {k : HandleKind × Handle} (hv : v.retires? = some k) :
    Retires b k (b.perform v).2 := by
  cases v with
  | close s =>
    cases hv
    exact retires_close b s
  | closeListener l =>
    cases hv
    exact retires_closeListener b l
  | takeConn c =>
    cases hv
    exact retires_takeConn b c
  | closeConn c =>
    cases hv
    exact retires_closeConn b c
  | _ => cases hv

theorem performRefused_retires {v : Verb} {k : HandleKind × Handle} (hv : v.retires? = some k)
    (r : Refusal) : Retires b k (b.performRefused r v).2 := by
  unfold performRefused
  split
  · cases hv
  · cases hv
  · cases hv
  · cases hv
    exact retires_takeConnRefused b _ _
  · cases hv
  · cases hv
  · exact perform_retires b hv

end Operations

end Bridge
end Handoff
