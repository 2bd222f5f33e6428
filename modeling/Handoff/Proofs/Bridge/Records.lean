import Handoff.Bridge.Refusal
import Handoff.Proofs.Handle.Table

namespace Handoff

/-- An error that is left on a server's record. The others only say what to do next. -/
def BridgeError.isNoted : BridgeError → Bool
  | fatal _ | connectionReset => true
  | _ => false

def errorOf {α : Type} : Except BridgeError α → Option BridgeError
  | .error e => some e
  | .ok _ => none

@[simp] theorem errorOf_map {α β : Type} (r : Except BridgeError α) (f : α → β) :
    errorOf (r.map f) = errorOf r := by
  cases r <;> rfl

def Reaction.error? : Reaction → Option BridgeError
  | .ends r => errorOf r
  | .waits _ => none

namespace Tables

def recordOf (t : Tables) (server : Handle) : Option String :=
  (t.servers.find? server).map fun s => s.record.text

def Rooted (t : Tables) : Prop :=
  ∀ l entry, t.listeners.find? l = some entry → ∃ s, t.servers.find? entry.server = some s

end Tables

namespace Bridge
variable {W : Type} {α β : Type}

def Unnoted (e? : Option BridgeError) : Prop :=
  ∀ e, e? = some e → e.isNoted = false

theorem unnoted_none : Unnoted none := by
  intro e he
  cases he

theorem unnoted_some {e : BridgeError} (h : e.isNoted = false) : Unnoted (some e) := by
  intro e' he
  cases he
  exact h

/-- What an answer leaves on the servers' records: an error that is noted, on the record of the
server it is about; any other answer, nothing. -/
inductive Booked (b b' : Bridge W) (server : Handle) : Option BridgeError → Prop where
  | kept {e?} : Unnoted e? → b'.servers = b.servers → Booked b b' server e?
  | noted {e} : e.isNoted = true → b'.servers = (b.record server e.message).servers →
    Booked b b' server (some e)

/-- An operation about a server that retires none. Listeners are opened only on servers that are
live, and only at such a server's listener can a channel be found at its end. -/
structure Books (b : Bridge W) (server : Handle) (e? : Option BridgeError) (b' : Bridge W) :
    Prop where
  servers : Booked b b' server e?
  listeners : ∀ l entry, b'.listeners.find? l = some entry →
    b.listeners.find? l = some entry ∨ ∃ s, b.servers.find? entry.server = some s
  reset : e? = some .connectionReset → ∃ s, b.servers.find? server = some s

section
variable {b b₁ b' : Bridge W} {server : Handle} {e? : Option BridgeError}

theorem Booked.unchanged (h : Booked b b' server e?) (he : Unnoted e?) :
    b'.servers = b.servers := by
  cases h with
  | kept _ hs => exact hs
  | noted hn _ =>
    rw [he _ rfl] at hn
    cases hn

theorem Booked.of_same (h : Booked b₁ b' server e?) (hs : b₁.servers = b.servers) :
    Booked b b' server e? := by
  cases h with
  | kept he h => exact .kept he (h.trans hs)
  | noted hn h =>
    rw [record, hs] at h
    exact .noted hn h

/-- With fewer listeners and the same servers. -/
theorem Books.fewer (he : Unnoted e?) (hs : b'.servers = b.servers)
    (hl : ∀ l entry, b'.listeners.find? l = some entry → b.listeners.find? l = some entry) :
    Books b server e? b' where
  servers := .kept he hs
  listeners l entry h := .inl (hl l entry h)
  reset h := by cases he _ h

theorem Books.quiet (he : Unnoted e?) (hs : b'.servers = b.servers)
    (hl : b'.listeners = b.listeners) : Books b server e? b' :=
  .fewer he hs fun l entry h => by rwa [hl] at h

/-- A result leaves nothing. -/
theorem Books.ok (hs : b'.servers = b.servers) (hl : b'.listeners = b.listeners) :
    Books b server none b' :=
  .quiet unnoted_none hs hl

theorem Books.refl (b : Bridge W) (server : Handle) : Books b server none b :=
  .ok rfl rfl

/-- What comes after an answer that left nothing is booked as if nothing had come before. -/
theorem Books.trans {first : Option BridgeError} (h : Books b server first b₁)
    (hf : Unnoted first) (h' : Books b₁ server e? b') : Books b server e? b' where
  servers := h'.servers.of_same (h.servers.unchanged hf)
  listeners l entry hl := by
    rcases h'.listeners l entry hl with hl | hs
    · exact h.listeners l entry hl
    · rw [h.servers.unchanged hf] at hs
      exact .inr hs
  reset he := by
    rw [← h.servers.unchanged hf]
    exact h'.reset he

theorem Books.of_same (h : Books b₁ server e? b') (hs : b₁.servers = b.servers)
    (hl : b₁.listeners = b.listeners) : Books b server e? b' :=
  .trans (.ok hs hl) unnoted_none h

/-- Writing on a record retires no server. -/
theorem Booked.live (h : Booked b b' server e?) {x : Handle}
    (hx : ∃ s, b.servers.find? x = some s) : ∃ s, b'.servers.find? x = some s := by
  obtain ⟨s, hs⟩ := hx
  cases h with
  | kept _ he =>
    rw [he]
    exact ⟨s, hs⟩
  | noted _ he =>
    rw [he, record, HandleTable.find?_modify, hs]
    split
    · exact ⟨_, rfl⟩
    · exact ⟨s, rfl⟩

/-- Listeners keep their servers. -/
theorem Books.rooted (h : Books b server e? b') (hr : b.Rooted) : b'.Rooted := by
  intro l entry hl
  apply h.servers.live
  rcases h.listeners l entry hl with hl | hs
  · exact hr l entry hl
  · exact hs

theorem books_badHandle (b : Bridge W) (server h : Handle) :
    Books b server (some (.badHandle h)) b :=
  .quiet (unnoted_some rfl) rfl rfl

theorem booked_refuse (b : Bridge W) (server : Handle) (e : BridgeError) :
    Booked b (b.refuse (α := α) server e).2 server (some e) := by
  cases e with
  | fatal text => exact .noted rfl rfl
  | connectionReset => exact .noted rfl rfl
  | _ => exact .kept (unnoted_some rfl) rfl

theorem refuse_fst (b : Bridge W) (server : Handle) (e : BridgeError) :
    (b.refuse (α := α) server e).1 = .error e := by
  cases e <;> rfl

theorem refuse_listeners (b : Bridge W) (server : Handle) (e : BridgeError) :
    (b.refuse (α := α) server e).2.listeners = b.listeners := by
  cases e <;> rfl

theorem books_refuse {e : BridgeError}
    (hr : e = .connectionReset → ∃ s, b.servers.find? server = some s) :
    Books b server (some e) (b.refuse (α := α) server e).2 where
  servers := booked_refuse b server e
  listeners l entry h := .inl (by rwa [refuse_listeners] at h)
  reset he := hr (Option.some.inj he)

/-- A failure of the bridge's own is noted whether or not the server is live. -/
theorem books_refuse_fatal (b : Bridge W) (server : Handle) (text : String) :
    Books b server (some (.fatal text)) (b.refuse (α := α) server (.fatal text)).2 :=
  books_refuse fun he => by cases he

theorem books_fail (b : Bridge W) (server : Handle) (f : Failure) :
    Books b server (some (.fatal f.message)) (b.fail (α := α) server f).2 :=
  books_refuse_fatal (α := α) b server f.message

/-- A buffer that is too small is only told. -/
theorem books_ensureFits (b : Bridge W) (server : Handle) (text : String) (capacity : Nat) :
    Books b server (errorOf (ensureFits text capacity)) b := by
  unfold ensureFits
  split
  · exact .refl b server
  · exact .quiet (unnoted_some rfl) rfl rfl

theorem books_fitted (b : Bridge W) (server : Handle) {r : Outcome W String} (capacity : Nat)
    (hr : Books b server (errorOf r.1) r.2) :
    Books b server (errorOf (fitted capacity r).1) (fitted capacity r).2 := by
  obtain ⟨result, b₁⟩ := r
  cases result with
  | error e => exact hr
  | ok text =>
    have hf := books_ensureFits b₁ server text capacity
    rw [← errorOf_map _ fun _ => text] at hf
    exact hr.trans unnoted_none hf

/-- What an operation on a server's node leaves. -/
theorem books_withNode (b : Bridge W) (server : Handle)
    (op : NodeId → W → Except Failure α × W) :
    Books b server (errorOf (b.withNode server op).1) (b.withNode server op).2 := by
  unfold withNode
  split
  · rename_i e he
    rw [HandleTable.get_eq] at he
    split at he
    · cases he
    · cases he
      exact books_badHandle b server server
  · split
    · exact .ok rfl rfl
    · rename_i f net hop
      exact (books_fail _ server f).of_same rfl rfl

/-- What the network says of a node, as a text that has to fit. -/
theorem books_fitted_withNode (b : Bridge W) (server : Handle)
    (op : NodeId → W → Except Failure α × W) (text : α → String) (capacity : Nat) :
    Books b server (errorOf (fitted capacity ((b.withNode server op).map (·.map text) id)).1)
      (fitted capacity ((b.withNode server op).map (·.map text) id)).2 := by
  apply books_fitted
  rw [Prod.map_fst, errorOf_map]
  exact books_withNode b server op

theorem books_takeConn (b : Bridge W) {conn : Handle} {c : Conn}
    (hc : b.conns.find? conn = some c) :
    Books b c.server (errorOf (b.takeConn conn).1) (b.takeConn conn).2 := by
  unfold takeConn
  rw [HandleTable.close_ok_iff.mpr ⟨hc, rfl⟩]
  exact .ok rfl rfl

/-- The server of a result is live. -/
theorem live_of_withNode {op : NodeId → W → Except Failure α × W} {a : α}
    (h : b.withNode server op = (.ok a, b')) : ∃ s, b.servers.find? server = some s := by
  unfold withNode at h
  split at h
  · cases h
  · rename_i s hs
    exact ⟨s, HandleTable.get_ok_iff.mp hs⟩

theorem placeAt_none {listener : Handle} (he : b.listeners.find? listener = none) :
    b.placeAt listener = .error (.badHandle listener) := by
  rw [placeAt, HandleTable.get_eq, he]
  rfl

theorem placeAt_some {listener : Handle} {entry : ListenerEntry}
    (he : b.listeners.find? listener = some entry) :
    b.placeAt listener = .ok ⟨listener, entry.server, entry.feed⟩ := by
  rw [placeAt, HandleTable.get_ok_iff.mpr he]
  rfl

end

section Operations
variable [Network W] (b : Bridge W) (server : Handle)

theorem books_configureAll (options : List NodeOption) :
    Books b server (errorOf (b.configureAll server options).1)
      (b.configureAll server options).2 := by
  induction options generalizing b with
  | nil => exact .refl b server
  | cons option options ih =>
    have hb := books_withNode b server fun n => Network.configure n option
    unfold configureAll configure
    split
    · rename_i e b₁ he
      rwa [he] at hb
    · rename_i b₁ he
      rw [he] at hb
      exact hb.trans unnoted_none (ih b₁)

theorem books_dial (network address : String) :
    Books b server (errorOf (b.dial server network address).1)
      (b.dial server network address).2 := by
  have hb := books_withNode b server fun n => Network.dial n network address
  unfold dial
  split
  · rename_i e b₁ he
    rwa [he] at hb
  · rename_i d b₁ he
    rw [he] at hb
    exact hb.trans unnoted_none (.ok rfl rfl)

theorem books_listen (network address : String) (funnel : Option FunnelMode) :
    Books b server (errorOf (b.listen server network address funnel).1)
      (b.listen server network address funnel).2 := by
  have hb := books_withNode b server fun n => Network.listen n network address funnel
  unfold listen
  split
  · rename_i e b₁ he
    rwa [he] at hb
  · rename_i listener b₁ he
    obtain ⟨s, hs⟩ := live_of_withNode he
    rw [he] at hb
    refine hb.trans unnoted_none ⟨.kept unnoted_none rfl, ?_, ?_⟩
    · intro l entry hl
      change (b₁.listeners.allocate _).2.find? l = some entry at hl
      rw [HandleTable.find?_allocate] at hl
      split at hl
      · cases hl
        rw [hb.servers.unchanged unnoted_none]
        exact .inr ⟨s, hs⟩
      · exact .inl hl
    · intro he
      cases he

theorem credentials_ne_reset (info : LoopbackInfo) :
    credentials info ≠ .error .connectionReset := by
  unfold credentials Credential.ofToken
  split
  · split <;> simp [Except.bind, Except.map]
  · simp [Except.bind]

theorem books_loopback (capacity : Nat) :
    Books b server (errorOf (b.loopback server capacity).1) (b.loopback server capacity).2 := by
  have hb := books_withNode b server Network.loopback
  unfold loopback
  split
  · rename_i e b₁ he
    rwa [he] at hb
  · rename_i info b₁ he
    rw [he] at hb
    have hf := books_ensureFits b₁ server info.address capacity
    split
    · rename_i e hfit
      rw [hfit] at hf
      exact hb.trans unnoted_none hf
    · split
      · rename_i e hc
        rw [refuse_fst]
        apply hb.trans unnoted_none
        apply books_refuse
        rintro rfl
        exact absurd hc (credentials_ne_reset info)
      · exact hb

/-- An accept is booked with the server that the listener belonged to when it was called. -/
theorem booked_takeNext (place : Waiting) :
    Booked b (b.takeNext place).2 place.server (errorOf (b.takeNext place).1) := by
  unfold takeNext
  dsimp only
  split
  · rw [refuse_fst]
    exact (booked_refuse _ _ _).of_same rfl
  · exact .kept unnoted_none rfl

/-- What comes off the channel decides what an accept answers. -/
theorem takeNext_wouldBlock_iff {b : Bridge W} {place : Waiting} :
    (b.takeNext place).1 = .error .wouldBlock ↔
      (b.feed place.feed).channel.receive.result = .error .wouldBlock := by
  unfold takeNext
  dsimp only
  split
  · rename_i x hx
    rw [refuse_fst, hx]
    cases x <;> simp [RecvError.toBridgeError]
  · rename_i d hd
    simp [hd]

theorem takeNext_listeners (place : Waiting) :
    (b.takeNext place).2.listeners = b.listeners := by
  unfold takeNext
  dsimp only
  split
  · rw [refuse_listeners]
    rfl
  · rfl

theorem books_takeNext (place : Waiting)
    (hp : ∃ s, b.servers.find? place.server = some s) :
    Books b place.server (errorOf (b.takeNext place).1) (b.takeNext place).2 where
  servers := b.booked_takeNext place
  listeners l entry h := .inl (by rwa [takeNext_listeners] at h)
  reset _ := hp

theorem books_remoteAddress {listener : Handle} {entry : ListenerEntry}
    (he : b.listeners.find? listener = some entry) (conn : Handle) (capacity : Nat) :
    Books b entry.server (errorOf (b.remoteAddress listener conn capacity).1)
      (b.remoteAddress listener conn capacity).2 := by
  unfold remoteAddress
  rw [HandleTable.get_ok_iff.mpr he]
  dsimp only
  split
  · rename_i e hc
    rw [HandleTable.get_eq] at hc
    split at hc
    · cases hc
    · cases hc
      exact books_badHandle ..
  · split
    · rw [refuse_fst]
      exact books_refuse_fatal ..
    · split
      · rename_i f net _
        exact (books_fail ..).of_same rfl rfl
      · rename_i endpoint net _
        rw [errorOf_map]
        exact (books_ensureFits ..).of_same rfl rfl

theorem books_connStream {conn : Handle} {c : Conn} (hc : b.conns.find? conn = some c) :
    Books b c.server (errorOf (b.connStream conn).1) (b.connStream conn).2 := by
  unfold connStream
  rw [HandleTable.get_ok_iff.mpr hc]
  exact .ok rfl rfl

theorem books_closeConn {conn : Handle} {c : Conn} (hc : b.conns.find? conn = some c) :
    Books b c.server (errorOf (b.closeConn conn).1) (b.closeConn conn).2 := by
  unfold closeConn
  rw [HandleTable.close_ok_iff.mpr ⟨hc, rfl⟩]
  exact .ok rfl rfl

theorem closeListener_none {b : Bridge W} {listener : Handle}
    (h : b.listeners.find? listener = none) :
    b.closeListener listener = (.error (.badHandle listener), b) := by
  rw [closeListener, HandleTable.close_eq, h]

theorem closeListener_some {b : Bridge W} {listener : Handle} {entry : ListenerEntry}
    (h : b.listeners.find? listener = some entry) :
    b.closeListener listener = (.ok (), ({ b with
      listeners := b.listeners.erase listener
      net := Network.closeListener entry.listener b.net } : Bridge W).endFeed entry.feed) := by
  rw [closeListener, HandleTable.close_ok_iff.mpr ⟨h, rfl⟩]

theorem closeListener_tables (listener : Handle) :
    (b.closeListener listener).2.servers = b.servers ∧
      ∀ l, (b.closeListener listener).2.listeners.find? l =
        if l = listener then none else b.listeners.find? l := by
  cases he : b.listeners.find? listener with
  | none =>
    rw [closeListener_none he]
    refine ⟨rfl, ?_⟩
    intro l
    split
    · rename_i hl
      rw [hl]
      exact he
    · rfl
  | some entry =>
    rw [closeListener_some he]
    exact ⟨rfl, fun l => HandleTable.find?_erase ..⟩

theorem books_closeListener {listener : Handle} {entry : ListenerEntry}
    (he : b.listeners.find? listener = some entry) :
    Books b entry.server (errorOf (b.closeListener listener).1)
      (b.closeListener listener).2 := by
  obtain ⟨hs, hl⟩ := b.closeListener_tables listener
  have hok : (b.closeListener listener).1 = .ok () := by rw [closeListener_some he]
  rw [hok]
  apply Books.fewer unnoted_none hs
  intro l entry h
  rw [hl] at h
  split at h
  · cases h
  · exact h

theorem closeListeners_tables (ls : List Handle) :
    (b.closeListeners ls).servers = b.servers ∧
      ∀ l, (b.closeListeners ls).listeners.find? l =
        if l ∈ ls then none else b.listeners.find? l := by
  induction ls generalizing b with
  | nil => exact ⟨rfl, fun l => by simp [closeListeners]⟩
  | cons listener ls ih =>
    obtain ⟨hs, hl⟩ := b.closeListener_tables listener
    obtain ⟨hs', hl'⟩ := ih (b.closeListener listener).2
    refine ⟨hs'.trans hs, ?_⟩
    intro l
    change ((b.closeListener listener).2.closeListeners ls).listeners.find? l = _
    rw [hl', hl]
    by_cases hm : l ∈ ls <;> by_cases he : l = listener <;> simp [hm, he]

omit [Network W] in
theorem mem_listenersOf {b : Bridge W} {server l : Handle} : l ∈ b.listenersOf server ↔
    ∃ entry, b.listeners.find? l = some entry ∧ entry.server = server := by
  refine HandleTable.mem_handlesWhere.trans ?_
  simp

def without (b : Bridge W) (server : Handle) : Bridge W :=
  ({ b with servers := b.servers.erase server } : Bridge W).closeListeners (b.listenersOf server)

theorem close_none {b : Bridge W} {server : Handle} (hs : b.servers.find? server = none) :
    b.close server = (.error (.badHandle server), b) := by
  rw [close, HandleTable.close_eq, hs]

/-- The server's node ends last. -/
theorem close_some {b : Bridge W} {server : Handle} {s : Server}
    (hs : b.servers.find? server = some s) : b.close server =
    ((Network.close s.node (b.without server).net).1.mapError fun f => .fatal f.message,
      { b.without server with
        net := Network.releaseNode s.node (Network.close s.node (b.without server).net).2 }) := by
  rw [close, HandleTable.close_ok_iff.mpr ⟨hs, rfl⟩]
  rfl

/-- A server that is closed takes its record and its listeners with it. -/
theorem close_tables {s : Server} (hs : b.servers.find? server = some s) :
    (b.close server).2.servers = b.servers.erase server ∧
      ∀ l entry, (b.close server).2.listeners.find? l = some entry →
        b.listeners.find? l = some entry ∧ entry.server ≠ server := by
  rw [close_some hs]
  obtain ⟨hsame, hl⟩ :=
    ({ b with servers := b.servers.erase server } : Bridge W).closeListeners_tables
      (b.listenersOf server)
  refine ⟨hsame, ?_⟩
  intro l entry h
  change (b.without server).listeners.find? l = some entry at h
  rw [without, hl] at h
  split at h
  · cases h
  · rename_i hm
    exact ⟨h, fun he => hm (mem_listenersOf.mpr ⟨entry, h, he⟩)⟩

end Operations

end Bridge
end Handoff
