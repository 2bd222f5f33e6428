import Handoff.Proofs.Bridge.Records

namespace Handoff

/-- The server an operation is about: the one it names, the one that its listener belongs to, or the
one that its connection came from. -/
def Verb.subject (t : Tables) : Verb → Option Handle
  | start s | up s | close s | configure s _ | applyConfig s _ | dial s _ _ | listen s _ _ _
  | addresses s _ | certDomains s _ | loopback s _ | lastError s _ => some s
  | accept l | acceptNonblocking l | acceptReady l | listenerReadable l | closeListener l
  | remoteAddress l _ _ => (t.listeners.find? l).map ListenerEntry.server
  | connStream c | takeConn c | closeConn c => (t.conns.find? c).map Conn.server

@[simp] theorem error?_reaction (r : Except BridgeError Handle) :
    (Acceptance.done r).reaction.error? = errorOf r :=
  errorOf_map r Reply.handle

namespace Bridge
variable {W : Type}

section
variable {q : Prop} {b b₁ b' : Bridge W} {S : Option Handle} {e? : Option BridgeError}

/-- All that an operation about the server `S` can leave. It may retire the server only if `q`. -/
inductive Settles (q : Prop) (b : Bridge W) (S : Option Handle) (e? : Option BridgeError)
    (b' : Bridge W) : Prop where
  | untouched : Unnoted e? → b'.servers = b.servers → b'.listeners = b.listeners →
    Settles q b S e? b'
  | booked {s} : S = some s → Books b s e? b' → Settles q b S e? b'
  /-- The server is gone, with its record and its listeners. -/
  | closed {s} : q → S = some s → e? ≠ some .connectionReset → b'.servers = b.servers.erase s →
    (∀ l entry, b'.listeners.find? l = some entry →
      b.listeners.find? l = some entry ∧ entry.server ≠ s) → Settles q b S e? b'

/-- What comes after something that left servers and listeners alone. -/
theorem Settles.of_same (h : Settles q b₁ S e? b') (hs : b₁.servers = b.servers)
    (hl : b₁.listeners = b.listeners) : Settles q b S e? b' := by
  cases h with
  | untouched he hs' hl' => exact .untouched he (hs'.trans hs) (hl'.trans hl)
  | booked hS hb => exact .booked hS (hb.of_same hs hl)
  | closed hq hS he hs' hl' => exact .closed hq hS he (hs ▸ hs') (hl ▸ hl')

/-- Listeners keep their servers. -/
theorem Settles.rooted (h : Settles q b S e? b') (hr : b.Rooted) : b'.Rooted := by
  cases h with
  | untouched _ hs hl =>
    intro l entry he
    rw [hl] at he
    rw [hs]
    exact hr l entry he
  | booked _ hb => exact hb.rooted hr
  | closed _ _ _ hs hl =>
    intro l entry he
    obtain ⟨he, hne⟩ := hl l entry he
    rw [hs, HandleTable.find?_erase, if_neg hne]
    exact hr l entry he

/-- Servers stay. -/
theorem Settles.stays (h : Settles q b S e? b') (hq : ¬q) {s : Handle}
    (hs : s ∈ b.serverHandles) : s ∈ b'.serverHandles := by
  apply HandleTable.mem_handles.mpr
  have hlive := HandleTable.mem_handles.mp hs
  cases h with
  | untouched _ he _ => rwa [he]
  | booked _ hb => exact hb.servers.live hlive
  | closed h _ _ _ _ => exact absurd h hq

theorem settles_badHandle (b : Bridge W) (S : Option Handle) (h : Handle) :
    Settles q b S (some (.badHandle h)) b :=
  .untouched (unnoted_some rfl) rfl rfl

/-- An operation on what a handle stands for: a stale one is only told. -/
theorem settles_entry {α β : Type} {t : HandleTable β} {h : Handle} {server : β → Handle}
    {o : Outcome W α} (hnone : t.find? h = none → o = (.error (.badHandle h), b))
    (hsome : ∀ entry, t.find? h = some entry → Books b (server entry) (errorOf o.1) o.2) :
    Settles q b ((t.find? h).map server) (errorOf o.1) o.2 := by
  cases he : t.find? h with
  | none =>
    rw [hnone he]
    exact settles_badHandle ..
  | some entry => exact .booked rfl (hsome entry he)

theorem settles_ending {α : Type} {o : Outcome W α} (reply : α → Reply)
    (h : Settles q b S (errorOf o.1) o.2) :
    Settles q b S (ending reply o).1.error? (ending reply o).2 := by
  have he : (ending reply o).1.error? = errorOf o.1 := errorOf_map o.1 reply
  rw [he]
  exact h

/-- Asking for the last error leaves it there. -/
theorem unnoted_lastError (server : Handle) (capacity : Nat) :
    Unnoted (errorOf (b.lastError server capacity)) := by
  unfold lastError ErrorRecord.fetch truncate
  rw [HandleTable.get_eq]
  intro e he
  cases hs : b.servers.find? server with
  | none =>
    rw [hs] at he
    cases he
    rfl
  | some s =>
    rw [hs] at he
    simp only [Except.bind] at he
    split at he
    · cases he
      rfl
    · split at he <;> cases he

theorem settles_listenerRefused {α : Type} (listener : Handle) (cause : String) :
    Settles q b ((b.listeners.find? listener).map ListenerEntry.server)
      (errorOf (b.listenerRefused (α := α) listener cause).1)
      (b.listenerRefused (α := α) listener cause).2 := by
  unfold listenerRefused
  apply settles_entry
  · intro he
    simp [HandleTable.get_eq, he]
  · intro entry he
    rw [HandleTable.get_ok_iff.mpr he, refuse_fst]
    exact books_refuse_fatal ..

theorem unnoted_wouldBlock : Unnoted (some .wouldBlock) :=
  unnoted_some rfl

end

section Calls
variable [Network W] {q : Prop} {b b₁ : Bridge W}

theorem settles_acceptNonblocking (hr : b.Rooted) (listener : Handle) :
    Settles q b ((b.listeners.find? listener).map ListenerEntry.server)
      (errorOf (b.acceptNonblocking listener).1) (b.acceptNonblocking listener).2 := by
  unfold acceptNonblocking
  apply settles_entry
  · intro he
    rw [placeAt_none he]
  · intro entry he
    rw [placeAt_some he]
    exact books_takeNext b ⟨listener, entry.server, entry.feed⟩ (hr listener entry he)

/-- Where there is nothing to accept, the listener and everything else stays as it is. -/
theorem acceptNonblocking_wouldBlock {listener : Handle}
    (h : b.acceptNonblocking listener = (.error .wouldBlock, b₁)) :
    b₁.servers = b.servers ∧ b₁.listeners = b.listeners ∧
      ∃ entry, b.listeners.find? listener = some entry := by
  unfold acceptNonblocking at h
  cases he : b.listeners.find? listener with
  | none =>
    rw [placeAt_none he] at h
    cases h
  | some entry =>
    rw [placeAt_some he] at h
    dsimp only at h
    have hb := b.booked_takeNext ⟨listener, entry.server, entry.feed⟩
    have hl := b.takeNext_listeners ⟨listener, entry.server, entry.feed⟩
    rw [h] at hb hl
    exact ⟨hb.unchanged unnoted_wouldBlock, hl, entry, rfl⟩

theorem settles_resumeAcceptReady (hr : b.Rooted) (place : Waiting) :
    Settles q b ((b.listeners.find? place.listener).map ListenerEntry.server)
      (b.resumeAcceptReady place).1.reaction.error? (b.resumeAcceptReady place).2 := by
  unfold resumeAcceptReady
  split
  · have hs := settles_acceptNonblocking (q := q) hr place.listener
    split
    · rename_i b₁ ha
      obtain ⟨hserv, hl, -⟩ := acceptNonblocking_wouldBlock ha
      exact .untouched unnoted_none hserv hl
    · rename_i r b₁ _ ha
      rw [ha] at hs
      rwa [error?_reaction]
  · exact .untouched unnoted_none rfl rfl

theorem settles_accept (hr : b.Rooted) (listener : Handle) :
    Settles q b ((b.listeners.find? listener).map ListenerEntry.server)
      (b.accept listener).1.reaction.error? (b.accept listener).2 := by
  unfold accept
  cases he : b.listeners.find? listener with
  | none =>
    rw [placeAt_none he]
    exact settles_badHandle ..
  | some entry =>
    rw [placeAt_some he]
    dsimp only [resumeAccept]
    split
    · have hb := books_takeNext b ⟨listener, entry.server, entry.feed⟩
        (hr listener entry he)
      rw [← error?_reaction] at hb
      exact .booked rfl hb
    · exact .untouched unnoted_none rfl rfl

/-- The second try is made on what the first one left. -/
theorem settles_acceptReady (hr : b.Rooted) (listener : Handle) :
    Settles q b ((b.listeners.find? listener).map ListenerEntry.server)
      (b.acceptReady listener).1.reaction.error? (b.acceptReady listener).2 := by
  have hs := settles_acceptNonblocking (q := q) hr listener
  unfold acceptReady
  split
  · rename_i b₁ ha
    obtain ⟨hserv, hl, entry, he⟩ := acceptNonblocking_wouldBlock ha
    rw [ha] at hs
    have hagain :=
      settles_resumeAcceptReady (q := q) (hs.rooted hr) ⟨listener, entry.server, entry.feed⟩
    rw [placeAt_some (hl ▸ he)]
    rw [hl] at hagain
    exact hagain.of_same hserv hl
  · rename_i r b₁ _ ha
    rw [ha] at hs
    rwa [error?_reaction]

/-- A failure of the network is no reset. -/
theorem errorOf_mapError_ne {r : Except Failure Unit} {e : BridgeError}
    (he : ∀ text, e ≠ .fatal text) :
    errorOf (r.mapError fun f => .fatal f.message) ≠ some e := by
  cases r with
  | ok a =>
    intro h
    cases h
  | error f =>
    intro h
    exact he f.message (Option.some.inj h).symm

theorem settles_close (hq : q) (server : Handle) :
    Settles q b (some server) (errorOf (b.close server).1) (b.close server).2 := by
  cases hs : b.servers.find? server with
  | none =>
    rw [close_none hs]
    exact settles_badHandle ..
  | some s =>
    obtain ⟨hserv, hl⟩ := close_tables b server hs
    have hne : errorOf (b.close server).1 ≠ some .connectionReset := by
      rw [close_some hs]
      exact errorOf_mapError_ne fun text h => by cases h
    exact .closed hq rfl hne hserv hl

/-- Every operation settles with the server it is about, and only closing it retires it. -/
theorem perform_settles (hr : b.Rooted) (v : Verb) :
    Settles (∃ s, v = .close s) b (v.subject b.toTables) (b.perform v).1.error?
      (b.perform v).2 := by
  -- what names a server is booked with it, all else with what its handle stands for
  cases v with
  | start s => exact settles_ending _ (.booked rfl (books_withNode b s _))
  | up s => exact settles_ending _ (.booked rfl (books_withNode b s _))
  | close s => exact settles_ending _ (settles_close ⟨s, rfl⟩ s)
  | configure s option => exact settles_ending _ (.booked rfl (books_withNode b s _))
  | applyConfig s config => exact settles_ending _ (.booked rfl (books_configureAll b s _))
  | dial s network address => exact settles_ending _ (.booked rfl (books_dial b s network address))
  | listen s network address funnel =>
    exact settles_ending _ (.booked rfl (books_listen b s network address funnel))
  | addresses s capacity =>
    exact settles_ending _ (.booked rfl (books_fitted_withNode b s _ _ capacity))
  | certDomains s capacity =>
    exact settles_ending _ (.booked rfl (books_fitted_withNode b s _ _ capacity))
  | loopback s capacity => exact settles_ending _ (.booked rfl (books_loopback b s capacity))
  | lastError s capacity =>
    exact settles_ending _ (.untouched (unnoted_lastError s capacity) rfl rfl)
  | accept l => exact settles_accept hr l
  | acceptNonblocking l => exact settles_ending _ (settles_acceptNonblocking hr l)
  | acceptReady l => exact settles_acceptReady hr l
  | listenerReadable l =>
    apply settles_ending
    apply settles_entry
    · intro he
      simp [listenerReadable, placeAt_none he, Except.map]
    · intro entry he
      rw [listenerReadable, placeAt_some he]
      exact .refl ..
  | closeListener l =>
    apply settles_ending
    apply settles_entry
    · intro he
      simp [closeListener_none he]
    · intro entry he
      exact books_closeListener b he
  | remoteAddress l c capacity =>
    apply settles_ending
    apply settles_entry
    · intro he
      simp [remoteAddress, HandleTable.get_eq, he]
    · intro entry he
      exact books_remoteAddress b he c capacity
  | connStream c =>
    apply settles_ending
    apply settles_entry
    · intro he
      simp [connStream, HandleTable.get_eq, he]
    · intro conn he
      exact books_connStream b he
  | takeConn c =>
    apply settles_ending
    apply settles_entry
    · intro he
      simp [takeConn, HandleTable.close_eq, he]
    · intro conn he
      exact books_takeConn b he
  | closeConn c =>
    apply settles_ending
    apply settles_entry
    · intro he
      simp [closeConn, HandleTable.close_eq, he]
    · intro conn he
      exact books_closeConn b he

theorem settles_listenRefused (server : Handle) (network address : String)
    (funnel : Option FunnelMode) (f : Failure) :
    Settles q b (some server) (errorOf (b.listenRefused server network address funnel f).1)
      (b.listenRefused server network address funnel f).2 := by
  have hb := books_withNode b server fun n => Network.listen n network address funnel
  refine .booked rfl ?_
  unfold listenRefused
  split
  · rename_i e b₁ he
    rwa [he] at hb
  · rename_i listener b₁ he
    rw [he] at hb
    refine hb.trans unnoted_none ?_
    exact (books_fail ..).of_same rfl rfl

theorem settles_acceptReadyRefused (hr : b.Rooted) (listener : Handle) (cause : String) :
    Settles q b ((b.listeners.find? listener).map ListenerEntry.server)
      (errorOf (b.acceptReadyRefused listener cause).1)
      (b.acceptReadyRefused listener cause).2 := by
  have hs := settles_acceptNonblocking (q := q) hr listener
  unfold acceptReadyRefused
  split
  · rename_i b₁ ha
    obtain ⟨hserv, hl, -⟩ := acceptNonblocking_wouldBlock ha
    rw [← hl]
    exact (settles_listenerRefused listener cause).of_same hserv hl
  · rename_i r b₁ _ ha
    rwa [ha] at hs

/-- So does an operation that is refused what it asks of the system. -/
theorem performRefused_settles (hr : b.Rooted) (refusal : Refusal) (v : Verb) :
    Settles (∃ s, v = .close s) b (v.subject b.toTables) (b.performRefused refusal v).1.error?
      (b.performRefused refusal v).2 := by
  unfold performRefused
  split
  · exact settles_ending _ (settles_listenRefused ..)
  · exact settles_ending _ (settles_listenRefused ..)
  · rename_i cause c
    apply settles_ending
    apply settles_entry
    · intro he
      simp [connStreamRefused, HandleTable.get_eq, he]
    · intro conn he
      rw [connStreamRefused, HandleTable.get_ok_iff.mpr he, refuse_fst]
      exact books_refuse_fatal ..
  · rename_i cause c
    apply settles_ending
    apply settles_entry
    · intro he
      simp [takeConnRefused, HandleTable.close_eq, he]
    · intro conn he
      rw [takeConnRefused, HandleTable.close_ok_iff.mpr ⟨he, rfl⟩, refuse_fst]
      exact (books_refuse_fatal ..).of_same rfl rfl
  · exact settles_ending _ (settles_listenerRefused ..)
  · exact settles_ending _ (settles_acceptReadyRefused hr ..)
  · exact perform_settles hr v

end Calls

end Bridge
end Handoff
