import Handoff.Proofs.Bridge.Settling

namespace Handoff

/-- The handles an operation looks up, in the order in which it does. -/
def Verb.handles : Verb → List (HandleKind × Handle)
  | start s | up s | close s | configure s _ | dial s _ _ | listen s _ _ _ | addresses s _
  | certDomains s _ | loopback s _ | lastError s _ => [(.server, s)]
  | applyConfig s config => if config.options = [] then [] else [(.server, s)]
  | accept l | acceptNonblocking l | acceptReady l | listenerReadable l | closeListener l =>
    [(.listener, l)]
  | remoteAddress l c _ => [(.listener, l), (.conn, c)]
  | connStream c | takeConn c | closeConn c => [(.conn, c)]

theorem HandleTable.contains_eq {α : Type} (t : HandleTable α) (h : Handle) :
    t.contains h = (t.find? h).isSome := rfl

namespace Tables

def holds (t : Tables) : HandleKind × Handle → Bool
  | (.server, h) => t.servers.contains h
  | (.listener, h) => t.listeners.contains h
  | (.conn, h) => t.conns.contains h

def stale? (t : Tables) : List (HandleKind × Handle) → Option Handle
  | [] => none
  | k :: ks => if t.holds k then t.stale? ks else some k.2

theorem stale?_eq_none {t : Tables} {ks : List (HandleKind × Handle)} :
    t.stale? ks = none ↔ ∀ k ∈ ks, t.holds k = true := by
  induction ks with
  | nil => simp [stale?]
  | cons k ks ih =>
    rw [stale?, List.forall_mem_cons]
    split
    · rename_i hk
      rw [ih]
      exact ⟨fun h => ⟨hk, h⟩, And.right⟩
    · rename_i hk
      simp [hk]

theorem stale?_of_mem {t : Tables} {ks : List (HandleKind × Handle)} {k : HandleKind × Handle}
    (hm : k ∈ ks) (hk : t.holds k = false) : ∃ h, t.stale? ks = some h := by
  apply Option.ne_none_iff_exists'.mp
  intro hn
  rw [stale?_eq_none.mp hn k hm] at hk
  cases hk

theorem holds_listener {t : Tables} {l : Handle} {entry : ListenerEntry}
    (h : t.listeners.find? l = some entry) : t.holds (.listener, l) = true :=
  congrArg Option.isSome h

end Tables

namespace Bridge
variable {W : Type} {α β : Type}

def Found (e? : Option BridgeError) : Prop :=
  ∀ h, e? ≠ some (.badHandle h)

theorem found_none : Found none := by
  intro h he
  cases he

theorem found_some {e : BridgeError} (h : ∀ x, e ≠ .badHandle x) : Found (some e) :=
  fun x he => h x (Option.some.inj he)

/-- How an operation ends with a stale handle among the ones it looks up: that is all it says, and
it has done nothing. Without one it says of no handle that it is bad. -/
inductive Checks (b : Bridge W) : Option Handle → Option BridgeError → Bridge W → Prop where
  | stale {h} : Checks b (some h) (some (.badHandle h)) b
  | live {e? b'} : Found e? → Checks b none e? b'

section Answers
variable {b : Bridge W}

theorem found_refuse {server : Handle} {e : BridgeError} (he : ∀ h, e ≠ .badHandle h) :
    Found (errorOf (b.refuse (α := α) server e).1) := by
  rw [refuse_fst]
  exact found_some he

theorem found_fail (server : Handle) (f : Failure) :
    Found (errorOf (b.fail (α := α) server f).1) :=
  found_some fun h he => by cases he

theorem found_ensureFits (text : String) (capacity : Nat) :
    Found (errorOf (ensureFits text capacity)) := by
  unfold ensureFits
  split
  · exact found_none
  · exact found_some fun h he => by cases he

theorem found_credentials (info : LoopbackInfo) : Found (errorOf (credentials info)) := by
  unfold credentials Credential.ofToken
  split
  · split <;> simp [Except.bind, Except.map, Found, errorOf]
  · simp [Except.bind, Found, errorOf]

theorem toBridgeError_ne (e : RecvError) (h : Handle) : e.toBridgeError ≠ .badHandle h := by
  cases e <;> simp [RecvError.toBridgeError]

/-- What runs on a server's node. -/
theorem found_withNode {server : Handle} {op : NodeId → W → Except Failure α × W} {s : Server}
    (hs : b.servers.find? server = some s) : Found (errorOf (b.withNode server op).1) := by
  unfold withNode
  rw [HandleTable.get_ok_iff.mpr hs]
  dsimp only
  split
  · exact found_none
  · exact found_fail server _

theorem found_lastError {server : Handle} {s : Server} (hs : b.servers.find? server = some s)
    (capacity : Nat) : Found (errorOf (b.lastError server capacity)) := by
  unfold lastError ErrorRecord.fetch truncate
  rw [HandleTable.get_ok_iff.mpr hs]
  simp only [Except.bind]
  split
  · exact found_some fun h he => by cases he
  · split <;> exact found_none

theorem copyInto_status (r : ErrorRecord) (buffer : List UInt8) :
    (r.copyInto buffer).1 ≠ .badHandle := by
  unfold ErrorRecord.copyInto
  split
  · decide
  · dsimp only
    split <;> decide

end Answers

section Checking
variable {b b₁ b' : Bridge W} {stale? : Option Handle} {e? e'? : Option BridgeError}

theorem Checks.told (h : Checks b stale? e? b') {x : Handle} :
    e? = some (.badHandle x) ↔ stale? = some x := by
  cases h with
  | stale => simp
  | live hf => simpa using hf x

theorem Checks.unmoved (h : Checks b stale? e? b') {x : Handle} (hx : stale? = some x) :
    b' = b := by
  cases h with
  | stale => rfl
  | live => cases hx

/-- Whatever else follows where no handle was bad. -/
theorem Checks.instead (h : Checks b stale? e? b₁) (he : Found e?) (he' : Found e'?) :
    Checks b stale? e'? b' := by
  cases h with
  | @stale x => exact absurd rfl (he x)
  | live => exact .live he'

/-- An operation that first looks up one handle. -/
theorem checks_entry {t : HandleTable β} {h : Handle}
    (hnone : t.find? h = none → e? = some (.badHandle h) ∧ b' = b)
    (hsome : ∀ entry, t.find? h = some entry → Checks b stale? e? b') :
    Checks b (if t.contains h then stale? else some h) e? b' := by
  rw [HandleTable.contains_eq]
  cases he : t.find? h with
  | none =>
    obtain ⟨rfl, rfl⟩ := hnone he
    exact .stale
  | some entry => exact hsome entry he

theorem checks_ending {o : Outcome W α} (reply : α → Reply)
    (h : Checks b stale? (errorOf o.1) o.2) :
    Checks b stale? (ending reply o).1.error? (ending reply o).2 := by
  have he : (ending reply o).1.error? = errorOf o.1 := errorOf_map o.1 reply
  rw [he]
  exact h

theorem checks_withNode (b : Bridge W) (server : Handle)
    (op : NodeId → W → Except Failure α × W) :
    Checks b (b.stale? [(.server, server)]) (errorOf (b.withNode server op).1)
      (b.withNode server op).2 := by
  apply checks_entry
  · intro hs
    rw [withNode, HandleTable.get_eq, hs]
    exact ⟨rfl, rfl⟩
  · intro s hs
    exact .live (found_withNode hs)

/-- What goes on only after a result has found what there was to look up. -/
theorem Checks.andThen {o : Outcome W α} {o' : Outcome W β}
    (h : Checks b stale? (errorOf o.1) o.2)
    (herror : ∀ e b₁, o = (.error e, b₁) → o' = (.error e, b₁))
    (hok : ∀ a b₁, o = (.ok a, b₁) → Found (errorOf o'.1)) :
    Checks b stale? (errorOf o'.1) o'.2 := by
  obtain ⟨r, b₁⟩ := o
  cases r with
  | error e =>
    rw [herror e b₁ rfl]
    exact h
  | ok a => exact h.instead found_none (hok a b₁ rfl)

/-- What the network says of a node, as a text that has to fit. -/
theorem checks_text (b : Bridge W) (server : Handle) (op : NodeId → W → Except Failure α × W)
    (text : α → String) (capacity : Nat) :
    Checks b (b.stale? [(.server, server)])
      (errorOf (fitted capacity ((b.withNode server op).map (·.map text) id)).1)
      (fitted capacity ((b.withNode server op).map (·.map text) id)).2 := by
  apply (checks_withNode b server op).andThen
  · intro e b₁ he
    rw [he]
    rfl
  · intro a b₁ ha
    rw [ha]
    have hf := found_ensureFits (text a) capacity
    rwa [← errorOf_map _ fun _ => text a] at hf

theorem lastErrorInto_stale (b : Bridge W) (server : Handle) (buffer : List UInt8) :
    ((b.lastErrorInto server buffer).1 = .badHandle ↔ b.holds (.server, server) = false) ∧
      ((b.lastErrorInto server buffer).1 = .badHandle →
        (b.lastErrorInto server buffer).2 = buffer) := by
  have hholds : b.holds (.server, server) = (b.servers.find? server).isSome := rfl
  rw [lastErrorInto, HandleTable.get_eq, hholds]
  cases b.servers.find? server with
  | none => simp [BridgeError.status]
  | some s => simp [copyInto_status]

theorem checks_listenerRefused (b : Bridge W) (listener : Handle) (cause : String) :
    Checks b (b.stale? [(.listener, listener)])
      (errorOf (b.listenerRefused (α := α) listener cause).1)
      (b.listenerRefused (α := α) listener cause).2 := by
  apply checks_entry
  · intro he
    rw [listenerRefused, HandleTable.get_eq, he]
    exact ⟨rfl, rfl⟩
  · intro entry he
    rw [listenerRefused, HandleTable.get_ok_iff.mpr he]
    exact .live (found_refuse fun h hb => by cases hb)

end Checking

section Operations
variable [Network W] (b : Bridge W)

/-- Settings are made on a server that is still there after each of them. -/
theorem found_configureAll {b : Bridge W} {server : Handle} {s : Server}
    (hs : b.servers.find? server = some s) (options : List NodeOption) :
    Found (errorOf (b.configureAll server options).1) := by
  induction options generalizing b with
  | nil => exact found_none
  | cons option options ih =>
    have hb := books_withNode b server fun n => Network.configure n option
    have hf : Found (errorOf (b.withNode server fun n => Network.configure n option).1) :=
      found_withNode hs
    unfold configureAll configure
    split
    · rename_i e b₁ he
      rwa [he] at hf
    · rename_i b₁ he
      rw [he] at hb
      apply ih
      rw [hb.servers.unchanged unnoted_none]
      exact hs

theorem checks_applyConfig (server : Handle) (config : Config) :
    Checks b (b.stale? (Verb.applyConfig server config).handles)
      (errorOf (b.applyConfig server config).1) (b.applyConfig server config).2 := by
  change Checks b (b.stale? (if config.options = [] then [] else [(.server, server)]))
    (errorOf (b.configureAll server config.options).1) (b.configureAll server config.options).2
  cases config.options with
  | nil => exact .live found_none
  | cons option options =>
    rw [if_neg (List.cons_ne_nil _ _)]
    apply checks_entry
    · intro hs
      rw [configureAll, configure, withNode, HandleTable.get_eq, hs]
      exact ⟨rfl, rfl⟩
    · intro s hs
      exact .live (found_configureAll hs _)

theorem checks_dial (server : Handle) (network address : String) :
    Checks b (b.stale? [(.server, server)]) (errorOf (b.dial server network address).1)
      (b.dial server network address).2 := by
  apply (checks_withNode b server fun n => Network.dial n network address).andThen
  · intro e b₁ he
    rw [dial, he]
  · intro d b₁ hd
    rw [dial, hd]
    exact found_none

theorem checks_listen (server : Handle) (network address : String) (funnel : Option FunnelMode) :
    Checks b (b.stale? [(.server, server)]) (errorOf (b.listen server network address funnel).1)
      (b.listen server network address funnel).2 := by
  apply (checks_withNode b server fun n => Network.listen n network address funnel).andThen
  · intro e b₁ he
    rw [listen, he]
  · intro l b₁ hl
    rw [listen, hl]
    exact found_none

theorem checks_listenRefused (server : Handle) (network address : String)
    (funnel : Option FunnelMode) (f : Failure) :
    Checks b (b.stale? [(.server, server)])
      (errorOf (b.listenRefused server network address funnel f).1)
      (b.listenRefused server network address funnel f).2 := by
  apply (checks_withNode b server fun n => Network.listen n network address funnel).andThen
  · intro e b₁ he
    rw [listenRefused, he]
  · intro l b₁ hl
    rw [listenRefused, hl]
    exact found_fail server f

theorem checks_loopback (server : Handle) (capacity : Nat) :
    Checks b (b.stale? [(.server, server)]) (errorOf (b.loopback server capacity).1)
      (b.loopback server capacity).2 := by
  apply (checks_withNode b server Network.loopback).andThen
  · intro e b₁ he
    rw [loopback, he]
  intro info b₁ hinfo
  rw [loopback, hinfo]
  dsimp only
  split
  · rename_i e he
    have hf := found_ensureFits info.address capacity
    rwa [he] at hf
  · split
    · rename_i e he
      have hf := found_credentials info
      rw [he] at hf
      exact found_refuse fun h hb => hf h (congrArg some hb)
    · exact found_none

theorem checks_close (server : Handle) :
    Checks b (b.stale? [(.server, server)]) (errorOf (b.close server).1) (b.close server).2 := by
  apply checks_entry
  · intro hs
    rw [close_none hs]
    exact ⟨rfl, rfl⟩
  · intro s hs
    rw [close_some hs]
    apply Checks.live
    intro h
    exact errorOf_mapError_ne fun text ht => by cases ht

theorem found_takeNext (place : Waiting) : Found (errorOf (b.takeNext place).1) := by
  unfold takeNext
  dsimp only
  split
  · exact found_refuse (toBridgeError_ne _)
  · exact found_none

theorem checks_acceptNonblocking (listener : Handle) :
    Checks b (b.stale? [(.listener, listener)]) (errorOf (b.acceptNonblocking listener).1)
      (b.acceptNonblocking listener).2 := by
  apply checks_entry
  · intro he
    rw [acceptNonblocking, placeAt_none he]
    exact ⟨rfl, rfl⟩
  · intro entry he
    rw [acceptNonblocking, placeAt_some he]
    exact .live (found_takeNext b _)

theorem found_resumeAccept (place : Waiting) :
    Found (b.resumeAccept place).1.reaction.error? := by
  unfold resumeAccept
  split
  · have hf := found_takeNext b place
    rwa [← error?_reaction] at hf
  · exact found_none

theorem checks_accept (listener : Handle) :
    Checks b (b.stale? [(.listener, listener)]) (b.accept listener).1.reaction.error?
      (b.accept listener).2 := by
  apply checks_entry
  · intro he
    rw [accept, placeAt_none he]
    exact ⟨rfl, rfl⟩
  · intro entry he
    rw [accept, placeAt_some he]
    exact .live (found_resumeAccept b _)

theorem found_wouldBlock : Found (some .wouldBlock) :=
  found_some fun h he => by cases he

/-- A wait for a listener that is retired meanwhile ends with its handle, and does nothing more. -/
theorem checks_resumeAcceptReady (place : Waiting) :
    Checks b (if b.isReady place then b.stale? [(.listener, place.listener)] else none)
      (b.resumeAcceptReady place).1.reaction.error? (b.resumeAcceptReady place).2 := by
  have hc := checks_acceptNonblocking b place.listener
  unfold resumeAcceptReady
  split
  · split
    · rename_i b₁ ha
      rw [ha] at hc
      exact hc.instead found_wouldBlock found_none
    · rename_i r b₁ _ ha
      rw [ha] at hc
      rwa [error?_reaction]
  · exact .live found_none

theorem checks_acceptReady (listener : Handle) :
    Checks b (b.stale? [(.listener, listener)]) (b.acceptReady listener).1.reaction.error?
      (b.acceptReady listener).2 := by
  have hc := checks_acceptNonblocking b listener
  unfold acceptReady
  split
  · rename_i b₁ ha
    obtain ⟨-, hl, entry, he⟩ := acceptNonblocking_wouldBlock ha
    rw [ha] at hc
    rw [← hl] at he
    have hlive : b₁.stale? [(.listener, listener)] = none := by
      rw [Tables.stale?_eq_none]
      simpa using Tables.holds_listener he
    have hagain := checks_resumeAcceptReady b₁ ⟨listener, entry.server, entry.feed⟩
    rw [hlive, ite_self] at hagain
    rw [placeAt_some he]
    apply hc.instead found_wouldBlock
    intro h hbad
    cases hagain.told.mp hbad
  · rename_i r b₁ _ ha
    rw [ha] at hc
    rwa [error?_reaction]

theorem checks_remoteAddress (listener conn : Handle) (capacity : Nat) :
    Checks b (b.stale? [(.listener, listener), (.conn, conn)])
      (errorOf (b.remoteAddress listener conn capacity).1)
      (b.remoteAddress listener conn capacity).2 := by
  apply checks_entry
  · intro he
    rw [remoteAddress, HandleTable.get_eq, he]
    exact ⟨rfl, rfl⟩
  intro entry he
  apply checks_entry
  · intro hc
    rw [remoteAddress, HandleTable.get_ok_iff.mpr he]
    dsimp only
    rw [HandleTable.get_eq, hc]
    exact ⟨rfl, rfl⟩
  intro c hc
  apply Checks.live
  unfold remoteAddress
  rw [HandleTable.get_ok_iff.mpr he]
  dsimp only
  rw [HandleTable.get_ok_iff.mpr hc]
  dsimp only
  split
  · exact found_refuse fun h hb => by cases hb
  · split
    · exact found_fail entry.server _
    · rename_i endpoint net _
      have hf := found_ensureFits endpoint.ip.name capacity
      rwa [← errorOf_map _ fun _ => endpoint.ip.name] at hf

theorem checks_acceptReadyRefused (listener : Handle) (cause : String) :
    Checks b (b.stale? [(.listener, listener)])
      (errorOf (b.acceptReadyRefused listener cause).1)
      (b.acceptReadyRefused listener cause).2 := by
  have hc := checks_acceptNonblocking b listener
  unfold acceptReadyRefused
  split
  · rename_i b₁ ha
    obtain ⟨-, hl, entry, he⟩ := acceptNonblocking_wouldBlock ha
    rw [ha] at hc
    apply hc.instead found_wouldBlock
    rw [listenerRefused, HandleTable.get_ok_iff.mpr (hl ▸ he)]
    exact found_refuse fun h hb => by cases hb
  · rename_i r b₁ _ ha
    rwa [ha] at hc

end Operations

section Calls
variable [Network W] (b : Bridge W)

theorem perform_checks (v : Verb) :
    Checks b (b.stale? v.handles) (b.perform v).1.error? (b.perform v).2 := by
  cases v with
  | start s => exact checks_ending _ (checks_withNode b s _)
  | up s => exact checks_ending _ (checks_withNode b s _)
  | close s => exact checks_ending _ (checks_close b s)
  | configure s option => exact checks_ending _ (checks_withNode b s _)
  | applyConfig s config => exact checks_ending _ (checks_applyConfig b s config)
  | dial s network address => exact checks_ending _ (checks_dial b s network address)
  | listen s network address funnel =>
    exact checks_ending _ (checks_listen b s network address funnel)
  | addresses s capacity => exact checks_ending _ (checks_text b s _ _ capacity)
  | certDomains s capacity => exact checks_ending _ (checks_text b s _ _ capacity)
  | loopback s capacity => exact checks_ending _ (checks_loopback b s capacity)
  | lastError s capacity =>
    apply checks_ending
    apply checks_entry
    · intro hs
      rw [lastError, HandleTable.get_eq, hs]
      exact ⟨rfl, rfl⟩
    · intro server hs
      exact .live (found_lastError hs capacity)
  | accept l => exact checks_accept b l
  | acceptNonblocking l => exact checks_ending _ (checks_acceptNonblocking b l)
  | acceptReady l => exact checks_acceptReady b l
  | listenerReadable l =>
    apply checks_ending
    apply checks_entry
    · intro he
      rw [listenerReadable, placeAt_none he]
      exact ⟨rfl, rfl⟩
    · intro entry he
      rw [listenerReadable, placeAt_some he]
      exact .live found_none
  | closeListener l =>
    apply checks_ending
    apply checks_entry
    · intro he
      rw [closeListener_none he]
      exact ⟨rfl, rfl⟩
    · intro entry he
      rw [closeListener_some he]
      exact .live found_none
  | remoteAddress l c capacity => exact checks_ending _ (checks_remoteAddress b l c capacity)
  | connStream c =>
    apply checks_ending
    apply checks_entry
    · intro he
      rw [connStream, HandleTable.get_eq, he]
      exact ⟨rfl, rfl⟩
    · intro conn he
      rw [connStream, HandleTable.get_ok_iff.mpr he]
      exact .live found_none
  | takeConn c =>
    apply checks_ending
    apply checks_entry
    · intro he
      rw [takeConn, HandleTable.close_eq, he]
      exact ⟨rfl, rfl⟩
    · intro conn he
      rw [takeConn, HandleTable.close_ok_iff.mpr ⟨he, rfl⟩]
      exact .live found_none
  | closeConn c =>
    apply checks_ending
    apply checks_entry
    · intro he
      rw [closeConn, HandleTable.close_eq, he]
      exact ⟨rfl, rfl⟩
    · intro conn he
      rw [closeConn, HandleTable.close_ok_iff.mpr ⟨he, rfl⟩]
      exact .live found_none

/-- So does an operation that is refused what it asks of the system. -/
theorem performRefused_checks (refusal : Refusal) (v : Verb) :
    Checks b (b.stale? v.handles) (b.performRefused refusal v).1.error?
      (b.performRefused refusal v).2 := by
  unfold performRefused
  split
  · exact checks_ending _ (checks_listenRefused ..)
  · exact checks_ending _ (checks_listenRefused ..)
  · rename_i cause c
    apply checks_ending
    apply checks_entry
    · intro he
      rw [connStreamRefused, HandleTable.get_eq, he]
      exact ⟨rfl, rfl⟩
    · intro conn he
      rw [connStreamRefused, HandleTable.get_ok_iff.mpr he]
      exact .live (found_refuse fun h hb => by cases hb)
  · rename_i cause c
    apply checks_ending
    apply checks_entry
    · intro he
      rw [takeConnRefused, HandleTable.close_eq, he]
      exact ⟨rfl, rfl⟩
    · intro conn he
      rw [takeConnRefused, HandleTable.close_ok_iff.mpr ⟨he, rfl⟩]
      exact .live (found_refuse fun h hb => by cases hb)
  · exact checks_ending _ (checks_listenerRefused b _ _)
  · exact checks_ending _ (checks_acceptReadyRefused b _ _)
  · exact perform_checks b v

end Calls

end Bridge
end Handoff
