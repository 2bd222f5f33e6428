import Handoff.Proofs.Bridge.Settling
import Handoff.Proofs.Error.Record
import Handoff.Tailnet.Network

namespace Handoff

namespace Bridge
variable {W : Type}

/-- What a call about the server `S` that ends with `e?` does to the servers' records. A failure of
the network and the end of a channel are what the record of `S` says afterwards, unless `S` is gone;
any other answer leaves it as it was. All other servers keep theirs. -/
structure Law (b : Bridge W) (S : Option Handle) (e? : Option BridgeError) (b' : Bridge W) :
    Prop where
  noted : ∀ e, e? = some e → e.isNoted = true →
    ∃ s, S = some s ∧ ∀ text, b'.recordOf s = some text → text = e.message
  kept : Unnoted e? →
    ∀ s, S = some s → ∀ text, b'.recordOf s = some text → b.recordOf s = some text
  others : ∀ s, S ≠ some s → b'.recordOf s = b.recordOf s

section
variable {q : Prop} {b b' : Bridge W} {server : Handle} {S : Option Handle}
  {e? : Option BridgeError}

theorem recordOf_of_servers (h : b'.servers = b.servers) (s : Handle) :
    b'.recordOf s = b.recordOf s := by
  rw [Tables.recordOf, h, Tables.recordOf]

theorem recordOf_record (b : Bridge W) (server s : Handle) (text : String) :
    (b.record server text).recordOf s =
      if s = server then (b.recordOf s).map fun _ => text else b.recordOf s := by
  rw [Tables.recordOf, record, HandleTable.find?_modify, Tables.recordOf]
  split
  · cases b.servers.find? s <;> rfl
  · rfl

theorem recordOf_erase (h : b'.servers = b.servers.erase server) (s : Handle) :
    b'.recordOf s = if s = server then none else b.recordOf s := by
  rw [Tables.recordOf, h, HandleTable.find?_erase, Tables.recordOf]
  split <;> rfl

theorem law_unnoted (S : Option Handle) (he : Unnoted e?) (hs : b'.servers = b.servers) :
    Law b S e? b' where
  noted e h hn := by
    rw [he e h] at hn
    cases hn
  kept _ s _ text ht := by rwa [recordOf_of_servers hs] at ht
  others s _ := recordOf_of_servers hs s

theorem Booked.law (h : Booked b b' server e?) : Law b (some server) e? b' := by
  cases h with
  | kept he hs => exact law_unnoted _ he hs
  | @noted e hn hs =>
    have hrec : ∀ s, b'.recordOf s =
        if s = server then (b.recordOf s).map fun _ => e.message else b.recordOf s := by
      intro s
      rw [recordOf_of_servers hs, recordOf_record]
    refine ⟨?_, ?_, ?_⟩
    · intro e' he _
      obtain rfl := Option.some.inj he
      refine ⟨server, rfl, ?_⟩
      intro text ht
      rw [hrec, if_pos rfl] at ht
      obtain ⟨_, -, rfl⟩ := Option.map_eq_some_iff.mp ht
      rfl
    · intro he
      rw [he e rfl] at hn
      cases hn
    · intro s hne
      rw [hrec, if_neg]
      rintro rfl
      exact hne rfl

/-- A record that is gone says nothing. -/
theorem law_erase (e? : Option BridgeError) (hs : b'.servers = b.servers.erase server) :
    Law b (some server) e? b' := by
  have hgone : b'.recordOf server = none := by rw [recordOf_erase hs, if_pos rfl]
  refine ⟨?_, ?_, ?_⟩
  · intro e _ _
    refine ⟨server, rfl, ?_⟩
    intro text ht
    rw [hgone] at ht
    cases ht
  · intro _ s h text ht
    obtain rfl := Option.some.inj h
    rw [hgone] at ht
    cases ht
  · intro s hne
    rw [recordOf_erase hs, if_neg]
    rintro rfl
    exact hne rfl

theorem Settles.law (h : Settles q b S e? b') : Law b S e? b' := by
  cases h with
  | untouched he hs _ => exact law_unnoted S he hs
  | booked hS hb =>
    rw [hS]
    exact hb.servers.law
  | closed _ hS _ hs _ =>
    rw [hS]
    exact law_erase e? hs

/-- The end of a channel is told on a record that is there. -/
theorem Books.reset_recorded (h : Books b server e? b') (he : e? = some .connectionReset) :
    b'.recordOf server = some BridgeError.connectionReset.message := by
  obtain ⟨s, hs⟩ := h.servers.live (h.reset he)
  have hrec : b'.recordOf server = some s.record.text := by rw [Tables.recordOf, hs]; rfl
  obtain ⟨_, hS, hnote⟩ := h.servers.law.noted _ he rfl
  obtain rfl := Option.some.inj hS
  rw [hrec, hnote _ hrec]

theorem Settles.reset_recorded (h : Settles q b S e? b') (he : e? = some .connectionReset) :
    ∃ s, S = some s ∧ b'.recordOf s = some BridgeError.connectionReset.message := by
  cases h with
  | untouched hu _ _ => cases hu _ he
  | booked hS hb => exact ⟨_, hS, hb.reset_recorded he⟩
  | closed _ _ hne _ _ => exact absurd he hne

end

inductive Event where
  | opened (server : Handle)
  /-- A call about `subject` has ended, or waits. -/
  | answered (subject : Option Handle) (error : Option BridgeError)
  deriving DecidableEq

def Event.note? (s : Handle) : Event → Option String
  | opened server => if server = s then some "" else none
  | answered (some server) (some e) => if server = s ∧ e.isNoted then some e.message else none
  | answered _ _ => none

/-- The text that the record of `s` got last; the latest event comes first. -/
def lastNote (s : Handle) (log : List Event) : String :=
  (log.findSome? (Event.note? s)).getD ""

section
variable {s : Handle} {event : Event} {log : List Event}

theorem lastNote_of_some {text : String} (h : event.note? s = some text) :
    lastNote s (event :: log) = text := by
  rw [lastNote, List.findSome?_cons, h]
  rfl

theorem lastNote_of_none (h : event.note? s = none) :
    lastNote s (event :: log) = lastNote s log := by
  rw [lastNote, List.findSome?_cons, h, lastNote]

theorem note?_unnoted {e? : Option BridgeError} (S : Option Handle) (he : Unnoted e?) :
    (Event.answered S e?).note? s = none := by
  cases S with
  | none => rfl
  | some server =>
    cases e? with
    | none => rfl
    | some e => simp [Event.note?, he e rfl]

theorem note?_other {S : Option Handle} (e? : Option BridgeError) (h : S ≠ some s) :
    (Event.answered S e?).note? s = none := by
  cases S with
  | none => rfl
  | some server =>
    have hne : server ≠ s := by
      rintro rfl
      exact h rfl
    cases e? with
    | none => rfl
    | some e => simp [Event.note?, hne]

/-- A call that keeps the law keeps every record at the text that was noted last. -/
theorem Law.noted_last {b b' : Bridge W} {S : Option Handle} {e? : Option BridgeError}
    (h : Law b S e? b') (hb : ∀ s text, b.recordOf s = some text → text = lastNote s log)
    (text : String) (ht : b'.recordOf s = some text) :
    text = lastNote s (.answered S e? :: log) := by
  by_cases hS : S = some s
  · -- a call about `s` itself: its error is noted, or the record stays
    by_cases he : Unnoted e?
    · rw [lastNote_of_none (note?_unnoted S he)]
      exact hb s text (h.kept he s hS text ht)
    · obtain ⟨e, rfl, hn⟩ : ∃ e, e? = some e ∧ e.isNoted = true := by
        simpa [Unnoted] using he
      obtain ⟨_, hS', hnote⟩ := h.noted e rfl hn
      obtain rfl := Option.some.inj (hS.symm.trans hS')
      rw [hnote text ht, lastNote_of_some]
      simp [Event.note?, hS, hn]
  · rw [h.others s hS] at ht
    rw [lastNote_of_none (note?_other e? hS)]
    exact hb s text ht

end

section Runs
variable [Network W]

inductive Called (b : Bridge W) : Option Handle → Option BridgeError → Bridge W → Prop where
  | performed (v : Verb) :
    Called b (v.subject b.toTables) (b.perform v).1.error? (b.perform v).2
  /-- The system does not give it all that it asks for. -/
  | refused (r : Refusal) (v : Verb) :
    Called b (v.subject b.toTables) (b.performRefused r v).1.error? (b.performRefused r v).2

/-- An accept goes on from where it waited. Anything may have been done to the bridge meanwhile. -/
inductive Resumed (b : Bridge W) : Option Handle → Option BridgeError → Bridge W → Prop where
  /-- It is about the server that the listener belonged to when it was called. -/
  | accept (place : Waiting) :
    Resumed b (some place.server) (b.resumeAccept place).1.reaction.error?
      (b.resumeAccept place).2
  | acceptReady (place : Waiting) :
    Resumed b ((b.listeners.find? place.listener).map ListenerEntry.server)
      (b.resumeAcceptReady place).1.reaction.error? (b.resumeAcceptReady place).2

inductive Reached : Bridge W → List Event → Prop where
  | start (net : W) : Reached { net } []
  | newServer {b log} : Reached b log → Reached b.newServer.2 (.opened b.newServer.1 :: log)
  | call {b b' S e? log} : Reached b log → Called b S e? b' → Reached b' (.answered S e? :: log)
  | resume {b b' S e? log} : Reached b log → Resumed b S e? b' →
    Reached b' (.answered S e? :: log)
  /-- The pumps run, and the network is used by others. -/
  | elsewhere {b log} (net : W) (feed : FeedId → Feed) : Reached b log →
    Reached { b with net, feed } log

section
variable {b b' : Bridge W} {S : Option Handle} {e? : Option BridgeError}

theorem Called.settles (hr : b.Rooted) (h : Called b S e? b') : ∃ q, Settles q b S e? b' := by
  cases h with
  | performed v => exact ⟨_, perform_settles hr v⟩
  | refused r v => exact ⟨_, performRefused_settles hr r v⟩

theorem booked_resumeAccept (b : Bridge W) (place : Waiting) :
    Booked b (b.resumeAccept place).2 place.server
      (b.resumeAccept place).1.reaction.error? := by
  unfold resumeAccept
  split
  · have hb := b.booked_takeNext place
    rwa [← error?_reaction] at hb
  · exact .kept unnoted_none rfl

theorem resumeAccept_listeners (b : Bridge W) (place : Waiting) :
    (b.resumeAccept place).2.listeners = b.listeners := by
  unfold resumeAccept
  split
  · exact b.takeNext_listeners place
  · rfl

theorem Resumed.law (hr : b.Rooted) (h : Resumed b S e? b') : Law b S e? b' := by
  cases h with
  | accept place => exact (booked_resumeAccept b place).law
  | acceptReady place => exact (settles_resumeAcceptReady (q := False) hr place).law

theorem Resumed.rooted (hr : b.Rooted) (h : Resumed b S e? b') : b'.Rooted := by
  cases h with
  | accept place =>
    intro l entry he
    rw [resumeAccept_listeners] at he
    exact (booked_resumeAccept b place).live (hr l entry he)
  | acceptReady place => exact (settles_resumeAcceptReady (q := False) hr place).rooted hr

theorem recordOf_newServer (b : Bridge W) (s : Handle) :
    b.newServer.2.recordOf s = if s = b.newServer.1 then some "" else b.recordOf s := by
  unfold newServer
  dsimp only [Tables.recordOf]
  rw [HandleTable.find?_allocate]
  split <;> rfl

theorem rooted_newServer (hr : b.Rooted) : b.newServer.2.Rooted := by
  intro l entry he
  obtain ⟨x, hx⟩ := hr l entry he
  unfold newServer
  dsimp only
  rw [HandleTable.find?_allocate]
  split
  · exact ⟨_, rfl⟩
  · exact ⟨x, hx⟩

end

/-- Throughout a run listeners belong to servers that are live, and every record says what was noted
last. -/
theorem Reached.noted_last {b : Bridge W} {log : List Event} (h : Reached b log) :
    b.Rooted ∧ ∀ s text, b.recordOf s = some text → text = lastNote s log := by
  induction h with
  | start net =>
    refine ⟨?_, ?_⟩
    · intro l entry he
      cases he
    · intro s text ht
      cases ht
  | @newServer b log _ ih =>
    refine ⟨rooted_newServer ih.1, ?_⟩
    intro s text ht
    rw [recordOf_newServer] at ht
    split at ht
    · rename_i hs
      cases ht
      rw [lastNote_of_some]
      simp [Event.note?, hs]
    · rename_i hs
      rw [lastNote_of_none]
      · exact ih.2 s text ht
      · simp [Event.note?, Ne.symm hs]
  | call _ hc ih =>
    obtain ⟨_, hsettles⟩ := hc.settles ih.1
    exact ⟨hsettles.rooted ih.1, fun _ text ht => hsettles.law.noted_last ih.2 text ht⟩
  | resume _ hc ih =>
    exact ⟨hc.rooted ih.1, fun _ text ht => (hc.law ih.1).noted_last ih.2 text ht⟩
  | elsewhere net feed _ ih => exact ih -- neither servers nor listeners are touched

/-- In every bridge that a run leads to, calls keep the law of the servers' records, and so do the
accepts that go on after they waited. Only closing a server retires it. The last error of a live
server, asked for with room enough, is the text of the last failure or end of a channel that was met
in a call about that server, and empty if there was none. -/
theorem records_of_reached {b : Bridge W} {log : List Event} (h : Reached b log) :
    (∀ S e? b', Called b S e? b' → Law b S e? b' ∧
      (e? = some .connectionReset →
        ∃ s, S = some s ∧ b'.recordOf s = some BridgeError.connectionReset.message)) ∧
    (∀ S e? b', Resumed b S e? b' → Law b S e? b') ∧
    (∀ v, (∀ s, v ≠ .close s) → ∀ s ∈ b.serverHandles, s ∈ (b.perform v).2.serverHandles) ∧
    ∀ s capacity, s ∈ b.serverHandles → (lastNote s log).utf8ByteSize < capacity →
      b.lastError s capacity = .ok (lastNote s log) := by
  obtain ⟨hr, hlast⟩ := h.noted_last
  refine ⟨?_, ?_, ?_, ?_⟩
  · intro S e? b' hc
    obtain ⟨_, hsettles⟩ := hc.settles hr
    exact ⟨hsettles.law, hsettles.reset_recorded⟩
  · intro S e? b' hc
    exact hc.law hr
  · intro v hv s hs
    apply (perform_settles hr v).stays _ hs
    rintro ⟨server, hclose⟩
    exact hv server hclose
  · intro s capacity hlive hroom
    obtain ⟨server, hs⟩ := HandleTable.mem_handles.mp hlive
    have htext : server.record.text = lastNote s log := by
      apply hlast s
      rw [Tables.recordOf, hs]
      rfl
    rw [lastError, HandleTable.get_ok_iff.mpr hs]
    dsimp only [Except.bind, ErrorRecord.fetch]
    rw [htext]
    exact truncate_of_lt hroom

end Runs

def failedDial : Bridge Tailnet :=
  let b := (newServer (newServer { net := {} }).2).2
  let b := (b.perform (.listen ⟨2752513⟩ "tcp" ":80" none)).2
  let b := (b.perform (.dial ⟨2752513⟩ "tcp" "100.64.0.9:80")).2
  (b.perform (.acceptNonblocking ⟨2818049⟩)).2

theorem reached_failedDial :
    Reached failedDial [.answered (some ⟨2752513⟩) (some .wouldBlock),
      .answered (some ⟨2752513⟩) (some (.fatal "dial tcp 100.64.0.9:80: connection refused")),
      .answered (some ⟨2752513⟩) none, .opened ⟨2752514⟩, .opened ⟨2752513⟩] := by
  have hlisten := (Reached.start (W := Tailnet) {}).newServer.newServer.call
    (.performed (.listen ⟨2752513⟩ "tcp" ":80" none))
  have hdial := hlisten.call (.performed (.dial ⟨2752513⟩ "tcp" "100.64.0.9:80"))
  have haccept := hdial.call (.performed (.acceptNonblocking ⟨2818049⟩))
  refine Eq.subst ?_ haccept
  decide +kernel

theorem records_of_failedDial :
    (∀ v, Law failedDial (v.subject failedDial.toTables) (failedDial.perform v).1.error?
      (failedDial.perform v).2) ∧
    failedDial.lastError ⟨2752513⟩ 64 = .ok "dial tcp 100.64.0.9:80: connection refused" ∧
    failedDial.lastError ⟨2752514⟩ 64 = .ok "" := by
  obtain ⟨hcalls, -, -, hlast⟩ := records_of_reached reached_failedDial
  refine ⟨?_, ?_, ?_⟩
  · intro v
    exact (hcalls _ _ _ (.performed v)).1
  · exact hlast ⟨2752513⟩ 64 (by decide +kernel) (by decide +kernel)
  · exact hlast ⟨2752514⟩ 64 (by decide +kernel) (by decide +kernel)

end Bridge
end Handoff
