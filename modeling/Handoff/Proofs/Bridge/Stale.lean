import Handoff.Proofs.Bridge.Issuing
import Handoff.Proofs.Descriptor.Receiving
import Handoff.Tailnet.Network

namespace Handoff.Bridge
variable {W : Type} [Network W]

inductive Attempt (b : Bridge W) (v : Verb) : Reaction → Bridge W → Prop where
  | served : Attempt b v (b.perform v).1 (b.perform v).2
  /-- The system does not give it all that it asks for. -/
  | refused (r : Refusal) : Attempt b v (b.performRefused r v).1 (b.performRefused r v).2

/-- One thing that happens to a bridge, and the handle that is issued with it. -/
inductive Turn (b : Bridge W) : Option (HandleKind × Handle) → Bridge W → Prop where
  | newServer : Turn b (some (.server, b.newServer.1)) b.newServer.2
  | call {v reaction b'} : Attempt b v reaction b' → Turn b (v.issued? reaction) b'
  | resumeAccept (place : Waiting) :
    Turn b ((Verb.accept place.listener).issued? (b.resumeAccept place).1.reaction)
      (b.resumeAccept place).2
  | resumeAcceptReady (place : Waiting) :
    Turn b ((Verb.acceptReady place.listener).issued? (b.resumeAcceptReady place).1.reaction)
      (b.resumeAcceptReady place).2
  /-- The pumps run, and the network is used by others. -/
  | elsewhere (net : W) (feed : FeedId → Feed) : Turn b none { b with net, feed }

inductive Turns (b : Bridge W) : List (HandleKind × Handle) → Bridge W → Prop where
  | stay : Turns b [] b
  | turn {issued new? b₁ b₂} : Turns b issued b₁ → Turn b₁ new? b₂ →
    Turns b (issued ++ new?.toList) b₂

section
variable {b b' : Bridge W} {v : Verb} {reaction : Reaction} {issued : List (HandleKind × Handle)}
  {new? : Option (HandleKind × Handle)} {k : HandleKind × Handle}

theorem Attempt.checks (h : Attempt b v reaction b') :
    Checks b (b.stale? v.handles) reaction.error? b' := by
  cases h with
  | served => exact perform_checks b v
  | refused r => exact performRefused_checks b r v

theorem Attempt.retires (h : Attempt b v reaction b') (hv : v.retires? = some k) :
    Retires b k b' := by
  cases h with
  | served => exact perform_retires b hv
  | refused r => exact performRefused_retires b hv r

theorem Turn.adds (h : Turn b new? b') : b.Adds new? b'.toTables := by
  cases h with
  | newServer => exact adds_newServer b
  | call h =>
    cases h with
    | served => exact perform_adds b _
    | refused r => exact performRefused_adds b r _
  | resumeAccept place => exact adds_resumeAccept b rfl place
  | resumeAcceptReady place => exact adds_resumeAcceptReady b rfl place
  | elsewhere net feed => exact .refl _

/-- A handle that is stale stays so over a run that does not issue it. -/
theorem Turns.stale (h : Turns b issued b') (hk : b.holds k = false) (hn : k ∉ issued) :
    b'.holds k = false := by
  induction h with
  | stay => exact hk
  | turn _ ht ih =>
    rw [List.mem_append, not_or, Option.mem_toList] at hn
    exact ht.adds.stale (ih hn.1) hn.2

theorem error?_badHandle {h : Handle} :
    reaction.error? = some (.badHandle h) ↔ reaction = .ends (.error (.badHandle h)) := by
  cases reaction with
  | ends r => cases r <;> simp [Reaction.error?, errorOf]
  | waits place => simp [Reaction.error?]

section Waits
variable {listener : Handle} {place place' : Waiting}

theorem resumeAccept_waits (h : b.resumeAccept place = (.waiting place', b')) : b' = b := by
  unfold resumeAccept at h
  split at h
  · cases congrArg Prod.fst h
  · cases h
    rfl

theorem accept_waits (h : b.accept listener = (.waiting place, b')) :
    b' = b := by
  unfold accept at h
  split at h
  · cases h
  · exact resumeAccept_waits h

variable (hw : ∀ w : W, Network.withStreams w (Network.streams w) = w)
include hw

/-- A receive that found nothing left everything as it was. -/
theorem takeNext_wouldBlock (h : b.takeNext place = (.error .wouldBlock, b')) : b' = b := by
  have hres := takeNext_wouldBlock_iff.mp (congrArg Prod.fst h)
  have hreceive := Channel.receive_empty (Channel.queue_of_wouldBlock hres)
  unfold takeNext at h
  dsimp only at h
  rw [hres, hreceive] at h
  cases h
  simp only [Streams.closeAll, List.foldl_nil, setFeed, hw, assign_self]

theorem acceptNonblocking_unmoved (h : b.acceptNonblocking listener = (.error .wouldBlock, b')) :
    b' = b := by
  unfold acceptNonblocking at h
  split at h
  · cases h
    rfl
  · exact takeNext_wouldBlock hw h

theorem resumeAcceptReady_waits (h : b.resumeAcceptReady place = (.waiting place', b')) :
    b' = b := by
  unfold resumeAcceptReady at h
  split at h
  · split at h
    · rename_i ha
      cases h
      exact acceptNonblocking_unmoved hw ha
    · cases h
  · cases h
    rfl

theorem acceptReady_waits (h : b.acceptReady listener = (.waiting place, b')) :
    b' = b := by
  unfold acceptReady at h
  split at h
  · rename_i b₁ ha
    obtain rfl := acceptNonblocking_unmoved hw ha
    split at h
    · cases h
    · exact resumeAcceptReady_waits hw h
  · cases h

/-- A call that waits has done nothing yet. -/
theorem perform_waits (h : b.perform v = (.waits place, b')) : b' = b := by
  have waiting : ∀ {o : Acceptance × Bridge W}, o.map Acceptance.reaction id = (.waits place, b') →
      o = (.waiting place, b') := by
    intro ⟨a, b₁⟩ ho
    cases a <;> cases ho
    rfl
  cases v with
  | accept l => exact accept_waits (waiting h)
  | acceptReady l => exact acceptReady_waits hw (waiting h)
  | _ => cases congrArg Prod.fst h

end Waits

end

/-- A stale handle is told wherever it is given, and nothing is done with it: the answer names the
first handle that is not live among those the operation looks up, and no other answer says that a
handle is bad. A wait that began with a live handle has done nothing by itself, and ends with that
handle only if the listener is retired meanwhile. From the operation that retires it on, a handle is
stale in every bridge that is reached before it is issued again. -/
theorem stale_handles_told (b : Bridge W) :
    (∀ v reaction b', Attempt b v reaction b' → ∀ h,
      (reaction = .ends (.error (.badHandle h)) ↔ b.stale? v.handles = some h) ∧
      (reaction = .ends (.error (.badHandle h)) → b' = b)) ∧
    (∀ server buffer,
      ((b.lastErrorInto server buffer).1 = .badHandle ↔ b.holds (.server, server) = false) ∧
      ((b.lastErrorInto server buffer).1 = .badHandle →
        (b.lastErrorInto server buffer).2 = buffer)) ∧
    ((∀ w : W, Network.withStreams w (Network.streams w) = w) →
      ∀ v place b', b.perform v = (.waits place, b') → b' = b) ∧
    (∀ place h, (b.resumeAccept place).1.reaction ≠ .ends (.error (.badHandle h)) ∧
      ((b.resumeAcceptReady place).1.reaction = .ends (.error (.badHandle h)) ↔
        b.isReady place = true ∧ b.stale? [(.listener, place.listener)] = some h) ∧
      ((b.resumeAcceptReady place).1.reaction = .ends (.error (.badHandle h)) →
        (b.resumeAcceptReady place).2 = b)) ∧
    ∀ v k reaction b₁, v.retires? = some k → Attempt b v reaction b₁ →
      ∀ issued b₂, Turns b₁ issued b₂ → k ∉ issued →
        ∀ w, k ∈ w.handles → ∀ reaction' b₃, Attempt b₂ w reaction' b₃ →
          ∃ h, b₂.stale? w.handles = some h ∧ reaction' = .ends (.error (.badHandle h)) ∧
            b₃ = b₂ := by
  refine ⟨?_, ?_, ?_, ?_, ?_⟩
  · intro v reaction b' ha h
    have hc := ha.checks
    rw [← error?_badHandle]
    exact ⟨hc.told, fun he => hc.unmoved (hc.told.mp he)⟩
  · intro server buffer
    exact lastErrorInto_stale b server buffer
  · intro hw v place b' h
    exact perform_waits hw h
  · intro place h
    have hc := checks_resumeAcceptReady b place
    rw [ne_eq, ← error?_badHandle, ← error?_badHandle]
    refine ⟨found_resumeAccept b place h, ?_, fun he => hc.unmoved (hc.told.mp he)⟩
    rw [hc.told]
    split
    · rename_i hready
      simp [hready]
    · rename_i hready
      simp [hready]
  · intro v k reaction b₁ hv ha issued b₂ hturns hn w hw reaction' b₃ ha'
    have hstale := hturns.stale (ha.retires hv).stale hn
    obtain ⟨h, hh⟩ := Tables.stale?_of_mem hw hstale
    have hc := ha'.checks
    exact ⟨h, hh, error?_badHandle.mp (hc.told.mpr hh), hc.unmoved hh⟩

def awaiting : Bridge Tailnet :=
  ((newServer { net := {} }).2.perform (.listen ⟨2752513⟩ "tcp" ":80" none)).2

/-- Who waits there has done nothing. Once the server is closed it does not listen again. -/
theorem stale_handles_told_of_awaiting :
    (awaiting.perform (.accept ⟨2818049⟩)).2 = awaiting ∧
      ((awaiting.perform (.close ⟨2752513⟩)).2.perform (.listen ⟨2752513⟩ "tcp" ":80" none)).1 =
        .ends (.error (.badHandle ⟨2752513⟩)) := by
  obtain ⟨-, -, hwaits, -, hstale⟩ := stale_handles_told awaiting
  refine ⟨hwaits (fun _ => rfl) (.accept ⟨2818049⟩) ⟨⟨2818049⟩, ⟨2752513⟩, 0⟩ _ rfl, ?_⟩
  obtain ⟨h, hh, hr, -⟩ := hstale (.close ⟨2752513⟩) (.server, ⟨2752513⟩) _ _ rfl .served [] _
    .stay List.not_mem_nil (.listen ⟨2752513⟩ "tcp" ":80" none) (List.mem_singleton.mpr rfl) _ _
    .served
  have htold : (awaiting.perform (.close ⟨2752513⟩)).2.stale? [(.server, ⟨2752513⟩)] =
      some ⟨2752513⟩ := rfl
  obtain rfl := Option.some.inj (hh.symm.trans htold)
  exact hr

end Handoff.Bridge
