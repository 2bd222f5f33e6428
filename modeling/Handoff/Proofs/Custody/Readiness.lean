import Handoff.Proofs.Bridge.Readiness
import Handoff.Proofs.Custody.Closure
import Handoff.Proofs.Traffic.Waiting

namespace Handoff.Custody
variable {c c' c'' : Custody} {i : Nat} {l : Handle} {e : ListenerEntry}

theorem listens_listen (ht : (c.tables i).listeners.Tidy) (hroom : (c.tables i).listeners.HasRoom)
    (he : (c.tables i).listeners.find? l = some e) (server : Handle) (network address : String)
    (funnel : Option FunnelMode) :
    ((c.bridge i).listen server network address funnel).2.listeners.find? l = some e := by
  have hfree := HandleTable.find?_nextRaw ht hroom
  rcases Traffic.listen_worded (c.bridge i) server network address funnel with
    ⟨x, hx⟩ | ⟨s, -, ⟨f, -, hx⟩ | ⟨k, -, hx⟩⟩
  · rw [hx]
    exact he
  · rw [hx]
    exact he
  · rw [hx]
    refine (HandleTable.find?_allocate ..).trans ((if_neg ?_).trans he)
    rintro rfl
    cases hfree.symm.trans he

/-- An operation leaves a listener its handle unless it ends the listener. -/
theorem listens_perform (hr : Reachable c) (he : (c.tables i).listeners.find? l = some e)
    {v : Verb} (hv : v ∉ e.endings l) (hroom : ∀ server network address funnel,
      v = .listen server network address funnel → (c.tables i).listeners.HasRoom) :
    ((c.bridge i).perform v).2.listeners.find? l = some e := by
  simp only [ListenerEntry.endings, List.mem_cons, List.not_mem_nil, or_false, not_or] at hv
  let b := c.bridge i
  cases v with
  | close server =>
    cases ha : b.servers.find? server with
    | none =>
      change (b.close server).2.listeners.find? l = some e
      rw [Bridge.close_none ha]
      exact he
    | some a =>
      exact ((retires_of_reachable hr ha).entries l e).mpr ⟨he, fun hs => hv.2 (hs ▸ rfl)⟩
  | listen server network address funnel =>
    exact listens_listen (hr.intact.tidy i) (hroom _ _ _ _ rfl) he server network address funnel
  | closeListener k =>
    have hne : l ≠ k := fun h => hv.1 (h ▸ rfl)
    exact ((b.closeListener_tables k).2 l).trans ((if_neg hne).trans he)
  | _ =>
    rw [(mild_perform (b := b) hr.intact.wired rfl).shaped.listeners]
    exact he

theorem listens_assign {tables : Nat → Tables} {j : Nat} {T : Tables}
    (he : (tables i).listeners.find? l = some e)
    (hT : j = i → T.listeners.find? l = some e) :
    (assign tables j T i).listeners.find? l = some e := by
  rw [assign_apply]
  split
  · exact hT ‹i = j›.symm
  · exact he

/-- Of all that can happen while somebody waits on its bridge, only what ends a listener takes its
handle from it. -/
theorem listens_move (hr : Reachable c) (hm : Move c c')
    (he : (c.tables i).listeners.find? l = some e) (hwaits : ∃ w ∈ c.waiting, w.bridge = i) :
    (c'.tables i).listeners.find? l = some e ∨ ∃ v ∈ e.endings l, c' = c.perform i v := by
  cases hm with
  | newServer j _ => exact .inl (listens_assign he fun hj => by subst j; exact he)
  | perform j v hroom =>
    by_cases hends : j = i ∧ v ∈ e.endings l
    · obtain ⟨rfl, hv⟩ := hends
      exact .inr ⟨v, hv, rfl⟩
    · refine .inl (listens_assign he fun hj => ?_)
      subst j
      exact listens_perform hr he (fun hv => hends ⟨rfl, hv⟩) hroom
  | resume w _ =>
    left
    rw [tables_resume]
    refine listens_assign he fun hj => ?_
    rw [(mild_takes (takes_resumed c w)).shaped.listeners]
    exact hj ▸ he
  | pump j k _ =>
    left
    unfold Traffic.pump
    split
    · exact listens_assign he fun hj => by subst j; exact he
    · exact he
  | dropBridge j hw =>
    obtain ⟨w, hmem, hi⟩ := hwaits
    exact .inl (listens_assign he fun hj => absurd (hi.trans hj.symm) (hw w hmem))
  | use n u _ _ =>
    left
    rw [tables_use]
    exact he
  | newNode => exact .inl he
  | closeListener _ => exact .inl he
  | useFiles _ => exact .inl he
  | useStream _ _ _ => exact .inl he
  | release _ _ => exact .inl he

/-- Two calls that begin at once at the listener `l`, for which `e` is noted: one that waits for the
next connection, and one that waits for the listener to become ready. -/
structure Attends (c : Custody) (i : Nat) (l : Handle) (e : ListenerEntry) : Prop where
  begins : (c.bridge i).acceptReady l = (c.bridge i).accept l
  waits : ∀ place b, (c.bridge i).accept l = (.waiting place, b) →
    place = e.place l ∧ b = c.bridge i
  /-- Whenever they are woken, they come to the same as long as the listener has its handle. -/
  goesOn : ∀ c', Later c c' → (c'.tables i).listeners.find? l = some e →
    (c'.bridge i).resumeAcceptReady (e.place l) = (c'.bridge i).resumeAccept (e.place l)
  lasts : ∀ c' c'', Later c c' → (c'.tables i).listeners.find? l = some e →
    (∃ w ∈ c'.waiting, w.bridge = i) → Move c' c'' →
    (c''.tables i).listeners.find? l = some e ∨ ∃ v ∈ e.endings l, c'' = c'.perform i v
  /-- With nothing pending, they tell the end of the listener differently. -/
  ends : ∀ c' v, Later c c' → (c'.tables i).listeners.find? l = some e → v ∈ e.endings l →
    ((c'.tables i).feed e.feed).channel.queue = [] →
    (((c'.perform i v).bridge i).resumeAccept (e.place l)).1 = .done (.error .connectionReset) ∧
      ((c'.perform i v).bridge i).resumeAcceptReady (e.place l) =
        (.done (.error (.badHandle l)), (c'.perform i v).bridge i)
  /-- What came through before goes to whoever still waits for a connection. -/
  drains : ∀ c' v d rest, Later c c' → (c'.tables i).listeners.find? l = some e →
    v ∈ e.endings l → (∃ w ∈ c'.waiting, w.bridge = i ∧ w.place.feed = e.feed) →
    ((c'.tables i).feed e.feed).channel.queue = ⟨1, [d]⟩ :: rest →
    ∃ k, (((c'.perform i v).bridge i).resumeAccept (e.place l)).1 = .done (.ok k) ∧
      (((c'.perform i v).bridge i).resumeAccept (e.place l)).2.conns.find? k =
        some ⟨e.server, some l, d⟩

/-- What an ending leaves of the listener. -/
theorem shut_ending (hr : Reachable c) (he : (c.tables i).listeners.find? l = some e) {v : Verb}
    (hv : v ∈ e.endings l) :
    Bridge.Shut (c.bridge i) ((c.bridge i).perform v).2 e.feed ∧
      ((c.bridge i).perform v).2.listeners.find? l = none := by
  obtain ⟨s, hs, -⟩ := (hr.housed.lodged i).homes l e he
  have hlive : (c.tables i).servers.contains e.server = true :=
    Option.isSome_iff_exists.mpr ⟨s, hs⟩
  exact Bridge.shut_perform (b := c.bridge i) he hlive hv

/-- Waiting for readiness is waiting for the connection until the listener ends. -/
theorem attends_of_reachable (hr : Reachable c) (he : (c.tables i).listeners.find? l = some e) :
    Attends c i l e where
  begins := Bridge.acceptReady_eq_accept (fun _ => rfl) (c.bridge i) l
  waits := fun place b h => by
    have hsame := Bridge.accept_waits h
    rw [Bridge.accept_some (b := c.bridge i) he] at h
    exact ⟨Bridge.resumeAccept_place (congrArg Prod.fst h), hsame⟩
  goesOn := fun c' _ he' => Bridge.resumeAcceptReady_live (b := c'.bridge i) he'
  lasts := fun c' c'' hl he' hwaits hm => listens_move (hr.later hl) hm he' hwaits
  ends := fun c' v hl he' hv hq => by
    obtain ⟨hshut, hgone⟩ := shut_ending (hr.later hl) he' hv
    have hempty : (((c'.bridge i).perform v).2.feed e.feed).channel.queue = [] := by
      rw [hshut.queue]
      split
      · rfl
      · exact hq
    rw [bridge_perform]
    exact ⟨Bridge.resumeAccept_ended (e.place l) hshut.receiver hempty,
      Bridge.resumeAcceptReady_ended (e.place l) hshut.receiver hgone⟩
  drains := fun c' v d rest hl he' hv ⟨w, hw, hi, hk⟩ hq => by
    have hshut := (shut_ending (hr.later hl) he' hv).1
    have hkept : (c'.bridge i).waiters e.feed ≠ 0 := by
      rw [← hi, ← hk]
      exact (hr.later hl).traffic.counted.kept hw
    have hqueue : (((c'.bridge i).perform v).2.feed e.feed).channel.queue = ⟨1, [d]⟩ :: rest := by
      rw [hshut.queue, if_neg hkept]
      exact hq
    rw [bridge_perform]
    exact Bridge.resumeAccept_queued (e.place l) hqueue

def attending : Custody :=
  let c := newServer { net := {} } 0
  let c := c.perform 0 (.listen ⟨2752513⟩ "tcp" ":80" none)
  let c := c.perform 0 (.accept ⟨2818049⟩)
  c.perform 0 (.acceptReady ⟨2818049⟩)

theorem reachable_attending : Reachable attending := by
  have hnew : Reachable (newServer { net := {} } 0) :=
    .next (.start "bridge.ts.net" .standard true .root)
      (.newServer 0 ⟨2752513, by decide, by decide +kernel⟩)
  have hlisten := hnew.next (.perform 0 (.listen ⟨2752513⟩ "tcp" ":80" none)
    fun _ _ _ _ _ => ⟨2818049, by decide, by decide +kernel⟩)
  have hblocks := hlisten.next (.perform 0 (.accept ⟨2818049⟩) fun _ _ _ _ he => by cases he)
  exact hblocks.next (.perform 0 (.acceptReady ⟨2818049⟩) fun _ _ _ _ he => by cases he)

theorem attends_of_attending : attending.waiting =
      [⟨0, false, ⟨⟨2818049⟩, ⟨2752513⟩, 0⟩⟩, ⟨0, true, ⟨⟨2818049⟩, ⟨2752513⟩, 0⟩⟩] ∧
    Attends attending 0 ⟨2818049⟩ ⟨⟨2752513⟩, 0, 0⟩ :=
  ⟨by decide +kernel, attends_of_reachable reachable_attending (by decide +kernel)⟩

/-- The listener is closed while nothing is pending, and only one of the two is told of a reset. -/
theorem badHandle_of_attending :
    let c := attending.perform 0 (.closeListener ⟨2818049⟩)
    ((attending.tables 0).feed 0).channel.queue = [] ∧
      ((c.resumed ⟨0, false, ⟨⟨2818049⟩, ⟨2752513⟩, 0⟩⟩).1.reaction.error? =
        some .connectionReset) ∧
      (c.resumed ⟨0, true, ⟨⟨2818049⟩, ⟨2752513⟩, 0⟩⟩).1.reaction.error? =
        some (.badHandle ⟨2818049⟩) :=
  ⟨by decide +kernel, by decide +kernel, by decide +kernel⟩

end Handoff.Custody
