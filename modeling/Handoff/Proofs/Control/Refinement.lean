import Handoff.Proofs.Control.Exchange
import Handoff.Proofs.Error.Record

namespace Handoff
open Wire Wire.Source

/-- What is left of an error on the other side of its status, when it was about `h`. -/
def BridgeError.remote (e : BridgeError) (h : Handle) : BridgeError :=
  (ofStatus e.status h).getD e

/-- An error never looks like success. -/
theorem BridgeError.ofStatus_status (e : BridgeError) (h : Handle) :
    ofStatus e.status h = some (e.remote h) := by
  cases e <;> rfl

namespace Control
variable {W : Type} [Network W]

def sessionOver : BridgeError :=
  .sessionBroken "session already closed"

def Call.closes : Call → Bool
  | closeServer _ => true
  | _ => false

def direct (config : Option Config) (b : Bridge W) : Call → Except BridgeError Reply × Bridge W
  | .createServer =>
    let (h, b) := b.newServer
    match config with
    | none => (.ok (.created h), b)
    | some config => (.ok (.created h), (b.applyConfig h config).2)
  | .startServer h => (b.start h).map (fun r => (r.map fun _ => .done).mapError (·.remote h)) id
  | .up h => (b.up h).map (fun r => (r.map fun _ => .done).mapError (·.remote h)) id
  | .fetchErrorMessage h =>
    (((b.lastError h (maxText + 1)).map .text).mapError (·.remote h), b)
  | .closeServer h => (b.close h).map (fun r => (r.map fun _ => .done).mapError (·.remote h)) id

/-- The answers to calls made on a bridge itself, up to the first that closes a server. -/
def directAnswers (config : Option Config) :
    Bridge W → List Call → List (Except BridgeError Reply)
  | _, [] => []
  | b, c :: cs =>
    let (r, b) := direct config b c
    r :: if c.closes then cs.map fun _ => .error sessionOver else directAnswers config b cs

def directBridge (config : Option Config) : Bridge W → List Call → Bridge W
  | b, [] => b
  | b, c :: cs =>
    let b := (direct config b c).2
    if c.closes then b else directBridge config b cs

def Session.calls {L : Type} [Line L] (s : Session) (line : L) :
    List Call → List (Except BridgeError Reply) × Session × L
  | [] => ([], s, line)
  | c :: cs =>
    let (r, s, line) := s.call line c
    let (rs, s, line) := s.calls line cs
    (r :: rs, s, line)

/-- A session that is over touches no line. -/
theorem Session.call_closed {L : Type} [Line L] (line : L) (c : Call) :
    Session.closed.call line c = (.error sessionOver, .closed, line) := by
  cases c <;> rfl

theorem Session.calls_closed {L : Type} [Line L] (line : L) (cs : List Call) :
    Session.closed.calls line cs = (cs.map fun _ => .error sessionOver, .closed, line) := by
  induction cs with
  | nil => rfl
  | cons c cs ih => simp only [Session.calls, Session.call_closed, ih, List.map_cons]

theorem map_mapError {α β : Type} (r : Except BridgeError α) (f : BridgeError → BridgeError)
    (g : α → β) : (r.mapError f).map g = (r.map g).mapError f := by
  cases r <;> rfl

theorem checked_statusOf (r : Except BridgeError Unit) (h : Handle) :
    Session.checked (statusOf r) h = r.mapError (·.remote h) := by
  cases r with
  | error e => rw [statusOf, Session.checked, BridgeError.ofStatus_status]; rfl
  | ok => rfl

section Serving
variable {w₀ w : Worker} {net₀ net : W} {o : Overheard (WorkerLine W)}

theorem Serving.createServer (hs : Serving w₀ net₀ w net o) :
    ∃ o', Session.opened.createServer o = (.ok (w.create (w.bridge net)).1, .opened, o') ∧
      Serving w₀ net₀ { w with tables := (w.create (w.bridge net)).2.toTables }
        (w.create (w.bridge net)).2.net o' := by
  obtain ⟨o', he, hs'⟩ :=
    hs.exchange .createServer Session.readCreated fun _ hc => readCreated_encode hc
  exact ⟨o', he, hs'⟩

/-- A request that is answered by the status of `r`. -/
theorem Serving.simple (hs : Serving w₀ net₀ w net o) (request : Request) (h : Handle)
    {r : Except BridgeError Unit} (hr : (w.answer net request).1 = .status (statusOf r))
    (hl : request.isLast = false) :
    ∃ o', Session.opened.simple request h o = (r.mapError (·.remote h), .opened, o') ∧
      Serving w₀ net₀ (w.answer net request).2.1 (w.answer net request).2.2 o' := by
  obtain ⟨o', he, hs'⟩ := hs.exchange request Session.readDone
    fun _ hc => readDone_encode (by rwa [hr] at hc)
  rw [hl] at hs'
  refine ⟨o', ?_, hs'⟩
  rw [Session.simple, he]
  dsimp only
  rw [checked_statusOf]

theorem Serving.closeServer (hs : Serving w₀ net₀ w net o) (h : Handle) :
    ∃ o', Session.opened.closeServer h o =
        ((((w.bridge net).close h).1).mapError (·.remote h), .closed, o') ∧
      Ended w₀ net₀ ((w.bridge net).close h).2.drop o' := by
  obtain ⟨o', he, hs'⟩ := hs.exchange (a := statusOf ((w.bridge net).close h).1)
    (.closeServer h) Session.readDone fun _ hc => readDone_encode hc
  refine ⟨o', ?_, hs'⟩
  rw [Session.closeServer, he]
  dsimp only
  rw [checked_statusOf]

omit [Network W] in
/-- What is fetched was cut to what is sent at once. -/
theorem lastError_cut {b : Bridge W} {h : Handle} {text : String}
    (ht : b.lastError h (maxText + 1) = .ok text) : Text.cut maxText text = text := by
  rw [Bridge.lastError] at ht
  cases hs : b.servers.get h with
  | error e =>
    rw [hs] at ht
    cases ht
  | ok s =>
    rw [hs] at ht
    obtain rfl := Except.ok.inj ((truncate_succ s.record.text maxText).symm.trans ht)
    exact Text.cut_cut ..

/-- The text that is fetched first and read then is the one of the direct call: it was cut once
already. -/
theorem Serving.fetchErrorMessage (hs : Serving w₀ net₀ w net o) (h : Handle) :
    ∃ o' snapshot, Session.opened.fetchErrorMessage h o =
        (((w.bridge net).lastError h (maxText + 1)).mapError (·.remote h), .opened, o') ∧
      Serving w₀ net₀ { w with snapshot } net o' := by
  cases hl : (w.bridge net).lastError h (maxText + 1) with
  | error e =>
    have ha : w.answer net (.fetchErrorMessage h) = (.announced e.status 0, w, net) := by
      simp only [Worker.answer, Worker.fetch, hl]
    obtain ⟨o', he, hs'⟩ := hs.exchange (.fetchErrorMessage h) Session.readAnnounced
      fun _ hc => readAnnounced_encode (by rwa [ha] at hc)
    rw [ha] at hs'
    refine ⟨o', w.snapshot, ?_, hs'⟩
    rw [Session.fetchErrorMessage, he]
    dsimp only
    rw [Session.checked, BridgeError.ofStatus_status]
    rfl
  | ok text =>
    have ha : w.answer net (.fetchErrorMessage h) = (.announced .ok (.ofNat text.utf8ByteSize),
        { w with snapshot := assign w.snapshot h (some text) }, net) := by
      simp only [Worker.answer, Worker.fetch, hl]
    obtain ⟨o₁, he₁, hs₁⟩ := hs.exchange (.fetchErrorMessage h) Session.readAnnounced
      fun _ hc => readAnnounced_encode (by rwa [ha] at hc)
    rw [ha] at hs₁
    obtain ⟨o₂, he₂, hs₂⟩ := Serving.exchange hs₁ (.readErrorMessage h) readText
      fun _ hc => readText_encode hc
    refine ⟨o₂, assign (assign w.snapshot h (some text)) h none, ?_, hs₂⟩
    rw [Session.fetchErrorMessage, he₁]
    dsimp only
    rw [Session.checked, BridgeError.ofStatus, if_pos rfl]
    dsimp only
    rw [he₂]
    dsimp only
    rw [assign_same, Option.getD_some, lastError_cut hl]
    rfl

/-- A call that closes no server: the client is told what the direct call says, the worker's bridge
becomes what the direct call leaves, and the session goes on. -/
theorem Serving.call (hs : Serving w₀ net₀ w net o) {c : Call} (hc : c.closes = false) :
    ∃ o' w' net', Session.opened.call o c = ((direct w.config (w.bridge net) c).1, .opened, o') ∧
      Serving w₀ net₀ w' net' o' ∧ w'.config = w.config ∧
      w'.bridge net' = (direct w.config (w.bridge net) c).2 := by
  cases c with
  | createServer =>
    obtain ⟨o', he, hs'⟩ := hs.createServer
    refine ⟨o', _, _, ?_, hs', rfl, ?_⟩
    · simp only [Session.call, he, direct, Worker.create]
      cases w.config <;> rfl
    · simp only [direct, Worker.create, Worker.bridge]
      cases w.config <;> rfl
  | startServer h =>
    obtain ⟨o', he, hs'⟩ := hs.simple (r := ((w.bridge net).start h).1)
      (.startServer h) h rfl rfl
    refine ⟨o', _, _, ?_, hs', rfl, rfl⟩
    simp only [Session.call, he, direct, Prod.map, id, map_mapError]
  | up h =>
    obtain ⟨o', he, hs'⟩ := hs.simple (r := ((w.bridge net).up h).1) (.up h) h rfl rfl
    refine ⟨o', _, _, ?_, hs', rfl, rfl⟩
    simp only [Session.call, he, direct, Prod.map, id, map_mapError]
  | fetchErrorMessage h =>
    obtain ⟨o', snapshot, he, hs'⟩ := hs.fetchErrorMessage h
    refine ⟨o', _, _, ?_, hs', rfl, rfl⟩
    simp only [Session.call, he, direct, Prod.map, id, map_mapError]
  | closeServer h => cases hc

/-- A call that closes a server, or fails to, ends the session and the worker. -/
theorem Serving.call_close (hs : Serving w₀ net₀ w net o) {c : Call} (hc : c.closes = true) :
    ∃ o', Session.opened.call o c = ((direct w.config (w.bridge net) c).1, .closed, o') ∧
      Ended w₀ net₀ (direct w.config (w.bridge net) c).2.drop o' := by
  cases c with
  | closeServer h =>
    obtain ⟨o', he, hs'⟩ := hs.closeServer h
    refine ⟨o', ?_, hs'⟩
    simp only [Session.call, he, direct, Prod.map, id, map_mapError]
  | _ => cases hc

/-- A run of calls, by induction on them: the worker's bridge follows the direct one until the
session ends, and from there on the line is left alone. -/
theorem Serving.calls (hs : Serving w₀ net₀ w net o) (cs : List Call) :
    ∃ o', Session.opened.calls o cs =
        (directAnswers w.config (w.bridge net) cs,
          if cs.any Call.closes then .closed else .opened, o') ∧
      if cs.any Call.closes then Ended w₀ net₀ (directBridge w.config (w.bridge net) cs).drop o'
      else ∃ w' net', Serving w₀ net₀ w' net' o' ∧
        w'.bridge net' = directBridge w.config (w.bridge net) cs := by
  induction cs generalizing w net o with
  | nil => exact ⟨o, rfl, w, net, hs, rfl⟩
  | cons c cs ih =>
    cases hc : c.closes with
    | true =>
      obtain ⟨o', he, hend⟩ := hs.call_close hc
      refine ⟨o', ?_, ?_⟩
      · simp only [Session.calls, he, Session.calls_closed, directAnswers, List.any_cons, hc,
          Bool.true_or, if_true]
      · simpa only [directBridge, List.any_cons, hc, Bool.true_or, if_true] using hend
    | false =>
      obtain ⟨o₁, w₁, net₁, he, hs₁, hconfig, hbridge⟩ := hs.call hc
      obtain ⟨o', he', hs'⟩ := ih hs₁
      rw [hconfig, hbridge] at he' hs'
      refine ⟨o', ?_, ?_⟩
      · simp only [Session.calls, he, he', directAnswers, List.any_cons, hc, Bool.false_or,
          Bool.false_eq_true, if_false]
      · simpa only [directBridge, List.any_cons, hc, Bool.false_or, Bool.false_eq_true, if_false]
          using hs'

/-- All that was said on the line, given to the worker's loop at once. -/
theorem Serving.served (hs : Serving w₀ net₀ w net o) {src : Source} {sink : Sink}
    (hc : Carries src o.sent) (hu : sink.Unfailing) :
    ∃ sink', w₀.serve net₀ src sink = (.ok (), sink', (w.bridge net).drop) ∧
      sink'.written = sink.written ++ o.received := by
  obtain ⟨src', sink', he, hc', -, hw⟩ := hs.loop src sink [] (by rwa [List.append_nil]) hu
  exact ⟨sink', he.trans (serve_end hc' sink'), hw⟩

end Serving

/-- A client of a worker is told what the same calls come to on a bridge itself, through the status
and back, up to and including the first call that closes a server, and its session ends with that
call and with no other. From there on no call touches the line. The worker's bridge is the direct
one all along, and ends where the session does. The worker's loop answers the same bytes to the
same bytes, in whatever pieces they come. -/
theorem remote_refines_direct (config : Option Config) (b : Bridge W) (calls : List Call) :
    let worker : Worker := { tables := b.toTables, config }
    let start : Overheard (WorkerLine W) := { line := { worker := some worker, net := b.net } }
    let (answers, session, o) := Session.opened.calls start calls
    answers = directAnswers config b calls ∧
    session = (if calls.any Call.closes then .closed else .opened) ∧
    (if calls.any Call.closes then
      o.line.worker = none ∧ o.line.net = (directBridge config b calls).drop ∧
        ∀ later, session.calls o later = (later.map fun _ => .error sessionOver, session, o)
    else ∃ w, o.line.worker = some w ∧ w.bridge o.line.net = directBridge config b calls) ∧
    ∀ src sink, Source.Carries src o.sent → Sink.Unfailing sink →
      ∃ sink', worker.serve b.net src sink = (.ok (), sink', (directBridge config b calls).drop) ∧
        sink'.written = sink.written ++ o.received := by
  intro worker start
  obtain ⟨o, he, hs⟩ := (serving_start worker b.net).calls calls
  rw [he]
  refine ⟨rfl, rfl, ?_, ?_⟩
  · cases hc : calls.any Call.closes with
    | true =>
      rw [hc] at hs
      exact ⟨hs.gone, hs.stands, Session.calls_closed o⟩
    | false =>
      rw [hc] at hs
      obtain ⟨w, net, hs, hb⟩ := hs
      exact ⟨w, hs.holds, by rw [hs.stands, hb]; rfl⟩
  · intro src sink hsrc hsink
    cases hc : calls.any Call.closes with
    | true =>
      rw [hc] at hs
      exact hs.loop src sink hsrc hsink
    | false =>
      rw [hc] at hs
      obtain ⟨w, net, hs, hb⟩ := hs
      obtain ⟨sink', hserve, hw⟩ := hs.served hsrc hsink
      exact ⟨sink', by rw [hserve, hb]; rfl, hw⟩

end Control
end Handoff
