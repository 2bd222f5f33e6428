import Handoff.Proofs.Control.Reading
import Handoff.Proofs.Control.Refinement

namespace Handoff.Control
open Wire Wire.Source

/-- What a client is told by a response that is a status about `h`. -/
def outcome (response : List UInt8) (h : Handle) : Except BridgeError Reply :=
  (Session.checked (statusIn response) h).map fun _ => .done

def because (r : Request) (cause : String) : String :=
  s!"{r.debug}: {cause}"

def Call.request : Call → Request
  | createServer => .createServer
  | startServer h => .startServer h
  | up h => .up h
  | fetchErrorMessage h => .fetchErrorMessage h
  | closeServer h => .closeServer h

/-- Why no more calls are made, if none are. -/
def Session.reason : Session → String
  | opened => ""
  | closed => "session already closed"
  | broken why => why

/-- The peer takes one request, and its whole response is read and nothing after it. -/
structure Answered (r : Request) (response : List UInt8) (p p' : SilentPeer) : Prop where
  replies : Replies r response
  sent : p'.received = p.received ++ r.encode
  read : p.reply.delivered = response ++ p'.reply.delivered
  ending : p'.reply.ending = p.reply.ending

inductive BrokeOff (r : Request) (p p' : SilentPeer) : String → Prop where
  /-- The request is not taken, and nothing is read. -/
  | unsent {e} : (p.take r.encode).1 = .error e → p'.received = p.received → p'.reply = p.reply →
    BrokeOff r p p' e.message
  | short : p'.received = p.received ++ r.encode → Short r p.reply.delivered →
    BrokeOff r p p' p.reply.ending.message
  | tooLong {length} : p'.received = p.received ++ r.encode → TooLong r length p.reply.delivered →
    BrokeOff r p p' (Fault.tooLong length).message

inductive Talk (p : SilentPeer) :
    Call → Except BridgeError Reply → Session → SilentPeer → Prop where
  | created {response p'} : Answered .createServer response p p' →
    Talk p .createServer (.ok (.created ⟨ofWord response⟩)) .opened p'
  | started {h response p'} : Answered (.startServer h) response p p' →
    Talk p (.startServer h) (outcome response h) .opened p'
  | up {h response p'} : Answered (.up h) response p p' →
    Talk p (.up h) (outcome response h) .opened p'
  /-- The session is over, whatever the status. -/
  | closed {h response p'} : Answered (.closeServer h) response p p' →
    Talk p (.closeServer h) (outcome response h) .closed p'
  /-- There is no text, and none is asked for. -/
  | refused {h announced p'} : Answered (.fetchErrorMessage h) announced p p' →
    statusIn announced ≠ .ok → Talk p (.fetchErrorMessage h) (outcome announced h) .opened p'
  | text {h announced response p₁ p'} : Answered (.fetchErrorMessage h) announced p p₁ →
    statusIn announced = .ok → Answered (.readErrorMessage h) response p₁ p' →
    Talk p (.fetchErrorMessage h) (.ok (.text (Text.ofUtf8Lossy (response.drop 4)))) .opened p'
  | textBroke {h announced p₁ p' cause} : Answered (.fetchErrorMessage h) announced p p₁ →
    statusIn announced = .ok → BrokeOff (.readErrorMessage h) p₁ p' cause →
    Talk p (.fetchErrorMessage h)
      (.error (.sessionBroken (because (.readErrorMessage h) cause)))
      (.broken (because (.readErrorMessage h) cause)) p'
  | broke {c p' cause} : BrokeOff c.request p p' cause →
    Talk p c (.error (.sessionBroken (because c.request cause)))
      (.broken (because c.request cause)) p'

theorem take_ok {p p' : SilentPeer} {bs : List UInt8} (h : p.take bs = (.ok (), p')) :
    p'.received = p.received ++ bs ∧ p'.reply = p.reply := by
  unfold SilentPeer.take at h
  split at h
  · cases h
  · cases h
    exact ⟨rfl, rfl⟩
  · split at h
    · cases h
      exact ⟨rfl, rfl⟩
    · cases h

theorem take_error {p p' : SilentPeer} {bs : List UInt8} {e : SystemError}
    (h : p.take bs = (.error e, p')) : p'.received = p.received ∧ p'.reply = p.reply := by
  unfold SilentPeer.take at h
  split at h
  · cases h
    exact ⟨rfl, rfl⟩
  · cases h
  · split at h
    · cases h
    · cases h
      exact ⟨rfl, rfl⟩

/-- One exchange in a session that is open: a whole response, or the end of the session. -/
theorem exchange_cases {α : Type} {r : Request} {read : Source → Except Fault α × Source}
    {value : List UInt8 → α} (hr : Reads r read value) (p : SilentPeer) :
    (∃ response p', Answered r response p p' ∧
      Session.opened.exchange r read p = (.ok (value response), .opened, p')) ∨
    ∃ cause p', BrokeOff r p p' cause ∧ Session.opened.exchange r read p =
      (.error (.sessionBroken (because r cause)), .broken (because r cause), p') := by
  have hsend : Line.send r.encode p = p.take r.encode := rfl
  cases ht : p.take r.encode with
  | mk sent p₁ =>
    cases sent with
    | error e =>
      obtain ⟨hrec, hrep⟩ := take_error ht
      refine .inr ⟨e.message, p₁, .unsent (by rw [ht]) hrec hrep, ?_⟩
      simp only [Session.exchange, hsend, ht, Session.breakOff, because]
    | ok u =>
      obtain ⟨hrec, hrep⟩ := take_ok ht
      have hin : Line.incoming p₁ = p.reply := hrep
      rcases replies_or_not r p.reply.delivered with ⟨response, rest, he, hw⟩ | hs | ⟨length, hl⟩
      · obtain ⟨src, hread, hg⟩ := hr.whole (he ▸ gives p.reply) hw
        refine .inl ⟨response, { p₁ with reply := src }, ⟨hw, hrec, ?_, hg.ending⟩, ?_⟩
        · rw [he, ← hg.bytes]
        · simp only [Session.exchange, hsend, ht, hin, hread]
          rfl
      · obtain ⟨src, hread⟩ := hr.short (gives p.reply) hs
        refine .inr ⟨_, { p₁ with reply := src }, .short hrec hs, ?_⟩
        simp only [Session.exchange, hsend, ht, hin, hread, Session.breakOff, because]
        rfl
      · obtain ⟨src, hread⟩ := hr.tooLong (gives p.reply) hl
        refine .inr ⟨_, { p₁ with reply := src }, .tooLong hrec hl, ?_⟩
        simp only [Session.exchange, hsend, ht, hin, hread, Session.breakOff, because]
        rfl

theorem checked_ok (h : Handle) : Session.checked .ok h = .ok () :=
  rfl

/-- Any other status is an error. -/
theorem checked_error {s : Status} (hs : s ≠ .ok) (h : Handle) :
    ∃ e, Session.checked s h = .error e := by
  unfold Session.checked BridgeError.ofStatus
  rw [if_neg hs]
  split
  · rename_i he
    split at he
    · cases he
    split at he
    · cases he
    split at he <;> cases he
  · exact ⟨_, rfl⟩

/-- What one call in a session that is open comes to. -/
theorem call_talks (p : SilentPeer) (c : Call) :
    ∃ answer s p', Session.opened.call p c = (answer, s, p') ∧ Talk p c answer s p' := by
  cases c with
  | createServer =>
    rcases exchange_cases reads_created p with ⟨response, p', ha, he⟩ | ⟨cause, p', hb, he⟩
    · exact ⟨_, _, p', by rw [Session.call, Session.createServer, he]; rfl, .created ha⟩
    · exact ⟨_, _, p', by rw [Session.call, Session.createServer, he]; rfl, .broke hb⟩
  | startServer h =>
    rcases exchange_cases (reads_done (r := .startServer h) rfl) p with
      ⟨response, p', ha, he⟩ | ⟨cause, p', hb, he⟩
    · exact ⟨_, _, p', by rw [Session.call, Session.simple, he]; rfl, .started ha⟩
    · exact ⟨_, _, p', by rw [Session.call, Session.simple, he]; rfl, .broke hb⟩
  | up h =>
    rcases exchange_cases (reads_done (r := .up h) rfl) p with
      ⟨response, p', ha, he⟩ | ⟨cause, p', hb, he⟩
    · exact ⟨_, _, p', by rw [Session.call, Session.simple, he]; rfl, .up ha⟩
    · exact ⟨_, _, p', by rw [Session.call, Session.simple, he]; rfl, .broke hb⟩
  | closeServer h =>
    rcases exchange_cases (reads_done (r := .closeServer h) rfl) p with
      ⟨response, p', ha, he⟩ | ⟨cause, p', hb, he⟩
    · exact ⟨_, _, p', by rw [Session.call, Session.closeServer, he]; rfl, .closed ha⟩
    · exact ⟨_, _, p', by rw [Session.call, Session.closeServer, he]; rfl, .broke hb⟩
  | fetchErrorMessage h =>
    rcases exchange_cases (reads_announced h) p with ⟨announced, p₁, ha, he⟩ | ⟨cause, p', hb, he⟩
    · -- the status alone decides whether the text is asked for
      by_cases hok : statusIn announced = .ok
      · rw [Session.call, Session.fetchErrorMessage, he, hok]
        rcases exchange_cases (reads_text h) p₁ with
          ⟨response, p', ha', he'⟩ | ⟨cause, p', hb, he'⟩
        · refine ⟨_, _, p', ?_, .text ha hok ha'⟩
          simp only [checked_ok, he']
          rfl
        · refine ⟨_, _, p', ?_, .textBroke ha hok hb⟩
          simp only [checked_ok, he']
          rfl
      · obtain ⟨e, hcheck⟩ := checked_error hok h
        refine ⟨_, _, p₁, ?_, .refused ha hok⟩
        rw [Session.call, Session.fetchErrorMessage, he, outcome]
        simp only [hcheck]
        rfl
    · exact ⟨_, _, p', by rw [Session.call, Session.fetchErrorMessage, he]; rfl, .broke hb⟩

/-- A session that is over touches no line, and says why it is over. -/
theorem call_over {L : Type} [Line L] {s : Session} (hs : s.isOpen = false) (line : L) (c : Call) :
    s.call line c = (.error (.sessionBroken s.reason), s, line) := by
  cases s with
  | opened => cases hs
  | closed => cases c <;> rfl
  | broken why => cases c <;> rfl

theorem calls_over {L : Type} [Line L] {s : Session} (hs : s.isOpen = false) (line : L)
    (cs : List Call) :
    s.calls line cs = (cs.map fun _ => .error (.sessionBroken s.reason), s, line) := by
  induction cs with
  | nil => rfl
  | cons c cs ih => simp only [Session.calls, call_over hs, ih, List.map_cons]

inductive Conversation : SilentPeer → List Call → List (Except BridgeError Reply) → Session →
    SilentPeer → Prop where
  | silence (p) : Conversation p [] [] .opened p
  | more {p c answer p₁ cs answers s p'} : Talk p c answer .opened p₁ →
    Conversation p₁ cs answers s p' → Conversation p (c :: cs) (answer :: answers) s p'
  | last {p c answer s p'} (cs) : Talk p c answer s p' → s.isOpen = false →
    Conversation p (c :: cs) (answer :: cs.map fun _ => .error (.sessionBroken s.reason)) s p'

/-- A run of calls, by induction on them. -/
theorem calls_converse (p : SilentPeer) (cs : List Call) :
    ∃ answers s p', Session.opened.calls p cs = (answers, s, p') ∧
      Conversation p cs answers s p' := by
  induction cs generalizing p with
  | nil => exact ⟨[], .opened, p, rfl, .silence p⟩
  | cons c cs ih =>
    obtain ⟨answer, s, p₁, hcall, ht⟩ := call_talks p c
    by_cases hs : s.isOpen = false
    · refine ⟨_, s, p₁, ?_, .last cs ht hs⟩
      simp only [Session.calls, hcall, calls_over hs]
    · obtain rfl : s = .opened := by simpa [Session.isOpen] using hs
      obtain ⟨answers, s, p', hcalls, hc⟩ := ih p₁
      refine ⟨answer :: answers, s, p', ?_, .more ht hc⟩
      simp only [Session.calls, hcall, hcalls]

/-- Whole exchanges and nothing else went over a line. -/
structure Transcript (exchanges : List (Request × List UInt8)) (p p' : SilentPeer) : Prop where
  replies : ∀ x ∈ exchanges, Replies x.1 x.2
  sent : p'.received = p.received ++ exchanges.flatMap (·.1.encode)
  read : p.reply.delivered = exchanges.flatMap (·.2) ++ p'.reply.delivered
  ending : p'.reply.ending = p.reply.ending

theorem transcript_nil (p : SilentPeer) : Transcript [] p p where
  replies x hx := by simp at hx
  sent := by simp
  read := rfl
  ending := rfl

theorem Answered.transcript {r : Request} {response : List UInt8} {p p' : SilentPeer}
    (h : Answered r response p p') : Transcript [(r, response)] p p' where
  replies x hx := by
    obtain rfl := List.mem_singleton.mp hx
    exact h.replies
  sent := by simpa using h.sent
  read := by simpa using h.read
  ending := h.ending

theorem Transcript.append {xs ys : List (Request × List UInt8)} {p p₁ p' : SilentPeer}
    (h : Transcript xs p p₁) (h' : Transcript ys p₁ p') : Transcript (xs ++ ys) p p' where
  replies x hx := by
    rcases List.mem_append.mp hx with hx | hx
    · exact h.replies x hx
    · exact h'.replies x hx
  sent := by rw [h'.sent, h.sent, List.flatMap_append, List.append_assoc]
  read := by rw [h.read, h'.read, List.flatMap_append, List.append_assoc]
  ending := h'.ending.trans h.ending

/-- A session, as its line has it: whole exchanges, and at most one more that broke off and broke
the session with it. -/
def Recorded (s : Session) (p p' : SilentPeer) : Prop :=
  (∃ exchanges, Transcript exchanges p p' ∧ (s = .opened ∨ s = .closed)) ∨
  ∃ exchanges p₁ r cause, Transcript exchanges p p₁ ∧ BrokeOff r p₁ p' cause ∧
    s = .broken (because r cause)

theorem Recorded.after {xs : List (Request × List UInt8)} {s : Session} {p p₁ p' : SilentPeer}
    (h : Transcript xs p p₁) (h' : Recorded s p₁ p') : Recorded s p p' := by
  rcases h' with ⟨ys, ht, hs⟩ | ⟨ys, p₂, r, cause, ht, hb, hs⟩
  · exact .inl ⟨xs ++ ys, h.append ht, hs⟩
  · exact .inr ⟨xs ++ ys, p₂, r, cause, h.append ht, hb, hs⟩

theorem Talk.recorded {p p' : SilentPeer} {c : Call} {answer : Except BridgeError Reply}
    {s : Session} (h : Talk p c answer s p') : Recorded s p p' := by
  cases h with
  | created ha => exact .inl ⟨_, ha.transcript, .inl rfl⟩
  | started ha => exact .inl ⟨_, ha.transcript, .inl rfl⟩
  | up ha => exact .inl ⟨_, ha.transcript, .inl rfl⟩
  | closed ha => exact .inl ⟨_, ha.transcript, .inr rfl⟩
  | refused ha _ => exact .inl ⟨_, ha.transcript, .inl rfl⟩
  | text ha _ ha' => exact .inl ⟨_, ha.transcript.append ha'.transcript, .inl rfl⟩
  | textBroke ha _ hb => exact .inr ⟨_, _, _, _, ha.transcript, hb, rfl⟩
  | broke hb => exact .inr ⟨_, _, _, _, transcript_nil p, hb, rfl⟩

theorem Conversation.recorded {p p' : SilentPeer} {cs : List Call}
    {answers : List (Except BridgeError Reply)} {s : Session}
    (h : Conversation p cs answers s p') : Recorded s p p' := by
  induction h with
  | silence p => exact .inl ⟨[], transcript_nil p, .inl rfl⟩
  | more ht _ ih =>
    rcases ht.recorded with ⟨xs, hx, -⟩ | ⟨_, _, _, _, _, _, hs⟩
    · exact ih.after hx
    · cases hs
  | last _ ht _ => exact ht.recorded

/-- A client keeps to what it asked for, whatever comes on the line. Every exchange writes one
request and takes off the line just the whole response to it, so that the next one starts where it
ends; the text of an error is asked for only after a status of zero. A session ends with the first
server that is closed, whatever the status, or breaks with the first request that is not taken and
the first response that is not whole or too long. From there on all calls are told the same, and the
line is left alone. -/
theorem session_with_any_peer (p : SilentPeer) (calls : List Call) :
    let (answers, s, p') := Session.opened.calls p calls
    Conversation p calls answers s p' ∧ Recorded s p p' ∧
    (s.isOpen = false → ∀ later, s.calls p' later =
      (later.map fun _ => .error (.sessionBroken s.reason), s, p')) := by
  obtain ⟨answers, s, p', he, hc⟩ := calls_converse p calls
  rw [he]
  exact ⟨hc, hc.recorded, fun hs later => calls_over hs p' later⟩

end Handoff.Control
