import Mathlib.Data.List.Forall2
import Handoff.Control.Worker
import Handoff.Proofs.Wire.Decoded
import Handoff.Proofs.Wire.Sending

namespace Handoff.Control
open Wire Wire.Source Wire.Sink

namespace Worker
variable {W : Type} [Network W]

/-- The bytes that answer some requests, each of them executed once and after the ones before it,
and what they leave. -/
def answerAll (w : Worker) (net : W) : List Request → List (List UInt8) × Worker × W
  | [] => ([], w, net)
  | r :: rs =>
    let (response, w, net) := w.answer net r
    let (responses, w, net) := answerAll w net rs
    (response.encode :: responses, w, net)

def responses (w : Worker) (net : W) (rs : List Request) : List (List UInt8) :=
  (w.answerAll net rs).1

def answerAfter (w : Worker) (net : W) (done : List Request) (r : Request) : List UInt8 :=
  let (_, w, net) := w.answerAll net done
  (w.answer net r).1.encode

def ended (w : Worker) (net : W) (rs : List Request) : W :=
  let (_, w, net) := w.answerAll net rs
  (w.bridge net).drop

/-- The worker's loop, with what it leaves unread. -/
def serveLeaving (w : Worker) (net : W) (src : Source) (sink : Sink) :
    Source × Except ServeFault Unit × Sink × W :=
  match h : Request.read src with
  | (.error f, rest) => (rest, .error (.reading f), sink, (w.bridge net).drop)
  | (.ok none, rest) => (rest, .ok (), sink, (w.bridge net).drop)
  | (.ok (some request), rest) =>
    let (response, w, net) := w.answer net request
    match sink.send response.encode with
    | (.error f, sink) => (rest, .error (.writing f), sink, (w.bridge net).drop)
    | (.ok (), sink) =>
      if request.isLast then (rest, .ok (), sink, (w.bridge net).drop)
      else
        have := Request.size_read h
        serveLeaving w net rest sink
termination_by src.size

/-- How a worker ends that could answer everything: well after the last request of a session or at
the end of the pipe, otherwise with what there was in place of a request. -/
def verdict (rs : List Request) (rest : List UInt8) (f : PipeFault) : Except ServeFault Unit :=
  if rs.any Request.isLast then .ok () else (halt rest f).mapError .reading

theorem verdict_ok {rs : List Request} {rest : List UInt8} {f : PipeFault} :
    verdict rs rest f = .ok () ↔ rs.any Request.isLast = true ∨ rest = [] ∧ f = .ended := by
  have hok : ∀ r : Except Fault Unit, r.mapError ServeFault.reading = .ok () ↔ r = .ok () := by
    intro r
    cases r <;> simp
  unfold verdict
  split
  · rename_i hl
    simp [hl]
  · rename_i hl
    rw [hok, halt_ok]
    simp [hl]

theorem serve_eq_serveLeaving (w : Worker) (net : W) (src : Source) (sink : Sink) :
    w.serve net src sink = (w.serveLeaving net src sink).2 := by
  fun_induction w.serveLeaving net src sink
  all_goals rw [serve.eq_def]
  all_goals split <;> simp_all

section Turn
variable {w : Worker} {net : W} {src : Source} {sink sink' : Sink} {r : Request}
  {rest : List UInt8} {f : PipeFault}

/-- The last turn of the loop. -/
theorem serveLeaving_stop (w : Worker) (net : W) (sink : Sink) (hg : Gives f src rest)
    (hn : NoRequest rest) : ∃ left, w.serveLeaving net src sink =
      (left, (halt rest f).mapError .reading, sink, (w.bridge net).drop) := by
  obtain ⟨left, hr⟩ := read_stop hg hn
  refine ⟨left, ?_⟩
  rw [serveLeaving.eq_def]
  cases hh : halt rest f with
  | error e =>
    rw [hh] at hr
    split <;> simp_all [Except.map]
  | ok u =>
    rw [hh] at hr
    split <;> simp_all [Except.map]

/-- A turn whose answer cannot be sent. Nothing after its request has been read. -/
theorem serveLeaving_fails (hg : Gives f src (r.encode ++ rest)) {e : PipeFault}
    (hs : sink.send (w.answer net r).1.encode = (.error e, sink')) :
    ∃ left, Gives f left rest ∧ w.serveLeaving net src sink =
      (left, .error (.writing e), sink', w.ended net [r]) := by
  obtain ⟨left, hr, hg'⟩ := read_encode r hg
  refine ⟨left, hg', ?_⟩
  rw [serveLeaving.eq_def]
  split <;> simp_all [ended, answerAll]

/-- A turn whose answer is sent. Nothing after its request has been read. -/
theorem serveLeaving_sends (hg : Gives f src (r.encode ++ rest))
    (hs : sink.send (w.answer net r).1.encode = (.ok (), sink')) :
    ∃ left, Gives f left rest ∧ w.serveLeaving net src sink =
      if r.isLast then (left, .ok (), sink', w.ended net [r])
      else (w.answer net r).2.1.serveLeaving (w.answer net r).2.2 left sink' := by
  obtain ⟨left, hr, hg'⟩ := read_encode r hg
  refine ⟨left, hg', ?_⟩
  rw [serveLeaving.eq_def]
  split <;> simp_all [ended, answerAll]

end Turn

section Run
variable {w : Worker} {net : W} {src : Source} {sink s sink' : Sink} {done later rs : List Request}
  {input rest : List UInt8} {f : PipeFault}

theorem responses_cons (w : Worker) (net : W) (r : Request) (rs : List Request) :
    w.responses net (r :: rs) = (w.answer net r).1.encode ::
      (w.answer net r).2.1.responses (w.answer net r).2.2 rs :=
  rfl

theorem answerAll_append (w : Worker) (net : W) (done later : List Request) :
    w.answerAll net (done ++ later) =
      let (bss, w, net) := w.answerAll net done
      (w.answerAll net later).map (bss ++ ·) id := by
  induction done generalizing w net with
  | nil => rfl
  | cons r done ih => simp only [List.cons_append, answerAll, ih, Prod.map]

theorem responses_append_cons (w : Worker) (net : W) (done : List Request) (r : Request)
    (later : List Request) : ∃ more, w.responses net (done ++ r :: later) =
      w.responses net done ++ w.answerAfter net done r :: more := by
  rw [responses, answerAll_append]
  exact ⟨_, rfl⟩

theorem responses_concat (w : Worker) (net : W) (done : List Request) (r : Request) :
    w.responses net (done ++ [r]) = w.responses net done ++ [w.answerAfter net done r] := by
  rw [responses, answerAll_append]
  rfl

theorem ended_append (w : Worker) (net : W) (done later : List Request) :
    w.ended net (done ++ later) =
      (w.answerAll net done).2.1.ended (w.answerAll net done).2.2 later := by
  rw [ended, answerAll_append]
  rfl

/-- Where the loop stands after some turns, by induction on them: just their requests have been
read, and their answers have been sent. -/
theorem serveLeaving_after (hd : Decoded input (done ++ later) rest) (hg : Gives f src input)
    (hn : done.any Request.isLast = false) (hs : Sends sink (w.responses net done) s) :
    ∃ between bs, Decoded bs later rest ∧ Gives f between bs ∧ w.serveLeaving net src sink =
      (w.answerAll net done).2.1.serveLeaving (w.answerAll net done).2.2 between s := by
  induction done generalizing w net src sink input with
  | nil =>
    obtain rfl := sends_nil.mp hs
    exact ⟨src, input, hd, hg, rfl⟩
  | cons r done ih =>
    simp only [List.any_cons, Bool.or_eq_false_iff] at hn
    rw [responses_cons] at hs
    obtain ⟨bs, rfl, hd'⟩ := hd.tail hn.1
    obtain ⟨s₁, hsend, hss⟩ := sends_cons.mp hs
    obtain ⟨src', hg', hl⟩ := serveLeaving_sends hg hsend
    obtain ⟨between, bs', hdb, hgb, hl'⟩ := ih hd' hg' hn.2 hss
    rw [if_neg (by simp [hn.1]), hl'] at hl
    exact ⟨between, bs', hdb, hgb, hl⟩

/-- A run whose answers are all sent. -/
theorem serveLeaving_of_sends (hd : Decoded input rs rest) (hg : Gives f src input)
    (hs : Sends sink (w.responses net rs) sink') :
    ∃ left, w.serveLeaving net src sink = (left, verdict rs rest f, sink', w.ended net rs) ∧
      (rs.any Request.isLast = true → Gives f left rest) := by
  rcases hd.cases with hn | ⟨done, r, rfl, hlast, hn⟩
  · -- no request ends the session, so that the loop stops at what is no request
    obtain ⟨between, bs, hdb, hgb, hl⟩ :=
      serveLeaving_after (by rwa [List.append_nil]) hg hn hs
    cases hdb with
    | stop hno =>
      obtain ⟨left, hl'⟩ := serveLeaving_stop (w.answerAll net rs).2.1 (w.answerAll net rs).2.2
        sink' hgb hno
      refine ⟨left, ?_, fun h => by simp [hn] at h⟩
      rw [hl, hl', verdict, if_neg (by simp [hn])]
      rfl
  · rw [responses_concat] at hs
    obtain ⟨s, hss, hs⟩ := sends_append.mp hs
    obtain ⟨s₁, hsend, hnil⟩ := sends_cons.mp hs
    obtain rfl := sends_nil.mp hnil
    obtain ⟨between, bs, hdb, hgb, hl⟩ := serveLeaving_after hd hg hn hss
    obtain rfl : bs = r.encode ++ rest := by simpa using hdb.bytes
    obtain ⟨left, hgl, hl'⟩ := serveLeaving_sends hgb hsend
    refine ⟨left, ?_, fun _ => hgl⟩
    rw [hl, hl', if_pos hlast, verdict, if_pos (by simp [hlast]), ended_append]

/-- A run that ends at the first answer that cannot be sent. What follows its request is still to be
read, and none of it was executed. -/
theorem serveLeaving_of_fails {r : Request} (hd : Decoded input (done ++ r :: later) rest)
    (hg : Gives f src input) (hs : Sends sink (w.responses net done) s) {e : PipeFault}
    (hf : s.send (w.answerAfter net done r) = (.error e, sink')) :
    ∃ left, w.serveLeaving net src sink =
        (left, .error (.writing e), sink', w.ended net (done ++ [r])) ∧
      Gives f left (later.flatMap Request.encode ++ rest) := by
  have hn := hd.front
  obtain ⟨between, bs, hdb, hgb, hl⟩ := serveLeaving_after hd hg hn hs
  obtain rfl := hdb.bytes
  rw [List.flatMap_cons, List.append_assoc] at hgb
  obtain ⟨left, hgl, hl'⟩ := serveLeaving_fails hgb hf
  exact ⟨left, by rw [hl, hl', ended_append], hgl⟩

/-- A pipe that does not take all answers takes the first ones and fails at the next. -/
theorem sends_or_fails (w : Worker) (net : W) (sink : Sink) (rs : List Request) :
    (∃ sink', Sends sink (w.responses net rs) sink') ∨ ∃ done r later s e sink',
      rs = done ++ r :: later ∧ Sends sink (w.responses net done) s ∧
        s.send (w.answerAfter net done r) = (.error e, sink') := by
  induction rs generalizing w net sink with
  | nil => exact .inl ⟨sink, .none sink⟩
  | cons r rs ih =>
    cases hs : sink.send (w.answer net r).1.encode with
    | mk result s =>
      cases result with
      | error e => exact .inr ⟨[], r, rs, sink, e, s, rfl, .none sink, hs⟩
      | ok u =>
        rcases ih (w.answer net r).2.1 (w.answer net r).2.2 s with
          ⟨sink', hss⟩ | ⟨done, r', later, s', e, sink', rfl, hss, hf⟩
        · exact .inl ⟨sink', .more hs hss⟩
        · exact .inr ⟨r :: done, r', later, s', e, sink', rfl, .more hs hss, hf⟩

end Run

/-- Every answer is as wide as its request says. -/
theorem replies_answer (w : Worker) (net : W) (r : Request) :
    Replies r (w.answer net r).1.encode := by
  cases r with
  | readErrorMessage h =>
    have hle := Text.length_utf8_cut_le maxText ((w.snapshot h).getD "")
    exact ⟨_, _, Wire.text_eq _, (toNat_length hle).symm, hle⟩
  | fetchErrorMessage h =>
    simp only [answer, fetch]
    split <;> rfl
  | _ => rfl

theorem replies_responses (w : Worker) (net : W) (rs : List Request) :
    List.Forall₂ Replies rs (w.responses net rs) := by
  induction rs generalizing w net with
  | nil => exact .nil
  | cons r rs ih => exact .cons (w.replies_answer net r) (ih ..)

/-- All answers are sent, and nothing else is. The pipe is read no further than the last request of
a session. -/
def Completes (w : Worker) (net : W) (src : Source) (sink : Sink) (rs : List Request)
    (rest : List UInt8) : Prop :=
  ∃ left sink', Sends sink (w.responses net rs) sink' ∧
    w.serveLeaving net src sink = (left, verdict rs rest src.ending, sink', w.ended net rs) ∧
    sink'.written = sink.written ++ (w.responses net rs).flatten ∧
    (rs.any Request.isLast = true → Gives src.ending left rest)

/-- One answer cannot be sent, and the worker ends there: the requests up to it are executed, the
answers before it and a part of it are written, and nothing after its request is read. -/
def BreaksOff (w : Worker) (net : W) (src : Source) (sink : Sink) (rs : List Request)
    (rest : List UInt8) : Prop :=
  ∃ done r later s e cut left sink', rs = done ++ r :: later ∧
    Sends sink (w.responses net done) s ∧ s.send (w.answerAfter net done r) = (.error e, sink') ∧
    w.serveLeaving net src sink = (left, .error (.writing e), sink', w.ended net (done ++ [r])) ∧
    cut <+: w.answerAfter net done r ∧
    sink'.written = sink.written ++ ((w.responses net done).flatten ++ cut) ∧
    (w.responses net done).flatten ++ cut <+: (w.responses net rs).flatten ∧
    Gives src.ending left (later.flatMap Request.encode ++ rest)

section Outcome
variable {w : Worker} {net : W} {src : Source} {sink sink' : Sink} {rs : List Request}
  {rest : List UInt8}

theorem completes_of_sends (hd : Decoded src.delivered rs rest)
    (hs : Sends sink (w.responses net rs) sink') : Completes w net src sink rs rest := by
  obtain ⟨left, hl, hleft⟩ := serveLeaving_of_sends hd (gives src) hs
  exact ⟨left, sink', hs, hl, hs.written, hleft⟩

theorem completes_or_breaksOff (hd : Decoded src.delivered rs rest) (w : Worker) (net : W)
    (sink : Sink) : Completes w net src sink rs rest ∨ BreaksOff w net src sink rs rest := by
  rcases sends_or_fails w net sink rs with
    ⟨sink', hs⟩ | ⟨done, r, later, s, e, sink', rfl, hs, hf⟩
  · exact .inl (completes_of_sends hd hs)
  · right
    obtain ⟨left, hl, hleft⟩ := serveLeaving_of_fails hd (gives src) hs hf
    obtain ⟨cut, hcut, hw, -⟩ := s.send_written (w.answerAfter net done r)
    rw [hf] at hw
    refine ⟨done, r, later, s, e, cut, left, sink', rfl, hs, hf, hl, hcut, ?_, ?_, hleft⟩
    · rw [hw, hs.written, List.append_assoc]
    · obtain ⟨more, hmore⟩ := responses_append_cons w net done r later
      rw [hmore, List.flatten_append, List.flatten_cons]
      apply (List.prefix_append_right_inj _).mpr
      exact hcut.trans (List.prefix_append ..)

/-- A worker ends well if it can answer everything, and then ends a session or finds the end of the
pipe where a request would begin. -/
theorem serve_ok (hd : Decoded src.delivered rs rest) (w : Worker) (net : W) (sink : Sink) :
    (w.serve net src sink).1 = .ok () ↔ (∃ sink', Sends sink (w.responses net rs) sink') ∧
      (rs.any Request.isLast = true ∨ rest = [] ∧ src.ending = .ended) := by
  rw [serve_eq_serveLeaving]
  constructor
  · intro hok
    rcases sends_or_fails w net sink rs with
      ⟨sink', hs⟩ | ⟨done, r, later, s, e, sink', rfl, hs, hf⟩
    · obtain ⟨left, hl, -⟩ := serveLeaving_of_sends hd (gives src) hs
      rw [hl] at hok
      exact ⟨⟨sink', hs⟩, verdict_ok.mp hok⟩
    · obtain ⟨left, hl, -⟩ := serveLeaving_of_fails hd (gives src) hs hf
      rw [hl] at hok
      cases hok
  · rintro ⟨⟨sink', hs⟩, hok⟩
    obtain ⟨left, hl, -⟩ := serveLeaving_of_sends hd (gives src) hs
    rw [hl]
    exact verdict_ok.mpr hok

/-- Only the requests matter, and how they stop. -/
theorem serve_congr {src' : Source} {rest' : List UInt8} (hd : Decoded src.delivered rs rest)
    (hd' : Decoded src'.delivered rs rest')
    (hv : verdict rs rest' src'.ending = verdict rs rest src.ending) (w : Worker) (net : W)
    (sink : Sink) : w.serve net src' sink = w.serve net src sink := by
  rw [serve_eq_serveLeaving, serve_eq_serveLeaving]
  rcases sends_or_fails w net sink rs with
    ⟨sink', hs⟩ | ⟨done, r, later, s, e, sink', rfl, hs, hf⟩
  · obtain ⟨left, h, -⟩ := serveLeaving_of_sends hd (gives src) hs
    obtain ⟨left', h', -⟩ := serveLeaving_of_sends hd' (gives src') hs
    rw [h, h', hv]
  · obtain ⟨left, h, -⟩ := serveLeaving_of_fails hd (gives src) hs hf
    obtain ⟨left', h', -⟩ := serveLeaving_of_fails hd' (gives src') hs hf
    rw [h, h']

end Outcome

/-- The worker's loop does what its requests say, one after the other. Its input is taken apart in
one way, whatever pieces it comes in. The requests are executed in order and each once. Before
anything of a request is read, the answers to the ones before it are sent whole, each as wide as its
request says; where an answer cannot be sent the worker ends. It ends well only after the last
request of a session or where the pipe ends between two requests, and what follows such a last
request changes nothing. -/
theorem serve_by_request (w : Worker) (net : W) (src : Source) (sink : Sink) :
    w.serve net src sink = (w.serveLeaving net src sink).2 ∧
    ∃ rs rest, Decoded src.delivered rs rest ∧
      (∀ rs' rest', Decoded src.delivered rs' rest' → rs' = rs ∧ rest' = rest) ∧
      List.Forall₂ Replies rs (w.responses net rs) ∧
      (Completes w net src sink rs rest ∨ BreaksOff w net src sink rs rest) ∧
      (sink.Unfailing → Completes w net src sink rs rest) ∧
      (∀ done later s, rs = done ++ later → done.any Request.isLast = false →
        Sends sink (w.responses net done) s →
          ∃ between, Gives src.ending between (later.flatMap Request.encode ++ rest) ∧
            w.serveLeaving net src sink =
              (w.answerAll net done).2.1.serveLeaving (w.answerAll net done).2.2 between s) ∧
      ((w.serve net src sink).1 = .ok () ↔ (∃ sink', Sends sink (w.responses net rs) sink') ∧
        (rs.any Request.isLast = true ∨ rest = [] ∧ src.ending = .ended)) ∧
      (∀ src' : Source, src'.delivered = src.delivered → src'.ending = src.ending →
        w.serve net src' sink = w.serve net src sink) ∧
      (rs.any Request.isLast = true → ∀ (src' : Source) more,
        src'.delivered = rs.flatMap Request.encode ++ more →
          w.serve net src' sink = w.serve net src sink) := by
  refine ⟨serve_eq_serveLeaving w net src sink, ?_⟩
  obtain ⟨rs, rest, hd⟩ := exists_decoded src.delivered
  refine ⟨rs, rest, hd, fun _ _ h => h.unique hd, replies_responses w net rs,
    completes_or_breaksOff hd w net sink, ?_, ?_, serve_ok hd w net sink, ?_, ?_⟩
  · intro hu
    obtain ⟨sink', hs⟩ := hu.sends (w.responses net rs)
    exact completes_of_sends hd hs
  · rintro done later s rfl hn hs
    obtain ⟨between, bs, hdb, hgb, hl⟩ := serveLeaving_after hd (gives src) hn hs
    exact ⟨between, hdb.bytes ▸ hgb, hl⟩
  · intro src' hb he
    apply serve_congr hd (by rwa [hb])
    rw [he]
  · intro hl src' more hb
    apply serve_congr hd (hb ▸ hd.closed hl more)
    rw [verdict, verdict, if_pos hl, if_pos hl]

end Worker
end Handoff.Control
