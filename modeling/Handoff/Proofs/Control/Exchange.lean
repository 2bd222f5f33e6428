import Handoff.Control.Peer
import Handoff.Proofs.Wire.Field

namespace Handoff.Control
open Wire Wire.Source

/-- A line on which somebody keeps what goes either way. -/
structure Overheard (L : Type) where
  line : L
  sent : List UInt8 := []
  received : List UInt8 := []

instance {L : Type} [Line L] : Line (Overheard L) where
  send bytes o :=
    let (r, line) := Line.send bytes o.line
    (r, { o with line, sent := o.sent ++ bytes })
  incoming o := Line.incoming o.line
  leave src o :=
    let bytes := (Line.incoming o.line).content
    { o with
      line := Line.leave src o.line
      received := o.received ++ bytes.take (bytes.length - src.content.length) }

section Worker
variable {W : Type} [Network W]

/-- A worker that served everything said on the line so far, and waits for the next request. The
loop it runs does the same on the bytes alone, however they come. -/
structure Serving (w₀ : Worker) (net₀ : W) (w : Worker) (net : W)
    (o : Overheard (WorkerLine W)) : Prop where
  holds : o.line.worker = some w
  stands : o.line.net = net
  quiet : Carries o.line.incoming []
  loop : ∀ src sink rest, Carries src (o.sent ++ rest) → sink.Unfailing →
    ∃ src' sink', w₀.serve net₀ src sink = w.serve net src' sink' ∧ Carries src' rest ∧
      sink'.Unfailing ∧ sink'.written = sink.written ++ o.received

structure Ended (w₀ : Worker) (net₀ net : W) (o : Overheard (WorkerLine W)) : Prop where
  gone : o.line.worker = none
  stands : o.line.net = net
  loop : ∀ src sink, Carries src o.sent → sink.Unfailing →
    ∃ sink', w₀.serve net₀ src sink = (.ok (), sink', net) ∧
      sink'.written = sink.written ++ o.received

theorem serving_start (w : Worker) (net : W) :
    Serving w net w net { line := { worker := some w, net } } where
  holds := rfl
  stands := rfl
  quiet := .done
  loop := fun src sink _ hc hs => ⟨src, sink, rfl, hc, hs, (List.append_nil _).symm⟩

/-- One turn of the worker's loop. -/
theorem serve_request (w : Worker) (net : W) {r : Request} {src : Source} {sink : Sink}
    {rest : List UInt8} (hc : Carries src (r.encode ++ rest)) (hs : sink.Unfailing) :
    ∃ src' sink', Carries src' rest ∧ sink'.Unfailing ∧
      sink'.written = sink.written ++ (w.answer net r).1.encode ∧
      w.serve net src sink =
        if r.isLast then (.ok (), sink', ((w.answer net r).2.1.bridge (w.answer net r).2.2).drop)
        else (w.answer net r).2.1.serve (w.answer net r).2.2 src' sink' := by
  obtain ⟨src', hr, hc'⟩ := read_encode r hc
  obtain ⟨sink', hw, hs', hu⟩ := hs.send (w.answer net r).1.encode
  refine ⟨src', sink', hc', hu, hs', ?_⟩
  rw [Worker.serve.eq_def]
  split
  · rename_i he
    simp [hr] at he
  · rename_i he
    simp [hr] at he
  · rename_i he
    rw [hr] at he
    simp only [Prod.mk.injEq, Except.ok.injEq, Option.some.injEq] at he
    obtain ⟨rfl, rfl⟩ := he
    simp only [hw]

theorem serve_end {w : Worker} {net : W} {src : Source} (hc : Carries src []) (sink : Sink) :
    w.serve net src sink = (.ok (), sink, (w.bridge net).drop) := by
  obtain ⟨src', hr⟩ := read_of_ended hc.gives
  rw [Worker.serve.eq_def]
  split
  · rename_i he
    simp [hr] at he
  · rfl
  · rename_i he
    simp [hr] at he

theorem encode_response_ne_nil (r : Response) : r.encode ≠ [] := by
  cases r <;> exact List.cons_ne_nil _ _

variable {w₀ w : Worker} {net₀ net : W} {o : Overheard (WorkerLine W)} {α : Type} {a : α}

/-- What a client reads when the worker answered `r`. -/
theorem receive_encode (w : Worker) (r : Request) (hn : o.line.net = net) :
    o.line.receive w r.encode =
      let line : WorkerLine W :=
        { worker := some (w.answer net r).2.1
          net := (w.answer net r).2.2
          incoming := o.line.incoming ++ [.bytes (w.answer net r).1.encode] }
      if r.isLast then line.finish else line := by
  have hc : Carries [.bytes r.encode] (r.encode ++ []) := by
    rw [List.append_nil]
    exact carries_bytes (encode_ne_nil r)
  obtain ⟨src', hr, -⟩ := read_encode r hc
  rw [WorkerLine.receive, hr, ← hn]
  rfl

/-- The loop on the bytes goes on with the next request after everything that was said before. -/
theorem Serving.serve_next (hs : Serving w₀ net₀ w net o) (r : Request) (src : Source)
    (sink : Sink) (rest : List UInt8) (hc : Carries src (o.sent ++ r.encode ++ rest))
    (hu : sink.Unfailing) :
    ∃ src' sink', Carries src' rest ∧ sink'.Unfailing ∧
      sink'.written = sink.written ++ (o.received ++ (w.answer net r).1.encode) ∧
      w₀.serve net₀ src sink =
        if r.isLast then (.ok (), sink', ((w.answer net r).2.1.bridge (w.answer net r).2.2).drop)
        else (w.answer net r).2.1.serve (w.answer net r).2.2 src' sink' := by
  rw [List.append_assoc] at hc
  obtain ⟨src₁, sink₁, he₁, hc₁, hu₁, hw₁⟩ := hs.loop src sink _ hc hu
  obtain ⟨src₂, sink₂, hc₂, hu₂, hw₂, he₂⟩ := serve_request w net hc₁ hu₁
  exact ⟨src₂, sink₂, hc₂, hu₂, by rw [hw₂, hw₁, List.append_assoc], he₁.trans he₂⟩

/-- An exchange with a serving worker: the client gets what the worker answered, with nothing left
to read, and the session goes on. -/
theorem Serving.exchange (hs : Serving w₀ net₀ w net o) (r : Request)
    (read : Source → Except Fault α × Source)
    (hread : ∀ src, Carries src (w.answer net r).1.encode →
      ∃ src', read src = (.ok a, src') ∧ Carries src' []) :
    ∃ o', Session.opened.exchange r read o = (.ok a, .opened, o') ∧
      if r.isLast then
        Ended w₀ net₀ ((w.answer net r).2.1.bridge (w.answer net r).2.2).drop o'
      else Serving w₀ net₀ (w.answer net r).2.1 (w.answer net r).2.2 o' := by
  have hsend : Line.send r.encode o = (.ok (), { o with
      line := o.line.receive w r.encode, sent := o.sent ++ r.encode }) := by
    simp only [Line.send, hs.holds]
  have hrec := receive_encode w r hs.stands
  have hin : (o.line.receive w r.encode).incoming =
      o.line.incoming ++ [.bytes (w.answer net r).1.encode] := by
    rw [hrec]
    cases r.isLast <;> rfl
  have hcar : Carries (o.line.receive w r.encode).incoming (w.answer net r).1.encode := by
    rw [hin]
    exact hs.quiet.append (carries_bytes (encode_response_ne_nil _))
  obtain ⟨src', hrd, hleft⟩ := hread _ hcar
  refine ⟨{ line := { o.line.receive w r.encode with incoming := src' },
            sent := o.sent ++ r.encode,
            received := o.received ++ (w.answer net r).1.encode }, ?_, ?_⟩
  · simp only [Session.exchange, hsend]
    simp only [Line.incoming, hrd, Line.leave, hcar.content, hleft.content, List.length_nil,
      Nat.sub_zero, List.take_length]
  · have hloop := hs.serve_next r
    cases hl : r.isLast with
    | false =>
      simp only [hl, Bool.false_eq_true, if_false] at hloop hrec ⊢
      exact {
        holds := by rw [hrec]
        stands := by rw [hrec]
        quiet := hleft
        loop := fun src sink rest hc hu => by
          obtain ⟨src₂, sink₂, hc₂, hu₂, hw₂, he₂⟩ := hloop src sink rest hc hu
          exact ⟨src₂, sink₂, he₂, hc₂, hu₂, hw₂⟩ }
    | true =>
      simp only [hl, if_true] at hloop hrec ⊢
      exact {
        gone := by rw [hrec]; rfl
        stands := by rw [hrec]; rfl
        loop := fun src sink hc hu => by
          obtain ⟨_, sink₂, -, -, hw₂, he₂⟩ := hloop src sink [] (by rwa [List.append_nil]) hu
          exact ⟨sink₂, he₂, hw₂⟩ }

end Worker

section Reading
variable {src : Source}

theorem readCreated_encode {h : Handle} (hc : Carries src (Response.created h).encode) :
    ∃ src', Session.readCreated src = (.ok h, src') ∧ Carries src' [] := by
  rw [← List.append_nil (Response.created h).encode] at hc
  obtain ⟨src', hr, hc'⟩ := readHandle_handle h hc
  exact ⟨src', by rw [Session.readCreated, hr]; rfl, hc'⟩

theorem readDone_encode {s : Status} (hc : Carries src (Response.status s).encode) :
    ∃ src', Session.readDone src = (.ok s, src') ∧ Carries src' [] := by
  rw [← List.append_nil (Response.status s).encode] at hc
  obtain ⟨src', hr, hc'⟩ := readStatus_status s hc
  exact ⟨src', by rw [Session.readDone, hr]; rfl, hc'⟩

theorem readAnnounced_encode {s : Status} {n : UInt32}
    (hc : Carries src (Response.announced s n).encode) :
    ∃ src', Session.readAnnounced src = (.ok s, src') ∧ Carries src' [] := by
  obtain ⟨src₁, hr₁, hc₁⟩ := readStatus_status s hc
  rw [← List.append_nil (word n)] at hc₁
  obtain ⟨src', hr, hc'⟩ := readWord_word n hc₁
  refine ⟨src', ?_, hc'⟩
  rw [Session.readAnnounced, hr₁]
  dsimp only
  rw [hr]
  rfl

theorem readText_encode {s : String} (hc : Carries src (Response.text s).encode) :
    ∃ src', readText src = (.ok (Text.cut maxText s), src') ∧ Carries src' [] := by
  rw [← List.append_nil (Response.text s).encode] at hc
  exact readText_text s hc

end Reading

end Handoff.Control
