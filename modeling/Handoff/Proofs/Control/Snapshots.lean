import Handoff.Proofs.Control.Loop
import Handoff.Proofs.Control.Texts
import Handoff.Tailnet.Network

namespace Handoff.Control
open Text Wire

namespace Worker

structure Turn where
  request : Request
  response : Response

/-- A fetch of the last error of `s` that does not fail. -/
def Turn.Fetches (t : Turn) (s : Handle) : Prop :=
  t.request = .fetchErrorMessage s ∧ ∃ length, t.response = .announced .ok length

def Turn.About (t : Turn) (s : Handle) : Prop :=
  t.request = .fetchErrorMessage s ∨ t.request = .readErrorMessage s

/-- The turns that a worker takes while its session lasts. Between two of them anything may be done
to its bridge, and anything to the network. -/
inductive Turns (W : Type) [Network W] : Worker → List Turn → Worker → Prop where
  | done (w : Worker) : Turns W w [] w
  | more {w w' : Worker} {log : List Turn} (net : W) (r : Request) : r.isLast = false →
    Turns W (w.answer net r).2.1 log w' → Turns W w (⟨r, (w.answer net r).1⟩ :: log) w'
  | elsewhere {w w' : Worker} {log : List Turn} (tables : Tables) :
    Turns W { w with tables } log w' → Turns W w log w'

section
variable {W : Type} [Network W] {w w' : Worker} {log : List Turn} {s : Handle}

/-- What a worker's loop answers without a close is such a run. -/
theorem turns_answerAll (w : Worker) (net : W) (rs : List Request)
    (h : rs.any Request.isLast = false) :
    ∃ log, Turns W w log (w.answerAll net rs).2.1 ∧ log.map Turn.request = rs ∧
      log.map (fun t => t.response.encode) = w.responses net rs := by
  induction rs generalizing w net with
  | nil => exact ⟨[], .done w, rfl, rfl⟩
  | cons r rs ih =>
    rw [List.any_cons, Bool.or_eq_false_iff] at h
    obtain ⟨log, hrun, hreq, hres⟩ := ih (w.answer net r).2.1 (w.answer net r).2.2 h.2
    refine ⟨_, .more net r h.1 hrun, ?_, ?_⟩
    · rw [List.map_cons, hreq]
    · rw [List.map_cons, hres, responses_cons]

/-- A fetch of what there is keeps a cut of it and tells its length; any other fetch changes
nothing. -/
theorem answer_fetch (w : Worker) (net : W) (s : Handle) :
    (∃ message, (w.bridge net).recordOf s = some message ∧
      w.answer net (.fetchErrorMessage s) =
        (.announced .ok (.ofNat (cut maxText message).utf8ByteSize),
          { w with snapshot := assign w.snapshot s (some (cut maxText message)) }, net)) ∨
    (w.bridge net).recordOf s = none ∧
      w.answer net (.fetchErrorMessage s) = (.announced .badHandle 0, w, net) := by
  cases hm : (w.bridge net).recordOf s with
  | some message =>
    refine .inl ⟨message, rfl, ?_⟩
    rw [answer, w.fetch_of_recordOf hm]
  | none =>
    refine .inr ⟨rfl, ?_⟩
    rw [answer, w.fetch_of_recordOf_none hm]

theorem answer_read (w : Worker) (net : W) (s : Handle) : w.answer net (.readErrorMessage s) =
    (.text ((w.snapshot s).getD ""), { w with snapshot := assign w.snapshot s none }, net) :=
  rfl

theorem answer_read_snapshot (w : Worker) (net : W) (s : Handle) :
    (w.answer net (.readErrorMessage s)).2.1.snapshot s = none :=
  assign_same ..

/-- Only a fetch or a read of a server's error changes what is kept of it, or the end. -/
theorem answer_snapshot (net : W) {r : Request} (hl : r.isLast = false)
    (hf : r ≠ .fetchErrorMessage s) (hr : r ≠ .readErrorMessage s) :
    (w.answer net r).2.1.snapshot s = w.snapshot s := by
  cases r with
  | createServer => rfl
  | startServer h => rfl
  | up h => rfl
  | fetchErrorMessage h =>
    have hne : s ≠ h := fun he => hf (he ▸ rfl)
    rcases w.answer_fetch net h with ⟨message, -, he⟩ | ⟨-, he⟩
    · rw [he]
      exact assign_of_ne _ _ _ hne
    · rw [he]
  | readErrorMessage h =>
    have hne : s ≠ h := fun he => hr (he ▸ rfl)
    exact assign_of_ne _ _ _ hne
  | closeServer h => cases hl

/-- What nothing is kept of stays so until it is fetched. -/
theorem answer_unfetched (net : W) {r : Request} (hl : r.isLast = false)
    (h : w.snapshot s = none) (hf : ¬ Turn.Fetches ⟨r, (w.answer net r).1⟩ s) :
    (w.answer net r).2.1.snapshot s = none := by
  by_cases hfetch : r = .fetchErrorMessage s
  · subst hfetch
    rcases w.answer_fetch net s with ⟨message, -, he⟩ | ⟨-, he⟩
    · exact absurd ⟨rfl, _, congrArg Prod.fst he⟩ hf
    · rw [he]
      exact h
  · by_cases hread : r = .readErrorMessage s
    · subst hread
      exact w.answer_read_snapshot net s
    · rwa [answer_snapshot net hl hfetch hread]

/-- What is kept of a server's error stays as it is through all turns that are not about it. -/
theorem Turns.keeps (h : Turns W w log w') (hn : ∀ t ∈ log, ¬ t.About s) :
    w'.snapshot s = w.snapshot s := by
  induction h with
  | done => rfl
  | more net r hl _ ih =>
    obtain ⟨hr, hn⟩ := List.forall_mem_cons.mp hn
    rw [ih hn, answer_snapshot net hl (fun he => hr (.inl he)) (fun he => hr (.inr he))]
  | elsewhere _ _ ih => exact ih hn

theorem Turns.unfetched (h : Turns W w log w') (hs : w.snapshot s = none)
    (hn : ∀ t ∈ log, ¬ t.Fetches s) : w'.snapshot s = none := by
  induction h with
  | done => exact hs
  | more net r hl _ ih =>
    obtain ⟨hr, hn⟩ := List.forall_mem_cons.mp hn
    exact ih (answer_unfetched net hl hs hr) hn
  | elsewhere _ _ ih => exact ih hs hn

end

/-- What a worker that has taken some turns does with the errors it keeps. -/
structure Keeping (W : Type) [Network W] (w : Worker) (log : List Turn) : Prop where
  /-- What was announced is sent, whatever happens to the server's record meanwhile: as many bytes,
  and the text that the record had when it was fetched, cut to what is sent at once. -/
  stable : ∀ (net : W) (s : Handle) (length : UInt32),
    (w.answer net (.fetchErrorMessage s)).1 = .announced .ok length →
    ∃ message kept, (w.bridge net).recordOf s = some message ∧ Longest maxText message kept ∧
      (utf8 kept).length = length.toNat ∧
      ∀ between w', Turns W (w.answer net (.fetchErrorMessage s)).2.1 between w' →
        (∀ t ∈ between, ¬ t.About s) → ∀ net' : W,
          (w'.answer net' (.readErrorMessage s)).1 = .text kept ∧
          (w'.answer net' (.readErrorMessage s)).1.encode = word length ++ utf8 kept
  /-- It is sent once. -/
  spent : ∀ (net : W) (s : Handle) (later : List Turn) (w' : Worker),
    Turns W (w.answer net (.readErrorMessage s)).2.1 later w' → (∀ t ∈ later, ¬ t.Fetches s) →
    ∀ net' : W, (w'.answer net' (.readErrorMessage s)).1 = .text ""
  unfetched : ∀ s, (∀ t ∈ log, ¬ t.Fetches s) → ∀ net : W,
    (w.answer net (.readErrorMessage s)).1 = .text ""
  succeeds : ∀ (net : W) (s : Handle),
    (∃ length, (w.answer net (.fetchErrorMessage s)).1 = .announced .ok length) ↔
      ∃ message, (w.bridge net).recordOf s = some message
  /-- A fetch that fails changes nothing at all. -/
  failing : ∀ (net : W) (s : Handle) (status : Status) (length : UInt32),
    (w.answer net (.fetchErrorMessage s)).1 = .announced status length → status ≠ .ok →
      length = 0 ∧ (w.answer net (.fetchErrorMessage s)).2 = (w, net)

section
variable {W : Type} [Network W] {w w' : Worker} {log : List Turn} {s : Handle}

theorem read_unkept (net : W) (h : w.snapshot s = none) :
    (w.answer net (.readErrorMessage s)).1 = .text "" := by
  rw [answer_read, h]
  rfl

theorem stable_of_fetch {net : W} {length : UInt32}
    (h : (w.answer net (.fetchErrorMessage s)).1 = .announced .ok length) :
    ∃ message kept, (w.bridge net).recordOf s = some message ∧ Longest maxText message kept ∧
      (utf8 kept).length = length.toNat ∧
      ∀ between w', Turns W (w.answer net (.fetchErrorMessage s)).2.1 between w' →
        (∀ t ∈ between, ¬ t.About s) → ∀ net' : W,
          (w'.answer net' (.readErrorMessage s)).1 = .text kept ∧
          (w'.answer net' (.readErrorMessage s)).1.encode = word length ++ utf8 kept := by
  rcases w.answer_fetch net s with ⟨message, hm, he⟩ | ⟨-, he⟩
  · have hsent := sent_cut message
    rw [he] at h ⊢
    obtain ⟨-, rfl⟩ := Response.announced.inj h
    refine ⟨message, _, hm, longest_cut .., ?_, ?_⟩
    · rw [hsent.length, length_utf8_eq]
    · intro between w' hrun hn net'
      have hkept : w'.snapshot s = some (cut maxText message) := by
        rw [hrun.keeps hn]
        exact assign_same ..
      have hread : (w'.answer net' (.readErrorMessage s)).1 = .text (cut maxText message) := by
        rw [answer_read, hkept]
        rfl
      refine ⟨hread, ?_⟩
      rw [hread, Response.encode, hsent.again, hsent.encoded]
  · rw [he] at h
    cases h

/-- Whatever a worker was asked before, an error that it fetched is the one that it sends, with the
length that it announced, until it is fetched anew or sent. What was sent, or was never fetched, is
sent as an empty text. A fetch that fails announces no bytes and keeps nothing. -/
theorem keeping_of_turns {tables : Tables} {config : Option Config}
    (h : Turns W { tables, config } log w) : Keeping W w log where
  stable _ _ _ := stable_of_fetch
  spent net s later w' hrun hn net' :=
    read_unkept net' (hrun.unfetched (w.answer_read_snapshot net s) hn)
  unfetched s hn net := read_unkept net (h.unfetched rfl hn)
  succeeds net s := by
    rcases w.answer_fetch net s with ⟨message, hm, he⟩ | ⟨hm, he⟩
    · exact iff_of_true ⟨_, congrArg Prod.fst he⟩ ⟨message, hm⟩
    · rw [he, hm]
      exact iff_of_false (by rintro ⟨_, ⟨⟩⟩) (by rintro ⟨_, ⟨⟩⟩)
  failing net s status length hf hne := by
    rcases w.answer_fetch net s with ⟨message, -, he⟩ | ⟨-, he⟩
    · rw [he] at hf
      exact absurd (Response.announced.inj hf).1.symm hne
    · rw [he] at hf ⊢
      exact ⟨(Response.announced.inj hf).2.symm, rfl⟩

end

def refusedTwice : List (List UInt8) × Worker × Tailnet :=
  answerAll {} {} [.createServer, .up ⟨2752513⟩, .createServer, .up ⟨2752514⟩]

theorem keeping_of_refusedTwice :
    ∃ log, log.map Turn.request =
        [.createServer, .up ⟨2752513⟩, .createServer, .up ⟨2752514⟩] ∧
      Keeping Tailnet refusedTwice.2.1 log ∧
      (refusedTwice.2.1.answer refusedTwice.2.2 (.fetchErrorMessage ⟨2752513⟩)).1 =
        .announced .ok 59 := by
  obtain ⟨log, hrun, hreq, -⟩ := turns_answerAll (W := Tailnet) {} {}
    [.createServer, .up ⟨2752513⟩, .createServer, .up ⟨2752514⟩] rfl
  exact ⟨log, hreq, keeping_of_turns hrun, by decide +kernel⟩

end Worker
end Handoff.Control
