import Handoff.Proofs.Stream.Account
import Handoff.Stream.Use

namespace Handoff

def Descriptor.other (d : Descriptor) : Descriptor :=
  ⟨d.stream, d.side.other⟩

theorem Descriptor.other_other (d : Descriptor) : d.other.other = d := by
  obtain ⟨id, side⟩ := d
  cases side <;> rfl

inductive Deed where
  | wrote (d : Descriptor) (bytes : List UInt8)
  | read (d : Descriptor) (bytes : List UInt8)
  /-- A read at `d` met the end of the stream. -/
  | ended (d : Descriptor)
  | shut (d : Descriptor)
  | issued (bridge : Nat) (conn : Handle)
  | retired (bridge : Nat) (conn : Handle)
  deriving DecidableEq

namespace Deed
variable {deeds new : List Deed} {d e : Descriptor}

def written (deeds : List Deed) (d : Descriptor) : List UInt8 :=
  deeds.flatMap fun
    | .wrote e bytes => if e = d then bytes else []
    | _ => []

def readAt (deeds : List Deed) (d : Descriptor) : List UInt8 :=
  deeds.flatMap fun
    | .read e bytes => if e = d then bytes else []
    | _ => []

theorem written_append (deeds new : List Deed) (d : Descriptor) :
    written (deeds ++ new) d = written deeds d ++ written new d :=
  List.flatMap_append

theorem readAt_append (deeds new : List Deed) (d : Descriptor) :
    readAt (deeds ++ new) d = readAt deeds d ++ readAt new d :=
  List.flatMap_append

end Deed

namespace Streams
variable {s s' : Streams} {d e : Descriptor}

def deeds (s : Streams) (d : Descriptor) (u : StreamUse) : List Deed :=
  match u, (s.use d u).1 with
  | .write bytes, .wrote _ => [.wrote d bytes]
  | .read _, .bytes bs => [.read d bs]
  | .read _, .short => [.read d (s.peer d).sent, .ended d]
  | .readAll, .bytes bs => [.read d bs, .ended d]
  | .shutdownWrite, .done => [.shut d]
  | _, _ => []

/-- One end has changed, the number of its open copies has not. -/
structure Turned (s s' : Streams) (e : Descriptor) (x : StreamEnd) : Prop where
  own : ∀ d, s'.own d = if d = e then x else s.own d
  count : s'.count = s.count
  holders : x.holders = (s.own e).holders

theorem turned_setEnd (s : Streams) (e : Descriptor) {x : StreamEnd}
    (h : x.holders = (s.own e).holders) : Turned s (s.setEnd e.stream e.side x) e x :=
  ⟨fun d => own_setEnd s e d x, rfl, h⟩

inductive Used (s : Streams) (d : Descriptor) : List Deed → Streams → Prop where
  | idle : Used s d [] s
  | nothing : Used s d [.wrote d []] s
  | wrote (bytes : List UInt8) (s' : Streams) : (s.own d).ended = false →
    Turned s s' d { s.own d with sent := (s.own d).sent ++ bytes } → Used s d [.wrote d bytes] s'
  | read (n : Nat) (s' : Streams) :
    Turned s s' d.other { s.own d.other with sent := (s.own d.other).sent.drop n } →
    Used s d [.read d ((s.own d.other).sent.take n)] s'
  | ended (s' : Streams) : (s.own d.other).ended = true →
    Turned s s' d.other { s.own d.other with sent := [] } →
    Used s d [.read d (s.own d.other).sent, .ended d] s'
  | shut (s' : Streams) : Turned s s' d { s.own d with ended := true } → Used s d [.shut d] s'

theorem Used.count {new : List Deed} (h : Used s d new s') : s'.count = s.count := by
  cases h with
  | idle => rfl
  | nothing => rfl
  | wrote _ _ _ ht => exact ht.count
  | read _ _ ht => exact ht.count
  | ended _ _ ht => exact ht.count
  | shut _ ht => exact ht.count

theorem turned_read (s : Streams) (d : Descriptor) (n : Nat) : Turned s (s.read d n).2 d.other
    { s.own d.other with sent := (s.own d.other).sent.drop n } :=
  turned_setEnd s d.other rfl

/-- After a read at `d` the stream is at its end where nothing is left and the other end has
ended. -/
theorem atEnd_read (s : Streams) (d : Descriptor) (n : Nat) : (s.read d n).2.atEnd d =
    (((s.own d.other).sent.drop n).isEmpty && (s.own d.other).ended) := by
  have hown := (turned_read s d n).own d.other
  rw [if_pos rfl] at hown
  change (((s.read d n).2.own d.other).sent.isEmpty && ((s.read d n).2.own d.other).ended) = _
  rw [hown]

theorem used_write (s : Streams) (d : Descriptor) (bytes : List UInt8) :
    Used s d (s.deeds d (.write bytes)) (s.use d (.write bytes)).2 := by
  unfold deeds
  simp only [use]
  by_cases hb : bytes = []
  · rw [show s.write d bytes = (.ok 0, s) from if_pos hb, hb]
    exact .nothing
  by_cases hended : ((s.own d).ended || (s.peer d).gone) = true
  · rw [show s.write d bytes = (.error .brokenPipe, s) by simp [write, hb, hended]]
    exact .idle
  · rw [show s.write d bytes = (.ok bytes.length, s.setEnd d.stream d.side
      { s.own d with sent := (s.own d).sent ++ bytes }) by simp [write, hb, hended]]
    simp only [Bool.or_eq_true, not_or, Bool.not_eq_true] at hended
    exact .wrote bytes _ hended.1 (turned_setEnd s d rfl)

theorem used_read (s : Streams) (d : Descriptor) (n : Nat) :
    Used s d (s.deeds d (.read n)) (s.use d (.read n)).2 := by
  have hturned := turned_read s d n
  have hend := atEnd_read s d n
  unfold deeds
  simp only [use]
  by_cases hall : (s.read d n).1.length = n
  · rw [show s.readExact d n = (.bytes (s.read d n).1, (s.read d n).2) from if_pos hall]
    exact .read n _ hturned
  by_cases hover : (s.read d n).2.atEnd d = true
  · rw [show s.readExact d n = (.short, (s.read d n).2) by simp [readExact, hall, hover]]
    rw [hend] at hover
    simp only [Bool.and_eq_true, List.isEmpty_iff] at hover
    rw [hover.1] at hturned
    exact .ended _ hover.2 hturned
  · rw [show s.readExact d n = (.waits, s) by simp [readExact, hall, hover]]
    exact .idle

theorem used_readAll (s : Streams) (d : Descriptor) :
    Used s d (s.deeds d .readAll) (s.use d .readAll).2 := by
  let n := (s.own d.other).sent.length
  have hturned := turned_read s d n
  have hend := atEnd_read s d n
  unfold deeds
  simp only [use]
  by_cases hover : (s.read d n).2.atEnd d = true
  · rw [show s.readAll d = (.bytes (s.own d.other).sent, (s.read d n).2) by
      rw [← List.take_length (l := (s.own d.other).sent)]
      exact if_pos hover]
    rw [hend] at hover
    simp only [Bool.and_eq_true] at hover
    rw [List.drop_length] at hturned
    exact .ended _ hover.2 hturned
  · rw [show s.readAll d = (.waits, s) from if_neg hover]
    exact .idle

theorem used_shutdownWrite (s : Streams) (d : Descriptor) :
    Used s d (s.deeds d .shutdownWrite) (s.use d .shutdownWrite).2 := by
  unfold deeds
  simp only [use]
  by_cases hover : (s.isOver d && !(s.peer d).gone) = true
  · rw [show s.shutdownWrite d = (.error .notConnected, s) from if_pos hover]
    exact .idle
  · rw [show s.shutdownWrite d = (.ok (), s.setEnd d.stream d.side { s.own d with ended := true })
      from if_neg hover]
    exact .shut _ (turned_setEnd s d rfl)

theorem used_use (s : Streams) (d : Descriptor) (u : StreamUse) :
    Used s d (s.deeds d u) (s.use d u).2 := by
  cases u with
  | write bytes => exact used_write s d bytes
  | read n => exact used_read s d n
  | readAll => exact used_readAll s d
  | shutdownWrite => exact used_shutdownWrite s d

/-- Whoever uses a descriptor retires no handle. -/
theorem retired_notMem_deeds (s : Streams) (d : Descriptor) (u : StreamUse) (i : Nat)
    (k : Handle) : .retired i k ∉ s.deeds d u := by
  have hused := used_use s d u
  revert hused
  generalize s.deeds d u = new
  generalize (s.use d u).2 = s'
  intro hused
  cases hused <;> simp

end Streams

/-- What was done is what the connections show: of what was written at one end, whatever was not
read at the other is still under way. -/
structure Faithful (deeds : List Deed) (s : Streams) : Prop where
  balance : ∀ d, Deed.written deeds d = Deed.readAt deeds d.other ++ (s.own d).sent
  ended : ∀ d, d.stream < s.count → (s.own d).ended = true →
    .shut d ∈ deeds ∨ (s.own d).holders = 0
  seen : ∀ d, .ended d ∈ deeds → d.stream < s.count ∧ s.atEnd d = true

namespace Faithful
variable {deeds new : List Deed} {s s' : Streams} {d : Descriptor} {kept : Spot → List Descriptor}

theorem atEnd_iff : s.atEnd d = true ↔
    (s.own d.other).sent = [] ∧ (s.own d.other).ended = true := by
  change ((s.own d.other).sent.isEmpty && (s.own d.other).ended) = true ↔ _
  rw [Bool.and_eq_true, List.isEmpty_iff]

/-- Handles come and go and copies are made and closed. -/
theorem accounted (h : Faithful deeds s) (ha : Accounted s s' kept)
    (hnew : ∀ x ∈ new, ∃ i k, x = .issued i k ∨ x = .retired i k) :
    Faithful (deeds ++ new) s' := by
  have hnone : ∀ e, Deed.written new e = [] ∧ Deed.readAt new e = [] := by
    intro e
    constructor
    all_goals
      apply List.flatMap_eq_nil_iff.mpr
      intro x hx
      obtain ⟨i, k, rfl | rfl⟩ := hnew x hx <;> rfl
  constructor
  · intro e
    rw [Deed.written_append, Deed.readAt_append, (hnone e).1, (hnone e.other).2, List.append_nil,
      List.append_nil, ha.sent]
    exact h.balance e
  · intro e he hover
    rcases ha.ended e hover with ⟨hmade, hwas⟩ | hz
    · rcases h.ended e hmade hwas with hs | hz
      · exact .inl (List.mem_append_left _ hs)
      · exact .inr (ha.closed e hmade hz)
    · exact .inr hz
  · intro e he
    have hold : .ended e ∈ deeds := by
      rcases List.mem_append.mp he with hold | hin
      · exact hold
      · obtain ⟨i, k, hx | hx⟩ := hnew _ hin <;> cases hx
    obtain ⟨hmade, hover⟩ := h.seen e hold
    obtain ⟨hsent, hended⟩ := atEnd_iff.mp hover
    refine ⟨Nat.lt_of_lt_of_le hmade ha.count, atEnd_iff.mpr ⟨?_, ?_⟩⟩
    · rw [ha.sent, hsent]
    · exact ha.stays e.other hmade hended

/-- One end has changed: the deeds are what was added to its bytes and what was taken off them. -/
theorem turned (h : Faithful deeds s) {e : Descriptor} {x : StreamEnd} (ht : s.Turned s' e x)
    (hhere : (s.own e).sent ++ Deed.written new e = Deed.readAt new e.other ++ x.sent)
    (hothers : ∀ f, f ≠ e → Deed.written new f = [] ∧ Deed.readAt new f.other = [])
    (hended : x.ended = true → (s.own e).ended = true ∨ .shut e ∈ new)
    (hseen : (s.own e).sent = [] → (s.own e).ended = true → x.sent = [] ∧ x.ended = true)
    (hnew : ∀ f, .ended f ∈ new →
      f.stream < s.count ∧ f.other = e ∧ x.sent = [] ∧ x.ended = true) :
    Faithful (deeds ++ new) s' := by
  constructor
  · intro f
    rw [Deed.written_append, Deed.readAt_append, h.balance, ht.own, List.append_assoc,
      List.append_assoc]
    split
    · subst f
      rw [hhere]
    · rename_i hne
      rw [(hothers f hne).1, (hothers f hne).2, List.append_nil, List.nil_append]
  · intro f hf hover
    rw [ht.count] at hf
    rw [ht.own] at hover ⊢
    split
    · subst f
      rw [if_pos rfl] at hover
      rcases hended hover with hwas | hnow
      · rw [ht.holders]
        exact (h.ended e hf hwas).imp_left (List.mem_append_left _)
      · exact .inl (List.mem_append_right _ hnow)
    · rename_i hne
      rw [if_neg hne] at hover
      exact (h.ended f hf hover).imp_left (List.mem_append_left _)
  · intro f hf
    rw [ht.count, atEnd_iff, ht.own]
    rcases List.mem_append.mp hf with hold | hin
    · -- what was seen to be at its end stays there
      obtain ⟨hmade, hover⟩ := h.seen f hold
      obtain ⟨hsent, hwas⟩ := atEnd_iff.mp hover
      refine ⟨hmade, ?_⟩
      split
      · rename_i he
        rw [he] at hsent hwas
        exact hseen hsent hwas
      · exact ⟨hsent, hwas⟩
    · obtain ⟨hmade, he, hx⟩ := hnew f hin
      rw [if_pos he]
      exact ⟨hmade, hx⟩

/-- What the holder of a descriptor does with it is told by its deeds. -/
theorem used (h : Faithful deeds s) (hmade : d.stream < s.count) (hu : s.Used d new s') :
    Faithful (deeds ++ new) s' := by
  have hself : d.other.other = d := d.other_other
  have hread : ∀ bs f, f ≠ d.other → Deed.readAt [.read d bs] f.other = [] := by
    intro bs f hf
    have hne : d ≠ f.other := by
      rintro rfl
      exact hf (f.other_other).symm
    simp [Deed.readAt, hne]
  cases hu with
  | idle =>
    rw [List.append_nil]
    exact h
  | nothing =>
    apply h.turned (e := d) (x := s.own d) ⟨fun f => ?_, rfl, rfl⟩
    · simp [Deed.written, Deed.readAt]
    · intro f _
      simp [Deed.written, Deed.readAt]
    · exact .inl
    · exact And.intro
    · intro f hf
      simp at hf
    · split
      · subst f
        rfl
      · rfl
  | wrote bytes s' hopen ht =>
    apply h.turned ht
    · simp [Deed.written, Deed.readAt]
    · intro f hf
      simp [Deed.written, Deed.readAt, Ne.symm hf]
    · exact .inl
    · intro _ hwas
      rw [hopen] at hwas
      cases hwas
    · intro f hf
      simp at hf
  | read n s' ht =>
    apply h.turned ht
    · simp [Deed.written, Deed.readAt, hself]
    · intro f hf
      exact ⟨rfl, hread _ f hf⟩
    · exact .inl
    · intro hsent hwas
      simp [hsent, hwas]
    · intro f hf
      simp at hf
  | ended s' hover ht =>
    apply h.turned ht
    · simp [Deed.written, Deed.readAt, hself]
    · intro f hf
      exact ⟨rfl, hread _ f hf⟩
    · exact .inl
    · intro _ hwas
      exact ⟨rfl, hwas⟩
    · intro f hf
      simp only [List.mem_cons, reduceCtorEq, Deed.ended.injEq, List.not_mem_nil, or_false,
        false_or] at hf
      subst f
      exact ⟨hmade, rfl, rfl, hover⟩
  | shut s' ht =>
    apply h.turned ht
    · simp [Deed.written, Deed.readAt]
    · intro f _
      exact ⟨rfl, rfl⟩
    · intro _
      exact .inr (List.mem_singleton_self _)
    · intro hsent _
      exact ⟨hsent, rfl⟩
    · intro f hf
      simp at hf

end Faithful

/-- Using a descriptor opens and closes no copy. -/
theorem Held.used {s s' : Streams} {kept : Spot → List Descriptor} {d : Descriptor}
    {deeds : List Deed} (h : Held s kept) (hmade : d.stream < s.count)
    (hu : s.Used d deeds s') : Held s' kept := by
  have hturned : ∀ e x, e.stream = d.stream → s.Turned s' e x → Held s' kept := by
    intro e x he ht
    refine ⟨fun f => ?_, fun f hf => ?_⟩
    · have hf := h.covered f
      rw [ht.own]
      split
      · subst f
        rwa [ht.holders]
      · exact hf
    · rw [ht.count] at hf
      rw [ht.own, if_neg]
      · exact h.unmade f hf
      · rintro rfl
        rw [he] at hf
        exact absurd hmade (Nat.not_lt_of_le hf)
  cases hu with
  | idle => exact h
  | nothing => exact h
  | wrote bytes s' _ ht => exact hturned d _ rfl ht
  | read n s' ht => exact hturned d.other _ rfl ht
  | ended s' _ ht => exact hturned d.other _ rfl ht
  | shut s' ht => exact hturned d _ rfl ht

end Handoff
