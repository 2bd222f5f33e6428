import Handoff.Proofs.Wire.Decoded

namespace Handoff.Wire
namespace Source

section
variable {src src' : Source} {bs : List UInt8} {n : Nat}

theorem content_unread (front : List UInt8) (src : Source) :
    (unread front src).content = front ++ src.content := by
  unfold unread
  split
  · rename_i he
    rw [he, List.nil_append]
  · rfl

/-- A byte that is read is the next one of all, whether the pipe ends before the others or not. -/
theorem content_readByte {b : UInt8} (h : src.readByte = (.ok (some b), src')) :
    src.content = b :: src'.content := by
  fun_induction readByte src with
  | case1 => cases h
  | case2 src ih => exact ih h
  | case3 => cases h
  | case4 => cases h
  | case5 c cs src =>
    cases h
    rw [content, content_unread, List.cons_append]

/-- Nothing is lost where there is no byte, and there is none only at the end. -/
theorem readByte_none (h : src.readByte = (.ok none, src')) :
    src'.content = src.content ∧ Gives .ended src [] := by
  fun_induction readByte src with
  | case1 =>
    cases h
    exact ⟨rfl, rfl, rfl⟩
  | case2 src ih =>
    obtain ⟨hc, hg⟩ := ih h
    exact ⟨hc, hg.bytes, hg.ending⟩
  | case3 => cases h
  | case4 src =>
    cases h
    exact ⟨rfl, rfl, rfl⟩
  | case5 => cases h

theorem content_readExact (h : src.readExact n = (.ok bs, src')) :
    bs.length = n ∧ src.content = bs ++ src'.content := by
  fun_induction readExact n src generalizing bs with
  | case1 src =>
    cases h
    exact ⟨rfl, rfl⟩
  | case2 => cases h
  | case3 n src ih => exact ih h
  | case4 => cases h
  | case5 => cases h
  | case6 n front src hne hlt =>
    cases h
    refine ⟨by rw [List.length_take]; omega, ?_⟩
    rw [content, content, ← List.append_assoc, List.take_append_drop]
  | case7 n front src hne hlt r rest hr ih =>
    cases r with
    | error f => cases h
    | ok more =>
      cases h
      obtain ⟨hl, hc⟩ := ih hr
      refine ⟨by rw [List.length_append]; omega, ?_⟩
      rw [content, hc, List.append_assoc]

end

end Source
open Source

/-- What is written and what is read know the same first bytes. -/
theorem about?_eq_none {b : UInt8} (h : ∀ r : Request, r.opcode ≠ b) :
    b ≠ 0x01 ∧ Request.about? b = none := by
  refine ⟨fun hb => h .createServer hb.symm, ?_⟩
  cases hm : Request.about? b with
  | none => rfl
  | some make => exact absurd (List.cons.inj (encode_about? hm ⟨0⟩)).1 (h (make ⟨0⟩))

section
variable {src src' : Source} {r : Request}

theorem content_readHandle {h : Handle} (hr : readHandle src = (.ok h, src')) :
    src.content = handle h ++ src'.content := by
  rw [readHandle, readWord] at hr
  cases he : src.readExact 4 with
  | mk res rest =>
    rw [he] at hr
    cases res with
    | error f => cases hr
    | ok bs =>
      cases hr
      obtain ⟨hl, hc⟩ := content_readExact he
      rw [hc, handle, word_ofWord hl]

theorem content_readAfter {opcode : UInt8}
    (h : Request.readAfter opcode src = (.ok r, src')) :
    opcode :: src.content = r.encode ++ src'.content := by
  unfold Request.readAfter at h
  split at h
  · rename_i hop
    cases h
    rw [hop]
    rfl
  split at h
  · cases h
  rename_i make hm
  cases hh : readHandle src with
  | mk res rest =>
    rw [hh] at h
    cases res with
    | error f => cases h
    | ok k =>
      cases h
      rw [encode_about? hm, content_readHandle hh, List.cons_append]

/-- What a request is read from is what it is written as. -/
theorem content_read (h : Request.read src = (.ok (some r), src')) :
    src.content = r.encode ++ src'.content := by
  unfold Request.read at h
  split at h
  · cases h
  · cases h
  rename_i opcode rest hb
  rw [content_readByte hb]
  cases ha : Request.readAfter opcode rest with
  | mk res left =>
    rw [ha] at h
    cases res with
    | error f => cases h
    | ok r' =>
      cases h
      exact content_readAfter ha

theorem read_none (h : Request.read src = (.ok none, src')) :
    src'.content = src.content ∧ Gives .ended src [] := by
  unfold Request.read at h
  split at h
  · cases h
  · rename_i hb
    cases h
    exact readByte_none hb
  rename_i opcode rest hb
  cases ha : Request.readAfter opcode rest with
  | mk res left =>
    rw [ha] at h
    cases res <;> cases h

/-- After a first byte that says there is a handle, there has to be a whole one. -/
theorem read_short {f : PipeFault} {args : List UInt8} (h : Gives f src (r.opcode :: args))
    (hr : r.handle?.isSome) (hl : args.length < 4) :
    (Request.read src).1 = .error (.pipe f) := by
  obtain ⟨k, hk⟩ := Option.isSome_iff_exists.mp hr
  obtain ⟨hne, make, hm, -⟩ := about?_opcode hk
  obtain ⟨src₁, hb, hg⟩ := h.readByte
  obtain ⟨src₂, hw⟩ := readWord_short hg hl
  rw [Request.read, hb]
  simp [Request.readAfter, hne, hm, readHandle, hw, Except.map]

/-- A first byte that no request has is told, and is all that is taken. -/
theorem read_unknown {f : PipeFault} {b : UInt8} {bs : List UInt8} (h : Gives f src (b :: bs))
    (hb : ∀ r : Request, r.opcode ≠ b) :
    ∃ src', Request.read src = (.error (.unknownOpcode b), src') ∧ Gives f src' bs ∧
      src.content = b :: src'.content := by
  obtain ⟨src', hr, hg⟩ := h.readByte
  obtain ⟨hcreate, habout⟩ := about?_eq_none hb
  refine ⟨src', ?_, hg, content_readByte hr⟩
  rw [Request.read, hr]
  dsimp only
  rw [Request.readAfter, if_neg hcreate, habout]
  rfl

/-- What a pipe gives before its end starts with the request that is read from it. -/
theorem delivered_read (h : Request.read src = (.ok (some r), src')) :
    src.delivered = r.encode ++ src'.delivered := by
  by_cases hn : NoRequest src.delivered
  · obtain ⟨left, hs⟩ := read_stop (gives src) hn
    rw [h] at hs
    cases hh : halt src.delivered src.ending <;> rw [hh] at hs <;> cases hs
  · simp only [NoRequest, ne_eq, not_forall, not_not] at hn
    obtain ⟨r', rest, hd⟩ := hn
    obtain ⟨left, hr, hg⟩ := read_encode r' (hd ▸ gives src)
    cases h.symm.trans hr
    rw [hd, hg.bytes]

end

/-- Reading again and again takes these requests off a pipe, and leaves it like this. -/
inductive Takes : Source → List Request → Source → Prop where
  | nothing {src} : Takes src [] src
  | next {src mid left r rs} :
    Request.read src = (.ok (some r), mid) → Takes mid rs left → Takes src (r :: rs) left

section
variable {src left : Source} {rs : List Request}

theorem Takes.content (h : Takes src rs left) :
    src.content = rs.flatMap Request.encode ++ left.content := by
  induction h with
  | nothing => rfl
  | next hr _ ih => rw [content_read hr, ih, List.flatMap_cons, List.append_assoc]

theorem Takes.readAll (h : Takes src rs left) :
    Request.readAll src = (rs ++ (Request.readAll left).1, (Request.readAll left).2) := by
  induction h with
  | nothing => rfl
  | next hr _ ih =>
    rw [Request.readAll]
    split
    · rename_i he
      cases hr.symm.trans he
    · rename_i he
      cases hr.symm.trans he
    · rename_i r' mid he
      cases hr.symm.trans he
      rw [ih]
      rfl

/-- What was written one after the other is read one after the other. -/
theorem takes_of_encoded {P : Source → List UInt8 → Prop} [Kept P] {rest : List UInt8}
    (h : P src (rs.flatMap Request.encode ++ rest)) : ∃ left, Takes src rs left ∧ P left rest := by
  induction rs generalizing src with
  | nil => exact ⟨src, .nothing, h⟩
  | cons r rs ih =>
    rw [List.flatMap_cons, List.append_assoc] at h
    obtain ⟨mid, hr, hm⟩ := read_encode r h
    obtain ⟨left, ht, hl⟩ := ih hm
    exact ⟨left, .next hr ht, hl⟩

theorem readAll_of_none (h : Request.read src = (.ok none, left)) :
    Request.readAll src = ([], none) := by
  rw [Request.readAll]
  split
  · rename_i he
    cases h.symm.trans he
  · rfl
  · rename_i he
    cases h.symm.trans he

end

/-- Requests stand on a pipe as they are written, and are read as they stand there. Any number of
them, in whatever pieces the pipe gives them and however often a read has to be made again, come
back in order and use the pipe up. What a request is read from is just what it is written as. No
request is read, and nothing taken, only where the pipe ends before one; where it ends in one the
end is told. A first byte that no request has is told, and is all that is taken. -/
theorem read_by_grammar (src : Source) :
    (∀ rs, src.delivered = rs.flatMap Request.encode → src.ending = .ended →
      Request.readAll src = (rs, none) ∧ ∃ left done, Takes src rs left ∧
        Request.read left = (.ok none, done) ∧ left.delivered = [] ∧
        src.content = rs.flatMap Request.encode ++ done.content) ∧
    (∀ r src', Request.read src = (.ok (some r), src') →
      src.content = r.encode ++ src'.content ∧ src.delivered = r.encode ++ src'.delivered) ∧
    (∀ src', Request.read src = (.ok none, src') → src'.content = src.content) ∧
    ((Request.read src).1 = .ok none ↔ src.delivered = [] ∧ src.ending = .ended) ∧
    (∀ (r : Request) args, r.handle?.isSome → args.length < 4 →
      src.delivered = r.opcode :: args → src.ending = .ended →
        (Request.read src).1 = .error (.pipe .ended)) ∧
    (∀ b bs, src.delivered = b :: bs → (∀ r : Request, r.opcode ≠ b) →
      ∃ src', Request.read src = (.error (.unknownOpcode b), src') ∧
        src.content = b :: src'.content ∧ src'.delivered = bs) := by
  refine ⟨?_, ?_, ?_, ?_, ?_, ?_⟩
  · intro rs hd he
    have hg : Gives .ended src (rs.flatMap Request.encode ++ []) :=
      ⟨by rw [hd, List.append_nil], he⟩
    obtain ⟨left, ht, hl⟩ := takes_of_encoded hg
    obtain ⟨done, hn⟩ := read_of_ended hl
    refine ⟨?_, left, done, ht, hn, hl.bytes, ?_⟩
    · rw [ht.readAll, readAll_of_none hn, List.append_nil]
    · rw [ht.content, (read_none hn).1]
  · intro r src' h
    exact ⟨content_read h, delivered_read h⟩
  · intro src' h
    exact (read_none h).1
  · constructor
    · intro h
      have hr : Request.read src = (.ok none, (Request.read src).2) := Prod.ext h rfl
      obtain ⟨hb, he⟩ := (read_none hr).2
      exact ⟨hb, he⟩
    · rintro ⟨hb, he⟩
      obtain ⟨src', hr⟩ := read_of_ended ⟨hb, he⟩
      rw [hr]
  · intro r args hr hl hd he
    exact read_short ⟨hd, he⟩ hr hl
  · intro b bs hd hb
    obtain ⟨src', hr, hg, hc⟩ := read_unknown ⟨hd, rfl⟩ hb
    exact ⟨src', hr, hc, hg.bytes⟩

end Handoff.Wire
