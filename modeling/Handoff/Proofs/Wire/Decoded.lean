import Handoff.Proofs.Wire.Field

namespace Handoff.Wire
open Source

def NoRequest (bs : List UInt8) : Prop :=
  ∀ (r : Request) rest, bs ≠ r.encode ++ rest

/-- The requests at the front of some bytes, and the bytes after them. The first one after which
nothing is answered is the last one. -/
inductive Decoded : List UInt8 → List Request → List UInt8 → Prop where
  | stop {rest} : NoRequest rest → Decoded rest [] rest
  | last {r rest} : r.isLast = true → Decoded (r.encode ++ rest) [r] rest
  | more {r bs rs rest} :
    r.isLast = false → Decoded bs rs rest → Decoded (r.encode ++ bs) (r :: rs) rest

def halt (rest : List UInt8) (f : PipeFault) : Except Fault Unit :=
  match rest with
  | [] => if f = .ended then .ok () else .error (.pipe f)
  | opcode :: _ =>
    if Request.about? opcode = none then .error (.unknownOpcode opcode) else .error (.pipe f)

/-- Only an end between two requests is no fault. -/
theorem halt_ok {rest : List UInt8} {f : PipeFault} :
    halt rest f = .ok () ↔ rest = [] ∧ f = .ended := by
  cases rest with
  | nil => by_cases hf : f = .ended <;> simp [halt, hf]
  | cons opcode args => by_cases ho : Request.about? opcode = none <;> simp [halt, ho]

section
variable {src : Source} {bs rest rest' : List UInt8} {f : PipeFault} {r r' : Request}

theorem encode_about? {opcode : UInt8} {make : Handle → Request}
    (hm : Request.about? opcode = some make) (h : Handle) :
    (make h).encode = opcode :: handle h := by
  unfold Request.about? at hm
  repeat' split at hm
  all_goals cases hm
  all_goals subst opcode; rfl

/-- A known first byte with four bytes after it is a whole request. -/
theorem NoRequest.short {opcode : UInt8} {args : List UInt8} (hn : NoRequest (opcode :: args))
    {make : Handle → Request} (hm : Request.about? opcode = some make) : args.length < 4 := by
  apply Nat.lt_of_not_le
  intro hlen
  have htake : (args.take 4).length = 4 := by
    rw [List.length_take]
    omega
  apply hn (make ⟨ofWord (args.take 4)⟩) (args.drop 4)
  rw [encode_about? hm, handle, word_ofWord htake, List.cons_append, List.take_append_drop]

theorem read_stop (h : Gives f src rest) (hn : NoRequest rest) :
    ∃ src', Request.read src = ((halt rest f).map fun _ => none, src') := by
  cases rest with
  | nil =>
    obtain ⟨src', hb⟩ := h.readByte_nil
    refine ⟨src', ?_⟩
    rw [Request.read, hb]
    by_cases hf : f = .ended
    · simp [halt, hf, Except.map]
    · simp [halt, hf, Except.map]
  | cons opcode args =>
    obtain ⟨src₁, hb, hg⟩ := h.readByte
    have hcreate : opcode ≠ 0x01 := by
      rintro rfl
      exact hn .createServer args rfl
    rw [Request.read, hb]
    cases hm : Request.about? opcode with
    | none =>
      refine ⟨src₁, ?_⟩
      simp [Request.readAfter, hcreate, hm, halt, Except.map]
    | some make =>
      obtain ⟨src₂, hr⟩ := readWord_short hg (hn.short hm)
      refine ⟨src₂, ?_⟩
      simp [Request.readAfter, hcreate, hm, readHandle, hr, halt, Except.map]

/-- Bytes start with at most one request. -/
theorem encode_append_inj (he : r.encode ++ rest = r'.encode ++ rest') : r = r' ∧ rest = rest' := by
  let src : Source := [.bytes (r.encode ++ rest)]
  have hg : Gives .ended src (r.encode ++ rest) :=
    (carries_bytes (List.append_ne_nil_of_left_ne_nil (encode_ne_nil r) _)).gives
  obtain ⟨src₁, hr, hg₁⟩ := read_encode r hg
  rw [he] at hg
  obtain ⟨src₂, hr', hg₂⟩ := read_encode r' hg
  rw [hr] at hr'
  simp only [Prod.mk.injEq, Except.ok.injEq, Option.some.injEq] at hr'
  obtain ⟨rfl, rfl⟩ := hr'
  exact ⟨rfl, hg₁.bytes.symm.trans hg₂.bytes⟩

end

/-- All bytes can be taken apart. -/
theorem exists_decoded (bs : List UInt8) : ∃ rs rest, Decoded bs rs rest := by
  induction hn : bs.length using Nat.strongRecOn generalizing bs with
  | _ n ih =>
    by_cases h : NoRequest bs
    · exact ⟨[], bs, .stop h⟩
    · simp only [NoRequest, ne_eq, not_forall, not_not] at h
      obtain ⟨r, bs', rfl⟩ := h
      have hpos := List.length_pos_iff.mpr (encode_ne_nil r)
      rw [List.length_append] at hn
      obtain ⟨rs, rest, hd⟩ := ih bs'.length (by omega) bs' rfl
      cases hlast : r.isLast with
      | true => exact ⟨[r], bs', .last hlast⟩
      | false => exact ⟨r :: rs, rest, .more hlast hd⟩

/-- And in one way only. -/
theorem Decoded.unique {bs rest rest' : List UInt8} {rs rs' : List Request}
    (h : Decoded bs rs rest) (h' : Decoded bs rs' rest') : rs = rs' ∧ rest = rest' := by
  induction h generalizing rs' with
  | @stop rest hn =>
    generalize hb : rest = bs at h'
    cases h' with
    | stop =>
      subst hb
      exact ⟨rfl, rfl⟩
    | last => exact absurd hb (hn _ _)
    | more => exact absurd hb (hn _ _)
  | @last r rest hl =>
    generalize hb : r.encode ++ rest = bs at h'
    cases h' with
    | stop hn => exact absurd hb.symm (hn _ _)
    | last hl' =>
      obtain ⟨rfl, rfl⟩ := encode_append_inj hb
      exact ⟨rfl, rfl⟩
    | more hl' =>
      obtain ⟨rfl, rfl⟩ := encode_append_inj hb
      simp [hl] at hl'
  | @more r bs rs rest hl hd ih =>
    generalize hb : r.encode ++ bs = all at h'
    cases h' with
    | stop hn => exact absurd hb.symm (hn _ _)
    | last hl' =>
      obtain ⟨rfl, rfl⟩ := encode_append_inj hb
      simp [hl] at hl'
    | more hl' hd' =>
      obtain ⟨rfl, rfl⟩ := encode_append_inj hb
      obtain ⟨rfl, rfl⟩ := ih hd'
      exact ⟨rfl, rfl⟩

theorem Decoded.bytes {bs rest : List UInt8} {rs : List Request} (h : Decoded bs rs rest) :
    bs = rs.flatMap Request.encode ++ rest := by
  induction h with
  | stop => rfl
  | last => simp
  | more _ _ ih => rw [ih, List.flatMap_cons, List.append_assoc]

theorem Decoded.tail {bs rest : List UInt8} {r : Request} {rs : List Request}
    (h : Decoded bs (r :: rs) rest) (hl : r.isLast = false) :
    ∃ bs', bs = r.encode ++ bs' ∧ Decoded bs' rs rest := by
  cases h with
  | last hlast => simp [hl] at hlast
  | more _ hd => exact ⟨_, rfl, hd⟩

/-- Nothing comes after the last request of a session. -/
theorem Decoded.cases {bs rest : List UInt8} {rs : List Request} (h : Decoded bs rs rest) :
    rs.any Request.isLast = false ∨
      ∃ done r, rs = done ++ [r] ∧ r.isLast = true ∧ done.any Request.isLast = false := by
  induction h with
  | stop => exact .inl rfl
  | @last r _ hl => exact .inr ⟨[], r, rfl, hl, rfl⟩
  | @more r bs rs rest hl _ ih =>
    rcases ih with hn | ⟨done, last, rfl, hlast, hn⟩
    · exact .inl (by simp [hl, hn])
    · exact .inr ⟨r :: done, last, rfl, hlast, by simp [hl, hn]⟩

/-- Only the last one can be the last of a session. -/
theorem Decoded.front {bs rest : List UInt8} {done : List Request} {r : Request}
    {later : List Request} (h : Decoded bs (done ++ r :: later) rest) :
    done.any Request.isLast = false := by
  induction done generalizing bs with
  | nil => rfl
  | cons d done ih =>
    generalize hrs : d :: done ++ r :: later = rs at h
    cases h with
    | stop => cases hrs
    | last => simp at hrs
    | more hl hd =>
      obtain ⟨rfl, rfl⟩ := List.cons.inj hrs
      simp [hl, ih hd]

/-- Behind the last request of a session there may be anything. -/
theorem Decoded.closed {bs rest : List UInt8} {rs : List Request} (h : Decoded bs rs rest)
    (hl : rs.any Request.isLast = true) (more : List UInt8) :
    Decoded (rs.flatMap Request.encode ++ more) rs more := by
  induction h with
  | stop => simp at hl
  | last hlast =>
    simp only [List.flatMap_cons, List.flatMap_nil, List.append_nil]
    exact .last hlast
  | more hlast _ ih =>
    rw [List.flatMap_cons, List.append_assoc]
    exact .more hlast (ih (by simpa [hlast] using hl))

end Handoff.Wire
