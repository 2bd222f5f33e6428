import Handoff.Proofs.Text.Cutting
import Handoff.Proofs.Wire.Delivered
import Handoff.Wire.Request
import Handoff.Wire.Response

namespace Handoff.Wire
open Source

section Naming
variable {ε ε' α : Type} (f : ε → ε')

@[simp] theorem mapError_ok (a : α) : (Except.ok a : Except ε α).mapError f = .ok a :=
  rfl

@[simp] theorem mapError_error (e : ε) :
    (Except.error e : Except ε α).mapError f = .error (f e) :=
  rfl

end Naming

theorem ofWord_word (n : UInt32) : ofWord (word n) = n := by
  have hn := n.toNat_lt
  have hfold : (word n).foldr (fun b k => k * 256 + b.toNat) 0 = n.toNat := by
    simp only [word, List.foldr_cons, List.foldr_nil, UInt8.toNat_ofNat']
    omega
  rw [ofWord, hfold, UInt32.ofNat_toNat]

theorem length_word (n : UInt32) : (word n).length = 4 := rfl

/-- Any four bytes are a number. -/
theorem word_ofWord {bs : List UInt8} (h : bs.length = 4) : word (ofWord bs) = bs := by
  obtain ⟨a, b, c, d, rfl⟩ : ∃ a b c d, bs = [a, b, c, d] := by
    match bs, h with
    | [a, b, c, d], _ => exact ⟨a, b, c, d, rfl⟩
  have ha := a.toNat_lt
  have hb := b.toNat_lt
  have hc := c.toNat_lt
  have hd := d.toNat_lt
  have hn : (ofWord [a, b, c, d]).toNat =
      ((d.toNat * 256 + c.toNat) * 256 + b.toNat) * 256 + a.toNat := by
    simp only [ofWord, List.foldr_cons, List.foldr_nil, UInt32.toNat_ofNat']
    omega
  simp only [word, hn, List.cons.injEq, and_true]
  refine ⟨?_, ?_, ?_, ?_⟩ <;>
  · apply UInt8.toNat_inj.mp
    rw [UInt8.toNat_ofNat']
    omega

/-- The length of what is sent at once fits a word. -/
theorem toNat_length {bs : List UInt8} (h : bs.length ≤ maxText) :
    (UInt32.ofNat bs.length).toNat = bs.length := by
  rw [UInt32.toNat_ofNat']
  have hmax : maxText = 4096 := rfl
  exact Nat.mod_eq_of_lt (by omega)

section Reading
variable {P : Source → List UInt8 → Prop} [Kept P] {src : Source} {rest : List UInt8}

theorem readWord_word (n : UInt32) (h : P src (word n ++ rest)) :
    ∃ src', readWord src = (.ok n, src') ∧ P src' rest := by
  obtain ⟨src', hr, hc⟩ := Kept.readExact h
  rw [length_word] at hr
  refine ⟨src', ?_, hc⟩
  rw [readWord, hr]
  simp only [Except.map, ofWord_word]

theorem readHandle_handle (h : Handle) (hc : P src (handle h ++ rest)) :
    ∃ src', readHandle src = (.ok h, src') ∧ P src' rest := by
  obtain ⟨src', hr, hc⟩ := readWord_word h.raw hc
  refine ⟨src', ?_, hc⟩
  rw [readHandle, hr]
  rfl

theorem readStatus_status (s : Status) (h : P src (status s ++ rest)) :
    ∃ src', readStatus src = (.ok s, src') ∧ P src' rest := by
  obtain ⟨src', hr, hc⟩ := readWord_word s.toUInt32 h
  refine ⟨src', ?_, hc⟩
  rw [readStatus, hr]
  rfl

/-- What is sent of a text is its cut. -/
theorem text_eq (s : String) : text s =
    word (.ofNat (Text.utf8 (Text.cut maxText s)).length) ++ Text.utf8 (Text.cut maxText s) := by
  have hkept : (Text.utf8 s).take
      (Text.lastBoundary (Text.utf8 s) (min (Text.utf8 s).length maxText)) =
        Text.utf8 (Text.cut maxText s) := by
    rcases Nat.le_total (Text.utf8 s).length maxText with hle | hle
    · have hend : Text.isBoundary (Text.utf8 s) (Text.utf8 s).length = true := by
        simp [Text.isBoundary]
      rw [Nat.min_eq_left hle, Text.lastBoundary_self hend, List.take_length,
        Text.cut_of_le (Text.length_utf8_eq s ▸ hle)]
    · rw [Nat.min_eq_right hle, Text.utf8_cut]
  rw [text, hkept]

/-- A text comes back cut to what is sent at once. -/
theorem readText_text (s : String) (h : P src (text s ++ rest)) :
    ∃ src', readText src = (.ok (Text.cut maxText s), src') ∧ P src' rest := by
  have hle : (Text.utf8 (Text.cut maxText s)).length ≤ maxText := Text.length_utf8_cut_le ..
  have hmod := toNat_length hle
  rw [text_eq, List.append_assoc] at h
  obtain ⟨src₁, hr₁, hc₁⟩ := readWord_word _ h
  obtain ⟨src₂, hr₂, hc₂⟩ := Kept.readExact hc₁
  refine ⟨src₂, ?_, hc₂⟩
  rw [readText, hr₁]
  dsimp only
  rw [hmod, if_neg (by omega), hr₂]
  exact congrArg (fun s => (Except.ok s, src₂)) (Text.ofUtf8Lossy_utf8 _)

/-- The first byte of a request says what to make of the handle after it. -/
theorem about?_opcode {r : Request} {h : Handle} (hr : r.handle? = some h) :
    r.opcode ≠ 0x01 ∧ ∃ make, Request.about? r.opcode = some make ∧ make h = r := by
  cases r with
  | createServer => simp [Request.handle?] at hr
  | _ =>
    obtain rfl := Option.some.inj hr
    exact ⟨by simp only [Request.opcode]; decide, _, rfl, rfl⟩

/-- A request is read back, and nothing after it is touched. -/
theorem read_encode (r : Request) (h : P src (r.encode ++ rest)) :
    ∃ src', Request.read src = (.ok (some r), src') ∧ P src' rest := by
  rw [Request.encode, List.cons_append] at h
  obtain ⟨src₁, hb, hc⟩ := Kept.readByte h
  rw [Request.read, hb]
  cases hr : r.handle? with
  | none =>
    cases r with
    | createServer =>
      rw [hr] at hc
      exact ⟨src₁, rfl, hc⟩
    | _ => simp [Request.handle?] at hr
  | some k =>
    rw [hr] at hc
    obtain ⟨src₂, hh, hc₂⟩ := readHandle_handle k hc
    obtain ⟨hne, make, hm, he⟩ := about?_opcode hr
    refine ⟨src₂, ?_, hc₂⟩
    dsimp only
    rw [Request.readAfter, if_neg hne, hm]
    dsimp only
    rw [hh]
    exact congrArg (fun r => (Except.ok (some r), src₂)) he

/-- Nothing is left to read where the pipe ends. -/
theorem read_of_ended (h : Gives .ended src []) :
    ∃ src', Request.read src = (.ok none, src') := by
  obtain ⟨src', hb⟩ := h.readByte_nil
  exact ⟨src', by rw [Request.read, hb, if_pos rfl]⟩

end Reading

theorem readWord_short {src : Source} {bs : List UInt8} {f : PipeFault} (h : Gives f src bs)
    (hl : bs.length < 4) : ∃ src', readWord src = (.error f, src') := by
  obtain ⟨rfl, rfl⟩ := h
  obtain ⟨src', hr⟩ := readExact_of_lt hl
  refine ⟨src', ?_⟩
  rw [readWord, hr]
  rfl

/-- How many bytes answer a request. Only a text says itself how many it has. -/
def Request.width? : Request → Option Nat
  | fetchErrorMessage _ => some 8
  | readErrorMessage _ => none
  | _ => some 4

def Replies (r : Request) (bs : List UInt8) : Prop :=
  match r.width? with
  | some n => bs.length = n
  | none =>
    ∃ length text, bs = word length ++ text ∧ text.length = length.toNat ∧ text.length ≤ maxText

theorem encode_ne_nil (r : Request) : r.encode ≠ [] :=
  List.cons_ne_nil _ _

end Handoff.Wire
