import Handoff.Wire.Fault

namespace Handoff.Wire

/-- What a pipe does when it is read. -/
inductive ReadEvent where
  /-- These bytes are there, and one read takes no byte of a later event. None at all mean that the
  pipe has ended. -/
  | bytes (bs : List UInt8)
  /-- The read has to be made again. -/
  | interrupted
  | failed (text : String)
  deriving DecidableEq

/-- The events of a pipe, which ends after the last one. -/
abbrev Source := List ReadEvent

namespace Source

/-- The source with `bs` before `src`. -/
def unread (bs : List UInt8) (src : Source) : Source :=
  if bs = [] then src else .bytes bs :: src

/-- One byte, or none at the end. -/
def readByte : Source → Except PipeFault (Option UInt8) × Source
  | [] => (.ok none, [])
  | .interrupted :: src => readByte src
  | .failed text :: src => (.error (.failed text), src)
  | .bytes [] :: src => (.ok none, src)
  | .bytes (b :: bs) :: src => (.ok (some b), unread bs src)

/-- Exactly `n` bytes. What was read before a failure is lost. -/
def readExact : (n : Nat) → Source → Except PipeFault (List UInt8) × Source
  | 0, src => (.ok [], src)
  | _ + 1, [] => (.error .ended, [])
  | n + 1, .interrupted :: src => readExact (n + 1) src
  | _ + 1, .failed text :: src => (.error (.failed text), src)
  | n + 1, .bytes bs :: src =>
    if bs = [] then (.error .ended, src)
    else if n + 1 < bs.length then (.ok (bs.take (n + 1)), .bytes (bs.drop (n + 1)) :: src)
    else
      let (r, src) := readExact (n + 1 - bs.length) src
      (r.map (bs ++ ·), src)

/-- Bounds what can be read: every event and every byte counts. -/
def size : Source → Nat
  | [] => 0
  | .bytes bs :: src => bs.length + 1 + size src
  | _ :: src => 1 + size src

theorem size_unread (bs : List UInt8) (src : Source) :
    size (unread bs src) ≤ bs.length + 1 + size src := by
  unfold unread
  split
  · omega
  · exact Nat.le_refl _

theorem size_readExact (n : Nat) (src : Source) : size (readExact n src).2 ≤ size src := by
  fun_induction readExact n src with
  | case1 => exact Nat.le_refl _
  | case2 => exact Nat.le_refl _
  | case3 n src ih => simp only [size]; omega
  | case4 n text src => simp only [size]; omega
  | case5 n src => simp only [size]; omega
  | case6 n bs src hne hlt => simp only [size, List.length_drop]; omega
  | case7 n bs src hne hlt r rest hr ih =>
    have : size rest ≤ size src := by rw [hr] at ih; exact ih
    simp only [size]
    omega

theorem size_readByte {src : Source} {b : UInt8} (h : (readByte src).1 = .ok (some b)) :
    size (readByte src).2 < size src := by
  fun_induction readByte src with
  | case1 => simp at h
  | case2 src ih => have := ih h; simp only [size]; omega
  | case3 => simp at h
  | case4 => simp at h
  | case5 b' bs src =>
    have := size_unread bs src
    simp only [size, List.length_cons]
    omega

end Source
end Handoff.Wire
