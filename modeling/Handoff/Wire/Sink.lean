import Handoff.Wire.Fault

namespace Handoff.Wire

/-- What one write to a pipe does. -/
inductive WriteEvent where
  /-- It takes so many bytes, or all there are. A pipe that takes none is full. -/
  | takes (n : Nat)
  /-- It has to be made again. -/
  | interrupted
  | failed (text : String)
  deriving DecidableEq

/-- A pipe that is written to, and what it does with the bytes. -/
structure Sink where
  written : List UInt8 := []
  /-- What the next writes do, before all others do as is said below. -/
  writes : List WriteEvent := []
  /-- What the next flushes fail with, if they fail, before all others. -/
  flushes : List (Option String) := []
  /-- Bytes it takes in all. -/
  limit : Option Nat := none
  /-- What it fails with when it is full, if it fails at all. -/
  fault : Option String := none
  /-- Bytes it takes at once. -/
  chunk : Option Nat := none
  /-- Writes that have to be made again before one is done. -/
  interrupts : Nat := 0
  flushFault : Option String := none

namespace Sink

/-- Bytes it takes from here on, if there is a bound. -/
def room (s : Sink) : Option Nat :=
  s.limit.map (· - s.written.length)

/-- How many of `n` bytes the next write takes. -/
def share (s : Sink) (n : Nat) : Nat :=
  min (min n (s.chunk.getD n)) (s.room.getD n)

/-- How a write ends that takes nothing. -/
def refusal (s : Sink) : PipeFault :=
  match s.fault with
  | some text => if s.room = some 0 then .failed text else .full
  | none => .full

/-- Writes until all bytes are taken or none are. -/
def writeAll (s : Sink) (bytes : List UInt8) : Except PipeFault Unit × Sink :=
  if bytes = [] then (.ok (), s)
  else match _hw : s.writes with
    | .interrupted :: writes => writeAll { s with writes } bytes
    | .failed text :: writes => (.error (.failed text), { s with writes })
    | .takes n :: writes =>
      if n = 0 then (.error .full, { s with writes })
      else writeAll { s with writes, written := s.written ++ bytes.take n } (bytes.drop n)
    | [] => match _hi : s.interrupts with
      | k + 1 => writeAll { s with interrupts := k } bytes
      | 0 =>
        if s.share bytes.length = 0 then (.error s.refusal, s)
        else
          writeAll { s with written := s.written ++ bytes.take (s.share bytes.length) }
            (bytes.drop (s.share bytes.length))
termination_by bytes.length + s.writes.length + s.interrupts
decreasing_by
  all_goals simp_all only [List.length_cons, List.length_drop]
  all_goals try have := List.length_pos_iff.mpr ‹bytes ≠ []›
  all_goals omega

def flush (s : Sink) : Except PipeFault Unit × Sink :=
  match s.flushes with
  | some text :: flushes => (.error (.failed text), { s with flushes })
  | none :: flushes => (.ok (), { s with flushes })
  | [] => match s.flushFault with
    | some text => (.error (.failed text), s)
    | none => (.ok (), s)

/-- Writes a whole response and sends it off. -/
def send (s : Sink) (bytes : List UInt8) : Except PipeFault Unit × Sink :=
  match s.writeAll bytes with
  | (.error f, s) => (.error f, s)
  | (.ok (), s) => s.flush

end Sink
end Handoff.Wire
