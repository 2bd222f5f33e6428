import Handoff.Stream

namespace Handoff

/-- What the holder of a descriptor does with it. -/
inductive StreamUse where
  | write (bytes : List UInt8)
  /-- Reads exactly `n` bytes. -/
  | read (n : Nat)
  | readAll
  | shutdownWrite
  deriving DecidableEq

/-- What came of it. -/
inductive StreamResult where
  | done
  | wrote (n : Nat)
  | bytes (bs : List UInt8)
  | failed (e : SystemError)
  /-- The stream ended before everything was read. -/
  | short
  /-- What is asked for has not arrived yet. -/
  | waits
  deriving DecidableEq

namespace Streams

def readExact (s : Streams) (d : Descriptor) (n : Nat) : StreamResult × Streams :=
  let (bs, s') := s.read d n
  if bs.length = n then (.bytes bs, s')
  else if s'.atEnd d then (.short, s')
  else (.waits, s)

def readAll (s : Streams) (d : Descriptor) : StreamResult × Streams :=
  let (bs, s') := s.read d (s.peer d).sent.length
  if s'.atEnd d then (.bytes bs, s') else (.waits, s)

def use (s : Streams) (d : Descriptor) : StreamUse → StreamResult × Streams
  | .write bytes =>
    match s.write d bytes with
    | (.ok n, s) => (.wrote n, s)
    | (.error e, s) => (.failed e, s)
  | .read n => s.readExact d n
  | .readAll => s.readAll d
  | .shutdownWrite =>
    match s.shutdownWrite d with
    | (.ok (), s) => (.done, s)
    | (.error e, s) => (.failed e, s)

end Streams
end Handoff
