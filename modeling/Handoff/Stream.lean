import Handoff.Mapping
import Handoff.SystemError
import Handoff.Net.Endpoint

namespace Handoff

/-- The two ends of a connection: the one that dialed and the one that was dialed. -/
inductive Side where
  | near
  | far
  deriving DecidableEq

def Side.other : Side → Side
  | near => far
  | far => near

abbrev StreamId := Nat

/-- One copy of a connected socket. -/
structure Descriptor where
  stream : StreamId
  side : Side
  deriving DecidableEq

/-- One end of a connection. -/
structure StreamEnd where
  address : Endpoint
  /-- Copies of this end's descriptor that are still open. -/
  holders : Nat := 0
  /-- Bytes this end sent that the other has not read. -/
  sent : List UInt8 := []
  /-- This end sends no more. -/
  ended : Bool := false
  /-- This end was closed before the other was used, and the other sees it at once. -/
  gone : Bool := false

/-- A connection: what one end sends arrives at the other complete and in order. -/
abbrev Stream := Side → StreamEnd

structure Streams where
  stream : StreamId → Stream
  count : Nat := 0

namespace Streams

def empty : Streams where
  stream _ _ := { address := ⟨.v4 ⟨0, 0, 0, 0⟩, 0⟩, ended := true }

/-- The end a descriptor stands for. -/
def own (s : Streams) (d : Descriptor) : StreamEnd :=
  s.stream d.stream d.side

def peer (s : Streams) (d : Descriptor) : StreamEnd :=
  s.stream d.stream d.side.other

def setEnd (s : Streams) (id : StreamId) (side : Side) (e : StreamEnd) : Streams :=
  { s with stream := assign s.stream id (assign (s.stream id) side e) }

/-- A new connection with one open descriptor at each end. -/
def connect (s : Streams) (near far : Endpoint) : StreamId × Streams :=
  (s.count,
   { stream := assign s.stream s.count fun
       | .near => { address := near, holders := 1 }
       | .far => { address := far, holders := 1 }
     count := s.count + 1 })

def copy (s : Streams) (d : Descriptor) : Streams :=
  s.setEnd d.stream d.side { s.own d with holders := (s.own d).holders + 1 }

/-- Closes one copy. With the last copy the end closes. -/
def close (s : Streams) (d : Descriptor) : Streams :=
  let e := s.own d
  s.setEnd d.stream d.side
    { e with holders := e.holders - 1, ended := e.ended || e.holders ≤ 1 }

def closeAll (s : Streams) (ds : List Descriptor) : Streams :=
  ds.foldl close s

/-- Both ends have stopped sending, which is when the connection ceases to exist. -/
def isOver (s : Streams) (d : Descriptor) : Bool :=
  (s.own d).ended && (s.peer d).ended

/-- Sends bytes; with nobody left at the other end they are lost, unless it was gone from the
beginning. -/
def write (s : Streams) (d : Descriptor) (bytes : List UInt8) :
    Except SystemError Nat × Streams :=
  let e := s.own d
  if bytes = [] then (.ok 0, s)
  else if e.ended || (s.peer d).gone then (.error .brokenPipe, s)
  else (.ok bytes.length, s.setEnd d.stream d.side { e with sent := e.sent ++ bytes })

/-- Takes at most `n` of the bytes that have arrived. -/
def read (s : Streams) (d : Descriptor) (n : Nat) : List UInt8 × Streams :=
  let e := s.peer d
  (e.sent.take n, s.setEnd d.stream d.side.other { e with sent := e.sent.drop n })

/-- Everything the other end sent has been read and it sends no more. -/
def atEnd (s : Streams) (d : Descriptor) : Bool :=
  (s.peer d).sent.isEmpty && (s.peer d).ended

def shutdownWrite (s : Streams) (d : Descriptor) : Except SystemError Unit × Streams :=
  if s.isOver d && !(s.peer d).gone then (.error .notConnected, s)
  else (.ok (), s.setEnd d.stream d.side { s.own d with ended := true })

/-- The address at the other end. -/
def peerAddress (s : Streams) (d : Descriptor) : Except SystemError Endpoint :=
  if s.isOver d then .error .notConnected else .ok (s.peer d).address

end Streams
end Handoff
