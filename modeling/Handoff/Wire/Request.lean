import Handoff.Wire.Field

namespace Handoff.Wire

/-- What a controlling program asks of a worker, one request at a time. -/
inductive Request where
  | createServer
  | startServer (h : Handle)
  | up (h : Handle)
  /-- Keep the server's last error as it is now, and say how long it is. -/
  | fetchErrorMessage (h : Handle)
  /-- Send the error that was kept. -/
  | readErrorMessage (h : Handle)
  /-- Close the server and end. -/
  | closeServer (h : Handle)
  deriving DecidableEq

namespace Request

def opcode : Request → UInt8
  | createServer => 0x01
  | startServer _ => 0x02
  | up _ => 0x03
  | fetchErrorMessage _ => 0x05
  | readErrorMessage _ => 0x06
  | closeServer _ => 0xFF

def handle? : Request → Option Handle
  | createServer => none
  | startServer h | up h | fetchErrorMessage h | readErrorMessage h | closeServer h => some h

def name : Request → String
  | createServer => "CreateServer"
  | startServer _ => "StartServer"
  | up _ => "Up"
  | fetchErrorMessage _ => "FetchErrorMessage"
  | readErrorMessage _ => "ReadErrorMessage"
  | closeServer _ => "CloseServer"

def debug (r : Request) : String :=
  match r.handle? with
  | none => r.name
  | some h => s!"{r.name}(Handle({h}))"

/-- Nothing is answered after this request. -/
def isLast : Request → Bool
  | closeServer _ => true
  | _ => false

def encode (r : Request) : List UInt8 :=
  r.opcode :: (match r.handle? with
    | none => []
    | some h => handle h)

/-- The requests about a handle, by their first byte. -/
def about? (opcode : UInt8) : Option (Handle → Request) :=
  if opcode = 0x02 then some startServer
  else if opcode = 0x03 then some up
  else if opcode = 0x05 then some fetchErrorMessage
  else if opcode = 0x06 then some readErrorMessage
  else if opcode = 0xFF then some closeServer
  else none

/-- Reads what follows the first byte of a request. -/
def readAfter (opcode : UInt8) (src : Source) : Except Fault Request × Source :=
  if opcode = 0x01 then (.ok createServer, src)
  else match about? opcode with
    | none => (.error (.unknownOpcode opcode), src)
    | some make =>
      let (r, src) := readHandle src
      ((r.map make).mapError .pipe, src)

/-- Reads one request; none at the end of the source. -/
def read (src : Source) : Except Fault (Option Request) × Source :=
  match src.readByte with
  | (.error f, src) => (.error (.pipe f), src)
  | (.ok none, src) => (.ok none, src)
  | (.ok (some opcode), src) => (readAfter opcode src).map (·.map some) id

theorem size_readAfter (opcode : UInt8) (src : Source) :
    (readAfter opcode src).2.size ≤ src.size := by
  unfold readAfter
  split
  · exact Nat.le_refl _
  · split
    · exact Nat.le_refl _
    · exact size_readHandle src

/-- A request takes at least its first byte off the source. -/
theorem size_read {src rest : Source} {r : Request} (h : read src = (.ok (some r), rest)) :
    rest.size < src.size := by
  unfold read at h
  split at h
  · simp at h
  · simp at h
  · rename_i opcode src' hb
    have hlt := Source.size_readByte (congrArg Prod.fst hb)
    rw [hb] at hlt
    have hle := size_readAfter opcode src'
    have hrest : (readAfter opcode src').2 = rest := congrArg Prod.snd h
    rw [hrest] at hle
    exact Nat.lt_of_le_of_lt hle hlt

/-- All requests up to the end of the source, or up to what cannot be read. -/
def readAll (src : Source) : List Request × Option Fault :=
  match h : read src with
  | (.error f, _) => ([], some f)
  | (.ok none, _) => ([], none)
  | (.ok (some r), rest) =>
    have := size_read h
    let (rs, f) := readAll rest
    (r :: rs, f)
termination_by src.size

end Request
end Handoff.Wire
