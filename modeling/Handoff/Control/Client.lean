import Handoff.Wire.Request
import Handoff.SystemError

namespace Handoff.Control
open Wire

/-- The line to a worker, or to whatever is at the other end. -/
class Line (L : Type) where
  /-- Sends bytes, and lets the other end do what it does with them. -/
  send : List UInt8 → L → Except SystemError Unit × L
  /-- What can be read now. -/
  incoming : L → Source
  /-- Leaves `src` of what can be read. -/
  leave : Source → L → L

/-- A client's side of a control session. -/
inductive Session where
  | opened
  /-- A server was closed, which ends the session. -/
  | closed
  | broken (reason : String)
  deriving DecidableEq

/-- A request a client makes. -/
inductive Call where
  | createServer
  | startServer (h : Handle)
  | up (h : Handle)
  | fetchErrorMessage (h : Handle)
  | closeServer (h : Handle)
  deriving DecidableEq

inductive Reply where
  | created (h : Handle)
  | done
  | text (s : String)
  deriving DecidableEq

/-- What a client is told when there is no program to start as its worker. -/
def spawnRefused (program : String) (cause : SystemError) : BridgeError :=
  .sessionBroken s!"spawn worker: spawn worker {program}: {cause.message}"

namespace Session

def isOpen (s : Session) : Bool :=
  s = opened

variable {L : Type} [Line L] {α : Type}

/-- Ends the session because of a pipe. -/
def breakOff (request : Request) (cause : String) (line : L) :
    Except BridgeError α × Session × L :=
  let reason := s!"{request.debug}: {cause}"
  (.error (.sessionBroken reason), .broken reason, line)

/-- Sends a request and reads its whole response. A session that is over touches no pipe. -/
def exchange (s : Session) (request : Request) (read : Source → Except Fault α × Source)
    (line : L) : Except BridgeError α × Session × L :=
  match s with
  | closed => (.error (.sessionBroken "session already closed"), s, line)
  | broken reason => (.error (.sessionBroken reason), s, line)
  | opened =>
    match Line.send request.encode line with
    | (.error e, line) => Session.breakOff request e.message line
    | (.ok (), line) =>
      match read (Line.incoming line) with
      | (.error f, src) => Session.breakOff request f.message (Line.leave src line)
      | (.ok a, src) => (.ok a, s, Line.leave src line)

/-- A status as a result. -/
def checked (status : Status) (h : Handle) : Except BridgeError Unit :=
  match BridgeError.ofStatus status h with
  | none => .ok ()
  | some e => .error e

def readCreated (src : Source) : Except Fault Handle × Source :=
  (readHandle src).map (·.mapError .pipe) id

def readDone (src : Source) : Except Fault Status × Source :=
  (readStatus src).map (·.mapError .pipe) id

/-- A status and the length of the text that is kept. -/
def readAnnounced (src : Source) : Except Fault Status × Source :=
  match readStatus src with
  | (.error f, src) => (.error (.pipe f), src)
  | (.ok status, src) => (readWord src).map (fun r => (r.map fun _ => status).mapError .pipe) id

def createServer (s : Session) (line : L) : Except BridgeError Handle × Session × L :=
  s.exchange .createServer readCreated line

/-- A request that is answered by a status alone. -/
def simple (s : Session) (request : Request) (h : Handle) (line : L) :
    Except BridgeError Unit × Session × L :=
  match s.exchange request readDone line with
  | (.error e, s, line) => (.error e, s, line)
  | (.ok status, s, line) => (checked status h, s, line)

/-- The text is asked for only if there is one. -/
def fetchErrorMessage (s : Session) (h : Handle) (line : L) :
    Except BridgeError String × Session × L :=
  match s.exchange (.fetchErrorMessage h) readAnnounced line with
  | (.error e, s, line) => (.error e, s, line)
  | (.ok status, s, line) =>
    match checked status h with
    | .error e => (.error e, s, line)
    | .ok () => s.exchange (.readErrorMessage h) readText line

/-- Ends the session, whatever the status. -/
def closeServer (s : Session) (h : Handle) (line : L) : Except BridgeError Unit × Session × L :=
  match s.exchange (.closeServer h) readDone line with
  | (.error e, s, line) => (.error e, s, line)
  | (.ok status, _, line) => (checked status h, closed, line)

def call (s : Session) (line : L) : Call → Except BridgeError Reply × Session × L
  | .createServer => (s.createServer line).map (·.map .created) id
  | .startServer h => (s.simple (.startServer h) h line).map (·.map fun _ => .done) id
  | .up h => (s.simple (.up h) h line).map (·.map fun _ => .done) id
  | .fetchErrorMessage h => (s.fetchErrorMessage h line).map (·.map .text) id
  | .closeServer h => (s.closeServer h line).map (·.map fun _ => .done) id

end Session
end Handoff.Control
