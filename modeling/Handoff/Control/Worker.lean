import Handoff.Bridge.Closing
import Handoff.Bridge.Servers
import Handoff.Wire.Request
import Handoff.Wire.Response
import Handoff.Wire.Sink

namespace Handoff.Control
open Wire

/-- Serves requests from outside on a bridge of its own. -/
structure Worker where
  tables : Tables := {}
  /-- What every server it creates is given. -/
  config : Option Config := none
  /-- Error texts that were fetched and not yet read. -/
  snapshot : Handle → Option String := fun _ => none

/-- Why a worker stops before it is told to. -/
inductive ServeFault where
  | reading (cause : Fault)
  | writing (cause : PipeFault)
  deriving DecidableEq

def ServeFault.toFailure : ServeFault → Failure
  | reading (.unknownOpcode opcode) => ⟨(Fault.unknownOpcode opcode).message, []⟩
  | reading cause => ⟨"read control request", [cause.message]⟩
  | writing cause => ⟨"write control response", [cause.message]⟩

namespace Worker
variable {W : Type} [Network W]

def bridge (w : Worker) (net : W) : Bridge W :=
  { w.tables with net }

/-- The worker and the network after its bridge has become `b`. -/
def after (w : Worker) (b : Bridge W) : Worker × W :=
  ({ w with tables := b.toTables }, b.net)

/-- A new server; settings that are refused are left out. -/
def create (w : Worker) (b : Bridge W) : Handle × Bridge W :=
  let (h, b) := b.newServer
  match w.config with
  | none => (h, b)
  | some config => (h, (b.applyConfig h config).2)

/-- Keeps the server's last error; a failure keeps what was there. -/
def fetch (w : Worker) (b : Bridge W) (h : Handle) : Response × Worker :=
  match b.lastError h (maxText + 1) with
  | .error e => (.announced e.status 0, w)
  | .ok text =>
    (.announced .ok (.ofNat text.utf8ByteSize),
      { w with snapshot := assign w.snapshot h (some text) })

def answer (w : Worker) (net : W) : Request → Response × Worker × W
  | .createServer =>
    let (h, b) := w.create (w.bridge net)
    (.created h, w.after b)
  | .startServer h =>
    let (r, b) := (w.bridge net).start h
    (.status (statusOf r), w.after b)
  | .up h =>
    let (r, b) := (w.bridge net).up h
    (.status (statusOf r), w.after b)
  | .fetchErrorMessage h =>
    let (response, w) := w.fetch (w.bridge net) h
    (response, w, net)
  | .readErrorMessage h =>
    (.text ((w.snapshot h).getD ""), { w with snapshot := assign w.snapshot h none }, net)
  | .closeServer h =>
    let (r, b) := (w.bridge net).close h
    (.status (statusOf r), { w with snapshot := assign w.snapshot h none }.after b)

/-- Answers requests until one says to end, the source ends or a pipe fails. The bridge ends with
the worker. -/
def serve (w : Worker) (net : W) (src : Source) (sink : Sink) :
    Except ServeFault Unit × Sink × W :=
  match h : Request.read src with
  | (.error f, _) => (.error (.reading f), sink, (w.bridge net).drop)
  | (.ok none, _) => (.ok (), sink, (w.bridge net).drop)
  | (.ok (some request), rest) =>
    let (response, w, net) := w.answer net request
    match sink.send response.encode with
    | (.error f, sink) => (.error (.writing f), sink, (w.bridge net).drop)
    | (.ok (), sink) =>
      if request.isLast then (.ok (), sink, (w.bridge net).drop)
      else
        have := Request.size_read h
        serve w net rest sink
termination_by src.size

end Worker
end Handoff.Control
