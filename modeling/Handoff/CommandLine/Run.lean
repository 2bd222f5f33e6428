import Handoff.CommandLine.Arguments
import Handoff.CommandLine.Echo
import Handoff.Config.Store
import Handoff.Control.Worker

namespace Handoff.CommandLine

/-- How the program ends. -/
structure Exit where
  code : UInt32
  output : String := ""
  errors : String := ""
  /-- What it sent back on its standard input. -/
  reply : List UInt8 := []

/-- What standard input is connected to. -/
inductive Input where
  | nothing
  | socket (bytes : List UInt8)

/-- Reading as from a socket fails on anything else. -/
def Input.source : Input → Wire.Source
  | nothing => [.failed SystemError.notSocket.message]
  | socket bytes => [.bytes bytes]

inductive Progress where
  | ended (e : Exit)
  /-- It listens, and goes on until it is stopped. -/
  | echoes (e : Echo)

def failed (f : Failure) : Progress :=
  .ended { code := 1, errors := f.report }

/-- Opens the log file, if one is named, so that it is empty. -/
def openLog (env : Environment) (fs : Files) : Except Failure Files :=
  match env.get? "TSNET_BRIDGE_LOG_FILE" with
  | none => .ok fs
  | some path => (fs.write path []).mapError fun e => ⟨s!"create log file {path}", [e.message]⟩

/-- The configuration the environment leads to, and the network with the files as they are then. -/
def configure (env : Environment) (t : Tailnet) : Except Failure (Config × Tailnet) :=
  match Config.load env t.files with
  | (.error f, _) => .error f.toFailure
  | (.ok config, files) => .ok (config, { t with files })

def workerOf (config : Config) : Control.Worker where
  config := some config

def runWorker (t : Tailnet) (config : Config) (input : Input) : Progress :=
  match (workerOf config).serve t input.source {} with
  | (.ok (), sink, _) => .ended { code := 0, reply := sink.written }
  | (.error f, sink, _) => .ended { code := 1, errors := f.toFailure.report, reply := sink.written }

/-- Runs a command on a new network, under the configuration the environment leads to. -/
def runCommand (c : Command) (env : Environment) (t : Tailnet) (input : Input) : Progress :=
  match configure env t with
  | .error f => failed f
  | .ok (config, t) =>
    match c with
    | .worker => runWorker t config input
    | .echo listen hostname nonblocking =>
      match Echo.start listen hostname nonblocking config t with
      | .error e => failed ⟨e.message, []⟩
      | .ok e => .echoes e

/-- Runs the program. Its log is opened before its arguments are looked at. -/
def run (args : List String) (env : Environment) (t : Tailnet) (input : Input) : Progress :=
  match openLog env t.files with
  | .error f => failed f
  | .ok files =>
    match read args with
    | .wrong => .ended { code := 2, errors := Topic.program.text }
    | .help topic => .ended { code := 0, output := topic.text }
    | .version => .ended { code := 0, output := versionText }
    | .run c => runCommand c env { t with files } input

/-- A worker that another program starts, and the network it serves on. -/
def startWorker (env : Environment) (t : Tailnet) : Except Failure (Control.Worker × Tailnet) :=
  (openLog env t.files).bind fun files =>
    (configure env { t with files }).map fun (config, t) => (workerOf config, t)

/-- Commands that every system has. None of them answers on its standard input. -/
def systemCommands : List String :=
  ["cat", "cp", "date", "echo", "env", "false", "ls", "mkdir", "sh", "sleep", "true"]

/-- The places of the system's commands. -/
def isSystemCommand (program : String) : Bool :=
  systemCommands.any fun name =>
    program = name || program = "/bin/" ++ name || program = "/usr/bin/" ++ name

/-- What starting `program` is refused for, if it is not this program. A name without a slash is
looked for among the commands of the system. -/
def spawnFault? (fs : Files) (program : String) : Option SystemError :=
  if isSystemCommand program then none
  else if program.toList.contains '\x00' then some .nulInArgument
  else if program = "" then some .noEntry
  else match fs.find (if program.toList.contains '/' then program else "/bin/" ++ program) with
    | .error e => some e
    | .ok _ => some .accessDenied

end Handoff.CommandLine
