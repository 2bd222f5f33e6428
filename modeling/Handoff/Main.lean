import Handoff.CommandLine.Run

namespace Handoff.CommandLine

/-- The environment variables the program looks at. Its log goes nowhere. -/
def variableNames : List String :=
  ["TSNET_BRIDGE_CONFIG_DIR", "TSNET_BRIDGE_STATE_DIR", "TSNET_BRIDGE_HOSTNAME",
    "TSNET_BRIDGE_AUTHKEY", "TS_AUTHKEY", "TSNET_BRIDGE_CONTROL_URL", "TSNET_BRIDGE_EPHEMERAL",
    "XDG_CONFIG_HOME", "HOME"]

def environment : IO Environment := do
  let found ← variableNames.filterMapM fun name => do
    return (← IO.getEnv name).map fun value => (name, value)
  return { get? := fun name => found.lookup name }

/-- The saved configuration of the machine, as the only file of a new network. -/
def savedFiles (env : Environment) : IO Files := do
  match Config.directoryPath env with
  | none => return Files.root
  | some dir =>
    let path := Path.join dir Config.fileName
    let (_, fs) := Files.root.makeDirectories dir
    try
      match fs.write path (Text.utf8 (← IO.FS.readFile path)) with
      | .ok fs => return fs
      | .error _ => return fs
    catch _ => return fs

/-- All bytes of a stream. -/
partial def readBytes (stream : IO.FS.Stream) (bytes : ByteArray) : IO ByteArray := do
  let more ← stream.read 4096
  if more.isEmpty then return bytes else readBytes stream (bytes ++ more)

/-- Every line of standard input is a connection of its own. -/
partial def serveLines (e : Echo) : IO Unit := do
  let line ← (← IO.getStdin).getLine
  if line.isEmpty then return
  let (reply, e) := e.exchange (Text.utf8 line)
  match reply with
  | .ok bytes => IO.print (Text.ofUtf8Lossy bytes)
  | .error f => IO.eprintln f.message
  serveLines e

end Handoff.CommandLine

open Handoff CommandLine in
/-- Reads what the program depends on, runs it, and prints what it says. A worker's answers go to
standard output. -/
def main (args : List String) : IO UInt32 := do
  let env ← environment
  let t : Tailnet := { files := ← savedFiles env }
  let input ← match read args with
    | .run .worker => do
      let bytes ← readBytes (← IO.getStdin) .empty
      pure (Input.socket bytes.toList)
    | _ => pure Input.nothing
  match run args env t input with
  | .echoes e => do
    IO.print e.output
    serveLines e
    return 0
  | .ended exit => do
    IO.print exit.output
    IO.eprint exit.errors
    (← IO.getStdout).write ⟨exit.reply.toArray⟩
    return exit.code
