namespace Handoff.CommandLine

/-- What help is asked about. -/
inductive Topic where
  | program
  | worker
  | echo
  | help
  deriving DecidableEq

namespace Topic

def about : Topic → String
  | program => "Hand connected tailnet sockets across process boundaries"
  | worker => "Serve the control protocol on stdin (spawned by a parent process)"
  | echo => "Listen on the tailnet and echo every connection back to its sender"
  | help => "Print this message or the help of the given subcommand(s)"

def usage : Topic → String
  | program => "tsnet-bridge <COMMAND>"
  | worker => "tsnet-bridge worker"
  | echo => "tsnet-bridge echo [OPTIONS] --listen <LISTEN>"
  | help => "tsnet-bridge help [COMMAND]..."

/-- The lists that follow the usage, each with its heading. -/
def lists : Topic → List (String × List (String × String))
  | program =>
    [("Commands", [("worker", worker.about), ("echo", echo.about), ("help", help.about)]),
      ("Options", [("-h, --help", "Print help"), ("-V, --version", "Print version")])]
  | worker => [("Options", [("-h, --help", "Print help")])]
  | echo =>
    [("Options",
      [("    --listen <LISTEN>", "Tailnet listen address, e.g. \":8081\""),
        ("    --hostname <HOSTNAME>", "Hostname for the node (overrides config)"),
        ("    --nonblocking", "Accept through readiness polling instead of blocking accept"),
        ("-h, --help", "Print help")])]
  | help => [("Arguments", [("[COMMAND]...", "Print help for the subcommand(s)")])]

end Topic

/-- Two columns, the first as wide as its widest entry. -/
def columns (rows : List (String × String)) : String :=
  let width := (rows.map fun row => row.1.length).foldl max 0
  String.join (rows.map fun (name, what) =>
    "  " ++ name ++ String.ofList (List.replicate (width - name.length + 2) ' ') ++ what ++ "\n")

def Topic.text (t : Topic) : String :=
  t.about ++ "\n\nUsage: " ++ t.usage ++ "\n" ++
    String.join (t.lists.map fun (heading, rows) => "\n" ++ heading ++ ":\n" ++ columns rows)

def versionText : String := "tsnet-bridge 0.1.0\n"

end Handoff.CommandLine
