import Handoff.CommandLine.Help

namespace Handoff.CommandLine

inductive Command where
  /-- Serve a control session on standard input. -/
  | worker
  /-- Send every connection back what it sends. -/
  | echo (listen : String) (hostname : Option String) (nonblocking : Bool)
  deriving DecidableEq

/-- What a command line asks for. -/
inductive Invocation where
  | run (c : Command)
  | help (t : Topic)
  | version
  /-- It is not understood. -/
  | wrong
  deriving DecidableEq

/-- The options of `echo` seen so far. -/
structure EchoOptions where
  listen : Option String := none
  hostname : Option String := none
  nonblocking : Bool := false

namespace EchoOptions

def setListen (o : EchoOptions) (v : String) : Option EchoOptions :=
  if o.listen.isSome then none else some { o with listen := some v }

def setHostname (o : EchoOptions) (v : String) : Option EchoOptions :=
  if o.hostname.isSome then none else some { o with hostname := some v }

def setNonblocking (o : EchoOptions) : Option EchoOptions :=
  if o.nonblocking then none else some { o with nonblocking := true }

def finish (o : EchoOptions) : Invocation :=
  match o.listen with
  | none => .wrong
  | some listen => .run (.echo listen o.hostname o.nonblocking)

end EchoOptions

/-- The part of `arg` after `name` and an equals sign. -/
def valueOf? (name arg : String) : Option String :=
  let start := name.toList ++ ['=']
  if start.isPrefixOf arg.toList then some (String.ofList (arg.toList.drop start.length)) else none

/-- An argument that cannot be the value of the option before it. -/
def isOption (arg : String) : Bool :=
  arg.toList.head? = some '-' && arg ≠ "-"

def asksHelp (arg : String) : Bool :=
  arg = "--help" || ['-', 'h'].isPrefixOf arg.toList

def asksVersion (arg : String) : Bool :=
  arg = "--version" || ['-', 'V'].isPrefixOf arg.toList

/-- Reads the options of `echo`; each may be given once. -/
def readEcho (o : EchoOptions) : List String → Invocation
  | [] => o.finish
  | ["--"] => o.finish
  | "--listen" :: v :: args =>
    if isOption v then .wrong
    else match o.setListen v with
      | some o => readEcho o args
      | none => .wrong
  | "--hostname" :: v :: args =>
    if isOption v then .wrong
    else match o.setHostname v with
      | some o => readEcho o args
      | none => .wrong
  | arg :: args =>
    if asksHelp arg then .help .echo
    else
      let o? :=
        if arg = "--nonblocking" then o.setNonblocking
        else match valueOf? "--listen" arg with
          | some v => o.setListen v
          | none => (valueOf? "--hostname" arg).bind o.setHostname
      match o? with
      | some o => readEcho o args
      | none => .wrong

def readWorker : List String → Invocation
  | [] | ["--"] => .run .worker
  | arg :: _ => if asksHelp arg then .help .worker else .wrong

/-- Reads a command line without the program's name. -/
def read : List String → Invocation
  | [] => .wrong
  | "worker" :: args => readWorker args
  | "echo" :: args => readEcho {} args
  | ["help"] => .help .program
  | ["help", "worker"] => .help .worker
  | ["help", "echo"] => .help .echo
  | ["help", "help"] => .help .help
  | arg :: _ =>
    if asksHelp arg then .help .program else if asksVersion arg then .version else .wrong

end Handoff.CommandLine
