import Handoff.Fleet.Basic

namespace Handoff.Fleet

/-- What is done with the files of the system. -/
inductive FileUse where
  | makeDirectory (path : String)
  | write (path : String) (content : List UInt8)
  | read (path : String)
  | exists? (path : String)

/-- One thing that the program does with its bridges and sessions. -/
inductive Step where
  | newServer (bridge : Nat)
  | servers (bridge : Nat)
  | listenersOf (bridge : Nat) (server : Handle)
  | debug (bridge : Nat)
  | dropBridge (bridge : Nat)
  | perform (bridge : Nat) (verb : Verb)
  /-- The status of an operation alone. -/
  | statusOf (bridge : Nat) (verb : Verb)
  /-- Opens the log file, then hands it to a server. -/
  | setLog (bridge : Nat) (server : Handle) (path : Option String)
  | lastErrorInto (bridge : Nat) (server : Handle) (capacity : Nat)
  /-- Waits in `verb` while something else is done. -/
  | during (bridge : Nat) (verb : Verb) (other : Step)
  | use (bridge : Nat) (conn : Handle) (u : StreamUse)
  | take (bridge : Nat) (conn : Handle)
  | useTaken (i : Nat) (u : StreamUse)
  | dropTaken (i : Nat)
  | file (u : FileUse)
  | spawn (config : Option Config)
  | call (client : Nat) (c : Control.Call)
  | dropClient (client : Nat)

/-- The bridges a step is done with. -/
def Step.bridges : Step → List Nat
  | during i _ other => i :: other.bridges
  | newServer i | servers i | listenersOf i _ | debug i | dropBridge i | perform i _ | statusOf i _
  | setLog i _ _ | lastErrorInto i _ _ | use i _ _ | take i _ => [i]
  | useTaken .. | dropTaken _ | file _ | spawn _ | call .. | dropClient _ => []

inductive Answer where
  | done
  | handle (h : Handle)
  | handles (hs : List Handle)
  | text (s : String)
  | flag (b : Bool)
  | status (s : Status)
  | copied (s : Status) (buffer : List UInt8)
  /-- A local surface and its number. -/
  | surface (l : Loopback) (number : Nat)
  | wrote (n : Nat)
  | bytes (bs : List UInt8)
  | taken (i : Nat)
  | client (i : Nat)
  /-- What a client's call gave, and whether its session is still open. -/
  | called (result : Except BridgeError Control.Reply) (isOpen : Bool)
  | found (isThere isDirectory : Bool)
  | both (other accept : Answer)
  /-- Nothing yet. -/
  | pending
  | refused (e : BridgeError)
  | failed (e : SystemError)
  /-- A stream ended too soon. -/
  | short
  /-- There is no such bridge, client or descriptor. -/
  | unknown

variable {W : Type} [Network W]

def ofStream (f : Fleet W) : StreamResult → Answer × Fleet W
  | .done => (.done, f)
  | .wrote n => (.wrote n, f)
  | .bytes bs => (.bytes bs, f)
  | .failed e => (.failed e, f)
  | .short => (.short, f)
  | .waits => (.pending, f)

def ofReply (f : Fleet W) : Reply → Answer × Fleet W
  | .done => (.done, f)
  | .handle h => (.handle h, f)
  | .text s => (.text s, f)
  | .flag b => (.flag b, f)
  | .descriptor d =>
    (.taken f.taken.length, { f with taken := f.taken ++ [some d] })
  | .surface l =>
    let (n, f) := f.numberSurface l
    (.surface l n, f)

def ofReaction (f : Fleet W) : Reaction → Answer × Fleet W
  | .ends (.ok r) => f.ofReply r
  | .ends (.error e) => (.refused e, f)
  | .waits _ => (.pending, f)

/-- Does something with a bridge. -/
def withBridge {α : Type} (f : Fleet W) (i : Nat) (op : Bridge W → α × Bridge W) : α × Fleet W :=
  let (a, b) := op (f.bridge i)
  (a, f.setBridge i b)

def fileResult (f : Fleet W) : Except SystemError Files → Answer × Fleet W
  | .ok fs => (.done, { f with net := Network.withFiles f.net fs })
  | .error e => (.failed e, f)

def useFile (f : Fleet W) : FileUse → Answer × Fleet W
  | .makeDirectory path =>
    let (r, fs) := (Network.files f.net).makeDirectories path
    let f := { f with net := Network.withFiles f.net fs }
    match r with
    | .ok () => (.done, f)
    | .error e => (.failed e, f)
  | .write path content => f.fileResult ((Network.files f.net).write path content)
  | .read path =>
    match (Network.files f.net).read path with
    | .ok bytes => (.bytes bytes, f)
    | .error e => (.failed e, f)
  | .exists? path =>
    let fs := Network.files f.net
    (.found (fs.exists? path) (fs.isDirectory path), f)

/-- Performs an operation on a bridge; one that has to wait is left waiting. -/
def react (f : Fleet W) (i : Nat) (verb : Verb) : Reaction × Fleet W :=
  f.withBridge i (·.perform verb)

/-- Goes on with an accept that waited while other things were done. -/
def resume (f : Fleet W) (i : Nat) (verb : Verb) (place : Waiting) : Answer × Fleet W :=
  let ready := match verb with
    | .acceptReady _ => true
    | _ => false
  let (a, f) := f.withBridge i (·.resume ready place)
  f.ofReaction a.reaction

/-- Hands a log file to a server. -/
def configureLog (f : Fleet W) (i : Nat) (server : Handle) (path : Option String) :
    Answer × Fleet W :=
  let (r, f) := f.react i (.configure server (.logFile path))
  f.ofReaction r

/-- The descriptor with this number, if it was not dropped. -/
def taken? (f : Fleet W) (i : Nat) : Option Descriptor :=
  (f.taken[i]?).join

def useTaken (f : Fleet W) (i : Nat) (u : StreamUse) : Answer × Fleet W :=
  match f.taken? i with
  | none => (.unknown, f)
  | some d =>
    let (r, f) := f.useStream d u
    f.ofStream r

def dropTaken (f : Fleet W) (i : Nat) : Answer × Fleet W :=
  match f.taken? i with
  | none => (.unknown, f)
  | some d =>
    (.done, { f with
      net := Network.withStreams f.net ((Network.streams f.net).close d)
      taken := f.taken.set i none })

/-- Uses a connection through a copy of its descriptor, and closes the copy. -/
def useConn (f : Fleet W) (i : Nat) (conn : Handle) (u : StreamUse) : Answer × Fleet W :=
  match f.react i (.connStream conn) with
  | (.ends (.ok (.descriptor d)), f) =>
    let (r, f) := f.useStream d u
    { f with net := Network.withStreams f.net ((Network.streams f.net).close d) }.ofStream r
  | (r, f) => f.ofReaction r

def endClient (f : Fleet W) (i : Nat) : Answer × Fleet W :=
  match f.client i with
  | none => (.unknown, f)
  | some _ => (.done, f.dropClient i)

/-- Does one step, before anything follows from it by itself. Its bridges are there. -/
def act (f : Fleet W) : Step → Answer × Fleet W
  | .newServer i => f.withBridge i fun b => b.newServer.map .handle id
  | .servers i => (.handles (f.bridge i).serverHandles, f)
  | .listenersOf i s => (.handles ((f.bridge i).listenersOf s), f)
  | .debug i => (.text (f.bridge i).debug, f)
  | .dropBridge i => (.done, f.dropBridge i)
  | .perform i verb =>
    let (r, f) := f.react i verb
    f.ofReaction r
  | .statusOf i verb =>
    match f.react i verb with
    | (.ends r, f) => (.status (Handoff.statusOf r), f)
    | (.waits _, f) => (.pending, f)
  | .setLog i s none => f.configureLog i s none
  | .setLog i s (some path) =>
    match (Network.files f.net).append path [] with
    | .error e => (.failed e, f)
    | .ok fs => { f with net := Network.withFiles f.net fs }.configureLog i s (some path)
  | .lastErrorInto i s capacity =>
    let (status, buffer) := (f.bridge i).lastErrorInto s (List.replicate capacity 0xFF)
    (.copied status buffer, f)
  | .during i verb other =>
    match f.react i verb with
    | (.ends r, f) =>
      let (accept, f) := f.ofReaction (.ends r)
      let (a, f) := f.act other
      (.both a accept, f)
    | (.waits place, f) =>
      let (a, f) := (f.setBridge i ((f.bridge i).keep (.waits place))).act other
      let (accept, f) := f.settle.resume i verb place
      (.both a accept, f)
  | .use i c u => f.useConn i c u
  | .take i c =>
    let (r, f) := f.react i (.takeConn c)
    f.ofReaction r
  | .useTaken i u => f.useTaken i u
  | .dropTaken i => f.dropTaken i
  | .file u => f.useFile u
  | .spawn config =>
    let (i, f) := f.spawn config
    (.client i, f)
  | .call i c =>
    match f.call i c with
    | (none, f) => (.unknown, f)
    | (some (r, isOpen), f) => (.called r isOpen, f)
  | .dropClient i => f.endClient i

/-- Does one step and all that follows from it. -/
def step (f : Fleet W) (s : Step) : Answer × Fleet W :=
  if s.bridges.all f.hasBridge then
    let (a, f) := f.act s
    (a, f.settle)
  else (.unknown, f)

def run (f : Fleet W) : List Step → List Answer × Fleet W
  | [] => ([], f)
  | s :: steps =>
    let (a, f) := f.step s
    let (as, f) := f.run steps
    (a :: as, f)

end Handoff.Fleet
