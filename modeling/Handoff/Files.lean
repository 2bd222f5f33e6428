import Handoff.Mapping
import Handoff.SystemError
import Handoff.Text.Utf8

namespace Handoff

namespace Path

def isAbsolute (path : String) : Bool :=
  path.toList.head? = some '/'

/-- `name` seen from the directory `dir`. -/
def join (dir name : String) : String :=
  if isAbsolute name then name
  else if dir = "" ∨ dir.toList.getLast? = some '/' then dir ++ name
  else dir ++ "/" ++ name

/-- The names along a path; an empty one stands for the place reached so far. -/
def names (path : String) : List String :=
  (path.toList.splitOn '/').map String.ofList

/-- The names along a path without the slashes after the last one. -/
def namesToLast (path : String) : List String :=
  ((names path).reverse.dropWhile (· = "")).reverse

/-- The names along a path that move to another place. -/
def moves (path : String) : List String :=
  (names path).filter fun name => name ≠ "" ∧ name ≠ "."

/-- A slash after the last name says that it is the name of a directory. -/
def namesDirectory (path : String) : Bool :=
  path.toList.getLast? = some '/' &&
    ((namesToLast path).getLast?.any fun name => name ≠ "" && name ≠ "." && name ≠ "..")

end Path

/-- The names from the root down to something. -/
abbrev Place := List String

namespace Place

/-- Where relative paths start. No path from the root leads to it. -/
def working : Place := ["."]

/-- Where the names along a path start. -/
def start (path : String) : Place :=
  if Path.isAbsolute path then [] else working

end Place

inductive Entry where
  | directory
  | file (content : List UInt8) (mode : Nat)
  /-- Swallows what is written and holds nothing. -/
  | sink
  deriving DecidableEq

/-- What is at each place. -/
structure Files where
  entry : Place → Option Entry

namespace Files

/-- The permissions of a new file. -/
def defaultMode : Nat := 0o644

/-- The directories below the root that every system has. -/
def systemDirectories : List String :=
  ["bin", "dev", "etc", "home", "lib", "proc", "root", "run", "sbin", "sys", "tmp", "usr", "var"]

def root : Files where
  entry
    | [] => some .directory
    | [name] => if name ∈ systemDirectories ∨ [name] = Place.working then some .directory else none
    | ["dev", "null"] => some .sink
    | _ => none

/-- Bytes of the longest name. -/
def nameRoom : Nat := 255

/-- Follows names from a place; every place passed has to be a directory. -/
def walk (fs : Files) : (place : Place) → (names : List String) → Except SystemError Place
  | place, [] => .ok place
  | place, name :: names =>
    match fs.entry place with
    | none => .error .noEntry
    | some .directory =>
      if name = "" ∨ name = "." then fs.walk place names
      else if name = ".." then fs.walk place.dropLast names
      else if nameRoom < name.utf8ByteSize then .error .nameTooLong
      else fs.walk (place ++ [name]) names
    | some _ => .error .notDirectory

/-- Bytes of the longest path, with the terminator after it. -/
def pathRoom : Nat := 4096

/-- What the text of a path is refused for, whatever files there are. -/
def pathFault (path : String) : Option SystemError :=
  if path.toList.contains '\x00' then some .nulInName
  else if pathRoom ≤ path.utf8ByteSize then some .nameTooLong
  else none

/-- The place a path leads to. The place itself may be free; the directory it is in exists. -/
def locate (fs : Files) (path : String) : Except SystemError Place :=
  match pathFault path with
  | some e => .error e
  | none =>
    if path = "" then .error .noEntry else fs.walk (.start path) (Path.names path)

/-- The place of a file that may be missing. Where the path says that it names a directory, the
directory around it is still looked for first. -/
def locateFile (fs : Files) (path : String) : Except SystemError Place :=
  if (pathFault path).isNone && Path.namesDirectory path then
    (fs.walk (.start path) ((Path.namesToLast path).dropLast ++ [""])).bind fun _ =>
      .error .isDirectory
  else fs.locate path

def find (fs : Files) (path : String) : Except SystemError Entry :=
  (fs.locate path).bind fun place =>
    match fs.entry place with
    | some e => .ok e
    | none => .error .noEntry

def exists? (fs : Files) (path : String) : Bool :=
  (fs.find path).isOk

def isDirectory (fs : Files) (path : String) : Bool :=
  match fs.find path with
  | .ok .directory => true
  | _ => false

def mode? (fs : Files) (path : String) : Option Nat :=
  match fs.find path with
  | .ok (.file _ mode) => some mode
  | _ => none

def put (fs : Files) (place : Place) (e : Entry) : Files :=
  ⟨assign fs.entry place (some e)⟩

def read (fs : Files) (path : String) : Except SystemError (List UInt8) :=
  (fs.find path).bind fun
    | .directory => .error .isDirectory
    | .file content _ => .ok content
    | .sink => .ok []

/-- Opens a file for writing, creates it if it is missing, and replaces its content by `f` of it. -/
def update (fs : Files) (path : String) (f : List UInt8 → List UInt8) :
    Except SystemError Files :=
  (fs.locateFile path).bind fun place =>
    match fs.entry place with
    | none => .ok (fs.put place (.file (f []) defaultMode))
    | some (.file content mode) => .ok (fs.put place (.file (f content) mode))
    | some .directory => .error .isDirectory
    | some .sink => .ok fs

def write (fs : Files) (path : String) (content : List UInt8) : Except SystemError Files :=
  fs.update path fun _ => content

def append (fs : Files) (path : String) (bytes : List UInt8) : Except SystemError Files :=
  fs.update path (· ++ bytes)

def setMode (fs : Files) (path : String) (mode : Nat) : Except SystemError Files :=
  (fs.locate path).bind fun place =>
    match fs.entry place with
    | none => .error .noEntry
    | some (.file content _) => .ok (fs.put place (.file content mode))
    | some _ => .ok fs

/-- Makes a directory unless there is one. -/
def makeDirectory (fs : Files) (start : Place) (names : List String) : Except SystemError Files :=
  (fs.walk start names).bind fun place =>
    match fs.entry place with
    | none => .ok (fs.put place .directory)
    | some .directory => .ok fs
    | some _ => .error .entryExists

/-- Makes the first directory of the chain, after the ones above it where they are missing. What
was made before a failure stays. -/
def makeChain (fs : Files) (start : Place) : List (List String) → Except SystemError Unit × Files
  | [] => (.ok (), fs)
  | names :: above =>
    match fs.makeDirectory start names with
    | .ok fs => (.ok (), fs)
    | .error .noEntry =>
      match fs.makeChain start above with
      | (.error e, fs) => (.error e, fs)
      | (.ok (), fs) =>
        match fs.makeDirectory start names with
        | .ok fs => (.ok (), fs)
        | .error e => (.error e, fs)
    | .error e => (.error e, fs)

/-- The names that lead to what a path names, then those that lead to each directory above it,
innermost first. -/
def chain (path : String) : List (List String) :=
  let names := Path.moves path
  Path.namesToLast path :: ((List.range names.length).drop 1).reverse.map names.take

/-- Makes a directory with those above it. The path is taken as it is written: one that ends in a
dot ends in a place that has to be there already. -/
def makeDirectories (fs : Files) (path : String) : Except SystemError Unit × Files :=
  if path = "" then (.ok (), fs)
  else match pathFault path with
  | some e => (.error e, fs)
  | none => fs.makeChain (.start path) (chain path)

end Files
end Handoff
