import Handoff.Config.Overrides
import Handoff.Config.Text
import Handoff.Files

namespace Handoff.Config

def fileName : String := "config.json"

/-- Why a configuration cannot be loaded or saved. -/
inductive StoreFault where
  | notFound (path : String)
  | unreadable (path reason : String)
  | unparsable (path : String) (cause : Json.Fault)
  | unwritable (path : String) (cause : SystemError)
  /-- Nothing says where it is kept. -/
  | nowhere
  | noDirectory (path : String) (cause : SystemError)
  deriving DecidableEq

def StoreFault.toFailure : StoreFault → Failure
  | notFound path => ⟨s!"Config file not found: {path}", []⟩
  | unreadable path reason => ⟨s!"read {path}", [reason]⟩
  | unparsable path _ => ⟨s!"parse {path}", []⟩
  | unwritable path cause => ⟨s!"write {path}", [cause.message]⟩
  | nowhere => ⟨"Could not determine config directory", []⟩
  | noDirectory path cause => ⟨s!"create config dir {path}", [cause.message]⟩

def loadFrom (fs : Files) (dir : String) : Except StoreFault Config :=
  let path := Path.join dir fileName
  if !fs.exists? path then .error (.notFound path)
  else match fs.read path with
    | .error e => .error (.unreadable path e.message)
    | .ok bytes =>
      match Text.ofUtf8? bytes with
      | none => .error (.unreadable path "stream did not contain valid UTF-8")
      | some s => (parse s.toList).mapError (.unparsable path)

/-- Writes the file so that only its owner can read it: there may be a key in it. -/
def saveTo (c : Config) (fs : Files) (dir : String) : Except StoreFault Files :=
  let path := Path.join dir fileName
  match fs.write path (Text.utf8 c.text) with
  | .error e => .error (.unwritable path e)
  | .ok fs => (fs.setMode path 0o600).mapError (.unwritable path)

/-- Where a user's programs keep their settings. -/
def userDirectory (env : Environment) : Option String :=
  ((env.get? "XDG_CONFIG_HOME").filter Path.isAbsolute) <|>
    env.home?.map fun home => Path.join home ".config"

/-- Where the configuration is kept. -/
def directoryPath (env : Environment) : Option String :=
  match env.get? "TSNET_BRIDGE_CONFIG_DIR" with
  | some dir => some dir
  | none => (userDirectory env).map fun dir => Path.join dir "tsnet-bridge"

/-- The directory the configuration is kept in, which is there afterwards. -/
def directory (env : Environment) (fs : Files) : Except StoreFault String × Files :=
  match directoryPath env with
  | none => (.error .nowhere, fs)
  | some dir =>
    match fs.makeDirectories dir with
    | (.error e, fs) => (.error (.noDirectory dir e), fs)
    | (.ok (), fs) => (.ok dir, fs)

/-- The saved configuration, or a new one if there is none that can be read, under what the
environment says. -/
def load (env : Environment) (fs : Files) : Except StoreFault Config × Files :=
  match directory env fs with
  | (.error f, fs) => (.error f, fs)
  | (.ok dir, fs) =>
    let saved := match loadFrom fs dir with
      | .ok c => c
      | .error _ => {}
    (.ok (saved.override env), fs)

def save (c : Config) (env : Environment) (fs : Files) : Except StoreFault Unit × Files :=
  match directory env fs with
  | (.error f, fs) => (.error f, fs)
  | (.ok dir, fs) =>
    match c.saveTo fs dir with
    | .error f => (.error f, fs)
    | .ok fs => (.ok (), fs)

end Handoff.Config
