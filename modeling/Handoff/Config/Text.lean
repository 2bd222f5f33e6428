import Handoff.Config.Basic
import Handoff.Json.Record

namespace Handoff.Config

inductive Field where
  | stateDir
  | hostname
  | authkey
  | controlUrl
  | ephemeral
  deriving DecidableEq

def Field.name : Field → String
  | stateDir => "state_dir"
  | hostname => "hostname"
  | authkey => "authkey"
  | controlUrl => "control_url"
  | ephemeral => "ephemeral"

def Field.kind : Field → Kind
  | ephemeral => .flag
  | _ => .text

def schema : Schema Field where
  name := Field.name
  kind := Field.kind
  order := [.stateDir, .hostname, .authkey, .controlUrl, .ephemeral]
  named i := by cases i <;> rfl

def value (c : Config) : (i : Field) → (schema.kind i).Value
  | .stateDir => c.stateDir
  | .hostname => c.hostname
  | .authkey => c.authkey
  | .controlUrl => c.controlUrl
  | .ephemeral => c.ephemeral

/-- A text that is missing is not written at all. -/
def tells : (k : Kind) → k.Value → Bool
  | .text, v => v.isSome
  | .flag, _ => true

def entries (c : Config) : List schema.Entry :=
  (schema.order.filter fun i => tells (schema.kind i) (c.value i)).map fun i => ⟨i, c.value i⟩

/-- A field that is missing is as in a new configuration. -/
def ofDraft (d : schema.Draft) : Config where
  stateDir := (d .stateDir).join
  hostname := (d .hostname).join
  authkey := (d .authkey).join
  controlUrl := (d .controlUrl).join
  ephemeral := (d .ephemeral).getD false

section Format
variable {ε : Type} (f : Format ε)

def encode (c : Config) : String :=
  f.write schema c.entries

def decode (cs : List Char) : Except ε Config :=
  (f.read schema cs).map ofDraft

end Format

def text (c : Config) : String :=
  c.encode Json.format

def parse (cs : List Char) : Except Json.Fault Config :=
  decode Json.format cs

end Handoff.Config
