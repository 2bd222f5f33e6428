import Handoff.Config.Basic

namespace Handoff

/-- What surrounds the program. -/
structure Environment where
  /-- The values of environment variables. -/
  get? : String → Option String
  /-- The user's directory according to the system. -/
  accountHome : Option String := none

namespace Environment

/-- The user's directory. The variable is believed unless it is empty. -/
def home? (env : Environment) : Option String :=
  ((env.get? "HOME").filter (· ≠ "")) <|> env.accountHome

end Environment

namespace Config

/-- What the environment says goes before what the configuration says. Of the two variables for the
key, the program's own counts. -/
def override (env : Environment) (c : Config) : Config where
  stateDir := env.get? "TSNET_BRIDGE_STATE_DIR" <|> c.stateDir
  hostname := env.get? "TSNET_BRIDGE_HOSTNAME" <|> c.hostname
  authkey := env.get? "TSNET_BRIDGE_AUTHKEY" <|> env.get? "TS_AUTHKEY" <|> c.authkey
  controlUrl := env.get? "TSNET_BRIDGE_CONTROL_URL" <|> c.controlUrl
  ephemeral :=
    match env.get? "TSNET_BRIDGE_EPHEMERAL" with
    | some v => v = "1" ∨ v = "true"
    | none => c.ephemeral

end Config
end Handoff
