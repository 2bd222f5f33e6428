import Handoff.Network

namespace Handoff

/-- What a new server is given before it starts. -/
structure Config where
  stateDir : Option String := none
  hostname : Option String := none
  authkey : Option String := none
  controlUrl : Option String := none
  ephemeral : Bool := false
  deriving DecidableEq

/-- The settings a configuration makes, in order. It never turns `ephemeral` off. -/
def Config.options (c : Config) : List NodeOption :=
  (c.stateDir.map .dir).toList ++ (c.hostname.map .hostname).toList ++
    (c.authkey.map .authkey).toList ++ (c.controlUrl.map .controlUrl).toList ++
    (if c.ephemeral then [.ephemeral true] else [])

end Handoff
