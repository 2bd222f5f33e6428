import Handoff.Net.Address

namespace Handoff

abbrev Port := UInt16

/-- An address and a port at it. -/
structure Endpoint where
  ip : Address
  port : Port
  deriving DecidableEq

namespace Endpoint

/-- An address of eight groups stands in brackets, so that its colons end before the port's. -/
def text (e : Endpoint) : List Char :=
  (match e.ip with
    | .v4 ip => ip.text
    | .v6 ip => '[' :: ip.text ++ [']']) ++ ':' :: Nat.toDigits 10 e.port.toNat

def name (e : Endpoint) : String :=
  String.ofList e.text

end Endpoint
end Handoff
