import Handoff.Bridge.Basic
import Handoff.Bridge.Credential

namespace Handoff

/-- A server's local surface, as a caller gets it. -/
structure Loopback where
  address : String
  proxy : Credential
  api : Credential

namespace Bridge
variable {W : Type} [Network W]

/-- A text that has to fit in the caller's buffer. -/
def fitted (capacity : Nat) (r : Outcome W String) : Outcome W String :=
  (r.1.bind fun text => (ensureFits text capacity).map fun _ => text, r.2)

/-- The server's addresses with commas between them. -/
def addresses (b : Bridge W) (server : Handle) (capacity : Nat) : Outcome W String :=
  fitted capacity <|
    (b.withNode server Network.addresses).map
      (·.map fun ips => ",".intercalate (ips.map Address.name)) id

/-- The domains the server can get certificates for, with commas between them. -/
def certDomains (b : Bridge W) (server : Handle) (capacity : Nat) : Outcome W String :=
  fitted capacity <| (b.withNode server Network.certDomains).map (·.map ",".intercalate) id

/-- Both credentials of a node's surface, or what is wrong with the first bad one. -/
def credentials (info : LoopbackInfo) : Except BridgeError Loopback :=
  (Credential.ofToken info.proxyCredential).bind fun proxy =>
    (Credential.ofToken info.apiCredential).map fun api => ⟨info.address, proxy, api⟩

/-- The server's local surface; the address has to fit in `capacity` bytes. -/
def loopback (b : Bridge W) (server : Handle) (capacity : Nat) : Outcome W Loopback :=
  match b.withNode server Network.loopback with
  | (.error e, b) => (.error e, b)
  | (.ok info, b) =>
    match ensureFits info.address capacity with
    | .error e => (.error e, b)
    | .ok () =>
      match credentials info with
      | .error e => b.refuse server e
      | .ok surface => (.ok surface, b)

end Bridge
end Handoff
