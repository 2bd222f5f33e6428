import Handoff.Proofs.Bridge.Retrying
import Handoff.Proofs.Tailnet.Admitting

namespace Handoff.Bridge
open Tailnet (Settings)
variable {b : Bridge Tailnet} {server : Handle} {a : Server}

/-- The server's node has the settings `s`, and it is these that decide whether it starts, under
which name, whether it comes up, what it leaves for later ones and which domains are its. -/
structure Heeds (b : Bridge Tailnet) (server : Handle) (n : NodeId) (s : Settings) : Prop where
  settings : (b.net.node n).settings = s
  start : (b.net.node n).phase = .fresh →
    ∃ r, b.net.StartsAs n s r ∧ b.start server = b.tell server r
  unstarted : ∀ e, (b.start server).1 = .error e → b.up server = b.start server
  up : (b.start server).1 = .ok () →
    ∃ r, (b.start server).2.net.ComesUp n s r ∧ b.up server = b.tell server r
  certDomains : b.net.Runs n →
    Offers (·.certDomains server) id b (s.name ++ "." ++ b.net.suffix) b

theorem offers_certDomains (ha : b.servers.find? server = some a) (hr : b.net.Runs a.node) :
    Offers (·.certDomains server) id b
      ((b.net.node a.node).settings.name ++ "." ++ b.net.suffix) b := by
  intro room
  have hdomains : b.net.certDomains a.node =
      .ok [(b.net.node a.node).settings.name ++ "." ++ b.net.suffix] := if_pos hr
  have hnode : b.withNode server Network.certDomains =
      (.ok [(b.net.node a.node).settings.name ++ "." ++ b.net.suffix], b) :=
    Traffic.withNode_ok ha (congrArg (fun r => (Tailnet.worded r, b.net)) hdomains)
  dsimp only
  rw [certDomains, hnode]
  rfl

theorem heeds_settings (ha : b.servers.find? server = some a) :
    b.Heeds server a.node (b.net.node a.node).settings := by
  have hstart : b.start server = b.tell server (b.net.start a.node) :=
    withNode_tell ha Network.start Tailnet.start fun _ _ => rfl
  have hup : b.up server = b.tell server (b.net.up a.node) :=
    withNode_tell ha Network.up Tailnet.up fun _ _ => rfl
  refine ⟨rfl, fun hf => ⟨_, Tailnet.startsAs_start hf, hstart⟩, fun e he => ?_, fun hok => ?_,
    offers_certDomains ha⟩
  · cases hs : (b.net.start a.node).1 with
    | ok =>
      rw [hstart, tell_ok_iff.mpr hs] at he
      cases he
    | error f => rw [hup, hstart, Tailnet.up_failed hs]
  · have hs : (b.net.start a.node).1 = .ok () := tell_ok_iff.mp (hstart ▸ hok)
    have hsettings : ((b.net.start a.node).2.node a.node).settings =
        (b.net.node a.node).settings := Tailnet.settings_ask b.net a.node (v := .start) nofun
    have hcomes := Tailnet.comesUp_running (Tailnet.runs_start hs)
    rw [hsettings, ← Tailnet.up_start hs] at hcomes
    refine ⟨_, ?_, hup⟩
    rwa [hstart, net_tell]

end Handoff.Bridge
