import Handoff.Fleet.Step
import Handoff.Main
import Handoff.Proofs.Bridge.LastError
import Handoff.Proofs.Bridge.Stale
import Handoff.Proofs.Control.Conversation
import Handoff.Proofs.Control.Loop
import Handoff.Proofs.Custody.Naming
import Handoff.Proofs.Custody.Peers
import Handoff.Proofs.Custody.Readiness
import Handoff.Proofs.Descriptor.History
import Handoff.Proofs.Handle.Recycling
import Handoff.Proofs.Handle.Search
import Handoff.Proofs.Race.Closed
import Handoff.Proofs.Race.Overlap
import Handoff.Proofs.Tailnet.Life
import Handoff.Proofs.Traffic.Delivery
import Handoff.Proofs.Traffic.Reaching
import Handoff.Proofs.Traffic.Routing
import Handoff.Proofs.Wire.Grammar
import Handoff.Script.Basic
import Handoff.Tailnet.Accepting
import Handoff.Proofs.Error.Retrieval
import Handoff.Proofs.Control.Texts
import Handoff.Proofs.Control.Snapshots
import Handoff.Proofs.Tailnet.Listening
import Handoff.Proofs.Custody.Listening
import Handoff.Proofs.Custody.Retrying
import Handoff.Proofs.Custody.Numbering
import Handoff.Proofs.Custody.Configuring
import Handoff.Proofs.Config.Storing
import Handoff.Proofs.Custody.Departing
import Handoff.Proofs.Custody.Persisting
import Handoff.Proofs.Custody.Abandoning
import Handoff.Proofs.Custody.Addressing
