import Handoff.Tailnet.Dialing
import Handoff.Tailnet.Listening
import Handoff.Tailnet.Surface

namespace Handoff.Tailnet

/-- A result with its fault worded. -/
def worded {α : Type} (r : Except Fault α) : Except Failure α :=
  r.mapError Fault.toFailure

instance : Network Tailnet where
  streams t := t.streams
  withStreams t streams := { t with streams }
  files t := t.files
  withFiles t files := { t with files }
  newNode := newNode
  configure n option t := (t.configure n option).map worded id
  start n t := (t.start n).map worded id
  up n t := (t.up n).map worded id
  close n t := (t.close n).map worded id
  dial n network address t := (t.dial n network address).map worded id
  listen n network address funnel t := (t.listen n network address funnel).map worded id
  addresses n t := (worded (t.addresses n), t)
  certDomains n t := (worded (t.certDomains n), t)
  loopback n t := (t.loopback n).map worded id
  acceptStep := acceptStep
  arrivals l t := (t.listener l).backlog.length
  remoteAddress _ d t := (worded (t.remoteAddress ((t.streams.peerAddress d).map some)), t)
  closeListener l t := t.closeListener l
  releaseListener l t := t.releaseListener l
  releaseNode := releaseNode

end Handoff.Tailnet
