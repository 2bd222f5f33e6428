import Handoff.Proofs.Tailnet.Life
import Handoff.Proofs.Traffic.Quiet

namespace Handoff

namespace Tailnet
variable {t : Tailnet}

/-- The verb opens no listener, makes no connection and ends no node. -/
def NodeVerb.isQuiet : NodeVerb → Bool
  | configure _ | start | up | loopback | addresses | certDomains => true
  | dial .. | listen .. | close => false

theorem calm_ask (hw : Wired t) {v : NodeVerb} (hv : v.isQuiet = true) (n : NodeId) :
    Calm t (t.ask n v).2 := by
  cases v with
  | configure option => exact calm_configure hw n option
  | start => exact calm_start hw n
  | up => exact calm_up hw n
  | loopback => exact calm_loopback hw n
  | addresses => exact .refl hw
  | certDomains => exact .refl hw
  | dial _ _ => cases hv
  | listen _ _ _ => cases hv
  | close => cases hv

end Tailnet

def Verb.isAsking : Verb → Bool
  | .start _ | .up _ | .configure .. | .applyConfig .. | .addresses .. | .certDomains ..
  | .loopback .. | .remoteAddress .. | .lastError .. | .listenerReadable _ => true
  | .close _ | .dial .. | .listen .. | .accept _ | .acceptNonblocking _ | .acceptReady _
  | .closeListener _ | .connStream _ | .takeConn _ | .closeConn _ => false

namespace Bridge
open Tailnet (NodeVerb)

section Asking
variable {α : Type} {b b₁ : Bridge Tailnet}

/-- Nothing but that nodes are asked for something and that failures are noted. -/
inductive Asks (b : Bridge Tailnet) : Bridge Tailnet → Prop where
  | nothing : Asks b b
  | asked {b₁ : Bridge Tailnet} (n : NodeId) (v : NodeVerb) : v.isQuiet = true → Asks b b₁ →
    Asks b { b₁ with net := (b₁.net.ask n v).2 }
  | noted {b₁ : Bridge Tailnet} (server : Handle) (text : String) : Asks b b₁ →
    Asks b (b₁.record server text)

theorem Asks.trans {b₂ : Bridge Tailnet} (h : Asks b b₁) (h' : Asks b₁ b₂) : Asks b b₂ := by
  induction h' with
  | nothing => exact h
  | asked n v hv _ ih => exact ih.asked n v hv
  | noted server text _ ih => exact ih.noted server text

theorem asks_refuse (b : Bridge Tailnet) (server : Handle) (e : BridgeError) :
    Asks b (b.refuse (α := α) server e).2 := by
  unfold refuse
  split
  · exact .noted server _ .nothing
  · exact .noted server _ .nothing
  · exact .nothing

theorem asks_withNode (b : Bridge Tailnet) (server : Handle)
    (op : NodeId → Tailnet → Except Failure α × Tailnet) {v : NodeVerb} (hv : v.isQuiet = true)
    (hop : ∀ n t, (op n t).2 = (Tailnet.ask t n v).2) : Asks b (b.withNode server op).2 := by
  rcases Traffic.withNode_cases b server op with
    ⟨e, he⟩ | ⟨s, -, ⟨f, net, hs, he⟩ | ⟨a, net, hs, he⟩⟩
  · rw [he]
    exact .nothing
  · have hnet : net = (b.net.ask s.node v).2 := by rw [← hop, hs]
    rw [he, hnet]
    exact .noted server f.message (.asked s.node v hv .nothing)
  · have hnet : net = (b.net.ask s.node v).2 := by rw [← hop, hs]
    rw [he, hnet]
    exact .asked s.node v hv .nothing

theorem asks_start (b : Bridge Tailnet) (server : Handle) : Asks b (b.start server).2 :=
  b.asks_withNode server Network.start (v := .start) rfl fun _ _ => rfl

theorem asks_up (b : Bridge Tailnet) (server : Handle) : Asks b (b.up server).2 :=
  b.asks_withNode server Network.up (v := .up) rfl fun _ _ => rfl

theorem asks_configure (b : Bridge Tailnet) (server : Handle) (option : NodeOption) :
    Asks b (b.configure server option).2 :=
  b.asks_withNode server (fun n => Network.configure n option) (v := .configure option) rfl
    fun _ _ => rfl

theorem asks_addresses (b : Bridge Tailnet) (server : Handle) (capacity : Nat) :
    Asks b (b.addresses server capacity).2 :=
  b.asks_withNode server Network.addresses (v := .addresses) rfl fun _ _ => rfl

theorem asks_certDomains (b : Bridge Tailnet) (server : Handle) (capacity : Nat) :
    Asks b (b.certDomains server capacity).2 :=
  b.asks_withNode server Network.certDomains (v := .certDomains) rfl fun _ _ => rfl

theorem asks_configureAll (b : Bridge Tailnet) (server : Handle) (options : List NodeOption) :
    Asks b (b.configureAll server options).2 := by
  induction options generalizing b with
  | nil => exact .nothing
  | cons option options ih =>
    have hone := b.asks_configure server option
    unfold configureAll
    revert hone
    generalize b.configure server option = r
    obtain ⟨r, b₁⟩ := r
    intro hone
    cases r with
    | error e => exact hone
    | ok => exact hone.trans (ih b₁)

theorem asks_loopback (b : Bridge Tailnet) (server : Handle) (capacity : Nat) :
    Asks b (b.loopback server capacity).2 := by
  have hnode := b.asks_withNode server Network.loopback (v := .loopback) rfl
    fun _ _ => rfl
  unfold loopback
  revert hnode
  generalize b.withNode server Network.loopback = r
  obtain ⟨r, b₁⟩ := r
  intro hnode
  cases r with
  | error e => exact hnode
  | ok info =>
    dsimp only
    split
    · exact hnode
    · split
      · exact hnode.trans (b₁.asks_refuse server _)
      · exact hnode

/-- Of whoever dialed a connection the network is asked as well, which changes nothing there. -/
theorem asks_remoteAddress (b : Bridge Tailnet) (listener conn : Handle) (capacity : Nat) :
    Asks b (b.remoteAddress listener conn capacity).2 := by
  unfold remoteAddress
  cases b.listeners.get listener with
  | error e => exact .nothing
  | ok entry =>
    cases b.conns.get conn with
    | error e => exact .nothing
    | ok c =>
      dsimp only
      split
      · exact b.asks_refuse _ _
      · split
        · rename_i f net hr
          obtain rfl : b.net = net := congrArg Prod.snd hr
          exact .noted entry.server f.message .nothing
        · rename_i endpoint net hr
          obtain rfl : b.net = net := congrArg Prod.snd hr
          exact .nothing

theorem asks_perform (b : Bridge Tailnet) {v : Verb} (hv : v.isAsking = true) :
    Asks b (b.perform v).2 := by
  cases v with
  | start server => exact b.asks_start server
  | up server => exact b.asks_up server
  | configure server option => exact b.asks_configure server option
  | applyConfig server config => exact b.asks_configureAll server config.options
  | addresses server capacity => exact b.asks_addresses server capacity
  | certDomains server capacity => exact b.asks_certDomains server capacity
  | loopback server capacity => exact b.asks_loopback server capacity
  | remoteAddress l conn capacity => exact b.asks_remoteAddress l conn capacity
  | lastError _ _ => exact .nothing
  | listenerReadable _ => exact .nothing
  | _ => cases hv

end Asking

section Taking
variable {W : Type} [Network W] {b : Bridge W}

/-- Nothing but that connections are taken off channels, and that calls which waited there end. -/
inductive Takes (b : Bridge W) : Bridge W → Prop where
  | nothing : Takes b b
  | next {b₁ : Bridge W} (place : Waiting) : Takes b b₁ → Takes b (b₁.takeNext place).2
  | letGo {b₁ : Bridge W} (k : FeedId) : Takes b b₁ → Takes b (b₁.letGo k)

theorem takes_acceptNonblocking {b₁ : Bridge W} (h : Takes b b₁) (l : Handle) :
    Takes b (b₁.acceptNonblocking l).2 := by
  unfold acceptNonblocking
  split
  · exact h
  · exact h.next _

theorem takes_resumeAccept {b₁ : Bridge W} (h : Takes b b₁) (place : Waiting) :
    Takes b (b₁.resumeAccept place).2 := by
  unfold resumeAccept
  split
  · exact h.next place
  · exact h

theorem takes_accept (b : Bridge W) (l : Handle) : Takes b (b.accept l).2 := by
  unfold accept
  split
  · exact .nothing
  · exact takes_resumeAccept .nothing _

theorem takes_resumeAcceptReady {b₁ : Bridge W} (h : Takes b b₁) (place : Waiting) :
    Takes b (b₁.resumeAcceptReady place).2 := by
  have hnext := takes_acceptNonblocking h place.listener
  unfold resumeAcceptReady
  split
  · split
    · rename_i b₂ hr
      rwa [hr] at hnext
    · rename_i r b₂ _ hr
      rwa [hr] at hnext
  · exact h

theorem takes_acceptReady (b : Bridge W) (l : Handle) : Takes b (b.acceptReady l).2 := by
  have hnext := takes_acceptNonblocking (b := b) .nothing l
  unfold acceptReady
  split
  · rename_i b₁ hr
    rw [hr] at hnext
    split
    · exact hnext
    · exact takes_resumeAcceptReady hnext _
  · rename_i r b₁ _ hr
    rwa [hr] at hnext

theorem takes_resume (b : Bridge W) (ready : Bool) (place : Waiting) :
    Takes b (b.resume ready place).2 :=
  resume_of (P := fun _ b' => Takes b b') (takes_resumeAcceptReady .nothing place)
    (takes_resumeAccept .nothing place) (fun _ _ h => h.letGo place.feed) ready

end Taking
end Bridge

theorem Traffic.quiet_asks {b b' : Bridge Tailnet} (hw : b.net.Wired) (ha : b.Asks b') :
    Quiet b b' := by
  induction ha with
  | nothing => exact .refl hw
  | asked n v hv _ ih => exact ih.trans ⟨Tailnet.calm_ask ih.calm.wired hv n, .refl _⟩
  | noted server text _ ih => exact ih.trans (quiet_record ih.calm.wired server text)

end Handoff
