import Handoff.Error
import Handoff.SystemError

namespace Handoff

/-- Payload bytes that are not yet read, with the descriptors that come with the first of them. -/
structure Message (δ : Type) where
  payload : Nat
  descriptors : List δ := []
  deriving DecidableEq

/-- Why a receive produced no descriptor. -/
inductive RecvError where
  | wouldBlock
  | connectionReset
  | fatal (detail : String)
  deriving DecidableEq

namespace RecvError

def message : RecvError → String
  | wouldBlock => "no descriptor pending"
  | connectionReset => "descriptor channel closed by sender"
  | fatal detail => s!"descriptor receive failed: {detail}"

def truncated : RecvError :=
  fatal "ancillary data truncated; descriptor lost"

def noDescriptor (bytes : Nat) : RecvError :=
  fatal s!"message of {bytes} byte(s) carried no descriptor"

def toBridgeError : RecvError → BridgeError
  | wouldBlock => .wouldBlock
  | connectionReset => .connectionReset
  | fatal detail => .fatal detail

end RecvError

/-- A byte stream that carries descriptors beside its bytes, from one sender to one receiver. -/
structure Channel (δ : Type) where
  queue : List (Message δ) := []
  senderOpen : Bool := true
  /-- The receiver has neither been shut down nor dropped. -/
  receiverOpen : Bool := true

/-- What one receive leaves behind. -/
structure Receipt (δ : Type) where
  result : Except RecvError δ
  /-- Descriptors that arrived and were dropped. -/
  dropped : List δ
  channel : Channel δ

namespace Channel
variable {δ : Type}

/-- Payload bytes one receive takes at most. -/
def payloadRoom : Nat := 256

/-- Descriptors one receive has room for. -/
def descriptorRoom : Nat := 60

/-- Descriptors one message may hold at most. -/
def messageRoom : Nat := 253

/-- Messages that may wait before a sender is held up. -/
def queueRoom : Nat := 278

def isFull (c : Channel δ) : Bool :=
  queueRoom ≤ c.queue.length

/-- Sends one message. Without payload nothing travels, its descriptors included. -/
def sendMessage (c : Channel δ) (m : Message δ) : Except SystemError (Channel δ) :=
  if messageRoom < m.descriptors.length then .error .invalidArgument
  else if !c.receiverOpen then .error .brokenPipe
  else if m.payload = 0 then .ok c
  else .ok { c with queue := c.queue ++ [m] }

/-- Sends one descriptor with a marker byte, which carries no meaning. -/
def send (c : Channel δ) (d : δ) : Except SystemError (Channel δ) :=
  c.sendMessage ⟨1, [d]⟩

/-- Takes up to `room` payload bytes, and stops after the message that carries descriptors: how
many bytes, which descriptors, and what stays queued. -/
def gather : List (Message δ) → (room : Nat) → Nat × List δ × List (Message δ)
  | [], _ => (0, [], [])
  | m :: ms, room =>
    if room = 0 then (0, [], m :: ms)
    else if room < m.payload then
      (room, m.descriptors, { payload := m.payload - room } :: ms)
    else if m.descriptors.isEmpty then
      let (bytes, ds, rest) := gather ms (room - m.payload)
      (m.payload + bytes, ds, rest)
    else (m.payload, m.descriptors, ms)

/-- One receive: the first descriptor of what was gathered. -/
def receive (c : Channel δ) : Receipt δ :=
  if c.queue.isEmpty then
    ⟨.error (if c.senderOpen && c.receiverOpen then .wouldBlock else .connectionReset), [], c⟩
  else
    let (bytes, ds, rest) := gather c.queue payloadRoom
    let c' := { c with queue := rest }
    if descriptorRoom < ds.length then ⟨.error .truncated, ds, c'⟩
    else match ds with
      | [] => ⟨.error (.noDescriptor bytes), [], c'⟩
      | d :: extra => ⟨.ok d, extra, c'⟩

/-- A poll of the receiving end would report it readable. -/
def isReadable (c : Channel δ) : Bool :=
  !c.queue.isEmpty || !c.senderOpen || !c.receiverOpen

/-- Closes the receiving end for both directions; what is queued can still be received. -/
def shutdown (c : Channel δ) : Channel δ :=
  { c with receiverOpen := false }

def dropSender (c : Channel δ) : Channel δ :=
  { c with senderOpen := false }

/-- The descriptors under way, in order. -/
def pending (c : Channel δ) : List δ :=
  c.queue.flatMap (·.descriptors)

/-- Closes the receiving end for good: nothing queued can be received any more. -/
def dropReceiver (c : Channel δ) : Channel δ :=
  { c with receiverOpen := false, queue := [] }

end Channel
end Handoff
