import Handoff.Descriptor.Channel
import Handoff.Network

namespace Handoff

/-- What the mover of connections from a listener to its channel is at. -/
inductive Pump where
  | accepting (phase : AcceptPhase)
  /-- It has a connection to hand over. -/
  | holding (d : Descriptor)
  /-- Nobody receives any more; it is about to close the listener. -/
  | leaving
  | done
  deriving DecidableEq

/-- The way connections take from a listener to whoever accepts them. -/
structure Feed where
  listener : ListenerId
  channel : Channel Descriptor := {}
  pump : Pump := .accepting .entering

namespace Feed
variable {W : Type} [Network W]

/-- The pump ends, and with it the sending side of the channel. -/
def finish (f : Feed) : Feed :=
  { f with pump := .done, channel := f.channel.dropSender }

/-- Hands over `d`, for which the channel has to have room. The copy in the channel takes the place
of the pump's own. -/
def deliver (f : Feed) (d : Descriptor) (w : W) : Option (Feed × W) :=
  if f.channel.receiverOpen && f.channel.isFull then none
  else match f.channel.send d with
    | .ok channel => some ({ f with channel, pump := .accepting .entering }, w)
    | .error _ =>
      some ({ f with pump := .leaving }, Network.withStreams w ((Network.streams w).close d))

/-- One step of the pump; `none` while there is nothing it can do. -/
def step (f : Feed) (w : W) : Option (Feed × W) :=
  match f.pump with
  | .accepting phase =>
    match Network.acceptStep f.listener phase w with
    | (.blocked, _) => none
    | (.proceeds phase, w) => some ({ f with pump := .accepting phase }, w)
    | (.accepted d, w) => some ({ f with pump := .holding d }, w)
    | (.failed _, w) => some (f.finish, w)
    | (.panicked, w) => some (f.finish, w)
  | .holding d => f.deliver d w
  | .leaving => some (f.finish, Network.closeListener f.listener w)
  | .done => none

/-- At most `n` steps. -/
def steps : (n : Nat) → Feed → W → Feed × W
  | 0, f, w => (f, w)
  | n + 1, f, w =>
    match f.step w with
    | none => (f, w)
    | some (f, w) => steps n f w

/-- Runs the pump until it can do nothing more. Four steps take a connection from its arrival to
the channel, and a few more end the pump. -/
def run (f : Feed) (w : W) : Feed × W :=
  f.steps (5 * (Network.arrivals f.listener w + 2)) w

end Feed
end Handoff
