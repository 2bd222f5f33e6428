import Handoff.Tailnet.Closing

namespace Handoff.Tailnet

/-- At most `n` steps of accepting, from `phase` on. -/
def acceptSteps : (n : Nat) → ListenerId → AcceptPhase → Tailnet → AcceptStep × Tailnet
  | 0, _, _, t => (.blocked, t)
  | n + 1, l, phase, t =>
    match acceptStep l phase t with
    | (.proceeds phase, t) => acceptSteps n l phase t
    | r => r

/-- Accepts until there is a connection or a failure, or nothing to do but wait; three steps always
get there. -/
def accept (t : Tailnet) (l : ListenerId) (phase : AcceptPhase) : AcceptStep × Tailnet :=
  acceptSteps 3 l phase t

end Handoff.Tailnet
