import PaymentNode.Ledger.Record

/-!
# State — the direct-rail journal's states

`RailState` and `EDGES` are the table every transition of a rail operation is checked against, and
`railUsageTarget` is what the shared usage ledger is told at each state.  A rail transfer past the send
boundary never returns before it: `crossed_of_edge`.
-/

namespace PaymentNode

inductive RailState
  | awaitingApproval
  | signingStarted
  | signedNotSubmitted
  | submitting
  | submittedPending
  | unknownFinality
  | completed
  | failedBeforeEffect
  | failedConfirmedRevert
  | abandonedUnknown
deriving DecidableEq, Repr

namespace RailState

def edges : RailState → List RailState
  | awaitingApproval => [signingStarted, submitting, failedBeforeEffect]
  | signingStarted => [signedNotSubmitted, failedBeforeEffect]
  | signedNotSubmitted => [submitting, failedBeforeEffect]
  | submitting => [submittedPending, unknownFinality, completed, failedConfirmedRevert]
  | submittedPending => [unknownFinality, completed, failedConfirmedRevert, abandonedUnknown]
  | unknownFinality => [completed, failedConfirmedRevert, abandonedUnknown]
  | completed | failedBeforeEffect | failedConfirmedRevert | abandonedUnknown => []

def isTerminal : RailState → Bool
  | completed | failedBeforeEffect | failedConfirmedRevert | abandonedUnknown => true
  | _ => false

/-- The states from which the operation may already have been sent. -/
def crossed : RailState → Bool
  | submitting | submittedPending | unknownFinality | completed | failedConfirmedRevert
  | abandonedUnknown => true
  | awaitingApproval | signingStarted | signedNotSubmitted | failedBeforeEffect => false

/-- The states whose first entry needs the usage lease. -/
def needsLease : RailState → Bool
  | signingStarted | submitting => true
  | _ => false

theorem crossed_of_edge {s t : RailState} (hs : s.crossed) (h : t ∈ s.edges) : t.crossed := by
  revert hs h
  cases s <;> cases t <;> decide

end RailState

/-- Where the owning journal says the effect is. -/
inductive DirectUsageTarget
  | reserved
  | submitted
  | unknownFinality
  | finalized
  | failedBeforeEffect
  | failedConfirmedRevert
deriving DecidableEq, Repr

def DirectUsageTarget.state : DirectUsageTarget → AssetUsageState
  | reserved => .reserved
  | submitted => .submitted
  | unknownFinality => .unknownFinality
  | finalized => .finalized
  | failedBeforeEffect => .failedBeforeEffect
  | failedConfirmedRevert => .failedConfirmedRevert

/-- Signed bytes that were never sent stay reserved; a send is charged until proven. -/
def railUsageTarget : RailState → DirectUsageTarget
  | .awaitingApproval | .signingStarted | .signedNotSubmitted => .reserved
  | .submitting | .submittedPending => .submitted
  | .unknownFinality | .abandonedUnknown => .unknownFinality
  | .completed => .finalized
  | .failedBeforeEffect => .failedBeforeEffect
  | .failedConfirmedRevert => .failedConfirmedRevert

end PaymentNode
