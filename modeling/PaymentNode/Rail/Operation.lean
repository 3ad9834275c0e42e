import PaymentNode.Rail.State

/-!
# Operation — the direct-rail record, its transitions and its continuity

A record is what was prepared and its transitions, the newest first.  `transitionRail` appends one and checks
the result; `validateRailContinuity` is the store's own check of a record against the one it replaces: the
same record, or one transition more.  Records are compared as values where the code compares their
integrity hashes.
-/

namespace PaymentNode

inductive ChainRail
  | solana
  | tron
deriving DecidableEq, Repr

inductive RailProvider
  | local'
  | hosted
deriving DecidableEq, Repr

/-- The finalized proof of a terminal effect. -/
structure RailFinalEvidence where
  transactionId : String
  success : Bool
  observedAt : ℤ
deriving DecidableEq, Repr

structure RailTransition where
  state : RailState
  at' : ℤ
  reason : String
  transactionId : Option String
  rawPayloadHash : Option String
  evidence : Option RailFinalEvidence
deriving DecidableEq, Repr

structure RailOperationRecord where
  rail : ChainRail
  provider : RailProvider
  /-- The owner allowlist revision frozen at prepare. -/
  allowlist : Option String
  /-- The usage lease, written once with the first signing or send transition. -/
  allowlistLease : Option String
  /-- The send binding, written once with `signing_started`. -/
  send : Option String
  latest : RailTransition
  earlier : List RailTransition
deriving DecidableEq, Repr

namespace RailOperationRecord

def state (r : RailOperationRecord) : RailState := r.latest.state

def terminal (r : RailOperationRecord) : Bool := r.state.isTerminal

/-- All transitions, the newest first. -/
def transitions (r : RailOperationRecord) : List RailTransition := r.latest :: r.earlier

def isLocalSolana (r : RailOperationRecord) : Bool := r.rail = .solana && r.provider = .local'

end RailOperationRecord

structure RailTransitionInput where
  state : RailState
  at' : ℤ
  reason : String
  transactionId : Option String
  rawPayloadHash : Option String
  evidence : Option RailFinalEvidence
  send : Option String
  allowlistLease : Option String

def RailState.bound : RailState → Bool
  | .signedNotSubmitted | .submitting | .submittedPending | .unknownFinality | .completed
  | .failedConfirmedRevert | .abandonedUnknown => true
  | .awaitingApproval | .signingStarted | .failedBeforeEffect => false

/-- The check of one transition after the one before it. -/
def validRailTransition (provider : RailProvider) (previous next : RailTransition) : Bool :=
  next.state ∈ previous.state.edges && previous.at' ≤ next.at' &&
    (previous.transactionId.isNone || next.transactionId = previous.transactionId) &&
    (previous.rawPayloadHash.isNone || next.rawPayloadHash = previous.rawPayloadHash) &&
    (match provider with
      | .local' =>
        (!next.state.bound || (next.transactionId.isSome && next.rawPayloadHash.isSome)) &&
          !(previous.state = .awaitingApproval && next.state = .submitting)
      | .hosted =>
        next.state ≠ .signingStarted && next.state ≠ .signedNotSubmitted &&
          next.rawPayloadHash.isNone) &&
    (if next.state = .completed ∨ next.state = .failedConfirmedRevert then
      next.evidence.any fun e =>
        some e.transactionId = next.transactionId && e.success = decide (next.state = .completed) &&
          e.observedAt ≤ next.at'
    else next.evidence.isNone)

/-- Once bound to an allowlist, the lease is mandatory from the first signing or send transition. -/
def validRailLease (r : RailOperationRecord) : Bool :=
  if r.allowlist.isNone then r.allowlistLease.isNone
  else r.allowlistLease.isSome = r.transitions.any fun t => t.state.needsLease

/-- Append one transition. -/
def transitionRail (operation : RailOperationRecord) (input : RailTransitionInput) :
    Result RailOperationRecord :=
  let entry : RailTransition :=
    { state := input.state, at' := input.at', reason := input.reason
      transactionId := input.transactionId <|> operation.latest.transactionId
      rawPayloadHash := input.rawPayloadHash <|> operation.latest.rawPayloadHash
      evidence := input.evidence <|> operation.latest.evidence }
  let next : RailOperationRecord :=
    { operation with
      send := input.send <|> operation.send
      allowlistLease := input.allowlistLease <|> operation.allowlistLease
      latest := entry
      earlier := operation.transitions }
  if ¬ validRailTransition operation.provider operation.latest entry ∨ 32 < next.transitions.length ∨
      ¬ validRailLease next ∨ (operation.send.isSome ∧ next.send ≠ operation.send) ∨
      (operation.allowlistLease.isSome ∧ next.allowlistLease ≠ operation.allowlistLease) then
    corrupt "The direct-rail effect or operation binding is invalid."
  else .ok next

/-- A stored record is replaced by itself or by one transition more, never after its outcome. -/
def validateRailContinuity (previous next : RailOperationRecord) : Result Unit :=
  if next = previous then .ok ()
  else if previous.terminal ∨ next.rail ≠ previous.rail ∨ next.provider ≠ previous.provider ∨
      next.allowlist ≠ previous.allowlist ∨ next.earlier ≠ previous.transitions ∨
      ¬ validRailTransition next.provider previous.latest next.latest ∨ ¬ validRailLease next ∨
      (previous.send.isSome ∧ next.send ≠ previous.send) ∨
      (previous.allowlistLease.isSome ∧ next.allowlistLease ≠ previous.allowlistLease) then
    corrupt "The direct-rail effect or operation binding is invalid."
  else .ok ()

theorem edge_of_valid {provider : RailProvider} {previous next : RailTransition}
    (h : validRailTransition provider previous next) : next.state ∈ previous.state.edges := by
  unfold validRailTransition at h
  simp only [Bool.and_eq_true, decide_eq_true_eq] at h
  exact h.1.1.1.1.1

-- What a transition leaves: one entry more, along an edge, in the state asked for.
theorem transitionRail_ok {operation next : RailOperationRecord} {input : RailTransitionInput}
    (h : transitionRail operation input = .ok next) :
    next.state = input.state ∧ next.earlier = operation.transitions ∧
      next.state ∈ operation.state.edges := by
  unfold transitionRail at h
  rcases corrupt_guard.mp h with ⟨hvalid, hnext⟩
  cases hnext
  simp only [not_or, not_not] at hvalid
  exact ⟨rfl, rfl, edge_of_valid hvalid.1⟩

-- What the store accepts over a stored record.
theorem validateRailContinuity_ok {previous next : RailOperationRecord}
    (h : validateRailContinuity previous next = .ok ()) :
    next = previous ∨
      (next.earlier = previous.transitions ∧ next.state ∈ previous.state.edges) := by
  unfold validateRailContinuity at h
  split at h
  · exact Or.inl ‹_›
  · have hc := (corrupt_guard.mp h).1
    simp only [not_or, ne_eq, not_not] at hc
    exact Or.inr ⟨hc.2.2.2.2.1, edge_of_valid hc.2.2.2.2.2.1⟩

end PaymentNode
