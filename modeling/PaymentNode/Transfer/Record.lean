import PaymentNode.Rail.UsageFollow

/-!
# Record — the record of a local direct EVM transfer, and what its store checks

Both lanes are one record: an explicit-asset transfer carries `evm`, a Base USDC transfer does not.  Its
transitions are kept newest first.  `validateOperation` is what every load checks; `validateEvmOperationWrite`
is the store's check of a record against the one it replaces, and differs between the lanes.  Records are
compared as values where the code compares their integrity hashes.
-/

namespace PaymentNode

abbrev Hex := String

/-- The states of a local transfer. -/
inductive OperationState
  | awaitingApproval
  | started
  | signedNotSubmitted
  | submittedPending
  | unknownFinality
  | completed
  | failedBeforeEffect
  | failedConfirmedRevert
  | failedProvenSuperseded
  | abandonedUnknown
deriving DecidableEq, Repr

/-- `LOCAL_DIRECT_TERMINAL_STATES` -/
def OperationState.localDirectTerminal : OperationState → Bool
  | completed | failedBeforeEffect | failedConfirmedRevert | failedProvenSuperseded
  | abandonedUnknown => true
  | awaitingApproval | started | signedNotSubmitted | submittedPending | unknownFinality => false

/-- What may follow a state of an explicit-asset transfer. -/
def OperationState.allowed : OperationState → List OperationState
  | awaitingApproval => [started, failedBeforeEffect]
  | started => [signedNotSubmitted, failedBeforeEffect]
  | signedNotSubmitted | submittedPending | unknownFinality =>
    [submittedPending, unknownFinality, completed, failedConfirmedRevert, failedProvenSuperseded,
      abandonedUnknown]
  | completed | failedBeforeEffect | failedConfirmedRevert | failedProvenSuperseded
  | abandonedUnknown => []

structure DirectTransition where
  at' : ℤ
  state : OperationState
  terminal : Bool
  reason : String
  proofClass : String
deriving DecidableEq, Repr

/-- The explicit-asset lane. -/
structure EvmDirectBinding where
  native : Bool
  nativeCustody : Bool
  circleNativeAdmission : Bool
  cleanup85Cancellation : Bool
deriving DecidableEq, Repr

structure OperationRecord where
  evm : Option EvmDirectBinding
  expiresAt : ℤ
  /-- The owner allowlist revision frozen at prepare. -/
  allowlist : Option String
  /-- The usage lease, written once with `started`. -/
  allowlistLease : Option String
  transactionHash : Option Hex
  rawTransactionHash : Option Hex
  lastSubmissionAt : Option ℤ
  evmActualFee : Option String
  latest : DirectTransition
  earlier : List DirectTransition
deriving DecidableEq, Repr

namespace OperationRecord

def state (r : OperationRecord) : OperationState := r.latest.state

def terminal (r : OperationRecord) : Bool := r.latest.terminal

def reason (r : OperationRecord) : String := r.latest.reason

def proofClass (r : OperationRecord) : String := r.latest.proofClass

/-- All transitions, the newest first. -/
def transitions (r : OperationRecord) : List DirectTransition := r.latest :: r.earlier

end OperationRecord

variable (r : OperationRecord)

/-- A signature alone stays reserved; a broadcast is charged until proven. -/
def evmUsageTarget : DirectUsageTarget :=
  match r.state with
  | .awaitingApproval | .started | .signedNotSubmitted => .reserved
  | .submittedPending => .submitted
  | .unknownFinality => .unknownFinality
  | .completed => .finalized
  | .failedBeforeEffect => .failedBeforeEffect
  | .failedConfirmedRevert | .failedProvenSuperseded => .failedConfirmedRevert
  | .abandonedUnknown =>
    if r.reason = "owner_abandoned_undispatched_signature" then .failedBeforeEffect
    else .unknownFinality

/-- `LOCAL_DIRECT_SENT_ABANDON` -/
def localDirectSentAbandon : String := "owner_abandoned_unknown"

/-- Abandonment is the final transition of an undispatched signature or of an undecided dispatch. -/
def validAbandonment : Bool :=
  if r.transitions.any fun t => t.state = .abandonedUnknown then
    r.state = .abandonedUnknown && (r.earlier.all fun t => t.state ≠ .abandonedUnknown) &&
      r.proofClass = "owner_acknowledgement_only" && r.terminal && r.transactionHash.isSome &&
      ((r.reason = "owner_abandoned_undispatched_signature" &&
          r.earlier.head?.any fun t => t.state = .signedNotSubmitted) ||
        (r.reason = localDirectSentAbandon &&
          r.earlier.head?.any fun t => t.state = .signedNotSubmitted ∨ t.state = .submittedPending ∨
            t.state = .unknownFinality))
  else true

def validateLocalDirect : Result Unit :=
  if ¬ validAbandonment r then
    corrupt "Local direct abandonment is valid only as the final transition of an undispatched signature or an undecided dispatch."
  else .ok ()

/-- Once bound to an allowlist, the lease is mandatory past `started`. -/
def validateEvmAllowlist : Result Unit :=
  if (r.allowlist.isNone ∧ r.allowlistLease.isSome) ∨
      (r.allowlist.isSome ∧ (r.evm.any fun e => e.cleanup85Cancellation) ∧ r.allowlistLease.isSome) ∨
      (r.allowlist.isSome ∧ ¬ (r.evm.any fun e => e.cleanup85Cancellation) ∧
        r.allowlistLease.isNone ∧ r.transitions.any fun t => t.state = .started) then
    corrupt "The EVM direct allowlist binding is inconsistent with the operation."
  else .ok ()

/-- Each transition follows the one before it, the first being the prepare. -/
def validEdges : List DirectTransition → Bool
  | [] => false
  | [first] => first.state = .awaitingApproval
  | next :: previous :: rest =>
    next.state ∈ previous.state.allowed && validEdges (previous :: rest)

def OperationState.preEffect : OperationState → Bool
  | awaitingApproval | started | failedBeforeEffect => true
  | _ => false

def validateEvmOperation : Result Unit := do
  validateEvmAllowlist r
  if ¬ (r.terminal = r.state.localDirectTerminal) then
    corrupt "EVM operation state is invalid."
  else if ¬ validEdges r.transitions then corrupt "EVM operation transition is invalid."
  else if (if r.state.preEffect then r.transactionHash.isSome || r.rawTransactionHash.isSome
      else r.transactionHash.isNone || r.rawTransactionHash ≠ r.transactionHash : Bool) then
    corrupt "EVM operation effect identity is inconsistent with state."
  else .ok ()

/-- What every load checks of a record. -/
def validateOperation : Result Unit := do
  if r.evm.isSome then validateEvmOperation r else validateEvmAllowlist r
  validateLocalDirect r

/-- The allowlist binding is frozen at prepare, the lease once it is written. -/
def usageChanged (previous next : OperationRecord) : Bool :=
  next.allowlist ≠ previous.allowlist ||
    (previous.allowlistLease.isSome && next.allowlistLease ≠ previous.allowlistLease)

def rewritesDurable {α : Type} : Result α :=
  corrupt "Generic direct operation cannot replace or rewind its frozen durable authority."

/-- The explicit-asset lane: the record replaced, or one whose transitions extend its own. -/
def validateEvmContinuity (previous next : OperationRecord) : Result Unit :=
  if previous.evm.isNone ∨ next.evm ≠ previous.evm ∨ next.expiresAt ≠ previous.expiresAt ∨
      (previous.transactionHash.isSome ∧ (next.transactionHash ≠ previous.transactionHash ∨
        next.rawTransactionHash ≠ previous.rawTransactionHash)) ∨
      usageChanged previous next ∨ ¬ previous.transitions <:+ next.transitions ∨
      (next.transitions.length = previous.transitions.length ∧ next ≠ previous) ∨
      (previous.terminal ∧ next ≠ previous) then
    rewritesDurable
  else .ok ()

/-- The store's check of a record against the one it replaces. -/
def validateEvmOperationWrite (next : OperationRecord) (previous : Option OperationRecord) :
    Result Unit :=
  if next.evm.isNone ∧ previous.all fun r => r.evm.isNone then
    match previous with
    | none => .ok ()
    | some previous => do
      validateOperation previous
      if usageChanged previous next then rewritesDurable else .ok ()
  else do
    validateOperation next
    match previous with
    | none =>
      if next.state ≠ .awaitingApproval ∨ next.earlier ≠ [] then rewritesDurable else .ok ()
    | some previous => do
      validateOperation previous
      validateEvmContinuity previous next

/-! ## Histories -/

/-- `next` may follow `previous` under one id: its transitions extend those of `previous`, and an outcome is
final. -/
def Extends (previous next : OperationRecord) : Prop :=
  previous.transitions <:+ next.transitions ∧ (previous.terminal → next = previous)

theorem Extends.trans {a b c : OperationRecord} (hab : Extends a b) (hbc : Extends b c) :
    Extends a c := by
  refine ⟨hab.1.trans hbc.1, ?_⟩
  intro hterminal
  have hb : b = a := hab.2 hterminal
  rw [hb] at hbc
  exact hbc.2 hterminal

-- The explicit-asset store accepts nothing else.
theorem extends_of_validateEvmOperationWrite {previous next : OperationRecord}
    (hevm : previous.evm.isSome) (h : validateEvmOperationWrite next (some previous) = .ok ()) :
    Extends previous next := by
  unfold validateEvmOperationWrite at h
  rw [if_neg (by simp [Option.isSome_iff_ne_none.mp hevm])] at h
  rcases bind_ok.mp h with ⟨_, _, hwrite⟩
  rcases bind_ok.mp hwrite with ⟨_, _, hcontinuity⟩
  have hguard := (corrupt_guard.mp hcontinuity).1
  simp only [not_or, not_and, not_not] at hguard
  rcases hguard with ⟨_, _, _, _, _, hextends, _, hterminal⟩
  exact ⟨hextends, hterminal⟩

end PaymentNode
