import PaymentNode.Basic

/-!
# Record — the journal of one bridge operation

What prepare froze, the two effects (an exact token approval, when one is needed, and the bridge call), and the
evidence about them.  A record is its latest transition over the earlier ones.  Digests are compared as the values
they are digests of.  The read telemetry and the destination scan cursor are left out: no call decides by the
first, and none moves the second.
-/

namespace PaymentNode

inductive BridgeState
  | awaitingApproval
  | executionPending
  | sourcePending
  | destinationPending
  | unknownFinality
  | completed
  | failedBeforeEffect
  | destinationFailed
  | failedAfterApproval
  | failedConfirmedRevert
deriving DecidableEq, Repr

namespace BridgeState

/-- `BRIDGE_TERMINAL` -/
def terminal : BridgeState → Bool
  | completed | destinationFailed | failedBeforeEffect | failedAfterApproval
  | failedConfirmedRevert => true
  | _ => false

def edges : BridgeState → List BridgeState
  | awaitingApproval => [executionPending, failedBeforeEffect]
  | executionPending =>
    [sourcePending, unknownFinality, failedBeforeEffect, failedAfterApproval, failedConfirmedRevert]
  | sourcePending =>
    [destinationPending, unknownFinality, completed, destinationFailed, failedAfterApproval,
      failedConfirmedRevert]
  | destinationPending => [unknownFinality, completed, destinationFailed, failedConfirmedRevert]
  | unknownFinality =>
    [sourcePending, destinationPending, completed, destinationFailed, failedAfterApproval,
      failedConfirmedRevert]
  | _ => []

end BridgeState

inductive BridgeEffectPhase
  | unsealed
  | signingStarted
  | sealed
  | submitting
  | submittedPending
  | unknownFinality
  | includedSuccess
  | includedRevert
  | safeSuccess
  | safeRevert
deriving DecidableEq, Repr

namespace BridgeEffectPhase

/-- `PHASE_EDGES` -/
def edges : BridgeEffectPhase → List BridgeEffectPhase
  | unsealed => [signingStarted]
  | signingStarted => [sealed, unsealed]
  | sealed => [submitting]
  | submitting =>
    [submittedPending, unknownFinality, includedSuccess, includedRevert, safeSuccess, safeRevert]
  | submittedPending => [unknownFinality, includedSuccess, includedRevert, safeSuccess, safeRevert]
  | unknownFinality => [includedSuccess, includedRevert, safeSuccess, safeRevert]
  | includedSuccess => [safeSuccess, unknownFinality]
  | includedRevert => [safeRevert, unknownFinality]
  | _ => []

/-- The signed bytes are in custody. -/
def committed : BridgeEffectPhase → Bool
  | unsealed | signingStarted => false
  | _ => true

/-- The one submission was begun. -/
def submitted : BridgeEffectPhase → Bool
  | unsealed | signingStarted | sealed => false
  | _ => true

def included : BridgeEffectPhase → Bool
  | includedSuccess | includedRevert | safeSuccess | safeRevert => true
  | _ => false

def safe : BridgeEffectPhase → Bool
  | safeSuccess | safeRevert => true
  | _ => false

/-- `["included_success", "safe_success"].includes(phase)` -/
def landed : BridgeEffectPhase → Bool
  | includedSuccess | safeSuccess => true
  | _ => false

end BridgeEffectPhase

inductive BridgeRole
  | approval
  | bridge
deriving DecidableEq, Repr

inductive BridgeTool
  | across
  | stargateV2
deriving DecidableEq, Repr

structure BridgeBlock where
  numberAtomic : ℕ
  hash : String
  timestampAtomic : ℕ
deriving DecidableEq, Repr

structure BridgeBaseOracle where
  oracle : String
  from' : String
  /-- The argument the call data carries. -/
  callData : ℕ
  rawReturn : ℕ
  blockHash : String
  scalarAtomic : ℕ
  constantWei : ℕ
deriving DecidableEq, Repr

inductive BridgeFeeRule
  | legacyOracle
  | receipt
  | unreviewed
deriving DecidableEq, Repr

structure BridgeFeeEvidence where
  receiptHash : String
  ruleHash : BridgeFeeRule
  arbitrumPosterGasAtomic : Option ℕ
  baseOracle : Option BridgeBaseOracle
deriving DecidableEq, Repr

inductive BridgeTransactionStatus
  | success
  | reverted
deriving DecidableEq, Repr

structure BridgeTransactionProof where
  chainId : ℕ
  transactionHash : String
  block : BridgeBlock
  safeBlock : Option BridgeBlock
  rpcOrigin : Option String
  from' : String
  to' : String
  nonceAtomic : ℕ
  valueAtomic : ℕ
  dataHash : String
  gasLimitAtomic : ℕ
  maxFeePerGasAtomic : ℕ
  maxPriorityFeePerGasAtomic : ℕ
  gasUsedAtomic : ℕ
  effectiveGasPriceAtomic : ℕ
  executionFeeWei : ℕ
  l1DataFeeWei : ℕ
  operatorFeeWei : ℕ
  blobFeeWei : ℕ
  actualTotalFeeWei : ℕ
  feeEvidence : Option BridgeFeeEvidence
  status : BridgeTransactionStatus
  logsHash : String
deriving DecidableEq, Repr

/-- `proofIdentity`: everything but when and where it was read. -/
def BridgeTransactionProof.identity (p : BridgeTransactionProof) : BridgeTransactionProof :=
  { p with safeBlock := none, rpcOrigin := none }

/-- `inclusionIdentity`: where the effect landed, not how its fee was derived. -/
def BridgeTransactionProof.inclusion (p : BridgeTransactionProof) : BridgeTransactionProof :=
  { p.identity with feeEvidence := none }

structure BridgeEnvelope where
  chainId : ℕ
  from' : String
  to' : String
  valueAtomic : ℕ
  dataHash : String
  nonceAtomic : ℕ
  gasLimitAtomic : ℕ
  maxFeePerGasAtomic : ℕ
  maxPriorityFeePerGasAtomic : ℕ
deriving DecidableEq, Repr

structure BridgeEffect where
  phase : BridgeEffectPhase
  transactionHash : Option String
  sealedMaterialHash : Option String
  submittedAt : Option ℤ
  submissionAttempts : ℕ
  includedProof : Option BridgeTransactionProof
  safeProof : Option BridgeTransactionProof
deriving DecidableEq, Repr

def newBridgeEffect : BridgeEffect := ⟨.unsealed, none, none, none, 0, none, none⟩

/-- The effects in their order: the approval, when the allowance was zero, and then the bridge call. -/
structure BridgeEffects where
  approval : Option BridgeEffect
  bridge : BridgeEffect
deriving DecidableEq, Repr

namespace BridgeEffects

def roles (effects : BridgeEffects) : List BridgeRole :=
  if effects.approval.isSome then [.approval, .bridge] else [.bridge]

def get? (effects : BridgeEffects) : BridgeRole → Option BridgeEffect
  | .approval => effects.approval
  | .bridge => some effects.bridge

def all (effects : BridgeEffects) : List BridgeEffect := effects.approval.toList ++ [effects.bridge]

/-- `op.effects[0].role` -/
def firstRole (effects : BridgeEffects) : BridgeRole :=
  if effects.approval.isSome then .approval else .bridge

/-- `replaceEffect` -/
def replace (effects : BridgeEffects) (role : BridgeRole) (effect : BridgeEffect) : BridgeEffects :=
  match role with
  | .approval => { effects with approval := effects.approval.map fun _ => effect }
  | .bridge => { effects with bridge := effect }

variable {effects : BridgeEffects} {role r : BridgeRole} {e next : BridgeEffect}

theorem mem_all : e ∈ effects.all ↔ ∃ role, effects.get? role = some e := by
  unfold all
  constructor
  · intro h
    rcases List.mem_append.mp h with h | h
    · exact ⟨.approval, Option.mem_toList.mp h⟩
    · exact ⟨.bridge, congrArg some (List.mem_singleton.mp h).symm⟩
  · intro ⟨role, h⟩
    cases role with
    | approval => exact List.mem_append_left _ (Option.mem_toList.mpr h)
    | bridge => exact List.mem_append_right _ (List.mem_singleton.mpr (Option.some.inj h).symm)

theorem get?_replace_self (h : effects.get? role = some e) :
    (effects.replace role next).get? role = some next := by
  cases role with
  | approval =>
    have happroval : effects.approval = some e := h
    simp [replace, get?, happroval]
  | bridge => rfl

end BridgeEffects

inductive BridgeCorrelation
  | across (depositId : ℕ) (outputAmountAtomic : ℕ)
  | stargateV2 (guid : String) (amountReceivedAtomic : ℕ)
deriving DecidableEq, Repr

namespace BridgeCorrelation

def kind : BridgeCorrelation → BridgeTool
  | across _ _ => .across
  | stargateV2 _ _ => .stargateV2

/-- The amount the source chain says was sent to the recipient. -/
def amountAtomic : BridgeCorrelation → ℕ
  | across _ outputAmountAtomic => outputAmountAtomic
  | stargateV2 _ amountReceivedAtomic => amountReceivedAtomic

end BridgeCorrelation

structure BridgeSourceProof where
  tool : BridgeTool
  chainId : ℕ
  transactionHash : String
  blockNumberAtomic : ℕ
  blockHash : String
  sourceAmountAtomic : ℕ
  bridgeAmountAtomic : ℕ
  feeForwardedAtomic : ℕ
  logsHash : String
  correlation : BridgeCorrelation
deriving DecidableEq, Repr

inductive BridgeCompositeOutcome
  | completedNative
  | recoveredWeth
  | belowFloor
  | protocolMismatch
deriving DecidableEq, Repr

structure BridgeCompositeTrace where
  outcome : BridgeCompositeOutcome
  transactionHash : String
  inputAmountAtomic : ℕ
  deliveredAmountAtomic : ℕ
deriving DecidableEq, Repr

structure BridgeNativeBalance where
  recipient : String
  deltaAtomic : ℕ
deriving DecidableEq, Repr

structure BridgeNativeTransfer where
  transactionHash : String
  to' : String
  valueAtomic : ℕ
deriving DecidableEq, Repr

structure BridgeDestinationProof where
  tool : BridgeTool
  chainId : ℕ
  transactionHash : String
  blockNumberAtomic : ℕ
  recipient : String
  token : String
  amountAtomic : ℕ
  /-- The correlation whose hash the proof carries. -/
  correlationHash : BridgeCorrelation
  fillType : Option ℕ
  relayerCredit : Option String
  repaymentChainIdAtomic : Option ℕ
  nativeBalance : Option BridgeNativeBalance
  nativeTransfer : Option BridgeNativeTransfer
  compositeTrace : Option BridgeCompositeTrace
  safeBlock : BridgeBlock
  rpcOrigin : String
  transactionProofHash : String
deriving DecidableEq, Repr

/-- A destination transaction in the form of its own rail. -/
inductive RailStatusIdentifier
  | evm (hash : String)
  | solana (signature : String)
deriving DecidableEq, Repr

/-- `isEvmTransactionHash`, with the hash. -/
def RailStatusIdentifier.evmHash : RailStatusIdentifier → Option String
  | evm hash => some hash
  | solana _ => none

inductive BridgeProviderStatus
  | notFound
  | pending
  | completedObserved
  | partialObserved
  | refundObserved
  | failedObserved
  | unknown
deriving DecidableEq, Repr

def BridgeProviderStatus.text : BridgeProviderStatus → String
  | notFound => "not_found"
  | pending => "pending"
  | completedObserved => "completed_observed"
  | partialObserved => "partial_observed"
  | refundObserved => "refund_observed"
  | failedObserved => "failed_observed"
  | unknown => "unknown"

structure BridgeProviderObservation where
  status : BridgeProviderStatus
  destinationTransactionHash : Option RailStatusIdentifier
  observedAt : ℤ
  responseHash : Option String
deriving DecidableEq, Repr

/-- The destination transaction the provider names, when it is an EVM one. -/
def BridgeProviderObservation.evmHash (p : BridgeProviderObservation) : Option String :=
  p.destinationTransactionHash.bind RailStatusIdentifier.evmHash

structure BridgeResidualAllowance where
  amountAtomic : ℕ
  block : BridgeBlock
  rpcOrigin : Option String
deriving DecidableEq, Repr

inductive BridgeResidualStatus
  | unavailable
  | observed
deriving DecidableEq, Repr

inductive BridgeChainRole
  | source
  | destination
deriving DecidableEq, Repr

inductive BridgePreSignRpcStage
  | sourceDeploymentRefresh
  | destinationDeploymentRefresh
  | sourceAccountRefresh
  | sourceExecutionSimulation
  | sourceFeeQuote
deriving DecidableEq, Repr

inductive BridgePreSignRpcCategory
  | deploymentRefresh
  | accountNonce
  | simulation
  | feeQuote
deriving DecidableEq, Repr

namespace BridgePreSignRpcStage

def chainRole : BridgePreSignRpcStage → BridgeChainRole
  | destinationDeploymentRefresh => .destination
  | _ => .source

def category : BridgePreSignRpcStage → BridgePreSignRpcCategory
  | sourceDeploymentRefresh | destinationDeploymentRefresh => .deploymentRefresh
  | sourceAccountRefresh => .accountNonce
  | sourceExecutionSimulation => .simulation
  | sourceFeeQuote => .feeQuote

end BridgePreSignRpcStage

structure BridgePreSignRpcFailure where
  effectRole : BridgeRole
  stage : BridgePreSignRpcStage
  chainRole : BridgeChainRole
  chainId : ℕ
  category : BridgePreSignRpcCategory
  method : Option String
deriving DecidableEq, Repr

structure BridgeObservationRpcFailure where
  chainRole : BridgeChainRole
  effectRole : BridgeRole
  code : Option String
  reason : Option String
deriving DecidableEq, Repr

structure BridgeFailure where
  reason : String
  residualAllowance : Option BridgeResidualAllowance
  residualAllowanceStatus : Option BridgeResidualStatus
  preSignRpc : Option BridgePreSignRpcFailure
  observationRpc : Option BridgeObservationRpcFailure
deriving DecidableEq, Repr

/-- A failure of which only the reason is known. -/
def BridgeFailure.plain (reason : String) : BridgeFailure := ⟨reason, none, none, none, none⟩

structure BridgeConsent where
  fingerprint : String
  approvedAt : ℤ
  expiresAt : ℤ
deriving DecidableEq, Repr

inductive BridgeUsageState
  | reserved
  | submitted
  | unknownFinality
  | finalized
  | failedBeforeEffect
  | failedConfirmedRevert
deriving DecidableEq, Repr

/-- The reservation of the amount, as it was first made. -/
structure BridgeUsageLease where
  state : BridgeUsageState
  operationId : String
  policyDigest : String
  amountAtomic : ℕ
  account : String
  chain : ℕ
  asset : String
deriving DecidableEq, Repr

structure BridgeMutable where
  state : BridgeState
  approval : Option BridgeConsent
  effects : BridgeEffects
  sourceProof : Option BridgeSourceProof
  destinationProof : Option BridgeDestinationProof
  providerObservation : Option BridgeProviderObservation
  failure : Option BridgeFailure
  usageLease : Option BridgeUsageLease
deriving DecidableEq, Repr

structure BridgeTransition extends BridgeMutable where
  at' : ℤ
deriving DecidableEq, Repr

structure BridgeRouteRequest where
  fromChainId : ℕ
  toChainId : ℕ
  fromToken : String
  toToken : String
  amountAtomic : ℕ
  recipient : String
  minOutputAtomic : ℕ
deriving DecidableEq, Repr

structure DecodedBridgeCall where
  bridgeAmountAtomic : ℕ
  feeAmountAtomic : ℕ
  minimumOutputAtomic : ℕ
  /-- The input of the composite call, where the lane has one. -/
  composite : Option ℕ
deriving DecidableEq, Repr

structure BridgeAllowlistBinding where
  policyDigest : String
  activated : Bool
  account : String
  chain : ℕ
  asset : String
  amountAtomic : ℕ
deriving DecidableEq, Repr

/-- What prepare froze: the intent and the envelopes of the effects. -/
structure BridgeIntent where
  operationId : String
  fingerprint : String
  tool : BridgeTool
  request : BridgeRouteRequest
  decoded : DecodedBridgeCall
  approvalEnvelope : BridgeEnvelope
  bridgeEnvelope : BridgeEnvelope
  preparedAt : ℤ
  expiresAt : ℤ
  allowlist : Option BridgeAllowlistBinding
deriving DecidableEq, Repr

structure BridgeOperation where
  intent : BridgeIntent
  latest : BridgeTransition
  earlier : List BridgeTransition
deriving DecidableEq, Repr

def bridgeZeroAddress : String := "0x0000000000000000000000000000000000000000"

def bridgeZeroWord : String :=
  "0x0000000000000000000000000000000000000000000000000000000000000000"

/-- `bridgeProviderBoundNativeDestination` -/
def BridgeRouteRequest.providerBoundNative (r : BridgeRouteRequest) : Bool :=
  r.fromChainId = 1 && (r.toChainId = 56 || r.toChainId = 143 || r.toChainId = 59144) &&
    r.fromToken = bridgeZeroAddress && r.toToken = bridgeZeroAddress

def wbtcEthereum : String := "0x2260FAC5E5542a773Aa44fBCfeDf7C193bc2C599"

def wbtcArbitrum : String := "0x2f2a2543B76A4166549F7aaB2e75Bef0aefC5B0f"

namespace BridgeIntent

def envelope (i : BridgeIntent) : BridgeRole → BridgeEnvelope
  | .approval => i.approvalEnvelope
  | .bridge => i.bridgeEnvelope

def guardedWbtc (i : BridgeIntent) : Bool :=
  i.tool = .across &&
    ((i.request.fromChainId = 1 && i.request.toChainId = 42161 &&
        i.request.fromToken = wbtcEthereum && i.request.toToken = wbtcArbitrum) ||
      (i.request.fromChainId = 42161 && i.request.toChainId = 1 &&
        i.request.fromToken = wbtcArbitrum && i.request.toToken = wbtcEthereum))

end BridgeIntent

def bridgeProviderSettled (decoded : DecodedBridgeCall)
    (observation : Option BridgeProviderObservation) : Bool :=
  observation.any fun p =>
    p.status = .completedObserved || decoded.composite.isSome && p.status = .partialObserved

def bridgePreSignRpcRateLimited : String := "pre_sign_rpc_rate_limited"

def bridgePreSignRpcUnavailable : String := "pre_sign_rpc_unavailable"

def unsentRpcAmbiguous : String := "unsent_apn_rpc_ambiguous"

/-- `retainedUnsentBridgeRpcFailure`: the diagnostic of a bridge call that was never signed. -/
def retainedUnsentBridgeRpcFailure (m : BridgeMutable) : Option BridgeFailure :=
  m.failure.filter fun f =>
    f.reason = unsentRpcAmbiguous && (f.preSignRpc.any fun d => d.effectRole = .bridge) &&
      m.effects.bridge.phase = .unsealed && m.effects.bridge.submissionAttempts = 0 &&
      m.effects.approval.any fun a => a.submissionAttempts = 1

namespace BridgeOperation

abbrev state (o : BridgeOperation) : BridgeState := o.latest.state
abbrev effects (o : BridgeOperation) : BridgeEffects := o.latest.effects
abbrev failure (o : BridgeOperation) : Option BridgeFailure := o.latest.failure

def terminal (o : BridgeOperation) : Bool := o.state.terminal

/-- `current = op.effects.find(e => e.role === role)` -/
def effect? (o : BridgeOperation) (role : BridgeRole) : Option BridgeEffect := o.effects.get? role

end BridgeOperation

/-! ## Signed material -/

/-- How the bytes of an effect are hashed and checked. -/
structure BridgeSigning where
  transactionHash : String → String
  materialHash : BridgeRole → String → String
  /-- `verifyBridgeSigned`: the bytes are the signed envelope. -/
  verifies : BridgeEnvelope → String → Bool

structure BridgeSealedMaterial where
  role : BridgeRole
  rawTransaction : String
  transactionHash : String
  materialHash : String
deriving DecidableEq, Repr

/-- The bytes a SEND claim binds. -/
structure BridgeClaimedBytes where
  materialHash : String
  transactionHash : String
deriving DecidableEq, Repr

def BridgeSealedMaterial.bytes (m : BridgeSealedMaterial) : BridgeClaimedBytes :=
  ⟨m.materialHash, m.transactionHash⟩

end PaymentNode
