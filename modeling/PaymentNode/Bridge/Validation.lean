import Mathlib.Tactic.MkIffOfInductiveProp
import PaymentNode.Bridge.Record

/-!
# Validation — what a bridge record must satisfy, and the transition that appends to it

Every transition of a record is a valid snapshot and a valid step from the one before.  Each group of the
validator's checks is a predicate of its own, so that a write can be shown to keep the groups it does not touch.
The checks of `validateIntent` on what prepare froze are passed once, when the record is made, and no patch changes
what they read; the one on the usage lease is `LeaseValid`.
-/

namespace PaymentNode

namespace Bridge

variable (i : BridgeIntent)

/-! ## Proofs -/

/-- The fee evidence of a proof, by the chain it was read on. -/
def feeEvidenceValid (p : BridgeTransactionProof) (e : BridgeEnvelope) (f : BridgeFeeEvidence) : Bool :=
  f.ruleHash ≠ .unreviewed &&
  if e.chainId = 8453 && f.ruleHash = .receipt then
    f.baseOracle.isNone && f.arbitrumPosterGasAtomic.isNone
  else if e.chainId = 8453 then
    (f.baseOracle.any fun o =>
      o.blockHash = p.block.hash && o.oracle = "0x420000000000000000000000000000000000000F" &&
      o.from' = bridgeZeroAddress && o.callData = p.gasUsedAtomic && o.rawReturn = p.operatorFeeWei &&
      o.scalarAtomic < 2 ^ 32 && o.constantWei < 2 ^ 64 &&
      p.operatorFeeWei = p.gasUsedAtomic * o.scalarAtomic * 100 + o.constantWei) &&
    f.arbitrumPosterGasAtomic.isNone
  else
    f.baseOracle.isNone &&
    if e.chainId = 42161 then f.arbitrumPosterGasAtomic.any fun g => g ≤ p.gasUsedAtomic
    else f.arbitrumPosterGasAtomic.isNone

/-- The transaction is the envelope, with the hash it was signed under. -/
def envelopeMatches (p : BridgeTransactionProof) (e : BridgeEnvelope) (hash : Option String) : Bool :=
  p.chainId = e.chainId && hash = some p.transactionHash && p.from' = e.from' && p.to' = e.to' &&
  p.nonceAtomic = e.nonceAtomic && p.valueAtomic = e.valueAtomic && p.dataHash = e.dataHash &&
  p.gasLimitAtomic = e.gasLimitAtomic && p.maxFeePerGasAtomic = e.maxFeePerGasAtomic &&
  p.maxPriorityFeePerGasAtomic = e.maxPriorityFeePerGasAtomic

/-- What was paid is inside what the envelope allows, and adds up. -/
def feesMatch (p : BridgeTransactionProof) (e : BridgeEnvelope) : Bool :=
  p.gasUsedAtomic ≤ e.gasLimitAtomic && p.effectiveGasPriceAtomic ≤ e.maxFeePerGasAtomic &&
  p.executionFeeWei = p.gasUsedAtomic * p.effectiveGasPriceAtomic &&
  p.actualTotalFeeWei = p.executionFeeWei + p.l1DataFeeWei + p.operatorFeeWei && p.blobFeeWei = 0 &&
  (e.chainId = 8453 || (p.l1DataFeeWei = 0 && p.operatorFeeWei = 0)) &&
  (p.safeBlock.all fun s => p.block.numberAtomic ≤ s.numberAtomic) &&
  p.feeEvidence.any fun f => feeEvidenceValid p e f

def validateEnvelopeProof (p : BridgeTransactionProof) (e : BridgeEnvelope) (hash : Option String) :
    Bool :=
  envelopeMatches p e hash && feesMatch p e

/-! ## Effects -/

/-- The status a proof of an effect in this phase has. -/
def phaseStatus (phase : BridgeEffectPhase) : BridgeTransactionStatus :=
  if phase.landed then .success else .reverted

/-- `validateEffect` -/
@[mk_iff] structure EffectValid (envelope : BridgeEnvelope) (at' : ℤ) (e : BridgeEffect) : Prop where
  hashes : e.phase.committed = true → e.transactionHash.isSome ∧ e.sealedMaterialHash.isSome
  noHashes : e.phase.committed = false → e.transactionHash = none ∧ e.sealedMaterialHash = none
  attempts : e.submissionAttempts = if e.phase.submitted then 1 else 0
  submittedAt : e.submittedAt.isSome = e.phase.submitted
  submittedBy : ∀ t ∈ e.submittedAt, t ≤ at'
  included : e.includedProof.isSome = e.phase.included
  safe : e.safeProof.isSome = e.phase.safe
  includedProof : ∀ p ∈ e.includedProof,
    validateEnvelopeProof p envelope e.transactionHash = true ∧ p.status = phaseStatus e.phase
  safeProof : ∀ p ∈ e.safeProof,
    validateEnvelopeProof p envelope e.transactionHash = true ∧ p.status = phaseStatus e.phase ∧
      p.safeBlock.isSome ∧ e.includedProof.map BridgeTransactionProof.identity = some p.identity

instance (envelope : BridgeEnvelope) (at' : ℤ) (e : BridgeEffect) :
    Decidable (EffectValid envelope at' e) := decidable_of_iff' _ (effectValid_iff envelope at' e)

/-- The proof an included or safe effect carries. -/
def BridgeEffect.proof? (e : BridgeEffect) : Option BridgeTransactionProof := e.safeProof <|> e.includedProof

/-! ## Snapshots -/

@[mk_iff] structure ConsentValid (s : BridgeTransition) (a : BridgeConsent) : Prop where
  fingerprint : a.fingerprint = i.fingerprint
  expiresAt : a.expiresAt = i.expiresAt
  prepared : i.preparedAt ≤ a.approvedAt
  approved : a.approvedAt ≤ s.at'
  inTime : a.approvedAt < a.expiresAt

instance (s : BridgeTransition) (a : BridgeConsent) : Decidable (ConsentValid i s a) :=
  decidable_of_iff' _ (consentValid_iff i s a)

@[mk_iff] structure ApprovalValid (lease : Option BridgeUsageLease) (s : BridgeTransition) : Prop where
  consent : ∀ a ∈ s.approval, ConsentValid i s a
  unapproved : s.approval = none → ∀ e ∈ s.effects.all, e.phase = .unsealed
  leased : i.allowlist.isSome → s.approval.isSome = s.usageLease.isSome
  unleased : i.allowlist = none → s.usageLease = none
  sameLease : s.usageLease = none ∨ s.usageLease = lease
  awaiting : s.state = .awaitingApproval → s.approval = none
  begun : s.state ≠ .awaitingApproval → s.state ≠ .failedBeforeEffect → s.approval.isSome

instance (lease : Option BridgeUsageLease) (s : BridgeTransition) : Decidable (ApprovalValid i lease s) :=
  decidable_of_iff' _ (approvalValid_iff i lease s)

/-- A source proof is that of the bridge call's receipt. -/
def sourceBound (bridge : BridgeEffect) (p : BridgeSourceProof) : Bool :=
  (BridgeEffect.proof? bridge).any (fun proof =>
    proof.status = .success && p.blockNumberAtomic = proof.block.numberAtomic &&
    p.blockHash = proof.block.hash && p.logsHash = proof.logsHash) &&
  bridge.transactionHash = some p.transactionHash && p.chainId = i.request.fromChainId &&
  p.tool = i.tool && p.correlation.kind = i.tool && p.sourceAmountAtomic = i.request.amountAtomic &&
  p.bridgeAmountAtomic = i.decoded.bridgeAmountAtomic &&
  p.feeForwardedAtomic = i.decoded.feeAmountAtomic

/-- The fill fields each tool's proof has. -/
def fillMatches (p : BridgeDestinationProof) : Bool :=
  if i.tool = .across then
    p.fillType.isSome && p.relayerCredit.isSome && p.repaymentChainIdAtomic.isSome &&
    (p.fillType ≠ some 2 || (p.relayerCredit = some bridgeZeroWord && p.repaymentChainIdAtomic = some 0))
  else p.fillType.isNone && p.relayerCredit.isNone && p.repaymentChainIdAtomic.isNone

/-- What a native lane's proof adds, bound to the transaction the provider named. -/
def nativeMatches (observation : Option BridgeProviderObservation) (p : BridgeDestinationProof) : Bool :=
  !i.request.providerBoundNative ||
  (bridgeProviderSettled i.decoded observation &&
    (observation.bind BridgeProviderObservation.evmHash) = some p.transactionHash &&
    (p.nativeBalance.any fun b => b.recipient = i.request.recipient) &&
    (i.decoded.composite.isSome ||
      ((p.nativeTransfer.any fun t =>
          t.transactionHash = p.transactionHash && t.to' = i.request.recipient &&
          t.valueAtomic = p.amountAtomic) &&
        p.nativeBalance.any fun b => i.request.minOutputAtomic ≤ b.deltaAtomic)))

/-- What a composite lane's proof adds. -/
def compositeMatches (p : BridgeDestinationProof) : Bool :=
  i.decoded.composite.all fun input =>
    p.nativeTransfer.isNone && p.compositeTrace.any fun t =>
      t.transactionHash = p.transactionHash && t.inputAmountAtomic = input &&
      p.amountAtomic = t.deliveredAmountAtomic

/-- A destination proof delivers what the source proof sent. -/
def deliveryMatches (source : BridgeSourceProof) (p : BridgeDestinationProof) : Bool :=
  p.correlationHash = source.correlation && p.tool = i.tool && p.chainId = i.request.toChainId &&
  p.recipient = i.request.recipient && p.token = i.request.toToken &&
  p.blockNumberAtomic ≤ p.safeBlock.numberAtomic &&
  (i.decoded.composite.isSome ||
    (i.request.minOutputAtomic ≤ p.amountAtomic && p.amountAtomic = source.correlation.amountAtomic))

def destinationBound (observation : Option BridgeProviderObservation)
    (source : Option BridgeSourceProof) (p : BridgeDestinationProof) : Bool :=
  fillMatches i p && nativeMatches i observation p && compositeMatches i p &&
  source.any fun source => deliveryMatches i source p

/-- The observation of a provider whose word the record rests on. -/
def settledObservation (s : BridgeMutable) : Option BridgeProviderObservation :=
  s.providerObservation.filter fun p =>
    p.status = .completedObserved ||
      (s.destinationProof.isSome && bridgeProviderSettled i.decoded s.providerObservation)

/-- The provider's word rests on a safe bridge call, and names the transaction that was proved. -/
@[mk_iff] structure ObservationValid (s : BridgeTransition) (p : BridgeProviderObservation) : Prop where
  response : p.responseHash.isSome
  evm : p.evmHash.isSome
  safe : s.effects.bridge.phase = .safeSuccess
  source : s.sourceProof.map BridgeSourceProof.transactionHash = s.effects.bridge.transactionHash
  sourced : s.sourceProof.isSome
  destination : ∀ d ∈ s.destinationProof, p.evmHash = some d.transactionHash
  submitted : ∀ t ∈ s.effects.bridge.submittedAt, t ≤ p.observedAt
  wasSubmitted : s.effects.bridge.submittedAt.isSome
  observed : p.observedAt ≤ s.at'

instance (s : BridgeTransition) (p : BridgeProviderObservation) : Decidable (ObservationValid s p) :=
  decidable_of_iff' _ (observationValid_iff s p)

/-- The composite outcome a proof ended with. -/
def outcome? (s : BridgeMutable) : Option BridgeCompositeOutcome :=
  (s.destinationProof.bind BridgeDestinationProof.compositeTrace).map BridgeCompositeTrace.outcome

def outcomeText : BridgeCompositeOutcome → String
  | .completedNative => "completed_native"
  | .recoveredWeth => "recovered_weth"
  | .belowFloor => "below_floor"
  | .protocolMismatch => "protocol_mismatch"

/-- The states a bridge that moved can end in. -/
@[mk_iff] structure DeliveryValid (s : BridgeMutable) : Prop where
  completed : s.state = .completed →
    (∀ e ∈ s.effects.all, e.phase = .safeSuccess) ∧ s.destinationProof.isSome ∧ s.sourceProof.isSome ∧
      (i.decoded.composite.isSome → outcome? s = some .completedNative)
  failed : s.state = .destinationFailed →
    (∀ e ∈ s.effects.all, e.phase = .safeSuccess) ∧ s.sourceProof.isSome ∧ s.failure.isSome ∧
      ∀ f ∈ s.failure, f.reason = "protocol_mismatch" ∨
        ((f.reason = "recovered_weth" ∨ f.reason = "below_floor") ∧
          (outcome? s).map outcomeText = some f.reason)

instance (s : BridgeMutable) : Decidable (DeliveryValid i s) :=
  decidable_of_iff' _ (deliveryValid_iff i s)

/-- The states an operation whose bridge never moved can end in. -/
@[mk_iff] structure ClosureValid (s : BridgeMutable) : Prop where
  beforeEffect : s.state = .failedBeforeEffect →
    (∀ e ∈ s.effects.all, e.submissionAttempts = 0 ∧ e.phase ≠ .signingStarted) ∧ s.failure.isSome
  afterApproval : s.state = .failedAfterApproval →
    s.effects.approval.map BridgeEffect.phase = some .safeSuccess ∧
      s.effects.bridge.submissionAttempts = 0 ∧ s.effects.bridge.phase ≠ .signingStarted ∧
      s.failure.isSome
  reverted : s.state = .failedConfirmedRevert →
    ((s.effects.approval.map BridgeEffect.phase = some .safeRevert ∧
        s.effects.bridge.submissionAttempts = 0) ∨
      ((∀ a ∈ s.effects.approval, a.phase = .safeSuccess) ∧ s.effects.bridge.phase = .safeRevert)) ∧
      s.failure.isSome

instance (s : BridgeMutable) : Decidable (ClosureValid s) := decidable_of_iff' _ (closureValid_iff s)

/-- The bridge call was not signed, behind an approval that was sent. -/
def unsubmittedBridgeAfterApproval (s : BridgeMutable) (d : BridgePreSignRpcFailure) : Bool :=
  d.effectRole = .bridge && (s.effects.approval.any fun a => a.submissionAttempts = 1) &&
  s.effects.bridge.submissionAttempts = 0 && s.effects.bridge.phase = .unsealed

/-- The states a pre-sign diagnostic of a halted effect goes with. -/
def compatibleState (s : BridgeMutable) (d : BridgePreSignRpcFailure) : Bool :=
  let after := unsubmittedBridgeAfterApproval s d
  let approval := s.effects.approval.map BridgeEffect.phase
  (s.state = .failedBeforeEffect && d.effectRole = s.effects.firstRole &&
    (s.effects.get? d.effectRole).any fun e => e.phase = .unsealed && e.submissionAttempts = 0) ||
  (s.state = .failedAfterApproval && after && approval = some .safeSuccess) ||
  (s.state = .sourcePending && after &&
    (approval = some .includedSuccess || approval = some .safeSuccess)) ||
  (s.state = .unknownFinality && after) ||
  (s.state = .failedConfirmedRevert && after && approval = some .safeRevert)

/-- A deferred guard: the effect is not submitted, and the operation goes on. -/
def deferredState (s : BridgeMutable) (f : BridgeFailure) (d : BridgePreSignRpcFailure) : Bool :=
  f.reason = bridgePreSignRpcUnavailable && !s.state.terminal &&
  (s.effects.get? d.effectRole).any fun e =>
    (e.phase = .unsealed || e.phase = .sealed) && e.submissionAttempts = 0

def preSignValid (s : BridgeMutable) (f : BridgeFailure) (d : BridgePreSignRpcFailure) : Bool :=
  ((f.reason = unsentRpcAmbiguous && compatibleState s d) || deferredState s f d) &&
  d.chainId = (if d.chainRole = .source then i.request.fromChainId else i.request.toChainId) &&
  d.category = d.stage.category && d.chainRole = d.stage.chainRole &&
  (s.effects.get? d.effectRole).isSome

@[mk_iff] structure FailureValid (s : BridgeMutable) (f : BridgeFailure) : Prop where
  preSign : ∀ d ∈ f.preSignRpc, preSignValid i s f d = true
  observed : f.residualAllowanceStatus = some .observed → f.residualAllowance.isSome
  unavailable : f.residualAllowanceStatus = some .unavailable → f.residualAllowance = none

instance (s : BridgeMutable) (f : BridgeFailure) : Decidable (FailureValid i s f) :=
  decidable_of_iff' _ (failureValid_iff i s f)

/-- `validateSnapshot` -/
@[mk_iff] structure SnapshotValid (lease : Option BridgeUsageLease) (s : BridgeTransition) : Prop where
  bridge : EffectValid i.bridgeEnvelope s.at' s.effects.bridge
  approvalEffect : ∀ a ∈ s.effects.approval, EffectValid i.approvalEnvelope s.at' a
  approval : ApprovalValid i lease s
  source : ∀ p ∈ s.sourceProof, sourceBound i s.effects.bridge p = true
  destination : ∀ p ∈ s.destinationProof,
    destinationBound i s.providerObservation s.sourceProof p = true
  observation : ∀ p ∈ settledObservation i s.toBridgeMutable, ObservationValid s p
  delivery : DeliveryValid i s.toBridgeMutable
  closure : ClosureValid s.toBridgeMutable
  failure : ∀ f ∈ s.failure, FailureValid i s.toBridgeMutable f

instance (lease : Option BridgeUsageLease) (s : BridgeTransition) :
    Decidable (SnapshotValid i lease s) := decidable_of_iff' _ (snapshotValid_iff i lease s)

/-! ## Steps -/

/-- What was set stays as it is. -/
def Retained {α : Type} (previous next : Option α) : Prop := previous = none ∨ next = previous

instance {α : Type} [DecidableEq α] (previous next : Option α) : Decidable (Retained previous next) :=
  inferInstanceAs (Decidable (_ ∨ _))

@[mk_iff] structure EffectStep (e next : BridgeEffect) : Prop where
  phase : e.phase = next.phase ∨ next.phase ∈ e.phase.edges
  transactionHash : Retained e.transactionHash next.transactionHash
  sealedMaterialHash : Retained e.sealedMaterialHash next.sealedMaterialHash
  attempts : e.submissionAttempts ≤ next.submissionAttempts
  submittedAt : Retained e.submittedAt next.submittedAt
  safeProof : Retained e.safeProof next.safeProof

instance (e next : BridgeEffect) : Decidable (EffectStep e next) := decidable_of_iff' _ (effectStep_iff e next)

/-- The step of an effect that may not be there. -/
def EffectsStep : Option BridgeEffect → Option BridgeEffect → Prop
  | some e, some next => EffectStep e next
  | none, none => True
  | _, _ => False

instance : (e next : Option BridgeEffect) → Decidable (EffectsStep e next)
  | some e, some next => inferInstanceAs (Decidable (EffectStep e next))
  | none, none => inferInstanceAs (Decidable True)
  | some _, none => inferInstanceAs (Decidable False)
  | none, some _ => inferInstanceAs (Decidable False)

/-- `validateTransition` -/
@[mk_iff] structure TransitionValid (p n : BridgeTransition) : Prop where
  live : p.state.terminal = false
  state : p.state = n.state ∨ n.state ∈ p.state.edges
  clock : p.at' ≤ n.at'
  approval : Retained p.approval n.approval
  usageLease : Retained p.usageLease n.usageLease
  approvalEffect : EffectsStep p.effects.approval n.effects.approval
  bridge : EffectStep p.effects.bridge n.effects.bridge
  -- the bridge call is not signed before its approval has landed
  order : p.effects.bridge.phase = .unsealed → n.effects.bridge.phase = .signingStarted →
    ∀ a ∈ n.effects.approval, a.phase.landed = true
  destinationProof : Retained p.destinationProof n.destinationProof

instance (p n : BridgeTransition) : Decidable (TransitionValid p n) :=
  decidable_of_iff' _ (transitionValid_iff p n)

/-- The transition prepare makes. -/
def initialTransition (approval : Bool) : BridgeTransition :=
  { state := .awaitingApproval
    approval := none
    effects := ⟨if approval then some newBridgeEffect else none, newBridgeEffect⟩
    sourceProof := none
    destinationProof := none
    providerObservation := none
    failure := none
    usageLease := none
    at' := i.preparedAt }

/-- The transitions of a record, newest first. -/
def TransitionsValid (lease : Option BridgeUsageLease) : List BridgeTransition → Prop
  | [] => False
  | [first] => first = initialTransition i first.effects.approval.isSome
  | n :: p :: earlier =>
    TransitionValid p n ∧ SnapshotValid i lease n ∧ TransitionsValid lease (p :: earlier)

instance (lease : Option BridgeUsageLease) : (l : List BridgeTransition) →
    Decidable (TransitionsValid i lease l)
  | [] => inferInstanceAs (Decidable False)
  | [first] => inferInstanceAs (Decidable (first = _))
  | _ :: p :: earlier =>
    have : Decidable (TransitionsValid i lease (p :: earlier)) := instDecidableTransitionsValid lease _
    inferInstanceAs (Decidable (_ ∧ _ ∧ _))

/-- The lease is this operation's reservation, under the policy that admitted it. -/
@[mk_iff] structure LeaseValid (b : BridgeAllowlistBinding) (l : BridgeUsageLease) : Prop where
  state : l.state = .reserved
  operationId : l.operationId = i.operationId
  policyDigest : l.policyDigest = b.policyDigest
  amountAtomic : l.amountAtomic = b.amountAtomic
  account : l.account = b.account
  chain : l.chain = b.chain
  asset : l.asset = b.asset

instance (b : BridgeAllowlistBinding) (l : BridgeUsageLease) : Decidable (LeaseValid i b l) :=
  decidable_of_iff' _ (leaseValid_iff i b l)

end Bridge

namespace BridgeOperation

def transitions (o : BridgeOperation) : List BridgeTransition := o.latest :: o.earlier

/-- `validateBridgeOperation` -/
def Valid (o : BridgeOperation) : Prop :=
  Bridge.TransitionsValid o.intent o.latest.usageLease o.transitions ∧
    ∀ b ∈ o.intent.allowlist, ∀ l ∈ o.latest.usageLease, Bridge.LeaseValid o.intent b l

instance (o : BridgeOperation) : Decidable o.Valid := inferInstanceAs (Decidable (_ ∧ _))

/-- One more transition. -/
def append (o : BridgeOperation) (next : BridgeMutable) (at' : ℤ) : BridgeOperation :=
  { o with latest := { next with at' := at' }, earlier := o.transitions }

/-- `assertBridgeAppend` -/
def Appends (previous next : BridgeOperation) : Prop :=
  next = previous ∨
    (previous.terminal = false ∧ next.intent = previous.intent ∧ next.earlier = previous.transitions)

instance (previous next : BridgeOperation) : Decidable (Appends previous next) :=
  inferInstanceAs (Decidable (_ ∨ _))

end BridgeOperation

namespace Bridge

/-- When a provider was asked is no change of what is known. -/
def observationMeaning (m : BridgeMutable) : BridgeMutable :=
  { m with providerObservation := m.providerObservation.map fun p =>
      { p with observedAt := 0, responseHash := none } }

/-- `transitionBridge`, of the record with the patch on it. -/
def transitionBridge (op : BridgeOperation) (next : BridgeMutable) (at' : ℤ) : Result BridgeOperation :=
  let result := op.append next at'
  if observationMeaning op.latest.toBridgeMutable = observationMeaning next then .ok op
  else if 512 ≤ op.transitions.length then blocked "Bridge validation failed: bridge_history_capacity."
  else if op.Valid ∧ result.Valid ∧ op.Appends result then .ok result
  else corrupt "Bridge validation failed: durable_bridge_binding."

/-- The record prepare makes. -/
def newBridgeOperation (i : BridgeIntent) (approval : Bool) : BridgeOperation :=
  ⟨i, initialTransition i approval, []⟩

end Bridge
end PaymentNode
