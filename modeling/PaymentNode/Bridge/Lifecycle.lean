import PaymentNode.Lib.Trace
import PaymentNode.Bridge.Validation

/-!
# Lifecycle — the calls on one bridge operation, as programs

`approve` and `resume`, with the execution of the effects and the observation of the chains.  Everything that reads
or writes a file, the clock, the custody, the RPC or the provider is an operation of its own; the policy, the usage
ledger, the guard's reads and the invocation's read budget are asked as questions with any answer.  The appending
of a transition is an operation too, so that a refused patch leaves a trace.  A call holds the operation's locks
from its start to its end.
-/

namespace PaymentNode

/-- What can be thrown, as far as the calls tell it apart; no code stands for what is no `ApnError`. -/
structure BridgeError where
  code : Option String
  reason : Option String
  /-- An HTTP 408 or 5xx answer. -/
  httpUnavailable : Bool
deriving DecidableEq, Repr

namespace BridgeError

def apn (code reason : String) : BridgeError := ⟨some code, some reason, false⟩

def budgetExhausted (e : BridgeError) : Bool :=
  e.code = some "APN_RPC_BUDGET_EXCEEDED" && e.reason ≠ some "maxBatchItems"

def rateLimited (e : BridgeError) : Bool := e.code = some "APN_RPC_RATE_LIMITED"

/-- `bridgeTransientRpcFailure` -/
def transient (e : BridgeError) : Bool :=
  e.code = some "APN_RPC_AMBIGUOUS" || (e.code = some "APN_RPC_PROTOCOL" && e.httpUnavailable)

end BridgeError

/-- A guard that fails, at the read it failed at. -/
structure BridgeGuardFault where
  error : BridgeError
  stage : Option (BridgePreSignRpcStage × Option String)
deriving DecidableEq, Repr

/-- A canonical inclusion of an effect, with what its receipt proves of the bridge protocol. -/
structure BridgeSourceObservation where
  transaction : BridgeTransactionProof
  /-- `bridgeSourceProof` of the receipt. -/
  sourceProof : Except BridgeError BridgeSourceProof

inductive BridgeDestinationFault
  | pending
  | bnbProtocolMismatch
  | other (e : BridgeError)
deriving DecidableEq, Repr

inductive BridgeAsk
  /-- `authorityPolicy`, and the checks of an effect authority. -/
  | authority
  | reserve
  | followUsage
  | guard (role : BridgeRole)
  /-- What is left of the invocation's read budget, where there is one. -/
  | budget
  | destination (op : BridgeOperation) (hash : String)
  | residual
deriving DecidableEq, Repr

def BridgeAsk.Answer : BridgeAsk → Type
  | authority | followUsage => Except BridgeError Unit
  | reserve => Except BridgeError BridgeUsageLease
  | guard _ => Option BridgeGuardFault
  | budget => Option ℕ
  | destination _ _ => Except BridgeDestinationFault BridgeDestinationProof
  | residual => Except BridgeError BridgeResidualAllowance

inductive BridgeOp
  /-- The locks are taken and the record is read under them. -/
  | lock
  | transition (op : BridgeOperation) (next : BridgeMutable) (at' : ℤ)
  | persist (next : BridgeOperation)
  | now
  | confirm
  | sendClaim (role : BridgeRole)
  | claimSign (role : BridgeRole)
  | claimSend (role : BridgeRole) (bytes : BridgeClaimedBytes)
  | custodySeal (op : BridgeOperation) (role : BridgeRole)
  | load (role : BridgeRole)
  | send (role : BridgeRole) (rawTransaction : String)
  | observe (role : BridgeRole)
  | providerStatus
  | ask (q : BridgeAsk)
  /-- The journals are rolled back to a record they held. -/
  | restore (o : BridgeOperation)

def BridgeOp.Answer : BridgeOp → Type
  | lock => Except BridgeError BridgeOperation
  | transition _ _ _ => Except BridgeError BridgeOperation
  | persist _ | claimSign _ | claimSend _ _ => Except BridgeError Unit
  | now => ℤ
  | confirm => Except BridgeError Bool
  | sendClaim _ => Except BridgeError (Option BridgeClaimedBytes)
  | custodySeal _ _ => Except BridgeError BridgeSealedMaterial
  | load _ => Except BridgeError (Option BridgeSealedMaterial)
  | send _ _ => Except BridgeError String
  | observe _ => Except BridgeError (Option BridgeSourceObservation)
  | providerStatus => Option BridgeProviderObservation
  | ask q => q.Answer
  | restore _ => Unit

abbrev BridgeProg (α : Type) := Prog BridgeOp BridgeOp.Answer BridgeError α

namespace BridgeProg

variable {α : Type}

def run (o : BridgeOp) (h : o.Answer = Except BridgeError α) : BridgeProg α := Prog.run o h

def ask (q : BridgeAsk) : BridgeProg q.Answer := Prog.perform (BridgeOp.ask q)

/-- A question whose failure is thrown. -/
def call (q : BridgeAsk) (h : q.Answer = Except BridgeError α) : BridgeProg α := run (.ask q) h

def now : BridgeProg ℤ := Prog.perform BridgeOp.now
def persist (next : BridgeOperation) : BridgeProg Unit := run (.persist next) rfl
def confirm : BridgeProg Bool := run .confirm rfl
def sendClaim (role : BridgeRole) : BridgeProg (Option BridgeClaimedBytes) := run (.sendClaim role) rfl
def claimSign (role : BridgeRole) : BridgeProg Unit := run (.claimSign role) rfl
def claimSend (role : BridgeRole) (bytes : BridgeClaimedBytes) : BridgeProg Unit :=
  run (.claimSend role bytes) rfl
def load (role : BridgeRole) : BridgeProg (Option BridgeSealedMaterial) := run (.load role) rfl

/-- `bridgeFailure` -/
def refuse (code reason : String) : BridgeProg α := Prog.fail (.apn code reason)

end BridgeProg

open BridgeProg

namespace Bridge

def minRemainingMs : ℤ := 15000

variable (op : BridgeOperation)

def assertBridgeRemaining (now : ℤ) : Except BridgeError Unit :=
  if op.intent.expiresAt - now < minRemainingMs then
    .error (.apn "APN_REPREPARE_REQUIRED" "bridge_validity_remaining")
  else .ok ()

/-- `save`: the transition, the durable record, and the usage ledger behind it. -/
def save (next : BridgeMutable) : BridgeProg BridgeOperation := do
  let at' ← now
  let next ← run (.transition op next at') rfl
  persist next
  call .followUsage rfl
  return next

variable (role : BridgeRole)

/-- The record with this effect in its place. -/
def withEffect (effect : BridgeEffect) : BridgeMutable :=
  { op.latest.toBridgeMutable with effects := op.effects.replace role effect }

def clearedDeferral (m : BridgeMutable) : BridgeMutable :=
  if m.failure.any fun f => f.reason = bridgePreSignRpcRateLimited ∨ f.reason = bridgePreSignRpcUnavailable then
    { m with failure := none }
  else m

variable (signing : BridgeSigning)

def validateMaterial (material : BridgeSealedMaterial) (op : BridgeOperation)
    (role : BridgeRole) : Except BridgeError Unit :=
  match op.effect? role with
  | none => .error (.apn "APN_STATE_CORRUPT" "bridge_effect_identity")
  | some e =>
    if material.role ≠ role then .error (.apn "APN_STATE_CORRUPT" "bridge_effect_identity")
    else if material.materialHash ≠ signing.materialHash role material.rawTransaction then
      .error (.apn "APN_STATE_CORRUPT" "bridge_effect_hash")
    else if (e.transactionHash.any fun h => h ≠ material.transactionHash) ∨
        e.sealedMaterialHash.any fun h => h ≠ material.materialHash then
      .error (.apn "APN_STATE_CORRUPT" "bridge_committed_material_identity")
    else if material.transactionHash ≠ signing.transactionHash material.rawTransaction ∨
        ¬ signing.verifies (op.intent.envelope role) material.rawTransaction then
      .error (.apn "APN_STATE_CORRUPT" "signed_bridge_transaction")
    else .ok ()

/-! ## Observation -/

def observationFailure (error : Option BridgeError) (fallbackCode : String) :
    BridgeFailure :=
  { BridgeFailure.plain "source_observation_unavailable" with
    observationRpc := some ⟨.source, role, (error.bind BridgeError.code) <|> some fallbackCode,
      error.bind BridgeError.reason⟩ }

def destinationObservationFailure (reason : String) (e : BridgeError) : BridgeFailure :=
  { BridgeFailure.plain reason with
    observationRpc := e.code.map fun code => ⟨.destination, .bridge, some code, e.reason⟩ }

/-- The phase an inclusion puts an effect in. -/
def observedPhase (t : BridgeTransactionProof) : BridgeEffectPhase :=
  match t.safeBlock, t.status with
  | none, .success => .includedSuccess
  | none, .reverted => .includedRevert
  | some _, .success => .safeSuccess
  | some _, .reverted => .safeRevert

/-- An effect whose inclusion is unknown again. -/
def unknownEffect (e : BridgeEffect) : BridgeEffect :=
  { e with phase := .unknownFinality, includedProof := none, safeProof := none }

def unsourced (m : BridgeMutable) : BridgeMutable :=
  if role = .bridge then { m with sourceProof := none } else m

/-- The record with an inclusion stored. -/
def withInclusion (current : BridgeEffect)
    (t : BridgeTransactionProof) (sourceProof : Option BridgeSourceProof) (reliable : Bool) :
    BridgeMutable :=
  { withEffect op role { current with
      phase := observedPhase t
      includedProof := some t
      safeProof := if t.safeBlock.isNone then none else some t } with
    state := if reliable then .sourcePending else .unknownFinality
    sourceProof := sourceProof
    failure := if reliable then retainedUnsentBridgeRpcFailure op.latest.toBridgeMutable else op.failure }

/-- An observation failed: nothing is known of the effect that was not known. -/
def observationLost (e : BridgeError) : BridgeMutable :=
  { op.latest.toBridgeMutable with
    state := .unknownFinality
    failure := (retainedUnsentBridgeRpcFailure op.latest.toBridgeMutable) <|>
      some (observationFailure role (some e) "APN_INTERNAL") }

/-- No receipt of a safe effect. -/
def safeReceiptMissing : BridgeMutable :=
  { op.latest.toBridgeMutable with
    state := .unknownFinality
    failure := (retainedUnsentBridgeRpcFailure op.latest.toBridgeMutable) <|>
      some { observationFailure role none "APN_RECEIPT_NOT_FOUND" with
        reason := "safe_source_observation_conflict" } }

section

variable (effect : BridgeEffect)

/-- No receipt of an effect that is not safe. -/
def receiptMissing : BridgeMutable :=
  unsourced role { withEffect op role (unknownEffect effect) with
    state := .unknownFinality
    failure := (retainedUnsentBridgeRpcFailure op.latest.toBridgeMutable) <|>
      some (observationFailure role none "APN_RECEIPT_NOT_FOUND") }

/-- A safe effect that is read elsewhere. -/
def safeConflict : BridgeMutable :=
  { op.latest.toBridgeMutable with
    state := .unknownFinality
    failure := (retainedUnsentBridgeRpcFailure op.latest.toBridgeMutable) <|>
      some (.plain "safe_source_observation_conflict") }

/-- An inclusion that disappeared or moved. -/
def inclusionMoved : BridgeMutable :=
  unsourced role { withEffect op role (unknownEffect effect) with state := .unknownFinality }

/-- A receipt whose logs do not prove the deposit. -/
def evidenceUnavailable (e : BridgeError) : BridgeMutable :=
  { op.latest.toBridgeMutable with
    state := .unknownFinality
    failure := some { BridgeFailure.plain "source_protocol_evidence_unavailable" with
      observationRpc := some ⟨.source, role, e.code <|> some "APN_RPC_PROTOCOL", some "source_proof"⟩ } }

/-- An inclusion of an effect that is not safe yet. -/
def observeInclusion
    (seen : BridgeSourceObservation) (reliable : Bool) : BridgeProg (BridgeOperation × Bool) := do
  let t := seen.transaction
  let moved := effect.includedProof.any fun p => p.inclusion ≠ t.inclusion
  let op ← if moved then save op (inclusionMoved op role effect) else Prog.ret op
  match op.effect? role with
  | none => refuse "APN_STATE_CORRUPT" "durable_bridge_binding"
  | some current =>
    if role = .bridge ∧ t.status = .success then
      match seen.sourceProof with
      | .error e => do
        let op ← save op (evidenceUnavailable op role e)
        return (op, false)
      | .ok proof => do
        let op ← save op (withInclusion op role current t (some proof) reliable)
        return (op, reliable)
    else do
      let op ← save op (withInclusion op role current t op.latest.sourceProof reliable)
      return (op, reliable)

/-- One effect's observation: the record, whether it is reliable, and whether the loop goes on. -/
def observeEffect (reliable : Bool) :
    BridgeProg (BridgeOperation × Bool × Bool) := do
  let answer ← Prog.perform (BridgeOp.observe role)
  match (answer : Except BridgeError (Option BridgeSourceObservation)) with
  | .error e =>
    if e.budgetExhausted then return (op, false, false)
    else do
      let op ← save op (observationLost op role e)
      return (op, false, true)
  | .ok none =>
    if effect.safeProof.isSome then do
      let op ← save op (safeReceiptMissing op role)
      return (op, false, true)
    else do
      let op ← save op (receiptMissing op role effect)
      return (op, false, true)
  | .ok (some seen) =>
    match effect.safeProof with
    | some safe =>
      if seen.transaction.safeBlock.isNone ∨ safe.inclusion ≠ seen.transaction.inclusion then do
        let op ← save op (safeConflict op)
        return (op, false, true)
      else return (op, reliable, true)
    | none => do
      let (op, reliable) ← observeInclusion op role effect seen reliable
      return (op, reliable, true)

/-- The effect needs no observation. -/
def settledEffect (e : BridgeEffect) : Bool :=
  e.submissionAttempts = 0 ||
    (e.phase = .safeSuccess && e.safeProof.isSome && (role ≠ .bridge || op.latest.sourceProof.isSome))

/-- `sources`: every submitted effect is observed; the record, and whether all answered. -/
def sourcesFrom : List BridgeRole → BridgeOperation → Bool → BridgeProg (BridgeOperation × Bool)
  | [], op, reliable => Prog.ret (op, reliable)
  | role :: roles, op, reliable =>
    match op.effect? role with
    | none => refuse "APN_STATE_CORRUPT" "durable_bridge_binding"
    | some effect =>
      if settledEffect op role effect then sourcesFrom roles op reliable
      else do
        let (op, reliable, goesOn) ← observeEffect op role effect reliable
        if goesOn then sourcesFrom roles op reliable else Prog.ret (op, reliable)

def sources : BridgeProg (BridgeOperation × Bool) :=
  sourcesFrom op.effects.roles op true

/-- `residualObservation`: the allowance left, when it can be read. -/
def residualObservation : BridgeProg (Option BridgeResidualAllowance) := do
  let answer ← ask .residual
  match (answer : Except BridgeError BridgeResidualAllowance) with
  | .ok residual => return some residual
  | .error _ => return none

def finish (reason : String) : BridgeProg BridgeOperation :=
  match op.effects.bridge.safeProof with
  | none => refuse "APN_STATE_CORRUPT" "durable_bridge_binding"
  | some proof =>
    save op { op.latest.toBridgeMutable with
      state := .completed
      failure := some { BridgeFailure.plain reason with
        residualAllowance := some ⟨0, proof.block, proof.rpcOrigin⟩ } }

/-- The failure a residual read ends with. -/
def residualFailure (reason : String) (residual : Option BridgeResidualAllowance) : BridgeFailure :=
  { BridgeFailure.plain reason with
    residualAllowance := residual
    residualAllowanceStatus := some (if residual.isSome then .observed else .unavailable) }

def finishDestinationFailure (reason : String) : BridgeProg BridgeOperation := do
  let residual ← residualObservation
  save op { op.latest.toBridgeMutable with
    state := .destinationFailed
    failure := some (residualFailure reason residual) }

/-- A provider status that is neither waiting nor complete. -/
def exceptionalStatus (m : BridgeMutable) : Option BridgeProviderStatus :=
  (m.providerObservation.map BridgeProviderObservation.status).filter fun s =>
    s ≠ .notFound && s ≠ .pending && s ≠ .completedObserved

def waiting : BridgeProg BridgeOperation :=
  save op { op.latest.toBridgeMutable with
    state := if (exceptionalStatus op.latest.toBridgeMutable).isSome then .unknownFinality
      else .destinationPending
    failure := (exceptionalStatus op.latest.toBridgeMutable).map fun s =>
      .plain s!"provider_{s.text}_unproved" }

def reusableProviderObservation : Except BridgeError Bool :=
  match op.latest.providerObservation with
  | some p =>
    if p.status ≠ .completedObserved then .ok false
    else if op.latest.sourceProof.isNone ∨ op.effects.bridge.phase ≠ .safeSuccess ∨
        op.effects.bridge.transactionHash ≠ op.latest.sourceProof.map BridgeSourceProof.transactionHash ∨
        p.responseHash.isNone ∨ p.evmHash.isNone then
      .error (.apn "APN_STATE_CORRUPT" "durable_bridge_provider_binding")
    else
      let reason := (op.failure.bind BridgeFailure.observationRpc).bind BridgeObservationRpcFailure.reason
      .ok (reason ≠ some "destination_transaction_reverted" ∧ reason ≠ some "destination_fill_unmatched")
  | none => .ok false

/-- The provider is asked again unless its word still stands. -/
def askProvider : BridgeProg BridgeOperation := do
  let reusable ← Prog.ofExcept (reusableProviderObservation op)
  if reusable then Prog.ret op
  else do
    let observation ← Prog.perform BridgeOp.providerStatus
    match (observation : Option BridgeProviderObservation) with
    | none => Prog.ret op
    | some p => save op { op.latest.toBridgeMutable with providerObservation := some p }

def withDestinationProof (proof : BridgeDestinationProof) : BridgeMutable :=
  { op.latest.toBridgeMutable with destinationProof := some proof }

/-- A destination that could not be read. -/
def destinationUnavailable (reason : String) (e : BridgeError) : BridgeMutable :=
  { op.latest.toBridgeMutable with
    state := .unknownFinality
    failure := some (destinationObservationFailure reason e) }

/-- How a proved destination ends a native lane. -/
def finishNative (proof : BridgeDestinationProof) : BridgeProg BridgeOperation :=
  match proof.compositeTrace.map BridgeCompositeTrace.outcome with
  | none => finish op "delivery_correlated"
  | some .completedNative => finish op "completed_native"
  | some outcome => finishDestinationFailure op (outcomeText outcome)

/-- A native lane's destination, at the transaction the provider names. -/
def nativeDestination (hash : String) : BridgeProg BridgeOperation := do
  let answer ← ask (.destination op hash)
  match (answer : Except BridgeDestinationFault BridgeDestinationProof) with
  | .error .pending => waiting op
  | .error .bnbProtocolMismatch => do
    let op ← save op op.latest.toBridgeMutable
    finishDestinationFailure op "protocol_mismatch"
  | .error (.other e) =>
    if e.budgetExhausted then Prog.ret op
    else save op (destinationUnavailable op "evidence_unavailable" e)
  | .ok proof => do
    let op ← save op (withDestinationProof op proof)
    finishNative op proof

/-- A token lane's destination. -/
def tokenDestination (hash : String) : BridgeProg BridgeOperation := do
  let answer ← ask (.destination op hash)
  match (answer : Except BridgeDestinationFault BridgeDestinationProof) with
  | .error .pending => waiting op
  | .error .bnbProtocolMismatch =>
    save op (destinationUnavailable op "destination_observation_unavailable" ⟨none, none, false⟩)
  | .error (.other e) =>
    if e.budgetExhausted then Prog.ret op
    else save op (destinationUnavailable op "destination_observation_unavailable" e)
  | .ok proof => do
    let op ← save op (withDestinationProof op proof)
    finish op "delivery_correlated"

def destinationProof (op : BridgeOperation) : BridgeProg BridgeOperation :=
  if op.latest.sourceProof.isNone ∨ ¬ (op.effects.all.all fun e => e.phase = .safeSuccess) then Prog.ret op
  else if op.latest.destinationProof.isSome then finish op "delivery_correlated"
  else do
    let op ← askProvider op
    let hint := op.latest.providerObservation.bind BridgeProviderObservation.evmHash
    match hint with
    | none => waiting op
    | some hash =>
      if op.intent.request.providerBoundNative then
        if bridgeProviderSettled op.intent.decoded op.latest.providerObservation then
          nativeDestination op hash
        else waiting op
      else tokenDestination op hash

/-! ## Execution -/

def assertNoUnrecordedSend (op : BridgeOperation) : List BridgeRole → BridgeProg Unit
  | [] => Prog.ret ()
  | role :: roles =>
    if (op.effect? role).any fun e => e.submissionAttempts = 0 then do
      let claim ← sendClaim role
      if claim.isSome then refuse "APN_OPERATION_BLOCKED" "bridge_expired_effect_claim_present"
      else assertNoUnrecordedSend op roles
    else assertNoUnrecordedSend op roles

/-- What an operation that ends without its bridge call records. -/
def terminalReason (reason : String)
    (preSignRpc : Option BridgePreSignRpcFailure) (residual : Option BridgeResidualAllowance) :
    BridgeFailure :=
  let retained := retainedUnsentBridgeRpcFailure op.latest.toBridgeMutable
  let diagnostic := preSignRpc <|> retained.bind BridgeFailure.preSignRpc
  { reason := if diagnostic.isNone then reason else unsentRpcAmbiguous
    residualAllowance := residual
    residualAllowanceStatus :=
      if diagnostic.isNone && residual.isSome then none
      else some (if residual.isSome then .observed else .unavailable)
    preSignRpc := diagnostic
    observationRpc := none }

def terminalFailure (state : BridgeState) (reason : String)
    (preSignRpc : Option BridgePreSignRpcFailure) : BridgeProg BridgeOperation := do
  (if state = .failedAfterApproval then assertNoUnrecordedSend op op.effects.roles
    else Prog.ret () : BridgeProg Unit)
  let residual ← residualObservation
  save op { op.latest.toBridgeMutable with
    state := state
    failure := some (terminalReason op reason preSignRpc residual) }

/-- The diagnostic a halt records: the retained one, or that of an effect that was never signed. -/
def haltDiagnostic (boundary : Option BridgePreSignRpcFailure) :
    Option BridgePreSignRpcFailure :=
  (retainedUnsentBridgeRpcFailure op.latest.toBridgeMutable).bind BridgeFailure.preSignRpc <|>
    boundary.filter fun d =>
      (op.effect? d.effectRole).any fun effect =>
        effect.phase = .unsealed && effect.submissionAttempts = 0

def haltReason (e : BridgeError) (existing : Option String) : String :=
  ((retainedUnsentBridgeRpcFailure op.latest.toBridgeMutable).map BridgeFailure.reason <|> existing).getD
    ("unsent_" ++ (e.code.map String.toLower).getD "guard_unavailable")

def haltFailure (e : BridgeError) (boundary : Option BridgePreSignRpcFailure)
    (existing : Option String) : BridgeFailure :=
  match haltDiagnostic op boundary with
  | none => .plain (haltReason op e existing)
  | some d =>
    { reason := unsentRpcAmbiguous
      residualAllowance := none
      residualAllowanceStatus :=
        (retainedUnsentBridgeRpcFailure op.latest.toBridgeMutable).bind
          fun f => f.residualAllowanceStatus.filter fun s => s = .unavailable
      preSignRpc := some d
      observationRpc := none }

/-- `haltUnsent`; only the guard's reads name a boundary. -/
def haltUnsent (e : BridgeError) (boundary : Option BridgePreSignRpcFailure)
    (existing : Option String) : BridgeProg BridgeOperation :=
  if op.effects.all.any fun effect => effect.phase = .signingStarted then
    refuse "APN_PROVIDER_EFFECT_UNAVAILABLE" "bridge_committed_signing_material_unresolved"
  else if op.effects.all.all fun effect => effect.submissionAttempts = 0 then do
    assertNoUnrecordedSend op op.effects.roles
    save op { op.latest.toBridgeMutable with
      state := .failedBeforeEffect
      failure := some (haltFailure op e boundary existing) }
  else if op.effects.approval.map BridgeEffect.phase = some .safeSuccess ∧
      op.effects.bridge.submissionAttempts = 0 then
    terminalFailure op .failedAfterApproval (haltReason op e existing) (haltDiagnostic op boundary)
  else
    save op { op.latest.toBridgeMutable with
      state := .unknownFinality
      failure := some (haltFailure op e boundary existing) }

/-- The failure of a guard that is to be run again. -/
def deferral (e : BridgeError) (boundary : Option BridgePreSignRpcFailure) : Option BridgeFailure :=
  if e.rateLimited then some (.plain bridgePreSignRpcRateLimited)
  else if e.transient then
    some { BridgeFailure.plain bridgePreSignRpcUnavailable with preSignRpc := boundary }
  else none

def deferOrHalt (e : BridgeError) (boundary : Option BridgePreSignRpcFailure) :
    BridgeProg BridgeOperation :=
  if (retainedUnsentBridgeRpcFailure op.latest.toBridgeMutable).isSome then
    haltUnsent op e boundary none
  else match deferral e boundary with
    | none => haltUnsent op e boundary none
    | some failure =>
      if op.failure = some failure then Prog.ret op
      else save op { op.latest.toBridgeMutable with failure := some failure }

/-- `rpcBoundary`, at the stage a read of the guard failed. -/
def rpcBoundary (stage : BridgePreSignRpcStage)
    (method : Option String) : BridgePreSignRpcFailure :=
  { effectRole := role
    stage := stage
    chainRole := stage.chainRole
    chainId := if stage.chainRole = .source then op.intent.request.fromChainId
      else op.intent.request.toChainId
    category := stage.category
    method := method }

/-- `guard`: nothing when it passes, and else what it throws, with the boundary `preSignRpc` gives it. -/
def guard (op : BridgeOperation) (role : BridgeRole) :
    BridgeProg (Option (BridgeError × Option BridgePreSignRpcFailure)) := do
  let answer ← ask (.guard role)
  return (answer : Option BridgeGuardFault).map fun fault =>
    (fault.error, if fault.error.transient then
      fault.stage.map fun at' => rpcBoundary op role at'.1 at'.2 else none)

/-- `releaseUnsignedSeal`: a marker without material and without a SEND claim is taken back. -/
def releaseUnsignedSeal : List BridgeRole → BridgeOperation → BridgeProg BridgeOperation
  | [], op => Prog.ret op
  | role :: roles, op =>
    match op.effect? role with
    | none => refuse "APN_STATE_CORRUPT" "durable_bridge_binding"
    | some effect =>
      if effect.phase ≠ .signingStarted then releaseUnsignedSeal roles op
      else do
        let claim ← sendClaim role
        if claim.isSome then releaseUnsignedSeal roles op
        else do
          let material ← load role
          if material.isSome then releaseUnsignedSeal roles op
          else do
            let op ← save op (withEffect op role { effect with phase := .unsealed })
            releaseUnsignedSeal roles op

/-- The marker that a signature is under way. -/
def markSigning : BridgeMutable :=
  withEffect op role { effect with phase := .signingStarted }

def withSeal
    (material : BridgeSealedMaterial) : BridgeMutable :=
  withEffect op role { effect with
    phase := .sealed
    transactionHash := some material.transactionHash
    sealedMaterialHash := some material.materialHash }

/-- The one submission of a sealed effect, before it is made. -/
def withSubmission
    (submittedAt : ℤ) (state : BridgeState) : BridgeMutable :=
  { withEffect op role { effect with
      phase := .submitting
      submittedAt := some submittedAt
      submissionAttempts := 1 } with state := state }

/-- The effect of a role, which `op.effects.find` finds. -/
def current : BridgeProg BridgeEffect :=
  match op.effect? role with
  | some effect => Prog.ret effect
  | none => refuse "APN_STATE_CORRUPT" "durable_bridge_binding"

/-- `recordClaimedSend`: the journal catches up with a SEND claim, without signing or sending. -/
def recordClaimedSend (claimed : BridgeClaimedBytes) :
    BridgeProg BridgeOperation := do
  let loaded ← load role
  match loaded with
  | none => refuse "APN_OPERATION_BLOCKED" "bridge_effect_send_claim_unresolved"
  | some material =>
    if material.bytes ≠ claimed then refuse "APN_OPERATION_BLOCKED" "bridge_effect_send_claim_unresolved"
    else do
      let effect ← current op role
      let op ← if effect.phase = .unsealed then save op (markSigning op role effect) else Prog.ret op
      let effect ← current op role
      let op ← if effect.phase = .signingStarted then save op (withSeal op role effect material)
        else Prog.ret op
      let effect ← current op role
      let submittedAt ← now
      let op ← save op (withSubmission op role effect submittedAt .unknownFinality)
      let effect ← current op role
      let op ← save op (withEffect op role { effect with phase := .unknownFinality })
      let (op, _) ← sources op
      return op

/-- The invocation's read budget is spent. -/
def budgetBelow (needed : ℕ) : BridgeProg Bool := do
  let left ← ask .budget
  return (left : Option ℕ).any fun n => n < needed

def checkAuthority (authority : Bool) : BridgeProg Unit :=
  if authority then call .authority rfl else Prog.ret ()

/-- The signed bytes of an effect, which must be there. -/
def committedMaterial (op : BridgeOperation) (role : BridgeRole)
    (reason : String) : BridgeProg BridgeSealedMaterial := do
  let loaded ← load role
  match loaded with
  | none => refuse "APN_PROVIDER_EFFECT_UNAVAILABLE" reason
  | some material => do
    Prog.ofExcept (validateMaterial signing material op role)
    return material

/-- Where a step of the loop over the effects leaves it. -/
inductive Turn
  /-- The call ends with this record. -/
  | done (op : BridgeOperation)
  /-- The effect is where the next part needs it. -/
  | next (op : BridgeOperation)

/-- An unsealed effect is guarded, claimed, marked and signed. -/
def signEffect (authority : Bool) :
    BridgeProg Turn := do
  let fault ← guard op role
  match fault with
  | some (e, boundary) =>
    if e.budgetExhausted then return .done op
    else do
      let op ← deferOrHalt op e boundary
      return .done op
  | none => do
    let spent ← budgetBelow 2
    if spent then return .done op
    else do
      checkAuthority authority
      claimSign role
      let op ← save op (clearedDeferral (markSigning op role effect))
      let _ ← Prog.perform (BridgeOp.custodySeal op role)
      return .next op

/-- A marked effect is sealed from custody. -/
def sealEffect (op : BridgeOperation) (role : BridgeRole) :
    BridgeProg BridgeOperation := do
  let effect ← current op role
  if effect.phase = .signingStarted then do
    let material ← committedMaterial signing op role "bridge_committed_signing_material_missing"
    save op (withSeal op role effect material)
  else Prog.ret op

/-- The one send, in time: whether the endpoint took exactly these bytes. -/
def sendInTime
    (material : BridgeSealedMaterial) (at' : ℤ) : BridgeProg Bool :=
  match assertBridgeRemaining op at' with
  | .error _ => Prog.ret false
  | .ok () => do
    let answer ← Prog.perform (BridgeOp.send role material.rawTransaction)
    match (answer : Except BridgeError String) with
    | .error _ => return false
    | .ok hash => return some hash = effect.transactionHash

/-- The one send of a submitted effect, and what is known of it after. -/
def sendEffect (material : BridgeSealedMaterial) :
    BridgeProg BridgeOperation := do
  let at' ← now
  let effect ← current op role
  let sent ← sendInTime op role effect material at'
  save op { withEffect op role { effect with phase := if sent then .submittedPending else .unknownFinality } with
    state := if sent then .sourcePending else .unknownFinality }

/-- The two earlier effects of a reverted one are safe: the operation ends. -/
def confirmedRevert : Bool :=
  match role with
  | .approval => (op.effect? .approval).any fun e => e.phase = .safeRevert
  | .bridge =>
    op.effects.bridge.phase = .safeRevert && op.effects.approval.all fun e => e.phase = .safeSuccess

/-- A sealed effect is guarded again, claimed, journalled, sent and observed. -/
def submitEffect (op : BridgeOperation) (role : BridgeRole) (authority : Bool) :
    BridgeProg Turn := do
  let material ← committedMaterial signing op role "bridge_committed_sealed_material_missing"
  let fault ← guard op role
  match fault with
  | some (e, boundary) =>
    if e.budgetExhausted then return .done op
    else do
      let op ← deferOrHalt op e boundary
      return .done op
  | none => do
    let spent ← budgetBelow 1
    if spent then return .done op
    else do
      checkAuthority authority
      claimSend role material.bytes
      let effect ← current op role
      let submittedAt ← now
      let op ← save op (clearedDeferral (withSubmission op role effect submittedAt .sourcePending))
      let op ← sendEffect op role material
      let (op, reliable) ← sources op
      if ¬ reliable then return .done op
      else if confirmedRevert op role then do
        let op ← terminalFailure op .failedConfirmedRevert "source_transaction_reverted" none
        return .done op
      else if (op.effect? role).any fun e => e.phase.landed then return .next op
      else return .done op

/-- Without a fresh authority an unattempted guarded effect waits, or ends past its expiry. -/
def awaitAuthority :
    BridgeProg BridgeOperation :=
  if role = .bridge ∧ effect.phase = .unsealed ∧
      op.effects.approval.map BridgeEffect.phase = some .safeSuccess then do
    let at' ← now
    if op.intent.expiresAt ≤ at' then do
      let again ← now
      match assertBridgeRemaining op again with
      | .error e => haltUnsent op e none none
      | .ok () => Prog.ret op
    else Prog.ret op
  else Prog.ret op

end

/-- An unattempted effect, from wherever its journal stands to its observation. -/
def attemptEffect (op : BridgeOperation) (role : BridgeRole)
    (effect : BridgeEffect) (authority : Bool) : BridgeProg Turn := do
  let claimed ← sendClaim role
  match claimed with
  | some bytes => do
    let op ← recordClaimedSend op role bytes
    return .done op
  | none =>
    if op.intent.guardedWbtc ∧ authority = false then do
      let op ← awaitAuthority op role effect
      return .done op
    else do
      let signed ← if effect.phase = .unsealed then signEffect op role effect authority
        else Prog.ret (.next op)
      match signed with
      | .done op => return .done op
      | .next op => do
        let op ← sealEffect signing op role
        submitEffect signing op role authority

/-- The bridge call waits for its approval. -/
def approvalPending : Bool :=
  role = .bridge && op.effects.approval.any fun a => !a.phase.landed

/-- The loop over the effects. -/
def advance (signing : BridgeSigning) (authority : Bool) :
    List BridgeRole → BridgeOperation → BridgeProg BridgeOperation
  | [], op =>
    if op.effects.all.all fun e => e.phase = .safeSuccess then destinationProof op else Prog.ret op
  | role :: roles, op => do
    let effect ← current op role
    if effect.submissionAttempts = 1 then
      if effect.phase.landed then advance signing authority roles op else Prog.ret op
    else if approvalPending op role then Prog.ret op
    else do
      let turn ← attemptEffect signing op role effect authority
      match turn with
      | .done op => Prog.ret op
      | .next op => advance signing authority roles op

/-- `failure.reason.startsWith("unsent_")` -/
def unsentReason : Option String :=
  (op.failure.map BridgeFailure.reason).filter fun r => "unsent_".isPrefixOf r

def run (op : BridgeOperation) (authority : Bool) : BridgeProg BridgeOperation :=
  if op.terminal ∨ op.state = .awaitingApproval then Prog.ret op
  else do
    let op ← releaseUnsignedSeal op.effects.roles op
    let halted := unsentReason op
    let (op, reliable) ← sources op
    if ¬ reliable then
      match halted with
      | none => Prog.ret op
      | some reason =>
        save op { op.latest.toBridgeMutable with
          failure := some ((retainedUnsentBridgeRpcFailure op.latest.toBridgeMutable).getD (.plain reason)) }
    else if confirmedRevert op .approval ∨ confirmedRevert op .bridge then
      terminalFailure op .failedConfirmedRevert "source_transaction_reverted" none
    else if op.effects.all.any fun e => e.phase = .includedRevert ∨ e.phase = .safeRevert then Prog.ret op
    else match halted with
      | some reason => haltUnsent op (.apn "APN_OPERATION_BLOCKED" reason) none (some reason)
      | none => advance signing authority op.effects.roles op

def reserveLease : BridgeProg (Option BridgeUsageLease) :=
  if op.intent.allowlist.isNone then Prog.ret none
  else do
    let lease ← call .reserve rfl
    return some lease

/-- `approved`: the reservation and the consent, inside the original expiry. -/
def approved (approvedAt : ℤ) : BridgeProg BridgeOperation := do
  let at' ← now
  Prog.ofExcept (assertBridgeRemaining op at')
  let usageLease ← reserveLease op
  save op { op.latest.toBridgeMutable with
    state := .executionPending
    approval := some ⟨op.intent.fingerprint, approvedAt, op.intent.expiresAt⟩
    usageLease := usageLease }

/-- The record of an approval the owner turned down. -/
def rejected : BridgeMutable :=
  { op.latest.toBridgeMutable with
    state := .failedBeforeEffect
    failure := some (.plain "approval_rejected") }

/-- A consent that could not be recorded ends the operation unsent. -/
def approveAndRun (op : BridgeOperation) (authority : Bool) :
    BridgeProg BridgeOperation := do
  let approvedAt ← now
  let outcome ← (approved op approvedAt).attempt
  match outcome with
  | .error e => haltUnsent op e none none
  | .ok op => run signing op authority

/-- `BridgeExecution.approve` -/
def approveOperation (op : BridgeOperation) : BridgeProg BridgeOperation :=
  if op.terminal ∨ op.state ≠ .awaitingApproval then Prog.ret op
  else if op.intent.guardedWbtc ∧ ¬ op.intent.allowlist.any BridgeAllowlistBinding.activated then
    refuse "APN_ALLOWLIST_REFUSED" "bridge_activation_binding_missing"
  else do
    let fault ← guard op op.effects.firstRole
    match fault with
    | some (e, boundary) => if e.budgetExhausted then Prog.ret op else deferOrHalt op e boundary
    | none => do
      let confirmed ← confirm
      if confirmed then approveAndRun signing op op.intent.guardedWbtc
      else save op (rejected op)

/-- A guarded effect that a fresh approval could take on. -/
def needsAuthority : Bool :=
  (op.intent.allowlist.any BridgeAllowlistBinding.activated) && (unsentReason op).isNone &&
  match op.effects.approval with
  | some a =>
    if a.submissionAttempts = 0 then a.phase ≠ .signingStarted
    else op.effects.bridge.phase ≠ .signingStarted && a.phase.landed
  | none => op.effects.bridge.phase ≠ .signingStarted

/-- `BridgeExecution.resume` -/
def resumeOperation (op : BridgeOperation) (approval : Bool) :
    BridgeProg BridgeOperation :=
  if op.intent.guardedWbtc = false ∨ (op.effects.all.all fun e => e.submissionAttempts = 1) ∨
      op.terminal then run signing op false
  else do
    let at' ← now
    if op.intent.expiresAt ≤ at' ∨ needsAuthority op = false then run signing op false
    else if approval = false then refuse "APN_FOREGROUND_APPROVAL_REQUIRED" "bridge_effect_approval"
    else do
      call .authority rfl
      let confirmed ← confirm
      if confirmed then do
        let _ ← now
        run signing op true
      else Prog.ret op

def locked (work : BridgeOperation → BridgeProg BridgeOperation) : BridgeProg Unit := do
  let op ← BridgeProg.run .lock rfl
  call .followUsage rfl
  let _ ← work op
  return ()

def approve (approval : Bool) : BridgeProg Unit :=
  locked fun op =>
    if op.terminal ∨ op.state ≠ .awaitingApproval then Prog.ret op
    else if approval = false then refuse "APN_FOREGROUND_APPROVAL_REQUIRED" "bridge_approval"
    else approveOperation signing op

def resume (approval : Bool) : BridgeProg Unit :=
  locked fun op =>
    if op.terminal ∨ op.state = .awaitingApproval then Prog.ret op
    else resumeOperation signing op approval

/-- The operation and usage journals are put back as they were at an earlier time. -/
def restore (o : BridgeOperation) : BridgeProg Unit := Prog.perform (BridgeOp.restore o)

/-- `prepare`, at its write. -/
def prepare (i : BridgeIntent) (approval : Bool) : BridgeProg Unit :=
  persist (newBridgeOperation i approval)

end Bridge
end PaymentNode
