import PaymentNode.Bridge.Lifecycle

/-!
# History — what the calls of one bridge operation leave behind

The state is a log, newest first, of what became durable, what left the machine and what was read.  Four stores are
read off it: the journal (the latest record stored or restored), the create-only SIGN and SEND claims, and the
create-only sealed material.  A restore rolls the journal back and leaves the claims and the material alone.
`Lawful` says of every event what the calls knew when they caused it.
-/

namespace PaymentNode

inductive BridgeEvent
  /-- A call took the operation's locks. -/
  | began
  | clock (at' : ℤ)
  | stored (next : BridgeOperation)
  /-- The journal was rolled back to this record. -/
  | restored (o : BridgeOperation)
  /-- The validator refused this patch. -/
  | refused (o : BridgeOperation) (next : BridgeMutable) (at' : ℤ)
  | claimedSign (role : BridgeRole)
  | claimedSend (role : BridgeRole) (bytes : BridgeClaimedBytes)
  | sealedMaterial (material : BridgeSealedMaterial)
  /-- The owner answered. -/
  | confirmed (answer : Bool)
  /-- A SEND claim was found. -/
  | claimSeen (role : BridgeRole)
  | reserved (lease : BridgeUsageLease)
  | observed (role : BridgeRole) (t : BridgeTransactionProof) (proof : Option BridgeSourceProof)
  | providerAnswered (p : BridgeProviderObservation)
  | delivered (proof : BridgeDestinationProof)
  | sent (role : BridgeRole) (rawTransaction : String)
deriving DecidableEq

namespace Bridge

/-- The durable journal. -/
def record : List BridgeEvent → Option BridgeOperation
  | [] => none
  | .stored next :: _ => some next
  | .restored o :: _ => some o
  | _ :: log => record log

/-- The bytes the SEND claim of a role binds. -/
def sendClaimOf (role : BridgeRole) : List BridgeEvent → Option BridgeClaimedBytes
  | [] => none
  | .claimedSend r bytes :: log => if r = role then some bytes else sendClaimOf role log
  | _ :: log => sendClaimOf role log

/-- What custody holds of a role. -/
def materialOf (role : BridgeRole) : List BridgeEvent → Option BridgeSealedMaterial
  | [] => none
  | .sealedMaterial m :: log => if m.role = role then some m else materialOf role log
  | _ :: log => materialOf role log

/-- What happened in this call. -/
def inCall : List BridgeEvent → List BridgeEvent
  | [] => []
  | .began :: _ => []
  | e :: log => e :: inCall log

/-- The record was the journal at some time of this call. -/
def Known (log : List BridgeEvent) (o : BridgeOperation) : Prop :=
  ∃ newer older, log = newer ++ older ∧ .began ∉ newer ∧ record older = some o

/-- `writeOperation` takes one more transition of what is stored. -/
def storable (log : List BridgeEvent) (next : BridgeOperation) : Prop :=
  match record log with
  | none => next.earlier = [] ∧ next.state = .awaitingApproval
  | some o => o.Appends next ∧ next ≠ o

/-- A read fails or answers what is there. -/
def answers {α : Type} (answer : Except BridgeError α) (value : α) : Prop :=
  ∀ a, answer = .ok a → a = value

/-- A write that answers was made; one that fails may have been. -/
def wrote {α : Type} (answer : Except BridgeError α) (log : List BridgeEvent) (e : BridgeEvent)
    (log' : List BridgeEvent) : Prop :=
  ((∃ fault, answer = .error fault) ∧ log' = log) ∨ log' = e :: log

/-- What an operation with this answer makes of the log. -/
def effect (signing : BridgeSigning) (log : List BridgeEvent) :
    (o : BridgeOp) → o.Answer → List BridgeEvent → Prop
  | .lock, answer, log' =>
    (∃ o, (answer : Except BridgeError BridgeOperation) = .ok o ∧ record log = some o ∧
        log' = .began :: log) ∨
      ((∃ e, (answer : Except BridgeError BridgeOperation) = .error e) ∧ log' = log)
  | .transition op next at', answer, log' =>
    match transitionBridge op next at' with
    | .ok result => (answer : Except BridgeError BridgeOperation) = .ok result ∧ log' = log
    | .error e => (∃ fault, (answer : Except BridgeError BridgeOperation) = .error fault) ∧
      log' = if e.code = .stateCorrupt then .refused op next at' :: log else log
  | .persist next, answer, log' =>
    ((∃ fault, (answer : Except BridgeError Unit) = .error fault) ∧ log' = log) ∨
      (record log = some next ∧ log' = log) ∨ (storable log next ∧ log' = .stored next :: log)
  | .now, answer, log' => log' = .clock answer :: log
  | .confirm, answer, log' =>
    match (answer : Except BridgeError Bool) with
    | .ok b => log' = .confirmed b :: log
    | .error _ => log' = log
  | .sendClaim role, answer, log' =>
    match (answer : Except BridgeError (Option BridgeClaimedBytes)) with
    | .ok none => sendClaimOf role log = none ∧ log' = log
    | .ok (some bytes) => sendClaimOf role log = some bytes ∧ log' = .claimSeen role :: log
    | .error _ => log' = log
  | .claimSign role, answer, log' =>
    log' = log ∨ wrote (answer : Except BridgeError Unit) log (.claimedSign role) log'
  | .claimSend role bytes, answer, log' =>
    match sendClaimOf role log with
    | none => wrote (answer : Except BridgeError Unit) log (.claimedSend role bytes) log'
    | some found => log' = log ∧ ((answer : Except BridgeError Unit) = .ok () → found = bytes)
  | .custodySeal op role, answer, log' =>
    match materialOf role log with
    | none => (∃ fault, (answer : Except BridgeError BridgeSealedMaterial) = .error fault) ∧ log' = log ∨
      ∃ m, validateMaterial signing m op role = .ok () ∧ log' = .sealedMaterial m :: log ∧
        answers (answer : Except BridgeError BridgeSealedMaterial) m
    | some m => log' = log ∧ answers (answer : Except BridgeError BridgeSealedMaterial) m
  | .load role, answer, log' =>
    log' = log ∧ answers (answer : Except BridgeError (Option BridgeSealedMaterial)) (materialOf role log)
  | .send role raw, _, log' => log' = .sent role raw :: log
  | .observe role, answer, log' =>
    match (answer : Except BridgeError (Option BridgeSourceObservation)) with
    | .ok (some seen) => log' = .observed role seen.transaction seen.sourceProof.toOption :: log
    | _ => log' = log
  | .providerStatus, answer, log' =>
    match (answer : Option BridgeProviderObservation) with
    | some p => log' = .providerAnswered p :: log
    | none => log' = log
  | .ask .reserve, answer, log' =>
    match (answer : Except BridgeError BridgeUsageLease) with
    | .ok lease => log' = .reserved lease :: log
    | .error _ => log' = log
  | .ask (.destination _ _), answer, log' =>
    match (answer : Except BridgeDestinationFault BridgeDestinationProof) with
    | .ok proof => log' = .delivered proof :: log
    | .error _ => log' = log
  | .ask _, _, log' => log' = log
  | .restore o, _, log' => log' = log ∨ (.stored o ∈ log ∧ log' = .restored o :: log)

end Bridge

/-! ## The calls -/

/-- The calls on one bridge operation. -/
inductive BridgeCall (signing : BridgeSigning) : BridgeProg Unit → Prop
  | prepare (i : BridgeIntent) (approval : Bool) : BridgeCall signing (Bridge.prepare i approval)
  | approve (approval : Bool) : BridgeCall signing (Bridge.approve signing approval)
  | resume (approval : Bool) : BridgeCall signing (Bridge.resume signing approval)

/-- The calls, and the rolling back of the journals between them. -/
inductive BridgeCallOrRestore (signing : BridgeSigning) : BridgeProg Unit → Prop
  | call (x : BridgeProg Unit) : BridgeCall signing x → BridgeCallOrRestore signing x
  | restore (o : BridgeOperation) : BridgeCallOrRestore signing (Bridge.restore o)

/-! ## What a call knew -/

namespace Bridge

/-- A submitted effect is not taken back. -/
def Submitted (o : BridgeOperation) : Prop := ∃ e ∈ o.effects.all, e.submissionAttempts = 1

def Unsubmitted (o : BridgeOperation) : Prop := ∀ e ∈ o.effects.all, e.submissionAttempts = 0

def AllSafe (o : BridgeOperation) : Prop := ∀ e ∈ o.effects.all, e.phase = .safeSuccess

/-- The bridge call's approval has landed, or none is needed. -/
def ApprovalLanded (o : BridgeOperation) (role : BridgeRole) : Prop :=
  role = .bridge → ∀ a ∈ o.effects.approval, a.phase.landed = true

variable (log : List BridgeEvent)

section

variable (o : BridgeOperation)

/-- No effect that the journal shows unsubmitted has a SEND claim. -/
def NoUnrecordedSend : Prop :=
  ∀ role, ∀ e ∈ o.effect? role, e.submissionAttempts = 0 → sendClaimOf role log = none

/-- The failures that say nothing of a guard's reads, and of the allowance left only what was read. -/
def Undiagnosed (f : BridgeFailure) : Prop :=
  (f.preSignRpc = none ∧ (f.residualAllowanceStatus = some .observed → f.residualAllowance.isSome) ∧
      (f.residualAllowanceStatus = some .unavailable → f.residualAllowance = none)) ∨
    (retainedUnsentBridgeRpcFailure o.latest.toBridgeMutable).isSome

/-- A deferral of the guard of an effect that is not submitted. -/
def Defers (f : BridgeFailure) : Prop :=
  f = .plain bridgePreSignRpcRateLimited ∨
    ∃ role, (∃ e, o.effect? role = some e ∧ (e.phase = .unsealed ∨ e.phase = .sealed)) ∧
      ∃ d : Option BridgePreSignRpcFailure,
        f = { BridgeFailure.plain bridgePreSignRpcUnavailable with preSignRpc := d } ∧
        ∀ b ∈ d, ∃ stage method, b = rpcBoundary o role stage method

/-- A SEND claim of an unattempted effect was found over a record with this failure. -/
def ClaimSeen (role : BridgeRole) : Prop :=
  ∃ older, (.claimSeen role :: older) <:+ log ∧ ∃ o', record older = some o' ∧ o'.failure = o.failure

/-- An inclusion was read of the effect with this hash. -/
def Seen (role : BridgeRole)
    (t : BridgeTransactionProof) (proof : Option BridgeSourceProof) : Prop :=
  ∃ older, (.observed role t proof :: older) <:+ log ∧
    ∃ o', record older = some o' ∧ o'.intent = o.intent ∧
      (o'.effect? role).map BridgeEffect.transactionHash = (o.effect? role).map BridgeEffect.transactionHash ∧
      o'.effects.bridge.submissionAttempts = o.effects.bridge.submissionAttempts

/-- A proved destination may complete the operation: it was there before the call, or the call took its outcome. -/
def Concluded : Prop :=
  (∀ proof, .delivered proof ∉ inCall log) ∨ o.intent.request.providerBoundNative = false ∨
    ∀ outcome ∈ outcome? o.latest.toBridgeMutable, outcome = .completedNative

/-- What was read over the record that is being written over. -/
def ReadOver (e : BridgeEvent) : Prop :=
  ∃ older, (e :: older) <:+ log ∧ record older = some o

end

/-- Where a state and a failure may replace the record's own. -/
inductive Restates (o : BridgeOperation) : BridgeState → Option BridgeFailure → Prop
  | defers (f : BridgeFailure) : Defers o f → Restates o o.state (some f)
  | keeps (f : BridgeFailure) : o.state ≠ .awaitingApproval → Undiagnosed o f →
      Restates o o.state (some f)
  | unknown (f : Option BridgeFailure) : Submitted o → (∀ g ∈ f, Undiagnosed o g) →
      Restates o .unknownFinality f
  | waits : AllSafe o → Restates o .destinationPending none

/-- The steps of one effect: its next value, the operation's next state, and whether a deferral is cleared. -/
inductive EffectWrites (log : List BridgeEvent) (o : BridgeOperation) (role : BridgeRole)
    (e : BridgeEffect) : BridgeEffect → BridgeState → Bool → Prop
  | releases : e.phase = .signingStarted →
      EffectWrites log o role e { e with phase := .unsealed } o.state false
  | marks (clear : Bool) : e.phase = .unsealed → ApprovalLanded o role →
      o.state ≠ .awaitingApproval → clear = true ∨ ClaimSeen log o role →
      EffectWrites log o role e { e with phase := .signingStarted } o.state clear
  | seals (material : BridgeSealedMaterial) : e.phase = .signingStarted →
      EffectWrites log o role e { e with
        phase := .sealed
        transactionHash := some material.transactionHash
        sealedMaterialHash := some material.materialHash } o.state false
  | submits (submittedAt : ℤ) : e.phase = .sealed → ApprovalLanded o role → .clock submittedAt ∈ log →
      EffectWrites log o role e { e with
        phase := .submitting
        submittedAt := some submittedAt
        submissionAttempts := 1 } .sourcePending true
  | submitsClaimed (submittedAt : ℤ) : e.phase = .sealed → ApprovalLanded o role → .clock submittedAt ∈ log →
      ClaimSeen log o role →
      EffectWrites log o role e { e with
        phase := .submitting
        submittedAt := some submittedAt
        submissionAttempts := 1 } .unknownFinality false
  | sends : e.phase = .submitting →
      EffectWrites log o role e { e with phase := .submittedPending } .sourcePending false
  | loses : e.phase = .submitting →
      EffectWrites log o role e { e with phase := .unknownFinality } .unknownFinality false

/-- A patch of the record `o`, and what the call knew. -/
inductive Writes (log : List BridgeEvent) (o : BridgeOperation) : BridgeMutable → Prop
  | rejects : o.state = .awaitingApproval → (∃ older, (.confirmed false :: older) <:+ log ∧
      record older = some o ∧ ∀ role, sendClaimOf role log = sendClaimOf role older) →
      Writes log o (rejected o)
  | approves (approvedAt at' : ℤ) (lease : Option BridgeUsageLease) : o.state = .awaitingApproval →
      (∃ older, (.clock at' :: older) <:+ log ∧ .clock approvedAt ∈ older) →
      minRemainingMs ≤ o.intent.expiresAt - at' →
      (o.intent.allowlist = none ∧ lease = none) ∨
        (∃ l, lease = some l ∧ o.intent.allowlist.isSome ∧ ReadOver log o (.reserved l)) →
      Writes log o { o.latest.toBridgeMutable with
        state := .executionPending
        approval := some ⟨o.intent.fingerprint, approvedAt, o.intent.expiresAt⟩
        usageLease := lease }
  | restates (state : BridgeState) (f : Option BridgeFailure) : Restates o state f →
      Writes log o { o.latest.toBridgeMutable with state := state, failure := f }
  | haltsBefore (f : BridgeFailure) : Unsubmitted o → (∀ e ∈ o.effects.all, e.phase ≠ .signingStarted) →
      NoUnrecordedSend log o → Undiagnosed o f →
      Writes log o { o.latest.toBridgeMutable with state := .failedBeforeEffect, failure := some f }
  | haltsAfter (f : BridgeFailure) : o.effects.approval.map BridgeEffect.phase = some .safeSuccess →
      o.effects.bridge.submissionAttempts = 0 → o.effects.bridge.phase ≠ .signingStarted →
      NoUnrecordedSend log o → Undiagnosed o f →
      Writes log o { o.latest.toBridgeMutable with state := .failedAfterApproval, failure := some f }
  | reverts (f : BridgeFailure) (role : BridgeRole) : confirmedRevert o role = true → Undiagnosed o f →
      Writes log o { o.latest.toBridgeMutable with state := .failedConfirmedRevert, failure := some f }
  | effect (role : BridgeRole) (e next : BridgeEffect) (state : BridgeState) (clear : Bool) :
      o.effect? role = some e → EffectWrites log o role e next state clear →
      Writes log o ((if clear then clearedDeferral else id)
        { withEffect o role next with state := state })
  | missing (role : BridgeRole) (e : BridgeEffect) : o.effect? role = some e → e.submissionAttempts = 1 →
      e.safeProof = none → Writes log o (receiptMissing o role e)
  | moved (role : BridgeRole) (e : BridgeEffect) : o.effect? role = some e → e.submissionAttempts = 1 →
      e.safeProof = none → e.includedProof.isSome → Writes log o (inclusionMoved o role e)
  | includes (role : BridgeRole) (e : BridgeEffect) (t : BridgeTransactionProof)
      (seen : Option BridgeSourceProof) (reliable : Bool) : o.effect? role = some e →
      e.submissionAttempts = 1 → e.safeProof = none → Seen log o role t seen →
      (∀ p ∈ e.includedProof, p.inclusion = t.inclusion) →
      (role = .bridge → t.status = .success → seen.isSome) →
      Writes log o (withInclusion o role e t
        (if role = .bridge ∧ t.status = .success then seen else o.latest.sourceProof) reliable)
  | provider (p : BridgeProviderObservation) : AllSafe o → o.latest.sourceProof.isSome →
      o.latest.destinationProof = none → ReadOver log o (.providerAnswered p) →
      Writes log o { o.latest.toBridgeMutable with providerObservation := some p }
  | delivers (proof : BridgeDestinationProof) : AllSafe o → o.latest.sourceProof.isSome →
      o.latest.destinationProof = none → ReadOver log o (.delivered proof) → .delivered proof ∈ inCall log →
      (o.intent.request.providerBoundNative →
        bridgeProviderSettled o.intent.decoded o.latest.providerObservation = true) →
      Writes log o (withDestinationProof o proof)
  | completes (reason : String) (proof : BridgeTransactionProof) : AllSafe o →
      o.latest.sourceProof.isSome → o.latest.destinationProof.isSome →
      o.effects.bridge.safeProof = some proof → Concluded log o →
      Writes log o { o.latest.toBridgeMutable with
        state := .completed
        failure := some { BridgeFailure.plain reason with
          residualAllowance := some ⟨0, proof.block, proof.rpcOrigin⟩ } }
  | failsDelivery (reason : String) (residual : Option BridgeResidualAllowance) : AllSafe o →
      o.latest.sourceProof.isSome →
      reason = "protocol_mismatch" ∨ (∃ outcome, outcome? o.latest.toBridgeMutable = some outcome ∧
        outcome ≠ .completedNative ∧ reason = outcomeText outcome) →
      Writes log o { o.latest.toBridgeMutable with
        state := .destinationFailed
        failure := some (residualFailure reason residual) }

/-- The record a write makes of the log. -/
def WrittenOver (next : BridgeOperation) : Prop :=
  match record log with
  | none => ∃ approval, next = newBridgeOperation next.intent approval
  | some o => ∃ m at' older, next = o.append m at' ∧ log = .clock at' :: older ∧ o.terminal = false ∧
      Writes log o m ∧ transitionBridge o m at' = .ok next

/-- What holds of an event that happens after a log. -/
def Lawful (signing : BridgeSigning) (log : List BridgeEvent) : BridgeEvent → Prop
  | .stored next => WrittenOver log next
  | .restored o => .stored o ∈ log
  | .refused o m at' => Known log o ∧ o.terminal = false ∧ Writes log o m ∧
      (∃ older, log = .clock at' :: older) ∧ ∃ e, transitionBridge o m at' = .error e ∧ e.code = .stateCorrupt
  | .claimedSend role _ => sendClaimOf role log = none
  | .sent role raw =>
    (∃ o e, record log = some o ∧ o.effect? role = some e ∧ e.phase = .submitting ∧
      e.submissionAttempts = 1 ∧ ApprovalLanded o role) ∧
    .claimedSend role ⟨signing.materialHash role raw, signing.transactionHash raw⟩ ∈ inCall log ∧
    ∀ raw', .sent role raw' ∉ inCall log
  | _ => True

/-- The events that change neither the journal nor a SEND claim, and send nothing. -/
def Quiet : BridgeEvent → Prop
  | .began | .stored _ | .restored _ | .claimedSend _ _ | .delivered _ | .sent _ _ => False
  | _ => True

end Bridge
end PaymentNode
