import PaymentNode.X402.Lifecycle

/-!
# History — what the calls of one x402 operation leave behind

The state is a log, newest first, of what became durable, what left the machine and what was read; the record,
the result file and the receipt file are the latest ones stored.  The world around it (the clock, the chain) is
a parameter.  `Lawful` says of every event what the calls knew when they caused it: which write a record is, and
which pending record a request follows.
-/

namespace PaymentNode

inductive X402Event
  /-- A call took the operation's lock. -/
  | began
  | clock (at' : ℤ)
  | stored (next : X402Operation)
  /-- The store refused this record. -/
  | refused (next : X402Operation)
  | resultStored (result : X402Result)
  | receiptStored (receipt : X402Receipt)
  | nonceRead (tag : ProofTag) (read : NonceRead)
  | receiptRead (receipt : X402RpcReceipt)
  | sent (purpose : AttemptPurpose) (paymentSignature : String)
  | answered (purpose : AttemptPurpose) (raw : PaidResponse)
deriving DecidableEq

namespace X402

/-- The durable operation record. -/
def record : List X402Event → Option X402Operation
  | [] => none
  | .stored next :: _ => some next
  | _ :: log => record log

def resultFile : List X402Event → Option X402Result
  | [] => none
  | .resultStored result :: _ => some result
  | _ :: log => resultFile log

def receiptFile : List X402Event → Option X402Receipt
  | [] => none
  | .receiptStored receipt :: _ => some receipt
  | _ :: log => receiptFile log

/-- What happened since the durable record was stored. -/
def current : List X402Event → List X402Event
  | [] => []
  | .stored _ :: _ => []
  | e :: log => e :: current log

/-- The log as it was when the durable record was stored. -/
def before : List X402Event → List X402Event
  | [] => []
  | .stored _ :: log => log
  | _ :: log => before log

/-- What happened in this call. -/
def inCall : List X402Event → List X402Event
  | [] => []
  | .began :: _ => []
  | e :: log => e :: inCall log

/-! ## The files -/

variable (log : List X402Event)

/-- The operation is there, and neither ended nor linked to the file. -/
def openRecord : Option X402Operation :=
  (record log).filter fun o => !o.terminal

/-- `loadX402RecoveryResult` -/
def recoveryResult : Option X402Result :=
  match openRecord log with
  | some o => if o.resultLink.isSome then none else resultFile log
  | none => none

/-- `loadX402Result` -/
def storedResult : Option X402Result :=
  match record log with
  | some o => if o.resultLink.isSome then resultFile log else none
  | none => none

/-- `loadX402RecoveryReceipt`; a receipt that does not bind the record is refused. -/
def recoveryReceipt : Result (Option X402Receipt) :=
  match openRecord log with
  | none => .ok none
  | some o =>
    if o.receiptLink.isSome then .ok none
    else match receiptFile log with
      | none => .ok none
      | some receipt =>
        if bindsOrphanReceipt o (resultFile log) receipt then .ok (some receipt)
        else corrupt "x402 recovery receipt does not bind its authoritative operation."

def accepted (next : X402Operation) : Prop :=
  acceptsOperation (record log) (resultFile log) (receiptFile log) next = .ok ()

/-- `writeX402Result` needs an open record without a result. -/
def acceptsResult : Prop :=
  ∃ o, openRecord log = some o ∧ o.resultLink = none

/-- `writeX402Receipt` needs an open record that the receipt binds. -/
def acceptsReceipt (receipt : X402Receipt) : Prop :=
  ∃ o, openRecord log = some o ∧ bindsOrphanReceipt o (resultFile log) { receipt with result := none }

/-- A write that answers was made; one that fails may have been, and fails as itself. -/
def wrote (answer : Except X402Failure Unit) (allowed : Prop) (log : List X402Event) (e : X402Event)
    (log' : List X402Event) : Prop :=
  ((∃ fault, answer = .error (.apn fault)) ∧ log' = log) ∨
    (allowed ∧ log' = e :: log ∧ (answer = .ok () ∨ ∃ fault, answer = .error (.apn fault)))

/-- A read fails or answers what is there. -/
def answers {α : Type} (answer : Except X402Failure α) (value : α) (log log' : List X402Event) : Prop :=
  log' = log ∧ ∀ a, answer = .ok a → a = value

/-- The header hash of signed material is computed from the header. -/
def sealed (headerHash : String → String) (material : SealedMaterial) : Prop :=
  material.hashes.paymentHeaderHash = headerHash material.paymentHeader

def asks (headerHash : String → String) : (q : X402Ask) → q.Answer → Prop
  | .native _, answer | .delegated _, answer =>
    ∀ m, (answer : Except X402Failure SealedMaterial) = .ok m → sealed headerHash m
  | .provider _, answer =>
    ∀ m, (answer : Except X402Failure ProviderAuthorization) = .ok (.signed m) → sealed headerHash m
  | _, _ => True

/-- What an operation with this answer makes of the log. -/
def effect (headerHash : String → String) (log : List X402Event) :
    (o : X402Op) → o.Answer → List X402Event → Prop
  | .lock, answer, log' =>
    ((answer : Except X402Failure Unit) = .ok () ∧ log' = .began :: log) ∨
      ((∃ e, (answer : Except X402Failure Unit) = .error e) ∧ log' = log)
  | .required, answer, log' =>
    log' = log ∧ ∀ o, (answer : Except X402Failure X402Operation) = .ok o → .stored o ∈ log
  | .load, answer, log' => answers answer (record log) log log'
  | .writeOperation next, answer, log' =>
    wrote answer (accepted log next) log (.stored next) log' ∨
      (¬ accepted log next ∧ log' = .refused next :: log ∧
        ∃ fault, (answer : Except X402Failure Unit) = .error (.apn fault))
  | .loadResult, answer, log' => answers answer (storedResult log) log log'
  | .loadRecoveryResult, answer, log' => answers answer (recoveryResult log) log log'
  | .writeResult result, answer, log' =>
    wrote answer (acceptsResult log) log (.resultStored result) log'
  | .loadRecoveryReceipt, answer, log' =>
    log' = log ∧ ∀ a, (answer : Except X402Failure (Option X402Receipt)) = .ok a →
      recoveryReceipt log = .ok a
  | .writeReceipt receipt, answer, log' =>
    wrote answer (acceptsReceipt log receipt) log (.receiptStored receipt) log'
  | .now, answer, log' => log' = .clock answer :: log
  | .sendPaid purpose header, answer, log' =>
    match (answer : Option PaidResponse) with
    | none => log' = .sent purpose header :: log
    | some raw => log' = .answered purpose raw :: .sent purpose header :: log
  | .assertChain, _, log' => log' = log
  | .nonceState tag, answer, log' =>
    match (answer : Except X402Failure NonceRead) with
    | .ok read => log' = .nonceRead tag read :: log
    | .error _ => log' = log
  | .rpcReceipt _, answer, log' =>
    match (answer : Except X402Failure (Option X402RpcReceipt)) with
    | .ok (some receipt) => log' = .receiptRead receipt :: log
    | _ => log' = log
  | .ask q, answer, log' => log' = log ∧ asks headerHash q answer

end X402

/-! ## The calls -/

/-- What prepare freezes. -/
structure X402Operation.Fresh (o : X402Operation) : Prop where
  state : o.latest.state = .awaitingApproval
  earlier : o.earlier = []
  material : o.material = none
  paymentContextHash : o.paymentContextHash = none
  attempts : o.attempts = []
  settlementResponse : o.settlementResponse = none
  transactionHint : o.transactionHint = none
  settlementEvidence : o.settlementEvidence = none
  unusedExpiryEvidence : o.unusedExpiryEvidence = none
  resultLink : o.resultLink = none
  receiptLink : o.receiptLink = none
  delegated : o.frozen.method = .erc7710 ↔ o.frozen.delegatedMaterial = true
  notBoth : ¬ (o.frozen.providerSigner = true ∧ o.frozen.delegatedMaterial = true)
  permit2 : o.frozen.method = .permit2 →
    o.frozen.providerSigner = false ∧ o.frozen.paymentIdentifier = none

/-- The calls on one x402 operation. -/
inductive X402Call : X402Prog Unit → Prop
  | prepare (operation : X402Operation) : operation.Fresh → X402Call (X402.prepare operation)
  | approve : X402Call X402.approve
  | resume (deadline : Bool) : X402Call (X402.resume deadline)
  | poll : X402Call X402.poll

/-- Any calls, one after another, each running to its end or dying anywhere. -/
def X402Step {W : Type} (rules : Trace.Rules W X402Event) (headerHash : String → String) :=
  Trace.Step (X402.effect headerHash) rules X402Call

/-! ## What a call knew -/

namespace X402

variable (log : List X402Event)

/-- The nonce read unused at the proof tag, in this call. -/
def ReadUnused (tag : ProofTag) : Prop :=
  ∃ read, .nonceRead tag read ∈ inCall log ∧ read.value = false ∧ read.blockTag = tag

/-- Why a paid attempt may begin. -/
inductive Begins (log : List X402Event) (o : X402Operation) : AttemptPurpose → Prop
  | first : o.state = .authorizedNotSent →
      (o.frozen.method ≠ .erc7710 → ReadUnused log o.frozen.proofTag) → Begins log o .payment
  | again : mayResend o true → ReadUnused log o.frozen.proofTag → Begins log o .payment
  | recovery : o.state = .sellerResultRecoveryPending → o.resultLink = none →
      o.recoveryAttempt = none → Begins log o .resultRecovery

variable (o : X402Operation)

def pendingAttempt (purpose : AttemptPurpose) (at' : ℤ) : X402Attempt :=
  ⟨o.attempts.length + 1, purpose, .pending, o.paymentHeaderHash, at', none⟩

/-- The record of a begun attempt. -/
def begun (purpose : AttemptPurpose) (at' persistedAt : ℤ) : X402Operation :=
  { o.append at' (purposeState purpose) with
    attempts := o.attempts ++ [pendingAttempt o purpose persistedAt] }

/-- The record of a finished attempt. -/
def finished (at' : ℤ) (phase : AttemptPhase)
    (observation : Option X402HttpObservation) (state : X402State) : X402Operation :=
  { o.append at' state with attempts := finishAttempts o.attempts phase observation }

/-- The record's last attempt is pending for this purpose, in the state that goes with it. -/
def Awaits (purpose : AttemptPurpose) : Prop :=
  o.state = purposeState purpose ∧
    ∃ last, o.lastAttempt = some last ∧ last.purpose = purpose ∧ last.phase = .pending

/-- This call began the attempt that the durable record waits for. -/
def BegunHere (purpose : AttemptPurpose) : Prop :=
  .began ∉ current log ∧ ∃ prior at' persistedAt, o = begun prior purpose at' persistedAt ∧
    record (before log) = some prior ∧ Begins (before log) prior purpose

/-- The seller's answer to the pending attempt. -/
def Paid (purpose : AttemptPurpose)
    (paid : PaidHttpResult) : Prop :=
  Awaits o purpose ∧ ∃ raw, .answered purpose raw ∈ current log ∧
    observePaidX402Response raw o.frozen o.attempts.length purpose = some paid

/-- The nonce read used at a block of the proof tag, with the receipt that matched. -/
def ProvesUsed (e : StateSettlementEvidence) : Prop :=
  e.authorizationState = e.safeHead ∧ e.blockTag = o.frozen.proofTag ∧
    o.frozen.preparedBlock.number ≤ e.safeHead.number ∧
    (∃ read, .nonceRead o.frozen.proofTag read ∈ current log ∧ read.value = true ∧
      read.blockTag = o.frozen.proofTag ∧ read.block = e.safeHead) ∧
    ∀ transaction, e.transaction = some transaction →
      ∃ receipt hint, .receiptRead receipt ∈ current log ∧ o.transactionHint = some hint ∧
        transaction = ⟨hint.transactionHash, receipt.block⟩ ∧
        receipt.block.number ≤ e.safeHead.number

/-- The nonce read unused at a finalized block past the authorization's last second. -/
def ProvesUnused (e : StateUnusedExpiryEvidence) : Prop :=
  e.validBefore = o.frozen.validBefore ∧ e.authorizationState = e.finalizedHead.identity ∧
    x402ExpiredAt o.frozen.method e.finalizedHead.timestamp o.frozen.validBefore = true ∧
    ∃ read, .nonceRead .finalized read ∈ current log ∧ read.value = false ∧
      read.blockTag = .finalized ∧ read.block = e.finalizedHead.identity ∧
      read.timestamp = e.finalizedHead.timestamp

/-- No recovery attempt is under way. -/
def NoRecoveryPending : Prop :=
  o.frozen.paymentIdentifier = none ∨ ¬ (o.recoveryAttempt.any fun a => a.phase = .pending) = true ∨
    ¬ (o.lastAttempt.any fun a => a.purpose = .resultRecovery && a.phase = .pending) = true

/-- Why an operation may end in this state. -/
inductive Ends (o : X402Operation) : X402State → Prop
  | unapproved : o.state = .awaitingApproval → Ends o .failedBeforeEffect
  | unauthorized : o.state = .authorizationMaterialPending →
      o.frozen.providerSigner = true ∨ o.frozen.delegatedMaterial = true → Ends o .failedBeforeEffect
  | unexposed : o.state = .authorizedNotSent → o.frozen.method = .erc7710 → Ends o .failedBeforeEffect
  | expired : o.unusedExpiryEvidence.isSome → Ends o .failedExpiredUnused
  | completed : o.settlementEvidence.isSome → o.unusedExpiryEvidence = none → o.resultLink.isSome →
      Ends o .completed
  | withoutResult : o.settlementEvidence.isSome → o.unusedExpiryEvidence = none →
      o.resultLink = none → NoRecoveryPending o → Ends o .failedSettledWithoutResult
  | unrecovered : o.state = .sellerResultRecoveryPending → o.resultLink = none →
      NoRecoveryPending o → Ends o .failedSettledWithoutResult

/-- The attempt whose body is the result was observed with it, where a result may be linked. -/
def Delivered (result : X402Result) : Prop :=
  (o.resultAttempt.any fun a => observedResult result a && isResultStatus o.frozen result.responseStatus) =
      true ∧
    (o.state = .effectUnknown ∨ o.state = .settlementPending ∨ o.state = .sellerResultRecoveryPending)

/-- A record written over `o`, and what the call knew. -/
inductive Writes (log : List X402Event) (o : X402Operation) : X402Operation → Prop
  | approves (at' : ℤ) : .clock at' ∈ current log → o.state = .awaitingApproval →
      Writes log o (o.append at' .authorizationMaterialPending)
  | retries (at' : ℤ) : .clock at' ∈ current log → o.state = .authorizationMaterialPending →
      Writes log o (o.append at' .authorizationMaterialPending)
  | authorizes (at' : ℤ) (hashes : PaymentMaterialHashes) (contextHash : Option String) :
      .clock at' ∈ current log → o.state = .authorizationMaterialPending →
      (contextHash.isSome → o.frozen.delegatedMaterial = true) →
      Writes log o (withMaterial hashes contextHash (o.append at' .authorizedNotSent))
  | begins (at' persistedAt : ℤ) (purpose : AttemptPurpose) :
      .clock at' ∈ current log → .clock persistedAt ∈ current log →
      o.attempts.length < 64 → Begins log o purpose → Writes log o (begun o purpose at' persistedAt)
  | interrupts (at' : ℤ) (purpose : AttemptPurpose) : .clock at' ∈ current log →
      o.state = purposeState purpose → (o.lastAttempt.any fun a => a.phase = .pending) = true →
      Writes log o (finished o at' .ambiguous none (unansweredState purpose))
  | observes (at' : ℤ) (purpose : AttemptPurpose) (paid : PaidHttpResult) : .clock at' ∈ current log →
      Paid log o purpose paid → paid.paymentResponse.bind (decodePaymentResponse o.frozen) = none →
      Writes log o (finished o at' .observed (some paid.observation) (unansweredState purpose))
  | contradicts (at' : ℤ) (purpose : AttemptPurpose) (paid : PaidHttpResult)
      (decoded : DecodedPaymentResponse) : .clock at' ∈ current log → Paid log o purpose paid →
      paid.paymentResponse.bind (decodePaymentResponse o.frozen) = some decoded →
      conflictingHint o purpose decoded.transactionHash = true →
      Writes log o ((if o.settlementResponse.isNone then
        withResponse (responseOf decoded paid.observation) else id)
          (finished o at' .observed (some paid.observation) .effectUnknown))
  | undelivered (at' : ℤ) (paid : PaidHttpResult) (decoded : DecodedPaymentResponse) :
      .clock at' ∈ current log → Paid log o .resultRecovery paid →
      paid.paymentResponse.bind (decodePaymentResponse o.frozen) = some decoded →
      conflictingHint o .resultRecovery decoded.transactionHash = false →
      Writes log o (finished o at' .observed (some paid.observation) .sellerResultRecoveryPending)
  | settlesAttempt (at' : ℤ) (purpose : AttemptPurpose) (paid : PaidHttpResult)
      (decoded : DecodedPaymentResponse) : .clock at' ∈ current log → Paid log o purpose paid →
      paid.paymentResponse.bind (decodePaymentResponse o.frozen) = some decoded →
      conflictingHint o purpose decoded.transactionHash = false →
      Writes log o (withAnswer (responseOf decoded paid.observation) (hintOf decoded paid.observation)
        (finished o at' .observed (some paid.observation) (answeredState purpose)))
  | links (at' : ℤ) (result : X402Result) : .clock at' ∈ current log → o.resultLink = none →
      resultFile log = some result → Writes log o (linkResult result (o.append at' o.state))
  | proves (at' : ℤ) (e : StateSettlementEvidence) : .clock at' ∈ current log →
      o.frozen.method ≠ .erc7710 → o.settlementEvidence = none → o.unusedExpiryEvidence = none →
      ProvesUsed log o e →
      Writes log o (withSettlement (.state e) (o.append at' (settledState o.state)))
  | expires (at' : ℤ) (e : StateUnusedExpiryEvidence) : .clock at' ∈ current log →
      o.frozen.method ≠ .erc7710 → o.unusedExpiryEvidence = none → ProvesUnused log o e →
      Writes log o (withUnused (.state e) (o.append at' o.state))
  | delegated (at' : ℤ) (additions : X402Operation → X402Operation) : .clock at' ∈ current log →
      o.frozen.method = .erc7710 → o.settlementEvidence = none → o.unusedExpiryEvidence = none →
      ((∃ e, additions = withSettlement (.erc7710 e)) ∨ ∃ e, additions = withUnused (.erc7710 e)) →
      Writes log o (additions (o.append at' o.state))
  | recovers (at' : ℤ) : .clock at' ∈ current log → o.settlementEvidence.isSome →
      o.unusedExpiryEvidence = none → o.resultLink = none → o.frozen.paymentIdentifier.isSome →
      o.recoveryAttempt = none → o.state ≠ .sellerResultRecoveryPending →
      Writes log o (o.append at' .sellerResultRecoveryPending)
  | ends (receipt : X402Receipt) : receiptFile log = some receipt →
      bindsOrphanReceipt o (resultFile log) receipt = true →
      Writes log o
        { o.append receipt.createdAt receipt.terminalState with receiptLink := some receipt }

/-- The record a write makes of the log. -/
def WrittenOver (next : X402Operation) : Prop :=
  match record log with
  | none => next.Fresh
  | some o => o.terminal = false ∧ Writes log o next

/-- What holds of an event that happens after a log. -/
def Lawful (headerHash : String → String) (log : List X402Event) : X402Event → Prop
  | .stored next => accepted log next ∧ WrittenOver log next
  | .refused next => ¬ accepted log next ∧ WrittenOver log next
  | .resultStored result =>
    ∃ o, record log = some o ∧ o.terminal = false ∧ o.resultLink = none ∧ Delivered o result
  | .receiptStored receipt =>
    ∃ o at', record log = some o ∧ o.terminal = false ∧ .clock at' ∈ current log ∧
      Ends o receipt.terminalState ∧
      receipt = sealReceipt o receipt.terminalState (o.resultLink.bind fun _ => resultFile log) at'
  | .sent purpose header =>
    ∃ o, record log = some o ∧ BegunHere log o purpose ∧
      o.paymentHeaderHash = some (headerHash header) ∧ ∀ p h, .sent p h ∉ current log
  | .answered purpose _ => ∃ header rest, log = .sent purpose header :: rest
  | _ => True

/-- The events that say only what was read. -/
def Quiet : X402Event → Prop
  | .clock _ | .nonceRead _ _ | .receiptRead _ => True
  | _ => False

end X402
end PaymentNode
