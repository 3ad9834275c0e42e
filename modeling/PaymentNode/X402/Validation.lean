import PaymentNode.X402.Record

/-!
# Validation — what the store accepts as the next x402 operation record

`writeX402Operation` refuses a record that is malformed by itself, that does not extend the stored one, or whose
result and receipt files do not fit.  Scans of `AuthorizationUsed` logs and version 1 evidence, which no writer
of this release makes, are left out of the records, and so are the checks that only concern them.
-/

namespace PaymentNode

namespace X402

/-! ## Attempts and answers -/

variable (o : X402Operation)

def validateHttpObservation (a : X402Attempt) (observation : X402HttpObservation) :
    Result Unit :=
  if observation.attemptNumber ≠ a.attemptNumber ∨ observation.purpose ≠ a.purpose then
    corrupt "x402 HTTP observation attempt binding is invalid."
  else if observation.targetHash ≠ o.frozen.resource.urlHash ∨
      observation.origin ≠ o.frozen.resource.origin then
    corrupt "x402 HTTP observation does not bind the frozen resource."
  else if observation.observedAt < observation.startedAt then
    corrupt "x402 HTTP observation time is invalid."
  else if observation.startedAt < a.persistedAt then
    corrupt "x402 attempt was persisted after its HTTP observation started."
  else .ok ()

/-- One attempt, with its index, the recoveries before it and the time the one before it was persisted. -/
def validateAttempt (index recoveries : ℕ) (previous : Option ℤ)
    (a : X402Attempt) : Result Unit :=
  if a.attemptNumber ≠ index + 1 then corrupt "x402 attempt numbers are discontinuous."
  else if a.requestHeaderHash.isNone then corrupt "x402 hash is invalid."
  else if previous.any fun at' => a.persistedAt < at' then
    corrupt "x402 attempt persistence timestamps are not chronological."
  else if a.requestHeaderHash ≠ o.paymentHeaderHash then
    corrupt "x402 attempt request header is not the frozen payment header."
  else if a.purpose = .resultRecovery ∧ (o.frozen.paymentIdentifier.isNone ∨ 0 < recoveries) then
    corrupt "x402 result recovery attempt is not supported by the frozen operation."
  else if a.phase = .pending ∧ a.observation.isSome then
    corrupt "x402 pending attempt contains an observation."
  else if a.phase = .observed ∧ a.observation.isNone then
    corrupt "x402 observed attempt lacks an observation."
  else match a.observation with
    | none => .ok ()
    | some observation => validateHttpObservation o a observation

def validateAttemptsFrom (o : X402Operation) (index recoveries : ℕ) (previous : Option ℤ) :
    List X402Attempt → Result Unit
  | [] => .ok ()
  | a :: rest => do
    validateAttempt o index recoveries previous a
    validateAttemptsFrom o (index + 1)
      (if a.purpose = .resultRecovery then recoveries + 1 else recoveries) (some a.persistedAt) rest

def validateAttempts : Result Unit :=
  if 64 < o.attempts.length then corrupt "x402 attempts are invalid."
  else validateAttemptsFrom o 0 0 none o.attempts

def validateNormalizedSettlement (classification : SettlementClass)
    (n : NormalizedSettlement) : Result Unit :=
  if n.network ≠ o.frozen.network then corrupt "x402 settlement response network is invalid."
  else if n.payer.any fun p => p ≠ o.frozen.wallet then
    corrupt "x402 settlement payer conflicts with the frozen operation."
  else if n.amount.any fun a => a ≠ o.frozen.amountAtomic then
    corrupt "x402 settlement amount conflicts with the frozen operation."
  else match classification with
    | .success =>
      if !n.success ∨ n.errorReason.isSome then
        corrupt "x402 success settlement response is invalid."
      else .ok ()
    | .settlementPending =>
      if n.success ∨ n.errorReason ≠ some "settlement_pending" then
        corrupt "x402 pending settlement response is invalid."
      else .ok ()
    | .failureWithTransaction =>
      if n.success ∨ n.errorReason.isNone ∨ n.errorReason = some "" ∨
          n.errorReason = some "settlement_pending" then
        corrupt "x402 failed settlement response is invalid."
      else .ok ()

/-- The attempt of a number that counts from one. -/
def attemptNumbered (number : ℕ) : Option X402Attempt :=
  if number = 0 then none else o.attempts[number - 1]?

def bindsHeader (headerHash : String) (a : X402Attempt) : Bool :=
  a.phase = .observed &&
    a.observation.any fun observation => observation.paymentResponseHeaderHash = some headerHash

def validateSettlementResponse (r : SettlementResponseObservation) : Result Unit := do
  validateNormalizedSettlement o r.classification r.normalized
  if !(attemptNumbered o r.httpAttemptNumber).any (bindsHeader r.paymentResponseHeaderHash) then
    corrupt "x402 settlement response does not bind an observed paid HTTP attempt."
  else .ok ()

/-! ## Evidence -/

def positive (number : ℕ) : Result Unit :=
  if number = 0 then corrupt "x402 positive integer is invalid." else .ok ()

def validateStateSettlementEvidence (e : StateSettlementEvidence) : Result Unit := do
  positive e.safeHead.number
  if e.blockTag ≠ o.frozen.proofTag ∨ e.authorizationState ≠ e.safeHead then
    corrupt "x402 state settlement does not bind its safe block."
  else match e.transaction with
    | none => .ok ()
    | some transaction => do
      positive transaction.block.number
      if e.safeHead.number < transaction.block.number ∨
          (transaction.block.number = e.safeHead.number ∧ transaction.block.hash ≠ e.safeHead.hash) then
        corrupt "x402 state settlement transaction is outside its safe block."
      else .ok ()

def validateErc7710SettlementEvidence (e : Erc7710SettlementEvidence) :
    Result Unit := do
  positive e.safeHead.number
  positive e.transactionBlock.number
  if e.safeHead.number < e.transactionBlock.number then
    corrupt "x402 ERC-7710 settlement block is newer than the safe head."
  else if e.transactionBlock.number = e.safeHead.number ∧ e.transactionBlock.hash ≠ e.safeHead.hash then
    corrupt "x402 ERC-7710 settlement block conflicts with the safe head."
  else if some e.paymentResponse ≠ o.settlementResponse.map SettlementResponseObservation.normalized then
    corrupt "x402 ERC-7710 evidence conflicts with the frozen operation."
  else .ok ()

def validateSettlementEvidence : SettlementEvidence → Result Unit
  | .state e => validateStateSettlementEvidence o e
  | .erc7710 e => validateErc7710SettlementEvidence o e

def validateStateUnusedExpiryEvidence (e : StateUnusedExpiryEvidence) :
    Result Unit := do
  positive e.finalizedHead.identity.number
  if !x402ExpiredAt o.frozen.method e.finalizedHead.timestamp e.validBefore then
    corrupt "x402 unused-expiry head is not past the authorization's last executable second."
  else if e.validBefore ≠ o.frozen.validBefore ∨ e.authorizationState ≠ e.finalizedHead.identity then
    corrupt "x402 unused-expiry evidence conflicts with the frozen authorization or finalized head."
  else .ok ()

def validateErc7710UnusedExpiryEvidence (e : Erc7710UnusedExpiryEvidence) :
    Result Unit :=
  if e.expiryBlock.identity.number < o.frozen.preparedBlock.number ∨
      e.finalizedHead.identity.number < e.expiryBlock.identity.number ∨
      e.expiryBlock.timestamp < e.effectiveExpiryUnix ∨
      e.finalizedHead.timestamp < e.effectiveExpiryUnix ∨
      (e.expiryBlock.identity.number = e.finalizedHead.identity.number ∧
        e.expiryBlock.identity.hash ≠ e.finalizedHead.identity.hash) then
    corrupt "x402 ERC-7710 unused-expiry block range is invalid."
  else if e.effectiveExpiryUnix ≠ o.frozen.validBefore then
    corrupt "x402 ERC-7710 unused-expiry evidence conflicts with the frozen operation."
  else .ok ()

def validateUnusedExpiryEvidence : UnusedExpiryEvidence → Result Unit
  | .state e => validateStateUnusedExpiryEvidence o e
  | .erc7710 e => validateErc7710UnusedExpiryEvidence o e

end X402

def SettlementEvidence.isState : SettlementEvidence → Bool
  | .state _ => true
  | .erc7710 _ => false

def UnusedExpiryEvidence.isState : UnusedExpiryEvidence → Bool
  | .state _ => true
  | .erc7710 _ => false

namespace X402

variable (o : X402Operation)

def validateTransferMethodEvidence : Result Unit :=
  if o.frozen.method = .erc7710 then
    if o.unusedExpiryEvidence.any UnusedExpiryEvidence.isState ∨
        o.settlementEvidence.any SettlementEvidence.isState then
      corrupt "x402 ERC-7710 operation contains EIP-3009-only evidence."
    else .ok ()
  else if (o.unusedExpiryEvidence.any fun e => !e.isState) ∨
      (o.settlementEvidence.any fun e => !e.isState) then
    corrupt "x402 EIP-3009 operation contains ERC-7710 settlement evidence."
  else .ok ()

/-! ## The state summary -/

/-- `isX402ResultStatus` -/
def isResultStatus (frozen : X402Frozen) (status : ℕ) : Bool :=
  if frozen.resource.httpRequest then 200 ≤ status && status < 300 else status = 200

/-- The attempt was observed with a result status and this body. -/
def deliveredBy (resultHash : String) (a : X402Attempt) : Bool :=
  a.phase = .observed && a.observation.any fun observation =>
    isResultStatus o.frozen observation.status && observation.bodyHash = resultHash

def anyPending : Bool := o.attempts.any fun a => a.phase = .pending

def noEffectEvidence : Bool :=
  o.settlementResponse.isNone && o.transactionHint.isNone && o.settlementEvidence.isNone &&
    o.unusedExpiryEvidence.isNone

def stateSettled : Bool := o.settlementEvidence.any SettlementEvidence.isState

def stateUnusedExpiry : Bool :=
  o.unusedExpiryEvidence.any UnusedExpiryEvidence.isState

def preterminalUnusedExpiry : Bool :=
  o.unusedExpiryEvidence.isSome && o.settlementResponse.isNone && o.transactionHint.isNone &&
    o.settlementEvidence.isNone

/-- The finalized nonce state outranks a seller's claim. -/
def stateUnusedPreterminal : Bool :=
  stateUnusedExpiry o && o.settlementEvidence.isNone

/-- A body kept without a settlement answer does not contradict the delegated scan. -/
def keptBodyBesideScan : Bool :=
  (o.unusedExpiryEvidence.any fun e => !e.isState) && o.settlementResponse.isNone

def signed : Bool := o.material.isSome

def linked : Bool := o.resultLink.isSome || o.receiptLink.isSome

def pendingPayment (a : X402Attempt) : Bool := a.purpose = .payment && a.phase = .pending

/-- What a state says must hold of the other members; the text of the refusal otherwise. -/
def summaryFault : Option String :=
  match o.state with
  | .awaitingApproval =>
    if signed o ∨ o.attempts ≠ [] ∨ !noEffectEvidence o ∨ linked o then
      some "x402 awaiting approval contains later-phase evidence." else none
  | .authorizationMaterialPending =>
    if signed o ∨ o.attempts ≠ [] ∨
        (!noEffectEvidence o ∧ ¬ (stateUnusedExpiry o ∧ preterminalUnusedExpiry o)) ∨ linked o then
      some "x402 authorization-pending state contains later-phase evidence." else none
  | .authorizedNotSent =>
    if !signed o ∨ o.attempts ≠ [] ∨ (!noEffectEvidence o ∧ !preterminalUnusedExpiry o) ∨ linked o then
      some "x402 authorized-not-sent evidence is invalid." else none
  | .paidRequestPending =>
    if !signed o ∨ !o.lastAttempt.any pendingPayment ∨ !noEffectEvidence o ∨ linked o then
      some "x402 paid-request pending marker is invalid." else none
  | .settlementPending =>
    if !signed o ∨ o.attempts = [] ∨ o.receiptLink.isSome ∨
        (o.unusedExpiryEvidence.isSome ∧ !stateUnusedPreterminal o) then
      some "x402 ambiguous settlement evidence is invalid."
    else if o.transactionHint.isNone then some "x402 settlement pending lacks a transaction hint."
    else none
  | .effectUnknown =>
    if !signed o ∨ (o.attempts = [] ∧ !stateSettled o) ∨ o.receiptLink.isSome then
      some "x402 ambiguous settlement evidence is invalid."
    else if o.unusedExpiryEvidence.isSome ∧ !stateUnusedPreterminal o ∧
        (!preterminalUnusedExpiry o ∨ (o.resultLink.isSome ∧ !keptBodyBesideScan o)) then
      some "x402 preterminal unused-expiry evidence is incomplete or contradictory."
    else if o.settlementEvidence.isSome ∧ o.resultLink.isSome ∧ o.settlementResponse.isSome then
      some "x402 effect-unknown state cannot combine final settlement evidence with a linked seller result."
    else none
  | .sellerResultRecoveryPending =>
    if !signed o ∨ o.frozen.paymentIdentifier.isNone ∨ (o.transactionHint.isNone ∧ !stateSettled o) ∨
        o.settlementEvidence.isNone ∨ o.unusedExpiryEvidence.isSome ∨ o.receiptLink.isSome ∨
        (o.settlementResponse.isNone ∧ o.transactionHint.isSome) ∨
        (o.settlementResponse.isSome ∧ o.transactionHint.isNone) then
      some "x402 seller-result recovery evidence is invalid." else none
  | .completed =>
    if !signed o ∨ o.settlementEvidence.isNone ∨ o.unusedExpiryEvidence.isSome ∨ o.resultLink.isNone ∨
        o.receiptLink.isNone ∨
        (o.settlementResponse.isNone ∧ (!stateSettled o ∨ o.transactionHint.isSome)) ∨
        (o.settlementResponse.isSome ∧ o.transactionHint.isNone) then
      some "x402 completed evidence graph is incomplete."
    else if !o.resultAttempt.any fun a => a.phase = .observed &&
        a.observation.any fun observation => isResultStatus o.frozen observation.status then
      some "x402 completed state lacks an observed successful paid response."
    else none
  | .failedBeforeEffect =>
    if (signed o ∧ o.frozen.method ≠ .erc7710) ∨ o.attempts ≠ [] ∨ !noEffectEvidence o ∨
        o.resultLink.isSome ∨ o.receiptLink.isNone then
      some "x402 failed-before-effect evidence is invalid." else none
  | .failedExpiredUnused =>
    if (!signed o ∧ ¬ (stateUnusedExpiry o ∧ o.attempts = [])) ∨ o.unusedExpiryEvidence.isNone ∨
        o.settlementEvidence.isSome ∨
        (!stateUnusedExpiry o ∧ (o.settlementResponse.isSome ∨ o.transactionHint.isSome ∨
          (o.resultLink.isSome ∧ !keptBodyBesideScan o))) ∨ o.receiptLink.isNone then
      some "x402 expired-unused evidence is invalid." else none
  | .abandonedUnknown =>
    if o.unusedExpiryEvidence.isSome ∨ o.settlementEvidence.isSome ∨ o.receiptLink.isNone then
      some "x402 owner abandonment cannot replace a proven outcome." else none
  | .failedSettledWithoutResult =>
    if !signed o ∨ (¬ (o.settlementResponse.isSome ∧ o.transactionHint.isSome) ∧ !stateSettled o) ∨
        (o.transactionHint.isNone ∧ !stateSettled o) ∨ o.settlementEvidence.isNone ∨
        o.unusedExpiryEvidence.isSome ∨ o.resultLink.isSome ∨ o.receiptLink.isNone then
      some "x402 settled-without-result evidence is invalid." else none

/-- The states in which a result may be linked. -/
def allowsResult : Bool :=
  match o.state with
  | .settlementPending | .effectUnknown | .sellerResultRecoveryPending | .completed
  | .abandonedUnknown => true
  | .failedExpiredUnused => stateUnusedExpiry o || keptBodyBesideScan o
  | _ => false

def validateStateSummary : Result Unit :=
  if o.terminal ∧ anyPending o then corrupt "x402 terminal state retains a pending HTTP attempt."
  else if o.resultLink.any fun link => !o.resultAttempt.any (deliveredBy o link.resultHash) then
    corrupt "x402 result link does not bind its designated successful response."
  else if o.settlementEvidence.isSome ∧ !stateSettled o ∧ o.transactionHint.isNone then
    corrupt "x402 final settlement evidence lacks a transaction hint."
  else match summaryFault o with
    | some fault => corrupt fault
    | none =>
      if o.resultLink.isSome ∧ !allowsResult o then corrupt "x402 result link is invalid for state."
      else if o.settlementEvidence.any fun e => o.transactionHint.any fun hint =>
          (!e.isState || e.transactionHash.isSome) && e.transactionHash ≠ some hint.transactionHash then
        corrupt "x402 settlement evidence conflicts with the transaction hint."
      else if o.transactionHint.any fun hint =>
          o.settlementResponse.map SettlementResponseObservation.normalized ≠
            some hint.sourceBinding then
        corrupt "x402 payment-response transaction hint binding is invalid."
      else if o.transactionHint.any fun hint =>
          o.settlementResponse.any fun r => r.normalized.transaction ≠ hint.transactionHash then
        corrupt "x402 payment-response transaction hint conflicts with its response."
      else .ok ()

/-! ## Transitions -/

/-- Newest first: each is legal after the one before it, and no earlier. -/
def validateTransitions : List X402Transition → Result Unit
  | [] => corrupt "x402 operation has no transitions."
  | [t] =>
    if t.state ≠ .awaitingApproval then corrupt "x402 transition genesis is invalid." else .ok ()
  | t :: prior :: rest =>
    if t.state ∉ prior.state.legalNext then corrupt "x402 state transition is illegal."
    else if t.at' < prior.at' then corrupt "x402 transition timestamps are not chronological."
    else validateTransitions (prior :: rest)

/-- The check of a member that need not be there. -/
def whenPresent {α : Type} (member : Option α) (check : α → Result Unit) : Result Unit :=
  match member with
  | none => .ok ()
  | some a => check a

/-- `validateX402Operation` -/
def validateOperation : Result Unit :=
  if (o.frozen.method = .erc7710) ≠ (o.frozen.delegatedMaterial = true) ∨
      (o.frozen.providerSigner ∧ o.frozen.delegatedMaterial) then
    corrupt "x402 transfer method and provider binding disagree."
  else if o.frozen.method = .permit2 ∧
      (o.frozen.providerSigner ∨ o.frozen.paymentIdentifier.isSome) then
    corrupt "x402 Permit2 resolved offer is invalid."
  else if (o.frozen.method = .erc7710 ∧ o.material.isSome) ≠ (o.paymentContextHash.isSome = true) then
    corrupt "x402 delegated payment context hash is incomplete."
  else do
    validateAttempts o
    whenPresent o.settlementResponse (validateSettlementResponse o)
    whenPresent o.settlementEvidence (validateSettlementEvidence o)
    whenPresent o.unusedExpiryEvidence (validateUnusedExpiryEvidence o)
    validateTransferMethodEvidence o
    validateStateSummary o
    validateTransitions o.transitions

/-! ## The stored record before it -/

/-- A member that is set stays as it is. -/
def frozenOnce {α : Type} [DecidableEq α] (previous next : Option α) : Bool :=
  previous.isNone || previous = next

/-- The attempt without what finishing it adds. -/
def X402Attempt.pendingBody (a : X402Attempt) : ℕ × AttemptPurpose × Option String × ℤ :=
  (a.attemptNumber, a.purpose, a.requestHeaderHash, a.persistedAt)

def validateAttemptHistory : List X402Attempt → List X402Attempt → Result Unit
  | [], [] => .ok ()
  | [], a :: rest =>
    if a.phase ≠ .pending then
      corrupt "A newly persisted x402 attempt must begin with an exact pending marker."
    else validateAttemptHistory [] rest
  | _ :: _, [] => corrupt "x402 attempt history is not append-only."
  | prior :: priors, current :: rest =>
    if prior ≠ current ∧ (prior.phase ≠ .pending ∨ current.phase = .pending ∨
        X402Attempt.pendingBody prior ≠ X402Attempt.pendingBody current) then
      corrupt "x402 attempt history replaced a durable attempt."
    else validateAttemptHistory priors rest

/-- A recovery attempt's observed answer may replace the answer and the hint of the same transaction. -/
def recoveryAdvances (previous next : X402Operation) : Bool :=
  previous.state = .sellerResultRecoveryPending && next.state = .sellerResultRecoveryPending &&
  previous.resultLink.isNone && next.resultLink.isNone &&
  previous.receiptLink.isNone && next.receiptLink.isNone &&
  previous.frozen.paymentIdentifier.isSome && next.frozen.paymentIdentifier.isSome &&
  next.attempts.length = previous.attempts.length &&
  next.transitions.length = previous.transitions.length + 1 &&
  next.settlementResponse.any fun response => next.transactionHint.any fun hint =>
    hint.sourceBinding = response.normalized &&
    some hint.transactionHash = next.settlementEvidence.bind SettlementEvidence.transactionHash &&
    response.httpAttemptNumber ≠ 0 && response.httpAttemptNumber = previous.attempts.length &&
    (previous.lastAttempt.any fun prior => next.lastAttempt.any fun current =>
      prior.purpose = .resultRecovery && prior.phase = .pending &&
      current.purpose = .resultRecovery && bindsHeader response.paymentResponseHeaderHash current &&
      X402Attempt.pendingBody prior = X402Attempt.pendingBody current) &&
    (previous.transactionHint.any fun priorHint =>
      priorHint.transactionHash = hint.transactionHash &&
      previous.settlementResponse.any fun priorResponse =>
        priorHint.sourceBinding = priorResponse.normalized &&
        priorResponse.httpAttemptNumber < response.httpAttemptNumber)

/-- `validateX402AppendOnly` -/
def validateAppendOnly (previous next : X402Operation) : Result Unit :=
  if previous.frozen ≠ next.frozen then corrupt "x402 overwrite changed frozen member."
  else if !frozenOnce previous.material next.material ∨
      (!recoveryAdvances previous next ∧
        (!frozenOnce previous.settlementResponse next.settlementResponse ∨
          !frozenOnce previous.transactionHint next.transactionHint)) ∨
      !frozenOnce previous.settlementEvidence next.settlementEvidence ∨
      !frozenOnce previous.unusedExpiryEvidence next.unusedExpiryEvidence ∨
      !frozenOnce previous.resultLink next.resultLink ∨
      !frozenOnce previous.receiptLink next.receiptLink then
    corrupt "x402 overwrite removed or replaced durable member."
  else do
    validateAttemptHistory previous.attempts next.attempts
    if !(previous.transitions <:+ next.transitions) then
      corrupt "x402 transition history is not append-only."
    else if previous.transitions.length + 1 < next.transitions.length then
      corrupt "x402 overwrite appended more than one durable transition."
    else .ok ()

/-! ## The result and the receipt beside it -/

/-- The linked result is the stored one, and the body of its attempt. -/
def linksResult (link : X402ResultLink) (result : X402Result) : Bool :=
  result = link.resultIntegrity && result.resultHash = link.resultHash &&
    o.resultAttempt.any fun a => a.phase = .observed && a.observation.any fun observation =>
      observation.status = result.responseStatus && observation.bodyHash = result.resultHash &&
      observation.bodyByteLength = result.byteLength && observation.mediaType = some result.mediaType

def bindsReceipt (receipt : X402Receipt) : Bool :=
  o.receiptLink = some receipt && receipt.terminalState = o.state && receipt.binding = o.frozen &&
  receipt.createdAt = o.latest.at' && receipt.previousLink = o.earlier &&
  receipt.settlementResponse = o.settlementResponse.map SettlementResponseObservation.normalized &&
  receipt.settlementEvidence = o.settlementEvidence &&
  receipt.unusedExpiryEvidence = o.unusedExpiryEvidence &&
  receipt.result = o.resultLink.map X402ResultLink.resultIntegrity

/-- `validateX402TerminalGraph` -/
def validateTerminalGraph (result : Option X402Result)
    (receipt : Option X402Receipt) : Result Unit :=
  if o.resultLink.any fun link => !result.any (linksResult o link) then
    corrupt "x402 linked result graph is inconsistent."
  else if o.terminal ∧ !receipt.any (bindsReceipt o) then
    corrupt "Terminal x402 receipt does not bind the protected operation."
  else .ok ()

/-- `validateX402RecoveryReceiptAuthority`, and the result of the receipt. -/
def bindsOrphanReceipt (result : Option X402Result) (receipt : X402Receipt) : Bool :=
  receipt.binding = o.frozen && receipt.previousLink = o.transitions &&
  receipt.settlementResponse = o.settlementResponse.map SettlementResponseObservation.normalized &&
  receipt.settlementEvidence = o.settlementEvidence &&
  receipt.unusedExpiryEvidence = o.unusedExpiryEvidence &&
  (receipt.result.isNone || receipt.result = result)

/-- What `writeX402Operation` accepts over the stored record and beside the stored files. -/
def acceptsOperation (previous : Option X402Operation) (result : Option X402Result)
    (receipt : Option X402Receipt) (next : X402Operation) : Result Unit := do
  validateOperation next
  whenPresent previous fun previous => validateAppendOnly previous next
  validateTerminalGraph next result receipt

end X402
end PaymentNode
