import PaymentNode.Basic

/-!
# Record — one local x402 purchase, its result and its receipt

The operation record, the result file and the receipt file of one local x402 operation, with the pure parts of
the code that read them.  A hash of a record or of a normalized answer is modelled by what it hashes.  Instants
are milliseconds; `validBefore` and block timestamps are seconds.
-/

namespace PaymentNode

inductive X402State
  | awaitingApproval
  | authorizationMaterialPending
  | authorizedNotSent
  | paidRequestPending
  | settlementPending
  | effectUnknown
  | sellerResultRecoveryPending
  | completed
  | failedBeforeEffect
  | failedExpiredUnused
  | failedSettledWithoutResult
  | abandonedUnknown
deriving DecidableEq, Repr

namespace X402State

/-- `STATE_SHAPE`: the terminal states. -/
def terminal : X402State → Bool
  | completed | failedBeforeEffect | failedExpiredUnused | failedSettledWithoutResult
  | abandonedUnknown => true
  | _ => false

/-- `LEGAL_NEXT` -/
def legalNext : X402State → List X402State
  | awaitingApproval => [authorizationMaterialPending, failedBeforeEffect, abandonedUnknown]
  | authorizationMaterialPending =>
    [authorizationMaterialPending, authorizedNotSent, failedBeforeEffect, failedExpiredUnused,
      abandonedUnknown]
  | authorizedNotSent =>
    [authorizedNotSent, paidRequestPending, effectUnknown, failedBeforeEffect, failedExpiredUnused,
      abandonedUnknown]
  | paidRequestPending => [settlementPending, effectUnknown, sellerResultRecoveryPending, completed]
  | settlementPending =>
    [settlementPending, effectUnknown, sellerResultRecoveryPending, completed, failedExpiredUnused,
      failedSettledWithoutResult, abandonedUnknown]
  | effectUnknown =>
    [effectUnknown, settlementPending, paidRequestPending, sellerResultRecoveryPending, completed,
      failedExpiredUnused, failedSettledWithoutResult, abandonedUnknown]
  | sellerResultRecoveryPending =>
    [sellerResultRecoveryPending, effectUnknown, completed, failedSettledWithoutResult,
      abandonedUnknown]
  | completed | failedBeforeEffect | failedExpiredUnused | failedSettledWithoutResult
  | abandonedUnknown => []

end X402State

inductive X402Method
  | eip3009
  | permit2
  | erc7710
deriving DecidableEq, Repr

inductive AttemptPurpose
  | payment
  | resultRecovery
deriving DecidableEq, Repr

inductive AttemptPhase
  | pending
  | observed
  | ambiguous
deriving DecidableEq, Repr

structure X402HttpObservation where
  attemptNumber : ℕ
  purpose : AttemptPurpose
  targetHash : String
  origin : String
  status : ℕ
  bodyHash : String
  bodyByteLength : ℕ
  mediaType : Option String
  paymentResponseHeaderHash : Option String
  startedAt : ℤ
  observedAt : ℤ
deriving DecidableEq, Repr

structure X402Attempt where
  attemptNumber : ℕ
  purpose : AttemptPurpose
  phase : AttemptPhase
  requestHeaderHash : Option String
  persistedAt : ℤ
  observation : Option X402HttpObservation
deriving DecidableEq, Repr

/-- The members of a settlement answer that are kept. -/
structure NormalizedSettlement where
  success : Bool
  errorReason : Option String
  payer : Option String
  transaction : String
  network : String
  amount : Option ℕ
deriving DecidableEq, Repr

inductive SettlementClass
  | success
  | settlementPending
  | failureWithTransaction
deriving DecidableEq, Repr

/-- A seller body that arrives with a success or a pending settlement answer is the purchased result. -/
def deliversX402Result : SettlementClass → Bool
  | .success | .settlementPending => true
  | .failureWithTransaction => false

structure SettlementResponseObservation where
  classification : SettlementClass
  /-- Also its own `settlementResponseHash`. -/
  normalized : NormalizedSettlement
  paymentResponseHeaderHash : String
  httpAttemptNumber : ℕ
  observedAt : ℤ
deriving DecidableEq, Repr

/-- A hint whose source is `payment_response`, bound to the answer it came from. -/
structure TransactionHint where
  transactionHash : String
  sourceBinding : NormalizedSettlement
  observedAt : ℤ
deriving DecidableEq, Repr

inductive ProofTag
  | safe
  | finalized
deriving DecidableEq, Repr

structure BlockIdentity where
  number : ℕ
  hash : String
deriving DecidableEq, Repr

structure EvidenceTransaction where
  transactionHash : String
  block : BlockIdentity
deriving DecidableEq, Repr

/-- The nonce reads used at a block of the proof tag; a transaction only when its receipt matched. -/
structure StateSettlementEvidence where
  safeHead : BlockIdentity
  authorizationState : BlockIdentity
  blockTag : ProofTag
  transaction : Option EvidenceTransaction
deriving DecidableEq, Repr

structure Erc7710SettlementEvidence where
  transactionHash : String
  safeHead : BlockIdentity
  transactionBlock : BlockIdentity
  paymentResponse : NormalizedSettlement
deriving DecidableEq, Repr

inductive SettlementEvidence
  | state (evidence : StateSettlementEvidence)
  | erc7710 (evidence : Erc7710SettlementEvidence)
deriving DecidableEq, Repr

def SettlementEvidence.transactionHash : SettlementEvidence → Option String
  | .state e => e.transaction.map EvidenceTransaction.transactionHash
  | .erc7710 e => some e.transactionHash

structure TimedBlock where
  identity : BlockIdentity
  timestamp : ℕ
deriving DecidableEq, Repr

/-- The nonce reads unused at a finalized block past the authorization's last second. -/
structure StateUnusedExpiryEvidence where
  validBefore : ℕ
  finalizedHead : TimedBlock
  authorizationState : BlockIdentity
deriving DecidableEq, Repr

structure Erc7710UnusedExpiryEvidence where
  effectiveExpiryUnix : ℕ
  expiryBlock : TimedBlock
  finalizedHead : TimedBlock
deriving DecidableEq, Repr

inductive UnusedExpiryEvidence
  | state (evidence : StateUnusedExpiryEvidence)
  | erc7710 (evidence : Erc7710UnusedExpiryEvidence)
deriving DecidableEq, Repr

structure X402Result where
  mediaType : String
  base64 : Bool
  resultHash : String
  byteLength : ℕ
  responseStatus : ℕ
  createdAt : ℤ
deriving DecidableEq, Repr

structure X402ResultLink where
  resultHash : String
  /-- The result that the link's integrity hash is of. -/
  resultIntegrity : X402Result
deriving DecidableEq, Repr

structure X402Resource where
  canonicalUrl : String
  origin : String
  urlHash : String
  httpRequest : Bool
deriving DecidableEq, Repr

/-- What prepare freezes. -/
structure X402Frozen where
  method : X402Method
  providerSigner : Bool
  delegatedMaterial : Bool
  network : String
  wallet : String
  payee : String
  amountAtomic : ℕ
  resource : X402Resource
  paymentIdentifier : Option String
  validBefore : ℕ
  preparedBlock : BlockIdentity
  proofTag : ProofTag
deriving DecidableEq, Repr

structure X402Transition where
  at' : ℤ
  state : X402State
deriving DecidableEq, Repr

structure X402Receipt where
  terminalState : X402State
  binding : X402Frozen
  settlementResponse : Option NormalizedSettlement
  settlementEvidence : Option SettlementEvidence
  unusedExpiryEvidence : Option UnusedExpiryEvidence
  result : Option X402Result
  /-- The transitions that the hash of the last one commits to, newest first. -/
  previousLink : List X402Transition
  createdAt : ℤ
deriving DecidableEq, Repr

structure PaymentMaterialHashes where
  signatureHash : String
  paymentPayloadHash : String
  paymentHeaderHash : String
deriving DecidableEq, Repr

/-- The operation record, its transitions newest first. -/
structure X402Operation where
  frozen : X402Frozen
  material : Option PaymentMaterialHashes
  paymentContextHash : Option String
  attempts : List X402Attempt
  settlementResponse : Option SettlementResponseObservation
  transactionHint : Option TransactionHint
  settlementEvidence : Option SettlementEvidence
  unusedExpiryEvidence : Option UnusedExpiryEvidence
  resultLink : Option X402ResultLink
  receiptLink : Option X402Receipt
  latest : X402Transition
  earlier : List X402Transition
deriving DecidableEq, Repr

namespace X402Operation

def transitions (o : X402Operation) : List X402Transition := o.latest :: o.earlier

def state (o : X402Operation) : X402State := o.latest.state

def terminal (o : X402Operation) : Bool := o.state.terminal

def paymentHeaderHash (o : X402Operation) : Option String :=
  o.material.map PaymentMaterialHashes.paymentHeaderHash

/-- One more transition. -/
def append (o : X402Operation) (at' : ℤ) (state : X402State) : X402Operation :=
  { o with latest := ⟨at', state⟩, earlier := o.transitions }

def attemptsOf (o : X402Operation) (purpose : AttemptPurpose) : List X402Attempt :=
  o.attempts.filter fun a => a.purpose = purpose

def lastAttempt (o : X402Operation) : Option X402Attempt := o.attempts.getLast?

def recoveryAttempt (o : X402Operation) : Option X402Attempt :=
  o.attempts.find? fun a => a.purpose = .resultRecovery

/-- The paid attempt whose body is the operation's result. -/
def resultAttempt (o : X402Operation) : Option X402Attempt :=
  match o.settlementResponse with
  | none => o.lastAttempt
  | some response =>
    if !deliversX402Result response.classification then none
    else if response.httpAttemptNumber = 0 then none
    else o.attempts[response.httpAttemptNumber - 1]?

end X402Operation

/-- `x402ExpiredAt`: EIP-3009 executes only before `validBefore`, Permit2 up to it. -/
def x402ExpiredAt (method : X402Method) (blockTimestamp validBefore : ℕ) : Bool :=
  match method with
  | .permit2 => validBefore < blockTimestamp
  | _ => validBefore ≤ blockTimestamp

/-- `Math.floor(now / 1000)` -/
def unixSeconds (ms : ℤ) : ℤ := ms / 1000

/-! ## The seller's settlement answer -/

/-- The members of a PAYMENT-RESPONSE that are read. -/
structure SettleResponse where
  success : Bool
  transaction : Option String
  txHash : Option String
  network : String
  payer : Option String
  amount : Option ℕ
  errorReason : Option String
deriving DecidableEq, Repr

/-- The header's hash, and its members when it has the strict form. -/
structure PaymentResponseHeader where
  headerHash : String
  decoded : Option SettleResponse
deriving DecidableEq, Repr

structure DecodedPaymentResponse where
  classification : SettlementClass
  normalized : NormalizedSettlement
  transactionHash : String
  paymentResponseHeaderHash : String
deriving DecidableEq, Repr

def settlementClass (r : SettleResponse) : Option SettlementClass :=
  if r.success then (if r.errorReason.isSome then none else some .success)
  else match r.errorReason with
    | none => none
    | some reason =>
      if reason = "" then none
      else if reason = "settlement_pending" then some .settlementPending
      else some .failureWithTransaction

/-- `decodeAndNormalizePaymentResponseHeader`; a refused header is none. -/
def decodePaymentResponse (frozen : X402Frozen) (header : PaymentResponseHeader) :
    Option DecodedPaymentResponse := do
  let r ← header.decoded
  let transaction ← r.transaction <|> r.txHash
  if r.transaction.isSome ∧ r.txHash.isSome ∧ r.transaction ≠ r.txHash then none
  else if r.network ≠ frozen.network then none
  else if r.payer.any fun p => p ≠ frozen.wallet then none
  else if r.amount.any fun a => a ≠ frozen.amountAtomic then none
  else
    let classification ← settlementClass r
    return ⟨classification,
      ⟨r.success, r.errorReason, r.payer, transaction, frozen.network, r.amount⟩, transaction,
      header.headerHash⟩

/-- What is read of a paid HTTP response. -/
structure PaidResponse where
  /-- The target, transport and header checks that throw. -/
  acceptable : Bool
  status : ℕ
  paymentResponse : Option PaymentResponseHeader
  bodyHash : String
  bodyByteLength : ℕ
  /-- The size, encoding and length checks of the body. -/
  intact : Bool
  /-- The media type of a body that reads as JSON or text. -/
  textMediaType : Option String
  /-- The media type of a body that is kept as bytes. -/
  opaqueMediaType : Option String
  startedAt : ℤ
  observedAt : ℤ
deriving DecidableEq, Repr

structure PaidResult where
  mediaType : String
  base64 : Bool
  resultHash : String
  byteLength : ℕ
  responseStatus : ℕ
deriving DecidableEq, Repr

structure PaidHttpResult where
  observation : X402HttpObservation
  paymentResponse : Option PaymentResponseHeader
  result : Option PaidResult
deriving DecidableEq, Repr

def opaqueHttpResult (raw : PaidResponse) : Option PaidResult :=
  if raw.status < 200 ∨ 300 ≤ raw.status then none
  else raw.opaqueMediaType.map fun mediaType =>
    ⟨mediaType, true, raw.bodyHash, raw.bodyByteLength, raw.status⟩

def textHttpResult (raw : PaidResponse) : Option PaidResult :=
  raw.textMediaType.map fun mediaType =>
    ⟨mediaType, false, raw.bodyHash, raw.bodyByteLength, 200⟩

/-- The seller body after payment, when it can be kept. -/
def observedPaidResult (raw : PaidResponse) (opaqueBody : Bool) : Option PaidResult :=
  if !raw.intact then none
  else if opaqueBody then opaqueHttpResult raw
  else if raw.status ≠ 200 then none
  else textHttpResult raw <|> opaqueHttpResult raw

/-- `observePaidX402Response`; a refused response is none. -/
def observePaidX402Response (raw : PaidResponse) (frozen : X402Frozen) (attemptNumber : ℕ)
    (purpose : AttemptPurpose) : Option PaidHttpResult :=
  if !raw.acceptable ∨ raw.status < 100 ∨ 599 < raw.status then none
  else
    let result := observedPaidResult raw frozen.resource.httpRequest
    some ⟨⟨attemptNumber, purpose, frozen.resource.urlHash, frozen.resource.origin, raw.status,
        raw.bodyHash, raw.bodyByteLength, result.map PaidResult.mediaType,
        raw.paymentResponse.map PaymentResponseHeader.headerHash, raw.startedAt, raw.observedAt⟩,
      raw.paymentResponse, result⟩

end PaymentNode
