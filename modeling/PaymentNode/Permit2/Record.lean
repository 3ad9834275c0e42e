import PaymentNode.Ledger.Ledger

/-!
# Record — the durable record of a Permit2 payment and its exposure journal

`validatePermit2ProductionRecord` is the check every stored record passes, `assertExposureAppend` the law of
the journal, and `persistCheck`, `persistExposureCheck` what the two persist functions require of the record
they replace.  The integrity hash is a function of the rest of the record and is read where it is compared.
-/

namespace PaymentNode.Permit2

inductive Permit2ProductionState
  | prepared
  | reserving
  | reserved
  | releasePending
  | releasedUnsubmitted
  | exposureUnknown
  | requestPending
  | terminalPending
  | settled
  | expiredNoEffect
deriving DecidableEq, Repr

namespace Permit2ProductionState

def isTerminal : Permit2ProductionState → Bool
  | releasedUnsubmitted | settled | expiredNoEffect => true
  | _ => false

/-- The states of a record whose authorization may have left the machine. -/
def exposed : Permit2ProductionState → Bool
  | exposureUnknown | requestPending | terminalPending | settled | expiredNoEffect => true
  | _ => false

def releasing : Permit2ProductionState → Bool
  | releasePending | releasedUnsubmitted => true
  | _ => false

/-- The states that follow a saved terminal intent. -/
def intended : Permit2ProductionState → Bool
  | terminalPending | settled | expiredNoEffect => true
  | _ => false

/-- `allowed`, less the move of a state to itself. -/
def allowedEdges : Permit2ProductionState → List Permit2ProductionState
  | prepared => [reserving, releasePending]
  | reserving => [reserved, releasePending]
  | reserved => [releasePending]
  | releasePending => [releasedUnsubmitted]
  | _ => []

/-- `exposureAllowed`, less the move of a state to itself. -/
def exposureEdges : Permit2ProductionState → List Permit2ProductionState
  | exposureUnknown => [requestPending, terminalPending]
  | requestPending => [terminalPending]
  | terminalPending => [settled, expiredNoEffect]
  | _ => []

end Permit2ProductionState

inductive Permit2Outcome
  | hold
  | settled
  | expiredUnused
deriving DecidableEq, Repr

inductive Permit2ObservationMode
  | settlement
  | expiredUnused
deriving DecidableEq, Repr

inductive Permit2ObservationReason
  | checked
  | revertedLocator
  | unavailableOrMismatch
deriving DecidableEq, Repr

structure Permit2WalletBinding where
  profile : String
  profileHash : String
  account : String
  bindingHash : String
  providerRecordDigest : Option String
  walletChainId : ℕ
  walletCreatedAt : String
deriving DecidableEq, Repr

/-- The token permit of the signing plan. -/
structure Eip2612Info where
  deadline : ℕ
  nonce : ℕ
deriving DecidableEq, Repr

/-- The frozen material, with what `reconstructPermit2ProductionMaterial` reads from it. -/
structure Permit2ProductionMaterial where
  wallet : Permit2WalletBinding
  policyDigest : String
  registryVersion : String
  policyRevision : ℕ
  activationDigest : String
  requestHash : String
  challengeHash : String
  signingSecond : ℕ
  nonce : ℕ
  identity : AssetUsageIdentity
  amountAtomic : ℕ
  permit2Deadline : ℕ
  eip2612 : Option Eip2612Info
  tokenDomainSeparator : Option String
  materialHash : String
deriving DecidableEq, Repr

def Permit2ProductionMaterial.expiresAtUnix (m : Permit2ProductionMaterial) : ℕ := m.permit2Deadline

def Permit2ProductionMaterial.eip2612Deadline (m : Permit2ProductionMaterial) : Option ℕ := m.eip2612.map (·.deadline)

structure Permit2ProductionSigned where
  operationDigest : String
  permit2Signature : String
  eip2612Signature : Option String
  paymentSignatureHeader : String
  headerHash : String
  signedHash : String
deriving DecidableEq, Repr

structure Permit2ObservationProjection where
  mode : Permit2ObservationMode
  outcome : Permit2Outcome
  reason : Permit2ObservationReason
  operationDigest : String
  materialHash : String
  requestHash : String
  challengeHash : String
  signedHash : Option String
  transactionHash : Option String
  blockNumber : Option ℕ
  blockHash : Option String
deriving DecidableEq, Repr

/-- What a terminal intent says of the payment; its digest is taken over this. -/
structure Permit2TerminalBody where
  outcome : Permit2Outcome
  operationDigest : String
  materialHash : String
  requestHash : String
  challengeHash : String
  signedHash : Option String
  transactionHash : Option String
  blockNumber : ℕ
  blockHash : String
deriving DecidableEq, Repr

structure Permit2TerminalIntent extends Permit2TerminalBody where
  observation : Permit2ObservationProjection
  outcomeDigest : String
deriving DecidableEq, Repr

/-- The single durable request marker, attempt 1. -/
structure Permit2Request where
  requestHash : String
  headerHash : String
deriving DecidableEq, Repr

/-- Its presence is irreversible authorization risk. -/
structure Permit2ExposureJournal where
  approvalFingerprint : String
  bindingHash : String
  permit2Deadline : ℕ
  eip2612Deadline : Option ℕ
  holdConfirmed : Bool
  signed : Option Permit2ProductionSigned
  request : Option Permit2Request
  terminalIntent : Option Permit2TerminalIntent
deriving DecidableEq, Repr

structure Permit2ProductionRecord where
  operationId : String
  profileHash : String
  idempotencyHash : String
  requestHash : String
  material : Permit2ProductionMaterial
  createdAt : Instant
  updatedAt : Instant
  state : Permit2ProductionState
  terminal : Bool
  reservationStarted : Bool
  usageReservationId : String
  usageReservationDigest : Option String
  exposureAt : Option Instant
  releaseDigest : Option String
  exposureJournal : Option Permit2ExposureJournal
deriving DecidableEq, Repr

/-- The facts a settled digest is taken over beside the binding, and those of an expiry. -/
inductive Permit2TerminalFacts
  | settled (transactionHash : Option String) (blockNumber : ℕ) (blockHash : String)
  | expired (nonce word bit : ℕ) (tokenNonce : Option ℕ) (tokenDomain : Option String) (permit2Deadline : ℕ)
      (eip2612Deadline : Option ℕ)
deriving DecidableEq, Repr

/-- What `productionTerminalDigest` hashes. -/
structure Permit2TerminalPreimage where
  operationId : String
  materialHash : String
  riskBinding : String
  outcome : Permit2Outcome
  operationDigest : String
  requestHash : String
  challengeHash : String
  signedHash : Option String
  facts : Permit2TerminalFacts
deriving DecidableEq, Repr

/-- The digests of the family, and the pure checks of frozen material and signatures that a record carries
unchanged: `validMaterial` rebuilds the payment from the offer, `decodes` reads a payment header back, and
`verifies` recovers the payer from both signatures. -/
structure Permit2Hashes extends LedgerHash where
  sha256 : String → String
  reservationDigest : ReservationBody → String
  integrity : Permit2ProductionRecord → String
  wallet : Permit2WalletBinding → String
  approvalFingerprint : String → Permit2ProductionMaterial → String
  riskBinding : (operationId materialHash requestHash approvalFingerprint : String) → String
  terminal : Permit2TerminalPreimage → String
  stable : (operationId profileHash idempotencyHash requestHash materialHash : String) → Instant → String
  unsignedExpiry : (operationId materialHash : String) → ℕ → String
  signed : (operationDigest permit2Signature : String) → Option String → (header headerHash : String) → String
  validMaterial : Permit2ProductionMaterial → Bool
  decodes : (header permit2Signature : String) → Option String → Bool
  verifies : Permit2ProductionMaterial → Permit2ProductionSigned → Bool

variable (H : Permit2Hashes)

def corruptJournal {α : Type} : Result α := corrupt "Permit2 exposure journal is corrupt."

def corruptRecord {α : Type} : Result α := corrupt "Permit2 production journal is corrupt."

@[simp] theorem corruptJournal_guard {α : Type} {a : α} {c : Prop} [Decidable c] {x : Result α} :
    (if c then corruptJournal else x) = .ok a ↔ ¬ c ∧ x = .ok a :=
  corrupt_guard

@[simp] theorem corruptRecord_guard {α : Type} {a : α} {c : Prop} [Decidable c] {x : Result α} :
    (if c then corruptRecord else x) = .ok a ↔ ¬ c ∧ x = .ok a :=
  corrupt_guard

def lowerHex (b : UInt8) : Bool := (48 ≤ b.toNat && b.toNat ≤ 57) || (97 ≤ b.toNat && b.toNat ≤ 102)

/-- A text as its bytes: what is matched by a pattern of ASCII characters is matched there. -/
def bytesOf (s : String) : List UInt8 := s.toByteArray.data.toList

/-- Sixty-four lower-case hexadecimal digits. -/
def isHash (s : String) : Bool := (bytesOf s).length = 64 && (bytesOf s).all lowerHex

/-- `0x` and sixty-four lower-case hexadecimal digits. -/
def isHexHash (s : String) : Bool :=
  match bytesOf s with
  | 48 :: 120 :: digits => digits.length = 64 && digits.all lowerHex
  | _ => false

def productionUsageKey (operationId : String) : String := "x402-permit2-production.v2:" ++ operationId

variable (r : Permit2ProductionRecord)

def productionUsageIdentity : AssetUsageIdentity := r.material.identity

def assetUsageReservationId (identity : AssetUsageIdentity) (key : String) : String :=
  H.reservationIdFor identity (H.idempotency key)

def productionApprovalFingerprint : String :=
  H.approvalFingerprint r.operationId r.material

def productionRiskBinding : String :=
  H.riskBinding r.operationId r.material.materialHash r.requestHash (productionApprovalFingerprint H r)

def terminalFacts (intent : Permit2TerminalBody) : Permit2TerminalFacts :=
  if intent.outcome = .settled then .settled intent.transactionHash intent.blockNumber intent.blockHash
  else .expired r.material.nonce (r.material.nonce / 2 ^ 8) (r.material.nonce % 256)
    (r.material.eip2612.map (·.nonce)) r.material.tokenDomainSeparator r.material.permit2Deadline
    r.material.eip2612Deadline

def terminalPreimage (intent : Permit2TerminalBody) : Permit2TerminalPreimage where
  operationId := r.operationId
  materialHash := r.material.materialHash
  riskBinding := productionRiskBinding H r
  outcome := intent.outcome
  operationDigest := intent.operationDigest
  requestHash := intent.requestHash
  challengeHash := intent.challengeHash
  signedHash := intent.signedHash
  facts := terminalFacts r intent

def productionTerminalDigest (intent : Permit2TerminalBody) : String :=
  H.terminal (terminalPreimage H r intent)

def productionStableDigest : String :=
  H.stable r.operationId r.profileHash r.idempotencyHash r.requestHash r.material.materialHash r.createdAt

def releaseDigestOf : String :=
  H.unsignedExpiry r.operationId r.material.materialHash r.material.expiresAtUnix

/-- The stored bundle is this operation's own, its header and hash in order. -/
def signedBound (s : Permit2ProductionSigned) : Bool :=
  s.operationDigest = productionStableDigest H r && s.headerHash = H.sha256 s.paymentSignatureHeader &&
    isHash s.signedHash && H.decodes s.paymentSignatureHeader s.permit2Signature s.eip2612Signature &&
    s.signedHash = H.signed s.operationDigest s.permit2Signature s.eip2612Signature s.paymentSignatureHeader
      s.headerHash

def requestBound (j : Permit2ExposureJournal) (q : Permit2Request) : Bool :=
  q.requestHash = r.material.requestHash && j.signed.any fun s => q.headerHash = s.headerHash

def validateRetainedObservation (o : Permit2ObservationProjection) (i : Permit2TerminalBody) : Bool :=
  o.mode = (if i.outcome = .settled then .settlement else .expiredUnused) && o.reason = .checked &&
    o.outcome = i.outcome && o.operationDigest = i.operationDigest && o.materialHash = i.materialHash &&
    o.requestHash = i.requestHash && o.challengeHash = i.challengeHash && o.signedHash = i.signedHash &&
    o.transactionHash = i.transactionHash && o.blockNumber = some i.blockNumber && o.blockHash = some i.blockHash

def intentBound (j : Permit2ExposureJournal) (i : Permit2TerminalIntent) : Bool :=
  (i.outcome = .settled || i.outcome = .expiredUnused) && i.operationDigest = productionStableDigest H r &&
    i.materialHash = r.material.materialHash && i.requestHash = r.material.requestHash &&
    i.challengeHash = r.material.challengeHash && i.signedHash = j.signed.map (·.signedHash) &&
    isHexHash i.blockHash &&
    -- A settlement proven by the consumed nonce bit may carry no transaction hash.
    (if i.outcome = .settled then j.signed.isSome && i.transactionHash.all isHexHash
      else i.transactionHash.isNone) &&
    validateRetainedObservation i.observation i.toPermit2TerminalBody &&
    i.outcomeDigest = productionTerminalDigest H r i.toPermit2TerminalBody

def validateExposureJournal (j : Permit2ExposureJournal) (r : Permit2ProductionRecord) : Result Unit :=
  if j.approvalFingerprint ≠ productionApprovalFingerprint H r ∨ j.bindingHash ≠ productionRiskBinding H r ∨
      j.permit2Deadline ≠ r.material.permit2Deadline ∨ j.eip2612Deadline ≠ r.material.eip2612Deadline then
    corruptJournal
  else if ¬ j.signed.all (signedBound H r) ∨ (j.signed.isSome ∧ ¬ j.holdConfirmed) then corruptJournal
  else if ¬ j.request.all (requestBound r j) ∨ (j.request.isSome ∧ ¬ j.holdConfirmed) then corruptJournal
  else if ¬ j.terminalIntent.all (intentBound H r j) ∨ (j.terminalIntent.isSome ∧ ¬ j.holdConfirmed) then
    corruptJournal
  else .ok ()

/-- The journal of an exposed record agrees with its state; no other record has one. -/
def exposureConsistent : Bool :=
  match r.exposureJournal with
  | some j =>
    r.state.exposed && r.reservationStarted && r.usageReservationDigest.isSome && r.releaseDigest.isNone &&
      !(r.state = .requestPending && j.request.isNone) && !(r.state = .exposureUnknown && j.request.isSome) &&
      r.state.intended = j.terminalIntent.isSome &&
      !(r.state = .settled && !j.terminalIntent.any fun i => i.outcome = .settled) &&
      !(r.state = .expiredNoEffect && !j.terminalIntent.any fun i => i.outcome = .expiredUnused)
  | none => !r.state.exposed || r.state = .exposureUnknown

/-- The rest of the check of a record: its times, its reservation and its release against its state. -/
def fieldsConsistent : Bool :=
  r.profileHash = r.material.wallet.profileHash && r.createdAt ≤ r.updatedAt &&
    r.createdAt.ms = r.material.signingSecond * 1000 && r.terminal = r.state.isTerminal &&
    !(r.state.releasing && r.updatedAt.ms < r.material.expiresAtUnix * 1000) &&
    !((r.state = .reserving || r.state = .reserved || r.state = .exposureUnknown) && !r.reservationStarted) &&
    !(r.state = .prepared && r.reservationStarted) &&
    r.usageReservationId =
      assetUsageReservationId H (productionUsageIdentity r) (productionUsageKey r.operationId) &&
    r.usageReservationDigest.all isHash &&
    !((r.state = .reserved || r.state = .exposureUnknown) && r.usageReservationDigest.isNone) &&
    !(r.state = .prepared && r.usageReservationDigest.isSome) && r.state.exposed = r.exposureAt.isSome &&
    r.exposureAt.all (fun at' => r.createdAt ≤ at' && at' ≤ r.updatedAt) &&
    r.state.releasing = r.releaseDigest.isSome && r.releaseDigest.all (fun d => d = releaseDigestOf H r)

/-- The journal of a record, where it has one, passes its own check. -/
def validateJournalOf : Result Unit :=
  match r.exposureJournal with
  | some j => validateExposureJournal H j r
  | none => .ok ()

def validatePermit2ProductionRecord : Result Unit :=
  if ¬ [r.operationId, r.profileHash, r.idempotencyHash, r.requestHash, r.usageReservationId].all isHash ∨
      ¬ H.validMaterial r.material then
    corruptRecord
  else do
    validateJournalOf H r
    if ¬ exposureConsistent r ∨ ¬ fieldsConsistent H r then corruptRecord else pure ()

/-- A record the family may store: one that passed its own check. -/
def sealPermit2ProductionRecord : Result Permit2ProductionRecord := do
  validatePermit2ProductionRecord H r
  return r

def validatePermit2ProductionSigned (s : Permit2ProductionSigned) (r : Permit2ProductionRecord) : Result Unit :=
  if ¬ signedBound H r s ∨ ¬ H.verifies r.material s then
    blocked "Permit2 production signed material does not match its frozen operation."
  else .ok ()

/-! ## What a write may do to the stored record -/

def allowed (source target : Permit2ProductionState) : Bool :=
  source = target || target ∈ source.allowedEdges

def exposureAllowed (source target : Permit2ProductionState) : Bool :=
  source = target || target ∈ source.exposureEdges

/-- Append-only risk, bearer, attempt and first terminal intent. -/
def exposureAppends (current next : Permit2ExposureJournal) : Bool :=
  current.approvalFingerprint = next.approvalFingerprint && current.bindingHash = next.bindingHash &&
    current.permit2Deadline = next.permit2Deadline && current.eip2612Deadline = next.eip2612Deadline &&
    !(current.holdConfirmed && !next.holdConfirmed) &&
    (current.signed.isNone || current.signed = next.signed) &&
    (current.request.isNone || current.request = next.request) &&
    (current.terminalIntent.isNone || current.terminalIntent = next.terminalIntent)

def assertExposureAppend (current : Option Permit2ExposureJournal) (next : Permit2ExposureJournal) : Result Unit :=
  if ¬ current.all fun j => exposureAppends j next then corruptJournal else .ok ()

/-- The frozen part of a record, which no write changes. -/
def sameOperation (current next : Permit2ProductionRecord) : Bool :=
  current.requestHash = next.requestHash && current.material.materialHash = next.material.materialHash &&
    current.createdAt = next.createdAt && current.profileHash = next.profileHash &&
    current.idempotencyHash = next.idempotencyHash

/-- `persistLocked` on the record it reads: only unsigned preparation and lease states. -/
def persistCheck (current next : Permit2ProductionRecord) : Result Unit :=
  if ¬ sameOperation current next ∨ current.exposureAt ≠ next.exposureAt ∨
      (current.reservationStarted ∧ ¬ next.reservationStarted) ∨ next.updatedAt < current.updatedAt ∨
      ¬ allowed current.state next.state then
    corruptRecord
  else .ok ()

/-- `persistExposureLocked` on the record it reads: append-only private risk. -/
def persistExposureCheck (current next : Permit2ProductionRecord) (journal : Permit2ExposureJournal) :
    Result Unit :=
  if ¬ sameOperation current next ∨ next.updatedAt < current.updatedAt ∨
      (current.terminal ∧ H.integrity current ≠ H.integrity next) ∨ ¬ next.reservationStarted ∨
      next.usageReservationDigest ≠ current.usageReservationDigest ∨
      (current.exposureAt.isSome ∧ current.exposureAt ≠ next.exposureAt) ∨
      (current.exposureJournal.isNone ∧ current.state ≠ .reserved) then
    corruptRecord
  else if current.exposureJournal.isSome ∧ ¬ exposureAllowed current.state next.state then corruptRecord
  else do
    assertExposureAppend current.exposureJournal journal
    match journal.signed with
    | some signed => validatePermit2ProductionSigned H signed next
    | none => pure ()

end PaymentNode.Permit2
