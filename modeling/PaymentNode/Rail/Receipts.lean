import Mathlib.Data.List.Chain
import PaymentNode.Rail.Operation

/-!
# Receipts — the hashed rail journal and the receipts of its transitions

A receipt names the integrity hash of the record it was written for, and the record goes on.
`railHistoricalReceipt` derives the receipt of an earlier transition from the later record: it cuts the
transitions and decides from their states which of the two fields written once were there.  The hashes are any
functions of what they hash, and so are the checks of the parts a record carries unchanged.
-/

namespace PaymentNode
namespace RailJournal

structure ChainAccount where
  profile : String
  profileHash : String
  rail : ChainRail
  provider : RailProvider
  custody : String
  address : String
  createdAt : Instant
  identityHash : String
deriving DecidableEq

structure ChainAsset where
  rail : ChainRail
  alias' : String
  token : Bool
  identifier : String
  symbol : String
  decimals : ℕ
deriving DecidableEq

structure RailEconomics where
  networkFeeMaximumAtomic : String
  recipientRentAtomic : String
  maximumNativeDebitAtomic : String
  networkFeePayer : String
  rentPayer : Option String
  feeControl : String
deriving DecidableEq

/-- A prepared transfer without its unsigned bytes; the resources are a canonical JSON text. -/
structure RailTransfer where
  rail : ChainRail
  networkIdentity : String
  asset : ChainAsset
  sender : String
  recipient : String
  amountAtomic : String
  maximumFeeAtomic : String
  economics : RailEconomics
  preparedAt : Instant
  expiresAt : Instant
  blockReference : String
  lastValidBlockHeight : Option String
  sourceTokenAccount : Option String
  destinationTokenAccount : Option String
  createsRecipientAccount : Bool
  resources : Option String
deriving DecidableEq

structure RailPreparedTransfer extends RailTransfer where
  unsignedPayload : Option String
deriving DecidableEq

structure RailSimulationEvidence where
  slotAtomic : String
  unitsConsumedAtomic : String
  payloadHash : String
deriving DecidableEq

structure RailSendBinding where
  blockReference : String
  lastValidBlockHeight : String
  observedBlockHeight : String
  acquiredAt : Instant
  simulation : RailSimulationEvidence
deriving DecidableEq

structure DirectAllowlistBinding where
  policyDigest : String
  policyRevision : ℕ
deriving DecidableEq

/-- The usage lease; its reservation stands by its id, and the digest covers the rest. -/
structure DirectAssetUsageLease where
  profile : String
  reservationId : String
  leaseDigest : String
deriving DecidableEq

structure RailFinalEvidence where
  networkIdentity : String
  transactionId : String
  blockNumberAtomic : String
  blockId : String
  finality : String
  sender : String
  recipient : String
  assetIdentifier : String
  amountAtomic : String
  actualNetworkFeeAtomic : String
  actualRecipientRentAtomic : String
  networkFeePayer : String
  senderEffectVerified : Bool
  recipientEffectVerified : Bool
  observedAt : Instant
  rpcOriginHash : String
  resources : Option String
deriving DecidableEq

structure RailIntent where
  operationId : String
  profile : String
  profileHash : String
  idempotencyHash : String
  requestHash : String
  account : ChainAccount
  prepared : RailPreparedTransfer
  policyHash : String
  /-- Absent on records written before the gate. -/
  allowlist : Option DirectAllowlistBinding
deriving DecidableEq

/-- A transition without its own hash. -/
structure RailEntry where
  state : RailState
  at' : Instant
  reason : String
  proofClass : String
  transactionId : Option String
  rawPayloadHash : Option String
  evidence : Option RailFinalEvidence
  previousHash : String
deriving DecidableEq

structure RailTransition extends RailEntry where
  transitionHash : String
deriving DecidableEq

/-- The fields a record repeats from its last transition. -/
structure RailLatest where
  state : RailState
  reason : String
  proofClass : String
  transactionId : Option String
  rawPayloadHash : Option String
  evidence : Option RailFinalEvidence
  updatedAt : Instant
deriving DecidableEq

structure RailOperationBody extends RailIntent, RailLatest where
  fingerprint : String
  /-- Written once, with `signing_started`. -/
  send : Option RailSendBinding
  /-- Written once, with the first signing or send transition. -/
  allowlistLease : Option DirectAssetUsageLease
  terminal : Bool
  createdAt : Instant
  transitions : List RailTransition
deriving DecidableEq

structure RailOperationRecord extends RailOperationBody where
  integrityHash : String
deriving DecidableEq

structure PublicAllowlist where
  policyDigest : String
  policyRevision : ℕ
  reservationId : Option String
deriving DecidableEq

structure RailReceiptBody where
  operationId : String
  profile : String
  provider : RailProvider
  custody : String
  account : String
  fingerprint : String
  policyHash : String
  allowlist : Option PublicAllowlist
  transfer : RailTransfer
  sendBinding : Option RailSendBinding
  state : RailState
  terminal : Bool
  proofClass : String
  reason : String
  transactionId : Option String
  evidence : Option RailFinalEvidence
  createdAt : Instant
  updatedAt : Instant
  nextActions : List String
  operationBindingHash : String
deriving DecidableEq

structure RailReceipt extends RailReceiptBody where
  receiptHash : String
deriving DecidableEq

structure DirectAllowlistSubject where
  profile : String
  operationId : String
  family : ChainRail
  account : String
  asset : ChainAsset
  amountAtomic : String
  recipient : String

/-- `hashObject`, and the checks of the parts. -/
structure Journal where
  hashIntent : RailIntent → String
  hashEntry : RailEntry → String
  hashBody : RailOperationBody → String
  hashReceipt : RailReceiptBody → String
  validateChainAccount : ChainAccount → Result Unit
  validateRailPrepared : RailPreparedTransfer → ChainAccount → Result Unit
  validateRailSendBinding : RailSendBinding → RailPreparedTransfer → Result Unit
  validateRailEvidence : RailFinalEvidence → RailPreparedTransfer → String → Bool → Result Unit
  validateDirectAllowlistBinding : DirectAllowlistBinding → Result Unit
  validateDirectAllowlistLease : DirectAssetUsageLease → DirectAllowlistBinding → DirectAllowlistSubject → Result Unit

def corruptRail {α : Type} : Result α := corrupt "The direct-rail operation or evidence binding is invalid."

def corruptAllowlist {α : Type} : Result α :=
  corrupt "The direct-rail allowlist binding is inconsistent with the operation."

def corruptStore {α : Type} : Result α := corrupt "The direct-rail store or receipt binding is invalid."

def isHash (text : String) : Bool :=
  text.toList.length = 64 && text.toList.all fun c => c.isDigit || ('a' ≤ c && c ≤ 'f')

/-- A lower-case letter and up to 95 letters, digits and underscores. -/
def isReason (text : String) : Bool :=
  match text.toList with
  | [] => false
  | first :: rest => first.isLower && rest.length ≤ 95 && rest.all fun c => c.isLower || c.isDigit || c = '_'

def isBase58 (c : Char) : Bool :=
  ('1' ≤ c && c ≤ '9') || (c.isUpper && c ≠ 'I' && c ≠ 'O') || (c.isLower && c ≠ 'l')

def validateRailTransactionId (value : String) : ChainRail → Bool
  | .solana => 64 ≤ value.toList.length && value.toList.length ≤ 88 && value.toList.all isBase58
  | .tron => isHash value

def latest (entry : RailEntry) : RailLatest where
  state := entry.state
  reason := entry.reason
  proofClass := entry.proofClass
  transactionId := entry.transactionId
  rawPayloadHash := entry.rawPayloadHash
  evidence := entry.evidence
  updatedAt := entry.at'

def signed (transitions : List RailTransition) : Bool := transitions.any fun entry => entry.state = .signingStarted

/-- A transition crossed into signing or a provider send. -/
def crossed (transitions : List RailTransition) : Bool := transitions.any fun entry => entry.state.needsLease

section Journal

variable (J : Journal)

def railAllowlistSubject (value : RailOperationBody) : DirectAllowlistSubject where
  profile := value.account.profile
  operationId := value.operationId
  family := value.account.rail
  account := value.account.address
  asset := value.prepared.asset
  amountAtomic := value.prepared.amountAtomic
  recipient := value.prepared.recipient

/-- Once bound, the lease is mandatory from the first signing or send transition. -/
def validateRailAllowlist (value : RailOperationBody) : Result Unit :=
  match value.allowlist, value.allowlistLease with
  | none, none => .ok ()
  | none, some _ => corruptAllowlist
  | some binding, none =>
    J.validateDirectAllowlistBinding binding >>= fun _ =>
      if crossed value.transitions then corruptAllowlist else .ok ()
  | some binding, some lease =>
    J.validateDirectAllowlistBinding binding >>= fun _ =>
      if crossed value.transitions = false then corruptAllowlist
      else J.validateDirectAllowlistLease lease binding (railAllowlistSubject value)

def validateSend (value : RailOperationBody) : Result Unit :=
  match value.send with
  | none => .ok ()
  | some send =>
    if value.account.provider ≠ .local' ∨ signed value.transitions = false then corruptRail
    else J.validateRailSendBinding send value.prepared

/-- What a transition owes to the one before it. -/
def followsEntry (createdAt : Instant) (previous : Option RailTransition) (entry : RailEntry) : Bool :=
  match previous with
  | none =>
    entry.state = .awaitingApproval && entry.at' = createdAt && entry.transactionId.isNone &&
      entry.rawPayloadHash.isNone && entry.evidence.isNone
  | some previous =>
    entry.state ∈ previous.state.edges && previous.at' ≤ entry.at' &&
      (previous.transactionId.isNone || entry.transactionId = previous.transactionId) &&
      (previous.rawPayloadHash.isNone || entry.rawPayloadHash = previous.rawPayloadHash)

def providerEntry (provider : RailProvider) (previous : Option RailTransition) (entry : RailEntry) : Bool :=
  match provider with
  | .local' =>
    (!entry.state.bound || (entry.transactionId.isSome && entry.rawPayloadHash.isSome)) &&
      !(previous.any fun previous => previous.state = .awaitingApproval && entry.state = .submitting)
  | .hosted =>
    entry.state ≠ .signingStarted && entry.state ≠ .signedNotSubmitted && entry.rawPayloadHash.isNone

def validateFinal (prepared : RailPreparedTransfer) (entry : RailEntry) : Result Unit :=
  if entry.state = .completed ∨ entry.state = .failedConfirmedRevert then
    match entry.evidence, entry.transactionId with
    | some evidence, some transactionId =>
      J.validateRailEvidence evidence prepared transactionId (entry.state = .completed) >>= fun _ =>
        if entry.at' < evidence.observedAt then corruptRail else .ok ()
    | _, _ => corruptRail
  else if entry.evidence.isSome then corruptRail
  else .ok ()

def validateRailEntry (value : RailOperationBody) (previous : Option RailTransition) (entry : RailTransition) :
    Result Unit :=
  if isReason entry.reason = false ∨ isReason entry.proofClass = false then corruptRail
  else if J.hashEntry entry.toRailEntry ≠ entry.transitionHash ∨
      entry.previousHash ≠ (previous.map RailTransition.transitionHash).getD value.fingerprint then corruptRail
  else if followsEntry value.createdAt previous entry.toRailEntry = false then corruptRail
  else if entry.transactionId.any (fun id => !validateRailTransactionId id value.account.rail) ||
      entry.rawPayloadHash.any (fun hash => !isHash hash) then corruptRail
  else if providerEntry value.account.provider previous entry.toRailEntry = false then corruptRail
  else validateFinal J value.prepared entry.toRailEntry

/-- Every transition after the one before it; the last is returned. -/
def validateRailTransitions (value : RailOperationBody) :
    Option RailTransition → List RailTransition → Result (Option RailTransition)
  | previous, [] => .ok previous
  | previous, entry :: rest =>
    validateRailEntry J value previous entry >>= fun _ => validateRailTransitions value (some entry) rest

def validateRailOperation (value : RailOperationRecord) : Result Unit :=
  if [value.operationId, value.profileHash, value.idempotencyHash, value.requestHash, value.policyHash,
      value.fingerprint, value.integrityHash].all isHash = false then corruptRail
  else
    J.validateChainAccount value.account >>= fun _ =>
    J.validateRailPrepared value.prepared value.account >>= fun _ =>
    if value.profile ≠ value.account.profile ∨ value.profileHash ≠ value.account.profileHash then corruptRail
    else
      validateRailAllowlist J value.toRailOperationBody >>= fun _ =>
      validateSend J value.toRailOperationBody >>= fun _ =>
      if J.hashIntent value.toRailIntent ≠ value.fingerprint then corruptRail
      else if value.createdAt ≠ value.prepared.preparedAt ∨ value.transitions.length < 1 ∨
          32 < value.transitions.length then corruptRail
      else
        validateRailTransitions J value.toRailOperationBody none value.transitions >>= fun last =>
        if last.map (fun last => latest last.toRailEntry) ≠ some value.toRailLatest then corruptRail
        else if value.terminal ≠ value.state.isTerminal then corruptRail
        else if J.hashBody value.toRailOperationBody ≠ value.integrityHash then corruptRail
        else .ok ()

def seal' (body : RailOperationBody) : Result RailOperationRecord :=
  let value : RailOperationRecord := ⟨body, J.hashBody body⟩
  validateRailOperation J value >>= fun _ => .ok value

def newRailOperation (intent : RailIntent) : Result RailOperationRecord :=
  let entry : RailEntry :=
    { state := .awaitingApproval, at' := intent.prepared.preparedAt, reason := "prepared_and_frozen"
      proofClass := "durable_pre_effect", transactionId := none, rawPayloadHash := none, evidence := none
      previousHash := J.hashIntent intent }
  seal' J
    { toRailIntent := intent
      toRailLatest := latest entry
      fingerprint := J.hashIntent intent
      send := none
      allowlistLease := none
      terminal := false
      createdAt := entry.at'
      transitions := [⟨entry, J.hashEntry entry⟩] }

structure RailTransitionInput where
  state : RailState
  at' : Instant
  reason : String
  proofClass : String
  transactionId : Option String
  rawPayloadHash : Option String
  evidence : Option RailFinalEvidence
  send : Option RailSendBinding
  allowlistLease : Option DirectAssetUsageLease

def validateRailContinuity (previous next : RailOperationRecord) : Result Unit :=
  validateRailOperation J previous >>= fun _ =>
  validateRailOperation J next >>= fun _ =>
  if previous = next then .ok ()
  else if previous.terminal = true ∨ previous.fingerprint ≠ next.fingerprint ∨
      next.transitions.length ≠ previous.transitions.length + 1 ∨
      next.transitions.dropLast ≠ previous.transitions then corruptRail
  else if previous.send.isSome ∧ next.send ≠ previous.send then corruptRail
  else if previous.allowlistLease.isSome ∧ next.allowlistLease ≠ previous.allowlistLease then corruptRail
  else .ok ()

def nextEntry (operation : RailOperationBody) (last : RailTransition) (input : RailTransitionInput) : RailEntry where
  state := input.state
  at' := input.at'
  reason := input.reason
  proofClass := input.proofClass
  transactionId := input.transactionId <|> operation.transactionId
  rawPayloadHash := input.rawPayloadHash <|> operation.rawPayloadHash
  evidence := input.evidence <|> operation.evidence
  previousHash := last.transitionHash

/-- The record of one transition more, before its hash. -/
def nextBody (operation : RailOperationBody) (entry : RailEntry) (input : RailTransitionInput) :
    RailOperationBody where
  toRailIntent := operation.toRailIntent
  toRailLatest := latest entry
  fingerprint := operation.fingerprint
  send := input.send <|> operation.send
  allowlistLease := input.allowlistLease <|> operation.allowlistLease
  terminal := entry.state.isTerminal
  createdAt := operation.createdAt
  transitions := operation.transitions ++ [⟨entry, J.hashEntry entry⟩]

variable (operation : RailOperationRecord)

def transitionRail (input : RailTransitionInput) : Result RailOperationRecord :=
  validateRailOperation J operation >>= fun _ =>
  match operation.transitions.getLast? with
  | none => corruptRail
  | some last =>
    seal' J (nextBody J operation.toRailOperationBody (nextEntry operation.toRailOperationBody last input) input) >>=
      fun result => validateRailContinuity J operation result >>= fun _ => .ok result

def railNextActions : List String :=
  if operation.terminal then []
  else if operation.state = .awaitingApproval then
    ["apn pay transfer approve --operation " ++ operation.operationId]
  else if operation.state = .unknownFinality ∧ operation.transactionId = none then
    ["Manual provider reconciliation is required; do not repeat the send."]
  else ["apn operation resume --operation " ++ operation.operationId]

def publicDirectAllowlist (binding : DirectAllowlistBinding) (lease : Option DirectAssetUsageLease) :
    PublicAllowlist where
  policyDigest := binding.policyDigest
  policyRevision := binding.policyRevision
  reservationId := lease.map DirectAssetUsageLease.reservationId

/-- The public projection, with the record's hash. -/
def receiptBody : RailReceiptBody where
  operationId := operation.operationId
  profile := operation.profile
  provider := operation.account.provider
  custody := operation.account.custody
  account := operation.account.address
  fingerprint := operation.fingerprint
  policyHash := operation.policyHash
  allowlist := operation.allowlist.map fun binding => publicDirectAllowlist binding operation.allowlistLease
  transfer := operation.prepared.toRailTransfer
  sendBinding := operation.send
  state := operation.state
  terminal := operation.terminal
  proofClass := operation.proofClass
  reason := operation.reason
  transactionId := operation.transactionId
  evidence := operation.evidence
  createdAt := operation.createdAt
  updatedAt := operation.updatedAt
  nextActions := railNextActions operation
  operationBindingHash := operation.integrityHash

def railReceipt : Result RailReceipt :=
  validateRailOperation J operation >>= fun _ =>
    .ok ⟨receiptBody operation, J.hashReceipt (receiptBody operation)⟩

/-- The record as it stood at an earlier transition, before its hash. -/
def historicalBody (operation : RailOperationBody) (transitionIndex : ℕ) (entry : RailEntry) :
    RailOperationBody where
  toRailIntent := operation.toRailIntent
  toRailLatest := latest entry
  fingerprint := operation.fingerprint
  send := if signed (operation.transitions.take (transitionIndex + 1)) then operation.send else none
  allowlistLease :=
    if crossed (operation.transitions.take (transitionIndex + 1)) then operation.allowlistLease else none
  terminal := entry.state.isTerminal
  createdAt := operation.createdAt
  transitions := operation.transitions.take (transitionIndex + 1)

def railHistoricalReceipt (transitionIndex : ℕ) : Result RailReceipt :=
  match operation.transitions[transitionIndex]? with
  | none => corruptRail
  | some entry =>
    seal' J (historicalBody operation.toRailOperationBody transitionIndex entry.toRailEntry) >>= railReceipt J

/-- The transition a stored receipt belongs to. -/
def receiptTransition (value : RailReceipt) (operation : RailOperationRecord) : Result ℕ :=
  match operation.transitions.findIdx? (fun entry => entry.state = value.state && entry.at' = value.updatedAt) with
  | none => corruptStore
  | some index =>
    railHistoricalReceipt J operation index >>= fun expected =>
      if value.allowlist.isSome ≠ expected.allowlist.isSome ∨ value.sendBinding.isSome ≠ expected.sendBinding.isSome ∨
          value.operationId ≠ operation.operationId ∨ value.fingerprint ≠ operation.fingerprint then corruptStore
      else if J.hashReceipt value.toRailReceiptBody ≠ value.receiptHash then corruptStore
      else if value ≠ expected then corruptStore
      else .ok index

/-- The record after `inputs`, from its preparation. -/
def railRun (intent : RailIntent) (inputs : List RailTransitionInput) : Result RailOperationRecord :=
  newRailOperation J intent >>= fun first => inputs.foldlM (transitionRail J) first

end Journal

/-! ## What a valid record is -/

/-- Transitions along edges, from `awaiting_approval`. -/
def Followed (transitions : List RailTransition) : Prop :=
  List.IsChain (fun previous next : RailTransition => next.state ∈ previous.state.edges) transitions ∧
    ∀ first ∈ transitions.head?, first.state = .awaitingApproval

/-- The facts of a valid record that its history needs. -/
structure Sealed (J : Journal) (value : RailOperationRecord) : Prop where
  valid : validateRailOperation J value = .ok ()
  followed : Followed value.transitions
  last : ∃ last, value.transitions.getLast? = some last ∧ latest last.toRailEntry = value.toRailLatest
  terminal : value.terminal = value.state.isTerminal
  send : value.send.isSome → signed value.transitions = true
  lease : value.allowlistLease.isSome → crossed value.transitions = true
  integrity : J.hashBody value.toRailOperationBody = value.integrityHash

section Validity

variable {J : Journal} {value : RailOperationRecord} {body : RailOperationBody}

@[simp] theorem corruptRail_ne_ok {α : Type} {a : α} : ¬ (corruptRail = .ok a) := corrupt_ne_ok

@[simp] theorem corruptAllowlist_ne_ok {α : Type} {a : α} : ¬ (corruptAllowlist = .ok a) := corrupt_ne_ok

theorem rail_guard {α : Type} {c : Prop} [Decidable c] {x : Result α} {a : α} :
    (if c then corruptRail else x) = .ok a ↔ ¬ c ∧ x = .ok a := corrupt_guard

theorem validateRailEntry_ok {previous : Option RailTransition} {entry : RailTransition}
    (h : validateRailEntry J body previous entry = .ok ()) :
    followsEntry body.createdAt previous entry.toRailEntry = true := by
  unfold validateRailEntry at h
  have h := (rail_guard.mp (rail_guard.mp (rail_guard.mp h).2).2).1
  simpa using h

variable {transitions : List RailTransition}

theorem validateRailTransitions_ok {previous last : Option RailTransition}
    (h : validateRailTransitions J body previous transitions = .ok last) :
    List.IsChain (fun previous next : RailTransition => next.state ∈ previous.state.edges)
        (previous.toList ++ transitions) ∧
      (previous = none → ∀ first ∈ transitions.head?, first.state = .awaitingApproval) ∧
      last = (previous.toList ++ transitions).getLast? := by
  induction transitions generalizing previous with
  | nil =>
    cases h
    cases last with
    | none => simp
    | some previous => simp
  | cons entry rest ih =>
    rcases bind_ok.mp h with ⟨_, hentry, hrest⟩
    have hfollows := validateRailEntry_ok hentry
    rcases ih hrest with ⟨hchain, _, hlast⟩
    unfold followsEntry at hfollows
    cases previous with
    | none =>
      simp only [Bool.and_eq_true, decide_eq_true_eq] at hfollows
      refine ⟨hchain, fun _ first hfirst => ?_, hlast⟩
      rw [List.head?_cons, Option.mem_some_iff] at hfirst
      rw [← hfirst]
      exact hfollows.1.1.1.1
    | some previous =>
      simp only [Bool.and_eq_true, decide_eq_true_eq] at hfollows
      refine ⟨List.IsChain.cons_cons hfollows.1.1.1 hchain, fun hnone => absurd hnone (by simp), ?_⟩
      rw [hlast]
      simp

theorem validateRailAllowlist_ok (h : validateRailAllowlist J body = .ok ()) (hlease : body.allowlistLease.isSome) :
    crossed body.transitions = true := by
  unfold validateRailAllowlist at h
  rcases Option.isSome_iff_exists.mp hlease with ⟨lease, hlease⟩
  rw [hlease] at h
  cases hallowlist : body.allowlist with
  | none =>
    rw [hallowlist] at h
    exact absurd h corruptAllowlist_ne_ok
  | some binding =>
    rw [hallowlist] at h
    rcases bind_ok.mp h with ⟨_, _, h⟩
    by_cases hcrossed : crossed body.transitions = false
    · rw [if_pos hcrossed] at h
      exact absurd h corruptAllowlist_ne_ok
    · simpa using hcrossed

theorem validateSend_ok (h : validateSend J body = .ok ()) (hsend : body.send.isSome) :
    signed body.transitions = true := by
  unfold validateSend at h
  rcases Option.isSome_iff_exists.mp hsend with ⟨send, hsend⟩
  rw [hsend] at h
  have hsigned := (rail_guard.mp h).1
  rw [not_or] at hsigned
  simpa using hsigned.2

theorem sealed_of_valid (h : validateRailOperation J value = .ok ()) : Sealed J value := by
  have hvalid := h
  unfold validateRailOperation at h
  have h := (rail_guard.mp h).2
  rcases bind_ok.mp h with ⟨_, _, h⟩
  rcases bind_ok.mp h with ⟨_, _, h⟩
  have h := (rail_guard.mp h).2
  rcases bind_ok.mp h with ⟨_, hallowlist, h⟩
  rcases bind_ok.mp h with ⟨_, hsend, h⟩
  have h := (rail_guard.mp (rail_guard.mp h).2).2
  rcases bind_ok.mp h with ⟨last, hlast, h⟩
  rcases rail_guard.mp h with ⟨hlatest, h⟩
  rcases rail_guard.mp h with ⟨hterminal, h⟩
  have hintegrity := (rail_guard.mp h).1
  rcases validateRailTransitions_ok hlast with ⟨hchain, hfirst, hend⟩
  rw [ne_eq, not_not] at hlatest hterminal hintegrity
  rcases Option.map_eq_some_iff.mp hlatest with ⟨final, hfinal, hlatest⟩
  exact
    { valid := hvalid
      followed := ⟨hchain, hfirst rfl⟩
      last := ⟨final, by rw [← hfinal, hend]; rfl, hlatest⟩
      terminal := hterminal
      send := validateSend_ok hsend
      lease := validateRailAllowlist_ok hallowlist
      integrity := hintegrity }

theorem seal_ok {result : RailOperationRecord} (h : seal' J body = .ok result) :
    result.toRailOperationBody = body ∧ Sealed J result := by
  unfold seal' at h
  rcases bind_ok.mp h with ⟨_, hvalid, h⟩
  cases h
  exact ⟨rfl, sealed_of_valid hvalid⟩

-- Sealing a valid record's body gives the record.
theorem seal_body (h : Sealed J value) : seal' J value.toRailOperationBody = .ok value := by
  have hsame : (⟨value.toRailOperationBody, J.hashBody value.toRailOperationBody⟩ : RailOperationRecord) = value := by
    rw [h.integrity]
  unfold seal'
  rw [hsame]
  dsimp only
  rw [h.valid]
  rfl

theorem transitionRail_ok {operation next : RailOperationRecord} {input : RailTransitionInput}
    (h : transitionRail J operation input = .ok next) :
    Sealed J operation ∧ Sealed J next ∧ ∃ last, operation.transitions.getLast? = some last ∧
      next.toRailOperationBody =
        nextBody J operation.toRailOperationBody (nextEntry operation.toRailOperationBody last input) input := by
  unfold transitionRail at h
  rcases bind_ok.mp h with ⟨_, hvalid, h⟩
  cases hlast : operation.transitions.getLast? with
  | none =>
    rw [hlast] at h
    exact absurd h corruptRail_ne_ok
  | some last =>
    rw [hlast] at h
    rcases bind_ok.mp h with ⟨result, hsealed, h⟩
    rcases bind_ok.mp h with ⟨_, _, h⟩
    cases h
    rcases seal_ok hsealed with ⟨hbody, hresult⟩
    exact ⟨sealed_of_valid hvalid, hresult, last, rfl, hbody⟩

end Validity

/-! ## The order of the states -/

/-- How far a state is from its preparation. -/
def rank : RailState → ℕ
  | .awaitingApproval => 0
  | .signingStarted => 1
  | .signedNotSubmitted => 2
  | .submitting => 3
  | .submittedPending => 4
  | .unknownFinality => 5
  | .completed | .failedBeforeEffect | .failedConfirmedRevert | .abandonedUnknown => 6

theorem rank_lt_of_edge {s t : RailState} (h : t ∈ s.edges) : rank s < rank t := by
  revert h
  cases s <;> cases t <;> decide

theorem ordered_of_followed {transitions : List RailTransition} (h : Followed transitions) :
    transitions.Pairwise fun earlier later => rank earlier.state < rank later.state := by
  have hchain : List.IsChain (fun earlier later : RailTransition => rank earlier.state < rank later.state)
      transitions := h.1.imp fun _ _ => rank_lt_of_edge
  exact List.isChain_iff_pairwise.mp hchain

/-! ## Cutting a record back -/

section History

variable {J : Journal} {operation next : RailOperationRecord} {input : RailTransitionInput}

-- Cut at its last transition, a valid record is itself.
theorem historicalBody_last (h : Sealed J operation) {last : RailTransition} {k : ℕ}
    (hlast : operation.transitions.getLast? = some last) (hk : k + 1 = operation.transitions.length) :
    historicalBody operation.toRailOperationBody k last.toRailEntry = operation.toRailOperationBody := by
  rcases h.last with ⟨last', hlast', hlatest⟩
  rw [hlast] at hlast'
  cases hlast'
  have htake : operation.transitions.take (k + 1) = operation.transitions := by
    rw [hk]
    exact List.take_length
  have hsend : (if signed operation.transitions then operation.send else none) = operation.send := by
    by_cases hsigned : signed operation.transitions = true
    · exact if_pos hsigned
    · rw [if_neg hsigned]
      cases hsend : operation.send with
      | none => rfl
      | some send => exact absurd (h.send (by rw [hsend]; rfl)) hsigned
  have hlease : (if crossed operation.transitions then operation.allowlistLease else none) =
      operation.allowlistLease := by
    by_cases hcrossed : crossed operation.transitions = true
    · exact if_pos hcrossed
    · rw [if_neg hcrossed]
      cases hlease : operation.allowlistLease with
      | none => rfl
      | some lease => exact absurd (h.lease (by rw [hlease]; rfl)) hcrossed
  have hterminal : last.state.isTerminal = operation.terminal := by
    rw [h.terminal, ← hlatest]
    rfl
  unfold historicalBody
  rw [htake, hsend, hlease, hlatest, hterminal]

-- One transition more does not change the record cut at an earlier one.
theorem historicalBody_transition (h : transitionRail J operation input = .ok next)
    (hsend : input.send.isSome → input.state = .signingStarted)
    (hlease : input.allowlistLease.isSome → crossed operation.transitions = false) {k : ℕ}
    (hk : k < operation.transitions.length) (entry : RailEntry) :
    historicalBody next.toRailOperationBody k entry = historicalBody operation.toRailOperationBody k entry := by
  rcases transitionRail_ok h with ⟨_, hnext, last, _, hbody⟩
  have hordered := ordered_of_followed hnext.followed
  rw [hbody] at hordered ⊢
  unfold historicalBody
  have htake : (nextBody J operation.toRailOperationBody
      (nextEntry operation.toRailOperationBody last input) input).transitions.take (k + 1) =
        operation.transitions.take (k + 1) := List.take_append_of_le_length (by omega)
  rw [htake]
  have hsends : (if signed (operation.transitions.take (k + 1)) then input.send <|> operation.send else none) =
      if signed (operation.transitions.take (k + 1)) then operation.send else none := by
    by_cases hsigned : signed (operation.transitions.take (k + 1)) = true
    · cases hinput : input.send with
      | none => rfl
      | some send =>
        -- A second transition into `signing_started` would follow the first.
        have hstate := hsend (by rw [hinput]; rfl)
        rcases List.any_eq_true.mp hsigned with ⟨entry, hentry, hstarted⟩
        have hlater := (List.pairwise_append.mp hordered).2.2 entry (List.mem_of_mem_take hentry) _
          (List.mem_singleton_self _)
        rw [of_decide_eq_true hstarted, show (nextEntry operation.toRailOperationBody last input).state = _ from hstate]
          at hlater
        exact absurd hlater (lt_irrefl _)
    · rw [if_neg hsigned, if_neg hsigned]
  have hleases : (if crossed (operation.transitions.take (k + 1)) then
      input.allowlistLease <|> operation.allowlistLease else none) =
        if crossed (operation.transitions.take (k + 1)) then operation.allowlistLease else none := by
    by_cases hcrossed : crossed (operation.transitions.take (k + 1)) = true
    · cases hinput : input.allowlistLease with
      | none => rfl
      | some lease =>
        have hnone := hlease (by rw [hinput]; rfl)
        rcases List.any_eq_true.mp hcrossed with ⟨entry, hentry, hneeds⟩
        rw [crossed, List.any_eq_false] at hnone
        exact absurd hneeds (hnone entry (List.mem_of_mem_take hentry))
    · rw [if_neg hcrossed, if_neg hcrossed]
  exact congrArg₂ (fun send lease => RailOperationBody.mk operation.toRailIntent (latest entry)
    operation.fingerprint send lease entry.state.isTerminal operation.createdAt
    (operation.transitions.take (k + 1))) hsends hleases

end History

/-! ## Runs -/

/-- `send` comes with `signing_started`, and the lease with the first signing or send transition. -/
structure WrittenOnce (inputs : List RailTransitionInput) : Prop where
  send : ∀ input ∈ inputs, input.send.isSome → input.state = .signingStarted
  lease : ∀ earlier input later, inputs = earlier ++ input :: later → input.allowlistLease.isSome →
    input.state.needsLease = true ∧ ∀ other ∈ earlier, other.state.needsLease = false

section Runs

variable {J : Journal} {intent : RailIntent} {inputs : List RailTransitionInput} {input : RailTransitionInput}
  {last : RailOperationRecord}

theorem WrittenOnce.of_append {later : List RailTransitionInput} (h : WrittenOnce (inputs ++ later)) :
    WrittenOnce inputs where
  send := fun input hinput => h.send input (List.mem_append_left _ hinput)
  lease := by
    intro earlier input rest hsplit
    refine h.lease earlier input (rest ++ later) ?_
    rw [hsplit, List.append_assoc, List.cons_append]

theorem railRun_snoc : railRun J intent (inputs ++ [input]) =
    railRun J intent inputs >>= fun operation => transitionRail J operation input := by
  unfold railRun
  cases newRailOperation J intent with
  | error e => rfl
  | ok first =>
    show (inputs ++ [input]).foldlM (transitionRail J) first = inputs.foldlM (transitionRail J) first >>= _
    rw [List.foldlM_append]
    simp

theorem newRailOperation_ok (h : newRailOperation J intent = .ok last) :
    Sealed J last ∧ last.transitions.map (fun entry => entry.state) = [.awaitingApproval] := by
  unfold newRailOperation at h
  rcases seal_ok h with ⟨hbody, hsealed⟩
  refine ⟨hsealed, ?_⟩
  rw [hbody]
  rfl

theorem railRun_states (h : railRun J intent inputs = .ok last) :
    Sealed J last ∧ last.transitions.map (fun entry => entry.state) =
      .awaitingApproval :: inputs.map fun input => input.state := by
  induction inputs using List.reverseRecOn generalizing last with
  | nil =>
    rcases bind_ok.mp h with ⟨first, hfirst, h⟩
    cases h
    exact newRailOperation_ok hfirst
  | append_singleton inputs input ih =>
    rw [railRun_snoc] at h
    rcases bind_ok.mp h with ⟨operation, hrun, hmoved⟩
    rcases transitionRail_ok hmoved with ⟨_, hsealed, final, _, hbody⟩
    refine ⟨hsealed, ?_⟩
    rw [hbody]
    show (operation.transitions ++ [_]).map _ = _
    rw [List.map_append, (ih hrun).2, List.map_append]
    rfl

theorem railRun_length (h : railRun J intent inputs = .ok last) : last.transitions.length = inputs.length + 1 := by
  have hstates := congrArg List.length (railRun_states h).2
  rw [List.length_map, List.length_cons, List.length_map] at hstates
  exact hstates

theorem not_crossed_of_run (h : railRun J intent inputs = .ok last)
    (hnone : ∀ other ∈ inputs, other.state.needsLease = false) : crossed last.transitions = false := by
  rw [crossed, List.any_eq_false]
  intro entry hentry
  have hstate := List.mem_map_of_mem (f := fun entry : RailTransition => entry.state) hentry
  rw [(railRun_states h).2] at hstate
  rcases List.mem_cons.mp hstate with hfirst | hlater
  · rw [hfirst]
    decide
  · rcases List.mem_map.mp hlater with ⟨other, hother, hsame⟩
    rw [← hsame, hnone other hother]
    decide

theorem historicalBody_end (h : railRun J intent inputs = .ok last) :
    ∃ entry, last.transitions[inputs.length]? = some entry ∧
      historicalBody last.toRailOperationBody inputs.length entry.toRailEntry = last.toRailOperationBody := by
  have hlength := railRun_length h
  have hsealed := (railRun_states h).1
  rcases hsealed.last with ⟨entry, hentry, _⟩
  have hget : last.transitions[inputs.length]? = some entry := by
    rw [List.getLast?_eq_getElem?, hlength] at hentry
    exact hentry
  exact ⟨entry, hget, historicalBody_last hsealed hentry hlength.symm⟩

-- Cut back to a transition, the record of a run is the record the run had there.
theorem historicalBody_run (h : railRun J intent inputs = .ok last) (hwritten : WrittenOnce inputs) {k : ℕ}
    (hk : k ≤ inputs.length) :
    ∃ record entry, railRun J intent (inputs.take k) = .ok record ∧ Sealed J record ∧
      last.transitions[k]? = some entry ∧
      historicalBody last.toRailOperationBody k entry.toRailEntry = record.toRailOperationBody := by
  induction inputs using List.reverseRecOn generalizing last with
  | nil =>
    have hzero : k = 0 := by simpa using hk
    subst hzero
    rcases historicalBody_end h with ⟨entry, hentry, hbody⟩
    exact ⟨last, entry, h, (railRun_states h).1, hentry, hbody⟩
  | append_singleton inputs input ih =>
    by_cases hend : k = (inputs ++ [input]).length
    · rcases historicalBody_end h with ⟨entry, hentry, hbody⟩
      subst hend
      refine ⟨last, entry, ?_, (railRun_states h).1, hentry, hbody⟩
      rw [List.take_length]
      exact h
    · rw [List.length_append, List.length_singleton] at hk hend
      have hearlier : k ≤ inputs.length := by omega
      have hmoved := h
      rw [railRun_snoc] at hmoved
      rcases bind_ok.mp hmoved with ⟨operation, hrun, hmoved⟩
      rcases ih hrun hwritten.of_append hearlier with ⟨record, entry, hrecord, hsealed, hentry, hbody⟩
      have hbound : k < operation.transitions.length := by
        rw [railRun_length hrun]
        omega
      have hcut := historicalBody_transition hmoved (hwritten.send input (by simp))
        (fun hlease => not_crossed_of_run hrun (hwritten.lease inputs input [] rfl hlease).2) hbound entry.toRailEntry
      refine ⟨record, entry, ?_, hsealed, ?_, hcut.trans hbody⟩
      · rw [List.take_append_of_le_length hearlier]
        exact hrecord
      · rcases transitionRail_ok hmoved with ⟨_, _, final, _, hnext⟩
        rw [hnext]
        show (operation.transitions ++ [_])[k]? = some entry
        rw [List.getElem?_append_left hbound]
        exact hentry

-- The first transition of a state is the only one.
theorem findIdx_of_ordered {transitions : List RailTransition} (h : Followed transitions) {k : ℕ}
    {entry : RailTransition} (hentry : transitions[k]? = some entry) :
    transitions.findIdx? (fun other => other.state = entry.state && other.at' = entry.at') = some k := by
  have hordered := ordered_of_followed h
  rcases List.getElem?_eq_some_iff.mp hentry with ⟨hk, hget⟩
  refine List.findIdx?_eq_some_iff_getElem.mpr ⟨hk, by simp [hget], ?_⟩
  intro j hj
  have hlt := List.pairwise_iff_getElem.mp hordered j k (by omega) hk hj
  rw [hget] at hlt
  have hne : transitions[j].state ≠ entry.state := by
    intro hsame
    rw [hsame] at hlt
    exact lt_irrefl _ hlt
  simp [hne]

/-- Every receipt a run gave is given again by the record the run ended in, as that transition's receipt. -/
theorem railHistoricalReceipt_reproducible (h : railRun J intent inputs = .ok last) (hwritten : WrittenOnce inputs)
    (k : ℕ) (hk : k ≤ inputs.length) :
    ∃ record receipt, railRun J intent (inputs.take k) = .ok record ∧ railReceipt J record = .ok receipt ∧
      railHistoricalReceipt J last k = .ok receipt ∧ receiptTransition J receipt last = .ok k := by
  rcases historicalBody_run h hwritten hk with ⟨record, entry, hrecord, hsealed, hentry, hbody⟩
  have hreceipt : railReceipt J record = .ok ⟨receiptBody record, J.hashReceipt (receiptBody record)⟩ := by
    unfold railReceipt
    rw [hsealed.valid]
    rfl
  have hhistorical : railHistoricalReceipt J last k =
      .ok ⟨receiptBody record, J.hashReceipt (receiptBody record)⟩ := by
    unfold railHistoricalReceipt
    rw [hentry]
    dsimp only
    rw [hbody, seal_body hsealed]
    exact hreceipt
  refine ⟨record, _, hrecord, hreceipt, hhistorical, ?_⟩
  have hstate : (receiptBody record).state = entry.state := by
    show record.state = entry.state
    rw [← hbody]
    rfl
  have hat : (receiptBody record).updatedAt = entry.at' := by
    show record.updatedAt = entry.at'
    rw [← hbody]
    rfl
  have hid : record.operationId = last.operationId := by
    rw [← hbody]
    rfl
  have hfingerprint : record.fingerprint = last.fingerprint := by
    rw [← hbody]
    rfl
  unfold receiptTransition
  dsimp only
  rw [hstate, hat, findIdx_of_ordered (railRun_states h).1.followed hentry]
  dsimp only
  rw [hhistorical]
  simp [bind, Except.bind, receiptBody, hid, hfingerprint]

end Runs

/-! ## A local Solana transfer that starts to sign -/

namespace SolanaTransferRun

/-- A 64-digit text that ends in `n`. -/
def digest (n : ℕ) : String := String.ofList (List.replicate 63 '0' ++ [Char.ofNat (48 + n % 10)])

def check (c : Bool) : Result Unit := if c then .ok () else corruptRail

/-- Hashes that tell this run's records and transitions apart, and the checks its parts are about. -/
def journal : Journal where
  hashIntent := fun intent => digest intent.prepared.amountAtomic.length
  hashEntry := fun entry => digest (rank entry.state)
  hashBody := fun body => digest body.transitions.length
  hashReceipt := fun receipt => digest (rank receipt.state)
  validateChainAccount := fun account => check (isHash account.profileHash)
  validateRailPrepared := fun prepared account => check (prepared.sender = account.address ∧ prepared.rail = account.rail)
  validateRailSendBinding := fun send prepared => check (prepared.preparedAt ≤ send.acquiredAt)
  validateRailEvidence := fun evidence prepared transactionId success =>
    check (evidence.transactionId = transactionId ∧ evidence.recipient = prepared.recipient ∧
      evidence.senderEffectVerified = success)
  validateDirectAllowlistBinding := fun binding => check (isHash binding.policyDigest)
  validateDirectAllowlistLease := fun lease _ subject => check (lease.profile = subject.profile)

def second (n : ℕ) (h : n ≤ 100 := by decide) : Instant :=
  ⟨n, by unfold firstInstantMs; omega, by unfold lastInstantMs; omega⟩

def account : ChainAccount where
  profile := "main"
  profileHash := digest 1
  rail := .solana
  provider := .local'
  custody := "local_software"
  address := "Sender"
  createdAt := second 0
  identityHash := digest 2

def intent : RailIntent where
  operationId := digest 3
  profile := "main"
  profileHash := digest 1
  idempotencyHash := digest 4
  requestHash := digest 5
  account := account
  prepared :=
    { rail := .solana
      networkIdentity := "solana-mainnet"
      asset := ⟨.solana, "sol", false, "native:sol", "SOL", 9⟩
      sender := "Sender"
      recipient := "Recipient"
      amountAtomic := "1000"
      maximumFeeAtomic := "10"
      economics := ⟨"5", "0", "5", "Sender", none, "signed_message"⟩
      preparedAt := second 10
      expiresAt := second 90
      blockReference := "frozen"
      lastValidBlockHeight := some "100"
      sourceTokenAccount := none
      destinationTokenAccount := none
      createsRecipientAccount := false
      resources := none
      unsignedPayload := some "bytes" }
  policyHash := digest 6
  allowlist := some ⟨digest 7, 1⟩

/-- Signing starts, with the send binding and the lease. -/
def inputs : List RailTransitionInput :=
  [{ state := .signingStarted, at' := second 20, reason := "signing_started", proofClass := "durable_pre_effect"
     transactionId := none, rawPayloadHash := none, evidence := none
     send := some ⟨"fresh", "140", "100", second 20, ⟨"100", "7", digest 8⟩⟩
     allowlistLease := some ⟨"main", "reservation", digest 9⟩ }]

theorem inputs_writtenOnce : WrittenOnce inputs where
  send := by decide
  lease := by
    intro earlier input later hsplit _
    cases earlier with
    | nil =>
      cases hsplit
      exact ⟨by decide, by simp⟩
    | cons first earlier =>
      have hlength := congrArg List.length hsplit
      simp [inputs] at hlength

theorem run_completes : (railRun journal intent inputs).isOk = true := by decide +kernel

/-- The receipt of the preparation, from the record that signs: neither field is in it. -/
theorem railHistoricalReceipt_of_signing :
    ∃ last record receipt, railRun journal intent inputs = .ok last ∧
      railRun journal intent (inputs.take 0) = .ok record ∧ railReceipt journal record = .ok receipt ∧
      railHistoricalReceipt journal last 0 = .ok receipt ∧ receiptTransition journal receipt last = .ok 0 := by
  cases h : railRun journal intent inputs with
  | error e =>
    have hcompletes := run_completes
    rw [h] at hcompletes
    cases hcompletes
  | ok last =>
    rcases railHistoricalReceipt_reproducible h inputs_writtenOnce 0 (by decide) with ⟨record, receipt, hhistory⟩
    exact ⟨last, record, receipt, rfl, hhistory⟩

end SolanaTransferRun

end RailJournal
end PaymentNode
