import PaymentNode.Ledger.Hold
import PaymentNode.Lib.Solo
import PaymentNode.Relay.EffectJournal

/-!
# Source — the Ethereum source of a Relay operation

The programs of one operation over its effect journal, its execution admission, its two custody slots and its
usage hold.  `runEffect` is the single attempt of one effect, `approvals` and `deposits` its two uses,
`executeScoped` the call that runs them under the operation's locks and moves the hold after them.  A port
throws or answers; the files answer what is on disk.  The log keeps what was signed and sent, with the custody
slot and the journal as they were then, the outcomes that were read, and the ledger moves that were refused.
-/

namespace PaymentNode

structure RelaySignedTransaction where
  signer : String
  chainId : ℕ
  isEip1559 : Bool
  target : String
  data : String
  value : ℕ
  gas : Option ℕ
  maxFeePerGas : Option ℕ
  maxPriorityFeePerGas : Option ℕ
  nonce : Option ℕ
  accessListLength : ℕ
deriving DecidableEq, Repr

structure RelaySignedEffect where
  rawTransaction : String
  transactionHash : String
deriving DecidableEq, Repr

/-- Signed bytes under their key in the encrypted wallet. -/
structure DirectEffectMaterial where
  payloadHash : String
  transactionHash : String
  rawTransaction : String
  rawTransactionHash : String
deriving DecidableEq, Repr

structure RelayExecutionAdmission where
  profileHash : String
  operationId : String
  operationIntegrityHash : String
  quoteDigest : String
  requestId : String
  confirmedAt : Instant

structure RelayDepositCall where
  depositor : String
  token : String
  amount : ℕ
  orderId : String
deriving DecidableEq, Repr

structure RelayActivePolicy where
  profile : String
  digest : String
  revision : ℕ
  evmAccount : String
  registry : AssetPolicyRegistry

structure RelayFunding where
  chainId : ℕ
  nativeBalanceWei : ℕ
  tokenBalanceAtomic : ℕ
  allowanceAtomic : ℕ
  baseFeePerGasWei : ℕ
  nextNonce : ℕ
deriving DecidableEq, Repr

inductive RelayReceiptStatus
  | success
  | reverted
deriving DecidableEq, Repr

structure RelayLog where
  address : String
  topics : List String
  data : String
  transactionHash : String
  blockHash : String
deriving DecidableEq, Repr

/-- A transaction with its receipt and the canonical block at the receipt's height; `finalized` is absent where
the adapter answers only final receipts. -/
structure RelayObservation where
  hash : String
  sender : String
  target : String
  input : String
  value : ℕ
  chainId : ℕ
  transactionHash : String
  status : RelayReceiptStatus
  blockHash : String
  logs : List RelayLog
  canonicalBlockHash : String
  finalized : Option Bool
deriving DecidableEq, Repr

inductive EvmUnsentOutcome
  | neverLands
  | nonceNotConsumed
  | ownTransactionKnown
deriving DecidableEq, Repr

/-- The digests of the source lane, the call data of its two effects, and what signed bytes hash and decode to. -/
structure RelayHash where
  journal : RelayEffects.JournalHash
  keccak256 : String → String
  parseTransaction : String → Option RelaySignedTransaction
  getAddress : String → String
  executionRoute : RelayUnsignedOperation → String
  /-- `approve(depository, amount)`. -/
  approveData : ℕ → String
  /-- `depositErc20`, decoded from call data that it encodes to again. -/
  decodeDeposit : String → Option RelayDepositCall
  envelopeBinding : RelayEffectRole → RelayUnsignedOperation → String
  noEffectDigest : RelayUnsignedOperation → String
  keccak256_shape : ∀ raw, RelayEffects.txHash (keccak256 raw)

/-- One operation, and what does not change while it runs. -/
structure RelaySetting where
  hash : RelayHash
  addresses : Addresses
  op : RelayUnsignedOperation
  polls : ℕ
  retired : Bool

def ETHEREUM_USDC : String := "0xA0b86991c6218b36c1d19D4a2e9Eb0cE3606eB48"
def ETHEREUM_DEPOSITORY : String := "0x4cD00E387622C35bDDB9b4c962C136462338BC31"

variable (w : RelaySetting)

def RelaySetting.usageIdentity : AssetUsageIdentity :=
  ⟨w.hash.getAddress w.op.sourceAccount, "eip155:1", .token ETHEREUM_USDC⟩

def RelaySetting.usageKey : HoldKey :=
  ⟨w.addresses, w.usageIdentity, "relay-execute:" ++ w.op.operationId⟩

/-- What a program asks that leaves no trace in the operation's own files. -/
inductive RelayAsk
  | assertOwner
  | activePolicy
  | publicAccount
  | confirm
  | usageTotal (now : Instant)
  /-- The policy, the route pin and the recipient pin, for a spend on top of a day's usage. -/
  | policyAdmits (registry : AssetPolicyRegistry) (usage : ℕ) (now : Instant)
  | funding
  | readApproval (hash : String)

abbrev RelayAsk.Answer : RelayAsk → Type
  | assertOwner => Unit
  | activePolicy => Option RelayActivePolicy
  | publicAccount => Option String
  | confirm => Bool
  | usageTotal _ => ℕ
  | policyAdmits _ _ _ => Unit
  | funding => RelayFunding
  | readApproval _ => Option RelayObservation

inductive RelayOp
  | loadJournal
  | createJournal (createdAt : Instant)
  | transition (expected : String) (role : RelayEffectRole) (event : RelayEffectEvent)
  | loadAdmission
  | saveAdmission (now : Instant)
  | loadSlot (role : RelayEffectRole)
  | sealSlot (role : RelayEffectRole) (signed : RelaySignedEffect)
  | discardSlot (role : RelayEffectRole)
  | noMaterial
  | hold (q : HoldOp)
  | now
  | marker
  | ask (q : RelayAsk)
  | sign (role : RelayEffectRole) (nonce : ℕ)
  | send (role : RelayEffectRole) (raw : String)
  | observe (role : RelayEffectRole) (hash : String)
  | unsentOutcome (role : RelayEffectRole) (nonce : ℕ) (hash : String)

abbrev RelayOp.Answer (H : LedgerHash) : RelayOp → Type
  | loadJournal => RelayResult (Option RelayEffectJournal)
  | createJournal _ => RelayResult RelayEffectJournal
  | transition _ _ _ => RelayResult RelayEffectJournal
  | loadAdmission => RelayResult (Option RelayExecutionAdmission)
  | saveAdmission _ => RelayResult Unit
  | loadSlot _ => RelayResult (Option RelaySignedEffect)
  | sealSlot _ _ => RelayResult Unit
  | discardSlot _ => RelayResult Unit
  | noMaterial => RelayResult Unit
  | hold q => q.Answer H
  | now => Instant
  | marker => String
  | ask q => RelayResult q.Answer
  | sign _ _ => RelayResult String
  | send _ _ => RelayResult String
  | observe _ _ => RelayResult (Option RelayObservation)
  | unsentOutcome _ _ _ => RelayResult EvmUnsentOutcome

abbrev RelayProg (H : LedgerHash) := Prog RelayOp (RelayOp.Answer H) RelayError

namespace RelaySource

variable {H : LedgerHash}

/-! ## Refusals -/

def blockedError (reason : String) : RelayError :=
  ⟨.operationBlocked, "Relay source execution is blocked.", some reason⟩

def corruptError (reason : String) : RelayError :=
  ⟨.stateCorrupt, "Relay source execution state is invalid: " ++ reason ++ ".", none⟩

def roleName : RelayEffectRole → String
  | .approval => "approval"
  | .deposit => "deposit"

variable (role : RelayEffectRole)

def effectBlocked (reason : String) : RelayError :=
  ⟨.operationBlocked, "Relay " ++ roleName role ++ " effect is blocked.", some reason⟩

def effectCorrupt (reason : String) : RelayError :=
  ⟨.stateCorrupt, "Relay " ++ roleName role ++ " effect is invalid: " ++ reason ++ ".", none⟩

/-- `if (c) throw e`. -/
def refuse (c : Prop) [Decidable c] (e : RelayError) : RelayProg H Unit :=
  if c then .fail e else .ret ()

def lowerCase (text : String) : List Char := text.toList.map Char.toLower

/-- Equal but for the case of letters. -/
def same (a b : String) : Prop := lowerCase a = lowerCase b

instance (a b : String) : Decidable (same a b) :=
  if h : a = b then isTrue (congrArg lowerCase h)
  else inferInstanceAs (Decidable (lowerCase a = lowerCase b))

/-! ## Operations -/

def loadJournal : RelayProg H (Option RelayEffectJournal) := .run .loadJournal rfl
def createJournal (createdAt : Instant) : RelayProg H RelayEffectJournal := .run (.createJournal createdAt) rfl
def transition (journal : RelayEffectJournal) (role : RelayEffectRole) (event : RelayEffectEvent) :
    RelayProg H RelayEffectJournal :=
  .run (.transition journal.integrityHash role event) rfl
def loadAdmission : RelayProg H (Option RelayExecutionAdmission) := .run .loadAdmission rfl
def saveAdmission (now : Instant) : RelayProg H Unit := .run (.saveAdmission now) rfl
def loadSlot (role : RelayEffectRole) : RelayProg H (Option RelaySignedEffect) := .run (.loadSlot role) rfl
def sealSlot (role : RelayEffectRole) (signed : RelaySignedEffect) : RelayProg H Unit :=
  .run (.sealSlot role signed) rfl
def discardSlot (role : RelayEffectRole) : RelayProg H Unit := .run (.discardSlot role) rfl
def noMaterial : RelayProg H Unit := .run .noMaterial rfl
def now : RelayProg H Instant := .perform RelayOp.now
def marker : RelayProg H String := .perform RelayOp.marker
def ask (q : RelayAsk) : RelayProg H q.Answer := .run (.ask q) rfl
def sign (role : RelayEffectRole) (nonce : ℕ) : RelayProg H String := .run (.sign role nonce) rfl
def send (role : RelayEffectRole) (raw : String) : RelayProg H String := .run (.send role raw) rfl
def observe (role : RelayEffectRole) (hash : String) : RelayProg H (Option RelayObservation) :=
  .run (.observe role hash) rfl
def unsentOutcome (role : RelayEffectRole) (nonce : ℕ) (hash : String) : RelayProg H EvmUnsentOutcome :=
  .run (.unsentOutcome role nonce hash) rfl

def loadUsage : RelayProg H (Option (Reservation H)) := .perform (RelayOp.hold .load)

/-- A write of the ledger; its refusal is thrown. -/
def thrown (answer : Result (Reservation H)) : RelayProg H Unit :=
  match answer with
  | .ok _ => .ret ()
  | .error e => .fail e.toRelay

def moveUsage (input : AssetUsageTransitionInput) : RelayProg H Unit := do
  let answer ← .perform (RelayOp.hold (.transition input))
  thrown answer

def reserveUsage (input : AssetUsageReserveInput) : RelayProg H Unit := do
  let answer ← .perform (RelayOp.hold (.reserve input))
  thrown answer

/-! ## Signed bytes and observations -/

def hexBody (text : String) : Option (List Char) :=
  match text.toList with
  | '0' :: 'x' :: digits => if digits ≠ [] ∧ digits.all isHexDigit then some digits else none
  | _ => none

/-- The encoding each effect takes its bytes in: digits, or whole bytes. -/
def rawShape : RelayEffectRole → String → Bool
  | .approval, raw => (hexBody raw).isSome
  | .deposit, raw => (hexBody raw).any fun digits => digits.length % 2 = 0

def ceiling (op : RelayUnsignedOperation) : RelayEffectRole → ℕ
  | .approval => op.approvalNetworkFeeCeilingWei
  | .deposit => op.depositNetworkFeeCeilingWei

/-- The decoded bytes are the frozen envelope, signed by the source account. -/
def envelopeSigned (op : RelayUnsignedOperation) (role : RelayEffectRole) (tx : RelaySignedTransaction)
    (expectedNonce : Option ℕ) : Prop :=
  tx.isEip1559 = true ∧ tx.chainId = 1 ∧ same tx.signer op.sourceAccount ∧
    same tx.target (op.envelope role).target ∧ same tx.data (op.envelope role).data ∧ tx.value = 0 ∧
    tx.gas = some (op.envelope role).gas ∧ tx.maxFeePerGas = some (op.envelope role).maxFeePerGas ∧
    tx.maxPriorityFeePerGas = some (op.envelope role).maxPriorityFeePerGas ∧ tx.accessListLength = 0 ∧
    tx.nonce.isSome ∧ (∀ n ∈ expectedNonce, tx.nonce = some n) ∧
    (op.envelope role).gas * (op.envelope role).maxFeePerGas ≤ ceiling op role

instance (op : RelayUnsignedOperation) (role : RelayEffectRole) (tx : RelaySignedTransaction)
    (expectedNonce : Option ℕ) : Decidable (envelopeSigned op role tx expectedNonce) :=
  inferInstanceAs (Decidable (_ ∧ _))

def verifySigned (raw : String) (claimedHash : Option String)
    (expectedNonce : Option ℕ) : RelayResult RelaySignedEffect :=
  if ¬ rawShape role raw then .error (effectCorrupt role "signed raw encoding")
  else if claimedHash.any fun hash => ¬ same hash (w.hash.keccak256 raw) then
    .error (effectCorrupt role "signed hash")
  else
    match w.hash.parseTransaction raw with
    | none => .error (effectCorrupt role "signed transaction decode")
    | some tx =>
      if ¬ envelopeSigned w.op role tx expectedNonce then .error (effectCorrupt role "signed envelope drift")
      else .ok ⟨raw, w.hash.keccak256 raw⟩

/-- `0x` and a value padded to a word. -/
def word (text : String) : String :=
  String.ofList ('0' :: 'x' :: List.replicate (64 - (text.toList.drop 2).length) '0' ++ text.toList.drop 2)

def hexDigits (n : ℕ) : List Char := Nat.toDigits 16 n

def wordOfNat (n : ℕ) : String :=
  String.ofList ('0' :: 'x' :: List.replicate (64 - (hexDigits n).length) '0' ++ hexDigits n)

/-- The first topic of an `Approval` event. -/
def approvalTopic : String := "0x8c5be1e5ebec7d5bd14f71427d1e84f3dd0314c0f7b2291e5b200ac8c7c3b925"

/-- The source account approved exactly the amount to the depository. -/
def exactApproval (op : RelayUnsignedOperation) (hash : String) (o : RelayObservation) (log : RelayLog) : Bool :=
  same log.address ETHEREUM_USDC && same log.transactionHash hash && same log.blockHash o.blockHash &&
    (match log.topics with
      | [topic, owner, spender] => same topic approvalTopic && same owner (word op.sourceAccount) &&
          same spender (word ETHEREUM_DEPOSITORY)
      | _ => false) && same log.data (wordOfNat op.amountAtomic)

def blockHashShape (text : String) : Bool := (hexBody text).any fun digits => digits.length = 64

/-- A revert is recorded only once final; a successful approval may be recorded while included. -/
def verifyApprovalObservation (hash : String) (o : RelayObservation) :
    RelayResult (Option RelayEffectOutcome) :=
  if ¬ same o.hash hash ∨ ¬ same o.transactionHash hash ∨ o.chainId ≠ 1 ∨ ¬ same o.sender w.op.sourceAccount ∨
      ¬ same o.target ETHEREUM_USDC ∨ ¬ same o.input w.op.approval.data ∨
      ¬ same o.blockHash o.canonicalBlockHash ∨ ¬ blockHashShape o.canonicalBlockHash then
    .error (effectCorrupt .approval "transaction or canonical inclusion")
  else if o.status = .reverted then
    if o.finalized = some false then .ok none else .ok (some .failed)
  else if (o.logs.filter (exactApproval w.op hash o)).length ≠ 1 then
    .error (effectCorrupt .approval "exact Approval event")
  else .ok (some .confirmed)

def depositCallBound (data : String) : Bool :=
  (w.hash.decodeDeposit data).any fun call =>
    same call.depositor w.op.sourceAccount && same call.token ETHEREUM_USDC &&
      call.amount = w.op.amountAtomic && same call.orderId w.op.orderId

def verifyDepositObservation (hash : String) (o : RelayObservation) :
    RelayResult (Option RelayEffectOutcome) :=
  if ¬ same o.hash hash ∨ ¬ same o.transactionHash hash ∨ o.chainId ≠ 1 ∨ ¬ same o.sender w.op.sourceAccount ∨
      ¬ same o.target ETHEREUM_DEPOSITORY ∨ ¬ same o.input w.op.deposit.data ∨ o.value ≠ 0 ∨
      ¬ blockHashShape o.canonicalBlockHash ∨ ¬ same o.blockHash o.canonicalBlockHash then
    .error (effectCorrupt .deposit "transaction or canonical inclusion")
  else if ¬ depositCallBound w o.input then .error (effectCorrupt .deposit "deposit order binding")
  else if o.status = .success then .ok (some .confirmed)
  else .ok (some .failed)

def verifyObservation : RelayEffectRole → String → RelayObservation →
    RelayResult (Option RelayEffectOutcome)
  | .approval => verifyApprovalObservation w
  | .deposit => verifyDepositObservation w

/-! ## Owner, policy and funds -/

/-- Less than a minute before the quote's deadline. -/
def deadlinePassed (at' : Instant) : Prop := w.op.deadline.ms ≤ at'.ms + 60000

instance (w : RelaySetting) (at' : Instant) : Decidable (deadlinePassed w at') :=
  inferInstanceAs (Decidable (_ ≤ _))

/-- The policy the operation was prepared under, of its own account. -/
def activeFor (active : RelayActivePolicy) : Prop :=
  active.digest = w.op.policyDigest ∧ active.revision = w.op.policyRevision ∧
    same active.evmAccount w.op.sourceAccount

instance (w : RelaySetting) (active : RelayActivePolicy) : Decidable (activeFor w active) :=
  inferInstanceAs (Decidable (_ ∧ _))

def activePolicy : RelayProg H (Option RelayActivePolicy) := do
  ask .assertOwner
  ask .activePolicy

def publicOwner (e : RelayError) : RelayProg H Unit := do
  let account ← ask .publicAccount
  refuse (¬ same (account.getD "") w.op.sourceAccount) e

def assertReady : RelayProg H Unit := do
  refuse (w.retired = true) (blockedError "operation_retired")
  let at' ← now
  refuse (deadlinePassed w at') (blockedError "quote_deadline")
  ask .assertOwner
  let active ← activePolicy
  refuse (¬ (active.any fun a => decide (activeFor w a))) (blockedError "active_policy_or_owner")
  publicOwner w (blockedError "public_owner")

/-- The day's usage without the operation's own hold. -/
def dailyUsageExcludingOwn (at' : Instant) : RelayProg H ℕ := do
  let row ← loadUsage
  match row with
  | none => .fail (blockedError "usage_reservation_missing_or_changed")
  | some r => do
    refuse (r.amountAtomic ≠ w.op.amountAtomic ∨ r.policyDigest ≠ w.op.policyDigest)
      (blockedError "usage_reservation_missing_or_changed")
    let total ← ask (.usageTotal at')
    let own := if r.state ≠ .failedBeforeEffect ∧ r.state ≠ .failedConfirmedRevert ∧
      r.reservedAt.day = at'.day then w.op.amountAtomic else 0
    refuse (total < own) (corruptError "usage total below own reservation")
    return total - own

def expired (registry : AssetPolicyRegistry) (at' : Instant) : Prop := registry.expiresAt.any (· ≤ at')

instance (registry : AssetPolicyRegistry) (at' : Instant) : Decidable (expired registry at') :=
  inferInstanceAs (Decidable (_ = true))

/-- Policy, owner, caps and pins, read again before an effect is signed or first sent. -/
def admitEffect (at' : Instant) :
    RelayProg H RelayActivePolicy := do
  let active ← activePolicy
  match active with
  | none => .fail (effectBlocked role "active_policy_or_owner")
  | some active => do
    refuse (active.profile ≠ w.op.profile ∨ ¬ activeFor w active ∨ expired active.registry at')
      (effectBlocked role "active_policy_or_owner")
    publicOwner w (effectBlocked role "public_owner")
    let usage ← dailyUsageExcludingOwn w at'
    ask (.policyAdmits active.registry usage at')
    return active

def admissionReason : RelayEffectRole → String
  | .approval => "relay_request_id_execution_admission_required"
  | .deposit => "saved_request_id_execution_admission_required"

def admissionBound (admission : RelayExecutionAdmission) : Prop :=
  admission.requestId = w.op.requestId ∧ admission.operationIntegrityHash = w.op.integrityHash ∧
    admission.quoteDigest = w.op.quoteDigest

instance (w : RelaySetting) (admission : RelayExecutionAdmission) : Decidable (admissionBound w admission) :=
  inferInstanceAs (Decidable (_ ∧ _))

/-- The shared frozen-envelope rule. -/
def relayEnvelopeFeeAdmitted (baseFeePerGasWei : ℕ) (envelope : RelayQuoteTransaction) : Prop :=
  0 < envelope.maxFeePerGas ∧ envelope.maxPriorityFeePerGas ≤ envelope.maxFeePerGas ∧
    baseFeePerGasWei + envelope.maxPriorityFeePerGas ≤ envelope.maxFeePerGas

instance (baseFee : ℕ) (envelope : RelayQuoteTransaction) : Decidable (relayEnvelopeFeeAdmitted baseFee envelope) :=
  inferInstanceAs (Decidable (_ ∧ _))

/-- The approval is paid for together with the deposit that must follow it. -/
def funded (funding : RelayFunding) : RelayEffectRole → Prop
  | .approval => funding.chainId = 1 ∧
      w.op.approvalNetworkFeeCeilingWei + w.op.depositNetworkFeeCeilingWei ≤ funding.nativeBalanceWei ∧
      w.op.amountAtomic ≤ funding.tokenBalanceAtomic ∧
      relayEnvelopeFeeAdmitted funding.baseFeePerGasWei w.op.approval ∧
      relayEnvelopeFeeAdmitted funding.baseFeePerGasWei w.op.deposit
  | .deposit => funding.chainId = 1 ∧ w.op.depositNetworkFeeCeilingWei ≤ funding.nativeBalanceWei ∧
      w.op.amountAtomic ≤ funding.tokenBalanceAtomic ∧ w.op.amountAtomic ≤ funding.allowanceAtomic ∧
      relayEnvelopeFeeAdmitted funding.baseFeePerGasWei w.op.deposit

instance (w : RelaySetting) (funding : RelayFunding) (role : RelayEffectRole) :
    Decidable (funded w funding role) := by
  cases role
  · exact inferInstanceAs (Decidable (_ ∧ _))
  · exact inferInstanceAs (Decidable (_ ∧ _))

/-- The source account has the funds, and the deadline did not pass while they were read. -/
def fundEffect (active : RelayActivePolicy) : RelayProg H ℕ := do
  let admission ← loadAdmission
  refuse (¬ (admission.any fun a => decide (admissionBound w a))) (effectBlocked role (admissionReason role))
  let funding ← ask .funding
  refuse (¬ funded w funding role) (effectBlocked role "source_funding_or_fee")
  let after ← now
  refuse (deadlinePassed w after ∨ expired active.registry after)
    (effectBlocked role "deadline_during_revalidation")
  return funding.nextNonce

def approvalEnvelopeSaved : Prop :=
  w.op.approval.chainId = 1 ∧ same w.op.approval.sender w.op.sourceAccount ∧
    same w.op.approval.target ETHEREUM_USDC ∧ same w.op.depository ETHEREUM_DEPOSITORY ∧
    w.op.approval.value = 0 ∧ w.op.approval.data = w.hash.approveData w.op.amountAtomic ∧
    w.op.approval.gas * w.op.approval.maxFeePerGas ≤ w.op.approvalNetworkFeeCeilingWei ∧
    w.op.approval.maxPriorityFeePerGas ≤ w.op.approval.maxFeePerGas

instance (w : RelaySetting) : Decidable (approvalEnvelopeSaved w) := inferInstanceAs (Decidable (_ ∧ _))

def depositEnvelopeSaved : Prop :=
  same w.op.deposit.sender w.op.sourceAccount ∧ same w.op.deposit.target ETHEREUM_DEPOSITORY ∧
    w.op.deposit.chainId = 1 ∧ same w.op.depository ETHEREUM_DEPOSITORY ∧ w.op.deposit.value = 0 ∧
    w.op.deposit.gas * w.op.deposit.maxFeePerGas ≤ w.op.depositNetworkFeeCeilingWei ∧
    w.op.deposit.maxPriorityFeePerGas ≤ w.op.deposit.maxFeePerGas

instance (w : RelaySetting) : Decidable (depositEnvelopeSaved w) := inferInstanceAs (Decidable (_ ∧ _))

def assertApprovalEnvelope : RelayProg H Unit :=
  refuse (¬ approvalEnvelopeSaved w) (effectBlocked .approval "saved_approval_envelope")

def assertDepositEnvelope : RelayProg H Unit := do
  refuse (¬ depositEnvelopeSaved w) (effectBlocked .deposit "saved_deposit_envelope")
  refuse (¬ depositCallBound w w.op.deposit.data) (effectBlocked .deposit "saved_deposit_order_binding")

def revalidateApproval : RelayProg H ℕ := do
  assertApprovalEnvelope w
  let at' ← now
  refuse (deadlinePassed w at') (effectBlocked .approval "quote_deadline")
  let active ← admitEffect w .approval at'
  fundEffect w .approval active

def revalidateDeposit (approvalHash : String) : RelayProg H ℕ := do
  assertDepositEnvelope w
  let at' ← now
  refuse (deadlinePassed w at') (effectBlocked .deposit "quote_deadline")
  let approval ← ask (.readApproval approvalHash)
  match approval with
  | none => .fail (effectBlocked .deposit "canonical_approval_effect_required")
  | some observation => do
    let verdict ← Prog.ofExcept (verifyApprovalObservation w approvalHash observation)
    refuse (verdict ≠ some .confirmed) (effectBlocked .deposit "canonical_approval_effect_required")
    let active ← admitEffect w .deposit at'
    fundEffect w .deposit active

/-! ## One effect -/

section

variable (journal : RelayEffectJournal)

/-- A marked effect is only observed. -/
def observeEffect :
    RelayProg H RelayEffectJournal :=
  if (journal.effects role).phase ≠ .submitting then .ret journal
  else do
    let hash := (journal.effects role).transactionHash.getD ""
    let found ← (observe role hash).attempt
    match found with
    | .error _ => .ret journal
    | .ok none => .ret journal
    | .ok (some observation) => do
      let verdict ← Prog.ofExcept (verifyObservation w role hash observation)
      match verdict with
      | none => .ret journal
      | some outcome => do
        let at' ← now
        transition journal role (.observe outcome at')

/-- Bytes checked against the journal's hash and the frozen envelope are marked, then sent. -/
def submitEffect (nonce : ℕ) :
    RelayProg H RelayEffectJournal := do
  let saved ← loadSlot role
  match saved with
  | none => .fail (effectCorrupt role "sealed custody missing")
  | some signed => do
    refuse (¬ (journal.effects role).transactionHash.any fun hash =>
      decide (same signed.transactionHash hash)) (effectCorrupt role "sealed custody missing")
    let _ ← Prog.ofExcept (verifySigned w role signed.rawTransaction (some signed.transactionHash) (some nonce))
    let at' ← now
    let next ← transition journal role (.markSubmitting at')
    -- An ambiguous send: only the saved hash is observed.
    let _ ← (send role signed.rawTransaction).attempt
    observeEffect w role next

/-- The nonce the bytes were just signed with, or one read anew. -/
def nonceOr (signedNonce : Option ℕ) (revalidate : RelayProg H ℕ) : RelayProg H ℕ :=
  match signedNonce with
  | some nonce => .ret nonce
  | none => revalidate

def sendEffect (revalidate : RelayProg H ℕ)
    (journal : RelayEffectJournal) (signedNonce : Option ℕ) : RelayProg H RelayEffectJournal :=
  if (journal.effects role).phase ≠ .sealed then observeEffect w role journal
  else do
    let nonce ← nonceOr signedNonce revalidate
    submitEffect w role journal nonce

def relaySignedNonce (raw : String) : RelayProg H ℕ :=
  match (w.hash.parseTransaction raw).bind RelaySignedTransaction.nonce with
  | none => .fail (effectCorrupt role "signed nonce")
  | some nonce => .ret nonce

/-- Resumed bytes that never crossed `submitting` end only when another transaction consumed their nonce. -/
def resumeSealed (revalidate : RelayProg H ℕ)
    (journal : RelayEffectJournal) : RelayProg H RelayEffectJournal := do
  let saved ← loadSlot role
  match saved with
  | none => sendEffect w role revalidate journal none
  | some signed => do
    let nonce ← relaySignedNonce w role signed.rawTransaction
    let outcome ← unsentOutcome role nonce signed.transactionHash
    match outcome with
    | .neverLands => do
      let at' ← now
      let next ← transition journal role (.recordNeverLanded at')
      discardSlot role
      return next
    | .ownTransactionKnown => do
      -- The node already knows these exact bytes: they are fenced as possibly sent.
      let at' ← now
      let next ← transition journal role (.markSubmitting at')
      sendEffect w role revalidate next none
    | .nonceNotConsumed => sendEffect w role revalidate journal none

/-- The bytes in custody are journalled; without them the effect stays marked. -/
def sealEffect (revalidate : RelayProg H ℕ)
    (journal : RelayEffectJournal) (signedNonce : Option ℕ) : RelayProg H RelayEffectJournal := do
  let saved ← loadSlot role
  match saved with
  | none => .ret journal
  | some signed => do
    let _ ← Prog.ofExcept (verifySigned w role signed.rawTransaction (some signed.transactionHash) none)
    let next ← transition journal role (.sealSigned signed.transactionHash)
    -- Bytes sealed in this call were not resumed: their custody is read, and nothing is asked of the chain.
    let _ ← loadSlot role
    sendEffect w role revalidate next signedNonce

def maxSafeInteger : ℕ := 2 ^ 53 - 1

/-- The one signature: the marker is on disk before the signer runs. -/
def signEffect (nonce : ℕ) :
    RelayProg H RelayEffectJournal := do
  let marker ← marker
  let at' ← now
  let next ← transition journal role (.markSigning marker at')
  assertReady w
  refuse (maxSafeInteger < nonce) (blockedError "signing_nonce_missing_or_unbounded")
  let raw ← sign role nonce
  let signed ← Prog.ofExcept (verifySigned w role raw none (some nonce))
  sealSlot role signed
  return next

/-- A resumed call never signs again, and never sends after `submitting` is durable. -/
def runEffect (revalidate : RelayProg H ℕ)
    (journal : RelayEffectJournal) (firstNonce : Option ℕ) : RelayProg H RelayEffectJournal :=
  match (journal.effects role).phase with
  | .confirmed | .failed | .abandonedUnsent => .ret journal
  | .pending => do
    let nonce ← nonceOr firstNonce revalidate
    let next ← signEffect w role journal nonce
    sealEffect w role revalidate next (some nonce)
  | .signingStarted => sealEffect w role revalidate journal none
  | .sealed => resumeSealed w role revalidate journal
  | .submitting => observeEffect w role journal

/-- `RelayApprovalEffectService.run`. -/
def approvals : RelayProg H RelayEffectJournal := do
  refuse (w.retired = true) (effectBlocked .approval "operation_retired")
  assertApprovalEnvelope w
  let journal ← loadJournal
  match journal with
  | some journal => runEffect w .approval (revalidateApproval w) journal none
  | none => do
    -- Refusals before any effect intent must not leave a pending journal.
    let nonce ← revalidateApproval w
    let at' ← now
    let journal ← createJournal at'
    runEffect w .approval (revalidateApproval w) journal (some nonce)

/-- `RelayDepositEffectService.run`. -/
def deposits : RelayProg H RelayEffectJournal := do
  refuse (w.retired = true) (effectBlocked .deposit "operation_retired")
  assertDepositEnvelope w
  let journal ← loadJournal
  match journal with
  | none => .fail (effectBlocked .deposit "canonical_approval_effect_required")
  | some journal =>
    match (journal.effects .approval).transactionHash with
    | none => .fail (effectBlocked .deposit "canonical_approval_effect_required")
    | some approvalHash => do
      refuse ((journal.effects .approval).phase ≠ .confirmed)
        (effectBlocked .deposit "canonical_approval_effect_required")
      runEffect w .deposit (revalidateDeposit w approvalHash) journal none

/-! ## The usage hold -/

def transitionInput (H : LedgerHash) (state : AssetUsageState) (at' : Instant)
    (outcomeDigest : Option String) (expected : Option (List AssetUsageState)) : AssetUsageTransitionInput where
  reservationId := w.usageKey.reservationId H
  policyDigest := w.op.policyDigest
  state := state
  now := at'
  outcomeDigest := outcomeDigest
  consumedAtomic := none
  effectAt := none
  expectedCurrentStates := expected
  journal := ⟨none, none⟩

/-- The ledger state a pair of effect phases proves. -/
def usageTarget (approval deposit : RelayEffectPhase) : Option AssetUsageState :=
  match deposit with
  | .confirmed => some .finalized
  | .failed | .abandonedUnsent => some .failedConfirmedRevert
  | _ =>
    match approval with
    | .failed => some .failedConfirmedRevert
    | .abandonedUnsent => some .failedBeforeEffect
    | .pending | .signingStarted | .sealed => none
    | .submitting | .confirmed => some .submitted

def updateUsage : RelayProg H Unit :=
  match usageTarget (journal.effects .approval).phase (journal.effects .deposit).phase with
  | none => .ret ()
  | some state => do
    let row ← loadUsage
    match row with
    | none => .fail (corruptError "usage reservation vanished")
    | some existing =>
      if existing.state = state then .ret ()
      else do
        let at' ← now
        moveUsage (transitionInput w H state at'
          (if state.isTerminal then some journal.integrityHash else none) none)

/-- Neither effect has an attempt. -/
def quiet : Prop :=
  ∀ role, (journal.effects role).phase = .pending ∧ (journal.effects role).attempt.isNone ∧
    (journal.effects role).observedAt.isNone

instance (journal : RelayEffectJournal) : Decidable (quiet journal) :=
  decidable_of_iff
    (((journal.effects .approval).phase = .pending ∧ (journal.effects .approval).attempt.isNone ∧
      (journal.effects .approval).observedAt.isNone) ∧
      (journal.effects .deposit).phase = .pending ∧ (journal.effects .deposit).attempt.isNone ∧
        (journal.effects .deposit).observedAt.isNone)
    ⟨fun h role => by cases role; exacts [h.1, h.2], fun h => ⟨h .approval, h .deposit⟩⟩

/-- A journal with any marker, or either signed slot, forbids the action. -/
def withNoEffectProof (action : RelayProg H Unit) : RelayProg H Unit := do
  noMaterial
  let journal ← loadJournal
  refuse (journal.any fun j => ! decide (quiet j)) (blockedError "source_effect_intent_exists")
  action

def keepsHold (e : RelayError) : Prop :=
  e.code = .operationBlocked ∧
    (e.reason = some "source_effect_intent_exists" ∨ e.reason = some "signed_effect_custody_exists")

instance (e : RelayError) : Decidable (keepsHold e) := inferInstanceAs (Decidable (_ ∧ _))

def releaseUsage : RelayProg H Unit := do
  let at' ← now
  moveUsage (transitionInput w H .failedBeforeEffect at' (some (w.hash.noEffectDigest w.op)) (some [.reserved]))

/-- A hold reserved by a call that left no durable effect is released. -/
def reconcilePreEffectReservation : RelayProg H Unit := do
  let current ← loadUsage
  match current with
  | none => .ret ()
  | some r =>
    if r.state ≠ .reserved then .ret ()
    else (withNoEffectProof (releaseUsage w)).handle fun e => if keepsHold e then .ret () else .fail e

def reserveInput (registry : AssetPolicyRegistry) (at' : Instant) (retry : Bool) :
    AssetUsageReserveInput where
  registry := registry
  rail := .bridge
  mechanism := some ⟨"relay", w.hash.executionRoute w.op⟩
  amountAtomic := w.op.amountAtomic
  idempotencyKey := "relay-execute:" ++ w.op.operationId
  now := at'
  retryFailedBeforeEffect := retry

/-- The execution is admitted and its hold taken under the policy that is active now. -/
def takeHold : RelayProg H Unit := do
  let confirmedAt ← now
  saveAdmission confirmedAt
  let active ← activePolicy
  match active with
  | none => .fail (blockedError "active_policy_missing")
  | some active => do
    let at' ← now
    ask (.policyAdmits active.registry 0 at')
    let previous ← loadUsage
    if previous.any fun r => r.state = .failedBeforeEffect then
      withNoEffectProof (reserveUsage (reserveInput w active.registry at' true))
    else reserveUsage (reserveInput w active.registry at' false)

/-! ## Execute -/

/-- A just-sent approval is awaited for a bounded number of polls. -/
def pollApproval (w : RelaySetting) (resumed : Bool) : ℕ → RelayEffectJournal → RelayProg H RelayEffectJournal
  | 0, journal => .ret journal
  | n + 1, journal =>
    if resumed = false ∧ (journal.effects .approval).phase = .submitting then do
      let next ← approvals w
      pollApproval w resumed n next
    else .ret journal

/-- The deposit follows a confirmed approval. -/
def runDeposit (approved : RelayEffectJournal) : RelayProg H RelayEffectJournal :=
  if (approved.effects .approval).phase = .confirmed then deposits w else .ret approved

def runEffects (resumed : Bool) : RelayProg H RelayEffectJournal := do
  let first ← approvals w
  let approved ← pollApproval w resumed w.polls first
  updateUsage w approved
  let journal ← runDeposit w approved
  updateUsage w journal
  return journal

/-- The journal of an operation that can only be observed. -/
def observationOnly : Bool :=
  (journal.effects .approval).phase = .submitting || (journal.effects .deposit).phase = .submitting ||
    (journal.effects .approval).phase = .failed || (journal.effects .approval).phase = .abandonedUnsent ||
    (journal.effects .deposit).phase = .failed || (journal.effects .deposit).phase = .abandonedUnsent ||
    (journal.effects .deposit).phase = .confirmed

end

/-- The owner alone for an observation; owner, policy and deadline for a call that may sign or send. -/
def assertAuthority (observing : Bool) : RelayProg H Unit :=
  if observing then do
    refuse (w.retired = true) (blockedError "operation_retired")
    ask .assertOwner
  else assertReady w

/-- An observation needs an earlier admission; a call that may sign or send is admitted, its hold taken. -/
def admitExecution (observing : Bool) : RelayProg H Unit :=
  if observing then do
    let admission ← loadAdmission
    refuse (admission.isNone) (blockedError "execution_admission_missing")
  else do
    assertReady w
    takeHold w

def authorize (observing : Bool) : RelayProg H Unit := do
  assertAuthority w observing
  let confirmed ← ask .confirm
  refuse (confirmed ≠ true) (blockedError "foreground_authorization_declined")
  admitExecution w observing

def executeScoped : RelayProg H RelayEffectJournal := do
  reconcilePreEffectReservation w
  let existing ← loadJournal
  authorize w (existing.any observationOnly)
  (runEffects w (existing.any fun j => (j.effects .approval).phase = .submitting)).handle fun error => do
    -- A cleanup failure must not hide the original error.
    let _ ← (reconcilePreEffectReservation w).attempt
    .fail error

/-! ## What the operations do -/

inductive Event
  /-- The signer ran, over this journal. -/
  | signed (role : RelayEffectRole) (journal : Option RelayEffectJournal)
  /-- The bytes left, from this slot and over this journal. -/
  | sent (role : RelayEffectRole) (raw : String) (slot : Option DirectEffectMaterial)
      (journal : Option RelayEffectJournal)
  | observed (role : RelayEffectRole) (outcome : RelayEffectOutcome)
  | neverLands (role : RelayEffectRole)
  | refused (input : AssetUsageTransitionInput)

/-- The operation's own files, and everything that happened, newest first. -/
structure Shared (H : LedgerHash) where
  journal : Option RelayEffectJournal
  admission : Option RelayExecutionAdmission
  slots : RelayEffectRole → Option DirectEffectMaterial
  row : Option (Reservation H)
  log : List Event

def Shared.add (s : Shared H) (e : Event) : Shared H := { s with log := e :: s.log }

def Shared.start : Shared H := ⟨none, none, fun _ => none, none, []⟩

/-- A journal is checked when it is read. -/
def loaded : Option RelayEffectJournal → RelayResult (Option RelayEffectJournal)
  | none => .ok none
  | some j => do
    RelayEffects.validateRelayEffectJournal w.hash.journal w.op j
    return some j

def created (journal : Option RelayEffectJournal) (createdAt : Instant) :
    RelayResult RelayEffectJournal :=
  if w.retired then RelayEffects.blocked "operation is retired"
  else if journal.isSome then RelayEffects.blocked "journal already exists"
  else .ok (RelayEffects.createRelayEffectJournal w.hash.journal w.op createdAt)

def advanced (journal : Option RelayEffectJournal) (expected : String)
    (role : RelayEffectRole) (event : RelayEffectEvent) : RelayResult RelayEffectJournal :=
  if w.retired then RelayEffects.blocked "operation is retired"
  else
    match journal with
    | none => .error ⟨.other, "Relay effect journal was not found.", none⟩
    | some j => do
      RelayEffects.validateRelayEffectJournal w.hash.journal w.op j
      if j.integrityHash ≠ expected then RelayEffects.blocked "stale journal revision"
      else RelayEffects.advanceRelayEffectJournal w.hash.journal w.op j role event

def ownAdmission (confirmedAt : Instant) : RelayExecutionAdmission :=
  ⟨w.op.profileHash, w.op.operationId, w.op.integrityHash, w.op.quoteDigest, w.op.requestId, confirmedAt⟩

def loadedAdmission :
    Option RelayExecutionAdmission → RelayResult (Option RelayExecutionAdmission)
  | none => .ok none
  | some a =>
    if a.profileHash ≠ w.op.profileHash ∨ a.operationId ≠ w.op.operationId ∨ ¬ admissionBound w a then
      .error (corruptError "admission binding")
    else .ok (some a)

def loadedSlot :
    Option DirectEffectMaterial → RelayResult (Option RelaySignedEffect)
  | none => .ok none
  | some m =>
    if m.payloadHash ≠ w.hash.envelopeBinding role w.op ∨ m.transactionHash ≠ m.rawTransactionHash ∨
        w.hash.keccak256 m.rawTransaction ≠ m.transactionHash then .error (effectCorrupt role "custody binding")
    else .ok (some ⟨m.rawTransaction, m.transactionHash⟩)

def sealedReason : RelayEffectRole → String
  | .approval => "signed_effect_already_sealed"
  | .deposit => "signed_deposit_already_sealed"

def sealedSlot (slot : Option DirectEffectMaterial)
    (signed : RelaySignedEffect) : RelayResult DirectEffectMaterial :=
  if slot.isSome then .error (effectBlocked role (sealedReason role))
  else do
    let verified ← verifySigned w role signed.rawTransaction (some signed.transactionHash) none
    return ⟨w.hash.envelopeBinding role w.op, verified.transactionHash, verified.rawTransaction,
      verified.transactionHash⟩

/-- A file operation that its port can also refuse, with nothing written. -/
def refusable {α : Type} (s : Shared H) (result : RelayResult (α × Shared H)) (answer : RelayResult α)
    (t : Shared H) : Prop :=
  (∃ a, result = .ok (a, t) ∧ answer = .ok a) ∨ ((∃ e, answer = .error e) ∧ t = s)

/-- The outcome an observation adds to the log. -/
def outcomeOf (hash : String) :
    RelayResult (Option RelayObservation) → Option RelayEffectOutcome
  | .ok (some o) =>
    match verifyObservation w role hash o with
    | .ok verdict => verdict
    | .error _ => none
  | _ => none

def exec (s : Shared H) : (o : RelayOp) → o.Answer H → Shared H → Prop
  | .loadJournal, answer, t => t = s ∧ answer = loaded w s.journal
  | .createJournal at', answer, t =>
    match created w s.journal at' with
    | .ok j => answer = .ok j ∧ t = { s with journal := some j }
    | .error e => answer = .error e ∧ t = s
  | .transition expected role event, answer, t =>
    match advanced w s.journal expected role event with
    | .ok j => answer = .ok j ∧ t = { s with journal := some j }
    | .error e => answer = .error e ∧ t = s
  | .loadAdmission, answer, t => t = s ∧ answer = loadedAdmission w s.admission
  | .saveAdmission at', answer, t =>
    match loadedAdmission w s.admission with
    | .error e => answer = .error e ∧ t = s
    | .ok (some _) => answer = .ok () ∧ t = s
    | .ok none => answer = .ok () ∧ t = { s with admission := some (ownAdmission w at') }
  | .loadSlot role, answer, t =>
    t = s ∧ (answer = loadedSlot w role (s.slots role) ∨ ∃ e, answer = .error e)
  | .sealSlot role signed, answer, t =>
    refusable s ((sealedSlot w role (s.slots role) signed).map fun m =>
      ((), { s with slots := Function.update s.slots role (some m) })) answer t
  | .discardSlot role, answer, t =>
    refusable s (.ok ((), { s with slots := Function.update s.slots role none })) answer t
  | .noMaterial, answer, t => t = s ∧ (answer = .ok () → ∀ role, s.slots role = none)
  | .hold q, answer, t =>
    holdExec w.usageKey s.row q answer t.row ∧
      t = { s with
        row := t.row
        log := match q, answer with
          | .transition input, .error _ => .refused input :: s.log
          | _, _ => s.log }
  | .now, _, t => t = s
  | .marker, answer, t => t = s ∧ RelayEffects.hexHash answer
  | .ask _, _, t => t = s
  | .sign role _, answer, t =>
    match answer with
    | .ok _ => t = s.add (.signed role s.journal)
    | .error _ => t = s ∨ t = s.add (.signed role s.journal)
  | .send role raw, _, t => t = s.add (.sent role raw (s.slots role) s.journal)
  | .observe role hash, answer, t =>
    match outcomeOf w role hash answer with
    | some outcome => t = s.add (.observed role outcome)
    | none => t = s
  | .unsentOutcome role _ _, answer, t =>
    match answer with
    | .ok .neverLands => t = s.add (.neverLands role)
    | _ => t = s

/-- The calls on one operation; its locks are held around each. -/
inductive Command (w : RelaySetting) : RelayProg H Unit → Prop
  | execute : Command w ((executeScoped w).bind fun _ => .ret ())

end RelaySource
end PaymentNode
