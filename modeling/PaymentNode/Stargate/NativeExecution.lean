import PaymentNode.Lib.Solo
import PaymentNode.Stargate.NativeRecord

/-!
# NativeExecution — preparing, sending and observing a native Stargate transfer

The programs of one operation over its journal file and its ports.  A port throws or answers; the journal's
`save` also answers what the disk did with a record that passed its checks.  The log keeps what the ports and
the journal saw: the records saved, lost by the disk or refused, what was signed and sent, and the receipts and
deliveries that were read.
-/

namespace PaymentNode

inductive StargateNativeUsageTarget
  | submitted
  | unknownFinality
  | finalized
  | failedBeforeEffect
  | failedConfirmedRevert
deriving DecidableEq, Repr

structure StargateNativePreparationRequest where
  profile : String
  owner : String
  recipient : String
  amount : ℕ
  maxNativeDebit : ℕ
  idempotencyKey : String
  ttlMs : Option ℤ
deriving DecidableEq, Repr

structure StargatePreparedEnvelopeEvidence where
  nonce : ℕ
  gasLimit : ℕ
  maxFeePerGas : ℕ
  maxPriorityFeePerGas : ℕ
  nativeBalance : ℕ
deriving DecidableEq, Repr

structure StargateOftSent where
  guid : String
  dstEid : ℕ
  fromAddress : String
  amountSent : ℕ
  amountReceived : ℕ
deriving DecidableEq, Repr

/-- A log with the `OFTSent` event it decodes to, if it does. -/
structure StargateRawLog where
  address : String
  oftSent : Option StargateOftSent
deriving DecidableEq, Repr

inductive StargateReceiptStatus
  | success
  | reverted
deriving DecidableEq, Repr

structure StargateConfirmedReceipt where
  transactionHash : String
  status : StargateReceiptStatus
  block : StargateBlock
  finality : StargateFinalityTag
  logs : List StargateRawLog
  gasUsed : Option ℕ
  effectiveGasPrice : Option ℕ
deriving DecidableEq, Repr

structure StargateSignedTransaction where
  signer : String
  chainId : ℕ
  isEip1559 : Bool
  target : String
  data : String
  value : ℕ
  nonce : ℕ
  gas : ℕ
  maxFeePerGas : ℕ
  maxPriorityFeePerGas : Option ℕ
deriving DecidableEq, Repr

structure StargateDestinationInput where
  sourceTransactionHash : String
  guid : String
  recipient : String
  sourceEid : ℕ
  destinationPool : String
  minimumAmount : ℕ
  balanceBefore : ℕ
  fromBlock : StargateBlock
  finalityTag : StargateFinalityTag
deriving DecidableEq, Repr

/-- The digests an operation is named by, the call data of its transfer, and what signed bytes hash and decode
to. -/
structure StargateNativeHash where
  profile : String → String
  idempotency : String → String
  operationId : String → String → String
  /-- `sendToken` for a recipient, an amount, a minimum output and a message fee. -/
  sendToken : String → ℕ → ℕ → ℕ → String
  keccak256 : String → String
  parseTransaction : String → Option StargateSignedTransaction
  operationId_length : ∀ p i, (operationId p i).toList.length = 64

/-- What a program asks that leaves no trace in the operation's own files. -/
inductive StargateNativeAsk
  | admitRoute
  | quote (recipient : String) (amount : ℕ)
  | sourceConfig (operation : Option StargateNativeOperation)
  | poolConfig (withCode : Bool)
  | finalFee (quote : StargateQuote)
  | prepareEnvelope (value : ℕ)
  | destinationBalance (recipient : String) (tag : StargateFinalityTag)
  | sourceBlock (number : ℕ)
  | signerAddress
  | admitPolicy (amount : ℕ)
  | approve (operation : StargateNativeOperation)
  | baseFeePerGas
  | reserveUsage (operation : StargateNativeOperation)
  | signerIdentity
  | followUsage (operation : StargateNativeOperation) (target : StargateNativeUsageTarget)

abbrev StargateNativeAsk.Answer : StargateNativeAsk → Type
  | admitRoute => Unit
  | quote _ _ => StargateQuote
  | sourceConfig _ => Option String
  | poolConfig _ => Option String
  | finalFee _ => ℕ
  | prepareEnvelope _ => StargatePreparedEnvelopeEvidence
  | destinationBalance _ _ => ℕ × StargateBlock
  | sourceBlock _ => StargateBlock
  | signerAddress => String
  | admitPolicy _ => StargateNativePolicyBinding
  | approve _ => Unit
  | baseFeePerGas => ℕ
  | reserveUsage _ => Unit
  | signerIdentity => String × String
  | followUsage _ _ => Unit

inductive StargateNativeOp
  | load
  | save (next : StargateNativeOperation)
  | now
  | ask (q : StargateNativeAsk)
  | sign (envelope : StargateNativeEnvelope)
  | send (raw : String)
  | sourceReceipt (hash : String) (tag : StargateFinalityTag)
  | destination (input : StargateDestinationInput)

abbrev StargateNativeOp.Answer : StargateNativeOp → Type
  | load => StargateResult (Option StargateNativeOperation)
  | save _ => StargateResult Unit
  | now => ℤ
  | ask q => StargateResult q.Answer
  | sign _ => StargateResult String
  | send _ => StargateResult String
  | sourceReceipt _ _ => StargateResult (Option StargateConfirmedReceipt)
  | destination _ => StargateResult (Option StargateDestinationEvidence)

abbrev StargateNativeProg := Prog StargateNativeOp StargateNativeOp.Answer StargateError

namespace StargateNative

/-- `if (c) fail(code, reason)`. -/
def refuse (c : Prop) [Decidable c] (code : StargateErrorCode) (reason : String) :
    StargateNativeProg Unit :=
  if c then .fail ⟨code, reason⟩ else .ret ()

def load : StargateNativeProg (Option StargateNativeOperation) := .run .load rfl
def save (next : StargateNativeOperation) : StargateNativeProg Unit := .run (.save next) rfl
def now : StargateNativeProg ℤ := .perform StargateNativeOp.now
def ask (q : StargateNativeAsk) : StargateNativeProg q.Answer := .run (.ask q) rfl
def sign (envelope : StargateNativeEnvelope) : StargateNativeProg String := .run (.sign envelope) rfl
def send (raw : String) : StargateNativeProg String := .run (.send raw) rfl
def waitSourceReceipt (hash : String) (tag : StargateFinalityTag) :
    StargateNativeProg (Option StargateConfirmedReceipt) :=
  .run (.sourceReceipt hash tag) rfl
def observeDestination (input : StargateDestinationInput) :
    StargateNativeProg (Option StargateDestinationEvidence) :=
  .run (.destination input) rfl

/-! ## Prepare -/

def laneRoute (route : StargateRoute) : Prop :=
  route.sourceChainId = sourceChain ∧ route.destinationChainId = destinationChain ∧
    route.sourceEid = sourceEid ∧ route.destinationEid = destinationEid ∧
    route.sourcePool = sourcePool ∧ route.destinationPool = destinationPool ∧ route.asset = "ETH"

instance (route : StargateRoute) : Decidable (laneRoute route) := inferInstanceAs (Decidable (_ ∧ _))

def assertLane (quote : StargateQuote) : StargateNativeProg Unit :=
  refuse (¬ laneRoute quote.route) .operationBlocked "lane"

/-- `value ?? fail(code, reason)`. -/
def required {α : Type} (value : Option α) (code : StargateErrorCode) (reason : String) :
    StargateNativeProg α :=
  match value with
  | some a => .ret a
  | none => .fail ⟨code, reason⟩

variable (hash : StargateNativeHash)

/-- The record `prepare` saves. -/
def preparedOperation (request : StargateNativePreparationRequest)
    (policy : StargateNativePolicyBinding) (finalityPolicy : StargateRouteFinalityPolicy)
    (quote : StargateQuote) (sourceCodeHash destinationCodeHash : String)
    (destination : ℕ × StargateBlock) (envelope : StargateNativeEnvelope) (maximumDebit : ℕ)
    (preparedAt expiresAt : ℤ) : StargateNativeOperation where
  schemaVersion := .v3
  operationId := hash.operationId (hash.profile request.profile) (hash.idempotency request.idempotencyKey)
  profile := request.profile
  profileHash := hash.profile request.profile
  idempotencyHash := hash.idempotency request.idempotencyKey
  policy := some policy
  owner := request.owner
  recipient := request.recipient
  amount := request.amount
  maxNativeDebit := request.maxNativeDebit
  finalityPolicy := finalityPolicy
  finalityPolicyProvenance := .pinnedV2
  quote := quote
  sourceCodeHash := sourceCodeHash
  destinationCodeHash := destinationCodeHash
  destinationBalanceBefore := destination.1
  destinationBalanceBlock := destination.2
  envelope := envelope
  totalValue := envelope.value
  maximumDebit := maximumDebit
  preparedAt := preparedAt
  expiresAt := expiresAt
  phase := .prepared
  transitions := [⟨.prepared, preparedAt, "fresh_quote_and_envelope_frozen"⟩]
  transactionHash := none
  guid := none
  sourceReceipt := none
  destinationEvidence := none

/-- The part of `prepare` after the operation was found to be new and its owner claim was written. -/
def prepareNew (request : StargateNativePreparationRequest) (ttl : ℤ) :
    StargateNativeProg StargateNativeOperation := do
  let quote ← ask (.quote request.recipient request.amount)
  assertLane quote
  refuse (quote.amountSent ≠ request.amount) .operationBlocked "dust_amount_not_supported"
  let config ← ask (.sourceConfig none)
  let destinationConfig ← ask (.poolConfig true)
  let finalFee ← ask (.finalFee quote)
  refuse (finalFee ≠ quote.nativeMessageFee) .reprepareRequired "final_send_fee_differs"
  let value := request.amount + finalFee
  refuse (request.maxNativeDebit < value) .operationBlocked "max_native_debit_exceeded"
  let prepared ← ask (.prepareEnvelope value)
  let maximumDebit := value + prepared.gasLimit * prepared.maxFeePerGas
  refuse (prepared.gasLimit = 0 ∨ prepared.maxFeePerGas = 0) .invalidInput "uint_range"
  refuse (prepared.maxFeePerGas < prepared.maxPriorityFeePerGas) .rpcProtocol "priority_fee"
  refuse (request.maxNativeDebit < maximumDebit) .operationBlocked "max_native_debit_exceeded"
  refuse (prepared.nativeBalance < maximumDebit) .operationBlocked "insufficient_native_balance"
  let finalityPolicy ← required (stargateV2RouteFinalityPolicy sourceChain destinationChain) .other
    "chain_not_admitted"
  let destination ← ask (.destinationBalance request.recipient finalityPolicy.destination.blockTag)
  let block ← ask (.sourceBlock quote.block.number)
  refuse (block ≠ quote.block) .rpcProtocol "source_block_changed_after_prepare_reads"
  let policy ← ask (.admitPolicy request.amount)
  let preparedAt ← now
  let sourceCodeHash ← required config .rpcProtocol "source_code"
  let destinationCodeHash ← required destinationConfig .rpcProtocol "source_code"
  let data := hash.sendToken request.recipient request.amount quote.minimumOutput finalFee
  let envelope : StargateNativeEnvelope := ⟨sourceChain, request.owner, sourcePool, data, value,
    prepared.nonce, prepared.gasLimit, prepared.maxFeePerGas, prepared.maxPriorityFeePerGas⟩
  let operation := preparedOperation hash request policy finalityPolicy quote sourceCodeHash
    destinationCodeHash destination envelope maximumDebit preparedAt (preparedAt + ttl)
  save operation
  return operation

def prepareStargateV2NativeEth (request : StargateNativePreparationRequest) :
    StargateNativeProg StargateNativeOperation := do
  refuse (request.owner ≠ request.recipient) .operationBlocked "first_lane_requires_self_recipient"
  let signer ← ask .signerAddress
  refuse (signer ≠ request.owner) .operationBlocked "signer_owner"
  refuse (request.amount = 0 ∨ request.maxNativeDebit = 0) .invalidInput "uint_range"
  let ttl := request.ttlMs.getD 60000
  refuse (ttl < 15000 ∨ maxTtlMs < ttl) .invalidInput "ttl"
  let existing ← load
  match existing with
  | some existing => do
    refuse (existing.profile ≠ request.profile ∨ existing.owner ≠ request.owner ∨
      existing.recipient ≠ request.recipient ∨ existing.amount ≠ request.amount ∨
      existing.maxNativeDebit ≠ request.maxNativeDebit) .operationBlocked "idempotency_conflict"
    return existing
  | none => do
    ask .admitRoute
    prepareNew hash request ttl

/-! ## Observe -/

def usageTarget : StargateNativePhase → Option StargateNativeUsageTarget
  | .submitted => some .submitted
  | .unknownFinality => some .unknownFinality
  | .observed => some .finalized
  | .failedConfirmedRevert => some .failedConfirmedRevert
  | _ => none

variable (operation : StargateNativeOperation)

/-- The ledger state a phase proves; phases before the attempt marker imply nothing yet. -/
def followPhaseUsage :
    StargateNativeProg StargateNativeOperation :=
  match usageTarget operation.phase with
  | some target => do
    ask (.followUsage operation target)
    return operation
  | none => return operation

/-- The one `OFTSent` event of the source pool, bound to the frozen terms. -/
def sourceReceipt (receipt : StargateConfirmedReceipt) :
    StargateResult StargateSourceReceipt :=
  if receipt.status ≠ .success ∨ receipt.finality ≠ operation.finalityPolicy.source.blockTag ∨
      some receipt.transactionHash ≠ operation.transactionHash then
    fail .rpcProtocol "source_receipt"
  else
    match receipt.logs.filterMap fun log => if log.address = sourcePool then log.oftSent else none with
    | [event] =>
      if event.dstEid ≠ destinationEid ∨ event.fromAddress ≠ operation.owner ∨
          event.amountSent ≠ operation.quote.amountSent ∨
          event.amountReceived ≠ operation.quote.minimumOutput then
        fail .rpcProtocol "source_oft_sent_binding"
      else .ok ⟨receipt.transactionHash, receipt.block, operation.finalityPolicy.source.blockTag,
        event.guid, event.amountSent, event.amountReceived, none, none⟩
    | _ => fail .rpcProtocol "source_oft_sent_count"

variable (source : StargateSourceReceipt)

/-- The receipt's gas used and effective gas price, when the RPC returned both. -/
def withSourceFee (receipt : StargateConfirmedReceipt) :
    StargateSourceReceipt :=
  match receipt.gasUsed, receipt.effectiveGasPrice with
  | some gasUsed, some price =>
    { source with gasUsed := some gasUsed, effectiveGasPrice := some price }
  | _, _ => source

def validateDestination
    (evidence : StargateOftReceived) : StargateResult Unit :=
  if evidence.finality ≠ operation.finalityPolicy.destination.blockTag ∨
      evidence.recipient ≠ operation.recipient then
    fail .rpcProtocol "destination_binding"
  else if evidence.emitter ≠ destinationPool ∨
      evidence.sourceTransactionHash ≠ source.transactionHash ∨ evidence.sourceEid ≠ sourceEid ∨
      evidence.guid ≠ source.guid ∨ evidence.amountReceived ≠ source.amountReceived then
    fail .rpcProtocol "destination_event"
  else .ok ()

def destinationInput :
    StargateDestinationInput where
  sourceTransactionHash := source.transactionHash
  guid := source.guid
  recipient := operation.recipient
  sourceEid := sourceEid
  destinationPool := destinationPool
  minimumAmount := source.amountReceived
  balanceBefore := operation.destinationBalanceBefore
  fromBlock := operation.destinationBalanceBlock
  finalityTag := operation.finalityPolicy.destination.blockTag

/-- The source is at finality, the delivery is not: the record keeps its source receipt once. -/
def pendingOperation (at' : ℤ) :
    StargateNativeOperation :=
  { operation with
    phase := .submitted
    sourceReceipt := some source
    transitions := if operation.phase = .submitted then operation.transitions
      else operation.transitions ++ [⟨.submitted, at', "source_safe_destination_pending"⟩] }

def observedOperation
    (destination : StargateDestinationEvidence) (at' : ℤ) : StargateNativeOperation :=
  { operation with
    phase := .observed
    guid := some source.guid
    sourceReceipt := some source
    destinationEvidence := some destination
    transitions := operation.transitions ++ [⟨.observed, at', "destination_delivery_safe"⟩] }

def observeDelivery :
    StargateNativeProg StargateNativeOperation := do
  let destination ← observeDestination (destinationInput operation source)
  match destination with
  | none =>
    if operation.sourceReceipt = none then do
      let at' ← now
      let next := pendingOperation operation source at'
      save next
      followPhaseUsage next
    else followPhaseUsage operation
  | some (.balanceDelta _) => followPhaseUsage operation
  | some (.oftReceived evidence) => do
    Prog.ofExcept (validateDestination operation source evidence)
    let at' ← now
    let next := observedOperation operation source (.oftReceived evidence) at'
    save next
    followPhaseUsage next

/-- The record moves on to `phase`, and its usage hold with it. -/
def advance (phase : StargateNativePhase) (reason : String) :
    StargateNativeProg StargateNativeOperation := do
  let at' ← now
  let next := transition operation phase reason at'
  save next
  followPhaseUsage next

def observeOnly : StargateNativeProg StargateNativeOperation := do
  let hash ← required operation.transactionHash .stateCorrupt "attempt_without_hash"
  let found ← waitSourceReceipt hash operation.finalityPolicy.source.blockTag
  match found with
  | none =>
    if operation.phase ≠ .unknownFinality then
      advance operation .unknownFinality "source_receipt_not_safe"
    else followPhaseUsage operation
  | some receipt =>
    if receipt.status = .reverted then do
      -- A revert at the route's source finality is final: the same bytes are never resent.
      refuse (receipt.transactionHash ≠ hash ∨
        receipt.finality ≠ operation.finalityPolicy.source.blockTag) .rpcProtocol "source_revert_receipt"
      advance operation .failedConfirmedRevert "source_reverted_at_finality"
    else do
      let source ← Prog.ofExcept (sourceReceipt operation receipt)
      observeDelivery operation (withSourceFee source receipt)

/-- An observed record written before the fee was kept reads its own source receipt once. -/
def recordObservedSourceFee :
    StargateNativeProg StargateNativeOperation := do
  match operation.sourceReceipt with
  | none => return operation
  | some source =>
    if operation.phase ≠ .observed ∨ source.gasUsed.isSome then return operation
    else do
      let found ← waitSourceReceipt source.transactionHash source.finality
      match found with
      | none => return operation
      | some receipt => do
        refuse (receipt.status ≠ .success ∨ receipt.transactionHash ≠ source.transactionHash ∨
          receipt.block ≠ source.block) .rpcProtocol "source_receipt_changed"
        let enriched := withSourceFee source receipt
        if enriched = source then return operation
        else do
          let next := { operation with sourceReceipt := some enriched }
          save next
          return next

/-! ## Execute -/

/-- Nothing was marked for sending, so an expired operation releases any hold an earlier run took. -/
def expired (reason : String) : StargateNativeProg Unit := do
  ask (.followUsage operation .failedBeforeEffect)
  Prog.fail ⟨.reprepareRequired, reason⟩

def assertUnexpired (reason : String) : StargateNativeProg Unit := do
  let at' ← now
  if operation.expiresAt ≤ at' then expired operation reason else return ()

/-- The owner confirms a prepared operation; an approved one was confirmed by an earlier run. -/
def approveFirst : StargateNativeProg StargateNativeOperation :=
  if operation.phase = .prepared then do
    ask (.approve operation)
    let at' ← now
    let next := transition operation .approved "foreground_owner_confirmation" at'
    save next
    return next
  else return operation

def evmFrozenFeeAdmitted (baseFeePerGas : ℕ) (envelope : StargateNativeEnvelope) : Prop :=
  0 < envelope.maxFeePerGas ∧ envelope.maxPriorityFeePerGas ≤ envelope.maxFeePerGas ∧
    baseFeePerGas + envelope.maxPriorityFeePerGas ≤ envelope.maxFeePerGas

instance (baseFee : ℕ) (envelope : StargateNativeEnvelope) :
    Decidable (evmFrozenFeeAdmitted baseFee envelope) :=
  inferInstanceAs (Decidable (_ ∧ _))

/-- Every network read between the approval and the signature. -/
def preflight : StargateNativeProg Unit := do
  let fresh ← ask (.quote operation.recipient operation.amount)
  assertLane fresh
  refuse (fresh.amountSent ≠ operation.quote.amountSent ∨
    fresh.minimumOutput ≠ operation.quote.minimumOutput ∨
    fresh.nativeMessageFee ≠ operation.quote.nativeMessageFee) .reprepareRequired
    "quote_changed_after_approval"
  refuse (fresh.amountSent ≠ operation.amount) .reprepareRequired "dust_amount_changed"
  let _ ← ask (.sourceConfig (some operation))
  let _ ← ask (.poolConfig false)
  let baseFee ← ask .baseFeePerGas
  refuse (¬ evmFrozenFeeAdmitted baseFee operation.envelope) .reprepareRequired "fee_spike"
  ask (.reserveUsage operation)
  let identity ← ask .signerIdentity
  let signer ← ask .signerAddress
  refuse (identity.1 ≠ operation.profile ∨ identity.2 ≠ operation.owner ∨ signer ≠ operation.owner)
    .reprepareRequired "signer_identity_changed"

/-- The signed bytes carry exactly the frozen envelope. -/
def verifySignedEnvelope (raw : String) (operation : StargateNativeOperation) :
    StargateNativeProg Unit := do
  let tx ← required (hash.parseTransaction raw) .rpcProtocol "signed_transaction_decode"
  let envelope := operation.envelope
  refuse (tx.signer ≠ operation.owner) .rpcProtocol "signed_transaction_signer"
  refuse (tx.chainId ≠ envelope.chainId) .rpcProtocol "signed_transaction_chain"
  refuse (¬ tx.isEip1559) .rpcProtocol "signed_transaction_type"
  refuse (tx.target ≠ envelope.target) .rpcProtocol "signed_transaction_to"
  refuse (tx.data ≠ envelope.data) .rpcProtocol "signed_transaction_data"
  refuse (tx.value ≠ envelope.value) .rpcProtocol "signed_transaction_value"
  refuse (tx.nonce ≠ envelope.nonce) .rpcProtocol "signed_transaction_nonce"
  refuse (tx.gas ≠ envelope.gasLimit) .rpcProtocol "signed_transaction_gas"
  refuse (tx.maxFeePerGas ≠ envelope.maxFeePerGas) .rpcProtocol "signed_transaction_max_fee"
  refuse (tx.maxPriorityFeePerGas.getD 0 ≠ envelope.maxPriorityFeePerGas) .rpcProtocol
    "signed_transaction_priority_fee"

/-- The attempt marker: the transaction's hash is on disk before its bytes leave. -/
def markedOperation (transactionHash : String) (at' : ℤ) :
    StargateNativeOperation :=
  { operation with
    phase := .submissionStarted
    transactionHash := some transactionHash
    transitions := operation.transitions ++ [⟨.submissionStarted, at', "attempt_marked_before_send"⟩] }

def lowerCase (text : String) : List Char := text.toList.map Char.toLower

/-- `sendRawTransaction`, checked to have answered the hash of the bytes it was given. -/
def broadcast (raw transactionHash : String) : StargateNativeProg Unit := do
  let returned ← send raw
  refuse (lowerCase returned ≠ lowerCase transactionHash) .rpcAmbiguous "returned_transaction_hash"

/-- After the marker: one broadcast.  A throw of it, or of the save after it, leaves its outcome unknown. -/
def sendMarked (raw transactionHash : String) :
    StargateNativeProg StargateNativeOperation := do
  let sent ← (broadcast raw transactionHash).attempt
  match sent with
  | .error _ => advance operation .unknownFinality "broadcast_result_ambiguous_no_resend"
  | .ok () => do
    let at' ← now
    let next := transition operation .submitted "broadcast_returned_exact_hash" at'
    let saved ← (save next).attempt
    match saved with
    | .error _ => advance next .unknownFinality "broadcast_result_ambiguous_no_resend"
    | .ok () => do
      let _ ← followPhaseUsage next
      observeOnly next

def submit (initial : StargateNativeOperation) :
    StargateNativeProg StargateNativeOperation := do
  refuse (initial.policy = none) .reprepareRequired "owner_policy_binding_required"
  assertUnexpired initial "expired"
  let operation ← approveFirst initial
  assertUnexpired operation "expired_after_approval"
  preflight operation
  let raw ← sign operation.envelope
  verifySignedEnvelope hash raw operation
  let at' ← now
  let next := markedOperation operation (hash.keccak256 raw) at'
  save next
  sendMarked next raw (hash.keccak256 raw)

def executeLocked : StargateNativeProg StargateNativeOperation := do
  let loaded ← load
  match loaded with
  | none => .fail ⟨.operationBlocked, "operation_missing"⟩
  | some operation =>
    match operation.phase with
    | .submissionStarted | .submitted | .unknownFinality => observeOnly operation
    | .observed | .failedConfirmedRevert => do
      let operation ← followPhaseUsage operation
      recordObservedSourceFee operation
    | .prepared | .approved => submit hash operation

/-- Both locks are held around `executeLocked`. -/
def executeStargateV2NativeEth :
    StargateNativeProg StargateNativeOperation := do
  let initial ← load
  match initial with
  | none => .fail ⟨.operationBlocked, "operation_missing"⟩
  | some _ => executeLocked hash

/-! ## What the operations do -/

inductive Event
  | saved (o : StargateNativeOperation)
  /-- A record that passed its checks and that the disk did not take. -/
  | lost (o : StargateNativeOperation)
  | refused (o : StargateNativeOperation)
  | signed (envelope : StargateNativeEnvelope) (raw : String)
  | sent (raw : String)
  | receipt (r : StargateConfirmedReceipt)
  | delivered (evidence : StargateDestinationEvidence)
deriving DecidableEq

/-- The journal file of the operation, and everything that happened, newest first. -/
structure Shared where
  record : Option StargateNativeOperation
  log : List Event
deriving DecidableEq

def Shared.add (s : Shared) (e : Event) : Shared := { s with log := e :: s.log }

/-- A record is checked when it is read. -/
def loaded : Option StargateNativeOperation → StargateResult (Option StargateNativeOperation)
  | none => .ok none
  | some record => do
    validateRecord record
    return some record

/-- The owner admission hands out bindings of a real policy. -/
def Answered : (q : StargateNativeAsk) → StargateResult q.Answer → Prop
  | .admitPolicy _, .ok binding => assertPolicyBinding (some binding) = .ok ()
  | _, _ => True

def exec (s : Shared) : (o : StargateNativeOp) → o.Answer → Shared → Prop
  | .load, answer, t => t = s ∧ (answer = loaded s.record ∨ ∃ e, answer = .error e)
  | .save next, answer, t =>
    match accepts s.record next with
    | .error e => answer = .error e ∧ t = s.add (.refused next)
    | .ok () =>
      t = ⟨some next, .saved next :: s.log⟩ ∨ ((∃ e, answer = .error e) ∧ t = s.add (.lost next))
  | .now, _, t => t = s
  | .ask q, answer, t => t = s ∧ Answered q answer
  | .sign envelope, answer, t =>
    match answer with
    | .ok raw => t = s.add (.signed envelope raw)
    | .error _ => t = s
  | .send raw, _, t => t = s.add (.sent raw)
  | .sourceReceipt _ _, answer, t =>
    match answer with
    | .ok (some receipt) => t = s.add (.receipt receipt)
    | _ => t = s
  | .destination _, answer, t =>
    match answer with
    | .ok (some evidence) => t = s.add (.delivered evidence)
    | _ => t = s

/-- The operation a preparation request names. -/
def requestId (request : StargateNativePreparationRequest) : String :=
  hash.operationId (hash.profile request.profile) (hash.idempotency request.idempotencyKey)

/-- The commands on one operation. -/
inductive Command (hash : StargateNativeHash) (operationId : String) : StargateNativeProg Unit → Prop
  | prepare (request : StargateNativePreparationRequest) (h : requestId hash request = operationId) :
      Command hash operationId ((prepareStargateV2NativeEth hash request).bind fun _ => .ret ())
  | execute : Command hash operationId ((executeStargateV2NativeEth hash).bind fun _ => .ret ())

end StargateNative
end PaymentNode
