import PaymentNode.Lib.Prog
import PaymentNode.Transfer.Record

/-!
# Lifecycle — the calls on one local direct EVM transfer, as programs

`prepare`, `approve`, `resume`, `settle`, `abandon` and the retirement of an expired prepare, each holding the
operation's locks from first to last.  The truth is split over the operation record, the public effect journal
(`prepared`, `signing`, `signed` and `no-private-entry` files), the dispatch fence and the usage ledger; each
read or write of one of them is an operation of its own.  What the custody, the owner, the policies and the RPC
answer is asked as a question with any answer.
-/

namespace PaymentNode

/-- `keccak256` of signed bytes. -/
abbrev Keccak := Hex → Hex

/-- Hashes are compared in lower case. -/
def sameHash (a b : Hex) : Bool := a.toList.map Char.toLower = b.toList.map Char.toLower

structure NativeEffect where
  rawTransaction : Hex
  transactionHash : Hex
  rawTransactionHash : Hex
deriving DecidableEq, Repr

structure RpcReceipt where
  transactionHash : Hex
  reverted : Bool
  /-- The receipt's logs hold the exact transfer. -/
  exactTransfer : Bool
deriving DecidableEq, Repr

structure NeverLandsCheck where
  neverLands : Bool
  receiptFound : Bool
  transactionKnown : Bool
  nonceFinalized : Bool
deriving DecidableEq, Repr

/-- The questions a call asks of everything but its own files. -/
inductive TransferAsk
  | ready
  | admitted
  | custody
  | checkApproval
  | frozenTransaction
  | confirmPolicy
  | foregroundApproval
  | openWallet
  | sign
  | saveWallet
  | attest
  | signedMaterial
  | receipt
  | evidence
  | actualFee
  | finalizedBatch
  | neverLands
  | abandonApproval
  | rpcConfigured

def TransferAsk.Answer : TransferAsk → Type
  | ready | admitted | custody | frozenTransaction | confirmPolicy | foregroundApproval | openWallet
  | saveWallet | attest | abandonApproval => Result Unit
  | checkApproval => Result (Option String)
  | sign => Result Hex
  | signedMaterial => Result NativeEffect
  | receipt => Result (Option RpcReceipt)
  | evidence => Except String Bool
  | actualFee => Result (Option String)
  | neverLands => Result NeverLandsCheck
  | finalizedBatch | rpcConfigured => Bool

inductive TransferOp
  | find
  | writeOperation (next : OperationRecord)
  | writeReceipt (of' : OperationRecord)
  | readUsage
  | moveUsage (target : AssetUsageState)
  | reserveUsage
  | hasPrepared
  | hasSigning
  | readSigned
  | readNoPrivate
  | readFence
  | writePrepared
  | writeSigning
  | writeSigned (hash : Hex)
  | writeNoPrivate (attempt : OperationRecord)
  | writeFence (hash : Hex)
  | submitRaw (raw : Hex)
  | now
  | ask (q : TransferAsk)
  /-- An observe-only resume meets a signature that has no dispatch fence. -/
  | observesUnfenced
  /-- The catch of a dispatch goes on from the record it was given. -/
  | catches (operation : OperationRecord)

def TransferOp.Answer : TransferOp → Type
  | find | readNoPrivate => Result (Option OperationRecord)
  | readUsage => Result (Option AssetUsageState)
  | reserveUsage => Result String
  | hasPrepared | hasSigning => Result Bool
  | readSigned | readFence => Result (Option Hex)
  | writeOperation _ | writeReceipt _ | moveUsage _ | writePrepared | writeSigning | writeSigned _
  | writeNoPrivate _ | writeFence _ => Result Unit
  | submitRaw _ => Result Hex
  | now => ℤ
  | ask q => q.Answer
  | observesUnfenced | catches _ => Unit

abbrev TransferProg (α : Type) := Prog TransferOp TransferOp.Answer ApnError α

namespace TransferProg

variable {α : Type}

def lift : Result α → TransferProg α
  | .ok a => .ret a
  | .error e => .fail e

def ask (q : TransferAsk) : TransferProg q.Answer := Prog.perform (TransferOp.ask q)

/-- An operation whose failure is thrown. -/
def run (o : TransferOp) (h : o.Answer = Result α) : TransferProg α :=
  (Prog.perform o).bind fun answer => lift (h ▸ answer)

/-- A question whose refusal is thrown. -/
def call (q : TransferAsk) (h : q.Answer = Result α) : TransferProg α := run (.ask q) h

def now : TransferProg ℤ := Prog.perform TransferOp.now

def find : TransferProg (Option OperationRecord) := run .find rfl
def writeOperation (next : OperationRecord) : TransferProg Unit := run (.writeOperation next) rfl
def writeReceipt (of' : OperationRecord) : TransferProg Unit := run (.writeReceipt of') rfl
def readUsage : TransferProg (Option AssetUsageState) := run .readUsage rfl
def moveUsage (target : AssetUsageState) : TransferProg Unit := run (.moveUsage target) rfl
def hasPrepared : TransferProg Bool := run .hasPrepared rfl
def hasSigning : TransferProg Bool := run .hasSigning rfl
def readSigned : TransferProg (Option Hex) := run .readSigned rfl
def readNoPrivate : TransferProg (Option OperationRecord) := run .readNoPrivate rfl
def readFence : TransferProg (Option Hex) := run .readFence rfl
def observesUnfenced : TransferProg Unit := Prog.perform TransferOp.observesUnfenced
def catches (operation : OperationRecord) : TransferProg Unit := Prog.perform (TransferOp.catches operation)

end TransferProg

open TransferProg

/-! ## The record and the ledger that follows it -/

def notFound : ApnError := ⟨.other, "Operation was not found."⟩

def requiredOperation : TransferProg OperationRecord :=
  find.bind fun found =>
    match found with
    | some operation => Prog.ret operation
    | none => Prog.fail notFound

/-- What a transition may write besides itself. -/
structure TransitionExtra where
  transactionHash : Option Hex
  rawTransactionHash : Option Hex
  lastSubmissionAt : Option ℤ
  allowlistLease : Option String
  evmActualFee : Option String

def TransitionExtra.none : TransitionExtra := ⟨.none, .none, .none, .none, .none⟩

def OperationRecord.append (operation : OperationRecord) (next : DirectTransition)
    (extra : TransitionExtra) : OperationRecord :=
  { operation with
    transactionHash := extra.transactionHash <|> operation.transactionHash
    rawTransactionHash := extra.rawTransactionHash <|> operation.rawTransactionHash
    lastSubmissionAt := extra.lastSubmissionAt <|> operation.lastSubmissionAt
    allowlistLease := extra.allowlistLease <|> operation.allowlistLease
    evmActualFee := extra.evmActualFee <|> operation.evmActualFee
    latest := next
    earlier := operation.transitions }

namespace LocalDirect

section

variable (operation : OperationRecord)

/-- The Base USDC lane writes its record before its receipt, the explicit-asset lane after it. -/
def persist : TransferProg Unit :=
  if operation.evm.isNone then
    (writeOperation operation).bind fun _ => writeReceipt operation
  else (writeReceipt operation).bind fun _ => writeOperation operation

def moveAll : List AssetUsageState → TransferProg Unit
  | [] => Prog.ret ()
  | move :: moves => (moveUsage move).bind fun _ => moveAll moves

/-- Move the ledger forward to the journal's state. -/
def follow (target : DirectUsageTarget) : TransferProg Unit :=
  if target = .reserved then Prog.ret ()
  else do
    let current ← readUsage
    let moves ← lift (followPlan current target)
    moveAll moves

def followUsage : TransferProg Unit :=
  if operation.allowlist.isSome then follow (evmUsageTarget operation) else Prog.ret ()

/-- What the summary and the last transition say. -/
structure TransitionInput where
  state : OperationState
  terminal : Bool
  reason : String
  proofClass : String

/-- `transition` without its ledger follow. -/
def transitionOnly (input : TransitionInput) (extra : TransitionExtra) :
    TransferProg OperationRecord := do
  let at' ← now
  let updated := operation.append ⟨at', input.state, input.terminal, input.reason, input.proofClass⟩ extra
  persist updated
  return updated

def transitionUsage (input : TransitionInput) (extra : TransitionExtra) :
    TransferProg OperationRecord := do
  let updated ← transitionOnly operation input extra
  followUsage updated
  return updated

/-! ## The public effect journal and the dispatch fence -/

def evidenceMissing : ApnError :=
  ⟨.operationBlocked, "Public direct effect evidence is missing; retain this operation for manual resolution."⟩

def effectUnbound {α : Type} : Result α :=
  corrupt "Public direct effect evidence does not bind the saved operation."

def noPrivateBlocked : ApnError :=
  ⟨.operationBlocked, "A no-private-entry outcome does not prove this unchanged canonical attempt; retain the operation."⟩

/-- `DirectPublicEffectJournal.prepared`: the saved record is this one, and its claim is there. -/
def prepared : TransferProg Unit := do
  let saved ← find
  if saved ≠ some operation then lift effectUnbound
  else
    let claimed ← hasPrepared
    if !claimed then Prog.fail evidenceMissing
    else call .custody rfl

def publicPrepare : TransferProg Unit := do
  call .custody rfl
  let claimed ← hasPrepared
  if claimed then prepared operation else run .writePrepared rfl

def assertUnstarted : TransferProg Unit := do
  prepared operation
  let signing ← hasSigning
  let signed ← readSigned
  if operation.state ≠ .awaitingApproval ∨ signing ∨ signed.isSome then
    lift (blocked "Public signing evidence or an unprovable legacy slot prevents no-effect classification; retain the nonce.")
  else return ()

def checkNoPrivateContext (operation attempt : OperationRecord) : TransferProg Unit :=
  if operation.state ≠ .started ∨ operation.terminal ∨ operation.transactionHash.isSome ∨
      operation.rawTransactionHash.isSome ∨ operation.lastSubmissionAt.isSome ∨ attempt ≠ operation then
    Prog.fail noPrivateBlocked
  else do
    prepared operation
    let signing ← hasSigning
    if !signing then Prog.fail noPrivateBlocked
    else
      prepared operation
      let signed ← readSigned
      let fence ← readFence
      if signed.isSome ∨ fence.isSome then Prog.fail noPrivateBlocked else return ()

/-- The proof that Native returned before it opened the wallet. -/
def noPrivateEntry : TransferProg Bool :=
  Prog.handle
    (do
      let attempt ← readNoPrivate
      match attempt with
      | none => return false
      | some attempt =>
        checkNoPrivateContext operation attempt
        checkNoPrivateContext operation attempt
        return true)
    fun _ => Prog.fail noPrivateBlocked

/-- The public signed record of the saved operation. -/
def publicEffect : TransferProg Hex := do
  let attempt ← readNoPrivate
  if attempt.isSome then Prog.fail noPrivateBlocked
  else
    prepared operation
    let signed ← readSigned
    match signed with
    | none => Prog.fail evidenceMissing
    | some hash =>
      if (operation.transactionHash.any fun h => h ≠ hash) ∨
          (operation.rawTransactionHash.any fun h => h ≠ hash) then
        lift effectUnbound
      else
        call .custody rfl
        return hash

def fenceDiffers {α : Type} : Result α :=
  corrupt "Generic direct submission fence differs from its frozen signed operation."

/-- `EvmDirectSubmissionJournal.exists` -/
def fenceExists : TransferProg Bool := do
  let fence ← readFence
  match fence with
  | none => return false
  | some hash => if operation.transactionHash = some hash then return true else lift fenceDiffers

end

section Keccak

variable (keccak : Keccak)

section

variable (operation : OperationRecord)

/-- `EvmDirectSubmissionJournal.fence`: create-only, of these exact bytes. -/
def fence (raw : Hex) : TransferProg Unit :=
  if operation.state ≠ .signedNotSubmitted ∨ operation.transactionHash.isNone ∨
      operation.rawTransactionHash ≠ operation.transactionHash ∨
      some (keccak raw) ≠ operation.transactionHash then
    lift fenceDiffers
  else run (.writeFence (keccak raw)) rfl

/-! ## Custody -/

def nativeProtocol {α : Type} (message : String) : Result α := .error ⟨.other, message⟩

def verifyEffect (effect : NativeEffect) : TransferProg Unit :=
  if keccak effect.rawTransaction ≠ effect.transactionHash ∨
      keccak effect.rawTransaction ≠ effect.rawTransactionHash then
    lift (nativeProtocol "Native effect hashes do not match the exact signed bytes.")
  else call .frozenTransaction rfl

def recordNoPrivateEntry : TransferProg Unit := do
  checkNoPrivateContext operation operation
  checkNoPrivateContext operation operation
  (run (.writeNoPrivate operation) rfl : TransferProg Unit)
  checkNoPrivateContext operation operation

/-- The foreground approval; a refusal is recorded as proof that nothing was signed, if it can be. -/
def nativeApprove : TransferProg Unit :=
  (call .foregroundApproval rfl : TransferProg Unit).handle fun e =>
    ((recordNoPrivateEntry operation).handle fun _ => Prog.ret ()).bind fun _ => Prog.fail e

def publish (hash : Hex) : TransferProg Unit := do
  (call .attest rfl : TransferProg Unit)
  let attempt ← readNoPrivate
  if attempt.isSome then Prog.fail noPrivateBlocked
  else
    prepared operation
    run (.writeSigned hash) rfl

def approveAndSign : TransferProg NativeEffect := do
  let frozen ← requiredOperation
  if frozen.state ≠ .started then
    lift (nativeProtocol "Native request differs from its saved fresh operation.")
  else
    let signed ← readSigned
    if signed.isSome then
      lift (nativeProtocol "A signed direct effect cannot be approved or recovered through signing.")
    else
      prepared frozen
      (run .writeSigning rfl : TransferProg Unit)
      nativeApprove frozen
      (call .openWallet rfl : TransferProg Unit)
      let latest ← requiredOperation
      if latest.state ≠ .started then
        lift (nativeProtocol "Fresh direct operation changed before signing.")
      else
        prepared latest
        let raw ← (call .sign rfl : TransferProg Hex)
        let effect : NativeEffect := ⟨raw, keccak raw, keccak raw⟩
        verifyEffect keccak effect
        (call .confirmPolicy rfl : TransferProg Unit)
        prepared frozen
        (call .saveWallet rfl : TransferProg Unit)
        publish frozen (keccak raw)
        return effect

/-- The persisted signed bytes, checked against the frozen transfer. -/
def signedRawTransaction : TransferProg Hex := do
  let effect ← (call .signedMaterial rfl : TransferProg NativeEffect)
  if some effect.transactionHash ≠ operation.transactionHash ∨
      some effect.rawTransactionHash ≠ operation.rawTransactionHash then
    lift (corrupt "Recovered signed bytes differ from the saved public effect.")
  else
    verifyEffect keccak effect
    return effect.rawTransaction

/-! ## Observation -/

/-- The observation of a transaction's receipt. -/
inductive ReceiptRead
  | absent
  | unavailable
  | read
deriving DecidableEq, Repr

def unknown (reason proofClass : String) : TransitionInput := ⟨.unknownFinality, false, reason, proofClass⟩

def classifyProven (receipt : RpcReceipt) :
    TransferProg OperationRecord := do
  let paid ← (call .actualFee rfl : TransferProg (Option String))
  let fee : TransitionExtra := { TransitionExtra.none with evmActualFee := paid }
  let native := operation.evm.any fun e => e.native
  if receipt.reverted then
    transitionUsage operation
      ⟨.failedConfirmedRevert, true, "confirmed_receipt_revert", "confirmed_receipt"⟩ fee
  else if !native && !receipt.exactTransfer then
    transitionUsage operation
      (unknown "successful_receipt_missing_exact_transfer" "invalid_receipt") TransitionExtra.none
  else
    transitionUsage operation
      ⟨.completed, true,
        if operation.evm.isNone then "confirmed_exact_usdc_transfer"
        else if native then "confirmed_exact_native_transfer" else "confirmed_exact_erc20_transfer",
        if operation.evm.isNone then "confirmed_receipt_and_exact_transfer_log"
        else if native then "included_native_transaction_and_receipt"
        else "included_exact_transfer_event"⟩ fee

def classifyReceipt (receipt : RpcReceipt) :
    TransferProg OperationRecord :=
  match operation.transactionHash with
  | none => Prog.ret operation
  | some hash =>
    if ¬ sameHash receipt.transactionHash hash then
      transitionUsage operation (unknown "receipt_hash_mismatch" "invalid_receipt") TransitionExtra.none
    else if operation.evm.isNone then classifyProven operation receipt
    else do
      let evidence : Except String Bool ← ask .evidence
      match evidence with
      | .error reason =>
        transitionUsage operation (unknown reason "inclusion_effect_unproven") TransitionExtra.none
      | .ok false =>
        transitionUsage operation (unknown "evm_transaction_mismatch" "invalid_receipt")
          TransitionExtra.none
      | .ok true => classifyProven operation receipt

def observeReceipt : TransferProg (OperationRecord × ReceiptRead) :=
  if operation.transactionHash.isNone then Prog.ret (operation, .unavailable)
  else do
    let receipt : Result (Option RpcReceipt) ← ask .receipt
    match receipt with
    | .error _ => return (operation, .unavailable)
    | .ok none => return (operation, .absent)
    | .ok (some receipt) =>
      let classified ← classifyReceipt operation receipt
      return (classified, .read)

/-! ## Dispatch -/

/-- The catch of a dispatch goes on from the record the dispatch was given. -/
def catchDispatch (reason : String) : TransferProg OperationRecord := do
  catches operation
  let at' ← now
  transitionUsage operation (unknown reason "ambiguous_submission")
    { TransitionExtra.none with lastSubmissionAt := some at' }

/-- What a dispatch leaves: an answer of its own, or a record to inspect. -/
def dispatch (raw : Hex) :
    TransferProg (OperationRecord ⊕ OperationRecord) := do
  let returned ← (run (.submitRaw raw) rfl : TransferProg Hex)
  if ¬ (operation.transactionHash.any fun hash => sameHash returned hash) then
    let updated ← transitionUsage operation
      (unknown "rpc_returned_different_hash" "ambiguous_submission") TransitionExtra.none
    return .inl updated
  else
    let at' ← now
    let updated ← transitionUsage operation
      ⟨.submittedPending, false, "submission_accepted_hash_only", "transaction_hash_only"⟩
      { TransitionExtra.none with lastSubmissionAt := some at' }
    return .inr updated

def dispatchAndInspect (raw : Hex) : TransferProg OperationRecord := do
  let outcome ← Prog.handle (dispatch operation raw) fun _ =>
    (catchDispatch operation "submission_outcome_ambiguous").bind fun updated =>
      Prog.ret (.inl updated)
  match outcome with
  | .inl updated => return updated
  | .inr updated =>
    let observed ← observeReceipt updated
    return observed.1

def submitAndInspect (raw : Hex) (publicEffectProven : Bool) :
    TransferProg OperationRecord := do
  (if publicEffectProven then Prog.ret () else (publicEffect operation).bind fun _ => Prog.ret () :
    TransferProg Unit)
  let fenced ← fenceExists operation
  if fenced then
    let observed ← observeReceipt operation
    return observed.1
  else
    fence keccak operation raw
    dispatchAndInspect operation raw

/-- The identical signed bytes once more. -/
def redispatch (raw : Hex) : TransferProg OperationRecord := do
  let at' ← now
  Prog.handle
    (do
      let returned ← (run (.submitRaw raw) rfl : TransferProg Hex)
      if ¬ (operation.transactionHash.any fun hash => sameHash returned hash) then return operation
      else
        transitionUsage operation
          ⟨.submittedPending, false, "same_signed_bytes_redispatched", "transaction_hash_only"⟩
          { TransitionExtra.none with lastSubmissionAt := some at' })
    fun _ =>
      if operation.state = .unknownFinality then Prog.ret operation
      else do
        catches operation
        transitionUsage operation (unknown "redispatch_outcome_ambiguous" "ambiguous_submission")
          { TransitionExtra.none with lastSubmissionAt := some at' }

def settleUnlanded (observeOnly : Bool) :
    TransferProg OperationRecord := do
  let finalized : Bool ← ask .finalizedBatch
  if !finalized || operation.transactionHash.isNone then return operation
  else
    let check : Result NeverLandsCheck ← ask .neverLands
    match check with
    | .error _ => return operation
    | .ok check =>
      if check.neverLands then
        transitionUsage operation
          ⟨.failedProvenSuperseded, true, "frozen_nonce_finalized_by_another_transaction",
            "finalized_nonce_without_receipt"⟩ TransitionExtra.none
      else if check.receiptFound || check.transactionKnown || check.nonceFinalized || observeOnly then
        return operation
      else
        let raw ← signedRawTransaction keccak operation
        redispatch operation raw

/-! ## The calls -/

def failBeforeEffect (reason : String) : TransferProg Unit := do
  assertUnstarted operation
  let _ ← transitionUsage operation ⟨.failedBeforeEffect, true, reason, "durable_pre_effect_failure"⟩
    TransitionExtra.none
  Prog.fail ⟨.reprepareRequired,
    "Frozen transfer inputs changed before approval; prepare a new operation."⟩

/-- The reservation, before the native signing call; a refusal ends the operation before effect. -/
def reserveLease : TransferProg String :=
  Prog.handle
    (if operation.allowlist.isNone then
      Prog.fail ⟨.allowlistRefused,
        "This transfer was prepared before the owner allowlist gate; prepare a new transfer."⟩
    else run .reserveUsage rfl)
    fun e =>
      if e.code = .allowlistRefused then
        (transitionUsage operation ⟨.failedBeforeEffect, true, "allowlist_refused_at_approval",
          "durable_pre_effect_failure"⟩ TransitionExtra.none).bind fun _ => Prog.fail e
      else Prog.fail e

/-- Sign, and send what was signed. -/
def signAndSend : TransferProg OperationRecord := do
  let lease ← reserveLease operation
  let started ← transitionUsage operation
    ⟨.started, false, "foreground_signing_started", "durable_pre_effect"⟩
    { TransitionExtra.none with allowlistLease := some lease }
  let effect ← approveAndSign keccak
  verifyEffect keccak effect
  let signed ← transitionUsage started
    ⟨.signedNotSubmitted, false, "native_effect_material_bound", "native_transaction_hash"⟩
    { TransitionExtra.none with
      transactionHash := some effect.transactionHash
      rawTransactionHash := some effect.rawTransactionHash }
  submitAndInspect keccak signed effect.rawTransaction true

def checkTransferApproval : TransferProg Unit := do
  let reason ← (call .checkApproval rfl : TransferProg (Option String))
  match reason with
  | none => return ()
  | some reason => failBeforeEffect operation reason

def approveLocked : TransferProg Unit := do
  assertUnstarted operation
  let at' ← now
  (if operation.expiresAt ≤ at' then failBeforeEffect operation "approval_window_expired"
    else Prog.ret () : TransferProg Unit)
  (if operation.evm.any fun e => e.circleNativeAdmission then
      failBeforeEffect operation "circle_native_admission_retired"
    else Prog.ret () : TransferProg Unit)
  (call .ready rfl : TransferProg Unit)
  (if operation.evm.isNone then prepared operation else Prog.ret () : TransferProg Unit)
  checkTransferApproval operation
  let _ ← signAndSend keccak operation

def approve : TransferProg Unit := do
  let found ← requiredOperation
  if found.evm.any fun e => e.cleanup85Cancellation then
    lift (blocked "The historical cleanup85 native cancellation is read-only.")
  else
    let operation ← requiredOperation
    if operation.terminal then followUsage operation
    else if operation.state ≠ .awaitingApproval then
      lift (blocked (if operation.state = .started then
        "Operation approval already started and its signature is unresolved; use operation resume."
        else "Operation is already signed; use operation resume."))
    else if operation.evm.any fun e => !e.nativeCustody then
      Prog.fail ⟨.reprepareRequired,
        "Prepare a new generic transfer with a frozen native custody binding."⟩
    else approveLocked keccak operation

def noPrivateOutcome : TransitionInput :=
  ⟨.failedBeforeEffect, true, "native_approval_returned_before_private_entry",
    "durable_native_no_private_entry"⟩

/-- The ledger's own release: the outcome is persisted while the unchanged reservation is held. -/
def releaseDirectReserved : TransferProg OperationRecord := do
  let current ← readUsage
  if current ≠ some .reserved then
    lift (blocked "The exact no-private-entry reservation is no longer held unchanged.")
  else
    let updated ← transitionOnly operation noPrivateOutcome TransitionExtra.none
    moveUsage .failedBeforeEffect
    return updated

def settleNoPrivateEntry : TransferProg Unit := do
  let proven ← noPrivateEntry operation
  if !proven then return ()
  else
    let still ← noPrivateEntry operation
    if !still then lift (blocked "No-private-entry proof disappeared.")
    else
      (match operation.allowlistLease with
        | none =>
          (transitionUsage operation noPrivateOutcome TransitionExtra.none).bind fun _ => Prog.ret ()
        | some _ => (releaseDirectReserved operation).bind followUsage : TransferProg Unit)
      Prog.fail ⟨.reprepareRequired,
        "Native returned before private entry; prepare a new operation."⟩

/-- The signature the public journal holds for a started operation. -/
def bindSignature (hash : Hex) : TransferProg OperationRecord :=
  if operation.state = .started then
    transitionUsage operation
      ⟨.signedNotSubmitted, false, "same_public_signature_recovered",
        "public_native_transaction_hash"⟩
      { TransitionExtra.none with transactionHash := some hash, rawTransactionHash := some hash }
  else Prog.ret operation

/-- A signature that may have been dispatched is observed from now on. -/
def observeSigned : TransferProg OperationRecord :=
  if operation.state = .signedNotSubmitted then
    transitionUsage operation
      (unknown "signed_recovery_observation_only" "dispatch_history_ambiguous") TransitionExtra.none
  else Prog.ret operation

def resumeSigned (observeOnly : Bool) : TransferProg Unit := do
  let dispatched ← fenceExists operation
  if operation.state = .signedNotSubmitted ∧ ¬ dispatched ∧ ¬ observeOnly then
    let raw ← signedRawTransaction keccak operation
    let _ ← submitAndInspect keccak operation raw true
    return ()
  else
    (if operation.state = .signedNotSubmitted ∧ ¬ dispatched then
      observesUnfenced else Prog.ret () : TransferProg Unit)
    let watched ← observeSigned operation
    let observed ← observeReceipt watched
    if observed.2 = .absent then
      let _ ← settleUnlanded keccak observed.1 observeOnly
      return ()
    else return ()

def resumeLocked (observeOnly : Bool) : TransferProg Unit := do
  settleNoPrivateEntry operation
  let hash ← publicEffect operation
  let operation ← bindSignature operation hash
  if operation.transactionHash.isNone ∨ operation.rawTransactionHash.isNone then
    lift (corrupt "Signed operation lacks its public effect binding.")
  else resumeSigned keccak operation observeOnly

/-- What an observe-only recovery accepts. -/
def observable : Bool :=
  (operation.evm.isSome && operation.state = .signedNotSubmitted) ||
    operation.state = .submittedPending || operation.state = .unknownFinality ||
    (operation.terminal && operation.transactionHash.isSome)

def resume (observeOnly : Bool) : TransferProg Unit := do
  let found ← requiredOperation
  if found.evm.any fun e => e.cleanup85Cancellation then
    lift (blocked "The historical cleanup85 native cancellation is read-only.")
  else
    (call .ready rfl : TransferProg Unit)
    let operation ← requiredOperation
    if observeOnly ∧ ¬ observable operation then
      lift (invalid "Observation-only recovery requires an already submitted local direct transfer.")
    else if operation.terminal then followUsage operation
    else if operation.state = .awaitingApproval then
      lift (blocked "Operation still requires transfer approve.")
    else resumeLocked keccak operation observeOnly

/-- The blocker settle of a dispatched transfer: observed once, never dispatched. -/
def settleDispatched : TransferProg Unit := do
  let operation ← requiredOperation
  if operation.terminal then return ()
  else if (operation.state ≠ .submittedPending ∧ operation.state ≠ .unknownFinality) ∨
      operation.transactionHash.isNone ∨ operation.evm.any fun e => e.cleanup85Cancellation then
    lift (blocked "Only a dispatched local transfer is observed by the blocker settle.")
  else
    (call .ready rfl : TransferProg Unit)
    let observed ← observeReceipt operation
    if observed.2 = .absent then
      let _ ← settleUnlanded keccak observed.1 true
      return ()
    else return ()

/-- A signature that was never dispatched is closed and never sent. -/
def abandonUndispatched : TransferProg Unit := do
  let hash ← publicEffect operation
  (call .abandonApproval rfl : TransferProg Unit)
  let signed ← bindSignature operation hash
  let _ ← transitionUsage signed
    ⟨.abandonedUnknown, true, "owner_abandoned_undispatched_signature", "owner_acknowledgement_only"⟩
    TransitionExtra.none

def sentAbandon : TransitionInput :=
  ⟨.abandonedUnknown, true, localDirectSentAbandon, "owner_acknowledgement_only"⟩

/-- A dispatched one that no proof decided closes with its hold still charged. -/
def abandonDispatched : TransferProg Unit := do
  let at' ← now
  if at' < operation.expiresAt then
    lift (blocked "A dispatched local transfer can be abandoned only after its approval window.")
  else
    let configured : Bool ← ask .rpcConfigured
    let observed ← (if configured then
      (observeReceipt operation).bind fun observed => Prog.ret observed.1 else Prog.ret operation :
        TransferProg OperationRecord)
    if observed.terminal then return ()
    else
      (call .abandonApproval rfl : TransferProg Unit)
      let _ ← transitionUsage observed sentAbandon TransitionExtra.none

def abandonLocal : TransferProg Unit := do
  let operation ← requiredOperation
  if operation.state = .abandonedUnknown ∧ operation.terminal then return ()
  else
    let signed ← (if !operation.terminal && (operation.state = .started ||
        operation.state = .signedNotSubmitted) then
        readSigned.bind fun signed => Prog.ret signed.isSome
      else Prog.ret false : TransferProg Bool)
    let dispatched ← (if operation.terminal || operation.transactionHash.isNone then Prog.ret false
      else if operation.state = .submittedPending ∨ operation.state = .unknownFinality then Prog.ret true
      else if operation.state = .signedNotSubmitted then fenceExists operation
      else Prog.ret false : TransferProg Bool)
    let fenced ← (if signed && !dispatched then fenceExists operation else Prog.ret true :
      TransferProg Bool)
    if !fenced then abandonUndispatched operation
    else if !dispatched then
      lift (blocked "Only a local transfer APN signed, or dispatched without a decided outcome, can be abandoned; resume the others.")
    else abandonDispatched operation

/-- An expired prepare of the same account is ended before effect by the next prepare. -/
def retireExpired : TransferProg Unit := do
  let operation ← requiredOperation
  let at' ← now
  if operation.evm.isNone ∨ operation.terminal ∨ operation.state ≠ .awaitingApproval ∨
      at' < operation.expiresAt then
    return ()
  else
    let usage ← readUsage
    if operation.allowlistLease.isSome ∨ operation.transactionHash.isSome ∨
        operation.rawTransactionHash.isSome ∨ operation.lastSubmissionAt.isSome ∨
        operation.transitions.any (fun t => t.state ≠ .awaitingApproval) ∨ usage.isSome then
      lift (blocked "Expired direct transfer has durable effect or reservation evidence.")
    else
      assertUnstarted operation
      let _ ← transitionUsage operation
        ⟨.failedBeforeEffect, true, "approval_window_expired", "durable_pre_effect_failure"⟩
        TransitionExtra.none

/-- The record is written once, then its public claim. -/
def prepareOperation : TransferProg Unit := do
  let existing ← find
  if existing.isSome then return ()
  else
    (call .admitted rfl : TransferProg Unit)
    persist operation
    publicPrepare operation

end

end Keccak
end LocalDirect
end PaymentNode
