import PaymentNode.Lib.Trace
import PaymentNode.X402.Validation

/-!
# Lifecycle — the calls on one local x402 operation, as programs

`approve`, `resume` and the poll of a settlement wait.  Everything that reads or writes a file, the clock, the
seller, the RPC or the custody is an operation of its own; what the custody, the policies and the usage ledger
answer is asked as a question with any answer.  A settlement wait holds the operation's lock only inside each
poll, so a wait is a resume followed by polls, between which other calls may run.
-/

namespace PaymentNode

/-- What can be thrown, as far as the calls tell it apart. -/
inductive X402Failure
  | apn (e : ApnError)
  | nativeNotFound
  | nativeTransient
  | nativeExpired
  | rpcAmbiguous
  /-- A protocol, configuration or chain failure of the RPC. -/
  | rpcObservation
deriving DecidableEq, Repr

namespace X402Failure

/-- `isTransientNativeFailure(error) || isNativeExpired(error)` -/
def nativeRetryable : X402Failure → Bool
  | nativeTransient | nativeExpired => true
  | _ => false

/-- `isRecoverableX402RpcObservationFailure` -/
def rpcRecoverable : X402Failure → Bool
  | rpcAmbiguous | rpcObservation => true
  | _ => false

end X402Failure

/-- Signed payment material: its hashes, its delegated context and the header itself. -/
structure SealedMaterial where
  hashes : PaymentMaterialHashes
  contextHash : Option String
  paymentHeader : String
deriving DecidableEq, Repr

inductive ProviderAuthorization
  | pending
  | rejected
  | ambiguous
  | signed (material : SealedMaterial)
deriving DecidableEq, Repr

inductive MaterialKind
  | create
  | get
deriving DecidableEq, Repr

/-- An answer of the nonce read, with the block it was read at. -/
structure NonceRead where
  value : Bool
  block : BlockIdentity
  timestamp : ℕ
  blockTag : ProofTag
  rpcOrigin : String
deriving DecidableEq, Repr

/-- A log, by what the matchers say of it against the operation. -/
structure X402RpcLog where
  authorizationUsed : Bool
  permit2Settled : Bool
  transfer : Bool
deriving DecidableEq, Repr

structure X402RpcReceipt where
  transactionHash : String
  success : Bool
  block : BlockIdentity
  logs : List X402RpcLog
deriving DecidableEq, Repr

/-- The questions a call asks of everything but its own files, the seller, the clock and the nonce. -/
inductive X402Ask
  /-- `remainingWaitMs(deadline) < 1` -/
  | deadlineElapsed
  | reserveUsage
  | followUsage
  | networkPolicy
  | payeePolicy
  | delegatedPolicy
  | readPort
  | markExposed
  | native (kind : MaterialKind)
  | provider (kind : MaterialKind)
  | delegated (kind : MaterialKind)
  | head (tag : ProofTag)
  | block (number : ℕ)
  | expiryBound
  | noPayeeTransfer
deriving DecidableEq, Repr

def X402Ask.Answer : X402Ask → Type
  | deadlineElapsed => Bool
  | reserveUsage | followUsage | networkPolicy | payeePolicy | delegatedPolicy | readPort
  | markExposed => Except X402Failure Unit
  | native _ | delegated _ => Except X402Failure SealedMaterial
  | provider _ => Except X402Failure ProviderAuthorization
  | head _ | block _ => Except X402Failure TimedBlock
  | expiryBound => Option TimedBlock
  | noPayeeTransfer => Bool

inductive X402Op
  /-- The operation's lock is taken, and held to the end of the call. -/
  | lock
  /-- The record, looked up before the lock is taken. -/
  | required
  | load
  | writeOperation (next : X402Operation)
  | loadResult
  | loadRecoveryResult
  | writeResult (result : X402Result)
  | loadRecoveryReceipt
  | writeReceipt (receipt : X402Receipt)
  | now
  | sendPaid (purpose : AttemptPurpose) (paymentSignature : String)
  | assertChain
  | nonceState (tag : ProofTag)
  | rpcReceipt (transactionHash : String)
  | ask (q : X402Ask)

def X402Op.Answer : X402Op → Type
  | lock | writeOperation _ | writeResult _ | writeReceipt _ => Except X402Failure Unit
  | required => Except X402Failure X402Operation
  | load => Except X402Failure (Option X402Operation)
  | loadResult | loadRecoveryResult => Except X402Failure (Option X402Result)
  | loadRecoveryReceipt => Except X402Failure (Option X402Receipt)
  | now => ℤ
  | sendPaid _ _ => Option PaidResponse
  | assertChain => Except X402Failure String
  | nonceState _ => Except X402Failure NonceRead
  | rpcReceipt _ => Except X402Failure (Option X402RpcReceipt)
  | ask q => q.Answer

abbrev X402Prog (α : Type) := Prog X402Op X402Op.Answer X402Failure α

namespace X402Prog

variable {α : Type}

/-- A refusal of the code itself. -/
def refuse : Result α → X402Prog α
  | .ok a => .ret a
  | .error e => .fail (.apn e)

def run (o : X402Op) (h : o.Answer = Except X402Failure α) : X402Prog α := Prog.run o h

def ask (q : X402Ask) : X402Prog q.Answer := Prog.perform (X402Op.ask q)

/-- A question whose failure is thrown. -/
def call (q : X402Ask) (h : q.Answer = Except X402Failure α) : X402Prog α := run (.ask q) h

def now : X402Prog ℤ := Prog.perform X402Op.now
def sendPaid (purpose : AttemptPurpose) (paymentSignature : String) : X402Prog (Option PaidResponse) :=
  Prog.perform (X402Op.sendPaid purpose paymentSignature)
def load : X402Prog (Option X402Operation) := run .load rfl
def writeOperation (next : X402Operation) : X402Prog Unit := run (.writeOperation next) rfl
def loadResult : X402Prog (Option X402Result) := run .loadResult rfl
def loadRecoveryResult : X402Prog (Option X402Result) := run .loadRecoveryResult rfl
def writeResult (result : X402Result) : X402Prog Unit := run (.writeResult result) rfl
def loadRecoveryReceipt : X402Prog (Option X402Receipt) := run .loadRecoveryReceipt rfl
def writeReceipt (receipt : X402Receipt) : X402Prog Unit := run (.writeReceipt receipt) rfl
def assertChain : X402Prog String := run .assertChain rfl
def nonceState (tag : ProofTag) : X402Prog NonceRead := run (.nonceState tag) rfl
def rpcReceipt (hash : String) : X402Prog (Option X402RpcReceipt) := run (.rpcReceipt hash) rfl

end X402Prog

open X402Prog

namespace X402

/-! ## The journal -/

/-- The states `transition` can write. -/
def transitional : X402State → Bool
  | .authorizationMaterialPending | .authorizedNotSent | .paidRequestPending | .settlementPending
  | .effectUnknown | .sellerResultRecoveryPending => true
  | _ => false

/-- `transition`: one more transition, and the changes that go with it. -/
def transition (operation : X402Operation) (state : X402State)
    (additions : X402Operation → X402Operation) : X402Prog X402Operation := do
  let at' ← now
  if !transitional state then refuse (.error ⟨.other, "Unsupported x402 transition requested."⟩)
  else
    let next := additions (operation.append at' state)
    writeOperation next
    return next

variable (operation : X402Operation)

def commitTerminalOperation (terminalState : X402State)
    (receipt : X402Receipt) (at' : ℤ) : X402Prog X402Operation := do
  let terminal : X402Operation :=
    { operation.append at' terminalState with receiptLink := some receipt }
  writeOperation terminal
  return terminal

/-- The receipt that ends an operation. -/
def sealReceipt (terminalState : X402State)
    (result : Option X402Result) (at' : ℤ) : X402Receipt :=
  { terminalState := terminalState
    binding := operation.frozen
    settlementResponse := operation.settlementResponse.map SettlementResponseObservation.normalized
    settlementEvidence := operation.settlementEvidence
    unusedExpiryEvidence := operation.unusedExpiryEvidence
    result := result
    previousLink := operation.transitions
    createdAt := at' }

/-- The result that the operation links. -/
def linkedResult : X402Prog (Option X402Result) :=
  if operation.resultLink.isNone then Prog.ret none
  else do
    let result ← loadResult
    if result.isNone then refuse (corrupt "Terminal x402 result link is dangling.")
    else return result

def commitTerminal (terminalState : X402State) :
    X402Prog X402Operation := do
  let orphan ← loadRecoveryReceipt
  match orphan with
  | some receipt =>
    if receipt.terminalState ≠ terminalState then
      refuse (corrupt "Orphan x402 receipt has a conflicting terminal state.")
    else commitTerminalOperation operation terminalState receipt receipt.createdAt
  | none => do
    let result ← linkedResult operation
    let at' ← now
    let receipt := sealReceipt operation terminalState result at'
    writeReceipt receipt
    commitTerminalOperation operation terminalState receipt at'

def recoverOrphanReceipt : X402Prog (Option X402Operation) := do
  let receipt ← loadRecoveryReceipt
  match receipt with
  | none => return none
  | some receipt =>
    (commitTerminalOperation operation receipt.terminalState receipt receipt.createdAt).bind
      fun terminal => Prog.ret (some terminal)

/-! ## Paid attempts and their result -/

def purposeState : AttemptPurpose → X402State
  | .payment => .paidRequestPending
  | .resultRecovery => .sellerResultRecoveryPending

variable (purpose : AttemptPurpose)

def beginPaidAttempt :
    X402Prog X402Operation := do
  if purpose = .resultRecovery ∧ operation.recoveryAttempt.isSome then
    refuse (corrupt "A second x402 result recovery attempt is forbidden.")
  else
    let at' ← now
    let attempt : X402Attempt :=
      ⟨operation.attempts.length + 1, purpose, .pending, operation.paymentHeaderHash, at', none⟩
    transition operation (purposeState purpose) fun o =>
      { o with attempts := operation.attempts ++ [attempt] }

/-- The last attempt, finished. -/
def finishAttempts (attempts : List X402Attempt) (phase : AttemptPhase)
    (observation : Option X402HttpObservation) : List X402Attempt :=
  match attempts.getLast? with
  | none => []
  | some last =>
    attempts.dropLast ++ [{ last with phase := phase, observation := observation <|> last.observation }]

def finishPaidAttempt (phase : AttemptPhase)
    (observation : Option X402HttpObservation) (state : X402State)
    (additions : X402Operation → X402Operation) : X402Prog X402Operation :=
  if ¬ operation.lastAttempt.any fun a => a.phase = .pending then
    refuse (corrupt "Paid attempt marker is missing.")
  else
    transition operation state fun o =>
      additions { o with attempts := finishAttempts operation.attempts phase observation }

def markInterruptedPaidAttempt (state : X402State) :
    X402Prog X402Operation :=
  finishPaidAttempt operation .ambiguous none state id

def linkResult (result : X402Result) (o : X402Operation) : X402Operation :=
  { o with resultLink := some ⟨result.resultHash, result⟩ }

def sealResult (result : PaidResult) (createdAt : ℤ) : X402Result :=
  ⟨result.mediaType, result.base64, result.resultHash, result.byteLength, result.responseStatus,
    createdAt⟩

def persistAndLinkResult (result : PaidResult) (createdAt : ℤ) :
    X402Prog X402Operation := do
  let candidate := sealResult result createdAt
  let existing ← loadRecoveryResult
  if existing.any fun e => e ≠ candidate then
    refuse (corrupt "Recovered x402 result differs from the observed response.")
  else
    (if existing.isNone then writeResult candidate else Prog.ret () : X402Prog Unit)
    transition operation operation.state (linkResult (existing.getD candidate))

/-- The attempt observed exactly this result. -/
def observedResult (result : X402Result) (a : X402Attempt) : Bool :=
  a.phase = .observed && a.observation.any fun observation =>
    observation.status = result.responseStatus && observation.bodyHash = result.resultHash &&
    observation.bodyByteLength = result.byteLength && observation.mediaType = some result.mediaType

def recoverOrphanResult : X402Prog X402Operation :=
  if operation.resultLink.isSome then Prog.ret operation
  else do
    let result ← loadRecoveryResult
    match result with
    | none => return operation
    | some result =>
      if ¬ operation.resultAttempt.any (observedResult result) then
        refuse (corrupt "Recovered x402 result lacks its designated successful response.")
      else transition operation operation.state (linkResult result)

/-- A transaction the seller names against the one the evidence names. -/
def settlementContradicted : Bool :=
  operation.settlementResponse.any fun response => operation.settlementEvidence.any fun evidence =>
    evidence.transactionHash.isSome && some response.normalized.transaction ≠ evidence.transactionHash

def finishReconciledEvidence : X402Prog X402Operation :=
  if operation.unusedExpiryEvidence.isSome then commitTerminal operation .failedExpiredUnused
  else if operation.settlementEvidence.isNone then Prog.ret operation
  else if settlementContradicted operation then Prog.ret operation
  else if operation.resultLink.isSome then commitTerminal operation .completed
  else if operation.frozen.paymentIdentifier.isSome ∧ operation.recoveryAttempt.isNone then
    if operation.state = .sellerResultRecoveryPending then Prog.ret operation
    else transition operation .sellerResultRecoveryPending id
  else if operation.frozen.paymentIdentifier.isSome ∧
      operation.recoveryAttempt.any fun a => a.phase = .pending then Prog.ret operation
  else commitTerminal operation .failedSettledWithoutResult

/-! ## The chain -/

/-- `readX402UnusedExpiryEvidence` -/
def readUnusedExpiryEvidence :
    X402Prog (Option StateUnusedExpiryEvidence) :=
  if operation.frozen.method = .erc7710 then Prog.ret none
  else do
    let origin ← assertChain
    let state ← nonceState .finalized
    if state.value ∨ state.blockTag ≠ .finalized ∨ state.rpcOrigin ≠ origin ∨
        !x402ExpiredAt operation.frozen.method state.timestamp operation.frozen.validBefore then
      return none
    else
      return some ⟨operation.frozen.validBefore, ⟨state.block, state.timestamp⟩, state.block⟩

/-- `matchingTransaction`: the hinted transaction, when its receipt matches. -/
def matchingTransaction (safeNumber : ℕ) :
    X402Prog (Option EvidenceTransaction) :=
  match operation.transactionHint with
  | none => Prog.ret none
  | some hint => do
    let receipt ← rpcReceipt hint.transactionHash
    match receipt with
    | none => return none
    | some receipt =>
      let settled := receipt.logs.countP fun log =>
        if operation.frozen.method = .permit2 then log.permit2Settled else log.authorizationUsed
      if !receipt.success ∨ receipt.transactionHash ≠ hint.transactionHash ∨
          safeNumber < receipt.block.number ∨ settled ≠ 1 ∨
          receipt.logs.countP X402RpcLog.transfer ≠ 1 then return none
      else return some ⟨hint.transactionHash, receipt.block⟩

/-- The reconciler's `persist`: the evidence is written with its transition. -/
def persistEvidence (state : X402State)
    (additions : X402Operation → X402Operation) : X402Prog X402Operation := do
  let at' ← now
  let next := additions (operation.append at' state)
  writeOperation next
  return next

/-- The proof block or the clock has not passed the authorization's last second. -/
def stillOpen (blockTimestamp : ℕ) (nowSeconds : ℤ) : Bool :=
  if operation.frozen.method = .permit2 then
    blockTimestamp ≤ operation.frozen.validBefore || nowSeconds ≤ operation.frozen.validBefore
  else blockTimestamp < operation.frozen.validBefore && nowSeconds < operation.frozen.validBefore

def withSettlement (evidence : SettlementEvidence) (o : X402Operation) : X402Operation :=
  { o with settlementEvidence := some evidence }

def withUnused (evidence : UnusedExpiryEvidence) (o : X402Operation) : X402Operation :=
  { o with unusedExpiryEvidence := some evidence }

/-- A used nonce with no attempt means the signed header reached the chain without being sent. -/
def settledState (state : X402State) : X402State :=
  if state = .authorizedNotSent then .effectUnknown else state

/-- `X402RpcReconciler.reconcile`, with whether it read the nonce unused at the proof block. -/
def reconcileNonce (input : X402Operation) : X402Prog (X402Operation × Bool) :=
  if input.unusedExpiryEvidence.isSome ∨ input.settlementEvidence.isSome then Prog.ret (input, false)
  else do
    let _ ← assertChain
    let state ← nonceState input.frozen.proofTag
    if state.blockTag ≠ input.frozen.proofTag ∨ state.block.number < input.frozen.preparedBlock.number then
      return (input, false)
    else if state.value then
      let transaction ← matchingTransaction input state.block.number
      let evidence : StateSettlementEvidence :=
        ⟨state.block, state.block, input.frozen.proofTag, transaction⟩
      let next ← persistEvidence input (settledState input.state) (withSettlement (.state evidence))
      return (next, false)
    else
      let at' ← now
      if stillOpen input state.timestamp (unixSeconds at') then return (input, true)
      else
        let unused ← readUnusedExpiryEvidence input
        match unused with
        | none => return (input, true)
        | some evidence =>
          (persistEvidence input input.state (withUnused (.state evidence))).bind
            fun next => Prog.ret (next, true)

/-- A question whose failure reads as no answer. -/
def optional {α : Type} (x : X402Prog α) : X402Prog (Option α) :=
  (x.bind fun a => Prog.ret (some a)).handle fun _ => Prog.ret none

def canProveExpiredUnused : Bool :=
  operation.state = .effectUnknown && operation.transactionHint.isNone &&
  operation.settlementResponse.isNone && operation.settlementEvidence.isNone &&
  operation.material.isSome && operation.paymentContextHash.isSome &&
  operation.attempts.any fun a => a.purpose = .payment && a.phase ≠ .pending

/-- `reconcileExpiredUnused`; the search of the bound and the scan of the transfers are questions. -/
def reconcileExpiredUnused : X402Prog X402Operation := do
  let finalized ← optional (call (.head .finalized) rfl : X402Prog TimedBlock)
  match finalized with
  | none => return operation
  | some finalized =>
    if finalized.timestamp < operation.frozen.validBefore ∨
        finalized.identity.number < operation.frozen.preparedBlock.number then return operation
    else
      let start ← optional (call (.block operation.frozen.preparedBlock.number) rfl : X402Prog TimedBlock)
      match start with
      | none => return operation
      | some start =>
        if start.identity ≠ operation.frozen.preparedBlock ∨
            operation.frozen.validBefore ≤ start.timestamp then return operation
        else
          let bound : Option TimedBlock ← ask .expiryBound
          match bound with
          | none => return operation
          | some bound => do
            let clear : Bool ← ask .noPayeeTransfer
            if !clear then return operation
            else
              persistEvidence operation operation.state
                (withUnused (.erc7710 ⟨operation.frozen.validBefore, bound, finalized⟩))

/-- `X402Erc7710RpcReconciler.reconcile` -/
def reconcileErc7710 : X402Prog X402Operation :=
  if operation.settlementEvidence.isSome ∨ operation.unusedExpiryEvidence.isSome ∨
      !operation.frozen.delegatedMaterial then Prog.ret operation
  else do
    let _ ← assertChain
    if canProveExpiredUnused operation then reconcileExpiredUnused operation
    else match operation.transactionHint, operation.settlementResponse with
      | some hint, some response =>
        if operation.material.isNone ∨ operation.paymentContextHash.isNone then return operation
        else
          let safe ← (call (.head .safe) rfl : X402Prog TimedBlock)
          let receipt ← optional (rpcReceipt hint.transactionHash)
          match receipt with
          | none | some none => return operation
          | some (some receipt) =>
            if !receipt.success ∨ receipt.transactionHash ≠ hint.transactionHash ∨
                safe.identity.number < receipt.block.number then return operation
            else
              let block ← optional (call (.block receipt.block.number) rfl : X402Prog TimedBlock)
              match block with
              | none => return operation
              | some block =>
                if block.identity ≠ receipt.block ∨ receipt.logs.countP X402RpcLog.transfer ≠ 1 then
                  return operation
                else
                  persistEvidence operation operation.state
                    (withSettlement (.erc7710
                      ⟨hint.transactionHash, safe.identity, block.identity, response.normalized⟩))
      | _, _ => return operation

/-- `reconcileX402Method` -/
def reconcileMethod : X402Prog (X402Operation × Bool) :=
  if operation.frozen.method = .erc7710 then
    (reconcileErc7710 operation).bind fun next => Prog.ret (next, false)
  else reconcileNonce operation

def authorizationExpired : X402Prog Bool :=
  now.bind fun at' => Prog.ret (operation.frozen.validBefore ≤ unixSeconds at')

/-- A never exposed authorization closes once the chain proves it expired unused. -/
def closeExpiredUnexposed : X402Prog (Option X402Operation) :=
  if operation.attempts ≠ [] ∨ operation.frozen.method = .erc7710 ∨
      (operation.state ≠ .authorizationMaterialPending ∧ operation.state ≠ .authorizedNotSent) then
    Prog.ret none
  else do
    let expired ← authorizationExpired operation
    if !expired then return none
    else if operation.unusedExpiryEvidence.isSome then
      (finishReconciledEvidence operation).bind fun closed => Prog.ret (some closed)
    else
      call .readPort rfl
      let evidence ← (readUnusedExpiryEvidence operation).handle fun e =>
        if e.rpcRecoverable then Prog.ret none else Prog.fail e
      match evidence with
      | none => return none
      | some evidence => do
        let next ← transition operation operation.state (withUnused (.state evidence))
        let closed ← finishReconciledEvidence next
        return some closed

/-! ## The authorization -/

def withMaterial (hashes : PaymentMaterialHashes) (contextHash : Option String) (o : X402Operation) :
    X402Operation :=
  { o with material := some hashes, paymentContextHash := contextHash <|> o.paymentContextHash }

/-- Without an attempt, what cannot be signed any more ends with no effect or waits for the chain. -/
def completeExpired : X402Prog Unit :=
  if operation.frozen.providerSigner ∨ operation.frozen.delegatedMaterial then
    (commitTerminal operation .failedBeforeEffect).bind fun _ => Prog.ret ()
  else (closeExpiredUnexposed operation).bind fun _ => Prog.ret ()

def completeNative (kind : MaterialKind) : X402Prog Unit :=
  Prog.handle
    (do
      let verified ← (call (.native kind) rfl : X402Prog SealedMaterial)
      let _ ← transition operation .authorizedNotSent (withMaterial verified.hashes none)
      return ())
    fun e =>
      if kind = .get ∧ e = .nativeNotFound then
        (transition operation .authorizationMaterialPending id).bind fun _ => Prog.ret ()
      else if e.nativeRetryable then Prog.ret ()
      else Prog.fail e

def completeAuthorization (kind : MaterialKind) : X402Prog Unit := do
  let expired ← authorizationExpired operation
  if expired then completeExpired operation
  else
    call .networkPolicy rfl
    call .payeePolicy rfl
    if operation.frozen.delegatedMaterial then
      call .delegatedPolicy rfl
      let material ← (call (.delegated kind) rfl : X402Prog SealedMaterial)
      let _ ← transition operation .authorizedNotSent (withMaterial material.hashes material.contextHash)
      return ()
    else if operation.frozen.providerSigner then
      let outcome ← (call (.provider kind) rfl : X402Prog ProviderAuthorization)
      match outcome with
      | .pending => return ()
      | .rejected | .ambiguous =>
        (commitTerminal operation .failedBeforeEffect).bind fun _ => Prog.ret ()
      | .signed material =>
        (transition operation .authorizedNotSent (withMaterial material.hashes none)).bind
          fun _ => Prog.ret ()
    else completeNative operation kind

/-- The recovered material carries the recorded hashes. -/
def checkMaterial (material : SealedMaterial) (message : String) :
    X402Prog SealedMaterial :=
  if some material.hashes ≠ operation.material then refuse (corrupt message) else Prog.ret material

def recoverNative : X402Prog (Option SealedMaterial) :=
  Prog.handle
    (do
      let verified ← (call (.native .get) rfl : X402Prog SealedMaterial)
      let material ← checkMaterial operation verified
        "Recovered x402 payment material differs from durable hashes."
      return some material)
    fun e => if e.nativeRetryable then Prog.ret none else Prog.fail e

def recoverPaymentMaterial : X402Prog (Option SealedMaterial) :=
  if operation.frozen.delegatedMaterial then do
    (if operation.attempts = [] then call .delegatedPolicy rfl else Prog.ret () : X402Prog Unit)
    let verified ← (call (.delegated .get) rfl : X402Prog SealedMaterial)
    if verified.contextHash ≠ operation.paymentContextHash then
      refuse (corrupt "Recovered delegated x402 material differs from durable hashes.")
    else
      let material ← checkMaterial operation verified
        "Recovered delegated x402 material differs from durable hashes."
      return some material
  else if operation.frozen.providerSigner then do
    let outcome ← (call (.provider .get) rfl : X402Prog ProviderAuthorization)
    match outcome with
    | .signed verified =>
      (checkMaterial operation verified
        "Recovered provider x402 material differs from durable hashes.").bind
          fun material => Prog.ret (some material)
    | _ => refuse (corrupt "Authorized provider x402 operation lost its signed material.")
  else recoverNative operation

/-! ## The paid request -/

/-- `requestTimeoutMs() !== undefined`: some of the authorization's time and of the caller's is left. -/
def timeLeft (deadline : Bool) : X402Prog Bool := do
  let at' ← now
  if operation.frozen.validBefore * 1000 - at' < 1000 then return false
  else if !deadline then return true
  else
    let elapsed : Bool ← ask .deadlineElapsed
    return !elapsed

/-- The state of an attempt that ended without a usable answer. -/
def unansweredState : AttemptPurpose → X402State
  | .payment => .effectUnknown
  | .resultRecovery => .sellerResultRecoveryPending

/-- A result recovery over settled evidence ends the operation. -/
def endRecovery (terminalize : Bool) (observed : X402Operation) :
    X402Prog Unit :=
  if purpose = .resultRecovery ∧ terminalize ∧ observed.settlementEvidence.isSome then
    (commitTerminal observed .failedSettledWithoutResult).bind fun _ => Prog.ret ()
  else Prog.ret ()

/-- The request threw, or its response was refused. -/
def paidAmbiguous (pending : X402Operation) (purpose : AttemptPurpose) (terminalize : Bool) :
    X402Prog Unit := do
  let observed ← finishPaidAttempt pending .ambiguous none (unansweredState purpose) id
  endRecovery purpose terminalize observed

/-- No usable PAYMENT-RESPONSE: the body is still the purchase, and the chain alone proves the payment. -/
def paidWithoutSettlement (pending : X402Operation) (purpose : AttemptPurpose) (terminalize : Bool)
    (paid : PaidHttpResult) : X402Prog Unit := do
  let observed ← finishPaidAttempt pending .observed (some paid.observation) (unansweredState purpose) id
  let kept ← (match paid.result with
    | some result =>
      if observed.settlementResponse.isNone then
        persistAndLinkResult observed result paid.observation.observedAt
      else Prog.ret observed
    | none => Prog.ret observed : X402Prog X402Operation)
  if purpose = .resultRecovery ∧ terminalize ∧ kept.settlementEvidence.isSome then
    if kept.resultLink.isNone then
      (commitTerminal kept .failedSettledWithoutResult).bind fun _ => Prog.ret ()
    else (finishReconciledEvidence kept).bind fun _ => Prog.ret ()
  else return ()

def responseOf (decoded : DecodedPaymentResponse) (observation : X402HttpObservation) :
    SettlementResponseObservation :=
  ⟨decoded.classification, decoded.normalized, decoded.paymentResponseHeaderHash,
    observation.attemptNumber, observation.observedAt⟩

def hintOf (decoded : DecodedPaymentResponse) (observation : X402HttpObservation) : TransactionHint :=
  ⟨decoded.transactionHash, decoded.normalized, observation.observedAt⟩

def withResponse (response : SettlementResponseObservation) (o : X402Operation) : X402Operation :=
  { o with settlementResponse := some response }

def withAnswer (response : SettlementResponseObservation) (hint : TransactionHint) (o : X402Operation) :
    X402Operation :=
  { o with settlementResponse := some response, transactionHint := some hint }

/-- The answer names another transaction than the one recorded. -/
def conflictingHint (transactionHash : String) :
    Bool :=
  (operation.transactionHint.any fun hint => hint.transactionHash ≠ transactionHash) ||
    (purpose = .resultRecovery && operation.settlementEvidence.any fun evidence =>
      evidence.transactionHash.isSome && some transactionHash ≠ evidence.transactionHash)

/-- The state of a paid attempt whose answer names its transaction. -/
def answeredState : AttemptPurpose → X402State
  | .payment => .settlementPending
  | .resultRecovery => .sellerResultRecoveryPending

/-- A usable PAYMENT-RESPONSE, with or without the purchased body. -/
def paidSettled (operation pending : X402Operation) (purpose : AttemptPurpose) (terminalize : Bool)
    (paid : PaidHttpResult) (decoded : DecodedPaymentResponse) : X402Prog Unit :=
  let response := responseOf decoded paid.observation
  let hint := hintOf decoded paid.observation
  let delivered := if deliversX402Result decoded.classification then paid.result else none
  if conflictingHint operation purpose decoded.transactionHash then
    (finishPaidAttempt pending .observed (some paid.observation) .effectUnknown
      (if operation.settlementResponse.isNone then withResponse response else id)).bind
        fun _ => Prog.ret ()
  else if purpose = .resultRecovery ∧ delivered.isNone then do
    let observed ← finishPaidAttempt pending .observed (some paid.observation)
      .sellerResultRecoveryPending (if terminalize then withAnswer response hint else id)
    endRecovery purpose terminalize observed
  else do
    let observed ← finishPaidAttempt pending .observed (some paid.observation) (answeredState purpose)
      (withAnswer response hint)
    match delivered with
    | none => return ()
    | some result =>
      let linked ← persistAndLinkResult observed result paid.observation.observedAt
      if terminalize then (finishReconciledEvidence linked).bind fun _ => Prog.ret ()
      else return ()

/-- What a seller's answer leaves of a pending attempt. -/
def settlePaid (operation pending : X402Operation) (purpose : AttemptPurpose) (terminalize : Bool)
    (raw : Option PaidResponse) : X402Prog Unit :=
  match raw.bind fun raw =>
      observePaidX402Response raw operation.frozen pending.attempts.length purpose with
  | none => paidAmbiguous pending purpose terminalize
  | some paid =>
    match paid.paymentResponse.bind (decodePaymentResponse operation.frozen) with
    | none => paidWithoutSettlement pending purpose terminalize paid
    | some decoded => paidSettled operation pending purpose terminalize paid decoded

/-- The request itself, when there is time for it. -/
def requestPaid (paymentHeader : String)
    (deadline : Bool) : X402Prog (Option PaidResponse) := do
  let time ← timeLeft operation deadline
  if !time then return none else sendPaid purpose paymentHeader

def sendPending (verified : SealedMaterial)
    (terminalize deadline : Bool) : X402Prog Unit := do
  let time ← timeLeft operation deadline
  if !time then return ()
  else
    let pending ← beginPaidAttempt operation purpose
    (if operation.frozen.delegatedMaterial then call .markExposed rfl else Prog.ret () : X402Prog Unit)
    let raw ← requestPaid operation purpose verified.paymentHeader deadline
    settlePaid operation pending purpose terminalize raw

def sendPaidRequest (verified : SealedMaterial)
    (terminalize deadline : Bool) : X402Prog Unit :=
  if 64 ≤ operation.attempts.length then Prog.ret ()
  else do
    (if purpose = .payment ∧ operation.attemptsOf .payment = [] then
        (call .networkPolicy rfl : X402Prog Unit).bind fun _ => call .payeePolicy rfl
      else Prog.ret () : X402Prog Unit)
    (sendPending operation purpose verified terminalize deadline).handle fun e =>
      if e.nativeRetryable then Prog.ret () else Prog.fail e

/-! ## The calls -/

def notFound : X402Failure := .apn ⟨.other, "Operation was not found."⟩

/-- The record as the lock finds it, then the callback, then the usage ledger follows. -/
def withOperationLock (callback : X402Operation → X402Prog Unit) : X402Prog Unit := do
  run .lock rfl
  let current ← load
  match current with
  | none => Prog.fail notFound
  | some current =>
    callback current
    call .followUsage rfl

def approveCurrent (current : X402Operation) : X402Prog Unit :=
  if current.terminal then Prog.ret ()
  else if current.state ≠ .awaitingApproval then
    refuse (blocked "x402 operation is already authorized; use operation resume.")
  else do
    let expired ← authorizationExpired current
    if expired then (commitTerminal current .failedBeforeEffect).bind fun _ => Prog.ret ()
    else
      call .payeePolicy rfl
      call .reserveUsage rfl
      let pending ← transition current .authorizationMaterialPending id
      completeAuthorization pending .create

def approve : X402Prog Unit := do
  let found ← (run .required rfl : X402Prog X402Operation)
  if found.terminal then return () else withOperationLock approveCurrent

/-- What an attempt that was never finished is re-marked as. -/
def markInterrupted (current : X402Operation) : X402Prog X402Operation :=
  if current.state = .paidRequestPending then markInterruptedPaidAttempt current .effectUnknown
  else if current.state = .sellerResultRecoveryPending ∧
      current.lastAttempt.any fun a => a.purpose = .resultRecovery && a.phase = .pending then
    markInterruptedPaidAttempt current .sellerResultRecoveryPending
  else Prog.ret current

/-- The last seconds of a wait end before the read. -/
def outOfTime (deadline : Bool) : X402Prog Bool :=
  if deadline then ask .deadlineElapsed else Prog.ret false

/-- The first send of an authorization. -/
def sendFirst (unusedAtSafe deadline : Bool) : X402Prog Unit := do
  let expired ← (if operation.frozen.method = .erc7710 then authorizationExpired operation
    else Prog.ret false : X402Prog Bool)
  if expired then (commitTerminal operation .failedBeforeEffect).bind fun _ => Prog.ret ()
  else if operation.frozen.method ≠ .erc7710 ∧ !unusedAtSafe then return ()
  else
    let verified ← recoverPaymentMaterial operation
    match verified with
    | none => return ()
    | some verified => sendPaidRequest operation .payment verified false deadline

def recoverSellerResult (deadline : Bool) : X402Prog Unit :=
  if operation.resultLink.isSome then
    (finishReconciledEvidence operation).bind fun _ => Prog.ret ()
  else do
    let expired ← authorizationExpired operation
    if expired ∧ operation.settlementEvidence.isSome then
      (commitTerminal operation .failedSettledWithoutResult).bind fun _ => Prog.ret ()
    else if operation.recoveryAttempt.any fun a => a.phase = .pending then return ()
    else if operation.recoveryAttempt.isSome then
      (commitTerminal operation .failedSettledWithoutResult).bind fun _ => Prog.ret ()
    else
      let verified ← recoverPaymentMaterial operation
      match verified with
      | none => return ()
      | some verified => sendPaidRequest operation .resultRecovery verified true deadline

/-- One resend of the same header, after an ambiguous attempt, while the nonce reads unused. -/
def mayResend (unusedAtSafe : Bool) : Bool :=
  operation.frozen.method ≠ .erc7710 && operation.transactionHint.isNone &&
  operation.settlementResponse.isNone && operation.settlementEvidence.isNone &&
  operation.unusedExpiryEvidence.isNone && operation.resultLink.isNone && unusedAtSafe &&
  (operation.attemptsOf .payment).length = 1 && operation.attempts.length = 1 &&
  operation.state = .effectUnknown

def resend (deadline : Bool) : X402Prog Unit := do
  let verified ← recoverPaymentMaterial operation
  match verified with
  | none => return ()
  | some verified => sendPaidRequest operation .payment verified true deadline

/-- What a resume does once the chain was read. -/
def proceed (unusedAtSafe deadline : Bool) : X402Prog Unit :=
  if operation.state = .authorizedNotSent then sendFirst operation unusedAtSafe deadline
  else if operation.state = .sellerResultRecoveryPending then recoverSellerResult operation deadline
  else if mayResend operation unusedAtSafe then resend operation deadline
  else Prog.ret ()

/-- A failed observation of the chain ends the resume with the durable record. -/
def reconcileOrReload : X402Prog (Option (X402Operation × Bool)) :=
  Prog.handle ((reconcileMethod operation).bind fun reconciled => Prog.ret (some reconciled)) fun e =>
    if e.rpcRecoverable then
      load.bind fun durable =>
        match durable with
        | none => refuse (corrupt "Durable x402 operation disappeared during RPC recovery.")
        | some _ => Prog.ret none
    else Prog.fail e

def resumeObserved (deadline : Bool) : X402Prog Unit := do
  let closed ← closeExpiredUnexposed operation
  if closed.isSome then return ()
  else
    let late ← outOfTime deadline
    if late then return ()
    else
      call .readPort rfl
      let reconciled ← reconcileOrReload operation
      match reconciled with
      | none => return ()
      | some (operation, unusedAtSafe) =>
        let operation ← finishReconciledEvidence operation
        if operation.terminal then return () else proceed operation unusedAtSafe deadline

def resumeCurrent (deadline : Bool) (current : X402Operation) : X402Prog Unit :=
  if current.terminal then Prog.ret ()
  else do
    let recovered ← recoverOrphanReceipt current
    if recovered.isSome then return ()
    else if current.state = .awaitingApproval then
      refuse (blocked "x402 operation still requires explicit fetch approve.")
    else if current.state = .authorizationMaterialPending then
      let pendingCount := current.transitions.countP fun t => t.state = .authorizationMaterialPending
      completeAuthorization current (if pendingCount = 1 then .get else .create)
    else
      let operation ← markInterrupted current
      let operation ← recoverOrphanResult operation
      let operation ← finishReconciledEvidence operation
      if operation.terminal then return () else resumeObserved operation deadline

/-- The start of a settlement wait: the record is past its approval and the endpoint proves its chain. -/
def beginWait (found : X402Operation) : X402Prog Bool :=
  if found.state = .awaitingApproval ∨ found.state = .authorizationMaterialPending then
    refuse (blocked "Settlement wait requires an authorized or post-exposure x402 operation.")
  else do
    let late : Bool ← ask .deadlineElapsed
    if late then return false
    else
      call .readPort rfl
      let _ ← assertChain
      return true

/-- `resume`, up to the polls of its wait. -/
def resume (deadline : Bool) : X402Prog Unit := do
  let found ← (run .required rfl : X402Prog X402Operation)
  let goes ← (if deadline then beginWait found else Prog.ret true : X402Prog Bool)
  if !goes ∨ found.terminal then return ()
  else withOperationLock (resumeCurrent deadline)

def isPostExposureWaitState : Bool :=
  (operation.attempts.any fun a => a.purpose = .payment) &&
    (operation.state = .paidRequestPending || operation.state = .settlementPending ||
      operation.state = .effectUnknown || operation.state = .sellerResultRecoveryPending)

/-- An ambiguous read ends the poll. -/
def observeOnly : X402Prog Unit :=
  Prog.handle
    (do
      let reconciled ← reconcileMethod operation
      let _ ← finishReconciledEvidence reconciled.1
      return ())
    fun e => if e = .rpcAmbiguous then Prog.ret () else Prog.fail e

def reconcileCurrent (current : X402Operation) : X402Prog Unit :=
  if current.terminal then Prog.ret ()
  else do
    let recovered ← recoverOrphanReceipt current
    if recovered.isSome then return ()
    else
      let operation ← recoverOrphanResult current
      let operation ← finishReconciledEvidence operation
      if operation.terminal then return ()
      else
        let late : Bool ← ask .deadlineElapsed
        if late then return ()
        else
          call .readPort rfl
          observeOnly operation

/-- One poll of a settlement wait. -/
def poll : X402Prog Unit := do
  let found ← (run .required rfl : X402Prog X402Operation)
  if found.terminal then return ()
  else if ¬ isPostExposureWaitState found then
    if found.state = .authorizedNotSent ∧ found.settlementEvidence.isNone ∧
        found.attemptsOf .payment = [] then return ()
    else refuse (blocked "x402 operation has no proven post-exposure state to observe.")
  else withOperationLock reconcileCurrent

/-- The frozen offer becomes the operation, once. -/
def prepare : X402Prog Unit := do
  let existing ← load
  if existing.isSome then return () else writeOperation operation

end X402
end PaymentNode
