import PaymentNode.Gasless.Wire

/-!
# Accounting — what a receipt says a gasless operation moved

`gaslessAccounting` of `protocol.ts`.  The decoder of an event's log is a parameter; every log that a decoder is asked
for has its address and first topic, and one that cannot be decoded fails the receipt.  A record of the model has
exactly the keys the source asks for.
-/

namespace PaymentNode
namespace GaslessAccounting

open GaslessWire

structure GaslessLog where
  address : Hex
  topics : List Hex
  data : Hex
  logIndexAtomic : ℕ
deriving DecidableEq

structure GaslessBlock where
  numberAtomic : ℕ
  hash : Hex
  timestampAtomic : ℕ

structure GaslessProtocolReceipt where
  chainId : ℕ
  transactionHash : Hex
  block : GaslessBlock
  logs : List GaslessLog

/-- What the accounting reads of an intent. -/
structure AccountedIntent extends GaslessIntent where
  grossAtomic : ℕ

structure Indexed (T : Type) where
  value : T
  index : ℕ
deriving DecidableEq

structure Transfer where
  fromAddress : Hex
  toAddress : Hex
  value : ℕ
deriving DecidableEq

structure Approval where
  owner : Hex
  spender : Hex
  value : ℕ
deriving DecidableEq

structure Sponsored where
  token : Hex
  sender : Hex
  userOpHash : Hex
  nativeTokenPrice : ℕ
  actualTokenNeeded : ℕ
  feeTokenAmount : ℕ
deriving DecidableEq

structure UserOperationEvent where
  userOpHash : Hex
  sender : Hex
  paymaster : Hex
  nonce : ℕ
  success : Bool
  actualGasCost : ℕ
  actualGasUsed : ℕ
deriving DecidableEq

structure FailureFrame where
  userOpHash : Hex
  sender : Hex
  nonce : ℕ
deriving DecidableEq

/-- viem's decoders, `none` where they throw, and the hash of a list of logs. -/
structure EventCodec where
  getAddress : Hex → Option Hex
  transfer : GaslessLog → Option Transfer
  approval : GaslessLog → Option Approval
  sponsored : GaslessLog → Option Sponsored
  userOperation : GaslessLog → Option UserOperationEvent
  postOpRevert : GaslessLog → Option (FailureFrame × Hex)
  encodeRevert : ℕ → Hex → Option Hex
  prefundTooLow : GaslessLog → Option FailureFrame
  logsHash : List GaslessLog → Hex

inductive Branch
  | sponsored
  | postOpReverted
  | prefundTooLow
deriving DecidableEq, Repr

structure Accounting where
  success : Bool
  branch : Branch
  prefundAtomic : ℕ
  refundAtomic : ℕ
  feeAtomic : ℕ
  deliveredAtomic : ℕ
  logsHash : Hex
deriving DecidableEq, Repr

def transferTopic : Hex := "0xddf252ad1be2c89b69c2b068fc378daa952ba7f163c4a11628f55a4df523b3ef".toList
def approvalTopic : Hex := "0x8c5be1e5ebec7d5bd14f71427d1e84f3dd0314c0f7b2291e5b200ac8c7c3b925".toList
def sponsoredTopic : Hex := "0x859cffc122e69a171c48ee57adbf5286e1cd0b3ec8e47fef3afd8150e417a069".toList
def userOperationTopic : Hex := "0x49628fd1471006c1482da88028e9ce4dbb080b815c9b0344d39e5a8e6ec1419f".toList
def postOpRevertTopic : Hex := "0xf62676f440ff169a3a9afdbf812e89e7f95975ee8e5c31214ffdef631c5f4792".toList
def prefundTooLowTopic : Hex := "0x67b4fa9642f42120bf031f3051d1824b0fe25627945b27b8a6a65d5761d5482e".toList

def receiptFailure {α : Type} : GaslessResult α := .error "gasless_receipt_unresolved"

def require (c : Prop) [Decidable c] : GaslessResult Unit := if c then .ok () else receiptFailure

/-! ## The receipt -/

def zeroHash : Hex := '0' :: 'x' :: List.replicate 64 '0'

/-- A hash in its canonical spelling, and not zero. -/
def requireHash (value : Hex) : GaslessResult Unit := do
  let canonical ← gaslessHex value 32 (some 32)
  require (canonical = value ∧ value ≠ zeroHash)

def validateTopics : List Hex → GaslessResult Unit
  | [] => .ok ()
  | topic :: topics => do
    let canonical ← gaslessHex topic 32 (some 32)
    require (canonical = topic)
    validateTopics topics

def gaslessAddress (codec : EventCodec) (value : Hex) : GaslessResult Hex :=
  if addressShape value = false then .error "gasless_address_shape"
  else match codec.getAddress value with
    | some address => .ok address
    | none => .error "gasless_address_checksum"

/-- The indices of the logs ascend; the first is compared with `-1`. -/
def validateLogs (codec : EventCodec) (previousIndex : ℤ) : List GaslessLog → GaslessResult Unit
  | [] => .ok ()
  | log :: logs => do
    let address ← gaslessAddress codec log.address
    require (address = log.address ∧ log.topics.length ≤ 4)
    validateTopics log.topics
    let data ← gaslessHex log.data (12 * 1024) none
    require (data = log.data)
    let index ← gaslessUint log.logIndexAtomic false
    require (previousIndex < index)
    validateLogs codec index logs

def validateReceipt (codec : EventCodec) (intent : AccountedIntent) (userOperationHash : Hex)
    (receipt : GaslessProtocolReceipt) : GaslessResult Unit := do
  require (receipt.chainId ∈ GASLESS_CHAINS ∧ receipt.chainId = intent.chainId)
  requireHash userOperationHash
  requireHash receipt.transactionHash
  require (receipt.logs.length ≤ 512)
  let _ ← gaslessUint receipt.block.numberAtomic true
  let _ ← gaslessUint receipt.block.timestampAtomic true
  requireHash receipt.block.hash
  validateLogs codec (-1) receipt.logs
  require (∀ address ∈ [intent.owner, intent.token, intent.paymaster, intent.entryPoint, intent.delegate,
    intent.recipient], address ≠ GASLESS_ZERO_ADDRESS)

/-! ## Events -/

/-- The log is one of the event: of this contract, and with this first topic. -/
def isEvent (address topic : Hex) (log : GaslessLog) : Bool :=
  log.address == address && log.topics.head?.map lower == some topic

def events {T : Type} (decode : GaslessLog → Option T) (address topic : Hex) (topicCount : ℕ)
    (dataBytes : Option ℕ) : List GaslessLog → GaslessResult (List (Indexed T))
  | [] => .ok []
  | log :: logs =>
    if isEvent address topic log = false then events decode address topic topicCount dataBytes logs
    else if log.topics.length ≠ topicCount ∨ dataBytes.any (fun bytes => log.data.length ≠ 2 + bytes * 2) = true then
      receiptFailure
    else match decode log with
      | none => receiptFailure
      | some value => do
        let rest ← events decode address topic topicCount dataBytes logs
        .ok (⟨value, log.logIndexAtomic⟩ :: rest)

/-- The data of a `PostOpRevertReason` is the encoding of what it decodes to. -/
def postOpFrame (codec : EventCodec) (log : GaslessLog) : Option FailureFrame := do
  let (frame, reason) ← codec.postOpRevert log
  if codec.encodeRevert frame.nonce reason = some log.data then some frame else none

/-! ## The checks on them -/

variable (intent : AccountedIntent) (userOperationHash : Hex)

/-- The one operation of the owner is the one of the hash. -/
def ownOperation (userOperations : List (Indexed UserOperationEvent)) : GaslessResult (Indexed UserOperationEvent) :=
  match userOperations.filter (fun e => e.value.sender = intent.owner),
    userOperations.filter (fun e => e.value.userOpHash = userOperationHash) with
  | [operation], [named] =>
    if operation = named ∧ operation.value.paymaster = intent.paymaster ∧
        operation.value.nonce = intent.entryPointNonceAtomic then .ok operation
    else receiptFailure
  | _, _ => receiptFailure

structure Approvals where
  permit : Indexed Approval
  cleanup : Option (Indexed Approval)

def validateApprovals (success : Bool) (approvals : List (Indexed Approval)) : GaslessResult Approvals :=
  let relevant := approvals.filter fun e => e.value.owner = intent.owner
  let expected := relevant.filter fun e => e.value.spender = intent.paymaster
  let permits := expected.filter fun e => e.value.value = intent.feeCapAtomic
  let cleanup := expected.filter fun e => e.value.value = 0
  match permits with
  | [permit] =>
    if relevant.length = expected.length ∧ cleanup.length = (if success then 1 else 0) ∧
        expected.length = permits.length + cleanup.length then .ok ⟨permit, cleanup.head?⟩
    else receiptFailure
  | _ => receiptFailure

structure Movements where
  prefund : Indexed Transfer
  refund : Option (Indexed Transfer)
  delivery : Option (Indexed Transfer)

/-- One delivery of the recipient's amount when the operation succeeded, and else none. -/
def delivers (success : Bool) (deliveries : List (Indexed Transfer)) : Bool :=
  if success then
    match deliveries with
    | [delivery] => delivery.value.value = intent.recipientAtomic
    | _ => false
  else deliveries.isEmpty

def tokenMovements (success : Bool) (transfers : List (Indexed Transfer)) : GaslessResult Movements :=
  let ownerOut := transfers.filter fun e => e.value.fromAddress = intent.owner
  let prefunds := ownerOut.filter fun e => e.value.toAddress = intent.paymaster
  let deliveries := ownerOut.filter fun e => e.value.toAddress = intent.recipient
  let unexpected := ownerOut.filter fun e => e.value.toAddress ≠ intent.paymaster ∧ e.value.toAddress ≠ intent.recipient
  let refunds := transfers.filter fun e => e.value.fromAddress = intent.paymaster ∧ e.value.toAddress = intent.owner
  match prefunds with
  | [prefund] =>
    if 1 < refunds.length ∨ unexpected ≠ [] ∨ refunds.any (fun e => e.value.value = 0) = true ∨
        delivers intent success deliveries = false then receiptFailure
    else .ok ⟨prefund, refunds.head?, deliveries.head?⟩
  | _ => receiptFailure

def matchingFrames (frames : List (Indexed FailureFrame)) : GaslessResult (List (Indexed FailureFrame)) :=
  let owner := frames.filter fun e => e.value.sender = intent.owner
  let matching := frames.filter fun e => e.value.userOpHash = userOperationHash
  if owner.length ≠ matching.length ∨ owner.any (fun e => e ∉ matching) = true ∨
      matching.any (fun e => e.value.nonce ≠ intent.entryPointNonceAtomic) = true then receiptFailure
  else .ok matching

def classifyFailure (postOp prefundLow : List (Indexed FailureFrame)) :
    GaslessResult (Branch × List (Indexed FailureFrame)) :=
  match postOp, prefundLow with
  | [p], [] => .ok (.postOpReverted, [p])
  | [], [q] => .ok (.prefundTooLow, [q])
  | [p], [q] => if p.index < q.index then .ok (.prefundTooLow, [p, q]) else receiptFailure
  | _, _ => receiptFailure

def increasing : List ℕ → Bool
  | a :: b :: rest => a < b && increasing (b :: rest)
  | _ => true

def ordered (indices : List ℕ) : GaslessResult Unit := require (increasing indices = true)

def optional {T : Type} (event : Option (Indexed T)) : List ℕ := (event.map Indexed.index).toList

def accounting (codec : EventCodec) (success : Bool) (branch : Branch) (prefund refund : ℕ) (fee : ℤ)
    (delivered : ℕ) (logs : List GaslessLog) : GaslessResult Accounting :=
  if fee < 0 ∨ (intent.feeCapAtomic : ℤ) < fee ∨ (intent.grossAtomic : ℤ) < delivered + fee then receiptFailure
  else .ok ⟨success, branch, prefund, refund, fee.toNat, delivered, codec.logsHash logs⟩

/-! ## The accounting -/

def sponsoredOrder (operation : Indexed UserOperationEvent) (approvals : Approvals) (movements : Movements)
    (sponsorship : Indexed Sponsored) : GaslessResult Unit :=
  match operation.value.success, movements.delivery, approvals.cleanup with
  | true, some delivery, some cleanup =>
    ordered ([approvals.permit.index, movements.prefund.index, delivery.index, cleanup.index] ++
      optional movements.refund ++ [sponsorship.index, operation.index])
  | true, _, _ => receiptFailure
  | false, _, _ =>
    ordered ([approvals.permit.index, movements.prefund.index] ++ optional movements.refund ++
      [sponsorship.index, operation.index])

/-- The branch of a receipt whose one sponsorship is the operation's. -/
def sponsoredAccounting (codec : EventCodec) (logs : List GaslessLog) (operation : Indexed UserOperationEvent)
    (approvals : Approvals) (movements : Movements) (sponsorship : Indexed Sponsored)
    (postOp prefundLow : List (Indexed FailureFrame)) : GaslessResult Accounting := do
  let event := sponsorship.value
  let prefund := movements.prefund.value.value
  let refund := (movements.refund.map fun e => e.value.value).getD 0
  let fee : ℤ := prefund - refund
  require (postOp = [] ∧ prefundLow = [])
  require (event.token = intent.token ∧ 0 < event.nativeTokenPrice ∧ 0 < event.actualTokenNeeded ∧
    event.feeTokenAmount ≤ event.actualTokenNeeded)
  require (refund ≤ prefund ∧ fee = min prefund event.actualTokenNeeded)
  sponsoredOrder operation approvals movements sponsorship
  accounting intent codec operation.value.success .sponsored prefund refund fee
    (if operation.value.success then intent.recipientAtomic else 0) logs

/-- The branch of a receipt without a sponsorship. -/
def failedAccounting (codec : EventCodec) (logs : List GaslessLog) (operation : Indexed UserOperationEvent)
    (approvals : Approvals) (movements : Movements) (sponsored : List (Indexed Sponsored))
    (postOp prefundLow : List (Indexed FailureFrame)) : GaslessResult Accounting := do
  let prefund := movements.prefund.value.value
  require (sponsored.filter (fun e => e.value.userOpHash = userOperationHash) = [] ∧
    sponsored.filter (fun e => e.value.sender = intent.owner) = [] ∧
    sponsored.any (fun e => e.value.token = intent.token ∧
      (e.value.sender = intent.owner ∨ e.value.userOpHash = userOperationHash)) = false)
  require (operation.value.success = false ∧ movements.refund = none ∧ movements.delivery = none)
  let failure ← classifyFailure postOp prefundLow
  ordered ([approvals.permit.index, movements.prefund.index] ++ failure.2.map Indexed.index ++ [operation.index])
  accounting intent codec false failure.1 prefund 0 prefund 0 logs

def settle (codec : EventCodec) (logs : List GaslessLog) (operation : Indexed UserOperationEvent)
    (approvals : Approvals) (movements : Movements) (sponsored : List (Indexed Sponsored))
    (postOp prefundLow : List (Indexed FailureFrame)) : GaslessResult Accounting :=
  let fail := failedAccounting intent userOperationHash codec logs operation approvals movements sponsored postOp prefundLow
  match sponsored.filter (fun e => e.value.userOpHash = userOperationHash),
    sponsored.filter (fun e => e.value.sender = intent.owner) with
  | [named], [owned] =>
    if named = owned then
      sponsoredAccounting intent codec logs operation approvals movements named postOp prefundLow
    else fail
  | _, _ => fail

def gaslessAccounting (codec : EventCodec) (receipt : GaslessProtocolReceipt) : GaslessResult Accounting := do
  validateReceipt codec intent userOperationHash receipt
  let userOperations ← events codec.userOperation intent.entryPoint userOperationTopic 4 (some 128) receipt.logs
  let operation ← ownOperation intent userOperationHash userOperations
  let transfers ← events codec.transfer intent.token transferTopic 3 (some 32) receipt.logs
  let approvals ← events codec.approval intent.token approvalTopic 3 (some 32) receipt.logs
  let approvalOrder ← validateApprovals intent operation.value.success approvals
  let movements ← tokenMovements intent operation.value.success transfers
  let sponsored ← events codec.sponsored intent.paymaster sponsoredTopic 3 (some 128) receipt.logs
  let postOp ← events (postOpFrame codec) intent.entryPoint postOpRevertTopic 3 none receipt.logs
  let prefundLow ← events codec.prefundTooLow intent.entryPoint prefundTooLowTopic 3 (some 32) receipt.logs
  let matchingPostOp ← matchingFrames intent userOperationHash postOp
  let matchingPrefundLow ← matchingFrames intent userOperationHash prefundLow
  require (0 < movements.prefund.value.value ∧ movements.prefund.value.value ≤ intent.feeCapAtomic)
  settle intent userOperationHash codec receipt.logs operation approvalOrder movements sponsored matchingPostOp
    matchingPrefundLow

/-! ## What an event list holds -/

/-- The events of a contract and topic among the logs, as the codec decodes them. -/
def decoded {T : Type} (decode : GaslessLog → Option T) (address topic : Hex) (logs : List GaslessLog) : List T :=
  (logs.filter (isEvent address topic)).filterMap decode

section Events

variable {T : Type} {decode : GaslessLog → Option T} {address topic : Hex} {topicCount : ℕ} {dataBytes : Option ℕ}
  {logs : List GaslessLog} {es : List (Indexed T)}

theorem require_ok {c : Prop} [Decidable c] {u : Unit} : require c = .ok u ↔ c := by
  by_cases hc : c <;> simp [require, receiptFailure, hc]

theorem receiptFailure_ne_ok {α : Type} {a : α} : ¬ ((receiptFailure : GaslessResult α) = .ok a) := by
  simp [receiptFailure]

theorem failure_guard {α : Type} {c : Prop} [Decidable c] {x : GaslessResult α} {a : α} :
    (if c then receiptFailure else x) = .ok a ↔ ¬ c ∧ x = .ok a := error_guard

theorem guard_failure {α : Type} {c : Prop} [Decidable c] {x : GaslessResult α} {a : α} :
    (if c then x else receiptFailure) = .ok a ↔ c ∧ x = .ok a := by
  by_cases hc : c <;> simp [hc, receiptFailure]

theorem events_ok (h : events decode address topic topicCount dataBytes logs = .ok es) :
    es.map Indexed.value = decoded decode address topic logs ∧
      ∀ log ∈ logs, isEvent address topic log = true → (decode log).isSome = true := by
  induction logs generalizing es with
  | nil =>
    obtain rfl : [] = es := by simpa [events] using h
    exact ⟨rfl, fun _ hlog => absurd hlog List.not_mem_nil⟩
  | cons log logs ih =>
    rw [events] at h
    split_ifs at h with hother hshape
    · obtain ⟨hvalues, hall⟩ := ih h
      refine ⟨?_, List.forall_mem_cons.mpr ⟨fun hevent => absurd hevent (by simp [hother]), hall⟩⟩
      rw [hvalues, decoded, decoded, List.filter_cons_of_neg (by simp [hother])]
    · exact absurd h receiptFailure_ne_ok
    · rw [Bool.not_eq_false] at hother
      cases hdecode : decode log with
      | none =>
        rw [hdecode] at h
        exact absurd h receiptFailure_ne_ok
      | some value =>
        rw [hdecode] at h
        simp only [bind_ok, Except.ok.injEq] at h
        obtain ⟨rest, hrest, rfl⟩ := h
        obtain ⟨hvalues, hall⟩ := ih hrest
        refine ⟨?_, List.forall_mem_cons.mpr ⟨fun _ => by rw [hdecode]; rfl, hall⟩⟩
        rw [List.map_cons, hvalues, decoded, decoded, List.filter_cons_of_pos hother, List.filterMap_cons_some hdecode]

theorem filter_values (p : T → Bool) (hes : es.map Indexed.value = decoded decode address topic logs) :
    (es.filter fun e => p e.value).map Indexed.value = (decoded decode address topic logs).filter p := by
  rw [← hes, List.filter_map]
  rfl

end Events

/-! ## Amounts -/

section Amounts

variable {α : Type}

theorem sum_partition (p : α → Bool) (f : α → ℕ) (l : List α) :
    ((l.filter p).map f).sum + ((l.filter fun x => !p x).map f).sum = (l.map f).sum := by
  induction l with
  | nil => rfl
  | cons x l ih =>
    cases hp : p x with
    | true =>
      rw [List.filter_cons_of_pos hp, List.filter_cons_of_neg (by simp [hp])]
      simp only [List.map_cons, List.sum_cons]
      omega
    | false =>
      rw [List.filter_cons_of_neg (by simp [hp]), List.filter_cons_of_pos (by simp [hp])]
      simp only [List.map_cons, List.sum_cons]
      omega

theorem sum_at_most_one {l : List α} (f : α → ℕ) (h : ¬ 1 < l.length) :
    (l.map f).sum = (l.head?.map f).getD 0 := by
  cases l with
  | nil => rfl
  | cons x l =>
    cases l with
    | nil => simp
    | cons y l => exact absurd (by simp) h

end Amounts

section Movements

variable {intent : AccountedIntent} {success : Bool} {transfers : List (Indexed Transfer)} {m : Movements}

/-- The value of an event that may be missing. -/
def amount (event : Option (Indexed Transfer)) : ℕ := (event.map fun e => e.value.value).getD 0

theorem delivers_ok {deliveries : List (Indexed Transfer)} (h : delivers intent success deliveries = true) :
    (success = true → ∃ delivery, deliveries = [delivery] ∧ delivery.value.value = intent.recipientAtomic) ∧
      (success = false → deliveries = []) := by
  unfold delivers at h
  constructor
  · rintro rfl
    rw [if_pos rfl] at h
    split at h
    · exact ⟨_, rfl, of_decide_eq_true h⟩
    · exact absurd h (by simp)
  · rintro rfl
    rwa [if_neg Bool.false_ne_true, List.isEmpty_iff] at h

-- The movements are all the transfers out of the owner, and all those back, unless the recipient is the paymaster.
theorem tokenMovements_ok (h : tokenMovements intent success transfers = .ok m) :
    ((transfers.filter fun e => e.value.fromAddress = intent.paymaster ∧ e.value.toAddress = intent.owner).map
        fun e => e.value.value).sum = amount m.refund ∧
      (success = true → ∃ delivery, m.delivery = some delivery ∧ delivery.value.value = intent.recipientAtomic) ∧
      (success = false → m.delivery = none) ∧
      (m.delivery = some m.prefund ∨
        ((transfers.filter fun e => e.value.fromAddress = intent.owner).map fun e => e.value.value).sum =
          m.prefund.value.value + amount m.delivery) := by
  unfold tokenMovements at h
  simp only at h
  split at h
  · rename_i prefund hprefund
    rw [failure_guard, Except.ok.injEq, not_or, not_or, not_or] at h
    obtain ⟨⟨hone, hexpected, -, hdelivers⟩, rfl⟩ := h
    rw [Bool.not_eq_false] at hdelivers
    rw [not_not] at hexpected
    obtain ⟨hsuccess, hfailure⟩ := delivers_ok hdelivers
    refine ⟨sum_at_most_one _ hone, fun hs => ?_, fun hf => ?_, ?_⟩
    · obtain ⟨delivery, hdelivery, hvalue⟩ := hsuccess hs
      exact ⟨delivery, by rw [hdelivery]; rfl, hvalue⟩
    · rw [hfailure hf]
      rfl
    · by_cases hrecipient : intent.recipient = intent.paymaster
      · refine Or.inl ?_
        simp only [hrecipient, hprefund, List.head?_cons]
      · refine Or.inr ?_
        have hrest : (transfers.filter fun e => decide (e.value.fromAddress = intent.owner)).filter
            (fun e => !decide (e.value.toAddress = intent.paymaster)) =
            (transfers.filter fun e => decide (e.value.fromAddress = intent.owner)).filter
              (fun e => decide (e.value.toAddress = intent.recipient)) := by
          refine List.filter_congr fun e he => ?_
          have hknown := List.filter_eq_nil_iff.mp hexpected e he
          simp only [decide_eq_true_eq, not_and, not_not] at hknown
          by_cases hpaymaster : e.value.toAddress = intent.paymaster
          · simp [hpaymaster, Ne.symm hrecipient]
          · simp [hknown hpaymaster, hrecipient]
        have hsum := sum_partition (fun e : Indexed Transfer => decide (e.value.toAddress = intent.paymaster))
          (fun e => e.value.value) (transfers.filter fun e => decide (e.value.fromAddress = intent.owner))
        rw [hrest, hprefund] at hsum
        have hdelivered : ¬ 1 < ((transfers.filter fun e => decide (e.value.fromAddress = intent.owner)).filter
            fun e => decide (e.value.toAddress = intent.recipient)).length := by
          cases success with
          | true =>
            obtain ⟨delivery, hdelivery, -⟩ := hsuccess rfl
            rw [hdelivery]
            simp
          | false =>
            rw [hfailure rfl]
            simp
        rw [sum_at_most_one _ hdelivered] at hsum
        simpa [amount] using hsum.symm
  · exact absurd h receiptFailure_ne_ok

end Movements

/-! ## The outcomes -/

section Outcomes

variable {intent : AccountedIntent} {userOperationHash : Hex} {codec : EventCodec} {logs : List GaslessLog}
  {operation : Indexed UserOperationEvent} {approvals : Approvals} {m : Movements} {sponsorship : Indexed Sponsored}
  {sponsored : List (Indexed Sponsored)} {postOp prefundLow : List (Indexed FailureFrame)} {a : Accounting}

/-- The account agrees with the movements it was made of. -/
structure Accounted (intent : AccountedIntent) (operation : Indexed UserOperationEvent) (m : Movements)
    (a : Accounting) : Prop where
  success : a.success = operation.value.success
  prefund : a.prefundAtomic = m.prefund.value.value
  refund : a.refundAtomic = amount m.refund
  fee : a.feeAtomic + a.refundAtomic = a.prefundAtomic
  delivered : a.deliveredAtomic = if a.success then intent.recipientAtomic else 0
  withinCap : a.feeAtomic ≤ intent.feeCapAtomic
  withinGross : a.deliveredAtomic + a.feeAtomic ≤ intent.grossAtomic
  apart : m.delivery ≠ some m.prefund

theorem accounting_ok {success : Bool} {branch : Branch} {prefund refund delivered : ℕ} {fee : ℤ} :
    accounting intent codec success branch prefund refund fee delivered logs = .ok a ↔
      (0 ≤ fee ∧ fee ≤ intent.feeCapAtomic ∧ delivered + fee ≤ intent.grossAtomic) ∧
        a = ⟨success, branch, prefund, refund, fee.toNat, delivered, codec.logsHash logs⟩ := by
  rw [accounting, failure_guard, Except.ok.injEq, eq_comm, not_or, not_or, not_lt, not_lt, not_lt]

-- A delivery stands after the prefund, and so is another event.
theorem sponsoredOrder_ok {u : Unit} (h : sponsoredOrder operation approvals m sponsorship = .ok u)
    (hdelivery : operation.value.success = false → m.delivery = none) : m.delivery ≠ some m.prefund := by
  unfold sponsoredOrder at h
  split at h
  · rename_i delivery cleanup _ hsome _
    rw [hsome]
    intro heq
    rw [Option.some.inj heq] at h
    simp only [ordered, require_ok, increasing, List.cons_append, List.nil_append, Bool.and_eq_true,
      decide_eq_true_eq] at h
    exact absurd h.2.1 (lt_irrefl _)
  · exact absurd h receiptFailure_ne_ok
  · rename_i hfailure
    rw [hdelivery hfailure]
    simp

theorem sponsoredAccounting_ok
    (h : sponsoredAccounting intent codec logs operation approvals m sponsorship postOp prefundLow = .ok a)
    (hdelivery : operation.value.success = false → m.delivery = none) :
    Accounted intent operation m a ∧ a.branch = .sponsored ∧ postOp = [] ∧ prefundLow = [] := by
  simp only [sponsoredAccounting, bind_ok, require_ok, accounting_ok, exists_const] at h
  obtain ⟨hframes, -, ⟨hrefund, -⟩, _, horder, ⟨hfee, hcap, hgross⟩, rfl⟩ := h
  refine ⟨⟨rfl, rfl, rfl, ?_, rfl, ?_, ?_, sponsoredOrder_ok horder hdelivery⟩, rfl, hframes⟩
  · show ((m.prefund.value.value : ℤ) - (amount m.refund : ℤ)).toNat + amount m.refund = m.prefund.value.value
    have hle : amount m.refund ≤ m.prefund.value.value := hrefund
    omega
  · show ((m.prefund.value.value : ℤ) - (amount m.refund : ℤ)).toNat ≤ intent.feeCapAtomic
    have hle : (m.prefund.value.value : ℤ) - (amount m.refund : ℤ) ≤ intent.feeCapAtomic := hcap
    omega
  · show (if operation.value.success then intent.recipientAtomic else 0) +
      ((m.prefund.value.value : ℤ) - (amount m.refund : ℤ)).toNat ≤ intent.grossAtomic
    have hle : ((if operation.value.success then intent.recipientAtomic else 0 : ℕ) : ℤ) +
      ((m.prefund.value.value : ℤ) - (amount m.refund : ℤ)) ≤ intent.grossAtomic := hgross
    have hnonneg : 0 ≤ (m.prefund.value.value : ℤ) - (amount m.refund : ℤ) := hfee
    omega

theorem classifyFailure_ok {kind : Branch} {frames : List (Indexed FailureFrame)}
    (h : classifyFailure postOp prefundLow = .ok (kind, frames)) : kind ≠ .sponsored := by
  unfold classifyFailure at h
  split at h
  · rw [← (Prod.mk.inj (Except.ok.inj h)).1]
    decide
  · rw [← (Prod.mk.inj (Except.ok.inj h)).1]
    decide
  · rw [guard_failure] at h
    rw [← (Prod.mk.inj (Except.ok.inj h.2)).1]
    decide
  · exact absurd h receiptFailure_ne_ok

theorem failedAccounting_ok
    (h : failedAccounting intent userOperationHash codec logs operation approvals m sponsored postOp prefundLow = .ok a) :
    Accounted intent operation m a ∧ a.branch ≠ .sponsored ∧
      sponsored.filter (fun e => e.value.sender = intent.owner) = [] := by
  simp only [failedAccounting, bind_ok, require_ok, accounting_ok, exists_const] at h
  obtain ⟨⟨-, howner, -⟩, ⟨hfailed, hrefund, hdelivery⟩, ⟨kind, frames⟩, hkind, _, -, ⟨-, hcap, hgross⟩, rfl⟩ := h
  refine ⟨⟨hfailed.symm, rfl, by rw [hrefund]; rfl, ?_, rfl, ?_, ?_, by rw [hdelivery]; simp⟩, classifyFailure_ok hkind,
    howner⟩
  · show ((m.prefund.value.value : ℤ)).toNat + 0 = m.prefund.value.value
    omega
  · show ((m.prefund.value.value : ℤ)).toNat ≤ intent.feeCapAtomic
    omega
  · show 0 + ((m.prefund.value.value : ℤ)).toNat ≤ intent.grossAtomic
    have hle : ((0 : ℕ) : ℤ) + (m.prefund.value.value : ℤ) ≤ intent.grossAtomic := hgross
    omega

-- A sponsorship of the owner is the operation's, there is one in the sponsored branch, and none in the others.
theorem settle_ok
    (h : settle intent userOperationHash codec logs operation approvals m sponsored postOp prefundLow = .ok a)
    (hdelivery : operation.value.success = false → m.delivery = none) :
    Accounted intent operation m a ∧
      (∀ e ∈ sponsored, e.value.sender = intent.owner → e.value.userOpHash = userOperationHash) ∧
      (sponsored.filter fun e => e.value.sender = intent.owner).length = (if a.branch = .sponsored then 1 else 0) ∧
      (a.branch = .sponsored → postOp = [] ∧ prefundLow = []) := by
  have hfailed : ∀ {b : Accounting}, failedAccounting intent userOperationHash codec logs operation approvals m sponsored postOp
      prefundLow = .ok b → Accounted intent operation m b ∧
        (∀ e ∈ sponsored, e.value.sender = intent.owner → e.value.userOpHash = userOperationHash) ∧
        (sponsored.filter fun e => e.value.sender = intent.owner).length = (if b.branch = .sponsored then 1 else 0) ∧
        (b.branch = .sponsored → postOp = [] ∧ prefundLow = []) := by
    intro b hb
    obtain ⟨haccounted, hbranch, hnone⟩ := failedAccounting_ok hb
    refine ⟨haccounted, fun e he howner => ?_, by rw [hnone, if_neg hbranch]; rfl, fun h => absurd h hbranch⟩
    exact absurd (decide_eq_true howner) (List.filter_eq_nil_iff.mp hnone e he)
  unfold settle at h
  simp only at h
  split at h
  · rename_i named owned hnamed howned
    split_ifs at h with hsame
    · obtain ⟨haccounted, hbranch, hframes⟩ := sponsoredAccounting_ok h hdelivery
      refine ⟨haccounted, fun e he howner => ?_, by rw [howned, if_pos hbranch]; rfl, fun _ => hframes⟩
      have hmem : e ∈ sponsored.filter fun e => e.value.sender = intent.owner :=
        List.mem_filter.mpr ⟨he, decide_eq_true howner⟩
      rw [howned, List.mem_singleton] at hmem
      have hmember : named ∈ sponsored.filter fun e => e.value.userOpHash = userOperationHash := by
        rw [hnamed]
        exact List.mem_singleton_self named
      rw [hmem, ← hsame]
      exact of_decide_eq_true (List.mem_filter.mp hmember).2
    · exact hfailed h
  · exact hfailed h

end Outcomes

/-! ## Conservation -/

section Conservation

variable (codec : EventCodec) (intent : AccountedIntent) (logs : List GaslessLog)

/-- The token transfers of the receipt. -/
def tokenTransfers : List Transfer := decoded codec.transfer intent.token transferTopic logs

/-- All that left the owner. -/
def leaving : ℕ := (((tokenTransfers codec intent logs).filter fun t => t.fromAddress = intent.owner).map
  Transfer.value).sum

/-- All that the paymaster gave back. -/
def returning : ℕ := (((tokenTransfers codec intent logs).filter fun t =>
  t.fromAddress = intent.paymaster ∧ t.toAddress = intent.owner).map Transfer.value).sum

def userOperationEvents : List UserOperationEvent :=
  decoded codec.userOperation intent.entryPoint userOperationTopic logs

def sponsorships : List Sponsored := decoded codec.sponsored intent.paymaster sponsoredTopic logs

/-- The failure frames of either kind. -/
def failureFrames : List FailureFrame :=
  decoded (postOpFrame codec) intent.entryPoint postOpRevertTopic logs ++
    decoded codec.prefundTooLow intent.entryPoint prefundTooLowTopic logs

end Conservation

section Accepted

variable {intent : AccountedIntent} {userOperationHash : Hex} {codec : EventCodec} {receipt : GaslessProtocolReceipt}
  {a : Accounting}

theorem ownOperation_ok {userOperations : List (Indexed UserOperationEvent)} {operation : Indexed UserOperationEvent}
    (h : ownOperation intent userOperationHash userOperations = .ok operation) :
    (userOperations.filter fun e => e.value.sender = intent.owner) = [operation] ∧
      operation.value.userOpHash = userOperationHash := by
  unfold ownOperation at h
  split at h
  · rename_i own named hown hnamed
    rw [guard_failure, Except.ok.injEq] at h
    obtain ⟨⟨hsame, -⟩, rfl⟩ := h
    have hmember : named ∈ userOperations.filter fun e => e.value.userOpHash = userOperationHash := by
      rw [hnamed]
      exact List.mem_singleton_self named
    rw [hsame] at hown ⊢
    exact ⟨hown, of_decide_eq_true (List.mem_filter.mp hmember).2⟩
  · exact absurd h receiptFailure_ne_ok

theorem matchingFrames_ok {frames matching : List (Indexed FailureFrame)}
    (h : matchingFrames intent userOperationHash frames = .ok matching) {frame : FailureFrame}
    (hframe : frame ∈ frames.map Indexed.value) (howner : frame.sender = intent.owner) :
    frame.userOpHash = userOperationHash ∧ matching ≠ [] := by
  unfold matchingFrames at h
  simp only at h
  rw [failure_guard, not_or, not_or] at h
  obtain ⟨⟨-, hall, -⟩, hmatches⟩ := h
  obtain ⟨e, he, rfl⟩ := List.mem_map.mp hframe
  rw [Bool.not_eq_true, List.any_eq_false] at hall
  have hmatching := hall e (List.mem_filter.mpr ⟨he, decide_eq_true howner⟩)
  rw [decide_eq_true_eq, not_not] at hmatching
  refine ⟨of_decide_eq_true (List.mem_filter.mp hmatching).2, ?_⟩
  rw [← Except.ok.inj hmatches]
  exact List.ne_nil_of_mem hmatching

/-- What left the owner less what came back is what was delivered and the fee, and the owner's one operation is the one
of the hash.  In the sponsored branch no failure frame is the owner's. -/
theorem accepted_receipt_conserves (h : gaslessAccounting intent userOperationHash codec receipt = .ok a) :
    ((leaving codec intent receipt.logs : ℤ) - returning codec intent receipt.logs = a.deliveredAtomic + a.feeAtomic) ∧
      (∀ log ∈ receipt.logs, isEvent intent.token transferTopic log = true → (codec.transfer log).isSome = true) ∧
      a.deliveredAtomic = (if a.success = true then intent.recipientAtomic else 0) ∧
      (a.feeAtomic : ℤ) = a.prefundAtomic - a.refundAtomic ∧ a.feeAtomic ≤ intent.feeCapAtomic ∧
      a.deliveredAtomic + a.feeAtomic ≤ intent.grossAtomic ∧
      (∃ operation, (userOperationEvents codec intent receipt.logs).filter (fun e => e.sender = intent.owner) = [operation] ∧
        operation.userOpHash = userOperationHash ∧ operation.success = a.success) ∧
      (∀ s ∈ sponsorships codec intent receipt.logs, s.sender = intent.owner → s.userOpHash = userOperationHash) ∧
      ((sponsorships codec intent receipt.logs).filter fun s => s.sender = intent.owner).length =
        (if a.branch = .sponsored then 1 else 0) ∧
      ∀ frame ∈ failureFrames codec intent receipt.logs, frame.sender = intent.owner →
        frame.userOpHash = userOperationHash ∧ a.branch ≠ .sponsored := by
  simp only [gaslessAccounting, bind_ok, require_ok, exists_const] at h
  obtain ⟨_, -, userOperations, hoperations, operation, hoperation, transfers, htransfers, _, -, approvals, -, m, hm, sponsored,
    hsponsored, postOp, hpostOp, prefundLow, hprefundLow, matchingPostOp, hmatchingPostOp, matchingPrefundLow,
    hmatchingPrefundLow, -, hsettle⟩ := h
  obtain ⟨hreturning, hsuccess, hfailure, hleaving⟩ := tokenMovements_ok hm
  obtain ⟨haccounted, hsponsors, hcount, hframes⟩ := settle_ok hsettle hfailure
  obtain ⟨hown, hhash⟩ := ownOperation_ok hoperation
  obtain ⟨htransferValues, htransferAll⟩ := events_ok htransfers
  have houtflow : leaving codec intent receipt.logs = m.prefund.value.value + amount m.delivery := by
    rw [← hleaving.resolve_left haccounted.apart, leaving, tokenTransfers,
      ← filter_values (fun t : Transfer => decide (t.fromAddress = intent.owner)) htransferValues, List.map_map]
    rfl
  have hinflow : returning codec intent receipt.logs = amount m.refund := by
    rw [← hreturning, returning, tokenTransfers,
      ← filter_values (fun t : Transfer => decide (t.fromAddress = intent.paymaster ∧ t.toAddress = intent.owner))
        htransferValues, List.map_map]
    rfl
  have hdelivered : amount m.delivery = a.deliveredAtomic := by
    rw [haccounted.delivered, haccounted.success]
    cases hcase : operation.value.success with
    | true =>
      obtain ⟨delivery, hdelivery, hvalue⟩ := hsuccess hcase
      rw [hdelivery, if_pos rfl, ← hvalue]
      rfl
    | false =>
      rw [hfailure hcase]
      rfl
  have hfee := haccounted.fee
  have hprefund := haccounted.prefund
  have hrefund := haccounted.refund
  refine ⟨?_, htransferAll, haccounted.delivered, by omega, haccounted.withinCap, haccounted.withinGross,
    ⟨operation.value, ?_, hhash, haccounted.success.symm⟩, fun s hs howner => ?_, ?_, fun frame hframe howner => ?_⟩
  · rw [houtflow, hinflow, hdelivered]
    push_cast
    omega
  · rw [userOperationEvents, ← filter_values (fun e : UserOperationEvent => decide (e.sender = intent.owner))
      (events_ok hoperations).1, hown]
    rfl
  · rw [sponsorships, ← (events_ok hsponsored).1] at hs
    obtain ⟨e, he, rfl⟩ := List.mem_map.mp hs
    exact hsponsors e he howner
  · rw [← hcount, sponsorships, ← filter_values (fun s : Sponsored => decide (s.sender = intent.owner))
      (events_ok hsponsored).1, List.length_map]
  · rw [failureFrames, List.mem_append, ← (events_ok hpostOp).1, ← (events_ok hprefundLow).1] at hframe
    rcases hframe with hframe | hframe
    · obtain ⟨hsame, hsome⟩ := matchingFrames_ok hmatchingPostOp hframe howner
      exact ⟨hsame, fun hbranch => hsome (hframes hbranch).1⟩
    · obtain ⟨hsame, hsome⟩ := matchingFrames_ok hmatchingPrefundLow hframe howner
      exact ⟨hsame, fun hbranch => hsome (hframes hbranch).2⟩

end Accepted

/-! A transfer of nine thousand units with a fee of seven hundred, its addresses all of one digit. -/

def digits (c : Char) (n : ℕ) : Hex := '0' :: 'x' :: List.replicate n c

/-- The address a topic holds. -/
def topicAddress (topic : Hex) : Hex := '0' :: 'x' :: topic.drop 26

/-- A word of the data. -/
def dataWord (data : Hex) (i : ℕ) : Hex := (data.drop (2 + 64 * i)).take 64

/-- The decoders, on addresses without letters; the receipt below has no failure frame. -/
def digitCodec : EventCodec where
  getAddress value := some value
  transfer log :=
    match log.topics with
    | [_, source, target] => some ⟨topicAddress source, topicAddress target, HexText.read (dataWord log.data 0)⟩
    | _ => none
  approval log :=
    match log.topics with
    | [_, owner, spender] => some ⟨topicAddress owner, topicAddress spender, HexText.read (dataWord log.data 0)⟩
    | _ => none
  sponsored log :=
    match log.topics with
    | [_, token, sender] =>
      some ⟨topicAddress token, topicAddress sender, '0' :: 'x' :: dataWord log.data 0,
        HexText.read (dataWord log.data 1), HexText.read (dataWord log.data 2), HexText.read (dataWord log.data 3)⟩
    | _ => none
  userOperation log :=
    match log.topics with
    | [_, hash, sender, paymaster] =>
      some ⟨hash, topicAddress sender, topicAddress paymaster, HexText.read (dataWord log.data 0),
        HexText.read (dataWord log.data 1) == 1, HexText.read (dataWord log.data 2), HexText.read (dataWord log.data 3)⟩
    | _ => none
  postOpRevert _ := none
  encodeRevert _ _ := none
  prefundTooLow _ := none
  logsHash _ := []

def digitIntent : AccountedIntent where
  wireVersion := none
  chainId := 8453
  recipient := digits '2' 40
  owner := digits '1' 40
  entryPointNonceAtomic := 5
  eoaNonceAtomic := 0
  delegation := .empty
  gas := ⟨⟨0, 0⟩, 0, 0, 0, 0, 0⟩
  token := digits '3' 40
  paymaster := digits '4' 40
  entryPoint := digits '5' 40
  delegate := digits '6' 40
  feeCapAtomic := 1000
  recipientAtomic := 9000
  callData := digits '0' 0
  grossAtomic := 10000

def padTopic (address : Hex) : Hex := '0' :: 'x' :: (List.replicate 24 '0' ++ address.drop 2)

def words (values : List ℕ) : Hex := '0' :: 'x' :: values.flatMap (HexText.padded 64)

def digitLogs : List GaslessLog :=
  let owner := padTopic (digits '1' 40)
  let paymaster := padTopic (digits '4' 40)
  let hash := digits '7' 64
  [⟨digits '3' 40, [approvalTopic, owner, paymaster], words [1000], 0⟩,
    ⟨digits '3' 40, [transferTopic, owner, paymaster], words [1000], 1⟩,
    ⟨digits '3' 40, [transferTopic, owner, padTopic (digits '2' 40)], words [9000], 2⟩,
    ⟨digits '3' 40, [approvalTopic, owner, paymaster], words [0], 3⟩,
    ⟨digits '3' 40, [transferTopic, paymaster, owner], words [300], 4⟩,
    ⟨digits '4' 40, [sponsoredTopic, padTopic (digits '3' 40), owner],
      hash ++ ([2000, 700, 50].flatMap (HexText.padded 64)), 5⟩,
    ⟨digits '5' 40, [userOperationTopic, hash, owner, paymaster], words [5, 1, 90000, 80000], 6⟩]

def digitReceipt : GaslessProtocolReceipt where
  chainId := 8453
  transactionHash := digits '8' 64
  block := ⟨100, digits '9' 64, 1709210096⟩
  logs := digitLogs

theorem digitReceipt_accepted : gaslessAccounting digitIntent (digits '7' 64) digitCodec digitReceipt =
    .ok ⟨true, .sponsored, 1000, 300, 700, 9000, []⟩ := by
  decide +kernel

theorem accepted_receipt_conserves_digits :
    (leaving digitCodec digitIntent digitLogs : ℤ) - returning digitCodec digitIntent digitLogs = (9000 : ℕ) + (700 : ℕ) :=
  (accepted_receipt_conserves digitReceipt_accepted).1

/-- An accepted receipt holds a sponsorship whose sender is the owner. -/
theorem owner_sponsorship_accepted :
    (∃ a, gaslessAccounting digitIntent (digits '7' 64) digitCodec digitReceipt = .ok a) ∧
      ∃ s ∈ sponsorships digitCodec digitIntent digitReceipt.logs, s.sender = digitIntent.owner :=
  ⟨⟨_, digitReceipt_accepted⟩,
    ⟨digits '3' 40, digits '1' 40, digits '7' 64, 2000, 700, 50⟩, by decide +kernel, rfl⟩

end GaslessAccounting
end PaymentNode
