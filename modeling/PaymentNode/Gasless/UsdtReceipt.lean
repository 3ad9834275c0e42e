import PaymentNode.Lib.HexText
import PaymentNode.Ledger.Record
import PaymentNode.Gasless.UsdtScan

/-!
# UsdtReceipt — what a receipt proves about a USDT UserOperation

`verifyUsdtReceipt` accepts a receipt as the payment, `verifyUsdtRevert` as a failure without effect.  A log is
a contract address, its topics, and what its data decodes to.  Addresses are compared in checksummed form in
topics and in lower case where a contract is named; `checksum` is the checksum of forty lower-case digits.
-/

namespace PaymentNode

/-- What `decodeAbiParameters` reads of the data of a UserOperationEvent. -/
structure UsdtEventData where
  nonce : ℕ
  success : Bool
  actualGasCost : ℕ
  actualGasUsed : ℕ
deriving DecidableEq, Repr

/-- A log; `amount` is its data as one number and `event` as an event, `none` where it cannot be read so. -/
structure UsdtReceiptLog where
  address : String
  topics : List String
  amount : Option ℕ
  event : Option UsdtEventData
deriving DecidableEq, Repr

structure UsdtReceiptPins where
  token : String
  paymaster : String
  treasury : String
  entryPoint : String
deriving DecidableEq, Repr

structure UsdtChainReceipt where
  transactionHash : String
  blockNumber : ℕ
  success : Bool
  logs : List UsdtReceiptLog
deriving DecidableEq, Repr

/-- What the verifiers read of a plan: its request's parties, and its amounts. -/
structure UsdtTransferPlan where
  sender : String
  recipient : String
  feeCapAtomic : ℕ
  netAtomic : ℕ
deriving DecidableEq, Repr

structure UsdtSettlement where
  transactionHash : String
  blockNumber : ℕ
  userOpHash : String
  senderDebitAtomic : ℕ
  feeAtomic : ℕ
  recipientCreditAtomic : ℕ
  residualAllowanceAtomic : ℕ
  actualGasCostWei : ℕ
deriving DecidableEq, Repr

namespace GaslessUsdt

/-- The selector of `Transfer(address,address,uint256)`. -/
def transferEvent : String := "0xddf252ad1be2c89b69c2b068fc378daa952ba7f163c4a11628f55a4df523b3ef"

def same (a b : String) : Bool := lowerCase a = lowerCase b

/-- The forty digits of an address topic: `0x`, 24 zeros and the address. -/
def topicDigits (topic : String) : Option (List Char) :=
  let digits := topic.toList.drop 26
  if topic.toList.take 26 = '0' :: 'x' :: List.replicate 24 '0' ∧ digits.length = 40 ∧
      digits.all isHexDigit = true then some digits
  else none

section

variable (checksum : List Char → String)

def topicAddress (topic : Option String) : Option String :=
  (topic.bind topicDigits).map fun digits => checksum (digits.map Char.toLower)

/-- A UserOperationEvent of this hash from the pinned EntryPoint. -/
def isOurs (userOpHash : String) (pins : UsdtReceiptPins) (log : UsdtReceiptLog) : Bool :=
  same log.address pins.entryPoint && log.topics[0]? = some Gasless.userOperationEvent &&
    (log.topics[1]?).map lowerCase = some (lowerCase userOpHash)

/-- A Transfer of the pinned token out of the sender. -/
def isDebit (sender : String) (pins : UsdtReceiptPins) (log : UsdtReceiptLog) :
    Bool :=
  same log.address pins.token && log.topics[0]? = some transferEvent &&
    topicAddress checksum log.topics[1]? = some sender

/-- One debit: where it went, and how much. -/
structure Debit where
  recipient : Option String
  value : ℕ
deriving DecidableEq, Repr

def readDebit (log : UsdtReceiptLog) : GaslessResult Debit :=
  match log.amount with
  | none => .error "gasless_usdt_receipt_amount"
  | some value => .ok ⟨topicAddress checksum log.topics[2]?, value⟩

def verifyUsdtRevert (sender userOpHash : String) (receipt : UsdtChainReceipt)
    (pins : UsdtReceiptPins) : GaslessResult Unit :=
  if receipt.success = false then .error "gasless_usdt_revert_outer_status"
  else
    match receipt.logs.filter (isOurs userOpHash pins) with
    | [event] =>
      if topicAddress checksum event.topics[2]? ≠ some sender ∨
          topicAddress checksum event.topics[3]? ≠ some pins.paymaster then
        .error "gasless_usdt_revert_user_operation"
      else
        match event.event with
        | none => .error "gasless_usdt_revert_event_data"
        | some data =>
          if data.success = true then .error "gasless_usdt_revert_success_event"
          else if receipt.logs.any (isDebit checksum sender pins) = true then
            .error "gasless_usdt_revert_token_debit"
          else .ok ()
    | _ => .error "gasless_usdt_revert_user_operation"

/-- The settlement of a plan whose event and debits were read. -/
def settleDebits (plan : UsdtTransferPlan) (userOpHash : String) (receipt : UsdtChainReceipt)
    (pins : UsdtReceiptPins) (data : UsdtEventData) (debits : List Debit) : GaslessResult UsdtSettlement :=
  match debits.filter (fun debit => debit.recipient = some plan.recipient),
      debits.filter (fun debit => debit.recipient = some pins.treasury) with
  | [delivery], [fee] =>
    if debits.length ≠ 2 then .error "gasless_usdt_receipt_transfers"
    else if delivery.value ≠ plan.netAtomic then .error "gasless_usdt_receipt_delivery_amount"
    else if fee.value = 0 ∨ plan.feeCapAtomic < fee.value then .error "gasless_usdt_receipt_fee_amount"
    else .ok
      { transactionHash := receipt.transactionHash
        blockNumber := receipt.blockNumber
        userOpHash := userOpHash
        senderDebitAtomic := plan.netAtomic + fee.value
        feeAtomic := fee.value
        recipientCreditAtomic := plan.netAtomic
        residualAllowanceAtomic := plan.feeCapAtomic - fee.value
        actualGasCostWei := data.actualGasCost }
  | _, _ => .error "gasless_usdt_receipt_transfers"

def verifyUsdtReceipt (plan : UsdtTransferPlan) (userOpHash : String)
    (receipt : UsdtChainReceipt) (pins : UsdtReceiptPins) : GaslessResult UsdtSettlement :=
  if receipt.success = false then .error "gasless_usdt_receipt_outer_reverted"
  else
    match receipt.logs.filter (isOurs userOpHash pins) with
    | [event] =>
      if topicAddress checksum event.topics[2]? ≠ some plan.sender then .error "gasless_usdt_receipt_sender"
      else if topicAddress checksum event.topics[3]? ≠ some pins.paymaster then
        .error "gasless_usdt_receipt_paymaster"
      else
        match event.event with
        | none => .error "gasless_usdt_receipt_event_data"
        | some data =>
          if data.success = false then .error "gasless_usdt_receipt_user_operation_failed"
          else
            (receipt.logs.filter (isDebit checksum plan.sender pins)).mapM (readDebit checksum) >>= fun debits =>
              settleDebits plan userOpHash receipt pins data debits
    | _ => .error "gasless_usdt_receipt_user_operation"

/-! ## What the chain says -/

/-- The topic is the word of this address, whatever the case of its digits. -/
def namesAddress (topic : Option String) (address : String) : Bool :=
  (topic.bind topicDigits).any fun digits =>
    '0' :: 'x' :: digits.map Char.toLower = address.toList.map Char.toLower

/-- A Transfer of the pinned token whose `from` is the sender. -/
def leavesSender (sender : String) (pins : UsdtReceiptPins) (log : UsdtReceiptLog) : Bool :=
  same log.address pins.token && log.topics[0]? = some transferEvent && namesAddress log.topics[1]? sender

/-- A checksum changes the case of letters and nothing else. -/
def LawfulChecksum : Prop :=
  ∀ digits : List Char, digits.length = 40 → digits.all isHexDigit = true →
    (checksum (digits.map Char.toLower)).toList.map Char.toLower = '0' :: 'x' :: digits.map Char.toLower

/-- The checksummed form of an address. -/
def Checksummed (address : String) : Prop :=
  ∃ digits : List Char, digits.length = 40 ∧ digits.all isHexDigit = true ∧
    checksum (digits.map Char.toLower) = address

end

/-- What an accepted receipt is to prove. -/
structure ProvesPayment (plan : UsdtTransferPlan) (userOpHash : String) (receipt : UsdtChainReceipt)
    (pins : UsdtReceiptPins) (settlement : UsdtSettlement) : Prop where
  event : ∃ event data, receipt.logs.filter (isOurs userOpHash pins) = [event] ∧ event.event = some data ∧
    data.success = true ∧ namesAddress event.topics[2]? plan.sender = true ∧
    namesAddress event.topics[3]? pins.paymaster = true
  spent : ∃ amounts : List ℕ,
    (receipt.logs.filter (leavesSender plan.sender pins)).map UsdtReceiptLog.amount = amounts.map some ∧
    amounts.sum = plan.netAtomic + settlement.feeAtomic
  fee : 0 < settlement.feeAtomic ∧ settlement.feeAtomic ≤ plan.feeCapAtomic
  debit : settlement.senderDebitAtomic = settlement.recipientCreditAtomic + settlement.feeAtomic
  residual : settlement.residualAllowanceAtomic + settlement.feeAtomic = plan.feeCapAtomic

section Topics

variable {checksum : List Char → String} {topic : Option String} {address : String}

theorem topicDigits_eq_some {topic : String} {digits : List Char} (h : topicDigits topic = some digits) :
    digits.length = 40 ∧ digits.all isHexDigit = true := by
  unfold topicDigits at h
  dsimp only at h
  split at h
  · rename_i hshape
    cases h
    exact hshape.2
  · cases h

theorem topicAddress_eq_some (h : topicAddress checksum topic = some address) :
    ∃ digits, topic.bind topicDigits = some digits ∧ digits.length = 40 ∧ digits.all isHexDigit = true ∧
      checksum (digits.map Char.toLower) = address := by
  rcases Option.map_eq_some_iff.mp h with ⟨digits, hdigits, hsum⟩
  rcases Option.bind_eq_some_iff.mp hdigits with ⟨text, _, htext⟩
  rcases topicDigits_eq_some htext with ⟨hlength, hhex⟩
  exact ⟨digits, hdigits, hlength, hhex, hsum⟩

theorem checksummed_of_topic (h : topicAddress checksum topic = some address) : Checksummed checksum address := by
  rcases topicAddress_eq_some h with ⟨digits, _, hlength, hhex, hsum⟩
  exact ⟨digits, hlength, hhex, hsum⟩

-- On a checksummed address the two comparisons agree.
theorem topicAddress_iff (hlaw : LawfulChecksum checksum) (haddress : Checksummed checksum address) :
    topicAddress checksum topic = some address ↔ namesAddress topic address = true := by
  rcases haddress with ⟨own, hownLength, hownHex, hown⟩
  have hlower := hlaw own hownLength hownHex
  rw [hown] at hlower
  unfold namesAddress
  constructor
  · intro h
    rcases topicAddress_eq_some h with ⟨digits, hdigits, hlength, hhex, hsum⟩
    have hsame := hlaw digits hlength hhex
    rw [hsum] at hsame
    rw [hdigits, Option.any_some, decide_eq_true_eq]
    exact hsame.symm
  · intro h
    rcases (Option.any_eq_true _ _).mp h with ⟨digits, hdigits, hsame⟩
    rw [decide_eq_true_eq, hlower] at hsame
    have hequal : digits.map Char.toLower = own.map Char.toLower := by
      injection hsame with _ hsame
      injection hsame
    unfold topicAddress
    rw [hdigits, Option.map_some, hequal, hown]

theorem isDebit_eq_leavesSender (hlaw : LawfulChecksum checksum) {sender : String}
    (hsender : Checksummed checksum sender) (pins : UsdtReceiptPins) :
    isDebit checksum sender pins = leavesSender sender pins := by
  funext log
  unfold isDebit leavesSender
  congr 1
  rw [Bool.eq_iff_iff, decide_eq_true_eq]
  exact topicAddress_iff hlaw hsender

end Topics

/-! ## What acceptance says -/

section Verdicts

variable {checksum : List Char → String} {plan : UsdtTransferPlan} {userOpHash sender : String}
  {receipt : UsdtChainReceipt} {pins : UsdtReceiptPins} {settlement : UsdtSettlement}

-- The debits read are the amounts of the sender's transfers.
theorem readDebits {logs : List UsdtReceiptLog} {debits : List Debit}
    (h : logs.mapM (readDebit checksum) = .ok debits) :
    logs.map UsdtReceiptLog.amount = (debits.map Debit.value).map some := by
  induction logs generalizing debits with
  | nil =>
    cases h
    rfl
  | cons log logs ih =>
    rw [List.mapM_cons] at h
    rcases bind_ok.mp h with ⟨debit, hdebit, h⟩
    rcases bind_ok.mp h with ⟨rest, hrest, h⟩
    cases h
    unfold readDebit at hdebit
    cases hamount : log.amount with
    | none =>
      rw [hamount] at hdebit
      cases hdebit
    | some value =>
      rw [hamount] at hdebit
      cases hdebit
      rw [List.map_cons, ih hrest, hamount]
      rfl

theorem readDebits_mem {logs : List UsdtReceiptLog} {debits : List Debit}
    (h : logs.mapM (readDebit checksum) = .ok debits) {debit : Debit} (hdebit : debit ∈ debits) :
    ∃ log : UsdtReceiptLog, topicAddress checksum log.topics[2]? = debit.recipient := by
  induction logs generalizing debits with
  | nil =>
    cases h
    cases hdebit
  | cons log logs ih =>
    rw [List.mapM_cons] at h
    rcases bind_ok.mp h with ⟨first, hfirst, h⟩
    rcases bind_ok.mp h with ⟨rest, hrest, h⟩
    cases h
    rcases List.mem_cons.mp hdebit with rfl | hmem
    · unfold readDebit at hfirst
      split at hfirst
      · cases hfirst
      · cases hfirst
        exact ⟨log, rfl⟩
    · exact ih hrest hmem

-- The two debits of a settled plan, where the recipient is not the treasury.
theorem settleDebits_ok {data : UsdtEventData} {debits : List Debit}
    (h : settleDebits plan userOpHash receipt pins data debits = .ok settlement) :
    (0 < settlement.feeAtomic ∧ settlement.feeAtomic ≤ plan.feeCapAtomic) ∧
      settlement.senderDebitAtomic = settlement.recipientCreditAtomic + settlement.feeAtomic ∧
      settlement.residualAllowanceAtomic + settlement.feeAtomic = plan.feeCapAtomic ∧
      (plan.recipient ≠ pins.treasury →
        (debits.map Debit.value).sum = plan.netAtomic + settlement.feeAtomic) ∧
      (plan.recipient = pins.treasury → settlement.feeAtomic = plan.netAtomic) ∧
      ∃ debit ∈ debits, debit.recipient = some pins.treasury := by
  unfold settleDebits at h
  split at h
  · rename_i delivery fee hdelivery hfee
    by_cases hlength : debits.length ≠ 2
    · rw [if_pos hlength] at h
      cases h
    rw [if_neg hlength] at h
    by_cases hnet : delivery.value ≠ plan.netAtomic
    · rw [if_pos hnet] at h
      cases h
    rw [if_neg hnet] at h
    by_cases hcharged : fee.value = 0 ∨ plan.feeCapAtomic < fee.value
    · rw [if_pos hcharged] at h
      cases h
    rw [if_neg hcharged] at h
    cases h
    rw [not_not] at hlength hnet
    have hfeeMem : fee ∈ debits.filter (fun debit => debit.recipient = some pins.treasury) := by
      rw [hfee]
      exact List.mem_cons_self
    have hfeeTo := (List.mem_filter.mp hfeeMem).2
    refine ⟨⟨?_, ?_⟩, rfl, ?_, ?_, ?_, fee, (List.mem_filter.mp hfeeMem).1, of_decide_eq_true hfeeTo⟩
    · dsimp only
      omega
    · dsimp only
      omega
    · dsimp only
      omega
    · -- Two debits, one to each of two addresses.
      intro hother
      obtain ⟨one, two, rfl⟩ : ∃ one two, debits = [one, two] := List.length_eq_two.mp hlength
      have hdeliveryMem : delivery ∈ [one, two].filter (fun debit => debit.recipient = some plan.recipient) := by
        rw [hdelivery]
        exact List.mem_cons_self
      rcases List.mem_filter.mp hdeliveryMem with ⟨hdeliveryIn, hdeliveryTo⟩
      have hto := of_decide_eq_true hdeliveryTo
      have hfeeTo' := of_decide_eq_true hfeeTo
      have hne : delivery ≠ fee := by
        intro hsame
        rw [hsame, hfeeTo'] at hto
        exact hother (Option.some.inj hto).symm
      have hfeeIn := (List.mem_filter.mp hfeeMem).1
      simp only [List.mem_cons, List.not_mem_nil, or_false] at hdeliveryIn hfeeIn
      simp only [List.map_cons, List.map_nil, List.sum_cons, List.sum_nil]
      rcases hdeliveryIn with rfl | rfl
      · rcases hfeeIn with rfl | rfl
        · exact absurd rfl hne
        · omega
      · rcases hfeeIn with rfl | rfl
        · omega
        · exact absurd rfl hne
    · intro hsame
      rw [hsame, hfee] at hdelivery
      cases hdelivery
      exact hnet
  · cases h

-- What an accepted receipt says of its one event.
theorem verifyUsdtReceipt_ok (h : verifyUsdtReceipt checksum plan userOpHash receipt pins = .ok settlement) :
    ∃ event data debits, receipt.logs.filter (isOurs userOpHash pins) = [event] ∧ event.event = some data ∧
      data.success = true ∧ topicAddress checksum event.topics[2]? = some plan.sender ∧
      topicAddress checksum event.topics[3]? = some pins.paymaster ∧
      (receipt.logs.filter (isDebit checksum plan.sender pins)).mapM (readDebit checksum) = .ok debits ∧
      settleDebits plan userOpHash receipt pins data debits = .ok settlement := by
  unfold verifyUsdtReceipt at h
  split at h
  · cases h
  split at h
  · rename_i event hours
    split at h
    · cases h
    rename_i hsender
    split at h
    · cases h
    rename_i hpaymaster
    split at h
    · cases h
    · rename_i data hdata
      split at h
      · cases h
      rename_i hsuccess
      rcases bind_ok.mp h with ⟨debits, hdebits, hsettled⟩
      exact ⟨event, data, debits, hours, hdata, by simpa using hsuccess, not_not.mp hsender, not_not.mp hpaymaster,
        hdebits, hsettled⟩
  · cases h

theorem verifyUsdtRevert_ok (h : verifyUsdtRevert checksum sender userOpHash receipt pins = .ok ()) :
    ∃ event data, receipt.logs.filter (isOurs userOpHash pins) = [event] ∧ event.event = some data ∧
      data.success = false ∧ topicAddress checksum event.topics[2]? = some sender ∧
      receipt.logs.any (isDebit checksum sender pins) = false := by
  unfold verifyUsdtRevert at h
  split at h
  · cases h
  split at h
  · rename_i event hours
    split at h
    · cases h
    rename_i hnamed
    rw [not_or, not_not, not_not] at hnamed
    split at h
    · cases h
    · rename_i data hdata
      split at h
      · cases h
      rename_i hsuccess
      split at h
      · cases h
      rename_i hdebit
      exact ⟨event, data, hours, hdata, by simpa using hsuccess, hnamed.1, by simpa using hdebit⟩
  · cases h

end Verdicts

/-! ## When every receipt is sound -/

/-- What the two verifiers promise of every receipt. -/
def ReceiptsSound (checksum : List Char → String) (plan : UsdtTransferPlan) (userOpHash : String)
    (pins : UsdtReceiptPins) : Prop :=
  ∀ receipt,
    (∀ settlement, verifyUsdtReceipt checksum plan userOpHash receipt pins = .ok settlement →
      ProvesPayment plan userOpHash receipt pins settlement) ∧
    (∀ sender, verifyUsdtRevert checksum sender userOpHash receipt pins = .ok () →
      receipt.logs.any (leavesSender sender pins) = false) ∧
    ¬ ((∃ settlement, verifyUsdtReceipt checksum plan userOpHash receipt pins = .ok settlement) ∧
      verifyUsdtRevert checksum plan.sender userOpHash receipt pins = .ok ())

/-- The recipient is the treasury, which `preparePolicyBoundUsdtV2` refuses, and the amount it is owed could be a fee. -/
structure TreasuryPaid (checksum : List Char → String) (plan : UsdtTransferPlan) (pins : UsdtReceiptPins) : Prop where
  recipient : plan.recipient = pins.treasury
  amount : 0 < plan.netAtomic ∧ plan.netAtomic ≤ plan.feeCapAtomic
  sender : Checksummed checksum plan.sender
  treasury : Checksummed checksum pins.treasury
  paymaster : Checksummed checksum pins.paymaster

section Sound

variable {checksum : List Char → String} {plan : UsdtTransferPlan} {userOpHash : String} {pins : UsdtReceiptPins}

variable {receipt : UsdtChainReceipt}

theorem proves_payment (hlaw : LawfulChecksum checksum) (hnot : ¬ TreasuryPaid checksum plan pins)
    {settlement : UsdtSettlement} (h : verifyUsdtReceipt checksum plan userOpHash receipt pins = .ok settlement) :
    ProvesPayment plan userOpHash receipt pins settlement := by
  rcases verifyUsdtReceipt_ok h with ⟨event, data, debits, hours, hdata, hsuccess, hsender, hpaymaster, hdebits, hsettled⟩
  rcases settleDebits_ok hsettled with ⟨hfee, hdebit, hresidual, hother, hsame, paid, hpaid, hpaidTo⟩
  have hsenderSum := checksummed_of_topic hsender
  have hpaymasterSum := checksummed_of_topic hpaymaster
  have hamounts := readDebits hdebits
  rw [isDebit_eq_leavesSender hlaw hsenderSum] at hamounts
  refine ⟨⟨event, data, hours, hdata, hsuccess, (topicAddress_iff hlaw hsenderSum).mp hsender,
    (topicAddress_iff hlaw hpaymasterSum).mp hpaymaster⟩, ⟨debits.map Debit.value, hamounts, ?_⟩, hfee, hdebit, hresidual⟩
  by_cases htreasury : plan.recipient = pins.treasury
  · -- Then one debit was read both as the delivery and as the fee.
    have hnet := hsame htreasury
    have hread : ∃ topic, topicAddress checksum topic = some pins.treasury := by
      rcases readDebits_mem hdebits hpaid with ⟨log, hlog⟩
      exact ⟨_, hlog.trans hpaidTo⟩
    rcases hread with ⟨topic, htopic⟩
    exact absurd ⟨htreasury, by omega, hsenderSum, checksummed_of_topic htopic, hpaymasterSum⟩ hnot
  · exact hother htreasury

theorem reverts_without_debit (hlaw : LawfulChecksum checksum) {sender : String}
    (h : verifyUsdtRevert checksum sender userOpHash receipt pins = .ok ()) :
    receipt.logs.any (leavesSender sender pins) = false := by
  rcases verifyUsdtRevert_ok h with ⟨event, data, _, _, _, hsender, hdebit⟩
  rw [isDebit_eq_leavesSender hlaw (checksummed_of_topic hsender)] at hdebit
  exact hdebit

theorem not_both {settlement : UsdtSettlement}
    (h : verifyUsdtReceipt checksum plan userOpHash receipt pins = .ok settlement) :
    verifyUsdtRevert checksum plan.sender userOpHash receipt pins ≠ .ok () := by
  intro hrevert
  rcases verifyUsdtReceipt_ok h with ⟨event, data, _, hours, hdata, hsuccess, _⟩
  rcases verifyUsdtRevert_ok hrevert with ⟨event', data', hours', hdata', hfailed, _⟩
  rw [hours] at hours'
  cases hours'
  rw [hdata] at hdata'
  cases hdata'
  rw [hsuccess] at hfailed
  cases hfailed

/-! ## One debit read twice -/

/-- The topic of an address: its word. -/
def wordTopic (digits : List Char) : String :=
  String.ofList ('0' :: 'x' :: List.replicate 24 '0' ++ digits)

theorem topicAddress_wordTopic {digits : List Char} (hlength : digits.length = 40)
    (hhex : digits.all isHexDigit = true) :
    topicAddress checksum (some (wordTopic digits)) = some (checksum (digits.map Char.toLower)) := by
  have hdigits : topicDigits (wordTopic digits) = some digits := by
    unfold topicDigits wordTopic
    rw [String.toList_ofList]
    have htake : ('0' :: 'x' :: List.replicate 24 '0' ++ digits).take 26 = '0' :: 'x' :: List.replicate 24 '0' :=
      List.take_left' rfl
    have hdrop : ('0' :: 'x' :: List.replicate 24 '0' ++ digits).drop 26 = digits := List.drop_left' rfl
    rw [htake, hdrop]
    exact if_pos ⟨rfl, hlength, hhex⟩
  unfold topicAddress
  rw [Option.bind_some, hdigits, Option.map_some]

/-- A transfer of the pinned token out of the sender. -/
def debitLog (pins : UsdtReceiptPins) (sender : List Char) (paid : String × ℕ) : UsdtReceiptLog :=
  ⟨pins.token, [transferEvent, wordTopic sender, paid.1], some paid.2, none⟩

/-- The sender's operation succeeds and pays twice: each a recipient topic and an amount. -/
def paidTwice (userOpHash : String) (pins : UsdtReceiptPins) (sender paymaster : List Char)
    (one two : String × ℕ) : UsdtChainReceipt where
  transactionHash := userOpHash
  blockNumber := 0
  success := true
  logs :=
    [⟨pins.entryPoint, [Gasless.userOperationEvent, userOpHash, wordTopic sender, wordTopic paymaster], none,
        some ⟨0, true, 0, 0⟩⟩, debitLog pins sender one, debitLog pins sender two]

section PaidTwice

variable {sender paymaster : List Char} {one two : String × ℕ}

theorem debits_paidTwice (hsender : topicAddress checksum (some (wordTopic sender)) = some plan.sender) :
    (paidTwice userOpHash pins sender paymaster one two).logs.filter (isDebit checksum plan.sender pins) =
      [debitLog pins sender one, debitLog pins sender two] := by
  have hselectors : ¬ Gasless.userOperationEvent = transferEvent := by decide
  simp [paidTwice, debitLog, isDebit, same, hselectors, hsender]

theorem verify_paidTwice (hsender : topicAddress checksum (some (wordTopic sender)) = some plan.sender)
    (hpaymaster : topicAddress checksum (some (wordTopic paymaster)) = some pins.paymaster) :
    verifyUsdtReceipt checksum plan userOpHash (paidTwice userOpHash pins sender paymaster one two) pins =
      settleDebits plan userOpHash (paidTwice userOpHash pins sender paymaster one two) pins ⟨0, true, 0, 0⟩
        [⟨topicAddress checksum (some one.1), one.2⟩, ⟨topicAddress checksum (some two.1), two.2⟩] := by
  have hselectors : ¬ transferEvent = Gasless.userOperationEvent := by decide
  have hours : (paidTwice userOpHash pins sender paymaster one two).logs.filter (isOurs userOpHash pins) =
      [⟨pins.entryPoint, [Gasless.userOperationEvent, userOpHash, wordTopic sender, wordTopic paymaster], none,
        some ⟨0, true, 0, 0⟩⟩] := by
    simp [paidTwice, debitLog, isOurs, same, hselectors]
  have hread : [debitLog pins sender one, debitLog pins sender two].mapM (readDebit checksum) =
      .ok [⟨topicAddress checksum (some one.1), one.2⟩, ⟨topicAddress checksum (some two.1), two.2⟩] := by
    simp [readDebit, debitLog]
    rfl
  unfold verifyUsdtReceipt
  rw [if_neg (by simp [paidTwice]), hours]
  dsimp only
  rw [if_neg (by simp [hsender]), if_neg (by simp [hpaymaster]), if_neg (by decide), debits_paidTwice hsender, hread]
  rfl

theorem left_paidTwice (hlaw : LawfulChecksum checksum)
    (hsender : topicAddress checksum (some (wordTopic sender)) = some plan.sender) :
    ((paidTwice userOpHash pins sender paymaster one two).logs.filter (leavesSender plan.sender pins)).map
      UsdtReceiptLog.amount = [one.2, two.2].map some := by
  rw [← isDebit_eq_leavesSender hlaw (checksummed_of_topic hsender), debits_paidTwice hsender]
  rfl

end PaidTwice

-- The sender pays the treasury what it owes its recipient, and any amount to nobody.
theorem confused_accepted (hlaw : LawfulChecksum checksum) (h : TreasuryPaid checksum plan pins)
    (userOpHash : String) :
    ∃ receipt settlement, verifyUsdtReceipt checksum plan userOpHash receipt pins = .ok settlement ∧
      ¬ ProvesPayment plan userOpHash receipt pins settlement := by
  rcases h.sender with ⟨sender, hsLength, hsHex, hs⟩
  rcases h.treasury with ⟨treasury, htLength, htHex, ht⟩
  rcases h.paymaster with ⟨paymaster, hpLength, hpHex, hp⟩
  have hsender := (@topicAddress_wordTopic checksum _ hsLength hsHex).trans (congrArg some hs)
  have htreasury := (@topicAddress_wordTopic checksum _ htLength htHex).trans (congrArg some ht)
  have hpaymaster := (@topicAddress_wordTopic checksum _ hpLength hpHex).trans (congrArg some hp)
  have hnobody : topicAddress checksum (some "0x") = none := by
    unfold topicAddress topicDigits
    rfl
  have hamount := h.amount
  have haccepted := @verify_paidTwice checksum plan userOpHash pins sender paymaster
    (wordTopic treasury, plan.netAtomic) ("0x", 0) hsender hpaymaster
  rw [htreasury, hnobody] at haccepted
  have hsettled : settleDebits plan userOpHash
      (paidTwice userOpHash pins sender paymaster (wordTopic treasury, plan.netAtomic) ("0x", 0)) pins
      ⟨0, true, 0, 0⟩ [⟨some pins.treasury, plan.netAtomic⟩, ⟨none, 0⟩] =
        .ok ⟨userOpHash, 0, userOpHash, plan.netAtomic + plan.netAtomic, plan.netAtomic, plan.netAtomic,
          plan.feeCapAtomic - plan.netAtomic, 0⟩ := by
    unfold settleDebits
    rw [h.recipient]
    simp [paidTwice]
    omega
  refine ⟨_, _, haccepted.trans hsettled, ?_⟩
  intro hproves
  rcases hproves.spent with ⟨amounts, hamounts, hsum⟩
  rw [left_paidTwice hlaw hsender] at hamounts
  have hread : [plan.netAtomic, 0] = amounts := List.map_injective_iff.mpr (Option.some_injective ℕ) hamounts
  rw [← hread] at hsum
  simp at hsum
  omega

/-- The receipts of a plan are sound unless it pays the treasury an amount that could be its fee. -/
theorem receipts_sound_iff (hlaw : LawfulChecksum checksum) :
    ReceiptsSound checksum plan userOpHash pins ↔ ¬ TreasuryPaid checksum plan pins := by
  constructor
  · intro hsound htreasury
    rcases confused_accepted hlaw htreasury userOpHash with ⟨receipt, settlement, haccepted, hproves⟩
    exact hproves ((hsound receipt).1 settlement haccepted)
  · intro hnot receipt
    refine ⟨fun settlement h => proves_payment hlaw hnot h, fun sender h => reverts_without_debit hlaw h, ?_⟩
    rintro ⟨⟨settlement, haccepted⟩, hrevert⟩
    exact not_both haccepted hrevert

end Sound

/-! ## A payment to the treasury -/

namespace TreasuryRecipientRun

/-- On digits without letters a checksum has nothing to change. -/
def checksum (digits : List Char) : String := String.ofList ('0' :: 'x' :: digits)

theorem checksum_lawful : LawfulChecksum checksum := by
  intro digits _ _
  have hlower := HexText.map_toLower_map_toLower digits
  show (String.ofList ('0' :: 'x' :: digits.map Char.toLower)).toList.map Char.toLower = _
  rw [String.toList_ofList, List.map_cons, List.map_cons, hlower]
  rfl

def digits (digit : Char) : List Char := List.replicate 40 digit

def address (digit : Char) : String := checksum (digits digit)

def pins : UsdtReceiptPins := ⟨address '1', address '2', address '3', address '4'⟩

def plan (recipient : String) : UsdtTransferPlan := ⟨address '5', recipient, 100, 40⟩

def word (digit : Char) : String := wordTopic (digits digit)

theorem digits_lower {digit : Char} (h : digit ∈ ['2', '3', '5', '6']) : (digits digit).length = 40 ∧
    (digits digit).all isHexDigit = true ∧ (digits digit).map Char.toLower = digits digit := by
  simp only [List.mem_cons, List.not_mem_nil, or_false] at h
  rcases h with rfl | rfl | rfl | rfl <;> decide

theorem topic_word {digit : Char} (h : digit ∈ ['2', '3', '5', '6']) :
    topicAddress checksum (some (word digit)) = some (address digit) := by
  rcases digits_lower h with ⟨hlength, hhex, hlower⟩
  rw [word, topicAddress_wordTopic hlength hhex, hlower]
  rfl

theorem paid_settled {recipient : String} {one two : Char × ℕ} (hone : one.1 ∈ ['2', '3', '5', '6'])
    (htwo : two.1 ∈ ['2', '3', '5', '6']) :
    verifyUsdtReceipt checksum (plan recipient) "0xbb"
      (paidTwice "0xbb" pins (digits '5') (digits '2') (word one.1, one.2) (word two.1, two.2)) pins =
        settleDebits (plan recipient) "0xbb"
          (paidTwice "0xbb" pins (digits '5') (digits '2') (word one.1, one.2) (word two.1, two.2)) pins
          ⟨0, true, 0, 0⟩ [⟨some (address one.1), one.2⟩, ⟨some (address two.1), two.2⟩] := by
  have h := @verify_paidTwice checksum (plan recipient) "0xbb" pins (digits '5') (digits '2')
    (word one.1, one.2) (word two.1, two.2) (topic_word (by decide)) (topic_word (by decide))
  rw [topic_word hone, topic_word htwo] at h
  exact h

/-- Forty to a recipient and twenty-five to the treasury. -/
def paid : UsdtChainReceipt := paidTwice "0xbb" pins (digits '5') (digits '2') (word '6', 40) (word '3', 25)

/-- Forty to the treasury and seventy to somebody else. -/
def confused : UsdtChainReceipt := paidTwice "0xbb" pins (digits '5') (digits '2') (word '3', 40) (word '6', 70)

theorem receipts_sound_of_payment :
    verifyUsdtReceipt checksum (plan (address '6')) "0xbb" paid pins = .ok ⟨"0xbb", 0, "0xbb", 65, 25, 40, 75, 0⟩ ∧
      ReceiptsSound checksum (plan (address '6')) "0xbb" pins :=
  ⟨(@paid_settled _ ('6', 40) ('3', 25) (by decide) (by decide)).trans (by decide +kernel),
    (receipts_sound_iff checksum_lawful).mpr fun h => absurd h.recipient (by decide +kernel)⟩

/-- The treasury is owed forty: the sender loses a hundred and ten, and the settlement says eighty. -/
theorem treasury_payment_unsound :
    verifyUsdtReceipt checksum (plan (address '3')) "0xbb" confused pins =
        .ok ⟨"0xbb", 0, "0xbb", 80, 40, 40, 60, 0⟩ ∧
      ¬ ReceiptsSound checksum (plan (address '3')) "0xbb" pins := by
  have haccepted : verifyUsdtReceipt checksum (plan (address '3')) "0xbb" confused pins =
      .ok ⟨"0xbb", 0, "0xbb", 80, 40, 40, 60, 0⟩ :=
    (@paid_settled _ ('3', 40) ('6', 70) (by decide) (by decide)).trans (by decide +kernel)
  refine ⟨haccepted, ?_⟩
  intro hsound
  rcases ((hsound _).1 _ haccepted).spent with ⟨amounts, hamounts, hsum⟩
  have hleft : ((confused.logs.filter (leavesSender (plan (address '3')).sender pins)).map
      UsdtReceiptLog.amount = [40, 70].map some) :=
    left_paidTwice checksum_lawful (topic_word (by decide))
  rw [hleft] at hamounts
  have hread : [40, 70] = amounts := List.map_injective_iff.mpr (Option.some_injective ℕ) hamounts
  rw [← hread] at hsum
  revert hsum
  decide

end TreasuryRecipientRun

end GaslessUsdt
end PaymentNode
