import Mathlib.Data.Nat.Notation
import PaymentNode.Basic

/-!
# Destination credits — what an observed payout says about a Relay operation

Translated from `src/relay/destination-proof.ts` and `src/relay/ethereum-usdc-credit-proof.ts`.  A hash or an
address is compared whatever the case of its text and is a number here; `none` is a text that is no such hex
value.  The reads of a proof are arguments: what they answered decides the result.
-/

namespace PaymentNode.Payout

/-- A 32-byte hash. -/
abbrev Word := ℕ

/-- A 20-byte address. -/
abbrev Address := ℕ

inductive PayoutToken
  | native
  | erc20 (address : Address)
deriving DecidableEq

structure RelayLog where
  address : Option Address
  topics : List (Option Word)
  data : Option (List ℕ)
  transactionHash : Option Word
  blockNumber : ℕ
  blockHash : Option Word
  removed : Bool
  logIndex : ℕ
deriving DecidableEq

structure RelayTransaction where
  hash : Option Word
  chainId : ℕ
  recipient : Option Address
  valueWei : ℕ
  blockNumber : Option ℕ
  blockHash : Option Word
deriving DecidableEq

structure RelayReceipt where
  transactionHash : Option Word
  success : Bool
  blockNumber : ℕ
  blockHash : Option Word
  logs : Option (List RelayLog)
deriving DecidableEq

structure RelayBlock where
  number : ℕ
  hash : Option Word
deriving DecidableEq

/-- One payment of a saved order. -/
structure QuotePayment where
  currency : Address
  recipient : Address
  minimumAmount : ℕ
deriving DecidableEq

/-- The output of a saved order. -/
structure QuoteOutput where
  chainId : String
  calls : ℕ
  payments : List QuotePayment
deriving DecidableEq

/-- The saved quote of an Ethereum USDC operation. -/
structure RelayQuote where
  orderId : String
  routeReference : String
  output : QuoteOutput
deriving DecidableEq

/-- The saved quote of a native operation. -/
structure RelayNativeQuote where
  orderId : String
  routeReference : String
  recipient : Address
  minimumOutputWei : ℕ
deriving DecidableEq

/-- What the saved draft of an Arbitrum operation projects to. -/
structure ArbitrumQuote where
  /-- The digest of the projection equals `quoteDigest`, and the schema and the route are the pinned ones. -/
  projected : Bool
  quoteDigest : String
  orderId : String
  recipient : Address
  minimumOutputAtomic : ℕ
  output : QuoteOutput
deriving DecidableEq

/-- The route data of an operation. -/
inductive RelayOrder
  | ethereum (quote : RelayQuote)
  | native (quote : RelayNativeQuote)
  | arbitrum (orderId : String)
deriving DecidableEq

/-- A saved operation that its validator accepts. -/
structure RelayOperation where
  profileHash : String
  operationId : String
  integrityHash : String
  sourceChainId : ℕ
  destinationChainId : ℕ
  recipient : Address
  minOutputAtomic : ℕ
  quoteDigest : String
  statusLocator : Option String
  order : RelayOrder
deriving DecidableEq

def RelayOrder.orderId : RelayOrder → String
  | ethereum quote => quote.orderId
  | native quote => quote.orderId
  | arbitrum orderId => orderId

def nativeCurrency : Address := 0
def ethereumUsdc : Address := 0xA0b86991c6218b36c1d19D4a2e9Eb0cE3606eB48
def relayMegaUsdm : Address := 0xfafddbb3fc7688494971a79cc65dca3ef82079e7
def relayRouterV3 : Address := 0xb92fe925dc43a0ecde6c8b1a2709c170ec4fff4f
def solverNativeTransferTopic : Word := 0xd35467972d1fda5b63c735f59d3974fa51785a41a92aa3ed1b70832836f8dba6
def erc20TransferTopic : Word := 0xddf252ad1be2c89b69c2b068fc378daa952ba7f163c4a11628f55a4df523b3ef

inductive CreditMethod
  | directNativeTransaction
  | relayRouterEvent
  | pinnedErc20TransferEvent
deriving DecidableEq

/-- On-chain credit evidence of a native or token payout. -/
structure CreditEvidence where
  operationId : String
  operationIntegrityHash : String
  quoteDigest : String
  orderId : String
  sourceDepositHash : Option Word
  destinationTransactionHash : Word
  destinationBlockNumber : ℕ
  destinationBlockHash : Word
  polygonMilestone : Bool
  finalityBlockNumber : ℕ
  finalityBlockHash : Word
  recipient : Address
  minimumOutputWei : ℕ
  creditedWei : ℕ
  method : CreditMethod
deriving DecidableEq

inductive ProofStatus
  | pending
  | unproven
  | mismatch
deriving DecidableEq

/-- A proven credit, or why there is none. -/
inductive ProofResult (ε : Type)
  | proven (proof : ε)
  | open' (status : ProofStatus) (reason : String)
deriving DecidableEq

namespace ProofResult

variable {ε : Type}

def pending (reason : String) : ProofResult ε := .open' .pending reason
def unproven (reason : String) : ProofResult ε := .open' .unproven reason
def mismatch (reason : String) : ProofResult ε := .open' .mismatch reason

end ProofResult

/-! ## The logs of a receipt -/

def wordOf (bytes : List ℕ) : Word := bytes.foldl (fun word byte => word * 256 + byte) 0

/-- The two words of a `SolverNativeTransfer`, the first an address. -/
def RelayLog.transfer (log : RelayLog) : Option (Address × ℕ) :=
  match log.data with
  | none => none
  | some bytes =>
    if log.topics.length ≠ 1 ∨ bytes.length ≠ 64 ∨ 2 ^ 160 ≤ wordOf (bytes.take 32) then none
    else some (wordOf (bytes.take 32), wordOf (bytes.drop 32))

def routerEventCredit (receipt : RelayReceipt) (recipient : Address) : Option ℕ :=
  match receipt.logs with
  | none => none
  | some logs =>
    if 256 < logs.length then none
    else
      let transfers := logs.filter fun log =>
        log.address = some relayRouterV3 ∧ log.topics.head? = some (some solverNativeTransferTopic)
      if transfers.any fun log => log.transfer.isNone then none
      else
        match (transfers.filterMap RelayLog.transfer).filter fun transfer => transfer.1 = recipient with
        | [transfer] => some transfer.2
        | _ => none

/-- The word of a one-word `data`. -/
def RelayLog.amount (log : RelayLog) : Option ℕ :=
  match log.data with
  | none => none
  | some bytes => if bytes.length = 32 then some (wordOf bytes) else none

def tokenTransferCredit (receipt : RelayReceipt) (token recipient : Address) : Option ℕ :=
  let credits := ((receipt.logs.getD []).filter fun log => log.address = some token ∧ log.topics.length = 3 ∧
    log.topics.head? = some (some erc20TransferTopic) ∧ log.topics[2]? = some (some recipient)).filterMap
      RelayLog.amount
  match credits with
  | [credit] => some credit
  | _ => none

/-! ## A native or token payout -/

/-- What the reads of one candidate answered; `none` is a read that threw. -/
structure CandidateReads where
  chainId : ℕ
  transaction : Option RelayTransaction
  receipt : Option RelayReceipt
  block : Option RelayBlock
  safe : Option RelayBlock
deriving DecidableEq

/-- The credit of the recipient and how it was made, or the reason there is none. -/
def creditOf (op : RelayOperation) (tx : RelayTransaction) (receipt : RelayReceipt) (expectedChainId : ℕ) :
    Except String (ℕ × CreditMethod) :=
  if expectedChainId = 4326 then
    match tokenTransferCredit receipt relayMegaUsdm op.recipient with
    | none => .error "mega_token_credit_missing_or_ambiguous"
    | some credited => .ok (credited, .pinnedErc20TransferEvent)
  else if tx.recipient = some op.recipient then .ok (tx.valueWei, .directNativeTransaction)
  else
    match routerEventCredit receipt op.recipient with
    | none => .error "relay_router_event_missing_or_ambiguous"
    | some credited =>
      if credited = 0 then .error "relay_router_event_missing_or_ambiguous" else .ok (credited, .relayRouterEvent)

/-- `inspectCandidate`, once every read has answered. -/
def inspectReads (op : RelayOperation) (sourceHash : Option Word) (hash : Word) (expectedChainId : ℕ)
    (reads : CandidateReads) : ProofResult CreditEvidence :=
  if reads.chainId ≠ expectedChainId then .mismatch "destination_chain_id"
  else
    match reads.transaction, reads.receipt with
    | some tx, some receipt =>
      match receipt.blockHash with
      | none => .mismatch "destination_transaction_receipt_identity"
      | some blockHash =>
        if tx.hash ≠ some hash ∨ receipt.transactionHash ≠ some hash ∨ tx.chainId ≠ expectedChainId ∨
            tx.blockNumber ≠ some receipt.blockNumber ∨ tx.blockHash ≠ some blockHash then
          .mismatch "destination_transaction_receipt_identity"
        else if ¬ receipt.success then .mismatch "destination_receipt_failed"
        else
          match reads.block, reads.safe with
          | some block, some safe =>
            match safe.hash with
            | none => .mismatch "destination_noncanonical_block"
            | some safeHash =>
              if block.number ≠ receipt.blockNumber ∨ block.hash ≠ some blockHash then
                .mismatch "destination_noncanonical_block"
              else if safe.number < receipt.blockNumber then .pending "destination_not_safe"
              else
                match creditOf op tx receipt expectedChainId with
                | .error reason => .unproven reason
                | .ok (credited, method) =>
                  if credited < op.minOutputAtomic then .mismatch "destination_value_below_minimum"
                  else .proven {
                    operationId := op.operationId
                    operationIntegrityHash := op.integrityHash
                    quoteDigest := op.quoteDigest
                    orderId := op.order.orderId
                    sourceDepositHash := sourceHash
                    destinationTransactionHash := hash
                    destinationBlockNumber := receipt.blockNumber
                    destinationBlockHash := blockHash
                    polygonMilestone := expectedChainId = 137
                    finalityBlockNumber := safe.number
                    finalityBlockHash := safeHash
                    recipient := op.recipient
                    minimumOutputWei := op.minOutputAtomic
                    creditedWei := credited
                    method := method }
          | _, _ => .pending "destination_finality_unavailable"
    | _, _ => .pending "destination_transaction_or_receipt_missing"

/-! ## An Ethereum USDC payout -/

structure UsdcCreditProof where
  quoteDigest : String
  orderId : String
  destinationTransactionHash : Word
  destinationBlockNumber : ℕ
  destinationBlockHash : Word
  safeBlockNumber : ℕ
  safeBlockHash : Word
  token : Address
  recipient : Address
  minimumOutputAtomic : ℕ
  creditedAtomic : ℕ
  transferLogIndex : ℕ
deriving DecidableEq

/-- The saved quote names one USDC payment to its own recipient. -/
def ArbitrumQuote.bound (quote : ArbitrumQuote) : Bool :=
  quote.projected && quote.output.chainId = "ethereum" && quote.output.calls = 0 &&
    quote.minimumOutputAtomic ≠ 0 &&
    quote.output.payments = [⟨ethereumUsdc, quote.recipient, quote.minimumOutputAtomic⟩]

/-- A log of the receipt at hand, every field of it well formed. -/
def RelayLog.identified (log : RelayLog) (hash : Word) (receipt : RelayReceipt) : Bool :=
  log.transactionHash = some hash && log.blockHash = receipt.blockHash && log.blockNumber = receipt.blockNumber &&
    !log.removed && log.address.isSome && log.topics.length ≤ 4 && log.topics.all Option.isSome && log.data.isSome

/-- The recipient and the amount of a USDC transfer. -/
def RelayLog.usdcTransfer (log : RelayLog) : Option (Address × ℕ × ℕ) :=
  match log.topics, log.amount with
  | [_, some sender, some recipient], some amount =>
    if 2 ^ 160 ≤ sender ∨ 2 ^ 160 ≤ recipient then none else some (recipient, amount, log.logIndex)
  | _, _ => none

/-- The reads of one USDC candidate, after the chain and the transaction were read. -/
structure UsdcReads where
  inclusion : Option RelayBlock
  safe : Option RelayBlock
  inclusionAgain : Option RelayBlock
  safeAgain : Option RelayBlock
deriving DecidableEq

/-- The identity of the transaction and of its receipt. -/
def identifies (hash : Word) (tx : RelayTransaction) (receipt : RelayReceipt) : Bool :=
  tx.hash = some hash && receipt.transactionHash = some hash && tx.chainId = 1 &&
    tx.blockNumber = some receipt.blockNumber && tx.blockHash = receipt.blockHash && receipt.blockHash.isSome &&
    match receipt.logs with
    | none => false
    | some logs => decide (logs.length ≤ 256)

/-- The one USDC transfer to the recipient, or why there is none. -/
def usdcCredit (quote : ArbitrumQuote) (hash : Word) (receipt : RelayReceipt) : Except (ProofStatus × String) (ℕ × ℕ) :=
  let logs := receipt.logs.getD []
  if (logs.any fun log => !log.identified hash receipt) ∨ ¬ (logs.map (·.logIndex)).Nodup then
    .error (.mismatch, "destination_receipt_log_identity")
  else
    let transfers := logs.filter fun log =>
      log.address = some ethereumUsdc ∧ log.topics.head? = some (some erc20TransferTopic)
    if transfers.any fun log => log.usdcTransfer.isNone then .error (.mismatch, "destination_transfer_log_malformed")
    else
      match (transfers.filterMap RelayLog.usdcTransfer).filter fun transfer => transfer.1 = quote.recipient with
      | [transfer] =>
        if transfer.2.1 < quote.minimumOutputAtomic then .error (.mismatch, "destination_value_below_minimum")
        else .ok transfer.2
      | _ => .error (.unproven, "destination_transfer_missing_or_ambiguous")

/-- `proveRelayEthereumUsdcCredit`, once the transaction is identified and the blocks are read. -/
def usdcReads (quote : ArbitrumQuote) (hash : Word) (receipt : RelayReceipt) (reads : UsdcReads) :
    ProofResult UsdcCreditProof :=
  match reads.inclusionAgain, reads.safeAgain, reads.inclusion, reads.safe with
  | some inclusionAgain, some safeAgain, some inclusion, some safe =>
    match inclusion.hash, safe.hash with
    | some inclusionHash, some safeHash =>
      if inclusion.number ≠ receipt.blockNumber ∨ receipt.blockHash ≠ some inclusionHash ∨
          inclusionAgain.number ≠ inclusion.number ∨ inclusionAgain.hash ≠ some inclusionHash ∨
          safeAgain.number ≠ safe.number ∨ safeAgain.hash ≠ some safeHash then
        .mismatch "destination_noncanonical_block"
      else if safe.number < receipt.blockNumber then .pending "destination_not_safe"
      else
        match usdcCredit quote hash receipt with
        | .error (status, reason) => .open' status reason
        | .ok (credited, logIndex) => .proven {
            quoteDigest := quote.quoteDigest
            orderId := quote.orderId
            destinationTransactionHash := hash
            destinationBlockNumber := receipt.blockNumber
            destinationBlockHash := inclusionHash
            safeBlockNumber := safe.number
            safeBlockHash := safeHash
            token := ethereumUsdc
            recipient := quote.recipient
            minimumOutputAtomic := quote.minimumOutputAtomic
            creditedAtomic := credited
            transferLogIndex := logIndex }
    | _, _ => .mismatch "destination_noncanonical_block"
  | _, _, _, _ => .pending "destination_finality_unavailable"

end PaymentNode.Payout
