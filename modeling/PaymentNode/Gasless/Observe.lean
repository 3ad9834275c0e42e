import Mathlib.Data.List.Dedup
import PaymentNode.Lib.Chain
import PaymentNode.Lib.Solo

/-!
# Observe — finding the effect of a signed UserOperation

`observeGasless` asks the bundler for a locator, else scans the EntryPoint's logs from a cursor up to the safe head.
Each request is one batch that one node answers from its own view of the chain; between two requests the chain may
grow and, above its safe head, be reorganised.  A block is named by the chain that ends in it, so two equal headers
have equal ancestors.  The limits on what is read are kept; checks that a truthful answer always passes (its hashes and
indices, four topics a log, the order of the heads' times) are not.
-/

namespace PaymentNode

structure GaslessLog where
  address : String
  topics : List String
  dataBytes : ℕ
deriving DecidableEq

structure GaslessTransaction where
  hash : String
  sender : String
  target : String
  value : ℕ
  inputBytes : ℕ
  success : Bool
  logs : List GaslessLog
deriving DecidableEq

abbrev GaslessChain := List (Chain.Block GaslessTransaction)

/-- What of the intent and its signed UserOperation the observation reads. -/
structure GaslessEffect where
  entryPoint : String
  owner : String
  paymaster : String
  userOperationHash : String
  /-- The block the operation was prepared at. -/
  startBlock : GaslessChain
  /-- The receipt accounting beyond the one UserOperationEvent: permit, transfers, sponsorship and their order. -/
  accounts : GaslessTransaction → Bool

structure GaslessCursor where
  startBlock : GaslessChain
  nextBlock : ℕ
  previousEndBlock : Option GaslessChain
deriving DecidableEq

inductive GaslessStatus
  | notFound
  | pending
  | safe
  | unresolved
  | permissionsInvalidated
deriving DecidableEq

structure GaslessObservation where
  status : GaslessStatus
  transactionHash : Option String
  cursor : GaslessCursor
  reason : Option String
deriving DecidableEq

/-- A bundler's row: each member absent, or what it holds; a transaction hash may be null. -/
structure GaslessBundlerRow where
  userOpHash : Option String
  entryPoint : Option String
  transactionHash : Option (Option String)
  receiptTransactionHash : Option (Option String)
deriving DecidableEq

/-- A log as `eth_getLogs` answers it. -/
structure GaslessScanLog where
  blockNumber : ℕ
  removed : Bool
  log : GaslessLog
  transactionHash : String
deriving DecidableEq

/-- What a transaction hash and its receipt answer: nothing, a transaction without a receipt, or both with the block. -/
inductive GaslessLookup
  | missing
  | unmined
  | mined (tx : GaslessTransaction) (block : GaslessChain)
deriving DecidableEq

/-- The inclusion header, its parent where it was asked for, the safe head and the latest head. -/
structure GaslessHeaders where
  included : GaslessChain
  parent : Option GaslessChain
  safe : GaslessChain
  latest : GaslessChain
deriving DecidableEq

/-- The code of the owner's account: none, the delegation to the intent's delegate, or another. -/
inductive GaslessDelegation
  | empty
  | expected
  | foreign
deriving DecidableEq

/-- One request: one batch of reads. -/
inductive GaslessRequest
  | bundler
  | anchors (previous : Option ℕ)
  | window (stop : ℕ) (ranges : List (ℕ × ℕ))
  | lookup (hash : String)
  | headers (tx : GaslessTransaction) (number : ℕ) (withParent : Bool)
  | settle (number : ℕ)
  | probe

abbrev GaslessResult (α : Type) := Except String α

abbrev GaslessRequest.Answer : GaslessRequest → Type
  | bundler => GaslessResult (Option GaslessBundlerRow) × GaslessResult (Option GaslessBundlerRow)
  | anchors _ => GaslessResult (GaslessChain × Option GaslessChain)
  | window _ _ => GaslessResult (GaslessChain × List (List GaslessScanLog))
  | lookup _ => GaslessResult GaslessLookup
  | headers _ _ _ => GaslessResult GaslessHeaders
  | settle _ => GaslessResult (GaslessDelegation × GaslessChain)
  | probe => GaslessResult Unit

abbrev GaslessProg := Prog GaslessRequest GaslessRequest.Answer String

namespace Gasless

/-- Blocks one canonical scan window covers. -/
def scanWindowBlocks : ℕ := 256

/-- Range of one `eth_getLogs` request. -/
def logRequestBlocks : ℕ := 10

/-- Windows one observation step may scan before it stops at a durable cursor. -/
def scanWindows : ℕ := 4

def blockTransactionLimit : ℕ := 20000

def receiptLogLimit : ℕ := 512

/-- Bytes of an outer transaction's input, of a receipt log's data and of a scanned log's data. -/
def inputLimit : ℕ := 256 * 1024

def logDataLimit : ℕ := 64 * 1024

def scanDataLimit : ℕ := 256

def userOperationEvent : String := "0x49628fd1471006c1482da88028e9ce4dbb080b815c9b0344d39e5a8e6ec1419f"

variable (op : GaslessEffect)

/-- The operation's event: the EntryPoint's, with this hash, owner and paymaster as its topics. -/
def isEvent (log : GaslessLog) : Bool :=
  log.address = op.entryPoint &&
    log.topics = [userOperationEvent, op.userOperationHash, op.owner, op.paymaster]

def initialCursor (startBlock : GaslessChain) : GaslessCursor := ⟨startBlock, Chain.height startBlock, none⟩

def unresolved (cursor : GaslessCursor) (transactionHash : Option String) (reason : String) :
    GaslessObservation :=
  ⟨.unresolved, transactionHash, cursor, some reason⟩

def refuse (c : Prop) [Decidable c] (reason : String) : GaslessProg Unit :=
  if c then .fail reason else .ret ()

/-! ## The bundler's locator -/

/-- The transaction hash a row names, when it names one for this operation. -/
def rowCandidate : GaslessResult (Option GaslessBundlerRow) → Option String
  | .ok (some row) =>
    if row.userOpHash.any (· ≠ op.userOperationHash) then none
    else if row.entryPoint.any (· ≠ op.entryPoint) then none
    else
      match row.transactionHash with
      | some hash => hash
      | none => row.receiptTransactionHash.join
  | _ => none

/-- The one hash the rows agree on. -/
def locator : Option String → Option String → Option String
  | some a, some b => if a = b then some a else none
  | some a, none => some a
  | none, b => b

def bundlerCandidate : GaslessProg (Option String) := do
  let rows ← Prog.perform GaslessRequest.bundler
  return locator (rowCandidate op rows.1) (rowCandidate op rows.2)

/-! ## One transaction -/

def anchored (cursor : GaslessCursor) (headers : GaslessHeaders) : GaslessCursor :=
  match headers.parent with
  | none => initialCursor cursor.startBlock
  | some parent => ⟨cursor.startBlock, Chain.height headers.included, some parent⟩

def blockTransactions : GaslessChain → List GaslessTransaction
  | [] => []
  | b :: _ => b.transactions

/-- Exactly one event of the operation, and the rest of the receipt's accounting. -/
def gaslessAccounting (tx : GaslessTransaction) : Bool :=
  (tx.logs.filter (isEvent op)).length = 1 && op.accounts tx

def inspect (transactionHash : String) (cursor : GaslessCursor) :
    GaslessProg GaslessObservation := do
  let found ← Prog.run (.lookup transactionHash) rfl
  match found with
  | .missing => return ⟨.pending, some transactionHash, cursor, none⟩
  | .unmined => .fail "gasless_receipt_unresolved"
  | .mined tx block => do
    let number := Chain.height block
    refuse (number < Chain.height cursor.startBlock) "gasless_receipt_before_prepare"
    let headers ← Prog.run (.headers tx number (number ≠ Chain.height cursor.startBlock)) rfl
    refuse (headers.included ≠ block ∨ blockTransactionLimit < (blockTransactions headers.included).length)
      "gasless_canonical_transaction_membership"
    refuse (inputLimit < tx.inputBytes) "gasless_RPC_hex"
    refuse (tx.target ≠ op.entryPoint ∨ tx.value ≠ 0 ∨ tx.sender = op.owner) "gasless_outer_identity"
    refuse (receiptLogLimit < tx.logs.length) "gasless_receipt_log_count"
    refuse (∃ log ∈ tx.logs, logDataLimit < log.dataBytes) "gasless_RPC_hex"
    let cursor := anchored cursor headers
    if ¬ tx.success then return unresolved cursor (some transactionHash) "gasless_receipt_unresolved"
    else do
      refuse (Chain.height headers.latest < Chain.height headers.safe) "gasless_head_behind_safe"
      if Chain.height headers.safe < number then
        return ⟨.pending, some transactionHash, cursor, none⟩
      else do
        refuse (¬ gaslessAccounting op tx) "gasless_accounting"
        let (delegation, again) ← Prog.run (.settle number) rfl
        refuse (delegation = .foreign) "gasless_delegation_identity"
        refuse (again ≠ headers.included) "gasless_block_reorg"
        return ⟨.safe, some transactionHash, cursor, none⟩

def inspectSafely (transactionHash : String) (cursor : GaslessCursor) :
    GaslessProg GaslessObservation :=
  (inspect op transactionHash cursor).handle fun _ =>
    .ret (unresolved cursor none "gasless_receipt_unresolved")

/-! ## The canonical scan -/

/-- The bounded log ranges of a window. -/
def ranges (start stop : ℕ) : List (ℕ × ℕ) :=
  (List.range ((stop - start) / logRequestBlocks + 1)).map fun i =>
    (start + logRequestBlocks * i, min stop (start + logRequestBlocks * i + (logRequestBlocks - 1)))

/-- Every log must be what the filter asked for, and they may be 128 in all; `scan` catches whatever this throws. -/
def scanLogs (ranges : List (ℕ × ℕ)) (values : List (List GaslessScanLog)) :
    GaslessResult (List String) :=
  if 128 < values.flatten.length ∨ ranges.length ≠ values.length then .error "gasless_scan_log_count"
  else if (ranges.zip values).any fun row => row.2.any fun log =>
      log.removed || decide (log.blockNumber < row.1.1) || decide (row.1.2 < log.blockNumber) ||
        ! isEvent op log.log then
    .error "gasless_scan_log_identity"
  else if values.flatten.any fun log => scanDataLimit < log.log.dataBytes then .error "gasless_RPC_hex"
  else .ok (values.flatten.map (·.transactionHash)).dedup

/-- A scan's verdict, and the safe head it reached. -/
abbrev GaslessScan := GaslessObservation × Option GaslessChain

def notFound (cursor : GaslessCursor) (safe : GaslessChain) : GaslessScan :=
  (⟨.notFound, none, cursor, none⟩,
    if Chain.height safe < cursor.nextBlock ∧ cursor.previousEndBlock = some safe then some safe else none)

/-- Up to `n` more windows below the safe head.  A throw leaves the scan at the cursor of its last full window. -/
def scanFrom (op : GaslessEffect) (safe : GaslessChain) : ℕ → GaslessCursor → GaslessProg GaslessScan
  | 0, cursor => .ret (notFound cursor safe)
  | n + 1, cursor =>
    if Chain.height safe < cursor.nextBlock then .ret (notFound cursor safe)
    else do
      let start := cursor.nextBlock
      let stop := min (Chain.height safe) (start + scanWindowBlocks - 1)
      let found ← (do
        let answer ← Prog.run (.window stop (ranges start stop)) rfl
        let candidates ← Prog.ofExcept (scanLogs op (ranges start stop) answer.2)
        return (answer.1, candidates) : GaslessProg (GaslessChain × List String)).attempt
      match found with
      | .error _ => return (unresolved cursor none "gasless_receipt_unresolved", none)
      | .ok (stopBlock, candidates) =>
        match candidates with
        | [] => scanFrom op safe n ⟨cursor.startBlock, stop + 1, some stopBlock⟩
        | [candidate] => do
          let observation ← inspectSafely op candidate cursor
          return (observation, none)
        | _ => return (unresolved cursor none "gasless_receipt_unresolved", none)

def scan (cursor : GaslessCursor) : GaslessProg GaslessScan := do
  let answer ← (Prog.run (.anchors (cursor.previousEndBlock.map Chain.height)) rfl :
    GaslessProg (GaslessChain × Option GaslessChain)).attempt
  match answer with
  | .error _ => return (unresolved cursor none "gasless_receipt_unresolved", none)
  | .ok (safe, previous) =>
    if previous ≠ cursor.previousEndBlock then
      return (unresolved (initialCursor cursor.startBlock) none "gasless_receipt_unresolved", none)
    else scanFrom op safe scanWindows cursor

/-! ## The observation -/

/-- The permission-invalidation probe of a final seal, closed at the safe head the scan reached. -/
def observeGaslessBootstrap (cursor : GaslessCursor) (scannedSafe : GaslessChain) :
    GaslessProg GaslessObservation :=
  (do
    refuse (cursor.previousEndBlock ≠ some scannedSafe ∨
      cursor.nextBlock ≠ Chain.height scannedSafe + 1) "scan"
    Prog.run .probe rfl
    return ⟨.permissionsInvalidated, none, cursor, some "gasless_final_permissions_invalidated"⟩ :
      GaslessProg GaslessObservation).handle fun _ =>
    .ret (unresolved cursor none "gasless_bootstrap_unresolved")

def validCursor (cursor : GaslessCursor) : Prop :=
  cursor.startBlock = op.startBlock ∧ Chain.height cursor.startBlock ≤ cursor.nextBlock ∧
    match cursor.previousEndBlock with
    | none => cursor.nextBlock = Chain.height cursor.startBlock
    | some previous => previous ≠ [] ∧ Chain.height cursor.startBlock ≤ Chain.height previous ∧
        cursor.nextBlock = Chain.height previous + 1

instance (op : GaslessEffect) (cursor : GaslessCursor) : Decidable (validCursor op cursor) := by
  unfold validCursor
  cases cursor.previousEndBlock <;> infer_instance

def observeGasless (cursor : GaslessCursor) : GaslessProg GaslessObservation := do
  refuse (¬ validCursor op cursor) "gasless_receipt_unresolved"
  let candidate ← bundlerCandidate op
  match candidate with
  | some transactionHash => inspectSafely op transactionHash cursor
  | none => do
    let scanned ← scan op cursor
    match scanned.1.status, scanned.2 with
    | .notFound, some safe => do
      let invalidation ← observeGaslessBootstrap scanned.1.cursor safe
      return if invalidation.status = .permissionsInvalidated then invalidation else scanned.1
    | _, _ => return scanned.1

/-! ## The chain the requests read -/

/-- The operation's events in a block. -/
def hasEvent (b : Chain.Block GaslessTransaction) : Bool :=
  b.transactions.any fun tx => tx.logs.any (isEvent op)

/-- What every chain of the network satisfies: a hash names one transaction, a reverted transaction emits nothing, and
the EntryPoint spends the operation's nonce with its event, so a chain holds it at most once. -/
structure Proper (op : GaslessEffect) (chain : GaslessChain) : Prop where
  hashes : ((Chain.included chain).map (·.hash)).Nodup
  reverted : ∀ tx ∈ Chain.included chain, tx.success = false → tx.logs = []
  once : ((Chain.included chain).filter fun tx => tx.logs.any (isEvent op)).length ≤ 1

/-- One view of the network: a chain, and its safe head. -/
structure World (op : GaslessEffect) where
  chain : GaslessChain
  safe : GaslessChain
  suffix : safe <:+ chain
  genesis : safe ≠ []
  proper : Proper op chain

/-- The logs of a filter in the blocks numbered `start` to `stop`. -/
def logsBetween (op : GaslessEffect) (start stop : ℕ) : GaslessChain → List GaslessScanLog
  | [] => []
  | b :: below => logsBetween op start stop below ++
      if start ≤ below.length ∧ below.length ≤ stop then
        b.transactions.flatMap fun tx => (tx.logs.filter (isEvent op)).map fun log =>
          ⟨below.length, false, log, tx.hash⟩
      else []

/-- What was answered, if anything was. -/
def Told {α : Type} (answer : GaslessResult α) (P : α → Prop) : Prop := ∀ a, answer = .ok a → P a

def lookupTold {op : GaslessEffect} (w : World op) (hash : String) : GaslessLookup → Prop
  | .missing => ∀ tx ∈ Chain.included w.chain, tx.hash ≠ hash
  | .unmined => ∀ tx ∈ Chain.included w.chain, tx.hash ≠ hash
  | .mined tx block => tx.hash = hash ∧
      ∃ b below, block = b :: below ∧ block <:+ w.chain ∧ tx ∈ b.transactions

/-- Every read tells the truth about one view of the chain; a request may fail, the bundler says anything. -/
def answers (w : World op) : (q : GaslessRequest) → q.Answer → Prop
  | .bundler, _ => True
  | .anchors previous, answer => Told answer fun (safe, block) =>
      safe = w.safe ∧ block = previous.bind (Chain.blockAt w.chain) ∧ block.isSome = previous.isSome
  | .window stop ranges, answer => Told answer fun (block, values) =>
      Chain.blockAt w.chain stop = some block ∧
        values = ranges.map fun range => logsBetween op range.1 range.2 w.chain
  | .lookup hash, answer => Told answer (lookupTold w hash)
  | .headers _ number withParent, answer => Told answer fun headers =>
      Chain.blockAt w.chain number = some headers.included ∧ headers.safe = w.safe ∧
        headers.latest = w.chain ∧ headers.parent.isSome = withParent ∧
        ∀ parent, headers.parent = some parent → Chain.blockAt w.chain (number - 1) = some parent
  | .settle number, answer => Told answer fun (_, block) => Chain.blockAt w.chain number = some block
  | .probe, _ => True

/-- A request meets a later view: the safe head grew, and was not reorganised. -/
def exec : Solo.Exec GaslessRequest GaslessRequest.Answer (World op) :=
  fun w q answer w' => w.safe <:+ w'.safe ∧ answers op w' q answer

end Gasless
end PaymentNode
