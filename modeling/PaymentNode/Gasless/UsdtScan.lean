import PaymentNode.Gasless.Observe
import PaymentNode.Basic
import PaymentNode.Lib.Windows

/-!
# UsdtScan — the bounded scan for a USDT UserOperation

`scanUsdtUserOperation` reads the finalized head and the prepared anchor in one batch, then the EntryPoint's logs
from the anchor through the last block that could still include the operation, with that block's header, in
another.  A block later than the signed `validUntil` never includes the operation and blocks are a slot apart, so
the range is bounded by `validUntil`; the verdict is final once its last block is finalized and too late.
-/

namespace PaymentNode

structure UsdtUserOperationScanInput where
  userOpHash : String
  sender : String
  fromBlock : ℕ
  fromBlockHash : String
  validUntil : ℕ
  paymaster : String
  entryPoint : String
deriving DecidableEq, Repr

structure UsdtHeader where
  number : ℕ
  hash : String
  timestamp : ℕ
deriving DecidableEq, Repr

inductive UsdtUserOperationScan
  | found (transactionHash : String)
  | notFound (final : Bool) (finalizedBlock endBlock : ℕ) (endBlockHash : Option String)
deriving DecidableEq, Repr

/-- The node's answers to the two batches; a missing block answers `none`. -/
structure UsdtScanRpc where
  chainId : ℕ
  finalized : Option UsdtHeader
  block : ℕ → Option UsdtHeader
  logs : List (ℕ × ℕ) → List (List GaslessScanLog)
  endBlock : ℕ → Option UsdtHeader

namespace GaslessUsdt

/-- Consecutive Ethereum blocks are at least this many seconds apart. -/
def slotSeconds : ℕ := 12

/-- Blocks of one log range, and how many ranges one batch may ask. -/
def logWindow : ℕ := 100

def logWindows : ℕ := 11

def lowerCase (s : String) : String := s.map Char.toLower

/-- An address as a topic: `0x` and 64 digits. -/
def addressWord (address : String) : String :=
  let digits := (address.toList.drop 2).map Char.toLower
  String.ofList ('0' :: 'x' :: List.replicate (64 - digits.length) '0' ++ digits)

section

variable (input : UsdtUserOperationScanInput)

def usdtTopics : List String :=
  [Gasless.userOperationEvent, lowerCase input.userOpHash, addressWord input.sender, addressWord input.paymaster]

def usdtHeader (value : Option UsdtHeader) : GaslessResult UsdtHeader :=
  match value with
  | none => .error "gasless_RPC_record"
  | some header => .ok header

/-- The last block that could still include the operation. -/
def lastPossible (start : UsdtHeader) : ℕ :=
  input.fromBlock +
    (if start.timestamp < input.validUntil then (input.validUntil - start.timestamp) / slotSeconds else 0) + 1

def scanEnd (start finalized : UsdtHeader) : ℕ :=
  if finalized.number < lastPossible input start then finalized.number else lastPossible input start

def rangeSize (fromBlock last : ℕ) : ℕ :=
  let ceiling := (last - fromBlock + 1 + logWindows - 1) / logWindows
  if logWindow < ceiling then ceiling else logWindow

theorem rangeSize_pos (fromBlock last : ℕ) : 0 < rangeSize fromBlock last := by
  unfold rangeSize
  dsimp only
  split
  · omega
  · decide

def rangesFrom (last size : ℕ) (h : 0 < size) (start : ℕ) : List (ℕ × ℕ) :=
  if start ≤ last then
    (start, if start + size - 1 < last then start + size - 1 else last) :: rangesFrom last size h (start + size)
  else []
termination_by last + 1 - start

def scanRanges (fromBlock last : ℕ) : List (ℕ × ℕ) :=
  rangesFrom last (rangeSize fromBlock last) (rangeSize_pos fromBlock last) fromBlock

/-- A log must be the asked one, of the asked range. -/
def checkScanLog (range : ℕ × ℕ) (log : GaslessScanLog) :
    GaslessResult String :=
  if log.log.address ≠ input.entryPoint ∨ log.removed = true ∨ log.blockNumber < range.1 ∨
      range.2 < log.blockNumber ∨ log.log.topics ≠ usdtTopics input then
    .error "gasless_usdt_scan_log_identity"
  else .ok log.transactionHash

def checkScanRange (answer : (ℕ × ℕ) × List GaslessScanLog) :
    GaslessResult (List String) :=
  if 16 < answer.2.length then .error "gasless_usdt_scan_logs"
  else answer.2.mapM (checkScanLog input answer.1)

/-- What the transactions found say, under the header of the last block. -/
def scanVerdict (finalized endBlock : UsdtHeader) (last : ℕ)
    (found : List String) : GaslessResult UsdtUserOperationScan :=
  match found.dedup with
  | [] =>
    -- Final only when every block that could include the operation is finalized and was scanned.
    .ok (.notFound (decide (input.validUntil < finalized.timestamp ∧ input.validUntil < endBlock.timestamp))
      finalized.number last (some endBlock.hash))
  | [transactionHash] => .ok (.found transactionHash)
  | _ :: _ :: _ => .error "gasless_usdt_scan_ambiguous"

def scanUsdtUserOperation (rpc : UsdtScanRpc) (input : UsdtUserOperationScanInput) :
    GaslessResult UsdtUserOperationScan := do
  if rpc.chainId ≠ 1 then .error "gasless_usdt_chain"
  else
    let finalized ← usdtHeader rpc.finalized
    let start ← usdtHeader (rpc.block input.fromBlock)
    if start.number ≠ input.fromBlock ∨ start.hash ≠ lowerCase input.fromBlockHash then
      .error "gasless_usdt_scan_anchor_not_canonical"
    else if finalized.number < input.fromBlock then
      return .notFound false finalized.number finalized.number none
    else
      let last := scanEnd input start finalized
      let ranges := scanRanges input.fromBlock last
      let endBlock ← usdtHeader (rpc.endBlock last)
      if endBlock.number ≠ last ∨ (last = finalized.number ∧ endBlock.hash ≠ finalized.hash) then
        .error "gasless_usdt_scan_end_block"
      else
        let found ← (ranges.zip (rpc.logs ranges)).mapM (checkScanRange input)
        scanVerdict input finalized endBlock last found.flatten

/-! ## The ranges -/

theorem rangesFrom_tiles {last size start : ℕ} (h : 0 < size) (hstart : start ≤ last + 1) :
    Windows.Tiles start (rangesFrom last size h start) (last + 1) := by
  fun_induction rangesFrom last size h start with
  | case1 start hle ih =>
    by_cases hmore : start + size - 1 < last
    · rw [if_pos hmore]
      have hnext : start + size - 1 + 1 = start + size := by omega
      apply Windows.Tiles.cons (by omega)
      rw [hnext]
      exact ih (by omega)
    · rw [if_neg hmore]
      have hdone : rangesFrom last size h (start + size) = [] := by
        rw [rangesFrom, if_neg (by omega)]
      rw [hdone]
      exact Windows.Tiles.cons hle Windows.Tiles.nil
  | case2 start hdone =>
    have hend : start = last + 1 := by omega
    rw [hend]
    exact Windows.Tiles.nil

theorem rangesFrom_length {last size start : ℕ} (h : 0 < size) :
    (rangesFrom last size h start).length * size ≤ last + 1 - start + (size - 1) := by
  fun_induction rangesFrom last size h start with
  | case1 start hle ih =>
    rw [List.length_cons, Nat.succ_mul]
    by_cases hmore : start + size ≤ last + 1
    · omega
    · rw [rangesFrom, if_neg (by omega)]
      rw [List.length_nil]
      omega
  | case2 start hdone =>
    rw [List.length_nil]
    omega

-- At most eleven ranges, consecutive and disjoint, cover the blocks from the anchor to the end.
theorem scanRanges_spec {fromBlock last : ℕ} (h : fromBlock ≤ last) :
    Windows.Tiles fromBlock (scanRanges fromBlock last) (last + 1) ∧
      (scanRanges fromBlock last).length ≤ 11 := by
  refine ⟨rangesFrom_tiles _ (by omega), ?_⟩
  have hlength : (scanRanges fromBlock last).length * rangeSize fromBlock last ≤
      last + 1 - fromBlock + (rangeSize fromBlock last - 1) := rangesFrom_length _
  have hpos := rangeSize_pos fromBlock last
  have hceiling : last - fromBlock + 1 ≤ 11 * rangeSize fromBlock last := by
    unfold rangeSize logWindows logWindow
    dsimp only
    split <;> omega
  -- Eleven full ranges already reach past the end.
  by_contra hmany
  have htwelve : 12 * rangeSize fromBlock last ≤ (scanRanges fromBlock last).length * rangeSize fromBlock last :=
    Nat.mul_le_mul_right _ (by omega)
  omega

/-! ## The node's answers -/

/-- The operation's event: the EntryPoint's, under its four topics. -/
def isUsdtEvent (log : GaslessLog) : Bool :=
  log.address = input.entryPoint && log.topics = usdtTopics input

/-- The header of the block a chain ends in. -/
def headerOf (blockHash : GaslessChain → String) (c : GaslessChain) : Option UsdtHeader :=
  c.head?.map fun b => ⟨Chain.height c, blockHash c, b.timestamp⟩

def headerAt (blockHash : GaslessChain → String) (c : GaslessChain) (n : ℕ) : Option UsdtHeader :=
  (Chain.blockAt c n).bind (headerOf blockHash)

/-- The logs of one block that match the filter. -/
def eventLogs (c : GaslessChain) (n : ℕ) : List GaslessScanLog :=
  ((Chain.blockAt c n).bind List.head?).elim [] fun b =>
    b.transactions.flatMap fun tx => (tx.logs.filter (isUsdtEvent input)).map fun log => ⟨n, false, log, tx.hash⟩

def logsIn (c : GaslessChain) (range : ℕ × ℕ) : List GaslessScanLog :=
  (List.range' range.1 (range.2 + 1 - range.1)).flatMap (eventLogs input c)

/-- One node's view: its canonical chain, and how much of it is finalized. -/
structure UsdtView where
  head : GaslessChain
  finalized : GaslessChain
  finalized_head : finalized <:+ head

/-- The first batch is answered from one view of the node, the second from another. -/
def nodeRpc (blockHash : GaslessChain → String) (input : UsdtUserOperationScanInput) (first second : UsdtView) :
    UsdtScanRpc where
  chainId := 1
  finalized := headerOf blockHash first.finalized
  block := headerAt blockHash first.head
  logs := fun ranges => ranges.map (logsIn input second.head)
  endBlock := headerAt blockHash second.head

/-- A transaction of block `n` with the operation's event. -/
def EventIn (c : GaslessChain) (n : ℕ) (tx : GaslessTransaction) : Prop :=
  ∃ b below, b :: below <:+ c ∧ below.length = n ∧ tx ∈ b.transactions ∧ ∃ log ∈ tx.logs, isUsdtEvent input log

end

/-- A chain of the network: blocks a slot apart, and an EntryPoint that refuses the operation once it is too late. -/
structure UsdtChain (input : UsdtUserOperationScanInput) (c : GaslessChain) : Prop where
  spaced : Chain.Spaced slotSeconds c
  refuses : ∀ b below tx log, b :: below <:+ c → tx ∈ b.transactions → log ∈ tx.logs → isUsdtEvent input log →
    b.timestamp ≤ input.validUntil

section Answers

variable {blockHash : GaslessChain → String} {input : UsdtUserOperationScanInput} {c e : GaslessChain} {n : ℕ}
  {tx : GaslessTransaction} {header : UsdtHeader}

theorem headerOf_eq_some (h : headerOf blockHash c = some header) :
    ∃ b below, c = b :: below ∧ header = ⟨below.length, blockHash c, b.timestamp⟩ := by
  cases c with
  | nil => cases h
  | cons b below =>
    cases h
    exact ⟨b, below, rfl, rfl⟩

theorem headerAt_eq_some (h : headerAt blockHash c n = some header) :
    ∃ b below, b :: below <:+ c ∧ below.length = n ∧ header = ⟨n, blockHash (b :: below), b.timestamp⟩ := by
  rcases Option.bind_eq_some_iff.mp h with ⟨d, hblock, hheader⟩
  rcases Chain.blockAt_eq_some.mp hblock with ⟨hsuffix, hlength⟩
  rcases headerOf_eq_some hheader with ⟨b, below, rfl, rfl⟩
  have hn : below.length = n := by simpa using hlength
  exact ⟨b, below, hsuffix, hn, by rw [hn]⟩

variable {entry : GaslessScanLog}

theorem mem_eventLogs :
    entry ∈ eventLogs input c n ↔ entry.blockNumber = n ∧ entry.removed = false ∧ isUsdtEvent input entry.log ∧
      ∃ b below tx, b :: below <:+ c ∧ below.length = n ∧ tx ∈ b.transactions ∧ entry.log ∈ tx.logs ∧
        tx.hash = entry.transactionHash := by
  unfold eventLogs
  constructor
  · intro h
    cases hblock : (Chain.blockAt c n).bind List.head? with
    | none =>
      rw [hblock] at h
      cases h
    | some b =>
      rw [hblock] at h
      rcases Option.bind_eq_some_iff.mp hblock with ⟨d, hd, hhead⟩
      rcases Chain.blockAt_eq_some.mp hd with ⟨hsuffix, hlength⟩
      rcases List.head?_eq_some_iff.mp hhead with ⟨below, rfl⟩
      rcases List.mem_flatMap.mp h with ⟨tx, htx, hlog⟩
      rcases List.mem_map.mp hlog with ⟨log, hfilter, rfl⟩
      rcases List.mem_filter.mp hfilter with ⟨hmem, hevent⟩
      exact ⟨rfl, rfl, hevent, b, below, tx, hsuffix, by simpa using hlength, htx, hmem, rfl⟩
  · rintro ⟨hnumber, hremoved, hevent, b, below, tx, hsuffix, hlength, htx, hmem, hhash⟩
    have hblock : Chain.blockAt c n = some (b :: below) :=
      Chain.blockAt_eq_some.mpr ⟨hsuffix, by simpa using hlength⟩
    rw [hblock]
    refine List.mem_flatMap.mpr ⟨tx, htx, List.mem_map.mpr ⟨entry.log, List.mem_filter.mpr ⟨hmem, hevent⟩, ?_⟩⟩
    rw [← hnumber, ← hremoved, hhash]

theorem mem_logsIn {range : ℕ × ℕ} :
    entry ∈ logsIn input c range ↔ range.1 ≤ entry.blockNumber ∧ entry.blockNumber ≤ range.2 ∧
      entry ∈ eventLogs input c entry.blockNumber := by
  unfold logsIn
  rw [List.mem_flatMap]
  constructor
  · rintro ⟨n, hn, hentry⟩
    rw [List.mem_range'_1] at hn
    have hnumber := (mem_eventLogs.mp hentry).1
    rw [hnumber]
    exact ⟨by omega, by omega, hentry⟩
  · rintro ⟨hlow, hhigh, hentry⟩
    refine ⟨entry.blockNumber, ?_, hentry⟩
    rw [List.mem_range'_1]
    omega

-- A truthful log passes the check of its range.
theorem checkScanLog_of_mem {range : ℕ × ℕ} (h : entry ∈ logsIn input c range) :
    checkScanLog input range entry = .ok entry.transactionHash := by
  rcases mem_logsIn.mp h with ⟨hlow, hhigh, hentry⟩
  rcases mem_eventLogs.mp hentry with ⟨-, hremoved, hevent, -⟩
  unfold isUsdtEvent at hevent
  rw [Bool.and_eq_true, decide_eq_true_eq, decide_eq_true_eq] at hevent
  unfold checkScanLog
  rw [if_neg]
  rintro (haddress | hgone | hbefore | hafter | htopics)
  · exact haddress hevent.1
  · rw [hremoved] at hgone
    cases hgone
  · omega
  · omega
  · exact htopics hevent.2

/-- The transactions the logs of one range name. -/
def namedIn (input : UsdtUserOperationScanInput) (c : GaslessChain) (range : ℕ × ℕ) : List String :=
  (logsIn input c range).map GaslessScanLog.transactionHash

theorem mapM_pure {ε α β : Type} {f : α → Except ε β} {g : α → β} {xs : List α}
    (h : ∀ x ∈ xs, f x = .ok (g x)) : xs.mapM f = .ok (xs.map g) := by
  induction xs with
  | nil => rfl
  | cons x xs ih =>
    rw [List.mapM_cons, h x List.mem_cons_self, List.map_cons]
    have hrest := ih fun y hy => h y (List.mem_cons_of_mem _ hy)
    show (xs.mapM f >>= fun ys => pure (g x :: ys)) = _
    rw [hrest]
    rfl

theorem mapM_error {ε α β : Type} {f : α → Except ε β} {e : ε} {xs : List α} {x : α} (hx : x ∈ xs)
    (herror : f x = .error e) (h : ∀ y ∈ xs, f y = .error e ∨ ∃ b, f y = .ok b) : xs.mapM f = .error e := by
  induction xs with
  | nil => cases hx
  | cons y ys ih =>
    rw [List.mapM_cons]
    rcases h y List.mem_cons_self with hy | ⟨b, hy⟩
    · rw [hy]
      rfl
    · have hrest : x ∈ ys := by
        rcases List.mem_cons.mp hx with rfl | hmem
        · rw [herror] at hy
          cases hy
        · exact hmem
      have htail := ih hrest fun z hz => h z (List.mem_cons_of_mem _ hz)
      rw [hy]
      show (ys.mapM f >>= fun bs => pure (b :: bs)) = _
      rw [htail]
      rfl

theorem checkScanRange_node (range : ℕ × ℕ) :
    checkScanRange input (range, logsIn input c range) =
      if 16 < (logsIn input c range).length then .error "gasless_usdt_scan_logs"
      else .ok (namedIn input c range) := by
  unfold checkScanRange
  dsimp only
  split
  · rfl
  · exact mapM_pure fun entry hentry => checkScanLog_of_mem hentry

theorem zip_map_self {α β : Type} (f : α → β) (xs : List α) : xs.zip (xs.map f) = xs.map fun x => (x, f x) := by
  induction xs with
  | nil => rfl
  | cons x xs ih => rw [List.map_cons, List.zip_cons_cons, ih, List.map_cons]

-- The logs of a truthful node are found, unless one range holds too many of them.
theorem scan_logs_node (input : UsdtUserOperationScanInput) (c : GaslessChain) (ranges : List (ℕ × ℕ)) :
    ((ranges.zip (ranges.map (logsIn input c))).mapM (checkScanRange input) = .error "gasless_usdt_scan_logs" ∧
        ∃ range ∈ ranges, 16 < (logsIn input c range).length) ∨
      (ranges.zip (ranges.map (logsIn input c))).mapM (checkScanRange input) = .ok (ranges.map (namedIn input c)) := by
  rw [zip_map_self, List.mapM_map]
  by_cases hmany : ∃ range ∈ ranges, 16 < (logsIn input c range).length
  · rcases hmany with ⟨range, hrange, hlength⟩
    refine Or.inl ⟨mapM_error hrange ?_ ?_, range, hrange, hlength⟩
    · show checkScanRange input (range, logsIn input c range) = _
      rw [checkScanRange_node, if_pos hlength]
    · intro other hother
      show checkScanRange input (other, logsIn input c other) = _ ∨ _
      by_cases hfull : 16 < (logsIn input c other).length
      · rw [checkScanRange_node, if_pos hfull]
        exact Or.inl rfl
      · refine Or.inr ⟨namedIn input c other, ?_⟩
        show checkScanRange input (other, logsIn input c other) = _
        rw [checkScanRange_node, if_neg hfull]
  · refine Or.inr (mapM_pure ?_)
    intro range hrange
    show checkScanRange input (range, logsIn input c range) = _
    rw [checkScanRange_node, if_neg]
    intro hfull
    exact hmany ⟨range, hrange, hfull⟩

-- Two chains that share a prefix share its events.
theorem EventIn.of_prefix (h : EventIn input e n tx) (hc : c <:+ e) (hn : n < c.length) : EventIn input c n tx := by
  rcases h with ⟨b, below, hsuffix, hlength, hevent⟩
  exact ⟨b, below, Chain.suffix_of_length_le hsuffix hc (by simp only [List.length_cons]; omega), hlength, hevent⟩

theorem EventIn.extends (h : EventIn input c n tx) (hc : c <:+ e) : EventIn input e n tx := by
  rcases h with ⟨b, below, hsuffix, hevent⟩
  exact ⟨b, below, hsuffix.trans hc, hevent⟩

theorem mem_namedIn {range : ℕ × ℕ} {hash : String} :
    hash ∈ namedIn input c range ↔ ∃ n tx, range.1 ≤ n ∧ n ≤ range.2 ∧ EventIn input c n tx ∧ tx.hash = hash := by
  unfold namedIn
  rw [List.mem_map]
  constructor
  · rintro ⟨entry, hentry, rfl⟩
    rcases mem_logsIn.mp hentry with ⟨hlow, hhigh, hevents⟩
    rcases mem_eventLogs.mp hevents with ⟨-, -, hevent, b, below, tx, hsuffix, hlength, htx, hlog, hhash⟩
    exact ⟨entry.blockNumber, tx, hlow, hhigh, ⟨b, below, hsuffix, hlength, htx, entry.log, hlog, hevent⟩, hhash⟩
  · rintro ⟨n, tx, hlow, hhigh, ⟨b, below, hsuffix, hlength, htx, log, hlog, hevent⟩, rfl⟩
    have hentry : (⟨n, false, log, tx.hash⟩ : GaslessScanLog) ∈ eventLogs input c n :=
      mem_eventLogs.mpr ⟨rfl, rfl, hevent, b, below, tx, hsuffix, hlength, htx, hlog, rfl⟩
    exact ⟨_, mem_logsIn.mpr ⟨hlow, hhigh, hentry⟩, rfl⟩

-- The ranges of a scan name exactly the transactions of its blocks.
theorem mem_named (input : UsdtUserOperationScanInput) (c : GaslessChain) {fromBlock last : ℕ}
    (h : fromBlock ≤ last) (hash : String) :
    hash ∈ ((scanRanges fromBlock last).map (namedIn input c)).flatten ↔
      ∃ n tx, fromBlock ≤ n ∧ n ≤ last ∧ EventIn input c n tx ∧ tx.hash = hash := by
  have htiles := (scanRanges_spec h).1
  rw [List.mem_flatten]
  constructor
  · rintro ⟨named, hnamed, hhash⟩
    rcases List.mem_map.mp hnamed with ⟨range, hrange, rfl⟩
    rcases mem_namedIn.mp hhash with ⟨n, tx, hlow, hhigh, hevent, hsame⟩
    have hbounds := htiles.bounds hrange
    exact ⟨n, tx, by omega, by omega, hevent, hsame⟩
  · rintro ⟨n, tx, hlow, hhigh, hevent, hsame⟩
    rcases htiles.exists_window hlow (by omega) with ⟨range, hrange, hfirst, hlast⟩
    exact ⟨_, List.mem_map.mpr ⟨range, hrange, rfl⟩, mem_namedIn.mpr ⟨n, tx, hfirst, hlast, hevent, hsame⟩⟩

end Answers

/-! ## The verdict -/

section Verdict

variable {blockHash : GaslessChain → String} {input : UsdtUserOperationScanInput} {first second : UsdtView}
  {finalized start : UsdtHeader}

theorem scanEnd_le : scanEnd input start finalized ≤ finalized.number := by
  unfold scanEnd
  split <;> omega

theorem le_scanEnd (start : UsdtHeader) (h : input.fromBlock ≤ finalized.number) :
    input.fromBlock ≤ scanEnd input start finalized := by
  have hlast : input.fromBlock ≤ lastPossible input start := by
    unfold lastPossible
    omega
  unfold scanEnd
  split <;> omega

-- Past its anchors the scan of a truthful node reads every block of its range, or one range is too full.
theorem scan_node (hfinalized : headerOf blockHash first.finalized = some finalized)
    (hstart : headerAt blockHash first.head input.fromBlock = some start)
    (hanchor : start.hash = lowerCase input.fromBlockHash) (hfrom : input.fromBlock ≤ finalized.number)
    (hnext : first.finalized <:+ second.head) :
    ∃ endBlock, headerAt blockHash second.head (scanEnd input start finalized) = some endBlock ∧
      ((scanUsdtUserOperation (nodeRpc blockHash input first second) input = .error "gasless_usdt_scan_logs" ∧
          ∃ range ∈ scanRanges input.fromBlock (scanEnd input start finalized),
            16 < (logsIn input second.head range).length) ∨
        scanUsdtUserOperation (nodeRpc blockHash input first second) input =
          scanVerdict input finalized endBlock (scanEnd input start finalized)
            ((scanRanges input.fromBlock (scanEnd input start finalized)).map (namedIn input second.head)).flatten) := by
  have hlast : scanEnd input start finalized ≤ finalized.number := scanEnd_le
  generalize hend : scanEnd input start finalized = last at hlast ⊢
  rcases headerOf_eq_some hfinalized with ⟨b, below, hchain, hheader⟩
  have hheight : first.finalized.length = finalized.number + 1 := by
    rw [hchain, hheader]
    rfl
  -- The second view holds the finalized block of that height.
  have hblock : Chain.blockAt second.head last = Chain.blockAt first.finalized last :=
    Chain.blockAt_extends hnext (by omega)
  obtain ⟨d, hd⟩ : ∃ d, Chain.blockAt first.finalized last = some d :=
    ⟨_, by rw [Chain.blockAt, if_pos (by omega)]⟩
  rcases Chain.blockAt_eq_some.mp hd with ⟨hsuffix, hlength⟩
  obtain ⟨b', below', rfl⟩ : ∃ b' below', d = b' :: below' := by
    cases d with
    | nil => cases hlength
    | cons b' below' => exact ⟨b', below', rfl⟩
  have hnumber : below'.length = last := by simpa using hlength
  have hendBlock : headerAt blockHash second.head last = some ⟨last, blockHash (b' :: below'), b'.timestamp⟩ := by
    unfold headerAt
    rw [hblock, hd, ← hnumber]
    rfl
  refine ⟨_, hendBlock, ?_⟩
  have hsame : ¬ ((⟨last, blockHash (b' :: below'), b'.timestamp⟩ : UsdtHeader).number ≠ last ∨
      (last = finalized.number ∧ blockHash (b' :: below') ≠ finalized.hash)) := by
    rintro (hne | ⟨hheadEnd, hne⟩)
    · exact hne rfl
    · apply hne
      have htop : b' :: below' = first.finalized := hsuffix.eq_of_length (by omega)
      rw [htop, hheader, hchain]
  have hstartNumber : start.number = input.fromBlock := by
    rcases headerAt_eq_some hstart with ⟨_, _, _, _, hs⟩
    rw [hs]
  have hbody : scanUsdtUserOperation (nodeRpc blockHash input first second) input =
      ((scanRanges input.fromBlock last).zip ((scanRanges input.fromBlock last).map (logsIn input second.head))).mapM
          (checkScanRange input) >>= fun found =>
        scanVerdict input finalized ⟨last, blockHash (b' :: below'), b'.timestamp⟩ last found.flatten := by
    unfold scanUsdtUserOperation
    rw [if_neg (by simp [nodeRpc])]
    show (usdtHeader (headerOf blockHash first.finalized) >>= fun finalized =>
      usdtHeader (headerAt blockHash first.head input.fromBlock) >>= fun start => _) = _
    rw [hfinalized, hstart]
    show (if _ then _ else _) = _
    rw [if_neg (by simp [hstartNumber, hanchor]), if_neg (by omega), hend]
    show (usdtHeader (headerAt blockHash second.head last) >>= fun endBlock => _) = _
    rw [hendBlock]
    show (if _ then _ else _) = _
    rw [if_neg hsame]
    rfl
  rw [hbody]
  rcases scan_logs_node input second.head (scanRanges input.fromBlock last) with ⟨herror, hfull⟩ | hok
  · rw [herror]
    exact Or.inl ⟨rfl, hfull⟩
  · rw [hok]
    exact Or.inr rfl

variable {endBlockHash : Option String}

-- What the anchors of a scan that answered `final` were.
theorem scan_final {finalizedBlock endNumber : ℕ}
    (h : scanUsdtUserOperation (nodeRpc blockHash input first second) input =
      .ok (.notFound true finalizedBlock endNumber endBlockHash)) :
    ∃ finalized start, headerOf blockHash first.finalized = some finalized ∧
      headerAt blockHash first.head input.fromBlock = some start ∧
      start.hash = lowerCase input.fromBlockHash ∧ input.fromBlock ≤ finalized.number := by
  unfold scanUsdtUserOperation at h
  rw [if_neg (by simp [nodeRpc])] at h
  rcases bind_ok.mp h with ⟨finalized, hfinalized, h⟩
  rcases bind_ok.mp h with ⟨start, hstart, h⟩
  have hf : headerOf blockHash first.finalized = some finalized := by
    cases hread : headerOf blockHash first.finalized with
    | none => simp [nodeRpc, hread, usdtHeader] at hfinalized
    | some header =>
      simp only [nodeRpc, hread, usdtHeader, Except.ok.injEq] at hfinalized
      rw [hfinalized]
  have hs : headerAt blockHash first.head input.fromBlock = some start := by
    cases hread : headerAt blockHash first.head input.fromBlock with
    | none => simp [nodeRpc, hread, usdtHeader] at hstart
    | some header =>
      simp only [nodeRpc, hread, usdtHeader, Except.ok.injEq] at hstart
      rw [hstart]
  by_cases hanchor : start.number ≠ input.fromBlock ∨ start.hash ≠ lowerCase input.fromBlockHash
  · rw [if_pos hanchor] at h
    cases h
  rw [if_neg hanchor] at h
  by_cases hbehind : finalized.number < input.fromBlock
  · rw [if_pos hbehind] at h
    cases h
  rw [not_or, not_not, not_not] at hanchor
  exact ⟨finalized, start, hf, hs, hanchor.2, by omega⟩

-- A final verdict is the verdict of an empty scan whose last block came too late.
theorem scanVerdict_final {endBlock : UsdtHeader} {last finalizedBlock endNumber : ℕ} {found : List String}
    (h : scanVerdict input finalized endBlock last found = .ok (.notFound true finalizedBlock endNumber endBlockHash)) :
    found = [] ∧ input.validUntil < endBlock.timestamp := by
  unfold scanVerdict at h
  split at h
  · rename_i hempty
    have hfinal : decide (input.validUntil < finalized.timestamp ∧ input.validUntil < endBlock.timestamp) = true := by
      injection h with h
      injection h
    exact ⟨(List.dedup_eq_nil _).mp hempty, (of_decide_eq_true hfinal).2⟩
  · cases h
  · cases h

/-- **Never lands.**  After a final verdict no block of any chain over the finalized one holds the event. -/
theorem never_lands {finalizedBlock endNumber : ℕ} (hnext : first.finalized <:+ second.head)
    (h : scanUsdtUserOperation (nodeRpc blockHash input first second) input =
      .ok (.notFound true finalizedBlock endNumber endBlockHash))
    {e : GaslessChain} (he : first.finalized <:+ e) (hlaw : UsdtChain input e) {n : ℕ} {tx : GaslessTransaction}
    (hfrom : input.fromBlock ≤ n) : ¬ EventIn input e n tx := by
  intro hevent
  rcases scan_final h with ⟨finalized, start, hfinalized, hstart, hanchor, hle⟩
  rcases scan_node hfinalized hstart hanchor hle hnext with ⟨endBlock, hendBlock, ⟨herror, -⟩ | hverdict⟩
  · rw [herror] at h
    cases h
  rw [hverdict] at h
  rcases scanVerdict_final h with ⟨hempty, hlate⟩
  have hlast : scanEnd input start finalized ≤ finalized.number := scanEnd_le
  have hheight : first.finalized.length = finalized.number + 1 := by
    rcases headerOf_eq_some hfinalized with ⟨b, below, hchain, hheader⟩
    rw [hchain, hheader]
    rfl
  by_cases hn : n ≤ scanEnd input start finalized
  · -- The block was scanned: its event would be among those named.
    have hshared : EventIn input second.head n tx := (hevent.of_prefix he (by omega)).extends hnext
    have hnamed := (mem_named input second.head (le_scanEnd start hle) tx.hash).mpr
      ⟨n, tx, hfrom, hn, hshared, rfl⟩
    rw [hempty] at hnamed
    cases hnamed
  · -- The block is later than the last one scanned, and so too late.
    rcases headerAt_eq_some hendBlock with ⟨b, below, hsuffix, hlength, hheader⟩
    have hinside : b :: below <:+ first.finalized :=
      Chain.suffix_of_length_le hsuffix hnext (by simp only [List.length_cons]; omega)
    rcases hevent with ⟨b', below', hsuffix', hlength', htx, log, hlog, hisEvent⟩
    have hgap := hlaw.spaced.le_of_height (hinside.trans he) hsuffix' (by omega)
    have hintime := hlaw.refuses b' below' tx log hsuffix' htx hlog hisEvent
    rw [hheader] at hlate
    dsimp only at hlate
    omega

-- An event of the scanned range is found, alone or among others.
theorem scanVerdict_of_mem (finalized endBlock : UsdtHeader) (last : ℕ) {found : List String} {hash : String}
    (h : hash ∈ found) :
    scanVerdict input finalized endBlock last found = .ok (.found hash) ∨
      (scanVerdict input finalized endBlock last found = .error "gasless_usdt_scan_ambiguous" ∧
        ∃ other ∈ found, other ≠ hash) := by
  have hmem : hash ∈ found.dedup := List.mem_dedup.mpr h
  have hnodup := found.nodup_dedup
  unfold scanVerdict
  split
  · rename_i hempty
    rw [hempty] at hmem
    cases hmem
  · rename_i only hone
    rw [hone, List.mem_singleton] at hmem
    rw [hmem]
    exact Or.inl rfl
  · rename_i one two rest hmany
    refine Or.inr ⟨rfl, ?_⟩
    rw [hmany] at hnodup
    by_cases hone : one = hash
    · refine ⟨two, List.mem_dedup.mp (by rw [hmany]; simp), ?_⟩
      intro htwo
      apply (List.nodup_cons.mp hnodup).1
      rw [hone, ← htwo]
      exact List.mem_cons_self
    · exact ⟨one, List.mem_dedup.mp (by rw [hmany]; simp), hone⟩

/-- **Found.**  An event in the finalized chain within the range is found, unless others hide it. -/
theorem lands_found (hnext : first.finalized <:+ second.head)
    (hfinalized : headerOf blockHash first.finalized = some finalized)
    (hstart : headerAt blockHash first.head input.fromBlock = some start)
    (hanchor : start.hash = lowerCase input.fromBlockHash) {n : ℕ} {tx : GaslessTransaction}
    (hfrom : input.fromBlock ≤ n) (hn : n ≤ scanEnd input start finalized)
    (hevent : EventIn input first.finalized n tx) :
    scanUsdtUserOperation (nodeRpc blockHash input first second) input = .ok (.found tx.hash) ∨
      (scanUsdtUserOperation (nodeRpc blockHash input first second) input = .error "gasless_usdt_scan_ambiguous" ∧
        ∃ n' tx', EventIn input first.finalized n' tx' ∧ tx'.hash ≠ tx.hash) ∨
      (scanUsdtUserOperation (nodeRpc blockHash input first second) input = .error "gasless_usdt_scan_logs" ∧
        ∃ range ∈ scanRanges input.fromBlock (scanEnd input start finalized),
          16 < (logsIn input second.head range).length) := by
  have hlast : scanEnd input start finalized ≤ finalized.number := scanEnd_le
  have hle : input.fromBlock ≤ finalized.number := by omega
  have hheight : first.finalized.length = finalized.number + 1 := by
    rcases headerOf_eq_some hfinalized with ⟨b, below, hchain, hheader⟩
    rw [hchain, hheader]
    rfl
  have hmem := mem_named input second.head (le_scanEnd start hle)
  rcases scan_node hfinalized hstart hanchor hle hnext with ⟨endBlock, _, hfull | hverdict⟩
  · exact Or.inr (Or.inr hfull)
  rw [hverdict]
  have hnamed := (hmem tx.hash).mpr ⟨n, tx, hfrom, hn, hevent.extends hnext, rfl⟩
  rcases scanVerdict_of_mem finalized endBlock (scanEnd input start finalized) hnamed with hfound | ⟨hambiguous, other, hother, hne⟩
  · exact Or.inl hfound
  · rcases (hmem other).mp hother with ⟨n', tx', _, hhigh, hevent', hsame⟩
    refine Or.inr (Or.inl ⟨hambiguous, n', tx', hevent'.of_prefix hnext (by omega), ?_⟩)
    rw [hsame]
    exact hne

/-- **The USDT UserOperation scan.**  Its ranges tile the blocks from the anchor to its end, eleven at most; a final
verdict means the operation is in no block from the anchor on of any chain over the finalized one; and an event
of the finalized chain within the range is found, unless several transactions carry it or one range holds more
than sixteen of its logs. -/
theorem usdt_scan_complete (blockHash : GaslessChain → String) (input : UsdtUserOperationScanInput)
    (first second : UsdtView) (hnext : first.finalized <:+ second.head) :
    (∀ last, input.fromBlock ≤ last →
      Windows.Tiles input.fromBlock (scanRanges input.fromBlock last) (last + 1) ∧
        (scanRanges input.fromBlock last).length ≤ 11) ∧
    (∀ finalizedBlock endNumber endBlockHash,
      scanUsdtUserOperation (nodeRpc blockHash input first second) input =
        .ok (.notFound true finalizedBlock endNumber endBlockHash) →
      ∀ e, first.finalized <:+ e → UsdtChain input e → ∀ n tx, input.fromBlock ≤ n → ¬ EventIn input e n tx) ∧
    (∀ finalized start, headerOf blockHash first.finalized = some finalized →
      headerAt blockHash first.head input.fromBlock = some start → start.hash = lowerCase input.fromBlockHash →
      ∀ n tx, input.fromBlock ≤ n → n ≤ scanEnd input start finalized → EventIn input first.finalized n tx →
        scanUsdtUserOperation (nodeRpc blockHash input first second) input = .ok (.found tx.hash) ∨
        (scanUsdtUserOperation (nodeRpc blockHash input first second) input = .error "gasless_usdt_scan_ambiguous" ∧
          ∃ n' tx', EventIn input first.finalized n' tx' ∧ tx'.hash ≠ tx.hash) ∨
        (scanUsdtUserOperation (nodeRpc blockHash input first second) input = .error "gasless_usdt_scan_logs" ∧
          ∃ range ∈ scanRanges input.fromBlock (scanEnd input start finalized),
            16 < (logsIn input second.head range).length)) := by
  refine ⟨fun last hlast => scanRanges_spec hlast, ?_, ?_⟩
  · intro finalizedBlock endNumber endBlockHash hscan e he hlaw n tx hfrom
    exact never_lands hnext hscan he hlaw hfrom
  · intro finalized start hfinalized hstart hanchor n tx hfrom hn hevent
    exact lands_found hnext hfinalized hstart hanchor hfrom hn hevent

end Verdict

namespace UsdtScanRun

def input : UsdtUserOperationScanInput :=
  ⟨"0xaa", "0x01", 0, "0xbb", 12, "0x02", "0xEE"⟩

def blockHash : GaslessChain → String := fun _ => "0xbb"

def event : GaslessLog := ⟨"0xEE", usdtTopics input, 0⟩

/-- A second block whose only transaction carries these logs; both blocks are finalized. -/
def view (logs : List GaslessLog) : UsdtView :=
  ⟨[⟨12, [⟨"0xcc", "0x01", "0xEE", 0, 0, true, logs⟩], 0⟩, ⟨0, [], 0⟩],
    [⟨12, [⟨"0xcc", "0x01", "0xEE", 0, 0, true, logs⟩], 0⟩, ⟨0, [], 0⟩], List.suffix_refl _⟩

theorem event_in (logs : List GaslessLog) (h : event ∈ logs) :
    EventIn input (view logs).finalized 1 ⟨"0xcc", "0x01", "0xEE", 0, 0, true, logs⟩ :=
  ⟨_, _, List.suffix_refl _, rfl, List.mem_singleton.mpr rfl, event, h, by decide +kernel⟩

/-- One event in the last block is found. -/
theorem usdt_scan_complete_of_view :
    scanUsdtUserOperation (nodeRpc blockHash input (view [event]) (view [event])) input = .ok (.found "0xcc") ∨
      (∃ n' tx', EventIn input (view [event]).finalized n' tx' ∧ tx'.hash ≠ "0xcc") ∨
      ∃ range ∈ scanRanges 0 1, 16 < (logsIn input (view [event]).head range).length := by
  have hscan := (usdt_scan_complete blockHash input (view [event]) (view [event]) (List.suffix_refl _)).2.2
    ⟨1, "0xbb", 12⟩ ⟨0, "0xbb", 0⟩ rfl rfl (by decide +kernel) 1 _ (by decide) (by decide)
    (event_in [event] List.mem_cons_self)
  rcases hscan with hfound | ⟨-, hother⟩ | ⟨-, hfull⟩
  · exact Or.inl hfound
  · exact Or.inr (Or.inl hother)
  · exact Or.inr (Or.inr hfull)

def crowd : List GaslessLog := List.replicate 17 event

/-- Seventeen logs of one transaction carry the event of a finalized block: neither found nor ambiguous. -/
theorem crowded_event_refused :
    EventIn input (view crowd).finalized 1 ⟨"0xcc", "0x01", "0xEE", 0, 0, true, crowd⟩ ∧
      (scanUsdtUserOperation (nodeRpc blockHash input (view crowd) (view crowd)) input) =
        .error "gasless_usdt_scan_logs" :=
  ⟨event_in crowd (by decide +kernel), by decide +kernel⟩

end UsdtScanRun

end GaslessUsdt
end PaymentNode
