import PaymentNode.Payout.Observe

/-!
# Payout claims — what the observers of all lanes leave behind

Any number of observations of any lanes run at once over one store, and each can die between any two operations.
The chain reads answer the truth of one canonical chain, or fail; what the provider answers is any relation.  A claim is
saved only on a payout that the canonical chain proves for its operation, and an acceptance follows a claim.
-/

namespace PaymentNode.Payout

/-- The saved operations, and the destination chains. -/
structure World where
  operations : RelayOperation → Prop
  canonical : ℕ → Word → Option (RelayTransaction × RelayReceipt)
  blockHash : ℕ → ℕ → Word
  project : RelayOperation → ArbitrumQuote
  /-- What the provider answers about an operation, at one time or another. -/
  asserts : RelayOperation → ProviderStatus → Prop
  /-- An operation is one file of its profile. -/
  keyed : ∀ a b, operations a → operations b → a.profileHash = b.profileHash → a.operationId = b.operationId → a = b
  /-- The digest of an operation names it. -/
  digested : ∀ a b, operations a → operations b → a.integrityHash = b.integrityHash → a = b

structure State where
  claims : PayoutKey → Option PayoutClaim
  credits : String × String → Option CreditRecord
  sources : RelayOperation → Option SourceJournal
  accepted : List Acceptance

def State.initial (sources : RelayOperation → Option SourceJournal) : State := ⟨fun _ => none, fun _ => none, sources, []⟩

def RelayOperation.slot (op : RelayOperation) : String × String := (op.profileHash, op.operationId)

def CreditRecord.slot (record : CreditRecord) : String × String := (record.profileHash, record.operationId)

/-- A confirmed deposit followed its approval. -/
def SourcesValid (sources : RelayOperation → Option SourceJournal) : Prop :=
  ∀ op journal, sources op = some journal → journal.phase = .confirmed → journal.approvalConfirmed = true

/-- The source journals move on, and a confirmed deposit stays. -/
def SourcesStep (s t : State) : Prop :=
  (∃ sources, t = { s with sources := sources }) ∧ SourcesValid t.sources ∧
    ∀ op journal, s.sources op = some journal → journal.phase = .confirmed → t.sources op = some journal

def Confirmed (op : RelayOperation) (hash : Word) (s : State) : Prop :=
  ∃ journal, s.sources op = some journal ∧ journal.Confirms hash

/-- What is saved once, under a key. -/
def createOnly {κ ν : Type} [DecidableEq κ] (saved : κ → Option ν) (key : κ) (value : ν) (a : Result Unit)
    (next : κ → Option ν) : Prop :=
  match saved key with
  | some _ => (∃ e, a = .error e) ∧ next = saved
  | none => (a = .ok () ∧ next = Function.update saved key (some value)) ∨
      (∃ e, a = .error e) ∧ (next = saved ∨ next = Function.update saved key (some value))

/-- An answered read of a chain is true. -/
def World.exec (W : World) (s : State) : (o : PayoutOp) → o.Answer → State → Prop
  | .source op, a, t => (∀ journal, a = .ok journal → s.sources op = journal) ∧ t = s
  | .finalizedDeposit _ _, _, t => t = s
  | .settle op hash, a, t => SourcesStep s t ∧ (a = .ok true → Confirmed op hash t)
  | .projectQuote op, a, t => (∀ quote, a = .ok quote → quote = W.project op) ∧ t = s
  | .status op, a, t => (∀ provider, a = .ok provider → W.asserts op provider) ∧ t = s
  | .polygonPort, _, t => t = s
  | .chainId chain, a, t => (∀ id, a = .ok id → id = chain) ∧ t = s
  | .transaction chain hash, a, t =>
    (∀ tx, a = .ok (some tx) → (W.canonical chain hash).map Prod.fst = some tx) ∧ t = s
  | .receipt chain hash, a, t =>
    (∀ receipt, a = .ok (some receipt) → (W.canonical chain hash).map Prod.snd = some receipt) ∧ t = s
  | .block chain number, a, t =>
    (∀ block, a = .ok (some block) → block = ⟨number, some (W.blockHash chain number)⟩) ∧ t = s
  | .checkpoint chain, a, t =>
    (∀ block, a = .ok (some block) → block.hash = some (W.blockHash chain block.number)) ∧ t = s
  | .readClaim key, a, t => (∀ saved, a = .ok saved → s.claims key = saved) ∧ t = s
  | .createClaim claim, a, t =>
    ∃ claims, createOnly s.claims claim.key claim a claims ∧ t = { s with claims := claims }
  | .readCredit op, a, t => (∀ saved, a = .ok saved → s.credits op.slot = saved) ∧ t = s
  | .createCredit record, a, t =>
    ∃ credits, createOnly s.credits record.slot record a credits ∧ t = { s with credits := credits }
  | .accept acceptance, _, t => t = { s with accepted := acceptance :: s.accepted }

def World.system (W : World) : System PayoutOp PayoutOp.Answer State ℕ where
  exec := fun _ => W.exec
  crash := fun _ s t => t = s
  env := SourcesStep

def observation (lane : Lane) (op : RelayOperation) : Program Unit := (observe lane op).bind fun _ => .ret ()

/-- Any saved operation is observed, on any lane. -/
def World.entry (W : World) (_ : ℕ) (program : Program Unit) : Prop :=
  ∃ lane op, W.operations op ∧ program = observation lane op

abbrev World.Step (W : World) := System.Step W.system W.entry

/-! ## Proven payouts -/

/-- What the reads of a candidate answered is true. -/
structure Truthful (W : World) (chain : ℕ) (hash : Word) (reads : CandidateReads) : Prop where
  chainId : reads.chainId = chain
  transaction : ∀ tx, reads.transaction = some tx → (W.canonical chain hash).map Prod.fst = some tx
  receipt : ∀ receipt, reads.receipt = some receipt → (W.canonical chain hash).map Prod.snd = some receipt
  block : ∀ block, reads.block = some block → ∃ receipt, reads.receipt = some receipt ∧
    block = ⟨receipt.blockNumber, some (W.blockHash chain receipt.blockNumber)⟩
  safe : ∀ block, reads.safe = some block → block.hash = some (W.blockHash chain block.number)

/-- The canonical chain proves this candidate for the operation. -/
def ProvenBy (W : World) (op : RelayOperation) (sourceHash : Option Word) (hash : Word) (chain : ℕ)
    (proof : CreditEvidence) : Prop :=
  ∃ reads, Truthful W chain hash reads ∧ inspectReads op sourceHash hash chain reads = .proven proof

/-- What the reads of a USDC candidate answered is true. -/
structure UsdcTruthful (W : World) (receipt : RelayReceipt) (reads : UsdcReads) : Prop where
  inclusion : ∀ block, reads.inclusion = some block →
    block = ⟨receipt.blockNumber, some (W.blockHash 1 receipt.blockNumber)⟩
  safe : ∀ block, reads.safe = some block → block.hash = some (W.blockHash 1 block.number)
  inclusionAgain : ∀ block, reads.inclusionAgain = some block →
    block = ⟨receipt.blockNumber, some (W.blockHash 1 receipt.blockNumber)⟩
  safeAgain : ∀ block, reads.safeAgain = some block → ∃ safe, reads.safe = some safe ∧
    block = ⟨safe.number, some (W.blockHash 1 safe.number)⟩

def UsdcProvenBy (W : World) (quote : ArbitrumQuote) (hash : Word) (proof : UsdcCreditProof) : Prop :=
  ∃ tx receipt reads, W.canonical 1 hash = some (tx, receipt) ∧ identifies hash tx receipt = true ∧
    receipt.success = true ∧ UsdcTruthful W receipt reads ∧ usdcReads quote hash receipt reads = .proven proof

/-- The quote of a native operation is the one its destination is proven with. -/
def nativeQuoteBinds (op : RelayOperation) (quote : RelayNativeQuote) : Prop :=
  onNativeRoute op quote = true ∧ quote.recipient = op.recipient ∧ op.minOutputAtomic ≤ quote.minimumOutputWei

/-- Why a payout was claimed for an operation whose deposit is `sourceHash`. -/
inductive Evidence (W : World) (op : RelayOperation) (sourceHash : Word) : Word → ClaimedPayout → Prop
  | native {quote : RelayNativeQuote} {proof : CreditEvidence} {hash : Word} : op.order = .native quote →
      nativeQuoteBinds op quote → op.sourceChainId ∈ [56, 8453] → op.destinationChainId ∈ [137, 143, 4326] →
      proof.sourceDepositHash = some sourceHash → proof.binds op = true →
      ProvenBy W op (some sourceHash) hash op.destinationChainId proof →
      Evidence W op sourceHash hash (proof.payout (if op.destinationChainId = 4326 then .erc20 relayMegaUsdm else .native))
  | bnb {quote : RelayQuote} {proof : CreditEvidence} {hash : Word} : op.order = .ethereum quote →
      op.sourceChainId = 1 → op.destinationChainId = 56 → quote.output.pays "bnb" op = true →
      proof.binds op = true → ProvenBy W op (some sourceHash) hash 56 proof →
      Evidence W op sourceHash hash (proof.payout .native)
  | base {quote : RelayQuote} {proof : CreditEvidence} {hash : Word} : op.order = .ethereum quote →
      op.sourceChainId = 1 → op.destinationChainId = 8453 → quote.routeReference = baseRouteReference →
      quote.output.pays "base" op = true → proof.binds op = true → ProvenBy W op none hash 8453 proof →
      Evidence W op sourceHash hash (proof.payout .native)
  | arbitrum {orderId : String} {proof : UsdcCreditProof} {hash : Word} : op.order = .arbitrum orderId →
      op.sourceChainId = 42161 → op.destinationChainId = 1 → (W.project op).quoteDigest = op.quoteDigest →
      (W.project op).recipient = op.recipient → (W.project op).bound = true → proof.binds op = true →
      UsdcProvenBy W (W.project op) hash proof → Evidence W op sourceHash hash proof.payout

/-- The provider binds its answer to the deposit; a native observer wants it to be the only one. -/
def RelayOrder.bindsDeposit (order : RelayOrder) (inTxHashes : List Word) (deposit : Word) : Prop :=
  match order with
  | .native _ => inTxHashes = [deposit]
  | _ => deposit ∈ inTxHashes

/-- The answer is success, bound to the deposit, and names one transaction. -/
structure ProviderStatus.Names (provider : ProviderStatus) (op : RelayOperation) (deposit hash : Word) : Prop where
  status : provider.status = .success
  chainIdentity : provider.chainIdentityObserved = true
  deposit : op.order.bindsDeposit provider.inTxHashes deposit
  candidate : provider.txHashes = [hash]

/-- The provider names the payout for the operation, and the canonical chain proves it. -/
def Due (W : World) (op : RelayOperation) (deposit : Word) (payout : ClaimedPayout) : Prop :=
  (∃ provider, W.asserts op provider ∧ provider.Names op deposit payout.transactionHash) ∧
    Evidence W op deposit payout.transactionHash payout

/-- A claim was made for this operation, on a payout the provider named and the chain proves. -/
def Backed (W : World) (s : State) (claim : PayoutClaim) : Prop :=
  ∃ op requestId sourceHash payout, W.operations op ∧ op.statusLocator = some requestId ∧
    Confirmed op sourceHash s ∧ Due W op sourceHash payout ∧ claim = claimFor op requestId sourceHash payout

/-- The payout is claimed for the operation. -/
def Owned (op : RelayOperation) (key : PayoutKey) (s : State) : Prop :=
  ∃ claim, s.claims key = some claim ∧ claim.operationIntegrityHash = op.integrityHash

structure Inv (W : World) (s : State) : Prop where
  sources : SourcesValid s.sources
  claims : ∀ key claim, s.claims key = some claim → claim.key = key ∧ Backed W s claim
  credits : ∀ slot record, s.credits slot = some record → ∃ op, W.operations op ∧ op.slot = slot ∧
    record.binds op = true ∧ Owned op (record.acceptance op).payout s
  accepted : ∀ a ∈ s.accepted, W.operations a.operation ∧ a.operation.minOutputAtomic ≤ a.credited ∧
    Owned a.operation a.payout s

/-- The files only grow. -/
structure Grows (s t : State) : Prop where
  claims : ∀ key claim, s.claims key = some claim → t.claims key = some claim
  credits : ∀ slot record, s.credits slot = some record → t.credits slot = some record
  sources : ∀ op hash, Confirmed op hash s → Confirmed op hash t

def World.discipline (W : World) : Discipline State ℕ := ⟨Inv W, fun _ => Grows⟩

end PaymentNode.Payout
