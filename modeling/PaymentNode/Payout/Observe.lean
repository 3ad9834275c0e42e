import PaymentNode.Lib.Prog
import PaymentNode.Payout.Credit

/-!
# Destination observers — the Relay lanes, their payout claims and their acceptances

The four observers of a Relay destination: `native-observe.ts`, `observe.ts` (Ethereum to BNB),
`base-observe.ts` and `arbitrum-destination.ts`, with the create-only claims of `destination-claim.ts` and the
credit records of the Arbitrum lane.  What is checked of the owner and of a retirement before the source journal
is read throws or passes like that read.  `accept` stands where an observer answers `operational_acceptance`.
The locks around a claim and around a record are not modelled: both files are created by a link that fails when
the file exists, so calls interleave here at least as freely.
-/

namespace PaymentNode.Payout

inductive RelayStatus
  | waiting
  | depositing
  | pending
  | submitted
  | success
  | delayed
  | refund
  | failure
deriving DecidableEq

/-- One provider assertion; its hashes are in lower case. -/
structure ProviderStatus where
  status : RelayStatus
  chainIdentityObserved : Bool
  inTxHashes : List Word
  txHashes : List Word
deriving DecidableEq

inductive SourcePhase
  | pending
  | signingStarted
  | sealed
  | submitting
  | confirmed
  | failed
  | failedBeforeEffect
deriving DecidableEq

/-- The saved deposit of an operation, and whether its approval is confirmed; a native deposit needs none. -/
structure SourceJournal where
  approvalConfirmed : Bool
  phase : SourcePhase
  transactionHash : Option Word
deriving DecidableEq

def SourceJournal.Confirms (journal : SourceJournal) (hash : Word) : Prop :=
  journal.approvalConfirmed = true ∧ journal.phase = .confirmed ∧ journal.transactionHash = some hash

/-- What a finalized source transaction was found to be. -/
inductive DepositVerdict
  | confirmed
  | failed
  | unbound
deriving DecidableEq

/-- A claim, whose key is its chain and transaction. -/
structure PayoutClaim where
  chainId : ℕ
  transactionHash : Word
  requestId : String
  operationId : String
  operationIntegrityHash : String
  sourceTransactionHash : Word
  orderId : String
  recipient : Address
  token : PayoutToken
  amountAtomic : ℕ
  blockNumber : ℕ
  blockHash : Word
deriving DecidableEq

abbrev PayoutKey := ℕ × Word

def PayoutClaim.key (claim : PayoutClaim) : PayoutKey := (claim.chainId, claim.transactionHash)

/-- The operation-keyed record of an accepted credit on the Arbitrum lane. -/
structure CreditRecord where
  profileHash : String
  operationId : String
  operationIntegrityHash : String
  quoteDigest : String
  requestId : String
  sourceTransactionHash : Word
  proof : UsdcCreditProof
deriving DecidableEq

/-- An operational acceptance: the operation, its payout and what it was credited. -/
structure Acceptance where
  operation : RelayOperation
  payout : PayoutKey
  credited : ℕ
deriving DecidableEq

inductive PayoutOp
  | source (op : RelayOperation)
  | finalizedDeposit (op : RelayOperation) (hash : Word)
  | settle (op : RelayOperation) (hash : Word)
  | projectQuote (op : RelayOperation)
  | status (op : RelayOperation)
  | polygonPort
  | chainId (chain : ℕ)
  | transaction (chain : ℕ) (hash : Word)
  | receipt (chain : ℕ) (hash : Word)
  | block (chain number : ℕ)
  | checkpoint (chain : ℕ)
  | readClaim (key : PayoutKey)
  | createClaim (claim : PayoutClaim)
  | readCredit (op : RelayOperation)
  | createCredit (record : CreditRecord)
  | accept (acceptance : Acceptance)
deriving DecidableEq

abbrev PayoutOp.Answer : PayoutOp → Type
  | source _ => Result (Option SourceJournal)
  | finalizedDeposit _ _ => Result (Option DepositVerdict)
  | settle _ _ => Result Bool
  | projectQuote _ => Result ArbitrumQuote
  | status _ => Result ProviderStatus
  | polygonPort => Bool
  | chainId _ => Result ℕ
  | transaction _ _ => Result (Option RelayTransaction)
  | receipt _ _ => Result (Option RelayReceipt)
  | block _ _ => Result (Option RelayBlock)
  | checkpoint _ => Result (Option RelayBlock)
  | readClaim _ => Result (Option PayoutClaim)
  | createClaim _ => Result Unit
  | readCredit _ => Result (Option CreditRecord)
  | createCredit _ => Result Unit
  | accept _ => Unit

abbrev Program (α : Type) := Prog PayoutOp PayoutOp.Answer ApnError α

def run {α : Type} (o : PayoutOp) (h : o.Answer = Result α) : Program α := Prog.run o h

def lift {α : Type} (result : Result α) : Program α := Prog.ofExcept result

/-! ## The proofs, read by read -/

def inclusionBlock (chain : ℕ) : Option RelayReceipt → Program (Option RelayBlock)
  | none => .ret none
  | some receipt => run (.block chain receipt.blockNumber) rfl

def readCandidate (chain : ℕ) (hash : Word) : Program CandidateReads := do
  let receipt ← run (.receipt chain hash) rfl
  let block ← inclusionBlock chain receipt
  let chainId ← run (.chainId chain) rfl
  let transaction ← run (.transaction chain hash) rfl
  let safe ← run (.checkpoint chain) rfl
  return ⟨chainId, transaction, receipt, block, safe⟩

variable (op : RelayOperation)

def inspectCandidate (sourceHash : Option Word) (hash : Word) (expectedChainId : ℕ) :
    Program (ProofResult CreditEvidence) := do
  let port ← Prog.perform .polygonPort
  if expectedChainId = 137 ∧ ¬ port then return .unproven "polygon_consensus_finality_unavailable"
  else do
    let reads ← (readCandidate expectedChainId hash).attempt
    match reads with
    | .error _ => return .unproven "destination_rpc_unavailable"
    | .ok reads => return inspectReads op sourceHash hash expectedChainId reads

/-- The route references and the chains they join. -/
def nativeRoutes : List (String × ℕ × ℕ) :=
  [("bnb-native-polygon-native-v1", 56, 137), ("bnb-native-monad-native-v1", 56, 143),
    ("base-native-megaeth-usdm-v1", 8453, 4326), ("base-native-polygon-native-v1", 8453, 137),
    ("bnb-native-monad-native-default-v1", 56, 143), ("base-native-mega-usdm-default-v1", 8453, 4326),
    ("base-native-polygon-native-buyer-v1", 8453, 137)]

def onNativeRoute (quote : RelayNativeQuote) : Bool :=
  nativeRoutes.contains (quote.routeReference, op.sourceChainId, op.destinationChainId)

def proveRelayNativeDestination (quote : RelayNativeQuote) (sourceHash : Word) :
    List Word → Program (ProofResult CreditEvidence)
  | [hash] =>
    if ¬ onNativeRoute op quote ∨ quote.recipient ≠ op.recipient ∨ quote.minimumOutputWei < op.minOutputAtomic then
      .ret (.mismatch "saved_native_quote_binding")
    else inspectCandidate op (some sourceHash) hash op.destinationChainId
  | _ => .ret (.mismatch "native_candidate_hashes_invalid")

/-- One native payment to the operation's recipient, of at least its minimum. -/
def QuoteOutput.pays (output : QuoteOutput) (chain : String) (op : RelayOperation) : Bool :=
  output.chainId = chain && output.calls = 0 &&
    match output.payments with
    | [payment] => payment.currency = nativeCurrency && payment.recipient = op.recipient &&
        decide (op.minOutputAtomic ≤ payment.minimumAmount)
    | _ => false

/-- A single candidate is all an observer passes on. -/
def proveRelayBnbDestination (quote : RelayQuote) (sourceHash : Word) :
    List Word → Program (ProofResult CreditEvidence)
  | [hash] =>
    if op.sourceChainId ≠ 1 ∨ op.destinationChainId ≠ 56 ∨ ¬ quote.output.pays "bnb" op then
      .ret (.mismatch "saved_quote_binding")
    else inspectCandidate op (some sourceHash) hash 56
  | _ => .ret (.pending "destination_candidate_missing")

def baseRouteReference : String := "ethereum-usdc-base-eth-v1"

def proveRelayBaseDestination (quote : RelayQuote) :
    List Word → Program (ProofResult CreditEvidence)
  | [hash] =>
    if op.sourceChainId ≠ 1 ∨ op.destinationChainId ≠ 8453 ∨ quote.routeReference ≠ baseRouteReference ∨
        ¬ quote.output.pays "base" op then .ret (.mismatch "saved_quote_binding")
    else inspectCandidate op none hash 8453
  | _ => .ret (.mismatch "candidate_hashes_invalid")

def readUsdcBlocks (receipt : RelayReceipt) : Program UsdcReads := do
  let inclusion ← run (.block 1 receipt.blockNumber) rfl
  let safe ← run (.checkpoint 1) rfl
  match inclusion, safe with
  | some inclusion, some safe => do
    let inclusionAgain ← run (.block 1 receipt.blockNumber) rfl
    let safeAgain ← run (.block 1 safe.number) rfl
    return ⟨some inclusion, some safe, inclusionAgain, safeAgain⟩
  | _, _ => return ⟨inclusion, safe, none, none⟩

def readUsdcTransaction (hash : Word) : Program (Option RelayTransaction × Option RelayReceipt) := do
  let transaction ← run (.transaction 1 hash) rfl
  let receipt ← run (.receipt 1 hash) rfl
  return (transaction, receipt)

def proveUsdcReceipt (quote : ArbitrumQuote) (hash : Word) (tx : RelayTransaction) (receipt : RelayReceipt) :
    Program (ProofResult UsdcCreditProof) :=
  if ¬ identifies hash tx receipt then .ret (.mismatch "destination_transaction_receipt_identity")
  else if ¬ receipt.success then .ret (.mismatch "destination_receipt_failed")
  else do
    let reads ← (readUsdcBlocks receipt).attempt
    match reads with
    | .error _ => return .unproven "ethereum_finality_rpc_unavailable"
    | .ok reads => return usdcReads quote hash receipt reads

def proveRelayEthereumUsdcCredit (quote : ArbitrumQuote) (hash : Word) : Program (ProofResult UsdcCreditProof) :=
  if ¬ quote.bound then .ret (.mismatch "saved_quote_binding")
  else do
    let chain ← (run (.chainId 1) rfl : Program ℕ).attempt
    match chain with
    | .error _ => return .unproven "ethereum_rpc_unavailable"
    | .ok chain =>
      if chain ≠ 1 then return .mismatch "destination_chain_id"
      else do
        let read ← (readUsdcTransaction hash).attempt
        match read with
        | .error _ => return .unproven "ethereum_rpc_unavailable"
        | .ok (some tx, some receipt) => proveUsdcReceipt quote hash tx receipt
        | .ok _ => return .pending "destination_transaction_or_receipt_missing"

/-! ## The claims -/

/-- What a claim takes from a proof. -/
structure ClaimedPayout where
  transactionHash : Word
  recipient : Address
  token : PayoutToken
  amountAtomic : ℕ
  blockNumber : ℕ
  blockHash : Word
deriving DecidableEq

def claimFor (requestId : String) (sourceHash : Word) (payout : ClaimedPayout) : PayoutClaim where
  chainId := op.destinationChainId
  transactionHash := payout.transactionHash
  requestId := requestId
  operationId := op.operationId
  operationIntegrityHash := op.integrityHash
  sourceTransactionHash := sourceHash
  orderId := op.order.orderId
  recipient := payout.recipient
  token := payout.token
  amountAtomic := payout.amountAtomic
  blockNumber := payout.blockNumber
  blockHash := payout.blockHash

def persist (claim : PayoutClaim) : Program Unit := do
  let saved ← run (.readClaim claim.key) rfl
  match saved with
  | some saved =>
    if saved ≠ claim then lift (blocked "Relay destination payout is already claimed.") else return ()
  | none => run (.createClaim claim) rfl

/-- A claim whose binding was checked, once the saved source is confirmed. -/
def claimConfirmed (requestId : String) (sourceHash : Word) (payout : ClaimedPayout) :
    Program Unit := do
  let journal ← run (.source op) rfl
  match journal with
  | none => lift (blocked "Relay payout claim requires the confirmed source operation.")
  | some journal =>
    if journal.phase ≠ .confirmed ∨ journal.transactionHash ≠ some sourceHash then
      lift (blocked "Relay payout claim requires the confirmed source operation.")
    else persist (claimFor op requestId sourceHash payout)

def CreditEvidence.payout (proof : CreditEvidence) (token : PayoutToken) : ClaimedPayout :=
  ⟨proof.destinationTransactionHash, proof.recipient, token, proof.creditedWei, proof.destinationBlockNumber,
    proof.destinationBlockHash⟩

/-- The evidence is of this operation, and at least its minimum. -/
def CreditEvidence.binds (proof : CreditEvidence) (op : RelayOperation) : Bool :=
  proof.operationId = op.operationId && proof.operationIntegrityHash = op.integrityHash &&
    proof.quoteDigest = op.quoteDigest && proof.orderId = op.order.orderId && proof.recipient = op.recipient &&
      proof.minimumOutputWei = op.minOutputAtomic && decide (op.minOutputAtomic ≤ proof.creditedWei)

def invalidClaim : Program Unit := lift (blocked "Relay destination claim binding is invalid.")

def claim (sourceHash : Word) (proof : CreditEvidence) : Program Unit :=
  match op.order, op.statusLocator with
  | .native _, some requestId =>
    if op.sourceChainId ∉ [56, 8453] ∨ op.destinationChainId ∉ [137, 143, 4326] ∨
        proof.sourceDepositHash ≠ some sourceHash ∨ ¬ proof.binds op then invalidClaim
    else claimConfirmed op requestId sourceHash
      (proof.payout (if op.destinationChainId = 4326 then .erc20 relayMegaUsdm else .native))
  | _, _ => invalidClaim

def claimEthereumSource (sourceHash : Word) (proof : CreditEvidence) : Program Unit :=
  match op.order, op.statusLocator with
  | .ethereum _, some requestId =>
    if op.sourceChainId ≠ 1 ∨ op.destinationChainId ∉ [56, 8453] ∨ ¬ proof.binds op then invalidClaim
    else claimConfirmed op requestId sourceHash (proof.payout .native)
  | _, _ => invalidClaim

def UsdcCreditProof.payout (proof : UsdcCreditProof) : ClaimedPayout :=
  ⟨proof.destinationTransactionHash, proof.recipient, .erc20 proof.token, proof.creditedAtomic,
    proof.destinationBlockNumber, proof.destinationBlockHash⟩

def UsdcCreditProof.binds (proof : UsdcCreditProof) (op : RelayOperation) : Bool :=
  proof.quoteDigest = op.quoteDigest && proof.orderId = op.order.orderId && proof.recipient = op.recipient &&
    proof.token = ethereumUsdc && proof.minimumOutputAtomic = op.minOutputAtomic &&
      decide (op.minOutputAtomic ≤ proof.creditedAtomic)

def claimEthereumUsdc (sourceHash : Word) (proof : UsdcCreditProof) : Program Unit :=
  match op.order, op.statusLocator with
  | .arbitrum _, some requestId =>
    if op.sourceChainId ≠ 42161 ∨ op.destinationChainId ≠ 1 ∨ ¬ proof.binds op then invalidClaim
    else claimConfirmed op requestId sourceHash proof.payout
  | _, _ => invalidClaim

/-! ## The observers -/

inductive ObserveState
  | preparedWaiting
  | approvalPending
  | depositPending
  | sourceUnproven
  | sourceFinalized
  | depositSourceConfirmed
  | providerCandidateUnproven
  | recipientCreditObserved
  | operationalAcceptance
deriving DecidableEq

structure ObserveResult where
  state : ObserveState
  reason : String
deriving DecidableEq

def accepting (acceptance : Acceptance) (reason : String) : Program ObserveResult := do
  Prog.perform (PayoutOp.accept acceptance)
  return ⟨.operationalAcceptance, reason⟩

def CreditEvidence.acceptance (proof : CreditEvidence) (op : RelayOperation) : Acceptance :=
  ⟨op, (op.destinationChainId, proof.destinationTransactionHash), proof.creditedWei⟩

/-- The claim, and then the acceptance; a claim that throws leaves the candidate unproven. -/
def claimThen (claimed : Program Unit) (acceptance : Acceptance) (reason : String) : Program ObserveResult := do
  let result ← claimed.attempt
  match result with
  | .error _ => return ⟨.providerCandidateUnproven, "destination_payout_claim_conflict"⟩
  | .ok _ => accepting acceptance reason

/-- What stands between a proven credit and the claim. -/
def unlessMissing (missing : Option String) (next : Program ObserveResult) : Program ObserveResult :=
  match missing with
  | some reason => .ret ⟨.recipientCreditObserved, reason⟩
  | none => next

def afterProof {ε : Type} (result : ProofResult ε) (next : ε → Program ObserveResult) : Program ObserveResult :=
  match result with
  | .open' _ reason => .ret ⟨.providerCandidateUnproven, reason⟩
  | .proven proof => next proof

def nativeReason : String :=
  if op.sourceChainId = 8453 then "source_safe_provider_success_and_canonical_recipient_credit"
  else "source_finalized_provider_success_and_safe_recipient_credit"

def nativeDestination (quote : RelayNativeQuote) (hash : Word) : Program ObserveResult := do
  let provider ← (run (.status op) rfl : Program ProviderStatus).attempt
  match provider with
  | .error _ => return ⟨.sourceFinalized, "provider_status_unavailable_or_ambiguous"⟩
  | .ok provider =>
    let sourceBound := provider.chainIdentityObserved && provider.inTxHashes = [hash]
    if provider.txHashes.length = 0 then return ⟨.sourceFinalized, "provider_candidate_missing"⟩
    else if provider.txHashes.length ≠ 1 then
      return ⟨.providerCandidateUnproven, "multiple_provider_candidates"⟩
    else do
      let proof ← proveRelayNativeDestination op quote hash provider.txHashes
      afterProof proof fun proof =>
        unlessMissing (if provider.status ≠ .success ∨ ¬ sourceBound then
            some "provider_success_or_source_binding_unproven" else none)
          (claimThen (claim op hash proof) (proof.acceptance op) (nativeReason op))

def nativeBlocked {α : Type} : Program α := lift (blocked "Relay native observation is blocked.")

/-- The source is proven and settled before the destination is looked at. -/
def nativeSource (quote : RelayNativeQuote) (journal : SourceJournal) (hash : Word) :
    Program ObserveResult := do
  let source ← (run (.finalizedDeposit op hash) rfl : Program (Option DepositVerdict)).attempt
  match source with
  | .error _ => return ⟨.sourceUnproven, "source_rpc_unavailable"⟩
  | .ok none => return ⟨.sourceUnproven, "source_not_finalized_or_noncanonical"⟩
  | .ok (some .unbound) => return ⟨.sourceUnproven, "source_transaction_binding_failed"⟩
  | .ok (some .failed) =>
    if journal.phase ∉ [.submitting, .failed] then nativeBlocked
    else return ⟨.sourceUnproven, "source_receipt_failed"⟩
  | .ok (some .confirmed) =>
    if journal.phase ∉ [.submitting, .confirmed] then nativeBlocked
    else do
      let settled ← run (.settle op hash) rfl
      if settled then nativeDestination op quote hash else nativeBlocked

def observeNativeJournal (quote : RelayNativeQuote) (journal : SourceJournal) :
    Program ObserveResult :=
  match journal.phase with
  | .pending => .ret ⟨.depositPending, "deposit_pending"⟩
  | .signingStarted => .ret ⟨.depositPending, "deposit_signing_started"⟩
  | .sealed => .ret ⟨.depositPending, "deposit_sealed"⟩
  | .failedBeforeEffect => .ret ⟨.sourceUnproven, "no_source_effect"⟩
  | _ =>
    match journal.transactionHash with
    | none => nativeBlocked
    | some hash => nativeSource op quote journal hash

def observeNative : Program ObserveResult :=
  match op.order, op.statusLocator with
  | .native quote, some _ =>
    if ¬ onNativeRoute op quote then nativeBlocked
    else do
      let journal ← run (.source op) rfl
      match journal with
      | none => return ⟨.preparedWaiting, "source_journal_missing"⟩
      | some journal => observeNativeJournal op quote journal
  | _, _ => nativeBlocked

/-- Ethereum USDC to BNB, once the deposit is final. -/
def bnbDestination (quote : RelayQuote) (hash : Word) (sourceSettled : Bool) :
    Program ObserveResult := do
  let provider ← (run (.status op) rfl : Program ProviderStatus).attempt
  match provider with
  | .error _ => return ⟨.sourceFinalized, "provider_status_unavailable_or_ambiguous"⟩
  | .ok provider =>
    let sourceBound := provider.chainIdentityObserved && provider.inTxHashes.contains hash
    if 1 < provider.txHashes.length then return ⟨.providerCandidateUnproven, "multiple_provider_candidates"⟩
    else if provider.txHashes.length = 0 then return ⟨.sourceFinalized, "provider_candidate_missing"⟩
    else do
      let proof ← proveRelayBnbDestination op quote hash provider.txHashes
      afterProof proof fun proof =>
        unlessMissing (if provider.status ≠ .success ∨ ¬ sourceBound then
            some "provider_success_or_source_binding_unproven"
          else if ¬ sourceSettled then some "source_journal_unreconciled" else none)
          (claimThen (claimEthereumSource op hash proof) (proof.acceptance op)
            "source_finalized_provider_success_and_safe_recipient_credit")

def bnbSource (quote : RelayQuote) (journal : SourceJournal) (hash : Word) :
    Program ObserveResult := do
  let source ← (run (.finalizedDeposit op hash) rfl : Program (Option DepositVerdict)).attempt
  match source with
  | .error _ => return ⟨.sourceUnproven, "source_rpc_unavailable"⟩
  | .ok none => return ⟨.sourceUnproven, "source_not_finalized_or_noncanonical"⟩
  | .ok (some .unbound) => return ⟨.sourceUnproven, "source_receipt_binding_failed"⟩
  | .ok (some .failed) => return ⟨.sourceUnproven, "source_receipt_failed"⟩
  | .ok (some .confirmed) => do
    let settled ← run (.settle op hash) rfl
    if op.statusLocator = none then return ⟨.sourceFinalized, "status_locator_missing"⟩
    else bnbDestination op quote hash (settled || decide (journal.phase = .confirmed))

def observeBnbJournal (quote : RelayQuote) (journal : SourceJournal) : Program ObserveResult :=
  if ¬ journal.approvalConfirmed then .ret ⟨.approvalPending, "approval_unconfirmed"⟩
  else if journal.phase = .pending then .ret ⟨.depositPending, "deposit_pending"⟩
  else
    match journal.transactionHash with
    | none => .ret ⟨.depositPending, "deposit_hash_missing"⟩
    | some hash => bnbSource op quote journal hash

/-- `RelayObserveService.observe` on its own lane. -/
def observeBnb : Program ObserveResult :=
  match op.order with
  | .ethereum quote =>
    if op.sourceChainId ≠ 1 ∨ op.destinationChainId ≠ 56 ∨ quote.output.chainId ≠ "bnb" then
      lift (blocked "Relay observe supports only the saved Ethereum USDC to BNB lane.")
    else do
      let journal ← run (.source op) rfl
      match journal with
      | none => return ⟨.preparedWaiting, "source_journal_missing"⟩
      | some journal => observeBnbJournal op quote journal
  | _ => lift (blocked "Relay observe supports only the saved Ethereum USDC to BNB lane.")

/-- The deposit that the journal records as sent, after a confirmed approval. -/
def recordedDeposit : Option SourceJournal → Option Word
  | none => none
  | some journal =>
    if journal.approvalConfirmed ∧ journal.phase ∈ [.submitting, .confirmed] then journal.transactionHash else none

def baseSourceFinalized : Option Word → Program Bool
  | none => .ret false
  | some hash => do
    let source ← (run (.finalizedDeposit op hash) rfl : Program (Option DepositVerdict)).attempt
    match source with
    | .ok (some .confirmed) => return true
    | _ => return false

def baseUsageBound (sourceFinalized : Bool) : Option Word → Program Bool
  | none => .ret false
  | some hash => if sourceFinalized then run (.settle op hash) rfl else .ret false

/-- The first layer a Base acceptance still misses. -/
def baseMissing (sourceFinalized sourceBound usageBound : Bool) (status : RelayStatus) : Option String :=
  if ¬ sourceFinalized then some "source_not_finalized"
  else if ¬ sourceBound then some "provider_source_binding_unproven"
  else if status ≠ .success then some "provider_success_unproven"
  else if ¬ usageBound then some "source_journal_unreconciled"
  else none

def claimBase (sourceHash : Option Word) (proof : CreditEvidence) : Program Unit :=
  match sourceHash with
  | none => invalidClaim
  | some hash => claimEthereumSource op hash proof

def baseDestination (quote : RelayQuote) (sourceHash : Option Word)
    (sourceFinalized usageBound : Bool) : Program ObserveResult := do
  let provider ← (run (.status op) rfl : Program ProviderStatus).attempt
  match provider with
  | .error _ => return ⟨.providerCandidateUnproven, "provider_status_unavailable_or_ambiguous"⟩
  | .ok provider =>
    let sourceBound := match sourceHash with
      | none => false
      | some hash => provider.inTxHashes.contains hash
    if ¬ provider.chainIdentityObserved ∨ provider.txHashes.length ≠ 1 then
      return ⟨.providerCandidateUnproven, "provider_chain_or_candidate_ambiguous"⟩
    else do
      let proof ← proveRelayBaseDestination op quote provider.txHashes
      afterProof proof fun proof =>
        unlessMissing (baseMissing sourceFinalized sourceBound usageBound provider.status)
          (claimThen (claimBase op sourceHash proof) (proof.acceptance op)
            "source_finalized_provider_bound_safe_base_recipient_credit")

def observeBase : Program ObserveResult :=
  match op.order with
  | .ethereum quote =>
    if op.sourceChainId ≠ 1 ∨ op.destinationChainId ≠ 8453 ∨ quote.routeReference ≠ baseRouteReference then
      lift (blocked "Relay Base observe requires a saved Base route.")
    else do
      let journal ← run (.source op) rfl
      let sourceFinalized ← baseSourceFinalized op (recordedDeposit journal)
      let usageBound ← baseUsageBound op sourceFinalized (recordedDeposit journal)
      if op.statusLocator = none then return ⟨.preparedWaiting, "status_locator_missing"⟩
      else baseDestination op quote (recordedDeposit journal) sourceFinalized usageBound
  | _ => lift (blocked "Relay Base observe requires a saved Base route.")

/-! ## The Arbitrum lane and its credit records -/

def creditCorrupt {α : Type} : Result α := corrupt "Relay Arbitrum destination credit record is invalid."

/-- The record is this operation's, and its credit at least the minimum. -/
def CreditRecord.binds (record : CreditRecord) (op : RelayOperation) : Bool :=
  record.profileHash = op.profileHash && record.operationId = op.operationId &&
    record.operationIntegrityHash = op.integrityHash && record.quoteDigest = op.quoteDigest &&
      some record.requestId = op.statusLocator && record.proof.quoteDigest = op.quoteDigest &&
        record.proof.orderId = op.order.orderId && record.proof.recipient = op.recipient &&
          decide (op.minOutputAtomic ≤ record.proof.creditedAtomic)

def loadCredit : Program (Option CreditRecord) := do
  let saved ← run (.readCredit op) rfl
  match saved with
  | none => return none
  | some record => if ¬ record.binds op then lift creditCorrupt else return some record

def creditFor (requestId : String) (sourceHash : Word) (proof : UsdcCreditProof) : CreditRecord :=
  ⟨op.profileHash, op.operationId, op.integrityHash, op.quoteDigest, requestId, sourceHash, proof⟩

/-- `CreditRecords.record` -/
def recordCredit (record : CreditRecord) : Program CreditRecord := do
  let saved ← loadCredit op
  match saved with
  | some saved => return saved
  | none => do
    let _ ← (run (.createCredit record) rfl : Program Unit)
    return record

def CreditRecord.acceptance (record : CreditRecord) (op : RelayOperation) : Acceptance :=
  ⟨op, (op.destinationChainId, record.proof.destinationTransactionHash), record.proof.creditedAtomic⟩

def claimAndRecord (requestId : String) (hash : Word) (proof : UsdcCreditProof) :
    Program ObserveResult := do
  let claimed ← (claimEthereumUsdc op hash proof).attempt
  match claimed with
  | .error _ => return ⟨.providerCandidateUnproven, "destination_payout_claim_conflict"⟩
  | .ok _ => do
    let record ← recordCredit op (creditFor op requestId hash proof)
    accepting (record.acceptance op) "source_safe_provider_success_and_canonical_recipient_credit"

def arbitrumCandidate (requestId : String) (hash : Word) (provider : ProviderStatus) :
    List Word → Program ObserveResult
  | [] => .ret ⟨.depositSourceConfirmed, "provider_candidate_missing"⟩
  | [candidate] => do
    let quote ← run (.projectQuote op) rfl
    if quote.quoteDigest ≠ op.quoteDigest ∨ quote.recipient ≠ op.recipient then lift creditCorrupt
    else do
      let credit ← proveRelayEthereumUsdcCredit quote candidate
      afterProof credit fun proof =>
        unlessMissing (if provider.status ≠ .success ∨
            ¬ (provider.chainIdentityObserved && provider.inTxHashes.contains hash) then
            some "provider_success_or_source_binding_unproven" else none)
          (claimAndRecord op requestId hash proof)
  | _ => .ret ⟨.providerCandidateUnproven, "multiple_provider_candidates"⟩

def arbitrumUnrecorded (requestId : String) (hash : Word) : Program ObserveResult := do
  let provider ← (run (.status op) rfl : Program ProviderStatus).attempt
  match provider with
  | .error _ => return ⟨.depositSourceConfirmed, "provider_status_unavailable_or_ambiguous"⟩
  | .ok provider => arbitrumCandidate op requestId hash provider provider.txHashes

/-- `RelayArbitrumDestinationObserver.observe` -/
def arbitrumDestination (hash : Word) : Program ObserveResult :=
  match op.order, op.statusLocator with
  | .arbitrum _, some requestId => do
    let recorded ← loadCredit op
    match recorded with
    | some record => accepting (record.acceptance op) "recorded_destination_credit"
    | none => arbitrumUnrecorded op requestId hash
  | _, _ => .ret ⟨.depositSourceConfirmed, "status_locator_missing"⟩

/-- The source observation reads the deposit from the journal that it has just found confirmed. -/
def observeArbitrum : Program ObserveResult :=
  match op.order with
  | .arbitrum _ =>
    if op.sourceChainId ≠ 42161 ∨ op.destinationChainId ≠ 1 then lift (blocked "exact_saved_arbitrum_route")
    else do
      let journal ← run (.source op) rfl
      match journal with
      | some ⟨_, .confirmed, some hash⟩ => arbitrumDestination op hash
      | _ => return ⟨.sourceUnproven, "source_proof_pending"⟩
  | _ => lift (blocked "exact_saved_arbitrum_route")

/-- The observer of a lane. -/
inductive Lane
  | native
  | bnb
  | base
  | arbitrum
deriving DecidableEq

def observe : Lane → RelayOperation → Program ObserveResult
  | .native => observeNative
  | .bnb => observeBnb
  | .base => observeBase
  | .arbitrum => observeArbitrum

end PaymentNode.Payout
