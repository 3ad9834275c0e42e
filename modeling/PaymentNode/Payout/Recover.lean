import PaymentNode.Payout.Matching

/-!
# Recovery — an operation that holds a claim can still be accepted

A claim carries the evidence it was made on.  The canonical chain still answers the same reads, so an observation to
which the provider names the payout again makes the same claim, finds it saved, and accepts.
-/

namespace PaymentNode.Payout

open System

variable {W : World} {p : ℕ} {s t : State}

/-! ## One observation, undisturbed -/

theorem ends_run {α : Type} {o : PayoutOp} {h : o.Answer = Result α} {v : α} (a : o.Answer)
    (ha : h ▸ a = Except.ok v) (hexec : W.exec s o a t) : Ends W.system p (run o h) s (.ok v) t := by
  apply Ends.op hexec
  show Ends W.system p (Prog.ofExcept (h ▸ a)) t _ t
  rw [ha]
  exact Ends.ret v t

variable {chain : ℕ}

theorem ends_chainId :
    Ends W.system p (run (.chainId chain) rfl : Program ℕ) s (.ok chain) s :=
  ends_run (Except.ok chain) rfl ⟨fun _ hid => (Except.ok.inj hid).symm, rfl⟩

variable {hash : Word}

theorem ends_transaction {found : Option RelayTransaction}
    (h : ∀ tx, found = some tx → (W.canonical chain hash).map Prod.fst = some tx) :
    Ends W.system p (run (.transaction chain hash) rfl : Program (Option RelayTransaction)) s (.ok found) s :=
  ends_run (Except.ok found) rfl ⟨fun tx htx => h tx (Except.ok.inj htx), rfl⟩

theorem ends_receipt {found : Option RelayReceipt}
    (h : ∀ receipt, found = some receipt → (W.canonical chain hash).map Prod.snd = some receipt) :
    Ends W.system p (run (.receipt chain hash) rfl : Program (Option RelayReceipt)) s (.ok found) s :=
  ends_run (Except.ok found) rfl ⟨fun receipt hreceipt => h receipt (Except.ok.inj hreceipt), rfl⟩

theorem ends_block {chain number : ℕ} {found : Option RelayBlock}
    (h : ∀ block, found = some block → block = ⟨number, some (W.blockHash chain number)⟩) :
    Ends W.system p (run (.block chain number) rfl : Program (Option RelayBlock)) s (.ok found) s :=
  ends_run (Except.ok found) rfl ⟨fun block hblock => h block (Except.ok.inj hblock), rfl⟩

theorem ends_checkpoint {found : Option RelayBlock}
    (h : ∀ block, found = some block → block.hash = some (W.blockHash chain block.number)) :
    Ends W.system p (run (.checkpoint chain) rfl : Program (Option RelayBlock)) s (.ok found) s :=
  ends_run (Except.ok found) rfl ⟨fun block hblock => h block (Except.ok.inj hblock), rfl⟩

theorem ends_inclusionBlock {reads : CandidateReads} (h : Truthful W chain hash reads) :
    Ends W.system p (inclusionBlock chain reads.receipt) s (.ok reads.block) s := by
  cases hreceipt : reads.receipt with
  | none =>
    cases hblock : reads.block with
    | none => exact Ends.ret none s
    | some block =>
      rcases h.block block hblock with ⟨receipt, hsome, _⟩
      rw [hreceipt] at hsome
      cases hsome
  | some receipt =>
    apply ends_block
    intro block hblock
    rcases h.block block hblock with ⟨receipt', hsome, hread⟩
    rw [hreceipt] at hsome
    cases hsome
    exact hread

theorem ends_readCandidate {reads : CandidateReads} (h : Truthful W chain hash reads) :
    Ends W.system p (readCandidate chain hash) s (.ok reads) s := by
  apply Ends.bind (ends_receipt h.receipt)
  apply Ends.bind (ends_inclusionBlock h)
  rcases reads with ⟨chainId, tx, receipt, block, safe⟩
  have hchain : chainId = chain := h.chainId
  subst hchain
  apply Ends.bind ends_chainId
  apply Ends.bind (ends_transaction h.transaction)
  apply Ends.bind (ends_checkpoint h.safe)
  exact Ends.ret _ s

theorem ends_inspectCandidate {op : RelayOperation} {sourceHash : Option Word}
    {proof : CreditEvidence} (h : ProvenBy W op sourceHash hash chain proof) :
    Ends W.system p (inspectCandidate op sourceHash hash chain) s (.ok (.proven proof)) s := by
  rcases h with ⟨reads, htruthful, hproven⟩
  apply Ends.bind (a := true) (Ends.perform (S := W.system) (o := .polygonPort) rfl)
  show Ends W.system p (ite _ _ _) s _ s
  rw [if_neg (by simp)]
  apply Ends.bind (Ends.attempt (ends_readCandidate htruthful))
  show Ends W.system p (Prog.ret (inspectReads op sourceHash hash chain reads)) s _ s
  rw [hproven]
  exact Ends.ret _ s

theorem ends_readUsdcBlocks {receipt : RelayReceipt} {reads : UsdcReads} (h : UsdcTruthful W receipt reads)
    (hinclusion : reads.inclusion.isSome) (hsafe : reads.safe.isSome) :
    Ends W.system p (readUsdcBlocks receipt) s (.ok reads) s := by
  rcases reads with ⟨inclusion, safe, again, safeAgain⟩
  rcases Option.isSome_iff_exists.mp hinclusion with ⟨inclusion, rfl⟩
  rcases Option.isSome_iff_exists.mp hsafe with ⟨safe, rfl⟩
  apply Ends.bind (ends_block h.inclusion)
  apply Ends.bind (ends_checkpoint h.safe)
  apply Ends.bind (ends_block h.inclusionAgain)
  have hagain : Ends W.system p (run (.block 1 safe.number) rfl : Program (Option RelayBlock)) s (.ok safeAgain) s := by
    apply ends_block
    intro block hblock
    rcases h.safeAgain block hblock with ⟨safe', ⟨⟩, hread⟩
    exact hread
  apply Ends.bind hagain
  exact Ends.ret _ s

theorem usdcReads_answered {quote : ArbitrumQuote} {receipt : RelayReceipt} {reads : UsdcReads}
    {proof : UsdcCreditProof} (h : usdcReads quote hash receipt reads = .proven proof) :
    reads.inclusion.isSome ∧ reads.safe.isSome := by
  unfold usdcReads at h
  split at h
  · simp [*]
  · cases h

theorem ends_proveRelayEthereumUsdcCredit {quote : ArbitrumQuote} {proof : UsdcCreditProof}
    (hbound : quote.bound = true) (h : UsdcProvenBy W quote hash proof) :
    Ends W.system p (proveRelayEthereumUsdcCredit quote hash) s (.ok (.proven proof)) s := by
  rcases h with ⟨tx, receipt, reads, hcanonical, hidentity, hsuccess, htruthful, hproven⟩
  unfold proveRelayEthereumUsdcCredit
  rw [if_neg (not_not.mpr hbound)]
  apply Ends.bind (Ends.attempt ends_chainId)
  have hread : Ends W.system p (readUsdcTransaction hash) s (.ok (some tx, some receipt)) s := by
    have htx : ∀ found, some tx = some found → (W.canonical 1 hash).map Prod.fst = some found := by
      intro found hfound
      rw [hcanonical]
      exact hfound
    have hreceipt : ∀ found, some receipt = some found → (W.canonical 1 hash).map Prod.snd = some found := by
      intro found hfound
      rw [hcanonical]
      exact hfound
    apply Ends.bind (ends_transaction htx)
    apply Ends.bind (ends_receipt hreceipt)
    exact Ends.ret _ s
  apply Ends.bind (Ends.attempt hread)
  show Ends W.system p (proveUsdcReceipt quote hash tx receipt) s _ s
  unfold proveUsdcReceipt
  rw [if_neg (not_not.mpr hidentity), if_neg (not_not.mpr hsuccess)]
  rcases usdcReads_answered hproven with ⟨hinclusion, hsafe⟩
  apply Ends.bind (Ends.attempt (ends_readUsdcBlocks htruthful hinclusion hsafe))
  show Ends W.system p (Prog.ret (usdcReads quote hash receipt reads)) s _ s
  rw [hproven]
  exact Ends.ret _ s

/-! ## The observers -/

section Lanes

variable {op : RelayOperation} {requestId : String} {sourceHash : Word} {payout : ClaimedPayout}

theorem ends_source : Ends W.system p (run (.source op) rfl : Program (Option SourceJournal)) s (.ok (s.sources op)) s :=
  ends_run (Except.ok (s.sources op)) rfl ⟨fun _ h => Except.ok.inj h, rfl⟩

theorem ends_deposit (verdict : Option DepositVerdict) :
    Ends W.system p (run (.finalizedDeposit op hash) rfl : Program (Option DepositVerdict)) s (.ok verdict) s :=
  ends_run (Except.ok verdict) rfl rfl

theorem ends_status {provider : ProviderStatus} (hasserted : W.asserts op provider) :
    Ends W.system p (run (.status op) rfl : Program ProviderStatus) s (.ok provider) s := by
  apply ends_run (Except.ok provider) rfl
  refine ⟨?_, rfl⟩
  rintro provider ⟨⟩
  exact hasserted

theorem ends_settle (hvalid : SourcesValid s.sources) (hsource : Confirmed op sourceHash s) :
    Ends W.system p (run (.settle op sourceHash) rfl : Program Bool) s (.ok true) s :=
  ends_run (Except.ok true) rfl ⟨⟨⟨s.sources, rfl⟩, hvalid, fun _ _ h _ => h⟩, fun _ => hsource⟩

theorem ends_claimConfirmed (hsource : Confirmed op sourceHash s)
    (hsaved : s.claims (op.destinationChainId, payout.transactionHash) =
      some (claimFor op requestId sourceHash payout)) :
    Ends W.system p (claimConfirmed op requestId sourceHash payout) s (.ok ()) s := by
  rcases hsource with ⟨journal, hjournal, hconfirms⟩
  apply Ends.bind ends_source
  rw [hjournal]
  show Ends W.system p (ite _ _ _) s _ s
  rw [if_neg (by simp [hconfirms.2.1, hconfirms.2.2])]
  have hread : Ends W.system p (run (.readClaim (op.destinationChainId, payout.transactionHash)) rfl) s
      (.ok (some (claimFor op requestId sourceHash payout))) s :=
    ends_run (Except.ok (some (claimFor op requestId sourceHash payout))) rfl
      ⟨fun _ h => hsaved.trans (Except.ok.inj h), rfl⟩
  apply Ends.bind hread
  show Ends W.system p (ite _ _ _) s _ s
  rw [if_neg (by simp)]
  exact Ends.ret () s

theorem ends_accepting {a : Acceptance} {reason : String} :
    Ends W.system p (accepting a reason) s (.ok ⟨.operationalAcceptance, reason⟩)
      { s with accepted := a :: s.accepted } :=
  Ends.op (a := ()) rfl (Ends.ret _ _)

theorem ends_claimThen {claimed : Program Unit} {a : Acceptance} {reason : String}
    (h : Ends W.system p claimed s (.ok ()) s) :
    Ends W.system p (claimThen claimed a reason) s (.ok ⟨.operationalAcceptance, reason⟩)
      { s with accepted := a :: s.accepted } :=
  Ends.bind (Ends.attempt h) ends_accepting

theorem Confirmed.journal (h : Confirmed op sourceHash s) :
    s.sources op = some ⟨true, .confirmed, some sourceHash⟩ := by
  rcases h with ⟨⟨approved, phase, hash⟩, hsaved, happroved, hphase, hhash⟩
  simp only at happroved hphase hhash
  subst happroved hphase hhash
  exact hsaved

/-- An observation accepts the payout for the operation. -/
def Accepts (W : World) (p : ℕ) (op : RelayOperation) (key : PayoutKey) (s : State) : Prop :=
  ∃ lane reason t, Ends W.system p (observe lane op) s (.ok ⟨.operationalAcceptance, reason⟩) t ∧
    ∃ a ∈ t.accepted, a.operation = op ∧ a.payout = key

variable {proof : CreditEvidence} {provider : ProviderStatus}

theorem accepts_native {quote : RelayNativeQuote} (horder : op.order = .native quote)
    (hlocator : op.statusLocator = some requestId) (hasserted : W.asserts op provider)
    (hnames : provider.Names op sourceHash proof.destinationTransactionHash) (hquote : nativeQuoteBinds op quote)
    (hsources : op.sourceChainId ∈ [56, 8453]) (hdestinations : op.destinationChainId ∈ [137, 143, 4326])
    (hdeposit : proof.sourceDepositHash = some sourceHash) (hbinds : proof.binds op = true)
    (hproven : ProvenBy W op (some sourceHash) proof.destinationTransactionHash op.destinationChainId proof)
    (hvalid : SourcesValid s.sources) (hsource : Confirmed op sourceHash s)
    (hclaim : Ends W.system p (claimConfirmed op requestId sourceHash
      (proof.payout (if op.destinationChainId = 4326 then .erc20 relayMegaUsdm else .native))) s (.ok ()) s) :
    Accepts W p op (op.destinationChainId, proof.destinationTransactionHash) s := by
  refine ⟨.native, nativeReason op, { s with accepted := proof.acceptance op :: s.accepted }, ?_, proof.acceptance op,
    List.mem_cons_self, rfl, rfl⟩
  show Ends W.system p (observeNative op) s _ _
  simp only [observeNative, horder, hlocator, hquote.1, not_true, if_false]
  apply Ends.bind ends_source
  rw [hsource.journal]
  apply Ends.bind (Ends.attempt (ends_deposit (some .confirmed)))
  show Ends W.system p (ite _ _ _) s _ _
  rw [if_neg (by simp)]
  apply Ends.bind (ends_settle hvalid hsource)
  show Ends W.system p (ite _ _ _) s _ _
  rw [if_pos rfl]
  apply Ends.bind (Ends.attempt (ends_status hasserted))
  have hbound : provider.inTxHashes = [sourceHash] := by
    have hdeposit := hnames.deposit
    rwa [horder] at hdeposit
  simp only [hnames.candidate, hnames.status, hnames.chainIdentity, hbound]
  show Ends W.system p (ite _ _ _) s _ _
  rw [if_neg (by simp), if_neg (by simp)]
  have hprove : Ends W.system p (proveRelayNativeDestination op quote sourceHash [proof.destinationTransactionHash]) s
      (.ok (.proven proof)) s := by
    show Ends W.system p (ite _ _ _) s _ s
    rw [if_neg (by simp [hquote.1, hquote.2.1, hquote.2.2])]
    exact ends_inspectCandidate hproven
  apply Ends.bind hprove
  simp only [afterProof]
  rw [if_neg (by simp)]
  apply ends_claimThen
  simp only [claim, horder, hlocator]
  rw [if_neg (by simp [hsources, hdestinations, hdeposit, hbinds])]
  exact hclaim

theorem ends_claimEthereumSource {quote : RelayQuote} (horder : op.order = .ethereum quote)
    (hlocator : op.statusLocator = some requestId) (hchain : op.sourceChainId = 1)
    (hdestinations : op.destinationChainId ∈ [56, 8453]) (hbinds : proof.binds op = true)
    (hclaim : Ends W.system p (claimConfirmed op requestId sourceHash (proof.payout .native)) s (.ok ()) s) :
    Ends W.system p (claimEthereumSource op sourceHash proof) s (.ok ()) s := by
  simp only [claimEthereumSource, horder, hlocator]
  rw [if_neg (by simp [hchain, hdestinations, hbinds])]
  exact hclaim

theorem QuoteOutput.pays_chain {output : QuoteOutput} {chain : String} (h : output.pays chain op = true) :
    output.chainId = chain := by
  simp only [QuoteOutput.pays, Bool.and_eq_true, decide_eq_true_eq] at h
  exact h.1.1

theorem accepts_bnb {quote : RelayQuote} (horder : op.order = .ethereum quote)
    (hlocator : op.statusLocator = some requestId) (hasserted : W.asserts op provider)
    (hnames : provider.Names op sourceHash proof.destinationTransactionHash) (hchain : op.sourceChainId = 1)
    (hdestination : op.destinationChainId = 56) (hpays : quote.output.pays "bnb" op = true)
    (hbinds : proof.binds op = true)
    (hproven : ProvenBy W op (some sourceHash) proof.destinationTransactionHash 56 proof)
    (hvalid : SourcesValid s.sources) (hsource : Confirmed op sourceHash s)
    (hclaim : Ends W.system p (claimConfirmed op requestId sourceHash (proof.payout .native)) s (.ok ()) s) :
    Accepts W p op (op.destinationChainId, proof.destinationTransactionHash) s := by
  refine ⟨.bnb, "source_finalized_provider_success_and_safe_recipient_credit",
    { s with accepted := proof.acceptance op :: s.accepted }, ?_, proof.acceptance op, List.mem_cons_self, rfl, rfl⟩
  show Ends W.system p (observeBnb op) s _ _
  simp only [observeBnb, horder]
  rw [if_neg (by simp [hchain, hdestination, QuoteOutput.pays_chain hpays])]
  apply Ends.bind ends_source
  rw [hsource.journal]
  show Ends W.system p (observeBnbJournal op quote _) s _ _
  simp only [observeBnbJournal]
  rw [if_neg (by simp), if_neg (by simp)]
  apply Ends.bind (Ends.attempt (ends_deposit (some .confirmed)))
  apply Ends.bind (ends_settle hvalid hsource)
  show Ends W.system p (ite _ _ _) s _ _
  rw [if_neg (by simp [hlocator])]
  apply Ends.bind (Ends.attempt (ends_status hasserted))
  have hbound : sourceHash ∈ provider.inTxHashes := by
    have hdeposit := hnames.deposit
    rwa [horder] at hdeposit
  simp only [hnames.candidate, hnames.status, hnames.chainIdentity, List.contains_iff_mem.mpr hbound]
  show Ends W.system p (ite _ _ _) s _ _
  rw [if_neg (by simp), if_neg (by simp)]
  have hprove : Ends W.system p (proveRelayBnbDestination op quote sourceHash [proof.destinationTransactionHash]) s
      (.ok (.proven proof)) s := by
    show Ends W.system p (ite _ _ _) s _ s
    rw [if_neg (by simp [hchain, hdestination, hpays])]
    exact ends_inspectCandidate hproven
  apply Ends.bind hprove
  simp only [afterProof]
  rw [if_neg (by simp), if_neg (by simp)]
  apply ends_claimThen
  exact ends_claimEthereumSource horder hlocator hchain (by simp [hdestination]) hbinds hclaim

theorem accepts_base {quote : RelayQuote} (horder : op.order = .ethereum quote)
    (hlocator : op.statusLocator = some requestId) (hasserted : W.asserts op provider)
    (hnames : provider.Names op sourceHash proof.destinationTransactionHash) (hchain : op.sourceChainId = 1)
    (hdestination : op.destinationChainId = 8453) (hroute : quote.routeReference = baseRouteReference)
    (hpays : quote.output.pays "base" op = true) (hbinds : proof.binds op = true)
    (hproven : ProvenBy W op none proof.destinationTransactionHash 8453 proof)
    (hvalid : SourcesValid s.sources) (hsource : Confirmed op sourceHash s)
    (hclaim : Ends W.system p (claimConfirmed op requestId sourceHash (proof.payout .native)) s (.ok ()) s) :
    Accepts W p op (op.destinationChainId, proof.destinationTransactionHash) s := by
  refine ⟨.base, "source_finalized_provider_bound_safe_base_recipient_credit",
    { s with accepted := proof.acceptance op :: s.accepted }, ?_, proof.acceptance op, List.mem_cons_self, rfl, rfl⟩
  show Ends W.system p (observeBase op) s _ _
  simp only [observeBase, horder]
  rw [if_neg (by simp [hchain, hdestination, hroute])]
  apply Ends.bind ends_source
  rw [hsource.journal]
  have hrecorded : recordedDeposit (some ⟨true, .confirmed, some sourceHash⟩) = some sourceHash := rfl
  rw [hrecorded]
  have hfinal : Ends W.system p (baseSourceFinalized op (some sourceHash)) s (.ok true) s :=
    Ends.bind (Ends.attempt (ends_deposit (some .confirmed))) (Ends.ret true s)
  apply Ends.bind hfinal
  apply Ends.bind (ends_settle hvalid hsource)
  show Ends W.system p (ite _ _ _) s _ _
  rw [if_neg (by simp [hlocator])]
  apply Ends.bind (Ends.attempt (ends_status hasserted))
  have hbound : sourceHash ∈ provider.inTxHashes := by
    have hdeposit := hnames.deposit
    rwa [horder] at hdeposit
  simp only [hnames.candidate, hnames.status, hnames.chainIdentity, List.contains_iff_mem.mpr hbound]
  show Ends W.system p (ite _ _ _) s _ _
  rw [if_neg (by simp)]
  have hprove : Ends W.system p (proveRelayBaseDestination op quote [proof.destinationTransactionHash]) s
      (.ok (.proven proof)) s := by
    show Ends W.system p (ite _ _ _) s _ s
    rw [if_neg (by simp [hchain, hdestination, hroute, hpays])]
    exact ends_inspectCandidate hproven
  apply Ends.bind hprove
  show Ends W.system p (unlessMissing (baseMissing true true true .success) _) s _ _
  apply ends_claimThen
  exact ends_claimEthereumSource horder hlocator hchain (by simp [hdestination]) hbinds hclaim

theorem accepts_recorded {orderId : String} {record : CreditRecord} (horder : op.order = .arbitrum orderId)
    (hlocator : op.statusLocator = some requestId) (hchain : op.sourceChainId = 42161)
    (hdestination : op.destinationChainId = 1) (hsource : Confirmed op sourceHash s)
    (hsaved : s.credits op.slot = some record) (hbinds : record.binds op = true) :
    Accepts W p op (record.acceptance op).payout s := by
  refine ⟨.arbitrum, "recorded_destination_credit", { s with accepted := record.acceptance op :: s.accepted }, ?_,
    record.acceptance op, List.mem_cons_self, rfl, rfl⟩
  show Ends W.system p (observeArbitrum op) s _ _
  simp only [observeArbitrum, horder]
  rw [if_neg (by simp [hchain, hdestination])]
  apply Ends.bind ends_source
  rw [hsource.journal]
  show Ends W.system p (arbitrumDestination op sourceHash) s _ _
  simp only [arbitrumDestination, horder, hlocator]
  have hload : Ends W.system p (loadCredit op) s (.ok (some record)) s := by
    have hread : Ends W.system p (run (.readCredit op) rfl : Program (Option CreditRecord)) s (.ok (some record)) s :=
      ends_run (Except.ok (some record)) rfl ⟨fun _ h => hsaved.trans (Except.ok.inj h), rfl⟩
    apply Ends.bind hread
    show Ends W.system p (ite _ _ _) s _ s
    rw [if_neg (not_not.mpr hbinds)]
    exact Ends.ret _ s
  exact Ends.bind hload ends_accepting

theorem accepts_arbitrum {orderId : String} {proof : UsdcCreditProof} (horder : op.order = .arbitrum orderId)
    (hlocator : op.statusLocator = some requestId) (hasserted : W.asserts op provider)
    (hnames : provider.Names op sourceHash proof.destinationTransactionHash) (hchain : op.sourceChainId = 42161)
    (hdestination : op.destinationChainId = 1) (hdigest : (W.project op).quoteDigest = op.quoteDigest)
    (hrecipient : (W.project op).recipient = op.recipient) (hbound : (W.project op).bound = true)
    (hbinds : proof.binds op = true)
    (hproven : UsdcProvenBy W (W.project op) proof.destinationTransactionHash proof)
    (hsource : Confirmed op sourceHash s) (hnone : s.credits op.slot = none)
    (hclaim : Ends W.system p (claimConfirmed op requestId sourceHash proof.payout) s (.ok ()) s) :
    Accepts W p op (op.destinationChainId, proof.destinationTransactionHash) s := by
  let made := creditFor op requestId sourceHash proof
  let written : State := { s with credits := Function.update s.credits made.slot (some made) }
  refine ⟨.arbitrum, "source_safe_provider_success_and_canonical_recipient_credit",
    { written with accepted := made.acceptance op :: written.accepted }, ?_, made.acceptance op, List.mem_cons_self,
    rfl, rfl⟩
  show Ends W.system p (observeArbitrum op) s _ _
  simp only [observeArbitrum, horder]
  rw [if_neg (by simp [hchain, hdestination])]
  apply Ends.bind ends_source
  rw [hsource.journal]
  show Ends W.system p (arbitrumDestination op sourceHash) s _ _
  simp only [arbitrumDestination, horder, hlocator]
  -- Nothing is recorded for the operation, so the provider is asked.
  have hload : Ends W.system p (loadCredit op) s (.ok none) s := by
    have hread : Ends W.system p (run (.readCredit op) rfl : Program (Option CreditRecord)) s (.ok none) s :=
      ends_run (Except.ok none) rfl ⟨fun _ h => hnone.trans (Except.ok.inj h), rfl⟩
    exact Ends.bind hread (Ends.ret _ s)
  apply Ends.bind hload
  apply Ends.bind (Ends.attempt (ends_status hasserted))
  have hbound' : sourceHash ∈ provider.inTxHashes := by
    have hdeposit := hnames.deposit
    rwa [horder] at hdeposit
  simp only [arbitrumCandidate, hnames.candidate, hnames.status, hnames.chainIdentity,
    List.contains_iff_mem.mpr hbound']
  have hproject : Ends W.system p (run (.projectQuote op) rfl : Program ArbitrumQuote) s (.ok (W.project op)) s :=
    ends_run (Except.ok (W.project op)) rfl ⟨fun _ h => (Except.ok.inj h).symm, rfl⟩
  apply Ends.bind hproject
  show Ends W.system p (ite _ _ _) s _ _
  rw [if_neg (by simp [hdigest, hrecipient])]
  apply Ends.bind (ends_proveRelayEthereumUsdcCredit hbound hproven)
  simp only [afterProof]
  rw [if_neg (by simp)]
  -- The proof is of this operation, so its payout is claimed.
  have hclaimed : Ends W.system p (claimEthereumUsdc op sourceHash proof) s (.ok ()) s := by
    simp only [claimEthereumUsdc, horder, hlocator]
    rw [if_neg (by simp [hchain, hdestination, hbinds])]
    exact hclaim
  apply Ends.bind (Ends.attempt hclaimed)
  -- The credit file is free, and the created credit is accepted.
  have hrecord : Ends W.system p (recordCredit op made) s (.ok made) written := by
    apply Ends.bind hload
    have hfree : s.credits made.slot = none := hnone
    have hcreate : Ends W.system p (run (.createCredit made) rfl : Program Unit) s (.ok ()) written := by
      apply ends_run (Except.ok ()) rfl
      refine ⟨written.credits, ?_, rfl⟩
      unfold createOnly
      rw [hfree]
      exact .inl ⟨rfl, rfl⟩
    exact Ends.bind hcreate (Ends.ret made written)
  exact Ends.bind hrecord ends_accepting

end Lanes

/-- The claims of an operation are on one payout. -/
def OneClaim (s : State) : Prop :=
  ∀ key key' claim claim', s.claims key = some claim → s.claims key' = some claim' →
    claim.operationIntegrityHash = claim'.operationIntegrityHash → key = key'

-- What is claimed for an operation can be accepted for it.
theorem accepts_claimed {op : RelayOperation} {key : PayoutKey} {claim : PayoutClaim} (hs : Inv W s)
    (hone : OneClaim s) (hop : W.operations op) (hclaim : s.claims key = some claim)
    (howner : claim.operationIntegrityHash = op.integrityHash) : Accepts W p op key s := by
  rcases hs.claims key claim hclaim with ⟨hkey, op', requestId, sourceHash, payout, hop', hlocator, hsource,
    ⟨⟨provider, hasserted, hnames⟩, hevidence⟩, hmade⟩
  have hsame : op' = op := by
    apply W.digested op' op hop' hop
    rw [← howner, hmade]
    rfl
  subst hsame
  subst hmade
  subst hkey
  have hclaimed := ends_claimConfirmed (W := W) (p := p) hsource hclaim
  cases hevidence with
  | native horder hquote hsources hdestinations hdeposit hbinds hproven =>
    exact accepts_native horder hlocator hasserted hnames hquote hsources hdestinations hdeposit hbinds hproven
      hs.sources hsource hclaimed
  | bnb horder hchain hdestination hpays hbinds hproven =>
    exact accepts_bnb horder hlocator hasserted hnames hchain hdestination hpays hbinds hproven hs.sources hsource
      hclaimed
  | base horder hchain hdestination hroute hpays hbinds hproven =>
    exact accepts_base horder hlocator hasserted hnames hchain hdestination hroute hpays hbinds hproven hs.sources
      hsource hclaimed
  | arbitrum horder hchain hdestination hdigest hrecipient hbound hbinds hproven =>
    cases hsaved : s.credits op'.slot with
    | none =>
      exact accepts_arbitrum horder hlocator hasserted hnames hchain hdestination hdigest hrecipient hbound hbinds
        hproven hsource hsaved hclaimed
    | some record =>
      rcases hs.credits op'.slot record hsaved with ⟨op, hop, hslot, hrecord, held, hheld, hholder⟩
      have hsame : op = op' := W.keyed op op' hop hop' (congrArg Prod.fst hslot) (congrArg Prod.snd hslot)
      subst hsame
      have hpayout : (record.acceptance op).payout = (claimFor op requestId sourceHash _).key :=
        hone _ _ held _ hheld hclaim (hholder.trans howner.symm)
      rw [← hpayout]
      exact accepts_recorded horder hlocator hchain hdestination hsource hsaved hrecord

/-! ## Runs -/

/-- Of the transactions the provider names for an operation and its deposit, in all its answers, the canonical chain
proves one at most. -/
def World.OnePayout (W : World) : Prop :=
  ∀ op deposit payout payout', W.operations op → Due W op deposit payout → Due W op deposit payout' →
    payout.transactionHash = payout'.transactionHash

-- The deposit of an operation is one, so its claims are on payouts named for that deposit.
theorem oneClaim_of_inv (hs : Inv W s) (hpayout : W.OnePayout) : OneClaim s := by
  intro key key' claim claim' hclaim hclaim' howner
  rcases hs.claims key claim hclaim with ⟨rfl, op, requestId, deposit, payout, hop, _, hsource, hdue, rfl⟩
  rcases hs.claims key' claim' hclaim' with ⟨rfl, op', requestId', deposit', payout', hop', _, hsource', hdue', rfl⟩
  have hsame : op = op' := W.digested op op' hop hop' howner
  subst hsame
  have hdeposit : deposit = deposit' := by
    have hjournal := hsource.journal.symm.trans hsource'.journal
    simpa using hjournal
  subst hdeposit
  exact congrArg (Prod.mk op.destinationChainId) (hpayout op deposit payout payout' hop hdue hdue')

/-- Operations and payouts are matched, and what is claimed can still be accepted. -/
structure Matched (W : World) (s : State) : Prop where
  one_operation : ∀ a ∈ s.accepted, ∀ b ∈ s.accepted, a.payout = b.payout → a.operation = b.operation
  one_payout : ∀ a ∈ s.accepted, ∀ b ∈ s.accepted, a.operation = b.operation → a.payout = b.payout
  one_claim : OneClaim s
  no_other_claim : ∀ a ∈ s.accepted, ∀ key claim, s.claims key = some claim →
    claim.operationIntegrityHash = a.operation.integrityHash → key = a.payout
  recoverable : ∀ key claim, s.claims key = some claim → ∃ op, W.operations op ∧
    op.integrityHash = claim.operationIntegrityHash ∧ ∀ p, Accepts W p op key s
  enough : ∀ a ∈ s.accepted, a.operation.minOutputAtomic ≤ a.credited

theorem matched_of_inv (hs : Inv W s) (hone : OneClaim s) : Matched W s := by
  refine ⟨?_, ?_, hone, ?_, ?_, ?_⟩
  · intro a ha b hb hpayout
    rcases hs.accepted a ha with ⟨hop, _, held, hheld, howner⟩
    rcases hs.accepted b hb with ⟨hop', _, held', hheld', howner'⟩
    rw [← hpayout, hheld] at hheld'
    cases hheld'
    exact W.digested _ _ hop hop' (howner.symm.trans howner')
  · intro a ha b hb hoperation
    rcases hs.accepted a ha with ⟨_, _, held, hheld, howner⟩
    rcases hs.accepted b hb with ⟨_, _, held', hheld', howner'⟩
    rw [← hoperation] at howner'
    exact hone _ _ held held' hheld hheld' (howner.trans howner'.symm)
  · intro a ha key claim hclaim howner
    rcases hs.accepted a ha with ⟨_, _, held, hheld, hholder⟩
    exact hone _ _ claim held hclaim hheld (howner.trans hholder.symm)
  · intro key claim hclaim
    rcases hs.claims key claim hclaim with ⟨_, op, requestId, sourceHash, payout, hop, _, _, _, hmade⟩
    have howner : claim.operationIntegrityHash = op.integrityHash := by
      rw [hmade]
      rfl
    exact ⟨op, hop, howner.symm, fun p => accepts_claimed hs hone hop hclaim howner⟩
  · exact fun a ha => (hs.accepted a ha).2.1

/-- **Operations and payouts are matched** in every run in which the provider names, for no operation and its deposit,
two payouts that the chain proves. -/
theorem payouts_matched {sources : RelayOperation → Option SourceJournal} (hsources : SourcesValid sources)
    (hpayout : W.OnePayout) {labels : List (System.Label PayoutOp PayoutOp.Answer ApnError ℕ)}
    {c : System.Config PayoutOp PayoutOp.Answer ApnError State ℕ}
    (hrun : Runs.Run W.Step (System.idle (State.initial sources)) labels c) : Matched W c.shared := by
  have hinv : Inv W c.shared := inv_run (inv_initial hsources) hrun
  exact matched_of_inv hinv (oneClaim_of_inv hinv hpayout)

/-! ## Two answers of one provider -/

def created {κ ν : Type} [DecidableEq κ] (saved : κ → Option ν) (key : κ) (value : ν) : Result Unit × (κ → Option ν) :=
  match saved key with
  | some _ => (blocked "file exists", saved)
  | none => (.ok (), Function.update saved key (some value))

theorem createOnly_created {κ ν : Type} [DecidableEq κ] (saved : κ → Option ν) (key : κ) (value : ν) :
    createOnly saved key value (created saved key value).1 (created saved key value).2 := by
  unfold createOnly created
  cases saved key with
  | some held => exact ⟨⟨_, rfl⟩, rfl⟩
  | none => exact .inl ⟨rfl, rfl⟩

/-- Every read is answered, and the provider names `candidate` for the deposit `deposit`. -/
def World.honest (W : World) (deposit candidate : Word) (s : State) : (o : PayoutOp) → o.Answer × State
  | .source op => (.ok (s.sources op), s)
  | .finalizedDeposit _ _ => (.ok (some .confirmed), s)
  | .settle op hash => (.ok (decide (s.sources op = some ⟨true, .confirmed, some hash⟩)), s)
  | .projectQuote op => (.ok (W.project op), s)
  | .status _ => (.ok ⟨.success, true, [deposit], [candidate]⟩, s)
  | .polygonPort => (true, s)
  | .chainId chain => (.ok chain, s)
  | .transaction chain hash => (.ok ((W.canonical chain hash).map Prod.fst), s)
  | .receipt chain hash => (.ok ((W.canonical chain hash).map Prod.snd), s)
  | .block chain number => (.ok (some ⟨number, some (W.blockHash chain number)⟩), s)
  | .checkpoint chain => (.ok (some ⟨100, some (W.blockHash chain 100)⟩), s)
  | .readClaim key => (.ok (s.claims key), s)
  | .createClaim claim =>
    ((created s.claims claim.key claim).1, { s with claims := (created s.claims claim.key claim).2 })
  | .readCredit op => (.ok (s.credits op.slot), s)
  | .createCredit record =>
    ((created s.credits record.slot record).1, { s with credits := (created s.credits record.slot record).2 })
  | .accept acceptance => ((), { s with accepted := acceptance :: s.accepted })

theorem honest_exec {deposit candidate : Word} (hasserted : ∀ op, W.asserts op ⟨.success, true, [deposit], [candidate]⟩)
    (hvalid : SourcesValid s.sources) (o : PayoutOp) :
    W.exec s o (W.honest deposit candidate s o).1 (W.honest deposit candidate s o).2 ∧
      SourcesValid (W.honest deposit candidate s o).2.sources := by
  cases o with
  | settle op hash =>
    refine ⟨⟨⟨⟨s.sources, rfl⟩, hvalid, fun _ _ h _ => h⟩, ?_⟩, hvalid⟩
    intro h
    exact ⟨_, of_decide_eq_true (Except.ok.inj h), rfl, rfl, rfl⟩
  | createClaim claim => exact ⟨⟨_, createOnly_created s.claims claim.key claim, rfl⟩, hvalid⟩
  | createCredit record => exact ⟨⟨_, createOnly_created s.credits record.slot record, rfl⟩, hvalid⟩
  | checkpoint chain =>
    refine ⟨⟨?_, rfl⟩, hvalid⟩
    rintro block ⟨⟩
    rfl
  | block chain number => exact ⟨⟨fun _ h => (Option.some.inj (Except.ok.inj h)).symm, rfl⟩, hvalid⟩
  | transaction chain hash => exact ⟨⟨fun _ h => Except.ok.inj h, rfl⟩, hvalid⟩
  | receipt chain hash => exact ⟨⟨fun _ h => Except.ok.inj h, rfl⟩, hvalid⟩
  | chainId chain => exact ⟨⟨fun _ h => (Except.ok.inj h).symm, rfl⟩, hvalid⟩
  | projectQuote op => exact ⟨⟨fun _ h => (Except.ok.inj h).symm, rfl⟩, hvalid⟩
  | source op => exact ⟨⟨fun _ h => Except.ok.inj h, rfl⟩, hvalid⟩
  | readClaim key => exact ⟨⟨fun _ h => Except.ok.inj h, rfl⟩, hvalid⟩
  | readCredit op => exact ⟨⟨fun _ h => Except.ok.inj h, rfl⟩, hvalid⟩
  | finalizedDeposit op hash => exact ⟨rfl, hvalid⟩
  | status op =>
    refine ⟨⟨?_, rfl⟩, hvalid⟩
    rintro provider ⟨⟩
    exact hasserted op
  | polygonPort => exact ⟨rfl, hvalid⟩
  | accept acceptance => exact ⟨rfl, hvalid⟩

namespace Poll

/-- BNB to Monad, for the account 7. -/
def operation : RelayOperation where
  profileHash := "p"
  operationId := "o"
  integrityHash := "i"
  sourceChainId := 56
  destinationChainId := 143
  recipient := 7
  minOutputAtomic := 5
  quoteDigest := "q"
  statusLocator := some "r"
  order := .native ⟨"d", "bnb-native-monad-native-v1", 7, 5⟩

/-- The transactions 1 and 2 each pay the account 7. -/
def payment (hash : Word) : Option (RelayTransaction × RelayReceipt) :=
  if hash = 1 ∨ hash = 2 then
    some (⟨some hash, 143, some 7, 5, some hash, some hash⟩, ⟨some hash, true, hash, some hash, some []⟩)
  else none

/-- The provider names the transactions `named` for the deposit 9. -/
def world (named : Word → Prop) : World where
  operations := (· = operation)
  canonical := fun _ => payment
  blockHash := fun _ number => number
  project := fun _ => ⟨false, "", "", 0, 0, ⟨"", 0, []⟩⟩
  asserts := fun _ provider => ∃ hash, named hash ∧ provider = ⟨.success, true, [9], [hash]⟩
  keyed := fun _ _ ha hb _ _ => ha.trans hb.symm
  digested := fun _ _ ha hb _ => ha.trans hb.symm

def sources : RelayOperation → Option SourceJournal := fun _ => some ⟨true, .confirmed, some 9⟩

theorem sources_valid : SourcesValid sources := by
  rintro op journal ⟨⟩ _
  rfl

/-- The observation of process `n`, to which the provider names the payout `candidate n`. -/
def answer (candidate : ℕ → Word) (n : ℕ) : State → (o : PayoutOp) → o.Answer × State :=
  (world fun _ => True).honest 9 (candidate n)

/-- Two observations, one after the other. -/
def observed (candidate : ℕ → Word) : System.Config PayoutOp PayoutOp.Answer ApnError State ℕ :=
  ([0, 1].flatMap fun n => [.begins n (observation .native operation), .goesOn n 20]).foldl
    (System.takeTurn (answer candidate)) (System.idle (State.initial sources))

theorem observed_reached (named : Word → Prop) (candidate : ℕ → Word) (hnamed : ∀ n, named (candidate n)) : ∃ labels,
    Runs.Run (world named).Step (System.idle (State.initial sources)) labels (observed candidate) := by
  apply System.run_turns_kept (I := fun s => SourcesValid s.sources)
  · exact fun n s o hvalid => honest_exec (W := world named) (fun _ => ⟨candidate n, hnamed n, rfl⟩) hvalid o
  · intro n program hturn
    rcases List.mem_flatMap.mp hturn with ⟨m, _, hmem⟩
    rcases List.mem_cons.mp hmem with hbegins | hgoes
    · cases hbegins
      exact ⟨.native, operation, rfl, rfl⟩
    · simp at hgoes
  · exact sources_valid

-- The provider named the payout 1, and then the payout 2: the operation has accepted both, and claims both.
theorem accepted_both :
    (observed (· + 1)).shared.accepted = [⟨operation, (143, 2), 5⟩, ⟨operation, (143, 1), 5⟩] := by
  rfl

theorem payouts_unmatched : ¬ ∀ (W : World) (sources : RelayOperation → Option SourceJournal), SourcesValid sources →
    ∀ (labels : List (System.Label PayoutOp PayoutOp.Answer ApnError ℕ))
      (c : System.Config PayoutOp PayoutOp.Answer ApnError State ℕ),
      Runs.Run W.Step (System.idle (State.initial sources)) labels c → Matched W c.shared := by
  intro hall
  rcases observed_reached (fun _ => True) (· + 1) fun _ => trivial with ⟨labels, hrun⟩
  have hmatched : Matched (world fun _ => True) (observed (· + 1)).shared :=
    hall (world fun _ => True) sources sources_valid labels _ hrun
  have hsame : ((143, 2) : PayoutKey) = (143, 1) := by
    apply hmatched.one_payout ⟨operation, (143, 2), 5⟩ _ ⟨operation, (143, 1), 5⟩ _ rfl
    · rw [accepted_both]
      exact List.mem_cons_self
    · rw [accepted_both]
      exact List.mem_cons_of_mem _ List.mem_cons_self
  exact absurd hsame (by decide)

theorem onePayout_first : (world (· = 1)).OnePayout := by
  have hfirst : ∀ {op deposit payout}, Due (world (· = 1)) op deposit payout → payout.transactionHash = 1 := by
    rintro op deposit payout ⟨⟨provider, ⟨hash, rfl, rfl⟩, hnames⟩, _⟩
    exact (List.singleton_inj.mp hnames.candidate).symm
  exact fun _ _ _ _ _ h h' => (hfirst h).trans (hfirst h').symm

/-- The provider names the payout 1 to both observations. -/
theorem polled_matched :
    (observed fun _ => 1).shared.accepted = [⟨operation, (143, 1), 5⟩, ⟨operation, (143, 1), 5⟩] ∧
      Matched (world (· = 1)) (observed fun _ => 1).shared := by
  refine ⟨by rfl, ?_⟩
  rcases observed_reached (· = 1) (fun _ => 1) fun _ => rfl with ⟨labels, hrun⟩
  exact payouts_matched sources_valid onePayout_first hrun

end Poll

end PaymentNode.Payout
