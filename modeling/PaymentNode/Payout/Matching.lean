import PaymentNode.Payout.Claims

/-!
# Matching — an accepted payout is claimed for its operation

Every observer keeps the invariant of the claims: what it proves before a claim depends on the canonical chain
alone, and the claim it makes stays.
-/

namespace PaymentNode.Payout

open Discipline

variable {W : World} {p : ℕ}

/-! ## Rules -/

theorem Grows.refl (s : State) : Grows s s := ⟨fun _ _ h => h, fun _ _ h => h, fun _ _ h => h⟩

theorem keeps_self {s : State} (hs : Inv W s) : W.discipline.Keeps p s s := ⟨hs, fun _ _ => Grows.refl s⟩

theorem stable_pure (φ : Prop) : W.discipline.Stable p fun _ => φ := fun _ _ _ h => h

variable {s t : State}

theorem Owned.grow {op : RelayOperation} {key : PayoutKey} (h : Owned op key s) (hst : Grows s t) :
    Owned op key t := by
  rcases h with ⟨claim, hclaim, howner⟩
  exact ⟨claim, hst.claims key claim hclaim, howner⟩

variable (op : RelayOperation)

theorem stable_owned (key : PayoutKey) : W.discipline.Stable p (Owned op key) :=
  fun _ _ hst h => h.grow hst.2.2

theorem stable_confirmed (hash : Word) : W.discipline.Stable p (Confirmed op hash) :=
  fun _ _ hst h => hst.2.2.sources op hash h

/-- What `x` answers, whatever the store holds. -/
def Always {α : Type} (W : World) (p : ℕ) (x : Program α) (Q : α → Prop) : Prop :=
  W.discipline.Spec W.system p (fun _ => True) x (fun a _ => Q a) fun _ _ => True

/-- A program that is fit for every store. -/
def Safe {α : Type} (W : World) (p : ℕ) (x : Program α) : Prop := Always W p x fun _ => True

variable {α : Type}

theorem always_ret {Q : α → Prop} {a : α} (h : Q a) : Always W p (.ret a) Q :=
  Spec.ret fun _ _ _ => h

theorem always_fail {Q : α → Prop} {e : ApnError} : Always W p (.fail e) Q :=
  Spec.fail fun _ _ _ => trivial

theorem always_mono {x : Program α} {Q M : α → Prop} (h : Always W p x M) (hQ : ∀ a, M a → Q a) :
    Always W p x Q :=
  Spec.conseq h (fun _ _ h => h) (fun a _ _ h => hQ a h) fun _ _ _ h => h

-- A specification after what `x` always answers.
theorem spec_after {α β : Type} {x : Program α} {f : α → Program β} {M : α → Prop} {Q : β → State → Prop}
    {E : ApnError → State → Prop} (hx : W.discipline.Spec W.system p (fun _ => True) x (fun a _ => M a) E)
    (hf : ∀ a, M a → W.discipline.Spec W.system p (fun _ => True) (f a) Q E) :
    W.discipline.Spec W.system p (fun _ => True) (x.bind f) Q E := by
  apply Spec.bind hx
  intro a s hs ha
  exact hf a ha s hs trivial

theorem always_bind {α β : Type} {x : Program α} {f : α → Program β} {M : α → Prop} {Q : β → Prop}
    (hx : Always W p x M) (hf : ∀ a, M a → Always W p (f a) Q) : Always W p (x.bind f) Q :=
  spec_after hx hf

theorem always_attempt {x : Program α} {Q : α → Prop} (h : Always W p x Q) :
    Always W p x.attempt fun r => ∀ a, r = .ok a → Q a := by
  apply Spec.conseq (Spec.attempt (F := fun _ _ => True) h) (fun _ _ h => h)
  · rintro r s - hr a rfl
    exact hr
  · exact fun _ _ _ h => h

-- An operation that leaves the store as it is, with what its answer tells.
theorem spec_read {o : PayoutOp} {h : o.Answer = Result α} {P : State → Prop} {Fact : α → State → Prop}
    (hP : W.discipline.Stable p P) (hread : ∀ s a t, W.exec s o a t → t = s ∧ ∀ v, h ▸ a = Except.ok v → Fact v s) :
    W.discipline.Spec W.system p P (run o h) (fun v s => P s ∧ Fact v s) fun _ _ => True := by
  apply Spec.op (M := fun a s => P s ∧ ∀ v, h ▸ a = Except.ok v → Fact v s) hP
  · intro s a t hs hPs hexec
    rcases hread s a t hexec with ⟨hsame, hfact⟩
    subst hsame
    exact ⟨keeps_self hs, hPs, hfact⟩
  · intro a s _ hM
    show W.discipline.wp W.system p (Prog.ofExcept (h ▸ a)) _ _ s
    cases hanswer : (h ▸ a : Result α) with
    | ok v => exact ⟨hM.1, hM.2 v hanswer⟩
    | error e => trivial

theorem always_read {o : PayoutOp} {h : o.Answer = Result α} {Fact : α → Prop}
    (hread : ∀ s a t, W.exec s o a t → t = s ∧ ∀ v, h ▸ a = Except.ok v → Fact v) : Always W p (run o h) Fact := by
  have hspec : W.discipline.Spec W.system p (fun _ => True) (run o h) (fun v _ => True ∧ Fact v) fun _ _ => True :=
    spec_read (stable_pure True) hread
  exact Spec.conseq hspec (fun _ _ h => h) (fun _ _ _ h => h.2) fun _ _ _ h => h

-- A read about which nothing need be known.
theorem always_any {o : PayoutOp} {h : o.Answer = Result α} (hread : ∀ s a t, W.exec s o a t → t = s) :
    Always W p (run o h) fun _ => True :=
  always_read fun s a t hexec => ⟨hread s a t hexec, fun _ _ => trivial⟩

/-! ## The proofs -/

-- What a chain read finds, when it finds something.
theorem always_found {o : PayoutOp} {h : o.Answer = Result (Option α)} {Fact : α → Prop}
    (hread : ∀ s a t, W.exec s o a t → t = s ∧ ∀ v, h ▸ a = Except.ok (some v) → Fact v) :
    Always W p (run o h) fun found : Option α => ∀ v, found = some v → Fact v := by
  apply always_read
  intro s a t hexec
  rcases hread s a t hexec with ⟨hsame, hfact⟩
  refine ⟨hsame, ?_⟩
  intro found ha v hfound
  rw [hfound] at ha
  exact hfact v ha

theorem always_transaction (chain : ℕ) (hash : Word) :
    Always W p (run (.transaction chain hash) rfl) fun found : Option RelayTransaction =>
      ∀ tx, found = some tx → (W.canonical chain hash).map Prod.fst = some tx :=
  always_found fun _ _ _ hexec => ⟨hexec.2, hexec.1⟩

theorem always_receipt (chain : ℕ) (hash : Word) :
    Always W p (run (.receipt chain hash) rfl) fun found : Option RelayReceipt =>
      ∀ receipt, found = some receipt → (W.canonical chain hash).map Prod.snd = some receipt :=
  always_found fun _ _ _ hexec => ⟨hexec.2, hexec.1⟩

theorem always_block (chain number : ℕ) : Always W p (run (.block chain number) rfl) fun found : Option RelayBlock =>
    ∀ block, found = some block → block = ⟨number, some (W.blockHash chain number)⟩ :=
  always_found fun _ _ _ hexec => ⟨hexec.2, hexec.1⟩

theorem always_checkpoint (chain : ℕ) : Always W p (run (.checkpoint chain) rfl) fun found : Option RelayBlock =>
    ∀ block, found = some block → block.hash = some (W.blockHash chain block.number) :=
  always_found fun _ _ _ hexec => ⟨hexec.2, hexec.1⟩

theorem always_inclusionBlock (chain : ℕ) (receipt : Option RelayReceipt) :
    Always W p (inclusionBlock chain receipt) fun found => ∀ block, found = some block → ∃ read, receipt = some read ∧
      block = ⟨read.blockNumber, some (W.blockHash chain read.blockNumber)⟩ := by
  cases receipt with
  | none => exact always_ret fun block h => (nomatch h)
  | some receipt =>
    apply always_mono (always_block chain receipt.blockNumber)
    exact fun found h block hfound => ⟨receipt, rfl, h block hfound⟩

theorem always_readCandidate (chain : ℕ) (hash : Word) :
    Always W p (readCandidate chain hash) (Truthful W chain hash) := by
  apply always_bind (always_receipt chain hash)
  intro receipt hreceipt
  apply always_bind (always_inclusionBlock chain receipt)
  intro block hblock
  apply always_bind (always_read fun s a t hexec => ⟨hexec.2, hexec.1⟩ : Always W p (run (.chainId chain) rfl) (· = chain))
  intro chainId hchain
  apply always_bind (always_transaction chain hash)
  intro tx htx
  apply always_bind (always_checkpoint chain)
  intro safe hsafe
  exact always_ret ⟨hchain, htx, hreceipt, hblock, hsafe⟩

theorem always_port : Always W p (Prog.perform .polygonPort) fun _ => True := by
  apply Spec.op (M := fun _ _ => True) (stable_pure True)
  · intro s a t hs _ hexec
    have hsame : t = s := hexec
    subst hsame
    exact ⟨keeps_self hs, trivial⟩
  · exact fun a => always_ret trivial

theorem always_inspectCandidate (sourceHash : Option Word) (hash : Word) (chain : ℕ) :
    Always W p (inspectCandidate op sourceHash hash chain) fun result =>
      ∀ proof, result = .proven proof → ProvenBy W op sourceHash hash chain proof := by
  apply always_bind always_port
  intro port _
  split
  · exact always_ret fun proof h => (nomatch h)
  · apply always_bind (always_attempt (always_readCandidate chain hash))
    intro reads hreads
    cases reads with
    | error e => exact always_ret fun proof h => (nomatch h)
    | ok reads => exact always_ret fun proof h => ⟨reads, hreads reads rfl, h⟩

variable {hash : Word}

theorem inspectReads_hash {op : RelayOperation} {sourceHash : Option Word} {chain : ℕ}
    {reads : CandidateReads} {proof : CreditEvidence}
    (h : inspectReads op sourceHash hash chain reads = .proven proof) :
    proof.destinationTransactionHash = hash ∧ op.minOutputAtomic ≤ proof.creditedWei := by
  unfold inspectReads at h
  repeat' split at h
  all_goals cases h
  rename_i hbelow
  exact ⟨rfl, not_lt.mp hbelow⟩

variable {proof : UsdcCreditProof}

theorem usdcReads_hash {quote : ArbitrumQuote} {receipt : RelayReceipt} {reads : UsdcReads}
    (h : usdcReads quote hash receipt reads = .proven proof) :
    proof.destinationTransactionHash = hash := by
  unfold usdcReads at h
  repeat' split at h
  all_goals cases h
  rfl

theorem always_readUsdcBlocks (receipt : RelayReceipt) :
    Always W p (readUsdcBlocks receipt) (UsdcTruthful W receipt) := by
  apply always_bind (always_block 1 receipt.blockNumber)
  intro inclusion hinclusion
  apply always_bind (always_checkpoint 1)
  intro safe hsafe
  cases inclusion with
  | none => exact always_ret ⟨hinclusion, hsafe, nofun, nofun⟩
  | some inclusion =>
    cases safe with
    | none => exact always_ret ⟨hinclusion, hsafe, nofun, nofun⟩
    | some safe =>
      apply always_bind (always_block 1 receipt.blockNumber)
      intro again hagain
      apply always_bind (always_block 1 safe.number)
      intro safeAgain hsafeAgain
      exact always_ret ⟨hinclusion, hsafe, hagain, fun block h => ⟨safe, rfl, hsafeAgain block h⟩⟩

theorem always_readUsdcTransaction (hash : Word) :
    Always W p (readUsdcTransaction hash) fun read => ∀ tx receipt, read = (some tx, some receipt) →
      W.canonical 1 hash = some (tx, receipt) := by
  apply always_bind (always_transaction 1 hash)
  intro tx htx
  apply always_bind (always_receipt 1 hash)
  intro receipt hreceipt
  apply always_ret
  rintro tx receipt ⟨⟩
  rcases Option.map_eq_some_iff.mp (htx tx rfl) with ⟨pair, hpair, rfl⟩
  rcases Option.map_eq_some_iff.mp (hreceipt receipt rfl) with ⟨pair', hpair', rfl⟩
  rw [hpair] at hpair'
  cases hpair'
  exact hpair

theorem always_proveUsdcReceipt (quote : ArbitrumQuote) (hash : Word) (tx : RelayTransaction) (receipt : RelayReceipt)
    (hcanonical : W.canonical 1 hash = some (tx, receipt)) :
    Always W p (proveUsdcReceipt quote hash tx receipt) fun result =>
      ∀ proof, result = .proven proof → UsdcProvenBy W quote hash proof := by
  unfold proveUsdcReceipt
  split
  · exact always_ret fun proof h => (nomatch h)
  rename_i hidentity
  split
  · exact always_ret fun proof h => (nomatch h)
  rename_i hsuccess
  apply always_bind (always_attempt (always_readUsdcBlocks receipt))
  intro reads hreads
  cases reads with
  | error e => exact always_ret fun proof h => (nomatch h)
  | ok reads =>
    apply always_ret
    intro proof h
    exact ⟨tx, receipt, reads, hcanonical, not_not.mp hidentity, not_not.mp hsuccess, hreads reads rfl, h⟩

theorem always_proveRelayEthereumUsdcCredit (quote : ArbitrumQuote) (hash : Word) :
    Always W p (proveRelayEthereumUsdcCredit quote hash) fun result =>
      ∀ proof, result = .proven proof → quote.bound = true ∧ UsdcProvenBy W quote hash proof := by
  unfold proveRelayEthereumUsdcCredit
  split
  · exact always_ret fun proof h => (nomatch h)
  rename_i hbound
  have hchain : Always W p (run (.chainId 1) rfl : Program ℕ) fun _ => True :=
    always_any fun _ _ _ hexec => hexec.2
  apply always_bind (always_attempt hchain)
  intro chain _
  cases chain with
  | error e => exact always_ret fun proof h => (nomatch h)
  | ok chain =>
    show Always W p (ite _ _ _) _
    split
    · exact always_ret fun proof h => (nomatch h)
    apply always_bind (always_attempt (always_readUsdcTransaction hash))
    intro read hread
    match read, hread with
    | .error e, _ => exact always_ret fun proof h => (nomatch h)
    | .ok (some tx, some receipt), hread =>
      apply always_mono (always_proveUsdcReceipt quote hash tx receipt (hread _ rfl tx receipt rfl))
      exact fun result h proof hproof => ⟨not_not.mp hbound, h proof hproof⟩
    | .ok (none, _), _ => exact always_ret fun proof h => (nomatch h)
    | .ok (some tx, none), _ => exact always_ret fun proof h => (nomatch h)

theorem always_proveRelayNativeDestination (quote : RelayNativeQuote) (sourceHash : Word)
    (hashes : List Word) :
    Always W p (proveRelayNativeDestination op quote sourceHash hashes) fun result =>
      ∀ proof, result = .proven proof → ∃ hash, hashes = [hash] ∧ nativeQuoteBinds op quote ∧
        ProvenBy W op (some sourceHash) hash op.destinationChainId proof := by
  unfold proveRelayNativeDestination
  split
  · rename_i hash
    split
    · exact always_ret fun proof h => (nomatch h)
    rename_i hbinds
    rw [not_or, not_or, not_not, not_not, not_lt] at hbinds
    apply always_mono (always_inspectCandidate op (some sourceHash) hash op.destinationChainId)
    exact fun result h proof hproof => ⟨hash, rfl, hbinds, h proof hproof⟩
  · exact always_ret fun proof h => (nomatch h)

theorem always_proveRelayBnbDestination (quote : RelayQuote) (sourceHash : Word)
    (hashes : List Word) :
    Always W p (proveRelayBnbDestination op quote sourceHash hashes) fun result =>
      ∀ proof, result = .proven proof → ∃ hash, hashes = [hash] ∧ op.sourceChainId = 1 ∧ op.destinationChainId = 56 ∧
        quote.output.pays "bnb" op = true ∧ ProvenBy W op (some sourceHash) hash 56 proof := by
  unfold proveRelayBnbDestination
  split
  · rename_i hash
    split
    · exact always_ret fun proof h => (nomatch h)
    rename_i hbinds
    rw [not_or, not_or, not_not, not_not, not_not] at hbinds
    apply always_mono (always_inspectCandidate op (some sourceHash) hash 56)
    exact fun result h proof hproof => ⟨hash, rfl, hbinds.1, hbinds.2.1, hbinds.2.2, h proof hproof⟩
  · exact always_ret fun proof h => (nomatch h)

theorem always_proveRelayBaseDestination (quote : RelayQuote) (hashes : List Word) :
    Always W p (proveRelayBaseDestination op quote hashes) fun result =>
      ∀ proof, result = .proven proof → ∃ hash, hashes = [hash] ∧ (op.sourceChainId = 1 ∧ op.destinationChainId = 8453 ∧
        quote.routeReference = baseRouteReference ∧ quote.output.pays "base" op = true) ∧
          ProvenBy W op none hash 8453 proof := by
  unfold proveRelayBaseDestination
  split
  · rename_i hash
    split
    · exact always_ret fun proof h => (nomatch h)
    rename_i hbinds
    rw [not_or, not_or, not_or, not_not, not_not, not_not, not_not] at hbinds
    apply always_mono (always_inspectCandidate op none hash 8453)
    exact fun result h proof hproof => ⟨hash, rfl, hbinds, h proof hproof⟩
  · exact always_ret fun proof h => (nomatch h)

/-! ## The writes -/

theorem createOnly_cases {κ ν : Type} [DecidableEq κ] {saved next : κ → Option ν} {key : κ} {value : ν}
    {a : Result Unit} (h : createOnly saved key value a next) :
    (next = saved ∧ a ≠ .ok ()) ∨ (saved key = none ∧ next = Function.update saved key (some value)) := by
  unfold createOnly at h
  split at h
  · rcases h with ⟨⟨e, rfl⟩, hsame⟩
    exact .inl ⟨hsame, nofun⟩
  · rename_i hnone
    rcases h with ⟨_, hnext⟩ | ⟨⟨e, rfl⟩, hsame | hnext⟩
    · exact .inr ⟨hnone, hnext⟩
    · exact .inl ⟨hsame, nofun⟩
    · exact .inr ⟨hnone, hnext⟩

theorem createOnly_grows {κ ν : Type} [DecidableEq κ] {saved next : κ → Option ν} {key : κ} {value : ν}
    {a : Result Unit} (h : createOnly saved key value a next) :
    (∀ k v, saved k = some v → next k = some v) ∧
      (∀ k v, next k = some v → saved k = some v ∨ (k = key ∧ v = value)) ∧
        (a = .ok () → next key = some value) := by
  rcases createOnly_cases h with ⟨rfl, ha⟩ | ⟨hnone, rfl⟩
  · exact ⟨fun _ _ h => h, fun _ _ h => .inl h, fun h => absurd h ha⟩
  · refine ⟨?_, ?_, ?_⟩
    · intro k v hk
      have hne : k ≠ key := by
        rintro rfl
        rw [hnone] at hk
        cases hk
      rw [Function.update_of_ne hne]
      exact hk
    · intro k v hk
      by_cases hkey : k = key
      · subst hkey
        rw [Function.update_self] at hk
        exact .inr ⟨rfl, (Option.some.inj hk).symm⟩
      · rw [Function.update_of_ne hkey] at hk
        exact .inl hk
    · exact fun _ => Function.update_self _ _ _

theorem Backed.grow {claim : PayoutClaim} (h : Backed W s claim) (hst : Grows s t) :
    Backed W t claim := by
  rcases h with ⟨op, requestId, sourceHash, payout, hop, hlocator, hsource, hdue, hclaim⟩
  exact ⟨op, requestId, sourceHash, payout, hop, hlocator, hst.sources op sourceHash hsource, hdue, hclaim⟩

-- What a step adds is all there is to check.
theorem Inv.grow (hs : Inv W s) (hst : Grows s t) (hsources : SourcesValid t.sources)
    (hclaims : ∀ key claim, t.claims key = some claim → s.claims key = some claim ∨
      (claim.key = key ∧ Backed W t claim))
    (hcredits : ∀ slot record, t.credits slot = some record → s.credits slot = some record ∨
      ∃ op, W.operations op ∧ op.slot = slot ∧ record.binds op = true ∧ Owned op (record.acceptance op).payout t)
    (haccepted : ∀ a ∈ t.accepted, a ∈ s.accepted ∨ (W.operations a.operation ∧
      a.operation.minOutputAtomic ≤ a.credited ∧ Owned a.operation a.payout t)) : Inv W t := by
  refine ⟨hsources, ?_, ?_, ?_⟩
  · intro key claim h
    rcases hclaims key claim h with hold | hnew
    · rcases hs.claims key claim hold with ⟨hkey, hbacked⟩
      exact ⟨hkey, hbacked.grow hst⟩
    · exact hnew
  · intro slot record h
    rcases hcredits slot record h with hold | hnew
    · rcases hs.credits slot record hold with ⟨op, hop, hslot, hbinds, howned⟩
      exact ⟨op, hop, hslot, hbinds, howned.grow hst⟩
    · exact hnew
  · intro a ha
    rcases haccepted a ha with hold | hnew
    · rcases hs.accepted a hold with ⟨hop, hmin, howned⟩
      exact ⟨hop, hmin, howned.grow hst⟩
    · exact hnew

theorem keeps_of_grows (hst : Grows s t) (ht : Inv W t) : W.discipline.Keeps p s t :=
  ⟨ht, fun _ _ => hst⟩

theorem SourcesStep.grows (h : SourcesStep s t) : Grows s t := by
  rcases h with ⟨⟨sources, rfl⟩, _, hkeep⟩
  refine ⟨fun _ _ h => h, fun _ _ h => h, ?_⟩
  rintro op hash ⟨journal, hjournal, hconfirms⟩
  exact ⟨journal, hkeep op journal hjournal hconfirms.2.1, hconfirms⟩

theorem SourcesStep.inv (h : SourcesStep s t) (hs : Inv W s) : Inv W t := by
  have hgrows := h.grows
  rcases h with ⟨⟨sources, rfl⟩, hvalid, _⟩
  exact hs.grow hgrows hvalid (fun _ _ h => .inl h) (fun _ _ h => .inl h) fun _ h => .inl h

variable {op : RelayOperation} {requestId : String} {sourceHash : Word} {payout : ClaimedPayout}

theorem spec_persist (hop : W.operations op) (hlocator : op.statusLocator = some requestId)
    (hdue : Due W op sourceHash payout) :
    W.discipline.Spec W.system p (Confirmed op sourceHash) (persist (claimFor op requestId sourceHash payout))
      (fun _ => Owned op (op.destinationChainId, payout.transactionHash)) fun _ _ => True := by
  let made := claimFor op requestId sourceHash payout
  have hread : W.discipline.Spec W.system p (Confirmed op sourceHash) (run (.readClaim made.key) rfl)
      (fun saved s => Confirmed op sourceHash s ∧ s.claims made.key = saved) fun _ _ => True :=
    spec_read (stable_confirmed op sourceHash) fun _ _ _ hexec => by
      rcases hexec with ⟨hsaved, rfl⟩
      exact ⟨rfl, hsaved⟩
  apply Spec.bind hread
  intro saved
  cases saved with
  | some saved =>
    show W.discipline.Spec W.system p _ (ite _ _ _) _ _
    split
    · exact Spec.fail fun _ _ _ => trivial
    · rename_i hsame
      rw [not_not.mp hsame]
      exact Spec.ret fun s _ h => ⟨made, h.2, rfl⟩
  | none =>
    apply Spec.pre (N := Confirmed op sourceHash) _ fun _ _ h => h.1
    apply Spec.op (M := fun a s => a = .ok () → Owned op made.key s) (stable_confirmed op sourceHash)
    · rintro s a t hs hsource ⟨claims, hcreate, rfl⟩
      rcases createOnly_grows hcreate with ⟨hgrow, hnew, hsaved⟩
      have hgrows : Grows s { s with claims := claims } := ⟨hgrow, fun _ _ h => h, fun _ _ h => h⟩
      refine ⟨keeps_of_grows hgrows (hs.grow hgrows hs.sources ?_ (fun _ _ h => .inl h) fun _ h => .inl h),
        fun ha => ⟨made, hsaved ha, rfl⟩⟩
      intro key claim hclaim
      rcases hnew key claim hclaim with hold | ⟨rfl, rfl⟩
      · exact .inl hold
      · exact .inr ⟨rfl, op, requestId, sourceHash, payout, hop, hlocator, hsource, hdue, rfl⟩
    · intro a s _ h
      cases a with
      | ok u => exact h rfl
      | error e => trivial

theorem spec_claimConfirmed (hop : W.operations op) (hlocator : op.statusLocator = some requestId)
    (hdue : Due W op sourceHash payout) :
    W.discipline.Spec W.system p (fun _ => True) (claimConfirmed op requestId sourceHash payout)
      (fun _ => Owned op (op.destinationChainId, payout.transactionHash)) fun _ _ => True := by
  have hread : W.discipline.Spec W.system p (fun _ => True) (run (.source op) rfl)
      (fun journal s => True ∧ s.sources op = journal) fun _ _ => True :=
    spec_read (stable_pure True) fun _ _ _ hexec => by
      rcases hexec with ⟨hjournal, rfl⟩
      exact ⟨rfl, hjournal⟩
  apply Spec.bind hread
  intro journal
  cases journal with
  | none => exact Spec.fail fun _ _ _ => trivial
  | some journal =>
    show W.discipline.Spec W.system p _ (ite _ _ _) _ _
    split
    · exact Spec.fail fun _ _ _ => trivial
    · rename_i hconfirmed
      rw [not_or, not_not, not_not] at hconfirmed
      apply Spec.pre (spec_persist hop hlocator hdue)
      exact fun s hs h =>
        ⟨journal, h.2, hs.sources op journal h.2 hconfirmed.1, hconfirmed.1, hconfirmed.2⟩

variable {provider : ProviderStatus}

theorem spec_claim {proof : CreditEvidence} {quote : RelayNativeQuote}
    (hop : W.operations op) (horder : op.order = .native quote) (hasserted : W.asserts op provider)
    (hnames : provider.Names op sourceHash hash) (hquote : nativeQuoteBinds op quote)
    (hproven : ProvenBy W op (some sourceHash) hash op.destinationChainId proof) :
    W.discipline.Spec W.system p (fun _ => True) (claim op sourceHash proof)
      (fun _ => Owned op (proof.acceptance op).payout) fun _ _ => True := by
  unfold claim
  split
  · rename_i requestId _ hlocator
    split
    · exact Spec.fail fun _ _ _ => trivial
    · rename_i hchecked
      rw [not_or, not_or, not_or, not_not, not_not, not_not, not_not] at hchecked
      rcases hchecked with ⟨hsource, hdestination, hdeposit, hbinds⟩
      apply spec_claimConfirmed hop hlocator
      have hhash : proof.destinationTransactionHash = hash := by
        rcases hproven with ⟨reads, _, hreads⟩
        exact (inspectReads_hash hreads).1
      subst hhash
      exact ⟨⟨provider, hasserted, hnames⟩,
        Evidence.native horder hquote hsource hdestination hdeposit hbinds hproven⟩
  · exact Spec.fail fun _ _ _ => trivial

theorem spec_claimEthereumSource {proof : CreditEvidence} (hop : W.operations op)
    (hdue : proof.binds op = true → Due W op sourceHash (proof.payout .native)) :
    W.discipline.Spec W.system p (fun _ => True) (claimEthereumSource op sourceHash proof)
      (fun _ => Owned op (proof.acceptance op).payout) fun _ _ => True := by
  unfold claimEthereumSource
  split
  · rename_i requestId _ hlocator
    split
    · exact Spec.fail fun _ _ _ => trivial
    · rename_i hchecked
      rw [not_or, not_or, not_not, not_not, not_not] at hchecked
      exact spec_claimConfirmed hop hlocator (hdue hchecked.2.2)
  · exact Spec.fail fun _ _ _ => trivial

theorem spec_claimEthereumUsdc {orderId : String} (hop : W.operations op)
    (horder : op.order = .arbitrum orderId) (hasserted : W.asserts op provider)
    (hnames : provider.Names op sourceHash proof.destinationTransactionHash) (hdigest : (W.project op).quoteDigest = op.quoteDigest)
    (hrecipient : (W.project op).recipient = op.recipient) (hbound : (W.project op).bound = true)
    (hproven : UsdcProvenBy W (W.project op) proof.destinationTransactionHash proof) :
    W.discipline.Spec W.system p (fun _ => True) (claimEthereumUsdc op sourceHash proof)
      (fun _ s => proof.binds op = true ∧ op.destinationChainId = 1 ∧
        Owned op (op.destinationChainId, proof.destinationTransactionHash) s) fun _ _ => True := by
  unfold claimEthereumUsdc
  split
  · rename_i requestId _ hlocator
    split
    · exact Spec.fail fun _ _ _ => trivial
    · rename_i hchecked
      rw [not_or, not_or, not_not, not_not, not_not] at hchecked
      rcases hchecked with ⟨hsource, hdestination, hbinds⟩
      have hdue : Due W op sourceHash proof.payout := ⟨⟨provider, hasserted, hnames⟩,
        Evidence.arbitrum horder hsource hdestination hdigest hrecipient hbound hbinds hproven⟩
      apply Spec.conseq (spec_claimConfirmed hop hlocator hdue) (fun _ _ h => h)
      · exact fun _ s _ howned => ⟨hbinds, hdestination, howned⟩
      · exact fun _ _ _ h => h
  · exact Spec.fail fun _ _ _ => trivial

/-! ## The observers -/

theorem spec_accepting {a : Acceptance} {reason : String} (hop : W.operations a.operation)
    (hmin : a.operation.minOutputAtomic ≤ a.credited) :
    W.discipline.Spec W.system p (Owned a.operation a.payout) (accepting a reason) (fun _ _ => True)
      fun _ _ => True := by
  apply Spec.op (M := fun _ _ => True) (stable_owned a.operation a.payout)
  · intro s u t hs howned hexec
    have hnext : t = { s with accepted := a :: s.accepted } := hexec
    subst hnext
    have hgrows : Grows s { s with accepted := a :: s.accepted } := ⟨fun _ _ h => h, fun _ _ h => h, fun _ _ h => h⟩
    refine ⟨keeps_of_grows hgrows (hs.grow hgrows hs.sources (fun _ _ h => .inl h) (fun _ _ h => .inl h) ?_), trivial⟩
    intro b hb
    rcases List.mem_cons.mp hb with rfl | hold
    · exact .inr ⟨hop, hmin, howned⟩
    · exact .inl hold
  · exact fun _ => Spec.ret fun _ _ _ => trivial

theorem safe_claimThen {claimed : Program Unit} {a : Acceptance} {reason : String} (hop : W.operations a.operation)
    (hmin : a.operation.minOutputAtomic ≤ a.credited)
    (hclaim : W.discipline.Spec W.system p (fun _ => True) claimed (fun _ => Owned a.operation a.payout)
      fun _ _ => True) : Safe W p (claimThen claimed a reason) := by
  apply Spec.bind (Spec.attempt (F := fun _ _ => True) hclaim)
  intro result
  cases result with
  | error e => exact Spec.ret fun _ _ _ => trivial
  | ok u => exact spec_accepting hop hmin

theorem safe_ret (a : α) : Safe W p (.ret a) := always_ret trivial

theorem safe_afterProof {ε : Type} {result : ProofResult ε} {next : ε → Program ObserveResult}
    (h : ∀ proof, result = .proven proof → Safe W p (next proof)) : Safe W p (afterProof result next) := by
  cases result with
  | proven proof => exact h proof rfl
  | open' status reason => exact safe_ret _

theorem safe_unlessMissing {missing : Option String} {next : Program ObserveResult}
    (h : missing = none → Safe W p next) : Safe W p (unlessMissing missing next) := by
  cases missing with
  | none => exact h rfl
  | some reason => exact safe_ret _

theorem safe_status {β : Type} {f : Except ApnError ProviderStatus → Program β}
    (herror : ∀ e, Safe W p (f (.error e)))
    (hanswer : ∀ provider, W.asserts op provider → Safe W p (f (.ok provider))) :
    Safe W p ((run (.status op) rfl : Program ProviderStatus).attempt.bind f) := by
  have hread : Always W p (run (.status op) rfl : Program ProviderStatus) (W.asserts op) :=
    always_read fun _ _ _ hexec => ⟨hexec.2, hexec.1⟩
  apply always_bind (always_attempt hread)
  intro r hr
  cases r with
  | error e => exact herror e
  | ok provider => exact hanswer provider (hr provider rfl)

theorem safe_deposit {β : Type} {f : Except ApnError (Option DepositVerdict) → Program β}
    (hf : ∀ r, Safe W p (f r)) :
    Safe W p ((run (.finalizedDeposit op hash) rfl : Program (Option DepositVerdict)).attempt.bind f) :=
  always_bind (always_attempt (always_any fun _ _ _ hexec => hexec)) fun r _ => hf r

theorem safe_source {β : Type} {f : Option SourceJournal → Program β} (hf : ∀ journal, Safe W p (f journal)) :
    Safe W p ((run (.source op) rfl : Program (Option SourceJournal)).bind f) :=
  always_bind (always_any fun _ _ _ hexec => hexec.2) fun journal _ => hf journal

theorem safe_settle : Safe W p (run (.settle op hash) rfl : Program Bool) := by
  apply Spec.op (M := fun _ _ => True) (stable_pure True)
  · intro s a t hs _ hexec
    exact ⟨keeps_of_grows hexec.1.grows (hexec.1.inv hs), trivial⟩
  · intro a
    cases a with
    | ok settled => exact always_ret trivial
    | error e => exact always_fail

theorem safe_nativeDestination {quote : RelayNativeQuote} (hop : W.operations op)
    (horder : op.order = .native quote) : Safe W p (nativeDestination op quote hash) := by
  apply safe_status
  · exact fun _ => safe_ret _
  intro provider hasserted
  show Safe W p (ite _ _ _)
  split
  · exact safe_ret _
  split
  · exact safe_ret _
  apply always_bind (always_proveRelayNativeDestination op quote hash provider.txHashes)
  intro result hresult
  apply safe_afterProof
  intro proof hproof
  apply safe_unlessMissing
  intro hmissing
  rcases hresult proof hproof with ⟨candidate, hcandidate, hquote, hproven⟩
  have hnames : provider.Names op hash candidate := by
    simp only [ite_eq_right_iff, reduceCtorEq, imp_false, not_or, not_not, Bool.and_eq_true,
      decide_eq_true_eq] at hmissing
    refine ⟨hmissing.1, hmissing.2.1, ?_, hcandidate⟩
    rw [horder]
    exact hmissing.2.2
  have hmin : op.minOutputAtomic ≤ proof.creditedWei := by
    rcases hproven with ⟨reads, _, hreads⟩
    exact (inspectReads_hash hreads).2
  exact safe_claimThen hop hmin (spec_claim hop horder hasserted hnames hquote hproven)

theorem safe_blocked {message : String} : Safe W p (lift (blocked message) : Program α) := always_fail

theorem safe_observeNative (hop : W.operations op) : Safe W p (observeNative op) := by
  unfold observeNative
  split
  · rename_i quote locator horder _
    split
    · exact safe_blocked
    apply safe_source
    intro journal
    cases journal with
    | none => exact safe_ret _
    | some journal =>
      show Safe W p (observeNativeJournal op quote journal)
      unfold observeNativeJournal
      split <;> try exact safe_ret _
      split
      · exact safe_blocked
      rename_i hash _
      apply safe_deposit
      intro source
      match source with
      | .error e => exact safe_ret _
      | .ok none => exact safe_ret _
      | .ok (some .unbound) => exact safe_ret _
      | .ok (some .failed) =>
        show Safe W p (ite _ _ _)
        split
        · exact safe_blocked
        · exact safe_ret _
      | .ok (some .confirmed) =>
        show Safe W p (ite _ _ _)
        split
        · exact safe_blocked
        apply always_bind safe_settle
        intro settled _
        show Safe W p (ite _ _ _)
        split
        · exact safe_nativeDestination hop horder
        · exact safe_blocked
  · exact safe_blocked

theorem safe_bnbDestination {quote : RelayQuote} {settled : Bool} (hop : W.operations op)
    (horder : op.order = .ethereum quote) : Safe W p (bnbDestination op quote hash settled) := by
  apply safe_status
  · exact fun _ => safe_ret _
  intro provider hasserted
  show Safe W p (ite _ _ _)
  split
  · exact safe_ret _
  split
  · exact safe_ret _
  apply always_bind (always_proveRelayBnbDestination op quote hash provider.txHashes)
  intro result hresult
  apply safe_afterProof
  intro proof hproof
  apply safe_unlessMissing
  intro hmissing
  rcases hresult proof hproof with ⟨candidate, hcandidate, hsource, hdestination, hpays, hproven⟩
  have hreads : proof.destinationTransactionHash = candidate ∧ op.minOutputAtomic ≤ proof.creditedWei := by
    rcases hproven with ⟨reads, _, hreads⟩
    exact inspectReads_hash hreads
  rcases hreads with ⟨rfl, hmin⟩
  have hnames : provider.Names op hash proof.destinationTransactionHash := by
    split at hmissing
    · cases hmissing
    rename_i hbound
    simp only [not_or, not_not, Bool.and_eq_true, List.contains_iff_mem] at hbound
    refine ⟨hbound.1, hbound.2.1, ?_, hcandidate⟩
    rw [horder]
    exact hbound.2.2
  exact safe_claimThen hop hmin (spec_claimEthereumSource hop fun hbinds =>
    ⟨⟨provider, hasserted, hnames⟩, Evidence.bnb horder hsource hdestination hpays hbinds hproven⟩)

theorem safe_observeBnb (hop : W.operations op) : Safe W p (observeBnb op) := by
  unfold observeBnb
  split
  · rename_i quote horder
    split
    · exact safe_blocked
    apply safe_source
    intro journal
    cases journal with
    | none => exact safe_ret _
    | some journal =>
      show Safe W p (observeBnbJournal op quote journal)
      unfold observeBnbJournal
      split
      · exact safe_ret _
      split
      · exact safe_ret _
      split
      · exact safe_ret _
      rename_i hash _
      apply safe_deposit
      intro source
      match source with
      | .error e => exact safe_ret _
      | .ok none => exact safe_ret _
      | .ok (some .unbound) => exact safe_ret _
      | .ok (some .failed) => exact safe_ret _
      | .ok (some .confirmed) =>
        apply always_bind safe_settle
        intro settled _
        show Safe W p (ite _ _ _)
        split
        · exact safe_ret _
        · exact safe_bnbDestination hop horder
  · exact safe_blocked

theorem baseMissing_none {final bound usage : Bool} {status : RelayStatus}
    (h : baseMissing final bound usage status = none) : bound = true ∧ status = .success := by
  unfold baseMissing at h
  split_ifs at h with hfinal hbound hsuccess
  exact ⟨hbound, not_not.mp hsuccess⟩

theorem safe_baseDestination {quote : RelayQuote} {hash : Option Word} {final usage : Bool} (hop : W.operations op)
    (horder : op.order = .ethereum quote) : Safe W p (baseDestination op quote hash final usage) := by
  apply safe_status
  · exact fun _ => safe_ret _
  intro provider hasserted
  show Safe W p (ite _ _ _)
  split
  · exact safe_ret _
  rename_i hidentity
  rw [not_or, not_not] at hidentity
  apply always_bind (always_proveRelayBaseDestination op quote provider.txHashes)
  intro result hresult
  apply safe_afterProof
  intro proof hproof
  apply safe_unlessMissing
  intro hmissing
  rcases hresult proof hproof with ⟨candidate, hcandidate, ⟨hsource, hdestination, hroute, hpays⟩, hproven⟩
  have hreads : proof.destinationTransactionHash = candidate ∧ op.minOutputAtomic ≤ proof.creditedWei := by
    rcases hproven with ⟨reads, _, hreads⟩
    exact inspectReads_hash hreads
  rcases hreads with ⟨rfl, hmin⟩
  apply safe_claimThen hop hmin
  cases hash with
  | none => exact Spec.fail fun _ _ _ => trivial
  | some hash =>
    rcases baseMissing_none hmissing with ⟨hbound, hsuccess⟩
    have hnames : provider.Names op hash proof.destinationTransactionHash := by
      refine ⟨hsuccess, hidentity.1, ?_, hcandidate⟩
      rw [horder]
      exact List.contains_iff_mem.mp hbound
    exact spec_claimEthereumSource hop fun hbinds =>
      ⟨⟨provider, hasserted, hnames⟩, Evidence.base horder hsource hdestination hroute hpays hbinds hproven⟩

theorem safe_observeBase (hop : W.operations op) : Safe W p (observeBase op) := by
  unfold observeBase
  split
  · rename_i quote horder
    split
    · exact safe_blocked
    apply safe_source
    intro journal
    have hfinal : Safe W p (baseSourceFinalized op (recordedDeposit journal)) := by
      cases recordedDeposit journal with
      | none => exact safe_ret _
      | some hash =>
        apply safe_deposit
        intro source
        match source with
        | .error e => exact safe_ret _
        | .ok none => exact safe_ret _
        | .ok (some .unbound) => exact safe_ret _
        | .ok (some .failed) => exact safe_ret _
        | .ok (some .confirmed) => exact safe_ret _
    apply always_bind hfinal
    intro final _
    have husage : Safe W p (baseUsageBound op final (recordedDeposit journal)) := by
      cases recordedDeposit journal with
      | none => exact safe_ret _
      | some hash =>
        show Safe W p (ite _ _ _)
        split
        · exact safe_settle
        · exact safe_ret _
    apply always_bind husage
    intro usage _
    show Safe W p (ite _ _ _)
    split
    · exact safe_ret _
    · exact safe_baseDestination hop horder
  · exact safe_blocked

/-! ## The Arbitrum lane -/

-- A record that is read is this operation's, and its payout is claimed for it.
theorem spec_loadCredit {P : State → Prop} (hop : W.operations op) (hP : W.discipline.Stable p P) :
    W.discipline.Spec W.system p P (loadCredit op)
      (fun saved s => P s ∧ ∀ record, saved = some record → record.binds op = true ∧
        Owned op (record.acceptance op).payout s) fun _ _ => True := by
  have hread : W.discipline.Spec W.system p P (run (.readCredit op) rfl)
      (fun saved s => P s ∧ s.credits op.slot = saved) fun _ _ => True :=
    spec_read hP fun _ _ _ hexec => by
      rcases hexec with ⟨hsaved, rfl⟩
      exact ⟨rfl, hsaved⟩
  apply Spec.bind hread
  intro saved
  cases saved with
  | none => exact Spec.ret fun s _ h => ⟨h.1, fun record h => (nomatch h)⟩
  | some record =>
    show W.discipline.Spec W.system p _ (ite _ _ _) _ _
    split
    · exact Spec.fail fun _ _ _ => trivial
    · rename_i hbinds
      apply Spec.ret
      rintro s hs ⟨hPs, hsaved⟩
      refine ⟨hPs, ?_⟩
      rintro record' ⟨⟩
      rcases hs.credits op.slot record hsaved with ⟨op', hop', hslot, _, howned⟩
      have hsame : op' = op := W.keyed op' op hop' hop (congrArg Prod.fst hslot) (congrArg Prod.snd hslot)
      subst hsame
      exact ⟨not_not.mp hbinds, howned⟩

theorem creditFor_binds {requestId : String}
    (hlocator : op.statusLocator = some requestId) (hbinds : proof.binds op = true) :
    (creditFor op requestId hash proof).binds op = true := by
  simp only [UsdcCreditProof.binds, Bool.and_eq_true, decide_eq_true_eq] at hbinds
  simp [CreditRecord.binds, creditFor, hlocator, hbinds]

theorem CreditRecord.min_le {record : CreditRecord} (h : record.binds op = true) :
    op.minOutputAtomic ≤ record.proof.creditedAtomic := by
  simp only [CreditRecord.binds, Bool.and_eq_true, decide_eq_true_eq] at h
  exact h.2

theorem spec_recordCredit {record : CreditRecord} (hop : W.operations op) (hslot : op.slot = record.slot)
    (hbinds : record.binds op = true) :
    W.discipline.Spec W.system p (Owned op (record.acceptance op).payout) (recordCredit op record)
      (fun kept s => kept.binds op = true ∧ Owned op (kept.acceptance op).payout s) fun _ _ => True := by
  apply Spec.bind (spec_loadCredit hop (stable_owned op _))
  intro saved
  cases saved with
  | some kept => exact Spec.ret fun s _ h => h.2 kept rfl
  | none =>
    apply Spec.pre (N := Owned op (record.acceptance op).payout) _ fun _ _ h => h.1
    apply Spec.op (M := fun _ => Owned op (record.acceptance op).payout) (stable_owned op _)
    · rintro s a t hs howned ⟨credits, hcreate, rfl⟩
      rcases createOnly_grows hcreate with ⟨hgrow, hnew, _⟩
      have hgrows : Grows s { s with credits := credits } := ⟨fun _ _ h => h, hgrow, fun _ _ h => h⟩
      refine ⟨keeps_of_grows hgrows (hs.grow hgrows hs.sources (fun _ _ h => .inl h) ?_ fun _ h => .inl h), howned⟩
      intro slot kept hkept
      rcases hnew slot kept hkept with hold | ⟨rfl, rfl⟩
      · exact .inl hold
      · exact .inr ⟨op, hop, hslot, hbinds, howned⟩
    · intro a
      cases a with
      | ok u => exact Spec.ret fun s _ h => ⟨hbinds, h⟩
      | error e => exact Spec.fail fun _ _ _ => trivial

theorem safe_claimAndRecord {requestId orderId : String}
    (hop : W.operations op) (hlocator : op.statusLocator = some requestId) (horder : op.order = .arbitrum orderId)
    (hasserted : W.asserts op provider) (hnames : provider.Names op hash proof.destinationTransactionHash)
    (hdigest : (W.project op).quoteDigest = op.quoteDigest) (hrecipient : (W.project op).recipient = op.recipient)
    (hbound : (W.project op).bound = true)
    (hproven : UsdcProvenBy W (W.project op) proof.destinationTransactionHash proof) :
    Safe W p (claimAndRecord op requestId hash proof) := by
  apply Spec.bind (Spec.attempt (F := fun _ _ => True)
    (spec_claimEthereumUsdc hop horder hasserted hnames hdigest hrecipient hbound hproven))
  intro claimed
  cases claimed with
  | error e => exact Spec.ret fun _ _ _ => trivial
  | ok u =>
    intro s hs hclaimed
    rcases hclaimed with ⟨hbinds, _, howned⟩
    apply Spec.bind (spec_recordCredit hop rfl (creditFor_binds hlocator hbinds)) _ s hs howned
    intro kept s hs hkept
    exact spec_accepting (a := kept.acceptance op) hop (CreditRecord.min_le hkept.1) s hs hkept.2

theorem safe_arbitrumCandidate {requestId orderId : String}
    (hop : W.operations op) (hlocator : op.statusLocator = some requestId)
    (horder : op.order = .arbitrum orderId) (hasserted : W.asserts op provider) :
    Safe W p (arbitrumCandidate op requestId hash provider provider.txHashes) := by
  unfold arbitrumCandidate
  split
  · exact safe_ret _
  · rename_i candidate hcandidate
    have hproject : Always W p (run (.projectQuote op) rfl) (· = W.project op) :=
      always_read fun _ _ _ hexec => ⟨hexec.2, hexec.1⟩
    apply always_bind hproject
    rintro quote rfl
    show Safe W p (ite _ _ _)
    split
    · exact always_fail
    rename_i hbound
    rw [not_or, not_not, not_not] at hbound
    apply always_bind (always_proveRelayEthereumUsdcCredit (W.project op) candidate)
    intro result hresult
    apply safe_afterProof
    intro proof hproof
    apply safe_unlessMissing
    intro hmissing
    rcases hresult proof hproof with ⟨hquote, hproven⟩
    have hhash : proof.destinationTransactionHash = candidate := by
      rcases hproven with ⟨_, _, _, _, _, _, _, hreads⟩
      exact usdcReads_hash hreads
    subst hhash
    have hnames : provider.Names op hash proof.destinationTransactionHash := by
      simp only [ite_eq_right_iff, reduceCtorEq, imp_false, not_or, not_not, Bool.and_eq_true,
        List.contains_iff_mem] at hmissing
      refine ⟨hmissing.1, hmissing.2.1, ?_, hcandidate⟩
      rw [horder]
      exact hmissing.2.2
    exact safe_claimAndRecord hop hlocator horder hasserted hnames hbound.1 hbound.2 hquote hproven
  · exact safe_ret _

theorem safe_arbitrumDestination (hop : W.operations op) : Safe W p (arbitrumDestination op hash) := by
  unfold arbitrumDestination
  split
  · rename_i orderId requestId horder hlocator
    apply Spec.bind (spec_loadCredit hop (stable_pure True))
    intro recorded
    cases recorded with
    | some record =>
      intro s hs h
      rcases h.2 record rfl with ⟨hbinds, howned⟩
      exact spec_accepting (a := record.acceptance op) hop (CreditRecord.min_le hbinds) s hs howned
    | none =>
      apply Spec.pre (N := fun _ => True) _ fun _ _ _ => trivial
      apply safe_status
      · exact fun _ => safe_ret _
      exact fun provider hasserted => safe_arbitrumCandidate hop hlocator horder hasserted
  · exact safe_ret _

theorem safe_observeArbitrum (hop : W.operations op) : Safe W p (observeArbitrum op) := by
  unfold observeArbitrum
  split
  · split
    · exact safe_blocked
    apply safe_source
    intro journal
    match journal with
    | none => exact safe_ret _
    | some ⟨_, .confirmed, some hash⟩ => exact safe_arbitrumDestination hop
    | some ⟨_, .confirmed, none⟩ => exact safe_ret _
    | some ⟨_, .pending, _⟩ => exact safe_ret _
    | some ⟨_, .signingStarted, _⟩ => exact safe_ret _
    | some ⟨_, .sealed, _⟩ => exact safe_ret _
    | some ⟨_, .submitting, _⟩ => exact safe_ret _
    | some ⟨_, .failed, _⟩ => exact safe_ret _
    | some ⟨_, .failedBeforeEffect, _⟩ => exact safe_ret _
  · exact safe_blocked

theorem safe_observe (lane : Lane) (hop : W.operations op) : Safe W p (observe lane op) := by
  cases lane with
  | native => exact safe_observeNative hop
  | bnb => exact safe_observeBnb hop
  | base => exact safe_observeBase hop
  | arbitrum => exact safe_observeArbitrum hop

/-! ## Runs -/

theorem inv_initial {sources : RelayOperation → Option SourceJournal} (h : SourcesValid sources) :
    Inv W (State.initial sources) :=
  ⟨h, fun _ _ h => (nomatch h), fun _ _ h => (nomatch h), fun _ h => (nomatch h)⟩

-- Whatever the observers of all lanes did, and wherever they died.
theorem inv_run {s : State} {labels : List (System.Label PayoutOp PayoutOp.Answer ApnError ℕ)}
    {c : System.Config PayoutOp PayoutOp.Answer ApnError State ℕ} (hs : Inv W s)
    (hrun : Runs.Run W.Step (System.idle s) labels c) : Inv W c.shared := by
  apply Discipline.invariant_of_wp (D := W.discipline) _ _ _ hs hrun
  · rintro p program ⟨lane, op, hop, rfl⟩
    exact always_bind (safe_observe lane hop) fun _ _ => safe_ret ()
  · intro p s t hs hcrash
    have hsame : t = s := hcrash
    subst hsame
    exact keeps_self hs
  · exact fun s t hs hstep => ⟨hstep.inv hs, fun _ => hstep.grows⟩

end PaymentNode.Payout
