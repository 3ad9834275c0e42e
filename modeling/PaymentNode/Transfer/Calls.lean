import PaymentNode.Transfer.Reads

/-!
# Calls — every call on a transfer keeps the invariant

One specification for each program that writes the record, fences, sends or moves the ledger, down to the
calls.  A transition is made from a record before its signature (`meets_early`), from one that may have been
sent (`meets_sent`), or from a signature that has no fence (`meets_abandonUndispatched`).
-/

namespace PaymentNode

open TransferProg Discipline LocalDirect

variable {keccak : Keccak} {α β : Type} {P Q : TransferCore → Prop} {operation : OperationRecord}

/-! ## Writing the record -/

/-- `next` is `operation` with the transition of `input` added. -/
def Appended (operation : OperationRecord) (input : TransitionInput) (extra : TransitionExtra)
    (next : OperationRecord) : Prop :=
  ∃ at', next = operation.append ⟨at', input.state, input.terminal, input.reason, input.proofClass⟩ extra

variable {F : Option Hex → Prop}

theorem meets_writeOperation {next : OperationRecord}
    (hmay : ∀ c, TransferInv keccak c → P c → MayStore next c) (hF : ∀ c, P c → F c.fence) :
    Meets keccak P (writeOperation next) (fun _ c => c.record = some next ∧ F c.fence) always := by
  apply Meets.run
  intro s a t hinv hP hexec
  refine ⟨?_, trivial, ?_⟩
  · rcases writes_or hexec with rfl | ⟨hallowed, rfl⟩
    · exact hinv
    · exact hinv.stores (hmay _ hinv hP) hallowed
  · intro v hv
    rcases hexec with ⟨_, hfail⟩ | ⟨_, rfl⟩
    · exact absurd hv (hfail v)
    · exact ⟨rfl, hF s.core hP⟩

theorem meets_persist {next : OperationRecord}
    (hmay : ∀ c, TransferInv keccak c → P c → MayStore next c) (hF : ∀ c, P c → F c.fence) :
    Meets keccak P (persist next) (fun _ c => c.record = some next ∧ F c.fence) always := by
  unfold persist
  split
  · apply Spec.bind (meets_writeOperation hmay hF)
    intro _
    have haside : Aside keccak always (writeReceipt next) anything := aside_writeReceipt next
    have hreceipt := haside.meets (P := fun c => c.record = some next ∧ F c.fence)
    exact Spec.conseq hreceipt (fun _ _ h => h) (fun _ _ _ h => h.1) fun _ _ _ _ => trivial
  · apply Meets.aside (aside_writeReceipt next) fun _ _ => trivial
    intro _
    exact meets_writeOperation (fun c hc h => hmay c hc h.1) fun c h => hF c h.1

theorem followPlan_releases {current : Option AssetUsageState} {target : DirectUsageTarget}
    {moves : List AssetUsageState} (h : followPlan current target = .ok moves)
    (hmem : AssetUsageState.failedBeforeEffect ∈ moves) : target = .failedBeforeEffect := by
  unfold followPlan at h
  split at h
  · cases h
    cases hmem
  · cases current with
    | none =>
      dsimp only at h
      split at h
      · assumption
      · exact absurd h corrupt_ne_ok
    | some current =>
      dsimp only at h
      split at h
      · cases h
        cases hmem
      · rw [corrupt_guard] at h
        have hmoves := h.2
        cases target with
        | failedBeforeEffect => rfl
        | submitted | failedConfirmedRevert =>
          simp only [followMoves, Except.ok.injEq] at hmoves
          rw [← hmoves] at hmem
          split at hmem <;> simp at hmem
        | unknownFinality | finalized | reserved =>
          simp only [followMoves, DirectUsageTarget.state, Except.ok.injEq] at hmoves
          rw [← hmoves] at hmem
          simp at hmem

theorem meets_moveUsage {target : AssetUsageState}
    (hreleases : target = .failedBeforeEffect → evmUsageTarget operation = .failedBeforeEffect) :
    Meets keccak (fun c => c.record = some operation ∧ F c.fence) (moveUsage target)
      (fun _ c => c.record = some operation ∧ F c.fence) always := by
  apply Meets.run
  rintro s a t hinv ⟨hrecord, hF⟩ hexec
  rcases writes_or hexec with rfl | ⟨hallows, rfl⟩
  · exact ⟨hinv, trivial, fun _ _ => ⟨hrecord, hF⟩⟩
  · rcases (Option.any_eq_true _ _).mp hallows with ⟨current, hcurrent, hmove⟩
    have hallowed := of_decide_eq_true hmove
    refine ⟨?_, trivial, fun _ _ => ⟨hrecord, hF⟩⟩
    exact hinv.moves hcurrent hallowed fun h => ⟨operation, hrecord, hreleases h⟩

theorem meets_moveAll (moves : List AssetUsageState) (hreleases : AssetUsageState.failedBeforeEffect ∈ moves →
      evmUsageTarget operation = .failedBeforeEffect) :
    Meets keccak (fun c => c.record = some operation ∧ F c.fence) (moveAll moves)
      (fun _ c => c.record = some operation ∧ F c.fence) always := by
  induction moves with
  | nil => exact Spec.ret fun _ _ h => h
  | cons move moves ih =>
    apply Spec.bind
    · exact meets_moveUsage fun h => hreleases (h ▸ List.mem_cons_self)
    · exact fun _ => ih fun h => hreleases (List.mem_cons_of_mem _ h)

theorem meets_followUsage :
    Meets keccak (fun c => c.record = some operation ∧ F c.fence) (followUsage operation)
      (fun _ c => c.record = some operation ∧ F c.fence) always := by
  unfold followUsage
  split
  · unfold LocalDirect.follow
    split
    · exact Spec.ret fun _ _ h => h
    · apply Meets.aside aside_readUsage fun _ _ => trivial
      intro current
      apply Meets.aside (Aside.lift fun moves _ _ h => h) fun _ _ => trivial
      intro moves
      by_cases hplan : followPlan current (evmUsageTarget operation) = .ok moves
      · apply Spec.pre (meets_moveAll moves (followPlan_releases hplan))
        exact fun _ _ h => h.1.1
      · exact fun s _ h => absurd h.2 hplan
  · exact Spec.ret fun _ _ h => h

variable {extra : TransitionExtra} {input : TransitionInput}

theorem meets_transitionOnly (hsite : ∀ c, P c → Site operation c) (hopen : operation.terminal = false)
    (hterminal : input.terminal = input.state.localDirectTerminal)
    (hfits : ∀ c next, TransferInv keccak c → P c → Appended operation input extra next →
      .observedUnfenced ∈ c.log ∨ Fits c next) (hF : ∀ c, P c → F c.fence) :
    Meets keccak P (transitionOnly operation input extra)
      (fun next c => (c.record = some next ∧ F c.fence) ∧ Appended operation input extra next)
      always := by
  apply Meets.aside aside_now fun _ _ => trivial
  intro at'
  have hpersist := meets_persist (P := fun c => P c ∧ anything at' c) (F := F)
    (fun c (hinv : TransferInv keccak c) hc => mayStore_append (hsite c hc.1) hopen hterminal (hfits c _ hinv hc.1 ⟨at', rfl⟩))
    fun c hc => hF c hc.1
  apply Spec.bind hpersist
  exact fun _ => Spec.ret fun _ _ h => ⟨h, at', rfl⟩

theorem meets_transitionUsage (hsite : ∀ c, P c → Site operation c) (hopen : operation.terminal = false)
    (hterminal : input.terminal = input.state.localDirectTerminal)
    (hfits : ∀ c next, TransferInv keccak c → P c → Appended operation input extra next →
      .observedUnfenced ∈ c.log ∨ Fits c next) (hF : ∀ c, P c → F c.fence) :
    Meets keccak P (transitionUsage operation input extra)
      (fun next c => (c.record = some next ∧ F c.fence) ∧ Appended operation input extra next)
      always := by
  apply Spec.bind (meets_transitionOnly hsite hopen hterminal hfits hF)
  intro next
  by_cases happended : Appended operation input extra next
  · apply Spec.bind (M := fun _ s => s.core.record = some next ∧ F s.core.fence)
    · exact Spec.pre meets_followUsage fun _ _ h => h.1
    · exact fun _ => Spec.ret fun _ _ h => ⟨h, happended⟩
  · exact fun s _ h => absurd h.2 happended

/-- Only the abandonment of an undispatched signature is a release past signing. -/
def LocalDirect.TransitionInput.afterFence (input : TransitionInput) : Bool :=
  match input.state with
  | .awaitingApproval | .started | .failedBeforeEffect => false
  | .abandonedUnknown => input.reason ≠ "owner_abandoned_undispatched_signature"
  | _ => true

theorem Appended.afterFence
    {next : OperationRecord} (h : Appended operation input extra next) (hinput : input.afterFence) :
    next.AfterFence := by
  rcases h with ⟨at', rfl⟩
  rcases input with ⟨state, terminal, reason, proofClass⟩
  cases state <;>
    simp_all [TransitionInput.afterFence, OperationRecord.AfterFence, OperationRecord.append,
      OperationRecord.state, OperationRecord.reason, evmUsageTarget]

theorem Appended.transactionHash {next : OperationRecord} (h : Appended operation input extra next)
    (hextra : extra.transactionHash = none) : next.transactionHash = operation.transactionHash := by
  rcases h with ⟨at', rfl⟩
  show (extra.transactionHash <|> operation.transactionHash) = operation.transactionHash
  rw [hextra]
  rfl

theorem Appended.terminal {next : OperationRecord} (h : Appended operation input extra next) :
    next.terminal = input.terminal := by
  rcases h with ⟨at', rfl⟩
  rfl

theorem Appended.state
    {next : OperationRecord} (h : Appended operation input extra next) : next.state = input.state := by
  rcases h with ⟨at', rfl⟩
  rfl

-- A transition of a record before its signature.
theorem meets_early (hearly : operation.state = .awaitingApproval ∨ operation.state = .started)
    (hopen : operation.terminal = false) (hterminal : input.terminal = input.state.localDirectTerminal)
    (hflight : input.state.inFlight = false) :
    Meets keccak (Stored operation) (transitionUsage operation input extra)
      (fun next c => c.record = some next ∧ Appended operation input extra next) always := by
  have h : Meets keccak (Stored operation) (transitionUsage operation input extra)
      _ always := meets_transitionUsage (F := fun _ => True) (fun _ hrecord => Or.inl hrecord) hopen hterminal
    (fun c next hinv hrecord happended =>
      fits_of_early hinv hrecord hopen hearly (by rw [happended.state]; exact hflight))
    fun _ _ => trivial
  exact Spec.conseq h (fun _ _ h => h) (fun _ _ _ h => ⟨h.1.1, h.2⟩) fun _ _ _ h => h

-- A transition of a record that may have been sent.
theorem meets_sent (hopen : operation.terminal = false)
    (hterminal : input.terminal = input.state.localDirectTerminal) (hafter : input.afterFence)
    (hextra : extra.transactionHash = none) :
    Meets keccak (fun c => Site operation c ∧ Covered operation c)
      (transitionUsage operation input extra)
      (fun next c => (c.record = some next ∧ Covered next c) ∧ Appended operation input extra next)
      (Covered operation) := by
  have h : Meets keccak (fun c => Site operation c ∧ Covered operation c)
      (transitionUsage operation input extra) _ always :=
    meets_transitionUsage (F := fun _ => True) (fun _ hc => hc.1) hopen hterminal
    (fun c next hinv hc happended => fits_of_covered hinv hc.2 (happended.transactionHash hextra)
      (happended.afterFence hafter))
    fun _ _ => trivial
  apply Spec.conseq h.covered (fun _ _ h => ⟨h, h.2⟩) _ fun _ _ _ h => h.2
  intro next s _ hpost
  rcases hpost with ⟨⟨hrecord, happended⟩, hcovered⟩
  refine ⟨⟨hrecord.1, ?_⟩, happended⟩
  unfold Covered at hcovered ⊢
  rw [happended.transactionHash hextra]
  exact hcovered

/-- The stored record, which may have been sent. -/
abbrev Sent (operation : OperationRecord) (c : TransferCore) : Prop :=
  c.record = some operation ∧ Covered operation c

/-! ## Observation -/

theorem meets_observed (hopen : operation.terminal = false)
    (hterminal : input.terminal = input.state.localDirectTerminal) (hafter : input.afterFence)
    (hextra : extra.transactionHash = none) :
    Meets keccak (Sent operation) (transitionUsage operation input extra) Sent always :=
  Spec.conseq (meets_sent hopen hterminal hafter hextra) (fun _ _ h => ⟨Or.inl h.1, h.2⟩)
    (fun _ _ _ h => h.1) fun _ _ _ _ => trivial

theorem meets_classifyProven (receipt : RpcReceipt) (hopen : operation.terminal = false) :
    Meets keccak (Sent operation) (classifyProven operation receipt) Sent always := by
  apply Meets.aside (aside_call (h := rfl)) fun _ _ => trivial
  intro paid
  have hsent : ∀ (input : TransitionInput) (extra : TransitionExtra),
      input.terminal = input.state.localDirectTerminal → input.afterFence →
      extra.transactionHash = none → Meets keccak (fun c => Sent operation c ∧ anything paid c)
        (transitionUsage operation input extra) Sent always :=
    fun input extra hterminal hafter hextra =>
      Spec.pre (meets_observed hopen hterminal hafter hextra) fun _ _ h => h.1
  dsimp only
  split
  · exact hsent _ _ rfl rfl rfl
  · split
    · exact hsent _ _ rfl rfl rfl
    · exact hsent _ _ rfl rfl rfl

theorem meets_classifyReceipt (receipt : RpcReceipt) (hopen : operation.terminal = false) :
    Meets keccak (Sent operation) (classifyReceipt operation receipt) Sent always := by
  unfold classifyReceipt
  split
  · exact Spec.ret fun _ _ h => h
  · split
    · exact meets_observed hopen rfl rfl rfl
    · split
      · exact meets_classifyProven receipt hopen
      · apply Meets.aside (aside_ask TransferAsk.evidence) fun _ _ => trivial
        intro evidence
        have hsent : ∀ input : TransitionInput, input.terminal = input.state.localDirectTerminal →
            input.afterFence → Meets keccak (fun c => Sent operation c ∧ anything evidence c)
              (transitionUsage operation input TransitionExtra.none) Sent always :=
          fun input hterminal hafter =>
            Spec.pre (meets_observed hopen hterminal hafter rfl) fun _ _ h => h.1
        split
        · exact hsent _ rfl rfl
        · exact hsent _ rfl rfl
        · exact Spec.pre (meets_classifyProven receipt hopen) fun _ _ h => h.1

-- Without a receipt the record is the one observed.
theorem meets_observeReceipt (hopen : operation.terminal = false) :
    Meets keccak (Sent operation) (observeReceipt operation)
      (fun observed c => Sent observed.1 c ∧ (observed.2 = .absent → observed.1 = operation))
      always := by
  unfold observeReceipt
  split
  · exact Spec.ret fun _ _ h => ⟨h, fun _ => rfl⟩
  · apply Meets.aside (aside_ask TransferAsk.receipt) fun _ _ => trivial
    intro receipt
    split
    · exact Spec.ret fun _ _ h => ⟨h.1, fun _ => rfl⟩
    · exact Spec.ret fun _ _ h => ⟨h.1, fun _ => rfl⟩
    · apply Spec.bind (Spec.pre (meets_classifyReceipt _ hopen) fun _ _ h => h.1)
      exact fun _ => Spec.ret fun _ _ h => ⟨h, fun habsent => by cases habsent⟩

/-! ## Dispatch -/

variable {raw : Hex}

theorem meets_submitRaw (hfence : ∀ c, P c → .observedUnfenced ∈ c.log ∨ c.fence = some (keccak raw))
    (hmark : ∀ c, P c → Q (c.marks (.sent raw))) :
    Meets keccak P (run (.submitRaw raw) rfl : TransferProg Hex) (fun _ => Q) Q := by
  apply Meets.run
  intro s a t hinv hP hexec
  have heq : t = _ := hexec
  rw [heq]
  refine ⟨?_, hmark _ hP, fun _ _ => hmark _ hP⟩
  apply hinv.marks (by simp) (by simp) (by simp)
  intro raw' hraw
  cases hraw
  exact hfence _ hP

theorem Sent.marks {c : TransferCore} {e : TransferEvent} (h : Sent operation c) :
    Sent operation (c.marks e) :=
  ⟨h.1, h.2.imp (List.mem_cons_of_mem _) id⟩

-- The bytes of a covered record are the fenced ones.
theorem fenced_of_covered {c : TransferCore} (h : Covered operation c)
    (hraw : operation.transactionHash = some (keccak raw)) :
    .observedUnfenced ∈ c.log ∨ c.fence = some (keccak raw) := by
  rcases h with hseen | ⟨hash, hfence, hsame⟩
  · exact Or.inl hseen
  · right
    rw [hfence, ← hsame, hraw]

-- The catch: the record is still the one given, or the store has moved past it.
theorem meets_catches :
    Meets keccak (Covered operation) (catches operation)
      (fun _ c => Site operation c ∧ Covered operation c) always := by
  apply Spec.act
  intro s a t hinv hcovered hexec
  have heq : t = _ := hexec
  rw [heq]
  refine ⟨hinv.catches, ?_⟩
  show Site operation (s.core.catches operation) ∧ Covered operation (s.core.catches operation)
  unfold TransferCore.catches
  split
  · have hmarked : Covered operation (s.core.marks .leftBehind) :=
      hcovered.imp (List.mem_cons_of_mem _) id
    exact ⟨Or.inr ⟨hmarked, Or.inr List.mem_cons_self⟩, hmarked⟩
  · rename_i hbehind
    refine ⟨?_, hcovered⟩
    by_cases hrecord : s.core.record = some operation
    · exact Or.inl hrecord
    · have hevm : ¬ operation.evm.isNone := fun hnone => hbehind ⟨hnone, hrecord⟩
      exact Or.inr ⟨hcovered, Or.inl (by simpa [Option.isSome_iff_ne_none] using hevm)⟩

theorem meets_catchDispatch (reason : String) (hopen : operation.terminal = false) :
    Meets keccak (Covered operation) (catchDispatch operation reason) anything always := by
  apply Spec.bind meets_catches
  intro _
  apply Meets.aside (P := fun c => Site operation c ∧ Covered operation c) aside_now
    fun _ _ => trivial
  intro at'
  have hunknown : Meets keccak _ (transitionUsage operation (unknown reason "ambiguous_submission")
      { TransitionExtra.none with lastSubmissionAt := some at' }) _ _ := meets_sent hopen rfl rfl rfl
  exact Spec.conseq hunknown (fun _ _ h => h.1) (fun _ _ _ _ => trivial) fun _ _ _ _ => trivial

/-- A dispatch answers with a record to inspect, or with one that is done. -/
def Inspectable (outcome : OperationRecord ⊕ OperationRecord) (c : TransferCore) : Prop :=
  ∀ updated, outcome = .inr updated → Sent updated c ∧ updated.terminal = false

theorem meets_dispatch (hopen : operation.terminal = false) (hraw : operation.transactionHash = some (keccak raw)) :
    Meets keccak (Sent operation) (dispatch operation raw) Inspectable (Covered operation) := by
  have hsubmit : Meets keccak (Sent operation) (run (.submitRaw raw) rfl : TransferProg Hex)
      (fun _ => Sent operation) (Sent operation) :=
    meets_submitRaw (fun c hc => fenced_of_covered hc.2 hraw) fun _ hc => hc.marks
  have hsubmit' := Spec.conseq hsubmit (fun _ _ h => h) (fun _ _ _ h => h)
    (E := fun _ s => Covered operation s.core) fun _ _ _ h => h.2
  apply Spec.bind hsubmit'
  intro returned
  split
  · apply Spec.bind (Spec.pre (meets_sent hopen rfl rfl rfl) fun _ _ h => ⟨Or.inl h.1, h.2⟩)
    exact fun _ => Spec.ret fun _ _ _ _ h => by cases h
  · apply Meets.aside (P := Sent operation) aside_now fun _ h => h.2
    intro at'
    apply Spec.bind (Spec.pre (meets_sent hopen rfl rfl rfl) fun _ _ h => ⟨Or.inl h.1.1, h.1.2⟩)
    intro updated
    apply Spec.ret
    rintro s _ ⟨hsent, happended⟩ _ hinr
    cases hinr
    exact ⟨hsent, happended.terminal⟩

theorem meets_dispatchAndInspect (hopen : operation.terminal = false)
    (hraw : operation.transactionHash = some (keccak raw)) :
    Meets keccak (Sent operation) (dispatchAndInspect operation raw) anything always := by
  apply Spec.bind (M := fun outcome s => Inspectable outcome s.core)
  · apply Spec.handle (meets_dispatch hopen hraw)
    intro _
    apply Spec.bind (meets_catchDispatch "submission_outcome_ambiguous" hopen)
    exact fun _ => Spec.ret fun _ _ _ _ h => by cases h
  · intro outcome
    cases outcome with
    | inl updated => exact Spec.ret fun _ _ _ => trivial
    | inr updated =>
      by_cases hupdated : updated.terminal = false
      · apply Spec.bind (Spec.pre (meets_observeReceipt hupdated) fun _ _ h => (h updated rfl).1)
        exact fun _ => Spec.ret fun _ _ _ => trivial
      · exact fun s _ h => absurd (h updated rfl).2 hupdated

-- The fence is written once, by the holder of the exact bytes.
theorem meets_fence :
    Meets keccak (Stored operation) (fence keccak operation raw)
      (fun _ c => Sent operation c ∧ operation.transactionHash = some (keccak raw)) always := by
  unfold fence
  split
  · exact Spec.pre (fun _ _ _ => trivial) fun _ _ h => h
  · rename_i hbound
    simp only [not_or, not_not] at hbound
    rcases hbound with ⟨hstate, _, _, hhash⟩
    apply Meets.run
    intro s a t hinv hrecord hexec
    refine ⟨?_, trivial, ?_⟩
    · rcases writes_or hexec with rfl | ⟨hnone, rfl⟩
      · exact hinv
      · exact hinv.fences hrecord hhash.symm hstate hnone
    · intro v hv
      rcases hexec with ⟨_, hfail⟩ | ⟨_, rfl⟩
      · exact absurd hv (hfail v)
      · exact ⟨⟨hrecord, Or.inr ⟨keccak raw, rfl, hhash.symm⟩⟩, hhash.symm⟩

theorem meets_submitAndInspect {proven : Bool} (hopen : operation.terminal = false) :
    Meets keccak (Stored operation) (submitAndInspect keccak operation raw proven)
      anything always := by
  apply Spec.bind (M := fun _ s => s.core.record = some operation)
  · split
    · exact Spec.ret fun _ _ h => h
    · exact Meets.aside (P := Stored operation)
        (R := fun _ => Stored operation) (aside_publicEffect operation)
        (fun _ _ => trivial) fun _ => Spec.ret fun _ _ h => h.1
  · intro _
    apply Meets.aside (P := Stored operation) (aside_fenceExists operation)
      fun _ _ => trivial
    intro fenced
    cases fenced with
    | true =>
      apply Spec.bind (Spec.pre (meets_observeReceipt hopen) fun _ _ h => ⟨h.1, h.2.1 rfl⟩)
      exact fun _ => Spec.ret fun _ _ _ => trivial
    | false =>
      apply Spec.bind (Spec.pre meets_fence fun _ _ h => h.1)
      intro _
      by_cases hraw : operation.transactionHash = some (keccak raw)
      · exact Spec.pre (meets_dispatchAndInspect hopen hraw) fun _ _ h => h.1
      · exact fun s _ h => absurd h.2 hraw

theorem meets_redispatch (hopen : operation.terminal = false)
    (hraw : operation.transactionHash = some (keccak raw)) :
    Meets keccak (Sent operation) (redispatch operation raw) anything always := by
  apply Meets.aside aside_now fun _ _ => trivial
  intro at'
  apply Spec.handle (M := fun _ s => Covered operation s.core)
  · have hsubmit : Meets keccak (fun c => Sent operation c ∧ anything at' c)
        (run (.submitRaw raw) rfl : TransferProg Hex) (fun _ => Sent operation) (Covered operation) :=
      Spec.conseq (meets_submitRaw (P := Sent operation) (Q := Sent operation)
        (fun c hc => fenced_of_covered hc.2 hraw) fun _ hc => hc.marks) (fun _ _ h => h.1)
        (fun _ _ _ h => h) fun _ _ _ h => h.2
    apply Spec.bind hsubmit
    intro returned
    split
    · exact Spec.ret fun _ _ _ => trivial
    · have hpending : Meets keccak _ (transitionUsage operation
          ⟨.submittedPending, false, "same_signed_bytes_redispatched", "transaction_hash_only"⟩
          { TransitionExtra.none with lastSubmissionAt := some at' }) _ _ := meets_sent hopen rfl rfl rfl
      exact Spec.conseq hpending (fun _ _ h => ⟨Or.inl h.1, h.2⟩) (fun _ _ _ _ => trivial)
        fun _ _ _ h => h
  · intro _
    split
    · exact Spec.ret fun _ _ _ => trivial
    · apply Spec.bind meets_catches
      intro _
      have hunknown : Meets keccak _ (transitionUsage operation
          (unknown "redispatch_outcome_ambiguous" "ambiguous_submission")
          { TransitionExtra.none with lastSubmissionAt := some at' }) _ _ := meets_sent hopen rfl rfl rfl
      exact Spec.conseq hunknown (fun _ _ h => h) (fun _ _ _ _ => trivial) fun _ _ _ _ => trivial

variable {observeOnly : Bool}

theorem meets_settleUnlanded (hopen : operation.terminal = false) :
    Meets keccak (Sent operation) (settleUnlanded keccak operation observeOnly) anything always := by
  apply Meets.aside (aside_ask TransferAsk.finalizedBatch) fun _ _ => trivial
  intro finalized
  split
  · exact Spec.ret fun _ _ _ => trivial
  · apply Spec.pre _ fun _ _ h => h.1
    apply Meets.aside (aside_ask TransferAsk.neverLands) fun _ _ => trivial
    intro check
    cases check with
    | error e => exact Spec.ret fun _ _ _ => trivial
    | ok check =>
      apply Spec.pre _ fun _ _ h => h.1
      dsimp only
      split
      · exact Spec.conseq (meets_observed hopen rfl rfl rfl) (fun _ _ h => h) (fun _ _ _ _ => trivial)
          fun _ _ _ h => h
      · split
        · exact Spec.ret fun _ _ _ => trivial
        · apply Meets.aside (aside_signedRawTransaction operation) fun _ _ => trivial
          intro raw
          by_cases hraw : operation.transactionHash = some (keccak raw)
          · exact Spec.pre (meets_redispatch hopen hraw) fun _ _ h => h.1
          · exact fun s _ h => absurd h.2 hraw

/-! ## Approval -/

theorem meets_failBeforeEffect (reason : String) (hopen : operation.terminal = false) :
    Meets keccak (Stored operation) (failBeforeEffect operation reason)
      (fun _ => Stored operation) always := by
  apply Meets.aside (aside_assertUnstarted operation) fun _ _ => trivial
  intro _
  by_cases hstate : operation.state = .awaitingApproval
  · apply Spec.pre _ fun _ _ h => h.1
    apply Spec.bind (meets_early (Or.inl hstate) hopen rfl rfl)
    exact fun _ => Spec.fail fun _ _ _ => trivial
  · exact fun s _ h => absurd h.2 hstate

theorem meets_reserveLease (hstate : operation.state = .awaitingApproval)
    (hopen : operation.terminal = false) :
    Meets keccak (Stored operation) (reserveLease operation)
      (fun _ => Stored operation) always := by
  apply Spec.handle (M := fun _ s => s.core.record = some operation)
  · split
    · exact Spec.fail fun _ _ h => h
    · apply Meets.run (P := Stored operation)
        (R := fun _ => Stored operation) (E := Stored operation)
      intro s a t hinv hrecord hexec
      rcases writes_or hexec with rfl | ⟨hfree, rfl⟩
      · exact ⟨hinv, hrecord, fun _ _ => hrecord⟩
      · exact ⟨hinv.reserves hfree, hrecord, fun _ _ => hrecord⟩
  · intro e
    split
    · apply Spec.bind (meets_early (Or.inl hstate) hopen rfl rfl)
      exact fun _ => Spec.fail fun _ _ _ => trivial
    · exact Spec.fail fun _ _ _ => trivial

theorem meets_signAndSend (hstate : operation.state = .awaitingApproval)
    (hopen : operation.terminal = false) :
    Meets keccak (Stored operation) (signAndSend keccak operation) anything
      always := by
  apply Spec.bind (meets_reserveLease hstate hopen)
  intro lease
  apply Spec.bind (meets_early (Or.inl hstate) hopen rfl rfl)
  intro started
  by_cases hstarted : started.state = .started ∧ started.terminal = false
  · apply Spec.pre _ fun _ _ h => h.1
    apply Meets.aside (P := fun c => c.record = some started) aside_approveAndSign fun _ _ => trivial
    intro effect
    apply Spec.pre _ fun _ _ h => h.1
    apply Meets.aside (P := fun c => c.record = some started) (aside_verifyEffect effect)
      fun _ _ => trivial
    intro _
    have hsign : Meets keccak _ (transitionUsage started
        ⟨.signedNotSubmitted, false, "native_effect_material_bound", "native_transaction_hash"⟩
        { TransitionExtra.none with
          transactionHash := some effect.transactionHash
          rawTransactionHash := some effect.rawTransactionHash }) _ _ :=
      meets_early (Or.inr hstarted.1) hstarted.2 rfl rfl
    apply Spec.bind (Spec.pre hsign fun _ _ h => h.1)
    intro signed
    by_cases hsigned : signed.terminal = false
    · exact Spec.pre (meets_submitAndInspect hsigned) fun _ _ h => h.1
    · exact fun s _ h => absurd h.2.terminal hsigned
  · exact fun s _ h => absurd ⟨h.2.state, h.2.terminal⟩ hstarted

theorem meets_checkTransferApproval (hopen : operation.terminal = false) :
    Meets keccak (Stored operation) (checkTransferApproval operation)
      (fun _ => Stored operation) always := by
  apply Meets.aside (P := Stored operation)
    (R := fun _ => Stored operation) (aside_call (h := rfl)) fun _ _ => trivial
  intro reason
  apply Spec.pre _ fun _ _ h => h.1
  cases reason with
  | none => exact Spec.ret fun _ _ h => h
  | some reason => exact meets_failBeforeEffect reason hopen

theorem meets_approveLocked (hstate : operation.state = .awaitingApproval)
    (hopen : operation.terminal = false) :
    Meets keccak (Stored operation) (LocalDirect.approveLocked keccak operation) anything
      always := by
  have hchecked : ∀ (x : TransferProg Unit),
      Meets keccak (Stored operation) x (fun _ => Stored operation) always →
      ∀ f : Unit → TransferProg Unit,
        (∀ a, Meets keccak (Stored operation) (f a) anything always) →
        Meets keccak (Stored operation) (x.bind f) anything always :=
    fun x hx f hf => Spec.bind hx hf
  have hfail : ∀ (b : Prop) [Decidable b] (reason : String),
      Meets keccak (Stored operation)
        (if b then failBeforeEffect operation reason else Prog.ret ())
        (fun _ => Stored operation) always := by
    intro b _ reason
    split
    · exact meets_failBeforeEffect reason hopen
    · exact Spec.ret fun _ _ h => h
  have hready : ∀ x : TransferProg Unit, Aside keccak always x anything →
      Meets keccak (Stored operation) x (fun _ => Stored operation)
        always := by
    intro x hx
    have hmeets := hx.meets (P := Stored operation)
    exact Spec.conseq hmeets (fun _ _ h => h) (fun _ _ _ h => h.1) fun _ _ _ _ => trivial
  apply hchecked _ (hready _ ((aside_assertUnstarted operation).mono (fun _ h => h) fun _ _ _ _ => trivial))
  intro _
  apply Meets.aside (P := Stored operation) aside_now fun _ _ => trivial
  intro at'
  apply Spec.pre _ fun _ _ h => h.1
  apply hchecked _ (hfail _ _)
  intro _
  apply hchecked _ (hfail _ _)
  intro _
  apply hchecked _ (hready _ aside_call)
  intro _
  apply hchecked
  · split
    · exact hready _ (aside_prepared operation)
    · exact Spec.ret fun _ _ h => h
  intro _
  apply hchecked _ (meets_checkTransferApproval hopen)
  intro _
  apply Spec.bind (meets_signAndSend hstate hopen)
  exact fun _ => Spec.ret fun _ _ _ => trivial

theorem meets_finished :
    Meets keccak (Stored operation) (followUsage operation) anything always := by
  have h : Meets keccak _ (followUsage operation) _ _ := meets_followUsage (F := fun _ => True)
  exact Spec.conseq h (fun _ _ h => ⟨h, trivial⟩) (fun _ _ _ _ => trivial) fun _ _ _ h => h

theorem meets_refused {N : TransferShared → Prop} {M : α → TransferShared → Prop} {e : ApnError} :
    (transferDiscipline keccak).Spec transferSystem () N (lift (.error e) : TransferProg α) M
      fun _ _ => True :=
  Spec.fail fun _ _ _ => trivial

theorem meets_approve : Meets keccak always (approve keccak) anything always := by
  apply Meets.aside aside_requiredOperation fun _ _ => trivial
  intro found
  split
  · exact meets_refused
  apply Meets.aside aside_requiredOperation fun _ _ => trivial
  intro operation
  apply Spec.pre _ fun _ _ h => h.2
  split
  · exact meets_finished
  split
  · exact meets_refused
  split
  · exact Spec.fail fun _ _ _ => trivial
  · rename_i hterminal hstate _
    rw [Bool.not_eq_true] at hterminal
    exact meets_approveLocked (not_not.mp hstate) hterminal

/-! ## Recovery -/

theorem releases_noPrivate {next : OperationRecord}
    (h : Appended operation noPrivateOutcome extra next) : evmUsageTarget next = .failedBeforeEffect := by
  unfold evmUsageTarget
  rw [h.state]
  rfl

theorem meets_releaseDirectReserved (hstate : operation.state = .started)
    (hopen : operation.terminal = false) :
    Meets keccak (Stored operation) (releaseDirectReserved operation)
      (fun next c => c.record = some next) always := by
  apply Meets.aside (P := Stored operation) (R := fun next c => c.record = some next)
    aside_readUsage fun _ _ => trivial
  intro usage
  apply Spec.pre _ fun _ _ h => h.1
  split
  · exact meets_refused
  · have hwrite : Meets keccak (Stored operation)
        (transitionOnly operation noPrivateOutcome TransitionExtra.none) _ always :=
      meets_transitionOnly (F := fun _ => True) (fun _ hrecord => Or.inl hrecord) hopen rfl
      (fun c next hinv hrecord happended =>
        fits_of_early hinv hrecord hopen (Or.inr hstate) (by rw [happended.state]; rfl))
      fun _ _ => trivial
    apply Spec.bind hwrite
    intro next
    by_cases happended : Appended operation noPrivateOutcome TransitionExtra.none next
    · have hmove : Meets keccak _ (moveUsage .failedBeforeEffect) _ _ :=
        meets_moveUsage (F := fun _ => True) fun _ => releases_noPrivate happended
      apply Spec.bind (Spec.pre hmove fun _ _ h => h.1)
      exact fun _ => Spec.ret fun _ _ h => h.1
    · exact fun s _ h => absurd h.2 happended

theorem meets_settleNoPrivateEntry :
    Meets keccak (Stored operation) (settleNoPrivateEntry operation)
      (fun _ => Stored operation) always := by
  apply Meets.aside (P := Stored operation)
    (R := fun _ => Stored operation) (aside_noPrivateEntry operation) fun _ _ => trivial
  intro proven
  cases proven with
  | false => exact Spec.ret fun _ _ h => h.1
  | true =>
    by_cases hstarted : operation.state = .started ∧ operation.terminal = false
    · apply Spec.pre _ fun _ _ h => h.1
      apply Meets.aside (P := Stored operation)
        (R := fun _ => Stored operation) (aside_noPrivateEntry operation) fun _ _ => trivial
      intro still
      apply Spec.pre _ fun _ _ h => h.1
      cases still with
      | false => exact meets_refused
      | true =>
        apply Spec.bind (M := fun _ _ => True)
        · split
          · apply Spec.bind (meets_early (Or.inr hstarted.1) hstarted.2 rfl rfl)
            exact fun _ => Spec.ret fun _ _ _ => trivial
          · apply Spec.bind (meets_releaseDirectReserved hstarted.1 hstarted.2)
            exact fun _ => meets_finished
        · exact fun _ => Spec.fail fun _ _ _ => trivial
    · exact fun s _ h => absurd (h.2 rfl) hstarted

theorem meets_bindSignature (hash : Hex) (hopen : operation.terminal = false) :
    Meets keccak (Stored operation) (bindSignature operation hash)
      (fun next c => c.record = some next ∧ next.terminal = false ∧
        (next.state = .signedNotSubmitted ∨ (next = operation ∧ operation.state ≠ .started)))
      always := by
  unfold bindSignature
  split
  · rename_i hstate
    apply Spec.conseq (meets_early (Or.inr hstate) hopen rfl rfl) (fun _ _ h => h)
    · exact fun next _ _ h => ⟨h.1, h.2.terminal, Or.inl h.2.state⟩
    · exact fun _ _ _ h => h
  · rename_i hstate
    exact Spec.ret fun _ _ h => ⟨h, hopen, Or.inr ⟨rfl, hstate⟩⟩

-- A signature that may have been dispatched is watched from here on.
theorem meets_observeSigned (hopen : operation.terminal = false)
    (hstate : operation.state = .signedNotSubmitted ∨ operation.state.inFlight) :
    Meets keccak
      (fun c => c.record = some operation ∧ (operation.state = .signedNotSubmitted → Covered operation c))
      (observeSigned operation) (fun next c => Sent next c ∧ next.terminal = false) always := by
  unfold observeSigned
  split
  · rename_i hsigned
    have hunknown : Meets keccak _ (transitionUsage operation
        (unknown "signed_recovery_observation_only" "dispatch_history_ambiguous") TransitionExtra.none)
        _ _ := meets_sent hopen rfl rfl rfl
    exact Spec.conseq hunknown (fun _ _ h => ⟨Or.inl h.1, h.2 hsigned⟩)
      (fun _ _ _ h => ⟨h.1, h.2.terminal⟩) fun _ _ _ _ => trivial
  · rename_i hsigned
    apply Spec.ret
    intro s hinv h
    exact ⟨⟨h.1, covered_of_flight hinv h.1 (hstate.resolve_left hsigned)⟩, hopen⟩

theorem meets_observesUnfenced :
    Meets keccak (Stored operation) observesUnfenced
      (fun _ => Sent operation) always := by
  apply Spec.act
  intro s a t hinv hrecord hexec
  have heq : t = _ := hexec
  rw [heq]
  exact ⟨hinv.marks (by simp) (by simp) (by simp) (by simp), hrecord, Or.inl List.mem_cons_self⟩

theorem meets_watch (hopen : operation.terminal = false) :
    Meets keccak (Sent operation)
      ((observeReceipt operation).bind fun observed =>
        if observed.2 = .absent then
          (settleUnlanded keccak observed.1 observeOnly).bind fun _ => Prog.ret ()
        else Prog.ret ()) anything always := by
  apply Spec.bind (meets_observeReceipt hopen)
  intro observed
  split
  · rename_i habsent
    by_cases hsame : observed.1 = operation
    · rw [hsame]
      apply Spec.bind (Spec.pre (meets_settleUnlanded hopen) fun _ _ h => by rw [← hsame]; exact h.1)
      exact fun _ => Spec.ret fun _ _ _ => trivial
    · exact fun s _ h => absurd (h.2 habsent) hsame
  · exact Spec.ret fun _ _ _ => trivial

theorem meets_resumeSigned (hopen : operation.terminal = false)
    (hstate : operation.state = .signedNotSubmitted ∨ operation.state.inFlight) :
    Meets keccak (Stored operation) (resumeSigned keccak operation observeOnly)
      anything always := by
  apply Meets.aside (P := Stored operation) (aside_fenceExists operation)
    fun _ _ => trivial
  intro dispatched
  split
  · apply Spec.pre _ fun _ _ h => h.1
    apply Meets.aside (P := Stored operation) (aside_signedRawTransaction operation)
      fun _ _ => trivial
    intro raw
    apply Spec.bind (Spec.pre (meets_submitAndInspect hopen) fun _ _ h => h.1)
    exact fun _ => Spec.ret fun _ _ _ => trivial
  · apply Spec.bind (M := fun _ s => s.core.record = some operation ∧
      (operation.state = .signedNotSubmitted → Covered operation s.core))
    · split
      · -- The run's own exception: from here on an unfenced signature is treated as dispatched.
        apply Spec.conseq meets_observesUnfenced (fun _ _ h => h.1)
        · exact fun _ _ _ h => ⟨h.1, fun _ => h.2⟩
        · exact fun _ _ _ h => h
      · rename_i hfenced
        apply Spec.ret
        intro s _ h
        refine ⟨h.1, ?_⟩
        intro hsigned
        apply h.2.1
        by_contra hnot
        exact hfenced ⟨hsigned, hnot⟩
    · intro _
      apply Spec.bind (meets_observeSigned hopen hstate)
      intro watched
      by_cases hwatched : watched.terminal = false
      · exact Spec.pre (meets_watch hwatched) fun _ _ h => h.1
      · exact fun s _ h => absurd h.2 hwatched

theorem meets_resumeLocked (hopen : operation.terminal = false) (hstate : operation.state ≠ .awaitingApproval) :
    Meets keccak (Stored operation) (LocalDirect.resumeLocked keccak operation observeOnly)
      anything always := by
  apply Spec.bind meets_settleNoPrivateEntry
  intro _
  apply Meets.aside (P := Stored operation) (aside_publicEffect operation)
    fun _ _ => trivial
  intro hash
  apply Spec.bind (Spec.pre (meets_bindSignature hash hopen) fun _ _ h => h.1)
  intro bound
  split
  · exact meets_refused
  · by_cases hbound : bound.terminal = false ∧
      (bound.state = .signedNotSubmitted ∨ bound.state.inFlight)
    · exact Spec.pre (meets_resumeSigned hbound.1 hbound.2) fun _ _ h => h.1
    · intro s hinv h
      apply absurd _ hbound
      refine ⟨h.2.1, ?_⟩
      rcases h.2.2 with hsigned | ⟨hsame, hstarted⟩
      · exact Or.inl hsigned
      · have hterminal := hinv.terminal bound h.1
        rw [hsame, hopen] at hterminal
        rw [hsame]
        revert hterminal hstate hstarted
        cases operation.state <;> simp [OperationState.localDirectTerminal, OperationState.inFlight]

theorem meets_resume (observeOnly : Bool) :
    Meets keccak always (resume keccak observeOnly) anything always := by
  apply Meets.aside aside_requiredOperation fun _ _ => trivial
  intro found
  split
  · exact meets_refused
  apply Spec.pre _ fun _ _ _ => trivial
  apply Meets.aside (P := always) (aside_call (h := rfl)) fun _ _ => trivial
  intro _
  apply Meets.aside aside_requiredOperation fun _ _ => trivial
  intro operation
  apply Spec.pre _ fun _ _ h => h.2
  split
  · exact meets_refused
  split
  · exact meets_finished
  split
  · exact meets_refused
  · rename_i hterminal hstate
    rw [Bool.not_eq_true] at hterminal
    exact meets_resumeLocked hterminal hstate

theorem meets_settleDispatched :
    Meets keccak always (settleDispatched keccak) anything always := by
  apply Meets.aside aside_requiredOperation fun _ _ => trivial
  intro operation
  apply Spec.pre _ fun _ _ h => h.2
  split
  · exact Spec.ret fun _ _ _ => trivial
  split
  · exact meets_refused
  · rename_i hterminal hdispatched
    rw [Bool.not_eq_true] at hterminal
    have hflight : operation.state.inFlight := by
      have hstate := fun h => hdispatched (Or.inl h)
      revert hstate
      cases operation.state <;> simp [OperationState.inFlight]
    apply Meets.aside (P := Stored operation) (aside_call (h := rfl))
      fun _ _ => trivial
    intro _
    apply Spec.pre (meets_watch hterminal)
    exact fun s hinv h => ⟨h.1, covered_of_flight hinv h.1 hflight⟩

/-! ## Abandonment, retirement and prepare -/

-- A signature without a fence is closed, and its hold released, for good.
theorem meets_abandonUndispatched (hopen : operation.terminal = false) :
    Meets keccak (fun c => c.record = some operation ∧ c.fence = none)
      (abandonUndispatched operation) anything always := by
  apply Meets.aside (P := fun c => c.record = some operation ∧ c.fence = none)
    (aside_publicEffect operation) fun _ _ => trivial
  intro hash
  apply Spec.pre _ fun _ _ h => h.1
  apply Meets.aside (P := fun c => c.record = some operation ∧ c.fence = none) (aside_call (h := rfl))
    fun _ _ => trivial
  intro _
  apply Spec.pre _ fun _ _ h => h.1
  apply Spec.bind (M := fun signed s =>
    (s.core.record = some signed ∧ s.core.fence = none) ∧ signed.terminal = false)
  · unfold bindSignature
    split
    · have hbind : Meets keccak (fun c => c.record = some operation ∧ c.fence = none)
          (transitionUsage operation
            ⟨.signedNotSubmitted, false, "same_public_signature_recovered",
              "public_native_transaction_hash"⟩
            { TransitionExtra.none with
              transactionHash := some hash
              rawTransactionHash := some hash }) _ always :=
        meets_transitionUsage (F := fun fence => fence = none) (fun _ hc => Or.inl hc.1) hopen rfl
        (fun c next hinv hc happended =>
          fits_of_unfenced hinv hc.1 hopen hc.2 (by rw [happended.state]; rfl))
        fun _ hc => hc.2
      apply Spec.conseq hbind (fun _ _ h => h)
      · exact fun signed _ _ h => ⟨h.1, h.2.terminal⟩
      · exact fun _ _ _ h => h
    · exact Spec.ret fun _ _ h => ⟨h, hopen⟩
  · intro signed
    by_cases hsigned : signed.terminal = false
    · apply Spec.pre _ fun _ _ h => h.1
      have hclose : Meets keccak (fun c => c.record = some signed ∧ c.fence = none)
          (transitionUsage signed
            ⟨.abandonedUnknown, true, "owner_abandoned_undispatched_signature",
              "owner_acknowledgement_only"⟩ TransitionExtra.none) _ always :=
        meets_transitionUsage (F := fun _ => True) (fun _ hc => Or.inl hc.1) hsigned rfl
        (fun c next hinv hc happended =>
          fits_of_unfenced hinv hc.1 hsigned hc.2 (by rw [happended.state]; rfl))
        fun _ _ => trivial
      apply Spec.bind hclose
      exact fun _ => Spec.ret fun _ _ _ => trivial
    · exact fun s _ h => absurd h.2 hsigned

theorem meets_abandonDispatched (hopen : operation.terminal = false) :
    Meets keccak (Sent operation) (abandonDispatched operation) anything always := by
  apply Meets.aside aside_now fun _ _ => trivial
  intro at'
  apply Spec.pre _ fun _ _ h => h.1
  split
  · exact meets_refused
  apply Meets.aside (P := Sent operation) (aside_ask TransferAsk.rpcConfigured) fun _ _ => trivial
  intro configured
  apply Spec.pre _ fun _ _ h => h.1
  apply Spec.bind (M := fun observed s => Sent observed s.core)
  · split
    · apply Spec.bind (meets_observeReceipt hopen)
      exact fun observed => Spec.ret fun _ _ h => h.1
    · exact Spec.ret fun _ _ h => h
  · intro observed
    split
    · exact Spec.ret fun _ _ _ => trivial
    · rename_i hobserved
      rw [Bool.not_eq_true] at hobserved
      apply Meets.aside (P := Sent observed) (aside_call (h := rfl)) fun _ _ => trivial
      intro _
      apply Spec.pre _ fun _ _ h => h.1
      apply Spec.bind (meets_observed hobserved rfl (by decide) rfl)
      exact fun _ => Spec.ret fun _ _ _ => trivial

/-- A transfer is abandoned undispatched where its fence proves that nothing was sent. -/
def Abandonable (operation : OperationRecord) (dispatched : Bool) (c : TransferCore) : Prop :=
  c.record = some operation ∧
    (dispatched = true → operation.terminal = false ∧ Covered operation c)

theorem meets_abandonLocal : Meets keccak always abandonLocal anything always := by
  apply Meets.aside aside_requiredOperation fun _ _ => trivial
  intro operation
  apply Spec.pre _ fun _ _ h => h.2
  split
  · exact Spec.ret fun _ _ _ => trivial
  apply Spec.bind (M := fun signed s => s.core.record = some operation ∧
    (signed = true → operation.terminal = false))
  · split
    · rename_i hsigned
      have hopen : operation.terminal = false := by simpa using (Bool.and_eq_true_iff.mp hsigned).1
      exact Meets.aside (P := Stored operation)
        (R := fun signed c => c.record = some operation ∧ (signed = true → operation.terminal = false))
        aside_readSigned (fun _ _ => trivial) fun _ => Spec.ret fun _ _ h => ⟨h.1, fun _ => hopen⟩
    · exact Spec.ret fun _ _ h => ⟨h, fun h => by cases h⟩
  intro signed
  by_cases hsigned : signed = true → operation.terminal = false
  swap
  · exact fun s _ h => absurd h.2 hsigned
  apply Spec.bind (M := fun dispatched s => Abandonable operation dispatched s.core)
  · apply Spec.pre _ fun _ _ h => h.1
    split
    · exact Spec.ret fun _ _ h => ⟨h, fun h => by cases h⟩
    · rename_i hdispatchable
      have hopen : operation.terminal = false := by
        simp only [Bool.or_eq_true, not_or, Bool.not_eq_true] at hdispatchable
        exact hdispatchable.1
      split
      · rename_i hflight
        apply Spec.ret
        intro s hinv h
        refine ⟨h, fun _ => ⟨hopen, covered_of_flight hinv h ?_⟩⟩
        rcases hflight with hflight | hflight <;> rw [hflight] <;> rfl
      · split
        · have hfence : Aside keccak always (fenceExists operation) _ := aside_fenceExists operation
          have hmeets := hfence.meets (P := Stored operation)
          exact Spec.conseq hmeets (fun _ _ h => h) (fun _ _ _ h => ⟨h.1, fun hd => ⟨hopen, h.2.1 hd⟩⟩)
            fun _ _ _ _ => trivial
        · exact Spec.ret fun _ _ h => ⟨h, fun h => by cases h⟩
  intro dispatched
  apply Spec.bind (M := fun fenced s => Abandonable operation dispatched s.core ∧
    (fenced = false → operation.terminal = false ∧ s.core.fence = none))
  · split
    · rename_i hundispatched
      have hopen : operation.terminal = false := hsigned (Bool.and_eq_true_iff.mp hundispatched).1
      have hfence : Aside keccak always (fenceExists operation) _ := aside_fenceExists operation
      have hmeets := hfence.meets (P := Abandonable operation dispatched)
      exact Spec.conseq hmeets (fun _ _ h => h) (fun _ _ _ h => ⟨h.1, fun hf => ⟨hopen, h.2.2 hf⟩⟩)
        fun _ _ _ _ => trivial
    · exact Spec.ret fun _ _ h => ⟨h, fun h => by cases h⟩
  intro fenced
  cases fenced with
  | false =>
    by_cases hopen : operation.terminal = false
    · exact Spec.pre (meets_abandonUndispatched hopen) fun _ _ h => ⟨h.1.1, (h.2 rfl).2⟩
    · exact fun s _ h => absurd (h.2 rfl).1 hopen
  | true =>
    cases dispatched with
    | false => exact meets_refused
    | true =>
      by_cases hopen : operation.terminal = false
      · exact Spec.pre (meets_abandonDispatched hopen) fun _ _ h => ⟨h.1.1, (h.1.2 rfl).2⟩
      · exact fun s _ h => absurd (h.1.2 rfl).1 hopen

theorem meets_retireExpired : Meets keccak always retireExpired anything always := by
  apply Meets.aside aside_requiredOperation fun _ _ => trivial
  intro operation
  apply Spec.pre _ fun _ _ h => h.2
  apply Meets.aside (P := Stored operation) aside_now fun _ _ => trivial
  intro at'
  apply Spec.pre _ fun _ _ h => h.1
  split
  · exact Spec.ret fun _ _ _ => trivial
  rename_i heligible
  simp only [not_or, not_not, Bool.not_eq_true] at heligible
  rcases heligible with ⟨_, hopen, hstate, _⟩
  apply Meets.aside (P := Stored operation) aside_readUsage fun _ _ => trivial
  intro usage
  apply Spec.pre _ fun _ _ h => h.1
  split
  · exact meets_refused
  apply Meets.aside (P := Stored operation) (aside_assertUnstarted operation)
    fun _ _ => trivial
  intro _
  apply Spec.bind (Spec.pre (meets_early (Or.inl hstate) hopen rfl rfl) fun _ _ h => h.1)
  exact fun _ => Spec.ret fun _ _ _ => trivial

theorem meets_prepareOperation (hfresh : operation.Fresh) :
    Meets keccak always (prepareOperation operation) anything always := by
  apply Meets.aside aside_find fun _ _ => trivial
  intro existing
  cases existing with
  | some existing => exact Spec.ret fun _ _ _ => trivial
  | none =>
    apply Spec.pre _ fun _ _ h => h.2
    apply Meets.aside (P := fun c => c.record = none) (aside_call (h := rfl)) fun _ _ => trivial
    intro _
    apply Spec.pre _ fun _ _ h => h.1
    have hunfenced : ∀ c, TransferInv keccak c → c.record = none →
        .observedUnfenced ∈ c.log ∨ Fits c operation := by
      intro c hinv hnone
      by_cases hseen : .observedUnfenced ∈ c.log
      · exact Or.inl hseen
      · right
        refine ⟨?_, ?_, ?_⟩
        · intro hash hfence
          rcases (hinv.charged hseen).bound hash hfence with ⟨r, hr, _⟩
          rw [hnone] at hr
          cases hr
        · rw [hfresh.state]
          intro hflight
          cases hflight
        · intro husage
          rcases (hinv.charged hseen).failed husage with ⟨r, hr, _⟩
          rw [hnone] at hr
          cases hr
    have hmay : ∀ c, TransferInv keccak c → c.record = none → MayStore operation c := by
      intro c hinv hnone
      refine ⟨?_, ?_, hunfenced c hinv hnone⟩
      · rw [hfresh.terminal, hfresh.state]
        rfl
      · intro previous hprevious
        rw [hnone] at hprevious
        cases hprevious
    have hpersist : Meets keccak (fun c => c.record = none) (persist operation) _ always :=
      meets_persist (F := fun _ => True) hmay fun _ _ => trivial
    apply Spec.bind hpersist
    intro _
    have hclaim : Aside keccak always (publicPrepare operation) anything := aside_publicPrepare operation
    have hmeets := hclaim.meets (P := always)
    exact Spec.conseq hmeets (fun _ _ _ => trivial) (fun _ _ _ _ => trivial) fun _ _ _ _ => trivial

theorem meets_transferCall {prog : TransferProg Unit} (h : TransferCall keccak prog) :
    Meets keccak always prog anything always := by
  cases h with
  | prepare operation hfresh => exact meets_prepareOperation hfresh
  | approve => exact meets_approve
  | resume observeOnly => exact meets_resume observeOnly
  | settle => exact meets_settleDispatched
  | abandon => exact meets_abandonLocal
  | retire => exact meets_retireExpired

theorem transferInv_fresh : TransferInv keccak TransferShared.fresh.core := by
  refine ⟨?_, rfl, fun _ => List.Pairwise.nil, ?_⟩
  · intro r hr
    cases hr
  · intro _
    refine ⟨?_, ?_, ?_, ?_, ?_, trivial⟩
    · intro hash hfence
      cases hfence
    · intro r hr
      cases hr
    · intro husage
      cases husage
    · intro hreleased
      cases hreleased
    · intro hash
      simp [TransferShared.fresh]

-- The invariant holds after any calls, however each ended.
theorem transferInv_run {labels : List (System.Label TransferOp TransferOp.Answer ApnError Unit)}
    {c : System.Config TransferOp TransferOp.Answer ApnError TransferShared Unit}
    (hrun : Runs.Run (TransferStep keccak) (System.idle TransferShared.fresh) labels c) :
    TransferInv keccak c.shared.core := by
  apply Discipline.invariant_of_wp (D := transferDiscipline keccak) _ _ _ transferInv_fresh hrun
  · intro p prog hcall
    exact Spec.conseq (meets_transferCall hcall) (fun _ _ _ => trivial) (fun _ _ _ _ => trivial)
      fun _ _ _ _ => trivial
  · intro p s t hinv hcrash
    have heq : t = s := hcrash
    rw [heq]
    exact ⟨hinv, fun q hq => absurd rfl hq⟩
  · intro s t _ henv
    exact henv.elim

end PaymentNode
