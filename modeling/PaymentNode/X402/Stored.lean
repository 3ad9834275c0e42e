import PaymentNode.X402.Calls

/-!
# Stored — what holds of every record that was stored

The validators as structures, what they say of a record and of the one stored over it, and the place of a
pending attempt: it is the last one, in the state of its purpose.
-/

namespace PaymentNode

open Trace

namespace X402

variable {headerHash : String → String} {o p next : X402Operation} {log older : List X402Event}

theorem check_bind {x y : Result Unit} :
    (x >>= fun _ => y) = .ok () ↔ x = .ok () ∧ y = .ok () := by
  cases x with
  | error e => simp [Bind.bind, Except.bind]
  | ok _ => simp [Bind.bind, Except.bind]

/-- What a record's state says of its other members. -/
structure Summary (o : X402Operation) : Prop where
  finished : o.terminal = true → anyPending o = false
  delivered : ∀ link, o.resultLink = some link →
    o.resultAttempt.any (deliveredBy o link.resultHash) = true
  hinted : o.settlementEvidence.isSome = true → stateSettled o = true ∨ o.transactionHint.isSome = true
  fault : summaryFault o = none
  allowed : o.resultLink.isSome = true → allowsResult o = true
  evidence : ∀ e hint, o.settlementEvidence = some e → o.transactionHint = some hint →
    (e.isState = false ∨ e.transactionHash.isSome = true) → e.transactionHash = some hint.transactionHash
  binding : ∀ hint, o.transactionHint = some hint →
    o.settlementResponse.map SettlementResponseObservation.normalized = some hint.sourceBinding
  response : ∀ hint r, o.transactionHint = some hint → o.settlementResponse = some r →
    r.normalized.transaction = hint.transactionHash

theorem validateStateSummary_iff : validateStateSummary o = .ok () ↔ Summary o := by
  unfold validateStateSummary
  simp only [corrupt_guard]
  constructor
  · rintro ⟨hfinished, hdelivered, hhinted, hrest⟩
    split at hrest
    · exact absurd hrest corrupt_ne_ok
    rename_i hfault
    simp only [corrupt_guard] at hrest
    rcases hrest with ⟨hallowed, hevidence, hbinding, hresponse, _⟩
    refine ⟨?_, ?_, ?_, hfault, ?_, ?_, ?_, ?_⟩
    · simpa using hfinished
    · intro link hlink
      rw [hlink] at hdelivered
      simpa using hdelivered
    · intro hsome
      by_contra hnot
      rw [not_or] at hnot
      exact hhinted ⟨hsome, by simpa using hnot.1, by simpa using hnot.2⟩
    · simpa using hallowed
    · intro e hint he hhint hcase
      by_contra hne
      apply hevidence
      rw [he, hhint]
      rcases hcase with hcase | hcase <;> simp [hcase, hne]
    · intro hint hhint
      rw [hhint] at hbinding
      simpa using hbinding
    · intro hint r hhint hr
      rw [hhint, hr] at hresponse
      simpa using hresponse
  · intro h
    refine ⟨?_, ?_, ?_, ?_⟩
    · rintro ⟨hterminal, hpending⟩
      rw [h.finished hterminal] at hpending
      cases hpending
    · cases hlink : o.resultLink with
      | none => simp
      | some link => simp [h.delivered link hlink]
    · rintro ⟨hsome, hstate, hhint⟩
      rcases h.hinted hsome with hs | hs
      · simp [hs] at hstate
      · simp_all
    · rw [h.fault]
      simp only [corrupt_guard]
      refine ⟨?_, ?_, ?_, ?_, trivial⟩
      · rintro ⟨hsome, hnot⟩
        simp [h.allowed hsome] at hnot
      · cases he : o.settlementEvidence with
        | none => simp
        | some e =>
          cases hhint : o.transactionHint with
          | none => simp
          | some hint =>
            simp only [Option.any_some, Bool.and_eq_true, Bool.or_eq_true, Bool.not_eq_eq_eq_not,
              Bool.not_true, decide_eq_true_eq]
            rintro ⟨hcase, hne⟩
            exact hne (h.evidence e hint he hhint hcase)
      · cases hhint : o.transactionHint with
        | none => simp
        | some hint => simp [h.binding hint hhint]
      · cases hhint : o.transactionHint with
        | none => simp
        | some hint =>
          cases hr : o.settlementResponse with
          | none => simp
          | some r => simp [h.response hint r hhint hr]

/-- `validateOperation` accepts exactly the valid records. -/
structure Valid (o : X402Operation) : Prop where
  method : o.frozen.method = .erc7710 ↔ o.frozen.delegatedMaterial = true
  notBoth : ¬ (o.frozen.providerSigner = true ∧ o.frozen.delegatedMaterial = true)
  permit2 : o.frozen.method = .permit2 →
    o.frozen.providerSigner = false ∧ o.frozen.paymentIdentifier = none
  context : (o.frozen.method = .erc7710 ∧ o.material.isSome = true) ↔ o.paymentContextHash.isSome = true
  attempts : validateAttempts o = .ok ()
  response : ∀ r, o.settlementResponse = some r → validateSettlementResponse o r = .ok ()
  settlement : ∀ e, o.settlementEvidence = some e → validateSettlementEvidence o e = .ok ()
  unused : ∀ e, o.unusedExpiryEvidence = some e → validateUnusedExpiryEvidence o e = .ok ()
  evidenceMethod : validateTransferMethodEvidence o = .ok ()
  summary : Summary o
  transitions : validateTransitions o.transitions = .ok ()

theorem whenPresent_iff {α : Type} {member : Option α} {check : α → Result Unit} :
    whenPresent member check = .ok () ↔ ∀ a, member = some a → check a = .ok () := by
  cases member <;> simp [whenPresent]

theorem validateOperation_iff : validateOperation o = .ok () ↔ Valid o := by
  unfold validateOperation
  simp only [corrupt_guard, check_bind, whenPresent_iff, validateStateSummary_iff]
  constructor
  · rintro ⟨hmethod, hpermit2, hcontext, hattempts, hresponse, hsettlement, hunused, hevidence,
      hsummary, htransitions⟩
    simp only [not_or, ne_eq, not_not, eq_iff_iff] at hmethod hcontext
    refine ⟨hmethod.1, hmethod.2, ?_, hcontext, hattempts, hresponse, hsettlement, hunused, hevidence,
      hsummary, htransitions⟩
    intro hm
    rw [not_and, not_or] at hpermit2
    exact ⟨by simpa using (hpermit2 hm).1, by simpa using (hpermit2 hm).2⟩
  · intro h
    refine ⟨?_, ?_, ?_, h.attempts, h.response, h.settlement, h.unused, h.evidenceMethod, h.summary,
      h.transitions⟩
    · rintro (hne | hboth)
      · exact hne (propext h.method)
      · exact h.notBoth hboth
    · rintro ⟨hm, hp | hi⟩
      · simp [(h.permit2 hm).1] at hp
      · simp [(h.permit2 hm).2] at hi
    · exact fun hne => hne (propext h.context)

/-- A member that was set is still the same. -/
def Retained {α : Type} (before after : Option α) : Prop := ∀ a, before = some a → after = some a

theorem frozenOnce_iff {α : Type} [DecidableEq α] {before after : Option α} :
    frozenOnce before after = true ↔ Retained before after := by
  unfold frozenOnce Retained
  cases before with
  | none => simp
  | some a => simp [eq_comm]

theorem Retained.refl {α : Type} {x : Option α} : Retained x x := fun _ h => h

theorem Retained.trans {α : Type} {x y z : Option α} (h : Retained x y) (h' : Retained y z) :
    Retained x z :=
  fun a ha => h' a (h a ha)

/-- `validateAppendOnly` accepts exactly the records that extend the stored one. -/
structure Extends (o next : X402Operation) : Prop where
  frozen : o.frozen = next.frozen
  material : Retained o.material next.material
  answer : recoveryAdvances o next = true ∨
    (Retained o.settlementResponse next.settlementResponse ∧
      Retained o.transactionHint next.transactionHint)
  settlement : Retained o.settlementEvidence next.settlementEvidence
  unused : Retained o.unusedExpiryEvidence next.unusedExpiryEvidence
  result : Retained o.resultLink next.resultLink
  receipt : Retained o.receiptLink next.receiptLink
  attempts : validateAttemptHistory o.attempts next.attempts = .ok ()
  transitions : o.transitions <:+ next.transitions
  oneMore : next.transitions.length ≤ o.transitions.length + 1

theorem validateAppendOnly_iff : validateAppendOnly o next = .ok () ↔ Extends o next := by
  have hnot : ∀ b : Bool, ¬ (!b) = true ↔ b = true := by simp
  unfold validateAppendOnly
  simp only [corrupt_guard, check_bind, not_or, not_and_or, hnot, frozenOnce_iff, decide_eq_true_eq,
    not_lt, ne_eq, not_not]
  constructor
  · rintro ⟨hfrozen, ⟨hmaterial, hanswer, hsettlement, hunused, hresult, hreceipt⟩, hattempts,
      htransitions, hlength, _⟩
    exact ⟨hfrozen, hmaterial, hanswer, hsettlement, hunused, hresult, hreceipt, hattempts,
      htransitions, hlength⟩
  · intro h
    exact ⟨h.frozen, ⟨h.material, h.answer, h.settlement, h.unused, h.result, h.receipt⟩,
      h.attempts, h.transitions, h.oneMore, trivial⟩

theorem accepted_iff : accepted log next ↔ Valid next ∧ (∀ o, record log = some o → Extends o next) ∧
    validateTerminalGraph next (resultFile log) (receiptFile log) = .ok () := by
  unfold accepted acceptsOperation
  simp only [check_bind, validateOperation_iff, whenPresent_iff, validateAppendOnly_iff]

/-! ## Along the log -/

-- What happened since the durable record was stored, the record, and what happened before.
theorem record_split (h : record log = some o) : log = current log ++ .stored o :: before log := by
  induction log with
  | nil => cases h
  | cons e log ih =>
    cases e with
    | stored next =>
      cases h
      rfl
    | began | clock | refused | resultStored | receiptStored | nonceRead | receiptRead | sent
    | answered => exact congrArg (List.cons _) (ih h)

theorem stored_suffix (h : record log = some o) : .stored o :: before log <:+ log :=
  ⟨current log, (record_split h).symm⟩

theorem lawful_stored (hlog : LawfulLog (Lawful headerHash) log) (h : .stored o :: older <:+ log) :
    accepted older o ∧ WrittenOver older o :=
  (hlog.of_suffix h).1

theorem record_lawful (hlog : LawfulLog (Lawful headerHash) log) (h : record log = some o) :
    ∃ older, .stored o :: older <:+ log ∧ accepted older o ∧ WrittenOver older o := by
  exact ⟨before log, stored_suffix h, lawful_stored hlog (stored_suffix h)⟩

theorem record_valid (hlog : LawfulLog (Lawful headerHash) log) (h : record log = some o) : Valid o := by
  rcases record_lawful hlog h with ⟨older, _, hacc, _⟩
  exact (accepted_iff.mp hacc).1

/-- What no later record takes back. -/
structure Follows (o next : X402Operation) : Prop where
  frozen : o.frozen = next.frozen
  material : Retained o.material next.material
  settlement : Retained o.settlementEvidence next.settlementEvidence
  unused : Retained o.unusedExpiryEvidence next.unusedExpiryEvidence
  result : Retained o.resultLink next.resultLink
  transitions : o.transitions <:+ next.transitions

theorem Follows.refl : Follows o o :=
  ⟨rfl, Retained.refl, Retained.refl, Retained.refl, Retained.refl, List.suffix_refl _⟩

theorem Follows.trans (h : Follows o p) (h' : Follows p next) : Follows o next :=
  ⟨h.frozen.trans h'.frozen, h.material.trans h'.material, h.settlement.trans h'.settlement,
    h.unused.trans h'.unused, h.result.trans h'.result, h.transitions.trans h'.transitions⟩

theorem Extends.follows (h : Extends o next) : Follows o next :=
  ⟨h.frozen, h.material, h.settlement, h.unused, h.result, h.transitions⟩

theorem record_of_stored (h : .stored p ∈ log) : ∃ o, record log = some o := by
  induction log with
  | nil => cases h
  | cons e log ih =>
    cases e with
    | stored next => exact ⟨next, rfl⟩
    | began | clock | refused | resultStored | receiptStored | nonceRead | receiptRead | sent
    | answered =>
      rcases List.mem_cons.mp h with heq | hmem
      · cases heq
      · exact ih hmem

-- Every record stored before is followed by the durable one.
theorem stored_follows (hlog : LawfulLog (Lawful headerHash) log) (hp : .stored p ∈ log)
    (h : record log = some o) : Follows p o := by
  induction log generalizing o with
  | nil => cases hp
  | cons e log ih =>
    cases e with
    | stored next =>
      cases h
      rcases List.mem_cons.mp hp with heq | hmem
      · cases heq
        exact Follows.refl
      · rcases record_of_stored hmem with ⟨q, hq⟩
        exact (ih hlog.2 hmem hq).trans ((accepted_iff.mp hlog.1.1).2.1 q hq).follows
    | began | clock | refused | resultStored | receiptStored | nonceRead | receiptRead | sent
    | answered =>
      rcases List.mem_cons.mp hp with heq | hmem
      · cases heq
      · exact ih hlog.2 hmem h

/-! ## The place of a pending attempt -/

/-- Only the last attempt is pending, and only in the state of its purpose. -/
structure InOrder (o : X402Operation) : Prop where
  earlier : ∀ a ∈ o.attempts.dropLast, a.phase ≠ .pending
  last : ∀ a, o.lastAttempt = some a → a.phase = .pending → o.state = purposeState a.purpose

theorem InOrder.of_attempts (h : InOrder o) (hsame : next.attempts = o.attempts)
    (hstate : ∀ a, o.lastAttempt = some a → a.phase = .pending → o.state = purposeState a.purpose →
      next.state = o.state) : InOrder next := by
  refine ⟨by rw [hsame]; exact h.earlier, ?_⟩
  intro a ha hpending
  unfold X402Operation.lastAttempt at ha
  rw [hsame] at ha
  rw [hstate a ha hpending (h.last a ha hpending)]
  exact h.last a ha hpending

-- With no attempt pending.
theorem inOrder_of_idle (h : ∀ a ∈ o.attempts, a.phase ≠ .pending) : InOrder o :=
  ⟨fun a ha => h a (List.dropLast_subset _ ha), fun a ha hpending =>
    absurd hpending (h a (List.mem_of_getLast? ha))⟩

theorem inOrder_of_terminal (hvalid : Valid o) (h : o.terminal = true) : InOrder o := by
  apply inOrder_of_idle
  intro a ha hpending
  have hnone := hvalid.summary.finished h
  unfold anyPending at hnone
  have hany : (o.attempts.any fun a => decide (a.phase = .pending)) = true :=
    List.any_eq_true.mpr ⟨a, ha, by simpa using hpending⟩
  rw [hnone] at hany
  cases hany

theorem InOrder.no_earlier (h : InOrder o) (hlast : ∀ a, o.lastAttempt = some a → a.phase ≠ .pending) :
    ∀ a ∈ o.attempts, a.phase ≠ .pending := by
  intro a ha
  cases hl : o.attempts.getLast? with
  | none =>
    rw [List.getLast?_eq_none_iff.mp hl] at ha
    cases ha
  | some last =>
    rcases List.getLast?_eq_some_iff.mp hl with ⟨init, hsplit⟩
    have hdrop : o.attempts.dropLast = init := by simp [hsplit]
    rw [hsplit, List.mem_append, List.mem_singleton] at ha
    rw [← hdrop] at ha
    rcases ha with ha | rfl
    · exact h.earlier a ha
    · exact hlast a hl

theorem attempts_of_state (hvalid : Valid o)
    (h : o.state = .awaitingApproval ∨ o.state = .authorizationMaterialPending ∨
      o.state = .authorizedNotSent) : o.attempts = [] := by
  have hfault := hvalid.summary.fault
  unfold summaryFault at hfault
  by_contra hne
  rcases h with h | h | h <;> simp [h, hne] at hfault

theorem inOrder_finished (phase : AttemptPhase) (observation : Option X402HttpObservation)
    (h : InOrder o) (hphase : phase ≠ .pending)
    (hattempts : next.attempts = finishAttempts o.attempts phase observation) : InOrder next := by
  apply inOrder_of_idle
  rw [hattempts]
  intro a ha
  unfold finishAttempts at ha
  cases hl : o.attempts.getLast? with
  | none =>
    rw [hl] at ha
    cases ha
  | some last =>
    rw [hl] at ha
    simp only [List.mem_append, List.mem_singleton] at ha
    rcases ha with ha | rfl
    · exact h.earlier a ha
    · exact hphase

theorem begins_idle {purpose : AttemptPurpose} (hvalid : Valid o) (h : InOrder o)
    (hbegins : Begins log o purpose) : ∀ a ∈ o.attempts, a.phase ≠ .pending := by
  cases hbegins with
  | first hstate _ =>
    rw [attempts_of_state hvalid (.inr (.inr hstate))]
    exact fun _ h => nomatch h
  | again hmay _ =>
    apply h.no_earlier
    intro a ha hpending
    have hstate := h.last a ha hpending
    simp only [mayResend, Bool.and_eq_true, decide_eq_true_eq] at hmay
    rw [hmay.2] at hstate
    cases hpurpose : a.purpose <;> rw [hpurpose] at hstate <;> cases hstate
  | recovery hstate _ hnone =>
    apply h.no_earlier
    intro a ha hpending
    have hplace := h.last a ha hpending
    rw [hstate] at hplace
    have hfind := List.find?_eq_none.mp hnone a (List.mem_of_getLast? ha)
    cases hpurpose : a.purpose with
    | payment =>
      rw [hpurpose] at hplace
      cases hplace
    | resultRecovery => simp [hpurpose] at hfind

theorem inOrder_begun {purpose : AttemptPurpose} {at' persistedAt : ℤ}
    (h : ∀ a ∈ o.attempts, a.phase ≠ .pending) : InOrder (begun o purpose at' persistedAt) := by
  constructor
  · intro a ha
    have hdrop : (begun o purpose at' persistedAt).attempts.dropLast = o.attempts := by simp [begun]
    rw [hdrop] at ha
    exact h a ha
  · intro a ha _
    have hawaits : Awaits (begun o purpose at' persistedAt) purpose := begun_awaits
    rcases hawaits with ⟨hstate, last, hlast, hpurpose, _⟩
    rw [hlast] at ha
    cases ha
    rw [hstate, hpurpose]

theorem ends_terminal {state : X402State} (h : Ends o state) : state.terminal = true := by
  cases h <;> rfl

-- Every receipt ends the record it was written for.
theorem receipt_terminal {receipt : X402Receipt} (hlog : LawfulLog (Lawful headerHash) log)
    (h : receiptFile log = some receipt) : receipt.terminalState.terminal = true := by
  induction log with
  | nil => cases h
  | cons e log ih =>
    cases e with
    | receiptStored written =>
      cases h
      rcases hlog.1 with ⟨o, at', _, _, _, hends, _⟩
      exact ends_terminal hends
    | began | clock | refused | resultStored | stored | nonceRead | receiptRead | sent | answered =>
      exact ih hlog.2 h

-- A write keeps a pending attempt in its place.
theorem inOrder_writes (hlog : LawfulLog (Lawful headerHash) log) (hvalid : Valid o)
    (hnext : Valid next) (h : InOrder o) (hwrites : Writes log o next) : InOrder next := by
  have hempty : ∀ n : X402Operation, n.attempts = o.attempts → o.attempts = [] → InOrder n := by
    intro n hn hnil
    apply inOrder_of_idle
    rw [hn, hnil]
    exact fun _ h => nomatch h
  cases hwrites with
  | approves _ _ hstate => exact hempty _ rfl (attempts_of_state hvalid (.inl hstate))
  | retries _ _ hstate => exact hempty _ rfl (attempts_of_state hvalid (.inr (.inl hstate)))
  | authorizes _ _ _ _ hstate => exact hempty _ rfl (attempts_of_state hvalid (.inr (.inl hstate)))
  | begins _ _ _ _ _ _ hbegins => exact inOrder_begun (begins_idle hvalid h hbegins)
  | interrupts => exact inOrder_finished _ _ h (by simp) rfl
  | observes => exact inOrder_finished _ _ h (by simp) rfl
  | contradicts =>
    rename_i paid _ _ _ _ _
    refine inOrder_finished .observed (some paid.observation) h (by simp) ?_
    split <;> rfl
  | undelivered => exact inOrder_finished _ _ h (by simp) rfl
  | settlesAttempt => exact inOrder_finished _ _ h (by simp) rfl
  | links => exact h.of_attempts rfl fun _ _ _ _ => rfl
  | proves =>
    by_cases hstate : o.state = .authorizedNotSent
    · exact hempty _ rfl (attempts_of_state hvalid (.inr (.inr hstate)))
    · refine h.of_attempts rfl fun _ _ _ _ => ?_
      exact if_neg hstate
  | expires => exact h.of_attempts rfl fun _ _ _ _ => rfl
  | delegated _ additions _ _ _ _ hadditions =>
    rcases hadditions with ⟨e, rfl⟩ | ⟨e, rfl⟩ <;> exact h.of_attempts rfl fun _ _ _ _ => rfl
  | recovers _ _ hsettled _ _ _ hnone =>
    refine h.of_attempts rfl fun a ha hpending hplace => ?_
    cases hpurpose : a.purpose with
    | payment =>
      rw [hpurpose] at hplace
      have hstate : o.state = .paidRequestPending := hplace
      have hfault := hvalid.summary.fault
      rcases Option.isSome_iff_exists.mp hsettled with ⟨e, he⟩
      simp [summaryFault, hstate, noEffectEvidence, he] at hfault
    | resultRecovery =>
      have hfind := List.find?_eq_none.mp hnone a (List.mem_of_getLast? ha)
      simp [hpurpose] at hfind
  | ends receipt hfile _ => exact inOrder_of_terminal hnext (receipt_terminal hlog hfile)

theorem fresh_inOrder (h : o.Fresh) : InOrder o := by
  apply inOrder_of_idle
  rw [h.attempts]
  exact fun _ h => nomatch h

-- In the durable record only the last attempt is pending, and only in the state of its purpose.
theorem record_inOrder (hlog : LawfulLog (Lawful headerHash) log) (h : record log = some o) :
    InOrder o := by
  induction log generalizing o with
  | nil => cases h
  | cons e log ih =>
    cases e with
    | stored next =>
      cases h
      rcases hlog with ⟨⟨hacc, hover⟩, hlog⟩
      unfold WrittenOver at hover
      cases hrecord : record log with
      | none =>
        rw [hrecord] at hover
        exact fresh_inOrder hover
      | some p =>
        rw [hrecord] at hover
        exact inOrder_writes hlog (record_valid hlog hrecord) (accepted_iff.mp hacc).1
          (ih hlog hrecord) hover.2
    | began | clock | refused | resultStored | receiptStored | nonceRead | receiptRead | sent
    | answered => exact ih hlog.2 h

end X402
end PaymentNode
