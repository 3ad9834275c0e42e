import PaymentNode.X402.Walk

/-!
# Calls — the programs walked

One specification per program, in the order of the code: transitions and terminal commits, evidence, the paid
request, and the calls.  Each starts from the open record it is given and says what is stored when it returns.
-/

namespace PaymentNode

open X402Prog Trace

namespace X402

variable {W : Type} {rules : Rules W X402Event} {headerHash : String → String} {α β : Type}
  {o next : X402Operation} {P R : List X402Event → Prop}

abbrev anyFailure (_ : X402Failure) (_ : List X402Event) : Prop := True

theorem Walks.unfailing {x : X402Prog α} {Q : α → List X402Event → Prop}
    {E : X402Failure → List X402Event → Prop} (h : Walk rules headerHash P x Q E) :
    Walk rules headerHash P x Q anyFailure :=
  h.conseq (fun _ h => h) (fun _ _ h => h) fun _ _ _ => trivial

/-! ## Transitions -/

theorem transitional_open {state : X402State} (h : transitional state = true) :
    state.terminal = false := by
  cases state <;> first | rfl | cases h

theorem walk_now {E : X402Failure → List X402Event → Prop} (hP : Trace.Kept Quiet P) :
    Walk rules headerHash P now (fun at' log => P log ∧ .clock at' ∈ current log) E := by
  apply Walks.perform
  intro log log' at' hlawful hlog heffect
  have heq : log' = .clock at' :: log := heffect
  subst heq
  exact ⟨⟨trivial, hlawful⟩, hP log (.clock at') trivial hlog, List.mem_cons_self⟩

theorem walk_transition_over (o : X402Operation) (state : X402State)
    (additions : X402Operation → X402Operation)
    (hlatest : ∀ o, (additions o).latest = o.latest) (hP : Trace.Kept Quiet P) (hR : Lasting R)
    (hwrite : ∀ log at', P log → .clock at' ∈ current log →
      Open o log ∧ R log ∧ Writes log o (additions (o.append at' state))) :
    Walk rules headerHash P (transition o state additions)
      (fun next log => (∃ at', next = additions (o.append at' state)) ∧ Open next log ∧
        current log = [] ∧ P (before log) ∧ R log) ByStore := by
  apply Walks.bind (M := fun at' log => P log ∧ .clock at' ∈ current log)
  · exact walk_now hP
  · intro at'
    cases hstate : transitional state with
    | false => exact Walks.fail fun _ _ => ⟨_, rfl⟩
    | true =>
      apply Walks.bind (M := fun _ log => record log = some (additions (o.append at' state)) ∧
        current log = [] ∧ (P (before log) ∧ .clock at' ∈ current (before log)) ∧ R log)
      · apply walk_writeOperation hR
        rintro log ⟨hlog, hclock⟩
        rcases hwrite log at' hlog hclock with ⟨hopen, hRlog, hwrites⟩
        refine ⟨hRlog, ?_⟩
        unfold WrittenOver
        rw [hopen.1]
        exact ⟨hopen.2, hwrites⟩
      · intro _
        apply Walks.ret
        rintro log ⟨hrecord, hcurrent, hbefore, hRlog⟩
        refine ⟨⟨at', rfl⟩, ⟨hrecord, ?_⟩, hcurrent, hbefore.1, hRlog⟩
        have hlast : (additions (o.append at' state)).state = state := by
          unfold X402Operation.state
          rw [hlatest]
          rfl
        unfold X402Operation.terminal
        rw [hlast]
        exact transitional_open hstate

theorem walk_transition (o : X402Operation) (state : X402State)
    (additions : X402Operation → X402Operation)
    (hlatest : ∀ o, (additions o).latest = o.latest) (hP : Trace.Kept Quiet P) (hR : Lasting R)
    (hwrite : ∀ log at', P log → .clock at' ∈ current log →
      Open o log ∧ R log ∧ Writes log o (additions (o.append at' state))) :
    Walk rules headerHash P (transition o state additions)
      (fun next log => (∃ at', next = additions (o.append at' state)) ∧ Open next log ∧
        current log = [] ∧ R log) ByStore :=
  (walk_transition_over o state additions hlatest hP hR hwrite).conseq (fun _ h => h)
    (fun _ _ h => ⟨h.1, h.2.1, h.2.2.1, h.2.2.2.2⟩) fun _ _ h => h

theorem walk_persistEvidence (o : X402Operation) (state : X402State)
    (additions : X402Operation → X402Operation)
    (hlatest : ∀ o, (additions o).latest = o.latest) (hstate : state.terminal = false)
    (hP : Trace.Kept Quiet P) (hR : Lasting R)
    (hwrite : ∀ log at', P log → .clock at' ∈ current log →
      Open o log ∧ R log ∧ Writes log o (additions (o.append at' state))) :
    Walk rules headerHash P (persistEvidence o state additions)
      (fun next log => (∃ at', next = additions (o.append at' state)) ∧ Open next log ∧ R log)
      ByStore := by
  apply Walks.bind (M := fun at' log => P log ∧ .clock at' ∈ current log)
  · exact walk_now hP
  · intro at'
    apply Walks.bind (M := fun _ log => record log = some (additions (o.append at' state)) ∧ R log)
    · apply (walk_writeOperation hR _).conseq (fun _ h => h) (fun _ _ h => ⟨h.1, h.2.2.2⟩)
        fun _ _ h => h
      rintro log ⟨hlog, hclock⟩
      rcases hwrite log at' hlog hclock with ⟨hopen, hRlog, hwrites⟩
      refine ⟨hRlog, ?_⟩
      unfold WrittenOver
      rw [hopen.1]
      exact ⟨hopen.2, hwrites⟩
    · intro _
      apply Walks.ret
      rintro log ⟨hrecord, hRlog⟩
      refine ⟨⟨at', rfl⟩, ⟨hrecord, ?_⟩, hRlog⟩
      have hlast : (additions (o.append at' state)).state = state := by
        unfold X402Operation.state
        rw [hlatest]
        rfl
      unfold X402Operation.terminal
      rw [hlast]
      exact hstate

theorem walk_commitTerminalOperation (receipt : X402Receipt) (hR : Lasting R) :
    Walk rules headerHash
      (fun log => Open o log ∧ receiptFile log = some receipt ∧
        bindsOrphanReceipt o (resultFile log) receipt = true ∧ R log)
      (commitTerminalOperation o receipt.terminalState receipt receipt.createdAt)
      (fun next log => record log = some next ∧ next.state = receipt.terminalState ∧ R log)
      anyFailure := by
  apply Walks.bind (M := fun _ log => record log = some { o.append receipt.createdAt
    receipt.terminalState with receiptLink := some receipt } ∧ R log)
  · apply Walks.unfailing
    apply (walk_writeOperation hR _).conseq (fun _ h => h) (fun _ _ h => ⟨h.1, h.2.2.2⟩)
      fun _ _ h => h
    rintro log ⟨hopen, hfile, hbinds, hRlog⟩
    refine ⟨hRlog, ?_⟩
    unfold WrittenOver
    rw [hopen.1]
    exact ⟨hopen.2, .ends receipt hfile hbinds⟩
  · intro _
    exact Walks.ret fun log h => ⟨h.1, rfl, h.2⟩

theorem peek_linkedResult : Peek rules headerHash (Open o) (linkedResult o)
    fun r log => r = o.resultLink.bind fun _ => resultFile log := by
  unfold linkedResult
  split
  · rename_i hnone
    apply Reads.ret
    intro log _
    rw [Option.isNone_iff_eq_none.mp hnone]
    rfl
  · rename_i hsome
    apply Reads.bind (peek_loadResult fun _ h => h)
    · intro r log e he h hlink
      rw [resultFile_quiet he]
      exact h hlink
    · intro r
      have hlink : o.resultLink.isSome = true := by
        cases h : o.resultLink <;> simp_all
      split
      · exact Reads.fail
      · apply Reads.ret
        rintro log ⟨_, hr⟩
        rw [hr hlink]
        rcases Option.isSome_iff_exists.mp hlink with ⟨link, hl⟩
        rw [hl]
        rfl

variable {terminalState : X402State}

theorem sealReceipt_binds {at' : ℤ} {file : Option X402Result} :
    bindsOrphanReceipt o file (sealReceipt o terminalState (o.resultLink.bind fun _ => file) at') =
      true := by
  cases h : o.resultLink <;> simp [bindsOrphanReceipt, sealReceipt]

-- The receipt is written, then the record that it ends.
theorem walk_commitTerminal (hends : Ends o terminalState) (hR : Lasting R) :
    Walk rules headerHash (OpenWith o R) (commitTerminal o terminalState)
      (fun next log => record log = some next ∧ next.state = terminalState ∧ R log) anyFailure := by
  have hkept : Trace.Kept Quiet (OpenWith o R) := kept_open.and hR.kept
  apply Walks.reads (peek_loadRecoveryReceipt (o := o) fun _ h => h) hkept (fun _ h => h.1)
    fun _ _ _ => trivial
  intro orphan
  cases orphan with
  | some receipt =>
    show Walk _ _ _ (if receipt.terminalState ≠ terminalState then _ else _) _ _
    split
    · exact Walks.fail fun _ _ => trivial
    · rename_i hsame
      have hstate : terminalState = receipt.terminalState := (not_not.mp hsame).symm
      subst hstate
      apply (walk_commitTerminalOperation _ hR).pre
      rintro log ⟨⟨hopen, hRlog⟩, hfound⟩
      exact ⟨hopen, (hfound receipt rfl).1, (hfound receipt rfl).2, hRlog⟩
  | none =>
    suffices hfresh : Walk rules headerHash (OpenWith o R) _ _ _ from
      Walks.pre hfresh fun _ h => h.1
    apply Walks.reads peek_linkedResult hkept (fun _ h => h.1) fun _ _ _ => trivial
    intro result
    apply Walks.bind (M := fun at' log => ((Open o log ∧ R log) ∧
      result = o.resultLink.bind fun _ => resultFile log) ∧ .clock at' ∈ current log)
    · apply walk_now
      apply hkept.and
      intro log e he h
      rw [resultFile_quiet he]
      exact h
    · intro at'
      apply Walks.bind (M := fun _ log => Open o log ∧
        receiptFile log = some (sealReceipt o terminalState result at') ∧
        sealReceipt o terminalState result at' =
          sealReceipt o terminalState (o.resultLink.bind fun _ => resultFile log) at' ∧ R log)
      · apply walk_writeReceipt hR
        rintro log ⟨⟨⟨hopen, hRlog⟩, hresult⟩, hclock⟩
        refine ⟨hRlog, hopen, hclock, hends, ?_⟩
        rw [hresult]
        rfl
      · intro _
        apply (walk_commitTerminalOperation (sealReceipt o terminalState result at') hR).pre
        rintro log ⟨hopen, hfile, hsealed, hRlog⟩
        refine ⟨hopen, hfile, ?_, hRlog⟩
        rw [hsealed]
        exact sealReceipt_binds

theorem walk_recoverOrphanReceipt (hR : Lasting R) :
    Walk rules headerHash (OpenWith o R) (recoverOrphanReceipt o)
      (fun r log => r = none → Open o log ∧ R log) anyFailure := by
  apply Walks.reads (peek_loadRecoveryReceipt (o := o) fun _ h => h) (kept_open.and hR.kept)
    (fun _ h => h.1) fun _ _ _ => trivial
  intro orphan
  cases orphan with
  | none => exact Walks.ret fun log h _ => h.1
  | some receipt =>
    apply Walks.bind (M := fun _ _ => True)
    · apply (walk_commitTerminalOperation _ hR).conseq _ (fun _ _ _ => trivial) fun _ _ h => h
      rintro log ⟨⟨hopen, hRlog⟩, hfound⟩
      exact ⟨hopen, (hfound receipt rfl).1, (hfound receipt rfl).2, hRlog⟩
    · exact fun terminal => Walks.ret fun _ _ h => nomatch h

/-! ## Evidence -/

/-- Neither the frozen offer nor the attempts change. -/
def SameAttempts (o next : X402Operation) : Prop :=
  next.frozen = o.frozen ∧ next.attempts = o.attempts

/-- No result recovery is under way in the state that waits for one. -/
def Idle (o : X402Operation) : Prop :=
  o.state = .sellerResultRecoveryPending →
    ¬ (o.lastAttempt.any fun a => a.purpose = .resultRecovery && a.phase = .pending) = true

theorem Idle.of_same (h : Idle o) (hsame : SameAttempts o next)
    (hstate : next.state = .sellerResultRecoveryPending → o.state = .sellerResultRecoveryPending) :
    Idle next := by
  intro hseller
  unfold X402Operation.lastAttempt
  rw [hsame.2]
  exact h (hstate hseller)

theorem idle_of_no_recovery (h : next.recoveryAttempt = none) : Idle next := by
  intro _ hlast
  rcases hl : next.lastAttempt with _ | last
  · rw [hl] at hlast
    cases hlast
  · rw [hl] at hlast
    simp only [Option.any_some, Bool.and_eq_true, decide_eq_true_eq] at hlast
    have hmem : last ∈ next.attempts := List.mem_of_getLast? hl
    have hfind := List.find?_eq_none.mp h last hmem
    simp [hlast.1] at hfind

/-- What a record becomes while its evidence is finished. -/
def Finishes (o next : X402Operation) : Prop :=
  next.terminal = false →
    SameAttempts o next ∧ next.unusedExpiryEvidence = none ∧ (Idle o → Idle next)

theorem walk_finishes (hends : Ends o terminalState) (hterminal : terminalState.terminal = true) (hR : Lasting R) :
    Walk rules headerHash (OpenWith o R) (commitTerminal o terminalState)
      (fun next log => record log = some next ∧ R log ∧ Finishes o next) anyFailure := by
  apply (walk_commitTerminal hends hR).conseq (fun _ h => h) _ fun _ _ h => h
  rintro next log ⟨hrecord, hstate, hRlog⟩
  refine ⟨hrecord, hRlog, ?_⟩
  intro hopen
  unfold X402Operation.terminal at hopen
  rw [hstate, hterminal] at hopen
  cases hopen

theorem walk_finishReconciledEvidence (hR : Lasting R) :
    Walk rules headerHash (OpenWith o R) (finishReconciledEvidence o)
      (fun next log => record log = some next ∧ R log ∧ Finishes o next) anyFailure := by
  have hkept : Trace.Kept Quiet (OpenWith o R) := kept_open.and hR.kept
  unfold finishReconciledEvidence
  split
  · rename_i hunused
    exact walk_finishes (.expired hunused) rfl hR
  rename_i hunused
  have hnone : o.unusedExpiryEvidence = none := by simpa using hunused
  have hsame : Finishes o o := fun _ => ⟨⟨rfl, rfl⟩, hnone, id⟩
  have hstay : Walk rules headerHash (OpenWith o R) (Prog.ret o)
      (fun next log => record log = some next ∧ R log ∧ Finishes o next) anyFailure :=
    Walks.ret fun log h => ⟨h.1.1, h.2, hsame⟩
  split
  · exact hstay
  rename_i hevidence
  have hsome : o.settlementEvidence.isSome = true := by
    cases h : o.settlementEvidence <;> simp_all
  split
  · exact hstay
  split
  · rename_i hlink
    exact walk_finishes (.completed hsome hnone hlink) rfl hR
  rename_i hlink
  have hunlinked : o.resultLink = none := by simpa using hlink
  split
  · rename_i hfirst
    split
    · exact hstay
    · rename_i hstate
      have hrecovery : o.recoveryAttempt = none := by simpa using hfirst.2
      apply Walks.unfailing
      apply (walk_transition o .sellerResultRecoveryPending id (fun _ => rfl) hkept hR _).conseq
        (fun _ h => h) _ fun _ _ h => h
      · rintro log at' h hclock
        exact ⟨h.1, h.2, .recovers at' hclock hsome hnone hunlinked hfirst.1 hrecovery hstate⟩
      rintro next log ⟨⟨at', rfl⟩, hopen, _, hRlog⟩
      exact ⟨hopen.1, hRlog, fun _ => ⟨⟨rfl, rfl⟩, hnone, fun _ => idle_of_no_recovery hrecovery⟩⟩
  · rename_i hfirst
    split
    · exact hstay
    · rename_i hpending
      apply walk_finishes (.withoutResult hsome hnone hunlinked _) rfl hR
      rcases hid : o.frozen.paymentIdentifier with _ | identifier
      · exact .inl hid
      · right; left
        intro hp
        exact hpending ⟨by simp [hid], hp⟩

theorem walk_recoverOrphanResult (hR : Lasting R) :
    Walk rules headerHash (OpenWith o R) (recoverOrphanResult o)
      (fun next log => Open next log ∧ R log ∧ SameAttempts o next ∧ next.state = o.state)
      anyFailure := by
  have hkept : Trace.Kept Quiet (OpenWith o R) := kept_open.and hR.kept
  unfold recoverOrphanResult
  split
  · exact Walks.ret fun log h => ⟨h.1, h.2, ⟨rfl, rfl⟩, rfl⟩
  · apply Walks.reads (peek_loadRecoveryResult (o := o) fun _ h => h) hkept (fun _ h => h.1)
      fun _ _ _ => trivial
    intro result
    cases result with
    | none => exact Walks.ret fun log h => ⟨h.1.1, h.1.2, ⟨rfl, rfl⟩, rfl⟩
    | some result =>
      show Walk _ _ _ (if _ then _ else _) _ _
      split
      · exact Walks.fail fun _ _ => trivial
      · apply Walks.unfailing
        have hfound : Trace.Kept Quiet fun log =>
            ∀ r, some result = some r → resultFile log = some r ∧ o.resultLink = none := by
          intro log e he h
          rw [resultFile_quiet he]
          exact h
        apply (walk_transition o o.state (linkResult result) (fun _ => rfl) (hkept.and hfound) hR
          _).conseq
          (fun _ h => h) _ fun _ _ h => h
        · rintro log at' ⟨⟨hopen, hRlog⟩, hresult⟩ hclock
          exact ⟨hopen, hRlog, .links at' result hclock (hresult result rfl).2 (hresult result rfl).1⟩
        · rintro next log ⟨⟨at', rfl⟩, hopen, _, hRlog⟩
          exact ⟨hopen, hRlog, ⟨rfl, rfl⟩, rfl⟩

/-! ## Results -/

theorem walk_persistAndLinkResult {result : PaidResult} {createdAt : ℤ}
    (hdelivered : Delivered o (sealResult result createdAt)) (hR : Lasting R) :
    Walk rules headerHash (OpenWith o R) (persistAndLinkResult o result createdAt)
      (fun next log => (∃ at' r, next = linkResult r (o.append at' o.state)) ∧ Open next log ∧ R log)
      anyFailure := by
  have hkept : Trace.Kept Quiet (OpenWith o R) := kept_open.and hR.kept
  have hlink : ∀ r, Walk rules headerHash
      (fun log => Open o log ∧ resultFile log = some r ∧ o.resultLink = none ∧ R log)
      (transition o o.state (linkResult r))
      (fun next log => (∃ at' r, next = linkResult r (o.append at' o.state)) ∧ Open next log ∧ R log)
      anyFailure := by
    intro r
    have hfile : Trace.Kept Quiet fun log => Open o log ∧ resultFile log = some r ∧ o.resultLink = none ∧
        R log := by
      rintro log e he ⟨hopen, hfound, hnone, hRlog⟩
      refine ⟨kept_open log e he hopen, ?_, hnone, hR.kept log e he hRlog⟩
      rw [resultFile_quiet he]
      exact hfound
    apply Walks.unfailing
    apply (walk_transition o o.state (linkResult r) (fun _ => rfl) hfile hR _).conseq
      (fun _ h => h) _ fun _ _ h => h
    · rintro log at' ⟨hopen, hfound, hnone, hRlog⟩ hclock
      exact ⟨hopen, hRlog, .links at' r hclock hnone hfound⟩
    · rintro next log ⟨⟨at', rfl⟩, hopen, _, hRlog⟩
      exact ⟨⟨at', r, rfl⟩, hopen, hRlog⟩
  apply Walks.reads (peek_loadRecoveryResult (o := o) fun _ h => h.1) hkept (fun _ h => h)
    fun _ _ _ => trivial
  intro existing
  show Walk _ _ _ (if _ then _ else _) _ _
  split
  · exact Walks.fail fun _ _ => trivial
  · cases existing with
    | some r =>
      apply Walks.bind (M := fun _ log =>
        Open o log ∧ resultFile log = some r ∧ o.resultLink = none ∧ R log)
      · apply Walks.ret
        rintro log ⟨⟨hopen, hRlog⟩, hfound⟩
        exact ⟨hopen, (hfound r rfl).1, (hfound r rfl).2, hRlog⟩
      · exact fun _ => hlink r
    | none =>
      apply Walks.bind (M := fun _ log => Open o log ∧
        resultFile log = some (sealResult result createdAt) ∧ o.resultLink = none ∧ R log)
      · apply walk_writeResult hR
        rintro log ⟨⟨hopen, hRlog⟩, _⟩
        exact ⟨hRlog, hopen, hdelivered⟩
      · exact fun _ => hlink (sealResult result createdAt)

variable {purpose : AttemptPurpose} {paid : PaidHttpResult} {raw : PaidResponse}

-- What a paid response says of the result it carries.
theorem observed_result {frozen : X402Frozen} {number : ℕ} {result : PaidResult} (createdAt : ℤ)
    (h : observePaidX402Response raw frozen number purpose = some paid) (hresult : paid.result = some result) :
    paid.observation.status = result.responseStatus ∧ paid.observation.bodyHash = result.resultHash ∧
      paid.observation.bodyByteLength = result.byteLength ∧
      paid.observation.mediaType = some result.mediaType ∧
      isResultStatus frozen (sealResult result createdAt).responseStatus = true := by
  have hkeptAsBytes : ∀ r, opaqueHttpResult raw = some r → (200 ≤ raw.status ∧ raw.status < 300) ∧
      raw.status = r.responseStatus ∧ raw.bodyHash = r.resultHash ∧ raw.bodyByteLength = r.byteLength := by
    intro r hr
    unfold opaqueHttpResult at hr
    split at hr
    · cases hr
    · rename_i hstatus
      rcases Option.map_eq_some_iff.mp hr with ⟨mediaType, _, rfl⟩
      exact ⟨by omega, rfl, rfl, rfl⟩
  have htext : ∀ r, raw.status = 200 → textHttpResult raw = some r →
      raw.status = r.responseStatus ∧ raw.bodyHash = r.resultHash ∧ raw.bodyByteLength = r.byteLength := by
    intro r hstatus hr
    rcases Option.map_eq_some_iff.mp hr with ⟨mediaType, _, rfl⟩
    exact ⟨hstatus, rfl, rfl⟩
  unfold observePaidX402Response at h
  split at h
  · cases h
  · cases h
    have hobserved : observedPaidResult raw frozen.resource.httpRequest = some result := hresult
    have hbody : (raw.status = result.responseStatus ∧ raw.bodyHash = result.resultHash ∧
        raw.bodyByteLength = result.byteLength) ∧ isResultStatus frozen raw.status = true := by
      unfold observedPaidResult at hobserved
      unfold isResultStatus
      cases hrequest : frozen.resource.httpRequest with
      | true =>
        simp only [hrequest, if_true] at hobserved
        split at hobserved
        · cases hobserved
        · rcases hkeptAsBytes result hobserved with ⟨⟨hlo, hhi⟩, hrest⟩
          exact ⟨hrest, by simp [hlo, hhi]⟩
      | false =>
        simp only [hrequest, Bool.false_eq_true, if_false] at hobserved
        split at hobserved
        · cases hobserved
        · split at hobserved
          · cases hobserved
          · rename_i hstatus
            have hok : raw.status = 200 := not_not.mp hstatus
            rcases ht : textHttpResult raw with _ | r
            · rw [ht] at hobserved
              exact ⟨(hkeptAsBytes result hobserved).2, by simp [hok]⟩
            · rw [ht] at hobserved
              cases hobserved
              exact ⟨htext result hok ht, by simp [hok]⟩
    refine ⟨hbody.1.1, hbody.1.2.1, hbody.1.2.2, ?_, ?_⟩
    · show (observedPaidResult raw frozen.resource.httpRequest).map PaidResult.mediaType = _
      rw [hobserved]
      rfl
    · show isResultStatus frozen result.responseStatus = true
      rw [← hbody.1.1]
      exact hbody.2

/-! ## Attempts -/

variable {observation : Option X402HttpObservation} {attempts : List X402Attempt}

theorem finishAttempts_length {phase : AttemptPhase} :
    (finishAttempts attempts phase observation).length = attempts.length := by
  unfold finishAttempts
  cases h : attempts.getLast? with
  | none =>
    rw [List.getLast?_eq_none_iff.mp h]
  | some last =>
    have hne : attempts ≠ [] := by
      rintro rfl
      cases h
    have hpos := List.length_pos_iff.mpr hne
    simp only [List.length_append, List.length_dropLast, List.length_singleton]
    omega

theorem finishAttempts_last {phase : AttemptPhase} {last : X402Attempt} (h : attempts.getLast? = some last) :
    (finishAttempts attempts phase observation).getLast? =
      some { last with phase := phase, observation := observation <|> last.observation } := by
  simp [finishAttempts, h]

-- What is stored for a finished attempt leaves no recovery pending.
theorem finished_not_pending {phase : AttemptPhase} (hphase : phase ≠ .pending)
    (h : next.attempts = finishAttempts attempts phase observation) : NoRecoveryPending next := by
  right; right
  intro hany
  unfold X402Operation.lastAttempt at hany
  rw [h] at hany
  rcases hl : attempts.getLast? with _ | last
  · rw [finishAttempts, hl] at hany
    cases hany
  · rw [finishAttempts_last hl] at hany
    simp only [Option.any_some, Bool.and_eq_true, decide_eq_true_eq] at hany
    exact hphase hany.2

theorem walk_finishPaidAttempt (o : X402Operation) (phase : AttemptPhase)
    (observation : Option X402HttpObservation) (state : X402State)
    (additions : X402Operation → X402Operation) (hlatest : ∀ o, (additions o).latest = o.latest)
    (hP : Trace.Kept Quiet P) (hR : Lasting R)
    (hwrite : ∀ log at', (o.lastAttempt.any fun a => a.phase = .pending) = true → P log →
      .clock at' ∈ current log →
      Open o log ∧ R log ∧ Writes log o (additions (finished o at' phase observation state))) :
    Walk rules headerHash P (finishPaidAttempt o phase observation state additions)
      (fun next log => (∃ at', next = additions (finished o at' phase observation state)) ∧
        Open next log ∧ R log) anyFailure := by
  unfold finishPaidAttempt
  split
  · exact Walks.fail fun _ _ => trivial
  · rename_i hpending
    apply Walks.unfailing
    apply (walk_transition o state
      (fun o' => additions { o' with attempts := finishAttempts o.attempts phase observation })
      (fun o' => hlatest _) hP hR fun log at' => hwrite log at' (not_not.mp hpending)).conseq
      (fun _ h => h) _ fun _ _ h => h
    rintro next log ⟨⟨at', rfl⟩, hopen, _, hRlog⟩
    exact ⟨⟨at', rfl⟩, hopen, hRlog⟩

/-- No request has gone out since the record was stored. -/
def Unsent (log : List X402Event) : Prop := ∀ p h, .sent p h ∉ current log

theorem kept_unsent : Trace.Kept Quiet Unsent := by
  intro log e he h p header hmem
  rw [current_quiet he] at hmem
  rcases List.mem_cons.mp hmem with rfl | hmem
  · exact he
  · exact h p header hmem

theorem kept_begunHere : Trace.Kept Quiet fun log => BegunHere log o purpose := by
  rintro log e he ⟨hcall, prior, at', persistedAt, hbegun, hbefore⟩
  refine ⟨?_, prior, at', persistedAt, hbegun, ?_⟩
  · rw [current_quiet he]
    intro hmem
    rcases List.mem_cons.mp hmem with rfl | hmem
    · exact he
    · exact hcall hmem
  · rw [before_quiet he]
    exact hbefore

theorem walk_beginPaidAttempt (hlength : o.attempts.length < 64) :
    Walk rules headerHash (fun log => Open o log ∧ Begins log o purpose) (beginPaidAttempt o purpose)
      (fun next log => (∃ at' persistedAt, next = begun o purpose at' persistedAt) ∧ Open next log ∧
        Unsent log ∧ BegunHere log next purpose) anyFailure := by
  have hkept : Trace.Kept Quiet fun log => Open o log ∧ Begins log o purpose :=
    kept_open.and lasting_begins.kept
  unfold beginPaidAttempt
  split
  · exact Walks.fail fun _ _ => trivial
  · apply Walks.bind (M := fun persistedAt log =>
      (Open o log ∧ Begins log o purpose) ∧ .clock persistedAt ∈ current log)
    · exact walk_now hkept
    · intro persistedAt
      apply Walks.unfailing
      apply (walk_transition_over o (purposeState purpose)
        (fun o' => { o' with attempts := o.attempts ++ [pendingAttempt o purpose persistedAt] })
        (fun _ => rfl) (hkept.and kept_mem) lasting_true _).conseq (fun _ h => h) _ fun _ _ h => h
      · rintro log at' ⟨⟨hopen, hbegins⟩, hpersisted⟩ hclock
        exact ⟨hopen, trivial, .begins at' persistedAt purpose hclock hpersisted hlength hbegins⟩
      · rintro next log ⟨⟨at', rfl⟩, hopen, hcurrent, ⟨⟨hbefore, hbegins⟩, _⟩, _⟩
        refine ⟨⟨at', persistedAt, rfl⟩, hopen, ?_, ?_, o, at', persistedAt, rfl, hbefore.1, hbegins⟩
        · intro p h
          rw [hcurrent]
          exact fun h => nomatch h
        · rw [hcurrent]
          exact fun h => nomatch h

theorem walk_markInterrupted (hR : Lasting R) :
    Walk rules headerHash (OpenWith o R) (markInterrupted o)
      (fun next log => Open next log ∧ R log ∧ Idle next) anyFailure := by
  have hkept : Trace.Kept Quiet (OpenWith o R) := kept_open.and hR.kept
  have hmark : ∀ purpose, o.state = purposeState purpose → Walk rules headerHash
      (OpenWith o R) (markInterruptedPaidAttempt o (unansweredState purpose))
      (fun next log => Open next log ∧ R log ∧ Idle next) anyFailure := by
    intro purpose hstate
    apply (walk_finishPaidAttempt o .ambiguous none (unansweredState purpose) id (fun _ => rfl) hkept
      hR _).conseq (fun _ h => h) _ fun _ _ h => h
    · rintro log at' hpending ⟨hopen, hRlog⟩ hclock
      exact ⟨hopen, hRlog, .interrupts at' purpose hclock hstate hpending⟩
    · rintro next log ⟨⟨at', rfl⟩, hopen, hRlog⟩
      refine ⟨hopen, hRlog, fun _ => ?_⟩
      intro hany
      unfold X402Operation.lastAttempt at hany
      rcases hl : o.attempts.getLast? with _ | last
      · simp [finished, finishAttempts, hl] at hany
      · simp [finished, finishAttempts_last hl] at hany
  unfold markInterrupted
  split
  · rename_i hstate
    exact hmark .payment hstate
  · split
    · rename_i hseller
      exact hmark .resultRecovery hseller.1
    · rename_i hseller
      exact Walks.ret fun log h => ⟨h.1, h.2, fun hstate hlast => hseller ⟨hstate, hlast⟩⟩

/-! ## The chain -/

theorem kept_provesUnused {r : Option StateUnusedExpiryEvidence} :
    Trace.Kept Quiet fun log => ∀ e, r = some e → ProvesUnused log o e := by
  intro log event he h e hr
  rcases h e hr with ⟨hvalid, hstate, hexpired, read, hmem, hread⟩
  exact ⟨hvalid, hstate, hexpired, read, kept_mem log event he hmem, hread⟩

variable {K : List X402Event → Prop}

theorem peek_readUnusedExpiryEvidence :
    Peek rules headerHash K (readUnusedExpiryEvidence o) fun r log =>
      ∀ e, r = some e → ProvesUnused log o e := by
  unfold readUnusedExpiryEvidence
  split
  · exact Reads.ret fun _ _ _ h => nomatch h
  · apply Reads.bind peek_assertChain fun _ => kept_const
    intro origin
    apply Reads.bind peek_nonceState fun _ => kept_mem.and kept_inCall
    intro read
    show Peek _ _ _ (if _ then _ else _) _
    split
    · exact Reads.ret fun _ _ _ h => nomatch h
    · rename_i hread
      apply Reads.ret
      rintro log ⟨_, hmem, _⟩ e he
      cases he
      simp only [not_or, Bool.not_eq_true, Bool.not_eq_eq_eq_not, Bool.not_true, Bool.not_eq_false,
        not_not] at hread
      exact ⟨rfl, rfl, hread.2.2.2, read, hmem, hread.1, hread.2.1, rfl, rfl⟩

theorem peek_matchingTransaction {safeNumber : ℕ} :
    Peek rules headerHash K (matchingTransaction o safeNumber) fun r log =>
      ∀ transaction, r = some transaction →
        ∃ receipt hint, .receiptRead receipt ∈ current log ∧ o.transactionHint = some hint ∧
          transaction = ⟨hint.transactionHash, receipt.block⟩ ∧ receipt.block.number ≤ safeNumber := by
  unfold matchingTransaction
  split
  · exact Reads.ret fun _ _ _ h => nomatch h
  · rename_i hint hhint
    apply Reads.bind peek_rpcReceipt
    · intro r log e he h receipt hr
      exact kept_mem log e he (h receipt hr)
    · intro receipt
      cases receipt with
      | none => exact Reads.ret fun _ _ _ h => nomatch h
      | some receipt =>
        apply Reads.ite
        · exact fun _ => Reads.ret fun _ _ _ h => nomatch h
        · intro hmatch
          apply Reads.ret
          rintro log ⟨_, hmem⟩ transaction ht
          cases ht
          simp only [not_or, not_lt] at hmatch
          exact ⟨receipt, hint, hmem receipt rfl, hhint, rfl, hmatch.2.2.1⟩

/-- What a reconciliation leaves of the record. -/
def Reconciles (o next : X402Operation) : Prop :=
  SameAttempts o next ∧
    (next.state = .sellerResultRecoveryPending → o.state = .sellerResultRecoveryPending)

theorem reconciles_refl : Reconciles o o := ⟨⟨rfl, rfl⟩, id⟩

theorem settledState_open {state : X402State} (h : state.terminal = false) :
    (settledState state).terminal = false := by
  unfold settledState
  split
  · rfl
  · exact h

theorem walk_proves (hterminal : o.terminal = false)
    (hmethod : o.frozen.method ≠ .erc7710) (hnone : o.settlementEvidence = none)
    (hunused : o.unusedExpiryEvidence = none) (e : StateSettlementEvidence) (hK : Trace.Kept Quiet K)
    (hR : Lasting R) (hproves : ∀ log, K log → ProvesUsed log o e) :
    Walk rules headerHash (fun log => (Open o log ∧ R log) ∧ K log)
      (persistEvidence o (settledState o.state) (withSettlement (.state e)))
      (fun next log => Open next log ∧ R log ∧ Reconciles o next) anyFailure := by
  apply Walks.unfailing
  apply (walk_persistEvidence o (settledState o.state) (withSettlement (.state e)) (fun _ => rfl)
    (settledState_open hterminal) ((kept_open.and hR.kept).and hK) hR _).conseq (fun _ h => h) _
    fun _ _ h => h
  · rintro log at' ⟨⟨hopen, hRlog⟩, hKlog⟩ hclock
    exact ⟨hopen, hRlog, .proves at' e hclock hmethod hnone hunused (hproves log hKlog)⟩
  · rintro next log ⟨⟨at', rfl⟩, hopen, hRlog⟩
    refine ⟨hopen, hRlog, ⟨rfl, rfl⟩, ?_⟩
    intro hseller
    have hstate : settledState o.state = .sellerResultRecoveryPending := hseller
    unfold settledState at hstate
    split at hstate
    · cases hstate
    · exact hstate

theorem walk_expires (hmethod : o.frozen.method ≠ .erc7710)
    (hunused : o.unusedExpiryEvidence = none) (e : StateUnusedExpiryEvidence) (hK : Trace.Kept Quiet K)
    (hR : Lasting R) (hterminal : o.terminal = false) (hproves : ∀ log, K log → ProvesUnused log o e) :
    Walk rules headerHash (fun log => (Open o log ∧ R log) ∧ K log)
      (persistEvidence o o.state (withUnused (.state e)))
      (fun next log => Open next log ∧ R log ∧ Reconciles o next) anyFailure := by
  apply Walks.unfailing
  apply (walk_persistEvidence o o.state (withUnused (.state e)) (fun _ => rfl) hterminal
    ((kept_open.and hR.kept).and hK) hR _).conseq (fun _ h => h) _ fun _ _ h => h
  · rintro log at' ⟨⟨hopen, hRlog⟩, hKlog⟩ hclock
    exact ⟨hopen, hRlog, .expires at' e hclock hmethod hunused (hproves log hKlog)⟩
  · rintro next log ⟨⟨at', rfl⟩, hopen, hRlog⟩
    exact ⟨hopen, hRlog, ⟨rfl, rfl⟩, id⟩

/-- A reconciliation answers the stored record, and whether it read the nonce unused in this call. -/
def Reconciled (o : X402Operation) (R : List X402Event → Prop) (r : X402Operation × Bool)
    (log : List X402Event) : Prop :=
  Open r.1 log ∧ R log ∧ Reconciles o r.1 ∧ (r.2 = true → ReadUnused log o.frozen.proofTag)

theorem walk_reconcileNonce (hmethod : o.frozen.method ≠ .erc7710) (hR : Lasting R) :
    Walk rules headerHash (OpenWith o R) (reconcileNonce o) (Reconciled o R)
      anyFailure := by
  have hkept : Trace.Kept Quiet (OpenWith o R) := kept_open.and hR.kept
  have hstay : ∀ K : List X402Event → Prop, Walk rules headerHash
      (fun log => (Open o log ∧ R log) ∧ K log) (Prog.ret (o, false)) (Reconciled o R) anyFailure :=
    fun K => Walks.ret fun log h => ⟨h.1.1, h.1.2, reconciles_refl, fun h => nomatch h⟩
  unfold reconcileNonce
  split
  · exact (hstay fun _ => True).pre fun _ h => ⟨h, trivial⟩
  rename_i hevidence
  have hsettled : o.settlementEvidence = none := by
    simp only [not_or] at hevidence
    simpa using hevidence.2
  have hunused : o.unusedExpiryEvidence = none := by
    simp only [not_or] at hevidence
    simpa using hevidence.1
  apply Walks.peeks peek_assertChain hkept
  intro origin
  apply Walks.peeks peek_nonceState (hkept.and kept_const)
  intro read
  show Walk _ _ _ (if _ then _ else _) _ _
  split
  · exact (hstay fun _ => True).pre fun _ h => ⟨h.1.1, trivial⟩
  rename_i hfresh
  simp only [not_or, not_not, not_lt] at hfresh
  -- From here the read is known to be of the proof tag and not behind the prepared block.
  suffices hread : o.terminal = false → Walk rules headerHash (fun log => (Open o log ∧ R log) ∧
      (.nonceRead o.frozen.proofTag read ∈ current log ∧
        .nonceRead o.frozen.proofTag read ∈ inCall log)) _ (Reconciled o R) anyFailure by
    intro s hs hP
    exact hread hP.1.1.1.2 s hs ⟨hP.1.1, hP.2⟩
  intro hterminal
  split
  · rename_i hvalue
    apply Walks.peeks peek_matchingTransaction (hkept.and (kept_mem.and kept_inCall))
    intro transaction
    apply Walks.bind (M := fun next log => Open next log ∧ R log ∧ Reconciles o next)
    · apply (walk_proves hterminal hmethod hsettled hunused
        ⟨read.block, read.block, o.frozen.proofTag, transaction⟩ (K := fun log =>
          .nonceRead o.frozen.proofTag read ∈ current log ∧ ∀ t, transaction = some t →
            ∃ receipt hint, .receiptRead receipt ∈ current log ∧ o.transactionHint = some hint ∧
              t = ⟨hint.transactionHash, receipt.block⟩ ∧ receipt.block.number ≤ read.block.number)
        _ hR _).pre
      · rintro log ⟨⟨hopen, hmem, _⟩, hmatch⟩
        exact ⟨hopen, hmem, hmatch⟩
      · apply Trace.Kept.and kept_mem
        intro log e he h t ht
        rcases h t ht with ⟨receipt, hint, hmem, hrest⟩
        exact ⟨receipt, hint, kept_mem log e he hmem, hrest⟩
      · rintro log ⟨hmem, hmatch⟩
        exact ⟨rfl, rfl, hfresh.2, ⟨read, hmem, hvalue, hfresh.1, rfl⟩, hmatch⟩
    · exact fun next => Walks.ret fun log h => ⟨h.1, h.2.1, h.2.2, fun h => nomatch h⟩
  · rename_i hvalue
    have hunusedRead : ∀ log, (.nonceRead o.frozen.proofTag read ∈ current log ∧
        .nonceRead o.frozen.proofTag read ∈ inCall log) → ReadUnused log o.frozen.proofTag :=
      fun log h => ⟨read, h.2, by simpa using hvalue, hfresh.1⟩
    apply Walks.bind (M := fun at' log => ((Open o log ∧ R log) ∧
      (.nonceRead o.frozen.proofTag read ∈ current log ∧
        .nonceRead o.frozen.proofTag read ∈ inCall log)) ∧ .clock at' ∈ current log)
    · exact walk_now (hkept.and (kept_mem.and kept_inCall))
    · intro at'
      show Walk _ _ _ (if _ then _ else _) _ _
      split
      · apply Walks.ret
        rintro log ⟨⟨hopen, hmem⟩, _⟩
        exact ⟨hopen.1, hopen.2, reconciles_refl, fun _ => hunusedRead log hmem⟩
      · have hRead : Lasting fun log => R log ∧ ReadUnused log o.frozen.proofTag :=
          hR.and lasting_readUnused
        apply Walks.pre (N := fun log => Open o log ∧ (R log ∧ ReadUnused log o.frozen.proofTag))
        · apply Walks.peeks peek_readUnusedExpiryEvidence (kept_open.and hRead.kept)
          intro unused
          cases unused with
          | none =>
            apply Walks.ret
            rintro log ⟨⟨hopen, hRlog, hmem⟩, _⟩
            exact ⟨hopen, hRlog, reconciles_refl, fun _ => hmem⟩
          | some e =>
            apply Walks.bind (M := fun next log => Open next log ∧
              (R log ∧ ReadUnused log o.frozen.proofTag) ∧ Reconciles o next)
            · exact walk_expires hmethod hunused e kept_provesUnused hRead hterminal
                fun log h => h e rfl
            · exact fun next => Walks.ret fun log h => ⟨h.1, h.2.1.1, h.2.2, fun _ => h.2.1.2⟩
        · rintro log ⟨⟨hopen, hmem⟩, _⟩
          exact ⟨hopen.1, hopen.2, hunusedRead log hmem⟩

theorem peek_optional {Φ : α → List X402Event → Prop} {x : X402Prog α} (hx : Peek rules headerHash K x Φ) :
    Peek rules headerHash K (optional x) fun _ _ => True := by
  intro P hP hK
  apply Walks.handle (F := fun _ log => P log)
  · apply Walks.bind (M := fun a log => P log ∧ Φ a log)
    · exact hx P hP hK
    · exact fun a => Walks.ret fun log h => ⟨h.1, trivial⟩
  · exact fun e => Walks.ret fun log h => ⟨h, trivial⟩

theorem walk_delegated {additions : X402Operation → X402Operation}
    (hadditions : (∃ e, additions = withSettlement (.erc7710 e)) ∨
      ∃ e, additions = withUnused (.erc7710 e))
    (hmethod : o.frozen.method = .erc7710) (hnone : o.settlementEvidence = none)
    (hunused : o.unusedExpiryEvidence = none) (hR : Lasting R) :
    Walk rules headerHash (OpenWith o R) (persistEvidence o o.state additions)
      (fun next log => Open next log ∧ R log ∧ Reconciles o next) anyFailure := by
  have hlatest : ∀ o', (additions o').latest = o'.latest := by
    rcases hadditions with ⟨e, rfl⟩ | ⟨e, rfl⟩ <;> exact fun _ => rfl
  suffices hopen : o.terminal = false → Walk rules headerHash (OpenWith o R)
      (persistEvidence o o.state additions)
      (fun next log => Open next log ∧ R log ∧ Reconciles o next) anyFailure by
    exact fun s hs hP => hopen hP.1.2 s hs hP
  intro hterminal
  apply Walks.unfailing
  apply (walk_persistEvidence o o.state additions hlatest hterminal (kept_open.and hR.kept) hR
    _).conseq (fun _ h => h) _ fun _ _ h => h
  · rintro log at' ⟨hopen, hRlog⟩ hclock
    exact ⟨hopen, hRlog, .delegated at' additions hclock hmethod hnone hunused hadditions⟩
  · rintro next log ⟨⟨at', rfl⟩, hopen, hRlog⟩
    refine ⟨hopen, hRlog, ?_⟩
    rcases hadditions with ⟨e, rfl⟩ | ⟨e, rfl⟩ <;> exact ⟨⟨rfl, rfl⟩, id⟩

theorem walk_reconcileErc7710 (hmethod : o.frozen.method = .erc7710) (hR : Lasting R) :
    Walk rules headerHash (OpenWith o R) (reconcileErc7710 o)
      (fun next log => Open next log ∧ R log ∧ Reconciles o next) anyFailure := by
  have hkept : Trace.Kept Quiet (OpenWith o R) := kept_open.and hR.kept
  have hstay : Walk rules headerHash (OpenWith o R) (Prog.ret o)
      (fun next log => Open next log ∧ R log ∧ Reconciles o next) anyFailure :=
    Walks.ret fun log h => ⟨h.1, h.2, reconciles_refl⟩
  -- A question asked on the way leaves what is known as it was.
  have hquestion : ∀ {γ δ : Type} {x : X402Prog γ} {Φ : γ → List X402Event → Prop} {f : γ → X402Prog δ}
      {Q : δ → List X402Event → Prop},
      Peek rules headerHash (OpenWith o R) x Φ →
      (∀ a, Walk rules headerHash (OpenWith o R) (f a) Q anyFailure) →
      Walk rules headerHash (OpenWith o R) (x.bind f) Q anyFailure := by
    intro γ δ x Φ f Q hx hf
    apply Walks.reads hx hkept (fun _ h => h) fun _ _ _ => trivial
    exact fun a => (hf a).pre fun _ h => h.1
  unfold reconcileErc7710
  apply Walks.ite
  · exact fun _ => hstay
  intro hevidence
  simp only [not_or] at hevidence
  have hsettled : o.settlementEvidence = none := by simpa using hevidence.1
  have hunused : o.unusedExpiryEvidence = none := by simpa using hevidence.2.1
  apply hquestion peek_assertChain
  intro origin
  apply Walks.ite
  · intro _
    unfold reconcileExpiredUnused
    apply hquestion (peek_optional peek_call)
    intro finalized
    cases finalized with
    | none => exact hstay
    | some finalized =>
      apply Walks.ite (fun _ => hstay)
      intro _
      apply hquestion (peek_optional peek_call)
      intro start
      cases start with
      | none => exact hstay
      | some start =>
        apply Walks.ite (fun _ => hstay)
        intro _
        apply hquestion peek_ask
        intro bound
        change Option TimedBlock at bound
        cases bound with
        | none => exact hstay
        | some bound =>
          apply hquestion peek_ask
          intro clear
          exact Walks.ite (fun _ => hstay) fun _ =>
            walk_delegated (.inr ⟨_, rfl⟩) hmethod hsettled hunused hR
  · intro _
    cases o.transactionHint with
    | none => exact hstay
    | some hint =>
      cases o.settlementResponse with
      | none => exact hstay
      | some response =>
        apply Walks.ite (fun _ => hstay)
        intro _
        apply hquestion peek_call
        intro safe
        apply hquestion (peek_optional peek_rpcReceipt)
        intro receipt
        rcases receipt with _ | (_ | receipt)
        · exact hstay
        · exact hstay
        apply Walks.ite (fun _ => hstay)
        intro _
        apply hquestion (peek_optional peek_call)
        intro block
        cases block with
        | none => exact hstay
        | some block =>
          exact Walks.ite (fun _ => hstay) fun _ =>
            walk_delegated (.inl ⟨_, rfl⟩) hmethod hsettled hunused hR

theorem walk_reconcileMethod (hR : Lasting R) :
    Walk rules headerHash (OpenWith o R) (reconcileMethod o) (Reconciled o R)
      anyFailure := by
  unfold reconcileMethod
  apply Walks.ite
  · intro hmethod
    apply Walks.bind (walk_reconcileErc7710 hmethod hR)
    exact fun next => Walks.ret fun log h => ⟨h.1, h.2.1, h.2.2, fun h => nomatch h⟩
  · exact fun hmethod => walk_reconcileNonce hmethod hR

theorem walk_closeExpiredUnexposed (hR : Lasting R) :
    Walk rules headerHash (OpenWith o R) (closeExpiredUnexposed o)
      (fun r log => r = none → Open o log ∧ R log) anyFailure := by
  have hkept : Trace.Kept Quiet (OpenWith o R) := kept_open.and hR.kept
  unfold closeExpiredUnexposed
  apply Walks.ite
  · exact fun _ => Walks.ret fun log h _ => h
  intro hexposed
  simp only [not_or] at hexposed
  apply Walks.bind (M := fun _ log => Open o log ∧ R log)
  · apply Walks.bind (walk_now hkept)
    exact fun _ => Walks.ret fun log h => h.1
  intro expired
  apply Walks.ite
  · exact fun _ => Walks.ret fun log h _ => h
  intro _
  have hclosed : ∀ o' : X402Operation, Walk rules headerHash (fun log => Open o' log ∧ R log)
      ((finishReconciledEvidence o').bind fun closed => Prog.ret (some closed))
      (fun r log => r = none → Open o log ∧ R log) anyFailure := by
    intro o'
    apply Walks.bind (walk_finishReconciledEvidence hR)
    exact fun closed => Walks.ret fun _ _ h => nomatch h
  apply Walks.ite
  · exact fun _ => hclosed o
  intro hunused
  have hnone : o.unusedExpiryEvidence = none := by simpa using hunused
  apply Walks.peeks peek_call hkept
  intro _
  suffices hread : Walk rules headerHash (OpenWith o R) _ _ _ from
    Walks.pre hread fun _ h => h.1
  apply Walks.bind (M := fun evidence log => (Open o log ∧ R log) ∧
    ∀ e, evidence = some e → ProvesUnused log o e)
  · apply Walks.handle (F := fun _ log => Open o log ∧ R log)
    · exact peek_readUnusedExpiryEvidence (K := fun _ => True) _ hkept fun _ _ => trivial
    · intro e
      apply Walks.ite
      · exact fun _ => Walks.ret fun log h => ⟨h, fun _ h => nomatch h⟩
      · exact fun _ => Walks.fail fun _ _ => trivial
  · intro evidence
    cases evidence with
    | none => exact Walks.ret fun log h _ => h.1
    | some e =>
      apply Walks.bind (M := fun next log => Open next log ∧ R log)
      · apply Walks.unfailing
        apply (walk_transition o o.state (withUnused (.state e)) (fun _ => rfl)
          (hkept.and kept_provesUnused) hR _).conseq (fun _ h => h) _ fun _ _ h => h
        · rintro log at' ⟨⟨hopen, hRlog⟩, hproves⟩ hclock
          exact ⟨hopen, hRlog, .expires at' e hclock hexposed.2.1 hnone (hproves e rfl)⟩
        · rintro next log ⟨_, hopen, _, hRlog⟩
          exact ⟨hopen, hRlog⟩
      · exact fun next => hclosed next

/-! ## The authorization -/

-- A call that ends in a program whose answer is not used.
theorem walk_last {x : X402Prog α} {Q : α → List X402Event → Prop} (h : Walk rules headerHash P x Q anyFailure) :
    Walk rules headerHash P (x.bind fun _ => Prog.ret ()) (fun _ _ => True) anyFailure :=
  Walks.bind h fun _ => Walks.ret fun _ _ => trivial

theorem walk_done {a : α} : Walk rules headerHash P (Prog.ret a) (fun _ _ => True) anyFailure :=
  Walks.ret fun _ _ => trivial

theorem walk_authorizes {hashes : PaymentMaterialHashes} {contextHash : Option String}
    (hstate : o.state = .authorizationMaterialPending)
    (hcontext : contextHash.isSome → o.frozen.delegatedMaterial = true) :
    Walk rules headerHash (Open o) (transition o .authorizedNotSent (withMaterial hashes contextHash))
      (fun _ _ => True) ByStore := by
  apply (walk_transition (R := fun _ => True) o .authorizedNotSent (withMaterial hashes contextHash)
    (fun _ => rfl) kept_open lasting_true _).conseq (fun _ h => h) (fun _ _ _ => trivial) fun _ _ h => h
  intro log at' hopen hclock
  exact ⟨hopen, trivial, .authorizes at' hashes contextHash hclock hstate hcontext⟩

theorem walk_ends (hends : Ends o terminalState) :
    Walk rules headerHash (Open o) ((commitTerminal o terminalState).bind fun _ => Prog.ret ())
      (fun _ _ => True) anyFailure :=
  (walk_last (walk_commitTerminal hends lasting_true)).pre fun _ h => ⟨h, trivial⟩

theorem walk_completeNative {kind : MaterialKind} (hstate : o.state = .authorizationMaterialPending) :
    Walk rules headerHash (Open o) (completeNative o kind) (fun _ _ => True) anyFailure := by
  -- Only the native call can answer that there is no authorization: the record is as it was.
  apply Walks.handle (F := fun e log => e = .nativeNotFound → Open o log)
  · apply Walks.reads (E := fun e log => e = .nativeNotFound → Open o log) peek_native kept_open
      (fun _ _ => trivial) fun _ _ h _ => h
    intro verified
    apply Walks.bind (M := fun _ _ => True)
    · apply (walk_authorizes hstate fun h => absurd h (by simp)).conseq (fun _ h => h.1) (fun _ _ _ => trivial)
      rintro e log ⟨fault, rfl⟩ h
      cases h
    · exact fun _ => Walks.ret fun _ _ => trivial
  · intro e
    apply Walks.ite
    · rintro ⟨_, rfl⟩
      apply walk_last (Q := fun _ _ => True)
      apply Walks.unfailing
      apply (walk_transition (R := fun _ => True) o .authorizationMaterialPending id (fun _ => rfl)
        kept_open lasting_true _).conseq (fun _ h => h rfl) (fun _ _ _ => trivial) fun _ _ h => h
      intro log at' hopen hclock
      exact ⟨hopen, trivial, .retries at' hclock hstate⟩
    · exact fun _ => Walks.ite (fun _ => walk_done) fun _ => Walks.fail fun _ _ => trivial

theorem walk_completeAuthorization {kind : MaterialKind}
    (hstate : o.state = .authorizationMaterialPending) :
    Walk rules headerHash (Open o) (completeAuthorization o kind) (fun _ _ => True) anyFailure := by
  unfold completeAuthorization
  apply Walks.bind (M := fun _ log => Open o log)
  · apply Walks.bind (walk_now kept_open)
    exact fun _ => Walks.ret fun log h => h.1
  intro expired
  apply Walks.ite
  · intro _
    unfold completeExpired
    apply Walks.ite
    · exact fun hprovider => walk_ends (.unauthorized hstate hprovider)
    · intro _
      exact (walk_last (walk_closeExpiredUnexposed lasting_true)).pre fun _ h => ⟨h, trivial⟩
  intro _
  apply Walks.peeks peek_call kept_open
  intro _
  apply Walks.peeks peek_call (kept_open.and kept_const)
  intro _
  suffices hopen : Walk rules headerHash (Open o) _ (fun _ _ => True) anyFailure from
    Walks.pre hopen fun _ h => h.1.1
  apply Walks.ite
  · intro hdelegated
    apply Walks.peeks peek_call kept_open
    intro _
    apply Walks.peeks peek_delegated (kept_open.and kept_const)
    intro material
    exact (walk_last (Walks.unfailing (walk_authorizes hstate fun _ => hdelegated))).pre
      fun _ h => h.1.1
  intro _
  apply Walks.ite
  · intro hprovider
    apply Walks.peeks peek_provider kept_open
    intro outcome
    suffices hopen : Walk rules headerHash (Open o) _ (fun _ _ => True) anyFailure from
      Walks.pre hopen fun _ h => h.1
    cases outcome with
    | pending => exact walk_done
    | rejected => exact walk_ends (.unauthorized hstate (.inl hprovider))
    | ambiguous => exact walk_ends (.unauthorized hstate (.inl hprovider))
    | signed material => exact walk_last (Walks.unfailing (walk_authorizes hstate fun h => absurd h (by simp)))
  · exact fun _ => walk_completeNative hstate

/-- The material carries the recorded hashes, and its header is the one they are of. -/
def Recovers (headerHash : String → String) (o : X402Operation) (material : SealedMaterial) : Prop :=
  o.paymentHeaderHash = some (headerHash material.paymentHeader)

theorem peek_checkMaterial {material : SealedMaterial} {message : String}
    (hK : ∀ log, K log → sealed headerHash material) :
    Peek rules headerHash K (checkMaterial o material message)
      fun m _ => Recovers headerHash o m := by
  unfold checkMaterial
  apply Reads.ite
  · exact fun _ => Reads.fail
  · intro hsame
    apply Reads.ret
    intro log hlog
    show o.paymentHeaderHash = some (headerHash material.paymentHeader)
    unfold X402Operation.paymentHeaderHash
    rw [← not_not.mp hsame, ← hK log hlog]
    rfl

theorem peek_recoverPaymentMaterial :
    Peek rules headerHash K (recoverPaymentMaterial o) fun r _ =>
      ∀ m, r = some m → Recovers headerHash o m := by
  have hsome : ∀ {K : List X402Event → Prop} {material : SealedMaterial} {message : String},
      (∀ log, K log → sealed headerHash material) → Peek rules headerHash K
        ((checkMaterial o material message).bind fun m => Prog.ret (some m))
        fun r _ => ∀ m, r = some m → Recovers headerHash o m := by
    intro K material message hK
    apply Reads.bind (peek_checkMaterial hK) fun _ => kept_const
    intro m
    apply Reads.ret
    rintro log ⟨_, hm⟩ m' h
    cases h
    exact hm
  unfold recoverPaymentMaterial
  apply Reads.ite
  · intro _
    apply Reads.bind (Φ := fun _ _ => True) _ fun _ => kept_const
    · intro _
      apply Reads.bind peek_delegated fun _ => kept_const
      intro verified
      exact Reads.ite (fun _ => Reads.fail) fun _ => hsome fun _ h => h.2
    · exact Reads.ite (fun _ => peek_call) fun _ => Reads.ret fun _ _ => trivial
  intro _
  apply Reads.ite
  · intro _
    apply Reads.bind peek_provider fun _ => kept_const
    intro outcome
    cases outcome with
    | signed material => exact hsome fun _ h => h.2 material rfl
    | pending => exact Reads.fail
    | rejected => exact Reads.fail
    | ambiguous => exact Reads.fail
  · intro _
    apply Reads.handle
    · apply Reads.bind peek_native fun _ => kept_const
      exact fun verified => hsome fun _ h => h.2
    · intro e
      exact Reads.ite (fun _ => Reads.ret fun _ _ _ h => nomatch h) fun _ => Reads.fail

/-! ## The paid request -/

variable {deadline : Bool}

theorem peek_timeLeft :
    Peek rules headerHash K (timeLeft o deadline) fun _ _ => True := by
  unfold timeLeft
  apply Reads.bind peek_now fun _ => kept_mem
  intro at'
  apply Reads.ite
  · exact fun _ => Reads.ret fun _ _ => trivial
  intro _
  apply Reads.ite
  · exact fun _ => Reads.ret fun _ _ => trivial
  intro _
  apply Reads.bind peek_ask fun _ => kept_const
  exact fun _ => Reads.ret fun _ _ => trivial

theorem begun_awaits {at' persistedAt : ℤ} :
    Awaits (begun o purpose at' persistedAt) purpose := by
  refine ⟨rfl, pendingAttempt o purpose persistedAt, ?_, rfl, rfl⟩
  simp [X402Operation.lastAttempt, begun]

/-- The seller's answer, when there is one. -/
def Answered (purpose : AttemptPurpose) (raw : Option PaidResponse) (log : List X402Event) : Prop :=
  ∀ answer, raw = some answer → .answered purpose answer ∈ current log

theorem walk_requestPaid {pending : X402Operation} {header : String}
    (hheader : pending.paymentHeaderHash = some (headerHash header)) :
    Walk rules headerHash
      (fun log => Open pending log ∧ Unsent log ∧ BegunHere log pending purpose)
      (requestPaid o purpose header deadline)
      (fun raw log => Open pending log ∧ Answered purpose raw log) anyFailure := by
  unfold requestPaid
  apply Walks.peeks peek_timeLeft (kept_open.and (kept_unsent.and kept_begunHere))
  intro time
  apply Walks.ite
  · exact fun _ => Walks.ret fun log h => ⟨h.1.1, fun _ h => nomatch h⟩
  · intro _
    apply (walk_sendPaid lasting_true fun log h => _).conseq (fun _ h => h)
      (fun _ _ h => ⟨h.1, h.2.2⟩) fun _ _ h => h
    rintro log ⟨⟨hopen, hunsent, hbegun⟩, _⟩
    exact ⟨trivial, hopen, hbegun, hheader, hunsent⟩

variable {terminalize : Bool}

theorem walk_endRecovery (hends : purpose = .resultRecovery → Ends o .failedSettledWithoutResult) :
    Walk rules headerHash (Open o) (endRecovery purpose terminalize o) (fun _ _ => True) anyFailure :=
  Walks.ite (fun h => walk_ends (hends h.1)) fun _ => walk_done

-- The record of a paid attempt that was answered, and what its result is.
theorem delivered_last {createdAt : ℤ} {result : PaidResult} (hlast : ∃ last, o.lastAttempt = some last)
    (hpaid : observePaidX402Response raw o.frozen o.attempts.length purpose = some paid)
    (hresult : paid.result = some result) (hfrozen : next.frozen = o.frozen)
    (hattempts : next.attempts = finishAttempts o.attempts .observed (some paid.observation))
    (hwhich : next.resultAttempt = next.lastAttempt)
    (hstate : next.state = .effectUnknown ∨ next.state = .settlementPending ∨
      next.state = .sellerResultRecoveryPending) :
    Delivered next (sealResult result createdAt) := by
  rcases hlast with ⟨last, hlast⟩
  rcases observed_result createdAt hpaid hresult with ⟨hs, hb, hl, hm, hok⟩
  refine ⟨?_, hstate⟩
  have hl' : next.lastAttempt =
      some { last with phase := .observed, observation := some paid.observation } := by
    unfold X402Operation.lastAttempt
    rw [hattempts]
    exact finishAttempts_last hlast
  rw [hwhich, hl', hfrozen, Option.any_some, hok, Bool.and_true]
  simp [observedResult, sealResult, hs, hb, hl, hm]

theorem walk_paidAmbiguous (hawaits : Awaits o purpose) (hlink : purpose = .resultRecovery → o.resultLink = none) :
    Walk rules headerHash (Open o) (paidAmbiguous o purpose terminalize) (fun _ _ => True)
      anyFailure := by
  apply Walks.bind (M := fun next log => (∃ at', next = finished o at' .ambiguous none
    (unansweredState purpose)) ∧ Open next log)
  · apply (walk_finishPaidAttempt (R := fun _ => True) o .ambiguous none (unansweredState purpose) id
      (fun _ => rfl) kept_open lasting_true _).conseq (fun _ h => h) (fun _ _ h => ⟨h.1, h.2.1⟩)
      fun _ _ h => h
    intro log at' hpending hopen hclock
    exact ⟨hopen, trivial, .interrupts at' purpose hclock hawaits.1 hpending⟩
  · intro observed
    apply Walks.assume
    rintro ⟨at', rfl⟩
    apply walk_endRecovery
    rintro rfl
    exact .unrecovered rfl (hlink rfl) (finished_not_pending (by simp) rfl)

theorem kept_paid :
    Trace.Kept Quiet fun log => Paid log o purpose paid := by
  rintro log e he ⟨hawaits, raw, hmem, hpaid⟩
  exact ⟨hawaits, raw, kept_mem log e he hmem, hpaid⟩

theorem walk_finishLinked :
    Walk rules headerHash (Open o) ((finishReconciledEvidence o).bind fun _ => Prog.ret ())
      (fun _ _ => True) anyFailure :=
  (walk_last (walk_finishReconciledEvidence lasting_true)).pre fun _ h => ⟨h, trivial⟩

theorem walk_paidWithoutSettlement (hlink : purpose = .resultRecovery → o.resultLink = none)
    (hnone : paid.paymentResponse.bind (decodePaymentResponse o.frozen) = none) (hawaits : Awaits o purpose)
    (hpaid : observePaidX402Response raw o.frozen o.attempts.length purpose = some paid) :
    Walk rules headerHash (fun log => Open o log ∧ Paid log o purpose paid)
      (paidWithoutSettlement o purpose terminalize paid) (fun _ _ => True) anyFailure := by
  apply Walks.bind (M := fun next log => (∃ at', next = finished o at' .observed
    (some paid.observation) (unansweredState purpose)) ∧ Open next log)
  · apply (walk_finishPaidAttempt (R := fun _ => True) o .observed (some paid.observation)
      (unansweredState purpose) id (fun _ => rfl) (kept_open.and kept_paid) lasting_true _).conseq
      (fun _ h => h) (fun _ _ h => ⟨h.1, h.2.1⟩) fun _ _ h => h
    rintro log at' _ ⟨hopen, hanswer⟩ hclock
    exact ⟨hopen, trivial, .observes at' purpose paid hclock hanswer hnone⟩
  intro observed
  apply Walks.assume
  rintro ⟨at', rfl⟩
  -- What is kept is the finished record, or the one with the result linked.
  apply Walks.bind (M := fun kept log => Open kept log ∧
    (kept.resultLink = none → purpose = .resultRecovery → Ends kept .failedSettledWithoutResult))
  · have hstay : Walk rules headerHash
        (Open (finished o at' .observed (some paid.observation) (unansweredState purpose)))
        (Prog.ret (finished o at' .observed (some paid.observation) (unansweredState purpose)))
        (fun kept log => Open kept log ∧ (kept.resultLink = none → purpose = .resultRecovery →
          Ends kept .failedSettledWithoutResult)) anyFailure := by
      apply Walks.ret
      intro log hopen
      refine ⟨hopen, ?_⟩
      rintro hunlinked rfl
      exact .unrecovered rfl hunlinked (finished_not_pending (by simp) rfl)
    rcases hresult : paid.result with _ | result
    · exact hstay
    · apply Walks.ite
      · intro hresponse
        rcases hawaits.2 with ⟨last, hlast, _⟩
        have hdelivered : Delivered (finished o at' .observed (some paid.observation)
            (unansweredState purpose)) (sealResult result paid.observation.observedAt) := by
          refine delivered_last ⟨last, hlast⟩ hpaid hresult rfl rfl ?_ ?_
          · unfold X402Operation.resultAttempt
            rw [Option.isNone_iff_eq_none.mp hresponse]
          · cases purpose
            · exact .inl rfl
            · exact .inr (.inr rfl)
        apply (walk_persistAndLinkResult (R := fun _ => True) hdelivered lasting_true).conseq
          (fun _ h => ⟨h, trivial⟩) _ fun _ _ h => h
        rintro next log ⟨⟨at'', r, rfl⟩, hopen, _⟩
        exact ⟨hopen, fun h => nomatch h⟩
      · exact fun _ => hstay
  intro kept
  apply Walks.ite
  · rintro ⟨hrecovery, _, _⟩
    apply Walks.ite
    · intro hunlinked
      apply Walks.pre (N := fun log => Ends kept .failedSettledWithoutResult ∧ Open kept log)
      · exact Walks.assume fun hends => walk_ends hends
      · exact fun log h => ⟨h.2 (Option.isNone_iff_eq_none.mp hunlinked) hrecovery, h.1⟩
    · exact fun _ => walk_finishLinked.pre fun _ h => h.1
  · exact fun _ => walk_done

theorem observed_number {frozen : X402Frozen} {number : ℕ}
    (h : observePaidX402Response raw frozen number purpose = some paid) :
    paid.observation.attemptNumber = number ∧ paid.observation.purpose = purpose := by
  unfold observePaidX402Response at h
  split at h
  · cases h
  · cases h
    exact ⟨rfl, rfl⟩

-- A delivering answer designates the attempt it came with.
theorem answered_resultAttempt {at' : ℤ} {decoded : DecodedPaymentResponse} {state : X402State}
    (hlast : ∃ last, o.lastAttempt = some last)
    (hpaid : observePaidX402Response raw o.frozen o.attempts.length purpose = some paid)
    (hdelivers : deliversX402Result decoded.classification = true) :
    (withAnswer (responseOf decoded paid.observation) (hintOf decoded paid.observation)
      (finished o at' .observed (some paid.observation) state)).resultAttempt =
    (withAnswer (responseOf decoded paid.observation) (hintOf decoded paid.observation)
      (finished o at' .observed (some paid.observation) state)).lastAttempt := by
  rcases hlast with ⟨last, hlast⟩
  have hne : o.attempts ≠ [] := by
    intro hnil
    unfold X402Operation.lastAttempt at hlast
    rw [hnil] at hlast
    cases hlast
  have hpos : 0 < o.attempts.length := List.length_pos_iff.mpr hne
  have hnumber : paid.observation.attemptNumber = o.attempts.length := (observed_number hpaid).1
  show (if !deliversX402Result decoded.classification then none
    else if paid.observation.attemptNumber = 0 then none
    else (finishAttempts o.attempts .observed (some paid.observation))[
      paid.observation.attemptNumber - 1]?) =
    (finishAttempts o.attempts .observed (some paid.observation)).getLast?
  rw [hdelivers, hnumber, if_neg (by simp), if_neg (by omega), List.getLast?_eq_getElem?,
    finishAttempts_length]

theorem walk_paidSettled {decoded : DecodedPaymentResponse} {operation : X402Operation}
    (hsame : operation.transactionHint = o.transactionHint ∧
      operation.settlementEvidence = o.settlementEvidence ∧
      operation.settlementResponse = o.settlementResponse) (hlink : purpose = .resultRecovery → o.resultLink = none)
    (hdecoded : paid.paymentResponse.bind (decodePaymentResponse o.frozen) = some decoded)
    (hawaits : Awaits o purpose)
    (hpaid : observePaidX402Response raw o.frozen o.attempts.length purpose = some paid) :
    Walk rules headerHash (fun log => Open o log ∧ Paid log o purpose paid)
      (paidSettled operation o purpose terminalize paid decoded) (fun _ _ => True) anyFailure := by
  have hkept : Trace.Kept Quiet fun log => Open o log ∧ Paid log o purpose paid := kept_open.and kept_paid
  have hconflict : conflictingHint operation purpose decoded.transactionHash =
      conflictingHint o purpose decoded.transactionHash := by
    unfold conflictingHint
    rw [hsame.1, hsame.2.1]
  unfold paidSettled
  apply Walks.ite
  · intro hc
    rw [hsame.2.2]
    apply walk_last (Q := fun _ _ => True)
    apply (walk_finishPaidAttempt (R := fun _ => True) o .observed (some paid.observation)
      .effectUnknown _ _ hkept lasting_true _).conseq (fun _ h => h) (fun _ _ _ => trivial)
      fun _ _ h => h
    · intro o'
      split <;> rfl
    · rintro log at' _ ⟨hopen, hanswer⟩ hclock
      exact ⟨hopen, trivial, .contradicts at' purpose paid decoded hclock hanswer hdecoded
        (hconflict ▸ hc)⟩
  intro hc
  have hagrees : conflictingHint o purpose decoded.transactionHash = false := by
    rw [← hconflict]
    simpa using hc
  apply Walks.ite
  · rintro ⟨rfl, _⟩
    apply Walks.bind (M := fun next log => Ends next .failedSettledWithoutResult ∧ Open next log)
    · cases terminalize with
      | true =>
        apply (walk_finishPaidAttempt (R := fun _ => True) o .observed (some paid.observation)
          .sellerResultRecoveryPending (withAnswer (responseOf decoded paid.observation)
          (hintOf decoded paid.observation)) (fun _ => rfl) hkept lasting_true _).conseq
          (fun _ h => h) _ fun _ _ h => h
        · rintro log at' _ ⟨hopen, hanswer⟩ hclock
          exact ⟨hopen, trivial,
            .settlesAttempt at' .resultRecovery paid decoded hclock hanswer hdecoded hagrees⟩
        · rintro next log ⟨⟨at', rfl⟩, hopen, _⟩
          exact ⟨.unrecovered rfl (hlink rfl) (finished_not_pending (by simp) rfl), hopen⟩
      | false =>
        apply (walk_finishPaidAttempt (R := fun _ => True) o .observed (some paid.observation)
          .sellerResultRecoveryPending id (fun _ => rfl) hkept lasting_true _).conseq
          (fun _ h => h) _ fun _ _ h => h
        · rintro log at' _ ⟨hopen, hanswer⟩ hclock
          exact ⟨hopen, trivial, .undelivered at' paid decoded hclock hanswer hdecoded hagrees⟩
        · rintro next log ⟨⟨at', rfl⟩, hopen, _⟩
          exact ⟨.unrecovered rfl (hlink rfl) (finished_not_pending (by simp) rfl), hopen⟩
    · intro observed
      apply Walks.assume
      exact fun hends => walk_endRecovery fun _ => hends
  intro _
  apply Walks.bind (M := fun next log => (∃ at', next = withAnswer (responseOf decoded paid.observation)
    (hintOf decoded paid.observation) (finished o at' .observed (some paid.observation)
      (answeredState purpose))) ∧ Open next log)
  · apply (walk_finishPaidAttempt (R := fun _ => True) o .observed (some paid.observation)
      (answeredState purpose) (withAnswer (responseOf decoded paid.observation)
      (hintOf decoded paid.observation)) (fun _ => rfl) hkept lasting_true _).conseq
      (fun _ h => h) (fun _ _ h => ⟨h.1, h.2.1⟩) fun _ _ h => h
    rintro log at' _ ⟨hopen, hanswer⟩ hclock
    exact ⟨hopen, trivial, .settlesAttempt at' purpose paid decoded hclock hanswer hdecoded hagrees⟩
  intro observed
  apply Walks.assume
  rintro ⟨at', rfl⟩
  rcases hd : (if deliversX402Result decoded.classification then paid.result else none) with _ | result
  · exact walk_done
  · have hdelivers : deliversX402Result decoded.classification = true := by
      by_contra hnot
      rw [if_neg hnot] at hd
      cases hd
    rw [if_pos hdelivers] at hd
    rcases hawaits.2 with ⟨last, hlast, _⟩
    apply Walks.bind (M := fun next log => Open next log)
    · apply (walk_persistAndLinkResult (R := fun _ => True) _ lasting_true).conseq
        (fun _ h => ⟨h, trivial⟩) (fun _ _ h => h.2.1) fun _ _ h => h
      refine delivered_last ⟨last, hlast⟩ hpaid hd rfl rfl ?_ ?_
      · exact answered_resultAttempt ⟨last, hlast⟩ hpaid hdelivers
      · cases purpose
        · exact .inr (.inl rfl)
        · exact .inr (.inr rfl)
    · intro linked
      exact Walks.ite (fun _ => walk_finishLinked) fun _ => walk_done

theorem walk_settlePaid {raw : Option PaidResponse}
    {at' persistedAt : ℤ} (hlink : purpose = .resultRecovery → o.resultLink = none) :
    Walk rules headerHash
      (fun log => Open (begun o purpose at' persistedAt) log ∧ Answered purpose raw log)
      (settlePaid o (begun o purpose at' persistedAt) purpose terminalize raw) (fun _ _ => True)
      anyFailure := by
  unfold settlePaid
  rcases hpaid : raw.bind (fun raw => observePaidX402Response raw o.frozen
      (begun o purpose at' persistedAt).attempts.length purpose) with _ | paid
  · exact (walk_paidAmbiguous begun_awaits hlink).pre fun _ h => h.1
  · rcases Option.bind_eq_some_iff.mp hpaid with ⟨answer, rfl, hobserved⟩
    have hanswer : ∀ log, (Open (begun o purpose at' persistedAt) log ∧
        Answered purpose (some answer) log) →
        Open (begun o purpose at' persistedAt) log ∧
          Paid log (begun o purpose at' persistedAt) purpose paid :=
      fun log h => ⟨h.1, begun_awaits, answer, h.2 answer rfl, hobserved⟩
    dsimp only
    rcases hdecoded : paid.paymentResponse.bind (decodePaymentResponse o.frozen) with _ | decoded
    · exact Walks.pre (walk_paidWithoutSettlement (o := begun o purpose at' persistedAt) hlink
        hdecoded begun_awaits hobserved) hanswer
    · exact Walks.pre (walk_paidSettled (o := begun o purpose at' persistedAt) ⟨rfl, rfl, rfl⟩ hlink
        hdecoded begun_awaits hobserved) hanswer

-- A recovery begins over a record without a result.
theorem Begins.unlinked {log : List X402Event} (h : Begins log o purpose)
    (hrecovery : purpose = .resultRecovery) : o.resultLink = none := by
  subst hrecovery
  cases h with
  | recovery _ hlink _ => exact hlink

variable {terminalize deadline : Bool}

theorem walk_sendPending {verified : SealedMaterial}
    (hverified : Recovers headerHash o verified) (hlength : o.attempts.length < 64) :
    Walk rules headerHash (fun log => Open o log ∧ Begins log o purpose)
      (sendPending o purpose verified terminalize deadline) (fun _ _ => True) anyFailure := by
  have hkept : Trace.Kept Quiet fun log => Open o log ∧ Begins log o purpose :=
    kept_open.and lasting_begins.kept
  unfold sendPending
  apply Walks.peeks peek_timeLeft hkept
  intro time
  apply Walks.ite
  · exact fun _ => walk_done
  intro _
  suffices hsend : (purpose = .resultRecovery → o.resultLink = none) →
      Walk rules headerHash (fun log => Open o log ∧ Begins log o purpose) _ (fun _ _ => True)
        anyFailure by
    intro s hs hP
    exact hsend (fun h => hP.1.2.unlinked h) s hs hP.1
  intro hlink
  apply Walks.bind (walk_beginPaidAttempt hlength)
  intro pending
  apply Walks.assume
  rintro ⟨at', persistedAt, rfl⟩
  have hpending : Trace.Kept Quiet fun log => Open (begun o purpose at' persistedAt) log ∧ Unsent log ∧
      BegunHere log (begun o purpose at' persistedAt) purpose :=
    kept_open.and (kept_unsent.and kept_begunHere)
  apply Walks.bind (M := fun _ log => Open (begun o purpose at' persistedAt) log ∧ Unsent log ∧
    BegunHere log (begun o purpose at' persistedAt) purpose)
  · apply Walks.ite
    · intro _
      exact (peek_call (K := fun _ => True) _ hpending fun _ _ => trivial).conseq (fun _ h => h)
        (fun _ _ h => h.1) fun _ _ _ => trivial
    · exact fun _ => Walks.ret fun _ h => h
  intro _
  have hheader : (begun o purpose at' persistedAt).paymentHeaderHash =
      some (headerHash verified.paymentHeader) := hverified
  apply Walks.bind (walk_requestPaid hheader)
  exact fun raw => walk_settlePaid hlink

theorem walk_sendPaidRequest {verified : SealedMaterial} (hverified : Recovers headerHash o verified) :
    Walk rules headerHash (fun log => Open o log ∧ Begins log o purpose)
      (sendPaidRequest o purpose verified terminalize deadline) (fun _ _ => True) anyFailure := by
  have hkept : Trace.Kept Quiet fun log => Open o log ∧ Begins log o purpose :=
    kept_open.and lasting_begins.kept
  unfold sendPaidRequest
  apply Walks.ite
  · exact fun _ => walk_done
  intro hlength
  apply Walks.bind (M := fun _ log => Open o log ∧ Begins log o purpose)
  · apply Walks.ite
    · intro _
      apply Walks.peeks peek_call hkept
      intro _
      exact (peek_call (K := fun _ => True) _ (hkept.and kept_const) fun _ _ => trivial).conseq
        (fun _ h => h) (fun _ _ h => h.1.1) fun _ _ _ => trivial
    · exact fun _ => Walks.ret fun _ h => h
  intro _
  apply Walks.handle (walk_sendPending hverified (not_le.mp hlength))
  intro e
  exact Walks.ite (fun _ => walk_done) fun _ => Walks.fail fun _ _ => trivial

/-! ## The calls -/

theorem walk_withOperationLock {callback : X402Operation → X402Prog Unit}
    (hcallback : ∀ o, Walk rules headerHash (fun log => record log = some o) (callback o)
      (fun _ _ => True) anyFailure) :
    Walk rules headerHash (fun _ => True) (withOperationLock callback) (fun _ _ => True) anyFailure := by
  unfold withOperationLock
  apply Walks.bind (M := fun _ _ => True)
  · apply Walks.run (h := rfl)
    intro log log' answer hlawful _ heffect
    rcases heffect with ⟨rfl, rfl⟩ | ⟨⟨e, rfl⟩, rfl⟩
    · exact ⟨⟨trivial, hlawful⟩, trivial⟩
    · exact ⟨hlawful, trivial⟩
  intro _
  apply Walks.peeks peek_loaded kept_const
  intro current
  cases current with
  | none => exact Walks.fail fun _ _ => trivial
  | some o =>
    apply Walks.bind (M := fun _ _ => True)
    · exact (hcallback o).pre fun _ h => h.2.symm
    · intro _
      exact (peek_call (K := fun _ => True) _ kept_const fun _ _ => trivial).conseq (fun _ h => h)
        (fun _ _ _ => trivial) fun _ _ _ => trivial

-- A callback that ends at once over an ended record needs to be walked for open ones only.
theorem walk_openOnly {x : X402Prog Unit} (h : o.terminal = false →
    Walk rules headerHash (Open o) x (fun _ _ => True) anyFailure) :
    Walk rules headerHash (fun log => record log = some o)
      (if o.terminal then Prog.ret () else x) (fun _ _ => True) anyFailure := by
  apply Walks.ite
  · exact fun _ => walk_done
  · intro hterminal
    have hopen : o.terminal = false := by simpa using hterminal
    exact (h hopen).pre fun _ hrecord => ⟨hrecord, hopen⟩

theorem walk_approveCurrent :
    Walk rules headerHash (fun log => record log = some o) (approveCurrent o) (fun _ _ => True)
      anyFailure := by
  apply walk_openOnly
  intro _
  apply Walks.ite
  · exact fun _ => Walks.fail fun _ _ => trivial
  intro hawaiting
  have hstate : o.state = .awaitingApproval := not_not.mp hawaiting
  apply Walks.bind (M := fun _ log => Open o log)
  · apply Walks.bind (walk_now kept_open)
    exact fun _ => Walks.ret fun log h => h.1
  intro expired
  apply Walks.ite
  · exact fun _ => walk_ends (.unapproved hstate)
  intro _
  apply Walks.peeks peek_call kept_open
  intro _
  apply Walks.peeks peek_call (kept_open.and kept_const)
  intro _
  apply Walks.bind (M := fun next log => (∃ at', next = o.append at' .authorizationMaterialPending) ∧
    Open next log)
  · apply Walks.unfailing
    apply (walk_transition (R := fun _ => True) o .authorizationMaterialPending id (fun _ => rfl)
      kept_open lasting_true _).conseq (fun _ h => h.1.1) (fun _ _ h => ⟨h.1, h.2.1⟩) fun _ _ h => h
    intro log at' hopen hclock
    exact ⟨hopen, trivial, .approves at' hclock hstate⟩
  intro pending
  apply Walks.assume
  rintro ⟨at', rfl⟩
  exact walk_completeAuthorization rfl

-- Material is recovered, and the request sent with it.
theorem walk_sendRecovered :
    Walk rules headerHash (fun log => Open o log ∧ Begins log o purpose)
      ((recoverPaymentMaterial o).bind fun verified =>
        match verified with
        | none => Prog.ret ()
        | some verified => sendPaidRequest o purpose verified terminalize deadline)
      (fun _ _ => True) anyFailure := by
  apply Walks.peeks peek_recoverPaymentMaterial (kept_open.and lasting_begins.kept)
  intro verified
  cases verified with
  | none => exact walk_done
  | some verified =>
    apply Walks.pre (N := fun log => Recovers headerHash o verified ∧ Open o log ∧ Begins log o purpose)
    · exact Walks.assume fun hverified => walk_sendPaidRequest hverified
    · exact fun log h => ⟨h.2 verified rfl, h.1⟩

/-- What `proceed` starts from: the record is idle, and the nonce was read as the flag says. -/
def Ready (o : X402Operation) (unusedAtSafe : Bool) (log : List X402Event) : Prop :=
  Open o log ∧ (unusedAtSafe = true → ReadUnused log o.frozen.proofTag)

theorem kept_ready {unusedAtSafe : Bool} : Trace.Kept Quiet (Ready o unusedAtSafe) :=
  fun log e he h => ⟨kept_open log e he h.1, fun hu => lasting_readUnused.kept log e he (h.2 hu)⟩

theorem walk_sendFirst {unusedAtSafe deadline : Bool} (hstate : o.state = .authorizedNotSent) :
    Walk rules headerHash (Ready o unusedAtSafe) (sendFirst o unusedAtSafe deadline) (fun _ _ => True)
      anyFailure := by
  unfold sendFirst
  apply Walks.bind (M := fun expired log => (expired = true → o.frozen.method = .erc7710) ∧
    Ready o unusedAtSafe log)
  · apply Walks.ite
    · intro hmethod
      apply Walks.bind (walk_now kept_ready)
      exact fun _ => Walks.ret fun log h => ⟨fun _ => hmethod, h.1⟩
    · exact fun _ => Walks.ret fun log h => ⟨(fun h => nomatch h), h⟩
  intro expired
  apply Walks.assume
  intro hmethod
  apply Walks.ite
  · intro hexpired
    exact (walk_ends (.unexposed hstate (hmethod hexpired))).pre fun _ h => h.1
  intro _
  apply Walks.ite
  · exact fun _ => walk_done
  · intro hread
    apply walk_sendRecovered.pre
    rintro log ⟨hopen, hunused⟩
    refine ⟨hopen, .first hstate fun hm => hunused ?_⟩
    by_contra hnot
    exact hread ⟨hm, by simpa using hnot⟩

theorem walk_recoverSellerResult (hstate : o.state = .sellerResultRecoveryPending) (hidle : Idle o) :
    Walk rules headerHash (Open o) (recoverSellerResult o deadline) (fun _ _ => True) anyFailure := by
  unfold recoverSellerResult
  apply Walks.ite
  · exact fun _ => walk_finishLinked
  intro hlink
  have hunlinked : o.resultLink = none := by simpa using hlink
  apply Walks.bind (M := fun _ log => Open o log)
  · apply Walks.bind (walk_now kept_open)
    exact fun _ => Walks.ret fun log h => h.1
  intro expired
  apply Walks.ite
  · exact fun _ => walk_ends (.unrecovered hstate hunlinked (.inr (.inr (hidle hstate))))
  intro _
  apply Walks.ite
  · exact fun _ => walk_done
  intro hpending
  apply Walks.ite
  · exact fun _ => walk_ends (.unrecovered hstate hunlinked (.inr (.inl hpending)))
  · intro hattempt
    apply walk_sendRecovered.pre
    exact fun log hopen => ⟨hopen, .recovery hstate hunlinked (by simpa using hattempt)⟩

theorem walk_proceed {unusedAtSafe deadline : Bool} (hidle : Idle o) :
    Walk rules headerHash (Ready o unusedAtSafe) (proceed o unusedAtSafe deadline) (fun _ _ => True)
      anyFailure := by
  unfold proceed
  apply Walks.ite
  · exact fun hstate => walk_sendFirst hstate
  intro _
  apply Walks.ite
  · exact fun hstate => (walk_recoverSellerResult hstate hidle).pre fun _ h => h.1
  intro _
  apply Walks.ite
  · intro hmay
    have hunused : unusedAtSafe = true := by
      simp only [mayResend, Bool.and_eq_true] at hmay
      exact hmay.1.1.1.2
    subst hunused
    apply walk_sendRecovered.pre
    exact fun log h => ⟨h.1, .again hmay (h.2 rfl)⟩
  · exact fun _ => walk_done

theorem walk_reconcileOrReload (hR : Lasting R) :
    Walk rules headerHash (OpenWith o R) (reconcileOrReload o)
      (fun r log => ∀ found, r = some found → Reconciled o R found log) anyFailure := by
  apply Walks.handle (F := fun _ _ => True)
  · apply Walks.bind (walk_reconcileMethod hR)
    intro found
    apply Walks.ret
    intro log h found' heq
    cases heq
    exact h
  · intro e
    apply Walks.ite
    · intro _
      apply Walks.peeks peek_loaded kept_const
      intro durable
      cases durable with
      | none => exact Walks.fail fun _ _ => trivial
      | some durable => exact Walks.ret fun _ _ _ h => nomatch h
    · exact fun _ => Walks.fail fun _ _ => trivial

theorem peek_outOfTime :
    Peek rules headerHash K (outOfTime deadline) fun _ _ => True :=
  Reads.ite (fun _ => peek_ask.mono (fun _ h => h) fun _ _ _ => trivial) fun _ =>
    Reads.ret fun _ _ => trivial

theorem walk_resumeObserved (hidle : Idle o) :
    Walk rules headerHash (Open o) (resumeObserved o deadline) (fun _ _ => True) anyFailure := by
  unfold resumeObserved
  apply Walks.bind (M := fun r log => r = none → Open o log)
  · exact (walk_closeExpiredUnexposed lasting_true).conseq (fun _ h => ⟨h, trivial⟩)
      (fun _ _ h hr => (h hr).1) fun _ _ h => h
  intro closed
  apply Walks.ite
  · exact fun _ => walk_done
  intro hclosed
  suffices hgo : Walk rules headerHash (Open o) _ (fun _ _ => True) anyFailure from
    Walks.pre hgo fun _ h => h (by simpa using hclosed)
  apply Walks.peeks peek_outOfTime kept_open
  intro late
  change Bool at late
  apply Walks.ite
  · exact fun _ => walk_done
  intro _
  apply Walks.peeks peek_call (kept_open.and kept_const)
  intro _
  apply Walks.bind
  · exact (walk_reconcileOrReload lasting_true).pre fun _ h => ⟨h.1.1, trivial⟩
  intro reconciled
  rcases reconciled with _ | ⟨next, unusedAtSafe⟩
  · exact walk_done
  apply Walks.pre (N := fun log => Reconciles o next ∧ (Open next log ∧
    (unusedAtSafe = true → ReadUnused log o.frozen.proofTag)))
  · apply Walks.assume
    intro hsame
    have hread : Lasting fun log => unusedAtSafe = true → ReadUnused log o.frozen.proofTag :=
      fun log e he h hu => lasting_readUnused log e he (h hu)
    apply Walks.bind (walk_finishReconciledEvidence hread)
    intro finishedRecord
    apply Walks.ite
    · exact fun _ => walk_done
    · intro hterminal
      have hopen : finishedRecord.terminal = false := by simpa using hterminal
      apply Walks.pre (N := fun log => Finishes next finishedRecord ∧ Ready finishedRecord unusedAtSafe log)
      · apply Walks.assume
        intro hfinishes
        exact walk_proceed ((hfinishes hopen).2.2 (hidle.of_same hsame.1 hsame.2))
      · rintro log ⟨hrecord, hreadlog, hfinishes⟩
        refine ⟨hfinishes, ⟨hrecord, hopen⟩, ?_⟩
        rw [(hfinishes hopen).1.1, hsame.1.1]
        exact hreadlog
  · intro log h
    rcases h (next, unusedAtSafe) rfl with ⟨hopen, _, hsame, hread⟩
    exact ⟨hsame, hopen, hread⟩

-- The record after an interrupted attempt, an orphan result and finished evidence.
theorem walk_settled {x : X402Operation → X402Prog Unit}
    (hx : ∀ next, Idle next → Walk rules headerHash (Open next) (x next) (fun _ _ => True) anyFailure)
    (hidle : Idle o) :
    Walk rules headerHash (Open o)
      ((recoverOrphanResult o).bind fun operation =>
        (finishReconciledEvidence operation).bind fun operation =>
          if operation.terminal then Prog.ret () else x operation)
      (fun _ _ => True) anyFailure := by
  apply Walks.bind
  · exact (walk_recoverOrphanResult lasting_true).pre fun _ h => ⟨h, trivial⟩
  intro linked
  apply Walks.pre (N := fun log => (SameAttempts o linked ∧ linked.state = o.state) ∧
    (Open linked log ∧ True))
  · apply Walks.assume
    rintro ⟨hsame, hstate⟩
    apply Walks.bind (walk_finishReconciledEvidence lasting_true)
    intro next
    apply Walks.ite
    · exact fun _ => walk_done
    · intro hterminal
      have hopen : next.terminal = false := by simpa using hterminal
      apply Walks.pre (N := fun log => Finishes linked next ∧ Open next log)
      · apply Walks.assume
        intro hfinishes
        exact hx next ((hfinishes hopen).2.2 (hidle.of_same hsame fun h => hstate ▸ h))
      · exact fun log h => ⟨h.2.2, h.1, hopen⟩
  · exact fun log h => ⟨⟨h.2.2.1, h.2.2.2⟩, h.1, trivial⟩

theorem walk_resumeCurrent :
    Walk rules headerHash (fun log => record log = some o) (resumeCurrent deadline o)
      (fun _ _ => True) anyFailure := by
  apply walk_openOnly
  intro _
  apply Walks.bind (M := fun r log => r = none → Open o log)
  · exact (walk_recoverOrphanReceipt lasting_true).conseq (fun _ h => ⟨h, trivial⟩)
      (fun _ _ h hr => (h hr).1) fun _ _ h => h
  intro recovered
  apply Walks.ite
  · exact fun _ => walk_done
  intro hrecovered
  suffices hgo : Walk rules headerHash (Open o) _ (fun _ _ => True) anyFailure from
    Walks.pre hgo fun _ h => h (by simpa using hrecovered)
  apply Walks.ite
  · exact fun _ => Walks.fail fun _ _ => trivial
  intro _
  apply Walks.ite
  · exact fun hstate => walk_completeAuthorization hstate
  intro _
  apply Walks.bind
  · exact (walk_markInterrupted lasting_true).pre fun _ h => ⟨h, trivial⟩
  intro marked
  apply Walks.pre (N := fun log => Idle marked ∧ Open marked log)
  · exact Walks.assume fun hidle => walk_settled (fun _ hnext => walk_resumeObserved hnext) hidle
  · exact fun log h => ⟨h.2.2, h.1⟩

theorem peek_beginWait :
    Peek rules headerHash K (beginWait o) fun _ _ => True := by
  unfold beginWait
  apply Reads.ite
  · exact fun _ => Reads.fail
  intro _
  apply Reads.bind peek_ask fun _ => kept_const
  intro late
  change Bool at late
  apply Reads.ite
  · exact fun _ => Reads.ret fun _ _ => trivial
  intro _
  apply Reads.bind peek_call fun _ => kept_const
  intro _
  apply Reads.bind peek_assertChain fun _ => kept_const
  exact fun _ => Reads.ret fun _ _ => trivial

theorem walk_observeOnly :
    Walk rules headerHash (Open o) (observeOnly o) (fun _ _ => True) anyFailure := by
  apply Walks.handle (F := fun _ _ => True)
  · apply Walks.bind
    · exact (walk_reconcileMethod lasting_true).pre fun _ h => ⟨h, trivial⟩
    · intro reconciled
      exact walk_finishLinked.pre fun _ h => h.1
  · exact fun e => Walks.ite (fun _ => walk_done) fun _ => Walks.fail fun _ _ => trivial

theorem walk_reconcileCurrent :
    Walk rules headerHash (fun log => record log = some o) (reconcileCurrent o) (fun _ _ => True)
      anyFailure := by
  apply walk_openOnly
  intro _
  apply Walks.bind (M := fun r log => r = none → Open o log)
  · exact (walk_recoverOrphanReceipt lasting_true).conseq (fun _ h => ⟨h, trivial⟩)
      (fun _ _ h hr => (h hr).1) fun _ _ h => h
  intro recovered
  apply Walks.ite
  · exact fun _ => walk_done
  intro hrecovered
  suffices hgo : Walk rules headerHash (Open o) _ (fun _ _ => True) anyFailure from
    Walks.pre hgo fun _ h => h (by simpa using hrecovered)
  apply Walks.bind
  · exact (walk_recoverOrphanResult lasting_true).pre fun _ h => ⟨h, trivial⟩
  intro linked
  apply Walks.bind
  · exact (walk_finishReconciledEvidence lasting_true).pre fun _ h => ⟨h.1, trivial⟩
  intro next
  apply Walks.ite
  · exact fun _ => walk_done
  intro hterminal
  have hopen : next.terminal = false := by simpa using hterminal
  suffices hread : Walk rules headerHash (Open next) _ (fun _ _ => True) anyFailure from
    Walks.pre hread fun _ h => ⟨h.1, hopen⟩
  apply Walks.peeks peek_ask kept_open
  intro late
  change Bool at late
  apply Walks.ite
  · exact fun _ => walk_done
  intro _
  apply Walks.peeks peek_call (kept_open.and kept_const)
  exact fun _ => walk_observeOnly.pre fun _ h => h.1.1

/-- **Every call leaves a lawful log**, whatever the world answers. -/
theorem walk_call {prog : X402Prog Unit} (h : X402Call prog) :
    Walk rules headerHash (fun _ => True) prog (fun _ _ => True) anyFailure := by
  cases h with
  | prepare operation hfresh =>
    apply Walks.peeks peek_loaded kept_const
    intro existing
    apply Walks.ite
    · exact fun _ => walk_done
    · intro hnone
      apply Walks.unfailing
      apply (walk_writeOperation lasting_true _).conseq (fun _ h => h) (fun _ _ _ => trivial)
        fun _ _ h => h
      rintro log ⟨_, hrecord⟩
      refine ⟨trivial, ?_⟩
      unfold WrittenOver
      rw [← hrecord]
      cases existing with
      | none => exact hfresh
      | some o => exact absurd rfl hnone
  | approve =>
    apply Walks.peeks peek_required kept_const
    intro found
    exact Walks.ite (fun _ => walk_done) fun _ =>
      (walk_withOperationLock fun _ => walk_approveCurrent).pre fun _ _ => trivial
  | resume deadline =>
    apply Walks.peeks peek_required kept_const
    intro found
    have hgoes : Peek rules headerHash (fun _ => True)
        (if deadline then beginWait found else Prog.ret true) fun _ _ => True :=
      Reads.ite (fun _ => peek_beginWait) fun _ => Reads.ret fun _ _ => trivial
    apply Walks.peeks hgoes (kept_const.and kept_const)
    intro goes
    exact Walks.ite (fun _ => walk_done) fun _ =>
      (walk_withOperationLock fun _ => walk_resumeCurrent).pre fun _ _ => trivial
  | poll =>
    apply Walks.peeks peek_required kept_const
    intro found
    apply Walks.ite
    · exact fun _ => walk_done
    intro _
    apply Walks.ite
    · exact fun _ => Walks.ite (fun _ => walk_done) fun _ => Walks.fail fun _ _ => trivial
    · exact fun _ => (walk_withOperationLock fun _ => walk_reconcileCurrent).pre fun _ _ => trivial

theorem lawful_run {w : W} {labels : List (System.Label X402Op X402Op.Answer X402Failure Unit)}
    {c : System.Config X402Op X402Op.Answer X402Failure (Shared W X402Event) Unit}
    (hrun : Runs.Run (X402Step rules headerHash) (System.idle ⟨w, []⟩) labels c) :
    Trace.LawfulLog (Lawful headerHash) c.shared.log :=
  lawful_of_run (fun _ h => walk_call h) hrun

end X402
end PaymentNode
