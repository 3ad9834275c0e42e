import PaymentNode.X402.Stored

/-!
# Sends — one authorization, a bounded number of times

Every request belongs to an attempt of the durable record, and an attempt is sent once.  So the attempts bound
the requests, and what lets an attempt begin bounds the attempts.
-/

namespace PaymentNode

open Trace

namespace X402

variable {headerHash : String → String} {o p next : X402Operation} {log newer older : List X402Event}
  {purpose : AttemptPurpose} {header : String}

/-! ## The attempts of a record -/

def purposes (o : X402Operation) : List AttemptPurpose := o.attempts.map X402Attempt.purpose

theorem finishAttempts_purposes {attempts : List X402Attempt} {phase : AttemptPhase}
    {observation : Option X402HttpObservation} :
    (finishAttempts attempts phase observation).map X402Attempt.purpose =
      attempts.map X402Attempt.purpose := by
  unfold finishAttempts
  cases h : attempts.getLast? with
  | none => rw [List.getLast?_eq_none_iff.mp h]
  | some last =>
    rcases List.getLast?_eq_some_iff.mp h with ⟨init, rfl⟩
    simp

theorem purposes_begun {at' persistedAt : ℤ} :
    purposes (begun o purpose at' persistedAt) = purposes o ++ [purpose] := by
  simp [purposes, begun, pendingAttempt]

-- Only the begin of an attempt adds one.
theorem writes_purposes (h : Writes log o next) : purposes next = purposes o ∨
    ∃ purpose at' persistedAt, next = begun o purpose at' persistedAt ∧ Begins log o purpose := by
  cases h with
  | begins at' persistedAt purpose _ _ _ hbegins =>
    exact .inr ⟨purpose, at', persistedAt, rfl, hbegins⟩
  | interrupts | observes | undelivered | settlesAttempt => exact .inl finishAttempts_purposes
  | contradicts =>
    left
    split <;> exact finishAttempts_purposes
  | delegated _ additions _ _ _ _ hadditions =>
    rcases hadditions with ⟨e, rfl⟩ | ⟨e, rfl⟩ <;> exact .inl rfl
  | approves | retries | authorizes | links | proves | expires | recovers | ends => exact .inl rfl

/-- A payment is the first one or the second, a recovery the only one. -/
structure Bounded (o : X402Operation) : Prop where
  payments : (purposes o).count .payment ≤ 2
  recoveries : (purposes o).count .resultRecovery ≤ 1

theorem attemptsOf_length : (o.attemptsOf purpose).length = (purposes o).count purpose := by
  unfold X402Operation.attemptsOf purposes List.count
  rw [List.countP_map, List.countP_eq_length_filter]
  congr 2

theorem count_recovery (h : o.recoveryAttempt = none) :
    (purposes o).count .resultRecovery = 0 := by
  rw [List.count_eq_zero]
  unfold purposes
  rw [List.mem_map]
  rintro ⟨a, ha, hpurpose⟩
  have hfind := List.find?_eq_none.mp h a ha
  simp [hpurpose] at hfind

theorem bounded_begun {at' persistedAt : ℤ} (hvalid : Valid o) (h : Bounded o)
    (hbegins : Begins log o purpose) : Bounded (begun o purpose at' persistedAt) := by
  have hcount : ∀ q, (purposes (begun o purpose at' persistedAt)).count q =
      (purposes o).count q + [purpose].count q := by
    intro q
    rw [purposes_begun, List.count_append]
  cases hbegins with
  | first hstate _ =>
    have hnone : purposes o = [] := by
      unfold purposes
      rw [attempts_of_state hvalid (.inr (.inr hstate))]
      rfl
    rw [hnone] at hcount
    exact ⟨by rw [hcount]; decide, by rw [hcount]; decide⟩
  | again hmay _ =>
    simp only [mayResend, Bool.and_eq_true, decide_eq_true_eq] at hmay
    have hone : (purposes o).count .payment = 1 := by
      rw [← attemptsOf_length]
      exact hmay.1.1.2
    refine ⟨by rw [hcount, hone]; decide, ?_⟩
    rw [hcount]
    exact h.recoveries
  | recovery _ _ hnone =>
    refine ⟨by rw [hcount]; exact h.payments, ?_⟩
    rw [hcount, count_recovery hnone]
    decide

theorem record_bounded (hlog : LawfulLog (Lawful headerHash) log) (h : record log = some o) :
    Bounded o := by
  induction log generalizing o with
  | nil => cases h
  | cons e log ih =>
    cases e with
    | stored next =>
      cases h
      rcases hlog with ⟨⟨_, hover⟩, hlog⟩
      unfold WrittenOver at hover
      cases hrecord : record log with
      | none =>
        rw [hrecord] at hover
        have hnone : purposes o = [] := by
          unfold purposes
          rw [hover.attempts]
          rfl
        exact ⟨by rw [hnone]; decide, by rw [hnone]; decide⟩
      | some p =>
        rw [hrecord] at hover
        rcases writes_purposes hover.2 with hsame | ⟨purpose, at', persistedAt, rfl, hbegins⟩
        · have hp := ih hlog hrecord
          exact ⟨by rw [hsame]; exact hp.payments, by rw [hsame]; exact hp.recoveries⟩
        · exact bounded_begun (record_valid hlog hrecord) (ih hlog hrecord) hbegins
    | began | clock | refused | resultStored | receiptStored | nonceRead | receiptRead | sent
    | answered => exact ih hlog.2 h

/-! ## The requests of a log -/

/-- The requests of a purpose that have left. -/
def sends (purpose : AttemptPurpose) (log : List X402Event) : ℕ :=
  log.countP fun e => match e with
    | .sent p _ => p = purpose
    | _ => false

theorem sends_unsent (hrecord : record log = some o) (h : Unsent log) :
    sends purpose log = sends purpose (before log) := by
  have hnone : sends purpose (current log) = 0 := by
    unfold sends
    rw [List.countP_eq_zero]
    intro e he hsent
    cases e <;> first | cases hsent | exact h _ _ he
  have hsplit : sends purpose log =
      sends purpose (current log) + sends purpose (.stored o :: before log) := by
    unfold sends
    rw [← List.countP_append, ← record_split hrecord]
  rw [hsplit, hnone]
  unfold sends
  simp

/-- The requests that a record answers for. -/
def Counted (log : List X402Event) : Prop :=
  ∀ q, sends q log ≤ (record log).elim 0 fun o => (purposes o).count q

theorem sent_counted (hbegun : BegunHere log o purpose) (hrecord : record log = some o)
    (hunsent : Unsent log) (hbefore : Counted (before log)) :
    Counted (.sent purpose header :: log) := by
  rcases hbegun with ⟨_, prior, at', persistedAt, rfl, hprior, _⟩
  intro q
  have hsends : sends q (.sent purpose header :: log) = sends q log + [purpose].count q := by
    unfold sends
    rw [List.countP_cons]
    cases purpose <;> cases q <;> rfl
  have hle := hbefore q
  rw [hprior] at hle
  have hnow : record (.sent purpose header :: log) = some (begun prior purpose at' persistedAt) := hrecord
  rw [hnow, hsends, sends_unsent hrecord hunsent]
  show _ ≤ (purposes (begun prior purpose at' persistedAt)).count q
  rw [purposes_begun, List.count_append]
  exact Nat.add_le_add_right hle _

theorem stored_counted (hover : WrittenOver log next) (h : Counted log) :
    Counted (.stored next :: log) := by
  intro q
  have hsends : sends q (.stored next :: log) = sends q log := by
    unfold sends
    simp
  rw [hsends]
  have hle := h q
  unfold WrittenOver at hover
  cases hrecord : record log with
  | none =>
    rw [hrecord] at hle
    exact le_trans hle (Nat.zero_le _)
  | some p =>
    rw [hrecord] at hle hover
    apply le_trans hle
    show (purposes p).count q ≤ (purposes next).count q
    rcases writes_purposes hover.2 with hsame | ⟨purpose, at', persistedAt, rfl, _⟩
    · rw [hsame]
    · rw [purposes_begun, List.count_append]
      exact Nat.le_add_right _ _

theorem log_counted (hlog : LawfulLog (Lawful headerHash) log) : ∀ older, older <:+ log → Counted older := by
  induction log with
  | nil =>
    intro older hsuffix
    rw [List.suffix_nil.mp hsuffix]
    exact fun _ => Nat.zero_le _
  | cons e log ih =>
    intro older hsuffix
    rcases List.suffix_cons_iff.mp hsuffix with rfl | hsuffix
    · have hsilent : (∀ p h, e ≠ .sent p h) → (record (e :: log) = record log) →
          Counted (e :: log) := by
        intro hsent hrecord q
        have hsends : sends q (e :: log) = sends q log := by
          unfold sends
          cases e <;> first | exact absurd rfl (hsent _ _) | simp
        rw [hsends, hrecord]
        exact ih hlog.2 log (List.suffix_refl _) q
      cases e with
      | stored next => exact stored_counted hlog.1.2 (ih hlog.2 log (List.suffix_refl _))
      | sent purpose header =>
        rcases hlog with ⟨⟨o, hrecord, hbegun, _, hunsent⟩, hlog⟩
        exact sent_counted hbegun hrecord hunsent
          (ih hlog _ ((List.suffix_cons _ _).trans (stored_suffix hrecord)))
      | began | clock | refused | resultStored | receiptStored | nonceRead | receiptRead | answered =>
        exact hsilent (fun _ _ h => nomatch h) rfl
    · exact ih hlog.2 older hsuffix

/-! ## What a request follows -/

theorem stored_mem (h : record log = some o) : .stored o ∈ log :=
  (stored_suffix h).mem List.mem_cons_self

theorem sent_lawful (hlog : LawfulLog (Lawful headerHash) log)
    (hsplit : log = newer ++ .sent purpose header :: older) :
    ∃ o, record older = some o ∧ BegunHere older o purpose ∧
      o.paymentHeaderHash = some (headerHash header) ∧ Unsent older :=
  (hlog.of_suffix ⟨newer, hsplit.symm⟩).1

theorem BegunHere.awaits (h : BegunHere log o purpose) : Awaits o purpose := by
  rcases h with ⟨_, prior, at', persistedAt, rfl, _⟩
  exact begun_awaits

-- The payment header is frozen with its hash.
theorem header_frozen {h h' : String} (hlog : LawfulLog (Lawful headerHash) log) (hp : .stored p ∈ log)
    (ho : .stored o ∈ log) (hhash : p.paymentHeaderHash = some h) (hhash' : o.paymentHeaderHash = some h') :
    h = h' := by
  have hkept : ∀ {q r : X402Operation} {h : String}, Follows q r → q.paymentHeaderHash = some h →
      r.paymentHeaderHash = some h := by
    intro q r h hfollows hq
    rcases Option.map_eq_some_iff.mp hq with ⟨material, hmaterial, rfl⟩
    unfold X402Operation.paymentHeaderHash
    rw [hfollows.material material hmaterial]
    rfl
  rcases record_of_stored hp with ⟨r, hr⟩
  have hone := hkept (stored_follows hlog hp hr) hhash
  rw [hkept (stored_follows hlog ho hr) hhash'] at hone
  exact (Option.some.inj hone).symm

-- Nothing follows a terminal state.
theorem earlier_open {t : X402Transition} {transitions : List X402Transition}
    (h : validateTransitions (t :: transitions) = .ok ()) : ∀ u ∈ transitions, u.state.terminal = false := by
  induction transitions generalizing t with
  | nil => exact fun _ h => nomatch h
  | cons prior rest ih =>
    simp only [validateTransitions, corrupt_guard, not_not] at h
    rcases h with ⟨hlegal, _, hrest⟩
    intro u hu
    rcases List.mem_cons.mp hu with rfl | hu
    · cases hterminal : u.state.terminal with
      | false => rfl
      | true =>
        have hnone : u.state.legalNext = [] := by
          cases hstate : u.state <;> rw [hstate] at hterminal <;> first | rfl | cases hterminal
        rw [hnone] at hlegal
        cases hlegal
    · exact ih hrest u hu

theorem Follows.open (hfollows : Follows p o) (hvalid : Valid o) (h : o.terminal = false) :
    p.terminal = false := by
  have hmem : p.latest ∈ o.transitions := hfollows.transitions.mem List.mem_cons_self
  rcases List.mem_cons.mp hmem with heq | hmem
  · show p.latest.state.terminal = false
    rw [heq]
    exact h
  · exact earlier_open hvalid.transitions _ hmem

-- A record that waits for a payment has no evidence of its effect.
theorem pending_unproved (hvalid : Valid o) (h : Awaits o .payment) :
    o.settlementResponse = none ∧ o.transactionHint = none ∧ o.settlementEvidence = none ∧
      o.unusedExpiryEvidence = none ∧ o.resultLink = none := by
  have hstate : o.state = .paidRequestPending := h.1
  have hfault := hvalid.summary.fault
  simp only [summaryFault, hstate, ite_eq_right_iff, reduceCtorEq, imp_false, not_or] at hfault
  rcases hfault with ⟨_, _, heffect, hlinked⟩
  have hnone : noEffectEvidence o = true := by simpa using heffect
  simp only [noEffectEvidence, Bool.and_eq_true, Option.isNone_iff_eq_none] at hnone
  refine ⟨hnone.1.1.1, hnone.1.1.2, hnone.1.2, hnone.2, ?_⟩
  cases hresult : o.resultLink with
  | none => rfl
  | some link => simp [linked, hresult] at hlinked

theorem Lasting.append {R : List X402Event → Prop} (hR : Lasting R) (h : R log)
    (hcall : .began ∉ newer) : R (newer ++ log) := by
  induction newer with
  | nil => exact h
  | cons e newer ih =>
    apply hR
    · rintro rfl
      exact hcall List.mem_cons_self
    · exact ih fun hmem => hcall (List.mem_cons_of_mem _ hmem)

theorem readUnused_of_before {tag : ProofTag} (hrecord : record log = some o)
    (hcall : .began ∉ current log) (h : ReadUnused (before log) tag) : ReadUnused log tag := by
  rw [record_split hrecord]
  exact lasting_readUnused.append (lasting_readUnused _ _ (by simp) h) hcall

/-- What a log says of its requests. -/
structure SentOnce (headerHash : String → String) (log : List X402Event) : Prop where
  payments : sends .payment log ≤ 2
  recoveries : sends .resultRecovery log ≤ 1
  pending : ∀ newer purpose header older, log = newer ++ .sent purpose header :: older →
    ∃ o, record older = some o ∧ Awaits o purpose ∧ o.paymentHeaderHash = some (headerHash header)
  oneHeader : ∀ newer purpose header older, log = newer ++ .sent purpose header :: older →
    ∀ p h, .stored p ∈ log → p.paymentHeaderHash = some h → h = headerHash header
  again : ∀ newer header older, log = newer ++ .sent .payment header :: older → 0 < sends .payment older →
    ∃ o, record older = some o ∧ o.attempts.dropLast ≠ [] ∧
      (∀ a ∈ o.attempts.dropLast, a.phase ≠ .pending) ∧ o.settlementResponse = none ∧
      o.transactionHint = none ∧ o.resultLink = none ∧ ReadUnused older o.frozen.proofTag
  unproved : ∀ newer header older, log = newer ++ .sent .payment header :: older →
    ∀ p, .stored p ∈ older →
      p.settlementEvidence = none ∧ p.unusedExpiryEvidence = none ∧ p.terminal = false

theorem counted_bounded (hlog : LawfulLog (Lawful headerHash) log) :
    sends .payment log ≤ 2 ∧ sends .resultRecovery log ≤ 1 := by
  have hcounted := log_counted hlog log (List.suffix_refl _)
  have hpayment := hcounted .payment
  have hrecovery := hcounted .resultRecovery
  cases hrecord : record log with
  | none =>
    rw [hrecord] at hpayment hrecovery
    exact ⟨le_trans hpayment (Nat.zero_le _), le_trans hrecovery (Nat.zero_le _)⟩
  | some o =>
    rw [hrecord] at hpayment hrecovery
    have hbounded := record_bounded hlog hrecord
    exact ⟨le_trans hpayment hbounded.payments, le_trans hrecovery hbounded.recoveries⟩

-- The second payment is sent after a nonce read, and after the first one ended without an answer.
theorem sent_again (hlog : LawfulLog (Lawful headerHash) older) (hrecord : record older = some o)
    (hbegun : BegunHere older o .payment) (hunsent : Unsent older) (hsent : 0 < sends .payment older) :
    o.attempts.dropLast ≠ [] ∧ (∀ a ∈ o.attempts.dropLast, a.phase ≠ .pending) ∧
      ReadUnused older o.frozen.proofTag := by
  have hinorder := record_inOrder hlog hrecord
  refine ⟨?_, hinorder.earlier, ?_⟩
  all_goals
    rcases hbegun with ⟨hcall, prior, at', persistedAt, rfl, hprior, hbegins⟩
    have hbefore : before older <:+ older := (List.suffix_cons _ _).trans (stored_suffix hrecord)
    have hcount := log_counted hlog _ hbefore .payment
    rw [hprior, ← sends_unsent hrecord hunsent] at hcount
    have hattempts : prior.attempts ≠ [] := by
      intro hnone
      have hzero : (purposes prior).count .payment = 0 := by
        unfold purposes
        rw [hnone]
        rfl
      have hle : sends .payment older ≤ (purposes prior).count .payment := hcount
      omega
  · simpa [begun] using hattempts
  · cases hbegins with
    | first hstate _ =>
      have hvalid := record_valid (hlog.of_suffix hbefore) hprior
      exact absurd (attempts_of_state hvalid (.inr (.inr hstate))) hattempts
    | again _ hread => exact readUnused_of_before hrecord hcall hread

theorem sentOnce_of_lawful (hlog : LawfulLog (Lawful headerHash) log) : SentOnce headerHash log := by
  have hbounded := counted_bounded hlog
  have holder : ∀ {newer older purpose header}, log = newer ++ .sent purpose header :: older →
      LawfulLog (Lawful headerHash) older := by
    rintro newer older purpose header rfl
    exact hlog.of_suffix ((List.suffix_cons _ _).trans (List.suffix_append _ _))
  refine ⟨hbounded.1, hbounded.2, ?_, ?_, ?_, ?_⟩
  · intro newer purpose header older hsplit
    rcases sent_lawful hlog hsplit with ⟨o, hrecord, hbegun, hheader, _⟩
    exact ⟨o, hrecord, hbegun.awaits, hheader⟩
  · intro newer purpose header older hsplit p h hp hhash
    rcases sent_lawful hlog hsplit with ⟨o, hrecord, _, hheader, _⟩
    have ho : .stored o ∈ log := by
      rw [hsplit]
      exact List.mem_append_right _ (List.mem_cons_of_mem _ (stored_mem hrecord))
    exact header_frozen hlog hp ho hhash hheader
  · intro newer header older hsplit hsent
    rcases sent_lawful hlog hsplit with ⟨o, hrecord, hbegun, _, hunsent⟩
    rcases sent_again (holder hsplit) hrecord hbegun hunsent hsent with ⟨hmore, hphase, hread⟩
    have hunproved := pending_unproved (record_valid (holder hsplit) hrecord) hbegun.awaits
    exact ⟨o, hrecord, hmore, hphase, hunproved.1, hunproved.2.1, hunproved.2.2.2.2, hread⟩
  · intro newer header older hsplit p hp
    rcases sent_lawful hlog hsplit with ⟨o, hrecord, hbegun, _, _⟩
    have hvalid := record_valid (holder hsplit) hrecord
    have hfollows := stored_follows (holder hsplit) hp hrecord
    have hunproved := pending_unproved hvalid hbegun.awaits
    refine ⟨?_, ?_, ?_⟩
    · by_contra hne
      rcases Option.ne_none_iff_exists'.mp hne with ⟨e, he⟩
      have hkept := hfollows.settlement e he
      rw [hunproved.2.2.1] at hkept
      cases hkept
    · by_contra hne
      rcases Option.ne_none_iff_exists'.mp hne with ⟨e, he⟩
      have hkept := hfollows.unused e he
      rw [hunproved.2.2.2.1] at hkept
      cases hkept
    · apply hfollows.open hvalid
      show o.state.terminal = false
      rw [hbegun.awaits.1]
      rfl

/-- What a log says of its records: the store's checks accepted each one, of its attempts only the last may be
pending, and in the state of its purpose; and it takes back nothing of an earlier one, and follows none that is
terminal. -/
def Journaled (log : List X402Event) : Prop :=
  ∀ newer next older, log = newer ++ .stored next :: older → Valid next ∧ InOrder next ∧
    ∀ p, .stored p ∈ older → Follows p next ∧ p.terminal = false

theorem journaled_of_lawful {headerHash : String → String} {log : List X402Event}
    (hlog : LawfulLog (Lawful headerHash) log) : Journaled log := by
  rintro newer next older rfl
  have hnext : LawfulLog (Lawful headerHash) (.stored next :: older) := hlog.of_suffix (List.suffix_append _ _)
  refine ⟨record_valid hnext rfl, record_inOrder hnext rfl, ?_⟩
  intro p hp
  have hfollows := stored_follows hnext (List.mem_cons_of_mem _ hp) rfl
  refine ⟨hfollows, ?_⟩
  rcases record_of_stored hp with ⟨o, ho⟩
  have hover := hnext.1.2
  unfold WrittenOver at hover
  rw [ho] at hover
  exact (stored_follows hnext.2 hp ho).open (record_valid hnext.2 ho) hover.1

end X402

/-- **One authorization is exposed, a bounded number of times**, whatever the seller, the chain, the clock and
the crashes do. -/
theorem x402_sends_bounded {W : Type} {rules : Rules W X402Event} {headerHash : String → String} {w : W}
    {labels : List (System.Label X402Op X402Op.Answer X402Failure Unit)}
    {c : System.Config X402Op X402Op.Answer X402Failure (Shared W X402Event) Unit}
    (hrun : Runs.Run (X402Step rules headerHash) (System.idle ⟨w, []⟩) labels c) :
    X402.SentOnce headerHash c.shared.log :=
  X402.sentOnce_of_lawful (X402.lawful_run hrun)

/-- **The journal is a history**: every record of it is one the store accepts, written over records that were not
terminal and none of which it takes back. -/
theorem x402_history {W : Type} {rules : Rules W X402Event} {headerHash : String → String} {w : W}
    {labels : List (System.Label X402Op X402Op.Answer X402Failure Unit)}
    {c : System.Config X402Op X402Op.Answer X402Failure (Shared W X402Event) Unit}
    (hrun : Runs.Run (X402Step rules headerHash) (System.idle ⟨w, []⟩) labels c) :
    X402.Journaled c.shared.log :=
  X402.journaled_of_lawful (X402.lawful_run hrun)

/-! ## Concrete runs -/

namespace X402Runs

open X402

instance decidableAccepted (log : List X402Event) (next : X402Operation) :
    Decidable (accepted log next) :=
  inferInstanceAs (Decidable (_ = _))

instance decidableOpen (log : List X402Event) (q : X402Operation → Prop) [DecidablePred q] :
    Decidable (∃ o, openRecord log = some o ∧ q o) :=
  match openRecord log with
  | none => isFalse fun ⟨_, h, _⟩ => nomatch h
  | some o => if h : q o then isTrue ⟨o, rfl, h⟩ else isFalse fun ⟨_, heq, hq⟩ => h (Option.some.inj heq ▸ hq)

instance decidableResult (log : List X402Event) : Decidable (acceptsResult log) :=
  inferInstanceAs (Decidable (∃ o, openRecord log = some o ∧ o.resultLink = none))

instance decidableReceipt (log : List X402Event) (receipt : X402Receipt) :
    Decidable (acceptsReceipt log receipt) :=
  inferInstanceAs (Decidable (∃ o, openRecord log = some o ∧
    bindsOrphanReceipt o (resultFile log) { receipt with result := none } = true))

/-- How the clock, the seller, the chain and everything else answer in one call. -/
structure Script (W : Type) where
  at' : ℤ
  paid : AttemptPurpose → Option PaidResponse
  nonce : W → ProofTag → Except X402Failure NonceRead
  receipt : String → Except X402Failure (Option X402RpcReceipt)
  ask : (q : X402Ask) → q.Answer

def made (allowed : Prop) [Decidable allowed] (log : List X402Event) (e : X402Event) :
    Except X402Failure Unit × List X402Event :=
  if allowed then (.ok (), e :: log) else (.error (.apn ⟨.stateCorrupt, ""⟩), log)

def written (log : List X402Event) (next : X402Operation) :
    Except X402Failure Unit × List X402Event :=
  if accepted log next then (.ok (), .stored next :: log)
  else (.error (.apn ⟨.stateCorrupt, ""⟩), .refused next :: log)

def found : Option X402Operation → Except X402Failure X402Operation
  | none => .error X402.notFound
  | some o => .ok o

def paidEvents (purpose : AttemptPurpose) (header : String) (log : List X402Event) :
    Option PaidResponse → List X402Event
  | none => .sent purpose header :: log
  | some raw => .answered purpose raw :: .sent purpose header :: log

def nonceEvents (tag : ProofTag) (log : List X402Event) : Except X402Failure NonceRead → List X402Event
  | .ok read => .nonceRead tag read :: log
  | .error _ => log

def receiptEvents (log : List X402Event) :
    Except X402Failure (Option X402RpcReceipt) → List X402Event
  | .ok (some receipt) => .receiptRead receipt :: log
  | _ => log

/-- Reads and writes succeed where they may. -/
def Script.play {W : Type} (script : Script W) (w : W) (log : List X402Event) : (o : X402Op) → o.Answer × List X402Event
  | .lock => ((.ok () : Except X402Failure Unit), .began :: log)
  | .required => (found (record log), log)
  | .load => ((.ok (record log) : Except X402Failure (Option X402Operation)), log)
  | .writeOperation next => written log next
  | .loadResult => ((.ok (storedResult log) : Except X402Failure (Option X402Result)), log)
  | .loadRecoveryResult => ((.ok (recoveryResult log) : Except X402Failure (Option X402Result)), log)
  | .writeResult result => made (acceptsResult log) log (.resultStored result)
  | .loadRecoveryReceipt =>
    (((recoveryReceipt log).mapError .apn : Except X402Failure (Option X402Receipt)), log)
  | .writeReceipt receipt => made (acceptsReceipt log receipt) log (.receiptStored receipt)
  | .now => (script.at', .clock script.at' :: log)
  | .sendPaid purpose header => (script.paid purpose, paidEvents purpose header log (script.paid purpose))
  | .assertChain => ((.ok "" : Except X402Failure String), log)
  | .nonceState tag => (script.nonce w tag, nonceEvents tag log (script.nonce w tag))
  | .rpcReceipt hash => (script.receipt hash, receiptEvents log (script.receipt hash))
  | .ask q => (script.ask q, log)

theorem made_wrote (allowed : Prop) [Decidable allowed] (e : X402Event) :
    wrote (made allowed log e).1 allowed log e (made allowed log e).2 := by
  unfold made
  split
  · rename_i h
    exact .inr ⟨h, rfl, .inl rfl⟩
  · exact .inl ⟨⟨_, rfl⟩, rfl⟩

theorem play_effect {W : Type} {script : Script W} {w : W} (hasks : ∀ q, asks headerHash q (script.ask q))
    (o : X402Op) : effect headerHash log o (script.play w log o).1 (script.play w log o).2 := by
  have hanswers : ∀ {α : Type} (value : α), answers (.ok value : Except X402Failure α) value log log :=
    fun value => ⟨rfl, fun a h => (Except.ok.inj h).symm⟩
  cases o with
  | lock => exact .inl ⟨rfl, rfl⟩
  | required =>
    refine ⟨rfl, ?_⟩
    intro o ho
    change found (record log) = .ok o at ho
    cases hrecord : record log with
    | none =>
      rw [hrecord] at ho
      cases ho
    | some p =>
      rw [hrecord] at ho
      cases ho
      exact stored_mem hrecord
  | load | loadResult | loadRecoveryResult => exact hanswers _
  | writeOperation next =>
    show effect headerHash log (.writeOperation next) (written log next).1 (written log next).2
    unfold written
    split
    · rename_i hacc
      exact .inl (.inr ⟨hacc, rfl, .inl rfl⟩)
    · rename_i hacc
      exact .inr ⟨hacc, rfl, _, rfl⟩
  | writeResult | writeReceipt => exact made_wrote _ _
  | loadRecoveryReceipt =>
    refine ⟨rfl, ?_⟩
    intro a ha
    change (recoveryReceipt log).mapError X402Failure.apn = .ok a at ha
    cases hread : recoveryReceipt log with
    | error e =>
      rw [hread] at ha
      cases ha
    | ok r =>
      rw [hread] at ha
      cases ha
      rfl
  | now | assertChain => rfl
  | sendPaid purpose header =>
    show effect headerHash log (.sendPaid purpose header) (script.paid purpose)
      (paidEvents purpose header log (script.paid purpose))
    cases script.paid purpose <;> rfl
  | nonceState tag =>
    show effect headerHash log (.nonceState tag) (script.nonce w tag)
      (nonceEvents tag log (script.nonce w tag))
    cases script.nonce w tag <;> rfl
  | rpcReceipt hash =>
    show effect headerHash log (.rpcReceipt hash) (script.receipt hash)
      (receiptEvents log (script.receipt hash))
    rcases script.receipt hash with e | _ | receipt <;> rfl
  | ask q => exact ⟨rfl, hasks q⟩

def Script.inWorld {W : Type} (script : Script W) (s : Shared W X402Event) (o : X402Op) :
    o.Answer × Shared W X402Event :=
  ((script.play s.world s.log o).1, ⟨s.world, (script.play s.world s.log o).2⟩)

/-- One call, with its answers, for as many of its operations. -/
def call {W : Type} (script : Script W) (prog : X402Prog Unit) (operations : ℕ) :
    System.Call X402Op X402Op.Answer X402Failure (Shared W X402Event) :=
  ⟨prog, script.inWorld, operations⟩

def after {W : Type} (w : W) (calls : List (Script W × X402Prog Unit × ℕ)) : Shared W X402Event :=
  (calls.map fun c => call c.1 c.2.1 c.2.2).foldl (fun s call => call.after s) ⟨w, []⟩

-- Scripts that answer as the rules let them make a run.
theorem run_after {W : Type} {rules : Rules W X402Event} {w : W} (hmoves : ∀ w, rules.moves w w)
    (calls : List (Script W × X402Prog Unit × ℕ)) (hcalls : ∀ c ∈ calls, X402Call c.2.1)
    (hasks : ∀ c ∈ calls, ∀ q, asks headerHash q (c.1.ask q))
    (hallows : ∀ c ∈ calls, ∀ w log o, Allowed rules w log (c.1.play w log o).2) :
    ∃ labels, Runs.Run (X402Step rules headerHash) (System.idle ⟨w, []⟩) labels
      (System.idle (after w calls)) := by
  apply System.run_calls
  · exact fun _ => rfl
  · intro c hc
    rcases List.mem_map.mp hc with ⟨given, hgiven, rfl⟩
    exact ⟨hcalls given hgiven, fun s o =>
      ⟨hmoves s.world, play_effect (hasks given hgiven) o, hallows given hgiven s.world s.log o⟩⟩

theorem allowed_any {W : Type} {w : W} {log' : List X402Event} :
    Allowed (Rules.any W X402Event) w log log' := by
  induction log' with
  | nil => trivial
  | cons e log' ih => exact .inr ⟨trivial, ih⟩

def frozen : X402Frozen :=
  ⟨.eip3009, false, false, "eip155:8453", "0xa1", "0xb2", 1000, ⟨"https://seller.test/a",
    "https://seller.test", "0xc3", false⟩, some "payment-1", 1000, ⟨10, "0x0a"⟩, .safe⟩

def prepared (frozen : X402Frozen) : X402Operation :=
  ⟨frozen, none, none, [], none, none, none, none, none, none, ⟨0, .awaitingApproval⟩, []⟩

def material : SealedMaterial := ⟨⟨"0x01", "0x02", "0x03"⟩, none, "0x03"⟩

/-- Custody signs, every policy agrees and no time runs out. -/
def agrees : (q : X402Ask) → q.Answer
  | .deadlineElapsed => false
  | .reserveUsage | .followUsage | .networkPolicy | .payeePolicy | .delegatedPolicy | .readPort
  | .markExposed => (.ok () : Except X402Failure Unit)
  | .native _ | .delegated _ => (.ok material : Except X402Failure SealedMaterial)
  | .provider _ => (.ok (.signed material) : Except X402Failure ProviderAuthorization)
  | .head _ | .block _ => (.error .rpcAmbiguous : Except X402Failure TimedBlock)
  | .expiryBound => (none : Option TimedBlock)
  | .noPayeeTransfer => true

theorem agrees_asks : ∀ q, asks (fun header => header) q (agrees q) := by
  intro q
  cases q with
  | native | delegated =>
    intro m hm
    cases hm
    rfl
  | provider =>
    intro m hm
    cases hm
    rfl
  | _ => trivial

/-- The seller never answers, and the nonce reads unused. -/
def silent : Script Unit :=
  ⟨0, fun _ => none, fun _ tag => .ok ⟨false, ⟨20, "0x14"⟩, 500, tag, "https://rpc.test"⟩,
    fun _ => .ok none, agrees⟩

/-- A payment without an answer, and its resend. -/
def resent : List (Script Unit × X402Prog Unit × ℕ) :=
  [(silent, prepare (prepared frozen), 100), (silent, approve, 100), (silent, resume false, 100),
    (silent, resume false, 100)]

theorem prepared_fresh : (prepared frozen).Fresh :=
  ⟨rfl, rfl, rfl, rfl, rfl, rfl, rfl, rfl, rfl, rfl, rfl, by decide, by decide, by decide⟩

theorem run_resent : ∃ labels,
    Runs.Run (X402Step (Rules.any Unit X402Event) fun header => header) (System.idle ⟨(), []⟩) labels
      (System.idle (after () resent)) := by
  apply run_after (fun _ => trivial)
  · intro c hc
    simp only [resent, List.mem_cons, List.not_mem_nil, or_false] at hc
    rcases hc with rfl | rfl | rfl | rfl
    · exact X402Call.prepare _ prepared_fresh
    · exact X402Call.approve
    · exact X402Call.resume false
    · exact X402Call.resume false
  · intro c hc
    simp only [resent, List.mem_cons, List.not_mem_nil, or_false] at hc
    rcases hc with rfl | rfl | rfl | rfl <;> exact agrees_asks
  · exact fun _ _ _ _ _ => allowed_any

theorem x402_sends_bounded_of_resent : ∃ labels c,
    Runs.Run (X402Step (Rules.any Unit X402Event) fun header => header) (System.idle ⟨(), []⟩) labels c ∧
      sends .payment c.shared.log = 2 ∧ SentOnce (fun header => header) c.shared.log := by
  rcases run_resent with ⟨labels, hrun⟩
  exact ⟨labels, _, hrun, by decide +kernel, x402_sends_bounded hrun⟩

theorem x402_history_of_resent : ∃ labels c,
    Runs.Run (X402Step (Rules.any Unit X402Event) fun header => header) (System.idle ⟨(), []⟩) labels c ∧
      sends .payment c.shared.log = 2 ∧ Journaled c.shared.log := by
  rcases run_resent with ⟨labels, hrun⟩
  exact ⟨labels, _, hrun, by decide +kernel, x402_history hrun⟩

end X402Runs

end PaymentNode
