import PaymentNode.Ledger.DailyCap
import PaymentNode.Ledger.Moves

/-!
# Clocks — a clock that moves back neither wedges nor backdates the ledger

Every write is stamped by `bucketStamp`, so no clock value puts a row before one already stored
(`perform_stamped`), and a row that becomes a spend is charged between its last write before and the write
that settled it (`FinalizedBy`).  No refusal of `transition` reads the clock: a move that its other guards
accept (`Supplied`) succeeds at any instant (`Supplied.moves`).  The committed retirements of historical
Jupiter holds, which a state root may still hold, replace their holds in the usage and keep them immutable.
-/

namespace PaymentNode

variable {H : LedgerHash}

/-- A committed retirement: the original hold it replaces, and the instant it is accounted at. -/
structure HistoricalRetirement where
  usageLease : ReservationBody
  accountingAt : Instant
deriving DecidableEq, Repr

/-- The holds the retirements replace, and what they charge on a day. -/
def retiredCharge (records : List (Reservation H)) (day : ℤ) :
    List String → ℕ → List HistoricalRetirement → Result (List String × ℕ)
  | ids, charge, [] => .ok (ids, charge)
  | ids, charge, r :: retirements =>
    if r.usageLease.reservationId ∈ ids ∨
        ¬ ∃ v ∈ records, v.toReservationBody = r.usageLease then
      corrupt "Historical Jupiter retirement evidence is invalid."
    else
      -- Charged on its accounting day, and while the clock is behind that day.
      retiredCharge records day (r.usageLease.reservationId :: ids)
        (if day ≤ r.accountingAt.day then charge + 6000000 else charge) retirements

def historicalRetirementUsage (records : List (Reservation H))
    (retirements : List HistoricalRetirement) (now : Instant) : Result ℕ := do
  let retired ← retiredCharge records now.day [] 0 retirements
  let usage ← sumUsage (records.filter fun r => ¬ r.reservationId ∈ retired.1) now
  if maxUint256 < usage + retired.2 then
    corrupt "Historical Jupiter retirement evidence is invalid."
  else return usage + retired.2

/-- Every stored retirement is read with the row it replaces, which must stand in the bucket unchanged. -/
def forBucket (bucket : Bucket H) : List HistoricalRetirement → Result Unit
  | [] => .ok ()
  | r :: retirements =>
    match bucket.find? r.usageLease.reservationId with
    | none => corrupt "Historical Jupiter retirement path or original row changed."
    | some row =>
      if row.toReservationBody ≠ r.usageLease then
        corrupt "Historical Jupiter retirement evidence is invalid."
      else forBucket bucket retirements

/-- `transition` in a state root that holds these retirements. -/
def retainedTransition (retirements : List HistoricalRetirement) (identity : AssetUsageIdentity)
    (bucket : Bucket H) (input : AssetUsageTransitionInput) : Result (Reservation H × Bucket H) :=
  if input.expectedCurrentStates = some [] then
    invalid "Expected usage reservation source states are invalid."
  else do
    forBucket bucket retirements
    if ∃ r ∈ retirements, r.usageLease.reservationId = input.reservationId then
      blocked "A committed Jupiter historical retirement keeps its original reservation immutable."
    else transition identity bucket input

/-- The guards of `transition` other than the table of moves; none of them reads the clock. -/
structure Supplied (retirements : List HistoricalRetirement) (identity : AssetUsageIdentity) (bucket : Bucket H)
    (input : AssetUsageTransitionInput) (current : ReservationBody) : Prop where
  unchanged : forBucket bucket retirements = .ok ()
  kept : ∀ r ∈ retirements, r.usageLease.reservationId ≠ input.reservationId
  policyDigest : current.policyDigest = input.policyDigest
  identity_eq : current.identity = identity
  expected : ∀ states, input.expectedCurrentStates = some states → current.state ∈ states
  journal : assertMetaMaskRelease input current = .ok ()
  open_cleanup : current.cleanup85NativeReservation → ¬ input.state.isTerminal
  digest : input.state.isTerminal → input.outcomeDigest.isSome
  consumed : ∀ c, input.consumedAtomic = some c →
    input.state = .failedConfirmedRevert ∧ c ≤ current.amountAtomic
  effectAt : ∀ e, input.effectAt = some e → input.state = .finalized ∧ e.isSome

/-! ## Usage read at a later instant -/

theorem usageOf_anti (r : ReservationBody) {day day' : ℤ} (h : day ≤ day') :
    usageOf r day' ≤ usageOf r day := by
  have hpast : r.effectAt.any (fun e => e.day < day) = true → r.effectAt.any (fun e => e.day < day') = true := by
    cases r.effectAt with
    | none => simp
    | some e =>
      simp only [Option.any_some, decide_eq_true_eq]
      omega
  unfold usageOf
  by_cases hreleased : r.state = .failedBeforeEffect ∨ r.state = .releasedUnsubmitted
  · rw [if_pos hreleased, if_pos hreleased]
  rw [if_neg hreleased, if_neg hreleased]
  by_cases hfailed : r.state = .failedConfirmedRevert ∧ r.consumedAtomic.isNone
  · rw [if_pos hfailed, if_pos hfailed]
  rw [if_neg hfailed, if_neg hfailed]
  by_cases hspent : r.state = .finalized ∧ r.effectAt.any (fun e => e.day < day')
  · rw [if_pos hspent]
    omega
  have hspent' : ¬ (r.state = .finalized ∧ r.effectAt.any (fun e => e.day < day)) :=
    fun hold => hspent ⟨hold.1, hpast hold.2⟩
  rw [if_neg hspent, if_neg hspent']
  by_cases hrevert : r.state = .failedConfirmedRevert ∧ r.effectAt.any (fun e => e.day < day')
  · rw [if_pos hrevert]
    omega
  have hrevert' : ¬ (r.state = .failedConfirmedRevert ∧ r.effectAt.any (fun e => e.day < day)) :=
    fun hold => hrevert ⟨hold.1, hpast hold.2⟩
  rw [if_neg hrevert, if_neg hrevert']

variable {records : List (Reservation H)}

theorem sumUsageFrom_anti {day day' : ℤ} (h : day ≤ day') {total total' usage : ℕ} (htotal : total' ≤ total)
    (husage : sumUsageFrom day total records = .ok usage) :
    ∃ usage', sumUsageFrom day' total' records = .ok usage' ∧ usage' ≤ usage := by
  induction records generalizing total total' with
  | nil =>
    cases husage
    exact ⟨total', rfl, htotal⟩
  | cons r records ih =>
    unfold sumUsageFrom at husage ⊢
    have hr := usageOf_anti r.toReservationBody h
    have hstep : total' + usageOf r.toReservationBody day' ≤ total + usageOf r.toReservationBody day := by
      omega
    rcases corrupt_guard.mp husage with ⟨hfits, hrest⟩
    rcases ih hstep hrest with ⟨usage', hok, hle⟩
    have hfits' : ¬ maxUint256 < total' + usageOf r.toReservationBody day' := by omega
    exact ⟨usage', corrupt_guard.mpr ⟨hfits', hok⟩, hle⟩

theorem retiredCharge_anti {day day' : ℤ} (h : day ≤ day')
    {retirements : List HistoricalRetirement} {ids ids' : List String} {charge charge' total : ℕ}
    (hcharge : charge' ≤ charge) (hretired : retiredCharge records day ids charge retirements = .ok (ids', total)) :
    ∃ total', retiredCharge records day' ids charge' retirements = .ok (ids', total') ∧ total' ≤ total := by
  induction retirements generalizing ids charge charge' with
  | nil =>
    cases hretired
    exact ⟨charge', rfl, hcharge⟩
  | cons r retirements ih =>
    unfold retiredCharge at hretired ⊢
    rcases corrupt_guard.mp hretired with ⟨hknown, hrest⟩
    have hstep : (if day' ≤ r.accountingAt.day then charge' + 6000000 else charge') ≤
        (if day ≤ r.accountingAt.day then charge + 6000000 else charge) := by
      split <;> split <;> omega
    rcases ih hstep hrest with ⟨total', hok, hle⟩
    exact ⟨total', corrupt_guard.mpr ⟨hknown, hok⟩, hle⟩

-- A bucket's usage never grows as the clock goes on, and a total that was read stays readable.
theorem historicalRetirementUsage_anti
    {retirements : List HistoricalRetirement} {s t : Instant} {usage : ℕ} (h : s ≤ t)
    (husage : historicalRetirementUsage records retirements s = .ok usage) :
    ∃ usage', historicalRetirementUsage records retirements t = .ok usage' ∧ usage' ≤ usage := by
  have hday := Instant.day_mono h
  rcases bind_ok.mp husage with ⟨⟨ids, charge⟩, hretired, hrest⟩
  rcases bind_ok.mp hrest with ⟨total, hsum, hfits⟩
  rcases corrupt_guard.mp hfits with ⟨hbound, hok⟩
  cases hok
  rcases retiredCharge_anti hday (le_refl 0) hretired with ⟨charge', hretired', hcharge⟩
  rcases sumUsageFrom_anti hday (le_refl 0) hsum with ⟨total', hsum', htotal⟩
  have hfits' : ¬ maxUint256 < total' + charge' := by
    dsimp only at hbound
    omega
  refine ⟨total' + charge', ?_, by dsimp only; omega⟩
  exact bind_ok.mpr ⟨(ids, charge'), hretired', bind_ok.mpr ⟨total', hsum', corrupt_guard.mpr ⟨hfits', rfl⟩⟩⟩

/-! ## An allowed move succeeds at any instant -/

section Moves

variable {retirements : List HistoricalRetirement} {identity : AssetUsageIdentity} {bucket : Bucket H}
  {input : AssetUsageTransitionInput} {current : Reservation H}

-- An open hold carries neither consumption nor a fee proof.
theorem Reservation.bare_of_open {r : Reservation H} (h : r.state.isOpen) :
    r.consumedAtomic = none ∧ r.merchantNativeActualFee = none ∧ r.metamaskNativeActualFee = none ∧
      r.cleanup85NativeActual = false := by
  have hfee := r.hasActualFee_of_open h
  have hnotRevert : ¬ r.state = .failedConfirmedRevert := by
    intro hs
    rw [hs] at h
    cases h
  have hconsumed : r.consumedAtomic = none := by
    have hvalid := r.consumption_valid
    cases hc : r.consumedAtomic with
    | none => rfl
    | some c => simp [validateConsumption, hc, hnotRevert, hfee] at hvalid
  simp only [ReservationBody.hasActualFee, Bool.or_eq_false_iff, Option.isSome_eq_false_iff,
    Option.isNone_iff_eq_none] at hfee
  exact ⟨hconsumed, hfee.1.1, hfee.2, hfee.1.2⟩

theorem Supplied.outcome_ok {r : ReservationBody} (h : Supplied retirements identity bucket input r) :
    transitionOutcome input = .ok input.outcome := by
  unfold transitionOutcome AssetUsageTransitionInput.outcome
  by_cases hterminal : input.state.isTerminal
  · rcases Option.isSome_iff_exists.mp (h.digest hterminal) with ⟨digest, hdigest⟩
    simp [hterminal, hdigest]
  · simp [hterminal]

-- Whatever instant is proven, the spend is charged between the hold's last write and this one.
theorem Supplied.effectAt_ok {r : ReservationBody} (h : Supplied retirements identity bucket input r)
    {stamp : Instant} (hstamp : r.updatedAt ≤ stamp) :
    ∃ e, transitionEffectAt input r stamp = .ok e ∧ r.updatedAt ≤ e ∧ e ≤ stamp := by
  unfold transitionEffectAt
  cases hasked : input.effectAt with
  | none => exact ⟨_, rfl, Instant.le_clamp hstamp _, Instant.clamp_le hstamp _⟩
  | some given =>
    rcases Option.isSome_iff_exists.mp (h.effectAt given hasked).2 with ⟨ms, rfl⟩
    exact ⟨_, rfl, Instant.le_clamp hstamp _, Instant.clamp_le hstamp _⟩

-- The row check accepts what an accepted move writes.
theorem Supplied.moved_valid (h : Supplied retirements identity bucket input current.toReservationBody)
    (hallowed : input.state ∈ allowedTransitions current.state) {stamp effectAt : Instant}
    (hstamp : current.updatedAt ≤ stamp) (heffect : current.updatedAt ≤ effectAt)
    (hbefore : effectAt ≤ stamp) :
    validateBody H (transitionBody input current.toReservationBody input.outcome effectAt stamp) = .ok () := by
  rcases validateBody_ok.mp current.valid with ⟨hversion, hamount, _, hmarker, _, hcleanup, _, htimes, _⟩
  rcases Reservation.bare_of_open (isOpen_of_allowed hallowed) with ⟨hnoConsumed, hnoMerchant, hnoMetaMask, hnoActual⟩
  have hconsumed := h.consumed
  apply validateBody_ok.mpr
  refine ⟨hversion, hamount, ?_, hmarker, ?_, ?_, ?_, le_trans htimes hstamp, ?_⟩
  · cases hc : input.consumedAtomic with
    | none => simp [validateConsumption, transitionBody, hc, hnoConsumed]
    | some c => simp [validateConsumption, transitionBody, hc, hconsumed c hc]
  · simp [validateMetaMaskFee, transitionBody, hnoMetaMask]
  · -- A cleanup85 hold only moves to an open state.
    by_cases hheld : current.cleanup85NativeReservation
    · have hopen := h.open_cleanup hheld
      have hplainly : input.consumedAtomic = none := by
        cases hc : input.consumedAtomic with
        | none => rfl
        | some c =>
          have hrevert := (hconsumed c hc).1
          rw [hrevert] at hopen
          exact absurd rfl hopen
      cases hstate : input.state <;>
        simp [validateCleanup85NativeUsage, transitionBody, hheld, hnoActual, hstate, hplainly, hnoConsumed] <;>
        simp [hstate, AssetUsageState.isTerminal] at hopen
    · simp [validateCleanup85NativeUsage, transitionBody, hheld, hnoActual]
  · simp [validateMerchantFee, transitionBody, hnoMerchant]
  · exact moved_outcome_valid h.digest hconsumed hallowed hnoConsumed (le_trans htimes heffect) hbefore

/-- **A supplied move succeeds at any instant**, and answers the hold in the state asked for. -/
theorem Supplied.moves (h : Supplied retirements identity bucket input current.toReservationBody)
    (hfind : bucket.find? input.reservationId = some current)
    (hallowed : input.state ∈ allowedTransitions current.state) :
    ∃ r, retainedTransition retirements identity bucket input = .ok (r, bucket.put r) ∧
      r.state = input.state := by
  have hstamp : current.updatedAt ≤ bucketStamp bucket.rows input.now :=
    updatedAt_le_bucketStamp (KeyedStore.mem_of_find? hfind)
  have hne : ¬ current.state = input.state := by
    intro heq
    rw [heq] at hallowed
    exact not_allowed_self input.state hallowed
  have hkept : ¬ ∃ r ∈ retirements, r.usageLease.reservationId = input.reservationId := by
    rintro ⟨r, hr, hid⟩
    exact h.kept r hr hid
  have hasked : ¬ input.expectedCurrentStates = some [] := by
    intro hnone
    cases h.expected [] hnone
  have hexpected : ¬ (input.expectedCurrentStates.any fun states => ¬ current.state ∈ states) = true := by
    cases hstates : input.expectedCurrentStates with
    | none => simp
    | some states => simpa using h.expected states hstates
  rcases h.effectAt_ok hstamp with ⟨e, heffect, hafter, hbefore⟩
  rcases sealRow_of_valid (h.moved_valid hallowed hstamp hafter hbefore) with ⟨r, hseal, hbody⟩
  have hcurrent : transitionCurrent bucket input current = .ok (r, bucket.put r) := by
    unfold transitionCurrent
    refine blocked_guard.mpr ⟨?_, ?_⟩
    · rintro ⟨hterminal, hheld⟩
      exact h.open_cleanup hheld hterminal
    refine bind_ok.mpr ⟨_, h.outcome_ok, ?_⟩
    refine blocked_guard.mpr ⟨?_, invalid_guard.mpr ⟨?_, ?_⟩⟩
    · cases hc : input.consumedAtomic with
      | none => simp
      | some c => simp [h.consumed c hc]
    · rintro ⟨hsome, hstate⟩
      rcases Option.isSome_iff_exists.mp hsome with ⟨given, hgiven⟩
      exact hstate (h.effectAt given hgiven).1
    refine bind_ok.mpr ⟨e, heffect, ?_⟩
    rw [if_neg hne]
    exact bind_ok.mpr ⟨(), assertTransition_of_allowed hallowed, bind_ok.mpr ⟨r, hseal, rfl⟩⟩
  refine ⟨r, ?_, by rw [hbody]; rfl⟩
  unfold retainedTransition
  rw [if_neg hasked]
  refine bind_ok.mpr ⟨(), h.unchanged, blocked_guard.mpr ⟨hkept, ?_⟩⟩
  unfold transition
  rw [if_neg hasked, hfind]
  refine bind_ok.mpr ⟨(), h.journal, blocked_guard.mpr ⟨?_, blocked_guard.mpr ⟨hexpected, hcurrent⟩⟩⟩
  rw [not_or, not_not, not_not]
  exact ⟨h.policyDigest, h.identity_eq⟩

end Moves

/-! ## The stamp of every write -/

/-- What a locked step leaves: the bucket as it was, or its answer, stamped no earlier than any row stored. -/
def StampedWrite (bucket : Bucket H) (r : Reservation H) (next : Bucket H) : Prop :=
  next = bucket ∨ (next = bucket.put r ∧ ∀ old ∈ bucket.rows, old.updatedAt ≤ r.updatedAt)

section Stamps

variable {addresses : Addresses} {identity : AssetUsageIdentity} {bucket next : Bucket H}
  {r : Reservation H}

theorem stamped_sealRow {body : ReservationBody} (now : Instant) (h : sealRow H body = .ok r)
    (hstamp : body.updatedAt = bucketStamp bucket.rows now) : StampedWrite bucket r (bucket.put r) := by
  refine Or.inr ⟨rfl, ?_⟩
  intro old hold
  rw [sealRow_ok h, hstamp]
  exact updatedAt_le_bucketStamp hold

theorem reserveBound_stamped {input : AssetUsageReserveInput} {mm : Option MetaMaskNativeReservation}
    (h : reserveBound addresses identity bucket input mm = .ok (r, next)) : StampedWrite bucket r next := by
  unfold reserveBound at h
  rcases bind_ok.mp (blocked_guard.mp (blocked_guard.mp h).2).2 with ⟨initial, _, h⟩
  rcases bind_ok.mp (invalid_guard.mp h).2 with ⟨hash, _, h⟩
  dsimp only at h
  split at h
  · rename_i existing hfind
    unfold reserveExisting at h
    rcases bind_ok.mp (blocked_guard.mp h).2 with ⟨_, _, h⟩
    split at h
    · rcases bind_ok.mp h with ⟨_, _, h⟩
      rcases bind_ok.mp h with ⟨reopened, hseal, h⟩
      cases h
      exact stamped_sealRow input.now hseal rfl
    · cases h
      exact Or.inl rfl
  · rcases bind_ok.mp h with ⟨_, _, h⟩
    rcases bind_ok.mp h with ⟨record, hseal, h⟩
    cases h
    exact stamped_sealRow input.now hseal rfl

theorem reserveWithinOwnerCap_stamped {input : OwnerCapInput}
    (h : reserveWithinOwnerCap identity bucket input = .ok (r, next)) : StampedWrite bucket r next := by
  unfold reserveWithinOwnerCap at h
  rcases bind_ok.mp h with ⟨hash, _, h⟩
  have h := (blocked_guard.mp (invalid_guard.mp (blocked_guard.mp (invalid_guard.mp h).2).2).2).2
  dsimp only at h
  split at h
  · rcases bind_ok.mp h with ⟨_, _, h⟩
    cases h
    exact Or.inl rfl
  · rcases bind_ok.mp h with ⟨record, hseal, h⟩
    cases h
    exact stamped_sealRow input.now hseal rfl

theorem transition_stamped {input : AssetUsageTransitionInput}
    (h : transition identity bucket input = .ok (r, next)) : StampedWrite bucket r next := by
  unfold transition at h
  have h := (invalid_guard.mp h).2
  split at h
  · exact absurd h blocked_ne_ok
  rcases bind_ok.mp h with ⟨_, _, h⟩
  have h := (blocked_guard.mp (blocked_guard.mp h).2).2
  unfold transitionCurrent at h
  rcases bind_ok.mp (blocked_guard.mp h).2 with ⟨_, _, h⟩
  rcases bind_ok.mp (invalid_guard.mp (blocked_guard.mp h).2).2 with ⟨_, _, h⟩
  split at h
  · cases (blocked_guard.mp h).2
    exact Or.inl rfl
  · rcases bind_ok.mp h with ⟨_, _, h⟩
    rcases bind_ok.mp h with ⟨moved, hseal, h⟩
    cases h
    exact stamped_sealRow input.now hseal rfl

theorem cancel_stamped {input : CancelUnsubmittedReservationInput}
    (h : cancelUnsubmittedReservation identity bucket input = .ok (r, next)) :
    StampedWrite bucket r next := by
  unfold cancelUnsubmittedReservation at h
  rcases bind_ok.mp (invalid_guard.mp (invalid_guard.mp h).2).2 with ⟨hash, _, h⟩
  dsimp only at h
  split at h
  · rcases bind_ok.mp h with ⟨released, hseal, h⟩
    cases h
    exact stamped_sealRow input.now hseal rfl
  · rcases bind_ok.mp h with ⟨_, _, h⟩
    split at h
    · cases (blocked_guard.mp h).2
      exact Or.inl rfl
    · rcases bind_ok.mp (blocked_guard.mp h).2 with ⟨released, hseal, h⟩
      cases h
      exact stamped_sealRow input.now hseal rfl

theorem settleMerchant_stamped {input : MerchantSettlementInput}
    (h : settleMerchantNativeActualFee identity bucket input = .ok (r, next)) :
    StampedWrite bucket r next := by
  unfold settleMerchantNativeActualFee at h
  rcases bind_ok.mp h with ⟨hash, _, h⟩
  split at h
  · exact absurd h blocked_ne_ok
  · have h := (blocked_guard.mp h).2
    split at h
    · cases (blocked_guard.mp h).2
      exact Or.inl rfl
    · rcases bind_ok.mp (blocked_guard.mp h).2 with ⟨settled, hseal, h⟩
      cases h
      exact stamped_sealRow input.now hseal rfl

theorem settleMetaMask_stamped {input : MetaMaskSettlementInput}
    (h : settleMetaMaskNativeActual identity bucket input = .ok (r, next)) :
    StampedWrite bucket r next := by
  unfold settleMetaMaskNativeActual at h
  split at h
  · exact absurd h blocked_ne_ok
  · rename_i current hfind
    have h := (blocked_guard.mp h).2
    split at h
    · cases (blocked_guard.mp h).2
      exact Or.inl rfl
    · rcases bind_ok.mp (blocked_guard.mp (blocked_guard.mp h).2).2 with ⟨settled, hseal, h⟩
      cases h
      have hfields := metaMaskSettledBody_fields (H := H) identity input current.toReservationBody
        (bucketStamp bucket.rows input.now)
      exact stamped_sealRow input.now hseal hfields.2.2.1

theorem releaseDirect_stamped {expected : Reservation H} {journal : Option Bool} {now : Instant}
    {outcomeDigest : String}
    (h : releaseDirectReservedAfter bucket expected journal now outcomeDigest = .ok (r, next)) :
    StampedWrite bucket r next := by
  unfold releaseDirectReservedAfter at h
  have h := (blocked_guard.mp (blocked_guard.mp (blocked_guard.mp h).2).2).2
  split at h
  · exact absurd h blocked_ne_ok
  · rcases bind_ok.mp (blocked_guard.mp (blocked_guard.mp h).2).2 with ⟨released, hseal, h⟩
    cases h
    exact stamped_sealRow now hseal rfl

theorem perform_stamped {step : LedgerStep H}
    (h : step.perform addresses identity bucket = .ok (r, next)) : StampedWrite bucket r next := by
  cases step with
  | reserve input mm => exact reserveBound_stamped h
  | reserveWithinOwnerCap input => exact reserveWithinOwnerCap_stamped h
  | transition input => exact transition_stamped h
  | cancelUnsubmitted input => exact cancel_stamped h
  | settleMerchant input => exact settleMerchant_stamped h
  | settleMetaMask input => exact settleMetaMask_stamped h
  | releaseDirect expected journal now outcomeDigest => exact releaseDirect_stamped h

end Stamps

/-! ## Where a spend is charged -/

section Spends

variable {addresses : Addresses} {identity : AssetUsageIdentity} {bucket next : Bucket H}

/-- The step of a run that settled a spend: the hold it found was still open, and the spend is charged
between that hold's last write and the spend's own. -/
def FinalizedBy (addresses : Addresses) (identity : AssetUsageIdentity) (steps : List (LedgerStep H))
    (r : Reservation H) : Prop :=
  ∃ (before after : List (LedgerStep H)) (step : LedgerStep H) (held : Bucket H) (old : Reservation H)
    (e : Instant),
    steps = before ++ step :: after ∧ LedgerRun addresses identity KeyedStore.empty before held ∧
    held.find? r.reservationId = some old ∧ old.state.isOpen ∧
    r ∈ (ledgerStep addresses identity held step).rows ∧
    r.effectAt = some e ∧ old.updatedAt ≤ e ∧ e ≤ r.updatedAt

variable {r : Reservation H}

theorem FinalizedBy.snoc {steps : List (LedgerStep H)} (step : LedgerStep H)
    (h : FinalizedBy addresses identity steps r) : FinalizedBy addresses identity (steps ++ [step]) r := by
  rcases h with ⟨before, after, settling, held, old, e, hsteps, hrest⟩
  refine ⟨before, after ++ [step], settling, held, old, e, ?_, hrest⟩
  rw [hsteps]
  simp

-- A step leaves a spend that was there, or settles an open hold between its last write and its own.
theorem spend_step {step : LedgerStep H}
    (hr : r ∈ (ledgerStep addresses identity bucket step).rows) (hstate : r.state = .finalized) :
    r ∈ bucket.rows ∨ ∃ old e, bucket.find? r.reservationId = some old ∧ old.state.isOpen ∧
      r.effectAt = some e ∧ old.updatedAt ≤ e ∧ e ≤ r.updatedAt := by
  have hwrite : LedgerWrite (fun _ => True) bucket (ledgerStep addresses identity bucket step) :=
    ledgerStep_writes bucket step (fun _ _ _ _ _ => trivial) fun _ _ => trivial
  generalize ledgerStep addresses identity bucket step = next at hr hwrite
  cases hwrite with
  | unchanged => exact Or.inl hr
  | settled old new hfind hopen _ _ heffect =>
    rcases KeyedStore.mem_put.mp hr with rfl | ⟨hkept, _⟩
    · rcases r.effectAt_of_finalized hstate with ⟨e, he, _, hle⟩
      exact Or.inr ⟨old, e, hfind, hopen, he, heffect e he, hle⟩
    · exact Or.inl hkept
  | released new _ hreleased =>
    rcases KeyedStore.mem_put.mp hr with rfl | ⟨hkept, _⟩
    · rw [hstate] at hreleased
      cases hreleased
    · exact Or.inl hkept
  | admitted new _ _ _ _ hreserved =>
    rcases KeyedStore.mem_put.mp hr with rfl | ⟨hkept, _⟩
    · rw [hstate] at hreserved
      cases hreserved
    · exact Or.inl hkept

theorem finalized_run {steps : List (LedgerStep H)}
    (hrun : LedgerRun addresses identity KeyedStore.empty steps bucket)
    (hr : r ∈ bucket.rows) (hstate : r.state = .finalized) : FinalizedBy addresses identity steps r := by
  -- Induction on the run: a spend of its last bucket was there before, or the last step settled it.
  generalize hstart : (KeyedStore.empty : Bucket H) = start at hrun
  induction hrun with
  | refl =>
    rw [← hstart] at hr
    cases hr
  | @snoc held last before step hrun hlast ih =>
    rw [← hlast] at hr
    rcases spend_step hr hstate with hkept | ⟨old, e, hfind, hopen, heffect, hafter, hbefore⟩
    · exact (ih hkept).snoc step
    · rw [← hstart] at hrun
      exact ⟨before, [], step, held, old, e, rfl, hrun, hfind, hopen, hr, heffect, hafter, hbefore⟩

end Spends

/-- **Backward clocks.**  In every bucket the ledger's steps reach, at whatever instants they ran: a step
stamps what it writes no earlier than any row stored; a move the table and the other guards accept succeeds;
every spend is charged between its hold's last write and its own; and usage never grows as the clock goes on. -/
theorem backward_clock_safe {addresses : Addresses} {identity : AssetUsageIdentity}
    {steps : List (LedgerStep H)} {bucket : Bucket H}
    (hrun : LedgerRun addresses identity KeyedStore.empty steps bucket) :
    (∀ (step : LedgerStep H) (r : Reservation H) (next : Bucket H),
      step.perform addresses identity bucket = .ok (r, next) → StampedWrite bucket r next) ∧
    (∀ (retirements : List HistoricalRetirement) (input : AssetUsageTransitionInput) (current : Reservation H),
      bucket.find? input.reservationId = some current →
      Supplied retirements identity bucket input current.toReservationBody →
      input.state ∈ allowedTransitions current.state →
      ∃ r, retainedTransition retirements identity bucket input = .ok (r, bucket.put r) ∧
        r.state = input.state) ∧
    (∀ r ∈ bucket.rows, r.state = .finalized → FinalizedBy addresses identity steps r) ∧
    (∀ (retirements : List HistoricalRetirement) (s t : Instant) (usage : ℕ), s ≤ t →
      historicalRetirementUsage bucket.rows retirements s = .ok usage →
      ∃ usage', historicalRetirementUsage bucket.rows retirements t = .ok usage' ∧ usage' ≤ usage) := by
  refine ⟨fun step r next h => perform_stamped h, ?_, ?_, ?_⟩
  · intro retirements input current hfind hsupplied hallowed
    exact hsupplied.moves hfind hallowed
  · intro r hr hstate
    exact finalized_run hrun hr hstate
  · intro retirements s t usage hle husage
    exact historicalRetirementUsage_anti hle husage

/-! ## A clock that moves back a day, and a hold its journal keeps -/

namespace BackwardRun

open NextDayRun (hash addresses registry)

theorem dayMs_lower : firstInstantMs ≤ dayMs := by decide

theorem dayMs_upper : dayMs ≤ lastInstantMs := by decide

def dayOne : Instant := ⟨dayMs, dayMs_lower, dayMs_upper⟩

def dayZero : Instant := .epoch

/-- Seven units reserved on day 1; the clock then reads day 0 when the spend is proven. -/
def steps : List (LedgerStep hash) :=
  [.reserve ⟨registry, .direct, none, 7, "key-0001", dayOne, false⟩ none,
    .transition ⟨"key-0001", "p", .finalized, dayZero, some "d", none, some (some 5), none, ⟨none, none⟩⟩]

def settled : Bucket hash := steps.foldl (ledgerStep addresses NextDayRun.identity) KeyedStore.empty

theorem run_settled : LedgerRun addresses NextDayRun.identity KeyedStore.empty steps settled :=
  Runs.Run.cons rfl (Runs.Run.single rfl)

/-- The spend is settled by the run, and counts on day 0 at least as much as on day 1. -/
theorem backward_clock_safe_of_steps :
    (∀ r ∈ settled.rows, r.state = .finalized → FinalizedBy addresses NextDayRun.identity steps r) ∧
      (settled.rows.map fun r => (r.state, r.effectAt.map Instant.ms, r.updatedAt.ms)) =
        [(.finalized, some dayMs, dayMs)] :=
  ⟨(backward_clock_safe run_settled).2.2.1, by decide +kernel⟩

def payer : AssetUsageIdentity :=
  ⟨"0x0000000000000000000000000000000000000000", "eip155:1", .native⟩

/-- A hold of the MetaMask native journal, exposed. -/
def markedSteps : List (LedgerStep hash) :=
  [.reserve ⟨registry, .direct, none, 7, "apn.metamask-native:op:native", dayOne, false⟩ (some ⟨"op", "q"⟩),
    .transition ⟨"apn.metamask-native:op:native", "p", .submitted, dayOne, none, none, none, none,
      ⟨some false, some false⟩⟩]

def marked : Bucket hash := markedSteps.foldl (ledgerStep addresses payer) KeyedStore.empty

/-- Its owner asks for the spend with the right bindings and an outcome. -/
def finalize : AssetUsageTransitionInput :=
  ⟨"apn.metamask-native:op:native", "p", .finalized, dayOne, some "d", none, none, none,
    ⟨some false, some false⟩⟩

/-- The table allows the move and everything is supplied, but only the hold's own journal may settle it. -/
theorem allowed_move_refused :
    LedgerRun addresses payer KeyedStore.empty markedSteps marked ∧
      (∃ current, marked.find? finalize.reservationId = some current ∧
        current.policyDigest = finalize.policyDigest ∧ current.identity = payer ∧
        finalize.state ∈ allowedTransitions current.state ∧ finalize.outcomeDigest.isSome) ∧
      (transition payer marked finalize).isOk = false := by
  refine ⟨Runs.Run.cons rfl (Runs.Run.single rfl), ?_, ?_⟩
  · have hfound : (marked.find? finalize.reservationId).any (fun current =>
        current.policyDigest = finalize.policyDigest ∧ current.identity = payer ∧
          finalize.state ∈ allowedTransitions current.state) = true := by decide +kernel
    rcases (Option.any_eq_true _ _).mp hfound with ⟨current, hfind, hbound⟩
    rcases of_decide_eq_true hbound with ⟨hdigest, hidentity, hallowed⟩
    exact ⟨current, hfind, hdigest, hidentity, hallowed, rfl⟩
  · decide +kernel

end BackwardRun
end PaymentNode
