import PaymentNode.Ledger.Ledger

/-!
# Moves — a plain hold can always make an allowed move

`transition` can refuse for many reasons; none of them applies to a hold that carries no fee proof, no
marker and no consumption, when its owner names its own policy digest and gives an outcome for a terminal
state (`PlainInput`).  `PlainInput.moves` says so: such a hold makes every move the table allows, and stays
plain unless consumption was proven.
-/

namespace PaymentNode

variable {H : LedgerHash}

/-- A hold without a fee proof, a marker or proven consumption. -/
structure PlainHold (identity : AssetUsageIdentity) (r : ReservationBody) : Prop where
  identity_eq : r.identity = identity
  consumed : r.consumedAtomic = none
  merchantFee : r.merchantNativeActualFee = none
  marker : r.metamaskNativeReservation = none
  metamaskFee : r.metamaskNativeActualFee = none
  cleanup : r.cleanup85NativeReservation = false
  cleanupActual : r.cleanup85NativeActual = false

/-- The move an owner asks for without consumption or a proven effect time. -/
def plainMove (r : ReservationBody) (target : AssetUsageState) (now : Instant)
    (outcomeDigest : String) : AssetUsageTransitionInput where
  reservationId := r.reservationId
  policyDigest := r.policyDigest
  state := target
  now := now
  outcomeDigest := if target.isTerminal then some outcomeDigest else none
  consumedAtomic := none
  effectAt := none
  expectedCurrentStates := none
  journal := ⟨none, none⟩

/-- What the owner of a plain hold may ask of it. -/
structure PlainInput (r : ReservationBody) (input : AssetUsageTransitionInput) : Prop where
  reservationId : input.reservationId = r.reservationId
  policyDigest : input.policyDigest = r.policyDigest
  expected : ∀ states, input.expectedCurrentStates = some states → r.state ∈ states
  digest : input.state.isTerminal → input.outcomeDigest.isSome
  consumed : ∀ c, input.consumedAtomic = some c → input.state = .failedConfirmedRevert ∧ c ≤ r.amountAtomic
  effectAt : input.effectAt = none
  journal : input.journal = ⟨none, none⟩

/-- The outcome a move writes. -/
def AssetUsageTransitionInput.outcome (input : AssetUsageTransitionInput) : Option String :=
  if input.state.isTerminal then input.outcomeDigest else none

variable {identity : AssetUsageIdentity} {bucket : Bucket H} {current : Reservation H}
  {input : AssetUsageTransitionInput} {target : AssetUsageState} {now : Instant} {outcomeDigest : String}

theorem PlainHold.release_ok {r : ReservationBody} (h : PlainHold identity r)
    (hjournal : input.journal = ⟨none, none⟩) : assertMetaMaskRelease input r = .ok () := by
  unfold assertMetaMaskRelease
  split
  · rfl
  · simp [hjournal, h.marker]

theorem PlainInput.outcome_ok {r : ReservationBody} (h : PlainInput r input) :
    transitionOutcome input = .ok input.outcome := by
  unfold transitionOutcome AssetUsageTransitionInput.outcome
  by_cases hterminal : input.state.isTerminal
  · rcases Option.isSome_iff_exists.mp (h.digest hterminal) with ⟨digest, hdigest⟩
    simp [hterminal, hdigest]
  · simp [hterminal]

-- The outcome fields of an allowed move are those its state must carry.
theorem moved_outcome_valid (hdigest : input.state.isTerminal → input.outcomeDigest.isSome)
    (hconsumed : ∀ c, input.consumedAtomic = some c →
      input.state = .failedConfirmedRevert ∧ c ≤ current.amountAtomic)
    (hallowed : input.state ∈ allowedTransitions current.state) (hnone : current.consumedAtomic = none)
    {stamp effectAt : Instant} (hreserved : current.reservedAt ≤ effectAt) (hbefore : effectAt ≤ stamp) :
    validateOutcome (transitionBody input current.toReservationBody input.outcome effectAt stamp) = .ok () := by
  have hlower : ¬ effectAt < current.reservedAt := not_lt.mpr hreserved
  have hupper : ¬ stamp < effectAt := not_lt.mpr hbefore
  -- Only a confirmed revert can carry consumption.
  have hplainly : input.state ≠ .failedConfirmedRevert → input.consumedAtomic = none := by
    intro hne
    cases hc : input.consumedAtomic with
    | none => rfl
    | some c => exact absurd (hconsumed c hc).1 hne
  cases hstate : input.state with
  | reserved =>
    rw [hstate] at hallowed
    cases hs : current.state <;> simp [allowedTransitions, hs] at hallowed
  | submitted | unknownFinality =>
    have hnone := hplainly (by simp [hstate])
    simp [validateOutcome, transitionBody, AssetUsageTransitionInput.outcome, hstate, hnone,
      AssetUsageState.isTerminal]
  | finalized =>
    rcases Option.isSome_iff_exists.mp (hdigest (by simp [hstate, AssetUsageState.isTerminal])) with ⟨d, hd⟩
    simp [validateOutcome, transitionBody, AssetUsageTransitionInput.outcome, hstate, hd,
      AssetUsageState.isTerminal, hlower, hupper]
  | failedBeforeEffect | releasedUnsubmitted =>
    have hnone := hplainly (by simp [hstate])
    rcases Option.isSome_iff_exists.mp (hdigest (by simp [hstate, AssetUsageState.isTerminal])) with ⟨d, hd⟩
    simp [validateOutcome, transitionBody, AssetUsageTransitionInput.outcome, hstate, hd, hnone,
      AssetUsageState.isTerminal]
  | failedConfirmedRevert =>
    rcases Option.isSome_iff_exists.mp (hdigest (by simp [hstate, AssetUsageState.isTerminal])) with ⟨d, hd⟩
    cases hc : input.consumedAtomic with
    | none =>
      simp [validateOutcome, transitionBody, AssetUsageTransitionInput.outcome, hstate, hd, hc,
        hnone, AssetUsageState.isTerminal]
    | some c =>
      simp [validateOutcome, transitionBody, AssetUsageTransitionInput.outcome, hstate, hd, hc,
        AssetUsageState.isTerminal]

-- The body of a move of a plain hold passes the row check.
theorem PlainHold.moved_valid (hplain : PlainHold identity current.toReservationBody)
    (hinput : PlainInput current.toReservationBody input)
    (hallowed : input.state ∈ allowedTransitions current.state) {stamp effectAt : Instant}
    (hstamp : current.updatedAt ≤ stamp) (heffect : current.updatedAt ≤ effectAt)
    (hbefore : effectAt ≤ stamp) :
    validateBody H (transitionBody input current.toReservationBody input.outcome effectAt stamp) = .ok () := by
  rcases validateBody_ok.mp current.valid with ⟨hversion, hamount, _, _, _, _, _, htimes, _⟩
  have hconsumed : ∀ c, input.consumedAtomic = some c →
      input.state = .failedConfirmedRevert ∧ c ≤ current.amountAtomic := hinput.consumed
  apply validateBody_ok.mpr
  refine ⟨hversion, hamount, ?_, ?_, ?_, ?_, ?_, le_trans htimes hstamp, ?_⟩
  · cases hc : input.consumedAtomic with
    | none => simp [validateConsumption, transitionBody, hc, hplain.consumed]
    | some c => simp [validateConsumption, transitionBody, hc, hconsumed c hc]
  · simp [validateMarker, transitionBody, hplain.marker]
  · simp [validateMetaMaskFee, transitionBody, hplain.metamaskFee]
  · simp [validateCleanup85NativeUsage, transitionBody, hplain.cleanup, hplain.cleanupActual]
  · simp [validateMerchantFee, transitionBody, hplain.merchantFee]
  · exact moved_outcome_valid hinput.digest hconsumed hallowed hplain.consumed (le_trans htimes heffect) hbefore

theorem sealRow_of_valid {body : ReservationBody} (h : validateBody H body = .ok ()) :
    ∃ r, sealRow H body = .ok r ∧ r.toReservationBody = body := by
  refine ⟨⟨body, h⟩, ?_, rfl⟩
  unfold sealRow
  split
  · rfl
  · rename_i e he
    rw [h] at he
    cases he

theorem assertTransition_of_allowed {source : AssetUsageState}
    (h : target ∈ allowedTransitions source) : assertTransition source target = .ok () := by
  unfold assertTransition
  rw [if_neg (not_not.mpr h)]

theorem not_allowed_self (s : AssetUsageState) : ¬ s ∈ allowedTransitions s := by
  cases s <;> decide

-- A request a plain hold takes reaches the current row.
theorem PlainInput.transition_eq (hplain : PlainHold identity current.toReservationBody)
    (hinput : PlainInput current.toReservationBody input)
    (hfind : bucket.find? current.reservationId = some current) :
    transition identity bucket input = transitionCurrent bucket input current := by
  have hexpected := hinput.expected
  unfold transition
  rw [if_neg, hinput.reservationId]
  · simp only [hfind, hplain.release_ok hinput.journal]
    show (if current.policyDigest ≠ input.policyDigest ∨ current.identity ≠ identity then _
      else _) = _
    rw [if_neg (by simp [hinput.policyDigest, hplain.identity_eq]), if_neg]
    cases hstates : input.expectedCurrentStates with
    | none => simp
    | some states => simpa using hexpected states hstates
  · intro hnone
    cases hexpected [] hnone

/-- What a move leaves: the same hold in the state asked for, with the outcome and the consumption given. -/
structure MovedHold (identity : AssetUsageIdentity) (current : ReservationBody)
    (input : AssetUsageTransitionInput) (r : ReservationBody) : Prop where
  state : r.state = input.state
  reservationId : r.reservationId = current.reservationId
  policyDigest : r.policyDigest = current.policyDigest
  amount : r.amountAtomic = current.amountAtomic
  rail : r.rail = current.rail
  outcome : r.outcomeDigest = input.outcome
  consumed : r.consumedAtomic = input.consumedAtomic
  plain : input.consumedAtomic = none → PlainHold identity r
  identity_eq : r.identity = identity

/-- **An allowed move of a plain hold succeeds.** -/
theorem PlainInput.moves (hplain : PlainHold identity current.toReservationBody)
    (hinput : PlainInput current.toReservationBody input)
    (hfind : bucket.find? current.reservationId = some current)
    (hallowed : input.state ∈ allowedTransitions current.state) :
    ∃ r, transition identity bucket input = .ok (r, bucket.put r) ∧
      MovedHold identity current.toReservationBody input r.toReservationBody := by
  have hstamp : current.updatedAt ≤ bucketStamp bucket.rows input.now :=
    updatedAt_le_bucketStamp (KeyedStore.mem_of_find? hfind)
  have hne : ¬ current.state = input.state := by
    intro heq
    rw [heq] at hallowed
    exact not_allowed_self input.state hallowed
  have hconsumed : ∀ c, input.consumedAtomic = some c →
      input.state = .failedConfirmedRevert ∧ c ≤ current.amountAtomic := hinput.consumed
  have hvalid := hplain.moved_valid hinput hallowed hstamp
    (Instant.le_clamp hstamp (bucketStamp bucket.rows input.now).ms)
    (Instant.clamp_le hstamp (bucketStamp bucket.rows input.now).ms)
  rcases sealRow_of_valid hvalid with ⟨r, hseal, hbody⟩
  refine ⟨r, ?_, ?_⟩
  · rw [hinput.transition_eq hplain hfind]
    unfold transitionCurrent
    refine blocked_guard.mpr ⟨by simp [hplain.cleanup], ?_⟩
    refine bind_ok.mpr ⟨_, hinput.outcome_ok, ?_⟩
    refine blocked_guard.mpr ⟨?_, invalid_guard.mpr ⟨by simp [hinput.effectAt], ?_⟩⟩
    · cases hc : input.consumedAtomic with
      | none => simp
      | some c => simp [hconsumed c hc]
    · refine bind_ok.mpr ⟨Instant.clamp current.updatedAt (bucketStamp bucket.rows input.now)
        (bucketStamp bucket.rows input.now).ms, ?_, ?_⟩
      · rw [transitionEffectAt, hinput.effectAt]
      · rw [if_neg hne]
        exact bind_ok.mpr ⟨(), assertTransition_of_allowed hallowed, bind_ok.mpr ⟨r, hseal, rfl⟩⟩
  · rw [hbody]
    refine ⟨rfl, rfl, rfl, rfl, rfl, rfl, ?_, ?_, hplain.identity_eq⟩
    · cases hc : input.consumedAtomic <;> simp [transitionBody, hc, hplain.consumed]
    · intro hnone
      exact ⟨hplain.identity_eq, by simp [transitionBody, hnone, hplain.consumed], hplain.merchantFee,
        hplain.marker, hplain.metamaskFee, hplain.cleanup, hplain.cleanupActual⟩

theorem plainInput_plainMove : PlainInput current.toReservationBody
    (plainMove current.toReservationBody target now outcomeDigest) where
  reservationId := rfl
  policyDigest := rfl
  expected := fun _ h => nomatch h
  digest := fun h => by
    have hterminal : target.isTerminal = true := h
    simp [plainMove, hterminal]
  consumed := fun _ h => nomatch h
  effectAt := rfl
  journal := rfl

/-- **An allowed move of a plain hold succeeds** and leaves the same hold in the state asked for. -/
theorem transition_moves (hplain : PlainHold identity current.toReservationBody)
    (hfind : bucket.find? current.reservationId = some current)
    (hallowed : target ∈ allowedTransitions current.state) (now : Instant) (outcomeDigest : String) :
    ∃ r, transition identity bucket (plainMove current.toReservationBody target now outcomeDigest)
        = .ok (r, bucket.put r) ∧
      r.state = target ∧ r.reservationId = current.reservationId ∧
      r.policyDigest = current.policyDigest ∧ PlainHold identity r.toReservationBody := by
  rcases plainInput_plainMove.moves hplain hfind hallowed with ⟨r, hok, hmoved⟩
  exact ⟨r, hok, hmoved.state, hmoved.reservationId, hmoved.policyDigest, hmoved.plain rfl⟩

/-- What a reserve that answered found under its key, and what it left there. -/
inductive ReserveCase (bucket : Bucket H) (identity : AssetUsageIdentity) (input : AssetUsageReserveInput)
    (r : Reservation H) (next : Bucket H) : Prop
  | replayed (hnext : next = bucket) (hfind : bucket.find? r.reservationId = some r)
      (hkept : input.retryFailedBeforeEffect → r.state ≠ .failedBeforeEffect)
  | fresh (hnext : next = bucket.put r) (hfind : bucket.find? r.reservationId = none)
      (hstate : r.state = .reserved) (hplain : PlainHold identity r.toReservationBody)
      (hamount : r.amountAtomic = input.amountAtomic)
  | reopened (existing : Reservation H) (hnext : next = bucket.put r)
      (hfind : bucket.find? r.reservationId = some existing) (hretry : input.retryFailedBeforeEffect)
      (hold : existing.state = .failedBeforeEffect) (hstate : r.state = .reserved)
      (hplain : PlainHold identity existing.toReservationBody → PlainHold identity r.toReservationBody)
      (hpolicy : r.policyDigest = existing.policyDigest)

-- A reserve that answers leaves a row under its own key and of its own policy.
theorem reserveBound_cases {addresses : Addresses} {input : AssetUsageReserveInput} {r : Reservation H}
    {next : Bucket H} (h : reserveBound addresses identity bucket input none = .ok (r, next)) :
    r.reservationId = H.reservationIdFor identity (H.idempotency input.idempotencyKey) ∧
      r.policyDigest = input.registry.policyDigest ∧ ReserveCase bucket identity input r next := by
  unfold reserveBound at h
  rcases bind_ok.mp (blocked_guard.mp (blocked_guard.mp h).2).2 with ⟨initial, hinitial, h⟩
  rcases evaluateAssetPolicy_admitted hinitial with ⟨-, -, hamount, hdigest, -⟩
  rcases bind_ok.mp (invalid_guard.mp h).2 with ⟨hash, hhash, h⟩
  have hkey : hash = H.idempotency input.idempotencyKey := by
    have heq := (invalid_guard.mp hhash).2
    cases heq
    rfl
  dsimp only at h
  rw [← hkey]
  split at h
  · rename_i existing hfind
    have hid := KeyedStore.key_of_find? hfind
    unfold reserveExisting at h
    rcases bind_ok.mp (blocked_guard.mp h).2 with ⟨_, hreplay, h⟩
    have hpolicy : existing.policyDigest = input.registry.policyDigest := by
      rw [(assertReplay_ok hreplay).1, hdigest]
    split at h
    · rename_i hretry
      rcases bind_ok.mp h with ⟨_, _, h⟩
      rcases bind_ok.mp h with ⟨reopened, hseal, h⟩
      have hbody := sealRow_ok hseal
      cases h
      have hreservation : r.reservationId = existing.reservationId := by rw [hbody]
      refine ⟨hreservation.trans hid, by rw [hbody]; exact hpolicy, .reopened existing rfl ?_ hretry.1
        hretry.2 ?_ ?_ ?_⟩
      · rw [hreservation, hid]
        exact hfind
      · rw [hbody]
      · intro hplain
        rw [hbody]
        exact ⟨hplain.identity_eq, hplain.consumed, hplain.merchantFee, hplain.marker, hplain.metamaskFee,
          hplain.cleanup, hplain.cleanupActual⟩
      · rw [hbody]
    · rename_i hretry
      cases h
      refine ⟨hid, hpolicy, .replayed rfl (by rw [hid]; exact hfind) ?_⟩
      intro hasked hstate
      exact hretry ⟨hasked, hstate⟩
  · rename_i hnone
    rcases bind_ok.mp h with ⟨_, _, h⟩
    rcases bind_ok.mp h with ⟨record, hseal, h⟩
    have hbody := sealRow_ok hseal
    cases h
    have hid : r.reservationId = H.reservationIdFor identity hash := by
      rw [hbody]
      rfl
    refine ⟨hid, by rw [hbody]; exact hdigest, .fresh rfl (by rw [hid]; exact hnone) ?_ ?_ ?_⟩
    · rw [hbody]
      rfl
    · rw [hbody]
      exact ⟨rfl, rfl, rfl, rfl, rfl, rfl, rfl⟩
    · rw [hbody]
      exact hamount

-- What an ordinary reserve leaves under its key: the row it replayed, or a fresh plain hold.
theorem reserveBound_row {addresses : Addresses} {input : AssetUsageReserveInput} {r : Reservation H}
    {next : Bucket H} (hretry : input.retryFailedBeforeEffect = false)
    (h : reserveBound addresses identity bucket input none = .ok (r, next)) :
    r.reservationId = H.reservationIdFor identity (H.idempotency input.idempotencyKey) ∧
      ((next = bucket ∧ bucket.find? r.reservationId = some r) ∨
        (next = bucket.put r ∧ bucket.find? r.reservationId = none ∧ r.state = .reserved ∧
          PlainHold identity r.toReservationBody)) := by
  rcases reserveBound_cases h with ⟨hid, -, hcase⟩
  refine ⟨hid, ?_⟩
  cases hcase with
  | replayed hnext hfind _ => exact Or.inl ⟨hnext, hfind⟩
  | fresh hnext hfind hstate hplain _ => exact Or.inr ⟨hnext, hfind, hstate, hplain⟩
  | reopened existing hnext hfind hasked =>
    rw [hretry] at hasked
    cases hasked

end PaymentNode
