import PaymentNode.Ledger.Moves

/-!
# Hold — one row of a bucket that others write

An owner works on its own row by three calls: `load`, `transition` and `reserve`.  Between them the rest of
the bucket changes freely, so `holdExec` says what a call makes of the row, whatever bucket it was read in.
-/

namespace PaymentNode

/-- The identity of a hold's bucket, and the key the hold is reserved under. -/
structure HoldKey where
  addresses : Addresses
  identity : AssetUsageIdentity
  idempotencyKey : String

def HoldKey.reservationId (H : LedgerHash) (key : HoldKey) : String :=
  H.reservationIdFor key.identity (H.idempotency key.idempotencyKey)

inductive HoldOp
  | load
  | transition (input : AssetUsageTransitionInput)
  | reserve (input : AssetUsageReserveInput)

abbrev HoldOp.Answer (H : LedgerHash) : HoldOp → Type
  | load => Option (Reservation H)
  | transition _ => Result (Reservation H)
  | reserve _ => Result (Reservation H)

variable {H : LedgerHash}

/-- What a write of the ledger answers, and the row it leaves. -/
def writeExec (key : HoldKey) (row : Option (Reservation H))
    (write : Bucket H → Result (Reservation H × Bucket H)) (answer : Result (Reservation H))
    (row' : Option (Reservation H)) : Prop :=
  ∃ bucket : Bucket H, bucket.find? (key.reservationId H) = row ∧
    match write bucket with
    | .ok (r, next) => answer = .ok r ∧ row' = next.find? (key.reservationId H)
    | .error e => answer = .error e ∧ row' = row

def holdExec (key : HoldKey) (row : Option (Reservation H)) :
    (q : HoldOp) → q.Answer H → Option (Reservation H) → Prop
  | .load, answer, row' => answer = row ∧ row' = row
  | .transition input, answer, row' =>
    writeExec key row (fun bucket => transition key.identity bucket input) answer row'
  | .reserve input, answer, row' =>
    writeExec key row (fun bucket => reserveBound key.addresses key.identity bucket input none) answer row'

variable {key : HoldKey} {row row' : Option (Reservation H)} {current r : Reservation H}
  {input : AssetUsageTransitionInput} {answer : Result (Reservation H)}

/-- The bucket that holds only this row. -/
def ownBucket (row : Option (Reservation H)) : Bucket H :=
  match row with
  | none => KeyedStore.empty
  | some r => KeyedStore.empty.put r

/-- A write made in the bucket of the row alone. -/
def ownWrite (key : HoldKey) (row : Option (Reservation H))
    (write : Bucket H → Result (Reservation H × Bucket H)) :
    Result (Reservation H) × Option (Reservation H) :=
  match write (ownBucket row) with
  | .ok (r, next) => (.ok r, next.find? (key.reservationId H))
  | .error e => (.error e, row)

theorem find?_ownBucket (h : ∀ r, row = some r → r.reservationId = key.reservationId H) :
    (ownBucket row).find? (key.reservationId H) = row := by
  cases row with
  | none => rfl
  | some r =>
    rw [← h r rfl]
    exact KeyedStore.find?_put_self _ r

theorem writeExec_own {write : Bucket H → Result (Reservation H × Bucket H)}
    (h : ∀ r, row = some r → r.reservationId = key.reservationId H) :
    writeExec key row write (ownWrite key row write).1 (ownWrite key row write).2 := by
  refine ⟨ownBucket row, find?_ownBucket h, ?_⟩
  unfold ownWrite
  split
  · exact ⟨rfl, rfl⟩
  · exact ⟨rfl, rfl⟩

-- The row an own write leaves is still the own row.
theorem ownWrite_id {write : Bucket H → Result (Reservation H × Bucket H)}
    (h : ∀ r, row = some r → r.reservationId = key.reservationId H) :
    ∀ r, (ownWrite key row write).2 = some r → r.reservationId = key.reservationId H := by
  intro r hr
  unfold ownWrite at hr
  split at hr
  · have hid := KeyedStore.key_of_find? hr
    exact hid
  · exact h r hr

/-! ## Transitions -/

variable {identity : AssetUsageIdentity}

-- A row a transition answered is in the state asked for.
theorem transition_ok {bucket next : Bucket H} (h : transition identity bucket input = .ok (r, next)) :
    r.state = input.state ∧ r.reservationId = input.reservationId ∧ next.find? input.reservationId = some r := by
  unfold transition at h
  have hfound := (invalid_guard.mp h).2
  split at hfound
  · simp at hfound
  rename_i current hfind
  have hid := KeyedStore.key_of_find? hfind
  rcases bind_ok.mp hfound with ⟨_, _, h⟩
  have hcurrent := (blocked_guard.mp (blocked_guard.mp h).2).2
  unfold transitionCurrent at hcurrent
  rcases bind_ok.mp (blocked_guard.mp hcurrent).2 with ⟨outcome, _, h⟩
  rcases bind_ok.mp (invalid_guard.mp (blocked_guard.mp h).2).2 with ⟨effectAt, _, h⟩
  split at h
  · rename_i hstate
    have hsame := (blocked_guard.mp h).2
    cases hsame
    exact ⟨hstate, hid, hfind⟩
  · rcases bind_ok.mp h with ⟨_, _, h⟩
    rcases bind_ok.mp h with ⟨moved, hseal, h⟩
    have hbody := sealRow_ok hseal
    cases h
    have hreservation : r.reservationId = input.reservationId := by
      rw [hbody]
      exact hid
    refine ⟨by rw [hbody]; rfl, hreservation, ?_⟩
    rw [← hreservation]
    exact KeyedStore.find?_put_self _ r

-- A transition of the own row moves it to the state asked for, or leaves it.
theorem hold_transition (hid : input.reservationId = key.reservationId H)
    (h : holdExec key row (.transition input) answer row') :
    (∃ r, answer = .ok r ∧ row' = some r ∧ r.state = input.state) ∨
      ((∃ e, answer = .error e) ∧ row' = row) := by
  rcases h with ⟨bucket, hfind, h⟩
  dsimp only at h
  split at h
  · rename_i r next htransition
    rcases h with ⟨rfl, rfl⟩
    rcases transition_ok htransition with ⟨hstate, -, hnext⟩
    rw [← hid]
    exact Or.inl ⟨r, rfl, hnext, hstate⟩
  · rcases h with ⟨rfl, hrow⟩
    exact Or.inr ⟨⟨_, rfl⟩, hrow⟩

/-- **A plain hold makes every move its state allows**, whatever else is in the bucket. -/
theorem hold_moves (hplain : PlainHold key.identity current.toReservationBody)
    (hinput : PlainInput current.toReservationBody input)
    (hid : current.reservationId = key.reservationId H)
    (hallowed : input.state ∈ allowedTransitions current.state)
    (h : holdExec key (some current) (.transition input) answer row') :
    ∃ r, answer = .ok r ∧ row' = some r ∧
      MovedHold key.identity current.toReservationBody input r.toReservationBody := by
  rcases h with ⟨bucket, hfind, h⟩
  rw [← hid] at hfind h
  rcases hinput.moves hplain hfind hallowed with ⟨r, htransition, hmoved⟩
  dsimp only at h
  rw [htransition] at h
  refine ⟨r, h.1, ?_, hmoved⟩
  rw [h.2, ← hmoved.reservationId]
  exact KeyedStore.find?_put_self _ r

/-! ## Reserving -/

/-- What a reserve makes of the own row. -/
inductive HoldReserved (key : HoldKey) (row : Option (Reservation H)) (input : AssetUsageReserveInput)
    (r : Reservation H) : Prop
  | replayed (hrow : row = some r) (hkept : input.retryFailedBeforeEffect → r.state ≠ .failedBeforeEffect)
  | fresh (hrow : row = none) (hstate : r.state = .reserved)
      (hplain : PlainHold key.identity r.toReservationBody) (hamount : r.amountAtomic = input.amountAtomic)
  | reopened (existing : Reservation H) (hrow : row = some existing)
      (hretry : input.retryFailedBeforeEffect) (hold : existing.state = .failedBeforeEffect)
      (hstate : r.state = .reserved)
      (hplain : PlainHold key.identity existing.toReservationBody → PlainHold key.identity r.toReservationBody)
      (hpolicy : r.policyDigest = existing.policyDigest)

-- A reserve of the own key answers the row it leaves there, or leaves it.
theorem hold_reserve {input : AssetUsageReserveInput} (hkey : input.idempotencyKey = key.idempotencyKey)
    (h : holdExec key row (.reserve input) answer row') :
    (∃ r, answer = .ok r ∧ row' = some r ∧ r.reservationId = key.reservationId H ∧
        r.policyDigest = input.registry.policyDigest ∧ HoldReserved key row input r) ∨
      ((∃ e, answer = .error e) ∧ row' = row) := by
  rcases h with ⟨bucket, hfind, h⟩
  dsimp only at h
  split at h
  · rename_i r next hreserve
    rcases h with ⟨rfl, rfl⟩
    rcases reserveBound_cases hreserve with ⟨hid, hpolicy, hcase⟩
    rw [hkey] at hid
    have hown : r.reservationId = key.reservationId H := hid
    rw [← hown] at hfind ⊢
    refine Or.inl ⟨r, rfl, ?_, rfl, hpolicy, ?_⟩
    · cases hcase with
      | replayed hnext hsame _ => rw [hnext, hsame]
      | fresh hnext _ _ _ _ =>
        rw [hnext]
        exact KeyedStore.find?_put_self _ r
      | reopened _ hnext _ _ _ _ _ _ =>
        rw [hnext]
        exact KeyedStore.find?_put_self _ r
    · cases hcase with
      | replayed _ hsame hkept => exact .replayed (hfind.symm.trans hsame) hkept
      | fresh _ hnone hstate hplain hamount => exact .fresh (hfind.symm.trans hnone) hstate hplain hamount
      | reopened existing _ hsame hretry hold hstate hplain hpolicy =>
        exact .reopened existing (hfind.symm.trans hsame) hretry hold hstate hplain hpolicy
  · rcases h with ⟨rfl, hrow⟩
    exact Or.inr ⟨⟨_, rfl⟩, hrow⟩

/-! ## What a row is bound to -/

/-- What a row is for, whatever becomes of it. -/
def ReservationBody.binding (r : ReservationBody) : String × String × String × String × AssetPolicyRail × ℕ :=
  (r.reservationId, r.idempotencyHash, r.policyDigest, r.registryVersion, r.rail, r.amountAtomic)

-- A transition without consumption leaves a plain hold plain, and what it is for.
theorem transition_binding {identity identity' : AssetUsageIdentity} {bucket next : Bucket H}
    (h : transition identity' bucket input = .ok (r, next)) (hconsumed : input.consumedAtomic = none) :
    ∃ current, bucket.find? input.reservationId = some current ∧
      r.toReservationBody.binding = current.toReservationBody.binding ∧
      (PlainHold identity current.toReservationBody → PlainHold identity r.toReservationBody) := by
  unfold transition at h
  have hfound := (invalid_guard.mp h).2
  split at hfound
  · simp at hfound
  rename_i current hfind
  rcases bind_ok.mp hfound with ⟨_, _, h⟩
  have hcurrent := (blocked_guard.mp (blocked_guard.mp h).2).2
  unfold transitionCurrent at hcurrent
  rcases bind_ok.mp (blocked_guard.mp hcurrent).2 with ⟨outcome, _, h⟩
  rcases bind_ok.mp (invalid_guard.mp (blocked_guard.mp h).2).2 with ⟨effectAt, _, h⟩
  refine ⟨current, hfind, ?_⟩
  split at h
  · have hsame := (blocked_guard.mp h).2
    cases hsame
    exact ⟨rfl, id⟩
  · rcases bind_ok.mp h with ⟨_, _, h⟩
    rcases bind_ok.mp h with ⟨moved, hseal, h⟩
    have hbody := sealRow_ok hseal
    cases h
    rw [hbody]
    refine ⟨rfl, fun hplain => ⟨hplain.identity_eq, ?_, hplain.merchantFee, hplain.marker, hplain.metamaskFee,
      hplain.cleanup, hplain.cleanupActual⟩⟩
    show (if input.consumedAtomic.isSome then input.consumedAtomic else current.consumedAtomic) = none
    rw [hconsumed]
    exact hplain.consumed

-- A fresh hold is for what was asked.
theorem reserveBound_binding {addresses : Addresses} {bucket next : Bucket H} {input : AssetUsageReserveInput}
    (h : reserveBound addresses identity bucket input none = .ok (r, next))
    (hnone : bucket.find? (H.reservationIdFor identity (H.idempotency input.idempotencyKey)) = none) :
    r.toReservationBody.binding = (H.reservationIdFor identity (H.idempotency input.idempotencyKey),
      H.idempotency input.idempotencyKey, input.registry.policyDigest, input.registry.registryVersion, input.rail,
      input.amountAtomic) := by
  unfold reserveBound at h
  rcases bind_ok.mp (blocked_guard.mp (blocked_guard.mp h).2).2 with ⟨initial, hinitial, h⟩
  rcases evaluateAssetPolicy_admitted hinitial with ⟨-, -, hamount, hdigest, hversion, -⟩
  rcases bind_ok.mp (invalid_guard.mp h).2 with ⟨hash, hhash, h⟩
  have hkey : hash = H.idempotency input.idempotencyKey := by
    have heq := (invalid_guard.mp hhash).2
    cases heq
    rfl
  subst hkey
  dsimp only at h
  rw [hnone] at h
  rcases bind_ok.mp h with ⟨_, _, h⟩
  rcases bind_ok.mp h with ⟨record, hseal, h⟩
  have hbody := sealRow_ok hseal
  cases h
  have hfields : initial.amountAtomic = input.amountAtomic := hamount
  rw [hbody, ← hfields, ← hdigest, ← hversion]
  rfl

-- A cancellation answers the released row of its own key, bound as the row it found or as it asked.
theorem cancelUnsubmitted_row {bucket next : Bucket H}
    {input : CancelUnsubmittedReservationInput} (h : cancelUnsubmittedReservation identity bucket input = .ok (r, next)) :
    r.state = .releasedUnsubmitted ∧
      next.find? (H.reservationIdFor identity (H.idempotency input.idempotencyKey)) = some r ∧
      ((bucket.find? (H.reservationIdFor identity (H.idempotency input.idempotencyKey)) = none ∧
          PlainHold identity r.toReservationBody ∧
          r.toReservationBody.binding = (H.reservationIdFor identity (H.idempotency input.idempotencyKey),
            H.idempotency input.idempotencyKey, input.policyDigest, input.registryVersion, .x402,
            input.amountAtomic)) ∨
        ∃ current, bucket.find? (H.reservationIdFor identity (H.idempotency input.idempotencyKey)) = some current ∧
          r.toReservationBody.binding = current.toReservationBody.binding ∧
          (PlainHold identity current.toReservationBody → PlainHold identity r.toReservationBody)) := by
  unfold cancelUnsubmittedReservation at h
  have h := (invalid_guard.mp (invalid_guard.mp h).2).2
  rcases bind_ok.mp h with ⟨hash, hhash, h⟩
  have hkey : hash = H.idempotency input.idempotencyKey := by
    have heq := (invalid_guard.mp hhash).2
    cases heq
    rfl
  subst hkey
  dsimp only at h
  split at h
  · rename_i hnone
    rcases bind_ok.mp h with ⟨released, hseal, h⟩
    have hbody := sealRow_ok hseal
    cases h
    have hid : r.reservationId = H.reservationIdFor identity (H.idempotency input.idempotencyKey) := by
      rw [hbody]
      rfl
    refine ⟨by rw [hbody]; rfl, ?_, ?_⟩
    · rw [← hid]
      exact KeyedStore.find?_put_self _ r
    · refine Or.inl ⟨hnone, ?_⟩
      rw [hbody]
      exact ⟨⟨rfl, rfl, rfl, rfl, rfl, rfl, rfl⟩, rfl⟩
  · rename_i existing hfind
    have hexisting := KeyedStore.key_of_find? hfind
    rcases bind_ok.mp h with ⟨_, _, h⟩
    split at h
    · rename_i hreleased
      have hsame := (blocked_guard.mp h).2
      cases hsame
      exact ⟨hreleased, hfind, Or.inr ⟨r, hfind, rfl, id⟩⟩
    · rcases bind_ok.mp (blocked_guard.mp h).2 with ⟨released, hseal, h⟩
      have hbody := sealRow_ok hseal
      cases h
      have hid : r.reservationId = H.reservationIdFor identity (H.idempotency input.idempotencyKey) := by
        rw [hbody]
        exact hexisting
      refine ⟨by rw [hbody], ?_, ?_⟩
      · rw [← hid]
        exact KeyedStore.find?_put_self _ r
      · refine Or.inr ⟨existing, hfind, ?_⟩
        rw [hbody]
        refine ⟨rfl, fun hplain => ⟨hplain.identity_eq, hplain.consumed, hplain.merchantFee, hplain.marker,
          hplain.metamaskFee, hplain.cleanup, hplain.cleanupActual⟩⟩

end PaymentNode
