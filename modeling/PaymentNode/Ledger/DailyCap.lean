import PaymentNode.Ledger.Ledger
import PaymentNode.Lib.Runs

/-!
# DailyCap — no UTC day is ever charged past the daily limit

The cap is read once, at reserve, against a sum that mixes open holds with dated spends; the charge comes
later, on the day of the effect.  What is kept from step to step is the *exposure* of every day: what is
already charged to it, with every open hold last written on that day or before, since such a hold may still
be charged to it.  A hold only moves forward in time, so settling it never raises the exposure of any day
(`exposure_le_of_open`), and a reserve at `now` raises it for the days from `now` on, which all lie under
the usage it was admitted on (`exposure_le_usageOf`).
-/

namespace PaymentNode

variable {H : LedgerHash}

/-- The amount a record charges to a UTC day: a spend, or the proven consumption of a revert. -/
def chargedOn (r : ReservationBody) (day : ℤ) : ℕ :=
  if r.state = .finalized ∨ (r.state = .failedConfirmedRevert ∧ r.consumedAtomic.isSome) then
    if r.effectAt.any (fun e => e.day = day) then r.consumedAtomic.getD r.amountAtomic else 0
  else 0

/-- The amount an open hold may still charge to a UTC day. -/
def pendingOn (r : ReservationBody) (day : ℤ) : ℕ :=
  if r.state.isOpen ∧ r.updatedAt.day ≤ day then r.amountAtomic else 0

def exposureOn (r : ReservationBody) (day : ℤ) : ℕ := chargedOn r day + pendingOn r day

/-! ## The exposure of one record -/

variable {r : ReservationBody}

theorem chargedOn_eq_zero_of_open (h : r.state.isOpen) (day : ℤ) :
    chargedOn r day = 0 := by
  unfold chargedOn
  rw [if_neg]
  rintro (hs | ⟨hs, _⟩) <;> rw [hs] at h <;> exact absurd h (by decide)

theorem pendingOn_eq_zero_of_settled (h : ¬ r.state.isOpen) (day : ℤ) :
    pendingOn r day = 0 := by
  unfold pendingOn
  rw [if_neg]
  exact fun hc => h hc.1

theorem exposureOn_of_released (h : r.state = .failedBeforeEffect ∨ r.state = .releasedUnsubmitted) (day : ℤ) :
    exposureOn r day = 0 := by
  have hopen : ¬ r.state.isOpen := by
    rcases h with h | h <;> rw [h] <;> decide
  have hcharged : chargedOn r day = 0 := by
    unfold chargedOn
    rw [if_neg]
    rcases h with h | h <;> rw [h] <;> simp
  rw [exposureOn, hcharged, pendingOn_eq_zero_of_settled hopen]

theorem chargedOn_le_amount (r : Reservation H) (day : ℤ) :
    chargedOn r.toReservationBody day ≤ r.amountAtomic := by
  unfold chargedOn
  split
  · split
    · cases hc : r.consumedAtomic with
      | none => exact le_refl _
      | some consumed => exact r.consumed_le hc
    · omega
  · omega

theorem exposureOn_le_amount (r : Reservation H) (day : ℤ) :
    exposureOn r.toReservationBody day ≤ r.amountAtomic := by
  unfold exposureOn
  by_cases hopen : r.state.isOpen
  · rw [chargedOn_eq_zero_of_open hopen, Nat.zero_add]
    unfold pendingOn
    split <;> omega
  · rw [pendingOn_eq_zero_of_settled hopen]
    exact chargedOn_le_amount r day

-- Nothing is exposed on a day before both the effect and the last write.
theorem exposureOn_eq_zero_of_before {day : ℤ}
    (hupdated : day < r.updatedAt.day) (heffect : ∀ e, r.effectAt = some e → day < e.day) :
    exposureOn r day = 0 := by
  have hcharged : chargedOn r day = 0 := by
    unfold chargedOn
    split
    · rw [if_neg]
      intro h
      rcases (Option.any_eq_true _ _).mp h with ⟨e, he, hday⟩
      have hlt := heffect e he
      have heq : e.day = day := by simpa using hday
      omega
    · rfl
  have hpending : pendingOn r day = 0 := by
    unfold pendingOn
    rw [if_neg]
    rintro ⟨_, hle⟩
    omega
  rw [exposureOn, hcharged, hpending]

-- An open hold that is rewritten no earlier than it was last written exposes no day more than before.
theorem exposure_le_of_open {old new : Reservation H} (hopen : old.state.isOpen)
    (hamount : new.amountAtomic = old.amountAtomic) (hupdated : old.updatedAt ≤ new.updatedAt)
    (heffect : ∀ e, new.effectAt = some e → old.updatedAt ≤ e) (day : ℤ) :
    exposureOn new.toReservationBody day ≤ exposureOn old.toReservationBody day := by
  by_cases hday : old.updatedAt.day ≤ day
  · -- The whole amount of the old hold was already exposed on this day.
    have hold : exposureOn old.toReservationBody day = old.amountAtomic := by
      rw [exposureOn, chargedOn_eq_zero_of_open hopen, pendingOn, if_pos ⟨hopen, hday⟩, Nat.zero_add]
    have hnew := exposureOn_le_amount new day
    omega
  · have hbefore : exposureOn new.toReservationBody day = 0 := by
      apply exposureOn_eq_zero_of_before
      · have hle := Instant.day_mono hupdated
        omega
      · intro e he
        have hle := Instant.day_mono (heffect e he)
        omega
    omega

-- What a day is exposed to by a record is within the usage read on any earlier day.
theorem exposure_le_usageOf (r : Reservation H) {today day : ℤ} (hday : today ≤ day) :
    exposureOn r.toReservationBody day ≤ usageOf r.toReservationBody today := by
  cases hs : r.state with
  | failedBeforeEffect => rw [exposureOn_of_released (Or.inl hs)]; omega
  | releasedUnsubmitted => rw [exposureOn_of_released (Or.inr hs)]; omega
  | reserved | submitted | unknownFinality =>
    have husage : usageOf r.toReservationBody today = r.amountAtomic := by
      have hfee : r.hasActualFee = false := r.hasActualFee_of_open (by rw [hs]; rfl)
      simp [usageOf, hs, hfee]
    rw [husage]
    exact exposureOn_le_amount r day
  | finalized =>
    rcases r.effectAt_of_finalized hs with ⟨e, he, _, _⟩
    have hpending := pendingOn_eq_zero_of_settled (r := r.toReservationBody) (by rw [hs]; decide) day
    -- Charged on its own day only, which is not before the day that is read.
    by_cases hcharge : e.day = day
    · have hnot : ¬ e.day < today := by omega
      have hcharged : chargedOn r.toReservationBody day = r.consumedAtomic.getD r.amountAtomic := by
        simp [chargedOn, hs, he, hcharge]
      rw [exposureOn, hpending, hcharged]
      by_cases hfee : r.hasActualFee = true
      · rcases Option.isSome_iff_exists.mp (r.consumed_of_actualFee hfee) with ⟨consumed, hc⟩
        simp [usageOf, hs, he, hnot, hfee, hc]
      · have hconsumed : r.consumedAtomic = none := by
          cases hc : r.consumedAtomic with
          | none => rfl
          | some consumed =>
            have hvalid := r.consumption_valid
            simp [validateConsumption, hc, hs, hfee] at hvalid
        simp [usageOf, hs, he, hnot, hfee, hconsumed]
    · have hcharged : chargedOn r.toReservationBody day = 0 := by
        simp [chargedOn, he, hcharge]
      rw [exposureOn, hpending, hcharged]
      omega
  | failedConfirmedRevert =>
    have hpending := pendingOn_eq_zero_of_settled (r := r.toReservationBody) (by rw [hs]; decide) day
    cases hc : r.consumedAtomic with
    | none =>
      have hcharged : chargedOn r.toReservationBody day = 0 := by simp [chargedOn, hs, hc]
      rw [exposureOn, hpending, hcharged]
      omega
    | some consumed =>
      have he := r.effectAt_of_reverted hs hc
      by_cases hcharge : r.updatedAt.day = day
      · have hnot : ¬ r.updatedAt.day < today := by omega
        simp [exposureOn, hpending, chargedOn, usageOf, hs, hc, he, hnot]
        split <;> omega
      · have hcharged : chargedOn r.toReservationBody day = 0 := by
          simp [chargedOn, he, hcharge]
        rw [exposureOn, hpending, hcharged]
        omega

/-! ## What one locked step writes -/

/-- The four ways a locked step can leave the bucket: as it was, one open hold rewritten later, a released row
under a fresh key, or a hold admitted under its daily limit (`none` for one no daily limit was read for). -/
inductive LedgerWrite (admits : Option ℕ → Prop) (bucket : Bucket H) : Bucket H → Prop
  | unchanged : LedgerWrite admits bucket bucket
  | settled (old new : Reservation H) :
      bucket.find? new.reservationId = some old → old.state.isOpen →
      new.amountAtomic = old.amountAtomic → old.updatedAt ≤ new.updatedAt →
      (∀ e, new.effectAt = some e → old.updatedAt ≤ e) →
      LedgerWrite admits bucket (bucket.put new)
  | released (new : Reservation H) :
      bucket.find? new.reservationId = none → new.state = .releasedUnsubmitted →
      LedgerWrite admits bucket (bucket.put new)
  | admitted (new : Reservation H) (limit : Option ℕ) (now : Instant) :
      admits limit →
      (∀ L, limit = some L → ∃ usage, sumUsage bucket.rows now = .ok usage ∧ usage + new.amountAtomic ≤ L) →
      new.state = .reserved → now ≤ new.updatedAt →
      (∀ old, bucket.find? new.reservationId = some old → old.state = .failedBeforeEffect) →
      LedgerWrite admits bucket (bucket.put new)

section Writes

variable {admits : Option ℕ → Prop} {addresses : Addresses} {identity : AssetUsageIdentity}
  {bucket next : Bucket H} {r : Reservation H}

/-- The limit a reserve is evaluated against is one of those the run admits. -/
def AssetUsageReserveInput.limitAdmitted (admits : ℕ → Prop) (identity : AssetUsageIdentity)
    (input : AssetUsageReserveInput) : Prop :=
  ∀ limit, input.registry.dailyLimit? identity.chain identity.asset input.rail = some limit →
    admits limit

variable {input : AssetUsageReserveInput}

theorem admitUsage_ok {admission : AssetPolicyAdmission}
    (h : admitUsage addresses identity bucket input = .ok admission) :
    ∃ usage limit, sumUsage bucket.rows input.now = .ok usage ∧
      input.registry.dailyLimit? identity.chain identity.asset input.rail = some limit ∧
      usage + input.amountAtomic ≤ limit := by
  unfold admitUsage at h
  rcases bind_ok.mp h with ⟨usage, husage, heval⟩
  rcases evaluateAssetPolicy_admitted heval with ⟨_, _, _, _, _, _, limit, hlimit, hle⟩
  exact ⟨usage, limit, husage, hlimit, hle⟩

theorem reserveExisting_write {mm : Option MetaMaskNativeReservation}
    {initial : AssetPolicyAdmission} {hash : String} {existing : Reservation H}
    (hlimit : input.limitAdmitted (fun limit => admits (some limit)) identity)
    (hamount : initial.amountAtomic = input.amountAtomic)
    (hfind : bucket.find? existing.reservationId = some existing)
    (h : reserveExisting addresses identity bucket input mm initial hash existing = .ok (r, next)) :
    LedgerWrite admits bucket next := by
  unfold reserveExisting at h
  rcases bind_ok.mp (blocked_guard.mp h).2 with ⟨_, hreplay, h⟩
  split at h
  · rename_i hretry
    rcases bind_ok.mp h with ⟨admission, hadmit, h⟩
    rcases bind_ok.mp h with ⟨reopened, hseal, h⟩
    rcases admitUsage_ok hadmit with ⟨usage, limit, husage, hdaily, hle⟩
    have hbody := sealRow_ok hseal
    cases h
    have hid : r.reservationId = existing.reservationId := by rw [hbody]
    refine LedgerWrite.admitted r (some limit) input.now (hlimit limit hdaily) ?_ ?_ ?_ ?_
    · rintro _ ⟨⟩
      refine ⟨usage, husage, ?_⟩
      rw [hbody, (assertReplay_ok hreplay).2, hamount]
      exact hle
    · rw [hbody]
    · rw [hbody]
      exact now_le_bucketStamp bucket input.now
    · intro old hold
      rw [hid, hfind] at hold
      cases hold
      exact hretry.2
  · cases h
    exact LedgerWrite.unchanged

theorem reserveBound_write {mm : Option MetaMaskNativeReservation}
    (hlimit : input.limitAdmitted (fun limit => admits (some limit)) identity)
    (h : reserveBound addresses identity bucket input mm = .ok (r, next)) :
    LedgerWrite admits bucket next := by
  unfold reserveBound at h
  rcases bind_ok.mp (blocked_guard.mp (blocked_guard.mp h).2).2 with ⟨initial, hinitial, h⟩
  rcases bind_ok.mp (invalid_guard.mp h).2 with ⟨hash, _, h⟩
  have hamount : initial.amountAtomic = input.amountAtomic :=
    (evaluateAssetPolicy_admitted hinitial).2.2.1
  dsimp only at h
  split at h
  · rename_i existing hfind
    apply reserveExisting_write hlimit hamount _ h
    rw [KeyedStore.key_of_find? hfind]
    exact hfind
  · rename_i hnone
    rcases bind_ok.mp h with ⟨admission, hadmit, h⟩
    rcases bind_ok.mp h with ⟨record, hseal, h⟩
    rcases admitUsage_ok hadmit with ⟨usage, limit, husage, hdaily, hle⟩
    have hbody := sealRow_ok hseal
    cases h
    refine LedgerWrite.admitted r (some limit) input.now (hlimit limit hdaily) ?_ ?_ ?_ ?_
    · rintro _ ⟨⟩
      refine ⟨usage, husage, ?_⟩
      rw [hbody]
      show usage + initial.amountAtomic ≤ limit
      rw [hamount]
      exact hle
    · rw [hbody]
      rfl
    · rw [hbody]
      exact now_le_bucketStamp bucket input.now
    · intro old hold
      have hid : r.reservationId = H.reservationIdFor identity hash := by
        rw [hbody]
        rfl
      rw [hid, hnone] at hold
      cases hold

theorem reserveWithinOwnerCap_write {input : OwnerCapInput} (huncapped : admits none)
    (h : reserveWithinOwnerCap identity bucket input = .ok (r, next)) : LedgerWrite admits bucket next := by
  unfold reserveWithinOwnerCap at h
  rcases bind_ok.mp h with ⟨hash, _, h⟩
  have h := (blocked_guard.mp (invalid_guard.mp (blocked_guard.mp (invalid_guard.mp h).2).2).2).2
  dsimp only at h
  split at h
  · rcases bind_ok.mp h with ⟨_, _, h⟩
    cases h
    exact LedgerWrite.unchanged
  · rename_i hnone
    rcases bind_ok.mp h with ⟨record, hseal, h⟩
    have hbody := sealRow_ok hseal
    cases h
    refine LedgerWrite.admitted r none input.now huncapped ?_ ?_ ?_ ?_
    · rintro _ ⟨⟩
    · rw [hbody]
      rfl
    · rw [hbody]
      exact now_le_bucketStamp bucket input.now
    · intro old hold
      have hid : r.reservationId = H.reservationIdFor identity hash := by
        rw [hbody]
        rfl
      rw [hid, hnone] at hold
      cases hold

theorem isOpen_of_allowed {source target : AssetUsageState} (h : target ∈ allowedTransitions source) :
    source.isOpen := by
  cases source <;> first | rfl | cases h

variable {input : AssetUsageTransitionInput}

theorem transitionEffectAt_ge {current : ReservationBody}
    {stamp effectAt : Instant} (hstamp : current.updatedAt ≤ stamp)
    (h : transitionEffectAt input current stamp = .ok effectAt) : current.updatedAt ≤ effectAt := by
  unfold transitionEffectAt at h
  split at h
  · cases h
    exact Instant.le_clamp hstamp _
  · exact absurd h invalid_ne_ok
  · cases h
    exact Instant.le_clamp hstamp _

theorem transitionCurrent_write {current : Reservation H}
    (hfind : bucket.find? current.reservationId = some current)
    (h : transitionCurrent bucket input current = .ok (r, next)) :
    LedgerWrite admits bucket next := by
  have hstamp : current.updatedAt ≤ bucketStamp bucket.rows input.now :=
    updatedAt_le_bucketStamp (KeyedStore.mem_of_find? hfind)
  unfold transitionCurrent at h
  rcases bind_ok.mp (blocked_guard.mp h).2 with ⟨outcomeDigest, _, h⟩
  rcases bind_ok.mp (invalid_guard.mp (blocked_guard.mp h).2).2 with ⟨effectAt, heffect, h⟩
  split at h
  · cases (blocked_guard.mp h).2
    exact LedgerWrite.unchanged
  · rcases bind_ok.mp h with ⟨_, hallowed, h⟩
    rcases bind_ok.mp h with ⟨sealed, hseal, h⟩
    have hbody := sealRow_ok hseal
    cases h
    have hopen : current.state.isOpen :=
      isOpen_of_allowed (not_not.mp (blocked_guard.mp hallowed).1)
    refine LedgerWrite.settled current r ?_ hopen ?_ ?_ ?_
    · rw [hbody]
      exact hfind
    · rw [hbody]
      rfl
    · rw [hbody]
      exact hstamp
    · intro e he
      rw [hbody] at he
      simp only [transitionBody] at he
      split at he
      · cases he
        exact transitionEffectAt_ge hstamp heffect
      · split at he
        · cases he
          exact hstamp
        · cases he

theorem transition_write
    (h : transition identity bucket input = .ok (r, next)) : LedgerWrite admits bucket next := by
  unfold transition at h
  have h := (invalid_guard.mp h).2
  split at h
  · exact absurd h blocked_ne_ok
  · rename_i current hfind
    rcases bind_ok.mp h with ⟨_, _, h⟩
    have h := (blocked_guard.mp (blocked_guard.mp h).2).2
    apply transitionCurrent_write _ h
    rw [KeyedStore.key_of_find? hfind]
    exact hfind

-- An open hold sealed again under its own key, with this write's stamp as its last write and its only
-- possible effect instant, is one of the writes that settle.
theorem settled_write {old : Reservation H} {body : ReservationBody} (now : Instant)
    (h : sealRow H body = .ok r) (hfind : bucket.find? old.reservationId = some old) (hopen : old.state.isOpen)
    (hid : body.reservationId = old.reservationId) (hamount : body.amountAtomic = old.amountAtomic)
    (hupdated : body.updatedAt = bucketStamp bucket.rows now)
    (heffect : ∀ e, body.effectAt = some e → e = bucketStamp bucket.rows now) :
    LedgerWrite admits bucket (bucket.put r) := by
  have hbody := sealRow_ok h
  have hstamp : old.updatedAt ≤ bucketStamp bucket.rows now :=
    updatedAt_le_bucketStamp (KeyedStore.mem_of_find? hfind)
  refine LedgerWrite.settled old r ?_ hopen ?_ ?_ ?_
  · rw [hbody, hid]
    exact hfind
  · rw [hbody, hamount]
  · rw [hbody, hupdated]
    exact hstamp
  · intro e he
    rw [hbody] at he
    rw [heffect e he]
    exact hstamp

theorem isOpen_of_exposed {s : AssetUsageState} (h : ¬ (s ≠ .submitted ∧ s ≠ .unknownFinality)) :
    s.isOpen := by
  cases s <;> first | rfl | exact absurd ⟨by decide, by decide⟩ h

theorem cancel_write {input : CancelUnsubmittedReservationInput}
    (h : cancelUnsubmittedReservation identity bucket input = .ok (r, next)) :
    LedgerWrite admits bucket next := by
  unfold cancelUnsubmittedReservation at h
  rcases bind_ok.mp (invalid_guard.mp (invalid_guard.mp h).2).2 with ⟨hash, _, h⟩
  dsimp only at h
  split at h
  · rename_i hnone
    rcases bind_ok.mp h with ⟨released, hseal, h⟩
    have hbody := sealRow_ok hseal
    cases h
    refine LedgerWrite.released r ?_ ?_
    · rw [hbody]
      exact hnone
    · rw [hbody]
      rfl
  · rename_i current hfind
    rcases bind_ok.mp h with ⟨_, _, h⟩
    split at h
    · cases (blocked_guard.mp h).2
      exact LedgerWrite.unchanged
    · rcases blocked_guard.mp h with ⟨hreserved, h⟩
      rcases bind_ok.mp h with ⟨released, hseal, h⟩
      cases h
      have hopen : current.state.isOpen := by
        rw [not_not.mp hreserved]
        rfl
      have hsame := KeyedStore.key_of_find? hfind
      rw [← hsame] at hfind
      exact settled_write input.now hseal hfind hopen rfl rfl rfl (by simp)

theorem settleMerchant_write {input : MerchantSettlementInput}
    (h : settleMerchantNativeActualFee identity bucket input = .ok (r, next)) :
    LedgerWrite admits bucket next := by
  unfold settleMerchantNativeActualFee at h
  rcases bind_ok.mp h with ⟨hash, _, h⟩
  split at h
  · exact absurd h blocked_ne_ok
  · rename_i current hfind
    have h := (blocked_guard.mp h).2
    split at h
    · cases (blocked_guard.mp h).2
      exact LedgerWrite.unchanged
    · rcases blocked_guard.mp h with ⟨hexposed, h⟩
      rcases bind_ok.mp h with ⟨settled, hseal, h⟩
      cases h
      have hsame := KeyedStore.key_of_find? hfind
      rw [← hsame] at hfind
      refine settled_write input.now hseal hfind (isOpen_of_exposed hexposed) rfl rfl rfl ?_
      intro e he
      cases he
      rfl

-- Whatever the receipt says, the settled hold keeps its key and amount and is stamped by this write.
theorem metaMaskSettledBody_fields (identity : AssetUsageIdentity) (input : MetaMaskSettlementInput)
    (current : ReservationBody) (stamp : Instant) :
    (metaMaskSettledBody H identity input current stamp).reservationId = current.reservationId ∧
      (metaMaskSettledBody H identity input current stamp).amountAtomic = current.amountAtomic ∧
      (metaMaskSettledBody H identity input current stamp).updatedAt = stamp ∧
      (metaMaskSettledBody H identity input current stamp).effectAt = some stamp := by
  by_cases hnative : identity.asset = .native
  · simp [metaMaskSettledBody, hnative]
  · by_cases haccepted : input.transferAccepted <;>
      simp [metaMaskSettledBody, hnative, haccepted]

theorem settleMetaMask_write {input : MetaMaskSettlementInput}
    (h : settleMetaMaskNativeActual identity bucket input = .ok (r, next)) :
    LedgerWrite admits bucket next := by
  unfold settleMetaMaskNativeActual at h
  split at h
  · exact absurd h blocked_ne_ok
  · rename_i current hfind
    have h := (blocked_guard.mp h).2
    split at h
    · cases (blocked_guard.mp h).2
      exact LedgerWrite.unchanged
    · rcases blocked_guard.mp h with ⟨hexposed, h⟩
      rcases bind_ok.mp (blocked_guard.mp h).2 with ⟨settled, hseal, h⟩
      cases h
      have hsame := KeyedStore.key_of_find? hfind
      rw [← hsame] at hfind
      have hfields := metaMaskSettledBody_fields (H := H) identity input current.toReservationBody
        (bucketStamp bucket.rows input.now)
      refine settled_write input.now hseal hfind (isOpen_of_exposed hexposed) hfields.1 hfields.2.1
        hfields.2.2.1 ?_
      intro e he
      rw [hfields.2.2.2] at he
      cases he
      rfl

theorem releaseDirect_write {expected : Reservation H} {journal : Option Bool} {now : Instant}
    {outcomeDigest : String}
    (h : releaseDirectReservedAfter bucket expected journal now outcomeDigest = .ok (r, next)) :
    LedgerWrite admits bucket next := by
  unfold releaseDirectReservedAfter at h
  rcases blocked_guard.mp (blocked_guard.mp (blocked_guard.mp h).2).2 with ⟨hreserved, h⟩
  split at h
  · exact absurd h blocked_ne_ok
  · rename_i current hfind
    rcases blocked_guard.mp h with ⟨hsame, h⟩
    rcases bind_ok.mp (blocked_guard.mp h).2 with ⟨released, hseal, h⟩
    cases h
    have hbody : current.toReservationBody = expected.toReservationBody := not_not.mp hsame
    have hopen : current.state.isOpen := by
      rw [hbody]
      rw [not_or, not_not, not_not] at hreserved
      rw [hreserved.2]
      rfl
    rw [← hbody] at hfind hseal
    exact settled_write now hseal hfind hopen rfl rfl rfl (by simp)

end Writes

/-- A reserve is evaluated against a registry whose daily limit for its rail is at most `L`; a reserve under the
owner's cap alone is evaluated against none. -/
def LedgerStep.limitAtMost (identity : AssetUsageIdentity) (L : ℕ) : LedgerStep H → Prop
  | .reserve input _ => input.limitAdmitted (· ≤ L) identity
  | .reserveWithinOwnerCap _ => False
  | _ => True

-- Every locked step leaves one of the four writes, its reserves under an admitted limit.
theorem ledgerStep_writes {addresses : Addresses} {identity : AssetUsageIdentity} {admits : Option ℕ → Prop}
    (bucket : Bucket H) (step : LedgerStep H)
    (hlimit : ∀ input mm, step = .reserve input mm →
      input.limitAdmitted (fun limit => admits (some limit)) identity)
    (huncapped : ∀ input, step = .reserveWithinOwnerCap input → admits none) :
    LedgerWrite admits bucket (ledgerStep addresses identity bucket step) := by
  unfold ledgerStep
  cases h : step.perform addresses identity bucket with
  | error _ => exact LedgerWrite.unchanged
  | ok result =>
    rcases result with ⟨r, next⟩
    cases step with
    | reserve input mm => exact reserveBound_write (hlimit input mm rfl) h
    | reserveWithinOwnerCap input => exact reserveWithinOwnerCap_write (huncapped input rfl) h
    | transition input => exact transition_write h
    | cancelUnsubmitted input => exact cancel_write h
    | settleMerchant input => exact settleMerchant_write h
    | settleMetaMask input => exact settleMetaMask_write h
    | releaseDirect expected journal now outcomeDigest => exact releaseDirect_write h

/-- A new hold was admitted under a daily limit, of at most `L`. -/
abbrev CappedBy (L : ℕ) (limit : Option ℕ) : Prop := ∃ l, limit = some l ∧ l ≤ L

theorem ledgerStep_write {addresses : Addresses} {identity : AssetUsageIdentity} {L : ℕ}
    (bucket : Bucket H) (step : LedgerStep H) (hlimit : step.limitAtMost identity L) :
    LedgerWrite (CappedBy L) bucket (ledgerStep addresses identity bucket step) := by
  apply ledgerStep_writes bucket step
  · rintro input mm rfl limit hdaily
    exact ⟨limit, rfl, hlimit limit hdaily⟩
  · rintro input rfl
    exact hlimit.elim

/-! ## The cap over a run -/

/-- The invariant: no day is exposed past the limit. -/
def DayBounded (L : ℕ) (bucket : Bucket H) : Prop :=
  ∀ day, bucket.total (fun r => exposureOn r.toReservationBody day) ≤ L

-- Every write keeps the bound; the only one that raises an exposure is an admitted reserve.
theorem dayBounded_write {L : ℕ} {bucket next : Bucket H} (hbound : DayBounded L bucket)
    (h : LedgerWrite (CappedBy L) bucket next) : DayBounded L next := by
  intro day
  cases h with
  | unchanged => exact hbound day
  | settled old new hfind hopen hamount hupdated heffect =>
    have hput := KeyedStore.total_put_of_some (f := fun r => exposureOn r.toReservationBody day) hfind
    have hle := exposure_le_of_open hopen hamount hupdated heffect day
    have hold := hbound day
    omega
  | released new hfind hstate =>
    have hput := KeyedStore.total_put_of_none (f := fun r => exposureOn r.toReservationBody day) hfind
    have hzero := exposureOn_of_released (Or.inr hstate) day
    have hold := hbound day
    omega
  | admitted new limit now hlimit hadmitted hstate hnow hold =>
    rcases hlimit with ⟨limit, rfl, hlimit⟩
    rcases hadmitted limit rfl with ⟨usage, husage, hfits⟩
    have hput := KeyedStore.total_put bucket (fun r => exposureOn r.toReservationBody day) new
    have hbefore := hbound day
    have hopen : new.state.isOpen := by
      rw [hstate]
      rfl
    by_cases hday : now.day ≤ day
    · -- From `now` on, everything the day is exposed to is in the usage the reserve was admitted on.
      have husage' : bucket.total (fun r => exposureOn r.toReservationBody day) ≤ usage := by
        rw [sumUsage_ok husage]
        exact KeyedStore.total_mono fun r _ => exposure_le_usageOf r hday
      have hnew := exposureOn_le_amount new day
      omega
    · -- Earlier days never see the new hold: it is stamped at `now` or after.
      have hzero : exposureOn new.toReservationBody day = 0 := by
        have hle := Instant.day_mono hnow
        rw [exposureOn, chargedOn_eq_zero_of_open hopen, pendingOn, if_neg]
        rintro ⟨_, hstamp⟩
        omega
      omega

-- One locked step, refused or not, on a bucket under the bound.
theorem dayBounded_step {addresses : Addresses} {identity : AssetUsageIdentity} {L : ℕ}
    {bucket : Bucket H} (hbound : DayBounded L bucket) (step : LedgerStep H)
    (hlimit : step.limitAtMost identity L) :
    DayBounded L (ledgerStep addresses identity bucket step) :=
  dayBounded_write hbound (ledgerStep_write bucket step hlimit)

/-- A run of locked steps on one bucket. -/
abbrev LedgerRun (addresses : Addresses) (identity : AssetUsageIdentity) :
    Bucket H → List (LedgerStep H) → Bucket H → Prop :=
  Runs.Run fun bucket step next => ledgerStep addresses identity bucket step = next

theorem dayBounded_run {addresses : Addresses} {identity : AssetUsageIdentity} {L : ℕ}
    {steps : List (LedgerStep H)} {bucket : Bucket H}
    (hrun : LedgerRun addresses identity KeyedStore.empty steps bucket)
    (hlimit : ∀ step ∈ steps, step.limitAtMost identity L) : DayBounded L bucket := by
  apply hrun.invariant_of_labels hlimit
  · intro day
    rw [KeyedStore.total_empty]
    omega
  · rintro s step t hbound hstep rfl
    exact dayBounded_step hbound step hstep

/-- **Daily cap.**  Whatever the clocks, the settlements and the re-openings, what the finalized records and
the reverted ones with proven consumption charge to a UTC day stays within the limit every reserve was
evaluated against. -/
theorem charged_day_le_dailyLimit {addresses : Addresses} {identity : AssetUsageIdentity} {L : ℕ}
    {steps : List (LedgerStep H)} {bucket : Bucket H}
    (hrun : LedgerRun addresses identity KeyedStore.empty steps bucket)
    (hlimit : ∀ step ∈ steps, step.limitAtMost identity L) (day : ℤ) :
    bucket.total (fun r => chargedOn r.toReservationBody day) ≤ L := by
  apply le_trans _ (dayBounded_run hrun hlimit day)
  apply KeyedStore.total_mono
  intro r _
  unfold exposureOn
  omega

/-! ## A reserve on one day that finalizes on the next -/

namespace NextDayRun

def hash : LedgerHash := ⟨fun key => key, fun _ key => key, fun proof => proof.receiptHash⟩

def addresses : Addresses := ⟨fun _ _ => true, fun _ _ => true⟩

def identity : AssetUsageIdentity := ⟨"0x1", "eip155:1", .native⟩

/-- Ten units a day on every rail of the native coin. -/
def registry : AssetPolicyRegistry where
  schemaVersion := .v1
  registryVersion := "r1"
  effectiveDate := 0
  effectiveAt := none
  expiresAt := none
  chains := [⟨"eip155:1", .evm, [⟨.native, fun _ => true, some ⟨10, 10⟩, fun _ => none, none⟩]⟩]
  policyDigest := "p"

/-- Seven units, reserved on day 0 and proven on that day by a write of day 1. -/
def steps : List (LedgerStep hash) :=
  [.reserve ⟨registry, .direct, none, 7, "key-0001", ⟨0, by decide, by decide⟩, false⟩ none,
    .transition ⟨"key-0001", "p", .finalized, ⟨dayMs, by decide, by decide⟩, some "d", none,
      some (some 5), none, ⟨none, none⟩⟩]

def settled : Bucket hash := steps.foldl (ledgerStep addresses identity) KeyedStore.empty

theorem limit_of_registry {limit : ℕ}
    (h : registry.dailyLimit? "eip155:1" .native .direct = some limit) : limit ≤ 10 := by
  have hten : registry.dailyLimit? "eip155:1" .native .direct = some 10 := by decide
  rw [hten] at h
  cases h
  decide

/-- The spend counts on the day it was proven, within that day's limit. -/
theorem charged_day_le_dailyLimit_of_steps :
    settled.total (fun r => chargedOn r.toReservationBody 0) = 7 ∧
      settled.total (fun r => chargedOn r.toReservationBody 0) ≤ 10 := by
  refine ⟨by decide +kernel, ?_⟩
  have hrun : LedgerRun addresses identity KeyedStore.empty steps settled :=
    Runs.Run.cons rfl (Runs.Run.single rfl)
  apply charged_day_le_dailyLimit hrun
  intro step hstep
  simp only [steps, List.mem_cons, List.not_mem_nil, or_false] at hstep
  rcases hstep with rfl | rfl
  · exact fun limit h => limit_of_registry h
  · trivial

end NextDayRun
end PaymentNode
