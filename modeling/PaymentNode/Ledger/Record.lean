import PaymentNode.Ledger.Policy
import PaymentNode.Lib.KeyedStore

/-!
# Record — one row of the shared usage ledger

`ReservationBody` is a row without its digest, `validateBody` the check every stored row passes, and
`Reservation` a body that passed it: `sealRow` is the only way to make one.  `sumUsage` is the day's usage
the cap is read against, `bucketStamp` the stamp of a write, `assertTransition` the table of moves.
A bucket is the directory of one (account, chain, asset): its rows under their reservation ids.
-/

namespace PaymentNode

inductive AssetUsageState
  | reserved
  | submitted
  | unknownFinality
  | finalized
  | failedBeforeEffect
  | releasedUnsubmitted
  | failedConfirmedRevert
deriving DecidableEq, Repr

structure AssetUsageIdentity where
  account : String
  chain : String
  asset : Asset
deriving DecidableEq, Repr

/-- The receipt-bound proof under which a native hold settles at its actual fee. -/
structure NativeActualFee where
  operationId : String
  bindingHash : String
  receiptHash : String
  actualFee : ℕ
  reservedFee : ℕ
deriving DecidableEq, Repr

structure MetaMaskNativeReservation where
  operationId : String
  quoteHash : String
deriving DecidableEq, Repr

structure ReservationBody where
  reservationId : String
  idempotencyHash : String
  policyDigest : String
  registryVersion : String
  identity : AssetUsageIdentity
  rail : AssetPolicyRail
  amountAtomic : ℕ
  consumedAtomic : Option ℕ
  merchantNativeActualFee : Option NativeActualFee
  metamaskNativeReservation : Option MetaMaskNativeReservation
  metamaskNativeActualFee : Option NativeActualFee
  cleanup85NativeReservation : Bool
  cleanup85NativeActual : Bool
  state : AssetUsageState
  reservedAt : Instant
  updatedAt : Instant
  effectAt : Option Instant
  outcomeDigest : Option String
deriving DecidableEq, Repr

/-- The digests a row is bound by: the hash of a key, of an identity with it, and of a fee proof. -/
structure LedgerHash where
  idempotency : String → String
  reservationIdFor : AssetUsageIdentity → String → String
  hashObject : NativeActualFee → String

variable (H : LedgerHash)

section

variable (r : ReservationBody)

/-- A row that settled at a fee proven from its receipt rather than at its whole amount. -/
def ReservationBody.hasActualFee : Bool :=
  r.merchantNativeActualFee.isSome || r.cleanup85NativeActual || r.metamaskNativeActualFee.isSome

def registryVersionChar (c : Char) : Bool :=
  ('a' ≤ c && c ≤ 'z') || c.isDigit || c = '.' || c = '_' || c = '-'

/-- 1 to 64 lower-case characters, the first a letter or a digit. -/
def registryVersionShape (s : String) : Bool :=
  match s.toList with
  | c :: rest =>
    (('a' ≤ c && c ≤ 'z') || c.isDigit) && rest.length ≤ 63 && rest.all registryVersionChar
  | [] => false

def isHexDigit (c : Char) : Bool :=
  c.isDigit || ('a' ≤ c && c ≤ 'f') || ('A' ≤ c && c ≤ 'F')

/-- `0x` and forty hexadecimal digits. -/
def evmAddressShape (s : String) : Bool :=
  match s.toList with
  | '0' :: 'x' :: digits => digits.length = 40 && digits.all isHexDigit
  | _ => false

/-- `eip155:` and a decimal number without a leading zero. -/
def evmChainShape (s : String) : Bool :=
  match s.toList with
  | 'e' :: 'i' :: 'p' :: '1' :: '5' :: '5' :: ':' :: d :: digits =>
    d.isDigit && d ≠ '0' && digits.all Char.isDigit
  | _ => false

/-- The MetaMask hold marker names the operation the row's own key was derived from. -/
def validateMarker : Bool :=
  match r.metamaskNativeReservation with
  | none => true
  | some p =>
    let key := "apn.metamask-native:" ++ p.operationId ++
      (match r.identity.asset with | .native => ":native" | .token _ => ":token")
    evmAddressShape r.identity.account && r.rail = .direct && r.idempotencyHash = H.idempotency key &&
      r.reservationId = H.reservationIdFor r.identity r.idempotencyHash

/-- The MetaMask fee proof is the settled hold's own, and its outcome. -/
def validateMetaMaskFee : Bool :=
  match r.metamaskNativeActualFee with
  | none => true
  | some p =>
    (r.metamaskNativeReservation.any fun m =>
        m.operationId = p.operationId && m.quoteHash = p.bindingHash) &&
      r.state = .finalized && evmAddressShape r.identity.account &&
      evmChainShape r.identity.chain && r.rail = .direct &&
      r.identity.asset = .native &&
      r.idempotencyHash = H.idempotency ("apn.metamask-native:" ++ p.operationId ++ ":native") &&
      p.reservedFee = r.amountAtomic && some p.actualFee = r.consumedAtomic &&
      0 < p.actualFee && p.actualFee ≤ p.reservedFee && r.outcomeDigest = some (H.hashObject p)

/-- The merchant fee proof is the settled hold's own, and its outcome. -/
def validateMerchantFee : Bool :=
  match r.merchantNativeActualFee with
  | none => true
  | some p =>
    r.state = .finalized && evmChainShape r.identity.chain && r.rail = .x402 &&
      r.identity.asset = .native &&
      r.idempotencyHash = H.idempotency ("apn.merchant-native:" ++ p.operationId) &&
      p.reservedFee = r.amountAtomic && some p.actualFee = r.consumedAtomic &&
      r.outcomeDigest = some (H.hashObject p)

/-- The historical cleanup85 hold: open until its actual debit settles it, consumption and proof together. -/
def validateCleanup85NativeUsage : Bool :=
  if r.cleanup85NativeActual then
    r.cleanup85NativeReservation && r.state = .finalized && r.consumedAtomic.isSome
  else if r.cleanup85NativeReservation then
    (r.state = .reserved || r.state = .submitted || r.state = .unknownFinality) &&
      r.consumedAtomic.isNone
  else true

/-- Consumption stands on a confirmed revert or beside a fee proof, and never exceeds the hold. -/
def validateConsumption : Bool :=
  r.consumedAtomic.all fun consumed =>
    (r.state = .failedConfirmedRevert || r.hasActualFee) && consumed ≤ r.amountAtomic

/-- The effect and outcome fields each state must, may or must not carry. -/
def validateOutcome : Result Unit :=
  let outcome : Result Unit :=
    if r.outcomeDigest.isNone then corrupt "Outcome digest is invalid." else .ok ()
  match r.state with
  | .finalized =>
    match r.effectAt with
    | none => corrupt "The usage reservation instant is invalid."
    | some effectAt =>
      if effectAt < r.reservedAt ∨ r.updatedAt < effectAt then
        corrupt "The finalized usage effect timestamp is invalid."
      else outcome
  | .failedConfirmedRevert =>
    if r.consumedAtomic.isSome then
      if r.effectAt ≠ some r.updatedAt then corrupt "Confirmed-revert consumption time is invalid."
      else outcome
    else if r.effectAt.isSome then
      corrupt "A released usage failure cannot contain an effect timestamp."
    else outcome
  | .failedBeforeEffect | .releasedUnsubmitted =>
    if r.effectAt.isSome then corrupt "A released usage failure cannot contain an effect timestamp."
    else outcome
  | .reserved | .submitted | .unknownFinality =>
    if r.effectAt.isSome ∨ r.outcomeDigest.isSome then
      corrupt "A nonterminal usage reservation contains terminal outcome data."
    else .ok ()

/-- A stored row is checked against its own fields only. -/
def validateBody : Result Unit :=
  if ¬ registryVersionShape r.registryVersion then
    corrupt "The registry version binding is invalid."
  else if r.amountAtomic = 0 ∨ maxUint256 < r.amountAtomic then
    corrupt "The usage atomic amount is invalid."
  else if ¬ validateConsumption r then corrupt "Confirmed-revert consumption is invalid."
  else if ¬ validateMarker H r then corrupt "MetaMask native hold marker is invalid."
  else if ¬ validateMetaMaskFee H r then
    corrupt "MetaMask native actual fee proof binding is invalid."
  else if ¬ validateCleanup85NativeUsage r then
    corrupt "Cleanup85 native settlement is invalid."
  else if ¬ validateMerchantFee H r then
    corrupt "Merchant native actual fee proof binding is invalid."
  else if r.updatedAt < r.reservedAt then corrupt "The usage reservation timestamps are invalid."
  else validateOutcome r

end

/-- A row the ledger stores: a body that passed its own check. -/
structure Reservation extends ReservationBody where
  valid : validateBody H toReservationBody = .ok ()

variable {H}

/-- `sealRow` hands on the body it was given, checked. -/
def sealRow (H : LedgerHash) (body : ReservationBody) : Result (Reservation H) :=
  match h : validateBody H body with
  | .ok () => .ok ⟨body, h⟩
  | .error e => .error e

variable {r : Reservation H}

theorem sealRow_ok {body : ReservationBody} (h : sealRow H body = .ok r) :
    r.toReservationBody = body := by
  unfold sealRow at h
  split at h
  · cases h
    rfl
  · cases h

abbrev Bucket (H : LedgerHash) := KeyedStore (fun r : Reservation H => r.reservationId)

/-- Open: the hold still counts at its whole amount, whatever the day. -/
def AssetUsageState.isOpen : AssetUsageState → Bool
  | .reserved | .submitted | .unknownFinality => true
  | _ => false

def AssetUsageState.isTerminal : AssetUsageState → Bool
  | .finalized | .failedBeforeEffect | .releasedUnsubmitted | .failedConfirmedRevert => true
  | _ => false

/-- What `sumUsage` adds for one row on a UTC day; the records it passes over add nothing. -/
def usageOf (r : ReservationBody) (day : ℤ) : ℕ :=
  if r.state = .failedBeforeEffect ∨ r.state = .releasedUnsubmitted then 0
  else if r.state = .failedConfirmedRevert ∧ r.consumedAtomic.isNone then 0
  else if r.state = .finalized ∧ r.effectAt.any (fun e => e.day < day) then 0
  else if r.state = .failedConfirmedRevert ∧ r.effectAt.any (fun e => e.day < day) then 0
  else if r.state = .failedConfirmedRevert ∨ r.hasActualFee then r.consumedAtomic.getD 0
  else r.amountAtomic

/-- The running total of `sumUsage`, refused as soon as it leaves uint256. -/
def sumUsageFrom (day : ℤ) : ℕ → List (Reservation H) → Result ℕ
  | total, [] => .ok total
  | total, r :: records =>
    let total := total + usageOf r.toReservationBody day
    if maxUint256 < total then corrupt "The usage ledger total exceeds uint256."
    else sumUsageFrom day total records

/-- The day's usage at `now`: every open hold, and every spend whose effect is stamped on that UTC day or
later. -/
def sumUsage (records : List (Reservation H)) (now : Instant) : Result ℕ :=
  sumUsageFrom now.day 0 records

/-- A write's stamp: the clock, but never before the newest stamp stored in the bucket. -/
def bucketStamp (records : List (Reservation H)) (now : Instant) : Instant :=
  records.foldl (fun newest r => if newest < r.updatedAt then r.updatedAt else newest) now

def allowedTransitions : AssetUsageState → List AssetUsageState
  | .reserved => [.submitted, .unknownFinality, .finalized, .failedBeforeEffect, .releasedUnsubmitted]
  | .submitted => [.unknownFinality, .finalized, .failedConfirmedRevert]
  | .unknownFinality => [.finalized, .failedConfirmedRevert, .releasedUnsubmitted]
  | _ => []

def assertTransition (source target : AssetUsageState) : Result Unit :=
  if ¬ target ∈ allowedTransitions source then blocked "The usage reservation transition is invalid."
  else .ok ()

/-- A replay of a key must ask for exactly the row it is bound to. -/
def assertReplay (r : Reservation H) (policyDigest registryVersion : String) (rail : AssetPolicyRail)
    (amount : ℕ) (idempotencyHash : String) : Result Unit :=
  if r.policyDigest ≠ policyDigest ∨ r.registryVersion ≠ registryVersion ∨ r.rail ≠ rail ∨
      r.amountAtomic ≠ amount ∨ r.idempotencyHash ≠ idempotencyHash then
    blocked "The idempotency key is already bound to a different usage reservation."
  else .ok ()

/-! ## What the checks say -/

theorem validateBody_ok {r : ReservationBody} :
    validateBody H r = .ok () ↔
      registryVersionShape r.registryVersion ∧ (0 < r.amountAtomic ∧ r.amountAtomic ≤ maxUint256) ∧
      validateConsumption r ∧ validateMarker H r ∧ validateMetaMaskFee H r ∧
      validateCleanup85NativeUsage r ∧ validateMerchantFee H r ∧ r.reservedAt ≤ r.updatedAt ∧
      validateOutcome r = .ok () := by
  have hamount : ¬ (r.amountAtomic = 0 ∨ maxUint256 < r.amountAtomic) ↔
      0 < r.amountAtomic ∧ r.amountAtomic ≤ maxUint256 := by omega
  simp only [validateBody, corrupt_guard, not_not, hamount, not_lt]

theorem assertReplay_ok {policyDigest registryVersion idempotencyHash : String} {rail : AssetPolicyRail}
    {amount : ℕ} (h : assertReplay r policyDigest registryVersion rail amount idempotencyHash = .ok ()) :
    r.policyDigest = policyDigest ∧ r.amountAtomic = amount := by
  have hne := (blocked_guard.mp h).1
  simp only [not_or, not_not] at hne
  exact ⟨hne.1, hne.2.2.2.1⟩

theorem Reservation.consumption_valid (r : Reservation H) :
    validateConsumption r.toReservationBody :=
  (validateBody_ok.mp r.valid).2.2.1

theorem Reservation.outcome_valid (r : Reservation H) :
    validateOutcome r.toReservationBody = .ok () :=
  (validateBody_ok.mp r.valid).2.2.2.2.2.2.2.2

-- A fee proof never stands without the consumption it proves.
theorem Reservation.consumed_of_actualFee (h : r.hasActualFee) :
    r.consumedAtomic.isSome := by
  rcases validateBody_ok.mp r.valid with ⟨_, _, _, _, hmm, hcleanup, hmerchant, _, _⟩
  simp only [ReservationBody.hasActualFee, Bool.or_eq_true, Option.isSome_iff_exists] at h
  rcases h with (⟨p, hp⟩ | hc) | ⟨p, hp⟩
  · simp only [validateMerchantFee, hp, Bool.and_eq_true, decide_eq_true_eq] at hmerchant
    rw [← hmerchant.1.2]
    rfl
  · simp only [validateCleanup85NativeUsage, hc, if_true, Bool.and_eq_true] at hcleanup
    exact hcleanup.2
  · simp only [validateMetaMaskFee, hp, Bool.and_eq_true, decide_eq_true_eq] at hmm
    rw [← hmm.1.1.1.2]
    rfl

-- A fee proof stands on a finalized row only.
theorem Reservation.hasActualFee_of_open (r : Reservation H) (h : r.state.isOpen) : r.hasActualFee = false := by
  rcases validateBody_ok.mp r.valid with ⟨_, _, _, _, hmm, hcleanup, hmerchant, _, _⟩
  have hspent : ¬ r.state = .finalized := by
    intro hs
    rw [hs] at h
    cases h
  by_contra hfee
  simp only [Bool.not_eq_false, ReservationBody.hasActualFee, Bool.or_eq_true,
    Option.isSome_iff_exists] at hfee
  rcases hfee with (⟨p, hp⟩ | hc) | ⟨p, hp⟩
  · simp [validateMerchantFee, hp, hspent] at hmerchant
  · simp [validateCleanup85NativeUsage, hc, hspent] at hcleanup
  · simp [validateMetaMaskFee, hp, hspent] at hmm

theorem Reservation.consumed_le {consumed : ℕ}
    (h : r.consumedAtomic = some consumed) : consumed ≤ r.amountAtomic := by
  have hvalid := r.consumption_valid
  simp only [validateConsumption, h, Option.all_some, Bool.and_eq_true, decide_eq_true_eq] at hvalid
  exact hvalid.2

-- A spend carries its effect instant, between its reservation and its last write.
theorem Reservation.effectAt_of_finalized (h : r.state = .finalized) :
    ∃ e, r.effectAt = some e ∧ r.reservedAt ≤ e ∧ e ≤ r.updatedAt := by
  have hvalid := r.outcome_valid
  unfold validateOutcome at hvalid
  rw [h] at hvalid
  cases he : r.effectAt with
  | none => simp [he] at hvalid
  | some e =>
    have hbounds := (corrupt_guard.mp (by simpa only [he] using hvalid)).1
    rw [not_or, not_lt, not_lt] at hbounds
    exact ⟨e, rfl, hbounds⟩

-- Proven reverted consumption is stamped with the row's own last write.
theorem Reservation.effectAt_of_reverted {consumed : ℕ}
    (h : r.state = .failedConfirmedRevert) (hc : r.consumedAtomic = some consumed) :
    r.effectAt = some r.updatedAt := by
  have hvalid := r.outcome_valid
  unfold validateOutcome at hvalid
  rw [h] at hvalid
  simp only [hc, Option.isSome_some, if_true] at hvalid
  exact not_not.mp (corrupt_guard.mp hvalid).1

theorem sumUsageFrom_ok {day : ℤ} {records : List (Reservation H)} {total usage : ℕ}
    (h : sumUsageFrom day total records = .ok usage) :
    usage = total + (records.map fun r => usageOf r.toReservationBody day).sum := by
  induction records generalizing total with
  | nil =>
    simp only [sumUsageFrom, Except.ok.injEq] at h
    simp [h]
  | cons r records ih =>
    unfold sumUsageFrom at h
    rw [ih (corrupt_guard.mp h).2, List.map_cons, List.sum_cons, Nat.add_assoc]

theorem sumUsage_ok {bucket : Bucket H} {now : Instant} {usage : ℕ}
    (h : sumUsage bucket.rows now = .ok usage) :
    usage = bucket.total fun r => usageOf r.toReservationBody now.day := by
  rw [sumUsageFrom_ok h, Nat.zero_add]
  rfl

theorem le_bucketStamp (records : List (Reservation H)) (now : Instant) :
    now ≤ bucketStamp records now ∧ ∀ r ∈ records, r.updatedAt ≤ bucketStamp records now := by
  unfold bucketStamp
  induction records generalizing now with
  | nil => exact ⟨le_refl now, by simp⟩
  | cons r records ih =>
    rw [List.foldl_cons]
    -- The stamp only grows along the fold, so the first two candidates stay below the result.
    have hstep : now ≤ (if now < r.updatedAt then r.updatedAt else now) ∧
        r.updatedAt ≤ (if now < r.updatedAt then r.updatedAt else now) := by
      by_cases h : now < r.updatedAt
      · rw [if_pos h]
        exact ⟨le_of_lt h, le_refl _⟩
      · rw [if_neg h]
        exact ⟨le_refl _, not_lt.mp h⟩
    rcases ih (if now < r.updatedAt then r.updatedAt else now) with ⟨hnow, hrest⟩
    refine ⟨le_trans hstep.1 hnow, ?_⟩
    intro x hx
    rcases List.mem_cons.mp hx with rfl | hx
    · exact le_trans hstep.2 hnow
    · exact hrest x hx

theorem now_le_bucketStamp (bucket : Bucket H) (now : Instant) :
    now ≤ bucketStamp bucket.rows now :=
  (le_bucketStamp bucket.rows now).1

theorem updatedAt_le_bucketStamp {bucket : Bucket H} {now : Instant}
    (h : r ∈ bucket.rows) : r.updatedAt ≤ bucketStamp bucket.rows now :=
  (le_bucketStamp bucket.rows now).2 r h

end PaymentNode
