import PaymentNode.Ledger.Record

/-!
# Ledger — the locked steps of the shared usage ledger

Each definition is one critical section of `AssetUsageLedger` on the bucket it locks: it answers the row
and the bucket it leaves, or a typed refusal that leaves the bucket alone.  What other files of the state
root answer inside the section (the MetaMask journal, a fee receipt) is part of the step's input.
-/

namespace PaymentNode

variable {H : LedgerHash}

/-- What the MetaMask native journal answers about one hold: the state of the operation whose hold matches
it, and of the operation its marker names; `true` is `failed_before_effect`. -/
structure MetaMaskJournalView where
  matchingHold : Option Bool
  read : Option Bool
deriving DecidableEq, Repr

structure AssetUsageReserveInput where
  registry : AssetPolicyRegistry
  rail : AssetPolicyRail
  mechanism : Option Mechanism
  amountAtomic : ℕ
  idempotencyKey : String
  now : Instant
  retryFailedBeforeEffect : Bool

/-- A reserve of local x402, which runs under its profile's per-request cap. -/
structure OwnerCapInput where
  rail : AssetPolicyRail
  amountAtomic : ℕ
  maximumAtomic : ℕ
  policyDigest : String
  registryVersion : String
  idempotencyKey : String
  now : Instant

/-- A transition asked of a hold.  `effectAt` is the parsed instant: `some none` is a text that is no date. -/
structure AssetUsageTransitionInput where
  reservationId : String
  policyDigest : String
  state : AssetUsageState
  now : Instant
  outcomeDigest : Option String
  consumedAtomic : Option ℕ
  effectAt : Option (Option ℤ)
  expectedCurrentStates : Option (List AssetUsageState)
  journal : MetaMaskJournalView

structure CancelUnsubmittedReservationInput where
  rail : AssetPolicyRail
  idempotencyKey : String
  policyDigest : String
  registryVersion : String
  amountAtomic : ℕ
  outcomeDigest : String
  now : Instant

/-- A verified merchant receipt: the fee proof and the policy of the paid operation. -/
structure MerchantSettlementInput where
  proof : NativeActualFee
  policyDigest : String
  now : Instant

/-- One hold of a settled MetaMask transfer, as its journal recorded it, with the finalized receipt. -/
structure MetaMaskSettlementInput where
  expected : ReservationBody
  policyDigest : String
  proof : NativeActualFee
  transferAccepted : Bool
  tokenAmountAtomic : ℕ
  now : Instant

/-- An idempotency key is 8 to 256 printable characters. -/
def idempotencyKeyShape (key : String) : Bool :=
  8 ≤ key.length && key.length ≤ 256 && key.toList.all fun c => '\x21' ≤ c && c ≤ '\x7e'

def idempotency (H : LedgerHash) (key : String) : Result String :=
  if ¬ idempotencyKeyShape key then invalid "The usage idempotency key is invalid."
  else .ok (H.idempotency key)

variable (identity : AssetUsageIdentity)

def evaluationInput (input : AssetUsageReserveInput) (usage : ℕ) :
    AssetPolicyEvaluationInput where
  chain := identity.chain
  asset := identity.asset
  rail := input.rail
  mechanism := input.mechanism
  amountAtomic := input.amountAtomic
  dailyUsageAtomic := usage
  asOfDate := input.now.day
  asOf := some input.now

/-- A fresh hold. -/
def reservedBody (reservationId idempotencyHash : String)
    (initial : AssetPolicyAdmission) (rail : AssetPolicyRail) (mm : Option MetaMaskNativeReservation)
    (stamp : Instant) : ReservationBody where
  reservationId := reservationId
  idempotencyHash := idempotencyHash
  policyDigest := initial.policyDigest
  registryVersion := initial.registryVersion
  identity := identity
  rail := rail
  amountAtomic := initial.amountAtomic
  consumedAtomic := none
  merchantNativeActualFee := none
  metamaskNativeReservation := mm
  metamaskNativeActualFee := none
  cleanup85NativeReservation := false
  cleanup85NativeActual := false
  state := .reserved
  reservedAt := stamp
  updatedAt := stamp
  effectAt := none
  outcomeDigest := none

/-- The day's cap, read on the locked bucket. -/
def admitUsage (addresses : Addresses) (identity : AssetUsageIdentity) (bucket : Bucket H)
    (input : AssetUsageReserveInput) : Result AssetPolicyAdmission := do
  let usage ← sumUsage bucket.rows input.now
  evaluateAssetPolicy addresses input.registry (evaluationInput identity input usage)

/-- The key already has a row: replay it, or re-open a hold that failed before any effect. -/
def reserveExisting (addresses : Addresses) (identity : AssetUsageIdentity) (bucket : Bucket H)
    (input : AssetUsageReserveInput) (mm : Option MetaMaskNativeReservation)
    (initial : AssetPolicyAdmission) (idempotencyHash : String) (existing : Reservation H) :
    Result (Reservation H × Bucket H) :=
  if existing.metamaskNativeReservation ≠ mm then blocked "MetaMask reservation marker changed."
  else do
    assertReplay existing initial.policyDigest initial.registryVersion input.rail initial.amountAtomic
      idempotencyHash
    if input.retryFailedBeforeEffect ∧ existing.state = .failedBeforeEffect then
      let stamp := bucketStamp bucket.rows input.now
      let _ ← admitUsage addresses identity bucket input
      let reopened ← sealRow H { existing.toReservationBody with
        state := .reserved, reservedAt := stamp, updatedAt := stamp, effectAt := none,
        outcomeDigest := none }
      return (reopened, bucket.put reopened)
    else return (existing, bucket)

def reserveBound (addresses : Addresses) (identity : AssetUsageIdentity) (bucket : Bucket H)
    (input : AssetUsageReserveInput) (mm : Option MetaMaskNativeReservation) :
    Result (Reservation H × Bucket H) :=
  if "apn.metamask-native:".toList.isPrefixOf input.idempotencyKey.toList ∧ mm.isNone then
    blocked "MetaMask native namespace requires normal journal authority."
  else if "apn.cleanup85-native:".toList.isPrefixOf input.idempotencyKey.toList then
    blocked "The historical cleanup85 native hold namespace is read-only."
  else do
    let initial ← evaluateAssetPolicy addresses input.registry (evaluationInput identity input 0)
    if ¬ addresses.canonicalAccount initial.chain identity.account then
      invalid "The usage account or network identity is not canonical."
    else
      let idempotencyHash ← idempotency H input.idempotencyKey
      let reservationId := H.reservationIdFor identity idempotencyHash
      match bucket.find? reservationId with
      | some existing =>
        reserveExisting addresses identity bucket input mm initial idempotencyHash existing
      | none =>
        let stamp := bucketStamp bucket.rows input.now
        let _ ← admitUsage addresses identity bucket input
        let record ← sealRow H
          (reservedBody identity reservationId idempotencyHash initial input.rail mm stamp)
        return (record, bucket.put record)

def ownerCapBody (reservationId idempotencyHash : String)
    (input : OwnerCapInput) (stamp : Instant) : ReservationBody where
  reservationId := reservationId
  idempotencyHash := idempotencyHash
  policyDigest := input.policyDigest
  registryVersion := input.registryVersion
  identity := identity
  rail := input.rail
  amountAtomic := input.amountAtomic
  consumedAtomic := none
  merchantNativeActualFee := none
  metamaskNativeReservation := none
  metamaskNativeActualFee := none
  cleanup85NativeReservation := false
  cleanup85NativeActual := false
  state := .reserved
  reservedAt := stamp
  updatedAt := stamp
  effectAt := none
  outcomeDigest := none

/-- A reserve under the owner's per-request cap alone: no registry, and no daily limit, is read. -/
def reserveWithinOwnerCap (bucket : Bucket H) (input : OwnerCapInput) :
    Result (Reservation H × Bucket H) := do
  let idempotencyHash ← idempotency H input.idempotencyKey
  if input.amountAtomic = 0 ∨ maxUint256 < input.amountAtomic then
    invalid "The usage atomic amount is invalid."
  else if input.rail ≠ .x402 then blocked "The payment exceeds the owner's per-request cap."
  else if input.maximumAtomic = 0 ∨ maxUint256 < input.maximumAtomic then
    invalid "The usage atomic amount is invalid."
  else if input.maximumAtomic < input.amountAtomic then
    blocked "The payment exceeds the owner's per-request cap."
  else
    let reservationId := H.reservationIdFor identity idempotencyHash
    match bucket.find? reservationId with
    | some existing => do
      assertReplay existing input.policyDigest input.registryVersion input.rail input.amountAtomic
        idempotencyHash
      return (existing, bucket)
    | none => do
      let record ← sealRow H (ownerCapBody identity reservationId idempotencyHash input
        (bucketStamp bucket.rows input.now))
      return (record, bucket.put record)

/-- A MetaMask hold is released only by its own durable journal. -/
def assertMetaMaskRelease (input : AssetUsageTransitionInput) (current : ReservationBody) :
    Result Unit :=
  if input.state = .submitted ∨ input.state = .unknownFinality then .ok ()
  else
    match input.journal.matchingHold, current.metamaskNativeReservation with
    | none, some _ => blocked "MetaMask hold has no authentic normal owner journal."
    | none, none => .ok ()
    | some false, _ => blocked "MetaMask native hold requires canonical normal-owner settlement."
    | some true, none => .ok ()
    | some true, some _ =>
      if input.state ≠ .failedBeforeEffect then
        blocked "MetaMask native hold requires canonical normal-owner settlement."
      else if input.journal.read ≠ some true then
        blocked "MetaMask capacity release requires durable no-private-effect outcome."
      else .ok ()

def transitionOutcome (input : AssetUsageTransitionInput) : Result (Option String) :=
  if ¬ input.state.isTerminal then .ok none
  else
    match input.outcomeDigest with
    | none => invalid "Outcome digest is invalid."
    | some digest => .ok (some digest)

/-- The instant a finalized spend is charged at: the proven instant, moved between the hold's last write and
this one; absent, this one. -/
def transitionEffectAt (input : AssetUsageTransitionInput) (current : ReservationBody)
    (stamp : Instant) : Result Instant :=
  match input.effectAt with
  | none => .ok (Instant.clamp current.updatedAt stamp stamp.ms)
  | some none => invalid "The usage evaluation instant is invalid."
  | some (some ms) => .ok (Instant.clamp current.updatedAt stamp ms)

/-- The body a transition writes over the current one. -/
def transitionBody (input : AssetUsageTransitionInput) (current : ReservationBody)
    (outcomeDigest : Option String) (effectAt stamp : Instant) : ReservationBody :=
  { current with
    state := input.state
    updatedAt := stamp
    effectAt := if input.state = .finalized then some effectAt
      else if input.consumedAtomic.isSome then some stamp else none
    outcomeDigest := outcomeDigest
    consumedAtomic :=
      if input.consumedAtomic.isSome then input.consumedAtomic else current.consumedAtomic }

/-- The part of `transition` after the row was read and its binding and source state were checked. -/
def transitionCurrent (bucket : Bucket H) (input : AssetUsageTransitionInput)
    (current : Reservation H) : Result (Reservation H × Bucket H) :=
  let stamp := bucketStamp bucket.rows input.now
  if input.state.isTerminal ∧ current.cleanup85NativeReservation then
    blocked "The historical cleanup85 native hold is read-only."
  else do
    let outcomeDigest ← transitionOutcome input
    if input.consumedAtomic.any fun consumed =>
        input.state ≠ .failedConfirmedRevert || current.amountAtomic < consumed then
      blocked "Confirmed-revert consumption exceeds or conflicts with the reservation."
    else if input.effectAt.isSome ∧ input.state ≠ .finalized then
      invalid "Only a finalized spend carries a proven effect time."
    else do
      let effectAt ← transitionEffectAt input current.toReservationBody stamp
      if current.state = input.state then
        if current.outcomeDigest ≠ outcomeDigest ∨ current.consumedAtomic ≠ input.consumedAtomic then
          blocked "The idempotent usage transition outcome does not match."
        else return (current, bucket)
      else do
        assertTransition current.state input.state
        let next ← sealRow H
          (transitionBody input current.toReservationBody outcomeDigest effectAt stamp)
        return (next, bucket.put next)

def transition (identity : AssetUsageIdentity) (bucket : Bucket H)
    (input : AssetUsageTransitionInput) : Result (Reservation H × Bucket H) :=
  if input.expectedCurrentStates = some [] then
    invalid "Expected usage reservation source states are invalid."
  else
    match bucket.find? input.reservationId with
    | none => blocked "The usage reservation does not exist."
    | some current => do
      assertMetaMaskRelease input current.toReservationBody
      if current.policyDigest ≠ input.policyDigest ∨ current.identity ≠ identity then
        blocked "The usage reservation binding does not match the requested transition."
      else if input.expectedCurrentStates.any fun states => ¬ current.state ∈ states then
        blocked "The usage reservation is no longer in an expected source state."
      else transitionCurrent bucket input current

/-- Direct pre-private recovery: the exact hold, still reserved and unchanged, is released. -/
def releaseDirectReservedAfter (bucket : Bucket H) (expected : Reservation H) (journal : Option Bool)
    (now : Instant) (outcomeDigest : String) : Result (Reservation H × Bucket H) :=
  if expected.metamaskNativeReservation.isSome then
    blocked "MetaMask capacity release requires durable normal-owner outcome."
  else if expected.cleanup85NativeReservation then
    blocked "The historical cleanup85 native hold is read-only."
  else if expected.rail ≠ .direct ∨ expected.state ≠ .reserved then
    blocked "Only an unchanged direct reserve can close a pre-private attempt."
  else
    match bucket.find? expected.reservationId with
    | none => blocked "The exact no-private-entry reservation is no longer held unchanged."
    | some current =>
      if current.toReservationBody ≠ expected.toReservationBody then
        blocked "The exact no-private-entry reservation is no longer held unchanged."
      else if journal = some false then
        blocked "MetaMask native hold requires canonical normal-owner settlement."
      else do
        let released ← sealRow H { expected.toReservationBody with
          state := .failedBeforeEffect, updatedAt := bucketStamp bucket.rows now, effectAt := none,
          outcomeDigest := some outcomeDigest }
        return (released, bucket.put released)

/-- Merchant native hold: settled at the fee its finalized receipt proves. -/
def settleMerchantNativeActualFee (bucket : Bucket H)
    (input : MerchantSettlementInput) : Result (Reservation H × Bucket H) := do
  let key := "apn.merchant-native:" ++ input.proof.operationId
  let idempotencyHash ← idempotency H key
  match bucket.find? (H.reservationIdFor identity idempotencyHash) with
  | none => blocked "Merchant native hold missing."
  | some current =>
    let stamp := bucketStamp bucket.rows input.now
    let outcomeDigest := H.hashObject input.proof
    if current.idempotencyHash ≠ idempotencyHash ∨ current.rail ≠ .x402 ∨
        current.policyDigest ≠ input.policyDigest ∨ current.amountAtomic ≠ input.proof.reservedFee ∨
        current.amountAtomic < input.proof.actualFee then
      blocked "Merchant actual fee hold mismatch."
    else if current.state = .finalized then
      if current.outcomeDigest ≠ some outcomeDigest ∨
          current.merchantNativeActualFee ≠ some input.proof then
        blocked "Merchant fee outcome changed."
      else return (current, bucket)
    else if current.state ≠ .submitted ∧ current.state ≠ .unknownFinality then
      blocked "Merchant fee hold not exposed."
    else do
      let next ← sealRow H { current.toReservationBody with
        state := .finalized, updatedAt := stamp, effectAt := some stamp,
        outcomeDigest := some outcomeDigest, consumedAtomic := some input.proof.actualFee,
        merchantNativeActualFee := some input.proof }
      return (next, bucket.put next)

/-- What a settled MetaMask transfer took of one hold. -/
def metaMaskConsumed (input : MetaMaskSettlementInput) : ℕ :=
  if identity.asset = .native then input.proof.actualFee
  else if input.transferAccepted then input.tokenAmountAtomic else 0

/-- The settled body of one MetaMask hold: a fee for the native coin, the transfer or nothing for a token. -/
def metaMaskSettledBody (H : LedgerHash) (identity : AssetUsageIdentity)
    (input : MetaMaskSettlementInput) (current : ReservationBody) (stamp : Instant) :
    ReservationBody :=
  let settled : ReservationBody := { current with
    state := if identity.asset = .native ∨ input.transferAccepted then .finalized
      else .failedConfirmedRevert
    updatedAt := stamp
    effectAt := some stamp
    outcomeDigest := some (H.hashObject input.proof) }
  if identity.asset = .native then
    { settled with
      consumedAtomic := some (metaMaskConsumed identity input)
      metamaskNativeActualFee := some input.proof }
  else if input.transferAccepted then settled
  else { settled with consumedAtomic := some 0 }

def settleMetaMaskNativeActual (bucket : Bucket H)
    (input : MetaMaskSettlementInput) : Result (Reservation H × Bucket H) :=
  match bucket.find? input.expected.reservationId with
  | none => blocked "MetaMask settlement hold is absent."
  | some current =>
    let stamp := bucketStamp bucket.rows input.now
    let outcomeDigest := H.hashObject input.proof
    if current.idempotencyHash ≠ input.expected.idempotencyHash ∨
        current.policyDigest ≠ input.policyDigest ∨
        current.amountAtomic ≠ input.expected.amountAtomic ∨
        current.metamaskNativeReservation ≠ input.expected.metamaskNativeReservation ∨
        current.rail ≠ .direct then
      blocked "MetaMask settlement prior hold changed."
    else if current.state = .finalized ∨ current.state = .failedConfirmedRevert then
      if current.outcomeDigest ≠ some outcomeDigest then blocked "MetaMask settlement outcome changed."
      else .ok (current, bucket)
    else if current.state ≠ .submitted ∧ current.state ≠ .unknownFinality then
      blocked "MetaMask settlement has no durable effect hold."
    else if current.amountAtomic < metaMaskConsumed identity input then
      blocked "MetaMask consumption exceeds hold."
    else do
      let next ← sealRow H (metaMaskSettledBody H identity input current.toReservationBody stamp)
      return (next, bucket.put next)

def cancelledBody (reservationId idempotencyHash : String)
    (input : CancelUnsubmittedReservationInput) (stamp : Instant) : ReservationBody where
  reservationId := reservationId
  idempotencyHash := idempotencyHash
  policyDigest := input.policyDigest
  registryVersion := input.registryVersion
  identity := identity
  rail := .x402
  amountAtomic := input.amountAtomic
  consumedAtomic := none
  merchantNativeActualFee := none
  metamaskNativeReservation := none
  metamaskNativeActualFee := none
  cleanup85NativeReservation := false
  cleanup85NativeActual := false
  state := .releasedUnsubmitted
  reservedAt := stamp
  updatedAt := stamp
  effectAt := none
  outcomeDigest := some input.outcomeDigest

/-- `x402-permit2-production.v2:` and 64 lower-case hexadecimal digits. -/
def permit2LeaseKeyShape (key : String) : Bool :=
  let tag := "x402-permit2-production.v2:".toList
  let digits := key.toList.drop tag.length
  tag.isPrefixOf key.toList && digits.length = 64 &&
    digits.all fun c => c.isDigit || ('a' ≤ c && c ≤ 'f')

def Asset.isEvmToken : Asset → Bool
  | .native => false
  | .token identifier => evmAddressShape identifier

/-- Cancel a lease that was never exposed; a delayed reserve can only replay the released row. -/
def cancelUnsubmittedReservation (bucket : Bucket H)
    (input : CancelUnsubmittedReservationInput) : Result (Reservation H × Bucket H) :=
  if ¬ evmChainShape identity.chain ∨ 23 < identity.chain.length ∨ ¬ identity.asset.isEvmToken ∨
      input.rail ≠ .x402 ∨ ¬ permit2LeaseKeyShape input.idempotencyKey ∨
      ¬ registryVersionShape input.registryVersion then
    invalid "Unsigned cancellation is restricted to a frozen Permit2 production lease."
  else if input.amountAtomic = 0 ∨ maxUint256 < input.amountAtomic then
    invalid "The usage atomic amount is invalid."
  else do
    let idempotencyHash ← idempotency H input.idempotencyKey
    let reservationId := H.reservationIdFor identity idempotencyHash
    let stamp := bucketStamp bucket.rows input.now
    match bucket.find? reservationId with
    | none =>
      let released ← sealRow H
        (cancelledBody identity reservationId idempotencyHash input stamp)
      return (released, bucket.put released)
    | some current =>
      assertReplay current input.policyDigest input.registryVersion input.rail input.amountAtomic
        idempotencyHash
      if current.state = .releasedUnsubmitted then
        if current.outcomeDigest ≠ some input.outcomeDigest then
          blocked "Unsigned cancellation outcome changed."
        else return (current, bucket)
      else if current.state ≠ .reserved then
        blocked "An exposed or terminal reservation cannot be cancelled."
      else do
        let released ← sealRow H { current.toReservationBody with
          state := .releasedUnsubmitted, updatedAt := stamp, effectAt := none,
          outcomeDigest := some input.outcomeDigest }
        return (released, bucket.put released)

/-- One locked step on the bucket of one identity. -/
inductive LedgerStep (H : LedgerHash)
  | reserve (input : AssetUsageReserveInput) (mm : Option MetaMaskNativeReservation)
  | reserveWithinOwnerCap (input : OwnerCapInput)
  | transition (input : AssetUsageTransitionInput)
  | cancelUnsubmitted (input : CancelUnsubmittedReservationInput)
  | settleMerchant (input : MerchantSettlementInput)
  | settleMetaMask (input : MetaMaskSettlementInput)
  | releaseDirect (expected : Reservation H) (journal : Option Bool) (now : Instant)
      (outcomeDigest : String)

def LedgerStep.perform (addresses : Addresses) (identity : AssetUsageIdentity) (bucket : Bucket H) :
    LedgerStep H → Result (Reservation H × Bucket H)
  | .reserve input mm => reserveBound addresses identity bucket input mm
  | .reserveWithinOwnerCap input => PaymentNode.reserveWithinOwnerCap identity bucket input
  | .transition input => PaymentNode.transition identity bucket input
  | .cancelUnsubmitted input => cancelUnsubmittedReservation identity bucket input
  | .settleMerchant input => settleMerchantNativeActualFee identity bucket input
  | .settleMetaMask input => settleMetaMaskNativeActual identity bucket input
  | .releaseDirect expected journal now outcomeDigest =>
    releaseDirectReservedAfter bucket expected journal now outcomeDigest

/-- A refused step writes nothing. -/
def ledgerStep (addresses : Addresses) (identity : AssetUsageIdentity) (bucket : Bucket H)
    (step : LedgerStep H) : Bucket H :=
  match step.perform addresses identity bucket with
  | .ok (_, next) => next
  | .error _ => bucket

end PaymentNode
