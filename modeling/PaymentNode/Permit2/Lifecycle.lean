import PaymentNode.Ledger.Hold
import PaymentNode.Lib.Guarded
import PaymentNode.Permit2.Record

/-!
# Lifecycle — preparation, exposure and settlement of a Permit2 payment

The programs of `Permit2ProductionPreparation` and `Permit2ProductionJournal` on one saved operation, over
the operations they perform: its locks, its record, its ledger row, the family clock, and questions to the
rest of the machine.  `receive` is what a call hands its caller.
-/

namespace PaymentNode

theorem floorSecond_lower (i : Instant) : firstInstantMs ≤ i.ms / 1000 * 1000 := by
  have h := i.lower
  unfold firstInstantMs at h ⊢
  omega

theorem floorSecond_upper (i : Instant) : i.ms / 1000 * 1000 ≤ lastInstantMs := by
  have h := i.upper
  omega

/-- The second an instant lies in. -/
def Instant.floorSecond (i : Instant) : Instant := ⟨i.ms / 1000 * 1000, floorSecond_lower i, floorSecond_upper i⟩

def Instant.unixSecond (i : Instant) : ℤ := i.ms / 1000

namespace Permit2

inductive Permit2ApprovalPurpose
  | signOnly
  | signAndSubmitOnce
deriving DecidableEq, Repr

/-- What the owner approved at the foreground prompt. -/
structure Permit2ForegroundApproval where
  operationId : String
  purpose : Permit2ApprovalPurpose
  materialHash : String
  displayHash : String
  fingerprint : String
  completedAt : ℤ
deriving DecidableEq, Repr

/-- What a later step expects to find saved. -/
structure Permit2SavedIdentity where
  recordHash : String
  leaseDigest : String
  walletHash : String
deriving DecidableEq, Repr

structure Permit2SigningContinuation where
  approval : Permit2ForegroundApproval
  saved : Permit2SavedIdentity
deriving DecidableEq, Repr

structure Permit2SignedOrigin where
  approval : Permit2ForegroundApproval
  signedHash : String
  leaseDigest : String
  walletHash : String
deriving DecidableEq, Repr

/-- What an observation proof is bound to. -/
structure Permit2ProofBinding where
  mode : Permit2ObservationMode
  operationDigest : String
  materialHash : String
  requestHash : String
  challengeHash : String
  signedHash : Option String
deriving DecidableEq, Repr

/-- A proof with what the observer kept under it. -/
structure Permit2ObservationProof where
  binding : Permit2ProofBinding
  projection : Permit2ObservationProjection
deriving DecidableEq, Repr

/-- The active policy an owner admission is compared with. -/
structure Permit2ActivePolicy where
  registry : AssetPolicyRegistry
  revision : ℕ
  activationDigest : String

/-- The digest the owner is bound to is that of the active registry. -/
def Permit2ActivePolicy.digest (active : Permit2ActivePolicy) : String := active.registry.policyDigest

structure Permit2ObservedBlock where
  number : ℕ
  hash : String
  timestamp : ℕ
deriving DecidableEq, Repr

/-- What one observation reads: the block of its tag on the record's chain, the block of a receipt that attributes
the locator where the node serves one, the word of the nonce bitmap at the head and the token nonce there. -/
structure Permit2ObserverReads where
  head : Result Permit2ObservedBlock
  attribution : Option ℕ
  word : Result ℕ
  tokenNonce : Result ℕ

inductive Permit2SigningMode
  | reserved
  | exposed
  | dispatch
deriving DecidableEq, Repr

/-- Questions to the rest of the machine: the owner admission under the locks, the active policy, the display
the approval was given on, whether this process still holds a proof, the saved locator hint, the wallet of a
profile, and the reads of an observation. -/
inductive Permit2Ask
  | ownerLocked (record : Permit2ProductionRecord) (at' : Instant) (used : ℕ)
  | activePolicy (record : Permit2ProductionRecord) (at' : Instant)
  | approvalDisplay (record : Permit2ProductionRecord) (purpose : Permit2ApprovalPurpose)
  | consume (proof : Permit2ObservationProof)
  | hint (record : Permit2ProductionRecord)
  | walletBinding (profile : String)
  | observerReads (record : Permit2ProductionRecord) (mode : Permit2ObservationMode) (locator : Option String)

abbrev Permit2Ask.Answer : Permit2Ask → Type
  | ownerLocked .. => Result Unit
  | activePolicy .. => Result (Option Permit2ActivePolicy)
  | approvalDisplay .. => Result (String × String)
  | consume _ => Result Unit
  | hint _ => Result (Option String)
  | walletBinding _ => Result Permit2WalletBinding
  | observerReads .. => Result Permit2ObserverReads

/-- The calls on the shared ledger, all on the operation's own row. -/
inductive LeaseOp
  | usageWithReservation
  | transition (input : AssetUsageTransitionInput)
  | reserve (input : AssetUsageReserveInput)
  | cancel (input : CancelUnsubmittedReservationInput)

/-- What a call hands its caller. -/
inductive Permit2Delivery
  | signing (continuation : Permit2SigningContinuation)
  | first (record : Permit2ProductionRecord)

inductive Permit2Op
  | read
  | write (next : Permit2ProductionRecord)
  | lease (op : LeaseOp)
  | now
  | ask (question : Permit2Ask)
  | receive (what : Permit2Delivery)

variable (H : Permit2Hashes)

abbrev LeaseOp.Answer : LeaseOp → Type
  | usageWithReservation => Result (ℕ × Option (Reservation H.toLedgerHash))
  | transition _ => Result (Reservation H.toLedgerHash)
  | reserve _ => Result (Reservation H.toLedgerHash)
  | cancel _ => Result (Reservation H.toLedgerHash)

abbrev Permit2Op.Answer : Permit2Op → Type
  | read => Result Permit2ProductionRecord
  | write _ => Result Unit
  | lease op => op.Answer H
  | now => Result Instant
  | ask question => question.Answer
  | receive _ => Unit

abbrev Permit2Prog (α : Type) : Type := Guarded.Program Permit2Op (Permit2Op.Answer H) ApnError α

abbrev Lease : Type := Reservation H.toLedgerHash

namespace Permit2Prog

variable {H} {α : Type}

def lift (r : Result α) : Permit2Prog H α := Prog.ofExcept r

def held {α : Type} : Result α := blocked "Permit2 exposure lifecycle remains held or its binding changed."

/-- `if (c) blocked()`. -/
def refuseIf (c : Prop) [Decidable c] : Permit2Prog H Unit := lift (if c then held else .ok ())

def now : Permit2Prog H Instant := Guarded.run .now rfl

/-- The clock of the preparation: whole seconds. -/
def nowSecond : Permit2Prog H Instant := now.bind fun at' => Prog.ret at'.floorSecond

def ask (q : Permit2Ask) (h : q.Answer = Result α) : Permit2Prog H α := Guarded.run (.ask q) h

/-- A body under the profile, operation and address locks of the record. -/
def withLocks (x : Permit2Prog H α) : Permit2Prog H α :=
  Guarded.withLock ⟨.stateBusy, "The state is locked by another process."⟩ x

/-! ## The repository -/

def findOperation : Permit2Prog H Permit2ProductionRecord := do
  let record ← Guarded.run .read rfl
  lift (validatePermit2ProductionRecord H record)
  match record.exposureJournal.bind (·.signed) with
  | some signed =>
    lift (validatePermit2ProductionSigned H signed record)
    Prog.ret record
  | none => Prog.ret record

def writeJson (next : Permit2ProductionRecord) : Permit2Prog H Unit := Guarded.run (.write next) rfl

/-- The unsigned preparation and lease states are all it writes. -/
def persistLocked (record : Permit2ProductionRecord) : Permit2Prog H Unit := do
  lift (if record.state = .prepared ∨ record.exposureJournal.isSome then
    blocked "Prepared Permit2 material requires deadline-checked persistence." else .ok ())
  lift (validatePermit2ProductionRecord H record)
  let current ← findOperation
  lift (persistCheck current record)
  writeJson record

def persistExposureLocked (record : Permit2ProductionRecord) : Permit2Prog H Unit := do
  lift (validatePermit2ProductionRecord H record)
  let current ← findOperation
  match record.exposureJournal with
  | none => lift corruptRecord
  | some journal =>
    lift (persistExposureCheck H current record journal)
    writeJson record

/-- Seal and write one state of the preparation. -/
def persistSealed (next : Permit2ProductionRecord) : Permit2Prog H Permit2ProductionRecord := do
  let next ← lift (sealPermit2ProductionRecord H next)
  persistLocked next
  Prog.ret next

/-! ## The ledger row -/

def usageWithReservation : Permit2Prog H (ℕ × Option (Lease H)) := Guarded.run (.lease .usageWithReservation) rfl

variable (r : Permit2ProductionRecord)

/-- The row is this operation's own lease. -/
def ownLease (value : Lease H) : Bool :=
  value.reservationId = r.usageReservationId && value.policyDigest = r.material.policyDigest &&
    value.registryVersion = r.material.registryVersion && value.rail = .x402 &&
    value.amountAtomic = r.material.amountAtomic &&
    value.idempotencyHash = H.idempotency (productionUsageKey r.operationId)

def leaseOf : Permit2Prog H (Lease H) := do
  let usage ← usageWithReservation
  match usage.2 with
  | none => lift held
  | some value => if ownLease r value then Prog.ret value else lift held

def leaseDigest (lease : Lease H) : String := H.reservationDigest lease.toReservationBody

def transitionInput (target : AssetUsageState) (outcomeDigest : Option String)
    (expected : List AssetUsageState) (at' : Instant) : AssetUsageTransitionInput where
  reservationId := r.usageReservationId
  policyDigest := r.material.policyDigest
  state := target
  now := at'
  outcomeDigest := outcomeDigest
  consumedAtomic := none
  effectAt := none
  expectedCurrentStates := some expected
  journal := ⟨none, none⟩

def moveLease (input : AssetUsageTransitionInput) : Permit2Prog H (Lease H) := Guarded.run (.lease (.transition input)) rfl

def cancelInput (at' : Instant) : CancelUnsubmittedReservationInput where
  rail := .x402
  idempotencyKey := productionUsageKey r.operationId
  policyDigest := r.material.policyDigest
  registryVersion := r.material.registryVersion
  amountAtomic := r.material.amountAtomic
  outcomeDigest := r.releaseDigest.getD ""
  now := at'

def cancelLease (input : CancelUnsubmittedReservationInput) : Permit2Prog H (Lease H) :=
  Guarded.run (.lease (.cancel input)) rfl

def permit2Mechanism : Mechanism := ⟨"x402-exact-permit2", "0x402085c248EeA27D92E8b30b2C58ed07f9E20001"⟩

def reserveInput (registry : AssetPolicyRegistry) (at' : Instant) :
    AssetUsageReserveInput where
  registry := registry
  rail := .x402
  mechanism := some permit2Mechanism
  amountAtomic := r.material.amountAtomic
  idempotencyKey := productionUsageKey r.operationId
  now := at'
  retryFailedBeforeEffect := false

def reserveLease (input : AssetUsageReserveInput) : Permit2Prog H (Lease H) :=
  Guarded.run (.lease (.reserve input)) rfl

/-! ## Preparation: admission, reservation and release -/

/-- What the lease leaves of the day's usage; refused where the lease is not the prepared one. -/
def preparedUsage (usage : ℕ × Option (Lease H)) : Result ℕ :=
  match usage.2 with
  | some lease =>
    if lease.policyDigest ≠ r.material.policyDigest ∨ lease.registryVersion ≠ r.material.registryVersion ∨
        lease.rail ≠ .x402 ∨ lease.amountAtomic ≠ r.material.amountAtomic ∨ lease.state ≠ .reserved ∨
        (r.usageReservationDigest.isSome ∧ r.usageReservationDigest ≠ some (leaseDigest lease)) then
      blocked "Permit2 lease changed."
    else if usage.1 < lease.amountAtomic then blocked "Permit2 usage is inconsistent."
    else .ok (usage.1 - lease.amountAtomic)
  | none =>
    if r.state = .reserved ∨ r.state = .exposureUnknown then blocked "Permit2 lease is missing."
    else .ok usage.1

def assertCurrentOwner : Permit2Prog H Permit2ProductionRecord := do
  let record ← findOperation
  let at' ← nowSecond
  let usage ← usageWithReservation
  let used ← lift (preparedUsage record usage)
  withLocks do
    let current ← findOperation
    lift (if H.integrity current ≠ H.integrity record ∨ current.exposureAt.isSome ∨ current.terminal then
      blocked "Permit2 lifecycle changed." else .ok ())
    ask (.ownerLocked current at' used) rfl
    Prog.ret current

/-- Expiry only releases proven unsigned material. -/
def beginRelease : Permit2Prog H Permit2ProductionRecord := do
  let current ← findOperation
  let at' ← nowSecond
  if current.terminal then Prog.ret current
  else do
    lift (if current.exposureAt.isSome ∨ current.state = .exposureUnknown ∨
        at'.unixSecond < current.material.expiresAtUnix then
      blocked "Permit2 expiry cannot prove unexposed material." else .ok ())
    persistSealed { current with
      state := .releasePending, updatedAt := at', releaseDigest := some (releaseDigestOf H current) }

def endRelease (record : Permit2ProductionRecord) : Permit2Prog H Permit2ProductionRecord := do
  let current ← findOperation
  lift (if current.state ≠ .releasePending ∨ current.exposureAt.isSome ∨
      current.releaseDigest ≠ record.releaseDigest then blocked "Permit2 release changed." else .ok ())
  let at' ← nowSecond
  persistSealed { current with state := .releasedUnsubmitted, terminal := true, updatedAt := at' }

def releaseExpired : Permit2Prog H Permit2ProductionRecord := do
  let _ ← findOperation
  let record ← withLocks beginRelease
  if record.terminal then Prog.ret record
  else do
    let at' ← nowSecond
    let _ ← cancelLease (cancelInput record at')
    withLocks (endRelease record)

def beginReserve (record : Permit2ProductionRecord) : Permit2Prog H Permit2ProductionRecord := do
  let current ← findOperation
  lift (if H.integrity current ≠ H.integrity record then blocked "Permit2 reservation raced." else .ok ())
  let at' ← nowSecond
  persistSealed { current with state := .reserving, reservationStarted := true, updatedAt := at' }

def endReserve (lease : Lease H) : Permit2Prog H Permit2ProductionRecord := do
  let current ← findOperation
  if current.state = .reserved ∧ current.usageReservationDigest = some (leaseDigest lease) then Prog.ret current
  else do
    lift (if current.state ≠ .reserving ∨ current.exposureAt.isSome ∨ lease.state ≠ .reserved ∨
        lease.reservationId ≠ current.usageReservationId then blocked "Permit2 reservation changed." else .ok ())
    let at' ← nowSecond
    persistSealed { current with
      state := .reserved, usageReservationDigest := some (leaseDigest lease), updatedAt := at' }

def reserve : Permit2Prog H Permit2ProductionRecord := do
  let record ← assertCurrentOwner
  lift (if record.state = .prepared ∨ record.state = .reserving ∨ record.state = .reserved then .ok ()
    else blocked "Permit2 operation cannot reserve.")
  if record.state = .reserved then Prog.ret record
  else do
    let record ← withLocks (beginReserve record)
    let at' ← nowSecond
    let active ← ask (.activePolicy record at') rfl
    match active with
    | none => lift (blocked "Permit2 owner changed before reserve.")
    | some active => do
      lift (if active.digest ≠ record.material.policyDigest ∨
          active.registry.registryVersion ≠ record.material.registryVersion ∨
          active.revision ≠ record.material.policyRevision ∨
          active.activationDigest ≠ record.material.activationDigest then
        blocked "Permit2 owner changed before reserve." else .ok ())
      let at' ← nowSecond
      let lease ← reserveLease (reserveInput record active.registry at')
      let latest ← findOperation
      if latest.state = .releasePending then releaseExpired
      else do
        let _ ← assertCurrentOwner
        withLocks (endReserve lease)

/-! ## Exposure -/

/-- Write the record with a new journal, state and end. -/
def save (j : Permit2ExposureJournal) (state : Permit2ProductionState)
    (terminal : Bool) : Permit2Prog H Permit2ProductionRecord := do
  let at' ← now
  let next ← lift (sealPermit2ProductionRecord H { r with
    exposureJournal := some j, state := state, terminal := terminal, updatedAt := at' })
  persistExposureLocked next
  Prog.ret next

def approvalWindowMs : ℤ := 60000

def assertSigningTime (at' : Instant) : Result Unit :=
  if at'.ms < 0 ∨ at'.unixSecond < r.material.signingSecond ∨ r.material.permit2Deadline ≤ at'.unixSecond ∨
      r.material.eip2612.any (fun info => info.deadline ≤ at'.unixSecond) then
    blocked "Permit2 signing observation is unavailable or outside its frozen window."
  else .ok ()

def staleApproval {α : Type} : Result α :=
  blocked "Permit2 foreground approval is not current or bound to this operation."

def assertPermit2ApprovalCurrent (approval : Permit2ForegroundApproval) (r : Permit2ProductionRecord)
    (at' : Instant) : Permit2Prog H Unit := do
  lift (if approval.operationId ≠ r.operationId ∨ approval.materialHash ≠ r.material.materialHash then
    staleApproval else .ok ())
  let display ← ask (.approvalDisplay r approval.purpose) rfl
  lift (if display ≠ (approval.displayHash, approval.fingerprint) ∨ at'.ms < approval.completedAt ∨
      approvalWindowMs < at'.ms - approval.completedAt then staleApproval else .ok ())
  lift (assertSigningTime r at')

def signingOwnerChanged {α : Type} : Result α :=
  blocked "Permit2 current signing owner, lifecycle or self lease changed."

def signingLifecycle : Permit2SigningMode → Bool
  | .reserved => r.state = .reserved && r.exposureAt.isNone && r.exposureJournal.isNone
  | .exposed =>
    r.state = .exposureUnknown && r.exposureAt.isSome && r.exposureJournal.any fun j =>
      j.holdConfirmed && j.signed.isNone && j.request.isNone && j.terminalIntent.isNone
  | .dispatch =>
    (r.state = .exposureUnknown || r.state = .requestPending) && r.exposureAt.isSome &&
      r.exposureJournal.any fun j =>
        j.holdConfirmed && j.signed.isSome && j.terminalIntent.isNone &&
          (r.state = .requestPending) = j.request.isSome

def assertSigningLifecycle (mode : Permit2SigningMode) : Result Unit :=
  if r.terminal ∨ r.usageReservationDigest.isNone ∨ ¬ r.reservationStarted ∨ ¬ signingLifecycle r mode then
    signingOwnerChanged
  else .ok ()

def checkedSigningLease (lease : Lease H) (mode : Permit2SigningMode) :
    Result (Lease H) :=
  if ¬ ownLease r lease ∨ lease.state ≠ (if mode = .reserved then .reserved else .unknownFinality) ∨
      (mode = .reserved ∧ r.usageReservationDigest ≠ some (leaseDigest lease)) then
    signingOwnerChanged
  else .ok lease

def permit2SavedIdentity (lease : Lease H) : Permit2SavedIdentity :=
  ⟨H.integrity r, leaseDigest lease, H.wallet r.material.wallet⟩

/-- Set the confirmation, unless the risk is over or it is set. -/
def markConfirmed (bindingHash : String) : Permit2Prog H Permit2ProductionRecord := do
  let current ← findOperation
  match current.exposureJournal with
  | none => lift held
  | some journal =>
    if journal.bindingHash ≠ bindingHash then lift held
    else if current.terminal ∨ journal.terminalIntent.isSome ∨ journal.holdConfirmed then Prog.ret current
    else save current { journal with holdConfirmed := true } current.state current.terminal

/-- No state locks span ledger I/O; risk remains durable if either side fails. -/
def confirmHold : Permit2Prog H Permit2ProductionRecord := do
  let r ← findOperation
  match r.exposureJournal with
  | none => lift held
  | some j =>
    if r.terminal ∨ j.terminalIntent.isSome then Prog.ret r
    else do
      let lease ← leaseOf r
      if lease.state = .reserved then do
        let at' ← now
        let _ ← moveLease (transitionInput r .unknownFinality none [.reserved, .unknownFinality] at')
        withLocks (markConfirmed j.bindingHash)
      else if lease.state = .unknownFinality then withLocks (markConfirmed j.bindingHash)
      else lift held

/-- The first exposure of a record. -/
def firstJournal : Permit2ExposureJournal where
  approvalFingerprint := productionApprovalFingerprint H r
  bindingHash := productionRiskBinding H r
  permit2Deadline := r.material.permit2Deadline
  eip2612Deadline := r.material.eip2612Deadline
  holdConfirmed := false
  signed := none
  request := none
  terminalIntent := none

/-- The admission of a first exposure: the record, its lease and the day's usage. -/
structure FirstRisk (H : Permit2Hashes) where
  record : Permit2ProductionRecord
  usage : ℕ
  lease : Lease H

/-- Owner admission of the first exposure, read outside the locks; a durable exposure found after a refusal
makes the call a replay. -/
def admitFirstRisk : Permit2Prog H (Option (FirstRisk H)) :=
  Prog.handle
    (do
      let r ← assertCurrentOwner
      let usage ← usageWithReservation
      let lease ← leaseOf r
      refuseIf (r.state ≠ .reserved ∨ lease.state ≠ .reserved ∨
        r.usageReservationDigest ≠ some (leaseDigest lease))
      Prog.ret (some ⟨r, usage.1, lease⟩))
    fun error => do
      let r ← findOperation
      if r.exposureJournal.isSome then Prog.ret none else Prog.fail error

/-- The first exposure under the locks; `none` where another call wrote it. -/
def writeRisk (admitted : FirstRisk H) (approval : Option Permit2ForegroundApproval) :
    Permit2Prog H (Option Permit2ProductionRecord) := do
  let current ← findOperation
  if current.exposureJournal.isSome then Prog.ret none
  else do
    refuseIf (H.integrity current ≠ H.integrity admitted.record)
    let at' ← now
    refuseIf ((current.material.expiresAtUnix : ℤ) ≤ at'.unixSecond ∨ admitted.usage < admitted.lease.amountAtomic)
    ask (.ownerLocked current at' (admitted.usage - admitted.lease.amountAtomic)) rfl
    let next ← lift (sealPermit2ProductionRecord H { current with
      state := .exposureUnknown, exposureAt := some at', updatedAt := at',
      exposureJournal := some (firstJournal (H := H) current) })
    match approval with
    | none =>
      persistExposureLocked next
      Prog.ret none
    | some approval => do
      let at' ← now
      assertPermit2ApprovalCurrent approval current at'
      persistExposureLocked next
      Prog.ret (some next)

def markRisk (approval : Option Permit2ForegroundApproval) :
    Permit2Prog H (Permit2ProductionRecord × Option Permit2ProductionRecord) := do
  let first ← findOperation
  if first.exposureJournal.isSome then do
    let record ← confirmHold
    Prog.ret (record, none)
  else do
    let admitted ← admitFirstRisk
    match admitted with
    | none => do
      let record ← confirmHold
      Prog.ret (record, none)
    | some admitted => do
      let risk ← withLocks (writeRisk admitted approval)
      let record ← confirmHold
      Prog.ret (record, risk)

def markSignatureRisk : Permit2Prog H Unit := do
  let _ ← markRisk none
  Prog.ret ()

/-- The continuation for the exposure this call wrote. -/
def continueSigning (approval : Permit2ForegroundApproval) (risk : Permit2ProductionRecord) :
    Permit2Prog H Permit2SigningContinuation := do
  let current ← findOperation
  lift (assertSigningLifecycle current .exposed)
  refuseIf (current.material.materialHash ≠ risk.material.materialHash ∨ current.exposureAt ≠ risk.exposureAt ∨
    current.exposureJournal.map (·.bindingHash) ≠ risk.exposureJournal.map (·.bindingHash))
  let lease ← leaseOf current
  let lease ← lift (checkedSigningLease current lease .exposed)
  let at' ← now
  assertPermit2ApprovalCurrent approval current at'
  Prog.ret ⟨approval, permit2SavedIdentity current lease⟩

/-- The first exposure under the owner's approval: only the call that writes it receives a continuation. -/
def markApprovedSignatureRisk (approval : Permit2ForegroundApproval) : Permit2Prog H Unit := do
  let result ← markRisk (some approval)
  match result.2 with
  | none => Prog.ret ()
  | some risk => do
    let continuation ← withLocks (continueSigning approval risk)
    Guarded.act (Permit2Op.receive (.signing continuation))

def saveSigned (signed : Permit2ProductionSigned) : Permit2Prog H Unit := do
  let current ← findOperation
  match current.exposureJournal with
  | none => lift held
  | some j =>
    if ¬ j.holdConfirmed ∨ current.terminal ∨ j.terminalIntent.isSome then lift held
    else
      match j.signed with
      | some saved => refuseIf (saved ≠ signed)
      | none => do
        let _ ← save current { j with signed := some signed } current.state current.terminal
        Prog.ret ()

def storeSigned (signed : Permit2ProductionSigned) : Permit2Prog H Unit := do
  let r ← findOperation
  lift (validatePermit2ProductionSigned H signed r)
  withLocks (saveSigned signed)

/-- The request marker of a saved bundle. -/
def requestOf (signed : Permit2ProductionSigned) : Permit2Request :=
  ⟨r.material.requestHash, signed.headerHash⟩

def saveRequest : Permit2Prog H Unit := do
  let current ← findOperation
  match current.exposureJournal with
  | none => lift held
  | some j =>
    match j.signed with
    | none => lift held
    | some signed =>
      if ¬ j.holdConfirmed ∨ current.terminal ∨ j.terminalIntent.isSome then lift held
      else if j.request.isSome then Prog.ret ()
      else do
        let _ ← save current { j with request := some (requestOf current signed) } .requestPending current.terminal
        Prog.ret ()

def markRequestPending : Permit2Prog H Unit := do
  let _ ← findOperation
  withLocks saveRequest

/-- The saved record still carries the origin's signed bundle under the same lease and wallet binding. -/
def assertSignedOrigin (origin : Permit2SignedOrigin) (r : Permit2ProductionRecord) (lease : Lease H) : Result Unit :=
  if r.operationId ≠ origin.approval.operationId ∨
      (r.exposureJournal.bind (·.signed)).map (·.signedHash) ≠ some origin.signedHash ∨
      leaseDigest lease ≠ origin.leaseDigest ∨ H.wallet r.material.wallet ≠ origin.walletHash then held
  else .ok ()

def checkOrigin (origin : Permit2SignedOrigin) (r : Permit2ProductionRecord) : Permit2Prog H Unit := do
  lift (assertSigningLifecycle r .dispatch)
  let lease ← leaseOf r
  let lease ← lift (checkedSigningLease r lease .dispatch)
  lift (assertSignedOrigin origin r lease)
  let at' ← now
  assertPermit2ApprovalCurrent origin.approval r at'

/-- The single request marker under the origin's approval; an answer is that this call wrote it. -/
def saveFirstRequest (origin : Permit2SignedOrigin) : Permit2Prog H (Option Permit2ProductionRecord) := do
  let current ← findOperation
  checkOrigin origin current
  match current.exposureJournal with
  | none => lift held
  | some j =>
    if j.request.isSome then Prog.ret none
    else
      match j.signed with
      | none => lift held
      | some signed => do
        let next ← save current { j with request := some (requestOf current signed) } .requestPending current.terminal
        let at' ← now
        assertPermit2ApprovalCurrent origin.approval next at'
        Prog.ret (some next)

/-- Only the call that wrote attempt 1 receives `first`. -/
def markFirstRequest (origin : Permit2SignedOrigin) : Permit2Prog H Unit := do
  refuseIf (origin.approval.purpose ≠ .signAndSubmitOnce)
  let r ← findOperation
  checkOrigin origin r
  let written ← withLocks (saveFirstRequest origin)
  match written with
  | none => Prog.ret ()
  | some next => Guarded.act (Permit2Op.receive (.first next))

/-! ## Settlement -/

def proofBinding (signed : Option Permit2ProductionSigned)
    (mode : Permit2ObservationMode) : Permit2ProofBinding :=
  ⟨mode, productionStableDigest H r, r.material.materialHash, r.material.requestHash, r.material.challengeHash,
    signed.map (·.signedHash)⟩

def consumePermit2ObservationProof (proof : Permit2ObservationProof) (r : Permit2ProductionRecord)
    (signed : Option Permit2ProductionSigned) (mode : Permit2ObservationMode) :
    Permit2Prog H Permit2ObservationProjection := do
  ask (.consume proof) rfl
  lift (if proof.binding ≠ proofBinding (H := H) r signed mode then
    invalid "Permit2 observation is not bound to the frozen operation." else .ok proof.projection)

def modeOutcome : Permit2ObservationMode → Permit2Outcome
  | .settlement => .settled
  | .expiredUnused => .expiredUnused

/-- The terminal intent a checked observation makes; any other is refused. -/
def terminalIntent (mode : Permit2ObservationMode)
    (checked : Permit2ObservationProjection) : Result Permit2TerminalIntent :=
  match checked.blockNumber, checked.blockHash with
  | some number, some hash =>
    if checked.outcome = .hold ∨ checked.reason ≠ .checked ∨ checked.outcome ≠ modeOutcome mode then held
    else
      let body : Permit2TerminalBody := ⟨checked.outcome, checked.operationDigest, checked.materialHash,
        checked.requestHash, checked.challengeHash, checked.signedHash, checked.transactionHash, number, hash⟩
      .ok ⟨body, checked, productionTerminalDigest H r body⟩
  | _, _ => held

/-- Save the intent, or find the one that was saved first with the same outcome. -/
def saveIntent (signed : Option Permit2ProductionSigned) (intent : Permit2TerminalIntent) :
    Permit2Prog H Permit2ProductionRecord := do
  let current ← findOperation
  match current.exposureJournal with
  | none => lift held
  | some journal =>
    if current.terminal ∨ journal.signed ≠ signed then lift held
    else
      match journal.terminalIntent with
      | some saved => if saved.outcomeDigest ≠ intent.outcomeDigest then lift held else Prog.ret current
      | none => save current { journal with terminalIntent := some intent } .terminalPending current.terminal

def outcomeState (outcome : Permit2Outcome) : AssetUsageState :=
  if outcome = .settled then .finalized else .releasedUnsubmitted

def terminalState (outcome : Permit2Outcome) : Permit2ProductionState :=
  if outcome = .settled then .settled else .expiredNoEffect

/-- The record ends under the intent the ledger was moved for. -/
def endTerminal (intent : Permit2TerminalIntent) : Permit2Prog H Permit2ProductionRecord := do
  let current ← findOperation
  match current.exposureJournal with
  | none => lift held
  | some j =>
    if j.terminalIntent.map (·.outcomeDigest) ≠ some intent.outcomeDigest then lift held
    else if current.terminal then Prog.ret current
    else save current j (terminalState intent.outcome) true

/-- A saved intent suffices only to match a ledger that is already terminal. -/
def reconcileTerminal : Permit2Prog H Permit2ProductionRecord := do
  let r ← findOperation
  match r.exposureJournal.bind (·.terminalIntent) with
  | none => Prog.ret r
  | some intent =>
    if r.terminal then Prog.ret r
    else do
      let lease ← leaseOf r
      if lease.state ≠ outcomeState intent.outcome then Prog.ret r
      else if lease.outcomeDigest ≠ some intent.outcomeDigest then lift held
      else withLocks (endTerminal intent)

/-- Move the ledger for a saved intent, then end the record. -/
def settleLease (pending : Permit2ProductionRecord) (intent : Permit2TerminalIntent) :
    Permit2Prog H Permit2ProductionRecord := do
  let lease ← leaseOf pending
  if lease.state = outcomeState intent.outcome then reconcileTerminal
  else do
    let at' ← now
    let _ ← moveLease (transitionInput pending (outcomeState intent.outcome) (some intent.outcomeDigest)
      [.unknownFinality] at')
    reconcileTerminal

def finalize (proof : Permit2ObservationProof) (mode : Permit2ObservationMode) :
    Permit2Prog H Permit2ProductionRecord := do
  let r ← findOperation
  match r.exposureJournal with
  | none => lift held
  | some j =>
    if ¬ j.holdConfirmed ∨ r.terminal then lift held
    else do
      let checked ← consumePermit2ObservationProof proof r j.signed mode
      let intent ← lift (terminalIntent (H := H) r mode checked)
      let pending ← withLocks (saveIntent j.signed intent)
      settleLease pending intent

end Permit2Prog
end Permit2
end PaymentNode
