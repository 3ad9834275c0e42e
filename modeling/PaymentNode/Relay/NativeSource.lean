import PaymentNode.Relay.Source

/-!
# NativeSource — the native source of a Relay operation

One native deposit on BNB or Base: its journal, the deposit's slot in the encrypted wallet, two create-only
claims on Base, and its usage hold.  `execute` is the call that signs, sends and observes the deposit and
settles the hold; the restoration of an older journal is a call of its own.  A port throws or answers; a chain
read answers with any verdict.  The log keeps what was signed and sent, with the slot and the journal as they
were then.
-/

namespace PaymentNode

inductive RelayNativeChain
  | bnb
  | base
deriving DecidableEq, Repr

def RelayNativeChain.id : RelayNativeChain → ℕ
  | bnb => 56
  | base => 8453

inductive RelayNativeSourcePhase
  | pending
  | signingStarted
  | sealed
  | submitting
  | confirmed
  | failed
  | failedBeforeEffect
  | abandonedUnsent
deriving DecidableEq, Repr

/-- A saved native operation that passed `assertLane`. -/
structure RelayNativeOperation where
  profile : String
  profileHash : String
  operationId : String
  integrityHash : String
  chain : RelayNativeChain
  sourceAccount : String
  amountAtomic : ℕ
  deadline : Instant
  quoteDigest : String
  requestId : String
  routeReference : String
  policyDigest : String
  policyRevision : ℕ
  policyActivationDigest : Option String
  depositNetworkFeeCeilingWei : ℕ
  deposit : RelayQuoteTransaction

structure RelayNativeJournalBinding where
  profileHash : String
  operationId : String
  operationIntegrityHash : String
  quoteDigest : String
  requestId : String
  depositEnvelopeHash : String
deriving DecidableEq, Repr

structure RelayNativeSourceJournalBody where
  binding : RelayNativeJournalBinding
  phase : RelayNativeSourcePhase
  marker : Option String
  markedAt : Option Instant
  transactionHash : Option String
  observedAt : Option Instant
deriving DecidableEq

structure RelayNativeSourceJournal extends RelayNativeSourceJournalBody where
  integrityHash : String
deriving DecidableEq

structure RelayNativeHash where
  hashObject : RelayNativeSourceJournalBody → String
  depositEnvelope : RelayQuoteTransaction → String
  keccak256 : String → String
  parseTransaction : String → Option RelaySignedTransaction
  getAddress : String → String
  custodyBinding : RelayNativeOperation → String
  noMarkerDigest : RelayNativeOperation → String

structure RelayNativeSetting where
  hash : RelayNativeHash
  addresses : Addresses
  op : RelayNativeOperation

variable (w : RelayNativeSetting)

def RelayNativeSetting.usageIdentity : AssetUsageIdentity :=
  ⟨w.hash.getAddress w.op.sourceAccount, "eip155:" ++ toString w.op.chain.id, .native⟩

def RelayNativeSetting.usageKey : HoldKey :=
  ⟨w.addresses, w.usageIdentity, "relay-native-execute:" ++ w.op.operationId⟩

structure RelayNativeActive extends RelayActivePolicy where
  activationDigest : String

/-- What a program asks that leaves no trace in the operation's own files. -/
inductive RelayNativeAsk
  /-- The owner's locks, profile, public wallet and grants. -/
  | assertOwner
  | retired
  | activePolicy
  | usageTotal (now : Instant)
  /-- The policy, the route pin and the recipient pin, for a spend on top of a day's usage. -/
  | policyAdmits (registry : AssetPolicyRegistry) (usage : ℕ) (now : Instant)
  /-- `RelayNativeAuthority.assert`. -/
  | authority
  | confirm
  /-- Balance, fees and the pending nonce, at one head. -/
  | funding
  | walletAddress

abbrev RelayNativeAsk.Answer : RelayNativeAsk → Type
  | assertOwner => Unit
  | retired => Bool
  | activePolicy => Option RelayNativeActive
  | usageTotal _ => ℕ
  | policyAdmits _ _ _ => Unit
  | authority => Unit
  | confirm => Bool
  | funding => ℕ
  | walletAddress => Option String

inductive RelayNativeOp
  | loadJournal
  | advance (expected : Option String) (phase : RelayNativeSourcePhase) (transactionHash : Option String)
      (at' : Instant)
  | restore (version : Option RelayNativeSourceJournal)
  | hasEffectClaim
  | claimSigning (nonce : ℕ)
  | claimBroadcast (raw : String)
  | loadSlot
  | sealSlot (signed : RelaySignedEffect)
  | discardSlot
  /-- Custody is proven empty under its lock. -/
  | unsignedSlot
  | hold (q : HoldOp)
  | now
  | ask (q : RelayNativeAsk)
  | sign (nonce : ℕ)
  | send (raw : String)
  | observe (transactionHash : String)
  | unsentOutcome (nonce : ℕ) (transactionHash : String)

abbrev RelayNativeOp.Answer (H : LedgerHash) : RelayNativeOp → Type
  | loadJournal => RelayResult (Option RelayNativeSourceJournal)
  | advance _ _ _ _ => RelayResult RelayNativeSourceJournal
  | restore _ => Unit
  | hasEffectClaim => RelayResult Bool
  | claimSigning _ => RelayResult Unit
  | claimBroadcast _ => RelayResult Unit
  | loadSlot => RelayResult (Option RelaySignedEffect)
  | sealSlot _ => RelayResult Unit
  | discardSlot => RelayResult Unit
  | unsignedSlot => RelayResult Unit
  | hold q => q.Answer H
  | now => Instant
  | ask q => RelayResult q.Answer
  | sign _ => RelayResult String
  | send _ => RelayResult String
  | observe _ => RelayResult (Option RelayEffectOutcome)
  | unsentOutcome _ _ => RelayResult EvmUnsentOutcome

abbrev RelayNativeProg (H : LedgerHash) := Prog RelayNativeOp (RelayNativeOp.Answer H) RelayError

namespace RelayNative

variable {H : LedgerHash}

/-! ## Refusals -/

def blockedError (reason : String) : RelayError :=
  ⟨.operationBlocked, "Relay native source execution is blocked.", some reason⟩

def corruptError (reason : String) : RelayError :=
  ⟨.stateCorrupt, "Relay native source state is invalid: " ++ reason ++ ".", none⟩

/-- `if (c) throw e`. -/
def refuse (c : Prop) [Decidable c] (e : RelayError) : RelayNativeProg H Unit :=
  if c then .fail e else .ret ()

/-! ## The journal -/

/-- Where each phase may go next. -/
def edges : RelayNativeSourcePhase → List RelayNativeSourcePhase
  | .pending => [.signingStarted]
  | .signingStarted => [.sealed, .failedBeforeEffect]
  | .sealed => [.submitting, .abandonedUnsent]
  | .submitting => [.confirmed, .failed]
  | _ => []

/-- The phases of an outcome. -/
def settled : RelayNativeSourcePhase → Bool
  | .confirmed | .failed | .failedBeforeEffect | .abandonedUnsent => true
  | _ => false

def binding : RelayNativeJournalBinding :=
  ⟨w.op.profileHash, w.op.operationId, w.op.integrityHash, w.op.quoteDigest, w.op.requestId,
    w.hash.depositEnvelope w.op.deposit⟩

def validateJournal (j : RelayNativeSourceJournal) : RelayResult Unit :=
  if j.binding ≠ binding w ∨ j.integrityHash ≠ w.hash.hashObject j.toRelayNativeSourceJournalBody then
    .error (corruptError "journal binding")
  else if j.phase = .pending then
    if j.marker.isSome ∨ j.markedAt.isSome ∨ j.transactionHash.isSome ∨ j.observedAt.isSome then
      .error (corruptError "pending journal")
    else .ok ()
  else if ¬ j.marker.any RelayEffects.hexHash ∨ j.markedAt.isNone then .error (corruptError "journal marker")
  else if (if j.phase = .signingStarted ∨ j.phase = .failedBeforeEffect then j.transactionHash.isSome
      else ¬ j.transactionHash.any RelayEffects.txHash) then .error (corruptError "journal hash")
  else if (if settled j.phase then j.observedAt.isNone else j.observedAt.isSome) then
    .error (corruptError "journal observation")
  else .ok ()

/-- A journal is checked when it is read. -/
def loaded :
    Option RelayNativeSourceJournal → RelayResult (Option RelayNativeSourceJournal)
  | none => .ok none
  | some j => do
    validateJournal w j
    return some j

def mayFollow (old : Option RelayNativeSourceJournal) (phase : RelayNativeSourcePhase) : Prop :=
  match old with
  | none => phase = .pending
  | some j => phase ∈ edges j.phase

instance (old : Option RelayNativeSourceJournal) (phase : RelayNativeSourcePhase) :
    Decidable (mayFollow old phase) := by
  cases old
  · exact inferInstanceAs (Decidable (_ = _))
  · exact inferInstanceAs (Decidable (_ ∈ _))

def nextBody (old : Option RelayNativeSourceJournal) (phase : RelayNativeSourcePhase)
    (transactionHash : Option String) (at' : Instant) (marker : String) : RelayNativeSourceJournalBody :=
  match old with
  | none => ⟨binding w, phase, none, none, none, none⟩
  | some j => { j.toRelayNativeSourceJournalBody with
      phase := phase
      marker := if phase = .signingStarted then some marker else j.marker
      markedAt := if phase = .signingStarted then some at' else j.markedAt
      transactionHash := if phase = .sealed then transactionHash else j.transactionHash
      observedAt := if settled phase then some at' else j.observedAt }

def advanced (journal : Option RelayNativeSourceJournal) (expected : Option String)
    (phase : RelayNativeSourcePhase) (transactionHash : Option String) (at' : Instant) (marker : String) :
    RelayResult RelayNativeSourceJournal := do
  let old ← loaded w journal
  if old.map RelayNativeSourceJournal.integrityHash ≠ expected then .error (blockedError "stale_journal")
  else if ¬ mayFollow old phase then .error (blockedError "journal_transition")
  else do
    let body := nextBody w old phase transactionHash at' marker
    let next : RelayNativeSourceJournal := ⟨body, w.hash.hashObject body⟩
    validateJournal w next
    return next

/-! ## Operations -/

def loadJournal : RelayNativeProg H (Option RelayNativeSourceJournal) := .run .loadJournal rfl
def advance (journal : Option RelayNativeSourceJournal) (phase : RelayNativeSourcePhase)
    (transactionHash : Option String) (at' : Instant) : RelayNativeProg H RelayNativeSourceJournal :=
  .run (.advance (journal.map RelayNativeSourceJournal.integrityHash) phase transactionHash at') rfl
def restore (version : Option RelayNativeSourceJournal) : RelayNativeProg H Unit :=
  .perform (RelayNativeOp.restore version)
def hasEffectClaim : RelayNativeProg H Bool := .run .hasEffectClaim rfl
def claimSigning (nonce : ℕ) : RelayNativeProg H Unit := .run (.claimSigning nonce) rfl
def claimBroadcast (raw : String) : RelayNativeProg H Unit := .run (.claimBroadcast raw) rfl
def loadSlot : RelayNativeProg H (Option RelaySignedEffect) := .run .loadSlot rfl
def sealSlot (signed : RelaySignedEffect) : RelayNativeProg H Unit := .run (.sealSlot signed) rfl
def discardSlot : RelayNativeProg H Unit := .run .discardSlot rfl
def unsignedSlot : RelayNativeProg H Unit := .run .unsignedSlot rfl
def now : RelayNativeProg H Instant := .perform RelayNativeOp.now
def ask (q : RelayNativeAsk) : RelayNativeProg H q.Answer := .run (.ask q) rfl
def sign (nonce : ℕ) : RelayNativeProg H String := .run (.sign nonce) rfl
def send (raw : String) : RelayNativeProg H String := .run (.send raw) rfl
def observe (transactionHash : String) : RelayNativeProg H (Option RelayEffectOutcome) :=
  .run (.observe transactionHash) rfl
def unsentOutcome (nonce : ℕ) (transactionHash : String) : RelayNativeProg H EvmUnsentOutcome :=
  .run (.unsentOutcome nonce transactionHash) rfl

def loadUsage : RelayNativeProg H (Option (Reservation H)) := .perform (RelayNativeOp.hold .load)

/-- A write of the ledger; its refusal is thrown. -/
def thrown (answer : Result (Reservation H)) : RelayNativeProg H Unit :=
  match answer with
  | .ok _ => .ret ()
  | .error e => .fail e.toRelay

def moveUsage (input : AssetUsageTransitionInput) : RelayNativeProg H Unit := do
  let answer ← .perform (RelayNativeOp.hold (.transition input))
  thrown answer

def reserveUsage (input : AssetUsageReserveInput) : RelayNativeProg H Unit := do
  let answer ← .perform (RelayNativeOp.hold (.reserve input))
  thrown answer

/-! ## Signed bytes -/

/-- The most bytes a Base deposit may be signed to. -/
def baseRelaySignedBytes : ℕ := 512

def tooLong (raw : String) : Prop :=
  w.op.chain = .base ∧ baseRelaySignedBytes < (raw.toList.length - 2) / 2

instance (w : RelayNativeSetting) (raw : String) : Decidable (tooLong w raw) :=
  inferInstanceAs (Decidable (_ ∧ _))

/-- The decoded bytes are the frozen deposit envelope, signed by the source account. -/
def envelopeSigned (op : RelayNativeOperation) (tx : RelaySignedTransaction) (expectedNonce : Option ℕ) : Prop :=
  tx.isEip1559 = true ∧ tx.chainId = op.chain.id ∧ RelaySource.same tx.signer op.sourceAccount ∧
    RelaySource.same tx.target op.deposit.target ∧ RelaySource.same tx.data op.deposit.data ∧
    tx.value = op.deposit.value ∧ tx.gas = some op.deposit.gas ∧
    tx.maxFeePerGas = some op.deposit.maxFeePerGas ∧
    tx.maxPriorityFeePerGas = some op.deposit.maxPriorityFeePerGas ∧ tx.nonce.isSome ∧
    (∀ n ∈ expectedNonce, tx.nonce = some n) ∧ tx.accessListLength = 0 ∧
    op.deposit.gas * op.deposit.maxFeePerGas ≤ op.depositNetworkFeeCeilingWei

instance (op : RelayNativeOperation) (tx : RelaySignedTransaction) (expectedNonce : Option ℕ) :
    Decidable (envelopeSigned op tx expectedNonce) :=
  inferInstanceAs (Decidable (_ ∧ _))

/-- `verifySignedNativeDeposit`. -/
def verifySigned (raw : String) (expectedNonce : Option ℕ) : RelayResult String :=
  if tooLong w raw ∨ ¬ RelaySource.rawShape .deposit raw then .error (corruptError "signed encoding")
  else
    match w.hash.parseTransaction raw with
    | none => .error (corruptError "signed decode")
    | some tx =>
      if ¬ envelopeSigned w.op tx expectedNonce then .error (corruptError "signed envelope drift")
      else .ok (w.hash.keccak256 raw)

/-! ## Owner and policy -/

/-- Less than a minute before the quote's deadline. -/
def deadlinePassed (at' : Instant) : Prop := w.op.deadline.ms ≤ at'.ms + 60000

instance (w : RelayNativeSetting) (at' : Instant) : Decidable (deadlinePassed w at') :=
  inferInstanceAs (Decidable (_ ≤ _))

def activeFor (active : RelayNativeActive) : Prop :=
  active.profile = w.op.profile ∧ active.digest = w.op.policyDigest ∧ active.revision = w.op.policyRevision ∧
    RelaySource.same active.evmAccount w.op.sourceAccount ∧
    ∀ digest ∈ w.op.policyActivationDigest, active.activationDigest = digest

instance (w : RelayNativeSetting) (active : RelayNativeActive) : Decidable (activeFor w active) :=
  inferInstanceAs (Decidable (_ ∧ _))

/-- The part of the day's usage that the operation's own hold is. -/
def ownUsage (row : Option (Reservation H)) (at' : Instant) : ℕ :=
  if row.any fun r => r.state ≠ .failedBeforeEffect ∧ r.state ≠ .failedConfirmedRevert ∧
      r.reservedAt.day = at'.day then w.op.amountAtomic else 0

/-- The caps, the mechanism and the pins, over the day's usage without the operation's own hold. -/
def admitSpend (active : RelayNativeActive) (at' : Instant) :
    RelayNativeProg H RelayNativeActive := do
  let row ← loadUsage
  let total ← ask (.usageTotal at')
  refuse (total < ownUsage w row at') (corruptError "usage total")
  ask (.policyAdmits active.registry (total - ownUsage w row at') at')
  return active

/-- Owner admission at every gate. -/
def admission : RelayNativeProg H RelayNativeActive := do
  let at' ← now
  ask .assertOwner
  let retired ← ask .retired
  refuse (retired = true) (blockedError "operation_retired")
  refuse (deadlinePassed w at') (blockedError "quote_deadline")
  let active ← ask .activePolicy
  match active with
  | none => .fail (blockedError "active_policy_or_owner")
  | some active => do
    refuse (¬ activeFor w active) (blockedError "active_policy_or_owner")
    refuse (RelaySource.expired active.registry at') (blockedError "policy_expired")
    admitSpend w active at'

/-! ## The usage hold -/

def transitionInput (H : LedgerHash) (state : AssetUsageState) (at' : Instant)
    (outcomeDigest : Option String) (expected : Option (List AssetUsageState)) : AssetUsageTransitionInput where
  reservationId := w.usageKey.reservationId H
  policyDigest := w.op.policyDigest
  state := state
  now := at'
  outcomeDigest := outcomeDigest
  consumedAtomic := none
  effectAt := none
  expectedCurrentStates := expected
  journal := ⟨none, none⟩

def reserveInput (registry : AssetPolicyRegistry) (at' : Instant) (retry : Bool) :
    AssetUsageReserveInput where
  registry := registry
  rail := .bridge
  mechanism := some ⟨"relay", w.op.routeReference⟩
  amountAtomic := w.op.amountAtomic
  idempotencyKey := "relay-native-execute:" ++ w.op.operationId
  now := at'
  retryFailedBeforeEffect := retry

/-- A hold that is still reserved is charged until the chain tells. -/
def markUnknown : RelayNativeProg H Unit := do
  let row ← loadUsage
  if row.any fun r => r.state = .reserved then do
    let at' ← now
    moveUsage (transitionInput w H .unknownFinality at' none none)
  else .ret ()

/-- The ledger state an outcome names: bytes that never land moved nothing. -/
def settleTarget (phase : RelayNativeSourcePhase) (current : AssetUsageState) : AssetUsageState :=
  match phase with
  | .confirmed => .finalized
  | .failedBeforeEffect => .failedBeforeEffect
  | .abandonedUnsent => if current = .reserved then .failedBeforeEffect else .releasedUnsubmitted
  | _ => .failedConfirmedRevert

/-- A revert is counted back from `submitted`. -/
def submitReserved (target current : AssetUsageState) : RelayNativeProg H Unit :=
  if target = .failedConfirmedRevert ∧ current = .reserved then do
    let at' ← now
    moveUsage (transitionInput w H .submitted at' none (some [.reserved]))
  else .ret ()

def settleUsage (j : RelayNativeSourceJournal) : RelayNativeProg H Unit := do
  let row ← loadUsage
  match row with
  | none => .fail (corruptError "usage reservation missing")
  | some current =>
    if current.state = settleTarget j.phase current.state then .ret ()
    else do
      submitReserved w (settleTarget j.phase current.state) current.state
      let at' ← now
      moveUsage (transitionInput w H (settleTarget j.phase current.state) at' (some j.integrityHash) none)

/-! ## Before the attempt -/

def phaseOf (journal : Option RelayNativeSourceJournal) : RelayNativeSourcePhase :=
  match journal with
  | none => .pending
  | some j => j.phase

variable (j : Option RelayNativeSourceJournal)

/-- A claim on disk beside a journal without an effect is permanent: nothing is signed or sent again. -/
def fenceClaims : RelayNativeProg H Unit :=
  if phaseOf j = .pending ∨ phaseOf j = .failedBeforeEffect then do
    let claimed ← hasEffectClaim
    if claimed = true then do
      markUnknown w
      .fail (blockedError "permanent_effect_claim_requires_observation")
    else .ret ()
  else .ret ()

/-- A reserved hold without a source marker is released, once custody is read as empty. -/
def releaseReserved : RelayNativeProg H Unit := do
  let slot ← loadSlot
  refuse (slot.isSome) (corruptError "signed custody before source marker")
  let at' ← now
  moveUsage (transitionInput w H .failedBeforeEffect at' (some (w.hash.noMarkerDigest w.op)) (some [.reserved]))

def releaseUnmarked : RelayNativeProg H Unit :=
  if phaseOf j = .pending then do
    let prior ← loadUsage
    match prior with
    | none => .ret ()
    | some r =>
      if r.state = .reserved then releaseReserved w
      else refuse (r.state ≠ .failedBeforeEffect) (corruptError "usage without source marker")
  else .ret ()

def relaySignedNonce (raw : String) : RelayNativeProg H ℕ :=
  match (w.hash.parseTransaction raw).bind RelaySignedTransaction.nonce with
  | none => .fail (corruptError "signed nonce")
  | some nonce => .ret nonce

/-- What the chain knows of bytes that were sealed and never sent. -/
def sealedOutcome (j : RelayNativeSourceJournal) :
    RelayNativeProg H (Option EvmUnsentOutcome) := do
  let saved ← loadSlot
  match saved with
  | none => .ret none
  | some signed =>
    if some signed.transactionHash ≠ j.transactionHash then .ret none
    else do
      let nonce ← relaySignedNonce w signed.rawTransaction
      let outcome ← unsentOutcome nonce signed.transactionHash
      return some outcome

def resumeOutcome (j : RelayNativeSourceJournal) :
    Option EvmUnsentOutcome → RelayNativeProg H (Option RelayNativeSourceJournal)
  | some .neverLands => do
    let at' ← now
    let next ← advance (some j) .abandonedUnsent none at'
    discardSlot
    return some next
  -- The node already knows these exact bytes: they are fenced as possibly sent.
  | some .ownTransactionKnown => do
    let at' ← now
    let next ← advance (some j) .submitting none at'
    return some next
  | _ => .ret (some j)

def resumeSealed (journal : Option RelayNativeSourceJournal) :
    RelayNativeProg H (Option RelayNativeSourceJournal) :=
  match journal with
  | none => .ret none
  | some j =>
    if j.phase ≠ .sealed then .ret (some j)
    else do
      let outcome ← sealedOutcome w j
      resumeOutcome j outcome

/-! ## The attempt -/

/-- The phases at which a call may still sign or send under its own admission. -/
def needsAuthority : Bool :=
  phaseOf j = .pending || phaseOf j = .sealed || (w.op.chain = .base && phaseOf j = .signingStarted)

/-- `new RelayNativeAuthority(op, await this.admission(..), ..)`. -/
def takeAuthority (needed : Bool) : RelayNativeProg H Unit :=
  if needed then do
    let _ ← admission w
    ask .authority
  else .ret ()

def assertAuthority (taken : Bool) : RelayNativeProg H Unit :=
  if taken then ask .authority else .ret ()

def confirmDeposit : RelayNativeProg H Unit :=
  if phaseOf j = .submitting then .ret ()
  else do
    let confirmed ← ask .confirm
    refuse (confirmed ≠ true) (blockedError "foreground_authorization_declined")

def openJournal : RelayNativeProg H RelayNativeSourceJournal :=
  match j with
  | some j => .ret j
  | none => do
    ask .authority
    let at' ← now
    advance none .pending none at'

def reserveDeposit : RelayNativeProg H Unit := do
  let active ← admission w
  let prior ← loadUsage
  let at' ← now
  reserveUsage (reserveInput w active.registry at' prior.isSome)

/-- On Base the hold is charged from the marker on. -/
def chargeOnBase : RelayNativeProg H Unit :=
  if w.op.chain = .base then do
    let at' ← now
    moveUsage (transitionInput w H .unknownFinality at' none none)
  else .ret ()

/-- The one signature, after its marker. -/
def signSealed (nonce : ℕ) : RelayNativeProg H Unit := do
  let wallet ← ask .walletAddress
  match wallet with
  | none => .fail (blockedError "encrypted_wallet_missing")
  | some address => do
    let _ ← admission w
    ask .authority
    refuse (¬ RelaySource.same address w.op.sourceAccount) (blockedError "encrypted_wallet_owner")
    ask .authority
    let raw ← sign nonce
    let hash ← Prog.ofExcept (verifySigned w raw (some nonce))
    sealSlot ⟨raw, hash⟩

def markSigning (j : RelayNativeSourceJournal) :
    RelayNativeProg H (RelayNativeSourceJournal × ℕ) := do
  reserveDeposit w
  let _ ← admission w
  let nonce ← ask .funding
  let _ ← admission w
  ask .authority
  claimSigning nonce
  let at' ← now
  let next ← advance (some j) .signingStarted none at'
  chargeOnBase w
  return (next, nonce)

def signDeposit (j : RelayNativeSourceJournal) :
    RelayNativeProg H (RelayNativeSourceJournal × Option ℕ) :=
  if j.phase ≠ .pending then .ret (j, none)
  else do
    let (next, nonce) ← markSigning w j
    signSealed w nonce
    return (next, some nonce)

/-- The only closure without a chain result: no hash, and custody proven empty. -/
def closeUnsignedAttempt (j : RelayNativeSourceJournal) : RelayNativeProg H RelayNativeSourceJournal := do
  unsignedSlot
  refuse (j.phase ≠ .signingStarted ∨ j.transactionHash.isSome ∨ j.observedAt.isSome)
    (blockedError "no_effect_closure_requires_unsigned_marker")
  let at' ← now
  advance (some j) .failedBeforeEffect none at'

/-- Signed bytes that are missing close the attempt on BNB, and on Base are observed only. -/
def closeUnsigned (j : RelayNativeSourceJournal) :
    RelayNativeProg H RelayNativeSourceJournal :=
  if w.op.chain = .base then .ret j
  else do
    let next ← closeUnsignedAttempt j
    settleUsage w next
    return next

def chargeReserved : RelayNativeProg H Unit :=
  if w.op.chain = .base then markUnknown w else .ret ()

def sealDeposit (j : RelayNativeSourceJournal) :
    RelayNativeProg H RelayNativeSourceJournal :=
  if j.phase ≠ .signingStarted then .ret j
  else do
    chargeReserved w
    let slot ← loadSlot
    match slot with
    | none => closeUnsigned w j
    | some signed => do
      let at' ← now
      advance (some j) .sealed (some signed.transactionHash) at'

/-- `dispatchRelayNativeDepositOnce`: the marker, then the claim, then the send; what fails after the marker is
never repeated. -/
def dispatchOnce (j : RelayNativeSourceJournal) (raw : String) :
    RelayNativeProg H RelayNativeSourceJournal := do
  refuse (some (w.hash.keccak256 raw) ≠ j.transactionHash) (blockedError "sealed_dispatch_required")
  let at' ← now
  let marked ← advance (some j) .submitting none at'
  let _ ← (do
    claimBroadcast raw
    ask .authority
    send raw : RelayNativeProg H String).attempt
  return marked

def nonceOr (signedNonce : Option ℕ) : RelayNativeProg H ℕ :=
  match signedNonce with
  | some nonce => .ret nonce
  | none => ask .funding

def sendDeposit (authorized : Bool) (j : RelayNativeSourceJournal)
    (signedNonce : Option ℕ) : RelayNativeProg H RelayNativeSourceJournal :=
  if j.phase ≠ .sealed then .ret j
  else do
    takeAuthority w (!authorized)
    let nonce ← nonceOr signedNonce
    let slot ← loadSlot
    match slot with
    | none => .fail (corruptError "sealed custody missing")
    | some signed => do
      refuse (some signed.transactionHash ≠ j.transactionHash) (corruptError "sealed custody missing")
      let _ ← Prog.ofExcept (verifySigned w signed.rawTransaction (some nonce))
      let _ ← admission w
      ask .authority
      dispatchOnce w j signed.rawTransaction

def observeDeposit (j : RelayNativeSourceJournal) :
    RelayNativeProg H RelayNativeSourceJournal :=
  if j.phase ≠ .submitting then .ret j
  else do
    let outcome ← observe (j.transactionHash.getD "")
    match outcome with
    | none => .ret j
    | some outcome => do
      let at' ← now
      let next ← advance (some j) (if outcome = .confirmed then .confirmed else .failed) none at'
      settleUsage w next
      return next

def attempt' (found : Option RelayNativeSourceJournal) :
    RelayNativeProg H RelayNativeSourceJournal := do
  takeAuthority w (needsAuthority w found)
  confirmDeposit found
  assertAuthority (needsAuthority w found)
  let opened ← openJournal found
  let (marked, nonce) ← signDeposit w opened
  let signed ← sealDeposit w marked
  let sent ← sendDeposit w (needsAuthority w found) signed nonce
  observeDeposit w sent

/-- Marked on Base without signed bytes: observed only. -/
def unsignedOnBase (j : RelayNativeSourceJournal) : RelayNativeProg H Bool :=
  if j.phase = .signingStarted ∧ w.op.chain = .base then do
    let slot ← loadSlot
    return slot.isNone
  else .ret false

def resume (j : RelayNativeSourceJournal) :
    RelayNativeProg H RelayNativeSourceJournal :=
  if settled j.phase then do
    settleUsage w j
    return j
  else do
    let unsigned ← unsignedOnBase w j
    if unsigned = true then do
      markUnknown w
      return j
    else attempt' w (some j)

def run : RelayNativeProg H RelayNativeSourceJournal := do
  ask .assertOwner
  let found ← loadJournal
  fenceClaims w found
  releaseUnmarked w found
  let journal ← resumeSealed w found
  match journal with
  | none => attempt' w none
  | some j => resume w j

/-! ## What the operations do -/

inductive Event
  | signed
  /-- The bytes left, from this slot and over this journal. -/
  | sent (raw : String) (slot : Option DirectEffectMaterial) (journal : Option RelayNativeSourceJournal)

/-- The operation's own files with every version its journal had, and what was signed and sent, newest first. -/
structure Shared (H : LedgerHash) where
  journal : Option RelayNativeSourceJournal
  versions : List (Option RelayNativeSourceJournal)
  slot : Option DirectEffectMaterial
  row : Option (Reservation H)
  signingClaim : Option ℕ
  broadcastClaim : Option String
  log : List Event

def Shared.add (s : Shared H) (e : Event) : Shared H := { s with log := e :: s.log }

def Shared.start : Shared H := ⟨none, [none], none, none, none, none, []⟩

def Shared.save (s : Shared H) (j : RelayNativeSourceJournal) : Shared H :=
  { s with journal := some j, versions := some j :: s.versions }

/-- The slot's bytes, checked again when they are read. -/
def loadedSlot : Option DirectEffectMaterial → RelayResult (Option RelaySignedEffect)
  | none => .ok none
  | some m =>
    if m.payloadHash ≠ w.hash.custodyBinding w.op ∨ m.transactionHash ≠ m.rawTransactionHash ∨
        w.hash.keccak256 m.rawTransaction ≠ m.transactionHash then .error (corruptError "custody binding")
    else do
      let _ ← verifySigned w m.rawTransaction none
      return some ⟨m.rawTransaction, m.transactionHash⟩

def sealedSlot (slot : Option DirectEffectMaterial) (signed : RelaySignedEffect) :
    RelayResult DirectEffectMaterial :=
  if slot.isSome then .error (blockedError "signed_native_deposit_already_sealed")
  else do
    let hash ← verifySigned w signed.rawTransaction none
    if hash ≠ signed.transactionHash then .error (corruptError "signed hash")
    else .ok ⟨w.hash.custodyBinding w.op, signed.transactionHash, signed.rawTransaction, signed.transactionHash⟩

/-- A write its port can also refuse, with nothing written. -/
def refusable {α : Type} (s : Shared H) (result : RelayResult (Shared H)) (answer : RelayResult α) (a : α)
    (t : Shared H) : Prop :=
  (result = .ok t ∧ answer = .ok a) ∨ ((∃ e, answer = .error e) ∧ t = s)

/-- A create-only file; BNB writes none. -/
def claimed {α : Type} (w : RelayNativeSetting) (claim : Option α) (s t : Shared H) : RelayResult (Shared H) :=
  if w.op.chain ≠ .base then .ok s
  else if claim.isSome then .error ⟨.other, "The file exists.", none⟩
  else .ok t

def exec (s : Shared H) : (o : RelayNativeOp) → o.Answer H → Shared H → Prop
  | .loadJournal, answer, t => t = s ∧ answer = loaded w s.journal
  | .advance expected phase transactionHash at', answer, t =>
    ∃ marker, RelayEffects.hexHash marker ∧
      match advanced w s.journal expected phase transactionHash at' marker with
      | .ok j => answer = .ok j ∧ t = s.save j
      | .error e => answer = .error e ∧ t = s
  | .restore version, _, t => version ∈ s.versions ∧ t = { s with journal := version }
  | .hasEffectClaim, answer, t =>
    t = s ∧ answer = .ok (w.op.chain = .base ∧ (s.signingClaim.isSome ∨ s.broadcastClaim.isSome))
  | .claimSigning nonce, answer, t =>
    refusable s (claimed w s.signingClaim s { s with signingClaim := some nonce }) answer () t
  | .claimBroadcast raw, answer, t =>
    refusable s (claimed w s.broadcastClaim s { s with broadcastClaim := some raw }) answer () t
  | .loadSlot, answer, t => t = s ∧ (answer = loadedSlot w s.slot ∨ ∃ e, answer = .error e)
  | .sealSlot signed, answer, t =>
    refusable s ((sealedSlot w s.slot signed).map fun m => { s with slot := some m }) answer () t
  | .discardSlot, answer, t => refusable s (.ok { s with slot := none }) answer () t
  | .unsignedSlot, answer, t => t = s ∧ (answer = .ok () → s.slot = none)
  | .hold q, answer, t => holdExec w.usageKey s.row q answer t.row ∧ t = { s with row := t.row }
  | .now, _, t => t = s
  | .ask _, _, t => t = s
  | .sign _, answer, t =>
    match answer with
    | .ok _ => t = s.add .signed
    | .error _ => t = s ∨ t = s.add .signed
  | .send raw, _, t => t = s.add (.sent raw s.slot s.journal)
  | .observe _, _, t => t = s
  | .unsentOutcome _ _, _, t => t = s

/-- The calls on one operation; its locks are held around each.  With `restores`, an older journal is also put
back between them. -/
inductive Command (restores : Prop) (w : RelayNativeSetting) : RelayNativeProg H Unit → Prop
  | execute : Command restores w ((run w).bind fun _ => .ret ())
  | restore (version : Option RelayNativeSourceJournal) : restores → Command restores w (restore version)

end RelayNative
end PaymentNode
