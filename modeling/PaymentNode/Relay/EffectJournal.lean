import Mathlib.Logic.Function.Basic
import PaymentNode.Basic

/-!
# EffectJournal — the two source effects of a Relay operation

The journal of an Ethereum-source operation: an approval and the deposit that follows it, each at one phase of
its single attempt.  `validateRelayEffectJournal` is the check a journal passes when it is read and written,
`advanceRelayEffectJournal` the pure transition.  Once a submission is marked, no transition marks it again.
-/

namespace PaymentNode

/-- An `ApnError` with the reason its details name. -/
structure RelayError where
  code : ApnErrorCode
  message : String
  reason : Option String
deriving DecidableEq, Repr

abbrev RelayResult (α : Type) := Except RelayError α

def ApnError.toRelay (e : ApnError) : RelayError := ⟨e.code, e.message, none⟩

inductive RelayEffectRole
  | approval
  | deposit
deriving DecidableEq, Repr

inductive RelayEffectPhase
  | pending
  | signingStarted
  | sealed
  | submitting
  | confirmed
  | failed
  | abandonedUnsent
deriving DecidableEq, Repr

structure RelayAttempt where
  marker : String
  markedAt : Instant
  transactionHash : Option String
  attemptNumber : Option ℕ

structure RelayEffect where
  role : RelayEffectRole
  phase : RelayEffectPhase
  attempt : Option RelayAttempt
  observedAt : Option Instant

def RelayEffect.transactionHash (effect : RelayEffect) : Option String :=
  effect.attempt.bind RelayAttempt.transactionHash

structure RelayQuoteTransaction where
  sender : String
  target : String
  data : String
  value : ℕ
  chainId : ℕ
  gas : ℕ
  maxFeePerGas : ℕ
  maxPriorityFeePerGas : ℕ
deriving DecidableEq, Repr

/-- A saved Ethereum-source operation that passed `assertPrepared`: its quote, request id, policy and fee
ceilings are present, and the quote's digest and request id are the operation's own. -/
structure RelayUnsignedOperation where
  profile : String
  profileHash : String
  operationId : String
  integrityHash : String
  sourceAccount : String
  recipient : String
  amountAtomic : ℕ
  minOutputAtomic : ℕ
  deadline : Instant
  quoteDigest : String
  requestId : String
  policyDigest : String
  policyRevision : ℕ
  approvalNetworkFeeCeilingWei : ℕ
  depositNetworkFeeCeilingWei : ℕ
  depository : String
  orderId : String
  approval : RelayQuoteTransaction
  deposit : RelayQuoteTransaction

def RelayUnsignedOperation.envelope (op : RelayUnsignedOperation) : RelayEffectRole → RelayQuoteTransaction
  | .approval => op.approval
  | .deposit => op.deposit

/-- What a journal copies from its operation. -/
structure RelayJournalBinding where
  profileHash : String
  operationId : String
  preparedIntegrityHash : String
  sourceOwner : String
  quoteDigest : String
  orderId : String
  approvalEnvelope : RelayQuoteTransaction
  depositEnvelope : RelayQuoteTransaction
deriving DecidableEq, Repr

def RelayUnsignedOperation.binding (op : RelayUnsignedOperation) : RelayJournalBinding :=
  ⟨op.profileHash, op.operationId, op.integrityHash, op.sourceAccount, op.quoteDigest, op.orderId,
    op.approval, op.deposit⟩

structure RelayEffectJournalBody where
  binding : RelayJournalBinding
  effects : RelayEffectRole → RelayEffect
  createdAt : Instant

structure RelayEffectJournal extends RelayEffectJournalBody where
  integrityHash : String

inductive RelayEffectOutcome
  | confirmed
  | failed
deriving DecidableEq, Repr

def RelayEffectOutcome.phase : RelayEffectOutcome → RelayEffectPhase
  | .confirmed => .confirmed
  | .failed => .failed

inductive RelayEffectEvent
  | markSigning (marker : String) (at' : Instant)
  | sealSigned (transactionHash : String)
  | markSubmitting (at' : Instant)
  | observe (outcome : RelayEffectOutcome) (at' : Instant)
  /-- Sealed bytes that never crossed `submitting` and can never land. -/
  | recordNeverLanded (at' : Instant)

namespace RelayEffects

def corrupt {α : Type} (reason : String) : RelayResult α :=
  .error ⟨.stateCorrupt, "Relay effect journal is invalid: " ++ reason ++ ".", none⟩

def blocked {α : Type} (reason : String) : RelayResult α :=
  .error ⟨.operationBlocked, "Relay effect transition refused: " ++ reason ++ ".", none⟩

section Guards

variable {α : Type} {c : Prop} [Decidable c] {x : RelayResult α} {a : α} {reason : String}

theorem corrupt_guard : (if c then corrupt reason else x) = .ok a ↔ ¬ c ∧ x = .ok a := by
  by_cases hc : c <;> simp [hc, corrupt]

theorem blocked_guard : (if c then blocked reason else x) = .ok a ↔ ¬ c ∧ x = .ok a := by
  by_cases hc : c <;> simp [hc, blocked]

end Guards

def lowerHexDigit (c : Char) : Bool := c.isDigit || ('a' ≤ c && c ≤ 'f')

/-- `^[a-f0-9]{64}$`. -/
def hexHash (text : String) : Bool := text.toList.length = 64 && text.toList.all lowerHexDigit

/-- `^0x[a-f0-9]{64}$`. -/
def txHash (text : String) : Bool :=
  match text.toList with
  | '0' :: 'x' :: digits => digits.length = 64 && digits.all lowerHexDigit
  | _ => false

/-- The observed phases, which no transition leaves. -/
def observed : RelayEffectPhase → Bool
  | .confirmed | .failed | .abandonedUnsent => true
  | _ => false

/-- The phases of an attempt that is still open. -/
def open' : RelayEffectPhase → Bool
  | .signingStarted | .sealed | .submitting => true
  | _ => false

def validateAttempt (effect : RelayEffect) (attempt : RelayAttempt) : RelayResult Unit :=
  if ¬ hexHash attempt.marker ∨ (attempt.transactionHash.any fun h => ! txHash h) ∨
      attempt.attemptNumber.any (· ≠ 1) then corrupt "attempt marker"
  else if open' effect.phase ∧ attempt.attemptNumber ≠ some 1 then corrupt "effect attempt number"
  else if effect.phase = .signingStarted ∧ (attempt.transactionHash.isSome ∨ effect.observedAt.isSome) then
    corrupt "marked state"
  else if (effect.phase = .sealed ∨ effect.phase = .submitting) ∧
      (attempt.transactionHash = none ∨ effect.observedAt.isSome) then corrupt "known transaction"
  else if observed effect.phase ∧ effect.observedAt.all (fun at' => at' < attempt.markedAt) then
    corrupt "observation"
  else if effect.phase = .abandonedUnsent ∧
      (attempt.transactionHash = none ∨ attempt.attemptNumber ≠ some 1) then corrupt "never landed attempt"
  else .ok ()

def validateEffect (effect : RelayEffect) (role : RelayEffectRole) : RelayResult Unit :=
  if effect.role ≠ role then corrupt "effect role or phase"
  else if effect.phase = .pending then
    if effect.attempt.isSome ∨ effect.observedAt.isSome then corrupt "pending attempt" else .ok ()
  else
    match effect.attempt with
    | none => corrupt "attempt marker"
    | some attempt => validateAttempt effect attempt

/-- `hashObject` of a journal without its hash. -/
structure JournalHash where
  hashObject : RelayEffectJournalBody → String
  shape : ∀ body, hexHash (hashObject body)

def validateRelayEffectJournal (h : JournalHash) (op : RelayUnsignedOperation) (j : RelayEffectJournal) :
    RelayResult Unit :=
  if j.binding ≠ op.binding ∨ ¬ hexHash j.integrityHash then corrupt "binding"
  else do
    validateEffect (j.effects .approval) .approval
    validateEffect (j.effects .deposit) .deposit
    if (j.effects .deposit).phase ≠ .pending ∧ (j.effects .approval).phase ≠ .confirmed then
      corrupt "deposit order"
    else if h.hashObject j.toRelayEffectJournalBody ≠ j.integrityHash then corrupt "integrity hash"
    else .ok ()

def pendingEffect (role : RelayEffectRole) : RelayEffect := ⟨role, .pending, none, none⟩

def sealBody (h : JournalHash) (body : RelayEffectJournalBody) : RelayEffectJournal :=
  ⟨body, h.hashObject body⟩

def createRelayEffectJournal (h : JournalHash) (op : RelayUnsignedOperation) (createdAt : Instant) :
    RelayEffectJournal :=
  sealBody h ⟨op.binding, pendingEffect, createdAt⟩

/-- What an event makes of the effect it names. -/
def nextEffect (current : RelayEffect) : RelayEffectEvent → RelayResult RelayEffect
  | .markSigning marker at' =>
    if current.phase ≠ .pending ∨ ¬ hexHash marker then blocked "duplicate or invalid signing marker"
    else .ok { current with phase := .signingStarted, attempt := some ⟨marker, at', none, some 1⟩ }
  | .sealSigned transactionHash =>
    if current.phase ≠ .signingStarted ∨ ¬ txHash transactionHash then
      blocked "signed hash requires signing marker"
    else .ok { current with
      phase := .sealed
      attempt := current.attempt.map fun a => { a with transactionHash := some transactionHash } }
  | .markSubmitting at' =>
    if current.phase ≠ .sealed ∨ current.attempt.any (fun a => at' < a.markedAt) then
      blocked "submission requires sealed effect"
    else .ok { current with phase := .submitting }
  | .recordNeverLanded at' =>
    if current.phase ≠ .sealed ∨ current.attempt.any (fun a => at' < a.markedAt) then
      blocked "never landed requires a sealed effect"
    else .ok { current with phase := .abandonedUnsent, observedAt := some at' }
  | .observe outcome at' =>
    if current.phase ≠ .submitting ∨ current.attempt.any (fun a => at' < a.markedAt) then
      blocked "observation requires a marked attempt"
    else .ok { current with phase := outcome.phase, observedAt := some at' }

def withEffect (h : JournalHash) (j : RelayEffectJournal) (role : RelayEffectRole) (effect : RelayEffect) :
    RelayEffectJournal :=
  sealBody h { j.toRelayEffectJournalBody with effects := Function.update j.effects role effect }

def advanceRelayEffectJournal (h : JournalHash) (op : RelayUnsignedOperation) (j : RelayEffectJournal)
    (role : RelayEffectRole) (event : RelayEffectEvent) : RelayResult RelayEffectJournal := do
  validateRelayEffectJournal h op j
  if role = .deposit ∧ (j.effects .approval).phase ≠ .confirmed then blocked "approval is not confirmed"
  else do
    let next ← nextEffect (j.effects role) event
    let advanced := withEffect h j role next
    validateRelayEffectJournal h op advanced
    return advanced

/-! ## Valid journals -/

variable {h : JournalHash} {op : RelayUnsignedOperation} {j : RelayEffectJournal} {role : RelayEffectRole}
  {effect next : RelayEffect} {event : RelayEffectEvent}

structure Valid (h : JournalHash) (op : RelayUnsignedOperation) (j : RelayEffectJournal) : Prop where
  binding : j.binding = op.binding
  integrity : h.hashObject j.toRelayEffectJournalBody = j.integrityHash
  effects : ∀ role, validateEffect (j.effects role) role = .ok ()
  order : (j.effects .deposit).phase ≠ .pending → (j.effects .approval).phase = .confirmed

theorem validate_ok : validateRelayEffectJournal h op j = .ok () ↔ Valid h op j := by
  unfold validateRelayEffectJournal
  rw [corrupt_guard, bind_ok]
  constructor
  · rintro ⟨hbinding, ⟨⟩, happroval, hrest⟩
    rcases bind_ok.mp hrest with ⟨⟨⟩, hdeposit, hrest⟩
    rw [corrupt_guard, corrupt_guard] at hrest
    simp only [not_or, not_not, not_and] at hbinding hrest
    refine ⟨hbinding.1, hrest.2.1, ?_, hrest.1⟩
    intro role
    cases role with
    | approval => exact happroval
    | deposit => exact hdeposit
  · rintro ⟨hbinding, hintegrity, heffects, horder⟩
    refine ⟨?_, (), heffects .approval, bind_ok.mpr ⟨(), heffects .deposit, ?_⟩⟩
    · rw [not_or, not_not, not_not]
      refine ⟨hbinding, ?_⟩
      rw [← hintegrity]
      exact h.shape _
    · rw [corrupt_guard, corrupt_guard]
      simp only [not_and, not_not]
      exact ⟨horder, hintegrity, trivial⟩

theorem valid_create {at' : Instant} : Valid h op (createRelayEffectJournal h op at') := by
  refine ⟨rfl, rfl, fun role => ?_, fun hphase => absurd rfl hphase⟩
  cases role <;> rfl

theorem validateAttempt_ok {attempt : RelayAttempt} : validateAttempt effect attempt = .ok () ↔
    (hexHash attempt.marker ∧ (∀ t, attempt.transactionHash = some t → txHash t) ∧
      ∀ n, attempt.attemptNumber = some n → n = 1) ∧
    (open' effect.phase → attempt.attemptNumber = some 1) ∧
    (effect.phase = .signingStarted → attempt.transactionHash = none ∧ effect.observedAt = none) ∧
    (effect.phase = .sealed ∨ effect.phase = .submitting →
      attempt.transactionHash ≠ none ∧ effect.observedAt = none) ∧
    (observed effect.phase → ∃ at', effect.observedAt = some at' ∧ attempt.markedAt ≤ at') ∧
    (effect.phase = .abandonedUnsent → attempt.transactionHash ≠ none ∧ attempt.attemptNumber = some 1) := by
  unfold validateAttempt
  simp only [corrupt_guard, and_true]
  have hobserved : (observed effect.phase ∧ effect.observedAt.all (fun at' => at' < attempt.markedAt)) ↔
      ¬ (observed effect.phase → ∃ at', effect.observedAt = some at' ∧ attempt.markedAt ≤ at') := by
    cases effect.observedAt <;> simp
  rw [hobserved]
  cases attempt.transactionHash <;> cases attempt.attemptNumber <;> simp

-- An effect past `pending` has its attempt.
theorem attempt_of_valid (hvalid : validateEffect effect role = .ok ()) (hphase : effect.phase ≠ .pending) :
    ∃ attempt, effect.attempt = some attempt ∧ validateAttempt effect attempt = .ok () := by
  unfold validateEffect at hvalid
  have hrest := (corrupt_guard.mp hvalid).2
  rw [if_neg hphase] at hrest
  cases hattempt : effect.attempt with
  | none => simp [hattempt, corrupt] at hrest
  | some attempt =>
    rw [hattempt] at hrest
    exact ⟨attempt, rfl, hrest⟩

theorem role_of_valid (hvalid : validateEffect effect role = .ok ()) : effect.role = role :=
  not_not.mp (corrupt_guard.mp hvalid).1

theorem validateEffect_attempt {attempt : RelayAttempt} (hrole : effect.role = role)
    (hphase : effect.phase ≠ .pending) (hattempt : effect.attempt = some attempt)
    (hvalid : validateAttempt effect attempt = .ok ()) : validateEffect effect role = .ok () := by
  unfold validateEffect
  rw [if_neg (not_not.mpr hrole), if_neg hphase, hattempt]
  exact hvalid

theorem not_pending {phase : RelayEffectPhase} (hphase : phase = .signingStarted ∨ phase = .sealed ∨
    phase = .submitting) : phase ≠ .pending := by
  rcases hphase with rfl | rfl | rfl <;> decide

-- Every event that is taken leaves a valid effect.
theorem valid_nextEffect (hvalid : validateEffect effect role = .ok ())
    (hnext : nextEffect effect event = .ok next) :
    validateEffect next role = .ok () ∧ next.phase ≠ .pending := by
  have hrole := role_of_valid hvalid
  cases event with
  | markSigning marker at' =>
    rcases blocked_guard.mp hnext with ⟨hguard, heq⟩
    cases heq
    rw [not_or, not_not, not_not] at hguard
    refine ⟨validateEffect_attempt hrole (by simp) rfl (validateAttempt_ok.mpr ?_), by simp⟩
    have hpending : effect.observedAt = none := by
      unfold validateEffect at hvalid
      have hrest := (corrupt_guard.mp hvalid).2
      rw [if_pos hguard.1] at hrest
      have hnone := (corrupt_guard.mp hrest).1
      simp only [not_or, Bool.not_eq_true, Option.isSome_eq_false_iff, Option.isNone_iff_eq_none] at hnone
      exact hnone.2
    simp [hguard.2, hpending, open', observed]
  | sealSigned transactionHash =>
    rcases blocked_guard.mp hnext with ⟨hguard, heq⟩
    cases heq
    rw [not_or, not_not, not_not] at hguard
    rcases attempt_of_valid hvalid (not_pending (Or.inl hguard.1)) with ⟨attempt, hattempt, hok⟩
    rcases validateAttempt_ok.mp hok with ⟨⟨hmarker, -, hnumber⟩, hopen, hmarked, -, -, -⟩
    have hone := hopen (by rw [hguard.1]; rfl)
    have hsealed : (effect.attempt.map fun a => { a with transactionHash := some transactionHash }) =
        some { attempt with transactionHash := some transactionHash } := by rw [hattempt]; rfl
    refine ⟨validateEffect_attempt hrole (by simp) hsealed (validateAttempt_ok.mpr ?_), by simp⟩
    simp [hmarker, hguard.2, hone, (hmarked hguard.1).2, open', observed]
  | markSubmitting at' =>
    rcases blocked_guard.mp hnext with ⟨hguard, heq⟩
    cases heq
    rw [not_or, not_not] at hguard
    rcases attempt_of_valid hvalid (not_pending (Or.inr (Or.inl hguard.1))) with ⟨attempt, hattempt, hok⟩
    rcases validateAttempt_ok.mp hok with ⟨⟨hmarker, htx, hnumber⟩, hopen, -, hknown, -, -⟩
    have hone := hopen (by rw [hguard.1]; rfl)
    have hsome := hknown (Or.inl hguard.1)
    refine ⟨validateEffect_attempt hrole (by simp) hattempt (validateAttempt_ok.mpr ?_), by simp⟩
    refine ⟨⟨hmarker, htx, hnumber⟩, fun _ => hone, fun h => (nomatch h), fun _ => hsome, ?_, ?_⟩
    · exact fun h => nomatch h
    · exact fun h => nomatch h
  | recordNeverLanded at' =>
    rcases blocked_guard.mp hnext with ⟨hguard, heq⟩
    cases heq
    rw [not_or, not_not] at hguard
    rcases attempt_of_valid hvalid (not_pending (Or.inr (Or.inl hguard.1))) with ⟨attempt, hattempt, hok⟩
    rcases validateAttempt_ok.mp hok with ⟨⟨hmarker, htx, hnumber⟩, hopen, -, hknown, -, -⟩
    have hone := hopen (by rw [hguard.1]; rfl)
    have hsome := hknown (Or.inl hguard.1)
    have hafter : attempt.markedAt ≤ at' := by simpa [hattempt] using hguard.2
    refine ⟨validateEffect_attempt hrole (by simp) hattempt (validateAttempt_ok.mpr ?_), by simp⟩
    refine ⟨⟨hmarker, htx, hnumber⟩, fun h => (nomatch h), fun h => (nomatch h), ?_, ?_, ?_⟩
    · rintro (h | h) <;> cases h
    · exact fun _ => ⟨at', rfl, hafter⟩
    · exact fun _ => ⟨hsome.1, hone⟩
  | observe outcome at' =>
    rcases blocked_guard.mp hnext with ⟨hguard, heq⟩
    cases heq
    rw [not_or, not_not] at hguard
    rcases attempt_of_valid hvalid (not_pending (Or.inr (Or.inr hguard.1))) with ⟨attempt, hattempt, hok⟩
    rcases validateAttempt_ok.mp hok with ⟨hshape, -, -, -, -, -⟩
    have hafter : attempt.markedAt ≤ at' := by simpa [hattempt] using hguard.2
    refine ⟨validateEffect_attempt hrole ?_ hattempt (validateAttempt_ok.mpr ?_), ?_⟩
    · cases outcome <;> simp [RelayEffectOutcome.phase]
    · cases outcome <;> simp_all [RelayEffectOutcome.phase, open', observed]
    · cases outcome <;> simp [RelayEffectOutcome.phase]

/-- The phase an event is taken in, and the one it leads to. -/
def RelayEffectEvent.edge : RelayEffectEvent → RelayEffectPhase × RelayEffectPhase
  | .markSigning _ _ => (.pending, .signingStarted)
  | .sealSigned _ => (.signingStarted, .sealed)
  | .markSubmitting _ => (.sealed, .submitting)
  | .recordNeverLanded _ => (.sealed, .abandonedUnsent)
  | .observe outcome _ => (.submitting, outcome.phase)

theorem nextEffect_phase (hnext : nextEffect effect event = .ok next) :
    effect.phase = (RelayEffectEvent.edge event).1 ∧ next.phase = (RelayEffectEvent.edge event).2 := by
  unfold nextEffect at hnext
  cases event <;> rcases blocked_guard.mp hnext with ⟨hguard, heq⟩ <;> cases heq <;>
    rw [not_or, not_not] at hguard <;> exact ⟨hguard.1, rfl⟩

theorem nextEffect_open (hnext : nextEffect effect event = .ok next) : observed effect.phase = false := by
  rw [(nextEffect_phase hnext).1]
  cases event <;> rfl

-- Only the seal writes a hash.
theorem nextEffect_hash (hnext : nextEffect effect event = .ok next) {hash : String}
    (hhash : next.transactionHash = some hash) :
    event = .sealSigned hash ∨ effect.transactionHash = some hash := by
  unfold nextEffect at hnext
  cases event with
  | markSigning marker at' =>
    cases (blocked_guard.mp hnext).2
    cases hhash
  | sealSigned transactionHash =>
    cases (blocked_guard.mp hnext).2
    left
    cases hattempt : effect.attempt with
    | none => simp [RelayEffect.transactionHash, hattempt] at hhash
    | some attempt =>
      simp only [RelayEffect.transactionHash, hattempt, Option.map_some, Option.bind_some,
        Option.some.injEq] at hhash
      rw [hhash]
  | markSubmitting at' =>
    cases (blocked_guard.mp hnext).2
    exact Or.inr hhash
  | recordNeverLanded at' =>
    cases (blocked_guard.mp hnext).2
    exact Or.inr hhash
  | observe outcome at' =>
    cases (blocked_guard.mp hnext).2
    exact Or.inr hhash

/-- An event is timely when the clock did not fall behind the marker, and shaped. -/
def RelayEffectEvent.timely (effect : RelayEffect) : RelayEffectEvent → Prop
  | .markSigning marker _ => hexHash marker
  | .sealSigned transactionHash => txHash transactionHash
  | .markSubmitting at' | .recordNeverLanded at' | .observe _ at' =>
    ∀ attempt, effect.attempt = some attempt → attempt.markedAt ≤ at'

-- An effect takes every timely event of its phase.
theorem nextEffect_takes (hphase : effect.phase = (RelayEffectEvent.edge event).1)
    (htimely : RelayEffectEvent.timely effect event) : ∃ next, nextEffect effect event = .ok next := by
  have hclock : ∀ at', (∀ attempt, effect.attempt = some attempt → attempt.markedAt ≤ at') →
      ¬ effect.attempt.any (fun a => at' < a.markedAt) = true := by
    intro at' hafter
    cases hattempt : effect.attempt with
    | none => simp
    | some attempt => simpa using hafter attempt hattempt
  cases event with
  | markSigning marker at' =>
    exact ⟨_, blocked_guard.mpr ⟨not_or.mpr ⟨not_not.mpr hphase, not_not.mpr htimely⟩, rfl⟩⟩
  | sealSigned transactionHash =>
    exact ⟨_, blocked_guard.mpr ⟨not_or.mpr ⟨not_not.mpr hphase, not_not.mpr htimely⟩, rfl⟩⟩
  | markSubmitting at' =>
    exact ⟨_, blocked_guard.mpr ⟨not_or.mpr ⟨not_not.mpr hphase, hclock at' htimely⟩, rfl⟩⟩
  | recordNeverLanded at' =>
    exact ⟨_, blocked_guard.mpr ⟨not_or.mpr ⟨not_not.mpr hphase, hclock at' htimely⟩, rfl⟩⟩
  | observe outcome at' =>
    exact ⟨_, blocked_guard.mpr ⟨not_or.mpr ⟨not_not.mpr hphase, hclock at' htimely⟩, rfl⟩⟩

@[simp] theorem withEffect_self : (withEffect h j role effect).effects role = effect := by
  simp [withEffect, sealBody]

theorem withEffect_other {other : RelayEffectRole} (hne : other ≠ role) :
    (withEffect h j role effect).effects other = j.effects other := by
  simp [withEffect, sealBody, hne]

/-- Where the deposit may be acted on. -/
def Opened (j : RelayEffectJournal) (role : RelayEffectRole) : Prop :=
  role = .deposit → (j.effects .approval).phase = .confirmed

/-- **A journal accepts every event its effect takes**, once the approval is confirmed for a deposit. -/
theorem advance_ok (hvalid : Valid h op j) (hopened : Opened j role)
    (hnext : nextEffect (j.effects role) event = .ok next)
    (hlast : role = .approval → (j.effects .approval).phase ≠ .confirmed) :
    advanceRelayEffectJournal h op j role event = .ok (withEffect h j role next) ∧
      Valid h op (withEffect h j role next) := by
  have hstep := valid_nextEffect (hvalid.effects role) hnext
  have hadvanced : Valid h op (withEffect h j role next) := by
    refine ⟨hvalid.binding, rfl, ?_, ?_⟩
    · intro other
      by_cases hother : other = role
      · rw [hother, withEffect_self]
        exact hstep.1
      · rw [withEffect_other hother]
        exact hvalid.effects other
    · cases role with
      | approval =>
        -- The approval is not confirmed yet, so the deposit is still pending.
        rw [withEffect_other (by decide)]
        exact fun hphase => absurd (hvalid.order hphase) (hlast rfl)
      | deposit =>
        intro _
        rw [withEffect_other (by decide)]
        exact hopened rfl
  refine ⟨?_, hadvanced⟩
  unfold advanceRelayEffectJournal
  refine bind_ok.mpr ⟨(), validate_ok.mpr hvalid, blocked_guard.mpr ⟨?_, bind_ok.mpr ⟨next, hnext, ?_⟩⟩⟩
  · rintro ⟨hrole, hphase⟩
    exact hphase (hopened hrole)
  · exact bind_ok.mpr ⟨(), validate_ok.mpr hadvanced, rfl⟩

end RelayEffects
end PaymentNode
