import PaymentNode.Permit2.Calls

/-!
# Results — one observation of a Permit2 payment, and the calls on it

`observePermit2Production` makes a proof of what it read; `observe` reads the record, settles what a saved
intent allows, observes the rest and finalizes a proof.  `Permit2Call` lists the calls of the family on one
operation; each keeps the invariant.
-/

open System Guarded

namespace PaymentNode.Permit2

variable {H : Permit2Hashes}

/-- `permit2FactHash`: a lower-case transaction hash that is not zero. -/
def permit2FactHash (value : String) : Bool :=
  isHexHash value && (bytesOf value).drop 2 ≠ List.replicate 64 48

/-- A transaction hash in lower case; any other text is refused. -/
def normalizePermit2Locator (value : String) : Result String :=
  let lower := value.toLower
  if value.startsWith "0x" ∧ permit2FactHash lower then .ok lower else invalid "Permit2 locator is invalid."

/-! ## The observer -/

def mismatch {α : Type} : Result α :=
  invalid "Permit2 canonical observation is unavailable or inconsistent."

/-- The bit of the nonce in a word of the bitmap. -/
def nonceConsumed (m : Permit2ProductionMaterial) (word : ℕ) : Bool := word.testBit (m.nonce % 256)

def assertExpiredUnused (m : Permit2ProductionMaterial) (block : Permit2ObservedBlock)
    (reads : Permit2ObserverReads) : Result Unit := do
  let word ← reads.word
  if block.timestamp ≤ m.permit2Deadline ∨ m.eip2612.any (fun info => block.timestamp ≤ info.deadline) ∨
      nonceConsumed m word then mismatch
  else
    match m.eip2612 with
    | none => .ok ()
    | some info => do
      let nonce ← reads.tokenNonce
      if nonce ≠ info.nonce then mismatch else .ok ()

/-- The locator, where a receipt at or below the head attributes it; a transaction hash only names the
settlement. -/
def attributedTransaction (mode : Permit2ObservationMode) (locator : Option String) (head : Permit2ObservedBlock)
    (reads : Permit2ObserverReads) : Option String :=
  if mode = .settlement ∧ reads.attribution.any (fun number => number ≤ head.number) then locator else none

def observationProjection (H : Permit2Hashes) (r : Permit2ProductionRecord) (mode : Permit2ObservationMode)
    (signed : Option Permit2ProductionSigned) (transactionHash : Option String) (block : Option Permit2ObservedBlock)
    (outcome : Permit2Outcome) (reason : Permit2ObservationReason) : Permit2ObservationProjection where
  mode := mode
  outcome := outcome
  reason := reason
  operationDigest := productionStableDigest H r
  materialHash := r.material.materialHash
  requestHash := r.material.requestHash
  challengeHash := r.material.challengeHash
  signedHash := signed.map (·.signedHash)
  transactionHash := transactionHash
  blockNumber := block.map (·.number)
  blockHash := block.map (·.hash)

structure Permit2ProductionObservation where
  projection : Permit2ObservationProjection
  proof : Option Permit2ObservationProof

def heldObservation (H : Permit2Hashes) (r : Permit2ProductionRecord) (mode : Permit2ObservationMode)
    (signed : Option Permit2ProductionSigned) (transactionHash : Option String)
    (block : Option Permit2ObservedBlock) : Permit2ProductionObservation :=
  ⟨observationProjection H r mode signed transactionHash block .hold .unavailableOrMismatch, none⟩

/-- What the head and the nonce there prove. -/
def provenObservation (H : Permit2Hashes) (r : Permit2ProductionRecord) (mode : Permit2ObservationMode)
    (signed : Option Permit2ProductionSigned) (transactionHash : Option String) (head : Permit2ObservedBlock) :
    Permit2ProductionObservation :=
  let projection := observationProjection H r mode signed transactionHash (some head)
    (Permit2Prog.modeOutcome mode) .checked
  ⟨projection, some ⟨Permit2Prog.proofBinding (H := H) r signed mode, projection⟩⟩

/-- The part of the observer after the head was read. -/
def observeAtHead (H : Permit2Hashes) (r : Permit2ProductionRecord) (mode : Permit2ObservationMode)
    (signed : Option Permit2ProductionSigned) (locator : Option String) (head : Permit2ObservedBlock)
    (reads : Permit2ObserverReads) : Permit2ProductionObservation :=
  let transactionHash := attributedTransaction mode locator head reads
  match mode with
  | .settlement =>
    match reads.word with
    | .error _ => heldObservation H r mode signed transactionHash (some head)
    | .ok word =>
      if nonceConsumed r.material word then provenObservation H r mode signed transactionHash head
      else heldObservation H r mode signed transactionHash (some head)
  | .expiredUnused =>
    match assertExpiredUnused r.material head reads with
    | .error _ => heldObservation H r mode signed transactionHash (some head)
    | .ok () => provenObservation H r mode signed transactionHash head

/-- A bundle, checked against the record. -/
def checkedBundle (H : Permit2Hashes) (r : Permit2ProductionRecord) (supplied : Option Permit2ProductionSigned) :
    Result Unit :=
  match supplied with
  | some signed => validatePermit2ProductionSigned H signed r
  | none => .ok ()

def observePermit2Production (H : Permit2Hashes) (r : Permit2ProductionRecord)
    (supplied : Option Permit2ProductionSigned) (mode : Permit2ObservationMode) (locator : Option String)
    (reads : Result Permit2ObserverReads) : Result Permit2ProductionObservation := do
  validatePermit2ProductionRecord H r
  if (mode = .settlement ∧ (¬ locator.all permit2FactHash ∨ supplied.isNone)) ∨
      (mode = .expiredUnused ∧ locator.isSome) then
    invalid "Permit2 observation is not bound to the frozen operation."
  else
    match checkedBundle H r supplied with
    | .error _ => .ok (heldObservation H r mode none none none)
    | .ok () =>
      match reads.bind (fun reads => reads.head.map fun head => (reads, head)) with
      | .error _ => .ok (heldObservation H r mode supplied none none)
      | .ok (reads, head) => .ok (observeAtHead H r mode supplied locator head reads)

/-! ## The results of a call -/

inductive Permit2ResultCode
  | stateUnavailable
  | hintUnavailable
  | notExposed
  | terminal
  | held
  | invalidCandidate
  | ownerMismatch
  | observedHold
  | finalized
  | reconciled
deriving DecidableEq, Repr

structure Permit2ProductionResult where
  record : Option Permit2ProductionRecord
  code : Permit2ResultCode
  observation : Option Permit2ObservationProjection
deriving DecidableEq, Repr

namespace Permit2Prog

def result {α : Type} (record : Permit2ProductionRecord) (code : Permit2ResultCode)
    (observation : Option Permit2ObservationProjection) : Prog (Guarded.Op Permit2Op)
      (Guarded.Op.Answer (Permit2Op.Answer H)) α Permit2ProductionResult :=
  Prog.ret ⟨some record, code, observation⟩

variable (record : Permit2ProductionRecord)

/-- The record as it is now, or as it was last read. -/
def latest : Permit2Prog H Permit2ProductionRecord :=
  findOperation.handle fun _ => Prog.ret record

/-- Never exposed: past its deadline the expiry release ends it. -/
def observeUnexposed : Permit2Prog H Permit2ProductionResult :=
  Prog.handle
    (do
      let released ← releaseExpired
      result released .terminal none)
    fun _ => do
      let record ← latest record
      result record .notExposed none

section

variable (mode : Permit2ObservationMode)

/-- The candidate locator of a settlement; an answer is that it may be used. -/
def candidateLocator : Option String → Option (Option String)
  | none => some none
  | some candidate =>
    if mode ≠ .settlement then none
    else
      match normalizePermit2Locator candidate with
      | .ok locator => some (some locator)
      | .error _ => none

/-- Finalize a proof; a failure leaves the payment held. -/
def finalizeProof
    (projection : Permit2ObservationProjection) (proof : Permit2ObservationProof) :
    Permit2Prog H Permit2ProductionResult :=
  Prog.handle
    (do
      let final ← finalize proof mode
      result final (if final.terminal then .finalized else .held) (some projection))
    fun _ => do
      let record ← latest record
      result record .held (some projection)

def observeSigned (locator : Option String) :
    Permit2Prog H Permit2ProductionResult :=
  Prog.handle
    (do
      let reads ← (ask (.observerReads record mode locator) rfl).attempt
      let checked ← lift (observePermit2Production H record record.signed mode locator reads)
      match checked.proof with
      | none => result record .observedHold (some checked.projection)
      | some proof => finalizeProof record mode checked.projection proof)
    fun _ => result record .held none

/-- The wallet is still the one the payment was prepared for. -/
def observeOwned (locator : Option String) :
    Permit2Prog H Permit2ProductionResult :=
  if record.signed.isNone then result record .notExposed none
  else do
    let wallet ← (ask (.walletBinding record.material.wallet.profile) rfl).attempt
    if wallet = .ok record.material.wallet then observeSigned record mode locator
    else result record .ownerMismatch none

/-- A saved intent is matched with the ledger first, and names the transaction to look at. -/
def observeIntended (locator : Option String) :
    Permit2Prog H Permit2ProductionResult := do
  let reconciled ← reconcileTerminal.attempt
  match reconciled with
  | .error _ => result record .held none
  | .ok record =>
    if record.terminal then result record .reconciled none
    else
      match record.intent with
      | none => lift (corrupt "Cannot read properties of null.")
      | some intent =>
        if intent.outcome ≠ modeOutcome mode ∨ (locator.isSome ∧ locator ≠ intent.transactionHash) then
          result record .held none
        else observeOwned record mode intent.transactionHash

/-- Without an intent the saved hint names the transaction. -/
def observeHinted (locator : Option String) :
    Permit2Prog H Permit2ProductionResult :=
  if mode = .settlement ∧ locator.isNone then do
    let hint ← (ask (.hint record) rfl).attempt
    match hint with
    | .error _ => result record .hintUnavailable none
    | .ok locator => observeOwned record mode locator
  else observeOwned record mode locator

def observeExposed (j : Permit2ExposureJournal) (mode : Permit2ObservationMode)
    (candidate : Option String) : Permit2Prog H Permit2ProductionResult :=
  match candidateLocator mode candidate with
  | none => result record .invalidCandidate none
  | some locator =>
    if j.terminalIntent.isSome then observeIntended record mode locator else observeHinted record mode locator

def observe (candidate : Option String) :
    Permit2Prog H Permit2ProductionResult := do
  let found ← findOperation.attempt
  match found with
  | .error _ => Prog.ret ⟨none, .stateUnavailable, none⟩
  | .ok record =>
    if record.terminal then result record .terminal none
    else if record.exposureAt.isNone then observeUnexposed record
    else
      match record.exposureJournal with
      | none => result record .notExposed none
      | some j =>
        if ¬ j.holdConfirmed then result record .notExposed none
        else observeExposed record j mode candidate

end

end Permit2Prog

/-! ## Every call keeps the invariant -/

section Calls

variable {π : Type} [DecidableEq π] {origin : Permit2ProductionRecord} {addresses : Addresses} {p : π} {α : Type}

/-- `x` keeps the invariant, whatever it answers. -/
abbrev Safe (addresses : Addresses) (origin : Permit2ProductionRecord) (p : π) (x : Permit2Prog H α) : Prop :=
  Does addresses origin p false (fun _ => True) x fun _ _ => True

theorem safe_ret {a : α} : Safe (H := H) addresses origin p (Prog.ret a) :=
  Meets.ret fun _ _ _ => trivial

theorem safe_bind {β : Type} {x : Permit2Prog H α} {f : α → Permit2Prog H β} (hx : Safe addresses origin p x)
    (hf : ∀ a, Safe addresses origin p (f a)) : Safe addresses origin p (x.bind f) :=
  Meets.bind hx hf

theorem safe_handle {x : Permit2Prog H α} {f : ApnError → Permit2Prog H α} (hx : Safe addresses origin p x)
    (hf : ∀ e, Safe addresses origin p (f e)) : Safe addresses origin p (x.handle f) :=
  Meets.handle hx hf

theorem safe_attempt {x : Permit2Prog H α} (hx : Safe addresses origin p x) :
    Safe addresses origin p x.attempt :=
  safe_handle (safe_bind hx fun _ => safe_ret) fun _ => safe_ret

theorem safe_lift {r : Result α} : Safe (H := H) addresses origin p (Permit2Prog.lift r) :=
  Meets.ofExcept (fun _ _ _ _ _ => trivial) fun _ _ _ _ _ => trivial

theorem safe_of_leaves {x : Permit2Prog H α} {Φ : α → Prop} (h : Leaves addresses origin p false x Φ) :
    Safe addresses origin p x :=
  (h _ steady_true).post fun _ _ _ _ => trivial

theorem safe_findOperation : Safe (H := H) addresses origin p Permit2Prog.findOperation :=
  (does_findOperation steady_true).post fun _ _ _ _ => trivial

theorem safe_confirmHold : Safe (H := H) addresses origin p Permit2Prog.confirmHold := by
  apply Meets.conseq does_confirmHold
  · exact fun c _ _ => due_nothing c
  · exact fun _ _ _ _ => trivial
  · exact fun _ _ _ h => h

variable {record : Permit2ProductionRecord}

theorem safe_latest :
    Safe (H := H) addresses origin p (Permit2Prog.latest record) :=
  safe_handle safe_findOperation fun _ => safe_ret

variable {mode : Permit2ObservationMode} {locator : Option String}

theorem safe_observeSigned (hapart : OutcomesApart H) :
    Safe (H := H) addresses origin p (Permit2Prog.observeSigned record mode locator) := by
  unfold Permit2Prog.observeSigned
  apply safe_handle _ fun _ => safe_ret
  apply safe_bind (safe_attempt (safe_of_leaves leaves_ask))
  intro reads
  apply safe_bind safe_lift
  intro checked
  split
  · exact safe_ret
  · unfold Permit2Prog.finalizeProof
    apply safe_handle
    · exact safe_bind (does_finalize hapart) fun _ => safe_ret
    · exact fun _ => safe_bind safe_latest fun _ => safe_ret

theorem safe_observeOwned (hapart : OutcomesApart H) :
    Safe (H := H) addresses origin p (Permit2Prog.observeOwned record mode locator) := by
  unfold Permit2Prog.observeOwned
  split
  · exact safe_ret
  · apply safe_bind (safe_attempt (safe_of_leaves leaves_ask))
    intro wallet
    split
    · exact safe_observeSigned hapart
    · exact safe_ret

theorem safe_observeIntended (hapart : OutcomesApart H) :
    Safe (H := H) addresses origin p (Permit2Prog.observeIntended record mode locator) := by
  unfold Permit2Prog.observeIntended
  apply safe_bind (safe_attempt does_reconcileTerminal)
  intro reconciled
  split
  · exact safe_ret
  · split
    · exact safe_ret
    · split
      · exact safe_lift
      · split
        · exact safe_ret
        · exact safe_observeOwned hapart

theorem safe_observe (hapart : OutcomesApart H) {candidate : Option String} :
    Safe (H := H) addresses origin p (Permit2Prog.observe mode candidate) := by
  unfold Permit2Prog.observe
  apply safe_bind (safe_attempt safe_findOperation)
  intro found
  split
  · exact safe_ret
  rename_i record
  split
  · exact safe_ret
  split
  · unfold Permit2Prog.observeUnexposed
    apply safe_handle
    · exact safe_bind does_releaseExpired fun _ => safe_ret
    · exact fun _ => safe_bind safe_latest fun _ => safe_ret
  split
  · exact safe_ret
  split
  · exact safe_ret
  unfold Permit2Prog.observeExposed
  split
  · exact safe_ret
  split
  · exact safe_observeIntended hapart
  · unfold Permit2Prog.observeHinted
    split
    · apply safe_bind (safe_attempt (safe_of_leaves leaves_ask))
      intro hint
      split
      · exact safe_ret
      · exact safe_observeOwned hapart
    · exact safe_observeOwned hapart

/-- The calls on one operation. -/
inductive Permit2Call
  | reserve
  | releaseExpired
  | markSignatureRisk
  | markApprovedSignatureRisk (approval : Permit2ForegroundApproval)
  | confirmHold
  | storeSigned (signed : Permit2ProductionSigned)
  | markRequestPending
  | markFirstRequest (origin : Permit2SignedOrigin)
  | finalize (proof : Permit2ObservationProof) (mode : Permit2ObservationMode)
  | reconcileTerminal
  | observe (mode : Permit2ObservationMode) (candidate : Option String)

def forget (x : Permit2Prog H α) : Permit2Prog H Unit := x.bind fun _ => Prog.ret ()

def Permit2Call.program : Permit2Call → Permit2Prog H Unit
  | reserve => forget Permit2Prog.reserve
  | releaseExpired => forget Permit2Prog.releaseExpired
  | markSignatureRisk => Permit2Prog.markSignatureRisk
  | markApprovedSignatureRisk approval => Permit2Prog.markApprovedSignatureRisk approval
  | confirmHold => forget Permit2Prog.confirmHold
  | storeSigned signed => Permit2Prog.storeSigned signed
  | markRequestPending => Permit2Prog.markRequestPending
  | markFirstRequest origin => Permit2Prog.markFirstRequest origin
  | finalize proof mode => forget (Permit2Prog.finalize proof mode)
  | reconcileTerminal => forget Permit2Prog.reconcileTerminal
  | observe mode candidate => forget (Permit2Prog.observe mode candidate)

theorem Permit2Call.safe (hapart : OutcomesApart H) (call : Permit2Call) :
    Safe (H := H) addresses origin p call.program := by
  cases call with
  | reserve => exact safe_bind does_reserve fun _ => safe_ret
  | releaseExpired => exact safe_bind does_releaseExpired fun _ => safe_ret
  | markSignatureRisk => exact does_markSignatureRisk
  | markApprovedSignatureRisk approval => exact does_markApprovedSignatureRisk
  | confirmHold => exact safe_bind safe_confirmHold fun _ => safe_ret
  | storeSigned signed => exact does_storeSigned
  | markRequestPending => exact does_markRequestPending
  | markFirstRequest signedOrigin => exact does_markFirstRequest
  | finalize proof mode => exact safe_bind (does_finalize hapart) fun _ => safe_ret
  | reconcileTerminal => exact safe_bind does_reconcileTerminal fun _ => safe_ret
  | observe mode candidate => exact safe_bind (safe_observe hapart) fun _ => safe_ret

end Calls

end PaymentNode.Permit2
