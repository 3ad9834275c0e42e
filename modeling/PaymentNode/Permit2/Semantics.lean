import PaymentNode.Permit2.Lifecycle

/-!
# Semantics — the record, its ledger row and what every interleaving keeps of both

`permitWorld` says what an operation does to the saved record, to the lease row and to the clock; everything
else answers as it likes.  The process whose write made the first exposure is owed the one continuation, and
the one whose write made the request marker the one `first`; no program reads either.  `PermitInv` is the
invariant, `permitLaw` what a process lets the others do.
-/

namespace PaymentNode.Permit2

open System

variable {H : Permit2Hashes} {π : Type}

/-- What is durable, what has been handed out, and to whom the two hand-outs are still due. -/
structure Permit2State (H : Permit2Hashes) (π : Type) where
  record : Permit2ProductionRecord
  past : List Permit2ProductionRecord
  row : Option (Lease H)
  clock : Instant
  signings : ℕ
  firsts : ℕ
  exposer : Option π
  requester : Option π

def Permit2ProductionRecord.signed (r : Permit2ProductionRecord) : Option Permit2ProductionSigned :=
  r.exposureJournal.bind (·.signed)

def Permit2ProductionRecord.request (r : Permit2ProductionRecord) : Option Permit2Request :=
  r.exposureJournal.bind (·.request)

def Permit2ProductionRecord.intent (r : Permit2ProductionRecord) : Option Permit2TerminalIntent :=
  r.exposureJournal.bind (·.terminalIntent)

/-- A durable write of the record by `p`. -/
def Permit2State.store (c : Permit2State H π) (p : π) (next : Permit2ProductionRecord) : Permit2State H π :=
  { c with
    record := next
    past := c.record :: c.past
    exposer := if c.record.exposureJournal.isNone ∧ next.exposureJournal.isSome then some p else c.exposer
    requester := if c.record.request.isNone ∧ next.request.isSome then some p else c.requester }

/-- What a ledger call makes of the operation's own row, whatever bucket it is in. -/
def leaseExec (key : HoldKey) (row : Option (Lease H)) : (op : LeaseOp) → op.Answer H → Option (Lease H) → Prop
  | .usageWithReservation, answer, row' =>
    row' = row ∧ ∀ usage, (answer : Result (ℕ × Option (Lease H))) = .ok usage → usage.2 = row
  | .transition input, answer, row' =>
    writeExec key row (fun bucket => transition key.identity bucket input) answer row'
  | .reserve input, answer, row' =>
    writeExec key row (fun bucket => reserveBound key.addresses key.identity bucket input none) answer row'
  | .cancel input, answer, row' =>
    writeExec key row (fun bucket => cancelUnsubmittedReservation key.identity bucket input) answer row'

section World

variable [DecidableEq π]

def permitExec (key : HoldKey) (p : π) (c : Permit2State H π) : (o : Permit2Op) → o.Answer H → Permit2State H π → Prop
  | .read, answer, c' => c' = c ∧ ∀ r, (answer : Result Permit2ProductionRecord) = .ok r → r = c.record
  | .write next, answer, c' =>
    match (answer : Result Unit) with
    | .ok () => c' = c.store p next
    -- The record may have reached the disk all the same.
    | .error _ => c' = c ∨ c' = c.store p next
  | .lease op, answer, c' => leaseExec key c.row op answer c'.row ∧ c' = { c with row := c'.row }
  | .now, answer, c' =>
    match (answer : Result Instant) with
    | .ok at' => c.clock ≤ at' ∧ c' = { c with clock := at' }
    | .error _ => c' = c
  | .ask _, _, c' => c' = c
  | .receive (.signing _), _, c' => c' = { c with signings := c.signings + 1, exposer := dropped p c.exposer }
  | .receive (.first _), _, c' => c' = { c with firsts := c.firsts + 1, requester := dropped p c.requester }

/-- A process dies with what was due to it. -/
def permitCrash (p : π) (c c' : Permit2State H π) : Prop :=
  c' = { c with exposer := dropped p c.exposer, requester := dropped p c.requester }

def permitWorld (key : HoldKey) : Guarded.World Permit2Op (Permit2Op.Answer H) (Permit2State H π) π :=
  ⟨permitExec key, permitCrash⟩

end World

/-! ## The invariant -/

/-- The parts of a record that no write changes. -/
structure Frozen (origin r : Permit2ProductionRecord) : Prop where
  operationId : r.operationId = origin.operationId
  profileHash : r.profileHash = origin.profileHash
  idempotencyHash : r.idempotencyHash = origin.idempotencyHash
  requestHash : r.requestHash = origin.requestHash
  material : r.material = origin.material
  createdAt : r.createdAt = origin.createdAt
  usageReservationId : r.usageReservationId = origin.usageReservationId

/-- A record of the operation that passed its check, and its bundle that passed its own; an exposed one has its
journal. -/
structure Good (H : Permit2Hashes) (origin r : Permit2ProductionRecord) : Prop where
  valid : validatePermit2ProductionRecord H r = .ok ()
  frozen : Frozen origin r
  exposed : r.state.exposed → r.exposureJournal.isSome
  signed : ∀ s, r.signed = some s → validatePermit2ProductionSigned H s r = .ok ()

/-- A plain hold of the operation's own. -/
structure OwnRow (origin : Permit2ProductionRecord) (row : Lease H) : Prop where
  plain : PlainHold origin.material.identity row.toReservationBody
  own : Permit2Prog.ownLease origin row = true

/-- What later records keep of an earlier one: its exposure, and that its release began. -/
structure Grows (older newer : Permit2ProductionRecord) : Prop where
  journal : ∀ j, older.exposureJournal = some j →
    ∃ j', newer.exposureJournal = some j' ∧ exposureAppends j j' = true
  releasing : older.state.releasing → newer.state.releasing

/-- A saved intent to end the payment so. -/
def Intends (outcome : Permit2Outcome) (r : Permit2ProductionRecord) : Prop :=
  ∃ i, r.intent = some i ∧ i.outcome = outcome

structure PermitInv (H : Permit2Hashes) (origin : Permit2ProductionRecord) (c : Permit2State H π) : Prop where
  good : Good H origin c.record
  stamped : c.record.updatedAt ≤ c.clock
  grows : (c.record :: c.past).Pairwise fun newer older => Grows older newer
  own : ∀ row, c.row = some row → OwnRow origin row
  released : ∀ row, c.row = some row → row.state = .releasedUnsubmitted →
    c.record.state.releasing ∨ Intends .expiredUnused c.record
  finalized : ∀ row, c.row = some row → row.state = .finalized → Intends .settled c.record
  oneSigning : c.signings ≤ 1
  signingDue : c.exposer.isSome → c.signings = 0
  signingExposed : c.exposer.isSome ∨ 0 < c.signings → c.record.exposureJournal.isSome
  oneFirst : c.firsts ≤ 1
  firstDue : c.requester.isSome → c.firsts = 0
  firstRequested : c.requester.isSome ∨ 0 < c.firsts → c.record.request.isSome

/-- What a process lets the others do: add to the record, let time pass, and leave its own dues. -/
structure PermitRely (p : π) (c c' : Permit2State H π) : Prop where
  grows : Grows c.record c'.record
  clock : c.clock ≤ c'.clock
  exposer : c.exposer = some p → c'.exposer = some p
  requester : c.requester = some p → c'.requester = some p

theorem exposureAppends_iff {j j' : Permit2ExposureJournal} : exposureAppends j j' = true ↔
    j.approvalFingerprint = j'.approvalFingerprint ∧ j.bindingHash = j'.bindingHash ∧
      j.permit2Deadline = j'.permit2Deadline ∧ j.eip2612Deadline = j'.eip2612Deadline ∧
      (j.holdConfirmed = true → j'.holdConfirmed = true) ∧
      (j.signed.isNone ∨ j.signed = j'.signed) ∧ (j.request.isNone ∨ j.request = j'.request) ∧
      (j.terminalIntent.isNone ∨ j.terminalIntent = j'.terminalIntent) := by
  cases hold : j.holdConfirmed <;> cases hold' : j'.holdConfirmed <;>
    simp [exposureAppends, hold, hold', and_assoc]

theorem exposureAppends_refl (j : Permit2ExposureJournal) : exposureAppends j j = true := by
  rw [exposureAppends_iff]
  exact ⟨rfl, rfl, rfl, rfl, id, Or.inr rfl, Or.inr rfl, Or.inr rfl⟩

-- A marker that is kept, once set, twice.
theorem kept_trans {α : Type} {x y z : Option α} (h : x.isNone ∨ x = y) (h' : y.isNone ∨ y = z) :
    x.isNone ∨ x = z := by
  rcases h with h | rfl
  · exact Or.inl h
  · exact h'

theorem exposureAppends_trans {j j' j'' : Permit2ExposureJournal} (h : exposureAppends j j' = true)
    (h' : exposureAppends j' j'' = true) : exposureAppends j j'' = true := by
  rw [exposureAppends_iff] at h h' ⊢
  rcases h with ⟨h1, h2, h3, h4, hold, hsigned, hrequest, hintent⟩
  rcases h' with ⟨h1', h2', h3', h4', hold', hsigned', hrequest', hintent'⟩
  exact ⟨h1.trans h1', h2.trans h2', h3.trans h3', h4.trans h4', hold' ∘ hold, kept_trans hsigned hsigned',
    kept_trans hrequest hrequest', kept_trans hintent hintent'⟩

theorem Grows.refl (r : Permit2ProductionRecord) : Grows r r :=
  ⟨fun j hj => ⟨j, hj, exposureAppends_refl j⟩, id⟩

theorem Grows.trans {a b c : Permit2ProductionRecord} (h : Grows a b) (h' : Grows b c) : Grows a c := by
  refine ⟨?_, h'.releasing ∘ h.releasing⟩
  intro j hj
  rcases h.journal j hj with ⟨j', hj', happend⟩
  rcases h'.journal j' hj' with ⟨j'', hj'', happend'⟩
  exact ⟨j'', hj'', exposureAppends_trans happend happend'⟩

variable {older newer : Permit2ProductionRecord}

theorem Grows.isSome (h : Grows older newer)
    (hsome : older.exposureJournal.isSome) : newer.exposureJournal.isSome := by
  rcases Option.isSome_iff_exists.mp hsome with ⟨j, hj⟩
  rcases h.journal j hj with ⟨j', hj', _⟩
  rw [hj']
  rfl

theorem Grows.intent (h : Grows older newer)
    {i : Permit2TerminalIntent} (hi : older.intent = some i) : newer.intent = some i := by
  rcases Option.bind_eq_some_iff.mp hi with ⟨j, hj, hji⟩
  rcases h.journal j hj with ⟨j', hj', happend⟩
  rcases (exposureAppends_iff.mp happend).2.2.2.2.2.2.2 with hnone | hsame
  · rw [hji] at hnone
    cases hnone
  · rw [Permit2ProductionRecord.intent, hj', Option.bind_some, ← hsame, hji]

theorem Grows.signed (h : Grows older newer)
    {s : Permit2ProductionSigned} (hs : older.signed = some s) : newer.signed = some s := by
  rcases Option.bind_eq_some_iff.mp hs with ⟨j, hj, hji⟩
  rcases h.journal j hj with ⟨j', hj', happend⟩
  rcases (exposureAppends_iff.mp happend).2.2.2.2.2.1 with hnone | hsame
  · rw [hji] at hnone
    cases hnone
  · rw [Permit2ProductionRecord.signed, hj', Option.bind_some, ← hsame, hji]

theorem Grows.request (h : Grows older newer)
    {q : Permit2Request} (hq : older.request = some q) : newer.request = some q := by
  rcases Option.bind_eq_some_iff.mp hq with ⟨j, hj, hji⟩
  rcases h.journal j hj with ⟨j', hj', happend⟩
  rcases (exposureAppends_iff.mp happend).2.2.2.2.2.2.1 with hnone | hsame
  · rw [hji] at hnone
    cases hnone
  · rw [Permit2ProductionRecord.request, hj', Option.bind_some, ← hsame, hji]

theorem Grows.intends (h : Grows older newer) {outcome : Permit2Outcome}
    (hi : Intends outcome older) : Intends outcome newer := by
  rcases hi with ⟨i, hi, houtcome⟩
  exact ⟨i, h.intent hi, houtcome⟩

def permitLaw (H : Permit2Hashes) (origin : Permit2ProductionRecord) (π : Type) :
    Guarded.Law (Permit2State H π) π Permit2ProductionRecord where
  inv := PermitInv H origin
  rely := PermitRely
  guarded := (·.record)
  refl := fun _ c => ⟨Grows.refl c.record, le_refl c.clock, id, id⟩

/-! ## What the checks of a record say -/

theorem valid_parts {r : Permit2ProductionRecord} (h : validatePermit2ProductionRecord H r = .ok ()) :
    (∀ j, r.exposureJournal = some j → validateExposureJournal H j r = .ok ()) ∧
      exposureConsistent r = true ∧ fieldsConsistent H r = true := by
  unfold validatePermit2ProductionRecord at h
  rcases bind_ok.mp (corruptRecord_guard.mp h).2 with ⟨_, hjournal, hrest⟩
  have hconsistent := (corruptRecord_guard.mp hrest).1
  rw [not_or, not_not, not_not] at hconsistent
  refine ⟨?_, hconsistent⟩
  intro j hj
  rw [validateJournalOf, hj] at hjournal
  exact hjournal

variable {origin r : Permit2ProductionRecord}

-- A journal stands on exposed records only.
theorem Good.exposed_of_journal (h : Good H origin r) (hj : r.exposureJournal.isSome) : r.state.exposed = true := by
  have hconsistent := (valid_parts h.valid).2.1
  rcases Option.isSome_iff_exists.mp hj with ⟨j, hj⟩
  unfold exposureConsistent at hconsistent
  rw [hj] at hconsistent
  simp only [Bool.and_eq_true] at hconsistent
  exact hconsistent.1.1.1.1.1.1.1.1

-- A record whose release began was never exposed.
theorem Good.unexposed_of_releasing (h : Good H origin r)
    (hreleasing : r.state.releasing = true) : r.exposureJournal = none := by
  by_contra hsome
  have hexposed := h.exposed_of_journal (Option.isSome_iff_ne_none.mpr hsome)
  revert hreleasing hexposed
  cases r.state <;> simp [Permit2ProductionState.releasing, Permit2ProductionState.exposed]

-- The release of a record began after its deadline.
theorem Good.deadline_of_releasing (h : Good H origin r)
    (hreleasing : r.state.releasing = true) : (r.material.expiresAtUnix : ℤ) * 1000 ≤ r.updatedAt.ms := by
  have hfields := (valid_parts h.valid).2.2
  simp only [fieldsConsistent, Bool.and_eq_true, hreleasing, Bool.true_and] at hfields
  have hlate := hfields.1.1.1.1.1.1.1.1.1.1.2
  simpa using hlate

-- The saved intent carries its own digest.
theorem Good.intent_digest (h : Good H origin r) {i : Permit2TerminalIntent} (hi : r.intent = some i) :
    i.outcomeDigest = productionTerminalDigest H r i.toPermit2TerminalBody ∧
      (i.outcome = .settled ∨ i.outcome = .expiredUnused) := by
  rcases Option.bind_eq_some_iff.mp hi with ⟨j, hj, hji⟩
  have hjournal := (valid_parts h.valid).1 j hj
  simp only [validateExposureJournal, corruptJournal_guard, not_or, not_not] at hjournal
  have hbound := hjournal.2.2.2.1.1
  rw [hji, Option.all_some] at hbound
  simp only [intentBound, Bool.and_eq_true, Bool.or_eq_true, decide_eq_true_eq] at hbound
  exact ⟨hbound.2, hbound.1.1.1.1.1.1.1.1.1⟩

end PaymentNode.Permit2
