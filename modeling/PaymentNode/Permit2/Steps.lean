import PaymentNode.Permit2.Semantics

/-!
# Steps — what each operation on a Permit2 payment keeps

A step that leaves the record alone keeps every fact its process may hold on to (`Leaves`).  A write of the
record is made under the locks over the record that was read there, by one of the two persist functions, and
each of them lets a record only grow.
-/

open System Guarded

namespace PaymentNode.Permit2

variable {H : Permit2Hashes} {π : Type} {origin : Permit2ProductionRecord} {c c' : Permit2State H π}
  {current next r : Permit2ProductionRecord} {p : π}

/-- The key of the operation's own row. -/
def leaseKey (addresses : Addresses) (origin : Permit2ProductionRecord) : HoldKey :=
  ⟨addresses, origin.material.identity, productionUsageKey origin.operationId⟩

theorem Frozen.refl : Frozen r r := ⟨rfl, rfl, rfl, rfl, rfl, rfl, rfl⟩

theorem Frozen.trans (h : Frozen origin current) (h' : Frozen current next) : Frozen origin next :=
  ⟨h'.operationId.trans h.operationId, h'.profileHash.trans h.profileHash,
    h'.idempotencyHash.trans h.idempotencyHash, h'.requestHash.trans h.requestHash,
    h'.material.trans h.material, h'.createdAt.trans h.createdAt,
    h'.usageReservationId.trans h.usageReservationId⟩

theorem ownLease_iff {value : Lease H} : Permit2Prog.ownLease r value = true ↔
    value.toReservationBody.binding = (r.usageReservationId, H.idempotency (productionUsageKey r.operationId),
      r.material.policyDigest, r.material.registryVersion, .x402, r.material.amountAtomic) := by
  simp only [Permit2Prog.ownLease, ReservationBody.binding, Bool.and_eq_true, decide_eq_true_eq, Prod.mk.injEq]
  tauto

theorem Frozen.ownLease (h : Frozen origin r) (value : Lease H) :
    Permit2Prog.ownLease r value = Permit2Prog.ownLease origin value := by
  unfold Permit2Prog.ownLease
  rw [h.usageReservationId, h.material, h.operationId]

-- A row bound as an own row is one.
theorem OwnRow.rebound {row row' : Lease H} (h : OwnRow origin row)
    (hbinding : row'.toReservationBody.binding = row.toReservationBody.binding)
    (hplain : PlainHold origin.material.identity row.toReservationBody →
      PlainHold origin.material.identity row'.toReservationBody) : OwnRow origin row' :=
  ⟨hplain h.plain, ownLease_iff.mpr (hbinding.trans (ownLease_iff.mp h.own))⟩

theorem Good.reservationId {addresses : Addresses} (h : Good H origin r) :
    r.usageReservationId = (leaseKey addresses origin).reservationId H.toLedgerHash := by
  have hfields := (valid_parts h.valid).2.2
  simp only [fieldsConsistent, Bool.and_eq_true, decide_eq_true_eq] at hfields
  have hid := hfields.1.1.1.1.1.1.1.2
  rw [hid, assetUsageReservationId, productionUsageIdentity, h.frozen.material, h.frozen.operationId]
  rfl

/-! ## The invariant through a step -/

theorem store_exposer [DecidableEq π] (h : ¬ (c.record.exposureJournal.isNone ∧ next.exposureJournal.isSome)) :
    (c.store p next).exposer = c.exposer :=
  if_neg h

theorem store_requester [DecidableEq π] (h : ¬ (c.record.request.isNone ∧ next.request.isSome)) :
    (c.store p next).requester = c.requester :=
  if_neg h

-- A write over the stored record, by which it only grows.
theorem PermitInv.store [DecidableEq π] (h : PermitInv H origin c) (hgood : Good H origin next)
    (hgrows : Grows c.record next) (hstamped : next.updatedAt ≤ c.clock) :
    PermitInv H origin (c.store p next) := by
  have hfresh : c.record.exposureJournal.isNone → c.exposer = none ∧ c.signings = 0 := by
    intro hnone
    have hnot := fun hdue => Option.isSome_iff_ne_none.mp (h.signingExposed hdue) (Option.isNone_iff_eq_none.mp hnone)
    exact ⟨Option.not_isSome_iff_eq_none.mp fun hsome => hnot (Or.inl hsome),
      Nat.eq_zero_of_not_pos fun hpos => hnot (Or.inr hpos)⟩
  have hunasked : c.record.request.isNone → c.requester = none ∧ c.firsts = 0 := by
    intro hnone
    have hnot := fun hdue => Option.isSome_iff_ne_none.mp (h.firstRequested hdue) (Option.isNone_iff_eq_none.mp hnone)
    exact ⟨Option.not_isSome_iff_eq_none.mp fun hsome => hnot (Or.inl hsome),
      Nat.eq_zero_of_not_pos fun hpos => hnot (Or.inr hpos)⟩
  refine ⟨hgood, hstamped, ?_, h.own, ?_, ?_, h.oneSigning, ?_, ?_, h.oneFirst, ?_, ?_⟩
  · refine List.pairwise_cons.mpr ⟨?_, h.grows⟩
    intro older holder
    rcases List.mem_cons.mp holder with rfl | hpast
    · exact hgrows
    · exact ((List.pairwise_cons.mp h.grows).1 older hpast).trans hgrows
  · intro row hrow hstate
    exact (h.released row hrow hstate).imp hgrows.releasing hgrows.intends
  · intro row hrow hstate
    exact hgrows.intends (h.finalized row hrow hstate)
  · intro hdue
    by_cases hfirst : c.record.exposureJournal.isNone ∧ next.exposureJournal.isSome
    · exact (hfresh hfirst.1).2
    · rw [store_exposer hfirst] at hdue
      exact h.signingDue hdue
  · intro hdue
    by_cases hfirst : c.record.exposureJournal.isNone ∧ next.exposureJournal.isSome
    · exact hfirst.2
    · rw [store_exposer hfirst] at hdue
      exact hgrows.isSome (h.signingExposed hdue)
  · intro hdue
    by_cases hfirst : c.record.request.isNone ∧ next.request.isSome
    · exact (hunasked hfirst.1).2
    · rw [store_requester hfirst] at hdue
      exact h.firstDue hdue
  · intro hdue
    by_cases hfirst : c.record.request.isNone ∧ next.request.isSome
    · exact hfirst.2
    · rw [store_requester hfirst] at hdue
      rcases Option.isSome_iff_exists.mp (h.firstRequested hdue) with ⟨q, hq⟩
      show next.request.isSome
      rw [hgrows.request hq]
      rfl

-- A write leaves the dues of every other process.
theorem rely_store [DecidableEq π] (h : PermitInv H origin c) (hgrows : Grows c.record next) (q : π) (_ : q ≠ p) :
    PermitRely q c (c.store p next) := by
  refine ⟨hgrows, le_refl c.clock, ?_, ?_⟩
  · intro hdue
    have hjournal := h.signingExposed (Or.inl (by rw [hdue]; rfl))
    have hnot : ¬ (c.record.exposureJournal.isNone ∧ next.exposureJournal.isSome) := by
      rintro ⟨hnone, -⟩
      rw [Option.isNone_iff_eq_none] at hnone
      rw [hnone] at hjournal
      cases hjournal
    rw [store_exposer hnot]
    exact hdue
  · intro hdue
    have hrequest := h.firstRequested (Or.inl (by rw [hdue]; rfl))
    have hnot : ¬ (c.record.request.isNone ∧ next.request.isSome) := by
      rintro ⟨hnone, -⟩
      rw [Option.isNone_iff_eq_none] at hnone
      rw [hnone] at hrequest
      cases hrequest
    rw [store_requester hnot]
    exact hdue

theorem PermitInv.moveRow (h : PermitInv H origin c) {row : Option (Lease H)}
    (hown : ∀ lease, row = some lease → OwnRow origin lease)
    (hreleased : ∀ lease, row = some lease → lease.state = .releasedUnsubmitted →
      c.record.state.releasing ∨ Intends .expiredUnused c.record)
    (hfinalized : ∀ lease, row = some lease → lease.state = .finalized → Intends .settled c.record) :
    PermitInv H origin { c with row := row } :=
  ⟨h.good, h.stamped, h.grows, hown, hreleased, hfinalized, h.oneSigning, h.signingDue, h.signingExposed, h.oneFirst,
    h.firstDue, h.firstRequested⟩

theorem PermitInv.tick (h : PermitInv H origin c) {at' : Instant} (hlater : c.clock ≤ at') :
    PermitInv H origin { c with clock := at' } :=
  ⟨h.good, le_trans h.stamped hlater, h.grows, h.own, h.released, h.finalized, h.oneSigning, h.signingDue,
    h.signingExposed, h.oneFirst, h.firstDue, h.firstRequested⟩

theorem dropped_self [DecidableEq π] {holder : Option π} (h : holder = some p) : dropped p holder = none := by
  unfold dropped
  rw [if_pos h]

-- The one continuation, to the process it is due to.
theorem PermitInv.receiveSigning [DecidableEq π] (h : PermitInv H origin c) (hdue : c.exposer = some p) :
    PermitInv H origin { c with signings := c.signings + 1, exposer := dropped p c.exposer } := by
  have hsome : c.exposer.isSome := by
    rw [hdue]
    rfl
  have hnone := dropped_self hdue
  have hzero := h.signingDue hsome
  refine ⟨h.good, h.stamped, h.grows, h.own, h.released, h.finalized, ?_, ?_, fun _ => h.signingExposed (Or.inl hsome),
    h.oneFirst, h.firstDue, h.firstRequested⟩
  · show c.signings + 1 ≤ 1
    omega
  · intro hstill
    rw [hnone] at hstill
    cases hstill

theorem PermitInv.receiveFirst [DecidableEq π] (h : PermitInv H origin c) (hdue : c.requester = some p) :
    PermitInv H origin { c with firsts := c.firsts + 1, requester := dropped p c.requester } := by
  have hsome : c.requester.isSome := by
    rw [hdue]
    rfl
  have hnone := dropped_self hdue
  have hzero := h.firstDue hsome
  refine ⟨h.good, h.stamped, h.grows, h.own, h.released, h.finalized, h.oneSigning, h.signingDue, h.signingExposed, ?_, ?_,
    fun _ => h.firstRequested (Or.inl hsome)⟩
  · show c.firsts + 1 ≤ 1
    omega
  · intro hstill
    rw [hnone] at hstill
    cases hstill

theorem keeps_crash [DecidableEq π] (h : PermitInv H origin c) (hcrash : permitCrash p c c') :
    Keeps (permitLaw H origin π) p false c c' := by
  have hsame : c' = { c with exposer := dropped p c.exposer, requester := dropped p c.requester } := hcrash
  subst hsame
  refine ⟨⟨h.good, h.stamped, h.grows, h.own, h.released, h.finalized, h.oneSigning, ?_, ?_, h.oneFirst, ?_, ?_⟩, ?_,
    fun _ => rfl⟩
  · exact fun hdue => h.signingDue (dropped_isSome hdue)
  · exact fun hdue => h.signingExposed (hdue.imp dropped_isSome id)
  · exact fun hdue => h.firstDue (dropped_isSome hdue)
  · exact fun hdue => h.firstRequested (hdue.imp dropped_isSome id)
  · intro q hq
    exact ⟨Grows.refl c.record, le_refl c.clock, fun hdue => dropped_ne hq hdue, fun hdue => dropped_ne hq hdue⟩

/-! ## Facts a process may hold on to -/

/-- A record that was read: later ones have grown from it. -/
def Seen (origin r : Permit2ProductionRecord) (c : Permit2State H π) : Prop :=
  Good H origin r ∧ Grows r c.record

/-- The one continuation is due to `p`, where it wrote the exposure. -/
def Due (p : π) (wrote : Prop) (c : Permit2State H π) : Prop := wrote → c.exposer = some p

theorem due_nothing (c : Permit2State H π) : Due p False c := fun h => h.elim

variable {l : Bool}

abbrev Steady (origin : Permit2ProductionRecord) (p : π) (l : Bool) (P : Permit2State H π → Prop) : Prop :=
  Stable (permitLaw H origin π) p l P

theorem steady_true : Steady (H := H) origin p l fun _ => True := fun _ _ _ _ _ _ _ => trivial

theorem steady_seen : Steady (H := H) origin p l (Seen origin r) :=
  fun _ _ _ _ hrely _ h => ⟨h.1, h.2.trans hrely.grows⟩

theorem steady_due {wrote : Prop} : Steady (H := H) origin p l (Due p wrote) :=
  fun _ _ _ _ hrely _ h hwrote => hrely.exposer (h hwrote)

theorem steady_since {at' : Instant} : Steady (H := H) origin p l fun c => at' ≤ c.clock :=
  fun _ _ _ _ hrely _ h => le_trans h hrely.clock

theorem steady_record : Steady (H := H) origin p true fun c => c.record = r := by
  intro c c' _ _ _ hkept h
  have hsame : c'.record = c.record := hkept rfl
  rw [hsame]
  exact h

theorem steady_releasing : Steady (H := H) origin p l fun c => c.record.state.releasing = true :=
  fun _ _ _ _ hrely _ h => hrely.grows.releasing h

theorem steady_intends {outcome : Permit2Outcome} : Steady (H := H) origin p l fun c => Intends outcome c.record :=
  fun _ _ _ _ hrely _ h => hrely.grows.intends h

/-- A record read under the locks is the stored one there. -/
def Found (origin : Permit2ProductionRecord) (l : Bool) (r : Permit2ProductionRecord) (c : Permit2State H π) : Prop :=
  Seen origin r c ∧ (l = true → c.record = r)

theorem steady_found : Steady (H := H) origin p l (Found origin l r) := by
  intro c c' hc hc' hrely hkept h
  refine ⟨steady_seen (p := p) (l := l) c c' hc hc' hrely hkept h.1, fun hl => ?_⟩
  have hsame : c'.record = c.record := hkept hl
  rw [hsame]
  exact h.2 hl

/-! ## Programs that leave the record alone -/

variable [DecidableEq π] {addresses : Addresses} {α β : Type} {P : Permit2State H π → Prop}

abbrev Does (addresses : Addresses) (origin : Permit2ProductionRecord) (p : π) (l : Bool)
    (P : Permit2State H π → Prop) (x : Permit2Prog H α) (Q : α → Permit2State H π → Prop) : Prop :=
  Meets (permitWorld (leaseKey addresses origin)) (permitLaw H origin π) p l P x Q fun _ _ => True

/-- A step that leaves the record and the dues alone. -/
structure Aside (c c' : Permit2State H π) : Prop where
  record : c'.record = c.record
  clock : c.clock ≤ c'.clock
  exposer : c'.exposer = c.exposer
  requester : c'.requester = c.requester

omit [DecidableEq π] in
theorem Aside.refl : Aside c c := ⟨rfl, le_refl c.clock, rfl, rfl⟩

omit [DecidableEq π] in
theorem Aside.rely (h : Aside c c') : PermitRely p c c' := by
  refine ⟨?_, h.clock, ?_, ?_⟩
  · rw [h.record]
    exact Grows.refl c.record
  · rw [h.exposer]
    exact id
  · rw [h.requester]
    exact id

omit [DecidableEq π] in
theorem Aside.keeps (h : Aside c c') (hinv : PermitInv H origin c') : Keeps (permitLaw H origin π) p l c c' :=
  ⟨hinv, fun _ _ => h.rely, fun _ => h.record⟩

omit [DecidableEq π] in
-- A fact that survives the others survives such a step too.
theorem Aside.steady (h : Aside c c') (hP : Steady origin p l P) (hc : PermitInv H origin c)
    (hc' : PermitInv H origin c') (hold : P c) : P c' :=
  hP c c' hc hc' h.rely (fun _ => h.record) hold

/-- `x` leaves the record alone, and what it answers satisfies `Φ`. -/
def Leaves (addresses : Addresses) (origin : Permit2ProductionRecord) (p : π) (l : Bool) (x : Permit2Prog H α)
    (Φ : α → Prop) : Prop :=
  ∀ P : Permit2State H π → Prop, Steady origin p l P → Does addresses origin p l P x fun a c => P c ∧ Φ a

variable {x : Permit2Prog H α} {f : α → Permit2Prog H β} {Φ : α → Prop} {Ψ : β → Prop}
  {Q : β → Permit2State H π → Prop}

theorem Leaves.ret {a : α} (h : Φ a) : Leaves (H := H) addresses origin p l (Prog.ret a) Φ :=
  fun _ _ => Meets.ret fun _ _ hP => ⟨hP, h⟩

theorem Leaves.lift {r : Result α} (h : ∀ a, r = .ok a → Φ a) :
    Leaves (H := H) addresses origin p l (Permit2Prog.lift r) Φ :=
  fun _ _ => Meets.ofExcept (fun a _ ha _ hP => ⟨hP, h a ha⟩) fun _ _ _ _ _ => trivial

theorem Leaves.bind (hx : Leaves addresses origin p l x Φ) (hf : ∀ a, Φ a → Leaves addresses origin p l (f a) Ψ) :
    Leaves addresses origin p l (x.bind f) Ψ := by
  intro P hP
  apply Meets.bind (hx P hP)
  intro a
  apply Meets.pre (Meets.assume fun h => hf a h P hP)
  exact fun c _ h => ⟨h.2, h.1⟩

-- A program that leaves the record alone begins.
theorem Leaves.first (hx : Leaves addresses origin p l x Φ) (hP : Steady origin p l P)
    (hf : ∀ a, Φ a → Does addresses origin p l P (f a) Q) : Does addresses origin p l P (x.bind f) Q := by
  apply Meets.bind (hx P hP)
  intro a
  apply Meets.pre (Meets.assume fun h => hf a h)
  exact fun c _ h => ⟨h.2, h.1⟩

-- An operation that leaves the record and the dues alone, and the invariant true.
theorem leaves_run {o : Permit2Op} {h : o.Answer H = Result α} (hstep : ∀ c answer c',
      PermitInv H origin c → permitExec (leaseKey addresses origin) p c o answer c' →
      Aside c c' ∧ PermitInv H origin c') :
    Leaves addresses origin p l (Guarded.run o h : Permit2Prog H α) fun _ => True := by
  intro P hP
  apply Meets.post (Meets.run_any (M := P) hP _ fun _ _ _ => trivial) fun _ _ _ h => ⟨h, trivial⟩
  intro c c' answer hc hold hexec
  rcases hstep c answer c' hc hexec with ⟨haside, hinv⟩
  exact ⟨haside.keeps hinv, haside.steady hP hc hinv hold⟩

theorem leaves_ask {q : Permit2Ask} {h : q.Answer = Result α} :
    Leaves (H := H) addresses origin p l (Permit2Prog.ask q h) fun _ => True := by
  apply leaves_run
  intro c answer c' hc hexec
  have hsame : c' = c := hexec
  rw [hsame]
  exact ⟨Aside.refl, hc⟩

theorem leaves_usage : Leaves (H := H) addresses origin p l Permit2Prog.usageWithReservation fun _ => True := by
  apply leaves_run
  rintro c answer c' hc ⟨⟨hrow, -⟩, hsame⟩
  rw [hrow] at hsame
  rw [hsame]
  exact ⟨Aside.refl, hc⟩

theorem leaves_leaseOf : Leaves (H := H) addresses origin p l (Permit2Prog.leaseOf r)
    fun lease => Permit2Prog.ownLease r lease = true := by
  unfold Permit2Prog.leaseOf
  apply Leaves.bind leaves_usage
  intro usage _
  cases usage.2 with
  | none => exact Leaves.lift fun a h => (blocked_ne_ok h).elim
  | some lease =>
    dsimp only
    split
    · exact Leaves.ret ‹_›
    · exact Leaves.lift fun a h => (blocked_ne_ok h).elim

theorem leaves_refuseIf {condition : Prop} [Decidable condition] :
    Leaves (H := H) addresses origin p l (Permit2Prog.refuseIf condition) fun _ => ¬ condition :=
  Leaves.lift fun _ h => (blocked_guard.mp h).1

theorem leaves_approvalCurrent {approval : Permit2ForegroundApproval} {at' : Instant} :
    Leaves (H := H) addresses origin p l (Permit2Prog.assertPermit2ApprovalCurrent approval r at') fun _ => True := by
  unfold Permit2Prog.assertPermit2ApprovalCurrent
  apply Leaves.bind (Leaves.lift fun _ _ => trivial)
  intro _ _
  apply Leaves.bind leaves_ask
  intro _ _
  apply Leaves.bind (Leaves.lift fun _ _ => trivial)
  exact fun _ _ => Leaves.lift fun _ _ => trivial

/-! ## The clock and the stored record -/

theorem does_now (hP : Steady origin p l P) :
    Does (H := H) addresses origin p l P Permit2Prog.now fun at' c => P c ∧ at' ≤ c.clock := by
  unfold Permit2Prog.now
  apply Meets.run hP
  intro c c' answer hc hold hexec
  cases answer with
  | error e =>
    have hsame : c' = c := hexec
    rw [hsame]
    exact ⟨Keeps.refl hc, trivial⟩
  | ok at' =>
    rcases hexec with ⟨hlater, rfl⟩
    have haside : Aside c { c with clock := at' } := ⟨rfl, hlater, rfl, rfl⟩
    have hinv := hc.tick hlater
    exact ⟨haside.keeps hinv, haside.steady hP hc hinv hold, le_refl at'⟩

theorem floorSecond_le (at' : Instant) : at'.floorSecond ≤ at' := by
  show at'.ms / 1000 * 1000 ≤ at'.ms
  omega

theorem does_nowSecond (hP : Steady origin p l P) :
    Does (H := H) addresses origin p l P Permit2Prog.nowSecond fun at' c => P c ∧ at' ≤ c.clock := by
  unfold Permit2Prog.nowSecond
  apply Meets.bind (does_now hP)
  intro at'
  exact Meets.ret fun c _ h => ⟨h.1, le_trans (floorSecond_le at') h.2⟩

theorem leaves_now : Leaves (H := H) addresses origin p l Permit2Prog.now fun _ => True :=
  fun _ hP => (does_now hP).post fun _ _ _ h => ⟨h.1, trivial⟩

theorem leaves_nowSecond : Leaves (H := H) addresses origin p l Permit2Prog.nowSecond fun _ => True :=
  fun _ hP => (does_nowSecond hP).post fun _ _ _ h => ⟨h.1, trivial⟩

theorem does_findOperation (hP : Steady origin p l P) :
    Does (H := H) addresses origin p l P Permit2Prog.findOperation fun r c => P c ∧ Found origin l r c := by
  unfold Permit2Prog.findOperation
  apply Meets.bind (M := fun r c => P c ∧ Found origin l r c)
  · apply Meets.run hP
    rintro c c' answer hc hold ⟨rfl, hanswer⟩
    refine ⟨Keeps.refl hc, ?_⟩
    cases answer with
    | error e => trivial
    | ok r =>
      have hr : r = c'.record := hanswer r rfl
      subst hr
      exact ⟨hold, ⟨hc.good, Grows.refl _⟩, fun _ => rfl⟩
  · intro r
    have hfound : Steady origin p l fun c => P c ∧ Found origin l r c := hP.and steady_found
    apply Leaves.first (Leaves.lift fun _ _ => trivial) hfound
    intro _ _
    split
    · apply Leaves.first (Leaves.lift fun _ _ => trivial) hfound
      exact fun _ _ => Meets.ret fun _ _ h => h
    · exact Meets.ret fun _ _ h => h

-- A section begins with the record it finds.
theorem does_found {f : Permit2ProductionRecord → Permit2Prog H β}
    (h : ∀ r, Does addresses origin p true (Found origin true r) (f r) Q) :
    Does addresses origin p true (fun _ => True) (Permit2Prog.findOperation.bind f) Q := by
  apply Meets.bind (does_findOperation steady_true)
  intro r
  exact (h r).pre fun _ _ h => h.2

/-! ## Writes -/

-- The write of a checked record over the one that is stored.
theorem does_write (hgood : Good H origin next) (hgrows : Grows current next) {wrote : Prop} :
    Does (H := H) addresses origin p true (fun c => c.record = current ∧ next.updatedAt ≤ c.clock ∧ Due p wrote c)
      (Permit2Prog.writeJson next) fun _ c =>
        c.record = next ∧ (current.exposureJournal.isSome → Due p wrote c) ∧
          (current.exposureJournal.isNone → next.exposureJournal.isSome → c.exposer = some p) ∧
          (current.request.isNone → next.request.isSome → c.requester = some p) := by
  unfold Permit2Prog.writeJson
  apply Meets.run (steady_record.and (steady_since.and steady_due))
  rintro c c' answer hc ⟨hrecord, hstamped, hdue⟩ hexec
  rw [← hrecord] at hgrows
  have hkeeps : Keeps (permitLaw H origin π) p true c (c.store p next) :=
    ⟨hc.store hgood hgrows hstamped, fun q hq => rely_store hc hgrows q hq, fun h => (nomatch h)⟩
  cases answer with
  | error e =>
    have hcase : c' = c ∨ c' = c.store p next := hexec
    rcases hcase with rfl | rfl
    · exact ⟨Keeps.refl hc, trivial⟩
    · exact ⟨hkeeps, trivial⟩
  | ok u =>
    have hsame : c' = c.store p next := hexec
    subst hsame
    refine ⟨hkeeps, rfl, ?_, ?_, ?_⟩
    · intro hsome hwrote
      have hnot : ¬ (c.record.exposureJournal.isNone ∧ next.exposureJournal.isSome) := by
        rw [hrecord]
        rintro ⟨hnone, -⟩
        rw [Option.isNone_iff_eq_none] at hnone
        rw [hnone] at hsome
        cases hsome
      rw [store_exposer hnot]
      exact hdue hwrote
    · intro hnone hsome
      rw [← hrecord] at hnone
      exact if_pos ⟨hnone, hsome⟩
    · intro hnone hsome
      rw [← hrecord] at hnone
      exact if_pos ⟨hnone, hsome⟩

-- A move of `allowed` keeps a release begun, and reaches the unexposed states from unexposed ones only.
theorem allowed_cases {source target : Permit2ProductionState} (h : allowed source target = true)
    (htarget : target.exposed = false) :
    source.exposed = false ∧ (source.releasing = true → target.releasing = true) := by
  revert h htarget
  cases source <;> cases target <;> decide

theorem persistCheck_allowed (h : persistCheck current next = .ok ()) : allowed current.state next.state = true := by
  have hguard := (corrupt_guard.mp h).1
  by_contra hnot
  exact hguard (Or.inr (Or.inr (Or.inr (Or.inr hnot))))

-- A write of the preparation leaves the record unexposed, and its release begun if it was.
theorem grows_persisted (hgood : Good H origin current) (hstate : next.state.exposed = false)
    (hcheck : persistCheck current next = .ok ()) : Grows current next := by
  rcases allowed_cases (persistCheck_allowed hcheck) hstate with ⟨hsource, hreleasing⟩
  refine ⟨?_, hreleasing⟩
  intro j hj
  have hexposed := hgood.exposed_of_journal (by rw [hj]; rfl)
  rw [hsource] at hexposed
  cases hexposed

theorem does_persistLocked (hfrozen : Frozen current next) (hstate : next.state.exposed = false) :
    Does (H := H) addresses origin p true (fun c => c.record = current ∧ next.updatedAt ≤ c.clock)
      (Permit2Prog.persistLocked (H := H) next) fun _ c => c.record = next ∧ Good H origin next := by
  have hpre : Steady (H := H) origin p true fun c => c.record = current ∧ next.updatedAt ≤ c.clock :=
    steady_record.and steady_since
  unfold Permit2Prog.persistLocked
  apply Leaves.first (Leaves.lift fun _ h => (blocked_guard.mp h).1) hpre
  intro _ hplain
  apply Leaves.first (Leaves.lift (Φ := fun _ => validatePermit2ProductionRecord H next = .ok ()) fun _ h => h) hpre
  intro _ hvalid
  apply Meets.bind (does_findOperation hpre)
  intro found
  apply Meets.pre (N := fun c => (found = current ∧ Good H origin current) ∧
    (c.record = current ∧ next.updatedAt ≤ c.clock))
  · apply Meets.assume
    rintro ⟨rfl, hgood⟩
    apply Leaves.first (Leaves.lift (Φ := fun _ => persistCheck found next = .ok ()) fun _ h => h) hpre
    intro _ hcheck
    have hnext : Good H origin next := by
      refine ⟨hvalid, hgood.frozen.trans hfrozen, ?_, ?_⟩
      · intro hexposed
        rw [hstate] at hexposed
        cases hexposed
      · intro s hs
        rcases Option.bind_eq_some_iff.mp hs with ⟨j, hj, _⟩
        exact (hplain (Or.inr (by rw [hj]; rfl))).elim
    apply Meets.conseq (does_write hnext (grows_persisted hgood hstate hcheck))
    · exact fun c _ h => ⟨h.1, h.2, due_nothing c⟩
    · exact fun _ c _ h => ⟨h.1, hnext⟩
    · exact fun _ _ _ h => h
  · rintro c hc ⟨⟨hrecord, hstamped⟩, hseen, hsame⟩
    have hfound : found = current := (hsame rfl).symm.trans hrecord
    exact ⟨⟨hfound, hfound ▸ hseen.1⟩, hrecord, hstamped⟩

theorem does_persistSealed (hfrozen : Frozen current next) (hstate : next.state.exposed = false) :
    Does (H := H) addresses origin p true (fun c => c.record = current ∧ next.updatedAt ≤ c.clock)
      (Permit2Prog.persistSealed (H := H) next) fun r c => r = next ∧ c.record = next ∧ Good H origin next := by
  unfold Permit2Prog.persistSealed
  apply Leaves.first (Leaves.lift (Φ := fun sealed' => sealed' = next) ?_) (steady_record.and steady_since)
  · rintro _ rfl
    apply Meets.bind (does_persistLocked hfrozen hstate)
    exact fun _ => Meets.ret fun c _ h => ⟨rfl, h⟩
  · intro sealed' h
    rcases bind_ok.mp h with ⟨_, _, hsame⟩
    cases hsame
    rfl

variable {journal : Permit2ExposureJournal}

-- A write of the exposure adds to the journal, and is the first over a `reserved` record only.
theorem grows_exposed (hjournal : next.exposureJournal = some journal)
    (hgood : Good H origin current) (hcheck : persistExposureCheck H current next journal = .ok ()) :
    Grows current next := by
  unfold persistExposureCheck at hcheck
  rcases corruptRecord_guard.mp hcheck with ⟨hfields, hcheck⟩
  rcases bind_ok.mp (corruptRecord_guard.mp hcheck).2 with ⟨_, happend, _⟩
  have happends := (corruptJournal_guard.mp happend).1
  rw [not_not] at happends
  refine ⟨?_, ?_⟩
  · intro j hj
    rw [hj, Option.all_some] at happends
    exact ⟨journal, hjournal, happends⟩
  · intro hreleasing
    have hnone := hgood.unexposed_of_releasing hreleasing
    have hreserved : current.state = .reserved := by
      by_contra hnot
      exact hfields (Or.inr (Or.inr (Or.inr (Or.inr (Or.inr (Or.inr ⟨by rw [hnone]; rfl, hnot⟩))))))
    rw [hreserved] at hreleasing
    cases hreleasing

-- A bundle that is written was checked against its record.
theorem signed_persisted (hjournal : next.exposureJournal = some journal)
    (hcheck : persistExposureCheck H current next journal = .ok ()) {s : Permit2ProductionSigned}
    (hs : next.signed = some s) : validatePermit2ProductionSigned H s next = .ok () := by
  unfold persistExposureCheck at hcheck
  rcases bind_ok.mp (corruptRecord_guard.mp (corruptRecord_guard.mp hcheck).2).2 with ⟨_, _, hsigned⟩
  rw [Permit2ProductionRecord.signed, hjournal, Option.bind_some] at hs
  rw [hs] at hsigned
  exact hsigned

theorem does_persistExposureLocked (hfrozen : Frozen current next)
    (hjournal : next.exposureJournal = some journal) {wrote : Prop} :
    Does (H := H) addresses origin p true (fun c => c.record = current ∧ next.updatedAt ≤ c.clock ∧ Due p wrote c)
      (Permit2Prog.persistExposureLocked (H := H) next) fun _ c =>
        Good H origin next ∧ c.record = next ∧ (current.exposureJournal.isSome → Due p wrote c) ∧
          (current.exposureJournal.isNone → next.exposureJournal.isSome → c.exposer = some p) ∧
          (current.request.isNone → next.request.isSome → c.requester = some p) := by
  have hpre : Steady (H := H) origin p true fun c =>
      c.record = current ∧ next.updatedAt ≤ c.clock ∧ Due p wrote c :=
    steady_record.and (steady_since.and steady_due)
  unfold Permit2Prog.persistExposureLocked
  apply Leaves.first (Leaves.lift (Φ := fun _ => validatePermit2ProductionRecord H next = .ok ()) fun _ h => h) hpre
  intro _ hvalid
  apply Meets.bind (does_findOperation hpre)
  intro found
  apply Meets.pre (N := fun c => (found = current ∧ Good H origin current) ∧
    (c.record = current ∧ next.updatedAt ≤ c.clock ∧ Due p wrote c))
  · apply Meets.assume
    rintro ⟨rfl, hgood⟩
    split
    · rename_i hnone
      rw [hjournal] at hnone
      cases hnone
    rename_i saved hsaved
    apply Leaves.first
      (Leaves.lift (Φ := fun _ => persistExposureCheck H found next saved = .ok ()) fun _ h => h) hpre
    intro _ hcheck
    have hnext : Good H origin next := by
      refine ⟨hvalid, hgood.frozen.trans hfrozen, fun _ => ?_, fun s hs => signed_persisted hsaved hcheck hs⟩
      rw [hjournal]
      rfl
    exact (does_write hnext (grows_exposed hsaved hgood hcheck)).post fun _ _ _ h => ⟨hnext, h⟩
  · rintro c hc ⟨hkept, hseen, hsame⟩
    have hfound : found = current := (hsame rfl).symm.trans hkept.1
    exact ⟨⟨hfound, hfound ▸ hseen.1⟩, hkept⟩

end PaymentNode.Permit2
