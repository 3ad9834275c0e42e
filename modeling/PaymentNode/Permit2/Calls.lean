import PaymentNode.Permit2.Steps

/-!
# Calls — every call on a Permit2 payment keeps the invariant

One specification for each program of the preparation and of the journal.  What a call holds on to between
its sections is a record it has seen (`Seen`), that a release has begun, that an intent is saved, or that the
exposure was its own write (`Due`).
-/

open System Guarded

namespace PaymentNode.Permit2

variable {H : Permit2Hashes} {π : Type} [DecidableEq π] {origin : Permit2ProductionRecord}
  {addresses : Addresses} {current next r record : Permit2ProductionRecord} {p : π} {l : Bool} {α : Type}
  {P : Permit2State H π → Prop}

/-! ## The ledger row -/

-- A lease call whose new row the record accounts for.
theorem does_lease {op : LeaseOp} {h : op.Answer H = Result α} (hP : Steady origin p l P)
    (hrow : ∀ (c : Permit2State H π) answer row', PermitInv H origin c → P c →
      leaseExec (leaseKey addresses origin) c.row op answer row' →
      row' = c.row ∨ ∃ lease, row' = some lease ∧ OwnRow origin lease ∧
        (lease.state = .releasedUnsubmitted → c.record.state.releasing ∨ Intends .expiredUnused c.record) ∧
        (lease.state = .finalized → Intends .settled c.record)) :
    Does addresses origin p l P (Guarded.run (Permit2Op.lease op) h : Permit2Prog H α) fun _ => P := by
  apply Meets.run_any (M := P) hP _ fun _ _ _ => trivial
  intro c c' answer hc hold hexec
  rcases hexec with ⟨hlease, hsame⟩
  have hinv : PermitInv H origin { c with row := c'.row } := by
    rcases hrow c answer c'.row hc hold hlease with hkept | ⟨lease, hlease, hown, hreleased, hfinalized⟩
    · rw [hkept]
      exact hc
    · rw [hlease]
      apply hc.moveRow
      · rintro other hother
        cases hother
        exact hown
      · rintro other hother
        cases hother
        exact hreleased
      · rintro other hother
        cases hother
        exact hfinalized
  rw [← hsame] at hinv
  have haside : Aside c c' := by
    rw [hsame]
    exact ⟨rfl, le_refl c.clock, rfl, rfl⟩
  exact ⟨haside.keeps hinv, haside.steady hP hc hinv hold⟩

variable {at' : Instant}

-- A transition to a state that the record accounts for.
theorem does_moveLease {target : AssetUsageState} {outcomeDigest : Option String}
    {expected : List AssetUsageState} (hgood : Good H origin r) (hP : Steady origin p l P)
    (hreleased : ∀ c, P c → target = .releasedUnsubmitted →
      c.record.state.releasing ∨ Intends .expiredUnused c.record)
    (hfinalized : ∀ c, P c → target = .finalized → Intends .settled c.record) :
    Does addresses origin p l P
      (Permit2Prog.moveLease (H := H) (Permit2Prog.transitionInput r target outcomeDigest expected at'))
      fun _ => P := by
  apply does_lease hP
  rintro c answer row' hc hold ⟨bucket, hfind, hexec⟩
  have hid : r.usageReservationId = (leaseKey addresses origin).reservationId H.toLedgerHash := hgood.reservationId
  split at hexec
  · rename_i lease next hmove
    rcases transition_ok hmove with ⟨hstate, -, hnext⟩
    have hmoved : ∃ current : Reservation H.toLedgerHash, _ ∧ _ ∧ (PlainHold origin.material.identity current.toReservationBody → _) :=
      transition_binding hmove rfl
    rcases hmoved with ⟨current, hcurrent, hbinding, hplain⟩
    have hstate : lease.state = target := hstate
    rw [← hstate] at hreleased hfinalized
    refine Or.inr ⟨lease, ?_, ?_, hreleased c hold, hfinalized c hold⟩
    · rw [hexec.2, ← hid]
      exact hnext
    · have hrow : c.row = some current := by
        rw [← hfind, ← hid]
        exact hcurrent
      exact (hc.own current hrow).rebound hbinding hplain
  · exact Or.inl hexec.2

theorem leaves_reserveLease {registry : AssetPolicyRegistry} (hgood : Good H origin r)
    (hpolicy : registry.policyDigest = r.material.policyDigest)
    (hversion : registry.registryVersion = r.material.registryVersion) :
    Leaves (H := H) addresses origin p l (Permit2Prog.reserveLease (Permit2Prog.reserveInput r registry at'))
      fun _ => True := by
  intro P hP
  refine Meets.post (does_lease hP ?_) fun _ _ _ h => ⟨h, trivial⟩
  intro c answer row' hc _ hexec
  have hkey : (Permit2Prog.reserveInput r registry at').idempotencyKey =
      (leaseKey addresses origin).idempotencyKey := by
    show productionUsageKey r.operationId = productionUsageKey origin.operationId
    rw [hgood.frozen.operationId]
  rcases hold_reserve hkey hexec with ⟨lease, hanswer, hrow, _, _, hcase⟩ | ⟨_, hrow⟩
  · cases hcase with
    | replayed hold _ => exact Or.inl (hrow.trans hold.symm)
    | fresh hnone hstate hplain _ =>
      refine Or.inr ⟨lease, hrow, ⟨hplain, ?_⟩, ?_, ?_⟩
      · rcases hexec with ⟨bucket, hfind, hexec⟩
        split at hexec
        · rename_i other next hreserve
          have hsame : other = lease := by
            have heq := hanswer.symm.trans hexec.1
            cases heq
            rfl
          subst hsame
          have hid : (leaseKey addresses origin).reservationId H.toLedgerHash =
              H.reservationIdFor (leaseKey addresses origin).identity
                (H.idempotency (Permit2Prog.reserveInput r registry at').idempotencyKey) := by
            rw [hkey]
            rfl
          have hbinding := reserveBound_binding hreserve (by rw [← hid, hfind, hnone])
          rw [← hid, hkey] at hbinding
          rw [← hgood.frozen.ownLease, ownLease_iff, hbinding, ← hgood.reservationId, hgood.frozen.operationId,
            ← hpolicy, ← hversion]
          rfl
        · have heq := hanswer.symm.trans hexec.1
          cases heq
      · rw [hstate]
        exact fun h => (nomatch h)
      · rw [hstate]
        exact fun h => (nomatch h)
    | reopened _ _ hretry => cases hretry
  · exact Or.inl hrow

-- A cancellation, once the record's release has begun.
theorem does_cancelLease (hgood : Good H origin r) :
    Does (H := H) addresses origin p l (fun c => c.record.state.releasing = true)
      (Permit2Prog.cancelLease (Permit2Prog.cancelInput r at')) fun _ c => c.record.state.releasing = true := by
  apply does_lease steady_releasing
  rintro c answer row' hc hreleasing ⟨bucket, hfind, hexec⟩
  split at hexec
  · rename_i lease bucket' hcancel
    have hkey : (leaseKey addresses origin).reservationId H.toLedgerHash =
        H.reservationIdFor (leaseKey addresses origin).identity
          (H.idempotency (Permit2Prog.cancelInput r at').idempotencyKey) := by
      show H.reservationIdFor _ (H.idempotency (productionUsageKey origin.operationId)) =
        H.reservationIdFor _ (H.idempotency (productionUsageKey r.operationId))
      rw [hgood.frozen.operationId]
    rcases cancelUnsubmitted_row hcancel with ⟨hstate, hnext, hbound⟩
    rw [← hkey] at hnext hbound
    refine Or.inr ⟨lease, hexec.2.trans hnext, ?_, fun _ => Or.inl hreleasing, ?_⟩
    · rcases hbound with ⟨_, hplain, hbinding⟩ | ⟨current, hcurrent, hbinding, hplain⟩
      · refine ⟨hplain, ?_⟩
        rw [← hgood.frozen.ownLease, ownLease_iff, hbinding, ← hgood.reservationId]
        rfl
      · exact (hc.own current (hfind.symm.trans hcurrent)).rebound hbinding hplain
    · rw [hstate]
      exact fun h => (nomatch h)
  · exact Or.inl hexec.2

/-! ## Sections -/

variable {Q : α → Permit2State H π → Prop}

-- A section that starts from what a call holds on to, and hands on such facts.
theorem does_withLocks {x : Permit2Prog H α} (hP : Steady origin p false P)
    (hQ : ∀ a, Steady origin p true (Q a)) (hx : Does addresses origin p true P x Q) :
    Does addresses origin p false P (Permit2Prog.withLocks x) Q :=
  Meets.withLock hP hQ (fun _ => Stable.const) (fun _ _ => trivial) hx

theorem does_lift {ρ : Type} {result : Result ρ} {f : ρ → Permit2Prog H α}
    (hP : Steady origin p l P) (hf : ∀ a, result = .ok a → Does addresses origin p l P (f a) Q) :
    Does addresses origin p l P (Prog.bind (Permit2Prog.lift result) f) Q :=
  Leaves.first (Leaves.lift fun _ h => h) hP hf

theorem does_refuse {result : Result α} (h : ∀ a, result ≠ .ok a) :
    Does addresses origin p l P (Permit2Prog.lift result) Q :=
  Meets.ofExcept (fun a _ ha => (h a ha).elim) fun _ _ _ _ _ => trivial

theorem held_ne {a : α} : (Permit2Prog.held : Result α) ≠ .ok a := blocked_ne_ok

/-! ## Preparation -/

theorem does_assertCurrentOwner (hP : Steady origin p false P) :
    Does addresses origin p false P (Permit2Prog.assertCurrentOwner (H := H)) fun r c => P c ∧ Seen origin r c := by
  unfold Permit2Prog.assertCurrentOwner
  apply Meets.bind (does_findOperation hP)
  intro record
  apply Meets.pre (N := P) _ fun c _ h => h.1
  apply Leaves.first leaves_nowSecond hP
  intro at' _
  apply Leaves.first leaves_usage hP
  intro usage _
  apply does_lift hP
  intro used _
  apply does_withLocks hP fun r => hP.held.and steady_seen
  apply Meets.bind (does_findOperation hP.held)
  intro current
  have hfound : Steady (H := H) origin p true fun c => P c ∧ Found origin true current c := hP.held.and steady_found
  apply does_lift hfound
  intro _ _
  apply Leaves.first leaves_ask hfound
  exact fun _ _ => Meets.ret fun c _ h => ⟨h.1, h.2.1⟩

-- A preparation state over the record that was read.
theorem does_persistOver {Q : Permit2ProductionRecord → Permit2State H π → Prop}
    (hfrozen : Frozen current next) (hstate : next.state.exposed = false) (hat : next.updatedAt = at')
    (hQ : ∀ c, Seen origin next c → Q next c) :
    Does addresses origin p true (fun c => Found origin true current c ∧ at' ≤ c.clock)
      (Permit2Prog.persistSealed (H := H) next) Q := by
  apply Meets.conseq (does_persistSealed hfrozen hstate)
  · intro c _ h
    refine ⟨h.1.2 rfl, ?_⟩
    rw [hat]
    exact h.2
  · rintro r c _ ⟨rfl, hrecord, hgood⟩
    refine hQ c ⟨hgood, ?_⟩
    rw [hrecord]
    exact Grows.refl _
  · exact fun _ _ _ h => h

-- A record whose release has begun or that has ended.
theorem does_beginRelease : Does (H := H) addresses origin p true (fun _ => True) Permit2Prog.beginRelease
    fun r c => Seen origin r c ∧ (r.terminal = false → r.state.releasing = true) := by
  unfold Permit2Prog.beginRelease
  apply does_found
  intro current
  apply Meets.bind (does_nowSecond steady_found)
  intro at'
  split
  · rename_i hterminal
    apply Meets.ret
    intro c _ h
    refine ⟨h.1.1, fun hopen => ?_⟩
    rw [hopen] at hterminal
    cases hterminal
  · apply does_lift (steady_found.and steady_since)
    intro _ _
    exact does_persistOver ⟨rfl, rfl, rfl, rfl, rfl, rfl, rfl⟩ rfl rfl fun _ h => ⟨h, fun _ => rfl⟩

theorem does_endRelease : Does (H := H) addresses origin p true (fun _ => True) (Permit2Prog.endRelease record)
    fun _ _ => True := by
  unfold Permit2Prog.endRelease
  apply does_found
  intro current
  apply does_lift steady_found
  intro _ _
  apply Meets.bind (does_nowSecond steady_found)
  intro at'
  exact does_persistOver ⟨rfl, rfl, rfl, rfl, rfl, rfl, rfl⟩ rfl rfl fun _ _ => trivial

theorem does_releaseExpired : Does (H := H) addresses origin p false (fun _ => True) Permit2Prog.releaseExpired
    fun _ _ => True := by
  unfold Permit2Prog.releaseExpired
  apply Meets.bind (does_findOperation steady_true)
  intro _
  apply Meets.forget
  apply Meets.bind (does_withLocks steady_true (fun r => steady_seen.and Stable.const) does_beginRelease)
  intro record
  split
  · exact Meets.ret fun _ _ _ => trivial
  · rename_i hopen
    apply Meets.pre (N := fun c => Good H origin record ∧ c.record.state.releasing = true)
    · apply Meets.assume
      intro hgood
      apply Leaves.first leaves_nowSecond steady_releasing
      intro at' _
      apply Meets.bind (does_cancelLease hgood)
      intro _
      apply Meets.forget
      exact does_withLocks steady_true (fun _ => Stable.const) does_endRelease
    · intro c _ h
      exact ⟨h.1.1, h.1.2.releasing (h.2 (by simpa using hopen))⟩

theorem does_beginReserve : Does (H := H) addresses origin p true (fun _ => True) (Permit2Prog.beginReserve record)
    fun r c => Seen origin r c := by
  unfold Permit2Prog.beginReserve
  apply does_found
  intro current
  apply does_lift steady_found
  intro _ _
  apply Meets.bind (does_nowSecond steady_found)
  intro at'
  exact does_persistOver ⟨rfl, rfl, rfl, rfl, rfl, rfl, rfl⟩ rfl rfl fun _ h => h

theorem does_endReserve {lease : Lease H} : Does (H := H) addresses origin p true (fun _ => True)
    (Permit2Prog.endReserve lease) fun _ _ => True := by
  unfold Permit2Prog.endReserve
  apply does_found
  intro current
  split
  · exact Meets.ret fun _ _ _ => trivial
  · apply does_lift steady_found
    intro _ _
    apply Meets.bind (does_nowSecond steady_found)
    intro at'
    exact does_persistOver ⟨rfl, rfl, rfl, rfl, rfl, rfl, rfl⟩ rfl rfl fun _ _ => trivial

theorem does_reserve : Does (H := H) addresses origin p false (fun _ => True) Permit2Prog.reserve
    fun _ _ => True := by
  unfold Permit2Prog.reserve
  apply Meets.bind (does_assertCurrentOwner steady_true)
  intro record
  apply Meets.forget
  apply does_lift steady_true
  intro _ _
  split
  · exact Meets.ret fun _ _ _ => trivial
  apply Meets.bind (does_withLocks steady_true (fun _ => steady_seen) does_beginReserve)
  intro record
  apply Leaves.first leaves_nowSecond steady_seen
  intro at' _
  apply Leaves.first leaves_ask steady_seen
  intro active _
  cases active with
  | none => exact does_refuse fun _ => blocked_ne_ok
  | some active =>
    apply does_lift steady_seen
    intro _ hsame
    have hpolicy := (blocked_guard.mp hsame).1
    simp only [not_or, not_not] at hpolicy
    apply Leaves.first leaves_nowSecond steady_seen
    intro at'' _
    apply Meets.pre (N := fun _ => Good H origin record ∧ True) _ fun c _ h => ⟨h.1, trivial⟩
    apply Meets.assume
    intro hgood
    apply Leaves.first (leaves_reserveLease hgood hpolicy.1 hpolicy.2.1) steady_true
    intro lease _
    apply Meets.bind (does_findOperation steady_true)
    intro latest
    apply Meets.forget
    split
    · exact does_releaseExpired
    · apply Meets.bind (does_assertCurrentOwner steady_true)
      intro _
      apply Meets.forget
      exact does_withLocks steady_true (fun _ => Stable.const) does_endReserve

/-! ## Exposure -/

theorem does_save {j journal : Permit2ExposureJournal} {state : Permit2ProductionState} {terminal : Bool}
    {wrote : Prop} (hsome : current.exposureJournal = some j) :
    Does (H := H) addresses origin p true (fun c => Found origin true current c ∧ Due p wrote c)
      (Permit2Prog.save current journal state terminal) fun next c =>
        Seen origin next c ∧ next.exposureJournal = some journal ∧ Due p wrote c ∧
          (j.request = none → journal.request.isSome → c.requester = some p) := by
  unfold Permit2Prog.save
  apply Meets.bind (does_now (steady_found.and steady_due))
  intro at'
  let next : Permit2ProductionRecord := { current with
    exposureJournal := some journal, state := state, terminal := terminal, updatedAt := at' }
  have hpre : Steady (H := H) origin p true fun c =>
      (Found origin true current c ∧ Due p wrote c) ∧ at' ≤ c.clock :=
    (steady_found.and steady_due).and steady_since
  apply Leaves.first (Leaves.lift (Φ := fun sealed' => sealed' = next ∧ validatePermit2ProductionRecord H next = .ok ())
    ?_) hpre
  · rintro _ ⟨rfl, hvalid⟩
    have hfrozen : Frozen current next := ⟨rfl, rfl, rfl, rfl, rfl, rfl, rfl⟩
    have hjournal : next.exposureJournal = some journal := rfl
    apply Meets.pre (N := fun c => Good H origin current ∧
      (c.record = current ∧ next.updatedAt ≤ c.clock ∧ Due p wrote c))
    · apply Meets.assume
      intro hgood
      apply Meets.bind (does_persistExposureLocked hfrozen hjournal)
      intro _
      apply Meets.ret
      rintro c _ ⟨hnext, hrecord, hdue, -, hrequest⟩
      refine ⟨⟨hnext, by rw [hrecord]; exact Grows.refl _⟩, rfl, hdue (by rw [hsome]; rfl), ?_⟩
      intro hnone hasked
      apply hrequest
      · rw [Permit2ProductionRecord.request, hsome, Option.bind_some, hnone]
        rfl
      · exact hasked
    · exact fun c _ h => ⟨h.1.1.1.1, h.1.1.2 rfl, h.2, h.1.2⟩
  · intro sealed' h
    rcases bind_ok.mp h with ⟨_, hvalid, hsame⟩
    cases hsame
    exact ⟨rfl, hvalid⟩

theorem does_markConfirmed {bindingHash : String} {wrote : Prop} :
    Does (H := H) addresses origin p true (Due p wrote) (Permit2Prog.markConfirmed bindingHash)
      fun _ => Due p wrote := by
  unfold Permit2Prog.markConfirmed
  apply Meets.bind (does_findOperation steady_due)
  intro current
  split
  · exact does_refuse fun _ => held_ne
  rename_i j hj
  split
  · exact does_refuse fun _ => held_ne
  split
  · exact Meets.ret fun c _ h => h.1
  · exact Meets.conseq (does_save hj) (fun c _ h => ⟨h.2, h.1⟩) (fun _ c _ h => h.2.2.1) fun _ _ _ h => h

theorem does_confirmHold {wrote : Prop} :
    Does (H := H) addresses origin p false (Due p wrote) Permit2Prog.confirmHold fun _ => Due p wrote := by
  unfold Permit2Prog.confirmHold
  apply Meets.bind (does_findOperation steady_due)
  intro r
  split
  · exact does_refuse fun _ => held_ne
  rename_i j hj
  split
  · exact Meets.ret fun c _ h => h.1
  have hmark : Does (H := H) addresses origin p false (Due p wrote)
      (Permit2Prog.withLocks (Permit2Prog.markConfirmed j.bindingHash)) fun _ => Due p wrote :=
    does_withLocks steady_due (fun _ => steady_due) does_markConfirmed
  apply Meets.pre (N := fun c => Good H origin r ∧ Due p wrote c) _ fun c _ h => ⟨h.2.1.1, h.1⟩
  apply Meets.assume
  intro hgood
  apply Leaves.first leaves_leaseOf steady_due
  intro lease _
  split
  · apply Leaves.first leaves_now steady_due
    intro at' _
    apply Meets.bind (does_moveLease hgood steady_due ?_ ?_)
    · exact fun _ => hmark
    · intro _ _ h
      cases h
    · intro _ _ h
      cases h
  · split
    · exact hmark
    · exact does_refuse fun _ => held_ne

theorem does_admitFirstRisk : Does (H := H) addresses origin p false (fun _ => True) Permit2Prog.admitFirstRisk
    fun _ _ => True := by
  unfold Permit2Prog.admitFirstRisk
  apply Meets.handle (F := fun _ _ => True)
  · apply Meets.bind (does_assertCurrentOwner steady_true)
    intro r
    apply Meets.forget
    apply Leaves.first leaves_usage steady_true
    intro usage _
    apply Leaves.first leaves_leaseOf steady_true
    intro lease _
    apply Leaves.first leaves_refuseIf steady_true
    exact fun _ _ => Meets.ret fun _ _ _ => trivial
  · intro error
    apply Meets.bind (does_findOperation steady_true)
    intro r
    split
    · exact Meets.ret fun _ _ _ => trivial
    · exact Meets.fail fun _ _ _ => trivial

-- The write of the first exposure: its process is owed the continuation.
theorem does_persistRisk (hnone : current.exposureJournal.isSome = false) (hnext : next = { current with
      state := .exposureUnknown, exposureAt := some at', updatedAt := at',
      exposureJournal := some (Permit2Prog.firstJournal (H := H) current) }) :
    Does (H := H) addresses origin p true (fun c => Found origin true current c ∧ at' ≤ c.clock)
      (Permit2Prog.persistExposureLocked next) fun _ c => c.exposer = some p := by
  have hfrozen : Frozen current next := by
    rw [hnext]
    exact ⟨rfl, rfl, rfl, rfl, rfl, rfl, rfl⟩
  have hjournal : next.exposureJournal = some (Permit2Prog.firstJournal (H := H) current) := by rw [hnext]
  have hupdated : next.updatedAt = at' := by rw [hnext]
  apply Meets.conseq (does_persistExposureLocked hfrozen hjournal)
  · intro c _ h
    refine ⟨h.1.2 rfl, ?_, due_nothing c⟩
    rw [hupdated]
    exact h.2
  · rintro _ c _ ⟨_, _, -, hexposer, -⟩
    apply hexposer
    · rw [← Option.not_isSome, hnone]
      rfl
    · rw [hjournal]
      rfl
  · exact fun _ _ _ h => h

theorem does_writeRisk {admitted : Permit2Prog.FirstRisk H} {approval : Option Permit2ForegroundApproval} :
    Does (H := H) addresses origin p true (fun _ => True) (Permit2Prog.writeRisk admitted approval)
      fun risk c => Due p risk.isSome c := by
  unfold Permit2Prog.writeRisk
  apply does_found
  intro current
  split
  · exact Meets.ret fun _ _ _ h => Bool.noConfusion h
  rename_i hnone
  rw [Bool.not_eq_true] at hnone
  apply Leaves.first leaves_refuseIf steady_found
  intro _ _
  apply Meets.bind (does_now steady_found)
  intro at'
  have hpre : Steady (H := H) origin p true fun c => Found origin true current c ∧ at' ≤ c.clock :=
    steady_found.and steady_since
  apply Leaves.first leaves_refuseIf hpre
  intro _ _
  apply Leaves.first leaves_ask hpre
  intro _ _
  apply does_lift hpre
  intro next hsealed
  have hnext : next = { current with
      state := .exposureUnknown, exposureAt := some at', updatedAt := at',
      exposureJournal := some (Permit2Prog.firstJournal (H := H) current) } := by
    rcases bind_ok.mp hsealed with ⟨_, _, hsame⟩
    cases hsame
    rfl
  cases approval with
  | none =>
    apply Meets.bind (does_persistRisk hnone hnext)
    exact fun _ => Meets.ret fun _ _ _ h => Bool.noConfusion h
  | some approval =>
    apply Leaves.first leaves_now hpre
    intro _ _
    apply Leaves.first leaves_approvalCurrent hpre
    intro _ _
    apply Meets.bind (does_persistRisk hnone hnext)
    exact fun _ => Meets.ret fun c _ h _ => h

theorem does_markRisk {approval : Option Permit2ForegroundApproval} :
    Does (H := H) addresses origin p false (fun _ => True) (Permit2Prog.markRisk approval)
      fun result c => Due p result.2.isSome c := by
  -- A replay confirms the hold and is owed nothing.
  have hreplay : Does (H := H) addresses origin p false (fun _ => True)
      (Permit2Prog.confirmHold.bind fun record => Prog.ret (record, none))
      fun (result : Permit2ProductionRecord × Option Permit2ProductionRecord) c => Due p result.2.isSome c := by
    apply Meets.bind (Meets.pre does_confirmHold fun c _ _ => due_nothing c)
    exact fun _ => Meets.ret fun _ _ _ h => Bool.noConfusion h
  unfold Permit2Prog.markRisk
  apply Meets.bind (does_findOperation steady_true)
  intro first
  apply Meets.forget
  split
  · exact hreplay
  apply Meets.bind does_admitFirstRisk
  intro admitted
  cases admitted with
  | none => exact hreplay
  | some admitted =>
    apply Meets.bind (does_withLocks steady_true (fun _ => steady_due) does_writeRisk)
    intro risk
    apply Meets.bind does_confirmHold
    exact fun _ => Meets.ret fun _ _ h => h

theorem does_markSignatureRisk :
    Does (H := H) addresses origin p false (fun _ => True) Permit2Prog.markSignatureRisk fun _ _ => True := by
  unfold Permit2Prog.markSignatureRisk
  apply Meets.bind does_markRisk
  exact fun _ => Meets.ret fun _ _ _ => trivial

theorem leaves_continueSigning {approval : Permit2ForegroundApproval} :
    Leaves (H := H) addresses origin p true (Permit2Prog.continueSigning approval record) fun _ => True := by
  intro P hP
  unfold Permit2Prog.continueSigning
  apply Meets.bind (does_findOperation hP)
  intro current
  apply Meets.pre (N := P) _ fun c _ h => h.1
  apply does_lift hP
  intro _ _
  apply Leaves.first leaves_refuseIf hP
  intro _ _
  apply Leaves.first leaves_leaseOf hP
  intro lease _
  apply does_lift hP
  intro lease _
  apply Leaves.first leaves_now hP
  intro at' _
  apply Leaves.first leaves_approvalCurrent hP
  exact fun _ _ => Meets.ret fun _ _ h => ⟨h, trivial⟩

theorem does_markApprovedSignatureRisk {approval : Permit2ForegroundApproval} :
    Does (H := H) addresses origin p false (fun _ => True) (Permit2Prog.markApprovedSignatureRisk approval)
      fun _ _ => True := by
  unfold Permit2Prog.markApprovedSignatureRisk
  apply Meets.bind does_markRisk
  rintro ⟨record, risk⟩
  cases risk with
  | none => exact Meets.ret fun _ _ _ => trivial
  | some risk =>
    apply Meets.bind (M := fun _ => Due p True)
    · apply does_withLocks steady_due fun _ => steady_due
      apply Meets.conseq (leaves_continueSigning _ steady_due) (fun c _ h _ => h rfl) (fun _ c _ h => h.1)
      exact fun _ _ _ h => h
    · intro continuation
      apply Meets.act steady_due
      intro c _ c' hc hdue hexec
      have hsame : c' = { c with signings := c.signings + 1, exposer := dropped p c.exposer } := hexec
      subst hsame
      refine ⟨⟨hc.receiveSigning (hdue trivial), fun q hq => ?_, fun _ => rfl⟩, trivial⟩
      exact ⟨Grows.refl c.record, le_refl c.clock, fun h => dropped_ne hq h, id⟩

theorem does_storeSigned {signed : Permit2ProductionSigned} :
    Does (H := H) addresses origin p false (fun _ => True) (Permit2Prog.storeSigned signed) fun _ _ => True := by
  have hsave : Does (H := H) addresses origin p true (fun _ => True) (Permit2Prog.saveSigned signed)
      fun _ _ => True := by
    unfold Permit2Prog.saveSigned
    apply Meets.bind (does_findOperation steady_true)
    intro current
    split
    · exact does_refuse fun _ => held_ne
    rename_i j hj
    split
    · exact does_refuse fun _ => held_ne
    split
    · exact Meets.ofExcept (fun _ _ _ _ _ => trivial) fun _ _ _ _ _ => trivial
    · apply Meets.bind (Meets.pre (does_save hj) fun c _ h => ⟨h.2, due_nothing c⟩)
      exact fun _ => Meets.ret fun _ _ _ => trivial
  unfold Permit2Prog.storeSigned
  apply Meets.bind (does_findOperation steady_true)
  intro r
  apply Meets.forget
  apply does_lift steady_true
  exact fun _ _ => does_withLocks steady_true (fun _ => Stable.const) hsave

theorem does_markRequestPending :
    Does (H := H) addresses origin p false (fun _ => True) Permit2Prog.markRequestPending fun _ _ => True := by
  have hsave : Does (H := H) addresses origin p true (fun _ => True) Permit2Prog.saveRequest fun _ _ => True := by
    unfold Permit2Prog.saveRequest
    apply Meets.bind (does_findOperation steady_true)
    intro current
    split
    · exact does_refuse fun _ => held_ne
    rename_i j hj
    split
    · exact does_refuse fun _ => held_ne
    split
    · exact does_refuse fun _ => held_ne
    split
    · exact Meets.ret fun _ _ _ => trivial
    · apply Meets.bind (Meets.pre (does_save hj) fun c _ h => ⟨h.2, due_nothing c⟩)
      exact fun _ => Meets.ret fun _ _ _ => trivial
  unfold Permit2Prog.markRequestPending
  apply Meets.bind (does_findOperation steady_true)
  intro r
  apply Meets.forget
  exact does_withLocks steady_true (fun _ => Stable.const) hsave

variable {signedOrigin : Permit2SignedOrigin}

theorem leaves_checkOrigin :
    Leaves (H := H) addresses origin p l (Permit2Prog.checkOrigin signedOrigin r) fun _ => True := by
  unfold Permit2Prog.checkOrigin
  apply Leaves.bind (Leaves.lift fun _ _ => trivial)
  intro _ _
  apply Leaves.bind leaves_leaseOf
  intro lease _
  apply Leaves.bind (Leaves.lift (Φ := fun _ => True) fun _ _ => trivial)
  intro lease _
  apply Leaves.bind (Leaves.lift (Φ := fun _ => True) fun _ _ => trivial)
  intro _ _
  apply Leaves.bind leaves_now
  exact fun _ _ => leaves_approvalCurrent

/-- The request marker is due to the process that wrote it. -/
def Asked (p : π) (wrote : Prop) (c : Permit2State H π) : Prop := wrote → c.requester = some p

omit [DecidableEq π] in
theorem steady_asked {wrote : Prop} : Steady (H := H) origin p l (Asked p wrote) :=
  fun _ _ _ _ hrely _ h hwrote => hrely.requester (h hwrote)

theorem does_saveFirstRequest :
    Does (H := H) addresses origin p true (fun _ => True) (Permit2Prog.saveFirstRequest signedOrigin)
      fun written c => Asked p written.isSome c := by
  unfold Permit2Prog.saveFirstRequest
  apply does_found
  intro current
  apply Leaves.first leaves_checkOrigin steady_found
  intro _ _
  split
  · exact does_refuse fun _ => held_ne
  rename_i j hj
  split
  · exact Meets.ret fun _ _ _ h => Bool.noConfusion h
  rename_i hnone
  split
  · exact does_refuse fun _ => held_ne
  apply Meets.bind (M := fun _ => Asked p True)
  · apply Meets.conseq (does_save hj) (fun c _ h => ⟨h, due_nothing c⟩)
    · exact fun _ c _ h _ => h.2.2.2 (by simpa using hnone) rfl
    · exact fun _ _ _ h => h
  · intro next
    apply Leaves.first leaves_now steady_asked
    intro at' _
    apply Leaves.first leaves_approvalCurrent steady_asked
    exact fun _ _ => Meets.ret fun c _ h _ => h trivial

theorem does_markFirstRequest :
    Does (H := H) addresses origin p false (fun _ => True) (Permit2Prog.markFirstRequest signedOrigin)
      fun _ _ => True := by
  unfold Permit2Prog.markFirstRequest
  apply Leaves.first leaves_refuseIf steady_true
  intro _ _
  apply Meets.bind (does_findOperation steady_true)
  intro r
  apply Meets.forget
  apply Leaves.first leaves_checkOrigin steady_true
  intro _ _
  apply Meets.bind (does_withLocks steady_true (fun _ => steady_asked) does_saveFirstRequest)
  intro written
  cases written with
  | none => exact Meets.ret fun _ _ _ => trivial
  | some next =>
    apply Meets.act steady_asked
    intro c _ c' hc hdue hexec
    have hsame : c' = { c with firsts := c.firsts + 1, requester := dropped p c.requester } := hexec
    subst hsame
    refine ⟨⟨hc.receiveFirst (hdue rfl), fun q hq => ?_, fun _ => rfl⟩, trivial⟩
    exact ⟨Grows.refl c.record, le_refl c.clock, id, fun h => dropped_ne hq h⟩

/-! ## Settlement -/

/-- The saved intent of a record has a given digest. -/
def IntentDigest (digest : String) (r : Permit2ProductionRecord) : Prop :=
  ∃ i, r.intent = some i ∧ i.outcomeDigest = digest

variable {intent : Permit2TerminalIntent}

theorem does_saveIntent {signed : Option Permit2ProductionSigned} :
    Does (H := H) addresses origin p true (fun _ => True) (Permit2Prog.saveIntent signed intent)
      fun r c => Seen origin r c ∧ IntentDigest intent.outcomeDigest r := by
  unfold Permit2Prog.saveIntent
  apply does_found
  intro current
  split
  · exact does_refuse fun _ => held_ne
  rename_i j hj
  split
  · exact does_refuse fun _ => held_ne
  split
  · rename_i saved hsaved
    split
    · exact does_refuse fun _ => held_ne
    · rename_i hdigest
      apply Meets.ret
      intro c _ h
      refine ⟨h.1, saved, ?_, not_not.mp hdigest⟩
      rw [Permit2ProductionRecord.intent, hj, Option.bind_some, hsaved]
  · apply Meets.conseq (does_save hj) (fun c _ h => ⟨h, due_nothing c⟩)
    · rintro next c _ ⟨hseen, hjournal, -⟩
      refine ⟨hseen, intent, ?_, rfl⟩
      rw [Permit2ProductionRecord.intent, hjournal, Option.bind_some]
    · exact fun _ _ _ h => h

theorem does_endTerminal :
    Does (H := H) addresses origin p true (fun _ => True) (Permit2Prog.endTerminal intent) fun _ _ => True := by
  unfold Permit2Prog.endTerminal
  apply Meets.bind (does_findOperation steady_true)
  intro current
  split
  · exact does_refuse fun _ => held_ne
  rename_i j hj
  split
  · exact does_refuse fun _ => held_ne
  split
  · exact Meets.ret fun _ _ _ => trivial
  · apply Meets.conseq (does_save hj) (fun c _ h => ⟨h.2, due_nothing c⟩)
    · exact fun _ _ _ _ => trivial
    · exact fun _ _ _ h => h

theorem does_reconcileTerminal :
    Does (H := H) addresses origin p false (fun _ => True) Permit2Prog.reconcileTerminal fun _ _ => True := by
  unfold Permit2Prog.reconcileTerminal
  apply Meets.bind (does_findOperation steady_true)
  intro r
  apply Meets.forget
  split
  · exact Meets.ret fun _ _ _ => trivial
  split
  · exact Meets.ret fun _ _ _ => trivial
  apply Leaves.first leaves_leaseOf steady_true
  intro lease _
  split
  · exact Meets.ret fun _ _ _ => trivial
  split
  · exact does_refuse fun _ => held_ne
  · exact does_withLocks steady_true (fun _ => Stable.const) does_endTerminal

-- The ledger is moved for an outcome that is saved.
theorem does_settleLease {pending : Permit2ProductionRecord}
    (hgood : Good H origin pending) (hend : intent.outcome = .settled ∨ intent.outcome = .expiredUnused) :
    Does (H := H) addresses origin p false (fun c => Intends intent.outcome c.record)
      (Permit2Prog.settleLease pending intent) fun _ _ => True := by
  have hreconcile : Does (H := H) addresses origin p false (fun c => Intends intent.outcome c.record)
      Permit2Prog.reconcileTerminal fun _ _ => True :=
    Meets.pre does_reconcileTerminal fun _ _ _ => trivial
  unfold Permit2Prog.settleLease
  apply Leaves.first leaves_leaseOf steady_intends
  intro lease _
  split
  · exact hreconcile
  · apply Leaves.first leaves_now steady_intends
    intro at' _
    apply Meets.bind (does_moveLease hgood steady_intends ?_ ?_)
    · exact fun _ => hreconcile
    · intro c hintends hstate
      right
      rcases hend with hsettled | hexpired
      · simp [Permit2Prog.outcomeState, hsettled] at hstate
      · rw [hexpired] at hintends
        exact hintends
    · intro c hintends hstate
      rcases hend with hsettled | hexpired
      · rw [hsettled] at hintends
        exact hintends
      · simp [Permit2Prog.outcomeState, hexpired] at hstate

/-- Digests that tell the two outcomes apart. -/
def OutcomesApart (H : Permit2Hashes) : Prop :=
  ∀ a b : Permit2TerminalPreimage, H.terminal a = H.terminal b → a.outcome = b.outcome

-- What a checked observation says is one of the two outcomes, and is in the digest.
theorem terminalIntent_ok {mode : Permit2ObservationMode} {checked : Permit2ObservationProjection}
    (h : Permit2Prog.terminalIntent (H := H) r mode checked = .ok intent) :
    (intent.outcome = .settled ∨ intent.outcome = .expiredUnused) ∧
      intent.outcomeDigest = productionTerminalDigest H r intent.toPermit2TerminalBody := by
  unfold Permit2Prog.terminalIntent at h
  split at h
  · have hok := blocked_guard.mp h
    rcases hok with ⟨hchecked, hsame⟩
    cases hsame
    rw [not_or, not_or, not_not, not_not] at hchecked
    refine ⟨?_, rfl⟩
    rw [hchecked.2.2]
    cases mode
    · exact Or.inl rfl
    · exact Or.inr rfl
  · exact (blocked_ne_ok h).elim

theorem does_finalize (hapart : OutcomesApart H) {proof : Permit2ObservationProof} {mode : Permit2ObservationMode} :
    Does (H := H) addresses origin p false (fun _ => True) (Permit2Prog.finalize proof mode) fun _ _ => True := by
  unfold Permit2Prog.finalize
  apply Meets.bind (does_findOperation steady_true)
  intro r
  apply Meets.forget
  split
  · exact does_refuse fun _ => held_ne
  rename_i j hj
  split
  · exact does_refuse fun _ => held_ne
  apply Meets.bind (M := fun _ _ => True)
  · unfold Permit2Prog.consumePermit2ObservationProof
    apply Leaves.first leaves_ask steady_true
    exact fun _ _ => Meets.ofExcept (fun _ _ _ _ _ => trivial) fun _ _ _ _ _ => trivial
  intro checked
  apply does_lift steady_true
  intro intent hintent
  rcases terminalIntent_ok hintent with ⟨hend, hdigest⟩
  apply Meets.bind (does_withLocks steady_true (fun _ => steady_seen.and Stable.const) does_saveIntent)
  intro pending
  apply Meets.pre (N := fun c => Good H origin pending ∧ Intends intent.outcome c.record)
  · apply Meets.assume
    exact fun hgood => does_settleLease hgood hend
  · rintro c _ ⟨⟨hgood, hgrows⟩, saved, hsaved, hsame⟩
    refine ⟨hgood, saved, hgrows.intent hsaved, ?_⟩
    -- Equal digests name one outcome.
    have hsavedDigest := (hgood.intent_digest hsaved).1
    exact hapart _ _ (hsavedDigest.symm.trans (hsame.trans hdigest))

end PaymentNode.Permit2
