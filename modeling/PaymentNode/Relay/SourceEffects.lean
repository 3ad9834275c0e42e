import PaymentNode.Relay.SourceState

/-!
# SourceEffects — the attempt of one effect, specified

Each program of `runEffect` is specified under the invariant: what it leaves of the journal, and which outcomes
the call has read.  `Calm` says that it has read none, `Recorded` that the journal on disk names every outcome
it read.
-/

namespace PaymentNode.RelaySource

open Solo RelayEffects

variable {H : LedgerHash} {w : RelaySetting} {s : Shared H} {role : RelayEffectRole} {full : Prop}
  {j j' : RelayEffectJournal} {next : RelayEffect} {event : RelayEffectEvent} {e : Event}
  {log l : List Event} {P : Shared H → Prop} {E : RelayError → Shared H → Prop}

/-! ## What a call has read -/

/-- The state a final outcome asks of the hold. -/
def owes : Event → Option AssetUsageState
  | .observed .approval .failed => some .failedConfirmedRevert
  | .observed .deposit .confirmed => some .finalized
  | .observed .deposit .failed => some .failedConfirmedRevert
  | .neverLands .approval => some .failedBeforeEffect
  | .neverLands .deposit => some .failedConfirmedRevert
  | _ => none

/-- Since the log was `log`, no final outcome was read. -/
def Calm (log l : List Event) : Prop := ∃ added, l = added ++ log ∧ ∀ e ∈ added, owes e = none

def target (j : RelayEffectJournal) : Option AssetUsageState :=
  usageTarget (j.effects .approval).phase (j.effects .deposit).phase

/-- Every outcome read since then is the journal's. -/
def Recorded (log : List Event) (j : RelayEffectJournal) (l : List Event) : Prop :=
  ∃ added, l = added ++ log ∧ ∀ e ∈ added, ∀ state, owes e = some state → target j = some state

/-- Every outcome read since then is the hold's. -/
def Settled (log : List Event) (row : Option (Reservation H)) (l : List Event) : Prop :=
  ∃ added, l = added ++ log ∧ ∀ e ∈ added, ∀ state, owes e = some state → stateOf row = some state

theorem calm_refl : Calm log log := ⟨[], rfl, fun _ h => absurd h List.not_mem_nil⟩

theorem Calm.add (h : Calm log l) (he : owes e = none) : Calm log (e :: l) := by
  rcases h with ⟨added, rfl, howes⟩
  refine ⟨e :: added, rfl, ?_⟩
  intro e' he'
  rcases List.mem_cons.mp he' with rfl | he'
  · exact he
  · exact howes e' he'

theorem Calm.recorded (h : Calm log l) : Recorded log j l := by
  rcases h with ⟨added, hl, howes⟩
  refine ⟨added, hl, ?_⟩
  intro e he state hstate
  rw [howes e he] at hstate
  cases hstate

variable {row : Option (Reservation H)}

theorem Calm.settled (h : Calm log l) : Settled log row l := by
  rcases h with ⟨added, hl, howes⟩
  refine ⟨added, hl, ?_⟩
  intro e he state hstate
  rw [howes e he] at hstate
  cases hstate

variable {state : AssetUsageState}

theorem Calm.outcome (h : Calm log l) (howes : owes e = some state)
    (htarget : target j = some state) : Recorded log j (e :: l) := by
  rcases h with ⟨added, rfl, hnone⟩
  refine ⟨e :: added, rfl, ?_⟩
  intro e' he' state' hstate'
  rcases List.mem_cons.mp he' with rfl | he'
  · rw [howes] at hstate'
    cases hstate'
    exact htarget
  · rw [hnone e' he'] at hstate'
    cases hstate'

theorem Recorded.settled (h : Recorded log j l)
    (hrow : ∀ state, target j = some state → stateOf row = some state) : Settled log row l := by
  rcases h with ⟨added, hl, hrecorded⟩
  exact ⟨added, hl, fun e he state hstate => hrow state (hrecorded e he state hstate)⟩

theorem owes_terminal (h : owes e = some state) : state.isTerminal = true := by
  cases e with
  | observed role outcome =>
    cases role <;> cases outcome <;> simp only [owes] at h <;> cases h <;> rfl
  | neverLands role => cases role <;> cases h <;> rfl
  | _ => cases h

-- A hold that is still open settles nothing.
theorem Settled.calm (h : Settled log row l) (hopen : stateOf row = some .reserved) : Calm log l := by
  rcases h with ⟨added, hl, hsettled⟩
  refine ⟨added, hl, ?_⟩
  intro e he
  cases howes : owes e with
  | none => rfl
  | some state =>
    have hstate := hsettled e he state howes
    rw [hopen] at hstate
    cases hstate
    cases owes_terminal howes

/-- In runs that are followed, nothing final was read yet. -/
def Undecided (full : Prop) (log : List Event) (s : Shared H) : Prop := full → Calm log s.log

/-- The journal in memory is the one on disk. -/
def At (full : Prop) (log : List Event) (j : RelayEffectJournal) (s : Shared H) : Prop :=
  s.journal = some j ∧ (full → Calm log s.log)

/-- The outcome is final for its effect. -/
def Done (role : RelayEffectRole) (j : RelayEffectJournal) : Prop :=
  match role with
  | .approval => (j.effects .approval).phase = .failed ∨ (j.effects .approval).phase = .abandonedUnsent
  | .deposit => RelayEffects.observed (j.effects .deposit).phase = true

/-- What the run of an effect leaves. -/
def Ran (full : Prop) (log : List Event) (role : RelayEffectRole) (j : RelayEffectJournal) (s : Shared H) : Prop :=
  s.journal = some j ∧ (full → Calm log s.log ∨ (Recorded log j s.log ∧ Done role j))

theorem At.ran (h : At full log j s) : Ran full log role j s :=
  ⟨h.1, fun hfull => Or.inl (h.2 hfull)⟩

/-! ## Operations that leave the files alone -/

theorem leaves_refuse {c : Prop} [Decidable c] {error : RelayError} :
    Leaves full w (refuse c error : RelayProg H Unit) fun _ => ¬ c :=
  Silent.ite (fun _ => Silent.fail) fun h => Silent.ret h

theorem leaves_ask (q : RelayAsk) : Leaves full w (ask q : RelayProg H q.Answer) fun _ => True := by
  apply Silent.run
  rintro s t answer - ⟨-, rfl⟩
  exact ⟨rfl, fun _ _ => trivial⟩

theorem leaves_now : Leaves full w (now : RelayProg H Instant) fun _ => True :=
  Silent.perform fun _ _ _ _ h => ⟨h.2, trivial⟩

theorem leaves_marker : Leaves full w (marker : RelayProg H String) fun a => hexHash a :=
  Silent.perform fun _ _ _ _ h => h.2

theorem leaves_loadAdmission :
    Leaves full w (loadAdmission : RelayProg H (Option RelayExecutionAdmission)) fun _ => True := by
  apply Silent.run
  rintro s t answer - ⟨-, rfl, -⟩
  exact ⟨rfl, fun _ _ => trivial⟩

theorem leaves_loadUsage : Leaves full w (loadUsage : RelayProg H (Option (Reservation H))) fun _ => True := by
  apply Silent.perform
  rintro s a t - ⟨-, ⟨-, hrow⟩, ht⟩
  rw [hrow] at ht
  exact ⟨ht, trivial⟩

theorem does_loadUsage : Does full w P (loadUsage : RelayProg H (Option (Reservation H)))
    (fun a s => a = s.row ∧ P s) E := by
  apply Triple.perform
  rintro s a t hs hP ⟨-, ⟨ha, hrow⟩, ht⟩
  rw [hrow] at ht
  have hsame : t = s := ht
  subst hsame
  exact ⟨hs, ha, hP⟩

theorem does_now : Does full w P (now : RelayProg H Instant) (fun _ => P) E := by
  apply Triple.perform
  rintro s a t hs hP ⟨-, rfl⟩
  exact ⟨hs, hP⟩

theorem does_loadJournal : Does full w P (loadJournal : RelayProg H (Option RelayEffectJournal))
    (fun a s => a = s.journal ∧ P s) E := by
  apply Triple.run
  rintro s t answer hs hP ⟨-, rfl, hanswer⟩
  refine ⟨hs, ?_⟩
  have hload : loaded w t.journal = .ok t.journal := by
    cases hjournal : t.journal with
    | none => rfl
    | some j =>
      have hvalid := validate_ok.mpr (hs.kept.valid j hjournal)
      simp only [loaded, hvalid]
      rfl
  rw [hload] at hanswer
  rw [hanswer]
  exact ⟨rfl, hP⟩

theorem loadedSlot_ok {slot : Option DirectEffectMaterial} {signed : RelaySignedEffect}
    (h : loadedSlot w role slot = .ok (some signed)) :
    ∃ m, slot = some m ∧ signed = ⟨m.rawTransaction, m.transactionHash⟩ := by
  cases slot with
  | none => cases h
  | some m =>
    unfold loadedSlot at h
    dsimp only at h
    split at h
    · cases h
    · cases h
      exact ⟨m, rfl, rfl⟩

theorem does_loadSlot (hE : ∀ e s, P s → E e s) :
    Does full w P (loadSlot role : RelayProg H (Option RelaySignedEffect))
      (fun a s => (∀ signed, a = some signed → ∃ m, s.slots role = some m ∧
        signed = ⟨m.rawTransaction, m.transactionHash⟩) ∧ P s) E := by
  apply Triple.run
  rintro s t answer hs hP ⟨-, rfl, hanswer⟩
  refine ⟨hs, ?_⟩
  rcases hanswer with hanswer | ⟨error, rfl⟩
  · cases hloaded : loadedSlot w role (t.slots role) with
    | error error =>
      rw [hanswer, hloaded]
      exact hE error t hP
    | ok a =>
      rw [hanswer, hloaded]
      refine ⟨?_, hP⟩
      rintro signed rfl
      exact loadedSlot_ok hloaded
  · exact hE error t hP

theorem leaves_loadSlot : Leaves full w (loadSlot role : RelayProg H (Option RelaySignedEffect))
    fun _ => True := by
  apply Silent.run
  rintro s t answer - ⟨-, rfl, -⟩
  exact ⟨rfl, fun _ _ => trivial⟩

/-! ## Owner, policy and funds are only read -/

theorem leaves_activePolicy :
    Leaves full w (activePolicy : RelayProg H (Option RelayActivePolicy)) fun _ => True :=
  Silent.bind (leaves_ask _) fun _ _ => leaves_ask _

theorem leaves_publicOwner {error : RelayError} :
    Leaves full w (publicOwner w error : RelayProg H Unit) fun _ => True :=
  Silent.bind (leaves_ask _) fun _ _ => leaves_refuse.mono fun _ _ => trivial

theorem leaves_assertReady : Leaves full w (assertReady w : RelayProg H Unit) fun _ => True := by
  apply Silent.bind leaves_refuse
  intro _ _
  apply Silent.bind leaves_now
  intro at' _
  apply Silent.bind leaves_refuse
  intro _ _
  apply Silent.bind (leaves_ask _)
  intro _ _
  apply Silent.bind leaves_activePolicy
  intro active _
  apply Silent.bind leaves_refuse
  exact fun _ _ => leaves_publicOwner

theorem leaves_dailyUsage {at' : Instant} :
    Leaves full w (dailyUsageExcludingOwn w at' : RelayProg H ℕ) fun _ => True := by
  apply Silent.bind leaves_loadUsage
  intro row _
  cases row with
  | none => exact Silent.fail
  | some r =>
    apply Silent.bind leaves_refuse
    intro _ _
    apply Silent.bind (leaves_ask _)
    intro total _
    exact Silent.bind leaves_refuse fun _ _ => Silent.ret trivial

theorem leaves_admitEffect {at' : Instant} :
    Leaves full w (admitEffect w role at' : RelayProg H RelayActivePolicy) fun _ => True := by
  apply Silent.bind leaves_activePolicy
  intro active _
  cases active with
  | none => exact Silent.fail
  | some active =>
    apply Silent.bind leaves_refuse
    intro _ _
    apply Silent.bind leaves_publicOwner
    intro _ _
    apply Silent.bind leaves_dailyUsage
    intro usage _
    exact Silent.bind (leaves_ask _) fun _ _ => Silent.ret trivial

theorem leaves_fundEffect {active : RelayActivePolicy} :
    Leaves full w (fundEffect w role active : RelayProg H ℕ) fun _ => True := by
  apply Silent.bind leaves_loadAdmission
  intro admission _
  apply Silent.bind leaves_refuse
  intro _ _
  apply Silent.bind (leaves_ask _)
  intro funding _
  apply Silent.bind leaves_refuse
  intro _ _
  apply Silent.bind leaves_now
  intro after _
  exact Silent.bind leaves_refuse fun _ _ => Silent.ret trivial

theorem leaves_depositEnvelope : Leaves full w (assertDepositEnvelope w : RelayProg H Unit) fun _ => True :=
  Silent.bind leaves_refuse fun _ _ => leaves_refuse.mono fun _ _ => trivial

theorem leaves_revalidateApproval : Leaves full w (revalidateApproval w : RelayProg H ℕ) fun _ => True := by
  apply Silent.bind leaves_refuse
  intro _ _
  apply Silent.bind leaves_now
  intro at' _
  apply Silent.bind leaves_refuse
  intro _ _
  exact Silent.bind leaves_admitEffect fun _ _ => leaves_fundEffect

theorem leaves_revalidateDeposit {approvalHash : String} :
    Leaves full w (revalidateDeposit w approvalHash : RelayProg H ℕ) fun _ => True := by
  apply Silent.bind leaves_depositEnvelope
  intro _ _
  apply Silent.bind leaves_now
  intro at' _
  apply Silent.bind leaves_refuse
  intro _ _
  apply Silent.bind (leaves_ask _)
  intro approval _
  cases approval with
  | none => exact Silent.fail
  | some observation =>
    apply Silent.bind (Φ := fun _ => True) (Silent.ofExcept fun _ _ => trivial)
    intro verdict _
    apply Silent.bind leaves_refuse
    intro _ _
    exact Silent.bind leaves_admitEffect fun _ _ => leaves_fundEffect

variable {signedNonce : Option ℕ}

theorem leaves_nonceOr {revalidate : RelayProg H ℕ}
    (h : Leaves full w revalidate fun _ => True) : Leaves full w (nonceOr signedNonce revalidate) fun _ => True := by
  cases signedNonce with
  | none => exact h
  | some nonce => exact Silent.ret trivial

/-! ## Transitions -/

/-- The hold state a first marker needs. -/
def backing : RelayEffectRole → AssetUsageState
  | .approval => .reserved
  | .deposit => .submitted

/-- The moves of one effect that the hold's state allows. -/
inductive Edge (role : RelayEffectRole) (state : Option AssetUsageState) :
    RelayEffectPhase → RelayEffectPhase → Prop
  | mark (hstate : state = some (backing role)) : Edge role state .pending .signingStarted
  | seal' : Edge role state .signingStarted .sealed
  | submit : Edge role state .sealed .submitting
  | abandon : Edge role state .sealed .abandonedUnsent
  | confirm : Edge role state .submitting .confirmed
  | fail (hstate : role = .approval → state ≠ some .reserved) : Edge role state .submitting .failed

/-- **Every move of an effect keeps the hold in step.** -/
theorem lags_step {state : Option AssetUsageState} (hvalid : Valid w.hash.journal w.op j)
    (hlags : lags (phaseOf (some j) .approval) (phaseOf (some j) .deposit) state)
    (hopened : Opened j role) {current : RelayEffectPhase} (hcurrent : (j.effects role).phase = current)
    (hedge : Edge role state current next.phase) :
    lags (phaseOf (some (RelayEffects.withEffect w.hash.journal j role next)) .approval)
      (phaseOf (some (RelayEffects.withEffect w.hash.journal j role next)) .deposit) state := by
  cases role with
  | approval =>
    have hdeposit : (j.effects .deposit).phase = .pending ∨ current = .confirmed := by
      by_cases hpending : (j.effects .deposit).phase = .pending
      · exact Or.inl hpending
      · exact Or.inr (hcurrent.symm.trans (hvalid.order hpending))
    simp only [phaseOf, hcurrent, withEffect_self,
      withEffect_other (show RelayEffectRole.deposit ≠ .approval by decide)] at hlags ⊢
    generalize next.phase = reached at hedge ⊢
    cases hedge with
    | mark hstate =>
      rw [hstate]
      rfl
    | seal' => exact hlags
    | submit => exact Or.inl hlags
    | abandon => exact Or.inl hlags
    | confirm =>
      rcases hdeposit with hdeposit | hdeposit
      · rw [hdeposit]
        exact hlags
      · cases hdeposit
    | fail hstate =>
      rcases hlags with hlags | hlags
      · exact absurd hlags (hstate rfl)
      · exact Or.inl hlags
  | deposit =>
    have happroval := hopened rfl
    simp only [phaseOf, hcurrent, happroval, withEffect_self,
      withEffect_other (show RelayEffectRole.approval ≠ .deposit by decide)] at hlags ⊢
    generalize next.phase = reached at hedge ⊢
    cases hedge with
    | mark hstate =>
      rw [hstate]
      rfl
    | seal' => exact hlags
    | submit => exact hlags
    | abandon => exact Or.inl hlags
    | confirm => exact Or.inl hlags
    | fail _ => exact Or.inl hlags

/-- **The journal takes the event**, where its effect does; the rest of the files is left alone. -/
theorem does_transition (hretired : w.retired = false) (hopened : Opened j role)
    (hframe : ∀ s j', P s → P { s with journal := some j' })
    (hok : ∀ s next, Inv full w s → P s → s.journal = some j → nextEffect (j.effects role) event = .ok next →
      (crossed next.phase = false → sends role s.log = 0) ∧
      (∀ hash, next.phase ≠ .abandonedUnsent → next.transactionHash = some hash →
        ∃ m, s.slots role = some m ∧ m.transactionHash = hash) ∧
      (full → Edge role (stateOf s.row) (j.effects role).phase next.phase))
    (herror : ∀ e e' s, (full → Timely j role event) → P s → s.journal = some j →
      nextEffect (j.effects role) event = .error e' → E e s) :
    Does full w (fun s => s.journal = some j ∧ P s) (transition j role event : RelayProg H RelayEffectJournal)
      (fun j' s => ∃ next, nextEffect (j.effects role) event = .ok next ∧
        j' = RelayEffects.withEffect w.hash.journal j role next ∧ s.journal = some j' ∧ P s) E := by
  apply Triple.run
  rintro s t answer hs ⟨hjournal, hP⟩ ⟨hmeets, hexec⟩
  have hvalid := hs.kept.valid j hjournal
  cases hnext : nextEffect (j.effects role) event with
  | error error =>
    have hrefused : ∃ error', advanced w s.journal j.integrityHash role event = .error error' := by
      cases hadvanced : advanced w s.journal j.integrityHash role event with
      | error error' => exact ⟨error', rfl⟩
      | ok j' =>
        rw [hjournal] at hadvanced
        simp only [advanced, hretired, Bool.false_eq_true, if_false] at hadvanced
        rcases bind_ok.mp hadvanced with ⟨_, -, hadvanced⟩
        rw [if_neg (not_not.mpr rfl)] at hadvanced
        unfold advanceRelayEffectJournal at hadvanced
        rcases bind_ok.mp hadvanced with ⟨_, -, hadvanced⟩
        rcases bind_ok.mp (RelayEffects.blocked_guard.mp hadvanced).2 with ⟨next, hnext', -⟩
        rw [hnext] at hnext'
        cases hnext'
    rcases hrefused with ⟨error', hadvanced⟩
    simp only [exec, hadvanced] at hexec
    rcases hexec with ⟨rfl, rfl⟩
    exact ⟨hs, herror error' error t (fun hfull => hmeets hfull j hjournal) hP hjournal hnext⟩
  | ok next =>
    have hlast : role = .approval → (j.effects .approval).phase ≠ .confirmed := by
      rintro rfl hphase
      have hopen := nextEffect_open hnext
      rw [hphase] at hopen
      cases hopen
    rcases advance_ok hvalid hopened hnext hlast with ⟨hadvance, hvalid'⟩
    have hadvanced : advanced w s.journal j.integrityHash role event =
        .ok (RelayEffects.withEffect w.hash.journal j role next) := by
      rw [hjournal]
      simp only [advanced, hretired, Bool.false_eq_true, if_false]
      refine bind_ok.mpr ⟨(), validate_ok.mpr hvalid, ?_⟩
      rw [if_neg (not_not.mpr rfl)]
      exact hadvance
    simp only [exec, hadvanced] at hexec
    rcases hexec with ⟨rfl, rfl⟩
    rcases hok s next hs hP hjournal hnext with ⟨hunsent, hcustody, hedge⟩
    refine ⟨hs.advance hjournal hvalid' ?_ hunsent hcustody ?_, ?_⟩
    · exact (valid_nextEffect (hvalid.effects role) hnext).2
    · intro hfull
      refine lags_step hvalid ?_ hopened rfl (hedge hfull)
      rw [← hjournal]
      exact (hs.follows hfull).lags
    · exact ⟨next, rfl, rfl, rfl, hframe s _ hP⟩

/-! ## Operations that leave a trace -/

-- The signer runs once, for an effect that was never signed.
theorem does_sign {nonce : ℕ} (hopened : Opened j role) (hphase : (j.effects role).phase ≠ .pending) :
    Does full w (fun s => s.journal = some j ∧ signs role s.log = 0 ∧ (full → Calm log s.log))
      (sign role nonce : RelayProg H String) (fun _ => At full log j) fun _ => Undecided full log := by
  apply Triple.run
  rintro s t answer hs ⟨hjournal, hnone, hcalm⟩ ⟨-, hexec⟩
  change RelayResult String at answer
  have hsigned := hs.signed hjournal hopened hphase hnone
  have hcalm' : full → Calm log (s.add (.signed role s.journal)).log := fun hfull => (hcalm hfull).add rfl
  cases answer with
  | ok raw =>
    cases hexec
    exact ⟨hsigned, hjournal, hcalm'⟩
  | error error =>
    rcases hexec with rfl | rfl
    · exact ⟨hs, hcalm⟩
    · exact ⟨hsigned, hcalm'⟩

theorem does_send {raw : String} (hphase : (j.effects role).phase = .submitting) :
    Does full w (fun s => s.journal = some j ∧ (∃ m, s.slots role = some m ∧ m.rawTransaction = raw) ∧
      sends role s.log = 0 ∧ (full → Calm log s.log))
      (send role raw : RelayProg H String) (fun _ => At full log j) fun _ => At full log j := by
  apply Triple.run
  rintro s t answer hs ⟨hjournal, ⟨m, hslot, rfl⟩, hnone, hcalm⟩ ⟨-, hexec⟩
  have hvalid := hs.kept.valid j hjournal
  have hhash : (j.effects role).transactionHash = some m.transactionHash := by
    rcases attempt_of_valid (hvalid.effects role) (by rw [hphase]; decide) with ⟨attempt, hattempt, hok⟩
    have hknown := ((validateAttempt_ok.mp hok).2.2.2.1 (Or.inr hphase)).1
    rcases Option.ne_none_iff_exists'.mp hknown with ⟨hash, hhash⟩
    have htx : (j.effects role).transactionHash = some hash := by
      simp only [RelayEffect.transactionHash, hattempt, Option.bind_some, hhash]
    rcases hs.kept.custody role j hash hjournal (by rw [hphase]; decide) htx with ⟨m', hslot', hm'⟩
    rw [hslot] at hslot'
    cases hslot'
    rw [htx, hm']
  have hsent : t = s.add (.sent role m.rawTransaction (s.slots role) s.journal) := hexec
  subst hsent
  refine ⟨hs.sent hjournal hphase hslot hhash hnone, ?_⟩
  have hAt : At full log j (s.add (.sent role m.rawTransaction (s.slots role) s.journal)) :=
    ⟨hjournal, fun hfull => (hcalm hfull).add rfl⟩
  change RelayResult String at answer
  cases answer with
  | ok _ => exact hAt
  | error _ => exact hAt

/-- An outcome that was just read. -/
def Read (full : Prop) (log : List Event) (e : Event) (s : Shared H) : Prop :=
  full → ∃ l, s.log = e :: l ∧ Calm log l

-- A final outcome is read into the log, and a reverted approval not while the hold is still reserved.
theorem does_observeOp {hash : String} :
    Does full w (At full log j) (observe role hash : RelayProg H (Option RelayObservation))
      (fun found s => match outcomeOf w role hash (.ok found) with
        | some outcome => s.journal = some j ∧ Read full log (.observed role outcome) s ∧
            (full → role = .approval → outcome = .failed → stateOf s.row ≠ some .reserved)
        | none => At full log j s)
      fun _ => At full log j := by
  apply Triple.run
  rintro s t answer hs ⟨hjournal, hcalm⟩ ⟨hmeets, hexec⟩
  change RelayResult (Option RelayObservation) at answer
  cases answer with
  | error error =>
    cases hexec
    exact ⟨hs, hjournal, hcalm⟩
  | ok found =>
    simp only [exec] at hexec
    show _ ∧ (match outcomeOf w role hash (.ok found) with | some outcome => _ | none => _)
    cases houtcome : outcomeOf w role hash (.ok found) with
    | none =>
      rw [houtcome] at hexec
      cases hexec
      exact ⟨hs, hjournal, hcalm⟩
    | some outcome =>
      rw [houtcome] at hexec
      cases hexec
      refine ⟨hs.add_plain trivial, hjournal, fun hfull => ⟨s.log, rfl, hcalm hfull⟩, ?_⟩
      rintro hfull rfl rfl
      exact hmeets hfull houtcome

theorem does_unsentOutcome {nonce : ℕ} {hash : String} :
    Does full w (At full log j) (unsentOutcome role nonce hash : RelayProg H EvmUnsentOutcome)
      (fun outcome s => match outcome with
        | .neverLands => s.journal = some j ∧ Read full log (.neverLands role) s
        | _ => At full log j s)
      fun _ => Undecided full log := by
  apply Triple.run
  rintro s t answer hs ⟨hjournal, hcalm⟩ ⟨-, hexec⟩
  change RelayResult EvmUnsentOutcome at answer
  cases answer with
  | error error =>
    cases hexec
    exact ⟨hs, hcalm⟩
  | ok outcome =>
    cases outcome with
    | neverLands =>
      cases hexec
      exact ⟨hs.add_plain trivial, hjournal, fun hfull => ⟨s.log, rfl, hcalm hfull⟩⟩
    | nonceNotConsumed =>
      cases hexec
      exact ⟨hs, hjournal, hcalm⟩
    | ownTransactionKnown =>
      cases hexec
      exact ⟨hs, hjournal, hcalm⟩

-- Custody takes the bytes where it holds none.
theorem does_sealSlot {signed : RelaySignedEffect} :
    Does full w (At full log j) (sealSlot role signed : RelayProg H Unit) (fun _ => At full log j)
      fun _ => Undecided full log := by
  apply Triple.run
  rintro s t answer hs ⟨hjournal, hcalm⟩ ⟨-, hexec⟩
  change RelayResult Unit at answer
  rcases hexec with ⟨a, hresult, rfl⟩ | ⟨⟨error, rfl⟩, rfl⟩
  · cases hsealed : sealedSlot w role (s.slots role) signed with
    | error error =>
      rw [hsealed] at hresult
      cases hresult
    | ok m =>
      rw [hsealed] at hresult
      cases hresult
      unfold sealedSlot at hsealed
      split at hsealed
      · cases hsealed
      rename_i hempty
      rcases bind_ok.mp hsealed with ⟨verified, hverified, hm⟩
      cases hm
      have hbytes : verified.transactionHash = w.hash.keccak256 verified.rawTransaction := by
        unfold verifySigned at hverified
        split at hverified
        · cases hverified
        split at hverified
        · cases hverified
        split at hverified
        · cases hverified
        split at hverified
        · cases hverified
        · cases hverified
          rfl
      have hnone : s.slots role = none := by simpa using hempty
      refine ⟨⟨⟨hs.kept.valid, hs.kept.lawful, hs.kept.signs, hs.kept.unsigned, hs.kept.sends,
        hs.kept.unsent, ?_, ?_⟩, fun hfull => ⟨(hs.follows hfull).own, (hs.follows hfull).lags,
        (hs.follows hfull).refused⟩⟩, hjournal, hcalm⟩
      · intro r m hm
        by_cases hr : r = role
        · subst hr
          simp only [Function.update_self, Option.some.injEq] at hm
          rw [← hm]
          exact hbytes
        · dsimp only at hm
          rw [Function.update_of_ne hr] at hm
          exact hs.kept.bytes r m hm
      · intro r j' hash hj' habandoned hhash
        rcases hs.kept.custody r j' hash hj' habandoned hhash with ⟨m, hm, hmhash⟩
        have hr : r ≠ role := by
          rintro rfl
          rw [hnone] at hm
          cases hm
        refine ⟨m, ?_, hmhash⟩
        rw [← hm]
        exact Function.update_of_ne hr _ _
  · exact ⟨hs, hcalm⟩

-- Custody lets an abandoned envelope go.
theorem does_discardSlot {K : List Event → Prop} (hphase : (j.effects role).phase = .abandonedUnsent) :
    Does full w (fun s => s.journal = some j ∧ (full → K s.log)) (discardSlot role : RelayProg H Unit)
      (fun _ s => s.journal = some j ∧ (full → K s.log)) fun _ _ => ¬ full := by
  apply Triple.run
  rintro s t answer hs ⟨hjournal, hK⟩ ⟨hmeets, hexec⟩
  change RelayResult Unit at answer
  rcases hexec with ⟨a, hresult, rfl⟩ | ⟨⟨error, rfl⟩, rfl⟩
  · cases hresult
    refine ⟨⟨⟨hs.kept.valid, hs.kept.lawful, hs.kept.signs, hs.kept.unsigned, hs.kept.sends,
      hs.kept.unsent, ?_, ?_⟩, fun hfull => ⟨(hs.follows hfull).own, (hs.follows hfull).lags,
      (hs.follows hfull).refused⟩⟩, hjournal, hK⟩
    · intro r m hm
      by_cases hr : r = role
      · subst hr
        simp at hm
      · dsimp only at hm
        rw [Function.update_of_ne hr] at hm
        exact hs.kept.bytes r m hm
    · intro r j' hash hj' habandoned hhash
      have hr : r ≠ role := by
        rintro rfl
        rw [hjournal] at hj'
        cases hj'
        exact habandoned hphase
      dsimp only
      rw [Function.update_of_ne hr]
      exact hs.kept.custody r j' hash hj' habandoned hhash
  · refine ⟨hs, fun hfull => ?_⟩
    rcases hmeets hfull with ⟨a, ha⟩
    cases ha

/-! ## One effect -/

theorem opened_withEffect (hopened : Opened j role) : Opened (RelayEffects.withEffect w.hash.journal j role next) role := by
  rintro rfl
  rw [withEffect_other (by decide)]
  exact hopened rfl

-- A final outcome of an effect is what its journal now asks of the hold.
theorem target_outcome {outcome : RelayEffectOutcome}
    (hvalid : Valid w.hash.journal w.op j) (hphase : (j.effects role).phase = outcome.phase)
    (howes : owes (.observed role outcome) = some state) : target j = some state ∧ Done role j := by
  cases role with
  | approval =>
    cases outcome with
    | confirmed => cases howes
    | failed =>
      cases howes
      have hfailed : (j.effects .approval).phase = .failed := hphase
      have hdeposit : (j.effects .deposit).phase = .pending := by
        by_contra hne
        have hconfirmed := hvalid.order hne
        rw [hfailed] at hconfirmed
        cases hconfirmed
      refine ⟨?_, Or.inl hfailed⟩
      rw [target, hfailed, hdeposit]
      rfl
  | deposit =>
    cases outcome with
    | confirmed =>
      cases howes
      have hdeposit : (j.effects .deposit).phase = .confirmed := hphase
      refine ⟨?_, ?_⟩
      · rw [target, hdeposit]
        rfl
      · show RelayEffects.observed (j.effects .deposit).phase = true
        rw [hdeposit]
        rfl
    | failed =>
      cases howes
      have hdeposit : (j.effects .deposit).phase = .failed := hphase
      refine ⟨?_, ?_⟩
      · rw [target, hdeposit]
        rfl
      · show RelayEffects.observed (j.effects .deposit).phase = true
        rw [hdeposit]
        rfl

theorem target_abandoned (hvalid : Valid w.hash.journal w.op j)
    (hphase : (j.effects role).phase = .abandonedUnsent) (howes : owes (.neverLands role) = some state) :
    target j = some state ∧ Done role j := by
  cases role with
  | approval =>
    cases howes
    have hdeposit : (j.effects .deposit).phase = .pending := by
      by_contra hne
      have hconfirmed := hvalid.order hne
      rw [hphase] at hconfirmed
      cases hconfirmed
    refine ⟨?_, Or.inr hphase⟩
    rw [target, hphase, hdeposit]
    rfl
  | deposit =>
    cases howes
    refine ⟨?_, ?_⟩
    · rw [target, hphase]
      rfl
    · show RelayEffects.observed (j.effects .deposit).phase = true
      rw [hphase]
      rfl

-- Custody of an effect that keeps its hash.
theorem custody_kept (hs : Inv full w s) (hjournal : s.journal = some j)
    (hphase : (j.effects role).phase ≠ .abandonedUnsent)
    (hnext : nextEffect (j.effects role) event = .ok next) (hevent : ∀ hash, event ≠ .sealSigned hash)
    {hash : String} (hhash : next.transactionHash = some hash) :
    ∃ m, s.slots role = some m ∧ m.transactionHash = hash := by
  rcases nextEffect_hash hnext hhash with heq | hhash
  · exact absurd heq (hevent hash)
  · exact hs.kept.custody role j hash hjournal hphase hhash

variable (hretired : w.retired = false)
include hretired

-- A marked effect is observed to its outcome, or left.
theorem does_observeEffect (hopened : Opened j role) :
    Does full w (At full log j) (observeEffect w role j : RelayProg H RelayEffectJournal)
      (Ran full log role) fun _ => Undecided full log := by
  unfold observeEffect
  apply Triple.ite
  · exact fun _ => Triple.ret fun s _ h => h.ran
  intro hne
  have hphase : (j.effects role).phase = .submitting := not_not.mp hne
  apply Triple.bind (Triple.attempt does_observeOp)
  intro found
  cases found with
  | error error => exact Triple.ret fun s _ h => h.ran
  | ok found =>
    cases found with
    | none => exact Triple.ret fun s _ h => At.ran h
    | some observation =>
      dsimp only
      cases hverdict : verifyObservation w role ((j.effects role).transactionHash.getD "") observation with
      | error error =>
        apply Triple.fail
        intro s _ h
        simp only [outcomeOf, hverdict] at h
        exact h.2
      | ok verdict =>
        cases verdict with
        | none =>
          apply Triple.ret
          intro s _ h
          simp only [outcomeOf, hverdict] at h
          exact h.ran
        | some outcome =>
          simp only [outcomeOf, hverdict]
          apply Triple.bind does_now
          intro at'
          apply (does_transition hretired hopened (fun s j' h => h) ?_ ?_).conseq (fun s _ h => h)
          · rintro j' s hs ⟨next, hnext, rfl, hjournal, hread, -⟩
            refine ⟨hjournal, fun hfull => ?_⟩
            rcases hread hfull with ⟨l, hl, hcalm⟩
            rw [hl]
            cases howes : owes (.observed role outcome) with
            | none => exact Or.inl (hcalm.add howes)
            | some state =>
              have hreached := (nextEffect_phase hnext).2
              rcases target_outcome (hs.kept.valid _ hjournal) (by rw [withEffect_self]; exact hreached) howes
                with ⟨htarget, hdone⟩
              exact Or.inr ⟨hcalm.outcome howes htarget, hdone⟩
          · exact fun e s _ h => h
          · rintro s next hs ⟨-, hrow⟩ hjournal hnext
            have hreached : next.phase = outcome.phase := (nextEffect_phase hnext).2
            refine ⟨?_, ?_, ?_⟩
            · intro hcrossed
              rw [hreached] at hcrossed
              cases outcome <;> cases hcrossed
            · exact fun hash _ hhash => custody_kept hs hjournal (by rw [hphase]; decide) hnext
                (fun _ => by simp) hhash
            · intro hfull
              rw [hphase, hreached]
              cases outcome with
              | confirmed => exact .confirm
              | failed => exact .fail fun hrole => hrow hfull hrole rfl
          · intro e e' s htimely _ _ herror hfull
            have htakes : ∃ next, nextEffect (j.effects role) (.observe outcome at') = .ok next :=
              nextEffect_takes hphase (htimely hfull)
            rcases htakes with ⟨next, hnext⟩
            rw [herror] at hnext
            cases hnext

theorem does_submitEffect (hopened : Opened j role) (hphase : (j.effects role).phase = .sealed) {nonce : ℕ} :
    Does full w (At full log j) (submitEffect w role j nonce : RelayProg H RelayEffectJournal)
      (Ran full log role) fun _ => Undecided full log := by
  apply Triple.bind (does_loadSlot fun e s h => h.2)
  intro saved
  cases saved with
  | none => exact Triple.fail fun s _ h => h.2.2
  | some signed =>
    apply Triple.silent leaves_refuse (fun e s _ h => h.2.2)
    intro _ _
    apply Triple.silent (Silent.ofExcept (Φ := fun _ => True) fun _ _ => trivial) (fun e s _ h => h.2.2)
    intro _ _
    -- The bytes that were loaded are still in custody, and were never sent.
    apply Triple.pre (N := fun s => s.journal = some j ∧
      ((∃ m, s.slots role = some m ∧ m.rawTransaction = signed.rawTransaction) ∧ sends role s.log = 0 ∧
        (full → Calm log s.log)))
    · apply Triple.bind does_now
      intro at'
      apply Triple.bind (does_transition hretired hopened (fun s j' h => h) ?_ ?_)
      · intro j'
        apply Triple.pre (N := fun s => (∃ next, nextEffect (j.effects role) (.markSubmitting at') = .ok next ∧
          j' = RelayEffects.withEffect w.hash.journal j role next) ∧ s.journal = some j' ∧
          (∃ m, s.slots role = some m ∧ m.rawTransaction = signed.rawTransaction) ∧ sends role s.log = 0 ∧
          (full → Calm log s.log))
        · apply Triple.assume
          rintro ⟨next, hnext, rfl⟩
          have hsubmitting : ((RelayEffects.withEffect w.hash.journal j role next).effects role).phase = .submitting := by
            rw [withEffect_self]
            exact (nextEffect_phase hnext).2
          apply Triple.bind (Triple.attempt (does_send hsubmitting))
          intro answer
          apply (does_observeEffect hretired (opened_withEffect hopened)).pre
          intro s _ h
          cases answer with
          | ok _ => exact h
          | error _ => exact h
        · rintro s _ ⟨next, hnext, hj', hjournal, hrest⟩
          exact ⟨⟨next, hnext, hj'⟩, hjournal, hrest⟩
      · rintro s next hs _ hjournal hnext
        refine ⟨?_, ?_, ?_⟩
        · intro hcrossed
          rw [(nextEffect_phase hnext).2] at hcrossed
          cases hcrossed
        · exact fun hash _ hhash => custody_kept hs hjournal (by rw [hphase]; decide) hnext
            (fun _ => by simp) hhash
        · intro _
          rw [hphase, (nextEffect_phase hnext).2]
          exact .submit
      · exact fun e e' s _ h _ _ => h.2.2
    · rintro s hs ⟨hslot, hjournal, hcalm⟩
      rcases hslot signed rfl with ⟨m, hm, rfl⟩
      refine ⟨hjournal, ⟨m, hm, rfl⟩, ?_, hcalm⟩
      apply hs.kept.unsent role
      rw [hjournal]
      show crossed (j.effects role).phase = false
      rw [hphase]
      rfl

variable {revalidate : RelayProg H ℕ}

theorem does_sendEffect (hrevalidate : Leaves full w revalidate fun _ => True) (hopened : Opened j role) :
    Does full w (At full log j) (sendEffect w role revalidate j signedNonce) (Ran full log role)
      fun _ => Undecided full log := by
  unfold sendEffect
  apply Triple.ite
  · exact fun _ => does_observeEffect hretired hopened
  intro hne
  apply Triple.silent (leaves_nonceOr hrevalidate) (fun e s _ h => h.2)
  exact fun nonce _ => does_submitEffect hretired hopened (not_not.mp hne)

-- Saved bytes that were never sent are closed, fenced, or sent.
theorem does_resumeSealed (hrevalidate : Leaves full w revalidate fun _ => True) (hopened : Opened j role)
    (hphase : (j.effects role).phase = .sealed) :
    Does full w (At full log j) (resumeSealed w role revalidate j) (Ran full log role)
      fun _ => Undecided full log := by
  apply Triple.bind ((does_loadSlot fun e s h => h.2).conseq (fun _ _ h => h) (fun _ _ _ h => h.2)
    fun _ _ _ h => h)
  intro saved
  cases saved with
  | none => exact does_sendEffect hretired hrevalidate hopened
  | some signed =>
    have hnonce : Leaves full w (relaySignedNonce w role signed.rawTransaction : RelayProg H ℕ)
        fun _ => True := by
      unfold relaySignedNonce
      split
      · exact Silent.fail
      · exact Silent.ret trivial
    apply Triple.silent hnonce (fun e s _ h => h.2)
    intro nonce _
    apply Triple.bind does_unsentOutcome
    intro outcome
    cases outcome with
    | neverLands =>
      -- The bytes can never land: the effect is abandoned and its custody discarded.
      dsimp only
      apply Triple.bind does_now
      intro at'
      apply Triple.bind (does_transition hretired hopened (fun s j' h => h) ?_ ?_)
      · intro j'
        apply Triple.pre (N := fun s => (∃ next, nextEffect (j.effects role) (.recordNeverLanded at') = .ok next ∧
          j' = RelayEffects.withEffect w.hash.journal j role next) ∧ s.journal = some j' ∧
          (full → ∃ l, s.log = .neverLands role :: l ∧ Calm log l))
        · apply Triple.assume
          rintro ⟨next, hnext, rfl⟩
          have habandoned : ((RelayEffects.withEffect w.hash.journal j role next).effects role).phase = .abandonedUnsent := by
            rw [withEffect_self]
            exact (nextEffect_phase hnext).2
          apply Triple.bind ((does_discardSlot (K := fun l' => ∃ l, l' = .neverLands role :: l ∧ Calm log l)
            habandoned).conseq (fun _ _ h => h) (fun _ _ _ h => h) fun e s _ h hfull => absurd hfull h)
          intro _
          apply Triple.ret
          rintro s hs ⟨hjournal, hread⟩
          refine ⟨hjournal, fun hfull => Or.inr ?_⟩
          rcases hread hfull with ⟨l, hl, hcalm⟩
          have howes : ∃ state, owes (.neverLands role) = some state := by
            cases role <;> exact ⟨_, rfl⟩
          rcases howes with ⟨state, howes⟩
          rcases target_abandoned (hs.kept.valid _ hjournal) habandoned howes with ⟨htarget, hdone⟩
          rw [hl]
          exact ⟨hcalm.outcome howes htarget, hdone⟩
        · rintro s _ ⟨next, hnext, hj', hjournal, hread⟩
          exact ⟨⟨next, hnext, hj'⟩, hjournal, hread⟩
      · rintro s next hs _ hjournal hnext
        refine ⟨?_, ?_, ?_⟩
        · intro _
          apply hs.kept.unsent role
          rw [hjournal]
          show crossed (j.effects role).phase = false
          rw [hphase]
          rfl
        · intro hash hne
          exact absurd (nextEffect_phase hnext).2 hne
        · intro _
          rw [hphase, (nextEffect_phase hnext).2]
          exact .abandon
      · intro e e' s htimely _ _ herror hfull
        have htakes : ∃ next, nextEffect (j.effects role) (.recordNeverLanded at') = .ok next :=
          nextEffect_takes hphase (htimely hfull)
        rcases htakes with ⟨next, hnext⟩
        rw [herror] at hnext
        cases hnext
    | nonceNotConsumed => exact does_sendEffect hretired hrevalidate hopened
    | ownTransactionKnown =>
      dsimp only
      apply Triple.bind does_now
      intro at'
      apply Triple.bind (does_transition hretired hopened (fun s j' h => h) ?_ ?_)
      · intro j'
        apply Triple.pre (N := fun s => (∃ next, nextEffect (j.effects role) (.markSubmitting at') = .ok next ∧
          j' = RelayEffects.withEffect w.hash.journal j role next) ∧ At full log j' s)
        · apply Triple.assume
          rintro ⟨next, hnext, rfl⟩
          exact does_sendEffect hretired hrevalidate (opened_withEffect hopened)
        · rintro s _ ⟨next, hnext, hj', hjournal, hcalm⟩
          exact ⟨⟨next, hnext, hj'⟩, hjournal, hcalm⟩
      · rintro s next hs _ hjournal hnext
        refine ⟨?_, ?_, ?_⟩
        · intro hcrossed
          rw [(nextEffect_phase hnext).2] at hcrossed
          cases hcrossed
        · exact fun hash _ hhash => custody_kept hs hjournal (by rw [hphase]; decide) hnext
            (fun _ => by simp) hhash
        · intro _
          rw [hphase, (nextEffect_phase hnext).2]
          exact .submit
      · exact fun e e' s _ h _ _ => h

-- The bytes in custody are journalled and sent; without them the effect stays marked.
theorem does_sealEffect (hrevalidate : Leaves full w revalidate fun _ => True) (hopened : Opened j role)
    (hphase : (j.effects role).phase = .signingStarted) :
    Does full w (At full log j) (sealEffect w role revalidate j signedNonce) (Ran full log role)
      fun _ => Undecided full log := by
  apply Triple.bind (does_loadSlot fun e s h => h.2)
  intro saved
  cases saved with
  | none => exact Triple.ret fun s _ h => At.ran h.2
  | some signed =>
    apply Triple.silent (Silent.ofExcept (Φ := fun _ => True) fun _ _ => trivial) (fun e s _ h => h.2.2)
    intro _ _
    apply Triple.pre (N := fun s => s.journal = some j ∧
      ((∃ m, s.slots role = some m ∧ m.transactionHash = signed.transactionHash) ∧ (full → Calm log s.log)))
    · apply Triple.bind (does_transition hretired hopened (fun s j' h => h) ?_ ?_)
      · intro j'
        apply Triple.pre (N := fun s => (∃ next, j' = RelayEffects.withEffect w.hash.journal j role next) ∧ At full log j' s)
        · apply Triple.assume
          rintro ⟨next, rfl⟩
          apply Triple.silent leaves_loadSlot (fun e s _ h => h.2)
          exact fun _ _ => does_sendEffect hretired hrevalidate (opened_withEffect hopened)
        · rintro s _ ⟨next, -, hj', hjournal, -, hcalm⟩
          exact ⟨⟨next, hj'⟩, hjournal, hcalm⟩
      · rintro s next hs ⟨⟨m, hm, hmhash⟩, -⟩ hjournal hnext
        refine ⟨?_, ?_, ?_⟩
        · intro _
          apply hs.kept.unsent role
          rw [hjournal]
          show crossed (j.effects role).phase = false
          rw [hphase]
          rfl
        · intro hash _ hhash
          rcases nextEffect_hash hnext hhash with heq | hhash
          · cases heq
            exact ⟨m, hm, hmhash⟩
          · exact hs.kept.custody role j hash hjournal (by rw [hphase]; decide) hhash
        · intro _
          rw [hphase, (nextEffect_phase hnext).2]
          exact .seal'
      · exact fun e e' s _ h _ _ => h.2
    · rintro s _ ⟨hslot, hjournal, hcalm⟩
      rcases hslot signed rfl with ⟨m, hm, rfl⟩
      exact ⟨hjournal, ⟨m, hm, rfl⟩, hcalm⟩

theorem does_signEffect (hopened : Opened j role) (hphase : (j.effects role).phase = .pending) {nonce : ℕ} :
    Does full w (fun s => At full log j s ∧ (full → stateOf s.row = some (backing role)))
      (signEffect w role j nonce : RelayProg H RelayEffectJournal)
      (fun j' s => (Opened j' role ∧ (j'.effects role).phase = .signingStarted) ∧ At full log j' s)
      fun _ => Undecided full log := by
  apply Triple.silent leaves_marker (fun e s _ h => h.1.2)
  intro text _
  apply Triple.silent leaves_now (fun e s _ h => h.1.2)
  intro at' _
  apply Triple.pre (N := fun s => s.journal = some j ∧ (signs role s.log = 0 ∧ (full → Calm log s.log) ∧
    (full → stateOf s.row = some (backing role))))
  · apply Triple.bind (does_transition hretired hopened (fun s j' h => h) ?_ ?_)
    · intro j'
      apply Triple.pre (N := fun s => (∃ next, nextEffect (j.effects role) (.markSigning text at') = .ok next ∧
        j' = RelayEffects.withEffect w.hash.journal j role next) ∧ s.journal = some j' ∧ signs role s.log = 0 ∧
        (full → Calm log s.log))
      · apply Triple.assume
        rintro ⟨next, hnext, rfl⟩
        have hmarked : ((RelayEffects.withEffect w.hash.journal j role next).effects role).phase = .signingStarted := by
          rw [withEffect_self]
          exact (nextEffect_phase hnext).2
        apply Triple.silent leaves_assertReady (fun e s _ h => h.2.2)
        intro _ _
        apply Triple.silent leaves_refuse (fun e s _ h => h.2.2)
        intro _ _
        apply Triple.bind (does_sign (opened_withEffect hopened) (by rw [hmarked]; decide))
        intro raw
        apply Triple.silent (Silent.ofExcept (Φ := fun _ => True) fun _ _ => trivial) (fun e s _ h => h.2)
        intro signed _
        apply Triple.bind does_sealSlot
        intro _
        exact Triple.ret fun s _ h => ⟨⟨opened_withEffect hopened, hmarked⟩, h⟩
      · rintro s _ ⟨next, hnext, hj', hjournal, hnone, hcalm, -⟩
        exact ⟨⟨next, hnext, hj'⟩, hjournal, hnone, hcalm⟩
    · rintro s next hs ⟨-, -, hrow⟩ hjournal hnext
      refine ⟨?_, ?_, ?_⟩
      · intro _
        apply hs.kept.unsent role
        rw [hjournal]
        show crossed (j.effects role).phase = false
        rw [hphase]
        rfl
      · exact fun hash _ hhash => custody_kept hs hjournal (by rw [hphase]; decide) hnext
          (fun _ => by simp) hhash
      · intro hfull
        rw [hphase, (nextEffect_phase hnext).2]
        exact .mark (hrow hfull)
    · exact fun e e' s _ h _ _ => h.2.1
  · rintro s hs ⟨⟨hjournal, hcalm⟩, hrow⟩
    refine ⟨hjournal, ?_, hcalm, hrow⟩
    apply hs.kept.unsigned role
    rw [hjournal]
    exact hphase

/-- **The run of one effect**: it ends with the journal it wrote, and with every outcome it read written there. -/
theorem does_runEffect (hrevalidate : Leaves full w revalidate fun _ => True) (hopened : Opened j role)
    {firstNonce : Option ℕ} :
    Does full w (fun s => At full log j s ∧
        (full → (j.effects role).phase = .pending → stateOf s.row = some (backing role)))
      (runEffect w role revalidate j firstNonce) (Ran full log role) fun _ => Undecided full log := by
  have hAt : ∀ s : Shared H, Inv full w s → (At full log j s ∧
      (full → (j.effects role).phase = .pending → stateOf s.row = some (backing role))) → At full log j s :=
    fun _ _ h => h.1
  cases hphase : (j.effects role).phase with
  | confirmed =>
    simp only [runEffect, hphase]
    exact Triple.ret fun s _ h => h.1.ran
  | failed =>
    simp only [runEffect, hphase]
    exact Triple.ret fun s _ h => h.1.ran
  | abandonedUnsent =>
    simp only [runEffect, hphase]
    exact Triple.ret fun s _ h => h.1.ran
  | pending =>
    simp only [runEffect, hphase]
    apply Triple.silent (leaves_nonceOr hrevalidate) (fun e s _ h => h.1.2)
    intro nonce _
    apply Triple.bind ((does_signEffect hretired hopened hphase).pre fun s _ h => ⟨h.1, fun hfull => h.2 hfull trivial⟩)
    intro j'
    apply Triple.assume
    rintro ⟨hopened', hmarked⟩
    exact does_sealEffect hretired hrevalidate hopened' hmarked
  | signingStarted =>
    simp only [runEffect, hphase]
    exact (does_sealEffect hretired hrevalidate hopened hphase).pre fun s _ h => h.1
  | sealed =>
    simp only [runEffect, hphase]
    exact (does_resumeSealed hretired hrevalidate hopened hphase).pre fun s _ h => h.1
  | submitting =>
    simp only [runEffect, hphase]
    exact (does_observeEffect hretired hopened).pre fun s _ h => h.1

end PaymentNode.RelaySource
