import PaymentNode.Relay.SourceEffects

/-!
# SourceRuns — the hold of a Relay source follows its effects

A call releases a hold that no effect stands behind, takes one before the first marker, and moves it after each
effect.  Two calls ask the ledger for a move it refuses: one that reads a reverted approval while the hold is
still reserved, and one whose hold was taken under another policy than the operation's.
-/

namespace PaymentNode.RelaySource

open Solo RelayEffects

variable {H : LedgerHash} {w : RelaySetting} {s : Shared H} {role : RelayEffectRole} {full : Prop}
  {j : RelayEffectJournal} {oj : Option RelayEffectJournal} {row : Option (Reservation H)}
  {log : List Event} {L : List Event → Prop}

/-! ## The two effects -/

/-- What the approval's run begins with: a first marker has a reserved hold behind it. -/
def Backed (full : Prop) (log : List Event) (s : Shared H) : Prop :=
  full → Calm log s.log ∧ (phaseOf s.journal .approval = .pending → stateOf s.row = some .reserved)

theorem opened_approval : Opened j .approval := fun h => nomatch h

variable {at' : Instant}

theorem does_createJournal (hretired : w.retired = false) {P : Shared H → Prop}
    (hframe : ∀ s j, P s → P { s with journal := some j }) {E : RelayError → Shared H → Prop} :
    Does full w (fun s => s.journal = none ∧ P s) (createJournal at' : RelayProg H RelayEffectJournal)
      (fun j s => j = createRelayEffectJournal w.hash.journal w.op at' ∧ s.journal = some j ∧ P s) E := by
  apply Triple.run
  rintro s t answer hs ⟨hjournal, hP⟩ ⟨-, hexec⟩
  have hcreated : created w s.journal at' = .ok (createRelayEffectJournal w.hash.journal w.op at') := by
    rw [hjournal, created, hretired]
    rfl
  simp only [exec, hcreated] at hexec
  rcases hexec with ⟨rfl, rfl⟩
  have hphase : ∀ role, phaseOf (some (createRelayEffectJournal w.hash.journal w.op at')) role =
      phaseOf s.journal role := by
    intro role
    rw [hjournal]
    rfl
  refine ⟨⟨⟨?_, hs.kept.lawful, hs.kept.signs, ?_, hs.kept.sends, ?_, hs.kept.bytes, ?_⟩, fun hfull =>
    ⟨(hs.follows hfull).own, ?_, (hs.follows hfull).refused⟩⟩, rfl, rfl, hframe s _ hP⟩
  · intro j hj
    cases hj
    exact valid_create
  · exact fun role hpending => hs.kept.unsigned role ((hphase role).symm.trans hpending)
  · exact fun role hcrossed => hs.kept.unsent role (by rw [← hphase role]; exact hcrossed)
  · intro role j hash hj _ hhash
    cases hj
    cases hhash
  · have hlags := (hs.follows hfull).lags
    rw [← hphase .approval, ← hphase .deposit] at hlags
    exact hlags

theorem does_approvals : Does full w (Backed full log) (approvals w : RelayProg H RelayEffectJournal)
    (Ran full log .approval) fun _ => Undecided full log := by
  have hE : ∀ (e : RelayError) (s : Shared H), Inv full w s → Backed full log s → Undecided full log s :=
    fun _ _ _ h hfull => (h hfull).1
  apply Triple.silent leaves_refuse hE
  intro _ hnot
  have hretired : w.retired = false := by simpa using hnot
  apply Triple.silent leaves_refuse hE
  intro _ _
  apply Triple.bind does_loadJournal
  intro journal
  cases journal with
  | some j =>
    apply (does_runEffect hretired leaves_revalidateApproval opened_approval).pre
    rintro s _ ⟨hjournal, hbacked⟩
    refine ⟨⟨hjournal.symm, fun hfull => (hbacked hfull).1⟩, fun hfull hpending => (hbacked hfull).2 ?_⟩
    rw [← hjournal]
    exact hpending
  | none =>
    apply Triple.silent leaves_revalidateApproval (fun e s hs h => hE e s hs h.2)
    intro nonce _
    apply Triple.silent leaves_now (fun e s hs h => hE e s hs h.2)
    intro at' _
    apply Triple.pre (N := fun s => s.journal = none ∧
      ((full → Calm log s.log) ∧ (full → stateOf s.row = some .reserved)))
    · apply Triple.bind (does_createJournal hretired fun s j h => h)
      intro j
      apply (does_runEffect hretired leaves_revalidateApproval opened_approval).pre
      rintro s _ ⟨-, hjournal, hcalm, hreserved⟩
      exact ⟨⟨hjournal, hcalm⟩, fun hfull _ => hreserved hfull⟩
    · rintro s _ ⟨hjournal, hbacked⟩
      refine ⟨hjournal.symm, fun hfull => (hbacked hfull).1, fun hfull => (hbacked hfull).2 ?_⟩
      rw [← hjournal]
      rfl

/-- What the deposit's run begins with. -/
def Submitted (full : Prop) (log : List Event) (s : Shared H) : Prop :=
  full → Calm log s.log ∧ (phaseOf s.journal .approval = .confirmed → phaseOf s.journal .deposit = .pending →
    stateOf s.row = some .submitted)

theorem does_deposits : Does full w (Submitted full log) (deposits w : RelayProg H RelayEffectJournal)
    (Ran full log .deposit) fun _ => Undecided full log := by
  have hE : ∀ (e : RelayError) (s : Shared H), Inv full w s → Submitted full log s → Undecided full log s :=
    fun _ _ _ h hfull => (h hfull).1
  apply Triple.silent leaves_refuse hE
  intro _ hnot
  have hretired : w.retired = false := by simpa using hnot
  apply Triple.silent leaves_depositEnvelope hE
  intro _ _
  apply Triple.bind does_loadJournal
  intro journal
  cases journal with
  | none => exact Triple.fail fun s _ h hfull => (h.2 hfull).1
  | some j =>
    dsimp only
    split
    · exact Triple.fail fun s _ h hfull => (h.2 hfull).1
    · rename_i approvalHash _
      apply Triple.silent leaves_refuse (fun e s hs h => hE e s hs h.2)
      intro _ hconfirmed
      have hphase : (j.effects .approval).phase = .confirmed := not_not.mp hconfirmed
      apply (does_runEffect hretired leaves_revalidateDeposit fun _ => hphase).pre
      rintro s _ ⟨hjournal, hsubmitted⟩
      refine ⟨⟨hjournal.symm, fun hfull => (hsubmitted hfull).1⟩, fun hfull hpending =>
        (hsubmitted hfull).2 ?_ ?_⟩
      · rw [← hjournal]
        exact hphase
      · rw [← hjournal]
        exact hpending

/-! ## The hold -/

-- A hold that lags a pair of phases is at their target, or one allowed move before it.
theorem lags_target {approval deposit : RelayEffectPhase} {state : Option AssetUsageState}
    {target : AssetUsageState} (horder : deposit ≠ .pending → approval = .confirmed)
    (h : lags approval deposit state) (htarget : usageTarget approval deposit = some target) :
    ∃ current, state = some current ∧ (current = target ∨ target ∈ allowedTransitions current) ∧
      lags approval deposit (some target) := by
  cases approval with
  | confirmed =>
    cases deposit with
    | pending =>
      cases htarget
      rcases h with rfl | rfl
      · exact ⟨_, rfl, Or.inr (by decide), Or.inr rfl⟩
      · exact ⟨_, rfl, Or.inl rfl, Or.inr rfl⟩
    | signingStarted | sealed | submitting =>
      cases htarget
      exact ⟨_, h, Or.inl rfl, rfl⟩
    | confirmed =>
      cases htarget
      rcases h with rfl | rfl
      · exact ⟨_, rfl, Or.inr (by decide), Or.inr rfl⟩
      · exact ⟨_, rfl, Or.inl rfl, Or.inr rfl⟩
    | failed | abandonedUnsent =>
      cases htarget
      rcases h with rfl | rfl
      · exact ⟨_, rfl, Or.inr (by decide), Or.inr rfl⟩
      · exact ⟨_, rfl, Or.inl rfl, Or.inr rfl⟩
  | pending | signingStarted | sealed =>
    have hpending : deposit = .pending := by
      by_contra hne
      cases horder hne
    rw [hpending] at htarget
    cases htarget
  | submitting | failed | abandonedUnsent =>
    have hpending : deposit = .pending := by
      by_contra hne
      cases horder hne
    rw [hpending] at htarget h ⊢
    cases htarget
    rcases h with rfl | rfl
    · exact ⟨_, rfl, Or.inr (by decide), Or.inr rfl⟩
    · exact ⟨_, rfl, Or.inl rfl, Or.inr rfl⟩

-- An owner's move of its own row.
theorem plainInput {r : Reservation H} (hown : Own w r) {state : AssetUsageState}
    {digest : Option String} {expected : Option (List AssetUsageState)}
    (hdigest : state.isTerminal → digest.isSome) (hexpected : ∀ states, expected = some states → r.state ∈ states) :
    PlainInput r.toReservationBody (transitionInput w H state at' digest expected) where
  reservationId := hown.reservationId.symm
  policyDigest := hown.policyDigest.symm
  expected := hexpected
  digest := hdigest
  consumed := fun _ h => nomatch h
  effectAt := rfl
  journal := rfl

/-- **A legal move of the hold is made**, where the hold is followed. -/
theorem does_moveUsage (oj : Option RelayEffectJournal) {state : AssetUsageState}
    {digest : Option String} {expected : Option (List AssetUsageState)} (hdigest : state.isTerminal → digest.isSome) :
    Does full w (fun s => s.journal = oj ∧ (full → L s.log ∧ ∃ current, stateOf s.row = some current ∧
        state ∈ allowedTransitions current ∧ (∀ states, expected = some states → current ∈ states) ∧
        lags (phaseOf oj .approval) (phaseOf oj .deposit) (some state)))
      (moveUsage (transitionInput w H state at' digest expected) : RelayProg H Unit)
      (fun _ s => s.journal = oj ∧ (full → L s.log ∧ stateOf s.row = some state)) fun _ _ => ¬ full := by
  apply Triple.bind (M := fun answer s => (full → ∃ r, answer = .ok r) ∧ s.journal = oj ∧
    (full → L s.log ∧ stateOf s.row = some state))
  · apply Triple.perform
    rintro s answer t hs ⟨hjournal, hmove⟩ ⟨-, hhold, ht⟩
    change Result (Reservation H) at answer
    have hkept : Kept w t := by
      rw [ht]
      cases answer with
      | ok r => exact ⟨hs.kept.valid, hs.kept.lawful, hs.kept.signs, hs.kept.unsigned, hs.kept.sends,
          hs.kept.unsent, hs.kept.bytes, hs.kept.custody⟩
      | error error =>
        have hadd := hs.kept.add (e := .refused (transitionInput w H state at' digest expected)) trivial
          (fun _ => rfl) fun _ => rfl
        exact ⟨hadd.valid, hadd.lawful, hadd.signs, hadd.unsigned, hadd.sends, hadd.unsent, hadd.bytes,
          hadd.custody⟩
    have htjournal : t.journal = oj := by
      rw [ht]
      exact hjournal
    have hfollows : full → (∃ r, answer = .ok r) ∧ Follows w t ∧ L t.log ∧ stateOf t.row = some state := by
      intro hfull
      rcases hmove hfull with ⟨hL, current, hcurrent, hallowed, hexpected, hlags⟩
      rcases Option.map_eq_some_iff.mp hcurrent with ⟨r, hrow, hr⟩
      have hown := (hs.follows hfull).own r hrow
      rw [hrow] at hhold
      rcases hold_moves hown.plain (plainInput hown hdigest (by rw [hr]; exact hexpected)) hown.reservationId
        (by rw [hr]; exact hallowed) hhold with ⟨r', rfl, hrow', hmoved⟩
      have hstate : stateOf t.row = some state := by
        rw [hrow']
        exact congrArg some hmoved.state
      refine ⟨⟨r', rfl⟩, ⟨?_, ?_, ?_⟩, ?_, hstate⟩
      · intro r'' hr''
        rw [hrow'] at hr''
        cases hr''
        exact ⟨hmoved.reservationId.trans hown.reservationId, hmoved.policyDigest.trans hown.policyDigest,
          hmoved.plain rfl⟩
      · rw [htjournal, hstate]
        exact hlags
      · rw [ht]
        exact (hs.follows hfull).refused
      · rw [ht]
        exact hL
    exact ⟨⟨hkept, fun hfull => (hfollows hfull).2.1⟩, fun hfull => (hfollows hfull).1, htjournal,
      fun hfull => (hfollows hfull).2.2⟩
  · intro answer
    cases answer with
    | ok r => exact Triple.ret fun s _ h => h.2
    | error error =>
      apply Triple.fail
      rintro s _ ⟨hok, -⟩ hfull
      rcases hok hfull with ⟨r, hr⟩
      cases hr

/-- **The hold reaches what the journal asks of it.** -/
theorem does_updateUsage :
    Does full w (fun s => s.journal = some j ∧ (full → L s.log)) (updateUsage w j : RelayProg H Unit)
      (fun _ s => s.journal = some j ∧
        (full → L s.log ∧ ∀ state, target j = some state → stateOf s.row = some state))
      fun _ _ => ¬ full := by
  unfold updateUsage
  split
  · rename_i hnone
    apply Triple.ret
    rintro s _ ⟨hjournal, hL⟩
    refine ⟨hjournal, fun hfull => ⟨hL hfull, ?_⟩⟩
    intro state hstate
    rw [target, hnone] at hstate
    cases hstate
  · rename_i state htarget
    have hreached : ∀ state', target j = some state' → state' = state := by
      intro state' hstate'
      rw [target, htarget] at hstate'
      cases hstate'
      rfl
    have hstep : ∀ s : Shared H, Inv full w s → s.journal = some j → full → ∃ current,
        stateOf s.row = some current ∧ (current = state ∨ state ∈ allowedTransitions current) ∧
        lags (phaseOf (some j) .approval) (phaseOf (some j) .deposit) (some state) := by
      intro s hs hjournal hfull
      have hlags := (hs.follows hfull).lags
      rw [hjournal] at hlags
      exact lags_target (hs.kept.valid j hjournal).order hlags htarget
    apply Triple.bind does_loadUsage
    intro row
    cases row with
    | none =>
      apply Triple.fail
      rintro s hs ⟨hrow, hjournal, -⟩ hfull
      rcases hstep s hs hjournal hfull with ⟨current, hcurrent, -⟩
      rw [← hrow] at hcurrent
      cases hcurrent
    | some existing =>
      dsimp only
      apply Triple.ite
      · intro hstate
        apply Triple.ret
        rintro s _ ⟨hrow, hjournal, hL⟩
        refine ⟨hjournal, fun hfull => ⟨hL hfull, ?_⟩⟩
        intro state' hstate'
        rw [hreached state' hstate', ← hrow, ← hstate]
        rfl
      · intro hne
        apply Triple.bind does_now
        intro at'
        apply (does_moveUsage (L := L) (some j) ?_).conseq
        · rintro s hs ⟨hrow, hjournal, hL⟩
          refine ⟨hjournal, fun hfull => ⟨hL hfull, ?_⟩⟩
          rcases hstep s hs hjournal hfull with ⟨current, hcurrent, hmove, hlags⟩
          have hexisting : current = existing.state := by
            rw [← hrow] at hcurrent
            exact (Option.some.inj hcurrent).symm
          refine ⟨current, hcurrent, hmove.resolve_left ?_, (fun _ h => by cases h), hlags⟩
          rw [hexisting]
          exact hne
        · rintro _ s _ ⟨hjournal, hmoved⟩
          refine ⟨hjournal, fun hfull => ⟨(hmoved hfull).1, ?_⟩⟩
          intro state' hstate'
          rw [hreached state' hstate']
          exact (hmoved hfull).2
        · exact fun _ _ _ h => h
        · intro hterminal
          rw [if_pos hterminal]
          rfl

-- A hold that no effect stands behind is released; any other is left as it is.
theorem does_reconcile (row : Option (Reservation H)) :
    Does full w (fun s => s.row = row ∧ (full → L s.log)) (reconcilePreEffectReservation w : RelayProg H Unit)
      (fun _ s => full → L s.log ∧ (s.row = row ∨ stateOf row = some .reserved))
      fun _ s => full → L s.log ∧ (s.row = row ∨ stateOf row = some .reserved) := by
  have hkeep : ∀ s : Shared H, s.row = row ∧ (full → L s.log) →
      full → L s.log ∧ (s.row = row ∨ stateOf row = some .reserved) :=
    fun s h hfull => ⟨h.2 hfull, Or.inl h.1⟩
  apply Triple.bind does_loadUsage
  intro current
  cases current with
  | none => exact Triple.ret fun s _ h => hkeep s h.2
  | some r =>
    dsimp only
    apply Triple.ite
    · exact fun _ => Triple.ret fun s _ h => hkeep s h.2
    intro hne
    have hstate : r.state = .reserved := not_not.mp hne
    apply Triple.pre (N := fun s => stateOf row = some .reserved ∧ stateOf s.row = some .reserved ∧
      (full → L s.log))
    · apply Triple.assume
      intro hreserved
      have hany : ∀ s : Shared H, (full → L s.log) →
          full → L s.log ∧ (s.row = row ∨ stateOf row = some .reserved) :=
        fun s h hfull => ⟨h hfull, Or.inr hreserved⟩
      apply Triple.handle (F := fun _ s => full → L s.log)
      · have hmaterial : Leaves full w (noMaterial : RelayProg H Unit) fun _ => True := by
          apply Silent.run
          rintro s t answer - ⟨-, rfl, -⟩
          exact ⟨rfl, fun _ _ => trivial⟩
        apply Triple.silent hmaterial (fun _ _ _ h => h.2)
        intro _ _
        apply Triple.bind does_loadJournal
        intro journal
        apply Triple.silent leaves_refuse (fun _ _ _ h => h.2.2)
        intro _ hquiet
        have hpending : ∀ role, phaseOf journal role = .pending := by
          intro role
          cases journal with
          | none => rfl
          | some j =>
            have hall : quiet j := by simpa using hquiet
            exact (hall role).1
        apply Triple.bind does_now
        intro at'
        apply (does_moveUsage (L := L) journal (fun _ => rfl)).conseq
        · rintro s _ ⟨hjournal, hrow, hL⟩
          refine ⟨hjournal.symm, fun hfull => ⟨hL hfull, .reserved, hrow, by decide, ?_, ?_⟩⟩
          · intro states hstates
            cases hstates
            exact List.mem_singleton.mpr rfl
          · rw [hpending .approval]
            exact Or.inr (Or.inr rfl)
        · exact fun _ s _ h => hany s fun hfull => (h.2 hfull).1
        · exact fun _ _ _ h hfull => absurd hfull h
      · intro e
        apply Triple.ite
        · exact fun _ => Triple.ret fun s _ h => hany s h
        · exact fun _ => Triple.fail fun s _ h => hany s h
    · rintro s _ ⟨hcurrent, hrow, hL⟩
      have hreserved : stateOf s.row = some .reserved := by
        rw [← hcurrent, ← hstate]
        rfl
      refine ⟨?_, hreserved, hL⟩
      rw [← hrow]
      exact hreserved

-- A reconciliation changes nothing that was read.
theorem does_reconcile_log :
    Does full w (fun s => full → L s.log) (reconcilePreEffectReservation w : RelayProg H Unit)
      (fun _ s => full → L s.log) fun _ s => full → L s.log := by
  intro s hs hL
  refine (does_reconcile (L := L) s.row).conseq (fun _ _ h => h) ?_ ?_ s hs ⟨rfl, hL⟩
  · exact fun _ _ _ h hfull => (h hfull).1
  · exact fun _ _ _ h hfull => (h hfull).1

-- What is settled stays settled: a hold that is still reserved settles nothing.
theorem does_reconcile_settled :
    Does full w (fun s => full → Settled log s.row s.log) (reconcilePreEffectReservation w : RelayProg H Unit)
      (fun _ s => full → Settled log s.row s.log) fun _ s => full → Settled log s.row s.log := by
  intro s hs hsettled
  have hpost : ∀ t : Shared H, (full → Settled log s.row t.log ∧ (t.row = s.row ∨
      stateOf s.row = some .reserved)) → full → Settled log t.row t.log := by
    intro t h hfull
    rcases h hfull with ⟨hlog, hrow | hreserved⟩
    · rw [hrow]
      exact hlog
    · exact (hlog.calm hreserved).settled
  refine (does_reconcile (L := Settled log s.row) s.row).conseq (fun _ _ h => h) ?_ ?_ s hs
    ⟨rfl, hsettled⟩
  · exact fun _ t _ h => hpost t h
  · exact fun _ t _ h => hpost t h

-- A reserve under the operation's key: a row that is there is replayed, or reopened when it asks for it.
theorem does_reserveUsage {registry : AssetPolicyRegistry} {retry : Bool}
    (hretry : full → (retry = true ↔ stateOf row = some .failedBeforeEffect)) :
    Does full w (fun s => s.row = row ∧ s.journal = oj ∧ (full → L s.log))
      (reserveUsage (reserveInput w registry at' retry) : RelayProg H Unit)
      (fun _ s => s.journal = oj ∧ (full → L s.log ∧
        (phaseOf oj .approval = .pending → stateOf s.row = some .reserved)))
      fun _ s => full → L s.log := by
  apply Triple.bind (M := fun answer s => s.journal = oj ∧ (full → L s.log ∧
    ((∃ r, answer = .ok r) → phaseOf oj .approval = .pending → stateOf s.row = some .reserved)))
  · apply Triple.perform
    rintro s answer t hs ⟨hrow, hjournal, hL⟩ ⟨hmeets, hhold, ht⟩
    change Result (Reservation H) at answer
    have hkept : Kept w t := by
      rw [ht]
      cases answer <;> exact ⟨hs.kept.valid, hs.kept.lawful, hs.kept.signs, hs.kept.unsigned, hs.kept.sends,
        hs.kept.unsent, hs.kept.bytes, hs.kept.custody⟩
    have htlog : t.log = s.log := by rw [ht]
    have htjournal : t.journal = s.journal := by rw [ht]
    have hfollows : full → Follows w t ∧
        ((∃ r, answer = .ok r) → phaseOf oj .approval = .pending → stateOf t.row = some .reserved) := by
      intro hfull
      have hfollow := hs.follows hfull
      have hlags := hfollow.lags
      have hretry := hretry hfull
      rcases hold_reserve rfl hhold with ⟨r, rfl, hrow', hid, hpolicy, hcase⟩ | ⟨⟨error, rfl⟩, hsame⟩
      · have hstay : ∀ state, stateOf t.row = some state →
            lags (phaseOf s.journal .approval) (phaseOf s.journal .deposit) (some state) →
            Own w r → Follows w t := by
          intro state hstate hnew hown
          refine ⟨?_, ?_, ?_⟩
          · intro r' hr'
            rw [hrow'] at hr'
            cases hr'
            exact hown
          · rw [htjournal, hstate]
            exact hnew
          · rw [htlog]
            exact hfollow.refused
        have hstate : stateOf t.row = some r.state := by
          rw [hrow']
          rfl
        cases hcase with
        | replayed hsame hkept' =>
          have hown := hfollow.own r hsame
          rw [hsame] at hlags
          refine ⟨hstay r.state hstate hlags hown, fun _ hpending => ?_⟩
          rw [hjournal, hpending] at hlags
          rw [hstate]
          rcases hlags with hnone | hreserved | hfailed
          · cases hnone
          · exact hreserved
          · -- A replay does not answer a hold it should have reopened.
            have hasked : retry = true := by
              apply hretry.mpr
              rw [← hrow, hsame]
              exact hfailed
            exact absurd (Option.some.inj hfailed) (hkept' hasked)
        | fresh hnone hreserved hplain _ =>
          rw [hnone] at hlags
          -- Without a row the approval is pending: every later phase has one behind it.
          have hpending : phaseOf s.journal .approval = .pending := by
            generalize phaseOf s.journal .approval = a at hlags
            generalize phaseOf s.journal .deposit = d at hlags
            cases a with
            | pending => rfl
            | confirmed => cases d <;> simp [lags, stateOf] at hlags
            | _ => simp [lags, stateOf] at hlags
          refine ⟨hstay .reserved ?_ ?_ ⟨hid, ?_, hplain⟩, fun _ _ => ?_⟩
          · rw [hstate, hreserved]
          · rw [hpending]
            exact Or.inr (Or.inl rfl)
          · rw [hpolicy]
            exact hmeets hfull hnone ⟨r, rfl⟩
          · rw [hstate, hreserved]
        | reopened existing hsome _ hfailed hreserved hplain hdigest =>
          have hown := hfollow.own existing hsome
          rw [hsome] at hlags
          have hold : stateOf (some existing) = some .failedBeforeEffect := congrArg some hfailed
          rw [hold] at hlags
          refine ⟨hstay .reserved ?_ ?_ ⟨hid, hdigest.trans hown.policyDigest, hplain hown.plain⟩,
            fun _ _ => ?_⟩
          · rw [hstate, hreserved]
          · generalize phaseOf s.journal .approval = a at hlags ⊢
            generalize phaseOf s.journal .deposit = d at hlags ⊢
            cases a with
            | pending => exact Or.inr (Or.inl rfl)
            | abandonedUnsent => exact Or.inl rfl
            | confirmed => cases d <;> simp [lags] at hlags
            | _ => simp [lags] at hlags
          · rw [hstate, hreserved]
      · refine ⟨⟨?_, ?_, ?_⟩, fun h => ?_⟩
        · rw [hsame]
          exact hfollow.own
        · rw [htjournal, hsame]
          exact hlags
        · rw [htlog]
          exact hfollow.refused
        · rcases h with ⟨r, hr⟩
          cases hr
    refine ⟨⟨hkept, fun hfull => (hfollows hfull).1⟩, htjournal.trans hjournal, fun hfull => ⟨?_, ?_⟩⟩
    · rw [htlog]
      exact hL hfull
    · exact (hfollows hfull).2
  · intro answer
    cases answer with
    | ok r => exact Triple.ret fun s _ h => ⟨h.1, fun hfull => ⟨(h.2 hfull).1, (h.2 hfull).2 ⟨r, rfl⟩⟩⟩
    | error error => exact Triple.fail fun s _ h hfull => (h.2 hfull).1

theorem does_saveAdmission {P : Shared H → Prop}
    (hframe : ∀ s admission, P s → P { s with admission := admission }) {E : RelayError → Shared H → Prop}
    (hE : ∀ e s, P s → E e s) : Does full w P (saveAdmission at' : RelayProg H Unit) (fun _ => P) E := by
  apply Triple.run
  rintro s t answer hs hP ⟨-, hexec⟩
  have hinv : ∀ admission, Inv full w { s with admission := admission } := fun admission =>
    ⟨⟨hs.kept.valid, hs.kept.lawful, hs.kept.signs, hs.kept.unsigned, hs.kept.sends, hs.kept.unsent,
      hs.kept.bytes, hs.kept.custody⟩, fun hfull => ⟨(hs.follows hfull).own, (hs.follows hfull).lags,
      (hs.follows hfull).refused⟩⟩
  simp only [exec] at hexec
  split at hexec
  · rcases hexec with ⟨rfl, rfl⟩
    exact ⟨hs, hE _ t hP⟩
  · rcases hexec with ⟨rfl, rfl⟩
    exact ⟨hs, hP⟩
  · rcases hexec with ⟨rfl, rfl⟩
    exact ⟨hinv _, hframe s _ hP⟩

-- Before the first marker, the hold is reserved.
theorem does_takeHold :
    Does full w (fun s => s.journal = oj ∧ (full → L s.log)) (takeHold w : RelayProg H Unit)
      (fun _ s => s.journal = oj ∧ (full → L s.log ∧
        (phaseOf oj .approval = .pending → stateOf s.row = some .reserved)))
      fun _ s => full → L s.log := by
  apply Triple.silent leaves_now (fun _ _ _ h => h.2)
  intro confirmedAt _
  apply Triple.bind (does_saveAdmission (fun s _ h => h) fun _ s h => h.2)
  intro _
  apply Triple.silent leaves_activePolicy (fun _ _ _ h => h.2)
  intro active _
  cases active with
  | none => exact Triple.fail fun s _ h => h.2
  | some active =>
    apply Triple.silent leaves_now (fun _ _ _ h => h.2)
    intro at' _
    apply Triple.silent (leaves_ask _) (fun _ _ _ h => h.2)
    intro _ _
    apply Triple.bind does_loadUsage
    intro previous
    apply Triple.pre (N := fun s => s.row = previous ∧ s.journal = oj ∧ (full → L s.log))
    · apply Triple.ite
      · intro hfailed
        have hmaterial : Leaves full w (noMaterial : RelayProg H Unit) fun _ => True := by
          apply Silent.run
          rintro s t answer - ⟨-, rfl, -⟩
          exact ⟨rfl, fun _ _ => trivial⟩
        apply Triple.silent hmaterial (fun _ _ _ h => h.2.2)
        intro _ _
        apply Triple.bind (does_loadJournal.conseq (fun _ _ h => h) (fun _ _ _ h => h.2) fun _ _ _ h => h)
        intro journal
        apply Triple.silent leaves_refuse (fun _ _ _ h => h.2.2)
        intro _ _
        apply does_reserveUsage
        intro _
        refine ⟨fun _ => ?_, fun _ => rfl⟩
        cases previous with
        | none => cases hfailed
        | some r => exact congrArg some (by simpa using hfailed)
      · intro hkept
        apply does_reserveUsage
        intro _
        refine ⟨fun h => (nomatch h), fun hstate => ?_⟩
        cases previous with
        | none => cases hstate
        | some r =>
          have hfailed : r.state = .failedBeforeEffect := Option.some.inj hstate
          exact absurd (by simp [hfailed]) hkept
    · exact fun s _ h => ⟨h.1.symm, h.2⟩

/-! ## One call -/

-- A journal that can only be observed is past its first marker.
theorem not_pending_of_observing (hvalid : Valid w.hash.journal w.op j) (h : observationOnly j = true) :
    (j.effects .approval).phase ≠ .pending := by
  intro hpending
  have hdeposit : (j.effects .deposit).phase = .pending := by
    by_contra hne
    have hconfirmed := hvalid.order hne
    rw [hpending] at hconfirmed
    cases hconfirmed
  simp [observationOnly, hpending, hdeposit] at h

theorem does_authorize :
    Does full w (fun s => s.journal = oj ∧ (full → L s.log))
      (authorize w (oj.any observationOnly) : RelayProg H Unit)
      (fun _ s => s.journal = oj ∧ (full → L s.log ∧
        (phaseOf oj .approval = .pending → stateOf s.row = some .reserved)))
      fun _ s => full → L s.log := by
  have hE : ∀ (e : RelayError) (s : Shared H), Inv full w s → (s.journal = oj ∧ (full → L s.log)) →
      full → L s.log := fun _ _ _ h => h.2
  have hauthority : Leaves full w (assertAuthority w (oj.any observationOnly) : RelayProg H Unit)
      fun _ => True :=
    Silent.ite (fun _ => Silent.bind leaves_refuse fun _ _ => leaves_ask _) fun _ => leaves_assertReady
  apply Triple.silent hauthority hE
  intro _ _
  apply Triple.silent (leaves_ask _) hE
  intro confirmed _
  apply Triple.silent leaves_refuse hE
  intro _ _
  apply Triple.ite
  · intro hobserving
    apply Triple.silent leaves_loadAdmission hE
    intro admission _
    refine Triple.conseq (leaves_refuse _) (fun _ _ h => h) ?_ hE
    rintro _ s hs ⟨-, hjournal, hL⟩
    refine ⟨hjournal, fun hfull => ⟨hL hfull, fun hpending => ?_⟩⟩
    cases oj with
    | none => cases hobserving
    | some j => exact absurd hpending (not_pending_of_observing (hs.kept.valid j hjournal) hobserving)
  · intro _
    apply Triple.silent leaves_assertReady hE
    exact fun _ _ => does_takeHold

theorem does_pollApproval {resumed : Bool} (n : ℕ) : ∀ j : RelayEffectJournal,
    Does full w (Ran full log .approval j) (pollApproval w resumed n j : RelayProg H RelayEffectJournal)
      (Ran full log .approval) fun _ => Undecided full log := by
  induction n with
  | zero => exact fun j => Triple.ret fun _ _ h => h
  | succ n ih =>
    intro j
    apply Triple.ite
    · rintro ⟨-, hphase⟩
      apply Triple.bind (does_approvals.pre _) ih
      rintro s _ ⟨hjournal, hran⟩ hfull
      refine ⟨?_, fun hpending => ?_⟩
      · rcases hran hfull with hcalm | ⟨-, hdone⟩
        · exact hcalm
        · rcases hdone with hdone | hdone <;> rw [hphase] at hdone <;> cases hdone
      · rw [hjournal] at hpending
        have hpend : (j.effects .approval).phase = .pending := hpending
        rw [hphase] at hpend
        cases hpend
    · exact fun _ => Triple.ret fun _ _ h => h

/-- **Both effects, each followed by its ledger move**: what the call read of them, the hold shows. -/
theorem does_runEffects {resumed : Bool} :
    Does full w (Backed full log) (runEffects w resumed : RelayProg H RelayEffectJournal)
      (fun _ s => full → Settled log s.row s.log) fun _ s => full → Settled log s.row s.log := by
  have hcalm : ∀ (e : RelayError) (s : Shared H), Inv full w s → Undecided full log s →
      full → Settled log s.row s.log := fun _ _ _ h hfull => (h hfull).settled
  have hnever : ∀ (e : RelayError) (s : Shared H), Inv full w s → ¬ full →
      full → Settled log s.row s.log := fun _ _ _ h hfull => absurd hfull h
  apply Triple.bind (does_approvals.conseq (fun _ _ h => h) (fun _ _ _ h => h) hcalm)
  intro first
  apply Triple.bind ((does_pollApproval w.polls first).conseq (fun _ _ h => h) (fun _ _ _ h => h) hcalm)
  intro approved
  apply Triple.bind ((does_updateUsage (L := fun l => Recorded log approved l ∧
    ((approved.effects .approval).phase = .confirmed → Calm log l))).conseq ?_ (fun _ _ _ h => h) hnever)
  · intro _
    apply Triple.bind (M := fun journal s => s.journal = some journal ∧ (full → Recorded log journal s.log))
    · apply Triple.ite
      · intro hconfirmed
        refine does_deposits.conseq ?_ ?_ hcalm
        · rintro s _ ⟨hjournal, h⟩ hfull
          rcases h hfull with ⟨⟨-, hnone⟩, hreached⟩
          refine ⟨hnone hconfirmed, fun _ hpending => hreached .submitted ?_⟩
          rw [hjournal] at hpending
          have hdeposit : (approved.effects .deposit).phase = .pending := hpending
          rw [target, hconfirmed, hdeposit]
          rfl
        · rintro journal s _ ⟨hjournal, hran⟩
          refine ⟨hjournal, fun hfull => ?_⟩
          rcases hran hfull with hnone | ⟨hrecorded, -⟩
          · exact hnone.recorded
          · exact hrecorded
      · exact fun _ => Triple.ret fun s _ h => ⟨h.1, fun hfull => (h.2 hfull).1.1⟩
    · intro journal
      apply Triple.bind ((does_updateUsage (L := Recorded log journal)).conseq (fun _ _ h => h)
        (fun _ _ _ h => h) hnever)
      intro _
      exact Triple.ret fun s _ h hfull => (h.2 hfull).1.settled (h.2 hfull).2
  · rintro s _ ⟨hjournal, hran⟩
    refine ⟨hjournal, fun hfull => ?_⟩
    rcases hran hfull with hnone | ⟨hrecorded, hdone⟩
    · exact ⟨hnone.recorded, fun _ => hnone⟩
    · refine ⟨hrecorded, fun hconfirmed => ?_⟩
      rcases hdone with hdone | hdone <;> rw [hconfirmed] at hdone <;> cases hdone

/-- **One execute call**, from any state it can find. -/
theorem does_executeScoped (log : List Event) :
    Does full w (fun s => s.log = log) (executeScoped w : RelayProg H RelayEffectJournal)
      (fun _ s => full → Settled log s.row s.log) fun _ s => full → Settled log s.row s.log := by
  have hcalm : ∀ (e : RelayError) (s : Shared H), Inv full w s → (full → Calm log s.log) →
      full → Settled log s.row s.log := fun _ _ _ h hfull => (h hfull).settled
  apply Triple.bind (M := fun _ s => full → Calm log s.log)
  · apply does_reconcile_log.conseq (fun s _ h => ?_) (fun _ _ _ h => h) hcalm
    intro _
    rw [h]
    exact calm_refl
  intro _
  apply Triple.bind does_loadJournal
  intro existing
  apply Triple.bind (does_authorize.conseq (fun s _ h => ⟨h.1.symm, h.2⟩) (fun _ _ _ h => h) hcalm)
  intro _
  apply Triple.handle (F := fun _ s => full → Settled log s.row s.log)
  · apply does_runEffects.pre
    rintro s _ ⟨hjournal, h⟩ hfull
    rw [hjournal]
    exact h hfull
  · intro error
    apply Triple.bind (Triple.attempt does_reconcile_settled)
    intro result
    apply Triple.fail
    intro s _ h
    cases result with
    | ok _ => exact h
    | error _ => exact h

theorem does_command {prog : RelayProg H Unit} (h : Command w prog) :
    Does full w (fun _ => True) prog (fun _ _ => True) fun _ _ => True := by
  cases h with
  | execute =>
    intro s hs _
    have hcall : Does full w (fun t => t.log = s.log)
        ((executeScoped w : RelayProg H RelayEffectJournal).bind fun _ => .ret ()) (fun _ _ => True)
        fun _ _ => True :=
      Triple.bind ((does_executeScoped s.log).conseq (fun _ _ h => h) (fun _ _ _ h => h) fun _ _ _ _ => trivial)
        fun _ => Triple.ret fun _ _ _ => trivial
    exact hcall s hs rfl

theorem meetsIf_true : MeetsIf True w = Meets (H := H) w := by
  funext s o answer
  simp [MeetsIf]

theorem meetsIf_false : MeetsIf False w = fun (_ : Shared H) (_ : RelayOp) _ => True := by
  funext s o answer
  simp [MeetsIf]

end PaymentNode.RelaySource

namespace PaymentNode

open RelaySource

/-- The steps of the calls on one operation that meet a condition. -/
abbrev RelaySourceStep (H : LedgerHash) (w : RelaySetting)
    (meets : RelaySource.Shared H → (o : RelayOp) → o.Answer H → Prop) :=
  Solo.Step (Solo.Exec.only (exec w) meets) (Command w)

variable {H : LedgerHash} {w : RelaySetting}

/-- **The usage hold of a Relay source follows its effects**: in every run whose steps meet the condition the
ledger refuses no move it is asked for, a hold is released only where nothing was sent, finalized only where
the deposit is confirmed and counted back only where the deposit was not sent or failed; and a call that reads
a final outcome ends with the hold in the matching state. -/
theorem relay_hold_follows_effects
    {labels : List (System.Label RelayOp (RelayOp.Answer H) RelayError Unit)}
    {c : System.Config RelayOp (RelayOp.Answer H) RelayError (RelaySource.Shared H) Unit}
    (hrun : Runs.Run (RelaySourceStep H w (Meets w)) (System.idle Shared.start) labels c) :
    (∀ input, .refused input ∉ c.shared.log) ∧
      (∀ r, c.shared.row = some r →
        (r.state = .failedBeforeEffect → ∀ role, sends role c.shared.log = 0) ∧
        (r.state = .finalized → phaseOf c.shared.journal .deposit = .confirmed) ∧
        (r.state = .failedConfirmedRevert →
          sends .deposit c.shared.log = 0 ∨ phaseOf c.shared.journal .deposit = .failed)) ∧
      ∀ answer t, System.Ends (Solo.system (Solo.Exec.only (exec w) (Meets w))) () (executeScoped w) c.shared
        answer t → Settled c.shared.log t.row t.log := by
  rw [← meetsIf_true] at hrun ⊢
  have hinv : Inv True w c.shared := Solo.inv_of_run (fun _ h => does_command h) inv_start hrun
  have hfollows := hinv.follows trivial
  refine ⟨hfollows.refused, ?_, ?_⟩
  · intro r hrow
    have hlags := hfollows.lags
    have horder : phaseOf c.shared.journal .deposit ≠ .pending →
        phaseOf c.shared.journal .approval = .confirmed := by
      cases hjournal : c.shared.journal with
      | none => exact fun h => absurd rfl h
      | some j => exact (hinv.kept.valid j hjournal).order
    have hunsent := hinv.kept.unsent
    rw [show stateOf c.shared.row = some r.state by rw [hrow]; rfl] at hlags
    have happroval := hunsent .approval
    have hdeposit := hunsent .deposit
    generalize phaseOf c.shared.journal .approval = a at *
    generalize phaseOf c.shared.journal .deposit = d at *
    refine ⟨fun hstate role => ?_, fun hstate => ?_, fun hstate => ?_⟩
    · have hphases : RelaySource.crossed a = false ∧ RelaySource.crossed d = false := by
        rw [hstate] at hlags
        cases a <;> cases d <;> simp_all [RelaySource.lags, RelaySource.crossed]
      cases role with
      | approval => exact happroval hphases.1
      | deposit => exact hdeposit hphases.2
    · rw [hstate] at hlags
      cases a <;> cases d <;> simp_all [RelaySource.lags]
    · have hphase : RelaySource.crossed d = false ∨ d = .failed := by
        rw [hstate] at hlags
        cases a <;> cases d <;> simp_all [RelaySource.lags, RelaySource.crossed]
      exact hphase.imp hdeposit id
  · intro answer t hends
    have hsettled := (does_executeScoped c.shared.log).ends hinv rfl hends
    cases answer with
    | ok a => exact hsettled trivial
    | error e => exact hsettled trivial

namespace RelaySourceRuns

open RelayEffects

def account : String := "0x1111111111111111111111111111111111111111"
def approvalHash : String := "0xaaaaaaaaaaaaaaaaaaaaaaaaaaaaaaaaaaaaaaaaaaaaaaaaaaaaaaaaaaaaaaaa"
def depositHash : String := "0xdddddddddddddddddddddddddddddddddddddddddddddddddddddddddddddddd"
def blockHash : String := "0xbbbbbbbbbbbbbbbbbbbbbbbbbbbbbbbbbbbbbbbbbbbbbbbbbbbbbbbbbbbbbbbb"
def attemptMarker : String := "cccccccccccccccccccccccccccccccccccccccccccccccccccccccccccccccc"
theorem marker_shape : hexHash attemptMarker := by decide
def midnight : Instant := .epoch

def rawOf : RelayEffectRole → String
  | .approval => "0x0a"
  | .deposit => "0x0d"

def phaseDigit : RelayEffectPhase → Char
  | .pending => '0'
  | .signingStarted => '1'
  | .sealed => '2'
  | .submitting => '3'
  | .confirmed => '4'
  | .failed => '5'
  | .abandonedUnsent => '6'

/-- A digest that tells the phases of one journal apart. -/
def bodyHash (body : RelayEffectJournalBody) : String :=
  String.ofList (phaseDigit (body.effects .approval).phase :: phaseDigit (body.effects .deposit).phase ::
    List.replicate 62 '0')

theorem bodyHash_shape (body : RelayEffectJournalBody) : hexHash (bodyHash body) := by
  have hdigit : ∀ phase, lowerHexDigit (phaseDigit phase) := by
    intro phase
    cases phase <;> decide
  simp only [hexHash, bodyHash, String.toList_ofList, List.length_cons, List.length_replicate, List.all_cons,
    hdigit]
  decide

def envelope (target data : String) : RelayQuoteTransaction := ⟨account, target, data, 0, 1, 100, 20, 2⟩

def op : RelayUnsignedOperation where
  profile := "default"
  profileHash := "0f"
  operationId := "op-1"
  integrityHash := "1f"
  sourceAccount := account
  recipient := "recipient"
  amountAtomic := 1000
  minOutputAtomic := 900
  deadline := ⟨1000000, by decide, by decide⟩
  quoteDigest := "2f"
  requestId := "3f"
  policyDigest := "4f"
  policyRevision := 1
  approvalNetworkFeeCeilingWei := 2000
  depositNetworkFeeCeilingWei := 2000
  depository := ETHEREUM_DEPOSITORY
  orderId := "5f"
  approval := envelope ETHEREUM_USDC "0xa0"
  deposit := envelope ETHEREUM_DEPOSITORY "0xd0"

def signedTransaction (role : RelayEffectRole) : RelaySignedTransaction :=
  ⟨account, 1, true, (op.envelope role).target, (op.envelope role).data, 0, some 100, some 20, some 2, some 7, 0⟩

def hash : RelayHash where
  journal := ⟨bodyHash, bodyHash_shape⟩
  keccak256 := fun raw => if raw = rawOf .approval then approvalHash else depositHash
  parseTransaction := fun raw => some (signedTransaction (if raw = rawOf .approval then .approval else .deposit))
  getAddress := fun address => address
  executionRoute := fun _ => "route"
  approveData := fun _ => "0xa0"
  decodeDeposit := fun _ => some ⟨account, ETHEREUM_USDC, 1000, "5f"⟩
  envelopeBinding := fun role _ => roleName role
  noEffectDigest := fun _ => "6f"
  keccak256_shape := by
    intro raw
    split
    · decide
    · decide

def setting : RelaySetting := ⟨hash, ⟨fun _ _ => true, fun _ _ => true⟩, op, 0, false⟩

def ledgerHash : LedgerHash := ⟨fun key => key, fun _ key => key, fun proof => proof.receiptHash⟩

/-- A policy that lets the account bridge the token. -/
def registry : AssetPolicyRegistry where
  schemaVersion := .v1
  registryVersion := "policy-1"
  effectiveDate := 0
  effectiveAt := none
  expiresAt := none
  chains := [⟨"eip155:1", .evm, [⟨.token ETHEREUM_USDC, fun rail => rail = .bridge, some ⟨5000, 5000⟩,
    fun _ => none, none⟩]⟩]
  policyDigest := "4f"

def answers : (q : RelayAsk) → q.Answer
  | .assertOwner => ()
  | .activePolicy => some ⟨"default", "4f", 1, account, registry⟩
  | .publicAccount => some account
  | .confirm => true
  | .usageTotal _ => 1000
  | .policyAdmits _ _ _ => ()
  | .funding => ⟨1, 10000, 1000, 1000, 3, 7⟩
  | .readApproval hash => some ⟨hash, account, ETHEREUM_USDC, "0xa0", 0, 1, hash, .success, blockHash,
      [⟨ETHEREUM_USDC, [approvalTopic, word account, word ETHEREUM_DEPOSITORY], wordOfNat 1000, hash, blockHash⟩],
      blockHash, some true⟩

variable (status : RelayReceiptStatus)

/-- A final receipt of an effect. -/
def observation (role : RelayEffectRole) (hash : String) : RelayObservation where
  hash := hash
  sender := account
  target := (op.envelope role).target
  input := (op.envelope role).data
  value := 0
  chainId := 1
  transactionHash := hash
  status := status
  blockHash := blockHash
  logs := [⟨ETHEREUM_USDC, [approvalTopic, word account, word ETHEREUM_DEPOSITORY], wordOfNat 1000, hash,
    blockHash⟩]
  canonicalBlockHash := blockHash
  finalized := some true

/-- A write of the own row, with the ledger's refusals in the log. -/
def written (s : Shared ledgerHash) (write : Bucket ledgerHash → Result (Reservation ledgerHash × Bucket ledgerHash))
    (refusal : List Event) : Result (Reservation ledgerHash) × Shared ledgerHash :=
  ((ownWrite setting.usageKey s.row write).1,
    { s with
      row := (ownWrite setting.usageKey s.row write).2
      log := match (ownWrite setting.usageKey s.row write).1 with
        | .ok _ => s.log
        | .error _ => refusal ++ s.log })

/-- Ports that answer and files that work; both effects end in `status` as soon as they are sent. -/
def play (s : Shared ledgerHash) :
    (o : RelayOp) → o.Answer ledgerHash × Shared ledgerHash
  | .loadJournal => (loaded setting s.journal, s)
  | .createJournal at' =>
    match created setting s.journal at' with
    | .ok j => (.ok j, { s with journal := some j })
    | .error e => (.error e, s)
  | .transition expected role event =>
    match advanced setting s.journal expected role event with
    | .ok j => (.ok j, { s with journal := some j })
    | .error e => (.error e, s)
  | .loadAdmission => (loadedAdmission setting s.admission, s)
  | .saveAdmission at' =>
    match loadedAdmission setting s.admission with
    | .error e => (.error e, s)
    | .ok (some _) => (.ok (), s)
    | .ok none => (.ok (), { s with admission := some (ownAdmission setting at') })
  | .loadSlot role => (loadedSlot setting role (s.slots role), s)
  | .sealSlot role signed =>
    match sealedSlot setting role (s.slots role) signed with
    | .ok m => (.ok (), { s with slots := Function.update s.slots role (some m) })
    | .error e => (.error e, s)
  | .discardSlot role => (.ok (), { s with slots := Function.update s.slots role none })
  | .noMaterial =>
    (if (s.slots .approval).isNone ∧ (s.slots .deposit).isNone then .ok ()
      else .error (blockedError "signed_effect_custody_exists"), s)
  | .hold .load => (s.row, s)
  | .hold (.transition input) =>
    written s (fun bucket => PaymentNode.transition setting.usageKey.identity bucket input) [.refused input]
  | .hold (.reserve input) =>
    written s (fun bucket => reserveBound setting.addresses setting.usageKey.identity bucket input none) []
  | .now => (midnight, s)
  | .marker => (attemptMarker, s)
  | .ask q => (.ok (answers q), s)
  | .sign role _ => (.ok (rawOf role), s.add (.signed role s.journal))
  | .send role raw => (.ok "", s.add (.sent role raw (s.slots role) s.journal))
  | .observe role hash =>
    (.ok (some (observation status role hash)),
      match outcomeOf setting role hash (.ok (some (observation status role hash))) with
      | some outcome => s.add (.observed role outcome)
      | none => s)
  | .unsentOutcome _ _ _ => (.ok .nonceNotConsumed, s)

def OwnRow (s : Shared ledgerHash) : Prop :=
  ∀ r, s.row = some r → r.reservationId = setting.usageKey.reservationId ledgerHash

theorem play_exec (s : Shared ledgerHash) (o : RelayOp) (hs : OwnRow s) :
    exec setting s o (play status s o).1 (play status s o).2 ∧ OwnRow (play status s o).2 := by
  cases o with
  | loadJournal => exact ⟨⟨rfl, rfl⟩, hs⟩
  | createJournal at' =>
    simp only [exec, play]
    cases created setting s.journal at' <;> exact ⟨⟨rfl, rfl⟩, hs⟩
  | transition expected role event =>
    simp only [exec, play]
    cases advanced setting s.journal expected role event <;> exact ⟨⟨rfl, rfl⟩, hs⟩
  | loadAdmission => exact ⟨⟨rfl, rfl⟩, hs⟩
  | saveAdmission at' =>
    simp only [exec, play]
    rcases loadedAdmission setting s.admission with e | (_ | a) <;> exact ⟨⟨rfl, rfl⟩, hs⟩
  | loadSlot role => exact ⟨⟨rfl, Or.inl rfl⟩, hs⟩
  | sealSlot role signed =>
    simp only [exec, play]
    cases sealedSlot setting role (s.slots role) signed with
    | ok m => exact ⟨Or.inl ⟨(), rfl, rfl⟩, hs⟩
    | error e => exact ⟨Or.inr ⟨⟨e, rfl⟩, rfl⟩, hs⟩
  | discardSlot role => exact ⟨Or.inl ⟨(), rfl, rfl⟩, hs⟩
  | noMaterial =>
    simp only [exec, play]
    by_cases hnone : (s.slots .approval).isNone ∧ (s.slots .deposit).isNone
    · refine ⟨⟨trivial, fun _ role => ?_⟩, hs⟩
      cases role with
      | approval => exact Option.isNone_iff_eq_none.mp hnone.1
      | deposit => exact Option.isNone_iff_eq_none.mp hnone.2
    · rw [if_neg hnone]
      exact ⟨⟨trivial, fun h => by cases h⟩, hs⟩
  | hold q =>
    cases q with
    | load => exact ⟨⟨⟨rfl, rfl⟩, rfl⟩, hs⟩
    | transition input =>
      refine ⟨⟨writeExec_own hs, ?_⟩, ownWrite_id hs⟩
      simp only [play, written]
      generalize ownWrite setting.usageKey s.row _ = written
      rcases written with ⟨answer | answer, row⟩ <;> rfl
    | reserve input =>
      refine ⟨⟨writeExec_own hs, ?_⟩, ownWrite_id hs⟩
      simp only [play, written]
      generalize ownWrite setting.usageKey s.row _ = written
      rcases written with ⟨answer | answer, row⟩ <;> rfl
  | now => exact ⟨rfl, hs⟩
  | marker => exact ⟨⟨rfl, marker_shape⟩, hs⟩
  | ask q => exact ⟨rfl, hs⟩
  | sign role nonce => exact ⟨rfl, hs⟩
  | send role raw => exact ⟨rfl, hs⟩
  | observe role hash =>
    simp only [exec, play]
    cases outcomeOf setting role hash (.ok (some (observation status role hash))) with
    | none => exact ⟨rfl, hs⟩
    | some outcome => exact ⟨rfl, hs⟩
  | unsentOutcome role nonce hash => exact ⟨rfl, hs⟩

/-- What the condition asks of the operations that the calls do. -/
def check (s : Shared ledgerHash) : RelayOp → Bool
  | .observe .approval hash =>
    outcomeOf setting .approval hash (.ok (some (observation status .approval hash))) ≠ some .failed ||
      stateOf s.row ≠ some .reserved
  | .hold (.reserve input) => s.row.isSome || input.registry.policyDigest = op.policyDigest
  | .transition _ role (.observe _ at') | .transition _ role (.recordNeverLanded at') =>
    s.journal.all fun j => (j.effects role).attempt.all fun a => a.markedAt ≤ at'
  | _ => true

theorem meets_play {status : RelayReceiptStatus} {s : Shared ledgerHash} {o : RelayOp}
    (h : check status s o) : Meets setting s o (play status s o).1 := by
  cases o with
  | observe role hash =>
    cases role with
    | approval =>
      intro hfails hreserved
      simp only [check, Bool.or_eq_true, decide_eq_true_eq] at h
      exact h.elim (fun h => h hfails) fun h => h hreserved
    | deposit => trivial
  | hold q =>
    cases q with
    | reserve input =>
      intro hnone _
      rw [check, hnone] at h
      exact of_decide_eq_true h
    | load => trivial
    | transition input => trivial
  | discardSlot role => exact ⟨(), rfl⟩
  | loadJournal => trivial
  | createJournal at' => trivial
  | transition expected role event =>
    intro j hjournal
    cases event with
    | observe outcome at' =>
      intro attempt hattempt
      simp only [check, hjournal, Option.all_some, hattempt] at h
      exact of_decide_eq_true h
    | recordNeverLanded at' =>
      intro attempt hattempt
      simp only [check, hjournal, Option.all_some, hattempt] at h
      exact of_decide_eq_true h
    | markSigning marker at' => trivial
    | sealSigned hash => trivial
    | markSubmitting at' => trivial
  | loadAdmission => trivial
  | saveAdmission at' => trivial
  | loadSlot role => trivial
  | sealSlot role signed => trivial
  | noMaterial => trivial
  | now => trivial
  | marker => trivial
  | ask q => trivial
  | sign role nonce => trivial
  | send role raw => trivial
  | unsentOutcome role nonce hash => trivial

/-- One execute call. -/
def calls :
    List (System.Call RelayOp (RelayOp.Answer ledgerHash) RelayError (Shared ledgerHash)) :=
  [⟨(executeScoped setting).bind fun _ => .ret (), play status, 200⟩]

def after (status : RelayReceiptStatus) : Shared ledgerHash :=
  (calls status).foldl (fun s call => call.after s) Shared.start

theorem run_after
    (meets : Shared ledgerHash → (o : RelayOp) → o.Answer ledgerHash → Prop)
    (check : Shared ledgerHash → RelayOp → Bool)
    (hmeets : ∀ s o, check s o → meets s o (play status s o).1)
    (hchecked : System.checkedCalls check (calls status) Shared.start) :
    ∃ labels, Runs.Run (RelaySourceStep ledgerHash setting meets) (System.idle Shared.start) labels
      (System.idle (after status)) := by
  refine System.run_calls_checked (I := OwnRow) (fun _ => rfl) (calls status) ?_ _ (fun r hr => (nomatch hr))
    hchecked
  intro call hcall
  rw [List.mem_singleton.mp hcall]
  exact ⟨.execute, fun s o hs hcheck =>
    ⟨⟨hmeets s o hcheck, (play_exec status s o hs).1⟩, (play_exec status s o hs).2⟩⟩

end RelaySourceRuns

open RelaySourceRuns in
/-- Approval and deposit are signed, sent and confirmed in one call, and the hold is finalized. -/
theorem relay_hold_follows_confirmed_deposit : ∃ labels c,
    Runs.Run (RelaySourceStep ledgerHash setting (Meets setting)) (System.idle Shared.start) labels c ∧
      stateOf c.shared.row = some .finalized ∧ ∀ input, .refused input ∉ c.shared.log := by
  rcases run_after .success (Meets setting) (RelaySourceRuns.check .success) (fun _ _ => meets_play) (by decide +kernel) with
    ⟨labels, hrun⟩
  exact ⟨labels, _, hrun, by decide +kernel, (relay_hold_follows_effects hrun).1⟩

open RelaySourceRuns in
/-- The approval is sent and reverts within one call: the hold is still reserved, and the ledger refuses to
count it back. -/
theorem relay_revert_refused_while_reserved : ∃ labels c,
    Runs.Run (RelaySourceStep ledgerHash setting fun _ _ _ => True) (System.idle Shared.start) labels c ∧
      stateOf c.shared.row = some .reserved ∧
      ∃ input, .refused input ∈ c.shared.log ∧ input.state = .failedConfirmedRevert := by
  rcases run_after .reverted (fun _ _ _ => True) (fun _ _ => true)
    (fun _ _ _ => trivial) (System.checkedCalls_true _ _) with ⟨labels, hrun⟩
  have hafter : stateOf (after .reverted).row = some .reserved ∧ ((after .reverted).log.any fun e => match e with
      | .refused input => input.state = .failedConfirmedRevert
      | _ => false) := by decide +kernel
  rcases List.any_eq_true.mp hafter.2 with ⟨e, he, hstate⟩
  cases e with
  | refused input => exact ⟨labels, _, hrun, hafter.1, input, he, of_decide_eq_true hstate⟩
  | _ => cases hstate

end PaymentNode
