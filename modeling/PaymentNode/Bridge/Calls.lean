import PaymentNode.Bridge.Walk

/-!
# Calls — the programs of a bridge call walked

One specification per program, in the order of the code: the observation of the source chain, the ends of an
operation, the destination, the execution of the effects, and the calls.  Each starts from the record it is given.
-/

namespace PaymentNode

open BridgeProg Trace

namespace Bridge

variable {W : Type} {rules : Rules W BridgeEvent} {signing : BridgeSigning} {α β : Type}
  {o next : BridgeOperation} {m : BridgeMutable} {P R : List BridgeEvent → Prop}
  {log : List BridgeEvent} {role : BridgeRole} {e : BridgeEffect}

abbrev anyEnd {ε : Type} (_ : ε) (_ : List BridgeEvent) : Prop := True

/-- `x` adds only lawful events. -/
abbrev Sound (rules : Rules W BridgeEvent) (signing : BridgeSigning) (P : List BridgeEvent → Prop)
    (x : BridgeProg α) : Prop :=
  Walk rules signing P x anyEnd anyEnd

variable {E : BridgeError → List BridgeEvent → Prop} {Q : α → List BridgeEvent → Prop}

theorem Sound.of {x : BridgeProg α} (h : Walk rules signing P x Q E) : Sound rules signing P x :=
  h.conseq (fun _ h => h) (fun _ _ _ => trivial) fun _ _ _ => trivial

theorem Sound.ret {a : α} : Sound rules signing P (Prog.ret a) := Walks.ret fun _ _ => trivial

-- That the record is open is assumed beside the log.
theorem walk_open {x : BridgeProg α}
    (h : o.terminal = false → Walk rules signing (At o R) x Q E) : Walk rules signing (At o R) x Q E :=
  Walks.pre (Walks.assume h) fun _ hat => ⟨hat.1.2, hat⟩

-- The record a call goes on from is valid.
theorem walk_valid {x : BridgeProg α}
    (h : o.Valid → Walk rules signing (At o R) x Q E) : Walk rules signing (At o R) x Q E := by
  apply Walks.lawful_pre
  have hassumed : Walk rules signing (fun log => o.Valid ∧ At o R log) x Q E := Walks.assume h
  apply hassumed.pre
  intro log ⟨hlawful, hat⟩
  exact ⟨record_valid hlawful hat.1.1, hat⟩

/-! ## Saves -/

section Saves

variable {next : BridgeOperation}

theorem SavedAs.state (h : SavedAs o next m) : next.state = m.state :=
  (congrArg BridgeMutable.state h.meaning :)

theorem SavedAs.effects (h : SavedAs o next m) : next.effects = m.effects :=
  (congrArg BridgeMutable.effects h.meaning :)

theorem SavedAs.failure (h : SavedAs o next m) : next.failure = m.failure :=
  (congrArg BridgeMutable.failure h.meaning :)

theorem SavedAs.sourceProof (h : SavedAs o next m) : next.latest.sourceProof = m.sourceProof :=
  (congrArg BridgeMutable.sourceProof h.meaning :)

theorem SavedAs.destinationProof (h : SavedAs o next m) :
    next.latest.destinationProof = m.destinationProof :=
  (congrArg BridgeMutable.destinationProof h.meaning :)

/-- The operation goes on in this state. -/
def Proceeds (o : BridgeOperation) (state : BridgeState) : Prop :=
  state = o.state ∨ (state.terminal = false ∧ state ≠ .awaitingApproval)

theorem Proceeds.open {state : BridgeState} (h : Proceeds o state) (hopen : o.terminal = false) :
    state.terminal = false := by
  rcases h with rfl | h
  · exact hopen
  · exact h.1

theorem Proceeds.begun {state : BridgeState} (h : Proceeds o state) (hstate : o.state ≠ .awaitingApproval) :
    state ≠ .awaitingApproval := by
  rcases h with rfl | h
  · exact hstate
  · exact h.2

theorem proceeds_same : Proceeds o o.state := .inl rfl

theorem walk_save_at (hR : Lasting R) (h : ∀ log, At o R log → Writes log o m)
    (hstate : Proceeds o m.state) :
    Walk rules signing (At o R) (save o m) (fun next log => SavedAs o next m ∧ At next R log)
      fun _ log => Held log o ∧ R log := by
  apply walk_open
  intro hopen
  have hsave : Walk rules signing (At o R) (save o m)
      (fun next log => record log = some next ∧ SavedAs o next m ∧ R log)
      (fun _ log => Held log o ∧ R log) := by
    apply walk_save (kept_at hR) hR hopen
    intro log hat
    exact ⟨Held.of_record hat.1.1, h log hat, hat.2⟩
  apply hsave.conseq (fun _ h => h) _ fun _ _ h => h
  intro next log ⟨hrecord, hsaved, hRlog⟩
  refine ⟨hsaved, ⟨hrecord, ?_⟩, hRlog⟩
  unfold BridgeOperation.terminal
  rw [hsaved.state]
  exact hstate.open hopen

theorem walk_saved {Q : BridgeOperation → List BridgeEvent → Prop} (hR : Lasting R)
    (h : ∀ log, At o R log → Writes log o m) (hstate : Proceeds o m.state)
    (hQ : ∀ next log, SavedAs o next m → At next R log → Q next log) :
    Walk rules signing (At o R) (save o m) Q anyEnd :=
  (walk_save_at hR h hstate).conseq (fun _ h => h) (fun n log h => hQ n log h.1 h.2) fun _ _ _ => trivial

theorem sound_save (hR : Lasting R) (h : ∀ log, At o R log → Writes log o m) :
    Sound rules signing (At o R) (save o m) := by
  apply walk_open
  intro hopen
  have hsave : Walk rules signing (At o R) (save o m)
      (fun next log => record log = some next ∧ SavedAs o next m ∧ R log)
      (fun _ log => Held log o ∧ R log) := by
    apply walk_save (kept_at hR) hR hopen
    intro log hat
    exact ⟨Held.of_record hat.1.1, h log hat, hat.2⟩
  exact Sound.of hsave

end Saves

/-- What a call leaves of the record it began with. -/
structure Onward (o next : BridgeOperation) : Prop where
  intent : next.intent = o.intent
  begun : o.state ≠ .awaitingApproval → next.state ≠ .awaitingApproval

theorem Onward.refl : Onward o o := ⟨rfl, fun h => h⟩

theorem Onward.trans {p : BridgeOperation} (h : Onward o p) (h' : Onward p next) : Onward o next :=
  ⟨h'.intent.trans h.intent, fun hstate => h'.begun (h.begun hstate)⟩

theorem SavedAs.onward (h : SavedAs o next m) (hstate : Proceeds o m.state) : Onward o next := by
  refine ⟨h.intent, fun ho => ?_⟩
  rw [h.state]
  exact hstate.begun ho

-- The record a save leaves, as the next one to go on from.
theorem walk_onward {p : BridgeOperation} (hp : Onward p o) (hR : Lasting R)
    (h : ∀ log, At o R log → Writes log o m) (hstate : Proceeds o m.state) :
    Walk rules signing (At o R) (save o m) (fun next log => Onward p next ∧ At next R log) anyEnd :=
  walk_saved hR h hstate fun _ _ hsaved hat => ⟨hp.trans (hsaved.onward hstate), hat⟩

-- The state that an observation leaves unknown.
theorem proceeds_unknown : Proceeds o .unknownFinality := .inr ⟨rfl, fun h => nomatch h⟩

theorem proceeds_source : Proceeds o .sourcePending := .inr ⟨rfl, fun h => nomatch h⟩

/-! ## Observation -/

section Observation

theorem undiagnosed_plain {reason : String} : Undiagnosed o (.plain reason) :=
  .inl ⟨rfl, (fun h => nomatch h), fun h => nomatch h⟩

-- The retained diagnostic, or a failure without one.
theorem undiagnosed_retained {f g : BridgeFailure} (h : Undiagnosed o f)
    (hg : ((retainedUnsentBridgeRpcFailure o.latest.toBridgeMutable) <|> some f) = some g) :
    Undiagnosed o g := by
  cases hretained : retainedUnsentBridgeRpcFailure o.latest.toBridgeMutable with
  | none =>
    rw [hretained] at hg
    cases hg
    exact h
  | some r => exact .inr (by rw [hretained]; rfl)

theorem submitted_of (heff : o.effect? role = some e) (h : e.submissionAttempts = 1) : Submitted o :=
  ⟨e, BridgeEffects.mem_all.mpr ⟨role, heff⟩, h⟩

-- An observation that leaves the state unknown, of a submitted operation.
theorem writes_unknown {f : BridgeFailure} (h : Submitted o) (hf : Undiagnosed o f) :
    Writes log o { o.latest.toBridgeMutable with
      state := .unknownFinality
      failure := (retainedUnsentBridgeRpcFailure o.latest.toBridgeMutable) <|> some f } :=
  .restates .unknownFinality _ (.unknown _ h fun _ hg => undiagnosed_retained hf hg)

theorem unsourced_effects {m : BridgeMutable} : (unsourced role m).effects = m.effects := by
  unfold unsourced
  split <;> rfl

/-- This inclusion was read of the effect. -/
def Sighted (o : BridgeOperation) (role : BridgeRole) (seen : BridgeSourceObservation)
    (R : List BridgeEvent → Prop) (log : List BridgeEvent) : Prop :=
  Seen log o role seen.transaction seen.sourceProof.toOption ∧ R log

theorem lasting_sighted {seen : BridgeSourceObservation} (hR : Lasting R) :
    Lasting (Sighted o role seen R) :=
  lasting_seen.and hR

-- The inclusion of a submitted effect is stored as it was seen.
theorem walk_observeInclusion {seen : BridgeSourceObservation} {reliable : Bool} (hR : Lasting R)
    (heff : o.effect? role = some e) (hattempts : e.submissionAttempts = 1) (hsafe : e.safeProof = none) :
    Walk rules signing (At o (Sighted o role seen R)) (observeInclusion o role e seen reliable)
      (fun r log => Onward o r.1 ∧ At r.1 R log) anyEnd := by
  unfold observeInclusion
  dsimp only
  apply Walks.branch (M := fun next log =>
    (Onward o next ∧ ∃ current, next.effect? role = some current ∧
      current.submissionAttempts = 1 ∧ current.safeProof = none ∧
      ∀ p ∈ current.includedProof, p.inclusion = seen.transaction.inclusion) ∧
    At next (Sighted next role seen R) log)
  · intro hmoved
    have hincluded : e.includedProof.isSome = true := by
      cases hproof : e.includedProof with
      | none => rw [hproof] at hmoved; cases hmoved
      | some p => rfl
    have hmovedState : Proceeds o (inclusionMoved o role e).state := by
      unfold inclusionMoved unsourced
      split <;> exact proceeds_unknown
    apply walk_saved (lasting_sighted hR)
    · exact fun log _ => .moved role e heff hattempts hsafe hincluded
    · exact hmovedState
    intro next log hsaved ⟨hrecord, hseen, hRlog⟩
    have heffects : next.effects = o.effects.replace role (unknownEffect e) := by
      rw [hsaved.effects]
      exact unsourced_effects
    have hcurrent : next.effect? role = some (unknownEffect e) := by
      unfold BridgeOperation.effect?
      rw [heffects]
      exact BridgeEffects.get?_replace_self heff
    refine ⟨⟨?_, unknownEffect e, hcurrent, hattempts, rfl, fun _ h => nomatch h⟩, hrecord, ?_, hRlog⟩
    · exact hsaved.onward hmovedState
    · rcases hseen with ⟨older, hsuffix, o', ho', hintent, hhash, hbridge⟩
      refine ⟨older, hsuffix, o', ho', ?_, ?_, ?_⟩
      · rw [hsaved.intent]
        exact hintent
      · rw [hcurrent, hhash, heff]
        rfl
      · rw [heffects, hbridge]
        cases role with
        | approval => rfl
        | bridge =>
          cases heff
          rfl
  · intro hsame
    apply Walks.ret
    intro log hat
    refine ⟨⟨Onward.refl, e, heff, hattempts, hsafe, ?_⟩, hat⟩
    intro p hp
    rw [Option.mem_def.mp hp] at hsame
    simpa using hsame
  intro next
  apply Walks.assume
  rintro ⟨honward, current, hcurrent, hattempts, hsafe, hincluded⟩
  rw [hcurrent]
  -- whatever the source proof, the inclusion is stored with it
  have hfinish : ∀ proof : Option BridgeSourceProof,
      (role = .bridge → seen.transaction.status = .success → seen.sourceProof.toOption.isSome) →
      proof = (if role = .bridge ∧ seen.transaction.status = .success then seen.sourceProof.toOption
        else next.latest.sourceProof) →
      Walk rules signing (At next (Sighted next role seen R))
        (save next (withInclusion next role current seen.transaction proof reliable))
        (fun n log => Onward o n ∧ At n R log) anyEnd := by
    intro proof hproved hproof
    have hstate : Proceeds next (withInclusion next role current seen.transaction proof reliable).state := by
      show Proceeds next (if reliable then .sourcePending else .unknownFinality)
      cases reliable with
      | true => exact proceeds_source
      | false => exact proceeds_unknown
    apply walk_saved (lasting_sighted hR)
    · intro log hat
      rw [hproof]
      exact .includes role current seen.transaction seen.sourceProof.toOption reliable hcurrent hattempts
        hsafe hat.2.1 hincluded hproved
    · exact hstate
    · exact fun n log hsaved hat => ⟨honward.trans (hsaved.onward hstate), hat.1, hat.2.2⟩
  show Walk _ _ _ (if role = .bridge ∧ seen.transaction.status = .success then _ else _) _ _
  split
  · rename_i hbridge
    split
    · rename_i fault hfault
      apply Walks.bind (M := fun n log => Onward o n ∧ At n R log)
      · apply walk_saved (lasting_sighted hR)
        · refine fun log _ => .restates .unknownFinality _ (.unknown _ (submitted_of hcurrent hattempts) ?_)
          intro f hf
          cases hf
          exact .inl ⟨rfl, (fun h => nomatch h), fun h => nomatch h⟩
        · exact proceeds_unknown
        · exact fun n log hsaved hat =>
            ⟨honward.trans (hsaved.onward proceeds_unknown), hat.1, hat.2.2⟩
      · intro n
        exact Walks.ret fun _ h => h
    · rename_i proof hproof
      apply Walks.bind (M := fun n log => Onward o n ∧ At n R log)
      · apply hfinish
        · intro _ _
          rw [hproof]
          rfl
        · rw [if_pos hbridge, hproof]
          rfl
      · intro n
        exact Walks.ret fun _ h => h
  · rename_i hother
    apply Walks.bind (M := fun n log => Onward o n ∧ At n R log)
    · apply hfinish
      · intro hrole hstatus
        exact absurd ⟨hrole, hstatus⟩ hother
      · rw [if_neg hother]
    · intro n
      exact Walks.ret fun _ h => h

theorem walk_observeEffect {reliable : Bool} (hR : Lasting R) (heff : o.effect? role = some e)
    (hattempts : e.submissionAttempts = 1) :
    Walk rules signing (At o R) (observeEffect o role e reliable)
      (fun r log => Onward o r.1 ∧ At r.1 R log) anyEnd := by
  have hsubmitted : Submitted o := submitted_of heff hattempts
  -- an observation that only leaves the state unknown
  have hunknown : ∀ f, Undiagnosed o f → ∀ goesOn : Bool,
      Walk rules signing (At o R) ((save o { o.latest.toBridgeMutable with
        state := .unknownFinality
        failure := (retainedUnsentBridgeRpcFailure o.latest.toBridgeMutable) <|> some f }).bind
          fun op => Prog.ret (op, false, goesOn))
        (fun r log => Onward o r.1 ∧ At r.1 R log) anyEnd := by
    intro f hf goesOn
    apply Walks.bind (M := fun n log => Onward o n ∧ At n R log)
    · exact walk_onward Onward.refl hR (fun _ _ => writes_unknown hsubmitted hf) proceeds_unknown
    · exact fun _ => Walks.ret fun _ h => h
  have hundiagnosed : ∀ error fallback reason,
      Undiagnosed o { observationFailure role error fallback with reason := reason } :=
    fun _ _ _ => .inl ⟨rfl, (fun h => nomatch h), fun h => nomatch h⟩
  unfold observeEffect
  apply Walks.reads (peek_observe (o := o) fun _ h => h.1.1) (kept_at hR) (fun _ h => h)
    fun _ _ _ => trivial
  intro answer
  change Except BridgeError (Option BridgeSourceObservation) at answer
  apply Walks.pre (N := fun log => At o R log ∧ ∀ seen, answer = .ok (some seen) →
    Sighted o role seen R log) _ fun log h => ⟨h.1, fun seen hseen => ⟨h.2 seen hseen, h.1.2⟩⟩
  rcases answer with fault | (_ | seen)
  · apply Walks.ite
    · exact fun _ => Walks.ret fun _ h => ⟨Onward.refl, h.1⟩
    · exact fun _ => (hunknown _ (hundiagnosed _ _ _) true).pre fun _ h => h.1
  · apply Walks.ite
    · exact fun _ => (hunknown _ (hundiagnosed _ _ _) true).pre fun _ h => h.1
    · intro hsafe
      apply Walks.pre (N := At o R) _ fun _ h => h.1
      apply Walks.bind (M := fun n log => Onward o n ∧ At n R log)
      · apply walk_onward Onward.refl hR
        · exact fun _ _ => .missing role e heff hattempts (by simpa using hsafe)
        · unfold receiptMissing unsourced
          split <;> exact proceeds_unknown
      · exact fun _ => Walks.ret fun _ h => h
  · apply Walks.pre (N := At o (Sighted o role seen R)) _ fun _ h => ⟨h.1.1, h.2 seen rfl⟩
    dsimp only
    cases hsafe : e.safeProof with
    | some safe =>
      apply Walks.ite
      · exact fun _ => (hunknown _ undiagnosed_plain true).pre fun _ h => ⟨h.1, h.2.2⟩
      · exact fun _ => Walks.ret fun _ h => ⟨Onward.refl, h.1, h.2.2⟩
    | none =>
      apply Walks.bind (walk_observeInclusion hR heff hattempts hsafe)
      exact fun r => Walks.ret fun _ h => h

theorem walk_sourcesFrom (roles : List BridgeRole) {reliable : Bool} (hR : Lasting R) :
    Walk rules signing (At o R) (sourcesFrom roles o reliable)
      (fun r log => Onward o r.1 ∧ At r.1 R log) anyEnd := by
  induction roles generalizing o reliable with
  | nil => exact Walks.ret fun _ h => ⟨Onward.refl, h⟩
  | cons role roles ih =>
    apply walk_valid
    intro hvalid
    unfold sourcesFrom
    cases heff : o.effect? role with
    | none => exact Walks.fail fun _ _ => trivial
    | some e =>
      apply Walks.ite
      · exact fun _ => ih
      intro hunsettled
      have hattempts : e.submissionAttempts = 1 := by
        have hcount := (effect_of_valid hvalid heff).attempts
        have hsome : e.submissionAttempts ≠ 0 := by
          intro h
          rw [settledEffect, h] at hunsettled
          exact hunsettled rfl
        split at hcount
        · exact hcount
        · exact absurd hcount hsome
      apply Walks.bind (walk_observeEffect hR heff hattempts)
      intro r
      apply Walks.assume
      intro honward
      apply Walks.ite
      · exact fun _ => ih.conseq (fun _ h => h) (fun _ _ h => ⟨honward.trans h.1, h.2⟩) fun _ _ h => h
      · exact fun _ => Walks.ret fun _ h => ⟨honward, h⟩

theorem walk_sources (hR : Lasting R) :
    Walk rules signing (At o R) (sources o) (fun r log => Onward o r.1 ∧ At r.1 R log) anyEnd :=
  walk_sourcesFrom _ hR

end Observation

/-! ## The ends of an operation -/

section Ends

variable {K : List BridgeEvent → Prop}

theorem peek_assertNoUnrecordedSend (roles : List BridgeRole) :
    Peek rules signing K (assertNoUnrecordedSend o roles) fun _ log =>
      ∀ role ∈ roles, ∀ e ∈ o.effect? role, e.submissionAttempts = 0 → sendClaimOf role log = none := by
  induction roles generalizing K with
  | nil => exact Reads.ret fun _ _ => fun _ h => nomatch h
  | cons role roles ih =>
    unfold assertNoUnrecordedSend
    apply Reads.ite
    · intro hunsubmitted
      apply Reads.bind peek_sendClaim (fun _ => kept_sendClaim)
      intro claim
      apply Reads.ite
      · exact fun _ => Reads.fail
      intro hnone
      have hrest : Peek rules signing (fun log => sendClaimOf role log = none)
          (assertNoUnrecordedSend o roles) fun _ log => sendClaimOf role log = none ∧
            ∀ role ∈ roles, ∀ e ∈ o.effect? role, e.submissionAttempts = 0 →
              sendClaimOf role log = none := by
        intro P hP hK
        exact (ih (fun log => P log ∧ sendClaimOf role log = none) (hP.and lasting_unclaimed.kept)
          (K := fun _ => True) fun _ _ => trivial).conseq (fun log h => ⟨h, hK log h⟩)
          (fun _ _ h => ⟨h.1.1, h.1.2, h.2⟩) fun _ _ h => h.1
      apply hrest.mono
      · intro log h
        exact h.2.1 (by simpa using hnone)
      · intro _ log ⟨hrole, hroles⟩ r hr
        rcases List.mem_cons.mp hr with rfl | hr
        · exact fun _ _ _ => hrole
        · exact hroles r hr
    · intro hsubmitted
      apply Reads.mono ih (fun _ h => h)
      intro _ log hroles r hr
      rcases List.mem_cons.mp hr with rfl | hr
      · intro e he hattempts
        rw [Option.mem_def.mp he] at hsubmitted
        exact absurd (by simpa using hattempts) hsubmitted
      · exact hroles r hr

theorem role_mem (h : o.effect? role = some e) : role ∈ o.effects.roles := by
  unfold BridgeEffects.roles
  cases role with
  | bridge => split <;> simp
  | approval =>
    have happroval : o.effects.approval = some e := h
    simp [happroval]

theorem peek_noUnrecordedSend :
    Peek rules signing K (assertNoUnrecordedSend o o.effects.roles) fun _ log => NoUnrecordedSend log o :=
  (peek_assertNoUnrecordedSend _).mono (fun _ h => h)
    fun _ _ h _ _ he hattempts => h _ (role_mem he) _ he hattempts

theorem peek_residualObservation :
    Peek rules signing K residualObservation fun _ _ => True := by
  apply Reads.bind (peek_ask (q := .residual) fun _ _ _ h => h) fun _ => kept_const
  intro answer
  change Except BridgeError BridgeResidualAllowance at answer
  cases answer with
  | ok residual => exact Reads.ret fun _ _ => trivial
  | error fault => exact Reads.ret fun _ _ => trivial

theorem walk_held_valid {x : BridgeProg α}
    (h : o.Valid → Walk rules signing (fun log => Held log o ∧ R log) x Q E) :
    Walk rules signing (fun log => Held log o ∧ R log) x Q E := by
  apply Walks.lawful_pre
  have hassumed : Walk rules signing (fun log => o.Valid ∧ Held log o ∧ R log) x Q E := Walks.assume h
  apply hassumed.pre
  intro log ⟨hlawful, hheld⟩
  exact ⟨known_valid hlawful hheld.1.1, hheld⟩

theorem sound_save_held (hopen : o.terminal = false) (hR : Lasting R) (h : ∀ log, Held log o ∧ R log → Writes log o m) :
    Sound rules signing (fun log => Held log o ∧ R log) (save o m) := by
  apply Sound.of
  apply walk_save (kept_held.and hR.kept) hR hopen
  intro log hheld
  exact ⟨hheld.1, h log hheld, hheld.2⟩

variable {reason : String}

theorem undiagnosed_terminalReason {preSignRpc : Option BridgePreSignRpcFailure}
    {residual : Option BridgeResidualAllowance}
    (h : (retainedUnsentBridgeRpcFailure o.latest.toBridgeMutable).isSome ∨ preSignRpc = none) :
    Undiagnosed o (terminalReason o reason preSignRpc residual) := by
  cases hretained : retainedUnsentBridgeRpcFailure o.latest.toBridgeMutable with
  | some r => exact .inr (by rw [hretained]; rfl)
  | none =>
    have hnone : preSignRpc = none := by
      rcases h with h | h
      · rw [hretained] at h
        cases h
      · exact h
    left
    unfold terminalReason
    rw [hretained, hnone]
    refine ⟨rfl, ?_, ?_⟩ <;> cases residual <;> simp

variable {boundary : Option BridgePreSignRpcFailure} {fault : BridgeError}

theorem undiagnosed_haltFailure {existing : Option String}
    (h : (retainedUnsentBridgeRpcFailure o.latest.toBridgeMutable).isSome ∨ boundary = none) :
    Undiagnosed o (haltFailure o fault boundary existing) := by
  cases hretained : retainedUnsentBridgeRpcFailure o.latest.toBridgeMutable with
  | some r => exact .inr (by rw [hretained]; rfl)
  | none =>
    have hnone : boundary = none := by
      rcases h with h | h
      · rw [hretained] at h
        cases h
      · exact h
    left
    unfold haltFailure haltDiagnostic
    rw [hretained, hnone]
    exact ⟨rfl, (fun h => nomatch h), fun h => nomatch h⟩

theorem haltDiagnostic_none
    (h : (retainedUnsentBridgeRpcFailure o.latest.toBridgeMutable).isSome ∨ boundary = none) :
    (retainedUnsentBridgeRpcFailure o.latest.toBridgeMutable).isSome ∨ haltDiagnostic o boundary = none := by
  cases hretained : retainedUnsentBridgeRpcFailure o.latest.toBridgeMutable with
  | some r => exact .inl rfl
  | none =>
    rcases h with h | h
    · rw [hretained] at h
      cases h
    · right
      unfold haltDiagnostic
      rw [hretained, h]
      rfl

-- A revert that is safe closes the operation.
theorem sound_reverted (hR : Lasting R) (hreverted : confirmedRevert o role = true) :
    Sound rules signing (At o R) (terminalFailure o .failedConfirmedRevert reason none) := by
  unfold terminalFailure
  apply Walks.bind (M := fun _ log => At o R log)
  · exact Walks.ret fun _ h => h
  intro _
  apply Walks.peeks peek_residualObservation (kept_at hR)
  intro residual
  apply Walks.pre (N := At o R) _ fun _ h => h.1
  exact sound_save hR fun _ _ => .reverts _ role hreverted (undiagnosed_terminalReason (.inr rfl))

theorem sound_haltUnsent {existing : Option String} (hopen : o.terminal = false) (hR : Lasting R)
    (hboundary : (retainedUnsentBridgeRpcFailure o.latest.toBridgeMutable).isSome ∨ boundary = none) :
    Sound rules signing (fun log => Held log o ∧ R log) (haltUnsent o fault boundary existing) := by
  have hkept : Trace.Kept Quiet fun log => Held log o ∧ R log := kept_held.and hR.kept
  unfold haltUnsent
  apply Walks.ite
  · exact fun _ => Walks.fail fun _ _ => trivial
  intro hsigning
  have hunmarked : ∀ e ∈ o.effects.all, e.phase ≠ .signingStarted := by
    intro e he hphase
    exact hsigning (List.any_eq_true.mpr ⟨e, he, by simpa using hphase⟩)
  apply Walks.ite
  · intro hunsubmitted
    apply Walks.peeks peek_noUnrecordedSend hkept
    intro _
    apply Walks.pre (N := fun log => Held log o ∧ NoUnrecordedSend log o ∧ R log) _
      fun _ h => ⟨h.1.1, h.2, h.1.2⟩
    apply sound_save_held hopen (lasting_noUnrecordedSend.and hR)
    intro log hheld
    refine .haltsBefore _ ?_ hunmarked hheld.2.1 (undiagnosed_haltFailure hboundary)
    intro e he
    simpa using List.all_eq_true.mp hunsubmitted e he
  intro hsome
  apply Walks.ite
  · intro ⟨happroval, hattempts⟩
    unfold terminalFailure
    rw [if_pos rfl]
    apply Walks.peeks peek_noUnrecordedSend hkept
    intro _
    apply Walks.pre (N := fun log => Held log o ∧ NoUnrecordedSend log o ∧ R log) _
      fun _ h => ⟨h.1.1, h.2, h.1.2⟩
    have hlasting : Lasting fun log => NoUnrecordedSend log o ∧ R log := lasting_noUnrecordedSend.and hR
    apply Walks.peeks peek_residualObservation (kept_held.and hlasting.kept)
    intro residual
    apply Walks.pre (N := fun log => Held log o ∧ NoUnrecordedSend log o ∧ R log) _ fun _ h => h.1
    apply sound_save_held hopen hlasting
    intro log hheld
    refine .haltsAfter _ happroval hattempts ?_ hheld.2.1
      (undiagnosed_terminalReason (haltDiagnostic_none hboundary))
    exact hunmarked _ (BridgeEffects.mem_all.mpr ⟨.bridge, rfl⟩)
  · intro _
    apply walk_held_valid
    intro hvalid
    apply sound_save_held hopen hR
    intro log _
    refine .restates .unknownFinality _ (.unknown _ ?_ ?_)
    · rw [List.all_eq_true] at hsome
      push Not at hsome
      rcases hsome with ⟨e, he, hattempts⟩
      rcases BridgeEffects.mem_all.mp he with ⟨role, heff⟩
      refine ⟨e, he, ?_⟩
      have hcount := (effect_of_valid hvalid heff).attempts
      split at hcount
      · exact hcount
      · exact absurd (by simpa using hcount) hattempts
    · intro f hf
      cases hf
      exact undiagnosed_haltFailure hboundary

/-- What a failed guard of an effect throws. -/
def GuardFails (o : BridgeOperation) (role : BridgeRole) (fault : BridgeError)
    (boundary : Option BridgePreSignRpcFailure) : Prop :=
  (fault.transient = false → boundary = none) ∧
    ∀ b ∈ boundary, ∃ stage method, b = rpcBoundary o role stage method

theorem peek_guard :
    Peek rules signing K (guard o role) fun fault _ =>
      ∀ error boundary, fault = some (error, boundary) → GuardFails o role error boundary := by
  apply Reads.bind (peek_ask (q := .guard role) fun _ _ _ h => h) fun _ => kept_const
  intro answer
  change Option BridgeGuardFault at answer
  apply Reads.ret
  intro log _ error boundary h
  cases answer with
  | none => cases h
  | some fault =>
    cases h
    constructor
    · intro htransient
      simp [htransient]
    · intro b hb
      split at hb
      · rcases Option.map_eq_some_iff.mp hb with ⟨stage, _, rfl⟩
        exact ⟨stage.1, stage.2, rfl⟩
      · cases hb

theorem sound_deferOrHalt
    (hR : Lasting R) (heff : o.effect? role = some e) (hphase : e.phase = .unsealed ∨ e.phase = .sealed)
    (hfault : GuardFails o role fault boundary) :
    Sound rules signing (At o R) (deferOrHalt o fault boundary) := by
  have hheld : ∀ log, At o R log → Held log o ∧ R log := fun _ h => ⟨Held.of_record h.1.1, h.2⟩
  apply walk_open
  intro hopen
  unfold deferOrHalt
  apply Walks.ite
  · exact fun hretained => (sound_haltUnsent hopen hR (.inl hretained)).pre hheld
  intro _
  split
  · rename_i hnone
    have htransient : fault.transient = false := by
      unfold deferral at hnone
      split at hnone
      · cases hnone
      · split at hnone
        · cases hnone
        · simpa using ‹¬ fault.transient = true›
    exact (sound_haltUnsent hopen hR (.inr (hfault.1 htransient))).pre hheld
  · rename_i f hf
    apply Walks.ite
    · exact fun _ => Sound.ret
    intro _
    apply sound_save hR
    intro log _
    refine .restates o.state (some f) (.defers f ?_)
    unfold deferral at hf
    split at hf
    · cases hf
      exact .inl rfl
    · split at hf
      · cases hf
        exact .inr ⟨role, ⟨e, heff, hphase⟩, boundary, rfl, hfault.2⟩
      · cases hf

end Ends

/-! ## The destination -/

section Destination

/-- The source is proved and every effect is safe, but nothing is proved of the destination. -/
structure Awaited (o : BridgeOperation) : Prop where
  safe : AllSafe o
  source : o.latest.sourceProof.isSome
  destination : o.latest.destinationProof = none

theorem submitted_of_allSafe (hvalid : o.Valid) (h : AllSafe o) : Submitted o := by
  have hbridge : o.effects.bridge ∈ o.effects.all := BridgeEffects.mem_all.mpr ⟨.bridge, rfl⟩
  refine ⟨_, hbridge, ?_⟩
  have hbound : o.effect? .bridge = some o.effects.bridge := rfl
  have hcount := (effect_of_valid hvalid hbound).attempts
  rw [h _ hbridge] at hcount
  exact hcount

variable {reason : String}

theorem sound_finish (hsafe : AllSafe o) (hsource : o.latest.sourceProof.isSome)
    (hdestination : o.latest.destinationProof.isSome) :
    Sound rules signing (At o fun log => Concluded log o) (finish o reason) := by
  unfold finish
  split
  · exact Walks.fail fun _ _ => trivial
  · rename_i proof hproof
    apply sound_save lasting_concluded
    exact fun log hat => .completes reason proof hsafe hsource hdestination hproof hat.2

theorem sound_finishDestinationFailure (hR : Lasting R) (hsafe : AllSafe o) (hsource : o.latest.sourceProof.isSome)
    (hreason : reason = "protocol_mismatch" ∨ ∃ outcome, outcome? o.latest.toBridgeMutable = some outcome ∧
      outcome ≠ .completedNative ∧ reason = outcomeText outcome) :
    Sound rules signing (At o R) (finishDestinationFailure o reason) := by
  apply Walks.peeks peek_residualObservation (kept_at hR)
  intro residual
  apply Walks.pre (N := At o R) _ fun _ h => h.1
  exact sound_save hR fun _ _ => .failsDelivery reason residual hsafe hsource hreason

theorem sound_waiting (hR : Lasting R) (hsafe : AllSafe o) :
    Sound rules signing (At o R) (waiting o) := by
  apply walk_valid
  intro hvalid
  apply sound_save hR
  intro log _
  cases hstatus : exceptionalStatus o.latest.toBridgeMutable with
  | none => exact .restates .destinationPending none (.waits hsafe)
  | some status =>
    refine .restates .unknownFinality (some _) (.unknown _ (submitted_of_allSafe hvalid hsafe) ?_)
    intro f hf
    cases hf
    exact undiagnosed_plain

theorem sound_destinationUnavailable {fault : BridgeError} (hR : Lasting R) (hsafe : AllSafe o) :
    Sound rules signing (At o R) (save o (destinationUnavailable o reason fault)) := by
  apply walk_valid
  intro hvalid
  apply sound_save hR
  refine fun log _ => .restates .unknownFinality (some _) (.unknown _ (submitted_of_allSafe hvalid hsafe) ?_)
  intro f hf
  cases hf
  exact .inl ⟨rfl, (fun h => nomatch h), fun h => nomatch h⟩

theorem Awaited.saved (hawaited : Awaited o) (h : SavedAs o next m)
    (heffects : m.effects = o.effects) (hsource : m.sourceProof = o.latest.sourceProof) :
    AllSafe next ∧ next.latest.sourceProof.isSome := by
  refine ⟨?_, ?_⟩
  · unfold AllSafe
    rw [h.effects, heffects]
    exact hawaited.safe
  · rw [h.sourceProof, hsource]
    exact hawaited.source

theorem walk_askProvider (hawaited : Awaited o) (hR : Lasting R) :
    Walk rules signing (At o R) (askProvider o)
      (fun next log => (Awaited next ∧ next.intent = o.intent) ∧ At next R log) anyEnd := by
  have hstay : Walk rules signing (At o R) (Prog.ret o)
      (fun next log => (Awaited next ∧ next.intent = o.intent) ∧ At next R log) anyEnd :=
    Walks.ret fun _ h => ⟨⟨hawaited, rfl⟩, h⟩
  unfold askProvider
  apply Walks.bind (M := fun _ log => At o R log)
  · exact Walks.ofExcept (fun _ _ _ h => h) fun _ _ _ _ => trivial
  intro reusable
  apply Walks.ite
  · exact fun _ => hstay
  intro _
  apply Walks.reads (peek_providerStatus (o := o) fun _ h => h.1.1) (kept_at hR) (fun _ h => h)
    fun _ _ _ => trivial
  intro answer
  change Option BridgeProviderObservation at answer
  cases answer with
  | none => exact hstay.pre fun _ h => h.1
  | some p =>
    apply Walks.pre (N := At o fun log => ReadOver log o (.providerAnswered p) ∧ R log) _
      fun _ h => ⟨h.1.1, h.2 p rfl, h.1.2⟩
    apply walk_saved (lasting_readOver.and hR)
    · exact fun log hat => .provider p hawaited.safe hawaited.source hawaited.destination hat.2.1
    · exact proceeds_same
    · intro next log hsaved hat
      have hsafe := hawaited.saved hsaved rfl rfl
      refine ⟨⟨⟨hsafe.1, hsafe.2, ?_⟩, hsaved.intent⟩, hat.1, hat.2.2⟩
      rw [hsaved.destinationProof]
      exact hawaited.destination

theorem walk_delivered {proof : BridgeDestinationProof} (hawaited : Awaited o)
    (hsettled : o.intent.request.providerBoundNative →
      bridgeProviderSettled o.intent.decoded o.latest.providerObservation = true) :
    Walk rules signing
      (At o fun log => ReadOver log o (.delivered proof) ∧ .delivered proof ∈ inCall log)
      (save o (withDestinationProof o proof))
      (fun next log => (AllSafe next ∧ next.latest.sourceProof.isSome ∧
        next.latest.destinationProof = some proof ∧ next.intent = o.intent) ∧
        At next (fun _ => True) log) anyEnd := by
  have hdelivered : Lasting fun log => .delivered proof ∈ inCall log := by
    intro log ev hev hmem
    rw [inCall_steady hev]
    exact List.mem_cons_of_mem _ hmem
  apply walk_saved (lasting_readOver.and hdelivered)
  · exact fun log hat =>
      .delivers proof hawaited.safe hawaited.source hawaited.destination hat.2.1 hat.2.2 hsettled
  · exact proceeds_same
  · intro next log hsaved hat
    have hsafe := hawaited.saved hsaved rfl rfl
    exact ⟨⟨hsafe.1, hsafe.2, hsaved.destinationProof, hsaved.intent⟩, hat.1, trivial⟩

theorem sound_finishNative {proof : BridgeDestinationProof} (hsafe : AllSafe o)
    (hsource : o.latest.sourceProof.isSome) (hdestination : o.latest.destinationProof = some proof) :
    Sound rules signing (At o fun _ => True) (finishNative o proof) := by
  have houtcome : outcome? o.latest.toBridgeMutable =
      proof.compositeTrace.map BridgeCompositeTrace.outcome := by
    unfold outcome?
    rw [hdestination]
    rfl
  have hproved : o.latest.destinationProof.isSome := by
    rw [hdestination]
    rfl
  have hfinish : ∀ reason, (∀ outcome ∈ outcome? o.latest.toBridgeMutable, outcome = .completedNative) →
      Sound rules signing (At o fun _ => True) (finish o reason) := by
    intro reason hcompleted
    apply (sound_finish hsafe hsource hproved).pre
    exact fun log hat => ⟨hat.1, .inr (.inr hcompleted)⟩
  unfold finishNative
  cases htrace : proof.compositeTrace.map BridgeCompositeTrace.outcome with
  | none =>
    apply hfinish
    rw [houtcome, htrace]
    exact fun _ h => nomatch h
  | some outcome =>
    have hfails : ∀ outcome, outcome? o.latest.toBridgeMutable = some outcome →
        outcome ≠ .completedNative →
        Sound rules signing (At o fun _ => True) (finishDestinationFailure o (outcomeText outcome)) :=
      fun outcome h hne =>
        sound_finishDestinationFailure lasting_true hsafe hsource (.inr ⟨outcome, h, hne, rfl⟩)
    have hsome := houtcome.trans htrace
    cases outcome with
    | completedNative =>
      apply hfinish
      rw [hsome]
      intro outcome h
      exact (Option.some.inj h).symm
    | recoveredWeth => exact hfails _ hsome (fun h => nomatch h)
    | belowFloor => exact hfails _ hsome (fun h => nomatch h)
    | protocolMismatch => exact hfails _ hsome (fun h => nomatch h)

theorem sound_nativeDestination {hash : String} (hawaited : Awaited o)
    (hsettled : bridgeProviderSettled o.intent.decoded o.latest.providerObservation = true) :
    Sound rules signing (At o Undelivered) (nativeDestination o hash) := by
  apply Walks.bind
  · exact walk_destination (R := Undelivered)
  intro answer
  change Except BridgeDestinationFault BridgeDestinationProof at answer
  rcases answer with (_ | _ | fault) | proof
  · exact sound_waiting lasting_undelivered hawaited.safe
  · apply Walks.bind (M := fun next log => next = o ∧ At o Undelivered log)
    · exact walk_save_same lasting_undelivered
    intro next
    apply Walks.assume
    rintro rfl
    exact sound_finishDestinationFailure lasting_undelivered hawaited.safe hawaited.source (.inl rfl)
  · apply Walks.ite
    · exact fun _ => Sound.ret
    · exact fun _ => sound_destinationUnavailable lasting_undelivered hawaited.safe
  · apply Walks.bind (walk_delivered hawaited fun _ => hsettled)
    intro next
    apply Walks.assume
    intro ⟨hsafe, hsource, hdestination, _⟩
    exact sound_finishNative hsafe hsource hdestination

theorem sound_tokenDestination {hash : String} (hawaited : Awaited o)
    (htoken : o.intent.request.providerBoundNative = false) :
    Sound rules signing (At o Undelivered) (tokenDestination o hash) := by
  apply Walks.bind
  · exact walk_destination (R := Undelivered)
  intro answer
  change Except BridgeDestinationFault BridgeDestinationProof at answer
  rcases answer with (_ | _ | fault) | proof
  · exact sound_waiting lasting_undelivered hawaited.safe
  · exact sound_destinationUnavailable lasting_undelivered hawaited.safe
  · apply Walks.ite
    · exact fun _ => Sound.ret
    · exact fun _ => sound_destinationUnavailable lasting_undelivered hawaited.safe
  · apply Walks.bind (walk_delivered hawaited fun h => by rw [htoken] at h; cases h)
    intro next
    apply Walks.assume
    intro ⟨hsafe, hsource, hdestination, hintent⟩
    apply (sound_finish hsafe hsource (by rw [hdestination]; rfl)).pre
    refine fun log hat => ⟨hat.1, .inr (.inl ?_)⟩
    rw [hintent]
    exact htoken

theorem sound_destinationProof : Sound rules signing (At o Undelivered) (destinationProof o) := by
  unfold destinationProof
  apply Walks.ite
  · exact fun _ => Sound.ret
  intro hready
  have hsource : o.latest.sourceProof.isSome := by
    cases h : o.latest.sourceProof <;> simp_all
  have hsafe : AllSafe o := by
    intro e he
    have hall := Decidable.not_not.mp fun h => hready (.inr h)
    simpa using List.all_eq_true.mp hall e he
  apply Walks.ite
  · intro hdestination
    apply (sound_finish hsafe hsource hdestination).pre
    exact fun log hat => ⟨hat.1, .inl hat.2⟩
  intro hnone
  have hawaited : Awaited o := ⟨hsafe, hsource, by simpa using hnone⟩
  apply Walks.bind (walk_askProvider hawaited lasting_undelivered)
  intro next
  apply Walks.assume
  intro ⟨hawaited, _⟩
  dsimp only
  split
  · exact sound_waiting lasting_undelivered hawaited.safe
  · apply Walks.ite
    · intro _
      apply Walks.ite
      · exact fun hsettled => sound_nativeDestination hawaited hsettled
      · exact fun _ => sound_waiting lasting_undelivered hawaited.safe
    · exact fun htoken => sound_tokenDestination hawaited (by simpa using htoken)

end Destination

/-! ## The effects -/

section Effects

variable {roles : List BridgeRole} {eff : BridgeEffect}

theorem SavedAs.effect? {new : BridgeEffect} (h : SavedAs o next m) (heff : o.effect? role = some e)
    (hm : m.effects = o.effects.replace role new) : next.effect? role = some new := by
  unfold BridgeOperation.effect?
  rw [h.effects, hm]
  exact BridgeEffects.get?_replace_self heff

theorem SavedAs.landed {new : BridgeEffect} (h : SavedAs o next m) (hlanded : ApprovalLanded o role)
    (hm : m.effects = o.effects.replace role new) : ApprovalLanded next role := by
  rintro rfl a ha
  have happroval : next.effects.approval = o.effects.approval := by
    rw [h.effects, hm]
    rfl
  rw [happroval] at ha
  exact hlanded rfl a ha

theorem clearedDeferral_effects : (clearedDeferral m).effects = m.effects := by
  unfold clearedDeferral
  split <;> rfl

theorem clearedDeferral_state : (clearedDeferral m).state = m.state := by
  unfold clearedDeferral
  split <;> rfl

/-- The effect is at this phase, and the bridge call's approval has landed. -/
structure Placed (o : BridgeOperation) (role : BridgeRole) (phase : BridgeEffectPhase → Prop) : Prop where
  effect : ∃ e, o.effect? role = some e ∧ phase e.phase
  landed : ApprovalLanded o role

/-- An effect that was never submitted. -/
def Unbegun (e : BridgeEffect) : Prop :=
  e.phase = .unsealed ∨ e.phase = .signingStarted ∨ e.phase = .sealed

theorem unbegun_of_attempts (hvalid : o.Valid) (heff : o.effect? role = some e)
    (hattempts : e.submissionAttempts = 0) : Unbegun e := by
  have hcount := (effect_of_valid hvalid heff).attempts
  rw [hattempts] at hcount
  have hunsubmitted : e.phase.submitted = false := by
    cases h : e.phase.submitted with
    | false => rfl
    | true =>
      rw [h] at hcount
      cases hcount
  unfold Unbegun
  cases hphase : e.phase <;> rw [hphase] at hunsubmitted <;>
    first | exact absurd hunsubmitted (by decide) | simp

theorem walk_current {P : List BridgeEvent → Prop} :
    Walk rules signing P (current o role) (fun a log => o.effect? role = some a ∧ P log) anyEnd := by
  unfold current
  split
  · rename_i a ha
    exact Walks.ret fun _ h => ⟨ha, h⟩
  · exact Walks.fail fun _ _ => trivial

theorem walk_releaseUnsignedSeal (roles : List BridgeRole) (hR : Lasting R) :
    Walk rules signing (At o R) (releaseUnsignedSeal roles o)
      (fun next log => Onward o next ∧ At next R log) anyEnd := by
  induction roles generalizing o with
  | nil => exact Walks.ret fun _ h => ⟨Onward.refl, h⟩
  | cons role roles ih =>
    unfold releaseUnsignedSeal
    cases heff : o.effect? role with
    | none => exact Walks.fail fun _ _ => trivial
    | some e =>
      apply Walks.ite
      · exact fun _ => ih
      intro hphase
      apply Walks.peeks peek_sendClaim (kept_at hR)
      intro claim
      apply Walks.pre (N := At o R) _ fun _ h => h.1
      apply Walks.ite
      · exact fun _ => ih
      intro _
      apply Walks.peeks peek_load (kept_at hR)
      intro material
      apply Walks.pre (N := At o R) _ fun _ h => h.1
      apply Walks.ite
      · exact fun _ => ih
      intro _
      apply Walks.bind (M := fun n log => Onward o n ∧ At n R log)
      · apply walk_onward Onward.refl hR
        · exact fun _ _ => .effect role e _ o.state false heff (.releases (Decidable.not_not.mp hphase))
        · exact proceeds_same
      intro n
      apply Walks.assume
      intro honward
      exact ih.conseq (fun _ h => h) (fun _ _ h => ⟨honward.trans h.1, h.2⟩) fun _ _ h => h

theorem ClaimSeen.of_failure {p : BridgeOperation} (h : ClaimSeen log o role) (hf : p.failure = o.failure) :
    ClaimSeen log p role := by
  rcases h with ⟨older, hsuffix, o', ho', hfailure⟩
  exact ⟨older, hsuffix, o', ho', hfailure.trans hf.symm⟩

-- The journal catches up with a SEND claim that was found.
theorem sound_recordClaimedSend {bytes : BridgeClaimedBytes} (heff : o.effect? role = some e)
    (hattempts : e.submissionAttempts = 0) (hlanded : ApprovalLanded o role)
    (hstate : o.state ≠ .awaitingApproval) :
    Sound rules signing (At o fun log => ClaimSeen log o role) (recordClaimedSend o role bytes) := by
  have hfound : ∀ {p : BridgeOperation}, Lasting fun log => ClaimSeen log p role := lasting_claimSeen
  apply walk_valid
  intro hvalid
  have hunbegun := unbegun_of_attempts hvalid heff hattempts
  apply Walks.peeks peek_load (kept_at hfound)
  intro loaded
  apply Walks.pre (N := At o fun log => ClaimSeen log o role) _ fun _ h => h.1
  cases loaded with
  | none => exact Walks.fail fun _ _ => trivial
  | some material =>
  apply Walks.ite
  · exact fun _ => Walks.fail fun _ _ => trivial
  intro _
  apply Walks.bind walk_current
  intro a
  apply Walks.assume
  intro ha
  rw [heff] at ha
  cases ha
  -- the signing marker
  apply Walks.branch (M := fun n log =>
    Placed n role (fun phase => phase = .signingStarted ∨ phase = .sealed) ∧
      At n (fun log => ClaimSeen log n role) log)
  · intro hphase
    apply walk_saved hfound
    · exact fun log hat => .effect role e _ o.state false heff (.marks false hphase hlanded hstate (.inr hat.2))
    · exact proceeds_same
    · intro n log hsaved hat
      exact ⟨⟨⟨_, hsaved.effect? heff rfl, .inl rfl⟩, hsaved.landed hlanded rfl⟩, hat.1,
        hat.2.of_failure hsaved.failure⟩
  · intro hphase
    apply Walks.ret
    exact fun log hat => ⟨⟨⟨e, heff, hunbegun.resolve_left hphase⟩, hlanded⟩, hat⟩
  intro o₁
  apply Walks.assume
  intro ⟨⟨e₁, heff₁, hphase₁⟩, hlanded₁⟩
  apply Walks.bind walk_current
  intro a
  apply Walks.assume
  intro ha
  rw [heff₁] at ha
  cases ha
  -- the seal
  apply Walks.branch (M := fun n log => Placed n role (· = .sealed) ∧
    At n (fun log => ClaimSeen log n role) log)
  · intro hphase
    apply walk_saved hfound
    · exact fun log _ => .effect role e₁ _ o₁.state false heff₁ (.seals material hphase)
    · exact proceeds_same
    · intro n log hsaved hat
      exact ⟨⟨⟨_, hsaved.effect? heff₁ rfl, rfl⟩, hsaved.landed hlanded₁ rfl⟩, hat.1,
        hat.2.of_failure hsaved.failure⟩
  · intro hphase
    exact Walks.ret fun log hat => ⟨⟨⟨e₁, heff₁, hphase₁.resolve_left hphase⟩, hlanded₁⟩, hat⟩
  intro o₂
  apply Walks.assume
  intro ⟨⟨e₂, heff₂, hphase₂⟩, hlanded₂⟩
  apply Walks.bind walk_current
  intro a
  apply Walks.assume
  intro ha
  rw [heff₂] at ha
  cases ha
  apply Walks.peeks peek_now (kept_at hfound)
  intro submittedAt
  apply Walks.pre (N := At o₂ fun log => .clock submittedAt ∈ log ∧ ClaimSeen log o₂ role) _
    fun _ h => ⟨h.1.1, h.2, h.1.2⟩
  apply Walks.bind (M := fun n log => (∃ e', n.effect? role = some e' ∧ e'.phase = .submitting ∧
    n.state = .unknownFinality) ∧ At n (fun _ => True) log)
  · apply walk_saved (lasting_clock.and hfound)
    · exact fun log hat => .effect role e₂ _ .unknownFinality false heff₂
        (.submitsClaimed submittedAt hphase₂ hlanded₂ hat.2.1 hat.2.2)
    · exact proceeds_unknown
    · intro n log hsaved hat
      exact ⟨⟨_, hsaved.effect? heff₂ rfl, rfl, hsaved.state⟩, hat.1, trivial⟩
  intro o₃
  apply Walks.assume
  intro ⟨e₃, heff₃, hphase₃, hstate₃⟩
  apply Walks.bind walk_current
  intro a
  apply Walks.assume
  intro ha
  rw [heff₃] at ha
  cases ha
  apply Walks.bind (M := fun n log => At n (fun _ => True) log)
  · apply walk_saved lasting_true
    · intro log _
      have hloses : EffectWrites log o₃ role e₃ _ .unknownFinality false := .loses hphase₃
      have hwrites := Writes.effect role e₃ _ _ _ heff₃ hloses
      rw [← hstate₃] at hwrites
      exact hwrites
    · exact proceeds_same
    · exact fun _ _ _ hat => hat
  intro o₄
  apply Walks.bind (walk_sources lasting_true)
  exact fun _ => Sound.ret

/-- Nothing was delivered in this call, and nothing sent of these roles. -/
def Fresh (roles : List BridgeRole) (log : List BridgeEvent) : Prop :=
  Undelivered log ∧ ∀ role ∈ roles, ∀ raw, .sent role raw ∉ inCall log

theorem lasting_fresh : Lasting (Fresh roles) := by
  intro log e he ⟨hundelivered, hunsent⟩
  refine ⟨lasting_undelivered log e he hundelivered, ?_⟩
  intro role hrole raw hmem
  rw [inCall_steady he] at hmem
  rcases List.mem_cons.mp hmem with rfl | hmem
  · rcases he with he | ⟨next, hnext⟩
    · exact he
    · cases hnext
  · exact hunsent role hrole raw hmem

theorem Fresh.claimedSend {bytes : BridgeClaimedBytes} (h : Fresh roles log) :
    Fresh roles (.claimedSend role bytes :: log) := by
  refine ⟨?_, ?_⟩
  · intro proof hmem
    rcases List.mem_cons.mp hmem with heq | hmem
    · cases heq
    · exact h.1 proof hmem
  · intro r hr raw hmem
    rcases List.mem_cons.mp hmem with heq | hmem
    · cases heq
    · exact h.2 r hr raw hmem

theorem Fresh.sent {raw : String} (h : Fresh roles log) (hrole : role ∉ roles) :
    Fresh roles (.sent role raw :: log) := by
  refine ⟨?_, ?_⟩
  · intro proof hmem
    rcases List.mem_cons.mp hmem with heq | hmem
    · cases heq
    · exact h.1 proof hmem
  · intro r hr raw' hmem
    rcases List.mem_cons.mp hmem with heq | hmem
    · cases heq
      exact hrole hr
    · exact h.2 r hr raw' hmem

/-- The role has no SEND claim, in a call that is fresh for these roles. -/
def Unclaimed (role : BridgeRole) (roles : List BridgeRole) (log : List BridgeEvent) : Prop :=
  sendClaimOf role log = none ∧ Fresh roles log

theorem lasting_unclaimed_fresh : Lasting (Unclaimed role roles) := lasting_unclaimed.and lasting_fresh

/-- Where a turn leaves the call. -/
def Turned (Q : BridgeOperation → List BridgeEvent → Prop) : Turn → List BridgeEvent → Prop
  | .done _, _ => True
  | .next op, log => Q op log

theorem walk_done {Q : BridgeOperation → List BridgeEvent → Prop} {x : BridgeProg BridgeOperation}
    (h : Sound rules signing P x) :
    Walk rules signing P (x.bind fun op => Prog.ret (.done op)) (Turned Q) anyEnd :=
  Walks.bind h fun _ => Walks.ret fun _ _ => trivial

theorem walk_budgetBelow {n : ℕ} (hP : Trace.Kept Quiet P) :
    Walk rules signing P (budgetBelow n) (fun _ log => P log) anyEnd := by
  unfold budgetBelow
  apply Walks.peeks (peek_ask (q := .budget) fun _ _ _ h => h) hP
  exact fun _ => Walks.ret fun _ h => h.1

variable {authority : Bool}

theorem walk_checkAuthority (hP : Trace.Kept Quiet P) :
    Walk rules signing P (checkAuthority authority) (fun _ log => P log) anyEnd := by
  unfold checkAuthority
  apply Walks.ite
  · intro _
    exact (peek_call (q := .authority) (h := rfl) (fun _ _ _ h => h) P hP (K := fun _ => True)
      fun _ _ => trivial).conseq (fun _ h => h) (fun _ _ h => h.1) fun _ _ _ => trivial
  · exact fun _ => Walks.ret fun _ h => h

theorem walk_signEffect (heff : o.effect? role = some e) (hphase : e.phase = .unsealed)
    (hlanded : ApprovalLanded o role) (hstate : o.state ≠ .awaitingApproval) :
    Walk rules signing (At o (Unclaimed role roles)) (signEffect o role e authority)
      (Turned fun next log => (next.state ≠ .awaitingApproval ∧ Placed next role (· = .signingStarted)) ∧
        At next (Unclaimed role roles) log) anyEnd := by
  have hkept : Trace.Kept Quiet (At o (Unclaimed role roles)) := kept_at lasting_unclaimed_fresh
  unfold signEffect
  apply Walks.peeks peek_guard hkept
  intro fault
  cases fault with
  | some fault =>
    apply Walks.lawful_pre
    apply Walks.pre (N := fun log => GuardFails o role fault.1 fault.2 ∧ At o (Unclaimed role roles) log) _
      fun log h => ⟨h.2.2 _ _ rfl, h.2.1⟩
    apply Walks.assume
    intro hfails
    apply Walks.ite
    · exact fun _ => Walks.ret fun _ _ => trivial
    · exact fun _ => walk_done (sound_deferOrHalt lasting_unclaimed_fresh heff (.inl hphase) hfails)
  | none =>
    apply Walks.pre (N := At o (Unclaimed role roles)) _ fun _ h => h.1
    apply Walks.bind (walk_budgetBelow hkept)
    intro spent
    apply Walks.ite
    · exact fun _ => Walks.ret fun _ _ => trivial
    intro _
    apply Walks.bind (walk_checkAuthority hkept)
    intro _
    apply Walks.peeks peek_claimSign hkept
    intro _
    apply Walks.pre (N := At o (Unclaimed role roles)) _ fun _ h => h.1
    apply Walks.bind (M := fun next log =>
      (next.state ≠ .awaitingApproval ∧ Placed next role (· = .signingStarted)) ∧
        At next (Unclaimed role roles) log)
    · apply walk_saved lasting_unclaimed_fresh
      · exact fun log _ =>
          .effect role e _ o.state true heff (.marks true hphase hlanded hstate (.inl rfl))
      · rw [clearedDeferral_state]
        exact proceeds_same
      · intro next log hsaved hat
        have heffects : (clearedDeferral (markSigning o role e)).effects =
            o.effects.replace role { e with phase := .signingStarted } := clearedDeferral_effects
        refine ⟨⟨?_, ⟨_, hsaved.effect? heff heffects, rfl⟩, hsaved.landed hlanded heffects⟩, hat⟩
        rw [hsaved.state, clearedDeferral_state]
        exact hstate
    intro next
    apply Walks.assume
    intro hplaced
    apply Walks.peeks peek_custodySeal (kept_at lasting_unclaimed_fresh)
    exact fun _ => Walks.ret fun _ h => ⟨hplaced, h.1⟩

theorem peek_committedMaterial {K : List BridgeEvent → Prop} {reason : String} :
    Peek rules signing K (committedMaterial signing o role reason) fun m _ =>
      validateMaterial signing m o role = .ok () := by
  apply Reads.bind peek_load fun _ => kept_const
  intro loaded
  cases loaded with
  | none => exact Reads.fail
  | some material =>
    apply Reads.bind (Φ := fun _ _ => validateMaterial signing material o role = .ok ())
    · cases hvalid : validateMaterial signing material o role with
      | ok _ => exact Reads.ret fun _ _ => rfl
      | error _ => exact Reads.fail
    · exact fun _ => kept_const
    · exact fun _ => Reads.ret fun _ h => h.2

theorem walk_sealEffect (hR : Lasting R)
    (hplaced : Placed o role fun phase => phase = .signingStarted ∨ phase = .sealed) :
    Walk rules signing (At o R) (sealEffect signing o role)
      (fun next log => (Onward o next ∧ Placed next role (· = .sealed)) ∧ At next R log) anyEnd := by
  rcases hplaced with ⟨⟨e, heff, hphase⟩, hlanded⟩
  unfold sealEffect
  apply Walks.bind walk_current
  intro a
  apply Walks.assume
  intro ha
  rw [heff] at ha
  cases ha
  apply Walks.ite
  · intro hsigning
    apply Walks.peeks peek_committedMaterial (kept_at hR)
    intro material
    apply Walks.pre (N := At o R) _ fun _ h => h.1
    apply walk_saved hR
    · exact fun log _ => .effect role e _ o.state false heff (.seals material hsigning)
    · exact proceeds_same
    · intro next log hsaved hat
      exact ⟨⟨hsaved.onward proceeds_same, ⟨_, hsaved.effect? heff rfl, rfl⟩, hsaved.landed hlanded rfl⟩, hat⟩
  · intro hsealed
    exact Walks.ret fun _ h => ⟨⟨Onward.refl, ⟨e, heff, hphase.resolve_left hsealed⟩, hlanded⟩, h⟩

theorem material_bytes {m : BridgeSealedMaterial} (h : validateMaterial signing m o role = .ok ()) :
    m.bytes = ⟨signing.materialHash role m.rawTransaction, signing.transactionHash m.rawTransaction⟩ := by
  unfold validateMaterial at h
  split at h
  · cases h
  split at h
  · cases h
  split at h
  · cases h
  rename_i hmaterial
  split at h
  · cases h
  split at h
  · cases h
  rename_i htransaction
  unfold BridgeSealedMaterial.bytes
  rw [Decidable.not_not.mp hmaterial, Decidable.not_not.mp (not_or.mp htransaction).1]

theorem walk_sendEffect {m : BridgeSealedMaterial} (hroles : role ∉ roles)
    (hmaterial : m.bytes =
      ⟨signing.materialHash role m.rawTransaction, signing.transactionHash m.rawTransaction⟩)
    (heff : o.effect? role = some e) (hphase : e.phase = .submitting) (hattempts : e.submissionAttempts = 1)
    (hlanded : ApprovalLanded o role) :
    Walk rules signing
      (At o fun log => .claimedSend role m.bytes ∈ inCall log ∧ Fresh (role :: roles) log)
      (sendEffect o role m) (fun next log => Onward o next ∧ At next (Fresh roles) log) anyEnd := by
  have hclaimed : Lasting fun log => .claimedSend role m.bytes ∈ inCall log := by
    intro log ev hev hmem
    rw [inCall_steady hev]
    exact List.mem_cons_of_mem _ hmem
  have hlasting : Lasting fun log => .claimedSend role m.bytes ∈ inCall log ∧ Fresh (role :: roles) log :=
    hclaimed.and lasting_fresh
  unfold sendEffect
  apply Walks.peeks peek_now (kept_at hlasting)
  intro at'
  apply Walks.pre (N := At o fun log => .claimedSend role m.bytes ∈ inCall log ∧
    Fresh (role :: roles) log) _ fun _ h => h.1
  apply Walks.bind walk_current
  intro a
  apply Walks.assume
  intro ha
  rw [heff] at ha
  cases ha
  have hrest : ∀ log, Fresh (role :: roles) log → Fresh roles log :=
    fun log h => ⟨h.1, fun r hr => h.2 r (List.mem_cons_of_mem _ hr)⟩
  apply Walks.bind (M := fun _ log => At o (Fresh roles) log)
  · unfold sendInTime
    split
    · exact Walks.ret fun _ h => ⟨h.1, hrest _ h.2.2⟩
    · apply Walks.bind
      · apply walk_send (R := Fresh roles) (fun log h => h.sent hroles)
        intro log ⟨hopen, hclaim, hfresh⟩
        refine ⟨⟨⟨o, e, hopen.1, heff, hphase, hattempts, hlanded⟩, ?_, ?_⟩, hopen, hrest _ hfresh⟩
        · rw [← hmaterial]
          exact hclaim
        · exact hfresh.2 role List.mem_cons_self
      · intro answer
        change Except BridgeError String at answer
        cases answer with
        | error _ => exact Walks.ret fun _ h => h
        | ok hash => exact Walks.ret fun _ h => h
  intro sent
  cases sent with
  | true =>
    apply walk_onward Onward.refl lasting_fresh
    · exact fun log _ => .effect role e _ .sourcePending false heff (.sends hphase)
    · exact proceeds_source
  | false =>
    apply walk_onward Onward.refl lasting_fresh
    · exact fun log _ => .effect role e _ .unknownFinality false heff (.loses hphase)
    · exact proceeds_unknown

theorem walk_submitEffect (hroles : role ∉ roles) (hplaced : Placed o role (· = .sealed)) :
    Walk rules signing (At o (Unclaimed role (role :: roles))) (submitEffect signing o role authority)
      (Turned fun next log => Onward o next ∧ At next (Fresh roles) log) anyEnd := by
  have hkept : Trace.Kept Quiet (At o (Unclaimed role (role :: roles))) := kept_at lasting_unclaimed_fresh
  rcases hplaced with ⟨⟨e, heff, hphase⟩, hlanded⟩
  unfold submitEffect
  apply Walks.peeks peek_committedMaterial hkept
  intro material
  apply Walks.pre (N := fun log => validateMaterial signing material o role = .ok () ∧
    At o (Unclaimed role (role :: roles)) log) _ fun _ h => ⟨h.2, h.1⟩
  apply Walks.assume
  intro hmaterial
  apply Walks.peeks peek_guard hkept
  intro fault
  cases fault with
  | some fault =>
    apply Walks.pre (N := fun log => GuardFails o role fault.1 fault.2 ∧
      At o (Unclaimed role (role :: roles)) log) _ fun log h => ⟨h.2 _ _ rfl, h.1⟩
    apply Walks.assume
    intro hfails
    apply Walks.ite
    · exact fun _ => Walks.ret fun _ _ => trivial
    · exact fun _ => walk_done (sound_deferOrHalt lasting_unclaimed_fresh heff (.inr hphase) hfails)
  | none =>
    apply Walks.pre (N := At o (Unclaimed role (role :: roles))) _ fun _ h => h.1
    apply Walks.bind (walk_budgetBelow hkept)
    intro spent
    apply Walks.ite
    · exact fun _ => Walks.ret fun _ _ => trivial
    intro _
    apply Walks.bind (walk_checkAuthority hkept)
    intro _
    apply Walks.bind (M := fun _ log => At o (fun log => .claimedSend role material.bytes ∈ inCall log ∧
      Fresh (role :: roles) log) log)
    · apply (walk_claimSend (o := o) (R := Fresh (role :: roles)) (fun _ h => h.claimedSend)
        fun log h => ⟨h.2.1, h.1, h.2.2⟩).conseq (fun _ h => h)
        (fun _ _ h => ⟨h.2.1, h.1, h.2.2⟩) fun _ _ _ => trivial
    intro _
    have hclaimed : Lasting fun log => .claimedSend role material.bytes ∈ inCall log ∧
        Fresh (role :: roles) log := by
      apply Lasting.and _ lasting_fresh
      intro log ev hev hmem
      rw [inCall_steady hev]
      exact List.mem_cons_of_mem _ hmem
    apply Walks.bind walk_current
    intro a
    apply Walks.assume
    intro ha
    rw [heff] at ha
    cases ha
    apply Walks.peeks peek_now (kept_at hclaimed)
    intro submittedAt
    apply Walks.pre (N := At o fun log => .clock submittedAt ∈ log ∧
      .claimedSend role material.bytes ∈ inCall log ∧ Fresh (role :: roles) log) _
      fun _ h => ⟨h.1.1, h.2, h.1.2⟩
    apply Walks.bind (M := fun n log => (Onward o n ∧ ∃ e', n.effect? role = some e' ∧
      e'.phase = .submitting ∧ e'.submissionAttempts = 1 ∧ ApprovalLanded n role) ∧
      At n (fun log => .claimedSend role material.bytes ∈ inCall log ∧ Fresh (role :: roles) log) log)
    · apply walk_saved (lasting_clock.and hclaimed)
      · exact fun log hat =>
          .effect role e _ .sourcePending true heff (.submits submittedAt hphase hlanded hat.2.1)
      · rw [clearedDeferral_state]
        exact proceeds_source
      · intro n log hsaved hat
        have heffects : (clearedDeferral (withSubmission o role e submittedAt .sourcePending)).effects =
            o.effects.replace role { e with
              phase := .submitting, submittedAt := some submittedAt, submissionAttempts := 1 } :=
          clearedDeferral_effects
        refine ⟨⟨hsaved.onward ?_, _, hsaved.effect? heff heffects, rfl, rfl,
          hsaved.landed hlanded heffects⟩, hat.1, hat.2.2⟩
        rw [clearedDeferral_state]
        exact proceeds_source
    intro n
    apply Walks.assume
    intro ⟨honward, e', heff', hphase', hattempts', hlanded'⟩
    apply Walks.bind (walk_sendEffect hroles (material_bytes hmaterial) heff' hphase' hattempts' hlanded')
    intro sent
    apply Walks.assume
    intro honward'
    apply Walks.bind (walk_sources lasting_fresh)
    intro r
    apply Walks.assume
    intro honward''
    apply Walks.ite
    · exact fun _ => Walks.ret fun _ _ => trivial
    intro _
    apply Walks.ite
    · exact fun hreverted => walk_done (sound_reverted lasting_fresh hreverted)
    intro _
    apply Walks.ite
    · exact fun _ => Walks.ret fun _ hat => ⟨(honward.trans honward').trans honward'', hat⟩
    · exact fun _ => Walks.ret fun _ _ => trivial

theorem sound_awaitAuthority (hR : Lasting R) :
    Sound rules signing (At o R) (awaitAuthority o role e) := by
  unfold awaitAuthority
  apply Walks.ite
  · intro _
    apply Walks.peeks peek_now (kept_at hR)
    intro at'
    apply Walks.pre (N := At o R) _ fun _ h => h.1
    apply Walks.ite
    · intro _
      apply Walks.peeks peek_now (kept_at hR)
      intro again
      apply Walks.pre (N := At o R) _ fun _ h => h.1
      split
      · apply walk_open
        intro hopen
        exact (sound_haltUnsent hopen hR (.inr rfl)).pre fun _ h => ⟨Held.of_record h.1.1, h.2⟩
      · exact Sound.ret
    · exact fun _ => Sound.ret
  · exact fun _ => Sound.ret

theorem walk_attemptEffect (hroles : role ∉ roles) (heff : o.effect? role = some e)
    (hattempts : e.submissionAttempts = 0) (hlanded : ApprovalLanded o role)
    (hstate : o.state ≠ .awaitingApproval) :
    Walk rules signing (At o (Fresh (role :: roles))) (attemptEffect signing o role e authority)
      (Turned fun next log => next.state ≠ .awaitingApproval ∧ At next (Fresh roles) log) anyEnd := by
  apply walk_valid
  intro hvalid
  unfold attemptEffect
  apply Walks.peeks peek_sendClaim (kept_at lasting_fresh)
  intro claimed
  cases claimed with
  | some bytes =>
    apply Walks.pre (N := At o fun log => ClaimSeen log o role) _
      fun log h => ⟨h.1.1, h.2.2 bytes rfl o h.1.1.1⟩
    exact walk_done (sound_recordClaimedSend heff hattempts hlanded hstate)
  | none =>
    apply Walks.pre (N := At o (Unclaimed role (role :: roles))) _
      fun log h => ⟨h.1.1, h.2.1 rfl, h.1.2⟩
    apply Walks.ite
    · exact fun _ => walk_done (sound_awaitAuthority lasting_unclaimed_fresh)
    intro _
    apply Walks.branch (M := Turned fun next log =>
      (next.state ≠ .awaitingApproval ∧
        Placed next role fun phase => phase = .signingStarted ∨ phase = .sealed) ∧
      At next (Unclaimed role (role :: roles)) log)
    · intro hphase
      apply (walk_signEffect heff hphase hlanded hstate).conseq (fun _ h => h) _ fun _ _ h => h
      intro turn log hturn
      cases turn with
      | done _ => trivial
      | next n =>
        rcases hturn with ⟨⟨hbegun, ⟨e', heff', hphase'⟩, hlanded'⟩, hat⟩
        exact ⟨⟨hbegun, ⟨e', heff', .inl hphase'⟩, hlanded'⟩, hat⟩
    · intro hphase
      apply Walks.ret
      intro log hat
      exact ⟨⟨hstate, ⟨e, heff, (unbegun_of_attempts hvalid heff hattempts).resolve_left hphase⟩, hlanded⟩,
        hat⟩
    intro signed
    cases signed with
    | done _ => exact Walks.ret fun _ _ => trivial
    | next n =>
      show Walk _ _ (fun log => _ ∧ _) _ _ _
      apply Walks.assume
      intro ⟨hbegun, hplaced⟩
      apply Walks.bind (walk_sealEffect lasting_unclaimed_fresh hplaced)
      intro sealed'
      apply Walks.assume
      intro ⟨honward, hsealed⟩
      apply (walk_submitEffect hroles hsealed).conseq (fun _ h => h) _ fun _ _ h => h
      intro turn log hturn
      cases turn with
      | done _ => trivial
      | next n' => exact ⟨hturn.1.begun (honward.begun hbegun), hturn.2⟩

theorem approvalLanded_of (h : approvalPending o role = false) : ApprovalLanded o role := by
  rintro rfl a ha
  have happroval : o.effects.approval = some a := ha
  simpa [approvalPending, happroval] using h

theorem sound_advance (roles : List BridgeRole) (hroles : roles.Nodup) (hstate : o.state ≠ .awaitingApproval) :
    Sound rules signing (At o (Fresh roles)) (advance signing authority roles o) := by
  induction roles generalizing o with
  | nil =>
    apply Walks.ite
    · exact fun _ => sound_destinationProof.pre fun _ h => ⟨h.1, h.2.1⟩
    · exact fun _ => Sound.ret
  | cons role roles ih =>
    have hrest : ∀ log, Fresh (role :: roles) log → Fresh roles log :=
      fun log h => ⟨h.1, fun r hr => h.2 r (List.mem_cons_of_mem _ hr)⟩
    have hnodup := List.nodup_cons.mp hroles
    apply walk_valid
    intro hvalid
    apply Walks.bind walk_current
    intro e
    apply Walks.assume
    intro heff
    apply Walks.ite
    · intro _
      apply Walks.ite
      · exact fun _ => (ih hnodup.2 hstate).pre fun _ h => ⟨h.1, hrest _ h.2⟩
      · exact fun _ => Sound.ret
    intro hunsubmitted
    apply Walks.ite
    · exact fun _ => Sound.ret
    intro hpending
    have hattempts : e.submissionAttempts = 0 := by
      have hcount := (effect_of_valid hvalid heff).attempts
      split at hcount
      · exact absurd hcount hunsubmitted
      · exact hcount
    have hlanded : ApprovalLanded o role := approvalLanded_of (by simpa using hpending)
    apply Walks.bind (walk_attemptEffect hnodup.1 heff hattempts hlanded hstate)
    intro turn
    cases turn with
    | done _ => exact Sound.ret
    | next n =>
      show Sound _ _ (fun log => _ ∧ _) _
      apply Walks.assume
      exact fun hstate' => ih hnodup.2 hstate'

/-- Nothing was delivered or sent in this call. -/
def Begun : List BridgeEvent → Prop := Fresh [.approval, .bridge]

theorem Begun.fresh (h : Begun log) : Fresh roles log :=
  ⟨h.1, fun role _ => h.2 role (by cases role <;> simp)⟩

theorem lasting_begun : Lasting Begun := lasting_fresh

theorem roles_nodup : o.effects.roles.Nodup := by
  unfold BridgeEffects.roles
  split <;> decide

theorem sound_run : Sound rules signing (At o Begun) (run signing o authority) := by
  unfold run
  apply Walks.ite
  · exact fun _ => Sound.ret
  intro hopen
  have hstate : o.state ≠ .awaitingApproval := fun h => hopen (.inr h)
  apply Walks.bind (walk_releaseUnsignedSeal _ lasting_begun)
  intro released
  apply Walks.assume
  intro honward
  apply Walks.bind (walk_sources lasting_begun)
  intro r
  apply Walks.assume
  intro honward'
  have hstate' : r.1.state ≠ .awaitingApproval := honward'.begun (honward.begun hstate)
  apply Walks.ite
  · intro _
    split
    · exact Sound.ret
    · rename_i reason _
      apply sound_save lasting_begun
      intro log _
      refine .restates r.1.state (some _) (.keeps _ hstate' ?_)
      cases hretained : retainedUnsentBridgeRpcFailure r.1.latest.toBridgeMutable with
      | none => exact undiagnosed_plain
      | some f => exact .inr (by rw [hretained]; rfl)
  intro _
  apply Walks.ite
  · intro hreverted
    rcases hreverted with h | h
    · exact sound_reverted lasting_begun h
    · exact sound_reverted lasting_begun h
  intro _
  apply Walks.ite
  · exact fun _ => Sound.ret
  intro _
  split
  · apply walk_open
    intro hcontinues
    exact (sound_haltUnsent hcontinues lasting_begun (.inr rfl)).pre
      fun _ h => ⟨Held.of_record h.1.1, h.2⟩
  · exact (sound_advance _ roles_nodup hstate').pre fun _ h => ⟨h.1, h.2.fresh⟩

end Effects

/-! ## The calls -/

section Entry

/-- The reservation a binding asks for. -/
def Leased (o : BridgeOperation) (lease : Option BridgeUsageLease) (log : List BridgeEvent) : Prop :=
  (o.intent.allowlist = none ∧ lease = none) ∨
    ∃ l, lease = some l ∧ o.intent.allowlist.isSome ∧ ReadOver log o (.reserved l)

theorem lasting_leased {lease : Option BridgeUsageLease} : Lasting (Leased o lease) := by
  intro log e he h
  refine h.imp_right ?_
  intro ⟨l, hl, hallow, hread⟩
  exact ⟨l, hl, hallow, lasting_readOver log e he hread⟩

theorem peek_reserveLease {K : List BridgeEvent → Prop} (hK : ∀ log, K log → record log = some o) :
    Peek rules signing K (reserveLease o) fun lease log => Leased o lease log := by
  unfold reserveLease
  apply Reads.ite
  · exact fun hnone => Reads.ret fun _ _ => .inl ⟨by simpa using hnone, rfl⟩
  · intro hsome
    apply Reads.bind (peek_reserve hK) fun _ => lasting_readOver.kept
    intro lease
    apply Reads.ret
    intro log h
    exact .inr ⟨lease, rfl, by cases hb : o.intent.allowlist <;> simp_all, h.2⟩

/-- A clock reading that follows another. -/
def Clocked (approvedAt at' : ℤ) (log : List BridgeEvent) : Prop :=
  ∃ older, (.clock at' :: older) <:+ log ∧ .clock approvedAt ∈ older

theorem lasting_clocked {approvedAt at' : ℤ} : Lasting (Clocked approvedAt at') := by
  intro log e _ ⟨older, hsuffix, hmem⟩
  exact ⟨older, suffix_cons hsuffix, hmem⟩

theorem walk_approved {approvedAt : ℤ} (hstate : o.state = .awaitingApproval) :
    Walk rules signing (At o fun log => .clock approvedAt ∈ log ∧ Begun log) (approved o approvedAt)
      (fun next log => At next Begun log) (fun _ log => Held log o ∧ Begun log) := by
  have hlasting : Lasting fun log => .clock approvedAt ∈ log ∧ Begun log := lasting_clock.and lasting_begun
  unfold approved
  apply Walks.bind (M := fun at' log => At o (fun log => Clocked approvedAt at' log ∧ Begun log) log)
  · apply Walks.perform
    intro log log' at' hlawful ⟨hopen, hclock, hbegun⟩ heffect
    have heq : log' = .clock at' :: log := heffect
    subst heq
    exact ⟨⟨trivial, hlawful⟩, hopen, ⟨log, List.suffix_refl _, hclock⟩,
      lasting_begun log _ (.inl trivial) hbegun⟩
  intro at'
  have hread : Lasting fun log => Clocked approvedAt at' log ∧ Begun log := lasting_clocked.and lasting_begun
  have hheld : ∀ {R : List BridgeEvent → Prop}, (∀ log, R log → Begun log) →
      ∀ log, At o R log → Held log o ∧ Begun log :=
    fun h log hat => ⟨Held.of_record hat.1.1, h log hat.2⟩
  apply Walks.bind (M := fun _ log => minRemainingMs ≤ o.intent.expiresAt - at' ∧
    At o (fun log => Clocked approvedAt at' log ∧ Begun log) log)
  · apply Walks.ofExcept
    · intro _ log hok hat
      unfold assertBridgeRemaining at hok
      split at hok
      · cases hok
      · exact ⟨by omega, hat⟩
    · exact fun _ log _ hat => hheld (fun _ h => h.2) log hat
  intro _
  apply Walks.assume
  intro hleft
  apply Walks.reads (peek_reserveLease (o := o) fun _ h => h.1.1) (kept_at hread) (fun _ h => h)
    fun _ log hat => hheld (fun _ h => h.2) log hat
  intro lease
  have hall : Lasting fun log => (Clocked approvedAt at' log ∧ Begun log) ∧ Leased o lease log :=
    hread.and lasting_leased
  apply (walk_save_at hall (fun log hat =>
    .approves approvedAt at' lease hstate hat.2.1.1 hleft hat.2.2) (.inr ⟨rfl, fun h => nomatch h⟩)).conseq
  · exact fun _ h => ⟨h.1.1, h.1.2, h.2⟩
  · exact fun _ _ h => ⟨h.2.1, h.2.2.1.2⟩
  · exact fun _ _ h => ⟨h.1, h.2.1.2⟩

theorem sound_approveAndRun {authority : Bool} (hstate : o.state = .awaitingApproval) :
    Sound rules signing (At o Begun) (approveAndRun signing o authority) := by
  unfold approveAndRun
  apply Walks.peeks peek_now (kept_at lasting_begun)
  intro approvedAt
  apply Walks.pre (N := At o fun log => .clock approvedAt ∈ log ∧ Begun log) _
    fun _ h => ⟨h.1.1, h.2, h.1.2⟩
  apply Walks.bind (Walks.attempt (walk_approved hstate))
  intro outcome
  cases outcome with
  | error fault =>
    have hopen : o.terminal = false := by
      unfold BridgeOperation.terminal
      rw [hstate]
      rfl
    exact sound_haltUnsent hopen lasting_begun (.inr rfl)
  | ok next => exact sound_run

theorem unsealed_of_awaiting (hvalid : o.Valid) (hstate : o.state = .awaitingApproval)
    (heff : o.effect? role = some e) : e.phase = .unsealed := by
  have happroval := (snapshot_of_valid hvalid).approval
  exact happroval.unapproved (happroval.awaiting hstate) e (BridgeEffects.mem_all.mpr ⟨role, heff⟩)

theorem firstRole_effect : ∃ e, o.effect? o.effects.firstRole = some e := by
  unfold BridgeEffects.firstRole
  split
  · rename_i hsome
    exact Option.isSome_iff_exists.mp hsome
  · exact ⟨_, rfl⟩

theorem sound_approveOperation : Sound rules signing (At o Begun) (approveOperation signing o) := by
  apply walk_valid
  intro hvalid
  unfold approveOperation
  apply Walks.ite
  · exact fun _ => Sound.ret
  intro hopen
  have hstate : o.state = .awaitingApproval := Decidable.not_not.mp fun h => hopen (.inr h)
  apply Walks.ite
  · exact fun _ => Walks.fail fun _ _ => trivial
  intro _
  apply Walks.peeks peek_guard (kept_at lasting_begun)
  intro fault
  cases fault with
  | some fault =>
    apply Walks.pre (N := fun log => GuardFails o o.effects.firstRole fault.1 fault.2 ∧ At o Begun log) _
      fun log h => ⟨h.2 _ _ rfl, h.1⟩
    apply Walks.assume
    intro hfails
    rcases firstRole_effect (o := o) with ⟨e, heff⟩
    apply Walks.ite
    · exact fun _ => Sound.ret
    · exact fun _ =>
        sound_deferOrHalt lasting_begun heff (.inl (unsealed_of_awaiting hvalid hstate heff)) hfails
  | none =>
    apply Walks.pre (N := At o Begun) _ fun _ h => h.1
    apply Walks.reads (peek_confirm (o := o) fun _ h => h.1.1) (kept_at lasting_begun) (fun _ h => h)
      fun _ _ _ => trivial
    intro confirmed
    cases confirmed with
    | true => exact (sound_approveAndRun hstate).pre fun _ h => h.1
    | false =>
      apply Walks.pre (N := At o (Answered o false)) _ fun _ h => ⟨h.1.1, h.2⟩
      exact sound_save lasting_answered fun log hat => .rejects hstate hat.2

variable {approval : Bool}

theorem sound_resumeOperation :
    Sound rules signing (At o Begun) (resumeOperation signing o approval) := by
  unfold resumeOperation
  apply Walks.ite
  · exact fun _ => sound_run
  intro _
  apply Walks.peeks peek_now (kept_at lasting_begun)
  intro at'
  apply Walks.pre (N := At o Begun) _ fun _ h => h.1
  apply Walks.ite
  · exact fun _ => sound_run
  intro _
  apply Walks.ite
  · exact fun _ => Walks.fail fun _ _ => trivial
  intro _
  apply Walks.reads (peek_call (q := .authority) (h := rfl) fun _ _ _ h => h) (kept_at lasting_begun)
    (K := fun _ => True) (fun _ _ => trivial) fun _ _ _ => trivial
  intro _
  apply Walks.pre (N := At o Begun) _ fun _ h => h.1
  apply Walks.reads (peek_confirm (o := o) fun _ h => h.1.1) (kept_at lasting_begun) (fun _ h => h)
    fun _ _ _ => trivial
  intro confirmed
  apply Walks.pre (N := At o Begun) _ fun _ h => h.1
  apply Walks.ite
  · intro _
    apply Walks.peeks peek_now (kept_at lasting_begun)
    exact fun _ => sound_run.pre fun _ h => h.1
  · exact fun _ => Sound.ret

theorem sound_locked {work : BridgeOperation → BridgeProg BridgeOperation}
    (h : ∀ o, Sound rules signing (fun log => record log = some o ∧ Begun log) (work o)) :
    Sound rules signing (fun _ => True) (locked work) := by
  unfold locked
  apply Walks.bind (M := fun o log => record log = some o ∧ Begun log)
  · apply Walks.run (h := rfl)
    intro log log' answer hlawful _ heffect
    change Except BridgeError BridgeOperation at answer
    rcases heffect with ⟨o, rfl, hrecord, rfl⟩ | ⟨⟨fault, rfl⟩, rfl⟩
    · exact ⟨⟨trivial, hlawful⟩, hrecord, (fun _ h => nomatch h), fun _ _ _ h => nomatch h⟩
    · exact ⟨hlawful, trivial⟩
  intro o
  apply Walks.peeks peek_followUsage (kept_record.and lasting_begun.kept)
  intro _
  apply Walks.bind (M := fun _ _ => True)
  · exact (h o).conseq (fun _ h => h.1) (fun _ _ _ => trivial) fun _ _ _ => trivial
  · exact fun _ => Sound.ret

theorem sound_approve :
    Sound rules signing (fun _ => True) (approve signing approval) := by
  apply sound_locked
  intro o
  apply Walks.ite
  · exact fun _ => Sound.ret
  intro hopen
  apply Walks.ite
  · exact fun _ => Walks.fail fun _ _ => trivial
  · exact fun _ => sound_approveOperation.pre fun _ h => ⟨⟨h.1, by simpa using not_or.mp hopen |>.1⟩, h.2⟩

theorem sound_resume :
    Sound rules signing (fun _ => True) (resume signing approval) := by
  apply sound_locked
  intro o
  apply Walks.ite
  · exact fun _ => Sound.ret
  · intro hopen
    exact sound_resumeOperation.pre fun _ h => ⟨⟨h.1, by simpa using not_or.mp hopen |>.1⟩, h.2⟩

theorem sound_prepare {i : BridgeIntent} :
    Sound rules signing (fun _ => True) (prepare i approval) := by
  apply Walks.run (h := rfl)
  intro log log' answer hlawful _ heffect
  change Except BridgeError Unit at answer
  refine ⟨?_, by cases answer <;> trivial⟩
  rcases heffect with ⟨_, rfl⟩ | ⟨_, rfl⟩ | ⟨hstorable, rfl⟩
  · exact hlawful
  · exact hlawful
  · refine ⟨?_, hlawful⟩
    show WrittenOver log (newBridgeOperation i approval)
    unfold WrittenOver
    unfold storable at hstorable
    cases hrecord : record log with
    | none => exact ⟨approval, rfl⟩
    | some o =>
      rw [hrecord] at hstorable
      rcases hstorable with ⟨hsame | ⟨_, _, hearlier⟩, hne⟩
      · exact absurd hsame hne
      · cases hearlier

theorem sound_restore : Sound rules signing (fun _ => True) (restore o) := by
  apply Walks.perform
  intro log log' answer hlawful _ heffect
  rcases heffect with rfl | ⟨hstored, rfl⟩
  · exact ⟨hlawful, trivial⟩
  · exact ⟨⟨hstored, hlawful⟩, trivial⟩

theorem sound_call {x : BridgeProg Unit} (h : BridgeCall signing x) :
    Sound rules signing (fun _ => True) x := by
  cases h with
  | prepare i approval => exact sound_prepare
  | approve approval => exact sound_approve
  | resume approval => exact sound_resume

theorem sound_callOrRestore {x : BridgeProg Unit} (h : BridgeCallOrRestore signing x) :
    Sound rules signing (fun _ => True) x := by
  cases h with
  | call x hx => exact sound_call hx
  | restore o => exact sound_restore

end Entry

end Bridge
end PaymentNode
