import PaymentNode.Bridge.Calls

/-!
# Sends — one broadcast per effect

A send follows a SEND claim of exactly its bytes, made in the same call when there was none.  The claims outlive
every rollback of the journals, so a second send of a role would need a second claim.
-/

namespace PaymentNode

open Trace

/-- The steps of calls on one operation, in a world with these rules. -/
abbrev BridgeStep {W : Type} (rules : Rules W BridgeEvent) (signing : BridgeSigning)
    (entry : BridgeProg Unit → Prop) :=
  Trace.Step (Bridge.effect signing) rules entry

namespace Bridge

variable {signing : BridgeSigning} {o next : BridgeOperation} {m : BridgeMutable}
  {log newer older : List BridgeEvent} {role : BridgeRole} {raw : String} {bytes : BridgeClaimedBytes}

/-! ## Claims -/

theorem sendClaimOf_isSome (h : .claimedSend role bytes ∈ log) : (sendClaimOf role log).isSome := by
  induction log with
  | nil => cases h
  | cons e log ih =>
    rcases List.mem_cons.mp h with rfl | h
    · simp [sendClaimOf]
    · have hrest := ih h
      cases e with
      | claimedSend r b =>
        unfold sendClaimOf
        split
        · rfl
        · exact hrest
      | _ => exact hrest

-- A role is claimed once, so a claim that was made is the claim.
theorem sendClaimOf_of_mem (hlog : LawfulLog (Lawful signing) log) (h : .claimedSend role bytes ∈ log) :
    sendClaimOf role log = some bytes := by
  induction log with
  | nil => cases h
  | cons e log ih =>
    rcases List.mem_cons.mp h with rfl | h
    · simp [sendClaimOf]
    · have hrest := ih hlog.2 h
      cases e with
      | claimedSend r b =>
        have hnone : sendClaimOf r log = none := hlog.1
        unfold sendClaimOf
        split
        · rename_i hrole
          rw [← hrole, hnone] at hrest
          cases hrest
        · exact hrest
      | _ => exact hrest

theorem inCall_prefix (log : List BridgeEvent) : ∃ rest, log = inCall log ++ rest := by
  induction log with
  | nil => exact ⟨[], rfl⟩
  | cons e log ih =>
    rcases ih with ⟨rest, hrest⟩
    cases e with
    | began => exact ⟨.began :: log, rfl⟩
    | _ => exact ⟨rest, congrArg (_ :: ·) hrest⟩

theorem inCall_sublist : ∀ e ∈ inCall log, e ∈ log := by
  intro e he
  rcases inCall_prefix log with ⟨rest, hrest⟩
  rw [hrest]
  exact List.mem_append_left _ he

theorem sent_lawful (hlog : LawfulLog (Lawful signing) log) (hsplit : log = newer ++ .sent role raw :: older) :
    Lawful signing older (.sent role raw) :=
  (hlog.of_suffix ⟨newer, hsplit.symm⟩).1

theorem claimed_of_sent (hlog : LawfulLog (Lawful signing) log) (h : .sent role raw ∈ log) :
    (sendClaimOf role log).isSome := by
  rcases List.append_of_mem h with ⟨newer, older, hsplit⟩
  have hclaim := (sent_lawful hlog hsplit).2.1
  have hmem := List.mem_append_right newer
    (List.mem_cons_of_mem (.sent role raw) (inCall_sublist _ hclaim))
  rw [← hsplit] at hmem
  exact sendClaimOf_isSome hmem

-- A send is the first of its role.
theorem unsent_before (hlog : LawfulLog (Lawful signing) log) (h : Lawful signing log (.sent role raw)) :
    ∀ raw', .sent role raw' ∉ log := by
  intro raw' hmem
  rcases h with ⟨_, hclaimed, hunsent⟩
  rcases inCall_prefix log with ⟨rest, hrest⟩
  rcases List.append_of_mem hclaimed with ⟨ahead, behind, hcall⟩
  rw [hcall, List.append_assoc, List.cons_append] at hrest
  -- the claim found none, although the earlier send had one
  have hlawful := hlog.of_suffix ⟨ahead, hrest.symm⟩
  have hnone : sendClaimOf role (behind ++ rest) = none := hlawful.1
  have hsent : .sent role raw' ∈ rest := by
    have hmem' := hmem
    rw [hrest] at hmem'
    have hnot : .sent role raw' ∉ ahead ++ .claimedSend role
        ⟨signing.materialHash role raw, signing.transactionHash raw⟩ :: behind := by
      rw [← hcall]
      exact hunsent raw'
    have hassoc : ahead ++ .claimedSend role
        ⟨signing.materialHash role raw, signing.transactionHash raw⟩ :: (behind ++ rest) =
          (ahead ++ .claimedSend role
            ⟨signing.materialHash role raw, signing.transactionHash raw⟩ :: behind) ++ rest := by
      simp
    rw [hassoc] at hmem'
    exact (List.mem_append.mp hmem').resolve_left hnot
  have hsome := claimed_of_sent hlawful.2 (List.mem_append_right _ hsent)
  rw [hnone] at hsome
  cases hsome

/-- The sends of a role. -/
def sends (role : BridgeRole) (log : List BridgeEvent) : ℕ :=
  log.countP fun e => match e with
    | .sent r _ => r = role
    | _ => false

theorem sends_zero (h : ∀ raw, .sent role raw ∉ log) : sends role log = 0 := by
  unfold sends
  rw [List.countP_eq_zero]
  intro e he hsent
  cases e with
  | sent r raw =>
    have hrole : r = role := by simpa using hsent
    subst hrole
    exact h raw he
  | _ => cases hsent

theorem sends_le (hlog : LawfulLog (Lawful signing) log) : sends role log ≤ 1 := by
  induction log with
  | nil => exact Nat.zero_le _
  | cons e log ih =>
    cases e with
    | sent r raw =>
      by_cases hrole : r = role
      · subst hrole
        have hzero := sends_zero (unsent_before hlog.2 hlog.1)
        unfold sends at hzero ⊢
        simp [hzero]
      · have hrest := ih hlog.2
        unfold sends at hrest ⊢
        simpa [hrole] using hrest
    | _ => exact ih hlog.2

/-! ## The ends without an effect -/

/-- A state that says the bridge call was never sent. -/
def unsentEnd : BridgeState → Bool
  | .failedBeforeEffect | .failedAfterApproval => true
  | _ => false

/-- No SEND claim is left behind an approval that is turned down. -/
def Undeclined (log : List BridgeEvent) : BridgeEvent → Prop
  | .confirmed false => ∀ o, record log = some o → o.state = .awaitingApproval → NoUnrecordedSend log o
  | _ => True

/-- Every event of a log is one of these after the older ones. -/
def Always (allowed : List BridgeEvent → BridgeEvent → Prop) (log : List BridgeEvent) : Prop :=
  ∀ newer e older, log = newer ++ e :: older → allowed older e

variable {allowed : List BridgeEvent → BridgeEvent → Prop}

theorem Always.cons {e : BridgeEvent}
    (h : Always allowed log) (he : allowed log e) : Always allowed (e :: log) := by
  intro newer e' older hsplit
  cases newer with
  | nil =>
    cases hsplit
    exact he
  | cons first newer =>
    have hlog : log = newer ++ e' :: older := (List.cons.inj hsplit).2
    exact h newer e' older hlog

theorem Always.at_suffix {e : BridgeEvent}
    (h : Always allowed log) (hsuffix : e :: older <:+ log) : allowed older e := by
  rcases hsuffix with ⟨newer, hsplit⟩
  exact h newer e older hsplit.symm

theorem Always.of_suffix (h : Always allowed log) (hsuffix : older <:+ log) : Always allowed older := by
  intro newer e rest hsplit
  exact h.at_suffix (List.IsSuffix.trans ⟨newer, hsplit.symm⟩ hsuffix)

theorem effectWrites_state {e new : BridgeEffect} {state : BridgeState} {clear : Bool}
    (h : EffectWrites log o role e new state clear) : state = o.state ∨ unsentEnd state = false := by
  cases h <;> first | exact .inl rfl | exact .inr rfl

-- The writes that end an operation without its bridge call knew of no SEND claim.
theorem writes_unsentEnd (hallowed : Always Undeclined log) (hopen : o.terminal = false)
    (h : Writes log o m) (hend : unsentEnd m.state = true) :
    m.effects = o.effects ∧ NoUnrecordedSend log o := by
  have hstate : unsentEnd o.state = false := by
    unfold BridgeOperation.terminal at hopen
    cases hs : o.state <;> rw [hs] at hopen <;> first | rfl | cases hopen
  have hsame : m.state = o.state → False := by
    intro heq
    rw [heq, hstate] at hend
    cases hend
  cases h with
  | rejects hawaiting hanswered =>
    rcases hanswered with ⟨older, hsuffix, hrecord, hclaims⟩
    refine ⟨rfl, ?_⟩
    intro role e he hattempts
    rw [hclaims role]
    exact hallowed.at_suffix hsuffix o hrecord hawaiting role e he hattempts
  | haltsBefore _ _ _ hclaims => exact ⟨rfl, hclaims⟩
  | haltsAfter _ _ _ _ hclaims => exact ⟨rfl, hclaims⟩
  | restates state f hrestates =>
    cases hrestates with
    | defers => exact (hsame rfl).elim
    | keeps => exact (hsame rfl).elim
    | unknown => cases hend
    | waits => cases hend
  | effect role e new state clear heff hwrites =>
    have hnew : ((if clear then clearedDeferral else id)
        { withEffect o role new with state := state }).state = state := by
      cases clear with
      | true => exact clearedDeferral_state
      | false => rfl
    rw [hnew] at hend hsame
    rcases effectWrites_state hwrites with heq | hother
    · exact (hsame heq).elim
    · rw [hother] at hend
      cases hend
  | missing role e =>
    have hnew : (receiptMissing o role e).state = .unknownFinality := by
      unfold receiptMissing unsourced
      split <;> rfl
    rw [hnew] at hend
    cases hend
  | moved role e =>
    have hnew : (inclusionMoved o role e).state = .unknownFinality := by
      unfold inclusionMoved unsourced
      split <;> rfl
    rw [hnew] at hend
    cases hend
  | includes role e t seen reliable =>
    cases reliable <;> cases hend
  | provider => exact (hsame rfl).elim
  | delivers => exact (hsame rfl).elim
  | approves => cases hend
  | reverts => cases hend
  | completes => cases hend
  | failsDelivery => cases hend

/-- What a log says of the sends of an operation. -/
structure SentOnce (signing : BridgeSigning) (log : List BridgeEvent) : Prop where
  once : ∀ role, sends role log ≤ 1
  claimed : ∀ newer role raw older, log = newer ++ .sent role raw :: older →
    sendClaimOf role older = some ⟨signing.materialHash role raw, signing.transactionHash raw⟩
  recorded : ∀ newer role raw older, log = newer ++ .sent role raw :: older →
    ∃ o e, record older = some o ∧ o.effect? role = some e ∧ e.submissionAttempts = 1 ∧
      (role = .bridge → ∀ a ∈ o.effects.approval, a.phase.landed = true)
  closed : ∀ newer next older, log = newer ++ .stored next :: older → unsentEnd next.state = true →
    ∀ role e, next.effect? role = some e → e.submissionAttempts = 0 → sendClaimOf role older = none

theorem sentOnce_of_lawful (hlog : LawfulLog (Lawful signing) log) (hallowed : Always Undeclined log) :
    SentOnce signing log := by
  refine ⟨fun role => sends_le hlog, ?_, ?_, ?_⟩
  · intro newer role raw older hsplit
    have holder : older <:+ log := ⟨newer ++ [.sent role raw], by simp [hsplit]⟩
    exact sendClaimOf_of_mem (hlog.of_suffix holder)
      (inCall_sublist _ (sent_lawful hlog hsplit).2.1)
  · intro newer role raw older hsplit
    rcases (sent_lawful hlog hsplit).1 with ⟨o, e, hrecord, heff, _, hattempts, hlanded⟩
    exact ⟨o, e, hrecord, heff, hattempts, hlanded⟩
  · intro newer next older hsplit hend role e heff hattempts
    have hover : WrittenOver older next := (hlog.of_suffix ⟨newer, hsplit.symm⟩).1
    have hsuffix : older <:+ log := ⟨newer ++ [.stored next], by simp [hsplit]⟩
    unfold WrittenOver at hover
    cases hrecord : record older with
    | none =>
      rw [hrecord] at hover
      rcases hover with ⟨approval, hnew⟩
      rw [hnew] at hend
      cases hend
    | some o =>
      rw [hrecord] at hover
      rcases hover with ⟨m, at', before, rfl, _, hopen, hwrites, _⟩
      have hclosed := writes_unsentEnd (hallowed.of_suffix hsuffix) hopen hwrites hend
      have heffects : (o.append m at').effects = o.effects := hclosed.1
      unfold BridgeOperation.effect? at heff
      rw [heffects] at heff
      exact hclosed.2 role e heff hattempts

/-! ## Runs -/

theorem effect_suffix {op : BridgeOp} {answer : op.Answer} {log' : List BridgeEvent}
    (h : effect signing log op answer log') : log <:+ log' := by
  have hsame : log' = log → log <:+ log' := by
    rintro rfl
    exact List.suffix_refl _
  have hone : ∀ e : BridgeEvent, log' = e :: log → log <:+ log' := by
    rintro e rfl
    exact List.suffix_cons _ _
  cases op with
  | lock =>
    rcases h with ⟨_, _, _, h⟩ | ⟨_, h⟩
    · exact hone _ h
    · exact hsame h
  | transition op next at' =>
    simp only [effect] at h
    split at h
    · exact hsame h.2
    · rcases h with ⟨_, h⟩
      split at h
      · exact hone _ h
      · exact hsame h
  | persist next =>
    rcases h with ⟨_, h⟩ | ⟨_, h⟩ | ⟨_, h⟩
    · exact hsame h
    · exact hsame h
    · exact hone _ h
  | now => exact hone _ h
  | confirm =>
    change Except BridgeError Bool at answer
    cases answer with
    | ok b => exact hone _ h
    | error e => exact hsame h
  | sendClaim role =>
    change Except BridgeError (Option BridgeClaimedBytes) at answer
    rcases answer with e | (_ | b)
    · exact hsame h
    · have hlog : _ ∧ log' = log := h
      exact hsame hlog.2
    · have hlog : _ ∧ log' = .claimSeen role :: log := h
      exact hone _ hlog.2
  | claimSign role =>
    rcases h with h | ⟨_, h⟩ | h
    · exact hsame h
    · exact hsame h
    · exact hone _ h
  | claimSend role bytes =>
    simp only [effect] at h
    split at h
    · rcases h with ⟨_, h⟩ | h
      · exact hsame h
      · exact hone _ h
    · exact hsame h.1
  | custodySeal op role =>
    simp only [effect] at h
    split at h
    · rcases h with ⟨_, h⟩ | ⟨m, _, h, _⟩
      · exact hsame h
      · exact hone _ h
    · exact hsame h.1
  | load role => exact hsame h.1
  | send role raw => exact hone _ h
  | observe role =>
    change Except BridgeError (Option BridgeSourceObservation) at answer
    rcases answer with e | (_ | seen)
    · exact hsame h
    · exact hsame h
    · exact hone _ h
  | providerStatus =>
    change Option BridgeProviderObservation at answer
    cases answer with
    | none => exact hsame h
    | some p => exact hone _ h
  | ask q =>
    cases q with
    | reserve =>
      change Except BridgeError BridgeUsageLease at answer
      cases answer with
      | ok lease => exact hone _ h
      | error e => exact hsame h
    | destination op hash =>
      change Except BridgeDestinationFault BridgeDestinationProof at answer
      cases answer with
      | ok proof => exact hone _ h
      | error e => exact hsame h
    | authority | followUsage | guard | budget | residual => exact hsame h
  | restore o =>
    rcases h with h | ⟨_, h⟩
    · exact hsame h
    · exact hone _ h

variable {W : Type} {rules : Rules W BridgeEvent} {w : W}
  {labels : List (System.Label BridgeOp BridgeOp.Answer BridgeError Unit)}
  {c : System.Config BridgeOp BridgeOp.Answer BridgeError (Shared W BridgeEvent) Unit}

-- Every call leaves a lawful log, also between rollbacks.
theorem lawful_run
    (hrun : Runs.Run (BridgeStep rules signing (BridgeCallOrRestore signing)) (System.idle ⟨w, []⟩) labels c) :
    LawfulLog (Lawful signing) c.shared.log :=
  lawful_of_run (fun _ h => sound_callOrRestore h) hrun

-- What the world asks of every event holds of every event.
theorem always_run {entry : BridgeProg Unit → Prop} (hallows : ∀ w log e, rules.allows w log e → allowed log e)
    (hrun : Runs.Run (BridgeStep rules signing entry) (System.idle ⟨w, []⟩) labels c) :
    Always allowed c.shared.log := by
  apply world_of_run (I := fun _ log => Always allowed log) _ _ (fun _ _ _ _ h => effect_suffix h) _ hrun
  · exact fun _ _ _ _ h => h
  · exact fun w log e he h => h.cons (hallows w log e he)
  · exact fun newer e older h => absurd h (by simp)

/-- The world in which no approval is turned down over a SEND claim that the journal does not show. -/
def undeclined : Rules Unit BridgeEvent := ⟨fun _ _ => True, fun _ => Undeclined⟩

end Bridge

/-- **One broadcast per effect**, across crashes and rollbacks of the journals: each after a SEND claim of its
bytes and a record of its submission, the bridge call behind its approval; and no operation ends as unsent over
a SEND claim, as long as no approval is turned down over one. -/
theorem bridge_sends_once {signing : BridgeSigning}
    {labels : List (System.Label BridgeOp BridgeOp.Answer BridgeError Unit)}
    {c : System.Config BridgeOp BridgeOp.Answer BridgeError (Shared Unit BridgeEvent) Unit}
    (hrun : Runs.Run (BridgeStep Bridge.undeclined signing (BridgeCallOrRestore signing))
      (System.idle ⟨(), []⟩) labels c) :
    Bridge.SentOnce signing c.shared.log :=
  Bridge.sentOnce_of_lawful (Bridge.lawful_run hrun) (Bridge.always_run (fun _ _ _ h => h) hrun)

/-! ## Concrete runs -/

namespace BridgeRuns

open Bridge

instance decidableStorable (log : List BridgeEvent) (next : BridgeOperation) :
    Decidable (storable log next) :=
  match h : record log with
  | none => decidable_of_iff (next.earlier = [] ∧ next.state = .awaitingApproval) (by simp [storable, h])
  | some o => decidable_of_iff (o.Appends next ∧ next ≠ o) (by simp [storable, h])

/-- How the clock, the owner, the chains and everything else answer in one call. -/
structure Script where
  at' : ℤ
  confirms : Bool
  observes : BridgeRole → Except BridgeError (Option BridgeSourceObservation)
  provider : Option BridgeProviderObservation
  ask : (q : BridgeAsk) → q.Answer

/-- Signed bytes that are their own hashes. -/
def signing : BridgeSigning := ⟨fun raw => raw, fun _ raw => raw, fun _ _ => true⟩

def bytes : BridgeRole → String
  | .approval => "0x01"
  | .bridge => "0x02"

def material (role : BridgeRole) : BridgeSealedMaterial := ⟨role, bytes role, bytes role, bytes role⟩

def failed : BridgeError := .apn "APN_STATE_CORRUPT" ""

section

variable (log : List BridgeEvent)

def lockedEvents : Option BridgeOperation →
    Except BridgeError BridgeOperation × List BridgeEvent
  | none => (.error failed, log)
  | some o => (.ok o, .began :: log)

def transitioned (op : BridgeOperation) (next : BridgeMutable) (at' : ℤ) :
    Result BridgeOperation → Except BridgeError BridgeOperation × List BridgeEvent
  | .ok result => (.ok result, log)
  | .error e => (.error failed, if e.code = .stateCorrupt then .refused op next at' :: log else log)

def persisted (next : BridgeOperation) :
    Except BridgeError Unit × List BridgeEvent :=
  if storable log next then (.ok (), .stored next :: log)
  else if record log = some next then (.ok (), log)
  else (.error failed, log)

def claimEvents (role : BridgeRole) (log : List BridgeEvent) : Option BridgeClaimedBytes → List BridgeEvent
  | none => log
  | some _ => .claimSeen role :: log

def claimedEvents (role : BridgeRole) (bytes : BridgeClaimedBytes) (log : List BridgeEvent) :
    Option BridgeClaimedBytes → Except BridgeError Unit × List BridgeEvent
  | none => (.ok (), .claimedSend role bytes :: log)
  | some found => (if found = bytes then .ok () else .error failed, log)

def sealed (op : BridgeOperation) (role : BridgeRole) (log : List BridgeEvent) :
    Option BridgeSealedMaterial → Except BridgeError BridgeSealedMaterial × List BridgeEvent
  | some m => (.ok m, log)
  | none =>
    if validateMaterial signing (material role) op role = .ok () then
      (.ok (material role), .sealedMaterial (material role) :: log)
    else (.error failed, log)

def observedEvents (role : BridgeRole) (log : List BridgeEvent) :
    Except BridgeError (Option BridgeSourceObservation) → List BridgeEvent
  | .ok (some seen) => .observed role seen.transaction seen.sourceProof.toOption :: log
  | _ => log

def providerEvents : Option BridgeProviderObservation → List BridgeEvent
  | none => log
  | some p => .providerAnswered p :: log

def reservedEvents : Except BridgeError BridgeUsageLease → List BridgeEvent
  | .ok lease => .reserved lease :: log
  | .error _ => log

def deliveredEvents :
    Except BridgeDestinationFault BridgeDestinationProof → List BridgeEvent
  | .ok proof => .delivered proof :: log
  | .error _ => log

def asked (script : Script) (log : List BridgeEvent) : (q : BridgeAsk) → q.Answer × List BridgeEvent
  | .reserve => (script.ask .reserve, reservedEvents log (script.ask .reserve))
  | .destination op hash =>
    (script.ask (.destination op hash), deliveredEvents log (script.ask (.destination op hash)))
  | q => (script.ask q, log)

def rolledBack (o : BridgeOperation) : List BridgeEvent :=
  if .stored o ∈ log then .restored o :: log else log

end

/-- Reads and writes succeed where they may. -/
def Script.play (script : Script) (log : List BridgeEvent) : (o : BridgeOp) → o.Answer × List BridgeEvent
  | .lock => lockedEvents log (record log)
  | .transition op next at' => transitioned log op next at' (transitionBridge op next at')
  | .persist next => persisted log next
  | .now => (script.at', .clock script.at' :: log)
  | .confirm => ((.ok script.confirms : Except BridgeError Bool), .confirmed script.confirms :: log)
  | .sendClaim role =>
    ((.ok (sendClaimOf role log) : Except BridgeError _), claimEvents role log (sendClaimOf role log))
  | .claimSign role => ((.ok () : Except BridgeError Unit), .claimedSign role :: log)
  | .claimSend role bytes => claimedEvents role bytes log (sendClaimOf role log)
  | .custodySeal op role => sealed op role log (materialOf role log)
  | .load role => ((.ok (materialOf role log) : Except BridgeError _), log)
  | .send role raw => ((.ok raw : Except BridgeError String), .sent role raw :: log)
  | .observe role => (script.observes role, observedEvents role log (script.observes role))
  | .providerStatus => (script.provider, providerEvents log script.provider)
  | .ask q => asked script log q
  | .restore o => ((), rolledBack log o)

variable {log : List BridgeEvent}

theorem play_effect {script : Script} (o : BridgeOp) :
    effect signing log o (script.play log o).1 (script.play log o).2 := by
  have hok : ∀ {α : Type} (value : α), answers (.ok value : Except BridgeError α) value :=
    fun value a h => (Except.ok.inj h).symm
  cases o with
  | lock =>
    show effect signing log .lock (lockedEvents log (record log)).1 (lockedEvents log (record log)).2
    cases h : record log with
    | none => exact .inr ⟨⟨_, rfl⟩, rfl⟩
    | some o => exact .inl ⟨o, rfl, h, rfl⟩
  | transition op next at' =>
    show effect signing log (.transition op next at')
      (transitioned log op next at' (transitionBridge op next at')).1
      (transitioned log op next at' (transitionBridge op next at')).2
    simp only [effect]
    cases h : transitionBridge op next at' with
    | ok result => exact ⟨rfl, rfl⟩
    | error e => exact ⟨⟨_, rfl⟩, rfl⟩
  | persist next =>
    show effect signing log (.persist next) (persisted log next).1 (persisted log next).2
    unfold persisted
    split
    · rename_i hstorable
      exact .inr (.inr ⟨hstorable, rfl⟩)
    · split
      · rename_i hrecord
        exact .inr (.inl ⟨hrecord, rfl⟩)
      · exact .inl ⟨⟨_, rfl⟩, rfl⟩
  | now => rfl
  | confirm => rfl
  | sendClaim role =>
    show effect signing log (.sendClaim role)
      (.ok (sendClaimOf role log) : Except BridgeError (Option BridgeClaimedBytes))
      (claimEvents role log (sendClaimOf role log))
    cases h : sendClaimOf role log with
    | none => exact ⟨h, rfl⟩
    | some bytes => exact ⟨h, rfl⟩
  | claimSign role => exact .inr (.inr rfl)
  | claimSend role bytes =>
    show effect signing log (.claimSend role bytes) (claimedEvents role bytes log (sendClaimOf role log)).1
      (claimedEvents role bytes log (sendClaimOf role log)).2
    simp only [effect]
    cases h : sendClaimOf role log with
    | none => exact .inr rfl
    | some found =>
      refine ⟨rfl, ?_⟩
      intro hanswer
      by_contra hne
      have hfailed : (claimedEvents role bytes log (some found)).1 = .error failed := if_neg hne
      rw [hfailed] at hanswer
      cases hanswer
  | custodySeal op role =>
    show effect signing log (.custodySeal op role) (sealed op role log (materialOf role log)).1
      (sealed op role log (materialOf role log)).2
    simp only [effect]
    cases h : materialOf role log with
    | some m => exact ⟨rfl, hok m⟩
    | none =>
      simp only [sealed]
      split
      · rename_i hvalid
        exact .inr ⟨_, hvalid, rfl, hok _⟩
      · exact .inl ⟨⟨_, rfl⟩, rfl⟩
  | load role => exact ⟨rfl, hok _⟩
  | send role raw => rfl
  | observe role =>
    show effect signing log (.observe role) (script.observes role)
      (observedEvents role log (script.observes role))
    rcases script.observes role with e | (_ | seen) <;> rfl
  | providerStatus =>
    show effect signing log .providerStatus script.provider (providerEvents log script.provider)
    cases script.provider <;> rfl
  | ask q =>
    cases q with
    | reserve =>
      show effect signing log (.ask .reserve) (script.ask .reserve)
        (reservedEvents log (script.ask .reserve))
      generalize script.ask .reserve = answer
      change Except BridgeError BridgeUsageLease at answer
      cases answer <;> rfl
    | destination op hash =>
      show effect signing log (.ask (.destination op hash)) (script.ask (.destination op hash))
        (deliveredEvents log (script.ask (.destination op hash)))
      generalize script.ask (.destination op hash) = answer
      change Except BridgeDestinationFault BridgeDestinationProof at answer
      cases answer <;> rfl
    | authority | followUsage | guard | budget | residual => rfl
  | restore o =>
    show effect signing log (.restore o) () (rolledBack log o)
    unfold rolledBack
    split
    · rename_i hmem
      exact .inr ⟨hmem, rfl⟩
    · exact .inl rfl

def Script.inWorld (script : Script) (s : Shared Unit BridgeEvent) (o : BridgeOp) :
    o.Answer × Shared Unit BridgeEvent :=
  ((script.play s.log o).1, ⟨(), (script.play s.log o).2⟩)

/-- One call, with its answers, for as many of its operations. -/
def call (script : Script) (prog : BridgeProg Unit) (operations : ℕ) :
    System.Call BridgeOp BridgeOp.Answer BridgeError (Shared Unit BridgeEvent) :=
  ⟨prog, script.inWorld, operations⟩

def after (calls : List (Script × BridgeProg Unit × ℕ)) : Shared Unit BridgeEvent :=
  (calls.map fun c => call c.1 c.2.1 c.2.2).foldl (fun s call => call.after s) ⟨(), []⟩

-- Scripts that answer as the rules let them make a run.
theorem run_after {rules : Rules Unit BridgeEvent} {entry : BridgeProg Unit → Prop}
    (hmoves : rules.moves () ()) (calls : List (Script × BridgeProg Unit × ℕ))
    (hcalls : ∀ c ∈ calls, entry c.2.1)
    (hallows : ∀ c ∈ calls, ∀ log o, Allowed rules () log (c.1.play log o).2) :
    ∃ labels, Runs.Run (BridgeStep rules signing entry) (System.idle ⟨(), []⟩) labels
      (System.idle (after calls)) := by
  apply System.run_calls
  · exact fun _ => rfl
  · intro c hc
    rcases List.mem_map.mp hc with ⟨given, hgiven, rfl⟩
    exact ⟨hcalls given hgiven, fun s o => ⟨hmoves, play_effect o, hallows given hgiven s.log o⟩⟩

theorem allowed_any {W : Type} {w : W} {log log' : List BridgeEvent} :
    Allowed (Rules.any W BridgeEvent) w log log' := by
  induction log' with
  | nil => trivial
  | cons e log' ih => exact .inr ⟨trivial, ih⟩

/-- A token lane without an approval. -/
def intent : BridgeIntent where
  operationId := "op_1"
  fingerprint := "0xf1"
  tool := .across
  request := ⟨1, 8453, "0xa0", "0xa1", 1000, "0xr1", 990⟩
  decoded := ⟨1000, 0, 990, none⟩
  approvalEnvelope := ⟨1, "0xr1", "0xa0", 0, "0xd0", 6, 60000, 100, 1⟩
  bridgeEnvelope := ⟨1, "0xr1", "0xb0", 0, "0xd1", 7, 90000, 100, 1⟩
  preparedAt := 0
  expiresAt := 1000000
  allowlist := some ⟨"0xp1", true, "eip155:1:0xr1", 1, "0xa0", 1000⟩

def lease : BridgeUsageLease := ⟨.reserved, "op_1", "0xp1", 1000, "eip155:1:0xr1", 1, "0xa0"⟩

/-- Every question is answered in the operation's favour, and no chain has anything yet. -/
def agrees : (q : BridgeAsk) → q.Answer
  | .authority | .followUsage => (.ok () : Except BridgeError Unit)
  | .reserve => (.ok lease : Except BridgeError BridgeUsageLease)
  | .guard _ => (none : Option BridgeGuardFault)
  | .budget => (none : Option ℕ)
  | .destination _ _ => (.error .pending : Except BridgeDestinationFault BridgeDestinationProof)
  | .residual => (.error failed : Except BridgeError BridgeResidualAllowance)

/-- An owner who agrees or not, and a source chain without the transaction. -/
def silent (confirms : Bool) : Script := ⟨1, confirms, fun _ => .ok none, none, agrees⟩

/-- What an event says of the script that made it. -/
def Script.Makes (script : Script) : BridgeEvent → Prop
  | .clock at' => at' = script.at'
  | .confirmed answer => answer = script.confirms
  | .reserved lease => script.ask .reserve = (.ok lease : Except BridgeError BridgeUsageLease)
  | .observed role t proof => ∃ seen, script.observes role = .ok (some seen) ∧ t = seen.transaction ∧
      proof = seen.sourceProof.toOption
  | .providerAnswered p => script.provider = some p
  | .delivered proof => ∃ op hash, script.ask (.destination op hash) =
      (.ok proof : Except BridgeDestinationFault BridgeDestinationProof)
  | _ => True

/-- The log with at most one event more, which the script made. -/
def Script.Adds (script : Script) (log log' : List BridgeEvent) : Prop :=
  log' = log ∨ ∃ e, log' = e :: log ∧ script.Makes e

theorem play_adds {script : Script} (o : BridgeOp) :
    script.Adds log (script.play log o).2 := by
  have hsame : script.Adds log log := .inl rfl
  have hone : ∀ e, script.Makes e → script.Adds log (e :: log) := fun e h => .inr ⟨e, rfl, h⟩
  cases o with
  | lock =>
    show script.Adds log (lockedEvents log (record log)).2
    cases record log with
    | none => exact hsame
    | some o => exact hone .began trivial
  | transition op next at' =>
    show script.Adds log (transitioned log op next at' (transitionBridge op next at')).2
    cases transitionBridge op next at' with
    | ok result => exact hsame
    | error e =>
      show script.Adds log (if e.code = .stateCorrupt then .refused op next at' :: log else log)
      split
      · exact hone (.refused op next at') trivial
      · exact hsame
  | persist next =>
    show script.Adds log (persisted log next).2
    unfold persisted
    split
    · exact hone (.stored next) trivial
    · split <;> exact hsame
  | now => exact hone (.clock script.at') rfl
  | confirm => exact hone (.confirmed script.confirms) rfl
  | sendClaim role =>
    show script.Adds log (claimEvents role log (sendClaimOf role log))
    cases sendClaimOf role log with
    | none => exact hsame
    | some bytes => exact hone (.claimSeen role) trivial
  | claimSign role => exact hone (.claimedSign role) trivial
  | claimSend role bytes =>
    show script.Adds log (claimedEvents role bytes log (sendClaimOf role log)).2
    cases sendClaimOf role log with
    | none => exact hone (.claimedSend role bytes) trivial
    | some found => exact hsame
  | custodySeal op role =>
    show script.Adds log (sealed op role log (materialOf role log)).2
    cases materialOf role log with
    | some m => exact hsame
    | none =>
      simp only [sealed]
      split
      · exact hone (.sealedMaterial (material role)) trivial
      · exact hsame
  | load role => exact hsame
  | send role raw => exact hone (.sent role raw) trivial
  | observe role =>
    show script.Adds log (observedEvents role log (script.observes role))
    rcases h : script.observes role with e | (_ | seen)
    · exact hsame
    · exact hsame
    · exact hone (.observed role seen.transaction seen.sourceProof.toOption) ⟨seen, h, rfl, rfl⟩
  | providerStatus =>
    show script.Adds log (providerEvents log script.provider)
    cases h : script.provider with
    | none => exact hsame
    | some p => exact hone (.providerAnswered p) h
  | ask q =>
    cases q with
    | reserve =>
      show script.Adds log (reservedEvents log (script.ask .reserve))
      cases h : (script.ask .reserve : Except BridgeError BridgeUsageLease) with
      | ok lease => exact hone (.reserved lease) h
      | error e => exact hsame
    | destination op hash =>
      show script.Adds log (deliveredEvents log (script.ask (.destination op hash)))
      cases h : (script.ask (.destination op hash) :
        Except BridgeDestinationFault BridgeDestinationProof) with
      | ok proof => exact hone (.delivered proof) ⟨op, hash, h⟩
      | error e => exact hsame
    | authority | followUsage | guard | budget | residual => exact hsame
  | restore o =>
    show script.Adds log (rolledBack log o)
    unfold rolledBack
    split
    · exact hone (.restored o) trivial
    · exact hsame

theorem allowed_self {W : Type} {rules : Rules W BridgeEvent} {w : W} :
    Allowed rules w log log := by
  cases log with
  | nil => trivial
  | cons e log => exact .inl rfl

/-- The operation is sent. -/
def sentCalls : List (Script × BridgeProg Unit × ℕ) :=
  [(silent true, prepare intent false, 10), (silent true, approve signing true, 100)]

-- An owner who agrees turns no approval down.
theorem undeclined_silent (log : List BridgeEvent) (o : BridgeOp) :
    Allowed undeclined () log ((silent true).play log o).2 := by
  have hadds : (silent true).Adds log ((silent true).play log o).2 := play_adds o
  rcases hadds with h | ⟨e, h, hmade⟩
  · rw [h]
    exact allowed_self
  · rw [h]
    refine .inr ⟨?_, allowed_self⟩
    cases e with
    | confirmed answer =>
      cases hmade
      trivial
    | _ => trivial

theorem bridge_sends_once_of_sent : ∃ labels c,
    Runs.Run (BridgeStep undeclined signing (BridgeCallOrRestore signing)) (System.idle ⟨(), []⟩) labels c ∧
      sends .bridge c.shared.log = 1 ∧ SentOnce signing c.shared.log := by
  have hcalls : ∀ c ∈ sentCalls, BridgeCallOrRestore signing c.2.1 := by
    intro c hc
    simp only [sentCalls, List.mem_cons, List.not_mem_nil, or_false] at hc
    rcases hc with rfl | rfl
    · exact .call _ (.prepare _ _)
    · exact .call _ (.approve _)
  have hallows : ∀ c ∈ sentCalls, ∀ log o, Allowed undeclined () log (c.1.play log o).2 := by
    intro c hc log o
    simp only [sentCalls, List.mem_cons, List.not_mem_nil, or_false] at hc
    rcases hc with rfl | rfl <;> exact undeclined_silent log o
  rcases run_after trivial sentCalls hcalls hallows with ⟨labels, hrun⟩
  exact ⟨labels, _, hrun, by decide +kernel, bridge_sends_once hrun⟩

/-- The process dies behind its SEND claim, before the record of the submission; the journals are rolled back to
the prepared operation, and the owner turns it down. -/
def declinedCalls : List (Script × BridgeProg Unit × ℕ) :=
  [(silent true, prepare intent false, 10), (silent true, approve signing true, 29),
    (silent true, restore (newBridgeOperation intent false), 1), (silent false, approve signing true, 100)]

/-- The record that ends unsent over a SEND claim. -/
def declinedOver : List BridgeEvent → Bool
  | .stored next :: older => next.state = .failedBeforeEffect && next.effects.bridge.submissionAttempts = 0 &&
      (sendClaimOf .bridge older).isSome
  | _ => false

/-- An approval that is turned down is not checked for a SEND claim. -/
theorem declined_over_claim : ∃ labels c,
    Runs.Run (BridgeStep (Rules.any Unit BridgeEvent) signing (BridgeCallOrRestore signing))
      (System.idle ⟨(), []⟩) labels c ∧ ¬ SentOnce signing c.shared.log := by
  have hcalls : ∀ c ∈ declinedCalls, BridgeCallOrRestore signing c.2.1 := by
    intro c hc
    simp only [declinedCalls, List.mem_cons, List.not_mem_nil, or_false] at hc
    rcases hc with rfl | rfl | rfl | rfl
    · exact .call _ (.prepare _ _)
    · exact .call _ (.approve _)
    · exact .restore _
    · exact .call _ (.approve _)
  rcases run_after trivial declinedCalls hcalls fun _ _ _ _ => allowed_any with ⟨labels, hrun⟩
  refine ⟨labels, _, hrun, ?_⟩
  have hover : declinedOver (after declinedCalls).log = true := by decide +kernel
  intro honce
  have hclosed : SentOnce signing (after declinedCalls).log := honce
  unfold declinedOver at hover
  split at hover
  · rename_i next older hlog
    simp only [Bool.and_eq_true, decide_eq_true_eq] at hover
    have hnone := hclosed.closed [] next older hlog (by rw [hover.1.1]; rfl) .bridge _ rfl hover.1.2
    rw [hnone] at hover
    cases hover.2
  · cases hover

end BridgeRuns

end PaymentNode
