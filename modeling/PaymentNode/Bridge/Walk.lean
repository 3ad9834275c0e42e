import PaymentNode.Bridge.History

/-!
# Walk — the operations of a bridge call, by what they leave

What quiet events keep, what each read answers, and the four operations that leave a mark: a saved transition, a
SEND claim, a send and a proved destination.  A record read off a lawful log is valid.
-/

namespace PaymentNode

open BridgeProg Trace

namespace Bridge

variable {W : Type} {rules : Rules W BridgeEvent} {signing : BridgeSigning} {α β : Type}
  {o next : BridgeOperation} {m : BridgeMutable} {P R K : List BridgeEvent → Prop}
  {log : List BridgeEvent} {e : BridgeEvent} {role : BridgeRole}

abbrev Walk (rules : Rules W BridgeEvent) (signing : BridgeSigning) (P : List BridgeEvent → Prop)
    (x : BridgeProg α) (Q : α → List BridgeEvent → Prop) (E : BridgeError → List BridgeEvent → Prop) :
    Prop :=
  Walks (effect signing) rules (Lawful signing) P x Q E

abbrev Peek (rules : Rules W BridgeEvent) (signing : BridgeSigning) (K : List BridgeEvent → Prop)
    (x : BridgeProg α) (Φ : α → List BridgeEvent → Prop) : Prop :=
  Reads (effect signing) rules (Lawful signing) Quiet K x Φ

/-! ## Valid records -/

section Valid

variable {i : BridgeIntent} {envelope : BridgeEnvelope} {at' : ℤ} {eff : BridgeEffect}

theorem transitionBridge_ok {m : BridgeMutable} (h : transitionBridge o m at' = .ok next) :
    (next = o ∧ observationMeaning o.latest.toBridgeMutable = observationMeaning m) ∨
      (next = o.append m at' ∧ o.Valid ∧ next.Valid ∧ o.terminal = false) := by
  unfold transitionBridge at h
  simp only at h
  split at h
  · rename_i hsame
    exact .inl ⟨(Except.ok.inj h).symm, hsame⟩
  · split at h
    · cases h
    · split at h
      · rename_i hvalid
        cases h
        rcases hvalid with ⟨ho, hnext, hsame | hopen⟩
        · have hlen := congrArg (fun o => o.transitions.length) hsame
          simp [BridgeOperation.transitions, BridgeOperation.append] at hlen
        · exact .inr ⟨rfl, ho, hnext, hopen.1⟩
      · cases h

theorem newBridgeEffect_valid : EffectValid envelope at' newBridgeEffect := by
  refine ⟨?_, ?_, rfl, rfl, ?_, rfl, rfl, ?_, ?_⟩
  · exact fun h => nomatch h
  · exact fun _ => ⟨rfl, rfl⟩
  all_goals exact fun _ h => nomatch h

theorem initialTransition_valid {approval : Bool} {lease : Option BridgeUsageLease} :
    SnapshotValid i lease (initialTransition i approval) := by
  have heffects : ∀ e ∈ (initialTransition i approval).effects.all, e = newBridgeEffect := by
    intro e he
    cases approval <;> simpa [initialTransition, BridgeEffects.all] using he
  refine ⟨newBridgeEffect_valid, ?_, ?_, ?_, ?_, ?_, ?_, ?_, ?_⟩
  · intro a ha
    cases approval with
    | true =>
      cases ha
      exact newBridgeEffect_valid
    | false => cases ha
  · refine ⟨?_, ?_, fun _ => rfl, fun _ => rfl, .inl rfl, fun _ => rfl, ?_⟩
    · exact fun _ h => nomatch h
    · intro _ e he
      rw [heffects e he]
      rfl
    · exact fun h => absurd rfl h
  · exact fun _ h => nomatch h
  · exact fun _ h => nomatch h
  · exact fun _ h => nomatch h
  · exact ⟨(fun h => nomatch h), fun h => nomatch h⟩
  · exact ⟨(fun h => nomatch h), (fun h => nomatch h), fun h => nomatch h⟩
  · exact fun _ h => nomatch h

theorem newBridgeOperation_valid {approval : Bool} : (newBridgeOperation i approval).Valid := by
  constructor
  · cases approval <;> rfl
  · exact fun _ _ _ h => nomatch h

theorem snapshot_of_valid (h : o.Valid) : SnapshotValid o.intent o.latest.usageLease o.latest := by
  have htransitions := h.1
  unfold BridgeOperation.transitions at htransitions
  cases hearlier : o.earlier with
  | nil =>
    rw [hearlier] at htransitions
    have hfirst : o.latest = initialTransition o.intent o.latest.effects.approval.isSome := htransitions
    rw [hfirst]
    exact initialTransition_valid
  | cons p earlier =>
    rw [hearlier] at htransitions
    exact htransitions.2.1

theorem effect_of_valid (h : o.Valid) {e : BridgeEffect} (he : o.effect? role = some e) :
    EffectValid (o.intent.envelope role) o.latest.at' e := by
  have hs := snapshot_of_valid h
  cases role with
  | approval => exact hs.approvalEffect e he
  | bridge =>
    cases he
    exact hs.bridge

end Valid

/-! ## What events keep -/

section Kept

/-- A quiet event, or a saved transition. -/
def Steady (e : BridgeEvent) : Prop := Quiet e ∨ ∃ next, e = .stored next

/-- Neither the calls' reads nor their saves take the fact away. -/
def Lasting (R : List BridgeEvent → Prop) : Prop := ∀ log e, Steady e → R log → R (e :: log)

theorem Lasting.kept (h : Lasting R) : Trace.Kept Quiet R := fun log e he hR => h log e (.inl he) hR

theorem Lasting.and {R' : List BridgeEvent → Prop} (h : Lasting R) (h' : Lasting R') :
    Lasting fun log => R log ∧ R' log :=
  fun log e he hR => ⟨h log e he hR.1, h' log e he hR.2⟩

theorem lasting_true : Lasting fun _ => True := fun _ _ _ _ => trivial

theorem record_quiet (h : Quiet e) : record (e :: log) = record log := by
  cases e <;> first | rfl | cases h

theorem sendClaimOf_steady (h : Steady e) : sendClaimOf role (e :: log) = sendClaimOf role log := by
  rcases h with h | ⟨next, rfl⟩
  · cases e <;> first | rfl | cases h
  · rfl

theorem inCall_steady (h : Steady e) : inCall (e :: log) = e :: inCall log := by
  rcases h with h | ⟨next, rfl⟩
  · cases e <;> first | rfl | cases h
  · rfl

theorem kept_record : Trace.Kept Quiet fun log => record log = some o := by
  intro log e he h
  rw [record_quiet he]
  exact h

theorem suffix_cons {older : List BridgeEvent} (h : older <:+ log) : older <:+ e :: log :=
  h.trans (List.suffix_cons e log)

theorem lasting_known : Lasting fun log => Known log o := by
  rintro log e he ⟨newer, older, rfl, hcall, ho⟩
  refine ⟨e :: newer, older, rfl, ?_, ho⟩
  intro hmem
  rcases List.mem_cons.mp hmem with rfl | hmem
  · rcases he with he | ⟨next, hnext⟩
    · exact he
    · cases hnext
  · exact hcall hmem

theorem Known.of_record (h : record log = some o) : Known log o := ⟨[], log, rfl, (fun h => nomatch h), h⟩

theorem lasting_unclaimed : Lasting fun log => sendClaimOf role log = none := by
  intro log e he h
  rw [sendClaimOf_steady he]
  exact h

theorem lasting_noUnrecordedSend : Lasting fun log => NoUnrecordedSend log o := by
  intro log e he h role eff heff hattempts
  rw [sendClaimOf_steady he]
  exact h role eff heff hattempts

theorem lasting_claimSeen : Lasting fun log => ClaimSeen log o role := by
  intro log e _ ⟨older, hsuffix, h⟩
  exact ⟨older, suffix_cons hsuffix, h⟩

theorem lasting_seen {t : BridgeTransactionProof} {proof : Option BridgeSourceProof} :
    Lasting fun log => Seen log o role t proof := by
  intro log e _ ⟨older, hsuffix, h⟩
  exact ⟨older, suffix_cons hsuffix, h⟩

theorem lasting_readOver {ev : BridgeEvent} : Lasting fun log => ReadOver log o ev := by
  intro log e _ ⟨older, hsuffix, h⟩
  exact ⟨older, suffix_cons hsuffix, h⟩

theorem lasting_clock {at' : ℤ} : Lasting fun log => .clock at' ∈ log :=
  fun _ _ _ h => List.mem_cons_of_mem _ h

/-- No destination was proved in this call. -/
def Undelivered (log : List BridgeEvent) : Prop := ∀ proof, .delivered proof ∉ inCall log

theorem lasting_undelivered : Lasting Undelivered := by
  intro log e he h proof hmem
  rw [inCall_steady he] at hmem
  rcases List.mem_cons.mp hmem with rfl | hmem
  · rcases he with he | ⟨next, hnext⟩
    · exact he
    · cases hnext
  · exact h proof hmem

theorem lasting_concluded : Lasting fun log => Concluded log o := by
  intro log e he h
  rcases h with h | h
  · exact .inl (lasting_undelivered log e he h)
  · exact .inr h

/-- The owner answered over this record, and no SEND claim has been made since. -/
def Answered (o : BridgeOperation) (answer : Bool) (log : List BridgeEvent) : Prop :=
  ∃ older, (.confirmed answer :: older) <:+ log ∧ record older = some o ∧
    ∀ role, sendClaimOf role log = sendClaimOf role older

theorem lasting_answered {answer : Bool} : Lasting (Answered o answer) := by
  intro log e he ⟨older, hsuffix, hrecord, hclaims⟩
  refine ⟨older, suffix_cons hsuffix, hrecord, fun role => ?_⟩
  rw [sendClaimOf_steady he]
  exact hclaims role

end Kept

theorem stored_of_record (hlawful : LawfulLog (Lawful signing) log) (h : record log = some o) :
    .stored o ∈ log := by
  induction log with
  | nil => cases h
  | cons e log ih =>
    cases e with
    | stored next =>
      cases h
      exact List.mem_cons_self
    | restored o' =>
      cases h
      exact List.mem_cons_of_mem _ hlawful.1
    | _ => exact List.mem_cons_of_mem _ (ih hlawful.2 h)

theorem stored_valid (hlawful : LawfulLog (Lawful signing) log) (h : .stored o ∈ log) : o.Valid := by
  induction log with
  | nil => cases h
  | cons e log ih =>
    rcases List.mem_cons.mp h with rfl | h
    · have hover : WrittenOver log o := hlawful.1
      unfold WrittenOver at hover
      cases hrecord : record log with
      | none =>
        rw [hrecord] at hover
        rcases hover with ⟨approval, hnew⟩
        rw [hnew]
        exact newBridgeOperation_valid
      | some o' =>
        rw [hrecord] at hover
        rcases hover with ⟨m, at', older, hnext, _, _, _, hok⟩
        rcases transitionBridge_ok hok with ⟨heq, _⟩ | ⟨_, _, hvalid, _⟩
        · rw [← heq] at hrecord
          exact ih hlawful.2 (stored_of_record hlawful.2 hrecord)
        · exact hvalid
    · exact ih hlawful.2 h

theorem record_valid (hlawful : LawfulLog (Lawful signing) log) (h : record log = some o) : o.Valid :=
  stored_valid hlawful (stored_of_record hlawful h)

/-! ## Reads -/

section Peeks

theorem peek_now : Peek rules signing K now fun at' log => .clock at' ∈ log := by
  apply Reads.perform
  intro log log' at' _ heffect
  have hlog : log' = .clock at' :: log := heffect
  subst hlog
  exact ⟨.inr ⟨.clock at', trivial, trivial, rfl⟩, List.mem_cons_self⟩

-- A question that leaves no trace.
theorem peek_ask {q : BridgeAsk} (hq : ∀ log answer log', effect signing log (.ask q) answer log' → log' = log) :
    Peek rules signing K (BridgeProg.ask q) fun _ _ => True := by
  apply Reads.perform
  intro log log' answer _ heffect
  exact ⟨.inl (hq log answer log' heffect), trivial⟩

theorem peek_call {q : BridgeAsk} {h : q.Answer = Except BridgeError α}
    (hq : ∀ log answer log', effect signing log (.ask q) answer log' → log' = log) :
    Peek rules signing K (call q h) fun _ _ => True := by
  have hask : (BridgeOp.ask q).Answer = Except BridgeError α := h
  show Reads _ _ _ _ _ (Prog.run (BridgeOp.ask q) hask) _
  apply Reads.run
  intro log log' answer _ heffect
  exact ⟨.inl (hq log answer log' heffect), fun _ _ => trivial⟩

theorem peek_reserve (hK : ∀ log, K log → record log = some o) :
    Peek rules signing K (call .reserve rfl) fun lease log => ReadOver log o (.reserved lease) := by
  have hask : (BridgeOp.ask .reserve).Answer = Except BridgeError BridgeUsageLease := rfl
  show Reads _ _ _ _ _ (Prog.run (BridgeOp.ask .reserve) hask) _
  apply Reads.run
  intro log log' answer hlog heffect
  change Except BridgeError BridgeUsageLease at answer
  cases answer with
  | ok lease =>
    have heq : log' = .reserved lease :: log := heffect
    subst heq
    refine ⟨.inr ⟨.reserved lease, trivial, trivial, rfl⟩, ?_⟩
    intro a ha
    cases ha
    exact ⟨log, List.suffix_refl _, hK log hlog⟩
  | error e =>
    have heq : log' = log := heffect
    exact ⟨.inl heq, fun a ha => nomatch ha⟩

theorem peek_confirm (hK : ∀ log, K log → record log = some o) :
    Peek rules signing K confirm fun answer log => Answered o answer log := by
  apply Reads.run (h := rfl)
  intro log log' answer hlog heffect
  change Except BridgeError Bool at answer
  cases answer with
  | ok b =>
    have heq : log' = .confirmed b :: log := heffect
    subst heq
    refine ⟨.inr ⟨.confirmed b, trivial, trivial, rfl⟩, ?_⟩
    intro a ha
    cases ha
    exact ⟨log, List.suffix_refl _, hK log hlog, fun _ => rfl⟩
  | error e =>
    have heq : log' = log := heffect
    exact ⟨.inl heq, fun a ha => nomatch ha⟩

theorem peek_sendClaim : Peek rules signing K (sendClaim role) fun claim log =>
    (claim = none → sendClaimOf role log = none) ∧
      (∀ bytes, claim = some bytes → ∀ o, record log = some o → ClaimSeen log o role) := by
  apply Reads.run (h := rfl)
  intro log log' answer _ heffect
  change Except BridgeError (Option BridgeClaimedBytes) at answer
  rcases answer with e | (_ | bytes)
  · have heq : log' = log := heffect
    exact ⟨.inl heq, fun a ha => nomatch ha⟩
  · have heq : sendClaimOf role log = none ∧ log' = log := heffect
    refine ⟨.inl heq.2, ?_⟩
    intro a ha
    cases ha
    exact ⟨fun _ => heq.2 ▸ heq.1, fun _ h => nomatch h⟩
  · have heq : sendClaimOf role log = some bytes ∧ log' = .claimSeen role :: log := heffect
    rcases heq with ⟨_, rfl⟩
    refine ⟨.inr ⟨.claimSeen role, trivial, trivial, rfl⟩, ?_⟩
    intro a ha
    cases ha
    exact ⟨(fun h => nomatch h), fun _ _ o ho => ⟨log, List.suffix_refl _, o, ho, rfl⟩⟩

theorem kept_sendClaim {claim : Option BridgeClaimedBytes} : Trace.Kept Quiet fun log =>
    (claim = none → sendClaimOf role log = none) ∧
      (∀ bytes, claim = some bytes → ∀ o, record log = some o → ClaimSeen log o role) := by
  intro log e he ⟨hnone, hsome⟩
  refine ⟨fun h => lasting_unclaimed log e (.inl he) (hnone h), ?_⟩
  intro bytes hbytes o ho
  rw [record_quiet he] at ho
  exact lasting_claimSeen log e (.inl he) (hsome bytes hbytes o ho)

theorem peek_claimSign : Peek rules signing K (claimSign role) fun _ _ => True := by
  apply Reads.run (h := rfl)
  intro log log' answer _ heffect
  refine ⟨?_, fun _ _ => trivial⟩
  rcases heffect with h | ⟨_, h⟩ | h
  · exact .inl h
  · exact .inl h
  · exact .inr ⟨.claimedSign role, trivial, trivial, h⟩

theorem peek_custodySeal : Peek rules signing K (Prog.perform (BridgeOp.custodySeal o role))
    fun _ _ => True := by
  apply Reads.perform
  intro log log' answer _ heffect
  refine ⟨?_, trivial⟩
  simp only [effect] at heffect
  split at heffect
  · rcases heffect with ⟨_, h⟩ | ⟨m, _, h, _⟩
    · exact .inl h
    · exact .inr ⟨.sealedMaterial m, trivial, trivial, h⟩
  · exact .inl heffect.1

theorem peek_load : Peek rules signing K (load role) fun _ _ => True := by
  apply Reads.run (h := rfl)
  intro log log' answer _ heffect
  exact ⟨.inl heffect.1, fun _ _ => trivial⟩

theorem peek_observe (hK : ∀ log, K log → record log = some o) :
    Peek rules signing K (Prog.perform (BridgeOp.observe role)) fun answer log =>
      ∀ seen, (answer : Except BridgeError (Option BridgeSourceObservation)) = .ok (some seen) →
        Seen log o role seen.transaction seen.sourceProof.toOption := by
  apply Reads.perform
  intro log log' answer hlog heffect
  change Except BridgeError (Option BridgeSourceObservation) at answer
  rcases answer with e | (_ | seen)
  · have heq : log' = log := heffect
    exact ⟨.inl heq, fun _ h => nomatch h⟩
  · have heq : log' = log := heffect
    exact ⟨.inl heq, fun _ h => nomatch h⟩
  · have heq : log' = .observed role seen.transaction seen.sourceProof.toOption :: log := heffect
    subst heq
    refine ⟨.inr ⟨.observed role seen.transaction seen.sourceProof.toOption, trivial, trivial, rfl⟩, ?_⟩
    intro a ha
    cases ha
    exact ⟨log, List.suffix_refl _, o, hK log hlog, rfl, rfl, rfl⟩

theorem peek_providerStatus (hK : ∀ log, K log → record log = some o) :
    Peek rules signing K (Prog.perform BridgeOp.providerStatus) fun answer log =>
      ∀ p, (answer : Option BridgeProviderObservation) = some p → ReadOver log o (.providerAnswered p) := by
  apply Reads.perform
  intro log log' answer hlog heffect
  change Option BridgeProviderObservation at answer
  cases answer with
  | none =>
    have heq : log' = log := heffect
    exact ⟨.inl heq, fun _ h => nomatch h⟩
  | some p =>
    have heq : log' = .providerAnswered p :: log := heffect
    subst heq
    refine ⟨.inr ⟨.providerAnswered p, trivial, trivial, rfl⟩, ?_⟩
    intro a ha
    cases ha
    exact ⟨log, List.suffix_refl _, hK log hlog⟩

end Peeks

/-! ## Writes -/

section Writes

/-- The journal went on from this record, which was its latest. -/
def Held (log : List BridgeEvent) (o : BridgeOperation) : Prop :=
  Known log o ∧ ∃ o', record log = some o' ∧ o.transitions <:+ o'.transitions

theorem Held.of_record (h : record log = some o) : Held log o :=
  ⟨Known.of_record h, o, h, List.suffix_refl _⟩

theorem kept_held : Trace.Kept Quiet fun log => Held log o := by
  intro log e he ⟨hknown, o', ho', hsuffix⟩
  refine ⟨lasting_known log e (.inl he) hknown, o', ?_, hsuffix⟩
  rw [record_quiet he]
  exact ho'

theorem known_valid (hlawful : LawfulLog (Lawful signing) log) (h : Known log o) : o.Valid := by
  rcases h with ⟨newer, older, rfl, _, ho⟩
  exact record_valid (hlawful.of_suffix (List.suffix_append _ _)) ho

variable {at' : ℤ}

-- A transition is stored over the record it was made from.
theorem stored_over (hheld : Held log o) (hstorable : storable log (o.append m at')) :
    record log = some o := by
  rcases hheld with ⟨_, o', ho', hsuffix⟩
  unfold storable at hstorable
  rw [ho'] at hstorable
  rcases hstorable with ⟨hsame | ⟨_, hintent, hearlier⟩, hne⟩
  · exact absurd hsame hne
  · have htransitions : o.transitions = o'.transitions := hearlier
    have hi : o.intent = o'.intent := hintent
    rcases o with ⟨i, latest, earlier⟩
    rcases o' with ⟨i', latest', earlier'⟩
    simp only [BridgeOperation.transitions, List.cons.injEq] at htransitions
    cases hi
    rw [htransitions.1, htransitions.2]
    exact ho'

-- A record that was stored is not stored again.
theorem not_storable (hheld : Held log o) : ¬ storable log o := by
  intro hstorable
  rcases hheld with ⟨_, o', ho', hsuffix⟩
  unfold storable at hstorable
  rw [ho'] at hstorable
  rcases hstorable with ⟨hsame | ⟨_, _, hearlier⟩, hne⟩
  · exact hne hsame
  · have hlen := hsuffix.length_le
    rw [BridgeOperation.transitions, hearlier] at hlen
    simp only [List.length_cons] at hlen
    omega

/-- The record a save leaves is the patch, but for when the provider was asked. -/
structure SavedAs (o next : BridgeOperation) (m : BridgeMutable) : Prop where
  intent : next.intent = o.intent
  meaning : observationMeaning next.latest.toBridgeMutable = observationMeaning m

theorem append_transitions : o.transitions <:+ (o.append m at').transitions :=
  List.suffix_cons _ _

theorem walk_persist (hR : Lasting R) (hvalid : transitionBridge o m at' = .ok next)
    (hP : ∀ log, P log → Held log o ∧ Writes log o m ∧ R log ∧ ∃ older, log = .clock at' :: older) :
    Walk rules signing P (persist next)
      (fun _ log => record log = some next ∧ Held log o ∧ R log)
      (fun _ log => Held log o ∧ R log) := by
  apply Walks.run (h := rfl)
  intro log log' answer hlawful hlog heffect
  rcases hP log hlog with ⟨hheld, hwrites, hRlog, older, hclock⟩
  change Except BridgeError Unit at answer
  rcases heffect with ⟨⟨fault, rfl⟩, rfl⟩ | ⟨hrecord, rfl⟩ | ⟨hstorable, rfl⟩
  · exact ⟨hlawful, hheld, hRlog⟩
  · refine ⟨hlawful, ?_⟩
    cases answer with
    | ok _ => exact ⟨hrecord, hheld, hRlog⟩
    | error fault => exact ⟨hheld, hRlog⟩
  · rcases transitionBridge_ok hvalid with ⟨hsame, _⟩ | ⟨hnext, ho, hnextValid, hopen⟩
    · rw [hsame] at hstorable
      exact absurd hstorable (not_storable hheld)
    · have hrecord : record log = some o := stored_over hheld (hnext ▸ hstorable)
      have hover : WrittenOver log next := by
        unfold WrittenOver
        rw [hrecord]
        exact ⟨m, at', older, hnext, hclock, hopen, hwrites, hvalid⟩
      have hRnext : R (.stored next :: log) := hR _ _ (.inr ⟨next, rfl⟩) hRlog
      have hheldNext : Held (.stored next :: log) o := by
        refine ⟨lasting_known log _ (.inr ⟨next, rfl⟩) hheld.1, next, rfl, ?_⟩
        rw [hnext]
        exact append_transitions
      refine ⟨⟨hover, hlawful⟩, ?_⟩
      cases answer with
      | ok _ => exact ⟨rfl, hheldNext, hRnext⟩
      | error fault => exact ⟨hheldNext, hRnext⟩

theorem savedAs_of_ok (h : transitionBridge o m at' = .ok next) : SavedAs o next m := by
  rcases transitionBridge_ok h with ⟨rfl, hmeaning⟩ | ⟨rfl, _⟩
  · exact ⟨rfl, hmeaning⟩
  · exact ⟨rfl, rfl⟩

theorem peek_followUsage : Peek rules signing K (call .followUsage rfl) fun _ _ => True :=
  peek_call fun _ _ _ h => h

theorem walk_save (hP : Trace.Kept Quiet P) (hR : Lasting R) (hopen : o.terminal = false)
    (h : ∀ log, P log → Held log o ∧ Writes log o m ∧ R log) :
    Walk rules signing P (save o m)
      (fun next log => record log = some next ∧ SavedAs o next m ∧ R log)
      (fun _ log => Held log o ∧ R log) := by
  unfold save
  apply Walks.bind (M := fun at' log => P log ∧ ∃ older, log = .clock at' :: older)
  · apply Walks.perform
    intro log log' at' hlawful hlog heffect
    have heq : log' = .clock at' :: log := heffect
    subst heq
    exact ⟨⟨trivial, hlawful⟩, hP log (.clock at') trivial hlog, log, rfl⟩
  intro at'
  apply Walks.bind (M := fun next log => transitionBridge o m at' = .ok next ∧ P log ∧
    ∃ older, log = .clock at' :: older)
  · apply Walks.run (h := rfl)
    intro log log' answer hlawful hlog heffect
    rcases hlog with ⟨hPlog, older, hclock⟩
    rcases h log hPlog with ⟨hheld, hwrites, hRlog⟩
    change Except BridgeError BridgeOperation at answer
    simp only [effect] at heffect
    split at heffect
    · rename_i result hresult
      rcases heffect with ⟨hanswer, rfl⟩
      rw [hanswer]
      exact ⟨hlawful, hresult, hPlog, older, hclock⟩
    · rename_i fault hfault
      rcases heffect with ⟨⟨f, hanswer⟩, hlog'⟩
      rw [hanswer]
      split at hlog'
      · rename_i hcode
        subst hlog'
        refine ⟨⟨⟨hheld.1, hopen, hwrites, ⟨older, hclock⟩, fault, hfault, hcode⟩, hlawful⟩, ?_⟩
        exact ⟨kept_held log _ trivial hheld, hR _ _ (.inl trivial) hRlog⟩
      · subst hlog'
        exact ⟨hlawful, hheld, hRlog⟩
  intro next
  apply Walks.assume
  intro hvalid
  apply Walks.bind (M := fun _ log => record log = some next ∧ Held log o ∧ R log)
  · apply walk_persist hR hvalid
    intro log ⟨hlog, hclock⟩
    rcases h log hlog with ⟨hheld, hwrites, hRlog⟩
    exact ⟨hheld, hwrites, hRlog, hclock⟩
  intro _
  apply Walks.reads peek_followUsage (kept_record.and (kept_held.and hR.kept)) (K := fun _ => True)
    (fun _ _ => trivial) fun _ _ h => h.2
  intro _
  apply Walks.ret
  intro log ⟨⟨hrecord, _, hRlog⟩, _⟩
  exact ⟨hrecord, savedAs_of_ok hvalid, hRlog⟩

/-- The journal is at this record, and goes on. -/
def Open (o : BridgeOperation) (log : List BridgeEvent) : Prop := record log = some o ∧ o.terminal = false

def At (o : BridgeOperation) (R : List BridgeEvent → Prop) (log : List BridgeEvent) : Prop :=
  Open o log ∧ R log

theorem kept_at (hR : Lasting R) : Trace.Kept Quiet (At o R) := (kept_record.and kept_const).and hR.kept

theorem transitionBridge_same :
    transitionBridge o o.latest.toBridgeMutable at' = .ok o := by
  unfold transitionBridge
  simp

theorem walk_save_same (hR : Lasting R) :
    Walk rules signing (At o R) (save o o.latest.toBridgeMutable)
      (fun next log => next = o ∧ At o R log) (fun _ _ => True) := by
  unfold save
  apply Walks.peeks peek_now (kept_at hR)
  intro at'
  apply Walks.bind (M := fun next log => next = o ∧ At o R log)
  · apply Walks.run (h := rfl)
    intro log log' answer hlawful hlog heffect
    change Except BridgeError BridgeOperation at answer
    simp only [effect, transitionBridge_same] at heffect
    rcases heffect with ⟨rfl, rfl⟩
    exact ⟨hlawful, rfl, hlog.1⟩
  intro next
  apply Walks.assume
  rintro rfl
  apply Walks.bind (M := fun _ log => At next R log)
  · apply Walks.run (h := rfl)
    intro log log' answer hlawful hlog heffect
    have hsame : log' = log := by
      rcases heffect with ⟨_, h⟩ | ⟨_, h⟩ | ⟨hstorable, _⟩
      · exact h
      · exact h
      · exact absurd hstorable (not_storable (Held.of_record hlog.1.1))
    subst hsame
    change Except BridgeError Unit at answer
    cases answer with
    | ok _ => exact ⟨hlawful, hlog⟩
    | error e => exact ⟨hlawful, trivial⟩
  intro _
  apply Walks.peeks peek_followUsage (kept_at hR)
  exact fun _ => Walks.ret fun _ h => ⟨rfl, h.1⟩

theorem walk_claimSend {bytes : BridgeClaimedBytes}
    (hR : ∀ log, R log → R (.claimedSend role bytes :: log))
    (hP : ∀ log, P log → sendClaimOf role log = none ∧ At o R log) :
    Walk rules signing P (claimSend role bytes)
      (fun _ log => .claimedSend role bytes ∈ inCall log ∧ At o R log) (fun _ log => R log) := by
  apply Walks.run (h := rfl)
  intro log log' answer hlawful hlog heffect
  rcases hP log hlog with ⟨hnone, hopen, hRlog⟩
  change Except BridgeError Unit at answer
  simp only [effect, hnone] at heffect
  rcases heffect with ⟨⟨fault, rfl⟩, rfl⟩ | rfl
  · exact ⟨hlawful, hRlog⟩
  · refine ⟨⟨hnone, hlawful⟩, ?_⟩
    cases answer with
    | ok _ => exact ⟨List.mem_cons_self, hopen, hR log hRlog⟩
    | error fault => exact hR log hRlog

theorem walk_send {raw : String} {E : BridgeError → List BridgeEvent → Prop}
    (hR : ∀ log, R log → R (.sent role raw :: log))
    (hP : ∀ log, P log → Lawful signing log (.sent role raw) ∧ At o R log) :
    Walk rules signing P (Prog.perform (BridgeOp.send role raw)) (fun _ log => At o R log) E := by
  apply Walks.perform
  intro log log' answer hlawful hlog heffect
  rcases hP log hlog with ⟨hsent, hopen, hRlog⟩
  have heq : log' = .sent role raw :: log := heffect
  subst heq
  exact ⟨⟨hsent, hlawful⟩, hopen, hR log hRlog⟩

theorem walk_destination {hash : String} {E : BridgeError → List BridgeEvent → Prop} :
    Walk rules signing (At o R) (BridgeProg.ask (.destination o hash))
      (fun answer log => At o (fun log =>
        match (answer : Except BridgeDestinationFault BridgeDestinationProof) with
        | .ok proof => ReadOver log o (.delivered proof) ∧ .delivered proof ∈ inCall log
        | .error _ => R log) log) E := by
  apply Walks.perform
  intro log log' answer hlawful hlog heffect
  change Except BridgeDestinationFault BridgeDestinationProof at answer
  cases answer with
  | ok proof =>
    have heq : log' = .delivered proof :: log := heffect
    subst heq
    exact ⟨⟨trivial, hlawful⟩, hlog.1, ⟨log, List.suffix_refl _, hlog.1.1⟩, List.mem_cons_self⟩
  | error e =>
    have heq : log' = log := heffect
    subst heq
    exact ⟨hlawful, hlog⟩

end Writes

end Bridge
end PaymentNode
