import PaymentNode.Lib.Trace
import PaymentNode.Stargate.NativeExecution

/-!
# NativeOutcome — one send, and records the journal takes

`Inv` is what every run of the commands keeps: the record on disk is valid, the attempt marker was saved at most
once, and what was sent follows it.  The journal refuses one record the executor builds: the delivery found while
the record is still at the attempt marker (`Meets` says when that does not happen).
-/

namespace PaymentNode.StargateNative

open Solo Trace

/-! ## What the log says -/

def isMarker : Event → Bool
  | .saved o => o.phase = .submissionStarted
  | _ => false

def isSent : Event → Bool
  | .sent _ => true
  | _ => false

/-- How many attempt markers were saved. -/
def markers (log : List Event) : ℕ := log.countP isMarker

def sends (log : List Event) : ℕ := log.countP isSent

/-- Nothing is refused; a marker carries the hash of bytes signed before it, and bytes are sent after the marker
that carries their hash. -/
def Lawful (hash : StargateNativeHash) (older : List Event) : Event → Prop
  | .refused _ => False
  | .sent raw => ∃ o, .saved o ∈ older ∧ o.phase = .submissionStarted ∧
      o.transactionHash = some (hash.keccak256 raw)
  | .saved o => o.phase = .submissionStarted →
      ∃ raw, .signed o.envelope raw ∈ older ∧ o.transactionHash = some (hash.keccak256 raw)
  | _ => True

structure Inv (hash : StargateNativeHash) (s : Shared) : Prop where
  valid : ∀ o, s.record = some o → Valid o
  hashed : ∀ o, s.record = some o → o.transactionHash.isSome = marked o.phase
  lawful : LawfulLog (Lawful hash) s.log
  once : markers s.log ≤ 1
  sends : sends s.log ≤ markers s.log
  unmarked : (∀ o, s.record = some o → marked o.phase = false) → markers s.log = 0

/-- Events that neither the record nor the counts depend on. -/
def quiet : Event → Prop
  | .saved _ | .refused _ | .sent _ => False
  | _ => True

variable {hash : StargateNativeHash} {s : Shared} {o next : StargateNativeOperation}
  {log added : List Event} {e : Event} {phase : StargateNativePhase}

theorem Inv.add (h : Inv hash s) (hquiet : quiet e) : Inv hash (s.add e) := by
  have hmarkers : markers (s.add e).log = markers s.log := by
    cases e with
    | saved o => exact hquiet.elim
    | _ => rfl
  have hsends : StargateNative.sends (s.add e).log = StargateNative.sends s.log := by
    cases e with
    | sent raw => exact hquiet.elim
    | _ => rfl
  have hlawful : Lawful hash s.log e := by
    cases e with
    | saved o => exact hquiet.elim
    | refused o => exact hquiet.elim
    | sent raw => exact hquiet.elim
    | _ => trivial
  refine ⟨h.valid, h.hashed, ⟨hlawful, h.lawful⟩, ?_, ?_, ?_⟩
  · rw [hmarkers]
    exact h.once
  · rw [hmarkers, hsends]
    exact h.sends
  · intro hunmarked
    rw [hmarkers]
    exact h.unmarked hunmarked

theorem markers_saved : markers (.saved next :: log) =
    markers log + if next.phase = .submissionStarted then 1 else 0 := by
  simp [markers, isMarker, List.countP_cons]

theorem sends_saved : sends (.saved next :: log) = sends log := by
  simp [sends, isSent]

-- A record that is no attempt marker was saved.
theorem Inv.saved {record : Option StargateNativeOperation} (h : Inv hash ⟨record, log⟩) (hvalid : Valid next)
    (hphase : next.phase ≠ .submissionStarted) (hhash : next.transactionHash.isSome = marked next.phase)
    (hmarked : marked next.phase = false → ∀ o, record = some o → marked o.phase = false) :
    Inv hash ⟨some next, .saved next :: log⟩ := by
  have hmarkers : markers (.saved next :: log) = markers log := by
    rw [markers_saved, if_neg hphase, Nat.add_zero]
  refine ⟨?_, ?_, ⟨fun hmarker => absurd hmarker hphase, h.lawful⟩, ?_, ?_, ?_⟩
  · intro o ho
    cases ho
    exact hvalid
  · intro o ho
    cases ho
    exact hhash
  · show markers (.saved next :: log) ≤ 1
    rw [hmarkers]
    exact h.once
  · show StargateNative.sends (.saved next :: log) ≤ markers (.saved next :: log)
    rw [hmarkers, sends_saved]
    exact h.sends
  · intro hunmarked
    show markers (.saved next :: log) = 0
    rw [hmarkers]
    exact h.unmarked (hmarked (hunmarked next rfl))

-- The attempt marker was saved, over a record without one.
theorem Inv.marked (h : Inv hash ⟨some o, log⟩) (hold : marked o.phase = false) (hvalid : Valid next)
    (hphase : next.phase = .submissionStarted) {raw : String} (hsigned : .signed next.envelope raw ∈ log)
    (hhash : next.transactionHash = some (hash.keccak256 raw)) :
    Inv hash ⟨some next, .saved next :: log⟩ ∧ StargateNative.sends log = 0 := by
  have hnone : markers log = 0 := by
    apply h.unmarked
    intro o' ho'
    cases ho'
    exact hold
  have hsends : StargateNative.sends log = 0 := by
    have hle : StargateNative.sends log ≤ markers log := h.sends
    omega
  refine ⟨⟨?_, ?_, ⟨fun _ => ⟨raw, hsigned, hhash⟩, h.lawful⟩, ?_, ?_, ?_⟩, hsends⟩
  · intro o' ho'
    cases ho'
    exact hvalid
  · intro o' ho'
    cases ho'
    rw [hhash, hphase]
    rfl
  · show markers (.saved next :: log) ≤ 1
    rw [markers_saved, hnone, if_pos hphase]
  · show StargateNative.sends (.saved next :: log) ≤ markers (.saved next :: log)
    rw [sends_saved, hsends]
    exact Nat.zero_le _
  · intro hunmarked
    have hmarked := hunmarked next rfl
    rw [hphase] at hmarked
    cases hmarked

-- The marked bytes are sent, for the first time.
theorem Inv.sent (h : Inv hash s) {raw : String} (hsaved : .saved next ∈ s.log)
    (hphase : next.phase = .submissionStarted) (hhash : next.transactionHash = some (hash.keccak256 raw))
    (hnone : StargateNative.sends s.log = 0) : Inv hash (s.add (.sent raw)) := by
  have hmarkers : markers (.sent raw :: s.log) = markers s.log := rfl
  have hpos : 0 < markers s.log := by
    apply List.countP_pos_iff.mpr
    exact ⟨_, hsaved, by simp [isMarker, hphase]⟩
  refine ⟨h.valid, h.hashed, ⟨⟨next, hsaved, hphase, hhash⟩, h.lawful⟩, h.once, ?_, h.unmarked⟩
  show StargateNative.sends (.sent raw :: s.log) ≤ markers s.log
  have hsends : StargateNative.sends (.sent raw :: s.log) = StargateNative.sends s.log + 1 := by
    simp [StargateNative.sends, List.countP_cons, isSent]
  omega

/-! ## The condition -/

/-- A delivery that answers what was asked. -/
def boundTo (input : StargateDestinationInput) (e : StargateOftReceived) : Prop :=
  e.finality = input.finalityTag ∧ e.recipient = input.recipient ∧ e.emitter = input.destinationPool ∧
    e.sourceTransactionHash = input.sourceTransactionHash ∧ e.sourceEid = input.sourceEid ∧
    e.guid = input.guid ∧ e.amountReceived = input.minimumAmount

/-- The delivery is not found while the record is still at its attempt marker. -/
def Meets (s : Shared) : (o : StargateNativeOp) → o.Answer → Prop
  | .destination input, .ok (some (.oftReceived e)) =>
    boundTo input e → ∀ record, s.record = some record → record.phase ≠ .submissionStarted
  | _, _ => True

theorem boundTo_of_valid {source : StargateSourceReceipt} {e : StargateOftReceived}
    (h : validateDestination o source e = .ok ()) : boundTo (destinationInput o source) e := by
  unfold validateDestination at h
  rw [guard_ok, guard_ok] at h
  simp only [not_or, not_not] at h
  rcases h with ⟨⟨hfinality, hrecipient⟩, ⟨hemitter, hhash, heid, hguid, hamount⟩, -⟩
  exact ⟨hfinality, hrecipient, hemitter, hhash, heid, hguid, hamount⟩

/-! ## The operations -/

variable (hash) in
/-- The specification of a program under the invariant, over steps that meet the condition. -/
abbrev Does {α : Type} (P : Shared → Prop) (x : StargateNativeProg α) (Q : α → Shared → Prop)
    (E : StargateError → Shared → Prop) : Prop :=
  Triple (Exec.only exec Meets) (Inv hash) P x Q E

variable (hash) in
abbrev Leaves {α : Type} (x : StargateNativeProg α) (Φ : α → Prop) : Prop :=
  Silent (Exec.only exec Meets) (Inv hash) x Φ

theorem leaves_ask (q : StargateNativeAsk) : Leaves hash (ask q) fun a => Answered q (.ok a) := by
  apply Silent.run
  rintro s t answer - ⟨-, rfl, hanswered⟩
  refine ⟨rfl, ?_⟩
  intro a ha
  have hok : answer = .ok a := ha
  rw [← hok]
  exact hanswered

theorem leaves_now : Leaves hash now fun _ => True :=
  Silent.perform fun _ _ _ _ h => ⟨h.2, trivial⟩

variable {E : StargateError → Shared → Prop}

theorem does_now {P : Shared → Prop} :
    Does hash P now (fun _ => P) E := by
  apply Triple.perform
  rintro s a t hs hP ⟨-, rfl⟩
  exact ⟨hs, hP⟩

variable {reason : String}

theorem leaves_refuse {c : Prop} [Decidable c] {code : StargateErrorCode} :
    Leaves hash (refuse c code reason) fun _ => ¬ c :=
  Silent.ite (fun _ => Silent.fail) fun h => Silent.ret h

theorem leaves_required {α : Type} {value : Option α} {code : StargateErrorCode} :
    Leaves hash (required value code reason) fun a => value = some a := by
  cases value with
  | none => exact Silent.fail
  | some a => exact Silent.ret rfl

theorem leaves_load : Leaves hash load fun _ => True := by
  apply Silent.run
  rintro s t answer - ⟨-, rfl, -⟩
  exact ⟨rfl, fun _ _ => trivial⟩

theorem does_load {P : Shared → Prop} :
    Does hash P load (fun a s => s.record = a ∧ P s) fun _ => P := by
  apply Triple.run
  rintro s t answer hs hP ⟨-, rfl, hanswer⟩
  refine ⟨hs, ?_⟩
  have hload : loaded t.record = .ok t.record := by
    cases hrecord : t.record with
    | none => rfl
    | some record =>
      have hvalid := validateRecord_ok.mpr (hs.valid record hrecord)
      simp only [loaded, hvalid]
      rfl
  rw [hload] at hanswer
  rcases hanswer with rfl | ⟨e, rfl⟩
  · exact ⟨rfl, hP⟩
  · exact hP

-- The journal takes a record, or the disk loses it.
theorem does_save {record : Option StargateNativeOperation} (hnext : Inv hash ⟨record, log⟩ →
    accepts record next = .ok () ∧ Inv hash ⟨some next, .saved next :: log⟩) :
    Does hash (fun s => s = ⟨record, log⟩) (save next) (fun _ s => s = ⟨some next, .saved next :: log⟩)
      fun _ s => s = ⟨some next, .saved next :: log⟩ ∨ s = ⟨record, .lost next :: log⟩ := by
  apply Triple.run
  rintro s t answer hs rfl ⟨-, hexec⟩
  rcases hnext hs with ⟨haccepts, hinv⟩
  simp only [exec, haccepts] at hexec
  rcases hexec with rfl | ⟨⟨e, rfl⟩, rfl⟩
  · refine ⟨hinv, ?_⟩
    cases answer with
    | ok _ => rfl
    | error _ => exact Or.inl rfl
  · exact ⟨hs.add trivial, Or.inr rfl⟩

-- A record that is no marker, written over one with the same hash.
theorem inv_write (h : Inv hash ⟨some o, log⟩) (hvalid : Valid next)
    (hphase : next.phase ≠ .submissionStarted) (hhash : next.transactionHash = o.transactionHash)
    (hmarked : marked next.phase = marked o.phase) : Inv hash ⟨some next, .saved next :: log⟩ := by
  apply h.saved hvalid hphase
  · rw [hhash, hmarked]
    exact h.hashed o rfl
  · intro hnext o' ho'
    cases ho'
    rw [← hmarked]
    exact hnext

theorem leaves_follow : Leaves hash (followPhaseUsage o) fun a => a = o := by
  unfold followPhaseUsage
  cases usageTarget o.phase with
  | none => exact Silent.ret rfl
  | some target => exact Silent.bind (leaves_ask _) fun _ _ => Silent.ret rfl

/-! ## Observing -/

/-- A record of this phase was asked to be saved, and was not refused. -/
def Asked (phase : StargateNativePhase) (added : List Event) : Prop :=
  ∃ next : StargateNativeOperation, next.phase = phase ∧ (.saved next ∈ added ∨ .lost next ∈ added)

/-- What a call read of the chain, it tried to write down. -/
structure Settles (o : StargateNativeOperation) (added : List Event) : Prop where
  reverted : ∀ r, .receipt r ∈ added → r.status = .reverted →
    some r.transactionHash = o.transactionHash → r.finality = o.finalityPolicy.source.blockTag →
    Asked .failedConfirmedRevert added
  delivered : ∀ r source e, .receipt r ∈ added → sourceReceipt o r = .ok source →
    .delivered (.oftReceived e) ∈ added → validateDestination o (withSourceFee source r) e = .ok () →
    Asked .observed added

/-- The same, since the log was `log`. -/
def Settled (o : StargateNativeOperation) (log : List Event) (s : Shared) : Prop :=
  ∃ added, s.log = added ++ log ∧ Settles o added

theorem Settles.unread (h : ∀ r, .receipt r ∉ added) : Settles o added :=
  ⟨fun r hr => absurd hr (h r), fun r _ _ hr => absurd hr (h r)⟩

/-- One record was written or lost. -/
def Wrote (phase : StargateNativePhase) (log : List Event) (s : Shared) : Prop :=
  ∃ next : StargateNativeOperation, next.phase = phase ∧
    (s = ⟨some next, .saved next :: log⟩ ∨ s.log = .lost next :: log)

theorem Wrote.elim (h : Wrote phase log s) : ∃ e, s.log = e :: log ∧ Asked phase [e] ∧
    (∀ r, e ≠ .receipt r) ∧ ∀ d, e ≠ .delivered d := by
  rcases h with ⟨next, hphase, rfl | hlog⟩
  · exact ⟨_, rfl, ⟨next, hphase, Or.inl List.mem_cons_self⟩, by simp, by simp⟩
  · exact ⟨_, hlog, ⟨next, hphase, Or.inr List.mem_cons_self⟩, by simp, by simp⟩

theorem Asked.append (h : Asked phase [e]) : Asked phase (e :: added) := by
  rcases h with ⟨next, hphase, hmem⟩
  refine ⟨next, hphase, ?_⟩
  rcases hmem with hsaved | hlost
  · exact Or.inl (List.mem_cons.mpr (Or.inl (List.mem_singleton.mp hsaved)))
  · exact Or.inr (List.mem_cons.mpr (Or.inl (List.mem_singleton.mp hlost)))

theorem does_write (hnext : Inv hash ⟨some o, log⟩ →
    accepts (some o) next = .ok () ∧ Inv hash ⟨some next, .saved next :: log⟩) :
    Does hash (fun s => s = ⟨some o, log⟩) (do save next; followPhaseUsage next)
      (fun _ => Wrote next.phase log) fun _ => Wrote next.phase log := by
  apply Triple.bind (M := fun _ s => s = ⟨some next, .saved next :: log⟩)
  · apply (does_save hnext).conseq (fun _ _ h => h) (fun _ _ _ h => h)
    rintro e s - (rfl | rfl)
    · exact ⟨next, rfl, Or.inl rfl⟩
    · exact ⟨next, rfl, Or.inr rfl⟩
  · intro _
    apply (leaves_follow _).conseq (fun _ _ h => h)
    · rintro a s - ⟨-, rfl⟩
      exact ⟨next, rfl, Or.inl rfl⟩
    · rintro e s - rfl
      exact ⟨next, rfl, Or.inl rfl⟩

theorem accepts_transition (h : Inv hash ⟨some o, log⟩) {at' : ℤ}
    (hadmitted : admitted o.phase phase) : accepts (some o) (transition o phase reason at') = .ok () :=
  accepts_append (h.valid o rfl) rfl rfl rfl (Or.inr rfl) hadmitted

theorem does_advance (hadmitted : admitted o.phase phase)
    (hphase : phase ≠ .submissionStarted) (hmarked : marked phase = marked o.phase) :
    Does hash (fun s => s = ⟨some o, log⟩) (advance o phase reason)
      (fun _ => Wrote phase log) fun _ => Wrote phase log := by
  apply Triple.bind does_now
  intro at'
  refine does_write fun h => ?_
  have haccepts : accepts (some o) (transition o phase reason at') = .ok () := accepts_transition h hadmitted
  exact ⟨haccepts, inv_write h (accepts_ok.mp haccepts).1 hphase rfl hmarked⟩

-- The call ends with what it read, and nothing written.
theorem does_follow {Q : Shared → Prop} (h : Q s) :
    Does hash (fun t => t = s) (followPhaseUsage o) (fun _ => Q) fun _ => Q := by
  apply (leaves_follow _).conseq (fun _ _ h => h)
  · rintro a t - ⟨-, rfl⟩
    exact h
  · rintro e t - rfl
    exact h

/-- The phases `observeOnly` is entered with. -/
def observable : StargateNativePhase → Bool
  | .submissionStarted | .submitted | .unknownFinality => true
  | _ => false

theorem does_destination {input : StargateDestinationInput} :
    Does hash (fun s => s = ⟨some o, log⟩) (observeDestination input)
      (fun found s => match found with
        | some evidence => (∀ e, evidence = .oftReceived e → boundTo input e →
            o.phase ≠ .submissionStarted) ∧ s = ⟨some o, .delivered evidence :: log⟩
        | none => s = ⟨some o, log⟩)
      fun _ s => s = ⟨some o, log⟩ := by
  apply Triple.run
  rintro s t answer hs rfl ⟨hmeets, hexec⟩
  change StargateResult (Option StargateDestinationEvidence) at answer
  cases answer with
  | error e =>
    cases hexec
    exact ⟨hs, rfl⟩
  | ok found =>
    cases found with
    | none =>
      cases hexec
      exact ⟨hs, rfl⟩
    | some evidence =>
      cases hexec
      refine ⟨hs.add trivial, ?_, rfl⟩
      intro e he hbound
      cases he
      exact hmeets hbound o rfl

theorem does_waitSourceReceipt {tag : StargateFinalityTag} {transactionHash : String} :
    Does hash (fun s => s = ⟨some o, log⟩) (waitSourceReceipt transactionHash tag)
      (fun found s => match found with
        | some receipt => s = ⟨some o, .receipt receipt :: log⟩
        | none => s = ⟨some o, log⟩)
      fun _ s => s = ⟨some o, log⟩ := by
  apply Triple.run
  rintro s t answer hs rfl ⟨-, hexec⟩
  change StargateResult (Option StargateConfirmedReceipt) at answer
  cases answer with
  | error e =>
    cases hexec
    exact ⟨hs, rfl⟩
  | ok found =>
    cases found with
    | none =>
      cases hexec
      exact ⟨hs, rfl⟩
    | some receipt =>
      cases hexec
      exact ⟨hs.add trivial, rfl⟩

/-! ## What one observation settles -/

variable {r : StargateConfirmedReceipt} {source : StargateSourceReceipt} {at' : ℤ}

theorem sourceReceipt_status (h : sourceReceipt o r = .ok source) : r.status = .success := by
  unfold sourceReceipt at h
  by_cases hstatus : r.status = .success
  · exact hstatus
  · simp [hstatus, fail] at h

-- A successful receipt and no proven delivery ask for nothing.
theorem Settles.success (hsource : sourceReceipt o r = .ok source)
    (hreceipt : ∀ r', .receipt r' ∈ added → r' = r)
    (hdelivered : ∀ e, .delivered (.oftReceived e) ∈ added →
      validateDestination o (withSourceFee source r) e = .ok () → Asked .observed added) :
    Settles o added := by
  constructor
  · intro r' hr' hreverted
    rw [hreceipt r' hr', sourceReceipt_status hsource] at hreverted
    cases hreverted
  · intro r' source' e hr' hsource' he hvalid
    have hr := hreceipt r' hr'
    rw [hr, hsource] at hsource'
    cases hsource'
    rw [hr] at hvalid
    exact hdelivered e he hvalid

theorem admitted_observed (hobservable : observable o.phase) (hphase : o.phase ≠ .submissionStarted) :
    admitted o.phase .observed := by
  revert hobservable hphase
  cases o.phase <;> decide

theorem admitted_submitted (hobservable : observable o.phase) (hphase : o.phase ≠ .submitted) :
    admitted o.phase .submitted := by
  revert hobservable hphase
  cases o.phase <;> decide

theorem marked_of_observable (hobservable : observable o.phase) : marked o.phase = true := by
  revert hobservable
  cases o.phase <;> decide

theorem accepts_pending (h : Inv hash ⟨some o, log⟩) (hobservable : observable o.phase) :
    accepts (some o) (pendingOperation o source at') = .ok () := by
  by_cases hphase : o.phase = .submitted
  · refine accepts_restate (h.valid o rfl) rfl ?_ hphase.symm (Or.inr rfl)
    simp [pendingOperation, hphase]
  · refine accepts_append (t := ⟨.submitted, at', "source_safe_destination_pending"⟩) (h.valid o rfl) rfl
      ?_ rfl (Or.inr rfl) (admitted_submitted hobservable hphase)
    simp [pendingOperation, hphase]

-- After the receipt a record was written: it settles what was read in between.
theorem Wrote.settled (added : List Event) (h : Wrote phase (added ++ .receipt r :: log) s)
    (hsource : sourceReceipt o r = .ok source) (hadded : ∀ r', .receipt r' ∉ added)
    (hasked : ∀ e, .delivered (.oftReceived e) ∈ added →
      validateDestination o (withSourceFee source r) e = .ok () → phase = .observed) :
    Settled o log s := by
  rcases h.elim with ⟨e, hlog, hwrote, hreceipt, hdelivered⟩
  refine ⟨e :: (added ++ [.receipt r]), by simp [hlog], Settles.success hsource ?_ ?_⟩
  · intro r' hr'
    rcases List.mem_cons.mp hr' with rfl | hr'
    · exact absurd rfl (hreceipt r')
    · rcases List.mem_append.mp hr' with hold | hnew
      · exact absurd hold (hadded r')
      · simpa using hnew
  · intro d hd hvalid
    rcases List.mem_cons.mp hd with rfl | hd
    · exact absurd rfl (hdelivered _)
    · rcases List.mem_append.mp hd with hold | hnew
      · rw [← hasked d hold hvalid]
        exact hwrote.append
      · simp at hnew

-- A delivery is proven: the record is observed.
theorem does_observed {e : StargateOftReceived} (hobservable : observable o.phase)
    (hphase : o.phase ≠ .submissionStarted) :
    Does hash (fun s => s = ⟨some o, log⟩)
      (do
        let at' ← now
        save (observedOperation o source (.oftReceived e) at')
        followPhaseUsage (observedOperation o source (.oftReceived e) at'))
      (fun _ => Wrote .observed log) fun _ => Wrote .observed log := by
  apply Triple.bind does_now
  intro at'
  refine does_write fun h => ?_
  have haccepts : accepts (some o) (observedOperation o source (.oftReceived e) at') = .ok () := by
    refine accepts_append (t := ⟨.observed, at', "destination_delivery_safe"⟩) (h.valid o rfl) rfl rfl rfl
      (Or.inr rfl) ?_
    exact admitted_observed hobservable hphase
  exact ⟨haccepts, inv_write h (accepts_ok.mp haccepts).1 (fun h => nomatch h) rfl
    (marked_of_observable hobservable).symm⟩

theorem does_pending (hobservable : observable o.phase) :
    Does hash (fun s => s = ⟨some o, log⟩)
      (do
        let at' ← now
        save (pendingOperation o source at')
        followPhaseUsage (pendingOperation o source at'))
      (fun _ => Wrote .submitted log) fun _ => Wrote .submitted log := by
  apply Triple.bind does_now
  intro at'
  refine does_write fun h => ⟨accepts_pending h hobservable, ?_⟩
  exact inv_write h (accepts_ok.mp (accepts_pending h hobservable)).1 (fun h => nomatch h) rfl
    (marked_of_observable hobservable).symm

theorem does_observeDelivery (hobservable : observable o.phase) (hsource : sourceReceipt o r = .ok source) :
    Does hash (fun s => s = ⟨some o, .receipt r :: log⟩) (observeDelivery o (withSourceFee source r))
      (fun _ => Settled o log) fun _ => Settled o log := by
  have hunread : Settles o [.receipt r] := Settles.success hsource (by simp) (by simp)
  apply Triple.bind (M := fun found s => match found with
    | some evidence => (∀ e, evidence = .oftReceived e →
        boundTo (destinationInput o (withSourceFee source r)) e → o.phase ≠ .submissionStarted) ∧
        s = ⟨some o, .delivered evidence :: .receipt r :: log⟩
    | none => s = ⟨some o, .receipt r :: log⟩)
  · apply does_destination.conseq (fun _ _ h => h) (fun _ _ _ h => h)
    rintro e s - rfl
    exact ⟨_, rfl, hunread⟩
  · intro found
    cases found with
    | none =>
      apply Triple.ite
      · intro _
        have hsettled : ∀ s, Wrote .submitted (.receipt r :: log) s → Settled o log s := fun s h =>
          Wrote.settled [] h hsource (by simp) (by simp)
        exact (does_pending hobservable).conseq (fun _ _ h => h) (fun _ s _ h => hsettled s h)
          fun _ s _ h => hsettled s h
      · intro _
        apply does_follow
        exact ⟨_, rfl, hunread⟩
    | some evidence =>
      apply Triple.assume
      intro hmeets
      cases evidence with
      | balanceDelta e =>
        apply does_follow
        exact ⟨[.delivered (.balanceDelta e), .receipt r], rfl,
          Settles.success hsource (by simp) (by simp)⟩
      | oftReceived e =>
        apply Triple.bind (M := fun _ s => validateDestination o (withSourceFee source r) e = .ok () ∧
          s = ⟨some o, .delivered (.oftReceived e) :: .receipt r :: log⟩)
        · apply Triple.ofExcept
          · intro a s hvalid _ hs
            exact ⟨hvalid, hs⟩
          · rintro failure s hinvalid - rfl
            refine ⟨[.delivered (.oftReceived e), .receipt r], rfl,
              Settles.success hsource (by simp) ?_⟩
            intro d hd hvalid
            have hsame : d = e := by simpa using hd
            rw [hsame, hinvalid] at hvalid
            cases hvalid
        · intro _
          apply Triple.assume
          intro hvalid
          have hphase := hmeets e rfl (boundTo_of_valid hvalid)
          have hsettled : ∀ s, Wrote .observed (.delivered (.oftReceived e) :: .receipt r :: log) s →
              Settled o log s := fun s h =>
            Wrote.settled [.delivered (.oftReceived e)] h hsource (by simp) fun _ _ _ => rfl
          exact (does_observed hobservable hphase).conseq (fun _ _ h => h) (fun _ s _ h => hsettled s h)
            fun _ s _ h => hsettled s h

theorem admitted_reverted (hobservable : observable o.phase) : admitted o.phase .failedConfirmedRevert := by
  revert hobservable
  cases o.phase <;> decide

theorem admitted_unknown (hobservable : observable o.phase) (hphase : o.phase ≠ .unknownFinality) :
    admitted o.phase .unknownFinality := by
  revert hobservable hphase
  cases o.phase <;> decide

/-- **One observation settles what it reads**, and every record it builds is taken. -/
theorem does_observeOnly (hobservable : observable o.phase) :
    Does hash (fun s => s = ⟨some o, log⟩) (observeOnly o) (fun _ => Settled o log)
      fun _ => Settled o log := by
  have hmarked := marked_of_observable hobservable
  have hquiet : Settled o log ⟨some o, log⟩ := ⟨[], rfl, Settles.unread (by simp)⟩
  apply Triple.silent leaves_required
  · rintro e s - rfl
    exact hquiet
  · intro transactionHash hhash
    apply Triple.bind (does_waitSourceReceipt.conseq (fun _ _ h => h) (fun _ _ _ h => h) ?_)
    · intro found
      cases found with
      | none =>
        apply Triple.ite
        · intro hphase
          have hsettled : ∀ s, Wrote .unknownFinality log s → Settled o log s := by
            intro s hwrote
            rcases hwrote.elim with ⟨e, hlog, -, hreceipt, -⟩
            exact ⟨[e], hlog, Settles.unread fun r hr => hreceipt r (List.mem_singleton.mp hr).symm⟩
          refine (does_advance (admitted_unknown hobservable hphase) (fun h => nomatch h)
            hmarked.symm).conseq (fun _ _ h => h) (fun _ s _ h => hsettled s h) fun _ s _ h => hsettled s h
        · intro _
          exact does_follow hquiet
      | some r =>
        apply Triple.ite
        · intro hreverted
          have hnosource : ∀ source, sourceReceipt o r ≠ .ok source := by
            intro source hsource
            rw [sourceReceipt_status hsource] at hreverted
            cases hreverted
          apply Triple.bind (M := fun _ s => s = ⟨some o, .receipt r :: log⟩)
          · apply Triple.ite
            · intro hother
              apply Triple.fail
              rintro s - rfl
              refine ⟨[.receipt r], rfl, ?_, ?_⟩
              · intro r' hr' _ hsame hfinality
                have hr : r' = r := by simpa using hr'
                rw [hr, hhash] at hsame
                rw [hr] at hfinality
                rcases hother with hne | hne
                · exact absurd (Option.some.inj hsame) hne
                · exact absurd hfinality hne
              · intro r' source e hr' hsource
                have hr : r' = r := by simpa using hr'
                rw [hr] at hsource
                exact absurd hsource (hnosource source)
            · intro _
              exact Triple.ret fun _ _ h => h
          · intro _
            have hsettled : ∀ s, Wrote .failedConfirmedRevert (.receipt r :: log) s → Settled o log s := by
              intro s hwrote
              rcases hwrote.elim with ⟨e, hlog, hasked, hreceipt, -⟩
              refine ⟨[e, .receipt r], hlog, fun _ _ _ _ _ => hasked.append, ?_⟩
              intro r' source d hr' hsource
              rcases List.mem_cons.mp hr' with rfl | hr'
              · exact absurd rfl (hreceipt r')
              · have hr : r' = r := by simpa using hr'
                rw [hr] at hsource
                exact absurd hsource (hnosource source)
            exact (does_advance (admitted_reverted hobservable) (fun h => nomatch h)
              hmarked.symm).conseq (fun _ _ h => h) (fun _ s _ h => hsettled s h)
                fun _ s _ h => hsettled s h
        · intro hstatus
          apply Triple.bind (M := fun source s => sourceReceipt o r = .ok source ∧
            s = ⟨some o, .receipt r :: log⟩)
          · apply Triple.ofExcept
            · intro a s hsource _ hs
              exact ⟨hsource, hs⟩
            · rintro e s hsource - rfl
              refine ⟨[.receipt r], rfl, ?_, ?_⟩
              · intro r' hr' hreverted
                have hr : r' = r := by simpa using hr'
                rw [hr] at hreverted
                exact absurd hreverted hstatus
              · intro r' source e hr' hsome
                have hr : r' = r := by simpa using hr'
                rw [hr, hsource] at hsome
                cases hsome
          · intro source
            apply Triple.assume
            intro hsource
            exact does_observeDelivery hobservable hsource
    · rintro e s - rfl
      exact hquiet

/-! ## Every command -/

/-- The record on disk is `o`. -/
def Held (o : StargateNativeOperation) (s : Shared) : Prop := s.record = some o

abbrev Anything {α : Type} : α → Shared → Prop := fun _ _ => True

theorem does_held {α : Type} {x : StargateNativeProg α} {Q : α → Shared → Prop}
    (h : ∀ log, Does hash (fun s => s = ⟨some o, log⟩) x Q E) : Does hash (Held o) x Q E := by
  intro s hs hheld
  apply h s.log s hs
  have hrecord : s.record = some o := hheld
  rw [← hrecord]

theorem keeps_advance (hadmitted : admitted o.phase phase)
    (hphase : phase ≠ .submissionStarted) (hmarked : marked phase = marked o.phase) :
    Does hash (Held o) (advance o phase reason) Anything Anything :=
  does_held fun _ => (does_advance hadmitted hphase hmarked).conseq (fun _ _ h => h)
    (fun _ _ _ _ => trivial) fun _ _ _ _ => trivial

theorem keeps_observeOnly (hobservable : observable o.phase) :
    Does hash (Held o) (observeOnly o) Anything Anything :=
  does_held fun _ => (does_observeOnly hobservable).conseq (fun _ _ h => h)
    (fun _ _ _ _ => trivial) fun _ _ _ _ => trivial

-- The first save of the broadcast's outcome.
theorem does_saveSubmitted {at' : ℤ} (hphase : o.phase = .submissionStarted) :
    Does hash (Held o) (save (transition o .submitted reason at'))
      (fun _ => Held (transition o .submitted reason at')) fun _ s =>
        Held o s ∨ Held (transition o .submitted reason at') s := by
  apply does_held
  intro log
  refine Triple.conseq (does_save fun h => ?_) (fun _ _ h => h) ?_ ?_
  · have haccepts : accepts (some o) (transition o .submitted reason at') = .ok () :=
      accepts_transition h (by rw [hphase]; decide)
    exact ⟨haccepts, inv_write h (accepts_ok.mp haccepts).1 (fun h => nomatch h) rfl
      (by rw [hphase]; rfl)⟩
  · rintro a s - rfl
    rfl
  · rintro e s - (rfl | rfl)
    · exact Or.inr rfl
    · exact Or.inl rfl

/-- The marker of these bytes is on disk, and nothing was sent. -/
structure Ready (hash : StargateNativeHash) (o : StargateNativeOperation) (raw : String) (s : Shared) :
    Prop where
  held : Held o s
  saved : .saved o ∈ s.log
  phase : o.phase = .submissionStarted
  transactionHash : o.transactionHash = some (hash.keccak256 raw)
  unsent : StargateNative.sends s.log = 0

theorem does_broadcast {raw transactionHash : String} :
    Does hash (Ready hash o raw) (broadcast raw transactionHash) (fun _ => Held o) fun _ => Held o := by
  apply Triple.bind (M := fun _ => Held o)
  · apply Triple.run
    rintro s t answer hs hready ⟨-, hexec⟩
    have ht : t = s.add (.sent raw) := hexec
    rw [ht]
    refine ⟨hs.sent hready.saved hready.phase hready.transactionHash hready.unsent, ?_⟩
    cases answer with
    | ok _ => exact hready.held
    | error _ => exact hready.held
  · intro returned
    exact (leaves_refuse _).conseq (fun _ _ h => h) (fun _ _ _ h => h.2) fun _ _ _ h => h

-- The save of the broadcast's outcome was lost: the next one carries both transitions.
theorem keeps_lostSubmitted {reason reason' : String} {at' : ℤ} (hphase : o.phase = .submissionStarted) :
    Does hash (Held o) (advance (transition o .submitted reason at') .unknownFinality reason') Anything
      Anything := by
  apply does_held
  intro log
  apply Triple.bind does_now
  intro at''
  refine Triple.conseq (does_write fun h => ?_) (fun _ _ h => h) (fun _ _ _ _ => trivial)
    fun _ _ _ _ => trivial
  have hfirst : Valid (transition o .submitted reason at') :=
    (h.valid o rfl).append rfl rfl rfl (by rw [hphase]; rfl)
  have hvalid : Valid (transition (transition o .submitted reason at') .unknownFinality reason' at'') :=
    hfirst.append rfl rfl rfl rfl
  refine ⟨accepts_ok.mpr ⟨hvalid, rfl, ?_, Or.inr rfl⟩, inv_write h hvalid (fun h => nomatch h) rfl ?_⟩
  · exact (List.prefix_append _ _).trans (List.prefix_append _ _)
  · rw [hphase]
    rfl

theorem does_or {α : Type} {P P' : Shared → Prop} {x : StargateNativeProg α} {Q : α → Shared → Prop}
    (h : Does hash P x Q E) (h' : Does hash P' x Q E) :
    Does hash (fun s => P s ∨ P' s) x Q E :=
  fun s hs hP => hP.elim (h s hs) (h' s hs)

theorem keeps_sendMarked {raw transactionHash : String} (hphase : o.phase = .submissionStarted) :
    Does hash (Ready hash o raw) (sendMarked o raw transactionHash) Anything Anything := by
  have hunknown : ∀ {next : StargateNativeOperation} {reason : String}, next.phase = .submissionStarted ∨
      next.phase = .submitted →
      Does hash (Held next) (advance next .unknownFinality reason) Anything Anything := by
    intro next reason hnext
    refine keeps_advance ?_ (fun h => nomatch h) ?_
    · rcases hnext with h | h <;> rw [h] <;> decide
    · rcases hnext with h | h <;> rw [h] <;> rfl
  apply Triple.bind (Triple.attempt does_broadcast)
  intro sent
  cases sent with
  | error e => exact hunknown (Or.inl hphase)
  | ok _ =>
    apply Triple.bind does_now
    intro at'
    apply Triple.bind (Triple.attempt (does_saveSubmitted hphase))
    intro saved
    cases saved with
    | error e =>
      apply does_or
      · exact keeps_lostSubmitted hphase
      · exact hunknown (Or.inr rfl)
    | ok _ =>
      apply Triple.silent leaves_follow
      · exact fun _ _ _ _ => trivial
      · intro _ _
        exact keeps_observeOnly rfl

/-- Nothing was marked, in a phase that may still be submitted. -/
def unmarked : StargateNativePhase → Bool
  | .prepared | .approved => true
  | _ => false

theorem does_approveFirst (hphase : unmarked o.phase) :
    Does hash (Held o) (approveFirst o) (fun next s => next.phase = .approved ∧ Held next s)
      Anything := by
  apply Triple.ite
  · intro hprepared
    apply Triple.skip (leaves_ask _)
    intro _ _
    apply Triple.bind does_now
    intro at'
    apply does_held
    intro log
    apply Triple.bind (M := fun _ s => s = ⟨some (transition o .approved "foreground_owner_confirmation" at'),
      .saved (transition o .approved "foreground_owner_confirmation" at') :: log⟩)
    · refine Triple.conseq (does_save fun h => ?_) (fun _ _ h => h) (fun _ _ _ h => h)
        fun _ _ _ _ => trivial
      have haccepts : accepts (some o) (transition o .approved "foreground_owner_confirmation" at') =
          .ok () := accepts_transition h (by rw [hprepared]; decide)
      refine ⟨haccepts, inv_write h (accepts_ok.mp haccepts).1 (fun h => nomatch h) rfl ?_⟩
      rw [hprepared]
      rfl
    · intro _
      apply Triple.ret
      rintro s - rfl
      exact ⟨rfl, rfl⟩
  · intro hprepared
    apply Triple.ret
    intro s _ hheld
    refine ⟨?_, hheld⟩
    revert hphase hprepared
    cases o.phase <;> simp [unmarked]

theorem leaves_unexpired : Leaves hash (assertUnexpired o reason) fun _ => True := by
  apply Silent.bind leaves_now
  intro at' _
  apply Silent.ite
  · exact fun _ => Silent.bind (leaves_ask _) fun _ _ => Silent.fail
  · exact fun _ => Silent.ret trivial

theorem leaves_preflight : Leaves hash (preflight o) fun _ => True := by
  apply Silent.bind (leaves_ask _)
  intro fresh _
  apply Silent.bind leaves_refuse
  intro _ _
  apply Silent.bind leaves_refuse
  intro _ _
  apply Silent.bind leaves_refuse
  intro _ _
  apply Silent.bind (leaves_ask _)
  intro _ _
  apply Silent.bind (leaves_ask _)
  intro _ _
  apply Silent.bind (leaves_ask _)
  intro baseFee _
  apply Silent.bind leaves_refuse
  intro _ _
  apply Silent.bind (leaves_ask _)
  intro _ _
  apply Silent.bind (leaves_ask _)
  intro identity _
  apply Silent.bind (leaves_ask _)
  intro signer _
  exact leaves_refuse.mono fun _ _ => trivial

theorem leaves_verify {raw : String} : Leaves hash (verifySignedEnvelope hash raw o) fun _ => True := by
  apply Silent.bind leaves_required
  intro tx _
  apply Silent.bind leaves_refuse
  intro _ _
  apply Silent.bind leaves_refuse
  intro _ _
  apply Silent.bind leaves_refuse
  intro _ _
  apply Silent.bind leaves_refuse
  intro _ _
  apply Silent.bind leaves_refuse
  intro _ _
  apply Silent.bind leaves_refuse
  intro _ _
  apply Silent.bind leaves_refuse
  intro _ _
  apply Silent.bind leaves_refuse
  intro _ _
  apply Silent.bind leaves_refuse
  intro _ _
  exact leaves_refuse.mono fun _ _ => trivial

theorem does_sign :
    Does hash (Held o) (sign o.envelope) (fun raw s => Held o s ∧ .signed o.envelope raw ∈ s.log)
      Anything := by
  apply Triple.run
  rintro s t answer hs hheld ⟨-, hexec⟩
  change StargateResult String at answer
  cases answer with
  | error e =>
    cases hexec
    exact ⟨hs, trivial⟩
  | ok raw =>
    cases hexec
    exact ⟨hs.add trivial, hheld, List.mem_cons_self⟩

-- The marker is saved over an approved record, after its bytes were signed.
theorem does_saveMarker {raw : String} {at' : ℤ} (hphase : o.phase = .approved) :
    Does hash (fun s => Held o s ∧ .signed o.envelope raw ∈ s.log)
      (save (markedOperation o (hash.keccak256 raw) at'))
      (fun _ => Ready hash (markedOperation o (hash.keccak256 raw) at') raw) Anything := by
  rintro s hs ⟨hheld, hsigned⟩
  have hstate : s = ⟨some o, s.log⟩ := by
    have hrecord : s.record = some o := hheld
    rw [← hrecord]
  have hunsent : ∀ h : Inv hash ⟨some o, s.log⟩,
      accepts (some o) (markedOperation o (hash.keccak256 raw) at') = .ok () ∧
      Inv hash ⟨some (markedOperation o (hash.keccak256 raw) at'),
        .saved (markedOperation o (hash.keccak256 raw) at') :: s.log⟩ ∧
      StargateNative.sends s.log = 0 := by
    intro h
    have hnone : o.transactionHash = none := by
      have hsome := h.hashed o rfl
      rw [hphase] at hsome
      exact Option.isNone_iff_eq_none.mp (by rw [← Option.not_isSome, hsome]; rfl)
    have haccepts : accepts (some o) (markedOperation o (hash.keccak256 raw) at') = .ok () := by
      refine accepts_append (t := ⟨.submissionStarted, at', "attempt_marked_before_send"⟩) (h.valid o rfl)
        rfl rfl rfl (Or.inl hnone) ?_
      rw [hphase]
      rfl
    exact ⟨haccepts, h.marked (by rw [hphase]; rfl) (accepts_ok.mp haccepts).1 rfl hsigned rfl⟩
  have hsave : Does hash (fun t => t = ⟨some o, s.log⟩) (save (markedOperation o (hash.keccak256 raw) at'))
      (fun _ => Ready hash (markedOperation o (hash.keccak256 raw) at') raw) Anything := by
    refine Triple.conseq (does_save fun h => ⟨(hunsent h).1, (hunsent h).2.1⟩) (fun _ _ h => h) ?_
      fun _ _ _ _ => trivial
    rintro a t ht rfl
    refine ⟨rfl, List.mem_cons_self, rfl, rfl, ?_⟩
    show StargateNative.sends (_ :: s.log) = 0
    rw [sends_saved]
    exact (hunsent (hstate ▸ hs)).2.2
  exact hsave s hs hstate

theorem keeps_submit (hphase : unmarked o.phase) :
    Does hash (Held o) (submit hash o) Anything Anything := by
  apply Triple.skip leaves_refuse
  intro _ _
  apply Triple.skip leaves_unexpired
  intro _ _
  apply Triple.bind (does_approveFirst hphase)
  intro next
  apply Triple.assume
  intro happroved
  apply Triple.skip leaves_unexpired
  intro _ _
  apply Triple.skip leaves_preflight
  intro _ _
  apply Triple.bind does_sign
  intro raw
  apply Triple.skip leaves_verify
  intro _ _
  apply Triple.bind does_now
  intro at'
  apply Triple.bind (does_saveMarker happroved)
  intro _
  exact keeps_sendMarked rfl

theorem keeps_recordObservedSourceFee (hterminal : terminal o.phase) :
    Does hash (Held o) (recordObservedSourceFee o) Anything Anything := by
  unfold recordObservedSourceFee
  cases o.sourceReceipt with
  | none => exact Triple.ret fun _ _ _ => trivial
  | some source =>
    apply Triple.ite
    · exact fun _ => Triple.ret fun _ _ _ => trivial
    · intro _
      apply Triple.bind (M := fun _ => Held o)
      · apply does_held
        intro log
        apply does_waitSourceReceipt.conseq (fun _ _ h => h) _ fun _ _ _ _ => trivial
        intro found s _ hfound
        cases found with
        | none =>
          rw [hfound]
          rfl
        | some r =>
          rw [hfound]
          rfl
      · intro found
        cases found with
        | none => exact Triple.ret fun _ _ _ => trivial
        | some r =>
          apply Triple.skip leaves_refuse
          intro _ _
          apply Triple.ite
          · exact fun _ => Triple.ret fun _ _ _ => trivial
          · intro _
            apply does_held
            intro log
            apply Triple.bind (M := Anything)
            · refine Triple.conseq (does_save fun h => ?_) (fun _ _ h => h) (fun _ _ _ _ => trivial)
                fun _ _ _ _ => trivial
              have haccepts : accepts (some o) { o with sourceReceipt := some (withSourceFee source r) } =
                  .ok () := accepts_restate (h.valid o rfl) rfl rfl rfl (Or.inr rfl)
              refine ⟨haccepts, inv_write h (accepts_ok.mp haccepts).1 ?_ rfl rfl⟩
              show o.phase ≠ .submissionStarted
              intro hphase
              rw [hphase] at hterminal
              cases hterminal
            · exact fun _ => Triple.ret fun _ _ _ => trivial

theorem keeps_executeLocked : Does hash (fun _ => True) (executeLocked hash) Anything Anything := by
  apply Triple.bind (does_load.conseq (fun _ _ h => h) (fun _ _ _ h => h.1) fun _ _ _ h => h)
  intro record
  cases record with
  | none => exact Triple.fail fun _ _ _ => trivial
  | some o =>
    dsimp only
    split
    · rename_i hphase
      exact keeps_observeOnly (by rw [hphase]; rfl)
    · rename_i hphase
      exact keeps_observeOnly (by rw [hphase]; rfl)
    · rename_i hphase
      exact keeps_observeOnly (by rw [hphase]; rfl)
    · rename_i hphase
      apply Triple.skip leaves_follow
      rintro _ rfl
      exact keeps_recordObservedSourceFee (by rw [hphase]; rfl)
    · rename_i hphase
      apply Triple.skip leaves_follow
      rintro _ rfl
      exact keeps_recordObservedSourceFee (by rw [hphase]; rfl)
    · rename_i hphase
      exact keeps_submit (by rw [hphase]; rfl)
    · rename_i hphase
      exact keeps_submit (by rw [hphase]; rfl)

theorem keeps_execute :
    Does hash (fun _ => True) (executeStargateV2NativeEth hash) Anything Anything := by
  apply Triple.skip leaves_load
  intro record _
  cases record with
  | none => exact Triple.fail fun _ _ _ => trivial
  | some o => exact keeps_executeLocked

/-! ## Preparing -/

/-- No record was saved yet. -/
def Unprepared (s : Shared) : Prop := s.record = none

variable {request : StargateNativePreparationRequest}

theorem valid_prepared {policy : StargateNativePolicyBinding}
    {finalityPolicy : StargateRouteFinalityPolicy} {quote : StargateQuote}
    {sourceCodeHash destinationCodeHash : String} {destination : ℕ × StargateBlock}
    {envelope : StargateNativeEnvelope} {maximumDebit : ℕ} {preparedAt expiresAt : ℤ}
    (hpolicy : assertPolicyBinding (some policy) = .ok ())
    (hfinality : stargateV2RouteFinalityPolicy sourceChain destinationChain = some finalityPolicy) :
    Valid (preparedOperation hash request policy finalityPolicy quote sourceCodeHash destinationCodeHash
      destination envelope maximumDebit preparedAt expiresAt) :=
  ⟨rfl, hash.operationId_length _ _, hfinality.symm, rfl, hpolicy, List.isChain_singleton _⟩

-- A record that starts an operation is saved.
theorem keeps_saveFirst (hvalid : Valid next) (hphase : next.phase = .prepared)
    (hlength : next.transitions.length = 1) (hnone : next.transactionHash = none) :
    Does hash Unprepared (save next) Anything Anything := by
  intro s hs hunprepared
  have hstate : s = ⟨none, s.log⟩ := by
    have hrecord : s.record = none := hunprepared
    rw [← hrecord]
  have hsave : Does hash (fun t => t = ⟨none, s.log⟩) (save next) Anything Anything := by
    refine Triple.conseq (does_save fun h => ⟨?_, ?_⟩) (fun _ _ h => h) (fun _ _ _ _ => trivial)
      fun _ _ _ _ => trivial
    · simp only [accepts, validateRecord_ok.mpr hvalid, bind_unit_ok, validateAdvance]
      simp [hphase, hlength]
    · apply h.saved hvalid
      · rw [hphase]
        exact fun h => nomatch h
      · rw [hnone, hphase]
        rfl
      · intro _ o ho
        cases ho
  exact hsave s hs hstate

theorem keeps_prepareNew {ttl : ℤ} :
    Does hash Unprepared (prepareNew hash request ttl) Anything Anything := by
  apply Triple.skip (leaves_ask _)
  intro quote _
  apply Triple.skip leaves_refuse
  intro _ _
  apply Triple.skip leaves_refuse
  intro _ _
  apply Triple.skip (leaves_ask _)
  intro config _
  apply Triple.skip (leaves_ask _)
  intro destinationConfig _
  apply Triple.skip (leaves_ask _)
  intro finalFee _
  apply Triple.skip leaves_refuse
  intro _ _
  apply Triple.skip leaves_refuse
  intro _ _
  apply Triple.skip (leaves_ask _)
  intro prepared _
  apply Triple.skip leaves_refuse
  intro _ _
  apply Triple.skip leaves_refuse
  intro _ _
  apply Triple.skip leaves_refuse
  intro _ _
  apply Triple.skip leaves_refuse
  intro _ _
  apply Triple.skip leaves_required
  intro finalityPolicy hfinality
  apply Triple.skip (leaves_ask _)
  intro destination _
  apply Triple.skip (leaves_ask _)
  intro block _
  apply Triple.skip leaves_refuse
  intro _ _
  apply Triple.skip (leaves_ask _)
  intro policy hpolicy
  apply Triple.bind does_now
  intro preparedAt
  apply Triple.skip leaves_required
  intro sourceCodeHash _
  apply Triple.skip leaves_required
  intro destinationCodeHash _
  apply Triple.bind (M := Anything)
  · exact keeps_saveFirst (valid_prepared hpolicy hfinality) rfl rfl rfl
  · exact fun _ => Triple.ret fun _ _ _ => trivial

theorem keeps_prepare :
    Does hash (fun _ => True) (prepareStargateV2NativeEth hash request) Anything Anything := by
  apply Triple.skip leaves_refuse
  intro _ _
  apply Triple.skip (leaves_ask _)
  intro signer _
  apply Triple.skip leaves_refuse
  intro _ _
  apply Triple.skip leaves_refuse
  intro _ _
  apply Triple.skip leaves_refuse
  intro _ _
  apply Triple.bind (does_load.conseq (fun _ _ h => h) (fun _ _ _ h => h.1) fun _ _ _ h => h)
  intro existing
  cases existing with
  | some existing =>
    apply Triple.skip leaves_refuse
    exact fun _ _ => Triple.ret fun _ _ _ => trivial
  | none =>
    apply Triple.skip (leaves_ask _)
    exact fun _ _ => keeps_prepareNew

/-! ## Every run -/

theorem keeps_command {operationId : String} {prog : StargateNativeProg Unit}
    (h : Command hash operationId prog) : Does hash (fun _ => True) prog Anything Anything := by
  cases h with
  | prepare request _ => exact Triple.bind keeps_prepare fun _ => Triple.ret fun _ _ _ => trivial
  | execute => exact Triple.bind keeps_execute fun _ => Triple.ret fun _ _ _ => trivial

theorem inv_start : Inv hash ⟨none, []⟩ := by
  refine ⟨?_, ?_, trivial, Nat.zero_le _, Nat.zero_le _, fun _ => rfl⟩
  · intro o ho
    cases ho
  · intro o ho
    cases ho

-- An execute call from an attempted record observes it.
theorem does_execute_observable (hobservable : observable o.phase) :
    Does hash (fun s => s = ⟨some o, log⟩) (executeStargateV2NativeEth hash)
      (fun _ => Settled o log) fun _ => Settled o log := by
  have hquiet : Settled o log ⟨some o, log⟩ := ⟨[], rfl, Settles.unread (by simp)⟩
  have hload : Does hash (fun s => s = ⟨some o, log⟩) load (fun a s => a = some o ∧ s = ⟨some o, log⟩)
      fun _ => Settled o log := by
    apply does_load.conseq (fun _ _ h => h)
    · rintro a s - ⟨hrecord, rfl⟩
      exact ⟨hrecord.symm, rfl⟩
    · rintro e s - rfl
      exact hquiet
  apply Triple.bind hload
  intro initial
  apply Triple.assume
  rintro rfl
  apply Triple.bind hload
  intro record
  apply Triple.assume
  rintro rfl
  dsimp only
  split
  · exact does_observeOnly hobservable
  · exact does_observeOnly hobservable
  · exact does_observeOnly hobservable
  all_goals
    rename_i hphase
    rw [hphase] at hobservable
    cases hobservable

end PaymentNode.StargateNative

namespace PaymentNode

open StargateNative

/-- The steps of the commands on one operation that meet a condition. -/
abbrev StargateNativeStep (hash : StargateNativeHash) (operationId : String)
    (meets : StargateNative.Shared → (o : StargateNativeOp) → o.Answer → Prop) :=
  Solo.Step (Solo.Exec.only exec meets) (Command hash operationId)

/-- **A sent native transfer is sent once and observed to its outcome**: in every run in which no delivery is
found while the record is still at its attempt marker, no record is refused, at most one marker is saved and at
most one transaction sent, after the marker that carries its hash, and a call that reads a final revert or a
matching delivery from an attempted record writes that outcome. -/
theorem native_transfer_settles {hash : StargateNativeHash} {operationId : String}
    {labels : List (System.Label StargateNativeOp StargateNativeOp.Answer StargateError Unit)}
    {c : System.Config StargateNativeOp StargateNativeOp.Answer StargateError StargateNative.Shared Unit}
    (hrun : Runs.Run (StargateNativeStep hash operationId Meets) (System.idle ⟨none, []⟩) labels c) :
    (∀ o, .refused o ∉ c.shared.log) ∧ markers c.shared.log ≤ 1 ∧ sends c.shared.log ≤ 1 ∧
      Trace.LawfulLog (Lawful hash) c.shared.log ∧
      ∀ o answer t, c.shared.record = some o → observable o.phase →
        System.Ends (Solo.system (Solo.Exec.only exec Meets)) () (executeStargateV2NativeEth hash)
          c.shared answer t → Settled o c.shared.log t := by
  have hinv : Inv hash c.shared := Solo.inv_of_run (fun _ h => keeps_command h) inv_start hrun
  refine ⟨?_, hinv.once, le_trans hinv.sends hinv.once, hinv.lawful, ?_⟩
  · intro o hrefused
    rcases hinv.lawful.of_mem hrefused with ⟨older, -, hlawful⟩
    exact hlawful
  · intro o answer t hrecord hobservable hends
    have hstate : c.shared = ⟨some o, c.shared.log⟩ := by rw [← hrecord]
    have hsettled := (does_execute_observable hobservable).ends hinv hstate hends
    cases answer with
    | ok a => exact hsettled
    | error e => exact hsettled

/-! ## Two runs -/

namespace StargateNativeRuns

def operationId : String := "aaaaaaaaaaaaaaaaaaaaaaaaaaaaaaaaaaaaaaaaaaaaaaaaaaaaaaaaaaaaaaaa"

def transaction : StargateSignedTransaction :=
  ⟨"0xa1", 1, true, sourcePool, "0xda", 1010, 7, 100, 20, some 2⟩

/-- Digests of one operation; the signed bytes are their own hash. -/
def hash : StargateNativeHash where
  profile := fun profile => profile
  idempotency := fun key => key
  operationId := fun _ _ => operationId
  sendToken := fun _ _ _ _ => "0xda"
  keccak256 := fun raw => raw
  parseTransaction := fun _ => some transaction
  operationId_length := fun _ _ => by decide

def request : StargateNativePreparationRequest := ⟨"default", "0xa1", "0xa1", 1000, 5000, "key-0001", none⟩

def quote : StargateQuote :=
  ⟨⟨1, 30101, sourcePool, 130, 30320, destinationPool, "ETH"⟩, 1000, 990, 10, ⟨50, "0xb50"⟩⟩

def answers : (q : StargateNativeAsk) → q.Answer
  | .admitRoute => ()
  | .quote _ _ => quote
  | .sourceConfig _ => some "0xc0de"
  | .poolConfig _ => some "0xc0de"
  | .finalFee _ => 10
  | .prepareEnvelope _ => ⟨7, 100, 20, 2, 9000⟩
  | .destinationBalance _ _ => (5, ⟨60, "0xb60"⟩)
  | .sourceBlock _ => ⟨50, "0xb50"⟩
  | .signerAddress => "0xa1"
  | .admitPolicy _ => ⟨operationId, 1, "stargate-v2", "eip155:1"⟩
  | .approve _ => ()
  | .baseFeePerGas => 3
  | .reserveUsage _ => ()
  | .signerIdentity => ("default", "0xa1")
  | .followUsage _ _ => ()

/-- The successful source receipt of bytes that hash to `transactionHash`. -/
def receipt (transactionHash : String) : StargateConfirmedReceipt where
  transactionHash := transactionHash
  status := .success
  block := ⟨51, "0xb51"⟩
  finality := .safe
  logs := [⟨sourcePool, some ⟨"0x91", destinationEid, "0xa1", 1000, 990⟩⟩]
  gasUsed := none
  effectiveGasPrice := none

/-- The delivery that answers what was asked. -/
def delivery (input : StargateDestinationInput) : StargateOftReceived where
  emitter := input.destinationPool
  sourceTransactionHash := input.sourceTransactionHash
  guid := input.guid
  sourceEid := input.sourceEid
  destinationTransactionHash := "0xd1"
  logIndex := 0
  block := ⟨61, "0xb61"⟩
  finality := input.finalityTag
  recipient := input.recipient
  amountReceived := input.minimumAmount

def atMarker (s : StargateNative.Shared) : Bool :=
  s.record.any fun o => o.phase = .submissionStarted

/-- Ports that answer, a disk that works, a transaction that succeeds and a delivery found when `finds` says so. -/
def play (finds : StargateNative.Shared → Bool) (s : StargateNative.Shared) :
    (o : StargateNativeOp) → o.Answer × StargateNative.Shared
  | .load => (loaded s.record, s)
  | .save next =>
    match accepts s.record next with
    | .error e => (.error e, s.add (.refused next))
    | .ok () => (.ok (), ⟨some next, .saved next :: s.log⟩)
  | .now => (0, s)
  | .ask q => (.ok (answers q), s)
  | .sign envelope => (.ok "0xf1", s.add (.signed envelope "0xf1"))
  | .send raw => (.ok "0xf1", s.add (.sent raw))
  | .sourceReceipt transactionHash _ =>
    (.ok (some (receipt transactionHash)), s.add (.receipt (receipt transactionHash)))
  | .destination input =>
    (if finds s then .ok (some (.oftReceived (delivery input))) else .ok none,
      if finds s then s.add (.delivered (.oftReceived (delivery input))) else s)

theorem play_exec {finds : StargateNative.Shared → Bool} (s : StargateNative.Shared) (o : StargateNativeOp) :
    exec s o (play finds s o).1 (play finds s o).2 := by
  cases o with
  | load => exact ⟨rfl, Or.inl rfl⟩
  | save next =>
    simp only [exec, play]
    split
    · simp_all
    · simp_all
  | now => rfl
  | ask q =>
    refine ⟨rfl, ?_⟩
    cases q with
    | admitPolicy _ =>
      show assertPolicyBinding (some ⟨operationId, 1, "stargate-v2", "eip155:1"⟩) = .ok ()
      decide
    | _ => trivial
  | sign envelope => rfl
  | send raw => rfl
  | sourceReceipt transactionHash tag => rfl
  | destination input =>
    by_cases hfinds : finds s
    · simp only [exec, play, hfinds, if_true]
    · simp only [exec, play, hfinds, if_false, Bool.false_eq_true]

/-- Prepare, then an execute call that dies after the attempt marker was saved, then another. -/
def calls (finds : StargateNative.Shared → Bool) (operations : ℕ) :
    List (System.Call StargateNativeOp StargateNativeOp.Answer StargateError StargateNative.Shared) :=
  [⟨(prepareStargateV2NativeEth hash request).bind fun _ => .ret (), play finds, 100⟩,
    ⟨(executeStargateV2NativeEth hash).bind fun _ => .ret (), play finds, operations⟩,
    ⟨(executeStargateV2NativeEth hash).bind fun _ => .ret (), play finds, 100⟩]

def after (finds : StargateNative.Shared → Bool) (operations : ℕ) : StargateNative.Shared :=
  (calls finds operations).foldl (fun s call => call.after s) ⟨none, []⟩

theorem run_after (finds : StargateNative.Shared → Bool) (operations : ℕ)
    (meets : StargateNative.Shared → (o : StargateNativeOp) → o.Answer → Prop)
    (hmeets : ∀ s o, meets s o (play finds s o).1) :
    ∃ labels, Runs.Run (StargateNativeStep hash operationId meets) (System.idle ⟨none, []⟩) labels
      (System.idle (after finds operations)) := by
  apply System.run_calls
  · exact fun _ => rfl
  · intro call hcall
    simp only [calls, List.mem_cons, List.not_mem_nil, or_false] at hcall
    rcases hcall with rfl | rfl | rfl
    · exact ⟨.prepare request rfl, fun s o => ⟨hmeets s o, play_exec s o⟩⟩
    · exact ⟨.execute, fun s o => ⟨hmeets s o, play_exec s o⟩⟩
    · exact ⟨.execute, fun s o => ⟨hmeets s o, play_exec s o⟩⟩

-- Deliveries that are never found at the marker.
theorem meets_play (s : StargateNative.Shared) (o : StargateNativeOp) :
    Meets s o (play (fun s => ! atMarker s) s o).1 := by
  cases o with
  | destination input =>
    show Meets s (.destination input)
      (if ! atMarker s then .ok (some (.oftReceived (delivery input))) else .ok none)
    split
    · rename_i hat
      intro _ record hrecord hphase
      simp [atMarker, hrecord, hphase] at hat
    · trivial
  | load => trivial
  | save next => trivial
  | now => trivial
  | ask q => trivial
  | sign envelope => trivial
  | send raw => trivial
  | sourceReceipt transactionHash tag => trivial

end StargateNativeRuns

open StargateNativeRuns in
/-- The route with no crash at the marker: one transaction is sent and its delivery observed. -/
theorem native_transfer_settles_of_delivery : ∃ labels c,
    Runs.Run (StargateNativeStep hash operationId Meets) (System.idle ⟨none, []⟩) labels c ∧
      sends c.shared.log = 1 ∧ (c.shared.record.any fun o => o.phase = .observed) ∧
      ∀ o, .refused o ∉ c.shared.log := by
  rcases run_after _ 100 Meets meets_play with ⟨labels, hrun⟩
  exact ⟨labels, _, hrun, by decide +kernel, by decide +kernel, (native_transfer_settles hrun).1⟩

open StargateNativeRuns in
/-- The process died after its send; the next call finds the transaction final and delivered, and the
journal refuses the observed record. -/
theorem native_delivery_refused_at_marker : ∃ labels c,
    Runs.Run (StargateNativeStep hash operationId fun _ _ _ => True) (System.idle ⟨none, []⟩) labels c ∧
      atMarker c.shared ∧ ∃ o, .refused o ∈ c.shared.log ∧ o.phase = .observed := by
  rcases run_after (fun _ => true) 18 (fun _ _ _ => True) (fun _ _ => trivial) with ⟨labels, hrun⟩
  refine ⟨labels, _, hrun, by decide +kernel, ?_⟩
  have hany : (after (fun _ => true) 18).log.any fun e => match e with
      | .refused o => o.phase = .observed
      | _ => false := by decide +kernel
  rcases List.any_eq_true.mp hany with ⟨e, he, hphase⟩
  cases e with
  | refused o => exact ⟨o, he, of_decide_eq_true hphase⟩
  | _ => cases hphase

end PaymentNode
