import PaymentNode.Jupiter.Steps

/-!
# Jupiter calls — every call on a swap keeps the invariant

One specification for each program of `Jupiter.Execution`.  What a section knows is said of the evidence that the
lock guards; what a call holds on to between its sections is that the record has left `submitting`.
-/

open Guarded

namespace PaymentNode.Jupiter

variable {c c' : Core} {p : ℕ} {l : Bool} {α β : Type} {P : Core → Prop}

/-! ## What is known of the evidence -/

theorem live_iff {record : SwapRecord} :
    c.evidence.live = some record ↔ c.record = record ∧ record.state = .submitting := by
  unfold Core.evidence
  constructor
  · intro h
    by_cases hstate : c.record.state = .submitting
    · simp only [if_pos hstate] at h
      cases h
      exact ⟨rfl, hstate⟩
    · simp only [if_neg hstate] at h
      cases h
  · rintro ⟨rfl, hstate⟩
    simp only [if_pos hstate]

theorem mem_events {e : Event} (h : e.guarded = true) : e ∈ c.evidence.events ↔ e ∈ c.log := by
  simp [Core.evidence, List.mem_filter, h]

-- A fact about the evidence, for the holder of the lock.
theorem stable_evidence {S : Evidence → Prop} : Stable law p true fun c => S c.evidence :=
  Stable.guarded

-- That the record has left `submitting`, which no lock is needed for.
theorem stable_passed : Stable law p l fun c => c.record.state.passed = true :=
  fun _ _ _ _ hrely _ h => (hrely.passed h).1

theorem stable_dead : Stable law p l fun c => c.record.state.passed = true ∧ Dead c :=
  fun _ _ _ _ hrely _ h => ⟨(hrely.passed h.1).1, hrely.dead h.1 h.2⟩

/-! ## Steps -/

-- A step of the holder while the record is submitted.
theorem keeps_live (hinv : JupiterInv c') (h : c.record.state = .submitting) (hsame : c'.finalized = c.finalized) :
    Keeps law p true c c' := by
  refine ⟨hinv, fun q _ => ⟨fun hpassed => ?_, fun hpassed => ?_, hsame.ge⟩, fun hl => (nomatch hl)⟩
  · rw [submitting_not_passed h] at hpassed
    cases hpassed
  · rw [submitting_not_passed h] at hpassed
    cases hpassed

theorem evidence_wrote {next : SwapRecord} (hold : c.record.state ≠ .submitting) (hnext : next.state ≠ .submitting) :
    (c.wrote next).evidence = c.evidence := by
  simp [Core.evidence, Core.wrote, Event.guarded, hold, hnext]

-- A write of the record, which needs the lock where it opens or ends a submission.
theorem keeps_wrote {next : SwapRecord} (hinv : JupiterInv (c.wrote next))
    (hpast : c.record.state.marked = true → next.state.passed = true)
    (hlock : l = false → c.record.state ≠ .submitting ∧ next.state ≠ .submitting) : Keeps law p l c (c.wrote next) := by
  refine ⟨hinv, fun q _ => ⟨fun hpassed => ?_, fun _ hdead => ?_, le_refl _⟩, fun hl => ?_⟩
  · have hnext := hpast (passed_marked hpassed)
    refine ⟨hnext, evidence_wrote ?_ ?_⟩
    · intro h
      rw [h] at hpassed
      cases hpassed
    · intro h
      rw [h] at hnext
      cases hnext
  · simpa [Dead, Core.wrote] using hdead
  · exact evidence_wrote (hlock hl).1 (hlock hl).2

theorem keeps_landed {signature : Signature} {height : ℕ} (hc : JupiterInv c) (h : Lands c signature height) :
    Keeps law p l c (c.happened (.landed signature height)) := by
  rcases hc.lands h with ⟨hinv, halive⟩
  exact ⟨hinv, fun q _ => ⟨fun hpassed => ⟨hpassed, rfl⟩, fun _ hdead => (halive hdead).elim, le_refl _⟩, fun _ => rfl⟩

theorem keeps_finalize {height : ℕ} (hc : JupiterInv c) (h : c.finalized ≤ height) :
    Keeps law p l c (c.finalize height) :=
  ⟨hc.finalize h, fun _ _ => ⟨fun hpassed => ⟨hpassed, rfl⟩, fun _ => JupiterInv.Dead.finalize h, h⟩, fun _ => rfl⟩

/-! ## Specifications -/

/-- From `P`, `x` answers with `Q`; whatever it throws, nothing is known then. -/
abbrev Does (p : ℕ) (l : Bool) (P : Core → Prop) (x : JupiterProg α) (Q : α → Core → Prop) : Prop :=
  Meets world law p l P x Q fun _ _ => True

/-- `x` leaves every stable fact as it was. -/
def Quiet (p : ℕ) (l : Bool) (x : JupiterProg α) : Prop :=
  ∀ P, Stable law p l P → Does p l P x fun _ => P

theorem Quiet.first {x : JupiterProg α} {f : α → JupiterProg β} {Q : β → Core → Prop} (hx : Quiet p l x)
    (hP : Stable law p l P) (hf : ∀ a, Does p l P (f a) Q) : Does p l P (x.bind f) Q :=
  Meets.bind (hx P hP) hf

theorem Quiet.bind {x : JupiterProg α} {f : α → JupiterProg β} (hx : Quiet p l x) (hf : ∀ a, Quiet p l (f a)) :
    Quiet p l (x.bind f) :=
  fun P hP => hx.first hP fun a => hf a P hP

theorem Quiet.ret {a : α} : Quiet p l (.ret a) := fun _ _ => Meets.ret fun _ _ h => h

theorem Quiet.fail {e : ApnError} : Quiet (α := α) p l (.fail e) := fun _ _ => Meets.fail fun _ _ _ => trivial

theorem Quiet.lift {result : Result α} : Quiet p l (lift result) := by
  cases result with
  | ok a => exact Quiet.ret
  | error e => exact Quiet.fail

theorem Quiet.ite {b : Prop} [Decidable b] {x y : JupiterProg α} (hx : Quiet p l x) (hy : Quiet p l y) :
    Quiet p l (if b then x else y) := by
  split
  · exact hx
  · exact hy

/-- An operation that leaves the durable state alone. -/
def JupiterOp.quiet : JupiterOp → Bool
  | replace _ _ | saveFresh _ _ | saveBinding _ | saveSignature _ | createClaim _ | nativeSign _ | startSend _ | post _
  | land _ _ | finalizeBlock _ => false
  | _ => true

variable {o : JupiterOp}

theorem exec_quiet {a : o.Answer} (h : o.quiet = true) (hexec : exec p c o a c') : c' = c := by
  cases o <;> first | exact absurd h Bool.false_ne_true | exact hexec | exact hexec.1

theorem Quiet.perform (h : o.quiet = true) : Quiet p l (perform o) := by
  intro P hP
  apply Meets.act hP
  intro c a c' hc hold hexec
  rw [exec_quiet (p := p) h hexec]
  exact ⟨Keeps.refl hc, hold⟩

theorem Quiet.run {h : o.Answer = Result α} (hquiet : o.quiet = true) : Quiet p l (run o h) :=
  Quiet.bind (Quiet.perform hquiet) fun _ => Quiet.lift

theorem Quiet.attempt_run {h : o.Answer = Result α} (hquiet : o.quiet = true) :
    Quiet p l (Jupiter.run o h).attempt := by
  intro P hP
  have htried : Meets world law p l P (Jupiter.run o h) (fun _ => P) fun _ => P := by
    apply Meets.run_any (M := P) hP _ fun _ _ h => h
    intro c c' answer hc hold hexec
    rw [exec_quiet (p := p) hquiet hexec]
    exact ⟨Keeps.refl hc, hold⟩
  apply Meets.post (Meets.attempt htried)
  intro r c _ h
  cases r with
  | ok a => exact h
  | error e => exact h

-- A check between two steps.
theorem does_lift {result : Result α} {f : α → JupiterProg β} {Q : β → Core → Prop}
    (hf : ∀ a, result = .ok a → Does p l P (f a) Q) : Does p l P ((lift result).bind f) Q := by
  cases result with
  | ok a => exact hf a rfl
  | error e => exact Meets.fail fun _ _ _ => trivial

variable {Q : α → Core → Prop}

theorem does_refuse {message : String} : Does p l P (executionBlocked message : JupiterProg α) Q :=
  Meets.fail fun _ _ _ => trivial

theorem does_corrupt : Does p l P (executionCorrupt : JupiterProg α) Q :=
  Meets.fail fun _ _ _ => trivial

theorem does_evidenceCorrupt : Does p l P (refuse : JupiterProg α) Q :=
  Meets.fail fun _ _ _ => trivial

-- A read that is truthful where it succeeds.
theorem does_read {h : o.Answer = Result α} {R : α → Core → Prop} (hP : Stable law p l P)
    (hread : ∀ c a c', JupiterInv c → P c → exec p c o a c' →
      c' = c ∧ ∀ v, (h ▸ a : Result α) = .ok v → R v c) :
    Does p l P (run o h) fun v c => P c ∧ R v c := by
  apply Meets.run hP
  intro c c' a hc hPc hexec
  rcases hread c a c' hc hPc hexec with ⟨rfl, htruth⟩
  refine ⟨Keeps.refl hc, ?_⟩
  generalize (h ▸ a : Result α) = answer at htruth ⊢
  cases answer with
  | ok v => exact ⟨hPc, htruth v rfl⟩
  | error e => trivial

/-! ## The record -/

theorem allowed_marked {state next : SwapState} (h : next ∈ state.allowed) (hnext : next ≠ .submitting) :
    next.marked = state.marked := by
  cases state <;> cases next <;> first | rfl | (exfalso; revert h hnext; decide)

/-- A record that was read: it has its marker if it has left the open states, and it is still the record while the
lock is held and it is submitted. -/
def Seen (l : Bool) (op : SwapRecord) (c : Core) : Prop :=
  op.submissionMarker.isSome = op.state.marked ∧ (op.state.passed = true → c.record.state.passed = true) ∧
    (l = true → op.state = .submitting → c.evidence.live = some op)

theorem does_loadRecord (hP : Stable law p l P) : Does p l P loadRecord fun op c => P c ∧ Seen l op c := by
  have hread : Does p l P (run .loadAny rfl : JupiterProg (Option SwapRecord)) fun found c =>
      P c ∧ ∀ op, found = some op → Seen l op c := by
    apply does_read hP
    rintro c answer c' hc _ ⟨hsame, htruth⟩
    refine ⟨hsame, fun found hanswer op hop => ?_⟩
    have hrecord := htruth found hanswer
    rw [hop] at hrecord
    cases hrecord
    exact ⟨hc.marker, fun h => h, fun _ hstate => live_iff.mpr ⟨rfl, hstate⟩⟩
  apply Meets.bind hread
  intro found
  cases found with
  | none => exact does_corrupt
  | some op => exact Meets.ret fun c _ h => ⟨h.1, h.2 op rfl⟩

theorem does_move {op next : SwapRecord} {state : SwapState} {patch : TransitionPatch} {at' : ℕ} {Q : Core → Prop}
    (h : op.transition state patch at' = .ok next) (hpatch : patch.submissionMarker = none)
    (hstate : state ≠ .submitting) (hlock : l = false → op.state ≠ .submitting) (hP : Stable law p l P)
    (hdead : state = .expiredUnlanded → ∀ c, P c → Dead c)
    (hQ : ∀ c, JupiterInv c → P c → c.record = op → Q (c.wrote next)) :
    Does p l P (run (.replace op next) rfl : JupiterProg Unit) fun _ => Q := by
  rcases transition_ok h with ⟨hallowed, hnext, hmarker⟩
  apply Meets.run hP
  rintro c c' answer hc hPc hexec
  rcases hexec with ⟨hrecord, hsaved⟩ | ⟨hfailed, hsame⟩
  · rw [hsaved]
    have hpast : c.record.state.marked = true → next.state.passed = true := by
      rw [hrecord, hnext]
      exact allowed_passed hallowed
    have hinv : JupiterInv (c.wrote next) := by
      apply hc.wrote _ hpast
      · intro hexpired
        exact hdead (hnext ▸ hexpired) c hPc
      · rw [hmarker, hpatch, hnext, allowed_marked hallowed hstate, ← hrecord]
        exact hc.marker
    refine ⟨keeps_wrote hinv hpast fun hl => ⟨?_, ?_⟩, ?_⟩
    · rw [hrecord]
      exact hlock hl
    · rw [hnext]
      exact hstate
    · cases answer with
      | ok _ => exact hQ c hc hPc hrecord
      | error e => trivial
  · rw [hsame]
    refine ⟨Keeps.refl hc, ?_⟩
    cases answer with
    | ok _ => exact (hfailed rfl).elim
    | error e => trivial

theorem does_recordPossibleSend {op : SwapRecord} {state : SwapState} {K : Core → Prop} (hK : Stable law p l K)
    (hkept : ∀ c next, next.state.passed = true → K c → K (c.wrote next)) (hstate : state = .submitted ∨ state = .unknownFinality)
    (hlock : l = false → op.state ≠ .submitting) :
    Does p l K (recordPossibleSend op state) fun next c =>
      next.state = state ∧ c.record.state.passed = true ∧ K c := by
  unfold recordPossibleSend
  apply Quiet.first (Quiet.perform rfl) hK
  intro at'
  split
  · exact does_refuse
  · apply Quiet.first (Quiet.run rfl) hK
    intro _
    apply does_lift
    intro next hnext
    have hopen : state ≠ .submitting := by rcases hstate with rfl | rfl <;> decide
    have hlive : state ≠ .expiredUnlanded := by rcases hstate with rfl | rfl <;> decide
    have hpassed : state.passed = true := by rcases hstate with rfl | rfl <;> rfl
    rcases transition_ok hnext with ⟨_, hsame, _⟩
    apply Meets.bind (M := fun _ c => c.record.state.passed = true ∧ K c)
    · apply does_move hnext rfl hopen hlock hK (fun h => (hlive h).elim)
      intro c _ hold _
      have hnext : next.state.passed = true := by
        rw [hsame]
        exact hpassed
      exact ⟨hnext, hkept c next hnext hold⟩
    · exact fun _ => Meets.ret fun _ _ h => ⟨hsame, h⟩

theorem does_finalizeRecord {op : SwapRecord} {receipt : FinalizedReceipt} {at' : ℕ} {K : Core → Prop}
    (hK : Stable law p l K) :
    Does p l K (finalizeRecord op receipt at') fun next c => next.state = .finalized ∧ c.record.state.passed = true := by
  unfold finalizeRecord
  split
  · exact does_refuse
  · rename_i hawaiting
    have hopen : op.state ≠ .submitting := by
      intro h
      rw [h] at hawaiting
      exact hawaiting (by decide)
    apply Quiet.first (Quiet.run rfl) hK
    intro _
    apply does_lift
    intro next hnext
    rcases transition_ok hnext with ⟨_, hsame, _⟩
    apply Meets.bind (M := fun _ c => c.record.state.passed = true)
    · apply does_move hnext rfl (by decide) (fun _ => hopen) hK (fun h => (nomatch h))
      intro c _ _ _
      show next.state.passed = true
      rw [hsame]
      rfl
    · exact fun _ => Meets.ret fun _ _ h => ⟨hsame, h⟩

/-! ## The stores, under the lock -/

section Stores

variable {op : SwapRecord} {material : PreparedMaterial} {b : ExecutionBinding} (hP : Stable law p true P)

include hP

theorem does_loadBinding :
    Does p true P (loadBinding op material) fun found c => P c ∧ c.evidence.binding = found := by
  have hread : Does p true P (run .loadBinding rfl : JupiterProg (Option ExecutionBinding)) fun found c =>
      P c ∧ c.evidence.binding = found := by
    apply does_read hP
    rintro c answer c' _ _ ⟨hsame, htruth⟩
    exact ⟨hsame, fun found hanswer => (htruth found hanswer).symm⟩
  apply Meets.bind hread
  intro found
  cases found with
  | none => exact Meets.ret fun _ _ h => h
  | some b =>
    apply Meets.ite
    · exact fun _ => does_evidenceCorrupt
    · exact fun _ => Meets.ret fun _ _ h => h

theorem does_loadFresh : Does p true P (loadFresh b) fun found c => found.1 = b.fresh ∧ P c := by
  apply Quiet.first (Quiet.run (h := rfl) rfl) hP
  intro found
  cases found with
  | none => exact does_evidenceCorrupt
  | some found =>
    apply Meets.ite
    · exact fun _ => does_evidenceCorrupt
    · intro hsame
      simp only [not_or, not_not] at hsame
      exact Meets.ret fun _ _ h => ⟨hsame.1, h⟩

/-- The signature that is saved for a binding. -/
def Named (b : ExecutionBinding) (g : Evidence) : Option Signature → Prop
  | none => g.signature = none
  | some signature => ∃ marker, g.signature = some marker ∧ marker.signature = signature ∧ marker.binding = b

theorem does_loadSignature :
    Does p true P (loadSignature op b) fun found c => P c ∧ Named b c.evidence found := by
  have hread : Does p true P (run .loadSignature rfl : JupiterProg (Option SignedMarker)) fun found c =>
      P c ∧ c.evidence.signature = found := by
    apply does_read hP
    rintro c answer c' _ _ ⟨hsame, htruth⟩
    exact ⟨hsame, fun found hanswer => (htruth found hanswer).symm⟩
  apply Meets.bind hread
  intro found
  cases found with
  | none => exact Meets.ret fun _ _ h => h
  | some signed =>
    apply Meets.ite
    · exact fun _ => does_evidenceCorrupt
    · intro hsame
      simp only [not_or, not_not] at hsame
      exact Meets.ret fun _ _ h => ⟨h.1, signed, h.2, rfl, hsame.2⟩

theorem does_loadClaim : Does p true P (loadClaim op) fun found c => P c ∧ c.evidence.claim = found := by
  have hread : Does p true P (run .loadClaim rfl : JupiterProg (Option SendClaim)) fun found c =>
      P c ∧ c.evidence.claim = found := by
    apply does_read hP
    rintro c answer c' _ _ ⟨hsame, htruth⟩
    exact ⟨hsame, fun found hanswer => (htruth found hanswer).symm⟩
  apply Meets.bind hread
  intro found
  cases found with
  | none => exact Meets.ret fun _ _ h => h
  | some claim =>
    apply Meets.ite
    · exact fun _ => does_evidenceCorrupt
    · exact fun _ => Meets.ret fun _ _ h => h

end Stores

end PaymentNode.Jupiter
