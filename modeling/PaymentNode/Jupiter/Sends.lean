import PaymentNode.Jupiter.Calls

/-!
# Jupiter sends — the section that marks and signs, and the section that sends

What the evidence is at each point of the two sections: bare once the record is marked, bound, signed for the bound
message, then ready to be sent and claimed for exactly the saved signature.
-/

open Guarded

namespace PaymentNode.Jupiter

variable {c c' : Core} {p : ℕ} {l : Bool} {α : Type} {P : Core → Prop} {op : SwapRecord} {b : ExecutionBinding}
  {material : PreparedMaterial} {admission : OwnerBinding} {proved : PreconsentProof} {host : ℕ}

/-! ## Programs that only read -/

theorem quiet_refuseUnless {b : Prop} [Decidable b] {x : JupiterProg α} (hx : Quiet p l x) :
    Quiet p l (if b then refuse else x) :=
  Quiet.ite Quiet.fail hx

theorem quiet_sameOwner : Quiet p l (sameOwner b) :=
  Quiet.bind (Quiet.run rfl) fun _ => quiet_refuseUnless Quiet.ret

theorem quiet_assertActive : Quiet p l (assertActive op b) := Quiet.run rfl

theorem quiet_assertDispatchAdmission : Quiet p l (assertDispatchAdmission op b) := by
  apply Quiet.bind (Quiet.run (h := rfl) rfl)
  intro _
  apply quiet_refuseUnless
  exact Quiet.bind quiet_sameOwner fun _ => quiet_assertActive

theorem quiet_assertWrappingFence : Quiet p l (assertWrappingFence op b) := by
  apply Quiet.bind (Quiet.run (h := rfl) rfl)
  intro _
  apply quiet_refuseUnless
  apply Quiet.bind quiet_sameOwner
  intro _
  apply Quiet.bind quiet_assertActive
  intro _
  apply Quiet.bind (Quiet.perform rfl)
  exact fun _ => quiet_refuseUnless Quiet.ret

theorem quiet_beforeSend : Quiet p l (beforeSend op b) := by
  apply Quiet.bind quiet_assertDispatchAdmission
  intro _
  apply Quiet.bind (Quiet.perform rfl)
  exact fun _ => Quiet.ite Quiet.fail Quiet.ret

theorem quiet_loadBinding : Quiet p true (loadBinding op material) :=
  fun _ hP => Meets.post (does_loadBinding hP) fun _ _ _ h => h.1

/-! ## Marking, binding and signing -/

/-- The record is marked, and nothing is saved beside it yet. -/
structure Blank (op : SwapRecord) (g : Evidence) : Prop where
  live : g.live = some op
  binding : g.binding = none
  signature : g.signature = none

/-- The binding is saved; nothing was signed. -/
structure Bound (op : SwapRecord) (b : ExecutionBinding) (g : Evidence) : Prop where
  live : g.live = some op
  binding : g.binding = some b
  signature : g.signature = none
  unsigned : ∀ message signature, .signed message signature ∉ g.events

/-- The message of the binding was signed; the signature is not saved yet. -/
structure SignedFor (op : SwapRecord) (b : ExecutionBinding) (signature : Signature) (g : Evidence) : Prop where
  live : g.live = some op
  binding : g.binding = some b
  unsaved : g.signature = none
  signed : .signed b.message (some signature) ∈ g.events

theorem does_saveFresh {fresh : FreshMaterial} {simulation : SimulationProof} :
    Does p true (fun c => Blank op c.evidence) (run (.saveFresh fresh simulation) rfl : JupiterProg Unit)
      fun _ c => Blank op c.evidence := by
  apply Meets.run_any (M := fun c => Blank op c.evidence) stable_evidence _ fun _ _ _ => trivial
  rintro c c' answer hc h hexec
  rcases live_iff.mp h.live with ⟨rfl, hlive⟩
  rcases hexec with (⟨_, hsaved⟩ | ⟨_, hsame⟩) | ⟨_, hsame⟩
  · rw [hsaved]
    exact ⟨keeps_live (hc.saveFresh hlive) hlive rfl, ⟨h.live, h.binding, h.signature⟩⟩
  · rw [hsame]
    exact ⟨Keeps.refl hc, h⟩
  · rw [hsame]
    exact ⟨Keeps.refl hc, h⟩

theorem does_saveBinding :
    Does p true (fun c => Blank op c.evidence) (run (.saveBinding b) rfl : JupiterProg Unit)
      fun _ c => Bound op b c.evidence := by
  apply Meets.run stable_evidence
  rintro c c' answer hc h hexec
  rcases live_iff.mp h.live with ⟨rfl, hlive⟩
  have hnone : c.binding = none := h.binding
  rcases hexec with (⟨_, hsaved⟩ | ⟨hfailed, hsame⟩) | ⟨hsome, _⟩
  · rw [hsaved]
    refine ⟨keeps_live (hc.bind hlive hnone) hlive rfl, ?_⟩
    cases answer with
    | ok _ =>
      refine ⟨h.live, rfl, h.signature, ?_⟩
      intro message signature hsigned
      rw [mem_events rfl] at hsigned
      exact hc.not_signed hnone message signature (by simpa [Core.bind] using hsigned)
    | error e => trivial
  · rw [hsame]
    refine ⟨Keeps.refl hc, ?_⟩
    cases answer with
    | ok _ => exact (hfailed rfl).elim
    | error e => trivial
  · rw [hnone] at hsome
    cases hsome

theorem does_nativeSign :
    Does p true (fun c => Bound op b c.evidence) (run (.nativeSign b.message) rfl : JupiterProg Signature)
      fun signature c => SignedFor op b signature c.evidence := by
  apply Meets.run stable_evidence
  rintro c c' answer hc h hexec
  rcases live_iff.mp h.live with ⟨rfl, hlive⟩
  have hfree : ∀ message signature, .signed message signature ∉ c.log := by
    intro message signature hsigned
    exact h.unsigned message signature ((mem_events rfl).mpr hsigned)
  have hnow : c' = c.happened (.signed b.message answer.toOption) := hexec
  rw [hnow]
  refine ⟨keeps_live (hc.signs hlive hfree h.binding rfl) hlive rfl, ?_⟩
  cases answer with
  | ok signature =>
    exact ⟨h.live, h.binding, h.signature, (mem_events rfl).mpr (List.mem_cons_self ..)⟩
  | error e => trivial

variable {marker : SubmissionMarker}

theorem does_saveSignature {signature : Signature} :
    Does p true (fun c => SignedFor op b signature c.evidence)
      (run (.saveSignature ⟨marker, b, signature⟩) rfl : JupiterProg Unit) fun _ _ => True := by
  apply Meets.run_any (M := fun _ => True) stable_evidence _ fun _ _ _ => trivial
  rintro c c' answer hc h hexec
  rcases live_iff.mp h.live with ⟨rfl, hlive⟩
  have hsigned := (mem_events rfl).mp h.signed
  rcases hexec with (⟨hnone, hsaved⟩ | ⟨_, hsame⟩) | ⟨_, hsame⟩
  · rw [hsaved]
    exact ⟨keeps_live (hc.saveSignature hlive hnone h.binding hsigned) hlive rfl, trivial⟩
  · rw [hsame]
    exact ⟨Keeps.refl hc, trivial⟩
  · rw [hsame]
    exact ⟨Keeps.refl hc, trivial⟩

-- One signature, over the message of the saved binding.
theorem does_signWithSeed :
    Does p true (fun c => Bound op b c.evidence) (signWithSeed op b)
      fun effect c => effect.binding = b ∧ SignedFor op b effect.signature c.evidence := by
  unfold signWithSeed
  apply Quiet.first quiet_assertWrappingFence stable_evidence
  intro _
  apply Quiet.first (Quiet.run rfl) stable_evidence
  intro _
  apply Quiet.first quiet_assertWrappingFence stable_evidence
  intro _
  apply Quiet.first quiet_sameOwner stable_evidence
  intro _
  apply Quiet.first quiet_assertActive stable_evidence
  intro _
  apply Meets.bind does_nativeSign
  exact fun signature => Meets.ret fun _ _ h => ⟨rfl, h⟩

theorem does_signGranted {screenHash : ℕ} :
    Does p true (fun c => Bound op b c.evidence) (signGranted host op b screenHash marker) fun _ _ => True := by
  unfold signGranted
  apply Quiet.first quiet_sameOwner stable_evidence
  intro _
  apply Quiet.first quiet_assertActive stable_evidence
  intro _
  apply Meets.bind does_signWithSeed
  intro effect
  apply Meets.assume
  intro _
  apply Quiet.first (Quiet.run rfl) stable_evidence
  intro _
  apply Meets.bind does_saveSignature
  intro _
  apply Quiet.first (Quiet.run rfl) Stable.const
  intro _
  exact Quiet.perform rfl _ Stable.const

theorem does_sign :
    Does p true (fun c => Bound op b c.evidence) (sign host op b material admission) fun _ _ => True := by
  unfold sign
  apply Quiet.first (Quiet.run rfl) stable_evidence
  intro _
  apply Meets.ite
  · exact fun _ => does_evidenceCorrupt
  intro _
  apply Quiet.first quiet_loadBinding stable_evidence
  intro stored
  apply Meets.ite
  · exact fun _ => does_evidenceCorrupt
  intro _
  apply Meets.bind (does_loadFresh stable_evidence)
  intro found
  apply Meets.assume
  intro _
  apply Quiet.first (Quiet.run rfl) stable_evidence
  intro _
  apply Meets.ite
  · exact fun _ => does_evidenceCorrupt
  intro _
  apply Quiet.first quiet_assertActive stable_evidence
  intro _
  apply Quiet.first (Quiet.perform rfl) stable_evidence
  intro grant
  apply Quiet.first (Quiet.perform rfl) stable_evidence
  intro screen
  cases grant with
  | none => exact Meets.fail fun _ _ _ => trivial
  | some grant =>
    apply Meets.ite
    · exact fun _ => Meets.fail fun _ _ _ => trivial
    · exact fun _ => does_signGranted

theorem does_bindAndSign {checkedAt : ℕ} :
    Does p true (fun c => Blank op c.evidence) (bindAndSign host op material admission proved checkedAt)
      fun _ _ => True := by
  unfold bindAndSign
  apply does_lift
  intro b _
  apply Meets.bind does_saveFresh
  intro _
  apply Meets.bind does_saveBinding
  exact fun _ => does_sign

-- The write that opens the submission.
theorem does_markSubmitting {next : SwapRecord} {at' : ℕ} (h : op.markSubmitting at' = .ok next) :
    Does p true (fun _ => True) (run (.replace op next) rfl : JupiterProg Unit) fun _ c => Blank next c.evidence := by
  rcases markSubmitting_ok h with ⟨hreserved, hnext, hmarker⟩
  apply Meets.run Stable.const
  rintro c c' answer hc _ hexec
  rcases hexec with ⟨hrecord, hsaved⟩ | ⟨hfailed, hsame⟩
  · have hunmarked : c.record.state.marked = false := by
      rw [hrecord, hreserved]
      rfl
    have hpast : c.record.state.marked = true → next.state.passed = true := by
      rw [hunmarked]
      exact fun h => (nomatch h)
    have hinv : JupiterInv (c.wrote next) := by
      apply hc.wrote _ hpast
      · intro hexpired
        rw [hnext] at hexpired
        cases hexpired
      · rw [hmarker, hnext]
        rfl
    rcases hc.unmarked hunmarked with ⟨_, hbinding, hsignature, _⟩
    rw [hsaved]
    refine ⟨keeps_wrote hinv hpast fun h => (nomatch h), ?_⟩
    cases answer with
    | ok _ => exact ⟨live_iff.mpr ⟨rfl, hnext⟩, hbinding, hsignature⟩
    | error e => trivial
  · rw [hsame]
    refine ⟨Keeps.refl hc, ?_⟩
    cases answer with
    | ok _ => exact (hfailed rfl).elim
    | error e => trivial

theorem does_markLocked :
    Does p true (fun _ => True) (markLocked host op material admission proved) fun _ _ => True := by
  unfold markLocked
  apply Meets.bind (does_loadRecord Stable.const)
  intro current
  apply Meets.forget
  apply Meets.ite
  · exact fun _ => Meets.ret fun _ _ _ => trivial
  intro _
  apply Meets.ite
  · exact fun _ => does_refuse
  intro _
  apply Quiet.first (Quiet.perform rfl) Stable.const
  intro checkedAt
  apply Meets.ite
  · exact fun _ => does_refuse
  intro _
  apply does_lift
  intro marked hmarked
  apply Meets.bind (does_markSubmitting hmarked)
  intro _
  unfold signMarked
  apply Meets.bind (Meets.attempt does_bindAndSign)
  intro signed
  apply Meets.forget
  cases signed with
  | ok _ => exact Meets.ret fun _ _ _ => trivial
  | error e =>
    show Does p true (fun _ => True) (unsigned marked) _
    unfold unsigned
    apply Meets.bind (Meets.attempt (Quiet.run rfl _ Stable.const))
    intro _
    apply Meets.forget
    apply Meets.bind (does_recordPossibleSend Stable.const (fun _ _ _ _ => trivial) (Or.inr rfl) (l := true) fun h => (nomatch h))
    exact fun _ => Meets.ret fun _ _ _ => trivial

/-! ## The section that sends -/

/-- The saved binding has no claim yet. -/
structure Ready (op : SwapRecord) (b : ExecutionBinding) (g : Evidence) : Prop where
  live : g.live = some op
  binding : g.binding = some b
  claim : g.claim = none

/-- The claim names exactly the signature of the effect; the send was not called. -/
structure ClaimedFor (op : SwapRecord) (effect : SignedEffect) (g : Evidence) : Prop where
  live : g.live = some op
  named : Named effect.binding g (some effect.signature)
  claim : ∃ claim, g.claim = some claim ∧ claim.signature = effect.signature
  uncalled : ∀ other, .called other ∉ g.events

/-- The send was called; its bytes have not left. -/
structure CalledFor (op : SwapRecord) (effect : SignedEffect) (g : Evidence) : Prop where
  live : g.live = some op
  called : .called effect ∈ g.events
  unposted : ∀ other, .posted other ∉ g.events

variable {effect : SignedEffect}

theorem does_verify (hP : Stable law p l P) :
    Does p l P (run (.verify effect b) rfl : JupiterProg Unit) fun _ c =>
      P c ∧ effect.binding = b ∧ effect.message = b.message := by
  apply does_read hP
  rintro c answer c' _ _ ⟨hsame, htruth⟩
  exact ⟨hsame, fun _ hanswer => htruth hanswer⟩

theorem does_createClaim {claim : SendClaim} (hsame : claim.signature = effect.signature)
    (hb : effect.binding = b) :
    Does p true (fun c => Ready op b c.evidence ∧ Named b c.evidence (some effect.signature))
      (run (.createClaim claim) rfl : JupiterProg Unit) fun _ c => ClaimedFor op effect c.evidence := by
  subst hb
  apply Meets.run (stable_evidence (S := fun g => Ready op effect.binding g ∧ Named effect.binding g (some effect.signature)))
  rintro c c' answer hc ⟨h, marker, hmarker, hsignature, hbinding⟩ hexec
  rcases live_iff.mp h.live with ⟨rfl, hlive⟩
  have hnone : c.claim = none := h.claim
  rcases hexec with ⟨_, hsaved⟩ | ⟨hfailed, hkept⟩
  · rw [hsaved]
    refine ⟨keeps_live (hc.publishClaim hlive hnone hmarker (hsame.trans hsignature.symm)) hlive rfl, ?_⟩
    cases answer with
    | ok _ =>
      refine ⟨h.live, ⟨marker, hmarker, hsignature, hbinding⟩, ⟨claim, rfl, hsame⟩, ?_⟩
      intro other hother
      rw [mem_events rfl] at hother
      exact hc.not_called hnone other (by simpa [Core.publishClaim] using hother)
    | error e => trivial
  · rw [hkept]
    refine ⟨Keeps.refl hc, ?_⟩
    cases answer with
    | ok _ => exact (hfailed rfl).elim
    | error e => trivial

theorem does_startSend (hmessage : effect.message = effect.binding.message) :
    Does p true (fun c => ClaimedFor op effect c.evidence) (run (.startSend effect) rfl : JupiterProg Unit)
      fun _ c => CalledFor op effect c.evidence := by
  apply Meets.run_any (M := fun c => CalledFor op effect c.evidence) stable_evidence _ fun _ _ _ => trivial
  rintro c c' answer hc h hexec
  rcases live_iff.mp h.live with ⟨rfl, hlive⟩
  rcases h.named with ⟨marker, hmarker, hsignature, hbinding⟩
  rcases h.claim with ⟨claim, hclaim, hsame⟩
  have hfree : ∀ other, .called other ∉ c.log := fun other hother => h.uncalled other ((mem_events rfl).mpr hother)
  have hnow : c' = c.happened (.called effect) := hexec
  rw [hnow]
  refine ⟨keeps_live (hc.calls hlive hfree hclaim hsame hmarker hsignature hbinding hmessage) hlive rfl, ?_⟩
  refine ⟨h.live, (mem_events rfl).mpr (List.mem_cons_self ..), ?_⟩
  intro other hother
  rw [mem_events rfl] at hother
  exact hc.not_posted hfree other (by simpa [Core.happened] using hother)

theorem does_post :
    Does p true (fun c => CalledFor op effect c.evidence) (run (.post effect) rfl : JupiterProg Signature)
      fun _ _ => True := by
  apply Meets.run_any (M := fun _ => True) stable_evidence _ fun _ _ _ => trivial
  rintro c c' answer hc h hexec
  rcases live_iff.mp h.live with ⟨rfl, hlive⟩
  have hfree : ∀ other, .posted other ∉ c.log := fun other hother => h.unposted other ((mem_events rfl).mpr hother)
  have hnow : c' = c.happened (.posted effect) := hexec
  rw [hnow]
  exact ⟨keeps_live (hc.posts hlive hfree ((mem_events rfl).mp h.called)) hlive rfl, trivial⟩

-- One call of the transport, whose bytes leave at most once.
theorem does_sendTransactionAtStart (hmessage : effect.message = effect.binding.message) :
    Does p true (fun c => ClaimedFor op effect c.evidence) (sendTransactionAtStart op b effect) fun _ _ => True := by
  unfold sendTransactionAtStart
  apply Meets.bind (does_startSend hmessage)
  intro _
  apply Quiet.first quiet_beforeSend stable_evidence
  exact fun _ => does_post

theorem does_claimAndSend {at' : ℕ} :
    Does p true (fun c => Ready op b c.evidence ∧ Named b c.evidence (some effect.signature))
      (claimAndSend op b effect marker at') fun _ _ => True := by
  have hstable : Stable law p true fun c => Ready op b c.evidence ∧ Named b c.evidence (some effect.signature) :=
    stable_evidence (S := fun g => Ready op b g ∧ Named b g (some effect.signature))
  unfold claimAndSend
  apply Meets.bind (Meets.post (does_loadClaim hstable) fun _ _ _ h => h.1)
  intro claimed
  apply Meets.ite
  · exact fun _ => does_refuse
  intro _
  apply Meets.bind (does_verify hstable)
  intro _
  apply Meets.pre (N := fun c => (effect.binding = b ∧ effect.message = b.message) ∧
    Ready op b c.evidence ∧ Named b c.evidence (some effect.signature)) _ fun _ _ h => ⟨h.2, h.1⟩
  apply Meets.assume
  rintro ⟨hbinding, hmessage⟩
  apply Meets.bind (does_createClaim rfl hbinding)
  intro _
  rw [← hbinding] at hmessage
  apply Meets.bind (Meets.attempt (does_sendTransactionAtStart hmessage))
  intro returned
  apply Meets.forget
  apply Quiet.first (Quiet.run rfl) Stable.const
  intro _
  apply Meets.post (does_recordPossibleSend Stable.const (fun _ _ _ _ => trivial) _ (l := true) fun h => (nomatch h))
  · exact fun _ _ _ _ => trivial
  · split
    · exact Or.inl rfl
    · exact Or.inr rfl

-- The effect that this process kept is the one whose signature is saved.
theorem does_savedEffect (hP : Stable law p true P) :
    Does p true P (savedEffect host op b) fun found c =>
      P c ∧ ∀ effect, found = some effect → Named b c.evidence (some effect.signature) := by
  unfold savedEffect
  apply Quiet.first (Quiet.perform rfl) hP
  intro kept
  apply Quiet.first (Quiet.perform rfl) hP
  intro screen
  cases kept with
  | none => exact Meets.ret fun _ _ h => ⟨h, fun _ h => (nomatch h)⟩
  | some kept =>
    apply Meets.ite
    · exact fun _ => Meets.ret fun _ _ h => ⟨h, fun _ h => (nomatch h)⟩
    intro _
    apply Quiet.first (Quiet.run (h := rfl) rfl) hP
    intro current
    apply Meets.ite
    · exact fun _ => does_evidenceCorrupt
    intro _
    apply Meets.bind (does_loadSignature hP)
    intro signature
    have hstable : Stable law p true fun c => P c ∧ Named b c.evidence signature :=
      hP.and (stable_evidence (S := fun g => Named b g signature))
    apply Meets.ite
    · exact fun _ => does_evidenceCorrupt
    intro hsame
    apply Quiet.first quiet_sameOwner hstable
    intro _
    apply Quiet.first (Quiet.run rfl) hstable
    intro _
    apply Meets.ret
    rintro c _ ⟨h, hnamed⟩
    refine ⟨h, ?_⟩
    rintro effect ⟨⟩
    rw [← not_not.mp hsame]
    exact hnamed

theorem does_sendChecked :
    Does p true (fun c => Ready op b c.evidence) (sendChecked host op b) fun _ _ => True := by
  have hready : Stable law p true fun c => Ready op b c.evidence := stable_evidence
  unfold sendChecked
  apply Meets.bind (does_loadFresh hready)
  intro found
  apply Meets.assume
  intro _
  apply Quiet.first (Quiet.run rfl) hready
  intro _
  apply Meets.bind (does_savedEffect hready)
  intro effect
  cases effect with
  | none => exact does_corrupt
  | some effect =>
    have hstable : Stable law p true fun c => Ready op b c.evidence ∧ Named b c.evidence (some effect.signature) :=
      stable_evidence (S := fun g => Ready op b g ∧ Named b g (some effect.signature))
    apply Meets.pre (N := fun c => Ready op b c.evidence ∧ Named b c.evidence (some effect.signature)) _
      fun _ _ h => ⟨h.1, h.2 effect rfl⟩
    apply Quiet.first (Quiet.run rfl) hstable
    intro height
    apply Meets.ite
    · exact fun _ => does_refuse
    intro _
    apply Quiet.first (Quiet.perform rfl) hstable
    intro at'
    apply Quiet.first (Quiet.perform rfl) hstable
    intro budget
    apply Meets.ite
    · exact fun _ => does_refuse
    intro _
    apply Quiet.first quiet_assertDispatchAdmission hstable
    exact fun _ => does_claimAndSend

theorem does_diagnoseRefusal {e : ApnError} :
    Does p true (fun _ => True) (diagnoseRefusal op e) fun _ _ => True := by
  unfold diagnoseRefusal
  apply Meets.bind (Meets.post (does_loadClaim Stable.const) fun _ _ _ _ => trivial)
  intro claimed
  apply Meets.ite
  · exact fun _ => Meets.fail fun _ _ _ => trivial
  intro _
  apply Quiet.first (Quiet.run rfl) Stable.const
  exact fun _ => Meets.fail fun _ _ _ => trivial

theorem does_sendOnceLocked : Does p true (fun _ => True) (sendOnceLocked host) fun _ _ => True := by
  unfold sendOnceLocked
  apply Meets.bind (does_loadRecord Stable.const)
  intro op
  apply Meets.ite
  · exact fun _ => does_refuse
  intro hopen
  have hstate : op.state = .submitting := by
    by_contra h
    exact hopen (Or.inl h)
  have hlive : Stable law p true fun c => c.evidence.live = some op := stable_evidence (S := fun g => g.live = some op)
  apply Meets.pre (N := fun c => c.evidence.live = some op) _ fun _ _ h => h.2.2.2 rfl hstate
  apply Meets.bind (does_loadClaim hlive)
  intro claimed
  apply Meets.ite
  · exact fun _ => does_refuse
  intro hunclaimed
  have hnone : claimed = none := by simpa using hunclaimed
  have hstable : Stable law p true fun c => c.evidence.live = some op ∧ c.evidence.claim = claimed :=
    stable_evidence (S := fun g => g.live = some op ∧ g.claim = claimed)
  apply Quiet.first (Quiet.run (h := rfl) rfl) hstable
  intro material
  cases material with
  | none => exact does_corrupt
  | some material =>
    apply Meets.bind (does_loadBinding hstable)
    intro binding
    cases binding with
    | none => exact does_corrupt
    | some b =>
      apply Meets.handle (F := fun _ _ => True)
      · apply Meets.pre does_sendChecked
        rintro c _ ⟨⟨hlive, hclaim⟩, hbinding⟩
        exact ⟨hlive, hbinding, hclaim.trans hnone⟩
      · exact fun _ => does_diagnoseRefusal

end PaymentNode.Jupiter
