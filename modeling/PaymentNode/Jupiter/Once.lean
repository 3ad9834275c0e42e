import PaymentNode.Jupiter.Sends

/-!
# Jupiter once — one signature, one send, a true expiry

Observation and expiry, and the theorem of every interleaving: whatever the ports answer and wherever the processes
die, the history of a swap is lawful.
-/

open Guarded System

namespace PaymentNode.Jupiter

variable {c c' : Core} {p : ℕ} {l : Bool} {α : Type} {P : Core → Prop} {op : SwapRecord} {b : ExecutionBinding}
  {material : PreparedMaterial} {admission : OwnerBinding} {proved : PreconsentProof} {host : ℕ}

/-! ## A swap that cannot land -/

theorem dead_unsigned (hc : JupiterInv c) (h : c.signature = none) : Dead c := by
  have hcalled : ∀ effect, .called effect ∉ c.log := by
    intro effect heffect
    rcases (hc.called effect heffect).2.2 with ⟨marker, hmarker, _⟩
    rw [h] at hmarker
    cases hmarker
  have hposted := hc.not_posted hcalled
  exact ⟨hc.not_landed hposted, fun effect heffect => (hposted effect heffect).elim⟩

theorem dead_unbound (hc : JupiterInv c) (h : c.binding = none) : Dead c := by
  apply dead_unsigned hc
  by_contra hsigned
  rcases Option.ne_none_iff_exists'.mp hsigned with ⟨marker, hmarker⟩
  have hbinding := (hc.signature marker hmarker).1
  rw [h] at hbinding
  cases hbinding

-- The finalized height passed the lifetime of the bound message, and its signature has no status.
theorem dead_late {marker : SignedMarker} (hc : JupiterInv c) (hb : c.binding = some b)
    (hmarker : c.signature = some marker) (hlate : b.fresh.lastValidBlockHeight < c.finalized)
    (hstatus : ∀ height, .landed marker.signature height ∈ c.log → c.finalized < height) : Dead c := by
  have hposted : ∀ effect, .posted effect ∈ c.log → effect.binding = b ∧ effect.signature = marker.signature := by
    intro effect heffect
    rcases hc.called effect (hc.posted effect heffect) with ⟨_, hbinding, other, hother, hsame⟩
    rw [hb] at hbinding
    rw [hmarker] at hother
    cases hbinding
    cases hother
    exact ⟨rfl, hsame.symm⟩
  constructor
  · intro signature height hlanded
    rcases hc.landed signature height hlanded with ⟨effect, heffect, rfl, hlast⟩
    rcases hposted effect heffect with ⟨hbinding, hsame⟩
    rw [hsame] at hlanded
    rw [hbinding] at hlast
    have hheight := hstatus height hlanded
    omega
  · intro effect heffect
    rw [(hposted effect heffect).1]
    exact hlate

/-! ## Observation -/

theorem does_observeSigned {signature : Signature} (hop : op.state.passed = true) :
    Does p true (fun c => c.record.state.passed = true) (observeSigned op b signature) fun next c =>
      next.state.passed = true ∧ c.record.state.passed = true := by
  have hpassed : Stable law p true fun c => c.record.state.passed = true := stable_passed
  unfold observeSigned
  apply Meets.bind (Meets.post (does_loadClaim hpassed) fun _ _ _ h => h.1)
  intro claim
  apply Meets.ite
  · exact fun _ => does_corrupt
  intro _
  apply Meets.bind (does_loadFresh hpassed)
  intro found
  apply Meets.assume
  intro _
  apply Quiet.first (Quiet.run rfl) hpassed
  intro _
  apply Quiet.first (Quiet.attempt_run rfl) hpassed
  intro receipt
  cases receipt with
  | error e => exact Meets.ret fun _ _ h => ⟨hop, h⟩
  | ok receipt =>
    apply Quiet.first (Quiet.perform rfl) hpassed
    intro at'
    apply Meets.post (does_finalizeRecord hpassed)
    rintro next c _ ⟨hnext, h⟩
    rw [hnext]
    exact ⟨rfl, h⟩

theorem does_observeMarked (hop : op.state.passed = true) :
    Does p true (fun c => c.record.state.passed = true) (observeMarked material op) fun next c =>
      next.state.passed = true ∧ c.record.state.passed = true := by
  have hpassed : Stable law p true fun c => c.record.state.passed = true := stable_passed
  unfold observeMarked
  apply Quiet.first quiet_loadBinding hpassed
  intro binding
  cases binding with
  | none => exact Meets.ret fun _ _ h => ⟨hop, h⟩
  | some b =>
    apply Meets.bind (Meets.post (does_loadSignature hpassed) fun _ _ _ h => h.1)
    intro signature
    cases signature with
    | none => exact Meets.ret fun _ _ h => ⟨hop, h⟩
    | some signature => exact does_observeSigned hop

theorem does_observeLocked :
    Does p true (fun _ => True) (observeLocked material) fun next c =>
      next.state.passed = true ∧ c.record.state.passed = true := by
  unfold observeLocked
  apply Meets.bind (does_loadRecord Stable.const)
  intro op
  apply Meets.pre (N := fun c => op.submissionMarker.isSome = op.state.marked ∧ Seen true op c) _
    fun _ _ h => ⟨h.2.1, h.2⟩
  apply Meets.assume
  intro hmarker
  apply Meets.ite
  · exact fun _ => does_refuse
  intro hmarked
  apply Meets.ite
  · intro hterminal
    have hpassed : op.state.passed = true := by
      simp only [List.mem_cons, List.not_mem_nil, or_false] at hterminal
      rcases hterminal with h | h | h | h <;> rw [h] <;> rfl
    exact Meets.ret fun _ _ h => ⟨hpassed, h.2.1 hpassed⟩
  intro _
  apply Meets.ite
  · intro _
    apply Meets.forget
    apply Meets.bind
      (does_recordPossibleSend Stable.const (fun _ _ _ _ => trivial) (Or.inr rfl) (l := true) fun h => (nomatch h))
    intro next
    apply Meets.pre (N := fun c => next.state = .unknownFinality ∧ c.record.state.passed = true) _
      fun _ _ h => ⟨h.1, h.2.1⟩
    apply Meets.assume
    intro hnext
    apply does_observeMarked
    rw [hnext]
    rfl
  · intro hopen
    have hsome : op.submissionMarker.isSome = true := Option.isSome_iff_ne_none.mpr hmarked
    have hpassed : op.state.passed = true := by
      unfold SwapState.passed
      rw [← hmarker, hsome]
      simp [hopen]
    exact Meets.pre (does_observeMarked hpassed) fun _ _ h => h.2.1 hpassed

theorem does_observe :
    Does p false (fun _ => True) (observe material) fun next c =>
      next.state.passed = true ∧ c.record.state.passed = true :=
  Meets.withLock Stable.const (fun _ => Stable.const.and stable_passed) (fun _ => Stable.const) (fun _ _ => trivial)
    does_observeLocked

/-! ## Expiry -/

/-- What a section that proves knows: of a record that has left `submitting`, the proof is true. -/
def Proves (known : Prop) (proof : Option UnlandedProof) (c : Core) : Prop :=
  proof.isSome = true → known → c.record.state.passed = true ∧ Dead c

variable {known : Prop}

theorem stable_proves {proof : Option UnlandedProof} : Stable law p l (Proves known proof) :=
  fun _ _ _ _ hrely _ h hsome hknown =>
    ⟨(hrely.passed (h hsome hknown).1).1, hrely.dead (h hsome hknown).1 (h hsome hknown).2⟩

theorem stable_known : Stable law p l fun c => known → c.record.state.passed = true :=
  fun _ _ _ _ hrely _ h hknown => (hrely.passed (h hknown)).1

theorem stable_finalized {height : ℕ} : Stable law p l fun c => height ≤ c.finalized :=
  fun _ _ _ _ hrely _ h => le_trans h hrely.finalized

/-- The bound that is read for a binding. -/
def BoundedBy (lastValidBlockHeight : ℕ) (binding : Option ExecutionBinding) : Prop :=
  ∀ b, binding = some b → lastValidBlockHeight = b.fresh.lastValidBlockHeight

theorem does_landingBound {binding : Option ExecutionBinding} (hP : Stable law p true P) :
    Does p true P (landingBound material binding) fun bound c => BoundedBy bound binding ∧ P c := by
  cases binding with
  | none => exact Meets.ret fun _ _ h => ⟨fun _ h => (nomatch h), h⟩
  | some b =>
    apply Meets.bind (does_loadFresh hP)
    intro found
    apply Meets.assume
    intro hfresh
    apply Meets.ret
    intro c _ h
    refine ⟨?_, h⟩
    rintro b' ⟨⟩
    exact congrArg FreshMaterial.lastValidBlockHeight hfresh

/-- The signature that is saved, or that nothing was signed. -/
def SavedAs (g : Evidence) : Option Signature → Prop
  | none => g.binding = none ∨ g.signature = none
  | some signature => ∃ marker, g.signature = some marker ∧ marker.signature = signature

theorem does_savedSignature (hP : Stable law p true P) :
    Does p true P (savedSignature op material) fun found c => P c ∧ SavedAs c.evidence found := by
  unfold savedSignature
  apply Meets.bind (does_loadBinding hP)
  intro bound
  cases bound with
  | none => exact Meets.ret fun _ _ h => ⟨h.1, Or.inl h.2⟩
  | some b =>
    apply Meets.pre (N := P) _ fun _ _ h => h.1
    apply Meets.post (does_loadSignature hP)
    rintro found c _ ⟨h, hnamed⟩
    refine ⟨h, ?_⟩
    cases found with
    | none => exact Or.inr hnamed
    | some signature =>
      rcases hnamed with ⟨marker, hmarker, hsame, _⟩
      exact ⟨marker, hmarker, hsame⟩

theorem does_proveSolanaUnlanded {binding : Option ExecutionBinding} {bound : ℕ}
    (hbound : BoundedBy bound binding) :
    Does p true (fun c => (known → c.record.state.passed = true) ∧ c.evidence.binding = binding)
      (proveSolanaUnlanded bound (savedSignature op material)) (Proves known) := by
  have hstable : Stable law p true fun c => (known → c.record.state.passed = true) ∧ c.evidence.binding = binding :=
    stable_known.and (stable_evidence (S := fun g => g.binding = binding))
  unfold proveSolanaUnlanded
  have hheight : Does p true (fun c => (known → c.record.state.passed = true) ∧ c.evidence.binding = binding)
      (run .finalizedHeight rfl : JupiterProg ℕ) fun height c =>
        ((known → c.record.state.passed = true) ∧ c.evidence.binding = binding) ∧ height ≤ c.finalized := by
    apply does_read hstable
    rintro c answer c' _ _ ⟨hsame, htruth⟩
    exact ⟨hsame, htruth⟩
  apply Meets.bind hheight
  intro height
  apply Meets.ite
  · exact fun _ => Meets.ret fun _ _ _ h => (nomatch h)
  intro hpast
  have hreached : Stable law p true fun c => height ≤ c.finalized := stable_finalized
  have hnow := hstable.and hreached
  apply Meets.bind (does_savedSignature hnow)
  intro signature
  cases signature with
  | none =>
    apply Meets.ret
    rintro c hc ⟨⟨⟨hknown, _⟩, _⟩, hnone⟩ _ hk
    refine ⟨hknown hk, ?_⟩
    rcases hnone with hunbound | hunsigned
    · exact dead_unbound hc hunbound
    · exact dead_unsigned hc hunsigned
  | some signature =>
    have hstatus : Does p true
        (fun c => (((known → c.record.state.passed = true) ∧ c.evidence.binding = binding) ∧ height ≤ c.finalized) ∧
          SavedAs c.evidence (some signature))
        (run (.signatureStatus signature) rfl : JupiterProg Bool) fun found c => found = false →
          (known → c.record.state.passed = true) ∧ Dead c := by
      apply Meets.run (hnow.and (stable_evidence (S := fun g => SavedAs g (some signature))))
      rintro c c' answer hc ⟨⟨⟨hknown, hbinding⟩, hfinal⟩, marker, hmarker, hsame⟩ ⟨rfl, htruth⟩
      refine ⟨Keeps.refl hc, ?_⟩
      cases answer with
      | error e => trivial
      | ok found =>
        intro hfound
        subst hfound
        refine ⟨hknown, ?_⟩
        have hbinds : c'.binding = some marker.binding := (hc.signature marker hmarker).1
        have hread : some marker.binding = binding := hbinds.symm.trans hbinding
        have hlast := hbound marker.binding hread.symm
        apply dead_late hc hbinds hmarker
        · omega
        · intro h hlanded
          rw [hsame] at hlanded
          exact htruth rfl h hlanded
    apply Meets.bind hstatus
    intro status
    cases status with
    | true => exact Meets.ret fun _ _ _ h => (nomatch h)
    | false => exact Meets.ret fun _ _ h _ hk => ⟨(h rfl).1 hk, (h rfl).2⟩

theorem does_proveLocked :
    Does p true (fun c => known → c.record.state.passed = true) (proveLocked material) (Proves known) := by
  have hstable : Stable law p true fun c => known → c.record.state.passed = true := stable_known
  unfold proveLocked
  apply Meets.bind (Meets.post (does_loadRecord hstable) fun _ _ _ h => h.1)
  intro op
  apply Meets.ite
  · exact fun _ => Meets.ret fun _ _ _ h => (nomatch h)
  intro _
  apply Meets.bind (does_loadBinding hstable)
  intro binding
  have hbinding : Stable law p true fun c => (known → c.record.state.passed = true) ∧ c.evidence.binding = binding :=
    hstable.and (stable_evidence (S := fun g => g.binding = binding))
  apply Meets.bind (does_landingBound hbinding)
  intro bound
  apply Meets.assume
  exact does_proveSolanaUnlanded

theorem does_proveJupiterV1Unlanded :
    Does p false (fun c => known → c.record.state.passed = true) (proveJupiterV1Unlanded material) (Proves known) :=
  Meets.withLock stable_known (fun _ => stable_proves) (fun _ => Stable.const) (fun _ _ => trivial) does_proveLocked

-- The record that expires has left `submitting`, and its effect is dead.
theorem does_expireUnlanded {proof : UnlandedProof} (hop : op.state ≠ .submitting) :
    Does p false (fun c => c.record.state.passed = true ∧ Dead c) (expireUnlanded op proof) fun _ _ => True := by
  have hdead : Stable law p false fun c => c.record.state.passed = true ∧ Dead c := stable_dead
  unfold expireUnlanded
  apply Meets.ite
  · exact fun _ => does_refuse
  intro _
  apply Quiet.first (Quiet.perform rfl) hdead
  intro at'
  have hexpirable : Does p false (fun c => c.record.state.passed = true ∧ Dead c) (expirable op) fun next c =>
      next.state ≠ .submitting ∧ c.record.state.passed = true ∧ Dead c := by
    unfold expirable
    apply Meets.ite
    · intro _
      have hkept : ∀ c next, next.state.passed = true → (c.record.state.passed = true ∧ Dead c) →
          (Core.wrote c next).record.state.passed = true ∧ Dead (c.wrote next) := by
        intro c next hnext h
        exact ⟨hnext, by simpa [Dead, Core.wrote] using h.2⟩
      apply Meets.post (does_recordPossibleSend hdead hkept (Or.inr rfl) fun _ => hop)
      rintro next c _ ⟨hnext, _, h⟩
      rw [hnext]
      exact ⟨by decide, h⟩
    · exact fun _ => Meets.ret fun _ _ h => ⟨hop, h⟩
  apply Meets.bind hexpirable
  intro next
  apply Meets.assume
  intro hnext
  apply Quiet.first (Quiet.run rfl) hdead
  intro _
  apply does_lift
  intro expired hexpired
  unfold SwapRecord.expire at hexpired
  split at hexpired
  · cases hexpired
  apply Meets.bind (M := fun _ _ => True)
  · exact does_move hexpired rfl (by decide) (fun _ => hnext) hdead (fun _ _ h => h.2) fun _ _ _ _ => trivial
  · exact fun _ => Meets.ret fun _ _ _ => trivial

theorem does_status : Does p false (fun _ => True) (status material) fun _ _ => True := by
  unfold status
  apply Meets.bind (Meets.post (does_loadRecord Stable.const) fun _ _ _ _ => trivial)
  intro op
  apply Meets.ite
  · exact fun _ => Meets.ret fun _ _ _ => trivial
  intro _
  apply Meets.bind does_observe
  intro result
  apply Meets.assume
  intro hpassed
  apply Meets.ite
  · exact fun _ => Meets.ret fun _ _ _ => trivial
  intro _
  have hproves : Does p false (fun c => True → c.record.state.passed = true) (proveJupiterV1Unlanded material)
      (Proves True) := does_proveJupiterV1Unlanded
  apply Meets.bind (Meets.attempt (Meets.pre hproves fun _ _ h _ => h))
  intro proof
  cases proof with
  | error e => exact Meets.ret fun _ _ _ => trivial
  | ok proof =>
    cases proof with
    | none => exact Meets.ret fun _ _ _ => trivial
    | some proof =>
      have hopen : result.state ≠ .submitting := by
        intro h
        rw [h] at hpassed
        cases hpassed
      exact Meets.pre (does_expireUnlanded hopen) fun _ _ h => h rfl trivial

/-! ## Execution -/

theorem does_sendOnce : Does p false (fun _ => True) (sendOnce host) fun _ _ => True :=
  Meets.withLock Stable.const (fun _ => Stable.const) (fun _ => Stable.const) (fun _ _ => trivial) does_sendOnceLocked

theorem does_execute : Does p false (fun _ => True) (execute host op material) fun _ _ => True := by
  unfold execute
  apply Quiet.first (Quiet.perform rfl) Stable.const
  intro grant
  apply Meets.ite
  · exact fun _ => does_refuse
  intro _
  apply Quiet.first (Quiet.run rfl) Stable.const
  intro admission
  apply Quiet.first (Quiet.run rfl) Stable.const
  intro _
  apply Quiet.first (Quiet.perform rfl) Stable.const
  intro proved
  cases proved with
  | none => exact does_refuse
  | some proved =>
    apply Meets.ite
    · exact fun _ => does_refuse
    intro _
    unfold executeProved
    apply Quiet.first (Quiet.run rfl) Stable.const
    intro height
    apply Meets.ite
    · exact fun _ => does_refuse
    intro _
    apply Meets.ite
    · exact fun _ => Meets.fail fun _ _ _ => trivial
    intro _
    apply Quiet.first (Quiet.run rfl) Stable.const
    intro current
    apply Meets.ite
    · exact fun _ => does_refuse
    intro _
    have hmark : Does p false (fun _ => True) (withLock busy (markLocked host op material admission proved))
        fun _ _ => True :=
      Meets.withLock Stable.const (fun _ => Stable.const) (fun _ => Stable.const) (fun _ _ => trivial) does_markLocked
    apply Meets.bind hmark
    intro marked
    apply Meets.ite
    · intro _
      unfold sendMarked
      apply Meets.bind (Meets.attempt does_sendOnce)
      intro _
      apply Meets.forget
      exact Meets.post does_observe fun _ _ _ _ => trivial
    · exact fun _ => Meets.ret fun _ _ _ => trivial

theorem does_releaseUnsent : Does p false (fun _ => True) (releaseUnsent op) fun _ _ => True := by
  unfold releaseUnsent
  apply Quiet.first (Quiet.perform rfl) Stable.const
  intro at'
  apply Meets.ite
  · exact fun _ => does_refuse
  intro hopen
  have hstate : op.state ≠ .submitting := by
    intro h
    rw [h] at hopen
    exact hopen (by decide)
  apply Quiet.first (Quiet.run rfl) Stable.const
  intro _
  apply does_lift
  intro next hnext
  apply Meets.bind (M := fun _ _ => True)
  · exact does_move hnext rfl (by decide) (fun _ => hstate) Stable.const (fun h => (nomatch h)) fun _ _ _ _ => trivial
  · exact fun _ => Meets.ret fun _ _ _ => trivial

/-! ## Every interleaving -/

theorem does_land {signature : Signature} {height : ℕ} :
    Does p false (fun _ => True) (perform (.land signature height)) fun _ _ => True := by
  apply Meets.act Stable.const
  rintro c _ c' hc _ (hsame | ⟨hlands, hnow⟩)
  · rw [hsame]
    exact ⟨Keeps.refl hc, trivial⟩
  · rw [hnow]
    exact ⟨keeps_landed hc hlands, trivial⟩

theorem does_finalizeBlock {height : ℕ} :
    Does p false (fun _ => True) (perform (.finalizeBlock height)) fun _ _ => True := by
  apply Meets.act Stable.const
  rintro c _ c' hc _ (hsame | ⟨hheight, hnow⟩)
  · rw [hsame]
    exact ⟨Keeps.refl hc, trivial⟩
  · rw [hnow]
    exact ⟨keeps_finalize hc hheight, trivial⟩

/-- The calls of the lane on one swap, and the steps of the chain. -/
inductive Entry : ℕ → JupiterProg Unit → Prop
  | execute (p host : ℕ) (op : SwapRecord) (material : PreparedMaterial) :
      Entry p ((execute host op material).bind fun _ => .ret ())
  | sendOnce (p host : ℕ) : Entry p ((sendOnce host).bind fun _ => .ret ())
  | observe (p : ℕ) (material : PreparedMaterial) : Entry p ((observe material).bind fun _ => .ret ())
  | prove (p : ℕ) (material : PreparedMaterial) : Entry p ((proveJupiterV1Unlanded material).bind fun _ => .ret ())
  | status (p : ℕ) (material : PreparedMaterial) : Entry p ((status material).bind fun _ => .ret ())
  | release (p : ℕ) (op : SwapRecord) : Entry p ((releaseUnsent op).bind fun _ => .ret ())
  | land (p : ℕ) (signature : Signature) (height : ℕ) : Entry p (perform (.land signature height))
  | finalizeBlock (p height : ℕ) : Entry p (perform (.finalizeBlock height))

theorem does_entry {prog : JupiterProg Unit} (h : Entry p prog) : Does p false (fun _ => True) prog fun _ _ => True := by
  have hcall : ∀ {α : Type} {x : JupiterProg α} {Q : α → Core → Prop}, Does p false (fun _ => True) x Q →
      Does p false (fun _ => True) (x.bind fun _ => .ret ()) fun _ _ => True :=
    fun hx => Meets.bind hx fun _ => Meets.ret fun _ _ _ => trivial
  cases h with
  | execute => exact hcall does_execute
  | sendOnce => exact hcall does_sendOnce
  | observe => exact hcall does_observe
  | prove material =>
    have hprove : Does p false (fun _ => True) (proveJupiterV1Unlanded material) (Proves False) :=
      Meets.pre does_proveJupiterV1Unlanded fun _ _ _ h => h.elim
    exact hcall hprove
  | status => exact hcall does_status
  | release => exact hcall does_releaseUnsent
  | land => exact does_land
  | finalizeBlock => exact does_finalizeBlock

theorem inv_start {record : SwapRecord} {finalized : ℕ} (hopen : record.state.marked = false)
    (hmarker : record.submissionMarker = none) : JupiterInv (Core.start record finalized) := by
  have hnow : record.state ≠ .submitting ∧ record.state ≠ .expiredUnlanded := by
    constructor <;> (intro h; rw [h] at hopen; cases hopen)
  refine
    { lawful := ⟨⟨fun h => (hnow.1 h).elim, fun h => (hnow.2 h).elim⟩, trivial⟩
      current := rfl
      marker := by simp [Core.start, hmarker, hopen]
      unmarked := fun _ => ⟨rfl, rfl, rfl, rfl⟩
      marks := by simp [Core.start]
      passes := by simp [Core.start]
      bound := by simp [Core.start]
      signed := by simp [Core.start]
      signature := by simp [Core.start]
      claim := by simp [Core.start]
      claimed := by simp [Core.start]
      called := by simp [Core.start]
      posted := by simp [Core.start]
      landed := by simp [Core.start]
      expired := ?_ }
  intro other hother hexpired
  cases List.mem_singleton.mp hother
  exact (hnow.2 hexpired).elim

abbrev JupiterConfig := System.Config (Guarded.Op JupiterOp) (Guarded.Op.Answer JupiterOp.Answer) ApnError
  (Guarded.State Core ℕ) ℕ

abbrev JupiterStep := System.Step (Guarded.system world) Entry

theorem inv_of_jupiter_run {record : SwapRecord} {finalized : ℕ} {labels : List _} {c : JupiterConfig}
    (hopen : record.state.marked = false) (hmarker : record.submissionMarker = none)
    (hrun : Runs.Run JupiterStep (System.idle ⟨Core.start record finalized, none⟩) labels c) :
    JupiterInv c.shared.core := by
  apply Guarded.inv_of_run (L := law) (s := ⟨Core.start record finalized, none⟩) (fun _ _ h => does_entry h) _
    (inv_start hopen hmarker) hrun
  rintro p c c' hc rfl
  exact Keeps.refl hc

def Event.signs : Event → Bool
  | .signed .. => true
  | _ => false

def Event.calls : Event → Bool
  | .called .. => true
  | _ => false

/-- A signing or a sending. -/
def Event.effects : Event → Bool
  | .signed .. | .called .. | .posted .. => true
  | _ => false

/-- **A swap signs once, sends once, and its expiry is true**, in every interleaving: one signature at most, over the
message of the saved binding; one call of the transport at most, after the durable claim that names the signature it
sends; both while the record is `submitting` and never left it; and where the record was ever written as expired,
nothing that was sent is in a block, before or after, or can still be. -/
theorem signed_once_sent_once_expired_truly {record : SwapRecord} {finalized : ℕ} {labels : List _}
    {c : JupiterConfig} (hopen : record.state.marked = false) (hmarker : record.submissionMarker = none)
    (hrun : Runs.Run JupiterStep (System.idle ⟨Core.start record finalized, none⟩) labels c) :
    (c.shared.core.log.countP Event.signs ≤ 1 ∧
      ∀ message signature, .signed message signature ∈ c.shared.core.log →
        ∃ b, c.shared.core.binding = some b ∧ message = b.message) ∧
    (c.shared.core.log.countP Event.calls ≤ 1 ∧
      ∀ newer effect older, c.shared.core.log = newer ++ .called effect :: older →
        .signed effect.message (some effect.signature) ∈ older ∧
          ∃ claim, .claimed claim ∈ older ∧ claim.signature = effect.signature) ∧
    (∀ newer e older, c.shared.core.log = newer ++ e :: older → e.effects = true → Submitting older) ∧
    ∀ written, .wrote written ∈ c.shared.core.log → written.state = .expiredUnlanded →
      ∀ signature height, .landed signature height ∉ c.shared.core.log ∧ ¬ Lands c.shared.core signature height := by
  have hinv := inv_of_jupiter_run hopen hmarker hrun
  have hlawful := hinv.lawful
  refine ⟨⟨hlawful.count_le_one ?_, hinv.signed⟩, ⟨hlawful.count_le_one ?_, ?_⟩, ?_, ?_⟩
  · intro older e he hsigns x hx hagain
    cases e <;> first | exact absurd hsigns Bool.false_ne_true | skip
    cases x <;> first | exact absurd hagain Bool.false_ne_true | skip
    exact he.2.1 _ _ hx
  · intro older e he hcalls x hx hagain
    cases e <;> first | exact absurd hcalls Bool.false_ne_true | skip
    cases x <;> first | exact absurd hagain Bool.false_ne_true | skip
    exact he.2.1 _ hx
  · intro newer effect older hsplit
    rw [hsplit] at hlawful
    exact hlawful.of_split.2.2
  · intro newer e older hsplit heffects
    rw [hsplit] at hlawful
    have he := hlawful.of_split
    cases e <;> first | exact absurd heffects Bool.false_ne_true | exact he.1
  · intro written hwritten hexpired signature height
    have hdead := hinv.expired written hwritten hexpired
    exact ⟨hdead.1 signature height, fun hlands => (hinv.lands hlands).2 hdead⟩

/-! ## A run -/

namespace JupiterRun

abbrev Shared := Guarded.State Core ℕ

def quoted : PreparedMaterial := ⟨⟨7, 1⟩, 100, 50⟩

def freshLifetime : FreshMaterial := ⟨⟨7, 2⟩, 150, 50⟩

def simulated : SimulationProof := ⟨⟨7, 2⟩, 3, 10, 20⟩

def reserved : SwapRecord := ⟨.reserved, 4, 1000, 1000, 60000, 10, 9, none, none, none⟩

def write (free : Prop) [Decidable free] (s : Shared) (saved : Core) : Result Unit × Shared :=
  if free then (.ok (), { s with core := saved }) else (evidenceCorrupt, s)

def put {β : Type} [DecidableEq β] (slot : Option β) (value : β) (s : Shared) (saved : Core) : Result Unit × Shared :=
  if slot = none then (.ok (), { s with core := saved })
  else if slot = some value then (.ok (), s)
  else (evidenceCorrupt, s)

/-- The process holds the grant and every port works, but the transport never answers; the chain includes nothing. -/
def answer (p : ℕ) (s : Shared) :
    (o : Guarded.Op JupiterOp) → Guarded.Op.Answer JupiterOp.Answer o × Shared
  | .lock => if s.holder = none then (true, { s with holder := some p }) else (false, s)
  | .unlock => ((), { s with holder := dropped p s.holder })
  | .act .loadAny => (Except.ok (some s.core.record), s)
  | .act (.replace expected next) => write (s.core.record = expected) s (s.core.wrote next)
  | .act (.usage _) => (Except.ok (), s)
  | .act .now => ((2000 : ℕ), s)
  | .act .loadMaterial => (Except.ok (some quoted), s)
  | .act .admission => (Except.ok ⟨5, 6⟩, s)
  | .act (.assertPrepared _) => (Except.ok (), s)
  | .act .publicOwner => (Except.ok (5 : ℕ), s)
  | .act (.assertActive _ _) => (Except.ok (), s)
  | .act (.guardMaterial _) => (Except.ok (3 : ℕ), s)
  | .act .blockHeight => (Except.ok (10 : ℕ), s)
  | .act .finalizedHeight => (Except.ok s.core.finalized, s)
  | .act (.signatureStatus signature) =>
    (Except.ok (s.core.log.any fun e => match e with | .landed other _ => other = signature | _ => false), s)
  | .act (.finalizedReceipt _ _) => (evidenceCorrupt, s)
  | .act .requestBudget => (true, s)
  | .act (.takePreconsent _) => (some ⟨quoted, freshLifetime, simulated⟩, s)
  | .act (.readGrant _) => (some ⟨5, 9, 6, 8, freshLifetime.message⟩, s)
  | .act (.takeGrant _) => (some ⟨5, 9, 6, 8, freshLifetime.message⟩, s)
  | .act (.approvedScreen _) => (some 8, s)
  | .act (.readSealed _) =>
    (match s.core.binding, s.core.signature with
      | some b, some marker => some ⟨b, 8, ⟨b, b.message, marker.signature⟩⟩
      | _, _ => none, s)
  | .act (.keepSealed _ _) => ((), s)
  | .act (.saveFresh fresh simulation) =>
    put s.core.fresh (fresh, simulation) s (s.core.saveFresh (fresh, simulation))
  | .act .loadFresh => (Except.ok s.core.fresh, s)
  | .act (.saveBinding b) => put s.core.binding b s (s.core.bind b)
  | .act .loadBinding => (Except.ok s.core.binding, s)
  | .act (.saveSignature marker) => put s.core.signature marker s (s.core.saveSignature marker)
  | .act .loadSignature => (Except.ok s.core.signature, s)
  | .act (.createClaim claim) => write (s.core.claim = none) s (s.core.publishClaim claim)
  | .act .loadClaim => (Except.ok s.core.claim, s)
  | .act .wrappingSecret => (Except.ok (), s)
  | .act (.nativeSign message) => (Except.ok (77 : ℕ), { s with core := s.core.happened (.signed message (some 77)) })
  | .act (.saveEffect _) => (Except.ok (), s)
  | .act (.verify effect b) =>
    (if effect.binding = b ∧ effect.message = b.message then .ok () else evidenceCorrupt, s)
  | .act (.startSend effect) => (Except.ok (), { s with core := s.core.happened (.called effect) })
  | .act (.post effect) => (evidenceCorrupt, { s with core := s.core.happened (.posted effect) })
  | .act .diagnose => (Except.ok (), s)
  | .act (.land _ _) => ((), s)
  | .act (.finalizeBlock height) =>
    ((), if s.core.finalized ≤ height then { s with core := s.core.finalize height } else s)

theorem write_allowed {free : Prop} [Decidable free] {s : Shared} {saved : Core} :
    (write free s saved).2.holder = s.holder ∧
      Writes free s.core saved (write free s saved).1 (write free s saved).2.core := by
  by_cases h : free
  · rw [write, if_pos h]
    exact ⟨rfl, Or.inl ⟨h, rfl⟩⟩
  · rw [write, if_neg h]
    exact ⟨rfl, Or.inr ⟨fun h => (nomatch h), rfl⟩⟩

theorem put_allowed {β : Type} [DecidableEq β] {slot : Option β} {value : β} {s : Shared} {saved : Core} :
    (put slot value s saved).2.holder = s.holder ∧
      Puts slot value s.core saved (put slot value s saved).1 (put slot value s saved).2.core := by
  by_cases h : slot = none
  · rw [put, if_pos h]
    exact ⟨rfl, Or.inl (Or.inl ⟨h, rfl⟩)⟩
  · by_cases hsame : slot = some value
    · rw [put, if_neg h, if_pos hsame]
      exact ⟨rfl, Or.inr ⟨hsame, rfl⟩⟩
    · rw [put, if_neg h, if_neg hsame]
      exact ⟨rfl, Or.inl (Or.inr ⟨fun h => (nomatch h), rfl⟩)⟩

theorem truthful_ok {β : Type} {truth : β} : Truthful truth (.ok truth) := fun _ h => (Except.ok.inj h).symm

theorem answer_allowed (p : ℕ) (s : Shared) (o : Guarded.Op JupiterOp) :
    (Guarded.system world).exec p s o (answer p s o).1 (answer p s o).2 := by
  cases o with
  | lock =>
    by_cases hfree : s.holder = none
    · simp only [answer, if_pos hfree]
      exact ⟨hfree, rfl⟩
    · simp only [answer, if_neg hfree]
      rfl
  | unlock => rfl
  | act o =>
    cases o with
    | loadAny => exact ⟨rfl, rfl, truthful_ok⟩
    | loadFresh => exact ⟨rfl, rfl, truthful_ok⟩
    | loadBinding => exact ⟨rfl, rfl, truthful_ok⟩
    | loadSignature => exact ⟨rfl, rfl, truthful_ok⟩
    | loadClaim => exact ⟨rfl, rfl, truthful_ok⟩
    | replace expected next => exact write_allowed
    | createClaim claim => exact write_allowed
    | saveFresh fresh simulation => exact put_allowed
    | saveBinding b => exact put_allowed
    | saveSignature marker => exact put_allowed
    | finalizedHeight =>
      refine ⟨rfl, rfl, fun height h => ?_⟩
      cases h
      exact le_refl _
    | signatureStatus signature =>
      refine ⟨rfl, rfl, fun h height hlanded => ?_⟩
      have hnone := Except.ok.inj h
      rw [List.any_eq_false] at hnone
      have hthis := hnone _ hlanded
      simp at hthis
    | verify effect b =>
      refine ⟨rfl, rfl, fun h => ?_⟩
      by_cases hsame : effect.binding = b ∧ effect.message = b.message
      · exact hsame
      · simp only [answer, if_neg hsame] at h
        cases h
    | land signature height => exact ⟨rfl, Or.inl rfl⟩
    | finalizeBlock height =>
      by_cases h : s.core.finalized ≤ height
      · simp only [answer, if_pos h]
        exact ⟨rfl, Or.inr ⟨h, rfl⟩⟩
      · simp only [answer, if_neg h]
        exact ⟨rfl, Or.inl rfl⟩
    | _ => exact ⟨rfl, rfl⟩

def begins (p : ℕ) (prog : JupiterProg Unit) :
    List (System.Turn (Guarded.Op JupiterOp) (Guarded.Op.Answer JupiterOp.Answer) ApnError ℕ) :=
  [.begins p prog, .goesOn p 300]

def expiring : List (System.Turn (Guarded.Op JupiterOp) (Guarded.Op.Answer JupiterOp.Answer) ApnError ℕ) :=
  begins 1 ((execute 0 reserved quoted).bind fun _ => .ret ()) ++ begins 2 (perform (.finalizeBlock 200)) ++
    begins 3 ((status quoted).bind fun _ => .ret ())

def expired : JupiterConfig := expiring.foldl (System.takeTurn answer) (System.idle ⟨Core.start reserved 0, none⟩)

end JupiterRun

open JupiterRun in
/-- A swap whose one send was never answered and never included expires. -/
theorem unanswered_send_expires :
    (expired.shared.core.record.state = .expiredUnlanded ∧ expired.shared.core.log.countP Event.calls = 1) ∧
      ∀ signature height, .landed signature height ∉ expired.shared.core.log ∧
        ¬ Lands expired.shared.core signature height := by
  have hentry : ∀ p prog, .begins p prog ∈ expiring → Entry p prog := by
    intro p prog h
    simp only [expiring, begins, List.cons_append, List.nil_append, List.mem_cons, Turn.begins.injEq, reduceCtorEq,
      List.not_mem_nil, or_false, false_or] at h
    rcases h with ⟨rfl, rfl⟩ | ⟨rfl, rfl⟩ | ⟨rfl, rfl⟩
    · exact Entry.execute ..
    · exact Entry.finalizeBlock ..
    · exact Entry.status ..
  rcases run_turns answer_allowed expiring hentry (System.idle ⟨Core.start reserved 0, none⟩) with ⟨labels, hrun⟩
  have hwritten : .wrote expired.shared.core.record ∈ expired.shared.core.log ∧
      expired.shared.core.record.state = .expiredUnlanded ∧ expired.shared.core.log.countP Event.calls = 1 := by
    decide +kernel
  refine ⟨hwritten.2, ?_⟩
  exact (signed_once_sent_once_expired_truly rfl rfl hrun).2.2.2 _ hwritten.1 hwritten.2.1

end PaymentNode.Jupiter
