import PaymentNode.Jupiter.World

/-!
# Jupiter steps — what each durable step keeps

One lemma for each way the durable state moves: that the invariant is kept, and that every other process allows for
the step.
-/

open Guarded

namespace PaymentNode.Jupiter

variable {c c' : Core} {p : ℕ} {l : Bool}

/-! ## A record that is being submitted -/

theorem submitting_not_passed {record : SwapRecord} (h : record.state = .submitting) :
    record.state.passed = false := by
  rw [h]
  rfl

-- A record that is being submitted is marked.
theorem submitting_unmarked {record : SwapRecord} {P : Prop} (h : record.state = .submitting)
    (hunmarked : record.state.marked = false) : P := by
  rw [h] at hunmarked
  cases hunmarked

namespace JupiterInv

variable (hc : JupiterInv c)

include hc

theorem submitting (h : c.record.state = .submitting) : Submitting c.log := by
  refine ⟨⟨c.record, hc.current, h⟩, ?_⟩
  intro record hrecord
  by_contra hpassed
  have hnow := hc.passes record hrecord (by simpa using hpassed)
  rw [submitting_not_passed h] at hnow
  cases hnow

theorem not_expired (h : c.record.state = .submitting) :
    ∀ record, .wrote record ∈ c.log → record.state ≠ .expiredUnlanded := by
  intro record hrecord hexpired
  have hpassed := (hc.submitting h).2 record hrecord
  rw [hexpired] at hpassed
  cases hpassed

-- While it is submitted, no record of its history has expired.
theorem unexpired (h : c.record.state = .submitting)
    (hrecords : ∀ record, .wrote record ∈ c'.log → .wrote record ∈ c.log) :
    ∀ record, .wrote record ∈ c'.log → record.state = .expiredUnlanded → Dead c' :=
  fun record hrecord hexpired => (hc.not_expired h record (hrecords record hrecord) hexpired).elim

theorem not_signed (h : c.binding = none) : ∀ message signature, .signed message signature ∉ c.log := by
  intro message signature hsigned
  rcases hc.signed message signature hsigned with ⟨b, hb, _⟩
  rw [h] at hb
  cases hb

theorem not_called (h : c.claim = none) : ∀ effect, .called effect ∉ c.log := by
  intro effect hcalled
  have hclaim := (hc.called effect hcalled).1
  rw [h] at hclaim
  cases hclaim

theorem not_posted (h : ∀ effect, .called effect ∉ c.log) : ∀ effect, .posted effect ∉ c.log :=
  fun effect hposted => h effect (hc.posted effect hposted)

theorem not_landed (h : ∀ effect, .posted effect ∉ c.log) : ∀ signature height, .landed signature height ∉ c.log := by
  intro signature height hlanded
  rcases hc.landed signature height hlanded with ⟨effect, heffect, _⟩
  exact h effect heffect

/-! ## The invariant -/

-- What a write of the record must meet.
theorem wrote {next : SwapRecord} (hmarker : next.submissionMarker.isSome = next.state.marked)
    (hpast : c.record.state.marked = true → next.state.passed = true)
    (hdead : next.state = .expiredUnlanded → Dead c) : JupiterInv (c.wrote next) := by
  have hstays : c.record.state.marked = true → next.state.marked = true := fun h => passed_marked (hpast h)
  have hlater : Dead c → Dead (c.wrote next) := by
    intro h
    simpa [Dead, Core.wrote] using h
  refine
    { lawful := ⟨⟨?_, fun h => (hdead h).1⟩, hc.lawful⟩
      current := rfl
      marker := hmarker
      unmarked := ?_
      marks := ?_
      passes := ?_
      bound := by simpa [Core.wrote] using hc.bound
      signed := by simpa [Core.wrote] using hc.signed
      signature := by simpa [Core.wrote] using hc.signature
      claim := by simpa [Core.wrote] using hc.claim
      claimed := hc.claimed
      called := by simpa [Core.wrote] using hc.called
      posted := by simpa [Core.wrote] using hc.posted
      landed := by simpa [Core.wrote] using hc.landed
      expired := ?_ }
  · intro hnext old hold
    by_contra hmarked
    have hnow := hpast (hc.marks old hold (by simpa using hmarked))
    rw [hnext] at hnow
    cases hnow
  · intro hnext
    apply hc.unmarked
    by_contra hmarked
    have hnow : next.state.marked = false := hnext
    rw [hstays (by simpa using hmarked)] at hnow
    cases hnow
  · intro record hrecord hmarked
    rcases List.mem_cons.mp hrecord with hnew | hold
    · cases hnew
      exact hmarked
    · exact hstays (hc.marks record hold hmarked)
  · intro record hrecord hpassed
    rcases List.mem_cons.mp hrecord with hnew | hold
    · cases hnew
      exact hpassed
    · exact hpast (passed_marked (hc.passes record hold hpassed))
  · intro record hrecord hexpired
    rcases List.mem_cons.mp hrecord with hnew | hold
    · cases hnew
      exact hlater (hdead hexpired)
    · exact hlater (hc.expired record hold hexpired)

theorem saveFresh {fresh : FreshMaterial × SimulationProof} (h : c.record.state = .submitting) :
    JupiterInv (c.saveFresh fresh) :=
  { hc with
    unmarked := submitting_unmarked h
    expired := hc.expired }

theorem bind {b : ExecutionBinding} (h : c.record.state = .submitting) (hnone : c.binding = none) :
    JupiterInv (c.bind b) := by
  have hfree : ∀ b, .bound b ∉ c.log := by
    intro b hb
    have hbinding := (hc.bound b).mp hb
    rw [hnone] at hbinding
    cases hbinding
  have hnosignature : ∀ marker, c.signature ≠ some marker := by
    intro marker hmarker
    have hbinding := (hc.signature marker hmarker).1
    rw [hnone] at hbinding
    cases hbinding
  have hnocalled : ∀ effect, .called effect ∉ c.log := by
    intro effect heffect
    have hbinding := (hc.called effect heffect).2.1
    rw [hnone] at hbinding
    cases hbinding
  have hnoposted := hc.not_posted hnocalled
  have hnosigned := hc.not_signed hnone
  refine
    { lawful := ⟨hfree, hc.lawful⟩
      current := hc.current
      marker := hc.marker
      unmarked := submitting_unmarked h
      marks := by simpa [Core.bind] using hc.marks
      passes := by simpa [Core.bind] using hc.passes
      bound := fun other => ?_
      signed := by simp [Core.bind, hnosigned]
      signature := fun marker hmarker => (hnosignature marker hmarker).elim
      claim := by simpa [Core.bind] using hc.claim
      claimed := hc.claimed
      called := by simp [Core.bind, hnocalled]
      posted := by simp [Core.bind, hnoposted]
      landed := by simp [Core.bind, hc.not_landed hnoposted]
      expired := ?_ }
  · simp [Core.bind, hfree, eq_comm]
  · exact hc.unexpired h fun record hrecord => by simpa [Core.bind] using hrecord

theorem saveSignature {marker : SignedMarker} (h : c.record.state = .submitting) (hnone : c.signature = none)
    (hbinding : c.binding = some marker.binding)
    (hsigned : .signed marker.binding.message (some marker.signature) ∈ c.log) : JupiterInv (c.saveSignature marker) := by
  have hnoclaim : ∀ claim, c.claim ≠ some claim := by
    intro claim hclaim
    rcases hc.claimed claim hclaim with ⟨other, hother, _⟩
    rw [hnone] at hother
    cases hother
  have hnocalled : ∀ effect, .called effect ∉ c.log := by
    intro effect heffect
    rcases (hc.called effect heffect).2.2 with ⟨other, hother, _⟩
    rw [hnone] at hother
    cases hother
  refine { hc with unmarked := submitting_unmarked h, signature := ?_, claimed := ?_, called := ?_, expired := hc.expired }
  · intro other hother
    cases hother
    exact ⟨hbinding, hsigned⟩
  · exact fun claim hclaim => (hnoclaim claim hclaim).elim
  · exact fun effect heffect => (hnocalled effect heffect).elim

theorem publishClaim {claim : SendClaim} {marker : SignedMarker} (h : c.record.state = .submitting)
    (hnone : c.claim = none) (hmarker : c.signature = some marker) (hsame : claim.signature = marker.signature) :
    JupiterInv (c.publishClaim claim) := by
  have hfree : ∀ other, .claimed other ∉ c.log := by
    intro other hother
    have hclaim := (hc.claim other).mp hother
    rw [hnone] at hclaim
    cases hclaim
  have hnocalled := hc.not_called hnone
  have hnoposted := hc.not_posted hnocalled
  have hsigned := (hc.signature marker hmarker).2
  rw [← hsame] at hsigned
  refine
    { lawful := ⟨⟨hfree, _, hsigned⟩, hc.lawful⟩
      current := hc.current
      marker := hc.marker
      unmarked := submitting_unmarked h
      marks := by simpa [Core.publishClaim] using hc.marks
      passes := by simpa [Core.publishClaim] using hc.passes
      bound := by simpa [Core.publishClaim] using hc.bound
      signed := by simpa [Core.publishClaim] using hc.signed
      signature := by simpa [Core.publishClaim] using hc.signature
      claim := fun other => ?_
      claimed := fun other hother => ?_
      called := by simp [Core.publishClaim, hnocalled]
      posted := by simp [Core.publishClaim, hnoposted]
      landed := by simp [Core.publishClaim, hc.not_landed hnoposted]
      expired := ?_ }
  · simp [Core.publishClaim, hfree, eq_comm]
  · cases hother
    exact ⟨marker, hmarker, hsame⟩
  · exact hc.unexpired h fun record hrecord => by simpa [Core.publishClaim] using hrecord

theorem signs {message : Message} {signature : Option Signature} {b : ExecutionBinding}
    (h : c.record.state = .submitting) (hfree : ∀ message signature, .signed message signature ∉ c.log)
    (hb : c.binding = some b) (hmessage : message = b.message) : JupiterInv (c.happened (.signed message signature)) := by
  refine
    { lawful := ⟨⟨hc.submitting h, hfree, b, (hc.bound b).mpr hb, hmessage⟩, hc.lawful⟩
      current := hc.current
      marker := hc.marker
      unmarked := hc.unmarked
      marks := by simpa [Core.happened] using hc.marks
      passes := by simpa [Core.happened] using hc.passes
      bound := by simpa [Core.happened] using hc.bound
      signed := ?_
      signature := ?_
      claim := by simpa [Core.happened] using hc.claim
      claimed := hc.claimed
      called := by simpa [Core.happened] using hc.called
      posted := by simpa [Core.happened] using hc.posted
      landed := by simpa [Core.happened] using hc.landed
      expired := ?_ }
  · intro other otherSignature hother
    rcases List.mem_cons.mp hother with hnew | hold
    · cases hnew
      exact ⟨b, hb, hmessage⟩
    · exact hc.signed other otherSignature hold
  · intro marker hmarker
    exact ⟨(hc.signature marker hmarker).1, List.mem_cons_of_mem _ (hc.signature marker hmarker).2⟩
  · exact hc.unexpired h fun record hrecord => by simpa [Core.happened] using hrecord

theorem calls {effect : SignedEffect} {marker : SignedMarker} {claim : SendClaim} (h : c.record.state = .submitting)
    (hfree : ∀ effect, .called effect ∉ c.log) (hclaim : c.claim = some claim)
    (hsame : claim.signature = effect.signature) (hmarker : c.signature = some marker)
    (hsignature : marker.signature = effect.signature) (hbinding : marker.binding = effect.binding)
    (hmessage : effect.message = effect.binding.message) : JupiterInv (c.happened (.called effect)) := by
  rcases hc.signature marker hmarker with ⟨hbound, hsigned⟩
  rw [hbinding] at hbound hsigned
  rw [← hmessage, hsignature] at hsigned
  refine
    { lawful := ⟨⟨hc.submitting h, hfree, hsigned, claim, (hc.claim claim).mpr hclaim, hsame⟩, hc.lawful⟩
      current := hc.current
      marker := hc.marker
      unmarked := hc.unmarked
      marks := by simpa [Core.happened] using hc.marks
      passes := by simpa [Core.happened] using hc.passes
      bound := by simpa [Core.happened] using hc.bound
      signed := by simpa [Core.happened] using hc.signed
      signature := by simpa [Core.happened] using hc.signature
      claim := by simpa [Core.happened] using hc.claim
      claimed := hc.claimed
      called := ?_
      posted := ?_
      landed := by simpa [Core.happened] using hc.landed
      expired := ?_ }
  · intro other hother
    rcases List.mem_cons.mp hother with hnew | hold
    · cases hnew
      exact ⟨by simp [Core.happened, hclaim], hbound, marker, hmarker, hsignature⟩
    · exact (hfree other hold).elim
  · intro other hother
    exact List.mem_cons_of_mem _ (hc.posted other (by simpa [Core.happened] using hother))
  · exact hc.unexpired h fun record hrecord => by simpa [Core.happened] using hrecord

theorem posts {effect : SignedEffect} (h : c.record.state = .submitting)
    (hfree : ∀ effect, .posted effect ∉ c.log) (hcalled : .called effect ∈ c.log) :
    JupiterInv (c.happened (.posted effect)) := by
  refine
    { lawful := ⟨⟨hc.submitting h, hfree, hcalled⟩, hc.lawful⟩
      current := hc.current
      marker := hc.marker
      unmarked := hc.unmarked
      marks := by simpa [Core.happened] using hc.marks
      passes := by simpa [Core.happened] using hc.passes
      bound := by simpa [Core.happened] using hc.bound
      signed := by simpa [Core.happened] using hc.signed
      signature := by simpa [Core.happened] using hc.signature
      claim := by simpa [Core.happened] using hc.claim
      claimed := hc.claimed
      called := by simpa [Core.happened] using hc.called
      posted := ?_
      landed := by simp [Core.happened, hc.not_landed hfree]
      expired := ?_ }
  · intro other hother
    rcases List.mem_cons.mp hother with hnew | hold
    · cases hnew
      exact List.mem_cons_of_mem _ hcalled
    · exact (hfree other hold).elim
  · exact hc.unexpired h fun record hrecord => by simpa [Core.happened] using hrecord

-- A dead swap lands nothing.
theorem lands {signature : Signature} {height : ℕ} (h : Lands c signature height) :
    JupiterInv (c.happened (.landed signature height)) ∧ ¬ Dead c := by
  rcases h with ⟨hheight, effect, heffect, hsame, hlast⟩
  have halive : ¬ Dead c := by
    intro hdead
    have hlate := hdead.2 effect heffect
    omega
  have hunexpired : ∀ record, .wrote record ∈ c.log → record.state ≠ .expiredUnlanded :=
    fun record hrecord hexpired => halive (hc.expired record hrecord hexpired)
  refine ⟨?_, halive⟩
  refine
    { lawful := ⟨⟨⟨effect, heffect, hsame⟩, hunexpired⟩, hc.lawful⟩
      current := hc.current
      marker := hc.marker
      unmarked := hc.unmarked
      marks := by simpa [Core.happened] using hc.marks
      passes := by simpa [Core.happened] using hc.passes
      bound := by simpa [Core.happened] using hc.bound
      signed := by simpa [Core.happened] using hc.signed
      signature := by simpa [Core.happened] using hc.signature
      claim := by simpa [Core.happened] using hc.claim
      claimed := hc.claimed
      called := by simpa [Core.happened] using hc.called
      posted := by simpa [Core.happened] using hc.posted
      landed := ?_
      expired := ?_ }
  · intro other otherHeight hother
    rcases List.mem_cons.mp hother with hnew | hold
    · cases hnew
      exact ⟨effect, List.mem_cons_of_mem _ heffect, hsame, hlast⟩
    · rcases hc.landed other otherHeight hold with ⟨found, hfound, hrest⟩
      exact ⟨found, List.mem_cons_of_mem _ hfound, hrest⟩
  · intro record hrecord hexpired
    have hold : .wrote record ∈ c.log := by simpa [Core.happened] using hrecord
    exact (hunexpired record hold hexpired).elim

omit hc in
theorem Dead.finalize {height : ℕ} (h : c.finalized ≤ height) (hdead : Dead c) : Dead (c.finalize height) :=
  ⟨hdead.1, fun effect heffect => lt_of_lt_of_le (hdead.2 effect heffect) h⟩

theorem finalize {height : ℕ} (h : c.finalized ≤ height) : JupiterInv (c.finalize height) :=
  { hc with expired := fun record hrecord hexpired => Dead.finalize h (hc.expired record hrecord hexpired) }

end JupiterInv

end PaymentNode.Jupiter
