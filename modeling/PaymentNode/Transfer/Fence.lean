import PaymentNode.Transfer.Semantics

/-!
# Fence — the invariant of one transfer, and the rule of every operation

Two halves, each kept unless its own event happened.  `Charged`: what is fenced is what the record binds, a
record in flight is fenced, and a released hold belongs to a record that was never fenced.  The history half:
each stored record extends the one before it.  `MayStore` is what a write of the record needs of the record it
was made from, which is the stored one except in the catch of a dispatch (`Site`).
-/

namespace PaymentNode

open TransferProg Discipline

def OperationState.inFlight : OperationState → Bool
  | submittedPending | unknownFinality => true
  | _ => false

/-- Past the dispatch fence: signed at least, and never released. -/
def OperationRecord.AfterFence (r : OperationRecord) : Prop :=
  r.state ≠ .awaitingApproval ∧ r.state ≠ .started ∧ evmUsageTarget r ≠ .failedBeforeEffect

/-- The stored records, newest first. -/
def storedRecords : List TransferEvent → List OperationRecord
  | [] => []
  | .stored r :: before => r :: storedRecords before
  | _ :: before => storedRecords before

/-- Every send follows the fence of the same bytes. -/
def SendsFenced (keccak : Keccak) : List TransferEvent → Prop
  | [] => True
  | .sent raw :: before => .fenced (keccak raw) ∈ before ∧ SendsFenced keccak before
  | _ :: before => SendsFenced keccak before

/-- The later record of each pair extends the earlier one. -/
def AppendOnly (records : List OperationRecord) : Prop :=
  records.Pairwise fun newer older => Extends older newer

structure Charged (keccak : Keccak) (c : TransferCore) : Prop where
  bound : ∀ hash, c.fence = some hash →
    ∃ r, c.record = some r ∧ r.transactionHash = some hash ∧ r.AfterFence
  flight : ∀ r, c.record = some r → r.state.inFlight → c.fence.isSome
  failed : c.usage = some .failedBeforeEffect →
    ∃ r, c.record = some r ∧ evmUsageTarget r = .failedBeforeEffect
  released : .released ∈ c.log → c.usage = some .failedBeforeEffect
  logged : ∀ hash, .fenced hash ∈ c.log ↔ c.fence = some hash
  sends : SendsFenced keccak c.log

structure TransferInv (keccak : Keccak) (c : TransferCore) : Prop where
  terminal : ∀ r, c.record = some r → r.terminal = r.state.localDirectTerminal
  stored : c.record = (storedRecords c.log).head?
  history : .leftBehind ∉ c.log → AppendOnly (storedRecords c.log)
  charged : .observedUnfenced ∉ c.log → Charged keccak c

def transferDiscipline (keccak : Keccak) : Discipline TransferShared Unit :=
  undisturbed fun s => TransferInv keccak s.core

/-- The fence may hold the hash of `operation`, and nothing else. -/
def Covered (operation : OperationRecord) (c : TransferCore) : Prop :=
  .observedUnfenced ∈ c.log ∨
    ∃ hash, c.fence = some hash ∧ operation.transactionHash = some hash

/-- `operation` is the stored record, or the one a dispatch was given. -/
def Site (operation : OperationRecord) (c : TransferCore) : Prop :=
  c.record = some operation ∨
    (Covered operation c ∧ (operation.evm.isSome ∨ .leftBehind ∈ c.log))

structure Fits (c : TransferCore) (next : OperationRecord) : Prop where
  bound : ∀ hash, c.fence = some hash → next.transactionHash = some hash ∧ next.AfterFence
  flight : next.state.inFlight → c.fence.isSome
  failed : c.usage = some .failedBeforeEffect → evmUsageTarget next = .failedBeforeEffect

/-- What a write of `next` needs. -/
structure MayStore (next : OperationRecord) (c : TransferCore) : Prop where
  terminal : next.terminal = next.state.localDirectTerminal
  extends' : ∀ previous, c.record = some previous → next.evm.isNone →
    .leftBehind ∈ c.log ∨ Extends previous next
  fits : .observedUnfenced ∈ c.log ∨ Fits c next

section Core

variable {keccak : Keccak} {c : TransferCore} {operation next : OperationRecord}

-- A record with one more transition extends one that is not terminal.
theorem extends_append (h : operation.terminal = false) (t : DirectTransition)
    (extra : TransitionExtra) : Extends operation (operation.append t extra) := by
  refine ⟨List.suffix_cons _ _, ?_⟩
  intro hterminal
  rw [h] at hterminal
  cases hterminal

theorem extends_of_write {previous : OperationRecord} (hrecord : c.record = some previous)
    (hallowed : validateEvmOperationWrite next c.record = .ok ())
    (hlegacy : next.evm.isNone → .leftBehind ∈ c.log ∨ Extends previous next) :
    .leftBehind ∈ c.log ∨ Extends previous next := by
  rw [hrecord] at hallowed
  by_cases hnext : next.evm.isNone
  · exact hlegacy hnext
  · right
    apply extends_of_validateEvmOperationWrite _ hallowed
    unfold validateEvmOperationWrite at hallowed
    rw [if_neg (by simp [hnext])] at hallowed
    rcases bind_ok.mp hallowed with ⟨_, _, hwrite⟩
    rcases bind_ok.mp hwrite with ⟨_, _, hcontinuity⟩
    have hguard := (corrupt_guard.mp hcontinuity).1
    rw [not_or] at hguard
    simpa [Option.isSome_iff_ne_none] using hguard.1

-- A durable write of the record.
theorem TransferInv.stores (h : TransferInv keccak c) (hmay : MayStore next c)
    (hallowed : validateEvmOperationWrite next c.record = .ok ()) :
    TransferInv keccak (c.stores next) := by
  refine ⟨?_, rfl, ?_, ?_⟩
  · intro r hr
    cases hr
    exact hmay.terminal
  · intro hleft
    have hleft' : TransferEvent.leftBehind ∉ c.log := fun hm => hleft (List.mem_cons_of_mem _ hm)
    have hold : AppendOnly (storedRecords c.log) := h.history hleft'
    apply List.pairwise_cons.mpr
    refine ⟨?_, hold⟩
    cases hrecords : storedRecords c.log with
    | nil => simp
    | cons previous rest =>
      have hrecord : c.record = some previous := by rw [h.stored, hrecords]; rfl
      have hnext : Extends previous next :=
        (extends_of_write hrecord hallowed (hmay.extends' previous hrecord)).resolve_left hleft'
      rw [hrecords] at hold
      intro older holder
      rcases List.mem_cons.mp holder with rfl | hrest
      · exact hnext
      · exact ((List.pairwise_cons.mp hold).1 older hrest).trans hnext
  · intro hseen
    have hseen' : TransferEvent.observedUnfenced ∉ c.log := fun hm => hseen (List.mem_cons_of_mem _ hm)
    have hcharged := h.charged hseen'
    have hfits : Fits c next := hmay.fits.resolve_left hseen'
    refine ⟨?_, ?_, ?_, ?_, ?_, hcharged.sends⟩
    · intro hash hfence
      exact ⟨next, rfl, hfits.bound hash hfence⟩
    · intro r hr hflight
      cases hr
      exact hfits.flight hflight
    · intro husage
      exact ⟨next, rfl, hfits.failed husage⟩
    · intro hreleased
      exact hcharged.released (by simpa [TransferCore.stores] using hreleased)
    · intro hash
      show TransferEvent.fenced hash ∈ .stored next :: c.log ↔ c.fence = some hash
      rw [← hcharged.logged hash]
      simp

-- The create-only fence of the stored record's own hash.
theorem TransferInv.fences {hash : Hex} (h : TransferInv keccak c)
    (hrecord : c.record = some operation) (hhash : operation.transactionHash = some hash)
    (hstate : operation.state = .signedNotSubmitted) (hnone : c.fence = none) :
    TransferInv keccak (c.fences hash) := by
  refine ⟨h.terminal, ?_, ?_, ?_⟩
  · exact h.stored
  · intro hleft
    exact h.history fun hm => hleft (List.mem_cons_of_mem _ hm)
  · intro hseen
    have hcharged := h.charged fun hm => hseen (List.mem_cons_of_mem _ hm)
    refine ⟨?_, fun _ _ _ => rfl, hcharged.failed, ?_, ?_, hcharged.sends⟩
    · intro hash' hfence
      cases hfence
      refine ⟨operation, hrecord, hhash, ?_, ?_, ?_⟩
      · rw [hstate]; decide
      · rw [hstate]; decide
      · simp [evmUsageTarget, hstate]
    · intro hreleased
      exact hcharged.released (by simpa [TransferCore.fences] using hreleased)
    · intro hash'
      have hold := hcharged.logged hash'
      rw [hnone] at hold
      simp only [TransferCore.fences, List.mem_cons, TransferEvent.fenced.injEq, hold, Option.some.injEq]
      constructor
      · rintro (heq | hfalse)
        · exact heq.symm
        · cases hfalse
      · exact fun heq => Or.inl heq.symm

theorem TransferInv.marks {e : TransferEvent} (h : TransferInv keccak c)
    (hstored : ∀ r, e ≠ .stored r) (hreleased : e ≠ .released) (hfenced : ∀ hash, e ≠ .fenced hash)
    (hsent : ∀ raw, e = .sent raw → .observedUnfenced ∈ c.log ∨ c.fence = some (keccak raw)) :
    TransferInv keccak (c.marks e) := by
  have hrecords : storedRecords (e :: c.log) = storedRecords c.log := by
    cases e with
    | stored r => exact absurd rfl (hstored r)
    | _ => rfl
  refine ⟨h.terminal, ?_, ?_, ?_⟩
  · show c.record = (storedRecords (e :: c.log)).head?
    rw [hrecords]
    exact h.stored
  · intro hleft
    show AppendOnly (storedRecords (e :: c.log))
    rw [hrecords]
    exact h.history fun hm => hleft (List.mem_cons_of_mem _ hm)
  · intro hseen
    have hseen' : TransferEvent.observedUnfenced ∉ c.log := fun hm => hseen (List.mem_cons_of_mem _ hm)
    have hcharged := h.charged hseen'
    refine ⟨hcharged.bound, hcharged.flight, hcharged.failed, ?_, ?_, ?_⟩
    · intro hmem
      rcases List.mem_cons.mp hmem with heq | hmem
      · exact absurd heq.symm hreleased
      · exact hcharged.released hmem
    · intro hash
      show TransferEvent.fenced hash ∈ e :: c.log ↔ c.fence = some hash
      rw [← hcharged.logged hash, List.mem_cons]
      constructor
      · rintro (heq | hmem)
        · exact absurd heq.symm (hfenced hash)
        · exact hmem
      · exact Or.inr
    · show SendsFenced keccak (e :: c.log)
      cases e with
      | sent raw =>
        have hfence : c.fence = some (keccak raw) := (hsent raw rfl).resolve_left hseen'
        exact ⟨(hcharged.logged _).mpr hfence, hcharged.sends⟩
      | _ => exact hcharged.sends

theorem TransferInv.catches (h : TransferInv keccak c) : TransferInv keccak (c.catches operation) := by
  unfold TransferCore.catches
  split
  · exact h.marks (by simp) (by simp) (by simp) (by simp)
  · exact h

-- A move of the ledger; only a record that releases its hold releases it.
theorem TransferInv.moves {current target : AssetUsageState} (h : TransferInv keccak c)
    (hcurrent : c.usage = some current) (hallowed : target ∈ allowedTransitions current)
    (hreleases : target = .failedBeforeEffect →
      ∃ r, c.record = some r ∧ evmUsageTarget r = .failedBeforeEffect) :
    TransferInv keccak (c.moves target) := by
  have hlast : current ≠ .failedBeforeEffect := by
    intro heq
    rw [heq] at hallowed
    simp [allowedTransitions] at hallowed
  have hmem : ∀ e : TransferEvent, e ≠ .released → (e ∈ (c.moves target).log ↔ e ∈ c.log) := by
    intro e he
    unfold TransferCore.moves
    dsimp only
    split
    · simp [he]
    · exact Iff.rfl
  have hrecords : storedRecords (c.moves target).log = storedRecords c.log := by
    unfold TransferCore.moves
    dsimp only
    split
    · rfl
    · rfl
  refine ⟨h.terminal, ?_, ?_, ?_⟩
  · rw [hrecords]
    exact h.stored
  · intro hleft
    rw [hrecords]
    exact h.history fun hm => hleft ((hmem _ (by simp)).mpr hm)
  · intro hseen
    have hcharged := h.charged fun hm => hseen ((hmem _ (by simp)).mpr hm)
    refine ⟨hcharged.bound, hcharged.flight, ?_, ?_, ?_, ?_⟩
    · intro husage
      exact hreleases (Option.some.inj husage)
    · intro hreleased
      show some target = some AssetUsageState.failedBeforeEffect
      by_cases htarget : target = .failedBeforeEffect
      · rw [htarget]
      · have hold : TransferEvent.released ∈ c.log := by
          simpa [TransferCore.moves, htarget] using hreleased
        have husage := hcharged.released hold
        rw [hcurrent] at husage
        exact absurd (Option.some.inj husage) hlast
    · intro hash
      rw [hmem _ (by simp)]
      exact hcharged.logged hash
    · show SendsFenced keccak (c.moves target).log
      unfold TransferCore.moves
      dsimp only
      split
      · exact hcharged.sends
      · exact hcharged.sends

theorem TransferInv.reserves (h : TransferInv keccak c)
    (hfree : c.usage = none ∨ c.usage = some .reserved) : TransferInv keccak c.reserves := by
  refine ⟨h.terminal, h.stored, h.history, ?_⟩
  intro hseen
  have hcharged := h.charged hseen
  refine ⟨hcharged.bound, hcharged.flight, ?_, ?_, hcharged.logged, hcharged.sends⟩
  · intro husage
    cases husage
  · intro hreleased
    have husage := hcharged.released hreleased
    rcases hfree with hfree | hfree <;> rw [hfree] at husage <;> cases husage

/-! ## What a write may be made from -/

-- A release before effect is terminal.
theorem terminal_of_failed (h : operation.terminal = operation.state.localDirectTerminal)
    (hfailed : evmUsageTarget operation = .failedBeforeEffect) : operation.terminal = true := by
  rw [h]
  unfold evmUsageTarget at hfailed
  revert hfailed
  cases operation.state <;> simp [OperationState.localDirectTerminal]

-- A stored record that is in flight is covered.
theorem covered_of_flight (h : TransferInv keccak c) (hrecord : c.record = some operation)
    (hflight : operation.state.inFlight) : Covered operation c := by
  by_cases hseen : .observedUnfenced ∈ c.log
  · exact Or.inl hseen
  · right
    have hcharged := h.charged hseen
    rcases Option.isSome_iff_exists.mp (hcharged.flight operation hrecord hflight) with ⟨hash, hfence⟩
    rcases hcharged.bound hash hfence with ⟨r, hr, hhash, _⟩
    rw [hrecord] at hr
    cases hr
    exact ⟨hash, hfence, hhash⟩

-- From a covered record: the same hash, past the fence.
theorem fits_of_covered (h : TransferInv keccak c) (hcovered : Covered operation c)
    (hhash : next.transactionHash = operation.transactionHash) (hafter : next.AfterFence) :
    .observedUnfenced ∈ c.log ∨ Fits c next := by
  by_cases hseen : .observedUnfenced ∈ c.log
  · exact Or.inl hseen
  · right
    rcases hcovered.resolve_left hseen with ⟨hash, hfence, hsame⟩
    refine ⟨?_, ?_, ?_⟩
    · intro hash' hfence'
      rw [hfence] at hfence'
      cases hfence'
      exact ⟨hhash.trans hsame, hafter⟩
    · intro _
      rw [hfence]
      rfl
    · intro husage
      rcases (h.charged hseen).failed husage with ⟨r, hr, hfailed⟩
      rcases (h.charged hseen).bound hash hfence with ⟨r', hr', _, hafter'⟩
      rw [hr] at hr'
      cases hr'
      exact absurd hfailed hafter'.2.2

-- From a record that has no fence: nothing is in flight yet.
theorem fits_of_unfenced (h : TransferInv keccak c) (hrecord : c.record = some operation)
    (hopen : operation.terminal = false) (hnone : c.fence = none)
    (hflight : next.state.inFlight = false) : .observedUnfenced ∈ c.log ∨ Fits c next := by
  by_cases hseen : .observedUnfenced ∈ c.log
  · exact Or.inl hseen
  · right
    refine ⟨?_, ?_, ?_⟩
    · intro hash hfence
      rw [hnone] at hfence
      cases hfence
    · intro hf
      rw [hflight] at hf
      cases hf
    · intro husage
      rcases (h.charged hseen).failed husage with ⟨r, hr, hfailed⟩
      rw [hrecord] at hr
      cases hr
      rw [terminal_of_failed (h.terminal operation hrecord) hfailed] at hopen
      cases hopen

-- A record before its signature has no fence.
theorem fits_of_early (h : TransferInv keccak c) (hrecord : c.record = some operation)
    (hopen : operation.terminal = false)
    (hearly : operation.state = .awaitingApproval ∨ operation.state = .started)
    (hflight : next.state.inFlight = false) : .observedUnfenced ∈ c.log ∨ Fits c next := by
  by_cases hseen : .observedUnfenced ∈ c.log
  · exact Or.inl hseen
  · apply fits_of_unfenced h hrecord hopen _ hflight
    by_contra hsome
    rcases Option.ne_none_iff_exists'.mp hsome with ⟨hash, hfence⟩
    rcases (h.charged hseen).bound hash hfence with ⟨r, hr, _, hafter⟩
    rw [hrecord] at hr
    cases hr
    rcases hearly with hearly | hearly
    · exact hafter.1 hearly
    · exact hafter.2.1 hearly

-- One more transition of the site's record.
theorem mayStore_append {t : DirectTransition} {extra : TransitionExtra} (hsite : Site operation c)
    (hopen : operation.terminal = false) (hterminal : t.terminal = t.state.localDirectTerminal)
    (hfits : .observedUnfenced ∈ c.log ∨ Fits c (operation.append t extra)) :
    MayStore (operation.append t extra) c := by
  refine ⟨hterminal, ?_, hfits⟩
  intro previous hprevious hlegacy
  rcases hsite with hrecord | ⟨_, hevm | hleft⟩
  · rw [hrecord] at hprevious
    cases hprevious
    exact Or.inr (extends_append hopen t extra)
  · have hnone : operation.evm.isNone := hlegacy
    rw [Option.isNone_iff_eq_none] at hnone
    rw [hnone] at hevm
    cases hevm
  · exact Or.inl hleft

end Core
end PaymentNode
