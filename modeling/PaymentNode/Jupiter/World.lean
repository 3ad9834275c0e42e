import PaymentNode.Jupiter.Execution
import PaymentNode.Lib.Trace

/-!
# Jupiter world — the durable swap, its history and the chain

What the operations of `Jupiter.Execution` do.  The record, the evidence beside it and the history of everything
that was written, signed, sent or landed are durable; a write that fails may be durable all the same.  Every port
answers anything, also the memory of a process, apart from the reads of the durable stores and of one finalized
view of the chain, which are truthful where they succeed.  `Lawful` says what may come after a history, and
`JupiterInv` is the invariant of every run.
-/

open Guarded

namespace PaymentNode.Jupiter

/-- What happens, newest first. -/
inductive Event
  | wrote (record : SwapRecord)
  | bound (binding : ExecutionBinding)
  | signed (message : Message) (signature : Option Signature)
  | claimed (claim : SendClaim)
  | called (effect : SignedEffect)
  | posted (effect : SignedEffect)
  | landed (signature : Signature) (height : ℕ)
deriving DecidableEq

structure Core where
  record : SwapRecord
  fresh : Option (FreshMaterial × SimulationProof)
  binding : Option ExecutionBinding
  signature : Option SignedMarker
  claim : Option SendClaim
  finalized : ℕ
  log : List Event

namespace Core

/-- An operation with no effect yet. -/
def start (record : SwapRecord) (finalized : ℕ) : Core := ⟨record, none, none, none, none, finalized, [.wrote record]⟩

def wrote (c : Core) (next : SwapRecord) : Core := { c with record := next, log := .wrote next :: c.log }

def saveFresh (c : Core) (fresh : FreshMaterial × SimulationProof) : Core := { c with fresh := some fresh }

def bind (c : Core) (b : ExecutionBinding) : Core := { c with binding := some b, log := .bound b :: c.log }

def saveSignature (c : Core) (marker : SignedMarker) : Core := { c with signature := some marker }

def publishClaim (c : Core) (claim : SendClaim) : Core := { c with claim := some claim, log := .claimed claim :: c.log }

def happened (c : Core) (e : Event) : Core := { c with log := e :: c.log }

def finalize (c : Core) (height : ℕ) : Core := { c with finalized := height }

end Core

/-- A write onto what must be there: one that fails may be durable all the same. -/
def Writes (free : Prop) (c saved : Core) (answer : Result Unit) (c' : Core) : Prop :=
  (free ∧ c' = saved) ∨ (answer ≠ .ok () ∧ c' = c)

/-- A create-only write that accepts its own content again. -/
def Puts {α : Type} (slot : Option α) (value : α) (c saved : Core) (answer : Result Unit) (c' : Core) : Prop :=
  Writes (slot = none) c saved answer c' ∨ (slot = some value ∧ c' = c)

/-- A read that is truthful where it succeeds. -/
def Truthful {α : Type} (truth : α) (answer : Result α) : Prop := ∀ found, answer = .ok found → found = truth

/-- A posted transaction can be in a block that is not finalized yet, up to the saved height of its message. -/
def Lands (c : Core) (signature : Signature) (height : ℕ) : Prop :=
  c.finalized < height ∧
    ∃ e, .posted e ∈ c.log ∧ e.signature = signature ∧ height ≤ e.binding.fresh.lastValidBlockHeight

/-- What an operation with its answer makes of the durable state. -/
def exec (_ : ℕ) (c : Core) : (o : JupiterOp) → o.Answer → Core → Prop
  | .loadAny, answer, c' => c' = c ∧ Truthful (some c.record) answer
  | .loadFresh, answer, c' => c' = c ∧ Truthful c.fresh answer
  | .loadBinding, answer, c' => c' = c ∧ Truthful c.binding answer
  | .loadSignature, answer, c' => c' = c ∧ Truthful c.signature answer
  | .loadClaim, answer, c' => c' = c ∧ Truthful c.claim answer
  | .replace expected next, answer, c' => Writes (c.record = expected) c (c.wrote next) answer c'
  | .saveFresh fresh simulation, answer, c' => Puts c.fresh (fresh, simulation) c (c.saveFresh (fresh, simulation)) answer c'
  | .saveBinding b, answer, c' => Puts c.binding b c (c.bind b) answer c'
  | .saveSignature marker, answer, c' => Puts c.signature marker c (c.saveSignature marker) answer c'
  | .createClaim claim, answer, c' => Writes (c.claim = none) c (c.publishClaim claim) answer c'
  | .nativeSign message, answer, c' => c' = c.happened (.signed message answer.toOption)
  | .startSend effect, _, c' => c' = c.happened (.called effect)
  | .post effect, _, c' => c' = c.happened (.posted effect)
  | .verify effect b, answer, c' => c' = c ∧ (answer = .ok () → effect.binding = b ∧ effect.message = b.message)
  | .finalizedHeight, answer, c' => c' = c ∧ ∀ height, answer = .ok height → height ≤ c.finalized
  | .signatureStatus signature, answer, c' =>
    c' = c ∧ (answer = .ok false → ∀ height, .landed signature height ∈ c.log → c.finalized < height)
  | .land signature height, _, c' => c' = c ∨ (Lands c signature height ∧ c' = c.happened (.landed signature height))
  | .finalizeBlock height, _, c' => c' = c ∨ (c.finalized ≤ height ∧ c' = c.finalize height)
  | _, _, c' => c' = c

def world : Guarded.World JupiterOp JupiterOp.Answer Core ℕ := ⟨exec, fun _ c c' => c' = c⟩

/-! ## Histories -/

/-- The marker is durable from here on. -/
def SwapState.marked (state : SwapState) : Bool :=
  state ∈ [.submitting, .submitted, .unknownFinality, .finalized, .failedConfirmedRevert, .expiredUnlanded,
    .abandonedUnknown]

/-- The record has left `submitting`. -/
def SwapState.passed (state : SwapState) : Bool := state.marked && state ≠ .submitting

/-- The record of a history. -/
def current : List Event → Option SwapRecord
  | [] => none
  | .wrote record :: _ => some record
  | _ :: log => current log

/-- The record of a history is `submitting`, and never left it. -/
def Submitting (log : List Event) : Prop :=
  (∃ record, current log = some record ∧ record.state = .submitting) ∧
    ∀ record, .wrote record ∈ log → record.state.passed = false

/-- What may happen after a history. -/
def Lawful (older : List Event) : Event → Prop
  | .wrote record =>
    (record.state = .submitting → ∀ old, .wrote old ∈ older → old.state.marked = false) ∧
      (record.state = .expiredUnlanded → ∀ signature height, .landed signature height ∉ older)
  | .bound _ => ∀ b, .bound b ∉ older
  | .signed message _ =>
    Submitting older ∧ (∀ other signature, .signed other signature ∉ older) ∧
      ∃ b, .bound b ∈ older ∧ message = b.message
  | .claimed claim =>
    (∀ other, .claimed other ∉ older) ∧ ∃ message, .signed message (some claim.signature) ∈ older
  | .called effect =>
    Submitting older ∧ (∀ other, .called other ∉ older) ∧ .signed effect.message (some effect.signature) ∈ older ∧
      ∃ claim, .claimed claim ∈ older ∧ claim.signature = effect.signature
  | .posted effect => Submitting older ∧ (∀ other, .posted other ∉ older) ∧ .called effect ∈ older
  | .landed signature _ =>
    (∃ effect, .posted effect ∈ older ∧ effect.signature = signature) ∧
      ∀ record, .wrote record ∈ older → record.state ≠ .expiredUnlanded

/-- Nothing landed, and nothing that was sent can land any more. -/
def Dead (c : Core) : Prop :=
  (∀ signature height, .landed signature height ∉ c.log) ∧
    ∀ effect, .posted effect ∈ c.log → effect.binding.fresh.lastValidBlockHeight < c.finalized

structure JupiterInv (c : Core) : Prop where
  lawful : Trace.LawfulLog Lawful c.log
  current : current c.log = some c.record
  marker : c.record.submissionMarker.isSome = c.record.state.marked
  unmarked : c.record.state.marked = false → c.fresh = none ∧ c.binding = none ∧ c.signature = none ∧ c.claim = none
  marks : ∀ record, .wrote record ∈ c.log → record.state.marked = true → c.record.state.marked = true
  passes : ∀ record, .wrote record ∈ c.log → record.state.passed = true → c.record.state.passed = true
  bound : ∀ b, .bound b ∈ c.log ↔ c.binding = some b
  signed : ∀ message signature, .signed message signature ∈ c.log → ∃ b, c.binding = some b ∧ message = b.message
  signature : ∀ marker, c.signature = some marker →
    c.binding = some marker.binding ∧ .signed marker.binding.message (some marker.signature) ∈ c.log
  claim : ∀ claim, .claimed claim ∈ c.log ↔ c.claim = some claim
  claimed : ∀ claim, c.claim = some claim → ∃ marker, c.signature = some marker ∧ claim.signature = marker.signature
  called : ∀ effect, .called effect ∈ c.log →
    c.claim.isSome ∧ c.binding = some effect.binding ∧
      ∃ marker, c.signature = some marker ∧ marker.signature = effect.signature
  posted : ∀ effect, .posted effect ∈ c.log → .called effect ∈ c.log
  landed : ∀ signature height, .landed signature height ∈ c.log →
    ∃ effect, .posted effect ∈ c.log ∧ effect.signature = signature ∧
      height ≤ effect.binding.fresh.lastValidBlockHeight
  expired : ∀ record, .wrote record ∈ c.log → record.state = .expiredUnlanded → Dead c

/-! ## What the lock guards, and what the others may do -/

/-- An event that only the holder of the lock makes. -/
def Event.guarded : Event → Bool
  | .wrote _ | .landed _ _ => false
  | _ => true

/-- The evidence and its history, and the record while it is `submitting`. -/
structure Evidence where
  fresh : Option (FreshMaterial × SimulationProof)
  binding : Option ExecutionBinding
  signature : Option SignedMarker
  claim : Option SendClaim
  events : List Event
  live : Option SwapRecord

def Core.evidence (c : Core) : Evidence where
  fresh := c.fresh
  binding := c.binding
  signature := c.signature
  claim := c.claim
  events := c.log.filter Event.guarded
  live := if c.record.state = .submitting then some c.record else none

/-- What has passed stays so with its evidence, and the dead stay dead. -/
structure Rely (c c' : Core) : Prop where
  passed : c.record.state.passed = true → c'.record.state.passed = true ∧ c'.evidence = c.evidence
  dead : c.record.state.passed = true → Dead c → Dead c'
  finalized : c.finalized ≤ c'.finalized

theorem Rely.refl (c : Core) : Rely c c := ⟨fun h => ⟨h, rfl⟩, fun _ h => h, le_refl _⟩

def law : Law Core ℕ Evidence := ⟨JupiterInv, fun _ => Rely, Core.evidence, fun _ => Rely.refl⟩

/-! ## States and transitions -/

theorem passed_marked {state : SwapState} (h : state.passed = true) : state.marked = true := by
  unfold SwapState.passed at h
  simp only [Bool.and_eq_true] at h
  exact h.1

theorem allowed_passed {state next : SwapState} (h : next ∈ state.allowed) (hmarked : state.marked = true) :
    next.passed = true := by
  cases state <;> cases next <;> first | rfl | (exfalso; revert h hmarked; decide)

-- A transition of the model, with what it leaves of the marker.
theorem transition_ok {op next : SwapRecord} {state : SwapState} {patch : TransitionPatch} {now : ℕ}
    (h : op.transition state patch now = .ok next) :
    state ∈ op.state.allowed ∧ next.state = state ∧
      next.submissionMarker = (patch.submissionMarker <|> op.submissionMarker) := by
  unfold SwapRecord.transition at h
  split at h
  · cases h
  · rename_i hallowed
    split at h
    · cases h
    · cases h
      exact ⟨not_not.mp hallowed, rfl, rfl⟩

theorem markSubmitting_ok {op next : SwapRecord} {now : ℕ} (h : op.markSubmitting now = .ok next) :
    op.state = .reserved ∧ next.state = .submitting ∧ next.submissionMarker = some ⟨now, op.revision⟩ := by
  unfold SwapRecord.markSubmitting at h
  split at h
  · cases h
  · rename_i hreserved
    split at h
    · cases h
    · rcases transition_ok h with ⟨_, hstate, hmarker⟩
      exact ⟨not_not.mp hreserved, hstate, hmarker⟩

end PaymentNode.Jupiter
