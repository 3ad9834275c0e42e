import Mathlib.Data.Nat.Notation
import PaymentNode.Basic

/-!
# Jupiter swap — the record and the evidence beside it

The swap record with its transitions (`swap/model.ts`, `swap/transitions.ts`) and the durable evidence of the
Jupiter V1 lane (`v1-effects.ts`): the approved fresh message, the execution binding, the signature marker and the
send claim.  A digest of a record is compared as the record it digests; instants are milliseconds.
-/

namespace PaymentNode.Jupiter

inductive SwapState
  | quoted
  | prepared
  | awaitingApproval
  | reserved
  | submitting
  | submitted
  | unknownFinality
  | finalized
  | failedBeforeEffect
  | failedConfirmedRevert
  | expiredUnlanded
  | abandonedUnknown
deriving DecidableEq

/-- The transitions of `ALLOWED`. -/
def SwapState.allowed : SwapState → List SwapState
  | quoted => [prepared, failedBeforeEffect]
  | prepared => [awaitingApproval, failedBeforeEffect]
  | awaitingApproval => [reserved, failedBeforeEffect]
  | reserved => [submitting, failedBeforeEffect]
  | submitting => [submitted, unknownFinality]
  | submitted => [unknownFinality, finalized, failedConfirmedRevert]
  | unknownFinality => [finalized, failedConfirmedRevert, expiredUnlanded, abandonedUnknown]
  | _ => []

def SwapState.terminal (state : SwapState) : Bool :=
  state ∈ [.finalized, .failedBeforeEffect, .failedConfirmedRevert, .expiredUnlanded, .abandonedUnknown]

abbrev Signature := ℕ

/-- A compiled message: what it does, and the blockhash that bounds its life. -/
structure Message where
  effects : ℕ
  blockhash : ℕ
deriving DecidableEq

def jupiterV1SameMessageExceptLifetime (quoted fresh : Message) : Bool := quoted.effects = fresh.effects

structure SubmissionMarker where
  markedAt : ℕ
  revision : ℕ
deriving DecidableEq

structure ReceiptEconomics where
  inputAtomic : ℕ
  outputAtomic : ℕ
  networkFeeAtomic : ℕ
  nativeDebitAtomic : ℕ
deriving DecidableEq

structure ReceiptProof where
  receiptHash : ℕ
  transactionHash : Signature
  observedAt : ℕ
  finalized : Bool
  economics : ReceiptEconomics
deriving DecidableEq

/-- The bound fields of a proof that the marked effect cannot land. -/
structure UnlandedProof where
  transactionId : Option Signature
  lastValidBlockHeight : ℕ
  observedFinalizedBlockHeight : ℕ
deriving DecidableEq

/-- What a failure hash is the hash of. -/
inductive FailureProof
  | unsent
  | unlanded (transactionId : Option Signature) (bound : ℕ)
deriving DecidableEq

/-- One revision of a swap; its integrity hash names its content. -/
structure SwapRecord where
  state : SwapState
  revision : ℕ
  updatedAt : ℕ
  effectiveAt : ℕ
  expiresAt : ℕ
  minimumOutputAtomic : ℕ
  policyDigest : ℕ
  submissionMarker : Option SubmissionMarker
  receiptProof : Option ReceiptProof
  failureProof : Option FailureProof
deriving DecidableEq

/-- What a transition adds to the record. -/
structure TransitionPatch where
  submissionMarker : Option SubmissionMarker
  receiptProof : Option ReceiptProof
  failureProof : Option FailureProof
deriving DecidableEq

def TransitionPatch.none : TransitionPatch := ⟨.none, .none, .none⟩

namespace SwapRecord

/-- `transitionSwapOperation`, for evidence of the right kind. -/
def transition (op : SwapRecord) (state : SwapState) (patch : TransitionPatch) (now : ℕ) : Result SwapRecord :=
  if state ∉ op.state.allowed then blocked "Swap operation transition is invalid."
  else if now < op.updatedAt then blocked "Swap operation transition cannot move backward in time."
  else .ok { op with
    state := state
    revision := op.revision + 1
    updatedAt := now
    submissionMarker := patch.submissionMarker <|> op.submissionMarker
    receiptProof := patch.receiptProof <|> op.receiptProof
    failureProof := patch.failureProof <|> op.failureProof }

/-- A quote is live from its effective instant to its expiry. -/
def live (op : SwapRecord) (now : ℕ) : Bool := op.effectiveAt ≤ now && now < op.expiresAt

def markSubmitting (op : SwapRecord) (now : ℕ) : Result SwapRecord :=
  if op.state ≠ .reserved then blocked "Swap is not reserved for submission."
  else if ¬ op.live now then blocked "Swap quote is expired or not yet effective."
  else op.transition .submitting ⟨some ⟨now, op.revision⟩, none, none⟩ now

/-- The transition of `recordPossibleSend`. -/
def possibleSend (op : SwapRecord) (state : SwapState) (now : ℕ) : Result SwapRecord :=
  op.transition state .none now

/-- The transition of `finalize`. -/
def finalize (op : SwapRecord) (now : ℕ) (receipt : ReceiptProof) : Result SwapRecord :=
  op.transition .finalized ⟨none, some receipt, none⟩ now

/-- The transition of `expireUnlanded`, which takes no record with a receipt. -/
def expire (op : SwapRecord) (now : ℕ) (proof : UnlandedProof) : Result SwapRecord :=
  if op.receiptProof.isSome ∨ op.submissionMarker = none then
    invalid "This terminal swap requires its proof or acknowledgement digest and the lease bound to it."
  else op.transition .expiredUnlanded ⟨none, none, some (.unlanded proof.transactionId proof.lastValidBlockHeight)⟩ now

/-- The transition of `failBeforeEffect`. -/
def failBeforeEffect (op : SwapRecord) (now : ℕ) : Result SwapRecord :=
  op.transition .failedBeforeEffect ⟨none, none, some .unsent⟩ now

end SwapRecord

/-! ## The evidence -/

/-- The material of the saved quote. -/
structure PreparedMaterial where
  message : Message
  lastValidBlockHeight : ℕ
  maximumNativeExpenseLamports : ℕ
deriving DecidableEq

/-- The message the owner approves, with its own lifetime. -/
structure FreshMaterial where
  message : Message
  lastValidBlockHeight : ℕ
  maximumNativeExpenseLamports : ℕ
deriving DecidableEq

structure SimulationProof where
  message : Message
  admissionDigest : ℕ
  recipientOutputAtomic : ℕ
  nativeSpendLamports : ℕ
deriving DecidableEq

/-- The owner as the active policy admits it. -/
structure OwnerBinding where
  accountBindingHash : ℕ
  activationDigest : ℕ
deriving DecidableEq

structure ExecutionBinding where
  marker : SubmissionMarker
  material : PreparedMaterial
  message : Message
  accountBindingHash : ℕ
  policyDigest : ℕ
  activationDigest : ℕ
  checkedAt : ℕ
  fresh : FreshMaterial
  freshAdmissionDigest : ℕ
  simulation : SimulationProof
deriving DecidableEq

def evidenceCorrupt {α : Type} : Result α := corrupt "Jupiter V1 durable execution binding or signed message changed."

/-- `validateJupiterV1ExecutionBinding` -/
def ExecutionBinding.binds (b : ExecutionBinding) (op : SwapRecord) (material : PreparedMaterial) : Bool :=
  some b.marker = op.submissionMarker && b.material = material &&
    jupiterV1SameMessageExceptLifetime material.message b.message && b.policyDigest = op.policyDigest &&
      b.marker.markedAt ≤ b.checkedAt && b.checkedAt < op.expiresAt &&
        b.freshAdmissionDigest = b.simulation.admissionDigest && b.simulation.message = b.message &&
          op.minimumOutputAtomic ≤ b.simulation.recipientOutputAtomic &&
            b.simulation.nativeSpendLamports ≤ material.maximumNativeExpenseLamports

/-- `createJupiterV1ExecutionBinding`, for a marked record. -/
def createJupiterV1ExecutionBinding (op : SwapRecord) (material : PreparedMaterial) (admission : OwnerBinding)
    (simulation : SimulationProof) (checkedAt : ℕ) (fresh : FreshMaterial) : Result ExecutionBinding :=
  match op.submissionMarker with
  | none => evidenceCorrupt
  | some marker =>
    let b : ExecutionBinding := ⟨marker, material, fresh.message, admission.accountBindingHash, op.policyDigest,
      admission.activationDigest, checkedAt, fresh, simulation.admissionDigest, simulation⟩
    if ¬ b.binds op material then evidenceCorrupt else .ok b

/-- `JupiterV1SignedMarker` -/
structure SignedMarker where
  marker : SubmissionMarker
  binding : ExecutionBinding
  signature : Signature
deriving DecidableEq

/-- `JupiterV1SendClaim` -/
structure SendClaim where
  marker : SubmissionMarker
  binding : ExecutionBinding
  signature : Signature
  claimedAt : ℕ
deriving DecidableEq

/-- Signed bytes, and the binding they were made for. -/
structure SignedEffect where
  binding : ExecutionBinding
  message : Message
  signature : Signature
deriving DecidableEq

/-- The foreground grant of one approval: what its screen showed. -/
structure ForegroundGrant where
  accountBindingHash : ℕ
  policyDigest : ℕ
  activationDigest : ℕ
  screenHash : ℕ
  message : Message
deriving DecidableEq

/-- `JupiterV1PreconsentProof` -/
structure PreconsentProof where
  material : PreparedMaterial
  fresh : FreshMaterial
  simulation : SimulationProof
deriving DecidableEq

/-- A signed effect that the signer of one process holds. -/
structure SealedEffect where
  binding : ExecutionBinding
  screenHash : ℕ
  effect : SignedEffect
deriving DecidableEq

/-- A finalized receipt that the chain answered for a guarded message. -/
structure FinalizedReceipt where
  signature : Signature
  receiptHash : ℕ
  inputAtomic : ℕ
  recipientOutputAtomic : ℕ
  feeLamports : ℕ
  nativeSpendLamports : ℕ
deriving DecidableEq

end PaymentNode.Jupiter
