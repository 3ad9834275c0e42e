import PaymentNode.Lib.Prog
import PaymentNode.Rail.Operation

/-!
# Lifecycle — approve and resume of a direct-rail operation, as programs

The two entry points and everything they call, step by step: the generic path, which holds the money locks
from load to last write, and the local Solana path, which holds a claim lock and takes the money locks for
short phases around its RPC reads and around the send.  Every lock, record read, record write and send is one
operation of its own; what the chain, the custody, the owner, the policies, the usage ledger and the claim
file answer is asked as a question with any answer.
-/

namespace PaymentNode

structure RailSignedEffect where
  /-- The effect names this operation and fingerprint, and its payload hashes to `rawPayloadHash`. -/
  bound : Bool
  transactionId : String
  rawPayloadHash : String
deriving DecidableEq, Repr

inductive RailInspection
  | pending
  | final (status : RailState) (evidence : RailFinalEvidence)
deriving DecidableEq, Repr

/-- The questions a call asks of everything but its own record. -/
inductive RailAsk
  | now
  | providerAtomic
  | foregroundApproval
  | revalidate
  | approve
  | assertCurrentRailPolicy
  | chainPolicy
  | bindSend
  | reserve
  | followUsage
  | sign
  | sealRevalidated
  | recoverEffect
  | inspect
  | claimMatches
  | createClaim
  | removeClaim
  | ownerUnchanged

def RailAsk.Answer : RailAsk → Type
  | now => ℤ
  | providerAtomic | ownerUnchanged => Bool
  | claimMatches => Result Bool
  | bindSend => Result (Option String)
  | reserve => Result String
  | sign | sealRevalidated => Result RailSignedEffect
  | recoverEffect => Result (Option RailSignedEffect)
  | inspect => Option RailInspection
  | foregroundApproval | revalidate | approve | assertCurrentRailPolicy | chainPolicy | followUsage
  | createClaim | removeClaim => Result Unit

inductive RailOp
  | lockMoney
  | unlockMoney
  | lockClaim
  | unlockClaim
  | load
  | persist (next : RailOperationRecord)
  | submit (operation : RailOperationRecord) (effect : Option RailSignedEffect)
  | ask (q : RailAsk)

def RailOp.Answer : RailOp → Type
  | lockMoney | lockClaim => Result Unit
  | unlockMoney | unlockClaim => Unit
  | load => Result RailOperationRecord
  | persist _ => Result Unit
  | submit _ _ => Result String
  | ask q => q.Answer

abbrev RailProg (α : Type) := Prog RailOp RailOp.Answer ApnError α

namespace RailProg

def lift {α : Type} : Result α → RailProg α
  | .ok a => .ret a
  | .error e => .fail e

def ask (q : RailAsk) : RailProg q.Answer := Prog.perform (RailOp.ask q)

/-- A question whose refusal is thrown. -/
def call {α : Type} (q : RailAsk) (h : q.Answer = Result α) : RailProg α :=
  (ask q).bind fun answer => lift (h ▸ answer)

def load : RailProg RailOperationRecord := (Prog.perform RailOp.load).bind lift

def persist (next : RailOperationRecord) : RailProg Unit :=
  (Prog.perform (RailOp.persist next)).bind lift

def withMoneyLocks {α : Type} (x : RailProg α) : RailProg α :=
  ((Prog.perform RailOp.lockMoney).bind lift).bind fun _ =>
    x.finally' (Prog.perform RailOp.unlockMoney)

def withClaimLock {α : Type} (x : RailProg α) : RailProg α :=
  ((Prog.perform RailOp.lockClaim).bind lift).bind fun _ =>
    x.finally' (Prog.perform RailOp.unlockClaim)

def revalidate : RailProg Unit := call .revalidate rfl

def assertCurrentRailPolicy : RailProg Unit := call .assertCurrentRailPolicy rfl

def followUsage : RailProg Unit := call .followUsage rfl

def recoverEffect : RailProg (Option RailSignedEffect) := call .recoverEffect rfl

def removeClaim : RailProg Unit := call .removeClaim rfl

end RailProg

open RailProg

/-- A transition with its state and reason, and nothing else bound. -/
def toState (state : RailState) (reason : String) : RailTransitionInput :=
  ⟨state, 0, reason, none, none, none, none, none⟩

def withEffect (input : RailTransitionInput) (effect : RailSignedEffect) : RailTransitionInput :=
  { input with transactionId := some effect.transactionId, rawPayloadHash := some effect.rawPayloadHash }

variable (operation : RailOperationRecord)

/-- The record is written first; the ledger follows it. -/
def move (input : RailTransitionInput) :
    RailProg RailOperationRecord := do
  let at' ← ask .now
  let next ← lift (transitionRail operation { input with at' := at' })
  persist next
  followUsage
  return next

/-- Refusals that end an operation which was never sent. -/
def failBefore {α : Type} (operation : RailOperationRecord) (reason : String) (error : ApnError) :
    RailProg α := do
  let _ ← move operation (toState .failedBeforeEffect reason)
  Prog.fail error

/-- Expiry, funding, fee, owner-policy or custody refusals prove the frozen effect must not be sent. -/
def railEffectProvenUnsendable (error : ApnError) : Bool :=
  match error.code with
  | .reprepareRequired | .feeBudgetExceeded | .insufficientGas | .insufficientAsset | .profileDrift
  | .walletMismatch | .allowlistRefused | .operationBlocked => true
  | _ => false

def assertEffect (effect : RailSignedEffect) : Result Unit :=
  if ¬ effect.bound ∨
      (operation.latest.transactionId.isSome ∧
        operation.latest.transactionId ≠ some effect.transactionId) ∨
      (operation.latest.rawPayloadHash.isSome ∧
        operation.latest.rawPayloadHash ≠ some effect.rawPayloadHash) then
    corrupt "The direct-rail effect or operation binding is invalid."
  else .ok ()

/-- A record prepared before the owner allowlist gate carries no binding. -/
def bindingMissing : ApnError where
  code := .allowlistRefused
  message := "This transfer was prepared before the owner allowlist gate; prepare a new transfer."

def reserveUsage : RailProg String := do
  (call .chainPolicy rfl).handle fun error =>
    failBefore operation "chain_policy_refused_at_approval" error
  (if operation.allowlist.isNone then
      Prog.fail bindingMissing
    else call .reserve rfl).handle fun error =>
      failBefore operation "allowlist_refused_at_approval" error

def observed (inspection : Option RailInspection) : Option (RailState × RailFinalEvidence) :=
  match inspection with
  | some (.final status evidence) => some (status, evidence)
  | some .pending | none => none

def finalReason (status : RailState) : String :=
  if status = .completed then "exact_finalized_transfer_verified"
  else "exact_finalized_revert_verified"

/-- The chain is only read for an operation with a transaction id. -/
def observation : RailProg (Option (RailState × RailFinalEvidence)) :=
  if operation.latest.transactionId.isNone then Prog.ret none
  else (ask .inspect).bind fun answer => Prog.ret (observed answer)

/-- Observation only: a finalized proof is the one thing it writes. -/
def inspect : RailProg RailOperationRecord := do
  let found ← observation operation
  match found with
  | none => return operation
  | some (status, evidence) =>
    move operation { toState status (finalReason status) with evidence := some evidence }

/-- The intent is written outside the catch: no send follows a failed write. -/
def submit (operation : RailOperationRecord) (effect : Option RailSignedEffect)
    (allowlistLease : Option String) : RailProg RailOperationRecord := do
  let operation ← move operation
    { toState .submitting "submission_intent_persisted" with allowlistLease := allowlistLease }
  let answer ← Prog.perform (RailOp.submit operation effect)
  match answer with
  | .error _ => move operation (toState .unknownFinality "submission_outcome_unknown")
  | .ok transactionId =>
    if operation.latest.transactionId.isSome ∧ operation.latest.transactionId ≠ some transactionId then
      move operation (toState .unknownFinality "submission_outcome_unknown")
    else
      let operation ← move operation
        { toState .submittedPending "submission_identifier_bound" with
          transactionId := some transactionId }
      inspect operation

/-- The first send of a never-sent signature. -/
def firstLocalSubmit (effect : RailSignedEffect) (sealedNow : Bool) :
    RailProg RailOperationRecord := do
  let check : RailProg Unit := if sealedNow then assertCurrentRailPolicy else revalidate
  let ended ← (check.bind fun _ => Prog.ret none).handle fun error =>
    if railEffectProvenUnsendable error then
      (move operation
        (toState .failedBeforeEffect "never_submitted_frozen_effect_no_longer_valid")).bind
        fun ended => Prog.ret (some ended)
    else Prog.fail error
  match ended with
  | some ended => return ended
  | none => submit operation (some effect) none

def finishLocalApproval : RailProg RailOperationRecord := do
  let effect ← (call .sign rfl).handle fun error => do
    let recovered ← recoverEffect
    match recovered with
    | none => failBefore operation "custody_proved_no_sealed_effect" error
    | some _ => Prog.fail error
  lift (assertEffect operation effect)
  let operation ← move operation
    (withEffect (toState .signedNotSubmitted "encrypted_effect_bound") effect)
  firstLocalSubmit operation effect true

/-- `approve` on the generic path, from load to last write under the money locks. -/
def approveLocked : RailProg RailOperationRecord := withMoneyLocks do
  let operation ← load
  followUsage
  if operation.terminal then return operation
  else if operation.state ≠ .awaitingApproval then
    lift (blocked "The operation has already entered execution; use operation resume.")
  else
    call .foregroundApproval rfl
    (do
      if operation.allowlist.isNone then
        Prog.fail bindingMissing
      else
        revalidate
        call .approve rfl
        revalidate : RailProg Unit).handle fun error =>
          failBefore operation "approval_or_pre_effect_validation_refused" error
    let providerAtomic : Bool ← ask .providerAtomic
    if providerAtomic then
      let lease ← reserveUsage operation
      submit operation none (some lease)
    else
      let send ← (call .bindSend rfl).handle fun error =>
        failBefore operation "pre_send_guard_refused" error
      let lease ← reserveUsage operation
      let operation ← move operation
        { toState .signingStarted "foreground_signing_started" with
          send := send, allowlistLease := some lease }
      finishLocalApproval operation

/-- A sealed effect that is found again is bound to a record that had only started signing. -/
def bindRecovered (effect : RailSignedEffect) :
    RailProg RailOperationRecord :=
  if operation.state = .signingStarted then
    move operation (withEffect (toState .signedNotSubmitted "encrypted_effect_recovered") effect)
  else Prog.ret operation

/-- A submission that was interrupted is only observed from then on. -/
def interruptSubmission : RailProg RailOperationRecord :=
  if operation.state = .submitting then
    move operation (toState .unknownFinality "interrupted_submission_observation_only")
  else Prog.ret operation

/-- `resume` on the generic path. -/
def resumeLocked : RailProg RailOperationRecord := withMoneyLocks do
  let operation ← load
  followUsage
  if operation.terminal ∨ operation.state = .awaitingApproval then return operation
  else if operation.state = .signingStarted ∨ operation.state = .signedNotSubmitted then
    let effect ← recoverEffect
    match effect with
    | none =>
      if operation.state ≠ .signingStarted then
        lift (corrupt "The direct-rail effect or operation binding is invalid.")
      else move operation (toState .failedBeforeEffect "custody_proved_no_sealed_effect")
    | some effect =>
      lift (assertEffect operation effect)
      let operation ← bindRecovered operation effect
      firstLocalSubmit operation effect false
  else
    let operation ← interruptSubmission operation
    inspect operation

/-- A locked phase either ends the call with a record or hands on what the next phase needs. -/
inductive Phase (β : Type)
  | done (operation : RailOperationRecord)
  | next (b : β)

/-- Recovery of a claimed operation that started signing: the sealed effect, or leave to seal one. -/
def recoverStarted (initial : RailOperationRecord) (mayStartSigning : Bool) :
    RailProg (Phase (RailOperationRecord × Option RailSignedEffect)) := withMoneyLocks do
  let latest ← load
  if latest ≠ initial then return .done latest
  else
    let sealed ← recoverEffect
    match sealed with
    | none =>
      if mayStartSigning then return .next (latest, none)
      else
        let ended ← move latest (toState .failedBeforeEffect "custody_proved_no_sealed_effect")
        return .done ended
    | some effect =>
      lift (assertEffect latest effect)
      let signed ← move latest
        (withEffect (toState .signedNotSubmitted "encrypted_effect_recovered") effect)
      return .next (signed, some effect)

/-- A refused revalidation before any seal: the operation ends only if nothing was sealed meanwhile. -/
def failUnsealed (pending : RailOperationRecord) : RailProg Unit := withMoneyLocks do
  let latest ← load
  if latest ≠ pending then return ()
  else
    let sealed ← recoverEffect
    if sealed.isSome then return ()
    else
      let _ ← move latest (toState .failedBeforeEffect "custody_proved_no_sealed_effect")
      return ()

def sealStarted (pending : RailOperationRecord) :
    RailProg (Phase (RailOperationRecord × RailSignedEffect)) := withMoneyLocks do
  let latest ← load
  if latest ≠ pending then return .done latest
  else
    assertCurrentRailPolicy.handle fun error =>
      failBefore latest "pre_sign_owner_or_policy_changed" error
    let effect ← (call .sealRevalidated rfl).handle fun error => do
      let recovered ← recoverEffect
      if recovered.isNone then failBefore latest "custody_proved_no_sealed_effect" error
      else Prog.fail error
    lift (assertEffect latest effect)
    let signed ← move latest
      (withEffect (toState .signedNotSubmitted "encrypted_effect_bound") effect)
    return .next (signed, effect)

def recoverSigned (initial : RailOperationRecord) :
    RailProg (Phase (RailOperationRecord × RailSignedEffect)) := withMoneyLocks do
  let latest ← load
  if latest ≠ initial then return .done latest
  else
    let sealed ← recoverEffect
    match sealed with
    | none => lift (corrupt "The direct-rail effect or operation binding is invalid.")
    | some effect =>
      lift (assertEffect latest effect)
      return .next (latest, effect)

/-- The signed record and its effect; `true` when it was revalidated right before sealing. -/
def signedPhase (initial : RailOperationRecord) (mayStartSigning : Bool) :
    RailProg (Phase (RailOperationRecord × RailSignedEffect × Bool)) := do
  if initial.state = .signingStarted then
    let recovered ← recoverStarted initial mayStartSigning
    match recovered with
    | .done operation => return .done operation
    | .next (signed, some effect) => return .next (signed, effect, false)
    | .next (pending, none) =>
      revalidate.handle fun error => (failUnsealed pending).bind fun _ => Prog.fail error
      let sealed ← sealStarted pending
      match sealed with
      | .done operation => return .done operation
      | .next (signed, effect) => return .next (signed, effect, true)
  else if initial.state = .signedNotSubmitted then
    let recovered ← recoverSigned initial
    match recovered with
    | .done operation => return .done operation
    | .next (signed, effect) => return .next (signed, effect, false)
  else return .done initial

/-- A recovered signature is revalidated without locks; only proof that it cannot be sent ends it. -/
def revalidateSigned (signed : RailOperationRecord) : RailProg (Phase Unit) :=
  (revalidate.bind fun _ => Prog.ret (.next ())).handle fun error =>
    if ¬ railEffectProvenUnsendable error then Prog.fail error
    else withMoneyLocks do
      let latest ← load
      if latest ≠ signed then return .done latest
      else
        let ended ← move latest
          (toState .failedBeforeEffect "never_submitted_frozen_effect_no_longer_valid")
        return .done ended

/-- The intent is durable before the send can make even one physical attempt. -/
def commitSubmitting (signed : RailOperationRecord) : RailProg (Phase RailOperationRecord) :=
  withMoneyLocks do
    let latest ← load
    if latest ≠ signed then return .done latest
    else
      let refused ← (assertCurrentRailPolicy.bind fun _ => Prog.ret none).handle fun _ =>
        (move latest
          (toState .failedBeforeEffect "never_submitted_frozen_effect_no_longer_valid")).bind
          fun ended => Prog.ret (some ended)
      match refused with
      | some ended => return .done ended
      | none =>
        let submitting ← move latest (toState .submitting "submission_intent_persisted")
        return .next submitting

/-- What the send answered, bound under the locks to the record it was made for. -/
def acknowledge (submitting : RailOperationRecord) (transactionId : Option String) :
    RailProg RailOperationRecord := withMoneyLocks do
  let latest ← load
  if latest ≠ submitting then return latest
  else
    match transactionId with
    | none => move latest (toState .unknownFinality "submission_outcome_unknown")
    | some transactionId =>
      move latest { toState .submittedPending "submission_identifier_bound" with
        transactionId := some transactionId }

/-- The claimed local Solana path: revalidation and the one send run outside the money locks.  `again` is the
resume it goes on to once the send is acknowledged. -/
def executeLocalSolanaClaimed (initial : RailOperationRecord) (mayStartSigning : Bool)
    (again : RailProg RailOperationRecord) : RailProg RailOperationRecord := do
  let signed ← signedPhase initial mayStartSigning
  match signed with
  | .done operation => return operation
  | .next (signed, effect, revalidatedBeforeSeal) =>
    let checked ←
      (if revalidatedBeforeSeal then Prog.ret (.next ()) else revalidateSigned signed : RailProg _)
    match checked with
    | .done operation => return operation
    | .next () =>
      let committed ← commitSubmitting signed
      match committed with
      | .done operation => return operation
      | .next submitting =>
        let answer ← Prog.perform (RailOp.submit submitting (some effect))
        let transactionId : Option String :=
          match answer with
          | .ok transactionId => if transactionId = effect.transactionId then some transactionId else none
          | .error _ => none
        let acknowledged ← acknowledge submitting transactionId
        if acknowledged.state ≠ .submittedPending then return acknowledged else again

inductive ResumeMode
  | claim
  | execute
  | observe

/-- The state decision, under the money locks. -/
def resumeSnapshot (hasClaim : Bool) : RailProg (Phase (RailOperationRecord × ResumeMode)) :=
  withMoneyLocks do
    let operation ← load
    followUsage
    if operation.terminal ∨ operation.state = .awaitingApproval then return .done operation
    else if ¬ hasClaim ∧ (operation.state = .signingStarted ∨ operation.state = .signedNotSubmitted ∨
        operation.state = .submitting) then return .next (operation, .claim)
    else if operation.state = .signingStarted ∨ operation.state = .signedNotSubmitted then
      return .next (operation, .execute)
    else
      let operation ← interruptSubmission operation
      return .next (operation, .observe)

/-- A finalized proof is taken only for the record it was read for. -/
def observeFrozen (frozen : RailOperationRecord) : RailProg RailOperationRecord := do
  let found ← observation frozen
  withMoneyLocks do
    let latest ← load
    followUsage
    if latest ≠ frozen then return latest
    else
      match found with
      | none => return latest
      | some (status, evidence) =>
        let unchanged : Bool ← ask .ownerUnchanged
        if unchanged then
          move latest { toState status (finalReason status) with evidence := some evidence }
        else return latest

/-- `fuel` bounds the calls the phase makes to itself. -/
def resumeLocalSolanaPhase : ℕ → Bool → RailProg RailOperationRecord
  | 0, _ => Prog.fail ⟨.other, "interrupted"⟩
  | fuel + 1, hasClaim => do
    let snapshot ← resumeSnapshot hasClaim
    match snapshot with
    | .done operation => return operation
    | .next (_, .claim) => withClaimLock (resumeLocalSolanaPhase fuel true)
    | .next (operation, .execute) =>
      executeLocalSolanaClaimed operation false (resumeLocalSolanaPhase fuel true)
    | .next (frozen, .observe) => observeFrozen frozen

/-- The approval is staged under a durable claim. -/
def stageApproval : RailProg (Phase RailOperationRecord) := withMoneyLocks do
  let operation ← load
  followUsage
  let saved ← call .claimMatches rfl
  if operation.terminal then
    removeClaim
    return .done operation
  else if operation.state ≠ .awaitingApproval then
    removeClaim
    lift (blocked "The operation has already entered execution; use operation resume.")
  else
    call .foregroundApproval rfl
    if operation.allowlist.isNone then
      lift (corrupt "The direct-rail effect or operation binding is invalid.")
    else
      (if saved then Prog.ret () else call .createClaim rfl : RailProg Unit)
      return .next operation

def failApprovalClaim (reason : String) : RailProg Unit :=
  withMoneyLocks do
    let latest ← load
    let saved ← call .claimMatches rfl
    if ¬ saved then return ()
    else
      if latest = operation ∧ latest.state = .awaitingApproval then
        let _ ← move latest (toState .failedBeforeEffect reason)
        removeClaim
      else removeClaim

def commitApproval (send : Option String) :
    RailProg (Phase RailOperationRecord) := withMoneyLocks do
  let latest ← load
  followUsage
  let saved ← call .claimMatches rfl
  if latest ≠ operation ∨ ¬ saved then
    removeClaim
    return .done latest
  else
    assertCurrentRailPolicy
    let lease ← reserveUsage latest
    let started ← move latest { toState .signingStarted "foreground_signing_started" with
      send := send, allowlistLease := some lease }
    removeClaim
    return .next started

/-- The owner prompt and the send-window reads run under the claim lock, outside the money locks. -/
def approveLocalSolana (fuel : ℕ) : RailProg RailOperationRecord := withClaimLock do
  let staged ← stageApproval
  match staged with
  | .done operation => return operation
  | .next operation =>
    (do
      revalidate
      call .approve rfl
      assertCurrentRailPolicy : RailProg Unit).handle fun error =>
        (failApprovalClaim operation "approval_or_pre_effect_validation_refused").bind
          fun _ => Prog.fail error
    let send ← (call .bindSend rfl).handle fun error =>
      (failApprovalClaim operation "pre_send_guard_refused").bind fun _ => Prog.fail error
    (do
      let committed ← commitApproval operation send
      match committed with
      | .done operation => return operation
      | .next started =>
        executeLocalSolanaClaimed started true (resumeLocalSolanaPhase fuel true) :
      RailProg RailOperationRecord).handle fun error =>
        (withMoneyLocks removeClaim).bind fun _ => Prog.fail error

def approveOperation (fuel : ℕ) : RailProg RailOperationRecord := do
  let found ← load
  if found.isLocalSolana ∧ found.allowlist.isSome then approveLocalSolana fuel else approveLocked

def resumeOperation (fuel : ℕ) : RailProg RailOperationRecord := do
  let found ← load
  if found.isLocalSolana then resumeLocalSolanaPhase fuel false else resumeLocked

/-- The calls a process can make, each for any number of phases. -/
inductive RailCall : RailProg Unit → Prop
  | approve (fuel : ℕ) : RailCall ((approveOperation fuel).bind fun _ => Prog.ret ())
  | resume (fuel : ℕ) : RailCall ((resumeOperation fuel).bind fun _ => Prog.ret ())

end PaymentNode
