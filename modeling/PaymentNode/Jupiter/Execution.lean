import PaymentNode.Lib.Guarded
import PaymentNode.Jupiter.Record

/-!
# Jupiter execution — marking, signing, the one send, observation and expiry

`v1-execution.ts` with the signer and the stores of `v1-effects.ts`, and the observation of `swap/runtime.ts` that
expires an unlanded swap.  Every section holds the lock `jupiter-v1-operation`; the stores' own locks make each of
their operations one step.  The signer's grants, its sealed effects and the pre-consent proofs are the memory of a
process (`host`); `land` and `finalizeBlock` are the chain's own steps.
-/

open Guarded

namespace PaymentNode.Jupiter

inductive JupiterOp
  | loadAny
  | replace (expected next : SwapRecord)
  | usage (state : SwapState)
  | now
  | loadMaterial
  | admission
  | assertPrepared (admission : OwnerBinding)
  | publicOwner
  | assertActive (policyDigest activationDigest : ℕ)
  | guardMaterial (fresh : FreshMaterial)
  | blockHeight
  | finalizedHeight
  | signatureStatus (signature : Signature)
  | finalizedReceipt (fresh : FreshMaterial) (signature : Signature)
  | requestBudget
  | takePreconsent (host : ℕ)
  | readGrant (host : ℕ)
  | takeGrant (host : ℕ)
  | approvedScreen (host : ℕ)
  | readSealed (host : ℕ)
  | keepSealed (host : ℕ) (sealedEffect : SealedEffect)
  | saveFresh (fresh : FreshMaterial) (simulation : SimulationProof)
  | loadFresh
  | saveBinding (binding : ExecutionBinding)
  | loadBinding
  | saveSignature (marker : SignedMarker)
  | loadSignature
  | createClaim (claim : SendClaim)
  | loadClaim
  | wrappingSecret
  | nativeSign (message : Message)
  | saveEffect (effect : SignedEffect)
  | verify (effect : SignedEffect) (binding : ExecutionBinding)
  | startSend (effect : SignedEffect)
  | post (effect : SignedEffect)
  | diagnose
  | land (signature : Signature) (height : ℕ)
  | finalizeBlock (height : ℕ)
deriving DecidableEq

abbrev JupiterOp.Answer : JupiterOp → Type
  | loadAny => Result (Option SwapRecord)
  | replace _ _ => Result Unit
  | usage _ => Result Unit
  | now => ℕ
  | loadMaterial => Result (Option PreparedMaterial)
  | admission => Result OwnerBinding
  | assertPrepared _ => Result Unit
  | publicOwner => Result ℕ
  | assertActive _ _ => Result Unit
  | guardMaterial _ => Result ℕ
  | blockHeight => Result ℕ
  | finalizedHeight => Result ℕ
  | signatureStatus _ => Result Bool
  | finalizedReceipt _ _ => Result FinalizedReceipt
  | requestBudget => Bool
  | takePreconsent _ => Option PreconsentProof
  | readGrant _ => Option ForegroundGrant
  | takeGrant _ => Option ForegroundGrant
  | approvedScreen _ => Option ℕ
  | readSealed _ => Option SealedEffect
  | keepSealed _ _ => Unit
  | saveFresh _ _ => Result Unit
  | loadFresh => Result (Option (FreshMaterial × SimulationProof))
  | saveBinding _ => Result Unit
  | loadBinding => Result (Option ExecutionBinding)
  | saveSignature _ => Result Unit
  | loadSignature => Result (Option SignedMarker)
  | createClaim _ => Result Unit
  | loadClaim => Result (Option SendClaim)
  | wrappingSecret => Result Unit
  | nativeSign _ => Result Signature
  | saveEffect _ => Result Unit
  | verify _ _ => Result Unit
  | startSend _ => Result Unit
  | post _ => Result Signature
  | diagnose => Result Unit
  | land _ _ => Unit
  | finalizeBlock _ => Unit

abbrev JupiterProg (α : Type) := Guarded.Program JupiterOp JupiterOp.Answer ApnError α

def perform (o : JupiterOp) : JupiterProg o.Answer := Guarded.act o

def run {α : Type} (o : JupiterOp) (h : o.Answer = Result α) : JupiterProg α := Guarded.run o h

def lift {α : Type} (result : Result α) : JupiterProg α := Prog.ofExcept result

def busy : ApnError := ⟨.stateBusy, "jupiter-v1-operation"⟩

def executionBlocked {α : Type} (message : String) : JupiterProg α := lift (blocked message)

def executionCorrupt {α : Type} : JupiterProg α :=
  lift (corrupt "Jupiter V1 execution evidence is missing or changed.")

def refuse {α : Type} : JupiterProg α := lift evidenceCorrupt

/-! ## The stores -/

def loadRecord : JupiterProg SwapRecord := do
  let found ← run .loadAny rfl
  match found with
  | none => executionCorrupt
  | some op => return op

def loadBinding (op : SwapRecord) (material : PreparedMaterial) : JupiterProg (Option ExecutionBinding) := do
  let found ← run .loadBinding rfl
  match found with
  | none => return none
  | some b => if ¬ b.binds op material then refuse else return some b

def loadFresh (b : ExecutionBinding) : JupiterProg (FreshMaterial × SimulationProof) := do
  let found ← run .loadFresh rfl
  match found with
  | none => refuse
  | some (fresh, simulation) =>
    if fresh ≠ b.fresh ∨ simulation ≠ b.simulation ∨ fresh.message ≠ b.message then refuse
    else return (fresh, simulation)

def loadSignature (op : SwapRecord) (b : ExecutionBinding) : JupiterProg (Option Signature) := do
  let found ← run .loadSignature rfl
  match found with
  | none => return none
  | some signed => if some signed.marker ≠ op.submissionMarker ∨ signed.binding ≠ b then refuse else return some signed.signature

def loadClaim (op : SwapRecord) : JupiterProg (Option SendClaim) := do
  let found ← run .loadClaim rfl
  match found with
  | none => return none
  | some claim => if some claim.marker ≠ op.submissionMarker then refuse else return some claim

variable (op : SwapRecord)

/-- A transition of the core: the usage lease first, then the record. -/
def recordPossibleSend (state : SwapState) : JupiterProg SwapRecord := do
  let at' ← perform .now
  if op.state ≠ .submitting ∧ op.state ≠ .submitted then executionBlocked "Swap has no persisted submission boundary."
  else do
    let _ ← (run (.usage state) rfl : JupiterProg Unit)
    let next ← lift (op.possibleSend state at')
    let _ ← (run (.replace op next) rfl : JupiterProg Unit)
    return next

/-! ## The signer -/

variable (b : ExecutionBinding)

def sameOwner : JupiterProg Unit := do
  let account ← run .publicOwner rfl
  if account ≠ b.accountBindingHash then refuse else return ()

def assertActive (op : SwapRecord) (b : ExecutionBinding) : JupiterProg Unit :=
  run (.assertActive op.policyDigest b.activationDigest) rfl

def assertDispatchAdmission : JupiterProg Unit := do
  let current ← run .loadAny rfl
  if current ≠ some op ∨ op.state ≠ .submitting then refuse
  else do
    sameOwner b
    assertActive op b

def assertWrappingFence : JupiterProg Unit := do
  let current ← run .loadAny rfl
  if current ≠ some op ∨ op.submissionMarker = none then refuse
  else do
    sameOwner b
    assertActive op b
    let at' ← perform .now
    if op.expiresAt ≤ at' then refuse else return ()

/-- What the grant of this process must agree with. -/
def ForegroundGrant.covers (grant : ForegroundGrant) (b : ExecutionBinding) (admission : OwnerBinding)
    (screen : Option ℕ) : Bool :=
  grant.accountBindingHash = b.accountBindingHash && grant.policyDigest = b.policyDigest &&
    grant.activationDigest = admission.activationDigest && some grant.screenHash = screen &&
      admission.accountBindingHash = b.accountBindingHash && grant.message = b.message

/-- `withSeed`: the fences around the wrapping secret, and the one signature. -/
def signWithSeed : JupiterProg SignedEffect := do
  assertWrappingFence op b
  let _ ← (run .wrappingSecret rfl : JupiterProg Unit)
  assertWrappingFence op b
  sameOwner b
  assertActive op b
  let signature ← run (.nativeSign b.message) rfl
  return ⟨b, b.message, signature⟩

variable (host : ℕ)

def signGranted (op : SwapRecord) (b : ExecutionBinding) (screenHash : ℕ) (marker : SubmissionMarker) :
    JupiterProg Unit := do
  sameOwner b
  assertActive op b
  let effect ← signWithSeed op b
  let _ ← (run (.verify effect b) rfl : JupiterProg Unit)
  let _ ← (run (.saveSignature ⟨marker, b, effect.signature⟩) rfl : JupiterProg Unit)
  let _ ← (run (.saveEffect effect) rfl : JupiterProg Unit)
  perform (.keepSealed host ⟨b, screenHash, effect⟩)

def sign (op : SwapRecord) (b : ExecutionBinding) (material : PreparedMaterial)
    (admission : OwnerBinding) : JupiterProg Unit := do
  let current ← run .loadAny rfl
  if current ≠ some op ∨ ¬ b.binds op material then refuse
  else do
    let stored ← loadBinding op material
    if stored ≠ some b then refuse
    else do
      let (fresh, simulation) ← loadFresh b
      let guarded ← run (.guardMaterial fresh) rfl
      if guarded ≠ b.freshAdmissionDigest ∨ simulation.message ≠ b.message ∨
          fresh.maximumNativeExpenseLamports ≠ material.maximumNativeExpenseLamports then refuse
      else do
        assertActive op b
        let grant ← perform (.takeGrant host)
        let screen ← perform (.approvedScreen host)
        match grant with
        | none => lift (.error ⟨.foregroundApprovalRequired, "foreground TTY session"⟩)
        | some grant =>
          if ¬ grant.covers b admission screen then lift (.error ⟨.foregroundApprovalRequired, "foreground TTY session"⟩)
          else signGranted host op b grant.screenHash b.marker

/-- `savedEffect`: the effect that this process sealed, if it still is the saved one. -/
def savedEffect (op : SwapRecord) (b : ExecutionBinding) : JupiterProg (Option SignedEffect) := do
  let kept ← perform (.readSealed host)
  let screen ← perform (.approvedScreen host)
  match kept with
  | none => return none
  | some kept =>
    if kept.binding ≠ b ∨ some kept.screenHash ≠ screen then return none
    else do
      let current ← run .loadAny rfl
      if current ≠ some op ∨ op.state ≠ .submitting then refuse
      else do
        let signature ← loadSignature op b
        if signature ≠ some kept.effect.signature then refuse
        else do
          sameOwner b
          let _ ← (run (.verify kept.effect b) rfl : JupiterProg Unit)
          return some kept.effect

/-! ## The single send -/

/-- The last checks before the bytes leave, made by the transport. -/
def beforeSend : JupiterProg Unit := do
  assertDispatchAdmission op b
  let at' ← perform .now
  if op.expiresAt ≤ at' ∨ b.checkedAt + 30000 < at' then executionBlocked "Jupiter expired before physical send."
  else return ()

def sendTransactionAtStart (effect : SignedEffect) : JupiterProg Signature := do
  let _ ← (run (.startSend effect) rfl : JupiterProg Unit)
  beforeSend op b
  run (.post effect) rfl

/-- The claim and the transport; the claim stays consumed whatever the transport answers. -/
def claimAndSend (effect : SignedEffect) (marker : SubmissionMarker)
    (at' : ℕ) : JupiterProg SwapRecord := do
  let claimed ← loadClaim op
  if claimed.isSome then executionBlocked "Jupiter's first send was already claimed."
  else do
    let _ ← (run (.verify effect b) rfl : JupiterProg Unit)
    let _ ← (run (.createClaim ⟨marker, b, effect.signature, at'⟩) rfl : JupiterProg Unit)
    let returned ← (sendTransactionAtStart op b effect).attempt
    let _ ← (run .diagnose rfl : JupiterProg Unit)
    recordPossibleSend op (if returned = .ok effect.signature then .submitted else .unknownFinality)

def sendChecked (op : SwapRecord) (b : ExecutionBinding) : JupiterProg SwapRecord := do
  let (fresh, _) ← loadFresh b
  let _ ← (run (.guardMaterial fresh) rfl : JupiterProg ℕ)
  let effect ← savedEffect host op b
  match effect with
  | none => executionCorrupt
  | some effect => do
    let height ← run .blockHeight rfl
    if fresh.lastValidBlockHeight < height then executionBlocked "Jupiter's frozen blockhash expired before send."
    else do
      let at' ← perform .now
      let budget ← perform .requestBudget
      if op.expiresAt ≤ at' ∨ b.checkedAt + 30000 < at' ∨ ¬ budget then
        executionBlocked "Jupiter send freshness or runtime RPC budget is unavailable."
      else do
        assertDispatchAdmission op b
        claimAndSend op b effect b.marker at'

/-- A refusal before the claim leaves a diagnosis; nothing restores the send. -/
def diagnoseRefusal (e : ApnError) : JupiterProg SwapRecord := do
  let claimed ← loadClaim op
  if claimed.isSome then .fail e
  else do
    let _ ← (run .diagnose rfl : JupiterProg Unit)
    .fail e

def sendOnceLocked : JupiterProg SwapRecord := do
  let op ← loadRecord
  if op.state ≠ .submitting ∨ op.submissionMarker = none then
    executionBlocked "Jupiter's first send is already consumed or unavailable."
  else do
    let claimed ← loadClaim op
    if claimed.isSome then executionBlocked "Jupiter's first send is already consumed or unavailable."
    else do
      let material ← run .loadMaterial rfl
      match material with
      | none => executionCorrupt
      | some material => do
        let binding ← loadBinding op material
        match binding with
        | none => executionCorrupt
        | some b => (sendChecked host op b).handle (diagnoseRefusal op)

def sendOnce : JupiterProg SwapRecord := withLock busy (sendOnceLocked host)

/-! ## Observation -/

/-- Receipt facts of the finalized transaction. -/
def FinalizedReceipt.proof (receipt : FinalizedReceipt) (at' : ℕ) : ReceiptProof :=
  ⟨receipt.receiptHash, receipt.signature, at', true,
    ⟨receipt.inputAtomic, receipt.recipientOutputAtomic, receipt.feeLamports, receipt.nativeSpendLamports⟩⟩

/-- `finalize` of the core -/
def finalizeRecord (receipt : FinalizedReceipt) (at' : ℕ) : JupiterProg SwapRecord :=
  if op.state ≠ .submitted ∧ op.state ≠ .unknownFinality then executionBlocked "Swap is not awaiting finality."
  else do
    let _ ← (run (.usage .finalized) rfl : JupiterProg Unit)
    let next ← lift (op.finalize at' (receipt.proof at'))
    let _ ← (run (.replace op next) rfl : JupiterProg Unit)
    return next

def observeSigned (signature : Signature) : JupiterProg SwapRecord := do
  let claim ← loadClaim op
  if claim.any fun claim => claim.signature ≠ signature then executionCorrupt
  else do
    let (fresh, _) ← loadFresh b
    let _ ← (run (.guardMaterial fresh) rfl : JupiterProg ℕ)
    let receipt ← (run (.finalizedReceipt fresh signature) rfl : JupiterProg FinalizedReceipt).attempt
    match receipt with
    | .error _ => return op
    | .ok receipt => do
      let at' ← perform .now
      finalizeRecord op receipt at'

variable (material : PreparedMaterial)

def observeMarked (op : SwapRecord) : JupiterProg SwapRecord := do
  let binding ← loadBinding op material
  match binding with
  | none => return op
  | some b => do
    let signature ← loadSignature op b
    match signature with
    | none => return op
    | some signature => observeSigned op b signature

def observeLocked : JupiterProg SwapRecord := do
  let op ← loadRecord
  if op.submissionMarker = none then executionBlocked "Jupiter observation requires its durable effect marker."
  else if op.state ∈ [.finalized, .failedConfirmedRevert, .expiredUnlanded, .abandonedUnknown] then return op
  else if op.state = .submitting then do
    let next ← recordPossibleSend op .unknownFinality
    observeMarked material next
  else observeMarked material op

def observe : JupiterProg SwapRecord := withLock busy (observeLocked material)

/-! ## Expiry -/

/-- `proveSolanaUnlanded`: the height first, then the signature saved by then. -/
def proveSolanaUnlanded (lastValidBlockHeight : ℕ) (savedSignature : JupiterProg (Option Signature)) :
    JupiterProg (Option UnlandedProof) := do
  let finalized ← run .finalizedHeight rfl
  if finalized ≤ lastValidBlockHeight then return none
  else do
    let signature ← savedSignature
    match signature with
    | none => return some ⟨none, lastValidBlockHeight, finalized⟩
    | some signature => do
      let status ← run (.signatureStatus signature) rfl
      if status then return none else return some ⟨some signature, lastValidBlockHeight, finalized⟩

def savedSignature : JupiterProg (Option Signature) := do
  let bound ← loadBinding op material
  match bound with
  | none => return none
  | some b => loadSignature op b

/-- The lifetime that bounds landing: the bound message's, or the quote's where nothing was bound. -/
def landingBound : Option ExecutionBinding → JupiterProg ℕ
  | none => .ret material.lastValidBlockHeight
  | some b => do
    let (fresh, _) ← loadFresh b
    return fresh.lastValidBlockHeight

def proveLocked : JupiterProg (Option UnlandedProof) := do
  let op ← loadRecord
  if op.submissionMarker = none ∨ op.receiptProof.isSome ∨ op.state ∉ [.submitting, .submitted, .unknownFinality] then
    return none
  else do
    let binding ← loadBinding op material
    let lastValidBlockHeight ← landingBound material binding
    proveSolanaUnlanded lastValidBlockHeight (savedSignature op material)

def proveJupiterV1Unlanded : JupiterProg (Option UnlandedProof) :=
  withLock busy (proveLocked material)

/-- The record moved to `unknown_finality` before it expires. -/
def expirable : JupiterProg SwapRecord :=
  if op.state ≠ .unknownFinality then recordPossibleSend op .unknownFinality else .ret op

/-- `expireUnlanded` of the core -/
def expireUnlanded (proof : UnlandedProof) : JupiterProg SwapRecord :=
  if op.state ∉ [.submitting, .submitted, .unknownFinality] ∨ op.submissionMarker = none ∨ op.receiptProof.isSome then
    executionBlocked "Swap has no unlanded effect to expire."
  else do
    let at' ← perform .now
    let op ← expirable op
    let _ ← (run (.usage .expiredUnlanded) rfl : JupiterProg Unit)
    let next ← lift (op.expire at' proof)
    let _ ← (run (.replace op next) rfl : JupiterProg Unit)
    return next

/-- The observation of the runtime: what is not proven yet stays observable. -/
def status : JupiterProg SwapRecord := do
  let op ← loadRecord
  if op.submissionMarker = none ∨ op.state.terminal then return op
  else do
    let result ← observe material
    if result.state ∉ [.submitting, .submitted, .unknownFinality] ∨ result.receiptProof.isSome then return result
    else do
      let proof ← (proveJupiterV1Unlanded material).attempt
      match proof with
      | .ok (some proof) => expireUnlanded result proof
      | _ => return result

/-! ## Execution -/

/-- The binding, the fresh evidence and the signature of a marked record. -/
def bindAndSign (marked : SwapRecord) (material : PreparedMaterial) (admission : OwnerBinding)
    (proved : PreconsentProof) (checkedAt : ℕ) : JupiterProg Unit := do
  let b ← lift (createJupiterV1ExecutionBinding marked material admission proved.simulation checkedAt proved.fresh)
  let _ ← (run (.saveFresh proved.fresh proved.simulation) rfl : JupiterProg Unit)
  let _ ← (run (.saveBinding b) rfl : JupiterProg Unit)
  sign host marked b material admission

/-- A marked record that could not be signed is observed only. -/
def unsigned (marked : SwapRecord) : JupiterProg (SwapRecord × Bool) := do
  let _ ← (run .diagnose rfl : JupiterProg Unit).attempt
  let next ← recordPossibleSend marked .unknownFinality
  return (next, false)

def signMarked (marked : SwapRecord) (material : PreparedMaterial) (admission : OwnerBinding)
    (proved : PreconsentProof) (checkedAt : ℕ) : JupiterProg (SwapRecord × Bool) := do
  let signed ← (bindAndSign host marked material admission proved checkedAt).attempt
  match signed with
  | .ok _ => return (marked, true)
  | .error _ => unsigned marked

/-- The section that marks: the record, and whether this call signed it. -/
def markLocked (op : SwapRecord) (material : PreparedMaterial) (admission : OwnerBinding)
    (proved : PreconsentProof) : JupiterProg (SwapRecord × Bool) := do
  let current ← loadRecord
  if current.submissionMarker.isSome then return (current, false)
  else if current ≠ op then executionBlocked "Jupiter's operation changed concurrently."
  else do
    let checkedAt ← perform .now
    if op.expiresAt ≤ checkedAt then executionBlocked "Jupiter's approval expired before its effect marker."
    else do
      let marked ← lift (current.markSubmitting checkedAt)
      let _ ← (run (.replace current marked) rfl : JupiterProg Unit)
      signMarked host marked material admission proved checkedAt

def sendMarked (material : PreparedMaterial) : JupiterProg SwapRecord := do
  let _ ← (sendOnce host).attempt
  observe material

def executeProved (op : SwapRecord) (material : PreparedMaterial) (admission : OwnerBinding)
    (proved : PreconsentProof) : JupiterProg SwapRecord := do
  let height ← run .blockHeight rfl
  if proved.fresh.lastValidBlockHeight < height then executionBlocked "Jupiter's frozen blockhash expired before signing."
  else if proved.fresh.lastValidBlockHeight - height < 24 then
    lift (.error ⟨.reprepareRequired, "Jupiter's frozen blockhash has insufficient reserve before signing."⟩)
  else do
    let currentAdmission ← run .admission rfl
    if currentAdmission ≠ admission then executionBlocked "Jupiter's owner or active policy changed after simulation."
    else do
      let marked ← withLock busy (markLocked host op material admission proved)
      if marked.2 then sendMarked host material else return marked.1

/-- `execute`, of the record its caller holds. -/
def execute (op : SwapRecord) (material : PreparedMaterial) : JupiterProg SwapRecord := do
  let grant ← perform (.readGrant host)
  if op.state ≠ .reserved ∨ op.submissionMarker.isSome ∨ ¬ grant.any fun grant => grant.policyDigest = op.policyDigest then
    executionBlocked "A fresh genuine TTY grant is required before Jupiter's first effect marker."
  else do
    let admission ← run .admission rfl
    let _ ← (run (.assertPrepared admission) rfl : JupiterProg Unit)
    let proved ← perform (.takePreconsent host)
    match proved with
    | none => executionBlocked "Jupiter's pre-consent executable and simulation proof is missing; approve again in this terminal."
    | some proved =>
      if proved.material ≠ material then
        executionBlocked "Jupiter's pre-consent executable and simulation proof is missing; approve again in this terminal."
      else executeProved host op material admission proved

/-- A reservation that is given up before it is marked. -/
def releaseUnsent : JupiterProg SwapRecord := do
  let at' ← perform .now
  if op.state ∉ [.quoted, .prepared, .awaitingApproval, .reserved] then
    executionBlocked "Swap crossed the possible-send boundary."
  else do
    let _ ← (run (.usage .failedBeforeEffect) rfl : JupiterProg Unit)
    let next ← lift (op.failBeforeEffect at')
    let _ ← (run (.replace op next) rfl : JupiterProg Unit)
    return next

end PaymentNode.Jupiter
