import PaymentNode.Index.Reconcile

/-!
# Admission — admitting a new operation under its idempotency key and its account claims

An admission checks every open entry its claims collide with, outside the lock, and writes its own pointer,
open copy and entry under it, provided no colliding entry has appeared that was not checked.  Then the prepare
body runs.  The programs here are over `IndexStep`s, the steps an admission is made of; `stepProgram` is what
each step does file by file, and `run` says at which of the two grains a program is read.
-/

namespace PaymentNode

open IndexProg

/-- An admission without a record older than this belongs to a crashed prepare. -/
def admissionLeaseMs : ℤ := 10 * 60000

def gcPerCheck : ℕ := 2

def idempotencyConflict (message : String) : ApnError := ⟨.idempotencyConflict, message⟩

def keyConflict : ApnError :=
  idempotencyConflict "Idempotency key is already bound to different operation inputs."

def idConflict : ApnError :=
  idempotencyConflict "Operation ID is already bound to another money operation."

/-- The refusal an unresolved operation causes, and what it names. -/
structure Blocker where
  error : ApnError
  blockingOperationId : OperationId
  /-- `none` when the blocking record is unreadable. -/
  blockingState : Option String
  blockingAccount : Option (String × String)
deriving DecidableEq, Repr

/-- The network and account of an account key. -/
def accountKey (key : String) : Option (String × String) :=
  match key.splitOn ":" with
  | [kind, network, account] =>
    if kind ∈ ["evm", "solana", "tron"] ∧ network ≠ "" ∧ account ≠ "" then
      some (kind ++ ":" ++ network, account)
    else none
  | _ => none

def blockedBy (e : OperationIndexEntry) (state : Option String) (held : List OperationClaim) :
    Blocker :=
  let account := held.findSome? fun claim => accountKey claim.key
  let provider := account.isNone && held.any fun claim =>
    claim.key.startsWith "provider" || claim.key = "unreadable-provider"
  let message :=
    if account.isSome then "Another money operation for this network and account is not terminal."
    else if provider then "Another money operation for this provider account is not terminal."
    else "Another money operation for this profile is not terminal."
  ⟨⟨.operationBlocked, message⟩, e.operationId, state, account⟩

/-- What a look at one open entry finds. -/
inductive Inspection
  | blocked (blocker : Blocker)
  | clear
  /-- Its record does not exist: clear, once it is forgotten. -/
  | orphan
  /-- It holds a wanted claim, and its family admits the admission beside it. -/
  | beside (operationId : OperationId) (family : String) (state : String)
deriving DecidableEq, Repr

/-- The steps of an admission. -/
inductive IndexStep
  | reconcile
  | resolve (identity : PrepareIdentity) (wanted : WantedClaims)
  | colliding (wanted : WantedClaims)
  | pick (n : ℕ)
  | inspect (e : OperationIndexEntry) (wanted : Option WantedClaims)
  | forget (e : OperationIndexEntry)
  | claim (wanted : WantedClaims) (clear : List OperationId) (admitted : OperationIndexEntry)
  | work (identity : PrepareIdentity)
  | writeRecord (identity : PrepareIdentity)
  | workDone (identity : PrepareIdentity)
  | recordless (id : OperationId)
  | entry (id : OperationId)

def IndexStep.Value : IndexStep → Type
  | reconcile | forget _ | writeRecord _ | workDone _ => Unit
  | resolve _ _ => OperationIndexEntry
  | colliding _ => List OperationIndexEntry × List OperationIndexEntry
  | pick _ => ℕ
  | inspect _ _ => Inspection
  | claim _ _ _ | work _ => Bool
  | recordless _ | entry _ => Option OperationIndexEntry

/-- A step answers its value or throws. -/
def IndexStep.Answer (o : IndexStep) : Type := Result o.Value

/-! ## The steps, file by file -/

section Steps

variable {Doc : Type} (registry : OperationRegistry Doc)

def byIdempotency (hash : StateHash) : IndexProg Doc (Option OperationIndexEntry) := do
  let known ← pointer hash
  let ids ← (match known with
    | some ids => Prog.ret (some ids)
    | none => (reconcile registry).bind fun _ => pointer hash : IndexProg Doc _)
  match ids with
  | none => return none
  | some [id] =>
    let e ← entry id
    match e with
    | some e => return some e
    | none =>
      reconcile registry
      entry id
  | some _ =>
    Prog.fail ⟨.stateCorrupt, "Idempotency identity is duplicated across operation stores."⟩

def byOperationId (id : OperationId) : IndexProg Doc (Option OperationIndexEntry) := do
  let e ← entry id
  match e with
  | some e => return some e
  | none =>
    reconcile registry
    entry id

def sameIdentity (e : OperationIndexEntry) (identity : PrepareIdentity) : Bool :=
  e.family = identity.family && e.profileHash = some identity.profileHash &&
    e.operationId = identity.operationId && e.idempotencyHash = identity.idempotencyHash &&
    e.requestHash = identity.requestHash

variable (identity : PrepareIdentity)

/-- `none` for a new identity, the existing entry for an exact replay, a conflict on any mismatch. -/
def resolvePrepare : IndexProg Doc (Option OperationIndexEntry) := do
  let found ← (match identity.idempotencyHash with
    | none => byOperationId registry identity.operationId
    | some hash => byIdempotency registry hash : IndexProg Doc _)
  match found with
  | none =>
    let e ← entry identity.operationId
    if e.isSome then Prog.fail idConflict else return none
  | some e =>
    if e.state = .unreadable then
      Prog.fail ⟨.stateCorrupt, "The operation bound to this idempotency key cannot be read."⟩
    else if sameIdentity e identity then return some e
    else Prog.fail keyConflict

/-- The record behind an entry through its family's reader; `none` when absent. -/
def loadRecord (e : OperationIndexEntry) : IndexProg Doc (Option Doc) :=
  match registry.get e.family with
  | none => Prog.ret none
  | some adapter =>
    (record e.recordPath).bind fun found =>
      match found with
      | none => Prog.ret none
      | some doc =>
        if adapter.valid doc then Prog.ret (some doc)
        else Prog.fail ⟨.stateCorrupt, "The operation record is invalid."⟩

def recordPathFor : Result RecordPath :=
  match (registry.get identity.family).bind fun adapter => adapter.stores.head? with
  | none => corrupt "The operation family has no index adapter."
  | some store =>
    .ok ⟨store.directory, if store.perProfile then some identity.profileHash else none,
      identity.operationId⟩

variable (wanted : WantedClaims)

/-- It holds what it wants, its profile and its other names. -/
def admittedEntry (path : RecordPath) (at' : ℤ) :
    OperationIndexEntry :=
  entryOf
    { operationId := identity.operationId
      family := identity.family
      profileHash := some identity.profileHash
      idempotencyHash := identity.idempotencyHash
      requestHash := identity.requestHash
      recordPath := path
      claims := normalizeClaims (profileClaim identity.profileHash :: wanted.claims ++ wanted.holds)
      state := .admitted
      admittedAt := some at'
      unreadableReason := none }

/-- The entry to be admitted, unless the identity already has an operation. -/
def resolveAdmission :
    IndexProg Doc OperationIndexEntry := do
  let existing ← resolvePrepare registry identity
  let taken ← (match existing with
    | none => Prog.ret false
    | some e =>
      if e.state ≠ .admitted then Prog.ret true
      else (loadRecord registry e).bind fun doc => Prog.ret doc.isSome : IndexProg Doc Bool)
  if taken then
    Prog.fail (idempotencyConflict
      "The operation already exists; replay it instead of admitting it again.")
  else
    let path ← (match existing with
      | some e => Prog.ret e.recordPath
      | none => lift (recordPathFor registry identity) : IndexProg Doc RecordPath)
    let at' ← now
    return admittedEntry identity wanted path at'

def openEntriesOf : List OperationId → IndexProg Doc (List OperationIndexEntry)
  | [] => Prog.ret []
  | id :: ids => do
    let e ← openEntry id
    let rest ← openEntriesOf ids
    return e.toList ++ rest

def openEntries : IndexProg Doc (List OperationIndexEntry) := do
  let ids ← openIds
  openEntriesOf ids

/-- Every claim an admission wants: its own, the quarantines it waits for, and the provider's. -/
def wantedClaims : List OperationClaim :=
  let provider := wanted.claims.any fun claim =>
    claim.key.startsWith "provider:" || claim.key.startsWith "provider-payer:"
  normalizeClaims (wanted.claims ++ wanted.waits ++
    (wanted.profileHash.map unreadableProfileClaim).toList ++
    (match wanted.family with
      | none => registry.keys
      | some family => [family]).map unreadableFamilyClaim ++
    (if provider then [unreadableProviderClaim] else []))

section

variable (e : OperationIndexEntry)

def collides : Bool :=
  some e.operationId ≠ wanted.except' &&
    collidingClaims e.claims (wantedClaims registry wanted) ≠ []

/-- The order blockers are reported in: by family, then by id. -/
def reportedBefore (left right : OperationIndexEntry) : Prop :=
  registry.keys.idxOf left.family < registry.keys.idxOf right.family ∨
    (registry.keys.idxOf left.family = registry.keys.idxOf right.family ∧
      left.operationId ≤ right.operationId)

instance : DecidableRel (reportedBefore registry) :=
  fun _ _ => inferInstanceAs (Decidable (_ ∨ _))

/-- The open entries that collide, as they are reported, and the others. -/
def readColliding :
    IndexProg Doc (List OperationIndexEntry × List OperationIndexEntry) := do
  let opened ← openEntries
  let colliding := (opened.filter (collides registry wanted)).insertionSort (reportedBefore registry)
  return (colliding, opened.filter fun e => e ∉ colliding)

def refusal (state : Option String) (wanted : Option WantedClaims) :
    Inspection :=
  match wanted with
  | none => .clear
  | some wanted => .blocked (blockedBy e state (collidingClaims e.claims wanted.claims))

/-- An admitted entry keeps its admitted claims while its record is unresolved. -/
def nextEntry (e derived : OperationIndexEntry) : OperationIndexEntry :=
  if e.state = .admitted ∧ derived.state = .active then
    entryOf { derived with claims := derived.claims ++ e.claims }
  else derived

def verdict (adapter : OperationFamilyAdapter Doc) (e derived : OperationIndexEntry) (doc : Doc)
    (wanted : WantedClaims) : Inspection :=
  if derived.state = .terminal then .clear
  else if derived.state = .unreadable then
    .blocked (blockedBy e none (collidingClaims derived.claims wanted.claims))
  else
    let colliding := collidingClaims (nextEntry e derived).claims wanted.claims
    let blocking := colliding.filter fun claim => !adapter.admits doc wanted claim
    if blocking ≠ [] then .blocked (blockedBy e (some (adapter.state doc)) blocking)
    else if colliding = [] then .clear
    else .beside e.operationId e.family (adapter.state doc)

/-- An entry whose record is absent still holds during the lease of its admission. -/
def inspectAbsent (wanted : Option WantedClaims) :
    IndexProg Doc Inspection :=
  if e.state = .admitted then
    now.bind fun at' =>
      if at' < e.admittedAt.getD 0 + admissionLeaseMs then
        Prog.ret (refusal e (some "admitted") wanted)
      else Prog.ret .orphan
  else Prog.ret .orphan

def inspectReadable (adapter : OperationFamilyAdapter Doc) (e : OperationIndexEntry) (doc : Doc)
    (wanted : Option WantedClaims) : IndexProg Doc Inspection := do
  let derived ← fromRecord registry adapter e.recordPath doc
  match derived with
  | none => return .clear
  | some derived =>
    (if e.state ≠ .active ∨ derived.state ≠ .active then writeEntry (nextEntry e derived) true
      else Prog.ret () : IndexProg Doc Unit)
    match wanted with
    | none => return .clear
    | some wanted => return verdict adapter e derived doc wanted

/-- Verifies one open entry against its record and keeps the index in step with it. -/
def inspectEntry (wanted : Option WantedClaims) :
    IndexProg Doc Inspection :=
  if e.unreadableReason = some .duplicateOperationId ∨ e.recordPath.operationId ≠ e.operationId then
    Prog.ret (refusal e none wanted)
  else
    match registry.get e.family with
    | none => Prog.ret (refusal e none wanted)
    | some adapter => do
      let found ← record e.recordPath
      match found with
      | none => inspectAbsent e wanted
      | some doc =>
        if adapter.valid doc then inspectReadable registry adapter e doc wanted
        else
          (if e.state = .active ∨ e.state = .admitted then
              (quarantine registry adapter e.recordPath .recordInvalid).bind fun q => write q false
            else Prog.ret () : IndexProg Doc Unit)
          return refusal e none wanted

def dropBinding (hash : Option StateHash) (id : OperationId) : IndexProg Doc Unit :=
  match hash with
  | none => Prog.ret ()
  | some hash =>
    (pointer hash).bind fun ids => if ids = some [id] then dropPointer hash else Prog.ret ()

def forgetLocked : IndexProg Doc Unit := do
  dropOpen e.operationId
  dropEntry e.operationId
  dropBinding e.idempotencyHash e.operationId

/-- Drops an entry whose record does not exist, unless it changed meanwhile. -/
def forgetEntry : IndexProg Doc Unit := withIndexLock do
  let current ← entry e.operationId
  if current = some e then forgetLocked e else return ()

end

/-- The pointer is created, or is already this operation's alone. -/
def bindAdmitted (hash : Option StateHash) (id : OperationId) : IndexProg Doc Unit :=
  match hash with
  | none => Prog.ret ()
  | some hash => do
    let created ← putPointer hash [id] true
    if created then return ()
    else
      let ids ← pointer hash
      if ids = some [id] then return () else Prog.fail keyConflict

def writeAdmitted (admitted : OperationIndexEntry) : IndexProg Doc Unit := do
  let current ← entry admitted.operationId
  if current.any fun e => e.state ≠ .admitted then Prog.fail idConflict
  else
    bindAdmitted admitted.idempotencyHash admitted.operationId
    putOpen admitted
    putEntry admitted

/-- Writes under the leaf lock only when the colliding set did not grow since it was verified. -/
def claimLocked (clear : List OperationId) (admitted : OperationIndexEntry) :
    IndexProg Doc Bool := withIndexLock do
  let opened ← openEntries
  if opened.any fun e => collides registry wanted e && e.operationId ∉ clear then return false
  else
    writeAdmitted admitted
    return true

/-- The admitted entry, when its record does not exist. -/
def readRecordless (id : OperationId) : IndexProg Doc (Option OperationIndexEntry) := do
  let found ← entry id
  match found with
  | none => return none
  | some e =>
    if e.state ≠ .admitted then return none
    else
      (((loadRecord registry e).bind fun doc =>
        Prog.ret (if doc.isNone then some e else none)).handle fun _ => Prog.ret none :
        IndexProg Doc (Option OperationIndexEntry))

def stepBody : (o : IndexStep) → IndexProg Doc o.Value
  | .reconcile => reconcile registry
  | .resolve identity wanted => resolveAdmission registry identity wanted
  | .colliding wanted => readColliding registry wanted
  | .pick n => Prog.perform (IndexOp.random n)
  | .inspect e wanted => inspectEntry registry e wanted
  | .forget e => forgetEntry e
  | .claim wanted clear admitted => claimLocked registry wanted clear admitted
  | .work identity => Prog.perform (IndexOp.work identity)
  | .writeRecord identity => Prog.perform (IndexOp.writeRecord identity)
  | .workDone identity => (Prog.perform (IndexOp.workDone identity)).bind lift
  | .recordless id => readRecordless registry id
  | .entry id => entry id

/-- A step, file by file, with what it throws as its answer. -/
def stepProgram (o : IndexStep) : IndexProg Doc o.Answer := (stepBody registry o).attempt

end Steps

/-! ## The admission -/

section Admit

variable {ω : Type} {A : ω → Type} {Doc : Type} (registry : OperationRegistry Doc)
variable (run : (o : IndexStep) → Prog ω A ApnError o.Answer)

/-- One step; what it throws is thrown. -/
def step (o : IndexStep) : Prog ω A ApnError o.Value :=
  (run o).bind fun answer =>
    match (answer : Result o.Value) with
    | .ok a => .ret a
    | .error e => .fail e

def inspect' (e : OperationIndexEntry) (wanted : Option WantedClaims) :
    Prog ω A ApnError Inspection :=
  (step run (.inspect e wanted)).bind fun found =>
    match (found : Inspection) with
    | .orphan => (step run (.forget e)).bind fun _ => .ret .clear
    | found => .ret found

/-- Every colliding entry is looked at; the ids of those that do not block. -/
def inspectAll (wanted : WantedClaims) :
    List OperationIndexEntry → Prog ω A ApnError (List OperationId)
  | [] => .ret []
  | e :: es =>
    (inspect' run e (some wanted)).bind fun found =>
      match found with
      | .blocked blocker => .fail blocker.error
      | _ => (inspectAll wanted es).bind fun clear => .ret (e.operationId :: clear)

/-- A few other open entries are verified per check. -/
def collect (others : List OperationIndexEntry) : List ℕ → Prog ω A ApnError Unit
  | [] => .ret ()
  | i :: is =>
    match others[i % others.length]? with
    | none => .ret ()
    | some e => (inspect' run e none).bind fun _ => collect others is

def check (wanted : WantedClaims) : Prog ω A ApnError (List OperationId) := do
  let (colliding, others) ← step run (.colliding wanted)
  let clear ← inspectAll run { wanted with claims := wantedClaims registry wanted } colliding
  let start : ℕ ← step run (.pick others.length)
  collect run others ((List.range (min gcPerCheck others.length)).map fun i => start + i)
  return clear

def claimAttempt (wanted : WantedClaims) (admitted : OperationIndexEntry) :
    Prog ω A ApnError Bool := do
  let clear ← check registry run wanted
  step run (.claim wanted clear admitted)

/-- One retry when the colliding set grew. -/
def claimUnderLock (wanted : WantedClaims) (admitted : OperationIndexEntry) :
    Prog ω A ApnError Unit := do
  let done ← claimAttempt registry run wanted admitted
  if done then return ()
  else
    let done ← claimAttempt registry run wanted admitted
    if done then return ()
    else
      Prog.fail ⟨.stateBusy,
        "Another operation claimed this account concurrently; retry the operation."⟩

/-- The family's prepare body: it may write its record, then returns or throws. -/
def prepareBody (identity : PrepareIdentity) : Prog ω A ApnError (Result Unit) := do
  let writes : Bool ← step run (.work identity)
  (if writes then step run (.writeRecord identity) else Prog.ret () : Prog ω A ApnError Unit)
  run (.workDone identity)

def dropIfRecordless (id : OperationId) : Prog ω A ApnError Bool :=
  (step run (.recordless id)).bind fun found =>
    match (found : Option OperationIndexEntry) with
    | none => .ret false
    | some e => (step run (.forget e)).bind fun _ => .ret true

def follow (id : OperationId) : Prog ω A ApnError Unit :=
  (step run (.entry id)).bind fun found =>
    match (found : Option OperationIndexEntry) with
    | none => .ret ()
    | some e => (inspect' run e none).bind fun _ => .ret ()

/-- Admits a new operation: its claim is written before its body runs, and follows its record after. -/
def admitOperation (identity : PrepareIdentity) (wanted : WantedClaims) : Prog ω A ApnError Unit := do
  step run .reconcile
  let admitted ← step run (.resolve identity wanted)
  claimUnderLock registry run { wanted with except' := some identity.operationId } admitted
  let outcome ← prepareBody run identity
  let dropped ← dropIfRecordless run identity.operationId
  match outcome with
  | .error e => Prog.fail e
  | .ok () => if dropped then return () else follow run identity.operationId

end Admit

/-- `resolvePrepare` as a call of its own. -/
def resolveCall {Doc : Type} (registry : OperationRegistry Doc) (identity : PrepareIdentity) :
    IndexProg Doc Unit := do
  Prog.perform (IndexOp.asked identity)
  let found ← resolvePrepare registry identity
  Prog.perform (IndexOp.answered identity found.isSome)

end PaymentNode
