import PaymentNode.Index.Files

/-!
# Reconcile — the walk that indexes every record whose name has no entry yet

Names only: a record is read when its name has no entry.  Each record is written pointer first, then its open
copy, then its entry; terminal records found by one walk are written together, their pointers into shards.
-/

namespace PaymentNode

open IndexProg

variable {Doc : Type} (registry : OperationRegistry Doc)

abbrev Named (Doc : Type) := OperationFamilyAdapter Doc × RecordPath

def stateBusy : ApnError :=
  ⟨.stateBusy, "The operation index changed concurrently; retry the operation."⟩

def bindPointerAttempts : ℕ → StateHash → OperationId → IndexProg Doc Unit
  | 0, _, _ => Prog.fail stateBusy
  | attempts + 1, hash, id => do
    let current ← pointer hash
    if id ∈ current.getD [] then return ()
    else
      let written ← putPointer hash (current.getD [] ++ [id]) current.isNone
      if written then return () else bindPointerAttempts attempts hash id

def bindPointer (hash : StateHash) (id : OperationId) : IndexProg Doc Unit :=
  bindPointerAttempts 3 hash id

def bindHash (hash : Option StateHash) (id : OperationId) : IndexProg Doc Unit :=
  match hash with
  | none => Prog.ret ()
  | some hash => bindPointer hash id

/-- An entry without claims has no open copy. -/
def putClaims (e : OperationIndexEntry) : IndexProg Doc Unit :=
  if 0 < e.claims.length then putOpen e else dropOpen e.operationId

/-- An owner release of a quarantine stays released while the record still cannot be read. -/
def staysReleased (e : OperationIndexEntry) (force : Bool) : IndexProg Doc Bool :=
  if force ∨ e.state = .unreadable then
    (entry e.operationId).bind fun existing =>
      Prog.ret ((existing.any fun old => old.state = .released) && e.state = .unreadable)
  else Prog.ret false

/-- Pointer first, then the open copy, then the entry: presence in `entries/` means fully indexed. -/
def writeEntry (e : OperationIndexEntry) (force : Bool) : IndexProg Doc Unit := do
  let released ← staysReleased e force
  if released then return ()
  else
    bindHash e.idempotencyHash e.operationId
    putClaims e
    putEntry e

def write (e : Option OperationIndexEntry) (force : Bool) : IndexProg Doc Unit :=
  match e with
  | none => Prog.ret ()
  | some e => writeEntry e force

/-- An unreadable record holds the claims its raw bytes still name. -/
def quarantine (adapter : OperationFamilyAdapter Doc) (name : RecordPath) (reason : UnreadableReason) :
    IndexProg Doc (Option OperationIndexEntry) := do
  let raw ← record name
  return raw.map (quarantineEntry registry adapter name reason)

def fromRecord (adapter : OperationFamilyAdapter Doc) (name : RecordPath) (doc : Doc) :
    IndexProg Doc (Option OperationIndexEntry) :=
  if namesRecord adapter name doc then Prog.ret (some (recordEntry adapter name doc))
  else quarantine registry adapter name .recordInvalid

/-- The entry a record yields today. -/
def derive (adapter : OperationFamilyAdapter Doc) (name : RecordPath) :
    IndexProg Doc (Option OperationIndexEntry) := do
  let found ← record name
  match found with
  | none => return none
  | some doc =>
    if adapter.valid doc then fromRecord registry adapter name doc
    else quarantine registry adapter name .recordInvalid

def deriveAll : List (Named Doc) → IndexProg Doc (List OperationIndexEntry)
  | [] => Prog.ret []
  | (adapter, name) :: named => do
    let e ← derive registry adapter name
    let rest ← deriveAll named
    return e.toList ++ rest

def bindAll (id : OperationId) : List OperationIndexEntry → IndexProg Doc Unit
  | [] => Prog.ret ()
  | e :: es => (bindHash e.idempotencyHash id).bind fun _ => bindAll id es

/-- What one id in two places is indexed as: corrupt, holding what each copy holds. -/
def duplicateEntry (first : OperationIndexEntry) (derived : List OperationIndexEntry) :
    OperationIndexEntry :=
  entryOf { first with
    idempotencyHash := none
    requestHash := none
    state := .unreadable
    admittedAt := none
    claims := normalizeClaims (derived.flatMap OperationIndexEntry.claims)
    unreadableReason := some .duplicateOperationId }

def indexDuplicate (id : OperationId) (named : List (Named Doc)) : IndexProg Doc Unit := do
  let existing ← entry id
  if existing.any fun e => e.unreadableReason = some .duplicateOperationId then return ()
  else
    let derived ← deriveAll registry named
    match derived with
    | [] => return ()
    | first :: rest =>
      bindAll id (first :: rest)
      writeEntry (duplicateEntry first (first :: rest)) false

/-- Every name of every store, with the adapter that owns it. -/
def allNames : List (OperationFamilyAdapter Doc × OperationStore) → IndexProg Doc (List (Named Doc))
  | [] => Prog.ret []
  | (adapter, store) :: stores => do
    let names ← recordNames store
    let rest ← allNames stores
    return names.map (fun name => (adapter, name)) ++ rest

def OperationRegistry.stores (registry : OperationRegistry Doc) :
    List (OperationFamilyAdapter Doc × OperationStore) :=
  registry.adapters.flatMap fun adapter => adapter.stores.map fun store => (adapter, store)

/-- The ids of a walk, each where it was first seen. -/
def seenIds (named : List (Named Doc)) : List OperationId :=
  (named.map fun n => n.2.operationId).reverse.dedup.reverse

def placesOf (named : List (Named Doc)) (id : OperationId) : List (Named Doc) :=
  named.filter fun n => n.2.operationId = id

/-- One id: written at once, or returned when it is the entry of a terminal record. -/
def walkOne (indexed : List OperationId) (id : OperationId) (named : List (Named Doc)) :
    IndexProg Doc (List OperationIndexEntry) :=
  match named with
  | [] => Prog.ret []
  | [(adapter, name)] =>
    if id ∈ indexed then Prog.ret []
    else do
      let e ← derive registry adapter name
      if e.any fun e => e.state = .terminal then return e.toList
      else
        write e false
        return []
  | _ => (indexDuplicate registry id named).bind fun _ => Prog.ret []

def walk (indexed : List OperationId) (named : List (Named Doc)) :
    List OperationId → IndexProg Doc (List OperationIndexEntry)
  | [] => Prog.ret []
  | id :: ids => do
    let terminal ← walkOne registry indexed id (placesOf named id)
    let rest ← walk indexed named ids
    return terminal ++ rest

/-! ## The bulk of terminal records -/

/-- Hashes with a pointer file keep using it; the others are returned for their shards. -/
def bindIndividual (individual : StateHash → Bool) :
    List OperationIndexEntry → IndexProg Doc (List (StateHash × OperationId))
  | [] => Prog.ret []
  | e :: es =>
    match e.idempotencyHash with
    | none => bindIndividual individual es
    | some hash =>
      if individual hash then
        (bindPointer hash e.operationId).bind fun _ => bindIndividual individual es
      else
        (bindIndividual individual es).bind fun added => Prog.ret ((hash, e.operationId) :: added)

def mergedPointers (current : Pointers) (added : List (StateHash × OperationId)) : Pointers :=
  fun hash =>
    if hash ∈ added.map Prod.fst then
      some (sortedUnique ((current hash).getD [] ++
        (added.filter fun a => a.1 = hash).map Prod.snd))
    else current hash

def mergeShard (added : List (StateHash × OperationId)) (name : Char) : IndexProg Doc Unit := do
  let current ← shard name
  let here := added.filter fun a => shardName a.1 = name
  let merged := mergedPointers current here
  if here.any fun a => merged a.1 ≠ current a.1 then putShard name merged else return ()

def mergeShards (added : List (StateHash × OperationId)) : List Char → IndexProg Doc Unit
  | [] => Prog.ret ()
  | name :: names => (mergeShard added name).bind fun _ => mergeShards added names

def shardNames (added : List (StateHash × OperationId)) : List Char :=
  (added.map fun a => shardName a.1).dedup.insertionSort (· ≤ ·)

def putEntries (opened : List OperationId) : List OperationIndexEntry → IndexProg Doc Unit
  | [] => Prog.ret ()
  | e :: es => do
    (if e.operationId ∈ opened then dropOpen e.operationId else Prog.ret () : IndexProg Doc Unit)
    putEntry e
    putEntries opened es

/-- The bulk backfill: pointers are durable in their shards before any entry is written. -/
def putTerminal (entries : List OperationIndexEntry) : IndexProg Doc Unit := do
  let individual ← pointerHashes
  let added ← bindIndividual individual entries
  (if added = [] then Prog.ret () else withIndexLock (mergeShards added (shardNames added)) :
    IndexProg Doc Unit)
  let opened ← openIds
  putEntries opened entries

def reconcile : IndexProg Doc Unit := do
  let indexed ← entryIds
  let named ← allNames registry.stores
  let terminal ← walk registry indexed named (seenIds named)
  if terminal = [] then return () else putTerminal terminal

end PaymentNode
