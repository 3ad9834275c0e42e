import Mathlib.Data.List.Dedup
import PaymentNode.Lib.KeyedStore
import PaymentNode.Lib.Prog
import PaymentNode.Index.Types

/-!
# Files — the files of the operation index, and programs over them

`entries/` and `open/` hold one entry a file, `idempotency/` one pointer a file, and `terminal-pointers/` the
pointers of backfilled terminal records, one shard for each first digit of a hash.  Beside them lie the family
records.  A program does one file operation at a time: each reads or writes a whole file, or lists a directory.
-/

namespace PaymentNode

structure RecordFile (Doc : Type) where
  path : RecordPath
  doc : Doc

/-- `[...new Set(ids)].sort()` -/
def sortedUnique (ids : List OperationId) : List OperationId :=
  ids.dedup.insertionSort (· ≤ ·)

theorem mem_sortedUnique {ids : List OperationId} {id : OperationId} :
    id ∈ sortedUnique ids ↔ id ∈ ids := by
  rw [sortedUnique, List.mem_insertionSort, List.mem_dedup]

-- A sorted list without duplicates is determined by its members.
theorem sortedUnique_congr {ids ids' : List OperationId} (h : ∀ id, id ∈ ids ↔ id ∈ ids') :
    sortedUnique ids = sortedUnique ids' := by
  have hperm : ids.dedup.Perm ids'.dedup := by
    rw [List.perm_ext_iff_of_nodup (List.nodup_dedup ids) (List.nodup_dedup ids')]
    intro id
    rw [List.mem_dedup, List.mem_dedup, h]
  have hsorted : ∀ l : List OperationId, (l.insertionSort (· ≤ ·)).Pairwise (· ≤ ·) :=
    fun l => List.pairwise_insertionSort _ l
  apply List.Perm.eq_of_pairwise _ (hsorted _) (hsorted _)
  · exact (List.perm_insertionSort _ _).trans (hperm.trans (List.perm_insertionSort _ _).symm)
  · exact fun a b _ _ hab hba => le_antisymm hab hba

/-- The shard of a hash is its first digit. -/
def shardName (hash : StateHash) : Char := hash.front

abbrev Pointers := StateHash → Option (List OperationId)

structure IndexFiles (Doc : Type) where
  entries : KeyedStore OperationIndexEntry.operationId
  opened : KeyedStore OperationIndexEntry.operationId
  pointers : Pointers
  shards : Pointers
  records : KeyedStore (@RecordFile.path Doc)

namespace IndexFiles

variable {Doc : Type} (files : IndexFiles Doc)

/-- No index files yet, over the given records. -/
def unindexed (records : KeyedStore (@RecordFile.path Doc)) : IndexFiles Doc :=
  ⟨KeyedStore.empty, KeyedStore.empty, fun _ => none, fun _ => none, records⟩

def entry (id : OperationId) : Option OperationIndexEntry := files.entries.find? id

def openEntry (id : OperationId) : Option OperationIndexEntry := files.opened.find? id

/-- A pointer file holds every operation of its hash; a hash without one is looked up in its shard. -/
def pointer (hash : StateHash) : Option (List OperationId) :=
  match files.pointers hash with
  | some ids => some ids
  | none => files.shards hash

def record (path : RecordPath) : Option Doc := (files.records.find? path).map RecordFile.doc

/-- The record names of one store. -/
def recordNames (store : OperationStore) : List RecordPath :=
  (files.records.rows.map RecordFile.path).filter fun path =>
    path.directory = store.directory && path.profileHash.isSome = store.perProfile

end IndexFiles

inductive FileOp
  | entryIds
  | openIds
  | pointerHashes
  | recordNames (store : OperationStore)
  | record (path : RecordPath)
  | entry (id : OperationId)
  | openEntry (id : OperationId)
  | pointerFile (hash : StateHash)
  | shard (name : Char)
  | putEntry (entry : OperationIndexEntry)
  | putOpen (entry : OperationIndexEntry)
  | dropEntry (id : OperationId)
  | dropOpen (id : OperationId)
  | putPointer (hash : StateHash) (ids : List OperationId) (createOnly : Bool)
  | dropPointer (hash : StateHash)
  | putShard (name : Char) (pointers : Pointers)

def FileOp.Answer (Doc : Type) : FileOp → Type
  | entryIds | openIds => List OperationId
  | pointerHashes => StateHash → Bool
  | recordNames _ => List RecordPath
  | record _ => Option Doc
  | entry _ | openEntry _ => Option OperationIndexEntry
  | pointerFile _ => Option (List OperationId)
  | shard _ => Pointers
  | putPointer _ _ _ => Bool
  | putEntry _ | putOpen _ | dropEntry _ | dropOpen _ | dropPointer _ | putShard _ _ => Unit

/-- What a file operation answers, and the files it leaves.  Writing the same bytes again changes nothing. -/
def FileOp.exec {Doc : Type} (files : IndexFiles Doc) : (o : FileOp) → o.Answer Doc × IndexFiles Doc
  | entryIds => (files.entries.rows.map OperationIndexEntry.operationId, files)
  | openIds => (files.opened.rows.map OperationIndexEntry.operationId, files)
  | pointerHashes => (fun hash => (files.pointers hash).isSome, files)
  | recordNames store => (files.recordNames store, files)
  | record path => (files.record path, files)
  | entry id => (files.entry id, files)
  | openEntry id => (files.openEntry id, files)
  | pointerFile hash => (files.pointers hash, files)
  | shard name => (fun hash => if shardName hash = name then files.shards hash else none, files)
  | putEntry e =>
    ((), if files.entry e.operationId = some e then files
      else { files with entries := files.entries.put e })
  | putOpen e =>
    ((), if files.openEntry e.operationId = some e then files
      else { files with opened := files.opened.put e })
  | dropEntry id => ((), { files with entries := files.entries.erase id })
  | dropOpen id => ((), { files with opened := files.opened.erase id })
  | putPointer hash ids createOnly =>
    if createOnly && (files.pointers hash).isSome then (false, files)
    else
      (true, { files with
        pointers := Function.update files.pointers hash (some (sortedUnique ids)) })
  | dropPointer hash => ((), { files with pointers := Function.update files.pointers hash none })
  | putShard name pointers =>
    ((), { files with
      shards := fun hash => if shardName hash = name then pointers hash else files.shards hash })

/-- What a call of the index says of itself; no program reads it. -/
inductive IndexEvent (π : Type)
  | admitted (id : OperationId) (hash : Option StateHash)
  | forgot (id : OperationId)
  | worked (id : OperationId) (hash : Option StateHash)
  | wrote (id : OperationId)
  | asked (p : π) (id : OperationId)
  | answered (p : π) (id : OperationId) (found : Bool)
deriving DecidableEq

inductive IndexOp
  | file (o : FileOp)
  | lock
  | unlock
  | now
  | random (n : ℕ)
  /-- The prepare body begins: will it get as far as its record? -/
  | work (identity : PrepareIdentity)
  /-- The body writes its record. -/
  | writeRecord (identity : PrepareIdentity)
  /-- The body returns or throws. -/
  | workDone (identity : PrepareIdentity)
  | asked (identity : PrepareIdentity)
  | answered (identity : PrepareIdentity) (found : Bool)

def IndexOp.Answer (Doc : Type) : IndexOp → Type
  | file o => o.Answer Doc
  | lock | workDone _ => Result Unit
  | unlock | writeRecord _ | asked _ | answered _ _ => Unit
  | now => ℤ
  | random _ => ℕ
  | work _ => Bool

abbrev IndexProg (Doc α : Type) := Prog IndexOp (IndexOp.Answer Doc) ApnError α

namespace IndexProg

variable {Doc α : Type}

def lift : Result α → IndexProg Doc α
  | .ok a => .ret a
  | .error e => .fail e

def file (o : FileOp) : IndexProg Doc (o.Answer Doc) := Prog.perform (IndexOp.file o)

def entryIds : IndexProg Doc (List OperationId) := file .entryIds
def openIds : IndexProg Doc (List OperationId) := file .openIds
def pointerHashes : IndexProg Doc (StateHash → Bool) := file .pointerHashes
def recordNames (store : OperationStore) : IndexProg Doc (List RecordPath) :=
  file (.recordNames store)
def record (path : RecordPath) : IndexProg Doc (Option Doc) := file (.record path)
def entry (id : OperationId) : IndexProg Doc (Option OperationIndexEntry) := file (.entry id)
def openEntry (id : OperationId) : IndexProg Doc (Option OperationIndexEntry) := file (.openEntry id)
def pointerFile (hash : StateHash) : IndexProg Doc (Option (List OperationId)) :=
  file (.pointerFile hash)
def shard (name : Char) : IndexProg Doc Pointers := file (.shard name)
def putEntry (e : OperationIndexEntry) : IndexProg Doc Unit := file (.putEntry e)
def putOpen (e : OperationIndexEntry) : IndexProg Doc Unit := file (.putOpen e)
def dropEntry (id : OperationId) : IndexProg Doc Unit := file (.dropEntry id)
def dropOpen (id : OperationId) : IndexProg Doc Unit := file (.dropOpen id)
def putPointer (hash : StateHash) (ids : List OperationId) (createOnly : Bool) : IndexProg Doc Bool :=
  file (.putPointer hash ids createOnly)
def dropPointer (hash : StateHash) : IndexProg Doc Unit := file (.dropPointer hash)
def putShard (name : Char) (pointers : Pointers) : IndexProg Doc Unit := file (.putShard name pointers)

def now : IndexProg Doc ℤ := Prog.perform IndexOp.now

/-- The one leaf lock, held only around index file operations. -/
def withIndexLock (x : IndexProg Doc α) : IndexProg Doc α :=
  ((Prog.perform IndexOp.lock).bind lift).bind fun _ =>
    x.finally' (Prog.perform IndexOp.unlock)

def pointer (hash : StateHash) : IndexProg Doc (Option (List OperationId)) := do
  let found ← pointerFile hash
  match found with
  | some ids => return some ids
  | none =>
    let pointers ← shard (shardName hash)
    return pointers hash

end IndexProg
end PaymentNode
