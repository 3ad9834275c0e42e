import PaymentNode.Index.Admission

/-!
# KeyGuard — what guards an idempotency key while its admission stands

Any number of processes admit operations and resolve prepares over one index, file operation by file operation,
each killed wherever it may be.  An admission stands from its entry's write until its operation is forgotten.
The pointer file of a hash guards the standing admission under it: it names that operation alone, or more than
one, and only the holder of the index lock removes it.
-/

namespace PaymentNode

open IndexProg System Discipline

section Semantics

variable {Doc π : Type} [DecidableEq π]

/-- The files, the index lock, and what has happened, the newest first. -/
structure IndexShared (Doc π : Type) where
  files : IndexFiles Doc
  lock : Option π
  log : List (IndexEvent π)

/-- What a file operation says of an admission: its entry is written, or dropped. -/
def fileEvents : FileOp → List (IndexEvent π)
  | .putEntry e =>
    if e.state = .admitted then [.admitted e.operationId e.idempotencyHash] else []
  | .dropEntry id => [.forgot id]
  | _ => []

def IndexShared.after (s : IndexShared Doc π) (o : FileOp) : IndexShared Doc π :=
  { s with files := (o.exec s.files).2, log := fileEvents o ++ s.log }

def IndexShared.note (s : IndexShared Doc π) (event : IndexEvent π) : IndexShared Doc π :=
  { s with log := event :: s.log }

def IndexShared.putRecord (s : IndexShared Doc π) (file : RecordFile Doc) : IndexShared Doc π :=
  { s with files := { s.files with records := s.files.records.put file } }

variable (registry : OperationRegistry Doc)

def indexExec (p : π) (s : IndexShared Doc π) : (o : IndexOp) → o.Answer Doc → IndexShared Doc π → Prop
  | .file o, answer, t => answer = (o.exec s.files).1 ∧ t = s.after o
  | .lock, answer, t =>
    match (answer : Result Unit) with
    | .ok () => s.lock = none ∧ t = { s with lock := some p }
    | .error _ => t = s
  | .unlock, _, t => t = { s with lock := dropped p s.lock }
  | .work identity, _, t => t = s.note (.worked identity.operationId identity.idempotencyHash)
  | .writeRecord identity, _, t =>
    match recordPathFor registry identity with
    | .ok path => ∃ doc, t = (s.putRecord ⟨path, doc⟩).note (.wrote identity.operationId)
    | .error _ => t = s
  | .asked identity, _, t => t = s.note (.asked p identity.operationId)
  | .answered identity found, _, t => t = s.note (.answered p identity.operationId found)
  | .now, _, t | .random _, _, t | .workDone _, _, t => t = s

/-- A process dies with its lock; a record is rewritten by its family's own commands. -/
def keySystem (π : Type) [DecidableEq π] : System IndexOp (IndexOp.Answer Doc) (IndexShared Doc π) π where
  exec := indexExec registry
  crash := fun p s t => t = { s with lock := dropped p s.lock }
  env := fun s t => ∃ file : RecordFile Doc, (s.files.record file.path).isSome ∧ t = s.putRecord file

/-- The calls a process makes. -/
inductive IndexCall : IndexProg Doc Unit → Prop
  | admission (identity : PrepareIdentity) (wanted : WantedClaims) :
      IndexCall (admitOperation registry (stepProgram registry) identity wanted)
  | resolve (identity : PrepareIdentity) : IndexCall (resolveCall registry identity)

def IndexShared.fresh : IndexShared Doc π :=
  ⟨IndexFiles.unindexed KeyedStore.empty, none, []⟩

end Semantics

/-! ## What the log says -/

section Log

variable {π : Type}

/-- The latest admission of `id` under `hash` has not been forgotten. -/
def Standing (id : OperationId) (hash : StateHash) : List (IndexEvent π) → Prop
  | [] => False
  | .admitted i h :: log => (i = id ∧ h = some hash) ∨ Standing id hash log
  | .forgot i :: log => i ≠ id ∧ Standing id hash log
  | .worked _ _ :: log | .wrote _ :: log | .asked _ _ :: log | .answered _ _ _ :: log =>
    Standing id hash log

/-- What may be said next, after `log`. -/
def Admissible (log : List (IndexEvent π)) : IndexEvent π → Prop
  | .admitted id (some hash) => ∀ other, other ≠ id → ¬ Standing other hash log
  | .worked id hash => .admitted id hash ∈ log
  | .answered p id false => ∃ mid before, log = mid ++ .asked p id :: before ∧
      (∀ i, .asked p i ∉ mid) ∧ (.wrote id ∈ before → .forgot id ∈ mid)
  | _ => True

def LogOk : List (IndexEvent π) → Prop
  | [] => True
  | event :: log => Admissible log event ∧ LogOk log

theorem LogOk.split {later earlier : List (IndexEvent π)} {event : IndexEvent π}
    (h : LogOk (later ++ event :: earlier)) : Admissible earlier event := by
  induction later with
  | nil => exact h.1
  | cons _ later ih => exact ih h.2

-- An admission that no longer stands was forgotten after it.
theorem forgot_of_not_standing {id : OperationId} {hash : StateHash} {log : List (IndexEvent π)}
    (hmem : .admitted id (some hash) ∈ log) (hnot : ¬ Standing id hash log) :
    ∃ mid earlier, log = mid ++ .admitted id (some hash) :: earlier ∧ .forgot id ∈ mid := by
  induction log with
  | nil => cases hmem
  | cons event log ih =>
    -- An event that leaves the admission standing as it was.
    have hskip : .admitted id (some hash) ∈ log → ¬ Standing id hash log →
        ∃ mid earlier, event :: log = mid ++ .admitted id (some hash) :: earlier ∧
          .forgot id ∈ mid := by
      intro hin hnot
      rcases ih hin hnot with ⟨mid, earlier, hlog, hforgot⟩
      exact ⟨event :: mid, earlier, by rw [hlog, List.cons_append],
        List.mem_cons_of_mem _ hforgot⟩
    cases event with
    | admitted i h =>
      simp only [Standing, not_or] at hnot
      rcases List.mem_cons.mp hmem with heq | hin
      · cases heq
        exact absurd ⟨rfl, rfl⟩ hnot.1
      · exact hskip hin hnot.2
    | forgot i =>
      have hin : .admitted id (some hash) ∈ log := by simpa using hmem
      by_cases hid : i = id
      · rw [hid]
        rcases List.append_of_mem hin with ⟨mid, earlier, hlog⟩
        exact ⟨.forgot id :: mid, earlier, by rw [hlog, List.cons_append], List.mem_cons_self⟩
      · exact hskip hin fun hs => hnot ⟨hid, hs⟩
    | worked i h => exact hskip (by simpa using hmem) hnot
    | wrote i => exact hskip (by simpa using hmem) hnot
    | asked q i => exact hskip (by simpa using hmem) hnot
    | answered q i f => exact hskip (by simpa using hmem) hnot

end Log

/-! ## The discipline -/

section Discipline

variable {Doc π : Type} {registry : OperationRegistry Doc}

/-- The pointer file of `hash` lets no other operation be admitted under it. -/
def Guarded (files : IndexFiles Doc) (id : OperationId) (hash : StateHash) : Prop :=
  ∃ ids, files.pointers hash = some ids ∧ (ids = [id] ∨ 2 ≤ ids.length)

/-- Some registered store holds a record under `id`. -/
def Recorded (registry : OperationRegistry Doc) (files : IndexFiles Doc) (id : OperationId) : Prop :=
  ∃ owner ∈ registry.stores, ∃ name, name ∈ files.recordNames owner.2 ∧ name.operationId = id

structure KeyInv (registry : OperationRegistry Doc) (s : IndexShared Doc π) : Prop where
  pointers : ∀ hash ids, s.files.pointers hash = some ids → ids ≠ []
  shards : ∀ hash ids, s.files.shards hash = some ids → ids ≠ []
  guarded : ∀ id hash, Standing id hash s.log → Guarded s.files id hash
  written : ∀ id, .wrote id ∈ s.log → Recorded registry s.files id
  ok : LogOk s.log

/-- A pointer file stays as it is, or comes to name more than one operation. -/
def PointersGrow (f g : IndexFiles Doc) : Prop :=
  ∀ hash ids, f.pointers hash = some ids →
    ∃ ids', g.pointers hash = some ids' ∧ (ids' = ids ∨ 2 ≤ ids'.length)

/-- What `p` lets the others do: the log grows by events that are not its own calls, an entry goes only when it
is forgotten, records stay; and under its lock no admission is made and no pointer file is removed. -/
structure KeyRely (p : π) (s t : IndexShared Doc π) : Prop where
  log : ∃ new, t.log = new ++ s.log ∧ (∀ i, .asked p i ∉ new) ∧
    ∀ i, (s.files.entry i).isSome → (t.files.entry i).isSome ∨ .forgot i ∈ new
  records : ∀ path, (s.files.record path).isSome → (t.files.record path).isSome
  lock : s.lock = some p → t.lock = some p ∧
    (∀ id hash, Standing id hash t.log → Standing id hash s.log) ∧ PointersGrow s.files t.files

def keyDiscipline (registry : OperationRegistry Doc) (π : Type) :
    Discipline (IndexShared Doc π) π := ⟨KeyInv registry, KeyRely⟩

theorem PointersGrow.refl (f : IndexFiles Doc) : PointersGrow f f :=
  fun _ ids h => ⟨ids, h, Or.inl rfl⟩

variable {hash : StateHash}

theorem Guarded.grow {f g : IndexFiles Doc} {id : OperationId}
    (h : Guarded f id hash) (hgrow : PointersGrow f g) : Guarded g id hash := by
  rcases h with ⟨ids, hids, hor⟩
  rcases hgrow hash ids hids with ⟨ids', hids', heq | hlong⟩
  · exact ⟨ids', hids', by rw [heq]; exact hor⟩
  · exact ⟨ids', hids', Or.inr hlong⟩

theorem keyRely_refl (p : π) (s : IndexShared Doc π) : KeyRely p s s := by
  refine ⟨⟨[], rfl, by simp, fun i hi => Or.inl hi⟩, fun _ h => h, ?_⟩
  exact fun h => ⟨h, fun _ _ hs => hs, PointersGrow.refl _⟩

variable {s : IndexShared Doc π}

theorem record_putRecord {file : RecordFile Doc} {path : RecordPath} :
    (s.files.record path).isSome → ((s.putRecord file).files.record path).isSome := by
  intro h
  unfold IndexFiles.record IndexShared.putRecord at *
  rw [Option.isSome_map] at *
  by_cases heq : path = file.path
  · rw [heq]
    have hself : (s.files.records.put file).find? (RecordFile.path file) = some file :=
      KeyedStore.find?_put_self _ _
    rw [hself]
    rfl
  · rw [KeyedStore.find?_put_ne _ _ heq]
    exact h

theorem mem_recordNames {files : IndexFiles Doc} {store : OperationStore} {name : RecordPath} :
    name ∈ files.recordNames store ↔ (files.record name).isSome ∧
      name.directory = store.directory ∧ name.profileHash.isSome = store.perProfile := by
  unfold IndexFiles.recordNames IndexFiles.record
  rw [List.mem_filter, Option.isSome_map, Bool.and_eq_true, decide_eq_true_eq, decide_eq_true_eq]
  have hmem : name ∈ files.records.rows.map RecordFile.path ↔ (files.records.find? name).isSome := by
    constructor
    · intro h
      rcases List.mem_map.mp h with ⟨file, hfile, rfl⟩
      rw [KeyedStore.find?_of_mem hfile]
      rfl
    · intro h
      rcases Option.isSome_iff_exists.mp h with ⟨file, hfile⟩
      have hkey : RecordFile.path file = name := KeyedStore.key_of_find? hfile
      exact List.mem_map.mpr ⟨file, KeyedStore.mem_of_find? hfile, hkey⟩
  rw [hmem]

theorem Recorded.of_records {f g : IndexFiles Doc} {id : OperationId} (h : Recorded registry f id)
    (hrecords : ∀ path, (f.record path).isSome → (g.record path).isSome) : Recorded registry g id := by
  rcases h with ⟨owner, howner, name, hname, hid⟩
  rw [mem_recordNames] at hname
  exact ⟨owner, howner, name, mem_recordNames.mpr ⟨hrecords name hname.1, hname.2⟩, hid⟩

-- An event that touches no admission.
theorem standing_note {event : IndexEvent π} (hevent : ∀ i h, event ≠ .admitted i h) {id : OperationId}
    (h : Standing id hash (event :: s.log)) : Standing id hash s.log := by
  cases event with
  | admitted i g => exact absurd rfl (hevent i g)
  | forgot i => exact h.2
  | worked i h => exact h
  | wrote i => exact h
  | asked q i => exact h
  | answered q i f => exact h

/-- File operations that make no admission and remove no pointer file. -/
def FileOp.Plain : FileOp → Prop
  | .putEntry e => e.state ≠ .admitted
  | .putPointer _ ids createOnly =>
    ids ≠ [] ∧ (createOnly = false → 2 ≤ (sortedUnique ids).length)
  | .dropPointer _ => False
  | .putShard _ pointers => ∀ hash ids, pointers hash = some ids → ids ≠ []
  | _ => True

section Plain

variable {o : FileOp} {files : IndexFiles Doc}

theorem fileEvents_plain (ho : o.Plain) :
    fileEvents o = ([] : List (IndexEvent π)) ∨ ∃ id, o = .dropEntry id := by
  cases o with
  | putEntry e => exact Or.inl (if_neg ho)
  | dropEntry id => exact Or.inr ⟨id, rfl⟩
  | _ => exact Or.inl rfl

theorem record_exec (path : RecordPath) : (o.exec files).2.record path = files.record path := by
  cases o with
  | putEntry e => simp only [FileOp.exec]; split <;> rfl
  | putOpen e => simp only [FileOp.exec]; split <;> rfl
  | putPointer hash ids createOnly => simp only [FileOp.exec]; split <;> rfl
  | _ => rfl

theorem pointersGrow_exec (ho : o.Plain) : PointersGrow files (o.exec files).2 := by
  cases o with
  | putPointer hash ids createOnly =>
    simp only [FileOp.exec]
    split
    · exact PointersGrow.refl _
    · rename_i hnew
      intro other ids' hids'
      by_cases heq : other = hash
      · rw [heq] at hids' ⊢
        have hupdate : createOnly = false := by
          rw [hids'] at hnew
          simpa using hnew
        exact ⟨sortedUnique ids, by simp, Or.inr (ho.2 hupdate)⟩
      · exact ⟨ids', by simpa [Function.update_of_ne heq] using hids', Or.inl rfl⟩
  | dropPointer hash => exact ho.elim
  | putEntry e =>
    simp only [FileOp.exec]
    split <;> exact PointersGrow.refl _
  | putOpen e =>
    simp only [FileOp.exec]
    split <;> exact PointersGrow.refl _
  | _ => exact PointersGrow.refl _

-- An entry goes only when it is dropped, which the log records.
theorem entry_exec (i : OperationId) (h : (files.entry i).isSome) :
    (((o.exec files).2).entry i).isSome ∨ IndexEvent.forgot i ∈ (fileEvents o : List (IndexEvent π)) := by
  cases o with
  | putEntry e =>
    left
    simp only [FileOp.exec]
    split
    · exact h
    · by_cases hid : i = e.operationId
      · rw [hid]
        have hself : (files.entries.put e).find? e.operationId = some e := KeyedStore.find?_put_self _ _
        show ((files.entries.put e).find? e.operationId).isSome
        rw [hself]
        rfl
      · show ((files.entries.put e).find? i).isSome
        rw [KeyedStore.find?_put_ne _ _ hid]
        exact h
  | dropEntry id =>
    by_cases hid : i = id
    · right
      rw [hid]
      exact List.mem_cons_self
    · left
      show ((files.entries.erase id).find? i).isSome
      rw [KeyedStore.find?_erase_ne _ hid]
      exact h
  | putOpen e =>
    left
    simp only [FileOp.exec]
    split <;> exact h
  | putPointer hash ids createOnly =>
    left
    simp only [FileOp.exec]
    split <;> exact h
  | _ => exact Or.inl h

theorem pointers_exec_ne_nil (ho : o.Plain)
    (hpointers : ∀ hash ids, files.pointers hash = some ids → ids ≠ []) (hash : StateHash)
    (ids : List OperationId) (h : (o.exec files).2.pointers hash = some ids) : ids ≠ [] := by
  cases o with
  | putPointer other ids' createOnly =>
    simp only [FileOp.exec] at h
    split at h
    · exact hpointers hash ids h
    · by_cases heq : hash = other
      · rw [heq] at h
        have hids : some (sortedUnique ids') = some ids := by simpa using h
        cases hids
        rcases List.exists_mem_of_ne_nil ids' ho.1 with ⟨id, hid⟩
        exact List.ne_nil_of_mem (mem_sortedUnique.mpr hid)
      · exact hpointers hash ids (by simpa [Function.update_of_ne heq] using h)
  | dropPointer other => exact ho.elim
  | putEntry e =>
    simp only [FileOp.exec] at h
    split at h <;> exact hpointers hash ids h
  | putOpen e =>
    simp only [FileOp.exec] at h
    split at h <;> exact hpointers hash ids h
  | _ => exact hpointers hash ids h

theorem shards_exec_ne_nil (ho : o.Plain)
    (hshards : ∀ hash ids, files.shards hash = some ids → ids ≠ []) (hash : StateHash)
    (ids : List OperationId) (h : (o.exec files).2.shards hash = some ids) : ids ≠ [] := by
  cases o with
  | putShard name pointers =>
    simp only [FileOp.exec] at h
    split at h
    · exact ho hash ids h
    · exact hshards hash ids h
  | putPointer other ids' createOnly =>
    simp only [FileOp.exec] at h
    split at h <;> exact hshards hash ids h
  | putEntry e =>
    simp only [FileOp.exec] at h
    split at h <;> exact hshards hash ids h
  | putOpen e =>
    simp only [FileOp.exec] at h
    split at h <;> exact hshards hash ids h
  | _ => exact hshards hash ids h

variable {s : IndexShared Doc π}

theorem standing_after (ho : o.Plain) {id : OperationId}
    (h : Standing id hash (s.after o).log) : Standing id hash s.log := by
  rcases @fileEvents_plain π _ ho with hnil | ⟨i, rfl⟩
  · unfold IndexShared.after at h
    rw [hnil] at h
    exact h
  · exact h.2

-- A plain operation is one every process allows for, the process itself included.
theorem keyRely_after (ho : o.Plain) (q : π) : KeyRely q s (s.after o) := by
  refine ⟨⟨fileEvents o, rfl, ?_, fun i hi => entry_exec i hi⟩, ?_, ?_⟩
  · intro i hi
    rcases @fileEvents_plain π _ ho with hnil | ⟨j, rfl⟩
    · rw [hnil] at hi
      cases hi
    · simp [fileEvents] at hi
  · intro path h
    show ((o.exec s.files).2.record path).isSome
    rw [record_exec]
    exact h
  · exact fun h => ⟨h, fun _ _ hs => standing_after ho hs, pointersGrow_exec ho⟩

theorem keyInv_after (ho : o.Plain) (hs : KeyInv registry s) : KeyInv registry (s.after o) := by
  refine ⟨pointers_exec_ne_nil ho hs.pointers, shards_exec_ne_nil ho hs.shards, ?_, ?_, ?_⟩
  · intro id hash h
    exact (hs.guarded id hash (standing_after ho h)).grow (pointersGrow_exec ho)
  · intro id hid
    have hold : .wrote id ∈ s.log := by
      rcases @fileEvents_plain π _ ho with hnil | ⟨i, rfl⟩
      · unfold IndexShared.after at hid
        rw [hnil] at hid
        exact hid
      · simpa [IndexShared.after, fileEvents] using hid
    apply (hs.written id hold).of_records
    intro path h
    show ((o.exec s.files).2.record path).isSome
    rw [record_exec]
    exact h
  · rcases @fileEvents_plain π _ ho with hnil | ⟨i, rfl⟩
    · unfold IndexShared.after
      rw [hnil]
      exact hs.ok
    · exact ⟨trivial, hs.ok⟩

end Plain

/-! ## Steps that leave the files alone -/

section Notes

variable {s : IndexShared Doc π} {p : π} {event : IndexEvent π}

theorem keyInv_note (hs : KeyInv registry s)
    (hevent : ∀ i h, event ≠ .admitted i h) (hwrote : ∀ i, event ≠ .wrote i)
    (hok : Admissible s.log event) : KeyInv registry (s.note event) := by
  refine ⟨hs.pointers, hs.shards, ?_, ?_, ⟨hok, hs.ok⟩⟩
  · intro id hash h
    exact hs.guarded id hash (standing_note hevent h)
  · intro id hid
    apply hs.written id
    rcases List.mem_cons.mp hid with heq | hid
    · exact absurd heq.symm (hwrote id)
    · exact hid

theorem keyRely_note (hevent : ∀ i h, event ≠ .admitted i h) (q : π)
    (hasked : ∀ i, event ≠ .asked q i) : KeyRely q s (s.note event) := by
  refine ⟨⟨[event], rfl, ?_, fun i hi => Or.inl hi⟩, fun _ h => h, ?_⟩
  · intro i hi
    exact hasked i (List.mem_singleton.mp hi).symm
  · exact fun h => ⟨h, fun _ _ hs => standing_note hevent hs, PointersGrow.refl _⟩

theorem keyInv_lock {holder : Option π} (hs : KeyInv registry s) :
    KeyInv registry { s with lock := holder } :=
  ⟨hs.pointers, hs.shards, hs.guarded, hs.written, hs.ok⟩

theorem keyRely_lock {holder : Option π} {q : π} (h : s.lock = some q → holder = some q) :
    KeyRely q s { s with lock := holder } := by
  refine ⟨⟨[], rfl, by simp, fun i hi => Or.inl hi⟩, fun _ h => h, ?_⟩
  exact fun hq => ⟨h hq, fun _ _ hs => hs, PointersGrow.refl _⟩

theorem keyInv_putRecord {file : RecordFile Doc} (hs : KeyInv registry s) :
    KeyInv registry (s.putRecord file) :=
  ⟨hs.pointers, hs.shards, hs.guarded,
    fun id hid => (hs.written id hid).of_records fun _ h => record_putRecord h, hs.ok⟩

theorem keyRely_putRecord {file : RecordFile Doc} (q : π) : KeyRely q s (s.putRecord file) := by
  refine ⟨⟨[], rfl, by simp, fun i hi => Or.inl hi⟩, fun _ h => record_putRecord h, ?_⟩
  exact fun h => ⟨h, fun _ _ hs => hs, PointersGrow.refl _⟩

-- A body's record lies in a registered store.
theorem recorded_putRecord {identity : PrepareIdentity} {path : RecordPath} {doc : Doc}
    (hpath : recordPathFor registry identity = .ok path) :
    Recorded registry (s.putRecord ⟨path, doc⟩).files identity.operationId := by
  unfold recordPathFor at hpath
  split at hpath
  · cases hpath
  · rename_i store hstore
    cases hpath
    rcases Option.bind_eq_some_iff.mp hstore with ⟨adapter, hadapter, hhead⟩
    have hmem : adapter ∈ registry.adapters := List.mem_of_find?_eq_some hadapter
    have howner : (adapter, store) ∈ registry.stores := by
      apply List.mem_flatMap.mpr
      exact ⟨adapter, hmem, List.mem_map.mpr ⟨store, List.mem_of_head? hhead, rfl⟩⟩
    refine ⟨(adapter, store), howner, ⟨store.directory,
      if store.perProfile then some identity.profileHash else none, identity.operationId⟩,
      mem_recordNames.mpr ⟨?_, rfl, ?_⟩, rfl⟩
    · unfold IndexFiles.record IndexShared.putRecord
      rw [Option.isSome_map]
      have hself := KeyedStore.find?_put_self s.files.records (⟨⟨store.directory,
        if store.perProfile then some identity.profileHash else none, identity.operationId⟩, doc⟩ :
          RecordFile Doc)
      rw [hself]
      rfl
    · cases store.perProfile <;> rfl

end Notes

/-! ## The two writes that need the lock -/

section Locked

variable {s : IndexShared Doc π} {p : π}

/-- Nobody else's admission stands under `hash`. -/
def Unclaimed (id : OperationId) (hash : StateHash) (log : List (IndexEvent π)) : Prop :=
  ∀ other, other ≠ id → ¬ Standing other hash log

/-- What makes an entry fit to be admitted. -/
def Claimed (e : OperationIndexEntry) (s : IndexShared Doc π) : Prop :=
  ∀ hash, e.idempotencyHash = some hash →
    Guarded s.files e.operationId hash ∧ Unclaimed e.operationId hash s.log

-- The only write that makes an admission.
theorem keeps_admitted {e : OperationIndexEntry} (hs : KeyInv registry s)
    (hlock : s.lock = some p) (hstate : e.state = .admitted) (hclaimed : Claimed e s) :
    (keyDiscipline registry π).Keeps p s (s.after (.putEntry e)) := by
  have hevents : (fileEvents (.putEntry e) : List (IndexEvent π)) =
      [.admitted e.operationId e.idempotencyHash] := if_pos hstate
  have hlog : (s.after (.putEntry e)).log =
      .admitted e.operationId e.idempotencyHash :: s.log := by
    unfold IndexShared.after
    rw [hevents]
    rfl
  have hpointers : (s.after (.putEntry e)).files.pointers = s.files.pointers := by
    unfold IndexShared.after
    simp only [FileOp.exec]
    split <;> rfl
  have hshards : (s.after (.putEntry e)).files.shards = s.files.shards := by
    unfold IndexShared.after
    simp only [FileOp.exec]
    split <;> rfl
  have hrecords : ∀ path, (s.files.record path).isSome →
      ((s.after (.putEntry e)).files.record path).isSome := by
    intro path h
    show ((FileOp.exec s.files (.putEntry e)).2.record path).isSome
    rw [record_exec]
    exact h
  refine ⟨⟨?_, ?_, ?_, ?_, ?_⟩, ?_⟩
  · rw [hpointers]
    exact hs.pointers
  · rw [hshards]
    exact hs.shards
  · intro id hash h
    rw [hlog] at h
    have hguarded : Guarded s.files id hash := by
      rcases h with ⟨rfl, hhash⟩ | h
      · exact (hclaimed hash hhash).1
      · exact hs.guarded id hash h
    unfold Guarded at *
    rw [hpointers]
    exact hguarded
  · intro id hid
    rw [hlog] at hid
    exact (hs.written id (by simpa using hid)).of_records hrecords
  · rw [hlog]
    refine ⟨?_, hs.ok⟩
    cases hhash : e.idempotencyHash with
    | none => trivial
    | some hash => exact (hclaimed hash hhash).2
  · intro q hq
    refine ⟨⟨[.admitted e.operationId e.idempotencyHash], hlog, by simp, ?_⟩, hrecords, ?_⟩
    · intro i hi
      rcases @entry_exec Doc π (.putEntry e) s.files i hi with h | h
      · exact Or.inl h
      · rw [hevents] at h
        exact Or.inr h
    · intro h
      rw [hlock] at h
      exact absurd (Option.some.inj h).symm hq

-- A pointer file is removed where no admission stands under its hash.
theorem keeps_dropPointer (hs : KeyInv registry s) (hlock : s.lock = some p)
    (hnone : ∀ id, ¬ Standing id hash s.log) :
    (keyDiscipline registry π).Keeps p s (s.after (.dropPointer hash)) := by
  refine ⟨⟨?_, hs.shards, ?_, hs.written, hs.ok⟩, ?_⟩
  · intro other ids h
    by_cases heq : other = hash
    · rw [heq] at h
      simp [IndexShared.after, FileOp.exec] at h
    · exact hs.pointers other ids (by
        simpa [IndexShared.after, FileOp.exec, Function.update_of_ne heq] using h)
  · intro id other h
    have hother : other ≠ hash := by
      rintro rfl
      exact hnone id h
    rcases hs.guarded id other h with ⟨ids, hids, hor⟩
    refine ⟨ids, ?_, hor⟩
    simpa [IndexShared.after, FileOp.exec, Function.update_of_ne hother] using hids
  · intro q hq
    refine ⟨⟨[], rfl, by simp, fun i hi => Or.inl hi⟩, fun _ h => h, ?_⟩
    intro h
    rw [hlock] at h
    exact absurd (Option.some.inj h).symm hq

end Locked
end Discipline

/-! ## What each program does from what its process knows -/

section Specs

variable {Doc π α β : Type} [DecidableEq π] {registry : OperationRegistry Doc} {p : π}

/-- A specification of `p`'s part of the system. -/
abbrev KeySpec (registry : OperationRegistry Doc) (p : π) (P : IndexShared Doc π → Prop)
    (x : IndexProg Doc α) (Q : α → IndexShared Doc π → Prop)
    (E : ApnError → IndexShared Doc π → Prop) : Prop :=
  (keyDiscipline registry π).Spec (keySystem registry π) p P x Q E

abbrev KeyStable (registry : OperationRegistry Doc) (p : π) (P : IndexShared Doc π → Prop) : Prop :=
  (keyDiscipline registry π).Stable p P

variable {P : IndexShared Doc π → Prop}

omit [DecidableEq π] in
theorem keyStable_of_rely (h : ∀ s t, KeyRely p s t → P s → P t) : KeyStable registry p P :=
  fun s t hst => h s t hst.2.2

variable {E : ApnError → IndexShared Doc π → Prop} {Q : α → IndexShared Doc π → Prop}

theorem key_ret {a : α} (h : ∀ s, P s → Q a s) : KeySpec registry p P (Prog.ret a) Q E :=
  Spec.ret fun s _ hP => h s hP

theorem key_fail {e : ApnError} :
    KeySpec registry p P (Prog.fail e) Q fun _ => P :=
  Spec.fail fun _ _ hP => hP

theorem key_post {x : IndexProg Doc α} {Q M : α → IndexShared Doc π → Prop} (h : KeySpec registry p P x M E)
    (hQ : ∀ a s, M a s → Q a s) : KeySpec registry p P x Q E :=
  Spec.conseq h (fun _ _ hP => hP) (fun a s _ hq => hQ a s hq) fun _ _ _ hE => hE

-- A program that takes more for granted.
theorem key_conseq {x : IndexProg Doc α} {N E : IndexShared Doc π → Prop}
    {Q M : α → IndexShared Doc π → Prop} (h : KeySpec registry p N x M fun _ => N)
    (hP : ∀ s, P s → N s) (hQ : ∀ a s, M a s → Q a s) (hE : ∀ s, N s → E s) :
    KeySpec registry p P x Q fun _ => E :=
  Spec.conseq h (fun s _ hp => hP s hp) (fun a s _ hq => hQ a s hq) fun _ s _ he => hE s he

theorem key_bind {x : IndexProg Doc α} {f : α → IndexProg Doc β}
    {M : α → IndexShared Doc π → Prop} {Q : β → IndexShared Doc π → Prop} (hx : KeySpec registry p P x M E)
    (hf : ∀ a, KeySpec registry p (M a) (f a) Q E) : KeySpec registry p P (x.bind f) Q E :=
  Spec.bind hx hf

-- A plain file operation keeps what is stable; what it answers is read off the files.
theorem key_file {o : FileOp} (ho : o.Plain) (hP : KeyStable registry p P)
    {R : o.Answer Doc → IndexShared Doc π → Prop}
    (hR : ∀ s, KeyInv registry s → P s → R (o.exec s.files).1 (s.after o)) :
    KeySpec registry p P (file o) (fun a s => P s ∧ R a s) E := by
  apply Spec.op (o := IndexOp.file o) (M := fun a s => P s ∧ R a s) hP
  · rintro s a t hs hPs ⟨rfl, rfl⟩
    have hinv := keyInv_after ho hs
    exact ⟨⟨hinv, fun q _ => keyRely_after ho q⟩, hP s _ ⟨hs, hinv, keyRely_after ho p⟩ hPs,
      hR s hs hPs⟩
  · exact fun a => Spec.ret fun s _ h => h

theorem key_write {o : FileOp} (ho : o.Plain) (hP : KeyStable registry p P) :
    KeySpec registry p P (file o) (fun _ => P) E :=
  key_post (key_file ho hP (R := fun _ _ => True) fun _ _ _ => trivial) fun _ _ h => h.1

theorem key_quiet {o : IndexOp} (hP : KeyStable registry p P)
    (hquiet : ∀ s a t, indexExec registry p s o a t → t = s) :
    KeySpec registry p P (Prog.perform o) (fun _ => P) E := by
  apply Spec.quiet hP (fun q s _ => keyRely_refl q s) hquiet
  exact fun a => Spec.ret fun s _ h => h

theorem key_lift {r : Result α} :
    KeySpec registry p P (lift r) (fun a s => r = .ok a ∧ P s) fun _ => P := by
  cases r with
  | ok a => exact key_ret fun s h => ⟨rfl, h⟩
  | error e => exact key_fail

/-- A fact about the files and the log, whoever holds the lock. -/
structure Kept (registry : OperationRegistry Doc) (p : π) (P : IndexShared Doc π → Prop) : Prop where
  stable : KeyStable registry p P
  free : ∀ s holder, P s → P { s with lock := holder }

def Locks (p : π) (P : IndexShared Doc π → Prop) (s : IndexShared Doc π) : Prop :=
  s.lock = some p ∧ P s

omit [DecidableEq π] in
theorem stable_locks (hP : KeyStable registry p P) : KeyStable registry p (Locks p P) :=
  fun s t hst h => ⟨(hst.2.2.lock h.1).1, hP s t hst h.2⟩

theorem key_withIndexLock {x : IndexProg Doc α} (hP : Kept registry p P) (hQ : ∀ a, Kept registry p (Q a))
    (hx : KeySpec registry p (Locks p P) x (fun a => Locks p (Q a)) fun _ => Locks p P) :
    KeySpec registry p P (withIndexLock x) Q fun _ => P := by
  unfold withIndexLock
  apply key_bind (M := fun _ => Locks p P)
  · apply Spec.op (M := fun answer s =>
      (∀ u, (answer : Result Unit) = .ok u → Locks p P s) ∧ P s) hP.stable
    · intro s answer t hs hPs hexec
      cases answer with
      | error e =>
        cases hexec
        exact ⟨⟨hs, fun q _ => keyRely_refl q s⟩, by simp, hPs⟩
      | ok u =>
        rcases hexec with ⟨hfree, rfl⟩
        refine ⟨⟨keyInv_lock hs, fun q _ => keyRely_lock fun hq => ?_⟩,
          fun _ _ => ⟨rfl, hP.free s _ hPs⟩, hP.free s _ hPs⟩
        rw [hfree] at hq
        cases hq
    · intro answer
      apply Spec.conseq (key_lift (r := (answer : Result Unit))) (fun s _ h => h)
      · exact fun u s _ h => h.2.1 u h.1
      · exact fun _ s _ h => h.2
  · intro _
    have hunlock : ∀ R : IndexShared Doc π → Prop, Kept registry p R →
        KeySpec registry p (Locks p R) (Prog.perform IndexOp.unlock) (fun _ => R) fun _ => P := by
      intro R hR
      apply Spec.op (M := fun _ => R) (stable_locks hR.stable)
      · rintro s answer t hs ⟨_, hRs⟩ rfl
        exact ⟨⟨keyInv_lock hs, fun q hq => keyRely_lock fun h => dropped_ne hq h⟩,
          hR.free s _ hRs⟩
      · exact fun _ => Spec.ret fun s _ h => h
    exact Spec.finally hx (fun a => hunlock (Q a) (hQ a)) fun _ => hunlock P hP

/-! ## Pointers -/

theorem key_pointer {hash : StateHash} (hP : KeyStable registry p P) :
    KeySpec registry p P (pointer hash)
      (fun found s => (∀ ids, found = some ids → ids ≠ []) ∧ P s) E := by
  unfold pointer
  apply key_bind (M := fun (found : Option (List OperationId)) s =>
    P s ∧ ∀ ids, found = some ids → ids ≠ [])
  · apply key_file (o := .pointerFile hash) trivial hP
    exact fun s hs _ ids hids => hs.pointers hash ids hids
  · intro found
    cases found with
    | some ids => exact key_ret fun s h => ⟨h.2, h.1⟩
    | none =>
      apply key_bind (M := fun (pointers : Pointers) s =>
        P s ∧ ∀ ids, pointers hash = some ids → ids ≠ [])
      · apply Spec.pre _ fun s _ h => h.1
        apply key_file (o := .shard (shardName hash)) trivial hP
        intro s hs _ ids hids
        simp only [FileOp.exec] at hids
        split at hids
        · exact hs.shards hash ids hids
        · cases hids
      · exact fun pointers => key_ret fun s h => ⟨h.2, h.1⟩

theorem two_le_sortedUnique {ids : List OperationId} {a b : OperationId} (ha : a ∈ ids) (hb : b ∈ ids)
    (hne : a ≠ b) : 2 ≤ (sortedUnique ids).length := by
  have ha' : a ∈ sortedUnique ids := mem_sortedUnique.mpr ha
  have hb' : b ∈ sortedUnique ids := mem_sortedUnique.mpr hb
  match hl : sortedUnique ids with
  | [] =>
    rw [hl] at ha'
    cases ha'
  | [c] =>
    rw [hl] at ha' hb'
    exact absurd ((List.mem_singleton.mp ha').trans (List.mem_singleton.mp hb').symm) hne
  | _ :: _ :: _ => simp

theorem key_bindPointerAttempts (attempts : ℕ) {hash : StateHash} {id : OperationId}
    (hP : KeyStable registry p P) :
    KeySpec registry p P (bindPointerAttempts attempts hash id) (fun _ => P) fun _ => P := by
  induction attempts with
  | zero => exact key_fail
  | succ attempts ih =>
    apply key_bind (key_pointer hP)
    intro current
    split
    · exact key_ret fun s h => h.2
    · rename_i hnot
      intro s hs h
      rcases h with ⟨hne, hPs⟩
      have hplain : (FileOp.putPointer hash (current.getD [] ++ [id]) current.isNone).Plain := by
        refine ⟨by simp, ?_⟩
        intro hcreate
        cases current with
        | none => cases hcreate
        | some ids =>
          rcases List.exists_mem_of_ne_nil ids (hne ids rfl) with ⟨other, hother⟩
          have hdiff : other ≠ id := by
            rintro rfl
            exact hnot hother
          exact two_le_sortedUnique (List.mem_append_left _ hother)
            (List.mem_append_right _ (List.mem_singleton_self id)) hdiff
      have hrest : KeySpec registry p P
          ((putPointer hash (current.getD [] ++ [id]) current.isNone).bind fun written =>
            if written then Prog.ret () else bindPointerAttempts attempts hash id)
          (fun _ => P) fun _ => P := by
        apply key_bind (key_write hplain hP)
        intro written
        split
        · exact key_ret fun s h => h
        · exact ih
      exact hrest s hs hPs

theorem key_bindHash {hash : Option StateHash} {id : OperationId} (hP : KeyStable registry p P) :
    KeySpec registry p P (bindHash hash id) (fun _ => P) fun _ => P := by
  cases hash with
  | none => exact key_ret fun s h => h
  | some hash => exact key_bindPointerAttempts 3 hP

theorem key_bindAll {id : OperationId} (es : List OperationIndexEntry)
    (hP : KeyStable registry p P) :
    KeySpec registry p P (bindAll id es) (fun _ => P) fun _ => P := by
  induction es with
  | nil => exact key_ret fun s h => h
  | cons e es ih => exact key_bind (key_bindHash hP) fun _ => ih

/-! ## Records that are found -/

/-- Since `base` the log has only grown, by no call of `p`. -/
def LogSince (p : π) (base : List (IndexEvent π)) (s : IndexShared Doc π) : Prop :=
  ∃ mid, s.log = mid ++ base ∧ ∀ i, .asked p i ∉ mid

/-- The operation has its entry, or has been forgotten since `base`. -/
def Found (p : π) (base : List (IndexEvent π)) (id : OperationId) (s : IndexShared Doc π) : Prop :=
  ∃ mid, s.log = mid ++ base ∧ (∀ i, .asked p i ∉ mid) ∧
    ((s.files.entry id).isSome ∨ .forgot id ∈ mid)

def HasRecord (P : IndexShared Doc π → Prop) (name : RecordPath) : Prop :=
  ∀ s, P s → (s.files.record name).isSome

variable {base : List (IndexEvent π)}

omit [DecidableEq π] in
theorem stable_logSince : KeyStable registry p (LogSince p base) := by
  apply keyStable_of_rely
  rintro s t hrely ⟨mid, hlog, hmid⟩
  rcases hrely.log with ⟨new, hnew, hasked, _⟩
  refine ⟨new ++ mid, by rw [hnew, hlog, List.append_assoc], ?_⟩
  intro i hi
  exact (List.mem_append.mp hi).elim (hasked i) (hmid i)

omit [DecidableEq π] in
theorem stable_found {id : OperationId} :
    KeyStable registry p (Found p base id) := by
  apply keyStable_of_rely
  rintro s t hrely ⟨mid, hlog, hmid, hfound⟩
  rcases hrely.log with ⟨new, hnew, hasked, hentries⟩
  refine ⟨new ++ mid, by rw [hnew, hlog, List.append_assoc], ?_, ?_⟩
  · intro i hi
    exact (List.mem_append.mp hi).elim (hasked i) (hmid i)
  · rcases hfound with hentry | hforgot
    · exact (hentries id hentry).imp_right (List.mem_append_left _)
    · exact Or.inr (List.mem_append_right _ hforgot)

omit [DecidableEq π] in
theorem found_of_entry {id : OperationId} {s : IndexShared Doc π}
    (hlog : LogSince p base s) (h : (s.files.entry id).isSome) : Found p base id s := by
  rcases hlog with ⟨mid, hlog, hmid⟩
  exact ⟨mid, hlog, hmid, Or.inl h⟩

-- Every program may take the log as it finds it for its base.
theorem key_anchor {x : IndexProg Doc α} (h : ∀ base, KeySpec registry p (fun s => P s ∧ LogSince p base s) x Q E) :
    KeySpec registry p P x Q E :=
  fun s hs hPs => h s.log s hs ⟨hPs, [], rfl, by simp⟩

section Based

variable {base : List (IndexEvent π)}

-- What is known of an entry that was read.
theorem key_entry {id : OperationId} (hP : KeyStable registry p P) (hbase : ∀ s, P s → LogSince p base s) :
    KeySpec registry p P (entry id)
      (fun found s => P s ∧ (found.isSome → Found p base id s)) E := by
  intro s hs hPs
  have hread : KeySpec registry p P (file (.entry id)) (fun found s => P s ∧
      ((found : Option OperationIndexEntry).isSome → Found p base id s)) E := by
    apply key_file (o := .entry id) trivial hP
    intro s _ hPs hsome
    exact found_of_entry (hbase s hPs) hsome
  exact hread s hs hPs

variable {name : RecordPath}

theorem key_record (hP : KeyStable registry p P) :
    KeySpec registry p P (record name)
      (fun found s => P s ∧ (HasRecord P name → found.isSome)) E := by
  intro s hs hPs
  have hread : KeySpec registry p P (file (.record name)) (fun found s => P s ∧
      (HasRecord P name → (found : Option Doc).isSome)) E := by
    apply key_file (o := .record name) trivial hP
    exact fun s _ hPs hrecord => hrecord s hPs
  exact hread s hs hPs

/-- An entry derived from the record a name names. -/
def DerivedAt (name : RecordPath) (e : OperationIndexEntry) : Prop :=
  e.operationId = name.operationId ∧ e.state ≠ .admitted

variable {adapter : OperationFamilyAdapter Doc}

theorem derivedAt_recordEntry {doc : Doc} :
    DerivedAt name (recordEntry adapter name doc) := by
  refine ⟨rfl, ?_⟩
  simp only [recordEntry, entryOf]
  split <;> decide

theorem derivedAt_quarantineEntry {reason : UnreadableReason} {raw : Doc} :
    DerivedAt name (quarantineEntry registry adapter name reason raw) :=
  ⟨rfl, fun h => by cases h⟩

theorem key_quarantine {reason : UnreadableReason} (hP : KeyStable registry p P) :
    KeySpec registry p P (quarantine registry adapter name reason)
      (fun e s => P s ∧ (∀ e', e = some e' → DerivedAt name e') ∧ (HasRecord P name → e.isSome))
      fun _ => P := by
  apply key_bind (key_record hP)
  intro raw
  apply key_ret
  rintro s ⟨hPs, hrecord⟩
  refine ⟨hPs, ?_, fun h => by rw [Option.isSome_map]; exact hrecord h⟩
  intro e' he'
  rcases Option.map_eq_some_iff.mp he' with ⟨doc, _, rfl⟩
  exact derivedAt_quarantineEntry

theorem key_fromRecord {doc : Doc} (hP : KeyStable registry p P) :
    KeySpec registry p P (fromRecord registry adapter name doc)
      (fun e s => P s ∧ (∀ e', e = some e' → DerivedAt name e') ∧ (HasRecord P name → e.isSome))
      fun _ => P := by
  unfold fromRecord
  split
  · apply key_ret
    intro s hPs
    refine ⟨hPs, ?_, fun _ => rfl⟩
    intro e' he'
    cases he'
    exact derivedAt_recordEntry
  · exact key_quarantine hP

theorem key_derive {n : Named Doc} (hP : KeyStable registry p P) :
    KeySpec registry p P (derive registry n.1 n.2)
      (fun e s => P s ∧ (∀ e', e = some e' → DerivedAt n.2 e') ∧ (HasRecord P n.2 → e.isSome))
      fun _ => P := by
  apply key_bind (key_record hP)
  intro found
  cases found with
  | none =>
    apply key_ret
    rintro s ⟨hPs, hrecord⟩
    exact ⟨hPs, by simp, hrecord⟩
  | some doc =>
    dsimp only
    split
    · exact Spec.pre (key_fromRecord hP) fun s _ h => h.1
    · exact Spec.pre (key_quarantine hP) fun s _ h => h.1

theorem key_deriveAll (named : List (Named Doc)) (hP : KeyStable registry p P) :
    KeySpec registry p P (deriveAll registry named)
      (fun es s => P s ∧ (∀ e ∈ es, ∃ n ∈ named, DerivedAt n.2 e) ∧
        ∀ n ∈ named, HasRecord P n.2 → es ≠ [])
      fun _ => P := by
  induction named with
  | nil => exact key_ret fun s hPs => ⟨hPs, by simp, by simp⟩
  | cons n named ih =>
    apply key_bind (key_derive hP)
    intro e s hs h
    rcases h with ⟨hPs, hderived, hrecord⟩
    have hrest : KeySpec registry p P
        ((deriveAll registry named).bind fun rest => Prog.ret (e.toList ++ rest))
        (fun es s => P s ∧ (∀ e ∈ es, ∃ n' ∈ n :: named, DerivedAt n'.2 e) ∧
          ∀ n' ∈ n :: named, HasRecord P n'.2 → es ≠ []) fun _ => P := by
      apply key_bind ih
      intro rest
      apply key_ret
      rintro s ⟨hPs, hall, hne⟩
      refine ⟨hPs, ?_, ?_⟩
      · intro e' he'
        rcases List.mem_append.mp he' with he' | he'
        · exact ⟨n, List.mem_cons_self, hderived e' (by simpa [eq_comm] using he')⟩
        · rcases hall e' he' with ⟨n', hn', h'⟩
          exact ⟨n', List.mem_cons_of_mem _ hn', h'⟩
      · intro n' hn' hhas
        rcases List.mem_cons.mp hn' with rfl | hn'
        · rcases Option.isSome_iff_exists.mp (hrecord hhas) with ⟨e', rfl⟩
          simp
        · exact List.append_ne_nil_of_right_ne_nil _ (hne n' hn' hhas)
    exact hrest s hs hPs

variable {e : OperationIndexEntry}

theorem key_putClaims (hP : KeyStable registry p P) :
    KeySpec registry p P (putClaims e) (fun _ => P) fun _ => P := by
  unfold putClaims
  split
  · exact key_write (o := .putOpen e) trivial hP
  · exact key_write (o := .dropOpen e.operationId) trivial hP

theorem key_putEntry (hstate : e.state ≠ .admitted)
    (hP : KeyStable registry p P) (hbase : ∀ s, P s → LogSince p base s) :
    KeySpec registry p P (putEntry e) (fun _ s => P s ∧ Found p base e.operationId s) E := by
  apply key_post (M := fun _ s => P s ∧ (P s → Found p base e.operationId s))
  · apply key_file (o := .putEntry e) hstate hP
    intro s hs _ hPs
    apply found_of_entry (hbase _ hPs)
    show ((FileOp.exec s.files (.putEntry e)).2.entry e.operationId).isSome
    simp only [FileOp.exec]
    split
    · rename_i hsame
      rw [hsame]
      rfl
    · have hself : (s.files.entries.put e).find? e.operationId = some e :=
        KeyedStore.find?_put_self _ _
      show ((s.files.entries.put e).find? e.operationId).isSome
      rw [hself]
      rfl
  · exact fun _ s h => ⟨h.1, h.2 h.1⟩

-- Writing an entry that is no admission leaves its operation found.
theorem key_writeEntry {force : Bool} (hstate : e.state ≠ .admitted)
    (hP : KeyStable registry p P) (hbase : ∀ s, P s → LogSince p base s) :
    KeySpec registry p P (writeEntry e force) (fun _ s => P s ∧ Found p base e.operationId s)
      fun _ => P := by
  apply key_bind (M := fun released s => P s ∧ (released = true → Found p base e.operationId s))
  · unfold staysReleased
    split
    · apply key_bind (key_entry hP hbase)
      intro existing
      apply key_ret
      rintro s ⟨hPs, hfound⟩
      refine ⟨hPs, ?_⟩
      intro hreleased
      apply hfound
      cases existing with
      | none => cases hreleased
      | some old => rfl
    · exact key_ret fun s hPs => ⟨hPs, fun h => by cases h⟩
  · intro released
    split
    · rename_i hreleased
      exact key_ret fun s h => ⟨h.1, h.2 hreleased⟩
    · apply Spec.pre _ fun s _ h => h.1
      apply key_bind (key_bindHash hP)
      intro _
      apply key_bind (key_putClaims hP)
      exact fun _ => key_putEntry hstate hP hbase

variable {named : List (Named Doc)}

theorem key_indexDuplicate {id : OperationId}
    (hnamed : ∀ n ∈ named, n.2.operationId = id) (hP : KeyStable registry p P)
    (hbase : ∀ s, P s → LogSince p base s) :
    KeySpec registry p P (indexDuplicate registry id named)
      (fun _ s => P s ∧ ((∃ n ∈ named, HasRecord P n.2) → Found p base id s)) fun _ => P := by
  apply key_bind (key_entry hP hbase)
  intro existing
  split
  · rename_i hdup
    apply key_ret
    rintro s ⟨hPs, hfound⟩
    refine ⟨hPs, fun _ => hfound ?_⟩
    cases existing with
    | none => cases hdup
    | some old => rfl
  · apply Spec.pre _ fun s _ h => h.1
    apply key_bind (key_deriveAll named hP)
    intro derived s hs h
    rcases h with ⟨hPs, hall, hne⟩
    cases derived with
    | nil =>
      refine ⟨hPs, ?_⟩
      rintro ⟨n, hn, hrecord⟩
      exact absurd rfl (hne n hn hrecord)
    | cons first rest =>
      have hid : (duplicateEntry first (first :: rest)).operationId = id := by
        rcases hall first List.mem_cons_self with ⟨n, hn, hderived⟩
        exact hderived.1.trans (hnamed n hn)
      have hwrite : KeySpec registry p P
          ((bindAll id (first :: rest)).bind fun _ =>
            writeEntry (duplicateEntry first (first :: rest)) false)
          (fun _ s => P s ∧ ((∃ n ∈ named, HasRecord P n.2) → Found p base id s)) fun _ => P := by
        apply key_bind (key_bindAll _ hP)
        intro _
        apply key_post (key_writeEntry (by simp [duplicateEntry, entryOf]) hP hbase)
        rintro _ s ⟨hPs, hfinds⟩
        rw [hid] at hfinds
        exact ⟨hPs, fun _ => hfinds⟩
      exact hwrite s hs hPs

/-- The entries a walk hands to the bulk write are no admissions. -/
def NoneAdmitted (es : List OperationIndexEntry) : Prop := ∀ e ∈ es, e.state ≠ .admitted

theorem key_walkOne {indexed : List OperationId} {id : OperationId}
    (hnamed : ∀ n ∈ named, n.2.operationId = id) (hP : KeyStable registry p P)
    (hbase : ∀ s, P s → LogSince p base s) (hindexed : ∀ s, P s → ∀ i ∈ indexed, Found p base i s) :
    KeySpec registry p P (walkOne registry indexed id named)
      (fun terminal s => P s ∧ NoneAdmitted terminal ∧ ((∃ n ∈ named, HasRecord P n.2) →
        Found p base id s ∨ ∃ e ∈ terminal, e.operationId = id)) fun _ => P := by
  match named, hnamed with
  | [], _ =>
    apply key_ret
    intro s hPs
    exact ⟨hPs, by simp [NoneAdmitted], by simp⟩
  | [n], hnamed =>
    simp only [walkOne]
    split
    · rename_i hmem
      apply key_ret
      intro s hPs
      exact ⟨hPs, by simp [NoneAdmitted], fun _ => Or.inl (hindexed s hPs id hmem)⟩
    · apply key_bind (key_derive hP)
      intro found s hs h
      rcases h with ⟨hPs, hderived, hrecord⟩
      cases found with
      | none =>
        refine ⟨hPs, by simp [NoneAdmitted], ?_⟩
        rintro ⟨m, hm, hhas⟩
        rw [List.mem_singleton.mp hm] at hhas
        cases hrecord hhas
      | some e =>
        rcases hderived e rfl with ⟨heid, hstate⟩
        rw [hnamed n (List.mem_singleton_self n)] at heid
        have hrest : KeySpec registry p P
            (if (some e).any (fun e => e.state = .terminal) then Prog.ret (some e).toList
              else (write (some e) false).bind fun _ => Prog.ret [])
            (fun terminal s => P s ∧ NoneAdmitted terminal ∧ ((∃ m ∈ [n], HasRecord P m.2) →
              Found p base id s ∨ ∃ e ∈ terminal, e.operationId = id)) fun _ => P := by
          split
          · apply key_ret
            intro s hPs
            refine ⟨hPs, ?_, fun _ => Or.inr ⟨e, List.mem_singleton_self e, heid⟩⟩
            intro e' he'
            rw [List.mem_singleton.mp he']
            exact hstate
          · apply key_bind (key_writeEntry hstate hP hbase)
            intro _
            apply key_ret
            rintro s ⟨hPs, hfinds⟩
            rw [heid] at hfinds
            exact ⟨hPs, by simp [NoneAdmitted], fun _ => Or.inl hfinds⟩
        exact hrest s hs hPs
  | n :: m :: rest, hnamed =>
    apply key_bind (key_indexDuplicate hnamed hP hbase)
    intro _
    apply key_ret
    rintro s ⟨hPs, hfinds⟩
    exact ⟨hPs, by simp [NoneAdmitted], fun h => Or.inl (hfinds h)⟩

theorem key_walk {indexed : List OperationId} (ids : List OperationId)
    (hP : KeyStable registry p P) (hbase : ∀ s, P s → LogSince p base s)
    (hindexed : ∀ s, P s → ∀ i ∈ indexed, Found p base i s) :
    KeySpec registry p P (walk registry indexed named ids)
      (fun terminal s => P s ∧ NoneAdmitted terminal ∧ ∀ id ∈ ids,
        (∃ n ∈ placesOf named id, HasRecord P n.2) →
          Found p base id s ∨ ∃ e ∈ terminal, e.operationId = id) fun _ => P := by
  induction ids generalizing P with
  | nil => exact key_ret fun s hPs => ⟨hPs, by simp [NoneAdmitted], by simp⟩
  | cons id ids ih =>
    have hplaces : ∀ n ∈ placesOf named id, n.2.operationId = id := by
      intro n hn
      simpa using (List.mem_filter.mp hn).2
    apply key_bind (key_walkOne hplaces hP hbase hindexed)
    intro terminal
    -- What is already found stays found while the rest of the walk runs.
    have hstable : KeyStable registry p fun s => P s ∧ NoneAdmitted terminal ∧
        ((∃ n ∈ placesOf named id, HasRecord P n.2) →
          Found p base id s ∨ ∃ e ∈ terminal, e.operationId = id) := by
      rintro s t hst ⟨hPs, hnone, hfinds⟩
      exact ⟨hP s t hst hPs, hnone, fun h => (hfinds h).imp_left (stable_found s t hst)⟩
    apply key_bind (Spec.conseq
      (ih hstable (fun s h => hbase s h.1) fun s h => hindexed s h.1) (fun s _ h => h)
      (fun _ _ _ h => h) fun _ s _ h => h.1)
    intro rest
    apply key_ret
    rintro s ⟨⟨hPs, hnone, hhere⟩, hnone', hothers⟩
    refine ⟨hPs, ?_, ?_⟩
    · intro e he
      rcases List.mem_append.mp he with he | he
      · exact hnone e he
      · exact hnone' e he
    · intro i hi hhas
      rcases List.mem_cons.mp hi with rfl | hi
      · rcases hhere hhas with hfound | ⟨e, he, heid⟩
        · exact Or.inl hfound
        · exact Or.inr ⟨e, List.mem_append_left _ he, heid⟩
      · rcases hhas with ⟨n, hn, hrecord⟩
        rcases hothers i hi ⟨n, hn, fun s h => hrecord s h.1⟩ with hfound | ⟨e, he, heid⟩
        · exact Or.inl hfound
        · exact Or.inr ⟨e, List.mem_append_right _ he, heid⟩

/-! ## The bulk of terminal records, and the whole walk -/

theorem key_bindIndividual {individual : StateHash → Bool} (es : List OperationIndexEntry)
    (hP : KeyStable registry p P) :
    KeySpec registry p P (bindIndividual individual es) (fun _ => P) fun _ => P := by
  induction es with
  | nil => exact key_ret fun s h => h
  | cons e es ih =>
    unfold bindIndividual
    split
    · exact ih
    · split
      · exact key_bind (key_bindPointerAttempts 3 hP) fun _ => ih
      · exact key_bind ih fun _ => key_ret fun s h => h

theorem key_mergeShard {added : List (StateHash × OperationId)} {name : Char}
    (hP : KeyStable registry p P) :
    KeySpec registry p P (mergeShard added name) (fun _ => P) fun _ => P := by
  apply key_bind (M := fun (current : Pointers) s =>
    P s ∧ ∀ hash ids, current hash = some ids → ids ≠ [])
  · apply key_file (o := .shard name) trivial hP
    intro s hs _ hash ids hids
    simp only [FileOp.exec] at hids
    split at hids
    · exact hs.shards hash ids hids
    · cases hids
  · intro current s hs h
    rcases h with ⟨hPs, hcurrent⟩
    have hplain : (FileOp.putShard name (mergedPointers current
        (added.filter fun a => shardName a.1 = name))).Plain := by
      intro hash ids hids
      unfold mergedPointers at hids
      split at hids
      · rename_i hmem
        cases hids
        rcases List.mem_map.mp hmem with ⟨a, ha, rfl⟩
        apply List.ne_nil_of_mem (a := a.2)
        apply mem_sortedUnique.mpr
        apply List.mem_append_right
        exact List.mem_map.mpr ⟨a, List.mem_filter.mpr ⟨ha, by simp⟩, rfl⟩
      · exact hcurrent hash ids hids
    have hrest : KeySpec registry p P
        (if (added.filter fun a => shardName a.1 = name).any fun a =>
            mergedPointers current (added.filter fun a => shardName a.1 = name) a.1 ≠ current a.1
          then putShard name (mergedPointers current (added.filter fun a => shardName a.1 = name))
          else Prog.ret ()) (fun _ => P) fun _ => P := by
      split
      · exact key_write hplain hP
      · exact key_ret fun s h => h
    exact hrest s hs hPs

theorem key_mergeShards {added : List (StateHash × OperationId)} (names : List Char)
    (hP : KeyStable registry p P) :
    KeySpec registry p P (mergeShards added names) (fun _ => P) fun _ => P := by
  induction names with
  | nil => exact key_ret fun s h => h
  | cons name names ih => exact key_bind (key_mergeShard hP) fun _ => ih

theorem key_putEntries {opened : List OperationId} (es : List OperationIndexEntry)
    (hes : NoneAdmitted es) (hP : KeyStable registry p P) (hbase : ∀ s, P s → LogSince p base s) :
    KeySpec registry p P (putEntries opened es)
      (fun _ s => P s ∧ ∀ e ∈ es, Found p base e.operationId s) fun _ => P := by
  induction es generalizing P with
  | nil => exact key_ret fun s hPs => ⟨hPs, by simp⟩
  | cons e es ih =>
    unfold putEntries
    apply key_bind (M := fun _ => P)
    · split
      · exact key_write (o := .dropOpen e.operationId) trivial hP
      · exact key_ret fun s h => h
    · intro _
      apply key_bind (key_putEntry (hes e List.mem_cons_self) hP hbase)
      intro _
      have htail : NoneAdmitted es := fun e he => hes e (List.mem_cons_of_mem _ he)
      apply Spec.conseq
        (ih htail (hP.and (@stable_found _ _ registry p base e.operationId))
          fun s h => hbase s h.1)
        (fun s _ h => h) _ fun _ s _ h => h.1
      rintro _ s _ ⟨⟨hPs, hhere⟩, hothers⟩
      refine ⟨hPs, ?_⟩
      intro e' he'
      rcases List.mem_cons.mp he' with rfl | he'
      · exact hhere
      · exact hothers e' he'

theorem key_putTerminal {es : List OperationIndexEntry} (hes : NoneAdmitted es)
    (hP : Kept registry p P) (hbase : ∀ s, P s → LogSince p base s) :
    KeySpec registry p P (putTerminal es)
      (fun _ s => P s ∧ ∀ e ∈ es, Found p base e.operationId s) fun _ => P := by
  apply key_bind (key_write (o := .pointerHashes) trivial hP.stable)
  intro individual
  apply key_bind (key_bindIndividual es hP.stable)
  intro added
  apply key_bind (M := fun _ => P)
  · split
    · exact key_ret fun s h => h
    · exact key_withIndexLock hP (fun _ => hP) (key_mergeShards _ (stable_locks hP.stable))
  · intro _
    apply key_bind (key_write (o := .openIds) trivial hP.stable)
    exact fun opened => key_putEntries es hes hP.stable hbase

theorem key_allNames (stores : List (OperationFamilyAdapter Doc × OperationStore))
    (hP : KeyStable registry p P) :
    KeySpec registry p P (allNames stores)
      (fun named s => P s ∧ ∀ owner ∈ stores, ∀ name : RecordPath, HasRecord P name →
        name.directory = owner.2.directory → name.profileHash.isSome = owner.2.perProfile →
          (owner.1, name) ∈ named) fun _ => P := by
  induction stores with
  | nil => exact key_ret fun s hPs => ⟨hPs, by simp⟩
  | cons owner stores ih =>
    apply key_bind (M := fun (names : List RecordPath) s => P s ∧ ∀ name : RecordPath,
      HasRecord P name → name.directory = owner.2.directory →
        name.profileHash.isSome = owner.2.perProfile → name ∈ names)
    · apply key_file (o := .recordNames owner.2) trivial hP
      intro s hs hPs name hrecord hdirectory hprofile
      exact mem_recordNames.mpr ⟨hrecord s hPs, hdirectory, hprofile⟩
    · intro names s hs h
      rcases h with ⟨hPs, hnames⟩
      have hrest : KeySpec registry p P
          ((allNames stores).bind fun rest =>
            Prog.ret (names.map (fun name => (owner.1, name)) ++ rest))
          (fun named s => P s ∧ ∀ owner' ∈ owner :: stores, ∀ name : RecordPath,
            HasRecord P name → name.directory = owner'.2.directory →
              name.profileHash.isSome = owner'.2.perProfile → (owner'.1, name) ∈ named)
          fun _ => P := by
        apply key_bind ih
        intro rest
        apply key_ret
        rintro s ⟨hPs, hothers⟩
        refine ⟨hPs, ?_⟩
        intro owner' howner name hrecord hdirectory hprofile
        rcases List.mem_cons.mp howner with rfl | howner
        · exact List.mem_append_left _
            (List.mem_map.mpr ⟨name, hnames name hrecord hdirectory hprofile, rfl⟩)
        · exact List.mem_append_right _ (hothers owner' howner name hrecord hdirectory hprofile)
      exact hrest s hs hPs

/-- `P` knows of a record under `id` in a registered store. -/
def KnowsRecord (registry : OperationRegistry Doc) (P : IndexShared Doc π → Prop) (id : OperationId) :
    Prop :=
  ∃ owner ∈ registry.stores, ∃ name : RecordPath, name.operationId = id ∧ HasRecord P name ∧
    name.directory = owner.2.directory ∧ name.profileHash.isSome = owner.2.perProfile

/-- **A walk** leaves every operation whose record it could see found. -/
theorem key_reconcile (hP : Kept registry p P) (hbase : ∀ s, P s → LogSince p base s) :
    KeySpec registry p P (reconcile registry)
      (fun _ s => P s ∧ ∀ id, KnowsRecord registry P id → Found p base id s) fun _ => P := by
  apply key_bind (M := fun (indexed : List OperationId) s =>
    P s ∧ ∀ i ∈ indexed, Found p base i s)
  · apply key_post (M := fun (indexed : List OperationId) s =>
      P s ∧ (P s → ∀ i ∈ indexed, Found p base i s))
    · apply key_file (o := .entryIds) trivial hP.stable
      intro s hs _ hPs i hi
      rcases List.mem_map.mp hi with ⟨e, he, rfl⟩
      apply found_of_entry (hbase _ hPs)
      have hentry : s.files.entry e.operationId = some e := KeyedStore.find?_of_mem he
      show (s.files.entry e.operationId).isSome
      rw [hentry]
      rfl
    · exact fun _ s h => ⟨h.1, h.2 h.1⟩
  intro indexed
  have hindexed : Kept registry p fun s => P s ∧ ∀ i ∈ indexed, Found p base i s := by
    refine ⟨?_, fun s holder h => ⟨hP.free s holder h.1, h.2⟩⟩
    rintro s t hst ⟨hPs, hfound⟩
    exact ⟨hP.stable s t hst hPs, fun i hi => stable_found s t hst (hfound i hi)⟩
  apply Spec.conseq (N := fun s => P s ∧ ∀ i ∈ indexed, Found p base i s)
    (F := fun _ s => P s ∧ ∀ i ∈ indexed, Found p base i s) _ (fun s _ h => h)
    (fun _ _ _ h => h) fun _ s _ h => h.1
  apply key_bind (key_allNames registry.stores hindexed.stable)
  intro named s hs h
  rcases h with ⟨hPs, hnames⟩
  have hrest : KeySpec registry p (fun s => P s ∧ ∀ i ∈ indexed, Found p base i s)
      ((walk registry indexed named (seenIds named)).bind fun terminal =>
        if terminal = [] then Prog.ret () else putTerminal terminal)
      (fun _ s => P s ∧ ∀ id, KnowsRecord registry P id → Found p base id s)
      fun _ s => P s ∧ ∀ i ∈ indexed, Found p base i s := by
    apply key_bind (key_walk _ hindexed.stable (fun s h => hbase s h.1) fun s h => h.2)
    intro terminal s hs h
    rcases h with ⟨hPs, hnone, hwalked⟩
    -- Each known record is found already, or is among the entries still to be written.
    have hknown : ∀ id, KnowsRecord registry P id →
        Found p base id s ∨ ∃ e ∈ terminal, e.operationId = id := by
      rintro id ⟨owner, howner, name, hid, hrecord, hdirectory, hprofile⟩
      have hhas : HasRecord (fun s => P s ∧ ∀ i ∈ indexed, Found p base i s) name :=
        fun s h => hrecord s h.1
      have hmem := hnames owner howner name hhas hdirectory hprofile
      have hplace : (owner.1, name) ∈ placesOf named id := by
        unfold placesOf
        rw [List.mem_filter]
        exact ⟨hmem, by simpa using hid⟩
      have hseen : id ∈ seenIds named := by
        unfold seenIds
        rw [List.mem_reverse, List.mem_dedup, List.mem_reverse]
        exact List.mem_map.mpr ⟨(owner.1, name), hmem, hid⟩
      exact hwalked id hseen ⟨_, hplace, hhas⟩
    split
    · rename_i hnil
      refine ⟨hPs.1, ?_⟩
      intro id hid
      rcases hknown id hid with hfound | ⟨e, he, _⟩
      · exact hfound
      · rw [hnil] at he
        cases he
    · have hkept : Kept registry p fun t => (P t ∧ ∀ i ∈ indexed, Found p base i t) ∧
          ∀ id, KnowsRecord registry P id →
            Found p base id t ∨ ∃ e ∈ terminal, e.operationId = id := by
        refine ⟨?_, fun t holder h => ⟨hindexed.free t holder h.1, h.2⟩⟩
        rintro t u htu ⟨hPt, hkt⟩
        exact ⟨hindexed.stable t u htu hPt, fun id hid => (hkt id hid).imp_left (stable_found t u htu)⟩
      have hput := key_putTerminal hnone hkept fun t h => hbase t h.1.1
      refine Discipline.wp_mono (hput s hs ⟨hPs, hknown⟩) hs ?_ fun _ _ _ h => h.1
      rintro _ t _ ⟨⟨hPt, hkt⟩, hwritten⟩
      refine ⟨hPt.1, ?_⟩
      intro id hid
      rcases hkt id hid with hfound | ⟨e, he, rfl⟩
      · exact hfound
      · exact hwritten e he
  exact hrest s hs hPs

end Based

end Specs
end PaymentNode
