import PaymentNode.Index.Reconcile

/-!
# Rebuild — the operation index is rebuildable, and its walk is interruptible

What a walk has to reach is a function of the records alone: `indexedAs` names the entry of each id, `boundTo`
the hashes bound to it.  Wherever a walk stops, each entry on disk is that entry, already with its open copy
and all its pointers; a complete walk leaves no id without its entry, and then nothing is left to write.
-/

namespace PaymentNode

open IndexProg Discipline

section Alone

variable {Doc α β : Type}

/-- The index files answer, and no other process touches them. -/
def soleAnswer (files : IndexFiles Doc) : (o : IndexOp) → o.Answer Doc × IndexFiles Doc
  | .file o => o.exec files
  | .lock | .workDone _ => (Except.ok (), files)
  | .unlock | .writeRecord _ | .asked _ | .answered _ _ => ((), files)
  | .now => ((0 : ℤ), files)
  | .random _ => ((0 : ℕ), files)
  | .work _ => (false, files)

/-- A specification of a program that runs alone and does not throw. -/
abbrev Sole (I P : IndexFiles Doc → Prop) (x : IndexProg Doc α) (Q : α → IndexFiles Doc → Prop) :
    Prop :=
  (Discipline.undisturbed I).Spec (Discipline.alone soleAnswer) () P x Q fun _ _ => False

variable {I P : IndexFiles Doc → Prop}

theorem sole_file {o : FileOp} {Q : o.Answer Doc → IndexFiles Doc → Prop}
    (h : ∀ s, I s → P s → I (o.exec s).2 ∧ Q (o.exec s).1 (o.exec s).2) : Sole I P (file o) Q :=
  Spec.step h

variable {Q : α → IndexFiles Doc → Prop}

theorem sole_ret {a : α} (h : ∀ s, I s → P s → Q a s) :
    Sole I P (Prog.ret a) Q :=
  Spec.ret h

theorem sole_pre {x : IndexProg Doc α} {P' : IndexFiles Doc → Prop}
    (h : Sole I P' x Q) (hP : ∀ s, I s → P s → P' s) : Sole I P x Q :=
  Spec.pre h hP

theorem sole_post {x : IndexProg Doc α} {Q Q' : α → IndexFiles Doc → Prop} (h : Sole I P x Q')
    (hQ : ∀ a s, I s → Q' a s → Q a s) : Sole I P x Q :=
  Spec.conseq h (fun _ _ hP => hP) hQ fun _ _ _ hE => hE

theorem sole_withIndexLock {x : IndexProg Doc α} (h : Sole I P x Q) : Sole I P (withIndexLock x) Q := by
  unfold withIndexLock
  apply Spec.bind (M := fun _ => P)
  · apply Spec.bind (M := fun answer s => answer = Except.ok () ∧ P s)
    · exact Spec.step fun s hs hP => ⟨hs, rfl, hP⟩
    · rintro answer s hs ⟨rfl, hP⟩
      exact hP
  · intro _
    apply Spec.finally h
    · exact fun a => Spec.step fun s hs hQ => ⟨hs, hQ⟩
    · exact fun e s _ hE => hE.elim

-- Reading a pointer answers what the files hold.
theorem sole_pointer {hash : StateHash} :
    Sole I P (pointer hash) fun found s => found = s.pointer hash ∧ P s := by
  unfold pointer
  apply Spec.bind (M := fun found s => found = s.pointers hash ∧ P s)
  · exact sole_file fun s hs hP => ⟨hs, rfl, hP⟩
  intro found
  cases found with
  | some ids =>
    apply sole_ret
    rintro s _ ⟨hfound, hP⟩
    have hfile : s.pointers hash = some ids := hfound.symm
    refine ⟨?_, hP⟩
    rw [IndexFiles.pointer, hfile]
  | none =>
    apply Spec.bind (M := fun (pointers : Pointers) s =>
      pointers hash = s.pointer hash ∧ P s)
    · apply sole_file
      rintro s hs ⟨hfound, hP⟩
      have hfile : s.pointers hash = none := hfound.symm
      refine ⟨hs, ?_, hP⟩
      simp only [FileOp.exec, IndexFiles.pointer, hfile, if_true]
    · intro pointers
      exact sole_ret fun s _ h => h

end Alone

/-! ## What the records say -/

section Expected

variable {Doc : Type} (registry : OperationRegistry Doc)
variable (records : KeyedStore (@RecordFile.path Doc))

/-- The record at a path. -/
def docAt (name : RecordPath) : Option Doc := (records.find? name).map RecordFile.doc

/-- The entry a record yields, or its quarantine. -/
def entryFor (adapter : OperationFamilyAdapter Doc) (name : RecordPath) (doc : Doc) :
    OperationIndexEntry :=
  if adapter.valid doc && namesRecord adapter name doc then recordEntry adapter name doc
  else quarantineEntry registry adapter name .recordInvalid doc

def derivedOf (n : Named Doc) : Option OperationIndexEntry :=
  (docAt records n.2).map (entryFor registry n.1 n.2)

/-- The record names of one store. -/
def ownedNames (owner : OperationFamilyAdapter Doc × OperationStore) : List (Named Doc) :=
  ((IndexFiles.unindexed records).recordNames owner.2).map fun name => (owner.1, name)

/-- Every record name of every store. -/
def namesOf : List (Named Doc) := registry.stores.flatMap (ownedNames records)

def derivedAll (id : OperationId) : List OperationIndexEntry :=
  (placesOf (namesOf registry records) id).filterMap (derivedOf registry records)

/-- The entry the records call for under an id. -/
def indexedAs (id : OperationId) : Option OperationIndexEntry :=
  match placesOf (namesOf registry records) id with
  | [] => none
  | [n] => derivedOf registry records n
  | _ :: _ :: _ =>
    match derivedAll registry records id with
    | [] => none
    | first :: rest => some (duplicateEntry first (first :: rest))

/-- The hashes the records bind to an id. -/
def boundTo (id : OperationId) : List StateHash :=
  (derivedAll registry records id).filterMap OperationIndexEntry.idempotencyHash

/-- The open copy of an entry. -/
def openCopy (e : OperationIndexEntry) : Option OperationIndexEntry :=
  if 0 < e.claims.length then some e else none

variable {registry records} {n : Named Doc} {e : OperationIndexEntry}

theorem derivedOf_id (h : derivedOf registry records n = some e) : e.operationId = n.2.operationId := by
  rcases Option.map_eq_some_iff.mp h with ⟨doc, _, rfl⟩
  unfold entryFor
  split <;> rfl

theorem mem_placesOf {named : List (Named Doc)} {id : OperationId} :
    n ∈ placesOf named id ↔ n ∈ named ∧ n.2.operationId = id := by
  simp [placesOf]

theorem derivedAll_id {id : OperationId} (h : e ∈ derivedAll registry records id) : e.operationId = id := by
  rcases List.mem_filterMap.mp h with ⟨n, hn, he⟩
  rw [derivedOf_id he]
  exact (mem_placesOf.mp hn).2

theorem indexedAs_id {id : OperationId} (h : indexedAs registry records id = some e) : e.operationId = id := by
  unfold indexedAs at h
  split at h
  · cases h
  · rename_i n hplaces
    rw [derivedOf_id h]
    have hmem : n ∈ placesOf (namesOf registry records) id := by
      rw [hplaces]
      exact List.mem_singleton_self n
    exact (mem_placesOf.mp hmem).2
  · split at h
    · cases h
    · rename_i first rest hderived
      cases h
      have hfirst : first ∈ derivedAll registry records id := by
        rw [hderived]
        exact List.mem_cons_self
      show first.operationId = id
      exact derivedAll_id hfirst

-- An id with a bound hash has an entry to be indexed as.
theorem indexedAs_of_boundTo {id : OperationId} {hash : StateHash}
    (h : hash ∈ boundTo registry records id) : ∃ e, indexedAs registry records id = some e := by
  rcases List.mem_filterMap.mp h with ⟨e, he, _⟩
  unfold indexedAs
  split
  · rename_i hplaces
    rw [derivedAll, hplaces] at he
    cases he
  · rename_i n hplaces
    rw [derivedAll, hplaces] at he
    rcases List.mem_filterMap.mp he with ⟨m, hm, hderived⟩
    rw [List.mem_singleton.mp hm] at hderived
    exact ⟨e, hderived⟩
  · split
    · rename_i hnil
      rw [hnil] at he
      cases he
    · exact ⟨_, rfl⟩

end Expected

/-! ## The invariant of a walk -/

section Invariant

variable {Doc : Type} {registry : OperationRegistry Doc} {records : KeyedStore (@RecordFile.path Doc)}

/-- `id` is found under `hash`. -/
def Bound (files : IndexFiles Doc) (hash : StateHash) (id : OperationId) : Prop :=
  id ∈ (files.pointer hash).getD []

/-- A pointer or a shard of a hash names only operations the records bind to it. -/
structure SoundPointer (registry : OperationRegistry Doc) (records : KeyedStore (@RecordFile.path Doc))
    (hash : StateHash) (ids : List OperationId) : Prop where
  nonempty : ids ≠ []
  sorted : sortedUnique ids = ids
  bound : ∀ id ∈ ids, hash ∈ boundTo registry records id

/-- Each entry on disk is the one the records call for, with its open copy and all its pointers. -/
structure Rebuilt (registry : OperationRegistry Doc) (records : KeyedStore (@RecordFile.path Doc))
    (files : IndexFiles Doc) : Prop where
  records_eq : files.records = records
  entries : ∀ id e, files.entry id = some e → indexedAs registry records id = some e ∧
    files.openEntry id = openCopy e ∧ ∀ hash ∈ boundTo registry records id, Bound files hash id
  opened : ∀ id e, files.openEntry id = some e →
    indexedAs registry records id = some e ∧ 0 < e.claims.length
  pointers : ∀ hash ids, files.pointers hash = some ids → SoundPointer registry records hash ids
  shards : ∀ hash ids, files.shards hash = some ids → SoundPointer registry records hash ids

/-- Nothing that could be looked up is lost. -/
def Grow (s t : IndexFiles Doc) : Prop :=
  (∀ hash id, Bound s hash id → Bound t hash id) ∧
    ∀ id e, s.entry id = some e → t.entry id = some e

/-- A fact that stays as the index grows. -/
def Stays (F : IndexFiles Doc → Prop) : Prop := ∀ s t, Grow s t → F s → F t

theorem Stays.and {F G : IndexFiles Doc → Prop} (hF : Stays F) (hG : Stays G) :
    Stays fun s => F s ∧ G s :=
  fun s t hgrow h => ⟨hF s t hgrow h.1, hG s t hgrow h.2⟩

variable {hash : StateHash}

theorem stays_bound {id : OperationId} :
    Stays fun s : IndexFiles Doc => Bound s hash id :=
  fun _ _ hgrow h => hgrow.1 hash id h

theorem stays_pure {φ : Prop} : Stays fun _ : IndexFiles Doc => φ := fun _ _ _ h => h

variable {ids : List OperationId}

theorem SoundPointer.of_sorted (hne : ids ≠ []) (hbound : ∀ id ∈ ids, hash ∈ boundTo registry records id) :
    SoundPointer registry records hash (sortedUnique ids) := by
  refine ⟨?_, ?_, ?_⟩
  · rcases List.exists_mem_of_ne_nil ids hne with ⟨id, hid⟩
    exact List.ne_nil_of_mem (mem_sortedUnique.mpr hid)
  · exact sortedUnique_congr fun id => mem_sortedUnique
  · exact fun id hid => hbound id (mem_sortedUnique.mp hid)

variable {s : IndexFiles Doc}

theorem Rebuilt.bound_of_mem (h : Rebuilt registry records s)
    {id : OperationId} (hid : Bound s hash id) : hash ∈ boundTo registry records id := by
  unfold Bound IndexFiles.pointer at hid
  split at hid
  · rename_i ids hfile
    exact (h.pointers hash ids hfile).bound id hid
  · cases hshard : s.shards hash with
    | none =>
      rw [hshard] at hid
      cases hid
    | some ids =>
      rw [hshard] at hid
      exact (h.shards hash ids hshard).bound id hid

theorem rebuilt_unindexed : Rebuilt registry records (IndexFiles.unindexed records) := by
  refine ⟨rfl, ?_, ?_, ?_, ?_⟩
  · intro id e h
    cases h
  · intro id e h
    cases h
  · intro hash ids h
    cases h
  · intro hash ids h
    cases h

/-- The pointer file of `hash` now holds `ids`. -/
def IndexFiles.pointTo (s : IndexFiles Doc) (hash : StateHash) (ids : List OperationId) :
    IndexFiles Doc :=
  { s with pointers := Function.update s.pointers hash (some (sortedUnique ids)) }

theorem pointer_pointTo {hash other : StateHash} :
    (s.pointTo hash ids).pointer other =
      if other = hash then some (sortedUnique ids) else s.pointer other := by
  unfold IndexFiles.pointer IndexFiles.pointTo
  by_cases h : other = hash
  · rw [if_pos h, h]
    simp
  · rw [if_neg h]
    simp [Function.update_of_ne h]

theorem grow_pointTo (h : ∀ id, Bound s hash id → id ∈ ids) : Grow s (s.pointTo hash ids) := by
  refine ⟨?_, fun _ _ he => he⟩
  intro other id hid
  unfold Bound at *
  rw [pointer_pointTo]
  split
  · rename_i heq
    rw [heq] at hid
    exact mem_sortedUnique.mpr (h id hid)
  · exact hid

theorem rebuilt_pointTo
    (hs : Rebuilt registry records s) (hne : ids ≠ []) (hkept : ∀ id, Bound s hash id → id ∈ ids)
    (hbound : ∀ id ∈ ids, hash ∈ boundTo registry records id) :
    Rebuilt registry records (s.pointTo hash ids) := by
  have hgrow := grow_pointTo hkept
  refine ⟨hs.records_eq, ?_, hs.opened, ?_, hs.shards⟩
  · intro id e he
    rcases hs.entries id e he with ⟨hindexed, hopen, hall⟩
    exact ⟨hindexed, hopen, fun h hh => hgrow.1 h id (hall h hh)⟩
  · intro other ids' hids'
    by_cases heq : other = hash
    · rw [heq] at hids' ⊢
      have hnew : some (sortedUnique ids) = some ids' := by
        simpa [IndexFiles.pointTo] using hids'
      cases hnew
      exact SoundPointer.of_sorted hne hbound
    · apply hs.pointers other ids'
      simpa [IndexFiles.pointTo, Function.update_of_ne heq] using hids'

/-- **Binding** a hash to an id the records bind it to. -/
theorem sole_bindPointer {id : OperationId} {F : IndexFiles Doc → Prop}
    (hbound : hash ∈ boundTo registry records id)
    (hF : ∀ s ids, (∀ i, Bound s hash i → i ∈ ids) → F s → F (s.pointTo hash ids)) :
    Sole (Rebuilt registry records) F (bindPointer hash id) fun _ s => F s ∧ Bound s hash id := by
  unfold bindPointer bindPointerAttempts
  apply Spec.bind sole_pointer
  intro current
  split
  · rename_i hmem
    apply sole_ret
    rintro s _ ⟨rfl, hFs⟩
    exact ⟨hFs, hmem⟩
  · apply Spec.bind (M := fun written s => written = true ∧ F s ∧ Bound s hash id)
    · apply sole_file
      rintro s hs ⟨rfl, hFs⟩
      have hkept : ∀ i, Bound s hash i → i ∈ (s.pointer hash).getD [] ++ [id] :=
        fun i hi => List.mem_append_left _ hi
      have hcreate : ((s.pointer hash).isNone && (s.pointers hash).isSome) = false := by
        unfold IndexFiles.pointer
        cases hfile : s.pointers hash with
        | none => simp
        | some ids => simp
      simp only [FileOp.exec, hcreate]
      refine ⟨?_, rfl, hF s _ hkept hFs, ?_⟩
      · apply rebuilt_pointTo hs (by simp) hkept
        intro i hi
        rcases List.mem_append.mp hi with hi | hi
        · exact hs.bound_of_mem hi
        · rw [List.mem_singleton.mp hi]
          exact hbound
      · show Bound (s.pointTo hash _) hash id
        unfold Bound
        rw [pointer_pointTo, if_pos rfl]
        exact mem_sortedUnique.mpr (by simp)
    · intro written
      split
      · exact sole_ret fun s _ h => h.2
      · rename_i hwritten
        exact fun s _ h => absurd h.1 hwritten

/-! ## Writing one entry -/

theorem entry_state_ne_released {id : OperationId} {e : OperationIndexEntry}
    (h : indexedAs registry records id = some e) : e.state ≠ .released := by
  have hderived : ∀ n e, derivedOf registry records n = some e → e.state ≠ .released := by
    intro n e hn
    rcases Option.map_eq_some_iff.mp hn with ⟨doc, _, rfl⟩
    unfold entryFor
    split
    · show (recordEntry n.1 n.2 doc).state ≠ .released
      simp only [recordEntry, entryOf]
      split <;> decide
    · exact fun h => by cases h
  unfold indexedAs at h
  split at h
  · cases h
  · exact hderived _ _ h
  · split at h
    · cases h
    · cases h
      exact fun h => by cases h

variable {F : IndexFiles Doc → Prop} {e : OperationIndexEntry}

-- The open copy of an entry is in place.
theorem sole_putClaims (he : indexedAs registry records e.operationId = some e) (hF : Stays F) :
    Sole (Rebuilt registry records) F (putClaims e) fun _ s =>
      F s ∧ s.openEntry e.operationId = openCopy e := by
  unfold putClaims
  split
  · rename_i hclaims
    have hcopy : openCopy e = some e := if_pos hclaims
    apply sole_file
    intro s hs hFs
    simp only [FileOp.exec]
    split
    · rename_i hsame
      exact ⟨hs, hFs, hsame.trans hcopy.symm⟩
    · have hself : (s.opened.put e).find? e.operationId = some e := KeyedStore.find?_put_self _ _
      refine ⟨⟨hs.records_eq, ?_, ?_, hs.pointers, hs.shards⟩, ?_, hself.trans hcopy.symm⟩
      · intro id e' he'
        rcases hs.entries id e' he' with ⟨hindexed, hopen, hbound⟩
        refine ⟨hindexed, ?_, hbound⟩
        by_cases hid : id = e.operationId
        · rw [hid, he] at hindexed
          cases hindexed
          rw [hid]
          exact hself.trans hcopy.symm
        · exact (KeyedStore.find?_put_ne _ _ hid).trans hopen
      · intro id e' he'
        by_cases hid : id = e.operationId
        · rw [hid] at he' ⊢
          cases hself.symm.trans he'
          exact ⟨he, hclaims⟩
        · exact hs.opened id e' ((KeyedStore.find?_put_ne _ _ hid).symm.trans he')
      · exact hF s _ ⟨fun _ _ h => h, fun _ _ h => h⟩ hFs
  · rename_i hclaims
    have hcopy : openCopy e = none := if_neg hclaims
    apply sole_file
    intro s hs hFs
    have hself : (s.opened.erase e.operationId).find? e.operationId = none :=
      KeyedStore.find?_erase_self _ _
    refine ⟨⟨hs.records_eq, ?_, ?_, hs.pointers, hs.shards⟩, ?_, hself.trans hcopy.symm⟩
    · intro id e' he'
      rcases hs.entries id e' he' with ⟨hindexed, hopen, hbound⟩
      refine ⟨hindexed, ?_, hbound⟩
      by_cases hid : id = e.operationId
      · rw [hid, he] at hindexed
        cases hindexed
        rw [hid]
        exact hself.trans hcopy.symm
      · exact (KeyedStore.find?_erase_ne _ hid).trans hopen
    · intro id e' he'
      by_cases hid : id = e.operationId
      · rw [hid] at he'
        cases hself.symm.trans he'
      · exact hs.opened id e' ((KeyedStore.find?_erase_ne _ hid).symm.trans he')
    · exact hF s _ ⟨fun _ _ h => h, fun _ _ h => h⟩ hFs

-- An entry is written only over its own open copy and pointers.
theorem sole_putEntry (he : indexedAs registry records e.operationId = some e) (hF : Stays F) :
    Sole (Rebuilt registry records)
      (fun s => F s ∧ s.openEntry e.operationId = openCopy e ∧
        ∀ hash ∈ boundTo registry records e.operationId, Bound s hash e.operationId)
      (putEntry e) fun _ s => F s ∧ s.entry e.operationId = some e := by
  apply sole_file
  rintro s hs ⟨hFs, hopen, hbound⟩
  simp only [FileOp.exec]
  split
  · rename_i hsame
    exact ⟨hs, hFs, hsame⟩
  · have hself : (s.entries.put e).find? e.operationId = some e := KeyedStore.find?_put_self _ _
    refine ⟨⟨hs.records_eq, ?_, hs.opened, hs.pointers, hs.shards⟩, ?_, hself⟩
    · intro id e' he'
      by_cases hid : id = e.operationId
      · rw [hid] at he' ⊢
        cases hself.symm.trans he'
        exact ⟨he, hopen, hbound⟩
      · exact hs.entries id e' ((KeyedStore.find?_put_ne _ _ hid).symm.trans he')
    · refine hF s _ ⟨fun _ _ h => h, ?_⟩ hFs
      intro id e' he'
      by_cases hid : id = e.operationId
      · rw [hid] at he'
        have hold := (hs.entries _ _ he').1
        rw [he] at hold
        cases hold
        rw [hid]
        exact hself
      · exact (KeyedStore.find?_put_ne _ _ hid).trans he'

theorem sole_bindHash {hash : Option StateHash} {id : OperationId}
    (hbound : ∀ h, hash = some h → h ∈ boundTo registry records id) (hF : Stays F) :
    Sole (Rebuilt registry records) F (bindHash hash id) fun _ s =>
      F s ∧ ∀ h, hash = some h → Bound s h id := by
  cases hash with
  | none => exact sole_ret fun s _ hFs => ⟨hFs, fun h hh => nomatch hh⟩
  | some hash =>
    apply sole_post (sole_bindPointer (hbound hash rfl) fun s ids hkept => hF s _ (grow_pointTo hkept))
    rintro _ s _ ⟨hFs, hb⟩
    exact ⟨hFs, fun h hh => by cases hh; exact hb⟩

/-- **Pointer first, then the open copy, then the entry.** -/
theorem sole_writeEntry (he : indexedAs registry records e.operationId = some e)
    (hhash : ∀ h, e.idempotencyHash = some h → h ∈ boundTo registry records e.operationId)
    (hF : Stays F) :
    Sole (Rebuilt registry records)
      (fun s => F s ∧ ∀ hash ∈ boundTo registry records e.operationId,
        e.idempotencyHash = some hash ∨ Bound s hash e.operationId)
      (writeEntry e false) fun _ s => F s ∧ s.entry e.operationId = some e := by
  have hP : Stays fun s : IndexFiles Doc => F s ∧
      ∀ hash ∈ boundTo registry records e.operationId,
        e.idempotencyHash = some hash ∨ Bound s hash e.operationId :=
    hF.and fun s t hgrow h hash hh => (h hash hh).imp id (hgrow.1 hash e.operationId)
  apply Spec.bind (M := fun released s => released = false ∧ (F s ∧
    ∀ hash ∈ boundTo registry records e.operationId,
      e.idempotencyHash = some hash ∨ Bound s hash e.operationId))
  · unfold staysReleased
    split
    · apply Spec.bind (M := fun (existing : Option OperationIndexEntry) s =>
        (∀ old, existing = some old → old.state ≠ .released) ∧ (F s ∧
          ∀ hash ∈ boundTo registry records e.operationId,
            e.idempotencyHash = some hash ∨ Bound s hash e.operationId))
      · apply sole_file
        intro s hs hPs
        exact ⟨hs, fun old hold => entry_state_ne_released (hs.entries _ _ hold).1, hPs⟩
      · intro existing
        apply sole_ret
        rintro s _ ⟨hexisting, hPs⟩
        refine ⟨?_, hPs⟩
        cases existing with
        | none => rfl
        | some old => simp [hexisting old rfl]
    · exact sole_ret fun s _ hPs => ⟨rfl, hPs⟩
  · intro released
    split
    · rename_i hreleased
      rintro s _ ⟨hfalse, _⟩
      rw [hreleased] at hfalse
      cases hfalse
    · apply Spec.bind (sole_pre (sole_bindHash hhash hP) fun s _ h => h.2)
      intro _
      have hbound : Stays fun s : IndexFiles Doc => F s ∧
          ∀ hash ∈ boundTo registry records e.operationId, Bound s hash e.operationId :=
        hF.and fun s t hgrow h hash hh => hgrow.1 hash _ (h hash hh)
      apply Spec.bind (sole_pre (sole_putClaims he hbound) _)
      · intro _
        apply sole_pre (sole_putEntry he hF)
        rintro s _ ⟨⟨hFs, hall⟩, hopen⟩
        exact ⟨hFs, hopen, hall⟩
      · rintro s _ ⟨⟨hFs, hor⟩, hnew⟩
        exact ⟨hFs, fun hash hh => (hor hash hh).elim (hnew hash) id⟩

end Invariant

/-! ## Reading the records -/

section Reading

variable {Doc : Type} {registry : OperationRegistry Doc} {records : KeyedStore (@RecordFile.path Doc)}
variable {I P : IndexFiles Doc → Prop}

theorem sole_record (hI : ∀ s, I s → s.records = records) {name : RecordPath} :
    Sole I P (record name) fun found s => found = docAt records name ∧ P s := by
  apply sole_file
  intro s hs hP
  refine ⟨hs, ?_, hP⟩
  rw [← hI s hs]
  rfl

theorem sole_quarantine (hI : ∀ s, I s → s.records = records) {adapter : OperationFamilyAdapter Doc}
    {name : RecordPath} {reason : UnreadableReason} :
    Sole I P (quarantine registry adapter name reason) fun e s =>
      e = (docAt records name).map (quarantineEntry registry adapter name reason) ∧ P s := by
  apply Spec.bind (sole_record hI)
  intro raw
  apply sole_ret
  rintro s _ ⟨rfl, hP⟩
  exact ⟨rfl, hP⟩

-- A walk derives from a record the entry the record calls for.
theorem sole_derive (hI : ∀ s, I s → s.records = records) {n : Named Doc} :
    Sole I P (derive registry n.1 n.2) fun e s => e = derivedOf registry records n ∧ P s := by
  apply Spec.bind (sole_record hI)
  intro found
  cases found with
  | none =>
    apply sole_ret
    rintro s _ ⟨hfound, hP⟩
    refine ⟨?_, hP⟩
    rw [derivedOf, ← hfound, Option.map_none]
  | some doc =>
    have hderived : some doc = docAt records n.2 →
        derivedOf registry records n = some (entryFor registry n.1 n.2 doc) := by
      intro hdoc
      rw [derivedOf, ← hdoc, Option.map_some]
    have hquarantine : (n.1.valid doc && namesRecord n.1 n.2 doc) = false →
        Sole I (fun s => some doc = docAt records n.2 ∧ P s)
          (quarantine registry n.1 n.2 .recordInvalid)
          fun e s => e = derivedOf registry records n ∧ P s := by
      intro hinvalid
      apply sole_post (sole_quarantine hI)
      rintro e s _ ⟨rfl, hdoc, hP⟩
      refine ⟨?_, hP⟩
      rw [hderived hdoc, ← hdoc, Option.map_some, entryFor, hinvalid]
      rfl
    dsimp only
    split
    · rename_i hvalid
      unfold fromRecord
      split
      · rename_i hnames
        apply sole_ret
        rintro s _ ⟨hdoc, hP⟩
        refine ⟨?_, hP⟩
        rw [hderived hdoc, entryFor, hvalid, hnames]
        rfl
      · rename_i hnames
        apply hquarantine
        simp [hnames]
    · rename_i hvalid
      apply hquarantine
      simp [hvalid]

theorem sole_deriveAll (hI : ∀ s, I s → s.records = records) (named : List (Named Doc)) :
    Sole I P (deriveAll registry named) fun es s =>
      es = named.filterMap (derivedOf registry records) ∧ P s := by
  induction named generalizing P with
  | nil => exact sole_ret fun s _ hP => ⟨rfl, hP⟩
  | cons n named ih =>
    apply Spec.bind (sole_derive hI)
    intro e
    apply Spec.bind ih
    intro rest
    apply sole_ret
    rintro s _ ⟨rfl, rfl, hP⟩
    refine ⟨?_, hP⟩
    cases hn : derivedOf registry records n with
    | none =>
      rw [List.filterMap_cons_none hn]
      rfl
    | some e =>
      rw [List.filterMap_cons_some hn]
      rfl

theorem sole_allNames (hI : ∀ s, I s → s.records = records)
    (stores : List (OperationFamilyAdapter Doc × OperationStore)) :
    Sole I P (allNames stores) fun named s => named = stores.flatMap (ownedNames records) ∧ P s := by
  induction stores generalizing P with
  | nil => exact sole_ret fun s _ hP => ⟨rfl, hP⟩
  | cons owner stores ih =>
    apply Spec.bind (M := fun (names : List RecordPath) s =>
      names = (IndexFiles.unindexed records).recordNames owner.2 ∧ P s)
    · apply sole_file
      intro s hs hP
      refine ⟨hs, ?_, hP⟩
      simp only [FileOp.exec, IndexFiles.recordNames, IndexFiles.unindexed, hI s hs]
    · intro names
      apply Spec.bind ih
      intro rest
      apply sole_ret
      rintro s _ ⟨rfl, rfl, hP⟩
      refine ⟨?_, hP⟩
      rw [List.flatMap_cons]
      rfl

end Reading

/-! ## The walk -/

section Walk

variable {Doc : Type} {registry : OperationRegistry Doc} {records : KeyedStore (@RecordFile.path Doc)}
variable {F : IndexFiles Doc → Prop}

theorem rebuilt_records : ∀ s, Rebuilt registry records s → s.records = records :=
  fun _ hs => hs.records_eq

variable {e : OperationIndexEntry}

theorem boundTo_of_derived {id hash : StateHash}
    (he : e ∈ derivedAll registry records id) (hhash : e.idempotencyHash = some hash) :
    hash ∈ boundTo registry records id :=
  List.mem_filterMap.mpr ⟨e, he, hhash⟩

theorem sole_bindAll {id : OperationId} (es : List OperationIndexEntry)
    (hes : ∀ e ∈ es, ∀ h, e.idempotencyHash = some h → h ∈ boundTo registry records id)
    (hF : Stays F) :
    Sole (Rebuilt registry records) F (bindAll id es) fun _ s =>
      F s ∧ ∀ e ∈ es, ∀ h, e.idempotencyHash = some h → Bound s h id := by
  induction es generalizing F with
  | nil => exact sole_ret fun s _ hFs => ⟨hFs, fun e he => nomatch he⟩
  | cons e es ih =>
    apply Spec.bind (sole_bindHash (hes e List.mem_cons_self) hF)
    intro _
    have hbound : Stays fun s : IndexFiles Doc => F s ∧ ∀ h, e.idempotencyHash = some h → Bound s h id :=
      hF.and fun s t hgrow hall h hh => hgrow.1 h id (hall h hh)
    apply sole_post (ih (fun e' he' => hes e' (List.mem_cons_of_mem _ he')) hbound)
    rintro _ s _ ⟨⟨hFs, hhead⟩, htail⟩
    refine ⟨hFs, ?_⟩
    intro e' he'
    rcases List.mem_cons.mp he' with rfl | he'
    · exact hhead
    · exact htail e' he'

theorem sole_indexDuplicate {id : OperationId} {n m : Named Doc} {rest : List (Named Doc)}
    (hplaces : placesOf (namesOf registry records) id = n :: m :: rest) (hF : Stays F) :
    Sole (Rebuilt registry records) F (indexDuplicate registry id (n :: m :: rest)) fun _ s =>
      F s ∧ ∀ e, indexedAs registry records id = some e → s.entry id = some e := by
  apply Spec.bind (M := fun (existing : Option OperationIndexEntry) s =>
    F s ∧ ∀ old, existing = some old → ∀ e, indexedAs registry records id = some e →
      s.entry id = some e)
  · apply sole_file
    intro s hs hFs
    refine ⟨hs, hFs, ?_⟩
    intro old hold e he
    have hentry : s.entry id = some old := hold
    rw [(hs.entries id old hentry).1] at he
    rw [← he]
    exact hentry
  intro existing
  split
  · rename_i hdup
    apply sole_ret
    rintro s _ ⟨hFs, hexisting⟩
    refine ⟨hFs, ?_⟩
    cases existing with
    | none => cases hdup
    | some old => exact hexisting old rfl
  · apply Spec.bind (sole_deriveAll rebuilt_records _)
    intro derived
    have hderived : (n :: m :: rest).filterMap (derivedOf registry records) =
        derivedAll registry records id := by
      rw [derivedAll, hplaces]
    cases derived with
    | nil =>
      apply sole_ret
      rintro s _ ⟨hnil, hFs, _⟩
      rw [hderived] at hnil
      refine ⟨hFs, ?_⟩
      intro e he
      unfold indexedAs at he
      rw [hplaces, ← hnil] at he
      cases he
    | cons first others =>
      intro s hs h
      rcases h with ⟨hcons, hFs, _⟩
      rw [hderived] at hcons
      have hindexed : indexedAs registry records id =
          some (duplicateEntry first (first :: others)) := by
        unfold indexedAs
        rw [hplaces, ← hcons]
      have hid : (duplicateEntry first (first :: others)).operationId = id := indexedAs_id hindexed
      have hes : ∀ e ∈ first :: others, ∀ h, e.idempotencyHash = some h →
          h ∈ boundTo registry records id := by
        intro e he h hh
        rw [hcons] at he
        exact boundTo_of_derived he hh
      have hwrite : Sole (Rebuilt registry records) F
          ((bindAll id (first :: others)).bind fun _ =>
            writeEntry (duplicateEntry first (first :: others)) false)
          fun _ s => F s ∧ ∀ e, indexedAs registry records id = some e → s.entry id = some e := by
        apply Spec.bind (sole_bindAll _ hes hF)
        intro _
        have he : indexedAs registry records (duplicateEntry first (first :: others)).operationId =
            some (duplicateEntry first (first :: others)) := by
          rw [hid]
          exact hindexed
        apply sole_pre (sole_post (sole_writeEntry he (fun h hh => nomatch hh) hF) _)
        · rintro s _ ⟨hFs, hall⟩
          refine ⟨hFs, ?_⟩
          intro hash hh
          rw [hid] at hh ⊢
          rcases List.mem_filterMap.mp hh with ⟨e, he, heHash⟩
          rw [← hcons] at he
          exact Or.inr (hall e he hash heHash)
        · rintro _ s _ ⟨hFs, hentry⟩
          refine ⟨hFs, ?_⟩
          intro e he
          rw [hindexed] at he
          rw [hid] at hentry
          rw [← he]
          exact hentry
      exact hwrite s hs hFs

/-- The entry of a terminal record, as the bulk write needs it. -/
structure TerminalEntry (registry : OperationRegistry Doc) (records : KeyedStore (@RecordFile.path Doc))
    (e : OperationIndexEntry) : Prop where
  indexed : indexedAs registry records e.operationId = some e
  claims : e.claims = []
  hashes : ∀ hash, hash ∈ boundTo registry records e.operationId ↔ e.idempotencyHash = some hash

theorem claims_of_terminal {n : Named Doc}
    (h : derivedOf registry records n = some e) (hstate : e.state = .terminal) : e.claims = [] := by
  rcases Option.map_eq_some_iff.mp h with ⟨doc, _, rfl⟩
  unfold entryFor at hstate ⊢
  split at hstate
  · rename_i hreadable
    rw [if_pos hreadable]
    have hterminal : n.1.terminal doc = some true := by
      simp only [recordEntry, entryOf] at hstate
      cases hdecided : n.1.terminal doc with
      | none =>
        rw [hdecided] at hstate
        cases hstate
      | some ended =>
        rw [hdecided] at hstate
        cases ended with
        | true => rfl
        | false => cases hstate
    simp [recordEntry, entryOf, derivedClaims, hterminal, normalizeClaims]
  · cases hstate

variable {hash : StateHash}

-- The hashes of an id with one record are that record's.
theorem boundTo_single {id : OperationId} {n : Named Doc} (hplaces : placesOf (namesOf registry records) id = [n])
    (he : derivedOf registry records n = some e) :
    hash ∈ boundTo registry records id ↔ e.idempotencyHash = some hash := by
  unfold boundTo derivedAll
  rw [hplaces, List.filterMap_cons_some he]
  simp

/-- What the walk of one id owes: its entry is written, or is handed on to the bulk write. -/
def Handled (registry : OperationRegistry Doc) (records : KeyedStore (@RecordFile.path Doc))
    (id : OperationId) (terminal : List OperationIndexEntry) (s : IndexFiles Doc) : Prop :=
  ∀ e, indexedAs registry records id = some e → s.entry id = some e ∨ e ∈ terminal

variable {indexed : List OperationId}

theorem sole_walkOne {id : OperationId}
    (hF : Stays F) (hindexed : ∀ s, F s → ∀ i ∈ indexed, ∃ e, s.entry i = some e) :
    Sole (Rebuilt registry records) F
      (walkOne registry indexed id (placesOf (namesOf registry records) id))
      fun terminal s => F s ∧ (∀ e ∈ terminal, TerminalEntry registry records e) ∧
        Handled registry records id terminal s := by
  cases hplaces : placesOf (namesOf registry records) id with
  | nil =>
    apply sole_ret
    intro s _ hFs
    refine ⟨hFs, by simp, ?_⟩
    intro e he
    unfold indexedAs at he
    rw [hplaces] at he
    cases he
  | cons n others =>
    cases others with
    | nil =>
      have hsingle : indexedAs registry records id = derivedOf registry records n := by
        unfold indexedAs
        rw [hplaces]
      -- One record: an indexed entry is kept, a terminal one is left to the bulk write.
      simp only [walkOne]
      split
      · rename_i hmem
        apply sole_ret
        intro s hs hFs
        refine ⟨hFs, by simp, ?_⟩
        intro e he
        rcases hindexed s hFs id hmem with ⟨e', he'⟩
        rw [(hs.entries id e' he').1] at he
        rw [← he]
        exact Or.inl he'
      · apply Spec.bind (sole_derive rebuilt_records)
        intro found
        cases found with
        | none =>
          apply Spec.bind (M := fun _ s => none = derivedOf registry records n ∧ F s)
          · exact sole_ret fun s _ h => h
          · intro _
            apply sole_ret
            rintro s _ ⟨hnone, hFs⟩
            refine ⟨hFs, by simp, ?_⟩
            intro e he
            rw [hsingle, ← hnone] at he
            cases he
        | some e =>
          intro s hs h
          rcases h with ⟨hderived, hFs⟩
          have he : indexedAs registry records id = some e := hsingle.trans hderived.symm
          have hid : e.operationId = id := indexedAs_id he
          have hhash : ∀ hash, hash ∈ boundTo registry records id ↔ e.idempotencyHash = some hash :=
            fun hash => boundTo_single hplaces hderived.symm
          have hwhole : indexedAs registry records e.operationId = some e := by
            rw [hid]
            exact he
          have hrest : Sole (Rebuilt registry records) F
              (if (some e).any (fun e => e.state = .terminal) then Prog.ret (some e).toList
                else (write (some e) false).bind fun _ => Prog.ret [])
              fun terminal s => F s ∧ (∀ e ∈ terminal, TerminalEntry registry records e) ∧
                Handled registry records id terminal s := by
            split
            · rename_i hterminal
              have hstate : e.state = .terminal := by simpa using hterminal
              apply sole_ret
              intro s _ hFs
              refine ⟨hFs, ?_, ?_⟩
              · intro e' he'
                rw [List.mem_singleton.mp he']
                refine ⟨hwhole, claims_of_terminal hderived.symm hstate, ?_⟩
                intro hash
                rw [hid]
                exact hhash hash
              · intro e' he'
                rw [he] at he'
                cases he'
                exact Or.inr (List.mem_singleton_self e)
            · apply Spec.bind (M := fun _ s => F s ∧ s.entry e.operationId = some e)
              · apply sole_pre (sole_writeEntry hwhole _ hF)
                · intro s _ hFs
                  refine ⟨hFs, ?_⟩
                  intro hash hh
                  rw [hid] at hh
                  exact Or.inl ((hhash hash).mp hh)
                · intro hash hh
                  rw [hid]
                  exact (hhash hash).mpr hh
              · intro _
                apply sole_ret
                rintro s _ ⟨hFs, hentry⟩
                refine ⟨hFs, by simp, ?_⟩
                intro e' he'
                rw [he] at he'
                cases he'
                rw [hid] at hentry
                exact Or.inl hentry
          exact hrest s hs hFs
    | cons m rest =>
      -- Several records of one operation.
      apply Spec.bind (sole_indexDuplicate hplaces hF)
      intro _
      apply sole_ret
      rintro s _ ⟨hFs, hentry⟩
      exact ⟨hFs, by simp, fun e he => Or.inl (hentry e he)⟩

theorem stays_handled {id : OperationId} {terminal : List OperationIndexEntry} :
    Stays (Handled registry records id terminal) :=
  fun _ _ hgrow h e he => (h e he).imp (hgrow.2 id e) fun hmem => hmem

theorem sole_walk (ids : List OperationId) (hF : Stays F)
    (hindexed : ∀ s, F s → ∀ i ∈ indexed, ∃ e, s.entry i = some e) :
    Sole (Rebuilt registry records) F (walk registry indexed (namesOf registry records) ids)
      fun terminal s => F s ∧ (∀ e ∈ terminal, TerminalEntry registry records e) ∧
        ∀ id ∈ ids, Handled registry records id terminal s := by
  induction ids generalizing F with
  | nil =>
    apply sole_ret
    intro s _ hFs
    exact ⟨hFs, by simp, by simp⟩
  | cons id ids ih =>
    apply Spec.bind (sole_walkOne hF hindexed)
    intro terminal
    have hstays : Stays fun s : IndexFiles Doc =>
        F s ∧ (∀ e ∈ terminal, TerminalEntry registry records e) ∧
          Handled registry records id terminal s :=
      hF.and (stays_pure.and stays_handled)
    apply Spec.bind (ih hstays fun s h => hindexed s h.1)
    intro rest
    apply sole_ret
    rintro s _ ⟨⟨hFs, hterminal, hhandled⟩, hrest, hothers⟩
    refine ⟨hFs, ?_, ?_⟩
    · intro e he
      rcases List.mem_append.mp he with he | he
      · exact hterminal e he
      · exact hrest e he
    · intro i hi e he
      rcases List.mem_cons.mp hi with rfl | hi
      · exact (hhandled e he).imp_right (List.mem_append_left _)
      · exact (hothers i hi e he).imp_right (List.mem_append_right _)

/-! ## The bulk of terminal records -/

/-- The pointer files are those listed when the bulk write began. -/
def Individual (individual : StateHash → Bool) (s : IndexFiles Doc) : Prop :=
  ∀ hash, (s.pointers hash).isSome = individual hash

/-- A pointer that goes to its shard: bound by the records, with no file of its own. -/
def ShardPointer (registry : OperationRegistry Doc) (records : KeyedStore (@RecordFile.path Doc))
    (individual : StateHash → Bool) (a : StateHash × OperationId) : Prop :=
  a.1 ∈ boundTo registry records a.2 ∧ individual a.1 = false

variable {individual : StateHash → Bool} {s : IndexFiles Doc}

theorem individual_pointTo {ids : List OperationId} (hhash : individual hash = true) (h : Individual individual s) :
    Individual individual (s.pointTo hash ids) := by
  intro other
  by_cases heq : other = hash
  · rw [heq, hhash]
    simp [IndexFiles.pointTo]
  · rw [← h other]
    simp [IndexFiles.pointTo, Function.update_of_ne heq]

theorem sole_bindIndividual (es : List OperationIndexEntry)
    (hes : ∀ e ∈ es, TerminalEntry registry records e) (hF : Stays F) :
    Sole (Rebuilt registry records) (fun s => F s ∧ Individual individual s)
      (bindIndividual individual es) fun added s =>
        (F s ∧ Individual individual s) ∧ (∀ a ∈ added, ShardPointer registry records individual a) ∧
          ∀ e ∈ es, ∀ h, e.idempotencyHash = some h →
            Bound s h e.operationId ∨ (h, e.operationId) ∈ added := by
  induction es generalizing F with
  | nil => exact sole_ret fun s _ h => ⟨h, by simp, by simp⟩
  | cons e es ih =>
    have htail : ∀ e ∈ es, TerminalEntry registry records e :=
      fun e he => hes e (List.mem_cons_of_mem _ he)
    have hhead := (hes e List.mem_cons_self).hashes
    unfold bindIndividual
    cases hhash : e.idempotencyHash with
    | none =>
      apply sole_post (ih htail hF)
      rintro added s _ ⟨hP, hadded, hbound⟩
      refine ⟨hP, hadded, ?_⟩
      intro e' he' h hh
      rcases List.mem_cons.mp he' with rfl | he'
      · rw [hhash] at hh
        cases hh
      · exact hbound e' he' h hh
    | some hash =>
      have hmine : hash ∈ boundTo registry records e.operationId := (hhead hash).mpr hhash
      dsimp only
      split
      · rename_i hfile
        apply Spec.bind (sole_bindPointer hmine _)
        · intro _
          have hstays : Stays fun s : IndexFiles Doc => F s ∧ Bound s hash e.operationId :=
            hF.and stays_bound
          apply sole_post (sole_pre (ih htail hstays) _)
          · rintro added s _ ⟨⟨⟨hFs, hb⟩, hind⟩, hadded, hbound⟩
            refine ⟨⟨hFs, hind⟩, hadded, ?_⟩
            intro e' he' h hh
            rcases List.mem_cons.mp he' with rfl | he'
            · rw [hhash] at hh
              cases hh
              exact Or.inl hb
            · exact hbound e' he' h hh
          · rintro s _ ⟨⟨hFs, hind⟩, hb⟩
            exact ⟨⟨hFs, hb⟩, hind⟩
        · rintro s ids hkept ⟨hFs, hind⟩
          exact ⟨hF s _ (grow_pointTo hkept) hFs, individual_pointTo hfile hind⟩
      · rename_i hfile
        apply Spec.bind (ih htail hF)
        intro added
        apply sole_ret
        rintro s _ ⟨hP, hadded, hbound⟩
        refine ⟨hP, ?_, ?_⟩
        · intro a ha
          rcases List.mem_cons.mp ha with rfl | ha
          · exact ⟨hmine, by simpa using hfile⟩
          · exact hadded a ha
        · intro e' he' h hh
          rcases List.mem_cons.mp he' with rfl | he'
          · rw [hhash] at hh
            cases hh
            exact Or.inr List.mem_cons_self
          · exact (hbound e' he' h hh).imp_right (List.mem_cons_of_mem _)

variable {added : List (StateHash × OperationId)}

-- A shard merge keeps what its hashes already named and adds the new ids.
theorem mem_mergedPointers {current : Pointers} {id : OperationId} :
    id ∈ ((mergedPointers current added) hash).getD [] ↔
      id ∈ (current hash).getD [] ∨ (hash, id) ∈ added := by
  unfold mergedPointers
  split
  · rw [Option.getD_some, mem_sortedUnique, List.mem_append]
    simp [List.mem_map, List.mem_filter]
  · rename_i hnot
    constructor
    · exact Or.inl
    · rintro (h | h)
      · exact h
      · exact absurd (List.mem_map.mpr ⟨(hash, id), h, rfl⟩) hnot

/-- The shard `name` now holds `pointers`. -/
def IndexFiles.withShard (s : IndexFiles Doc) (name : Char) (pointers : Pointers) : IndexFiles Doc :=
  { s with shards := fun hash => if shardName hash = name then pointers hash else s.shards hash }

section MergedShard

variable {s : IndexFiles Doc} {current : Pointers} {here : List (StateHash × OperationId)} {name : Char}

theorem grow_mergedShard (hcurrent : ∀ hash, shardName hash = name → current hash = s.shards hash) :
    Grow s (s.withShard name (mergedPointers current here)) := by
  refine ⟨?_, fun _ _ he => he⟩
  intro hash id hid
  unfold Bound IndexFiles.pointer at *
  unfold IndexFiles.withShard
  dsimp only
  cases hfile : s.pointers hash with
  | some ids =>
    rw [hfile] at hid
    exact hid
  | none =>
    rw [hfile] at hid
    dsimp only at hid ⊢
    split
    · rename_i hname
      rw [mem_mergedPointers, hcurrent hash hname]
      exact Or.inl hid
    · exact hid

-- A merged shard names only operations the records bind.
theorem sound_mergedPointers (hs : Rebuilt registry records s)
    (hcurrent : ∀ hash, shardName hash = name → current hash = s.shards hash)
    (hhere : ∀ a ∈ here, a.1 ∈ boundTo registry records a.2)
    {ids : List OperationId} (hname : shardName hash = name) (hids : mergedPointers current here hash = some ids) :
    SoundPointer registry records hash ids := by
  unfold mergedPointers at hids
  split at hids
  · rename_i hmem
    cases hids
    rcases List.mem_map.mp hmem with ⟨a, ha, rfl⟩
    apply SoundPointer.of_sorted
    · apply List.ne_nil_of_mem (a := a.2)
      apply List.mem_append_right
      exact List.mem_map.mpr ⟨a, List.mem_filter.mpr ⟨ha, by simp⟩, rfl⟩
    · intro id hid
      rcases List.mem_append.mp hid with hid | hid
      · rw [hcurrent a.1 hname] at hid
        cases hshard : s.shards a.1 with
        | none =>
          rw [hshard] at hid
          cases hid
        | some ids =>
          rw [hshard] at hid
          exact (hs.shards a.1 ids hshard).bound id hid
      · rcases List.mem_map.mp hid with ⟨b, hb, rfl⟩
        rcases List.mem_filter.mp hb with ⟨hb, hsame⟩
        rw [← of_decide_eq_true hsame]
        exact hhere b hb
  · rw [hcurrent hash hname] at hids
    exact hs.shards hash ids hids

theorem rebuilt_mergedShard (hs : Rebuilt registry records s)
    (hcurrent : ∀ hash, shardName hash = name → current hash = s.shards hash)
    (hhere : ∀ a ∈ here, a.1 ∈ boundTo registry records a.2) :
    Rebuilt registry records (s.withShard name (mergedPointers current here)) := by
  have hgrow : Grow s (s.withShard name (mergedPointers current here)) := grow_mergedShard hcurrent
  refine ⟨hs.records_eq, ?_, hs.opened, hs.pointers, ?_⟩
  · intro id e he
    rcases hs.entries id e he with ⟨hindexed, hopen, hbound⟩
    exact ⟨hindexed, hopen, fun hash hh => hgrow.1 hash id (hbound hash hh)⟩
  · intro hash ids hids
    by_cases hname : shardName hash = name
    · apply sound_mergedPointers hs hcurrent hhere hname
      simpa [IndexFiles.withShard, hname] using hids
    · apply hs.shards hash ids
      simpa [IndexFiles.withShard, hname] using hids

end MergedShard

-- A hash without a pointer file is looked up in its shard.
theorem pointer_of_shardPointer {a : StateHash × OperationId} (hind : Individual individual s)
    (ha : ShardPointer registry records individual a) : s.pointer a.1 = s.shards a.1 := by
  have hnone : (s.pointers a.1).isSome = false := (hind a.1).trans ha.2
  unfold IndexFiles.pointer
  cases hfile : s.pointers a.1 with
  | none => rfl
  | some ids =>
    rw [hfile] at hnone
    cases hnone

-- One shard, merged: its pointers are durable and nothing else has changed.
theorem sole_mergeShard
    {name : Char} (hadded : ∀ a ∈ added, ShardPointer registry records individual a) (hF : Stays F) :
    Sole (Rebuilt registry records) (fun s => F s ∧ Individual individual s)
      (mergeShard added name) fun _ s => (F s ∧ Individual individual s) ∧
        ∀ a ∈ added, shardName a.1 = name → Bound s a.1 a.2 := by
  apply Spec.bind (M := fun (current : Pointers) s =>
    (∀ hash, shardName hash = name → current hash = s.shards hash) ∧ F s ∧ Individual individual s)
  · apply sole_file
    intro s hs h
    refine ⟨hs, ?_, h⟩
    intro hash hname
    simp only [FileOp.exec, if_pos hname]
  intro current
  generalize hdef : (added.filter fun a => shardName a.1 = name) = here
  have hsub : ∀ a ∈ here, a ∈ added := by
    intro a ha
    rw [← hdef] at ha
    exact (List.mem_filter.mp ha).1
  have hmem : ∀ a ∈ added, shardName a.1 = name → a ∈ here := by
    intro a ha hname
    rw [← hdef]
    exact List.mem_filter.mpr ⟨ha, by simpa using hname⟩
  have hhere : ∀ a ∈ added, shardName a.1 = name →
      a.2 ∈ ((mergedPointers current here) a.1).getD [] := by
    intro a ha hname
    rw [mem_mergedPointers]
    exact Or.inr (hmem a ha hname)
  by_cases hchanged : here.any fun a => mergedPointers current here a.1 ≠ current a.1
  · have hput : Sole (Rebuilt registry records)
        (fun s => (∀ hash, shardName hash = name → current hash = s.shards hash) ∧
          F s ∧ Individual individual s)
        (putShard name (mergedPointers current here)) fun _ s => (F s ∧ Individual individual s) ∧
          ∀ a ∈ added, shardName a.1 = name → Bound s a.1 a.2 := by
      apply sole_file
      rintro s hs ⟨hcurrent, hFs, hind⟩
      have hind' : Individual individual (s.withShard name (mergedPointers current here)) := hind
      refine ⟨rebuilt_mergedShard hs hcurrent fun a ha => (hadded a (hsub a ha)).1,
        ⟨hF s _ (grow_mergedShard hcurrent) hFs, hind⟩, ?_⟩
      intro a ha hname
      show Bound (s.withShard name (mergedPointers current here)) a.1 a.2
      unfold Bound
      rw [pointer_of_shardPointer hind' (hadded a ha), IndexFiles.withShard]
      simp only [if_pos hname]
      exact hhere a ha hname
    simp only [if_pos hchanged]
    exact hput
  · have hsame : Sole (Rebuilt registry records)
        (fun s => (∀ hash, shardName hash = name → current hash = s.shards hash) ∧
          F s ∧ Individual individual s)
        (Prog.ret () : IndexProg Doc Unit) fun _ s => (F s ∧ Individual individual s) ∧
          ∀ a ∈ added, shardName a.1 = name → Bound s a.1 a.2 := by
      apply sole_ret
      rintro s _ ⟨hcurrent, hFs, hind⟩
      refine ⟨⟨hFs, hind⟩, ?_⟩
      intro a ha hname
      have hequal : mergedPointers current here a.1 = current a.1 := by
        by_contra hne
        apply hchanged
        rw [List.any_eq_true]
        exact ⟨a, hmem a ha hname, by simpa using hne⟩
      unfold Bound
      rw [pointer_of_shardPointer hind (hadded a ha), ← hcurrent a.1 hname, ← hequal]
      exact hhere a ha hname
    simp only [if_neg hchanged]
    exact hsame

theorem sole_mergeShards
    (hadded : ∀ a ∈ added, ShardPointer registry records individual a) (names : List Char) (hF : Stays F) :
    Sole (Rebuilt registry records) (fun s => F s ∧ Individual individual s)
      (mergeShards added names) fun _ s => (F s ∧ Individual individual s) ∧
        ∀ a ∈ added, shardName a.1 ∈ names → Bound s a.1 a.2 := by
  induction names generalizing F with
  | nil => exact sole_ret fun s _ h => ⟨h, by simp⟩
  | cons name names ih =>
    apply Spec.bind (sole_mergeShard hadded hF)
    intro _
    have hstays : Stays fun s : IndexFiles Doc =>
        F s ∧ ∀ a ∈ added, shardName a.1 = name → Bound s a.1 a.2 :=
      hF.and fun s t hgrow h a ha hname => hgrow.1 a.1 a.2 (h a ha hname)
    apply sole_post (sole_pre (ih hstays) _)
    · rintro _ s _ ⟨⟨⟨hFs, hhere⟩, hind⟩, hothers⟩
      refine ⟨⟨hFs, hind⟩, ?_⟩
      intro a ha hname
      rcases List.mem_cons.mp hname with hname | hname
      · exact hhere a ha hname
      · exact hothers a ha hname
    · rintro s _ ⟨⟨hFs, hind⟩, hhere⟩
      exact ⟨⟨hFs, hhere⟩, hind⟩

theorem mem_shardNames {a : StateHash × OperationId} (ha : a ∈ added) : shardName a.1 ∈ shardNames added := by
  unfold shardNames
  rw [List.mem_insertionSort, List.mem_dedup]
  exact List.mem_map.mpr ⟨a, ha, rfl⟩

theorem sole_putEntries {opened : List OperationId} (es : List OperationIndexEntry)
    (hes : ∀ e ∈ es, TerminalEntry registry records e) (hF : Stays F)
    (hbound : ∀ s, F s → ∀ e ∈ es, ∀ h, e.idempotencyHash = some h → Bound s h e.operationId) :
    Sole (Rebuilt registry records) F (putEntries opened es) fun _ s =>
      F s ∧ ∀ e ∈ es, s.entry e.operationId = some e := by
  induction es generalizing F with
  | nil => exact sole_ret fun s _ hFs => ⟨hFs, by simp⟩
  | cons e es ih =>
    have he := hes e List.mem_cons_self
    have hcopy : openCopy e = none := by
      unfold openCopy
      rw [he.claims]
      rfl
    unfold putEntries
    apply Spec.bind (M := fun _ s => F s ∧ s.openEntry e.operationId = openCopy e)
    · have hclosed : ∀ s : IndexFiles Doc, Rebuilt registry records s →
          s.openEntry e.operationId = openCopy e := by
        intro s hs
        rw [hcopy]
        cases hopen : s.openEntry e.operationId with
        | none => rfl
        | some e' =>
          rcases hs.opened _ _ hopen with ⟨hindexed, hclaims⟩
          rw [he.indexed] at hindexed
          cases hindexed
          rw [he.claims] at hclaims
          cases hclaims
      split
      · have hput := sole_putClaims he.indexed hF
        unfold putClaims at hput
        rw [he.claims] at hput
        exact hput
      · exact sole_ret fun s hs hFs => ⟨hFs, hclosed s hs⟩
    · intro _
      apply Spec.bind (sole_pre (sole_putEntry he.indexed hF) _)
      · intro _
        have hstays : Stays fun s : IndexFiles Doc => F s ∧ s.entry e.operationId = some e :=
          hF.and fun s t hgrow h => hgrow.2 _ _ h
        apply sole_post (ih (fun e he => hes e (List.mem_cons_of_mem _ he)) hstays
          fun s h e' he' => hbound s h.1 e' (List.mem_cons_of_mem _ he'))
        rintro _ s _ ⟨⟨hFs, hentry⟩, hothers⟩
        refine ⟨hFs, ?_⟩
        intro e' he'
        rcases List.mem_cons.mp he' with rfl | he'
        · exact hentry
        · exact hothers e' he'
      · rintro s _ ⟨hFs, hopen⟩
        refine ⟨hFs, hopen, ?_⟩
        intro hash hh
        exact hbound s hFs e List.mem_cons_self hash ((he.hashes hash).mp hh)

theorem sole_putTerminal {es : List OperationIndexEntry}
    (hes : ∀ e ∈ es, TerminalEntry registry records e) (hF : Stays F) :
    Sole (Rebuilt registry records) F (putTerminal es) fun _ s =>
      F s ∧ ∀ e ∈ es, s.entry e.operationId = some e := by
  unfold putTerminal
  apply Spec.bind (M := fun (individual : StateHash → Bool) s =>
    F s ∧ Individual individual s)
  · exact sole_file fun s hs hFs => ⟨hs, hFs, fun _ => rfl⟩
  intro individual
  apply Spec.bind (sole_bindIndividual es hes hF)
  intro added s hs h
  have hadded := h.2.1
  have hwhole : Stays fun s : IndexFiles Doc => F s ∧ ∀ e ∈ es, ∀ h, e.idempotencyHash = some h →
      Bound s h e.operationId ∨ (h, e.operationId) ∈ added :=
    hF.and fun s t hgrow h e he hash hh => (h e he hash hh).imp_left (hgrow.1 hash e.operationId)
  have hbound : Stays fun s : IndexFiles Doc => F s ∧ ∀ e ∈ es, ∀ h, e.idempotencyHash = some h →
      Bound s h e.operationId :=
    hF.and fun s t hgrow h e he hash hh => hgrow.1 hash e.operationId (h e he hash hh)
  have hrest : Sole (Rebuilt registry records)
      (fun s => (F s ∧ ∀ e ∈ es, ∀ h, e.idempotencyHash = some h →
        Bound s h e.operationId ∨ (h, e.operationId) ∈ added) ∧ Individual individual s)
      ((if added = [] then Prog.ret () else withIndexLock (mergeShards added (shardNames added)) :
        IndexProg Doc Unit).bind fun _ => openIds.bind fun opened => putEntries opened es)
      fun _ s => F s ∧ ∀ e ∈ es, s.entry e.operationId = some e := by
    apply Spec.bind (M := fun _ s => F s ∧ ∀ e ∈ es, ∀ h, e.idempotencyHash = some h →
      Bound s h e.operationId)
    · split
      · rename_i hnil
        apply sole_ret
        rintro s _ ⟨⟨hFs, hor⟩, _⟩
        refine ⟨hFs, ?_⟩
        intro e he h hh
        rcases hor e he h hh with hb | hmem
        · exact hb
        · rw [hnil] at hmem
          cases hmem
      · apply sole_withIndexLock
        apply sole_post (sole_mergeShards hadded (shardNames added) hwhole)
        rintro _ s _ ⟨⟨⟨hFs, hor⟩, _⟩, hmerged⟩
        refine ⟨hFs, ?_⟩
        intro e he h hh
        rcases hor e he h hh with hb | hmem
        · exact hb
        · exact hmerged _ hmem (mem_shardNames hmem)
    · intro _
      apply Spec.bind (M := fun _ s => F s ∧ ∀ e ∈ es, ∀ h, e.idempotencyHash = some h →
        Bound s h e.operationId)
      · exact sole_file fun s hs h => ⟨hs, h⟩
      · intro opened
        apply sole_post (sole_putEntries es hes hbound fun s h => h.2)
        rintro _ s _ ⟨⟨hFs, _⟩, hentries⟩
        exact ⟨hFs, hentries⟩
  exact hrest s hs ⟨⟨h.1.1, h.2.2⟩, h.1.2⟩

/-! ## Whole walks -/

/-- Every id the records name has its entry. -/
def Complete (registry : OperationRegistry Doc) (records : KeyedStore (@RecordFile.path Doc))
    (s : IndexFiles Doc) : Prop :=
  ∀ id e, indexedAs registry records id = some e → s.entry id = some e

theorem mem_seenIds {id : OperationId}
    (h : indexedAs registry records id = some e) : id ∈ seenIds (namesOf registry records) := by
  have hplaces : placesOf (namesOf registry records) id ≠ [] := by
    intro hnil
    unfold indexedAs at h
    rw [hnil] at h
    cases h
  rcases List.exists_mem_of_ne_nil _ hplaces with ⟨n, hn⟩
  rcases mem_placesOf.mp hn with ⟨hmem, hid⟩
  unfold seenIds
  rw [List.mem_reverse, List.mem_dedup, List.mem_reverse]
  exact List.mem_map.mpr ⟨n, hmem, hid⟩

/-- **A walk** keeps the invariant wherever it stops, and a complete one leaves no id without its entry. -/
theorem sole_reconcile :
    Sole (Rebuilt registry records) (fun _ => True) (reconcile registry) fun _ s =>
      Complete registry records s := by
  unfold reconcile
  apply Spec.bind (M := fun (indexed : List OperationId) s =>
    ∀ i ∈ indexed, ∃ e, s.entry i = some e)
  · apply sole_file
    intro s hs _
    refine ⟨hs, ?_⟩
    intro i hi
    rcases List.mem_map.mp hi with ⟨e, he, rfl⟩
    exact ⟨e, KeyedStore.find?_of_mem he⟩
  intro indexed
  have hindexed : Stays fun s : IndexFiles Doc => ∀ i ∈ indexed, ∃ e, s.entry i = some e :=
    fun s t hgrow h i hi => (h i hi).imp fun e he => hgrow.2 i e he
  apply Spec.bind (sole_allNames rebuilt_records registry.stores)
  intro named s hs h
  rcases h with ⟨rfl, hs'⟩
  have hrest : Sole (Rebuilt registry records) (fun s => ∀ i ∈ indexed, ∃ e, s.entry i = some e)
      ((walk registry indexed (namesOf registry records) (seenIds (namesOf registry records))).bind
        fun terminal => if terminal = [] then Prog.ret () else putTerminal terminal)
      fun _ s => Complete registry records s := by
    apply Spec.bind (sole_walk _ hindexed fun _ h => h)
    intro terminal
    split
    · rename_i hnil
      apply sole_ret
      rintro s _ ⟨_, _, hhandled⟩
      intro id e he
      rcases hhandled id (mem_seenIds he) e he with hentry | hmem
      · exact hentry
      · rw [hnil] at hmem
        cases hmem
    · intro s hs h
      rcases h with ⟨hind, hterminal, hhandled⟩
      have hstays : Stays fun s : IndexFiles Doc => ∀ id ∈ seenIds (namesOf registry records),
          Handled registry records id terminal s :=
        fun s t hgrow h id hid => stays_handled s t hgrow (h id hid)
      have hput := sole_putTerminal hterminal hstays
      refine Discipline.wp_mono (hput s hs hhandled) hs ?_ fun _ _ _ hE => hE
      rintro _ t _ ⟨hhandled, hentries⟩
      intro id e he
      rcases hhandled id (mem_seenIds he) e he with hentry | hmem
      · exact hentry
      · have hentry := hentries e hmem
        rw [indexedAs_id he] at hentry
        exact hentry
  exact hrest s hs hs'

-- Two complete indexes of the same records answer every lookup alike.
theorem pointer_congr {s t : IndexFiles Doc} (hs : Rebuilt registry records s)
    (ht : Rebuilt registry records t) (hs' : Complete registry records s)
    (ht' : Complete registry records t) (hash : StateHash) : s.pointer hash = t.pointer hash := by
  have hmem : ∀ u : IndexFiles Doc, Rebuilt registry records u → Complete registry records u →
      ∀ id, Bound u hash id ↔ hash ∈ boundTo registry records id := by
    intro u hu hu' id
    constructor
    · exact hu.bound_of_mem
    · intro hbound
      rcases indexedAs_of_boundTo hbound with ⟨e, he⟩
      exact (hu.entries id e (hu' id e he)).2.2 hash hbound
  have hsound : ∀ u : IndexFiles Doc, Rebuilt registry records u → ∀ ids, u.pointer hash = some ids →
      SoundPointer registry records hash ids := by
    intro u hu ids hids
    unfold IndexFiles.pointer at hids
    split at hids
    · rename_i hfile
      cases hids
      exact hu.pointers hash ids hfile
    · exact hu.shards hash ids hids
  have hsame : ∀ id, Bound s hash id ↔ Bound t hash id :=
    fun id => (hmem s hs hs' id).trans (hmem t ht ht' id).symm
  unfold Bound at hsame
  cases hps : s.pointer hash with
  | none =>
    cases hpt : t.pointer hash with
    | none => rfl
    | some ids =>
      rcases List.exists_mem_of_ne_nil _ (hsound t ht ids hpt).nonempty with ⟨id, hid⟩
      rw [hps, hpt] at hsame
      cases (hsame id).mpr hid
  | some ids =>
    cases hpt : t.pointer hash with
    | none =>
      rcases List.exists_mem_of_ne_nil _ (hsound s hs ids hps).nonempty with ⟨id, hid⟩
      rw [hps, hpt] at hsame
      cases (hsame id).mp hid
    | some ids' =>
      rw [hps, hpt] at hsame
      rw [← (hsound s hs ids hps).sorted, ← (hsound t ht ids' hpt).sorted]
      exact congrArg some (sortedUnique_congr hsame)

-- A complete index holds the entry the records call for under an id, and its open copy.
theorem entry_complete (hs : Rebuilt registry records s) (hs' : Complete registry records s) (id : OperationId) :
    s.entry id = indexedAs registry records id ∧
      s.openEntry id = (indexedAs registry records id).bind openCopy := by
  cases hindexed : indexedAs registry records id with
  | some e =>
    have he := hs' id e hindexed
    exact ⟨he, (hs.entries id e he).2.1⟩
  | none =>
    constructor
    · cases he : s.entry id with
      | none => rfl
      | some e =>
        rw [(hs.entries id e he).1] at hindexed
        cases hindexed
    · cases he : s.openEntry id with
      | none => rfl
      | some e =>
        rw [(hs.opened id e he).1] at hindexed
        cases hindexed

/-! ## A walk over a complete index -/

variable {S : IndexFiles Doc}

theorem sole_walkOne_complete (hS : Rebuilt registry records S) (hcomplete : Complete registry records S)
    (hindexed : ∀ i e, S.entry i = some e → i ∈ indexed) {id : OperationId} :
    Sole (fun s => s = S) (fun _ => True)
      (walkOne registry indexed id (placesOf (namesOf registry records) id))
      fun terminal _ => terminal = [] := by
  have hrecords : ∀ s : IndexFiles Doc, s = S → s.records = records := by
    rintro s rfl
    exact hS.records_eq
  cases hplaces : placesOf (namesOf registry records) id with
  | nil => exact sole_ret fun s _ _ => rfl
  | cons n others =>
    cases others with
    | nil =>
      simp only [walkOne]
      split
      · exact sole_ret fun s _ _ => rfl
      · rename_i hnot
        have hnone : derivedOf registry records n = none := by
          have hsingle : indexedAs registry records id = derivedOf registry records n := by
            unfold indexedAs
            rw [hplaces]
          cases hderived : derivedOf registry records n with
          | none => rfl
          | some e => exact absurd (hindexed id e (hcomplete id e (hsingle.trans hderived))) hnot
        apply Spec.bind (sole_derive hrecords)
        intro found s hs h
        rw [hnone] at h
        rcases h with ⟨rfl, _⟩
        rfl
    | cons m rest =>
      apply Spec.bind (M := fun _ _ => True)
      · apply Spec.bind (M := fun (existing : Option OperationIndexEntry) _ =>
          existing = S.entry id)
        · apply sole_file
          rintro s rfl _
          exact ⟨rfl, rfl⟩
        · intro existing
          split
          · exact sole_ret fun s _ _ => trivial
          · rename_i hnot
            apply Spec.bind (sole_deriveAll hrecords _)
            intro derived s hs h
            rcases h with ⟨hderived, hexisting⟩
            cases derived with
            | nil => trivial
            | cons first others =>
              have hall : derivedAll registry records id = first :: others := by
                rw [derivedAll, hplaces, ← hderived]
              have hentry := hcomplete id (duplicateEntry first (first :: others)) (by
                unfold indexedAs
                rw [hplaces, hall])
              rw [hexisting, hentry] at hnot
              exact absurd rfl hnot
      · exact fun _ => sole_ret fun s _ _ => rfl

theorem sole_walk_complete (hS : Rebuilt registry records S) (hcomplete : Complete registry records S)
    (hindexed : ∀ i e, S.entry i = some e → i ∈ indexed) (ids : List OperationId) :
    Sole (fun s => s = S) (fun _ => True) (walk registry indexed (namesOf registry records) ids)
      fun terminal _ => terminal = [] := by
  induction ids with
  | nil => exact sole_ret fun s _ _ => rfl
  | cons id ids ih =>
    apply Spec.bind (sole_walkOne_complete hS hcomplete hindexed)
    intro terminal s hs hterminal
    rw [hterminal]
    have hrest : Sole (fun s => s = S) (fun _ => True)
        ((walk registry indexed (namesOf registry records) ids).bind fun rest => Prog.ret ([] ++ rest))
        fun terminal _ => terminal = [] := by
      apply Spec.bind ih
      intro rest
      exact sole_ret fun s _ h => h
    exact hrest s hs trivial

/-- **Nothing is left to write** once the index is complete. -/
theorem sole_reconcile_complete (hS : Rebuilt registry records S)
    (hcomplete : Complete registry records S) :
    Sole (fun s => s = S) (fun _ => True) (reconcile registry) fun _ _ => True := by
  have hrecords : ∀ s : IndexFiles Doc, s = S → s.records = records := by
    rintro s rfl
    exact hS.records_eq
  unfold reconcile
  apply Spec.bind (M := fun (indexed : List OperationId) _ =>
    ∀ i e, S.entry i = some e → i ∈ indexed)
  · apply sole_file
    rintro s rfl _
    refine ⟨rfl, ?_⟩
    intro i e he
    have hkey : e.operationId = i := KeyedStore.key_of_find? he
    exact List.mem_map.mpr ⟨e, KeyedStore.mem_of_find? he, hkey⟩
  intro indexed
  apply Spec.bind (sole_allNames hrecords registry.stores)
  intro named s hs h
  rcases h with ⟨rfl, hindexed⟩
  have hrest : Sole (fun s => s = S) (fun _ => True)
      ((walk registry indexed (namesOf registry records) (seenIds (namesOf registry records))).bind
        fun terminal => if terminal = [] then Prog.ret () else putTerminal terminal)
      fun _ _ => True := by
    apply Spec.bind (sole_walk_complete hS hcomplete hindexed _)
    intro terminal s hs hnil
    rw [hnil]
    trivial
  exact hrest s hs trivial

/-! ## The index is rebuildable -/

/-- A walk stopped after a number of its file operations. -/
def stoppedWalk (registry : OperationRegistry Doc) (s : IndexFiles Doc) (n : ℕ) : IndexFiles Doc :=
  ((reconcile registry).play soleAnswer n s).2

/-- A walk that runs to its end. -/
def completeWalk (registry : OperationRegistry Doc) (s : IndexFiles Doc) :
    Except ApnError Unit × IndexFiles Doc :=
  (reconcile registry).eval soleAnswer s

theorem rebuilt_stoppedWalks (stops : List ℕ) (hs : Rebuilt registry records s) :
    Rebuilt registry records (stops.foldl (stoppedWalk registry) s) := by
  induction stops generalizing s with
  | nil => exact hs
  | cons n stops ih => exact ih (Discipline.inv_play sole_reconcile n hs trivial)

theorem completeWalk_complete (hs : Rebuilt registry records s) :
    (completeWalk registry s).1 = .ok () ∧ Rebuilt registry records (completeWalk registry s).2 ∧
      Complete registry records (completeWalk registry s).2 := by
  have hend := Discipline.spec_eval (@sole_reconcile _ registry records) hs trivial
  unfold completeWalk
  cases hresult : ((reconcile registry).eval soleAnswer s).1 with
  | error e =>
    rw [hresult] at hend
    exact hend.2.elim
  | ok u =>
    rw [hresult] at hend
    exact ⟨rfl, hend⟩

/-- **The index is rebuildable and its walk interruptible**: after walks stopped anywhere, one complete walk
leaves the entries and open copies the records call for and the pointer answers of a single complete walk on an
empty index, and another changes nothing. -/
theorem reconcile_rebuilds (registry : OperationRegistry Doc)
    (records : KeyedStore (@RecordFile.path Doc)) (stops : List ℕ) :
    let interrupted := stops.foldl (stoppedWalk registry) (IndexFiles.unindexed records)
    let rebuilt := completeWalk registry interrupted
    let once := completeWalk registry (IndexFiles.unindexed records)
    rebuilt.1 = .ok () ∧ once.1 = .ok () ∧
      (∀ id, rebuilt.2.entry id = indexedAs registry records id ∧
        rebuilt.2.openEntry id = (indexedAs registry records id).bind openCopy) ∧
      (∀ id, rebuilt.2.entry id = once.2.entry id ∧ rebuilt.2.openEntry id = once.2.openEntry id) ∧
      (∀ hash, rebuilt.2.pointer hash = once.2.pointer hash) ∧
      completeWalk registry rebuilt.2 = (.ok (), rebuilt.2) := by
  intro interrupted rebuilt once
  have hfirst : Rebuilt registry records (IndexFiles.unindexed records) := rebuilt_unindexed
  rcases completeWalk_complete (rebuilt_stoppedWalks stops hfirst) with ⟨hok, hs, hs'⟩
  rcases completeWalk_complete hfirst with ⟨hok', ht, ht'⟩
  refine ⟨hok, hok', entry_complete hs hs', fun id => ?_, pointer_congr hs ht hs' ht', ?_⟩
  · rw [(entry_complete hs hs' id).1, (entry_complete hs hs' id).2, (entry_complete ht ht' id).1,
      (entry_complete ht ht' id).2]
    exact ⟨rfl, rfl⟩
  · have hagain := Discipline.spec_eval (sole_reconcile_complete hs hs') rfl trivial
    have hokAgain := (completeWalk_complete hs).1
    exact Prod.ext hokAgain hagain.1

end Walk
end PaymentNode
