import PaymentNode.Index.KeyGuard

/-!
# OneKey — one operation per idempotency key

What each step of an admission does under the discipline of `KeyGuard`, the admission and the prepare lookup
put together from them, and the theorem about every run: a second operation reaches its body under a key only
after the admission of the first has been forgotten, and a lookup of an operation that has its record finds it.
-/

namespace PaymentNode

open IndexProg System Discipline

section Specs

variable {Doc π α : Type} [DecidableEq π] {registry : OperationRegistry Doc} {p : π}
variable {P : IndexShared Doc π → Prop}

/-! ## Lookups -/

section Lookup

variable {base : List (IndexEvent π)}

/-- The operation has been forgotten since `base`. -/
def Forgotten (p : π) (base : List (IndexEvent π)) (id : OperationId) (s : IndexShared Doc π) : Prop :=
  ∃ mid, s.log = mid ++ base ∧ (∀ i, .asked p i ∉ mid) ∧ .forgot id ∈ mid

/-- Every operation with a record that `P` knows of is found. -/
def AllFound (registry : OperationRegistry Doc) (P : IndexShared Doc π → Prop) (p : π)
    (base : List (IndexEvent π)) (s : IndexShared Doc π) : Prop :=
  ∀ id, KnowsRecord registry P id → Found p base id s

omit [DecidableEq π] in
theorem kept_allFound (hP : Kept registry p P) :
    Kept registry p fun s => P s ∧ AllFound registry P p base s := by
  refine ⟨?_, fun s holder h => ⟨hP.free s holder h.1, h.2⟩⟩
  rintro s t hst ⟨hPs, hall⟩
  exact ⟨hP.stable s t hst hPs, fun id hid => stable_found s t hst (hall id hid)⟩

-- An operation that is found and has no entry has been forgotten.
theorem key_entryFound {id : OperationId} (hP : KeyStable registry p P)
    {E : ApnError → IndexShared Doc π → Prop} :
    KeySpec registry p P (entry id)
      (fun found s => P s ∧ (found = none → (∀ s, P s → Found p base id s) →
        Forgotten p base id s)) E := by
  intro s hs hPs
  have hread : KeySpec registry p P (file (.entry id)) (fun found s => P s ∧
      ((found : Option OperationIndexEntry) = none → (∀ s, P s → Found p base id s) →
        Forgotten p base id s)) E := by
    apply key_file (o := .entry id) trivial hP
    intro s _ hPs hnone hfound
    rcases hfound s hPs with ⟨mid, hlog, hmid, hentry | hforgot⟩
    · have habsent : s.files.entry id = none := hnone
      rw [habsent] at hentry
      cases hentry
    · exact ⟨mid, hlog, hmid, hforgot⟩
  exact hread s hs hPs

theorem key_afterReconcile {found : IndexProg Doc (Option OperationIndexEntry)}
    (hP : Kept registry p P) (hbase : ∀ s, P s → LogSince p base s)
    (hfound : ∀ P : IndexShared Doc π → Prop, Kept registry p P →
      KeySpec registry p P found (fun _ => P) fun _ => P) :
    KeySpec registry p P ((reconcile registry).bind fun _ => found)
      (fun e s => P s ∧ (e = none → AllFound registry P p base s)) fun _ => P := by
  apply key_bind (key_reconcile hP hbase)
  intro _
  have hkept : Kept registry p fun s => P s ∧ AllFound registry P p base s := kept_allFound hP
  apply key_conseq (hfound _ hkept) (fun s h => h) _ fun s h => h.1
  exact fun _ s h => ⟨h.1, fun _ => h.2⟩

theorem key_readEntry {id : OperationId} (hP : Kept registry p P)
    {E : ApnError → IndexShared Doc π → Prop} :
    KeySpec registry p P (entry id) (fun _ => P) E :=
  key_write (o := .entry id) trivial hP.stable

theorem key_entryOrReconcile {id : OperationId} (hP : Kept registry p P)
    (hbase : ∀ s, P s → LogSince p base s) :
    KeySpec registry p P (byOperationId registry id)
      (fun e s => P s ∧ (e = none → AllFound registry P p base s)) fun _ => P := by
  apply key_bind (key_readEntry hP)
  intro e
  cases e with
  | some e => exact key_ret fun s hPs => ⟨hPs, by simp⟩
  | none => exact key_afterReconcile hP hbase fun _ hP => key_readEntry hP

theorem key_byIdempotency {hash : StateHash} (hP : Kept registry p P)
    (hbase : ∀ s, P s → LogSince p base s) :
    KeySpec registry p P (byIdempotency registry hash)
      (fun e s => P s ∧ (e = none → AllFound registry P p base s)) fun _ => P := by
  -- What is bound is `some` at once, or read after a walk.
  apply key_bind (M := fun known s => P s)
  · exact key_post (key_pointer hP.stable) fun _ _ h => h.2
  intro known
  apply key_bind (M := fun (ids : Option (List OperationId)) s =>
    P s ∧ (ids = none → AllFound registry P p base s))
  · cases known with
    | some ids => exact key_ret fun s hPs => ⟨hPs, by simp⟩
    | none =>
      apply key_bind (key_reconcile hP hbase)
      intro _
      have hkept : Kept registry p fun s => P s ∧ AllFound registry P p base s := kept_allFound hP
      apply key_conseq (key_pointer hkept.stable) (fun s h => h) _ fun s h => h.1
      exact fun _ s h => ⟨h.2.1, fun _ => h.2.2⟩
  · intro ids
    match ids with
    | none => exact key_ret fun s h => ⟨h.1, fun _ => h.2 rfl⟩
    | some [id] =>
      exact Spec.pre (key_entryOrReconcile hP hbase) fun s _ h => h.1
    | some [] => exact Spec.fail fun s _ h => h.1
    | some (_ :: _ :: _) => exact Spec.fail fun s _ h => h.1

/-- **A lookup** that answers nothing of an operation with a record comes after its forgetting. -/
theorem key_resolvePrepare {identity : PrepareIdentity} (hP : Kept registry p P)
    (hbase : ∀ s, P s → LogSince p base s) :
    KeySpec registry p P (resolvePrepare registry identity)
      (fun found s => P s ∧ (found = none → KnowsRecord registry P identity.operationId →
        Forgotten p base identity.operationId s)) fun _ => P := by
  apply key_bind (M := fun (found : Option OperationIndexEntry) s =>
    P s ∧ (found = none → AllFound registry P p base s))
  · cases identity.idempotencyHash with
    | none => exact key_entryOrReconcile hP hbase
    | some hash => exact key_byIdempotency hP hbase
  · intro found
    cases found with
    | none =>
      have hkept : Kept registry p fun s => P s ∧ AllFound registry P p base s := kept_allFound hP
      apply key_bind (M := fun e s => (P s ∧ AllFound registry P p base s) ∧ (e = none →
        (∀ s, P s ∧ AllFound registry P p base s → Found p base identity.operationId s) →
          Forgotten p base identity.operationId s))
      · exact Spec.pre (key_entryFound hkept.stable) fun s _ h => ⟨h.1, h.2 rfl⟩
      intro e
      split
      · exact Spec.fail fun s _ h => h.1.1
      · rename_i hnone
        apply key_ret
        rintro s ⟨⟨hPs, _⟩, hforgot⟩
        refine ⟨hPs, fun _ hknows => hforgot (by simpa using hnone) fun s h => h.2 _ hknows⟩
    | some e =>
      dsimp only
      split
      · exact Spec.fail fun s _ h => h.1
      · split
        · exact key_ret fun s h => ⟨h.1, by simp⟩
        · exact Spec.fail fun s _ h => h.1

end Lookup
/-! ## The steps of an admission -/

omit [DecidableEq π] in
theorem kept_true : Kept registry p fun _ => True :=
  ⟨fun _ _ _ h => h, fun _ _ h => h⟩

/-- A program about which nothing need be known after it. -/
abbrev KeyFree (registry : OperationRegistry Doc) (p : π) (x : IndexProg Doc α) : Prop :=
  KeySpec registry p (fun _ => True) x (fun _ _ => True) fun _ _ => True

theorem keyFree_file {o : FileOp} (ho : o.Plain) : KeyFree registry p (file o) :=
  key_write ho kept_true.stable

theorem keyFree_now : KeyFree registry p now :=
  key_quiet (o := .now) kept_true.stable fun _ _ _ h => h

theorem keyFree_reconcile : KeyFree registry p (reconcile registry) :=
  key_anchor fun _ =>
    Spec.conseq (key_reconcile ⟨stable_logSince, fun _ _ h => h⟩ fun _ h => h)
      (fun _ _ h => h.2) (fun _ _ _ _ => trivial) fun _ _ _ _ => trivial

theorem keyFree_resolvePrepare {identity : PrepareIdentity} :
    KeyFree registry p (resolvePrepare registry identity) :=
  key_anchor fun _ =>
    Spec.conseq (key_resolvePrepare ⟨stable_logSince, fun _ _ h => h⟩ fun _ h => h)
      (fun _ _ h => h.2) (fun _ _ _ _ => trivial) fun _ _ _ _ => trivial

variable {e : OperationIndexEntry}

theorem keyFree_writeEntry {force : Bool} (hstate : e.state ≠ .admitted) :
    KeyFree registry p (writeEntry e force) :=
  key_anchor fun _ =>
    Spec.conseq (key_writeEntry hstate stable_logSince fun _ h => h)
      (fun _ _ h => h.2) (fun _ _ _ _ => trivial) fun _ _ _ _ => trivial

theorem key_openEntriesOf (ids : List OperationId) (hP : KeyStable registry p P) :
    KeySpec registry p P (openEntriesOf ids) (fun _ => P) fun _ => P := by
  induction ids with
  | nil => exact key_ret fun _ h => h
  | cons id ids ih =>
    apply key_bind (key_write (o := .openEntry id) trivial hP)
    intro e
    exact key_bind ih fun _ => key_ret fun _ h => h

theorem key_openEntries (hP : KeyStable registry p P) :
    KeySpec registry p P openEntries (fun _ => P) fun _ => P :=
  key_bind (key_write (o := .openIds) trivial hP) fun ids => key_openEntriesOf ids hP

variable {wanted : WantedClaims}

theorem keyFree_readColliding :
    KeyFree registry p (readColliding registry wanted) :=
  key_bind (key_openEntries kept_true.stable) fun _ => key_ret fun _ h => h

theorem keyFree_loadRecord : KeyFree registry p (loadRecord registry e) := by
  unfold loadRecord
  split
  · exact key_ret fun _ h => h
  · apply key_bind (keyFree_file (o := .record e.recordPath) trivial)
    intro found
    cases found with
    | none => exact key_ret fun _ h => h
    | some doc =>
      dsimp only
      split
      · exact key_ret fun _ h => h
      · exact key_fail

-- What is admitted is admitted under its own identity.
theorem key_resolveAdmission {identity : PrepareIdentity} :
    KeySpec registry p (fun _ => True) (resolveAdmission registry identity wanted)
      (fun e _ => e.state = .admitted ∧ e.operationId = identity.operationId ∧
        e.idempotencyHash = identity.idempotencyHash) fun _ _ => True := by
  apply key_bind keyFree_resolvePrepare
  intro existing
  apply key_bind (M := fun _ _ => True)
  · cases existing with
    | none => exact key_ret fun _ h => h
    | some e =>
      dsimp only
      split
      · exact key_ret fun _ h => h
      · exact key_bind keyFree_loadRecord fun _ => key_ret fun _ h => h
  · intro taken
    split
    · exact key_fail
    · apply key_bind (M := fun _ _ => True)
      · cases existing with
        | none => exact key_post key_lift fun _ _ _ => trivial
        | some e => exact key_ret fun _ h => h
      · intro path
        apply key_bind (M := fun _ _ => True)
        · exact keyFree_now
        · exact fun at' => key_ret fun _ _ => ⟨rfl, rfl, rfl⟩

theorem nextEntry_ne_admitted {e derived : OperationIndexEntry} (h : derived.state ≠ .admitted) :
    (nextEntry e derived).state ≠ .admitted := by
  unfold nextEntry
  split
  · exact h
  · exact h

theorem keyFree_inspectReadable {adapter : OperationFamilyAdapter Doc} {doc : Doc} {wanted : Option WantedClaims} :
    KeyFree registry p (inspectReadable registry adapter e doc wanted) := by
  apply key_bind (key_fromRecord kept_true.stable)
  intro derived s hs h
  cases derived with
  | none => trivial
  | some derived =>
    have hstate : derived.state ≠ .admitted := (h.2.1 derived rfl).2
    suffices hrest : KeyFree registry p _ from hrest s hs trivial
    apply key_bind (M := fun _ _ => True)
    · split
      · exact keyFree_writeEntry (nextEntry_ne_admitted hstate)
      · exact key_ret fun _ h => h
    · intro _
      cases wanted <;> exact key_ret fun _ h => h

theorem keyFree_inspectAbsent {wanted : Option WantedClaims} :
    KeyFree registry p (inspectAbsent e wanted) := by
  unfold inspectAbsent
  split
  · apply key_bind (M := fun _ _ => True)
    · exact keyFree_now
    · intro at'
      split <;> exact key_ret fun _ h => h
  · exact key_ret fun _ h => h

theorem keyFree_quarantined {adapter : OperationFamilyAdapter Doc} {name : RecordPath}
    {reason : UnreadableReason} :
    KeyFree registry p ((quarantine registry adapter name reason).bind fun q => write q false) := by
  apply key_bind (key_quarantine kept_true.stable)
  intro q s hs h
  cases q with
  | none => trivial
  | some q => exact keyFree_writeEntry (h.2.1 q rfl).2 s hs trivial

theorem keyFree_inspectEntry {wanted : Option WantedClaims} :
    KeyFree registry p (inspectEntry registry e wanted) := by
  unfold inspectEntry
  split
  · exact key_ret fun _ h => h
  · split
    · exact key_ret fun _ h => h
    · apply key_bind (keyFree_file (o := .record e.recordPath) trivial)
      intro found
      cases found with
      | none => exact keyFree_inspectAbsent
      | some doc =>
        dsimp only
        split
        · exact keyFree_inspectReadable
        · apply key_bind (M := fun _ _ => True)
          · split
            · exact keyFree_quarantined
            · exact key_ret fun _ h => h
          · exact fun _ => key_ret fun _ h => h

/-! ## Under the index lock -/

/-- No admission of `id` stands. -/
def NoneStanding (id : OperationId) (s : IndexShared Doc π) : Prop :=
  ∀ hash, ¬ Standing id hash s.log

omit [DecidableEq π] in
theorem stable_noneStanding {id : OperationId} :
    KeyStable registry p (Locks p (NoneStanding id)) :=
  keyStable_of_rely fun _ _ hrely h =>
    ⟨(hrely.lock h.1).1, fun hash hs => h.2 hash ((hrely.lock h.1).2.1 id hash hs)⟩

omit [DecidableEq π] in
theorem stable_claimed : KeyStable registry p (Locks p (Claimed e)) := by
  apply keyStable_of_rely
  intro s t hrely h
  rcases hrely.lock h.1 with ⟨hheld, hstanding, hgrow⟩
  refine ⟨hheld, ?_⟩
  intro hash hhash
  rcases h.2 hash hhash with ⟨hguarded, hunclaimed⟩
  exact ⟨hguarded.grow hgrow, fun other hne hs => hunclaimed other hne (hstanding other hash hs)⟩

omit [DecidableEq π] in
theorem stable_hasPointer {hash : StateHash} :
    KeyStable registry p (Locks p fun s => (s.files.pointers hash).isSome) := by
  apply keyStable_of_rely
  intro s t hrely h
  rcases hrely.lock h.1 with ⟨hheld, _, hgrow⟩
  rcases Option.isSome_iff_exists.mp h.2 with ⟨ids, hids⟩
  rcases hgrow hash ids hids with ⟨ids', hids', _⟩
  refine ⟨hheld, ?_⟩
  show (t.files.pointers hash).isSome
  rw [hids']
  rfl

omit [DecidableEq π] in
-- A pointer file that names `id` alone lets nobody else's admission stand.
theorem unclaimed_of_pointer {s : IndexShared Doc π} {id : OperationId} {hash : StateHash}
    (hs : KeyInv registry s) (hpointer : ∀ ids, s.files.pointers hash = some ids → ids = [id]) :
    Unclaimed id hash s.log := by
  intro other hne hstanding
  rcases hs.guarded other hash hstanding with ⟨ids, hids, hor⟩
  rw [hpointer ids hids] at hor
  rcases hor with heq | hlong
  · exact hne (by simpa using heq.symm)
  · simp at hlong

omit [DecidableEq π] in
theorem stable_unclaimed {id : OperationId} {hash : StateHash}
    (hP : KeyStable registry p (Locks p P)) :
    KeyStable registry p (Locks p fun s => P s ∧ Unclaimed id hash s.log) := by
  rintro s t hst ⟨hheld, hPs, hun⟩
  refine ⟨(hst.2.2.lock hheld).1, (hP s t hst ⟨hheld, hPs⟩).2, ?_⟩
  exact fun other hne h => hun other hne ((hst.2.2.lock hheld).2.1 other hash h)

-- A hash that answers `id` alone under the lock is claimed by nobody else.
theorem key_pointerLocked (hash : StateHash) (id : OperationId)
    (hP : KeyStable registry p (Locks p P)) {E : ApnError → IndexShared Doc π → Prop} :
    KeySpec registry p (Locks p P) (pointer hash)
      (fun found s => Locks p P s ∧ (found = some [id] → Unclaimed id hash s.log ∧
        ((∀ s, Locks p P s → (s.files.pointers hash).isSome) → Guarded s.files id hash))) E := by
  -- Either the file is the answer, or there is none and the shard is.
  have hunclaimed : KeyStable registry p (Locks p fun s => P s ∧ Unclaimed id hash s.log) :=
    stable_unclaimed hP
  unfold pointer
  apply key_bind (M := fun (found : Option (List OperationId)) s => Locks p P s ∧
    (found = some [id] → Unclaimed id hash s.log ∧ Guarded s.files id hash) ∧
    (found = none → Unclaimed id hash s.log ∧ s.files.pointers hash = none))
  · apply key_post (M := fun (found : Option (List OperationId)) s => Locks p P s ∧
      (found = some [id] → Unclaimed id hash s.log ∧ Guarded s.files id hash) ∧
      (found = none → Unclaimed id hash s.log ∧ s.files.pointers hash = none))
    · apply key_file (o := .pointerFile hash) trivial hP
      intro s hs _
      refine ⟨?_, ?_⟩
      · intro hfound
        have hids : s.files.pointers hash = some [id] := hfound
        refine ⟨unclaimed_of_pointer hs ?_, [id], hids, Or.inl rfl⟩
        intro ids h
        exact Option.some.inj (h.symm.trans hids)
      · intro hnone
        have hids : s.files.pointers hash = none := hnone
        refine ⟨unclaimed_of_pointer hs ?_, hids⟩
        intro ids h
        have habsent : none = some ids := hids.symm.trans h
        cases habsent
    · exact fun _ _ h => h
  · intro found
    cases found with
    | some ids =>
      apply key_ret
      rintro s ⟨hlocks, hsome, _⟩
      refine ⟨hlocks, fun h => ⟨(hsome h).1, fun _ => (hsome h).2⟩⟩
    | none =>
      intro s hs h
      have hnone := h.2.2 rfl
      have hrest : KeySpec registry p (Locks p fun s => P s ∧ Unclaimed id hash s.log)
          ((shard (shardName hash)).bind fun pointers => Prog.ret (pointers hash))
          (fun _ => Locks p fun s => P s ∧ Unclaimed id hash s.log) E :=
        key_bind (key_write (o := .shard (shardName hash)) trivial hunclaimed)
          fun pointers => key_ret fun _ h => h
      refine Discipline.wp_mono (hrest s hs ⟨h.1.1, h.1.2, hnone.1⟩) hs ?_ fun _ _ _ h => h
      intro found' t _ hlocks
      refine ⟨⟨hlocks.1, hlocks.2.1⟩, fun _ => ⟨hlocks.2.2, ?_⟩⟩
      intro hall
      have hsome := hall s h.1
      rw [hnone.2] at hsome
      cases hsome

theorem key_dropBinding {hash : Option StateHash} {id : OperationId} :
    KeySpec registry p (Locks p (NoneStanding id)) (dropBinding hash id)
      (fun _ => Locks p fun _ => True) fun _ => Locks p fun _ => True := by
  cases hash with
  | none => exact key_ret fun _ h => ⟨h.1, trivial⟩
  | some hash =>
    apply key_bind (key_pointerLocked hash id stable_noneStanding)
    intro found
    split
    · rename_i hfound
      have hdrop : KeySpec registry p
          (Locks p fun s => NoneStanding id s ∧ Unclaimed id hash s.log) (dropPointer hash)
          (fun _ => Locks p fun _ => True) fun _ => Locks p fun _ => True := by
        apply Spec.op (o := IndexOp.file (.dropPointer hash))
          (M := fun _ => Locks p fun _ => True) (stable_unclaimed stable_noneStanding)
        · rintro s _ t hs ⟨hheld, hnone, hun⟩ ⟨_, rfl⟩
          refine ⟨keeps_dropPointer hs hheld ?_, hheld, trivial⟩
          intro other
          by_cases heq : other = id
          · rw [heq]
            exact hnone hash
          · exact hun other heq
        · exact fun _ => Spec.ret fun _ _ h => h
      exact Spec.pre hdrop fun s _ h => ⟨h.1.1, h.1.2, (h.2 hfound).1⟩
    · exact key_ret fun _ h => ⟨h.1.1, trivial⟩

theorem key_forgetLocked :
    KeySpec registry p (Locks p fun _ => True) (forgetLocked e)
      (fun _ => Locks p fun _ => True) fun _ => Locks p fun _ => True := by
  have hlocks : KeyStable registry p (Locks p fun _ => True) := stable_locks kept_true.stable
  apply key_bind (key_write (o := .dropOpen e.operationId) trivial hlocks)
  intro _
  apply key_bind (M := fun _ => Locks p (NoneStanding e.operationId))
  · apply key_post (M := fun _ s => Locks p (fun _ => True) s ∧ NoneStanding e.operationId s)
    · apply key_file (o := .dropEntry e.operationId) trivial hlocks
      exact fun s _ _ hash hs => hs.1 rfl
    · exact fun _ s h => ⟨h.1.1, h.2⟩
  · exact fun _ => key_dropBinding

theorem keyFree_forgetEntry : KeyFree registry p (forgetEntry e) := by
  apply key_withIndexLock kept_true fun _ => kept_true
  apply key_bind (key_write (o := .entry e.operationId) trivial (stable_locks kept_true.stable))
  intro current
  split
  · exact key_forgetLocked
  · exact key_ret fun _ h => h

theorem key_bindAdmitted :
    KeySpec registry p (Locks p fun _ => True) (bindAdmitted e.idempotencyHash e.operationId)
      (fun _ => Locks p (Claimed e)) fun _ => Locks p fun _ => True := by
  cases hhash : e.idempotencyHash with
  | none =>
    apply key_ret
    intro s h
    refine ⟨h.1, ?_⟩
    intro hash heq
    rw [hhash] at heq
    cases heq
  | some hash =>
    -- It is enough to claim that one hash.
    have hone : ∀ s : IndexShared Doc π, Guarded s.files e.operationId hash →
        Unclaimed e.operationId hash s.log → Claimed e s := by
      intro s hguarded hun other hother
      rw [hhash] at hother
      cases hother
      exact ⟨hguarded, hun⟩
    apply key_bind (M := fun (created : Bool) s => Locks p (fun _ => True) s ∧
      ((created = true → Claimed e s) ∧ (created = false → (s.files.pointers hash).isSome)))
    · apply key_file (o := .putPointer hash [e.operationId] true)
        ⟨by simp, by simp⟩ (stable_locks kept_true.stable)
      intro s hs _
      by_cases hnew : (s.files.pointers hash).isSome
      · have hexec : FileOp.exec s.files (.putPointer hash [e.operationId] true) =
            (false, s.files) :=
          if_pos (by simpa using hnew)
        unfold IndexShared.after
        rw [hexec]
        exact ⟨by simp, fun _ => hnew⟩
      · have hnone : s.files.pointers hash = none := by simpa using hnew
        have hun : Unclaimed e.operationId hash s.log := by
          apply unclaimed_of_pointer hs
          intro ids h
          rw [hnone] at h
          cases h
        have hself : (s.after (.putPointer hash [e.operationId] true)).files.pointers hash =
            some (sortedUnique [e.operationId]) := by
          simp [IndexShared.after, FileOp.exec, hnone]
        refine ⟨fun _ => hone _ ⟨_, hself, Or.inl rfl⟩ hun, fun _ => ?_⟩
        rw [hself]
        rfl
    · intro created
      cases created with
      | true => exact key_ret fun s h => ⟨h.1.1, h.2.1 rfl⟩
      | false =>
        apply key_bind (M := fun (ids : Option (List OperationId)) s =>
          Locks p (fun s => (s.files.pointers hash).isSome) s ∧
          (ids = some [e.operationId] → Claimed e s))
        · apply Spec.conseq
            (key_pointerLocked hash e.operationId stable_hasPointer)
          · exact fun s _ h => ⟨h.1.1, h.2.2 rfl⟩
          · rintro ids s _ ⟨hlocks, hids⟩
            refine ⟨hlocks, fun h => hone s ((hids h).2 fun _ h => h.2) (hids h).1⟩
          · exact fun _ _ _ h => h
        · intro ids
          split
          · rename_i hids
            exact key_ret fun s h => ⟨h.1.1, h.2 hids⟩
          · exact Spec.fail fun s _ h => ⟨h.1.1, trivial⟩

/-- What has been admitted since the log began. -/
def WasAdmitted (id : OperationId) (hash : Option StateHash) (s : IndexShared Doc π) : Prop :=
  .admitted id hash ∈ s.log

omit [DecidableEq π] in
theorem kept_wasAdmitted {id : OperationId} {hash : Option StateHash} :
    Kept registry p (WasAdmitted id hash) := by
  refine ⟨?_, fun _ _ h => h⟩
  apply keyStable_of_rely
  intro s t hrely h
  rcases hrely.log with ⟨new, hlog, _⟩
  unfold WasAdmitted
  rw [hlog]
  exact List.mem_append_right _ h

theorem key_writeAdmitted (hstate : e.state = .admitted) :
    KeySpec registry p (Locks p fun _ => True) (writeAdmitted e)
      (fun _ => Locks p (WasAdmitted e.operationId e.idempotencyHash))
      fun _ => Locks p fun _ => True := by
  apply key_bind (key_write (o := .entry e.operationId) trivial (stable_locks kept_true.stable))
  intro current
  split
  · exact key_fail
  · apply key_bind key_bindAdmitted
    intro _
    apply key_bind (key_write (o := .putOpen e) trivial stable_claimed)
    intro _
    apply Spec.op (o := IndexOp.file (.putEntry e))
      (M := fun _ => Locks p (WasAdmitted e.operationId e.idempotencyHash)) stable_claimed
    · rintro s _ t hs ⟨hheld, hclaimed⟩ ⟨_, rfl⟩
      have hevents : (fileEvents (.putEntry e) : List (IndexEvent π)) =
          [.admitted e.operationId e.idempotencyHash] := if_pos hstate
      refine ⟨keeps_admitted hs hheld hstate hclaimed, hheld, ?_⟩
      unfold WasAdmitted IndexShared.after
      rw [hevents]
      exact List.mem_cons_self
    · exact fun _ => Spec.ret fun _ _ h => h

/-- **The claim** is made only when nobody else's admission stands under its key. -/
theorem key_claimLocked {clear : List OperationId} (hstate : e.state = .admitted) :
    KeySpec registry p (fun _ => True) (claimLocked registry wanted clear e)
      (fun done s => done = true → WasAdmitted e.operationId e.idempotencyHash s)
      fun _ _ => True := by
  apply key_withIndexLock kept_true
  · intro done
    cases done with
    | true => exact ⟨fun s t hst h _ => kept_wasAdmitted.stable s t hst (h rfl), fun _ _ h => h⟩
    | false => exact ⟨by simp [Discipline.Stable], fun _ _ h => h⟩
  · have hlocks : KeyStable registry p (Locks p fun _ => True) := stable_locks kept_true.stable
    apply key_bind (key_openEntries hlocks)
    intro opened
    split
    · exact key_ret fun s h => ⟨h.1, by simp⟩
    · apply key_bind (key_writeAdmitted hstate)
      exact fun _ => key_ret fun s h => ⟨h.1, fun _ => h.2⟩

-- The admitted entry is read for its own body alone.
theorem keyFree_readRecordless {id : OperationId} :
    KeyFree registry p (readRecordless registry id) := by
  apply key_bind (keyFree_file (o := .entry id) trivial)
  intro found
  cases found with
  | none => exact key_ret fun _ h => h
  | some e =>
    dsimp only
    split
    · exact key_ret fun _ h => h
    · apply Spec.handle (M := fun _ _ => True)
      · exact key_bind keyFree_loadRecord fun _ => key_ret fun _ h => h
      · exact fun _ => key_ret fun _ h => h

/-! ## The admission, step by step -/

/-- What must be known before a step. -/
def StepPre (o : IndexStep) (s : IndexShared Doc π) : Prop :=
  match o with
  | .claim _ _ e => e.state = .admitted
  | .work identity => WasAdmitted identity.operationId identity.idempotencyHash s
  | _ => True

/-- What is known after it. -/
def StepPost : (o : IndexStep) → o.Value → IndexShared Doc π → Prop
  | .resolve identity _, e, _ =>
    OperationIndexEntry.state e = .admitted ∧
      OperationIndexEntry.operationId e = identity.operationId ∧
      OperationIndexEntry.idempotencyHash e = identity.idempotencyHash
  | .claim _ _ e, done, s => done = true → WasAdmitted e.operationId e.idempotencyHash s
  | _, _, _ => True

theorem key_work {identity : PrepareIdentity} {E : ApnError → IndexShared Doc π → Prop} :
    KeySpec registry p (WasAdmitted identity.operationId identity.idempotencyHash)
      (Prog.perform (IndexOp.work identity)) (fun _ _ => True) E := by
  apply Spec.op (M := fun _ _ => True) kept_wasAdmitted.stable
  · rintro s answer t hs hadmitted rfl
    refine ⟨⟨keyInv_note hs (by simp) (by simp) hadmitted, fun q _ => ?_⟩, trivial⟩
    exact keyRely_note (by simp) q (by simp)
  · exact fun _ => Spec.ret fun _ _ h => h

theorem key_writeRecord {identity : PrepareIdentity} {E : ApnError → IndexShared Doc π → Prop} :
    KeySpec registry p (fun _ => True) (Prog.perform (IndexOp.writeRecord identity))
      (fun _ _ => True) E := by
  apply Spec.op (M := fun _ _ => True) kept_true.stable
  · intro s answer t hs _ hexec
    refine ⟨?_, trivial⟩
    simp only [keySystem, indexExec] at hexec
    split at hexec
    · rename_i path hpath
      rcases hexec with ⟨doc, rfl⟩
      have hput : KeyInv registry (s.putRecord ⟨path, doc⟩) := keyInv_putRecord hs
      refine ⟨⟨hput.pointers, hput.shards, hput.guarded, ?_, trivial, hput.ok⟩, ?_⟩
      · intro id hid
        rcases List.mem_cons.mp hid with heq | hid
        · cases heq
          exact recorded_putRecord hpath
        · exact hput.written id hid
      · intro q _
        refine ⟨⟨[.wrote identity.operationId], rfl, by simp, fun i hi => Or.inl hi⟩, ?_, ?_⟩
        · exact fun _ h => record_putRecord h
        · exact fun h => ⟨h, fun _ _ hs => hs, PointersGrow.refl _⟩
    · rw [hexec]
      exact ⟨hs, fun q _ => keyRely_refl q s⟩
  · exact fun _ => Spec.ret fun _ _ h => h

theorem key_stepBody (o : IndexStep) :
    KeySpec registry p (StepPre o) (stepBody registry o) (StepPost o) fun _ _ => True := by
  cases o with
  | reconcile => exact keyFree_reconcile
  | resolve identity wanted => exact key_resolveAdmission
  | colliding wanted => exact keyFree_readColliding
  | pick n => exact key_quiet (o := .random n) kept_true.stable fun _ _ _ h => h
  | inspect e wanted => exact keyFree_inspectEntry
  | forget e => exact keyFree_forgetEntry
  | claim wanted clear e =>
    intro s hs hstate
    exact key_claimLocked hstate s hs trivial
  | work identity => exact key_work
  | writeRecord identity => exact key_writeRecord
  | workDone identity =>
    apply key_bind (key_quiet (o := .workDone identity) kept_true.stable fun _ _ _ h => h)
    exact fun answer => key_post key_lift fun _ _ _ => trivial
  | recordless id => exact keyFree_readRecordless
  | entry id => exact keyFree_file (o := .entry id) trivial

theorem key_step (o : IndexStep) :
    KeySpec registry p (StepPre o) (step (stepProgram registry) o) (StepPost o) fun _ _ => True := by
  apply key_bind (Spec.attempt (key_stepBody o))
  intro answer
  match answer with
  | .ok a => exact key_ret fun _ h => h
  | .error e => exact key_fail

theorem keyFree_step (o : IndexStep) (hpre : ∀ s : IndexShared Doc π, StepPre o s) :
    KeyFree registry p (step (stepProgram registry) o) :=
  Spec.conseq (key_step o) (fun s _ _ => hpre s) (fun _ _ _ _ => trivial) fun _ _ _ h => h

theorem keyFree_inspect' {wanted : Option WantedClaims} :
    KeyFree registry p (inspect' (stepProgram registry) e wanted) := by
  apply key_bind (keyFree_step (.inspect e wanted) fun _ => trivial)
  intro found
  split
  · apply key_bind (keyFree_step (.forget e) fun _ => trivial)
    exact fun _ => key_ret fun _ h => h
  · exact key_ret fun _ h => h

theorem keyFree_inspectAll (es : List OperationIndexEntry) :
    KeyFree registry p (inspectAll (stepProgram registry) wanted es) := by
  induction es with
  | nil => exact key_ret fun _ h => h
  | cons e es ih =>
    apply key_bind keyFree_inspect'
    intro found
    split
    · exact key_fail
    · exact key_bind ih fun _ => key_ret fun _ h => h

theorem keyFree_collect {others : List OperationIndexEntry} (picks : List ℕ) :
    KeyFree registry p (collect (stepProgram registry) others picks) := by
  induction picks with
  | nil => exact key_ret fun _ h => h
  | cons i is ih =>
    unfold collect
    split
    · exact key_ret fun _ h => h
    · exact key_bind keyFree_inspect' fun _ => ih

theorem keyFree_check :
    KeyFree registry p (check registry (stepProgram registry) wanted) := by
  apply key_bind (keyFree_step (.colliding wanted) fun _ => trivial)
  intro found
  apply key_bind (keyFree_inspectAll _)
  intro clear
  apply key_bind (keyFree_step (.pick _) fun _ => trivial)
  intro start
  apply key_bind (keyFree_collect _)
  exact fun _ => key_ret fun _ h => h

theorem key_claimAttempt (hstate : e.state = .admitted) :
    KeySpec registry p (fun _ => True) (claimAttempt registry (stepProgram registry) wanted e)
      (fun done s => done = true → WasAdmitted e.operationId e.idempotencyHash s)
      fun _ _ => True := by
  apply key_bind keyFree_check
  intro clear
  exact Spec.pre (key_step (.claim wanted clear e)) fun _ _ _ => hstate

theorem key_claimUnderLock (hstate : e.state = .admitted) :
    KeySpec registry p (fun _ => True) (claimUnderLock registry (stepProgram registry) wanted e)
      (fun _ => WasAdmitted e.operationId e.idempotencyHash) fun _ _ => True := by
  apply key_bind (key_claimAttempt hstate)
  intro done
  split
  · rename_i hdone
    exact key_ret fun s h => h hdone
  · apply Spec.pre _ fun _ _ _ => trivial
    apply key_bind (key_claimAttempt hstate)
    intro done
    split
    · rename_i hdone
      exact key_ret fun s h => h hdone
    · exact Spec.fail fun _ _ _ => trivial

-- A body runs only under an admission of its own.
theorem key_prepareBody {identity : PrepareIdentity} :
    KeySpec registry p (WasAdmitted identity.operationId identity.idempotencyHash)
      (prepareBody (stepProgram registry) identity) (fun _ _ => True) fun _ _ => True := by
  apply key_bind (key_step (.work identity))
  intro (writes : Bool)
  apply key_bind (M := fun _ _ => True)
  · cases writes with
    | true => exact keyFree_step (.writeRecord identity) fun _ => trivial
    | false => exact key_ret fun _ _ => trivial
  · intro _
    apply key_post (Spec.attempt (key_stepBody (.workDone identity)))
    exact fun _ _ _ => trivial

theorem keyFree_dropIfRecordless {id : OperationId} :
    KeyFree registry p (dropIfRecordless (stepProgram registry) id) := by
  apply key_bind (keyFree_step (.recordless id) fun _ => trivial)
  intro found
  split
  · exact key_ret fun _ h => h
  · apply key_bind (keyFree_step (.forget _) fun _ => trivial)
    exact fun _ => key_ret fun _ h => h

theorem keyFree_follow {id : OperationId} : KeyFree registry p (follow (stepProgram registry) id) := by
  apply key_bind (keyFree_step (.entry id) fun _ => trivial)
  intro found
  split
  · exact key_ret fun _ h => h
  · exact key_bind keyFree_inspect' fun _ => key_ret fun _ h => h

theorem keyFree_admitOperation {identity : PrepareIdentity} :
    KeyFree registry p (admitOperation registry (stepProgram registry) identity wanted) := by
  apply key_bind (keyFree_step .reconcile fun _ => trivial)
  intro _
  apply key_bind (Spec.pre (key_step (.resolve identity wanted)) fun _ _ _ => trivial)
  intro admitted s hs h
  rcases h with ⟨hstate, hid, hhash⟩
  suffices hrest : KeyFree registry p _ from hrest s hs trivial
  apply key_bind (key_claimUnderLock hstate)
  intro _
  rw [hid, hhash]
  apply key_bind key_prepareBody
  intro outcome
  apply key_bind keyFree_dropIfRecordless
  intro dropped
  cases outcome with
  | error e => exact key_fail
  | ok u =>
    dsimp only
    split
    · exact key_ret fun _ h => h
    · exact keyFree_follow

/-! ## The prepare lookup as a call -/

/-- Every record there was at `start` is there. -/
def RecordsSince (start : IndexFiles Doc) (s : IndexShared Doc π) : Prop :=
  ∀ path, (start.record path).isSome → (s.files.record path).isSome

variable {base : List (IndexEvent π)}

omit [DecidableEq π] in
theorem kept_since {start : IndexFiles Doc} :
    Kept registry p fun s => LogSince p base s ∧ RecordsSince start s := by
  refine ⟨?_, fun _ _ h => h⟩
  rintro s t hst ⟨hlog, hrecords⟩
  exact ⟨stable_logSince s t hst hlog, fun path h => hst.2.2.records path (hrecords path h)⟩

omit [DecidableEq π] in
theorem knowsRecord_of_recorded {start : IndexFiles Doc} {id : OperationId} (h : Recorded registry start id) :
    KnowsRecord registry (fun s : IndexShared Doc π => LogSince p base s ∧ RecordsSince start s) id := by
  rcases h with ⟨owner, howner, name, hname, hid⟩
  rcases mem_recordNames.mp hname with ⟨hrecord, hdirectory, hprofile⟩
  exact ⟨owner, howner, name, hid, fun s hs => hs.2 name hrecord, hdirectory, hprofile⟩

theorem key_answered {identity : PrepareIdentity} {found : Bool}
    {E : ApnError → IndexShared Doc π → Prop} (hP : KeyStable registry p P)
    (hok : ∀ s, P s → Admissible s.log (.answered p identity.operationId found)) :
    KeySpec registry p P (Prog.perform (IndexOp.answered identity found)) (fun _ _ => True) E := by
  apply Spec.op (M := fun _ _ => True) hP
  · rintro s answer t hs hPs rfl
    refine ⟨⟨keyInv_note hs (by simp) (by simp) (hok s hPs), fun q _ => ?_⟩, trivial⟩
    exact keyRely_note (by simp) q (by simp)
  · exact fun _ => Spec.ret fun _ _ h => h

omit [DecidableEq π] in
theorem stable_forgotten {id : OperationId} :
    KeyStable registry p (Forgotten p base id) := by
  apply keyStable_of_rely
  rintro s t hrely ⟨mid, hlog, hmid, hforgot⟩
  rcases hrely.log with ⟨new, hnew, hasked, _⟩
  refine ⟨new ++ mid, by rw [hnew, hlog, List.append_assoc], ?_, List.mem_append_right _ hforgot⟩
  intro i hi
  exact (List.mem_append.mp hi).elim (hasked i) (hmid i)

-- From the moment a process asks, with what has happened and what is recorded by then.
theorem key_resolveFrom {identity : PrepareIdentity} {asked : IndexShared Doc π}
    (hasked : KeyInv registry asked) :
    KeySpec registry p
      (fun s => LogSince p (.asked p identity.operationId :: asked.log) s ∧ RecordsSince asked.files s)
      ((resolvePrepare registry identity).bind fun found =>
        Prog.perform (IndexOp.answered identity found.isSome)) (fun _ _ => True) fun _ _ => True := by
  apply key_bind (Spec.conseq (key_resolvePrepare kept_since fun _ h => h.1)
    (fun _ _ h => h) (fun _ _ _ h => h) fun _ _ _ _ => trivial)
  intro found
  cases found with
  | some e =>
    apply Spec.pre _ fun _ _ h => h.1
    exact key_answered kept_since.stable fun _ _ => trivial
  | none =>
    by_cases hwrote : .wrote identity.operationId ∈ asked.log
    · -- Its record was there to be seen, so it has been forgotten since.
      have hknows : KnowsRecord registry (fun s => LogSince p (.asked p identity.operationId ::
          asked.log) s ∧ RecordsSince asked.files s) identity.operationId :=
        knowsRecord_of_recorded (hasked.written _ hwrote)
      apply Spec.pre _ fun _ _ h => h.2 rfl hknows
      apply key_answered stable_forgotten
      rintro s ⟨mid, hlog, hmid, hforgot⟩
      exact ⟨mid, asked.log, hlog, hmid, fun _ => hforgot⟩
    · apply Spec.pre _ fun _ _ h => h.1.1
      apply key_answered stable_logSince
      rintro s ⟨mid, hlog, hmid⟩
      exact ⟨mid, asked.log, hlog, hmid, fun h => absurd h hwrote⟩

theorem keyFree_resolveCall {identity : PrepareIdentity} :
    KeyFree registry p (resolveCall registry identity) := by
  apply Spec.op (o := IndexOp.asked identity) (M := fun _ t => ∃ asked : IndexShared Doc π,
    KeyInv registry asked ∧ LogSince p (.asked p identity.operationId :: asked.log) t ∧
      RecordsSince asked.files t) kept_true.stable
  · rintro s answer t hs _ rfl
    refine ⟨⟨keyInv_note hs (by simp) (by simp) trivial, fun q hq => ?_⟩, s, hs,
      ⟨[], rfl, by simp⟩, fun _ h => h⟩
    apply keyRely_note (by simp) q
    intro i heq
    cases heq
    exact hq rfl
  · rintro _ s hs ⟨asked, hasked, hlog, hrecords⟩
    exact key_resolveFrom hasked s hs ⟨hlog, hrecords⟩

theorem keyFree_indexCall {prog : IndexProg Doc Unit} (h : IndexCall registry prog) :
    KeyFree registry p prog := by
  cases h with
  | admission identity wanted => exact keyFree_admitOperation
  | resolve identity => exact keyFree_resolveCall

end Specs

/-! ## Every run -/

section Runs

variable {Doc π : Type} [DecidableEq π] {registry : OperationRegistry Doc}

theorem keys_keep_crash {p : π} {s t : IndexShared Doc π} (hs : KeyInv registry s)
    (h : t = { s with lock := dropped p s.lock }) : (keyDiscipline registry π).Keeps p s t := by
  rw [h]
  exact ⟨keyInv_lock hs, fun q hq => keyRely_lock fun hheld => dropped_ne hq hheld⟩

omit [DecidableEq π] in
theorem keyInv_fresh : KeyInv registry (IndexShared.fresh : IndexShared Doc π) := by
  refine ⟨?_, ?_, ?_, ?_, trivial⟩
  · exact fun hash ids h => by cases h
  · exact fun hash ids h => by cases h
  · exact fun id hash h => h.elim
  · exact fun id h => by cases h

theorem keyInv_run {labels : List (Label IndexOp (IndexOp.Answer Doc) ApnError π)}
    {c : Config IndexOp (IndexOp.Answer Doc) ApnError (IndexShared Doc π) π}
    (hrun : Runs.Run (Step (keySystem registry π) fun _ => IndexCall registry)
      (idle IndexShared.fresh) labels c) : KeyInv registry c.shared := by
  apply Discipline.invariant_of_wp (D := keyDiscipline registry π) _ _ _ keyInv_fresh hrun
  · exact fun p prog h => keyFree_indexCall h
  · exact fun p s t hs h => keys_keep_crash hs h
  · rintro s t hs ⟨file, _, rfl⟩
    exact ⟨keyInv_putRecord hs, fun q => keyRely_putRecord q⟩

/-- The admission `second` was made after `first` had been admitted and forgotten. -/
def AdmittedAfterForgetting (hash : StateHash) (first second : OperationId)
    (log : List (IndexEvent π)) : Prop :=
  ∃ later mid earlier, log = later ++ .admitted second (some hash) ::
      (mid ++ .admitted first (some hash) :: earlier) ∧ .forgot first ∈ mid

omit [DecidableEq π] in
theorem forgotten_between {log : List (IndexEvent π)} {id₁ id₂ : OperationId} {hash : StateHash}
    (hok : LogOk log) (h₁ : .admitted id₁ (some hash) ∈ log) (h₂ : .admitted id₂ (some hash) ∈ log)
    (hne : id₁ ≠ id₂) :
    AdmittedAfterForgetting hash id₁ id₂ log ∨ AdmittedAfterForgetting hash id₂ id₁ log := by
  -- The later of the two found the earlier one no longer standing.
  have hlater : ∀ (first second : OperationId) (later earlier : List (IndexEvent π)),
      log = later ++ .admitted second (some hash) :: earlier → first ≠ second →
      .admitted first (some hash) ∈ earlier → AdmittedAfterForgetting hash first second log := by
    intro first second later earlier hlog hdiff hmem
    rw [hlog] at hok
    have hnot : ¬ Standing first hash earlier := hok.split first hdiff
    rcases forgot_of_not_standing hmem hnot with ⟨mid, before, hearlier, hforgot⟩
    exact ⟨later, mid, before, by rw [hlog, hearlier], hforgot⟩
  rcases List.append_of_mem h₁ with ⟨later, earlier, hlog⟩
  have hmem := h₂
  rw [hlog] at hmem
  rcases List.mem_append.mp hmem with hin | hin
  · rcases List.append_of_mem hin with ⟨later', between, hsplit⟩
    left
    apply hlater id₁ id₂ later' (between ++ .admitted id₁ (some hash) :: earlier)
    · rw [hlog, hsplit, List.append_assoc, List.cons_append]
    · exact hne
    · exact List.mem_append_right _ List.mem_cons_self
  · right
    apply hlater id₂ id₁ later earlier hlog (Ne.symm hne)
    rcases List.mem_cons.mp hin with heq | hin
    · cases heq
      exact absurd rfl hne
    · exact hin

omit [DecidableEq π] in
theorem admitted_of_worked {log : List (IndexEvent π)} {id : OperationId} {hash : Option StateHash}
    (hok : LogOk log) (h : .worked id hash ∈ log) : .admitted id hash ∈ log := by
  rcases List.append_of_mem h with ⟨later, earlier, hlog⟩
  rw [hlog] at hok ⊢
  have hadmitted : .admitted id hash ∈ earlier := hok.split
  exact List.mem_append_right _ (List.mem_cons_of_mem _ hadmitted)

/-- **One operation per idempotency key**: of two operations whose bodies ran under one key, one was admitted
only after the admission of the other had been forgotten; and a lookup by the identity of an operation that had
its record when the lookup began finds it, unless the operation was forgotten while the lookup ran. -/
theorem one_operation_per_key {labels : List (Label IndexOp (IndexOp.Answer Doc) ApnError π)}
    {c : Config IndexOp (IndexOp.Answer Doc) ApnError (IndexShared Doc π) π}
    (hrun : Runs.Run (Step (keySystem registry π) fun _ => IndexCall registry)
      (idle IndexShared.fresh) labels c) :
    (∀ id₁ id₂ hash, .worked id₁ (some hash) ∈ c.shared.log →
      .worked id₂ (some hash) ∈ c.shared.log → id₁ ≠ id₂ →
      AdmittedAfterForgetting hash id₁ id₂ c.shared.log ∨
        AdmittedAfterForgetting hash id₂ id₁ c.shared.log) ∧
    (∀ p id later earlier, c.shared.log = later ++ .answered p id false :: earlier →
      ∃ mid before, earlier = mid ++ .asked p id :: before ∧ (∀ i, .asked p i ∉ mid) ∧
        (.wrote id ∈ before → .forgot id ∈ mid)) := by
  have hok := (keyInv_run hrun).ok
  refine ⟨?_, ?_⟩
  · intro id₁ id₂ hash h₁ h₂ hne
    exact forgotten_between hok (admitted_of_worked hok h₁) (admitted_of_worked hok h₂) hne
  · intro p id later earlier hlog
    rw [hlog] at hok
    exact hok.split

end Runs

/-! ## Admissions that are forgotten -/

namespace ForgottenRun

def adapter : OperationFamilyAdapter Unit where
  family := "f"
  stores := [⟨"d", false⟩]
  valid := fun _ => true
  identity := fun _ => ⟨"p", "1", some "h", none⟩
  claims := fun _ => some []
  holdsProfile := fun _ => true
  terminal := fun _ => some false
  state := fun _ => "open"
  admits := fun _ _ _ => false
  salvage := fun _ => ⟨[], none, none⟩
  unknownClaims := []

def registry : OperationRegistry Unit := ⟨[adapter], fun _ => true⟩

def wanted : WantedClaims := ⟨some "f", none, [], [], [], none, none⟩

def admitting (id : OperationId) (hash : Option StateHash) : IndexProg Unit Unit :=
  admitOperation registry (stepProgram registry) ⟨"f", "p", id, hash, none⟩ wanted

def looking : IndexProg Unit Unit := resolveCall registry ⟨"f", "p", "1", some "h", none⟩

/-- Bodies write their record or throw without one; the lease has expired for the processes from 2 on. -/
def answer (writes : Bool) (p : ℕ) (s : IndexShared Unit ℕ) :
    (o : IndexOp) → o.Answer Unit × IndexShared Unit ℕ
  | .file o => ((o.exec s.files).1, s.after o)
  | .lock =>
    if s.lock = none then (Except.ok (), { s with lock := some p }) else (Except.error stateBusy, s)
  | .unlock => ((), { s with lock := dropped p s.lock })
  | .now => (if p < 2 then (0 : ℤ) else admissionLeaseMs, s)
  | .random _ => ((0 : ℕ), s)
  | .work identity => (writes, s.note (.worked identity.operationId identity.idempotencyHash))
  | .writeRecord identity =>
    match recordPathFor registry identity with
    | .ok path => ((), (s.putRecord ⟨path, ()⟩).note (.wrote identity.operationId))
    | .error _ => ((), s)
  | .workDone _ => (Except.error stateBusy, s)
  | .asked identity => ((), s.note (.asked p identity.operationId))
  | .answered identity found => ((), s.note (.answered p identity.operationId found))

theorem answer_allowed (writes : Bool) (p : ℕ) (s : IndexShared Unit ℕ) (o : IndexOp) :
    (keySystem registry ℕ).exec p s o (answer writes p s o).1 (answer writes p s o).2 := by
  cases o with
  | file o => exact ⟨rfl, rfl⟩
  | lock =>
    by_cases hfree : s.lock = none
    · simp only [answer, if_pos hfree]
      exact ⟨hfree, rfl⟩
    · simp only [answer, if_neg hfree]
      rfl
  | writeRecord identity =>
    cases hpath : recordPathFor registry identity with
    | ok path =>
      simp only [answer, keySystem, indexExec, hpath]
      exact ⟨(), trivial⟩
    | error e => simp only [answer, keySystem, indexExec, hpath]
  | unlock => rfl
  | now => rfl
  | random n => rfl
  | work identity => rfl
  | workDone identity => rfl
  | asked identity => rfl
  | answered identity found => rfl

abbrev Turns := List (Turn IndexOp (IndexOp.Answer Unit) ApnError ℕ)

abbrev Reached := Config IndexOp (IndexOp.Answer Unit) ApnError (IndexShared Unit ℕ) ℕ

def reached (writes : Bool) (turns : Turns) : Reached :=
  turns.foldl (takeTurn (answer writes)) (idle IndexShared.fresh)

/-- One body throws without a record, and is forgotten; then another runs under its key. -/
def recordless : Turns :=
  [.begins 0 (admitting "1" (some "h")), .goesOn 0 100,
    .begins 1 (admitting "2" (some "h")), .goesOn 1 100]

/-- The same admission is made twice and forgotten twice, the second time while it is being looked up; its
record was written after both forgetters had found none. -/
def forgottenTwice : Turns :=
  [.begins 0 (admitting "1" (some "h")), .goesOn 0 20,
    .begins 1 (admitting "1" (some "h")), .goesOn 1 11,
    .begins 2 (admitting "2" none), .goesOn 2 13,
    .begins 3 (admitting "3" none), .goesOn 3 13,
    .goesOn 0 1, .goesOn 2 7,
    .begins 4 looking, .goesOn 4 3,
    .goesOn 1 7, .goesOn 4 2, .goesOn 3 7, .goesOn 4 10]

theorem run_reached (writes : Bool) (turns : Turns) (h : turns = recordless ∨ turns = forgottenTwice) :
    ∃ labels, Runs.Run (Step (keySystem registry ℕ) fun _ => IndexCall registry)
      (idle IndexShared.fresh) labels (reached writes turns) := by
  apply run_turns (answer_allowed writes)
  intro p prog hmem
  have hcall : (∃ id hash, prog = admitting id hash) ∨ prog = looking := by
    rcases h with rfl | rfl
    · simp only [recordless, List.mem_cons, Turn.begins.injEq, List.not_mem_nil, reduceCtorEq,
        or_false, false_or] at hmem
      rcases hmem with ⟨_, rfl⟩ | ⟨_, rfl⟩ <;> exact Or.inl ⟨_, _, rfl⟩
    · simp only [forgottenTwice, List.mem_cons, Turn.begins.injEq, List.not_mem_nil, reduceCtorEq,
        or_false, false_or] at hmem
      rcases hmem with ⟨_, rfl⟩ | ⟨_, rfl⟩ | ⟨_, rfl⟩ | ⟨_, rfl⟩ | ⟨_, rfl⟩
      · exact Or.inl ⟨_, _, rfl⟩
      · exact Or.inl ⟨_, _, rfl⟩
      · exact Or.inl ⟨_, _, rfl⟩
      · exact Or.inl ⟨_, _, rfl⟩
      · exact Or.inr rfl
  rcases hcall with ⟨id, hash, rfl⟩ | rfl
  · exact IndexCall.admission _ _
  · exact IndexCall.resolve _

theorem log_recordless : (reached false recordless).shared.log =
    [.forgot "2", .worked "2" (some "h"), .admitted "2" (some "h"),
      .forgot "1", .worked "1" (some "h"), .admitted "1" (some "h")] := by
  decide +kernel

theorem log_forgottenTwice : (reached true forgottenTwice).shared.log =
    [.answered 4 "1" false, .forgot "1", .admitted "1" (some "h"), .asked 4 "1",
      .forgot "1", .wrote "1", .worked "1" (some "h"), .admitted "1" (some "h")] := by
  decide +kernel

/-- Two bodies under one key, and a lookup that misses an operation with a record. -/
theorem two_bodies_and_missed_lookup :
    (∃ labels c, Runs.Run (Step (keySystem registry ℕ) fun _ => IndexCall registry)
        (idle IndexShared.fresh) labels c ∧
      .worked "1" (some "h") ∈ c.shared.log ∧ .worked "2" (some "h") ∈ c.shared.log) ∧
    (∃ labels c, Runs.Run (Step (keySystem registry ℕ) fun _ => IndexCall registry)
        (idle IndexShared.fresh) labels c ∧
      ∃ mid before, c.shared.log = .answered 4 "1" false :: (mid ++ .asked 4 "1" :: before) ∧
        .wrote "1" ∈ before) := by
  rcases run_reached false recordless (Or.inl rfl) with ⟨labels, hrun⟩
  rcases run_reached true forgottenTwice (Or.inr rfl) with ⟨labels', hrun'⟩
  refine ⟨⟨labels, _, hrun, ?_, ?_⟩, labels', _, hrun', ?_⟩
  · rw [log_recordless]
    decide
  · rw [log_recordless]
    decide
  · rw [log_forgottenTwice]
    exact ⟨[.forgot "1", .admitted "1" (some "h")],
      [.forgot "1", .wrote "1", .worked "1" (some "h"), .admitted "1" (some "h")], rfl, by decide⟩

theorem one_operation_per_key_of_recordless :
    AdmittedAfterForgetting "h" "1" "2" (reached false recordless).shared.log ∨
      AdmittedAfterForgetting "h" "2" "1" (reached false recordless).shared.log := by
  rcases run_reached false recordless (Or.inl rfl) with ⟨labels, hrun⟩
  have hkeys := (one_operation_per_key hrun).1
  apply hkeys "1" "2" "h"
  · rw [log_recordless]
    decide
  · rw [log_recordless]
    decide
  · decide

end ForgottenRun
end PaymentNode
