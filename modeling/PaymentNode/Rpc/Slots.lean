import PaymentNode.Rpc.Scheduler

/-!
# Slots — what `pump` keeps

At most two runs are going, no two of one family, and a run of a family is older than every entry of it that
still waits.  `pump` moves entries from the queue to the runs, keeps all of that, and stops only where both slots
are taken or every waiting entry's family is active.
-/

namespace PaymentNode.RpcScheduler.Memory

structure Seated (m : Memory) : Prop where
  count : m.active = m.runs.length
  atMostTwo : m.active ≤ 2
  families : (m.runs.map (·.family)).Nodup
  active : ∀ family, (m.families family).active = true ↔ family ∈ m.runs.map (·.family)
  sorted : m.queue.Pairwise fun e q => e.number < q.number
  early : ∀ e ∈ m.queue ++ m.runs, e.number < m.next
  turn : ∀ e ∈ m.runs, ∀ q ∈ m.queue, q.family = e.family → e.number < q.number

/-- No entry waits for nothing. -/
def Full (m : Memory) : Prop := m.active < 2 → ∀ q ∈ m.queue, (m.families q.family).active = true

/-- Entries are handed over, and nothing else changes. -/
structure Onward (m m' : Memory) : Prop where
  perm : (m'.queue ++ m'.runs).Perm (m.queue ++ m.runs)
  runs : ∀ e ∈ m.runs, e ∈ m'.runs
  handed : ∀ e ∈ m'.runs, e ∈ m.runs ∨ e ∈ m.queue
  queue : ∀ q ∈ m'.queue, q ∈ m.queue
  lastStart : ∀ family, (m'.families family).lastStart = (m.families family).lastStart
  next : m'.next = m.next
  dead : m'.dead = m.dead

variable {m m' m'' : Memory}

theorem Onward.refl (m : Memory) : Onward m m :=
  ⟨List.Perm.refl _, fun _ h => h, fun _ h => Or.inl h, fun _ h => h, fun _ => rfl, rfl, rfl⟩

theorem Onward.trans (h : Onward m m') (h' : Onward m' m'') : Onward m m'' where
  perm := h'.perm.trans h.perm
  runs := fun e he => h'.runs e (h.runs e he)
  handed := by
    intro e he
    rcases h'.handed e he with hrun | hqueue
    · exact h.handed e hrun
    · exact Or.inr (h.queue e hqueue)
  queue := fun q hq => h.queue q (h'.queue q hq)
  lastStart := fun family => (h'.lastStart family).trans (h.lastStart family)
  next := h'.next.trans h.next
  dead := h'.dead.trans h.dead

-- A run of an idle family there is none.
theorem Seated.idle_iff (h : Seated m) {q : ScheduledRpcRead} :
    m.idle q = true ↔ q.family ∉ m.runs.map (·.family) := by
  unfold idle
  rw [← h.active q.family]
  simp

-- The entry that one turn of the loop hands over.
theorem takeNext_spec (h : Seated m) (hfree : m.active < 2) (htake : m.takeNext = some m') :
    Seated m' ∧ Onward m m' ∧ m'.active = m.active + 1 := by
  unfold takeNext at htake
  rcases Option.map_eq_some_iff.mp htake with ⟨entry, hfind, rfl⟩
  rcases List.find?_eq_some_iff_append.mp hfind with ⟨hidle, front, back, hqueue, hfront⟩
  have hbusy : ∀ q ∈ front, m.idle q = false := by
    intro q hq
    simpa using hfront q hq
  have hrest : m.queue.eraseP m.idle = front ++ back := by
    rw [hqueue, List.eraseP_append_right _ fun q hq => by simp [hbusy q hq], List.eraseP_cons_of_pos hidle]
  have hfresh : entry.family ∉ m.runs.map (·.family) := h.idle_iff.mp hidle
  have hsub : ∀ q ∈ front ++ back, q ∈ m.queue := by
    intro q hq
    rw [hqueue]
    rcases List.mem_append.mp hq with hq | hq
    · exact List.mem_append_left _ hq
    · exact List.mem_append_right _ (List.mem_cons_of_mem _ hq)
  have hentry : entry ∈ m.queue := by
    rw [hqueue]
    simp
  have hperm : (front ++ back ++ entry :: m.runs).Perm (m.queue ++ m.runs) := by
    rw [hqueue]
    refine List.Perm.trans ?_ (List.Perm.append_right m.runs (List.perm_middle.symm))
    exact List.perm_middle
  have hsorted := h.sorted
  rw [hqueue] at hsorted
  rcases List.pairwise_append.mp hsorted with ⟨hfrontSorted, hbackSorted, hacross⟩
  rcases List.pairwise_cons.mp hbackSorted with ⟨hafter, hbackSorted⟩
  refine ⟨⟨?_, ?_, ?_, ?_, ?_, ?_, ?_⟩, ⟨?_, ?_, ?_, ?_, ?_, rfl, rfl⟩, rfl⟩
  · show m.active + 1 = (entry :: m.runs).length
    rw [h.count, List.length_cons]
  · show m.active + 1 ≤ 2
    omega
  · show ((entry :: m.runs).map (·.family)).Nodup
    rw [List.map_cons, List.nodup_cons]
    exact ⟨hfresh, h.families⟩
  · intro family
    show (Function.update m.families entry.family { m.families entry.family with active := true } family).active =
      true ↔ family ∈ (entry :: m.runs).map (·.family)
    rw [List.map_cons, List.mem_cons]
    by_cases hfamily : family = entry.family
    · simp [hfamily]
    · rw [Function.update_of_ne hfamily, h.active family]
      simp [hfamily]
  · show (m.queue.eraseP m.idle).Pairwise _
    rw [hrest]
    exact List.pairwise_append.mpr
      ⟨hfrontSorted, hbackSorted, fun a ha b hb => hacross a ha b (List.mem_cons_of_mem _ hb)⟩
  · show ∀ e ∈ m.queue.eraseP m.idle ++ entry :: m.runs, e.number < m.next
    rw [hrest]
    exact fun e he => h.early e (hperm.subset he)
  · show ∀ e ∈ entry :: m.runs, ∀ q ∈ m.queue.eraseP m.idle, q.family = e.family → e.number < q.number
    rw [hrest]
    intro e he q hq hsame
    rcases List.mem_cons.mp he with rfl | he
    · -- An older entry of an idle family would have been taken instead.
      rcases List.mem_append.mp hq with hq | hq
      · have hq' := hbusy q hq
        have hidleq : m.idle q = true := by
          rw [h.idle_iff, hsame]
          exact hfresh
        rw [hidleq] at hq'
        cases hq'
      · exact hafter q hq
    · exact h.turn e he q (hsub q hq) hsame
  · show (m.queue.eraseP m.idle ++ entry :: m.runs).Perm (m.queue ++ m.runs)
    rw [hrest]
    exact hperm
  · exact fun e he => List.mem_cons_of_mem _ he
  · intro e he
    rcases List.mem_cons.mp he with rfl | he
    · exact Or.inr hentry
    · exact Or.inl he
  · show ∀ q ∈ m.queue.eraseP m.idle, q ∈ m.queue
    rw [hrest]
    exact hsub
  · intro family
    show (Function.update m.families entry.family { m.families entry.family with active := true } family).lastStart =
      (m.families family).lastStart
    by_cases hfamily : family = entry.family
    · rw [hfamily, Function.update_self]
    · rw [Function.update_of_ne hfamily]

theorem takeNext_none (htake : m.takeNext = none) : Full m := by
  intro _ q hq
  unfold takeNext at htake
  rw [Option.map_eq_none_iff, List.find?_eq_none] at htake
  simpa [idle] using htake q hq

theorem pumpTimes_spec (slots : ℕ) (h : Seated m) (hslots : slots = 2 - m.active) :
    Seated (pumpTimes slots m) ∧ Onward m (pumpTimes slots m) ∧ Full (pumpTimes slots m) := by
  induction slots generalizing m with
  | zero =>
    refine ⟨h, Onward.refl m, ?_⟩
    intro hfree
    have : m.active < 2 := hfree
    omega
  | succ slots ih =>
    unfold pumpTimes
    cases htake : m.takeNext with
    | none => exact ⟨h, Onward.refl m, takeNext_none htake⟩
    | some m' =>
      rcases takeNext_spec h (by omega) htake with ⟨hseated, honward, hactive⟩
      rcases ih hseated (by omega) with ⟨hdone, hmore, hfull⟩
      exact ⟨hdone, honward.trans hmore, hfull⟩

theorem pump_spec (h : Seated m) : Seated m.pump ∧ Onward m m.pump ∧ Full m.pump :=
  pumpTimes_spec _ h rfl

/-! ## The three transitions of a scheduler -/

theorem schedule_spec (h : Seated m) (family : String) (gated : Bool) :
    Seated (m.schedule family gated) ∧ Full (m.schedule family gated) ∧
      Onward { m with queue := m.queue ++ [⟨m.next, family, gated⟩], next := m.next + 1 }
        (m.schedule family gated) := by
  have hpushed : Seated { m with queue := m.queue ++ [⟨m.next, family, gated⟩], next := m.next + 1 } := by
    refine ⟨h.count, h.atMostTwo, h.families, h.active, ?_, ?_, ?_⟩
    · refine List.pairwise_append.mpr ⟨h.sorted, List.pairwise_singleton _ _, ?_⟩
      intro e he q hq
      rw [List.mem_singleton.mp hq]
      exact h.early e (List.mem_append_left _ he)
    · intro e he
      show e.number < m.next + 1
      rcases List.mem_append.mp he with he | he
      · rcases List.mem_append.mp he with he | he
        · have := h.early e (List.mem_append_left _ he)
          omega
        · rw [List.mem_singleton.mp he]
          show m.next < m.next + 1
          omega
      · have := h.early e (List.mem_append_right _ he)
        omega
    · intro e he q hq hsame
      rcases List.mem_append.mp hq with hq | hq
      · exact h.turn e he q hq hsame
      · rw [List.mem_singleton.mp hq]
        exact h.early e (List.mem_append_right _ he)
  rcases pump_spec hpushed with ⟨hseated, honward, hfull⟩
  exact ⟨hseated, hfull, honward⟩

theorem finish_spec (h : Seated m) {entry : ScheduledRpcRead} (hentry : entry ∈ m.runs) :
    Seated (m.finish entry) ∧ Full (m.finish entry) ∧
      Onward { m.setFamily entry.family { m.families entry.family with active := false } with
        active := m.active - 1, runs := m.runs.erase entry } (m.finish entry) := by
  have hperm := List.perm_cons_erase hentry
  have hfamilies : entry.family ∉ (m.runs.erase entry).map (·.family) ∧
      ((m.runs.erase entry).map (·.family)).Nodup := by
    have hnodup := (hperm.map (·.family)).nodup_iff.mp h.families
    rwa [List.map_cons, List.nodup_cons] at hnodup
  have hsub : ∀ e ∈ m.runs.erase entry, e ∈ m.runs := fun e he => List.mem_of_mem_erase he
  have hover : Seated { m.setFamily entry.family { m.families entry.family with active := false } with
      active := m.active - 1, runs := m.runs.erase entry } := by
    refine ⟨?_, ?_, hfamilies.2, ?_, h.sorted, ?_, ?_⟩
    · show m.active - 1 = (m.runs.erase entry).length
      rw [List.length_erase_of_mem hentry, h.count]
    · show m.active - 1 ≤ 2
      have := h.atMostTwo
      omega
    · intro family
      show (Function.update m.families entry.family { m.families entry.family with active := false } family).active =
        true ↔ family ∈ (m.runs.erase entry).map (·.family)
      by_cases hfamily : family = entry.family
      · rw [hfamily, Function.update_self]
        simpa using hfamilies.1
      · rw [Function.update_of_ne hfamily, h.active family, (hperm.map (·.family)).mem_iff, List.map_cons,
          List.mem_cons]
        simp [hfamily]
    · intro e he
      apply h.early e
      rcases List.mem_append.mp he with he | he
      · exact List.mem_append_left _ he
      · exact List.mem_append_right _ (hsub e he)
    · exact fun e he q hq hsame => h.turn e (hsub e he) q hq hsame
  rcases pump_spec hover with ⟨hseated, honward, hfull⟩
  exact ⟨hseated, hfull, honward⟩

-- `remember` and `cool` leave the slots alone.
theorem Seated.setFamily (h : Seated m) {family : String} {state : FamilyState}
    (hactive : state.active = (m.families family).active) : Seated (m.setFamily family state) := by
  refine ⟨h.count, h.atMostTwo, h.families, ?_, h.sorted, h.early, h.turn⟩
  intro other
  show (Function.update m.families family state other).active = true ↔ _
  by_cases hother : other = family
  · rw [hother, Function.update_self, hactive]
    exact h.active family
  · rw [Function.update_of_ne hother]
    exact h.active other

theorem Full.setFamily (h : Full m) {family : String} {state : FamilyState}
    (hactive : state.active = (m.families family).active) : Full (m.setFamily family state) := by
  intro hfree q hq
  show (Function.update m.families family state q.family).active = true
  by_cases hother : q.family = family
  · rw [hother, Function.update_self, hactive, ← hother]
    exact h hfree q hq
  · rw [Function.update_of_ne hother]
    exact h hfree q hq

theorem seated_fresh : Seated ({} : Memory) := by
  refine ⟨rfl, by decide, List.nodup_nil, ?_, List.Pairwise.nil, ?_, ?_⟩
  · intro family
    simp
  · intro e he
    cases he
  · intro e he
    cases he

end PaymentNode.RpcScheduler.Memory
