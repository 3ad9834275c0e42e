import PaymentNode.Rpc.Kept

/-!
# Calls — one call of `schedule`, beside all the others

The specification of each part of a call, from what the call knows there: that its run is going and its task has
not started, what its scheduler remembers of the family, and, with a coordinator, that it holds the family's lock
and what was recorded when it took it.  All of this holds only while its scheduler's process lives.
-/

namespace PaymentNode.RpcScheduler

open Discipline

variable {Reply : Type}

structure Inv (setups : ℕ → Setup) (s : World Reply) : Prop where
  tracked : ∀ i, Tracked (setups i).coordinator i (s.schedulers i) s.log
  paced : Paced setups s.log
  /-- Whatever happens is of a call that was made. -/
  named : ∀ event ∈ s.log, event.ticket.number < (s.schedulers event.ticket.scheduler).next

/-- What the steps of the others leave of what a call knows. -/
structure Rely (p : Ticket) (s t : World Reply) : Prop where
  clock : s.clock ≤ t.clock
  live : Live p t → Live p s
  log : ∀ event ∈ s.log, event ∈ t.log
  own : ∀ event ∈ t.log, event.ticket = p → event ∈ s.log
  calls : p.number < (t.schedulers p.scheduler).next → p.number < (s.schedulers p.scheduler).next
  waits : ∀ e ∈ (s.schedulers p.scheduler).queue ++ (s.schedulers p.scheduler).runs, e.number = p.number →
    e ∈ (t.schedulers p.scheduler).queue ++ (t.schedulers p.scheduler).runs
  runs : ∀ e ∈ (s.schedulers p.scheduler).runs, e.number = p.number → e ∈ (t.schedulers p.scheduler).runs ∧
    ((t.schedulers p.scheduler).families e.family).lastStart =
      ((s.schedulers p.scheduler).families e.family).lastStart
  locks : Live p t → ∀ family, s.locks family = some p → t.locks family = some p ∧
    recordedStart family t.log = recordedStart family s.log ∧
      recordedCooldown family t.log = recordedCooldown family s.log ∧
        cooldownOfOthers p family t.log = cooldownOfOthers p family s.log

def discipline (setups : ℕ → Setup) : Discipline (World Reply) Ticket := ⟨Inv setups, Rely⟩

variable {setups : ℕ → Setup} {s t u : World Reply} {event : Event Reply} {p q : Ticket}

/-! ## What the others see of a step -/

theorem Rely.refl (q : Ticket) (s : World Reply) : Rely q s s :=
  ⟨Int.le_refl _, id, fun _ h => h, fun _ h _ => h, id, fun _ h _ => h, fun _ h _ => ⟨h, rfl⟩,
    fun _ _ h => ⟨h, rfl, rfl, rfl⟩⟩

theorem Rely.trans (h : Rely q s t) (h' : Rely q t u) : Rely q s u where
  clock := h.clock.trans h'.clock
  live := fun hu => h.live (h'.live hu)
  log := fun event he => h'.log event (h.log event he)
  own := fun event he hticket => h.own event (h'.own event he hticket) hticket
  calls := fun hu => h.calls (h'.calls hu)
  waits := fun e he hnumber => h'.waits e (h.waits e he hnumber) hnumber
  runs := by
    intro e he hnumber
    rcases h.runs e he hnumber with ⟨hmid, hlast⟩
    rcases h'.runs e hmid hnumber with ⟨hend, hlast'⟩
    exact ⟨hend, hlast'.trans hlast⟩
  locks := by
    intro hu family hheld
    rcases h.locks (h'.live hu) family hheld with ⟨hmid, hstart, hcooldown, hothers⟩
    rcases h'.locks hu family hmid with ⟨hend, hstart', hcooldown', hothers'⟩
    exact ⟨hend, hstart'.trans hstart, hcooldown'.trans hcooldown, hothers'.trans hothers⟩

-- An event of another call, which writes to no family that `q` has locked.
theorem Rely.note (hticket : event.ticket ≠ q)
    (hwrites : ∀ family, s.locks family = some q → event.startOf family = none ∧ event.cooldownOf family = none) :
    Rely q s (s.note event) where
  clock := Int.le_refl _
  live := id
  log := fun _ h => List.mem_cons_of_mem _ h
  own := by
    intro e he he'
    refine (List.mem_cons.mp he).resolve_left ?_
    rintro rfl
    exact hticket he'
  calls := id
  waits := fun _ h _ => h
  runs := fun _ h _ => ⟨h, rfl⟩
  locks := by
    intro _ family hheld
    rcases hwrites family hheld with ⟨hstart, hcooldown⟩
    refine ⟨hheld, findSome_note hstart, findSome_note hcooldown, findSome_note ?_⟩
    rw [hcooldown]
    split <;> rfl

-- The memory of the scheduler `i` changes.
theorem Rely.set {i : ℕ} {m : Memory} (hdead : m.dead = true ∨ m.dead = (s.schedulers i).dead)
    (hcalls : q.scheduler = i → q.number < m.next → q.number < (s.schedulers i).next)
    (hwaits : q.scheduler = i → ∀ e ∈ (s.schedulers i).queue ++ (s.schedulers i).runs, e.number = q.number →
      e ∈ m.queue ++ m.runs)
    (hruns : q.scheduler = i → ∀ e ∈ (s.schedulers i).runs, e.number = q.number → e ∈ m.runs ∧
      (m.families e.family).lastStart = ((s.schedulers i).families e.family).lastStart) :
    Rely q s (s.set i m) := by
  have hsame : q.scheduler ≠ i → (s.set i m).schedulers q.scheduler = s.schedulers q.scheduler :=
    fun hne => Function.update_of_ne hne _ _
  have hset : q.scheduler = i → (s.set i m).schedulers q.scheduler = m := by
    intro heq
    rw [heq]
    exact Function.update_self _ _ _
  refine ⟨Int.le_refl _, ?_, fun _ h => h, fun _ h _ => h, ?_, ?_, ?_, fun _ _ h => ⟨h, rfl, rfl, rfl⟩⟩
  · intro hlive
    by_cases hq : q.scheduler = i
    · unfold Live at hlive ⊢
      rw [hset hq] at hlive
      rw [hq]
      rcases hdead with hdead | hdead
      · rw [hdead] at hlive
        cases hlive
      · rw [← hdead]
        exact hlive
    · unfold Live at hlive ⊢
      rwa [hsame hq] at hlive
  · intro hnumber
    by_cases hq : q.scheduler = i
    · rw [hset hq] at hnumber
      rw [hq]
      exact hcalls hq hnumber
    · rwa [hsame hq] at hnumber
  · intro e he hnumber
    by_cases hq : q.scheduler = i
    · rw [hset hq]
      rw [hq] at he
      exact hwaits hq e he hnumber
    · rw [hsame hq]
      exact he
  · intro e he hnumber
    by_cases hq : q.scheduler = i
    · rw [hset hq]
      rw [hq] at he ⊢
      exact hruns hq e he hnumber
    · rw [hsame hq]
      exact ⟨he, rfl⟩

theorem Rely.lock {family : String} {holder : Option Ticket}
    (hheld : Live q s → s.locks family = some q → holder = some q) : Rely q s (s.lock family holder) := by
  refine ⟨Int.le_refl _, id, fun _ h => h, fun _ h _ => h, id, fun _ h _ => h, fun _ h _ => ⟨h, rfl⟩, ?_⟩
  intro hlive other hother
  refine ⟨?_, rfl, rfl, rfl⟩
  show Function.update s.locks family holder other = some q
  by_cases heq : other = family
  · rw [heq, Function.update_self]
    rw [heq] at hother
    exact hheld hlive hother
  · rw [Function.update_of_ne heq]
    exact hother

/-! ## What the environment does -/

theorem set_schedulers (s : World Reply) (i j : ℕ) (m : Memory) :
    (s.set i m).schedulers j = if j = i then m else s.schedulers j := Function.update_apply _ _ _ _

-- One scheduler's memory changes, and nothing is said.
theorem inv_set (h : Inv setups s) {i : ℕ} {m : Memory} (htracked : Tracked (setups i).coordinator i m s.log)
    (hnext : (s.schedulers i).next ≤ m.next) : Inv setups (s.set i m) := by
  refine ⟨?_, h.paced, ?_⟩
  · intro j
    rw [set_schedulers]
    split
    · rename_i hj
      rw [hj]
      exact htracked
    · exact h.tracked j
  · intro event hevent
    have hnamed := h.named event hevent
    rw [set_schedulers]
    split
    · rename_i hj
      rw [hj] at hnamed
      exact Nat.lt_of_lt_of_le hnamed hnext
    · exact hnamed

-- One scheduler's memory changes, with an event of one of its calls.
theorem inv_set_note (h : Inv setups s) {m : Memory} (hticket : event.ticket = p)
    (htracked : Tracked (setups p.scheduler).coordinator p.scheduler m (event :: s.log))
    (hnext : (s.schedulers p.scheduler).next ≤ m.next) (hnamed : p.number < m.next)
    (hstart : ∀ i, event.startIn i = none) : Inv setups ((s.set p.scheduler m).note event) := by
  refine ⟨?_, paced_note h.paced ?_, ?_⟩
  · intro j
    show Tracked _ j ((s.set p.scheduler m).schedulers j) (event :: s.log)
    rw [set_schedulers]
    split
    · rename_i hj
      rw [hj]
      exact htracked
    · rename_i hj
      refine (h.tracked j).note_other ?_
      rw [hticket]
      exact Ne.symm hj
  · rintro i entry instant rfl
    have hnone := hstart i
    simp [Event.startIn] at hnone
  · intro e he
    show e.ticket.number < ((s.set p.scheduler m).schedulers e.ticket.scheduler).next
    rw [set_schedulers]
    rcases List.mem_cons.mp he with rfl | he
    · rw [hticket, if_pos rfl]
      exact hnamed
    · have hold := h.named e he
      split
      · rename_i hj
        rw [hj] at hold
        exact Nat.lt_of_lt_of_le hold hnext
      · exact hold

theorem passes_kept (h : Inv setups s) (hpass : Passes s t) : Inv setups t ∧ ∀ p, Rely p s t := by
  cases hpass with
  | tick now hle =>
    refine ⟨⟨h.tracked, h.paced, h.named⟩, ?_⟩
    exact fun p => ⟨hle, id, fun _ h => h, fun _ h _ => h, id, fun _ h _ => h, fun _ h _ => ⟨h, rfl⟩,
      fun _ _ h => ⟨h, rfl, rfl, rfl⟩⟩
  | dies i =>
    refine ⟨inv_set h (h.tracked i).dies (Nat.le_refl _), ?_⟩
    intro p
    exact Rely.set (Or.inl rfl) (fun _ hnumber => hnumber) (fun _ e he _ => he) fun _ e he _ => ⟨he, rfl⟩
  | frees family holder hheld hdead =>
    refine ⟨⟨h.tracked, h.paced, h.named⟩, ?_⟩
    intro p
    apply Rely.lock
    intro hlive hp
    rw [hheld] at hp
    cases hp
    exact absurd hlive hdead

/-! ## What one call knows -/

/-- While the scheduler's process lives. -/
def Knows (p : Ticket) (X : World Reply → Prop) (s : World Reply) : Prop := Live p s → X s

/-- The run is going and its task has not started; what its scheduler remembers of the family, and what the
coordinator handed over, is what it was. -/
structure Ready (coordinator : Bool) (p : Ticket) (entry : ScheduledRpcRead)
    (last persisted persistedCooldown : Option ℤ) (s : World Reply) : Prop where
  run : entry ∈ (s.schedulers p.scheduler).runs
  unstarted : ∀ event ∈ s.log, event.ticket = p → ∃ family window, event = .savedCooldown p family window
  memory : ((s.schedulers p.scheduler).families entry.family).lastStart = last
  lock : coordinator = true → s.locks entry.family = some p ∧ recordedStart entry.family s.log = persisted ∧
    cooldownOfOthers p entry.family s.log = persistedCooldown

/-- The task was called, behind its window. -/
structure Sent (coordinator : Bool) (p : Ticket) (entry : ScheduledRpcRead) (last : Option ℤ)
    (s : World Reply) : Prop where
  run : entry ∈ (s.schedulers p.scheduler).runs
  memory : ((s.schedulers p.scheduler).families entry.family).lastStart = last
  lock : coordinator = true → s.locks entry.family = some p
  window : coordinator = true → ∃ window, .savedCooldown p entry.family window ∈ s.log

/-- The task is over, and its completion is remembered. -/
structure Noted (coordinator : Bool) (p : Ticket) (entry : ScheduledRpcRead) (answer : Except Failure Reply)
    (completed : ℤ) (s : World Reply) : Prop where
  run : entry ∈ (s.schedulers p.scheduler).runs
  lock : coordinator = true → s.locks entry.family = some p
  ended : .ended p answer ∈ s.log
  remembered : .remembered p entry.family completed ∈ s.log

/-- The run is going, and no task of it. -/
structure Over (p : Ticket) (entry : ScheduledRpcRead) (s : World Reply) : Prop where
  run : entry ∈ (s.schedulers p.scheduler).runs
  idle : entry ∉ tasks p.scheduler s.log

/-- The task answered so, and its completion is recorded. -/
structure Answered (coordinator : Bool) (p : Ticket) (entry : ScheduledRpcRead) (reply : Reply)
    (s : World Reply) : Prop where
  finished : Over p entry s
  ended : .ended p (.ok reply) ∈ s.log
  recorded : ∃ family completed, .remembered p family completed ∈ s.log ∧
    (coordinator = true → .savedStart p family completed ∈ s.log)

variable {coordinator : Bool} {entry : ScheduledRpcRead} {last persisted persistedCooldown : Option ℤ}

theorem over_of_ended (hnumber : entry.number = p.number) (hrun : entry ∈ (s.schedulers p.scheduler).runs)
    {answer : Except Failure Reply} (hended : .ended p answer ∈ s.log) : Over p entry s := by
  refine ⟨hrun, ?_⟩
  intro hgoing
  have hnot := (List.mem_filter.mp hgoing).2
  rw [decide_eq_true_eq, mem_ends, hnumber] at hnot
  exact hnot ⟨answer, hended⟩

theorem Ready.over (h : Ready coordinator p entry last persisted persistedCooldown s)
    (hnumber : entry.number = p.number) : Over p entry s := by
  refine ⟨h.run, ?_⟩
  intro hgoing
  rcases mem_startsOf.mp (List.mem_filter.mp hgoing).1 with ⟨instant, hmem⟩
  have hticket : (Event.started p.scheduler entry instant : Event Reply).ticket = p := by
    show (⟨p.scheduler, entry.number⟩ : Ticket) = p
    rw [hnumber]
  rcases h.unstarted _ hmem hticket with ⟨family, window, heq⟩
  cases heq

theorem stable_knows {X : World Reply → Prop} (h : ∀ s t, Rely p s t → Live p t → X s → X t) :
    (discipline setups).Stable p (Knows p X) :=
  fun s t hst hX hlive => h s t hst.2.2 hlive (hX (hst.2.2.live hlive))

theorem stable_ready (hnumber : entry.number = p.number) :
    (discipline setups).Stable p (Knows p (Ready coordinator p entry last persisted persistedCooldown :
      World Reply → Prop)) := by
  apply stable_knows
  intro s t hrely hlive h
  rcases hrely.runs entry h.run hnumber with ⟨hrun, hlast⟩
  refine ⟨hrun, fun event he hticket => h.unstarted event (hrely.own event he hticket) hticket,
    hlast.trans h.memory, ?_⟩
  intro hcoordinator
  rcases h.lock hcoordinator with ⟨hheld, hstart, hcooldown⟩
  rcases hrely.locks hlive entry.family hheld with ⟨hheld', hstart', -, hcooldown'⟩
  exact ⟨hheld', hstart'.trans hstart, hcooldown'.trans hcooldown⟩

theorem stable_sent (hnumber : entry.number = p.number) :
    (discipline setups).Stable p (Knows p (Sent coordinator p entry last : World Reply → Prop)) := by
  apply stable_knows
  intro s t hrely hlive h
  rcases hrely.runs entry h.run hnumber with ⟨hrun, hlast⟩
  refine ⟨hrun, hlast.trans h.memory, fun hc => (hrely.locks hlive _ (h.lock hc)).1, ?_⟩
  intro hcoordinator
  rcases h.window hcoordinator with ⟨window, hwindow⟩
  exact ⟨window, hrely.log _ hwindow⟩

theorem stable_noted (hnumber : entry.number = p.number) {answer : Except Failure Reply} {completed : ℤ} :
    (discipline setups).Stable p (Knows p (Noted coordinator p entry answer completed)) := by
  apply stable_knows
  intro s t hrely hlive h
  exact ⟨(hrely.runs entry h.run hnumber).1, fun hc => (hrely.locks hlive _ (h.lock hc)).1,
    hrely.log _ h.ended, hrely.log _ h.remembered⟩

theorem Over.kept (hnumber : entry.number = p.number) (hrely : Rely p s t) (h : Over p entry s) :
    Over p entry t := by
  refine ⟨(hrely.runs entry h.run hnumber).1, ?_⟩
  intro hgoing
  apply h.idle
  rcases List.mem_filter.mp hgoing with ⟨hstarted, hends⟩
  rcases mem_startsOf.mp hstarted with ⟨instant, hmem⟩
  have hticket : (Event.started p.scheduler entry instant : Event Reply).ticket = p := by
    show (⟨p.scheduler, entry.number⟩ : Ticket) = p
    rw [hnumber]
  refine List.mem_filter.mpr ⟨mem_startsOf.mpr ⟨instant, hrely.own _ hmem hticket⟩, ?_⟩
  rw [decide_eq_true_eq, mem_ends] at hends ⊢
  rintro ⟨answer, hended⟩
  exact hends ⟨answer, hrely.log _ hended⟩

theorem stable_over (hnumber : entry.number = p.number) :
    (discipline setups).Stable p (Knows p (Over p entry : World Reply → Prop)) :=
  stable_knows fun _ _ hrely _ h => h.kept hnumber hrely

theorem stable_answered (hnumber : entry.number = p.number) {reply : Reply} :
    (discipline setups).Stable p (Knows p (Answered coordinator p entry reply)) := by
  apply stable_knows
  intro s t hrely _ h
  rcases h.recorded with ⟨family, completed, hremembered, hsaved⟩
  exact ⟨h.finished.kept hnumber hrely, hrely.log _ h.ended, family, completed, hrely.log _ hremembered,
    fun hc => hrely.log _ (hsaved hc)⟩

/-! ## The operations -/

section Specs

variable {α : Type} {P X : World Reply → Prop}

abbrev RpcSpec (setups : ℕ → Setup) (p : Ticket) (P : World Reply → Prop) (x : RpcProg Reply α)
    (Q : α → World Reply → Prop) (E : Failure → World Reply → Prop) : Prop :=
  (discipline setups).Spec system p P x Q E

variable {o : RpcOp Reply}

theorem spec_perform {Q : o.Answer → World Reply → Prop} {E : Failure → World Reply → Prop}
    (hstable : (discipline setups).Stable p P) (hop : ∀ s a t, Inv setups s → P s → Live p s → effect p s o a t →
      Inv setups t ∧ (∀ q, q ≠ p → Rely q s t) ∧ Q a t) :
    RpcSpec setups p P (Prog.perform o) Q E := by
  apply Spec.op (M := Q) hstable
  · intro s a t hs hP hexec
    rcases hop s a t hs hP hexec.1 hexec.2 with ⟨hinv, hrely, hQ⟩
    exact ⟨⟨hinv, hrely⟩, hQ⟩
  · exact fun a => Spec.ret fun s _ hQ => hQ

theorem spec_call {h : o.Answer = Except Failure α} {Q : α → World Reply → Prop}
    {E : Failure → World Reply → Prop} (hstable : (discipline setups).Stable p P)
    (hop : ∀ s a t, Inv setups s → P s → Live p s → effect p s o a t →
      Inv setups t ∧ (∀ q, q ≠ p → Rely q s t) ∧ (∀ v, (h ▸ a : Except Failure α) = .ok v → Q v t) ∧
        ∀ e, (h ▸ a : Except Failure α) = .error e → E e t) :
    RpcSpec setups p P (call o h) Q E := by
  apply Spec.bind (M := fun a t => (∀ v, (h ▸ a : Except Failure α) = .ok v → Q v t) ∧
    ∀ e, (h ▸ a : Except Failure α) = .error e → E e t)
  · exact spec_perform hstable hop
  · intro a
    cases hanswer : (h ▸ a : Except Failure α) with
    | ok v => exact Spec.ret fun s _ hQ => hQ.1 v rfl
    | error e => exact Spec.fail fun s _ hE => hE.2 e rfl

-- An answer that changes nothing.
theorem spec_quiet {h : o.Answer = Except Failure α} (hstable : (discipline setups).Stable p P)
    (hquiet : ∀ s a t, effect p s o a t → t = s) : RpcSpec setups p P (call o h) (fun _ => P) fun _ => P := by
  apply spec_call hstable
  intro s a t hs hP _ heffect
  cases hquiet s a t heffect
  exact ⟨hs, fun q _ => Rely.refl q s, fun _ _ => hP, fun _ _ => hP⟩

theorem spec_clock (hstable : (discipline setups).Stable p P) :
    RpcSpec setups p P clock (fun now s => now ≤ s.clock ∧ P s) fun _ => P := by
  apply spec_call hstable
  intro s a t hs hP _ heffect
  rcases heffect with ⟨rfl, hnow⟩
  refine ⟨hs, fun q _ => Rely.refl q t, ?_, fun _ _ => hP⟩
  intro v hv
  exact ⟨Int.le_of_eq (hnow v hv), hP⟩

theorem named_note (h : Inv setups s)
    (hnamed : event.ticket.number < (s.schedulers event.ticket.scheduler).next) :
    ∀ e ∈ event :: s.log, e.ticket.number < (s.schedulers e.ticket.scheduler).next := by
  intro e he
  rcases List.mem_cons.mp he with rfl | he
  · exact hnamed
  · exact h.named e he

-- A call whose run is going was made.
theorem named_of_run (h : Inv setups s) (hnumber : entry.number = p.number)
    (hrun : entry ∈ (s.schedulers p.scheduler).runs) : p.number < (s.schedulers p.scheduler).next := by
  rw [← hnumber]
  exact (h.tracked p.scheduler).seated.early entry (List.mem_append_right _ hrun)

-- A write to a family's record says nothing of any call.
theorem inv_note (h : Inv setups s) (hnamed : event.ticket.number < (s.schedulers event.ticket.scheduler).next)
    (hstart : ∀ i, event.startIn i = none) (hsettle : ∀ i, event.settleIn i = none)
    (hremember : ∀ q family completed, event ≠ .remembered q family completed) :
    Inv setups (s.note event) := by
  refine ⟨fun i => (h.tracked i).note (hstart i) (hsettle i) fun q family completed _ => hremember q family completed,
    paced_note h.paced ?_, named_note h hnamed⟩
  rintro i entry instant rfl
  have hnone := hstart i
  simp [Event.startIn] at hnone

variable {family : String}

-- A write by the holder of the family's lock, made or not where it fails.
theorem spec_write {h : o.Answer = Except Failure Unit} (hstable : (discipline setups).Stable p (Knows p X))
    (heffect : ∀ s a t, effect p s o a t → Written (h ▸ a) s t event) (hticket : event.ticket = p)
    (hother : ∀ other, other ≠ family → event.startOf other = none ∧ event.cooldownOf other = none)
    (hinv : ∀ s, Inv setups s → X s → Inv setups (s.note event))
    (hheld : ∀ s, X s → s.locks family = some p) (hnote : ∀ s, X s → X (s.note event)) :
    RpcSpec setups p (Knows p X) (call o h) (fun _ => Knows p fun s => X s ∧ ∃ older, s.log = event :: older)
      fun _ => Knows p X := by
  apply spec_call hstable
  intro s a t hs hX hlive heff
  have hXs := hX hlive
  have hrely : ∀ q, q ≠ p → Rely q s (s.note event) := by
    intro q hq
    apply Rely.note
    · rw [hticket]
      exact Ne.symm hq
    · intro other hlock
      apply hother
      rintro rfl
      rw [hheld s hXs] at hlock
      exact hq (Option.some.inj hlock).symm
  rcases heffect s a t heff with rfl | ⟨⟨failure, hfailure⟩, rfl⟩
  · refine ⟨hinv s hs hXs, hrely, ?_, ?_⟩
    · exact fun _ _ _ => ⟨hnote s hXs, s.log, rfl⟩
    · exact fun _ _ _ => hnote s hXs
  · refine ⟨hs, fun q _ => Rely.refl q t, ?_, fun _ _ => hX⟩
    intro v hv
    rw [hfailure] at hv
    cases hv

-- Without a coordinator nothing is written.
theorem spec_saveStart {setup : Setup} {value : ℤ}
    (hstable : (discipline setups).Stable p (Knows p X)) (hnumber : entry.number = p.number)
    (hrun : ∀ s, X s → entry ∈ (s.schedulers p.scheduler).runs)
    (hheld : ∀ s, X s → setup.coordinator = true → s.locks family = some p)
    (hnote : ∀ s, X s → X (s.note (.savedStart p family value))) :
    RpcSpec setups p (Knows p X) (saveStart setup family value)
      (fun _ => Knows p fun s => X s ∧
        (setup.coordinator = true → ∃ older, s.log = .savedStart p family value :: older))
      fun _ => Knows p X := by
  unfold saveStart
  split
  · rename_i hcoordinator
    refine Spec.conseq (spec_write hstable (fun s a t h => h) rfl ?_ ?_
      (fun s hX => hheld s hX hcoordinator) hnote) (fun s _ h => h) ?_ fun e s _ h => h
    · intro other hne
      exact ⟨if_neg (Ne.symm hne), rfl⟩
    · intro s hs hX
      exact inv_note hs (named_of_run hs hnumber (hrun s hX)) (fun i => rfl) (fun i => rfl) (by rintro _ _ _ ⟨⟩)
    · exact fun _ s _ h hlive => ⟨(h hlive).1, fun _ => (h hlive).2⟩
  · rename_i hnone
    exact Spec.ret fun s _ h hlive => ⟨h hlive, fun hc => absurd hc hnone⟩

theorem spec_saveCooldownUntil {setup : Setup} {value : ℤ}
    (hstable : (discipline setups).Stable p (Knows p X)) (hnumber : entry.number = p.number)
    (hrun : ∀ s, X s → entry ∈ (s.schedulers p.scheduler).runs)
    (hheld : ∀ s, X s → setup.coordinator = true → s.locks family = some p)
    (hnote : ∀ s, X s → X (s.note (.savedCooldown p family value))) :
    RpcSpec setups p (Knows p X) (saveCooldownUntil setup family value)
      (fun _ => Knows p fun s => X s ∧
        (setup.coordinator = true → ∃ older, s.log = .savedCooldown p family value :: older))
      fun _ => Knows p X := by
  unfold saveCooldownUntil
  split
  · rename_i hcoordinator
    refine Spec.conseq (spec_write hstable (fun s a t h => h) rfl ?_ ?_
      (fun s hX => hheld s hX hcoordinator) hnote) (fun s _ h => h) ?_ fun e s _ h => h
    · intro other hne
      exact ⟨rfl, if_neg (Ne.symm hne)⟩
    · intro s hs hX
      exact inv_note hs (named_of_run hs hnumber (hrun s hX)) (fun i => rfl) (fun i => rfl) (by rintro _ _ _ ⟨⟩)
    · exact fun _ s _ h hlive => ⟨(h hlive).1, fun _ => (h hlive).2⟩
  · rename_i hnone
    exact Spec.ret fun s _ h hlive => ⟨h hlive, fun hc => absurd hc hnone⟩

/-! ## The way to the start -/

variable {setup : Setup}

theorem ahead_latest {a b : Option ℤ} {now : ℤ} (h : ahead (latest a b) now = false) :
    ahead a now = false ∧ ahead b now = false := by
  cases a <;> cases b <;> simp_all [latest, ahead]

theorem le_of_not_ahead {a : Option ℤ} {now v : ℤ} (h : ahead a now = false) (ha : a = some v) : v ≤ now := by
  rw [ha] at h
  simpa [ahead] using h

/-- The run goes on, or ends, with no task of it. -/
abbrev Stops (p : Ticket) (entry : ScheduledRpcRead) : Failure → World Reply → Prop :=
  fun _ => Knows p (Over p entry)

theorem spec_enter {lastStart cooldownUntil : Option ℤ} (hstable : (discipline setups).Stable p (Knows p X))
    (hover : ∀ s, X s → Over p entry s) :
    RpcSpec setups p (Knows p X) (enter setup entry lastStart cooldownUntil)
      (fun before s => ahead lastStart before = false ∧ before ≤ s.clock ∧ Knows p X s) (Stops p entry) := by
  refine Spec.bind (Spec.conseq (spec_clock hstable) (fun s _ h => h)
    (fun v s _ h => h) fun e s _ h hlive => hover s (h hlive)) ?_
  intro before
  split
  · exact Spec.fail fun s _ h hlive => hover s (h.2 hlive)
  · rename_i hbehind
    split
    · exact Spec.fail fun s _ h hlive => hover s (h.2 hlive)
    · exact Spec.ret fun s _ h => ⟨by simpa using hbehind, h⟩

theorem spec_pause {delay : ℤ} (hstable : (discipline setups).Stable p P) :
    RpcSpec setups p P (pause delay) (fun _ => P) fun _ => P := by
  refine Spec.bind (spec_quiet hstable fun _ _ _ h => h) ?_
  intro _
  split
  · exact spec_quiet hstable fun _ _ _ h => h
  · exact Spec.ret fun s _ h => h

theorem spec_reachBoundary {exact' : Bool} {nextAllowed : Option ℤ} {before : ℤ}
    (hstable : (discipline setups).Stable p (Knows p X)) (hover : ∀ s, X s → Over p entry s) :
    RpcSpec setups p (Knows p X) (reachBoundary entry exact' nextAllowed before)
      (fun current s => (before ≤ current ∧ (exact' = true → ahead nextAllowed current = false)) ∧
        current ≤ s.clock ∧ Knows p X s) (Stops p entry) := by
  have hstops : ∀ s, Knows p X s → Knows p (Over p entry) s := fun s h hlive => hover s (h hlive)
  refine Spec.bind (Spec.conseq (spec_clock hstable) (fun s _ h => h)
    (fun v s _ h => h) fun e s _ h => hstops s h) ?_
  intro current
  split
  · exact Spec.fail fun s _ h => hstops s h.2
  · rename_i hnow
    split
    · -- The timer woke early: the rest is waited for, and the clock is read once more.
      refine Spec.bind (Spec.conseq (spec_quiet hstable fun _ _ _ h => h)
        (fun s _ h => h.2) (fun v s _ h => h) fun e s _ h => hstops s h) ?_
      intro _
      refine Spec.bind (Spec.conseq (spec_quiet hstable fun _ _ _ h => h)
        (fun s _ h => h) (fun v s _ h => h) fun e s _ h => hstops s h) ?_
      intro _
      refine Spec.bind (Spec.conseq (spec_clock hstable) (fun s _ h => h)
        (fun v s _ h => h) fun e s _ h => hstops s h) ?_
      intro rechecked
      split
      · exact Spec.fail fun s _ h => hstops s h.2
      · rename_i hreached
        rw [not_or, Bool.not_eq_true] at hreached
        exact Spec.ret fun s _ h => ⟨⟨by omega, fun _ => hreached.2⟩, h⟩
    · rename_i hreached
      refine Spec.ret fun s _ h => ⟨⟨by omega, ?_⟩, h⟩
      intro hexact
      simpa [hexact] using hreached

theorem spec_passGate {current : ℤ} (hstable : (discipline setups).Stable p (Knows p X))
    (hover : ∀ s, X s → Over p entry s) :
    RpcSpec setups p (fun s => current ≤ s.clock ∧ Knows p X s) (passGate entry current)
      (fun gated s => current ≤ gated ∧ gated ≤ s.clock ∧ Knows p X s) (Stops p entry) := by
  have hstops : ∀ s, Knows p X s → Knows p (Over p entry) s := fun s h hlive => hover s (h hlive)
  unfold passGate
  split
  · refine Spec.bind (Spec.conseq (spec_quiet hstable fun _ _ _ h => h)
      (fun s _ h => h.2) (fun v s _ h => h) fun e s _ h => hstops s h) ?_
    intro _
    refine Spec.bind (Spec.conseq (spec_clock hstable) (fun s _ h => h)
      (fun v s _ h => h) fun e s _ h => hstops s h) ?_
    intro gated
    split
    · exact Spec.fail fun s _ h => hstops s h.2
    · rename_i hlater
      exact Spec.ret fun s _ h => ⟨by omega, h⟩
  · exact Spec.ret fun s _ h => ⟨Int.le_refl _, h⟩

/-! ## The task, and what is recorded of it -/

/-- Everything that could forbid a start lies behind `current`. -/
structure Reached (family : String) (last persisted persistedCooldown : Option ℤ) (current : ℤ) : Prop where
  completion : ∀ completed, persisted = some completed → completed + familyGap family ≤ current
  cooldown : ∀ cooldownUntil, persistedCooldown = some cooldownUntil → cooldownUntil ≤ current
  remembered : persisted.isSome = true ∨ persistedCooldown.isSome = true →
    ∀ completed, last = some completed → completed + familyGap family ≤ current

theorem reached_of_boundary {cooldownUntil : Option ℤ} {current : ℤ}
    (h : (persisted.isSome || persistedCooldown.isSome) = true →
      ahead (latest ((latest last persisted).map (· + familyGap family)) (latest cooldownUntil persistedCooldown))
        current = false) : Reached family last persisted persistedCooldown current := by
  rw [Bool.or_eq_true] at h
  have hparts : persisted.isSome = true ∨ persistedCooldown.isSome = true →
      ahead ((latest last persisted).map (· + familyGap family)) current = false ∧
        ahead persistedCooldown current = false := by
    intro hexact
    rcases ahead_latest (h hexact) with ⟨hstart, hcooldown⟩
    exact ⟨hstart, (ahead_latest hcooldown).2⟩
  refine ⟨?_, ?_, ?_⟩
  · rintro completed rfl
    have hstart := (hparts (Or.inl rfl)).1
    cases last with
    | none => simpa [latest, ahead] using hstart
    | some v =>
      have hmax : max v completed + familyGap family ≤ current := by simpa [latest, ahead] using hstart
      have := Int.le_max_right v completed
      omega
  · rintro u rfl
    exact le_of_not_ahead (hparts (Or.inr rfl)).2 rfl
  · rintro hexact completed rfl
    have hstart := (hparts hexact).1
    cases persisted with
    | none => simpa [latest, ahead] using hstart
    | some v =>
      have hmax : max completed v + familyGap family ≤ current := by simpa [latest, ahead] using hstart
      have := Int.le_max_left completed v
      omega

end Specs
end PaymentNode.RpcScheduler
