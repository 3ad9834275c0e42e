import PaymentNode.Rpc.Calls

/-!
# Runs — the task of a call, and the call as a whole

From the reserved window to the settled promise: a task starts only where everything recorded of its family lies
behind it, its completion is remembered before it is saved, and the promise is fulfilled only after both.
-/

namespace PaymentNode.RpcScheduler

open Discipline

variable {Reply : Type} {setups : ℕ → Setup} {s t : World Reply} {p q : Ticket} {entry : ScheduledRpcRead}
  {last persisted persistedCooldown : Option ℤ} {coordinator : Bool}

/-! ## Knowledge through the call's own steps -/

theorem ticket_started (hnumber : entry.number = p.number) {instant : ℤ} :
    (Event.started p.scheduler entry instant : Event Reply).ticket = p := by
  show (⟨p.scheduler, entry.number⟩ : Ticket) = p
  rw [hnumber]

-- The call's own window is not what it waits for.
theorem Ready.window (h : Ready coordinator p entry last persisted persistedCooldown s) {window : ℤ} :
    Ready coordinator p entry last persisted persistedCooldown (s.note (.savedCooldown p entry.family window)) := by
  refine ⟨h.run, ?_, h.memory, ?_⟩
  · intro event he hticket
    rcases List.mem_cons.mp he with rfl | he
    · exact ⟨entry.family, window, rfl⟩
    · exact h.unstarted event he hticket
  · intro hcoordinator
    rcases h.lock hcoordinator with ⟨hheld, hstart, hcooldown⟩
    exact ⟨hheld, (findSome_note rfl).trans hstart, (findSome_note (if_pos rfl)).trans hcooldown⟩

/-- The call's window, and nothing recorded after it. -/
structure Window (p : Ticket) (entry : ScheduledRpcRead) (base : ℤ) (s : World Reply) : Prop where
  mem : .savedCooldown p entry.family (base + rpcCrashGuardMs) ∈ s.log
  recorded : recordedCooldown entry.family s.log = some (base + rpcCrashGuardMs)

theorem window_of_saved {base : ℤ} {older : List (Event Reply)}
    (h : s.log = .savedCooldown p entry.family (base + rpcCrashGuardMs) :: older) : Window p entry base s := by
  constructor
  · rw [h]
    exact List.mem_cons_self
  · unfold recordedCooldown
    rw [h, List.findSome?_cons]
    simp [Event.cooldownOf]

-- Nothing that was recorded or remembered forbids the start.
theorem startAllowed (hinv : Inv setups s) (hcoordinator : (setups p.scheduler).coordinator = true)
    (h : Ready (setups p.scheduler).coordinator p entry last persisted persistedCooldown s) {current : ℤ}
    (hreached : Reached entry.family last persisted persistedCooldown current) {base : ℤ} (hbase : base ≤ current)
    (hwindow : Window p entry base s) : StartAllowed p entry.family current s.log := by
  rcases h.lock hcoordinator with ⟨-, hstart, hcooldown⟩
  refine ⟨?_, ?_, ?_, base, hbase, hwindow.recorded⟩
  · intro completed hcompleted
    exact hreached.completion completed (hstart.symm.trans hcompleted)
  · intro cooldownUntil huntil
    exact hreached.cooldown cooldownUntil (hcooldown.symm.trans huntil)
  · intro q completed hq hmem
    have htracked := hinv.tracked p.scheduler
    rcases htracked.memory q _ completed hq hmem with ⟨remembered, hremembered, hle⟩
    rcases htracked.told.reserved q _ completed hq hmem hcoordinator with ⟨window, hwindow⟩
    -- Its call reserved a window first, so something was recorded when the lock was taken.
    have hne : q ≠ p := by
      rintro rfl
      rcases h.unstarted _ hmem rfl with ⟨family, window, heq⟩
      cases heq
    have hsome := recorded_isSome hwindow hne
    rw [hcooldown] at hsome
    have hbound := hreached.remembered (Or.inr hsome) remembered (h.memory.symm.trans hremembered)
    omega

/-! ## The task -/

theorem inv_start (hinv : Inv setups s) (hnumber : entry.number = p.number)
    (h : Ready (setups p.scheduler).coordinator p entry last persisted persistedCooldown s) {current base : ℤ}
    (hreached : Reached entry.family last persisted persistedCooldown current) (hbase : base ≤ current)
    (hwindow : (setups p.scheduler).coordinator = true → Window p entry base s) :
    Inv setups (s.note (.started p.scheduler entry current)) := by
  refine ⟨?_, ?_, ?_⟩
  · intro i
    by_cases hi : p.scheduler = i
    · rw [← hi]
      apply (hinv.tracked p.scheduler).start h.run
      intro e he hsame
      rcases mem_startsOf.mp he with ⟨instant, hmem⟩
      rcases h.unstarted _ hmem (ticket_started (hsame.trans hnumber)) with ⟨family, window, heq⟩
      cases heq
    · exact (hinv.tracked i).note_other hi
  · apply paced_note hinv.paced
    intro i e instant heq hcoordinator
    cases heq
    have hp : (⟨p.scheduler, entry.number⟩ : Ticket) = p := by rw [hnumber]
    rw [hp]
    exact startAllowed hinv hcoordinator h hreached hbase (hwindow hcoordinator)
  · apply named_note hinv
    rw [ticket_started hnumber]
    exact named_of_run hinv hnumber h.run

theorem spec_runTask (hnumber : entry.number = p.number) {current : ℤ}
    (hreached : Reached entry.family last persisted persistedCooldown current) :
    RpcSpec setups p
      (Knows p fun s : World Reply => (current ≤ s.clock ∧
        Ready (setups p.scheduler).coordinator p entry last persisted persistedCooldown s) ∧
          ((setups p.scheduler).coordinator = true → Window p entry current s))
      (runTask entry)
      (fun answer => Knows p fun s => Sent (setups p.scheduler).coordinator p entry last s ∧ .ended p answer ∈ s.log)
      (Stops p entry) := by
  apply Spec.bind (M := fun _ => Knows p (Sent (setups p.scheduler).coordinator p entry last))
  · apply spec_perform
    · intro s t hst h hlive
      rcases h (hst.2.2.live hlive) with ⟨⟨hnow, hready⟩, hreserved⟩
      refine ⟨⟨hnow.trans hst.2.2.clock, stable_ready hnumber s t hst (fun _ => hready) hlive⟩, ?_⟩
      intro hcoordinator
      have hkept := (hst.2.2.locks hlive entry.family (hready.lock hcoordinator).1).2.2.1
      exact ⟨hst.2.2.log _ (hreserved hcoordinator).mem, hkept.trans (hreserved hcoordinator).recorded⟩
    rintro s _ t hs h hlive rfl
    rcases h hlive with ⟨⟨hnow, hready⟩, hreserved⟩
    have hlater : Reached entry.family last persisted persistedCooldown s.clock :=
      ⟨fun c hc => (hreached.completion c hc).trans hnow, fun u hu => (hreached.cooldown u hu).trans hnow,
        fun hexact c hc => (hreached.remembered hexact c hc).trans hnow⟩
    refine ⟨inv_start hs hnumber hready hlater hnow hreserved, ?_, ?_⟩
    · intro q hq
      apply Rely.note
      · rw [ticket_started hnumber]
        exact Ne.symm hq
      · exact fun _ _ => ⟨rfl, rfl⟩
    · intro _
      exact ⟨hready.run, hready.memory, fun hc => (hready.lock hc).1,
        fun hc => ⟨_, List.mem_cons_of_mem _ (hreserved hc).mem⟩⟩
  · intro _
    apply spec_perform (stable_sent hnumber)
    rintro s answer t hs h hlive rfl
    have hsent := h hlive
    refine ⟨?_, ?_, ?_⟩
    · exact inv_note hs (named_of_run hs hnumber hsent.run) (fun _ => rfl) (fun _ => rfl) (by rintro _ _ _ ⟨⟩)
    · exact fun q hq => Rely.note (Ne.symm hq) fun _ _ => ⟨rfl, rfl⟩
    · intro _
      refine ⟨⟨hsent.run, hsent.memory, hsent.lock, ?_⟩, List.mem_cons_self⟩
      intro hcoordinator
      rcases hsent.window hcoordinator with ⟨window, hmem⟩
      exact ⟨window, List.mem_cons_of_mem _ hmem⟩

/-! ## What is recorded of it -/

theorem inv_remember (hinv : Inv setups s) (hnumber : entry.number = p.number)
    (h : Sent (setups p.scheduler).coordinator p entry last s) {completed : ℤ}
    (hlater : ∀ earlier, last = some earlier → earlier ≤ completed) :
    Inv setups ((s.set p.scheduler ((s.schedulers p.scheduler).remember entry.family completed)).note
      (.remembered p entry.family completed)) := by
  refine inv_set_note hinv rfl ?_ (Nat.le_refl _) (named_of_run hinv hnumber h.run) fun _ => rfl
  exact (hinv.tracked p.scheduler).remember
    (fun earlier hearlier => hlater earlier (h.memory.symm.trans hearlier)) h.window

-- The others' runs are of other families.
theorem rely_setFamily (hinv : Inv setups s) (hnumber : entry.number = p.number)
    (hrun : entry ∈ (s.schedulers p.scheduler).runs) (hq : q ≠ p) {state : FamilyState} :
    Rely q s (s.set p.scheduler ((s.schedulers p.scheduler).setFamily entry.family state)) := by
  refine Rely.set (Or.inr rfl) (fun _ h => h) (fun _ e he _ => he) ?_
  intro hsame e he hother
  refine ⟨he, ?_⟩
  have hne : e.family ≠ entry.family := by
    intro hfamily
    have heq := List.inj_on_of_nodup_map (hinv.tracked p.scheduler).seated.families he hrun hfamily
    apply hq
    cases p with
    | mk i n =>
      cases q with
      | mk j m =>
        rw [heq, hnumber] at hother
        simp only [Ticket.mk.injEq]
        exact ⟨hsame, hother.symm⟩
  show (Function.update (s.schedulers p.scheduler).families entry.family state e.family).lastStart = _
  rw [Function.update_of_ne hne]

theorem spec_remember (hnumber : entry.number = p.number) {answer : Except Failure Reply} {completed : ℤ}
    (hlater : ∀ earlier, last = some earlier → earlier ≤ completed) :
    RpcSpec setups p
      (Knows p fun s => Sent (setups p.scheduler).coordinator p entry last s ∧ .ended p answer ∈ s.log)
      (Prog.perform (RpcOp.remember entry.family completed))
      (fun _ => Knows p (Noted (setups p.scheduler).coordinator p entry answer completed)) (Stops p entry) := by
  apply spec_perform
  · intro s t hst h hlive
    exact ⟨stable_sent hnumber s t hst (fun hl => (h hl).1) hlive,
      hst.2.2.log _ (h (hst.2.2.live hlive)).2⟩
  · rintro s _ t hs h hlive rfl
    rcases h hlive with ⟨hsent, hended⟩
    refine ⟨inv_remember hs hnumber hsent hlater, ?_, ?_⟩
    · intro q hq
      exact (rely_setFamily hs hnumber hsent.run hq).trans (Rely.note (Ne.symm hq) fun _ _ => ⟨rfl, rfl⟩)
    · intro _
      refine ⟨?_, hsent.lock, List.mem_cons_of_mem _ hended, List.mem_cons_self⟩
      show entry ∈ (Function.update s.schedulers p.scheduler _ p.scheduler).runs
      rw [Function.update_self]
      exact hsent.run

theorem spec_cool (hnumber : entry.number = p.number) {X : World Reply → Prop} {value : ℤ}
    (hstable : (discipline setups).Stable p (Knows p X))
    (hrun : ∀ s, X s → entry ∈ (s.schedulers p.scheduler).runs)
    (hkeep : ∀ s, X s → X (s.set p.scheduler ((s.schedulers p.scheduler).cool entry.family value))) :
    RpcSpec setups p (Knows p X) (Prog.perform (RpcOp.cool entry.family value)) (fun _ => Knows p X)
      (Stops p entry) := by
  apply spec_perform hstable
  rintro s _ t hs h hlive rfl
  have hX := h hlive
  refine ⟨inv_set hs (hs.tracked p.scheduler).cool (Nat.le_refl _),
    fun q hq => rely_setFamily hs hnumber (hrun s hX) hq, fun _ => hkeep s hX⟩

theorem spec_recordCompletion (hnumber : entry.number = p.number) {answer : Except Failure Reply} {completed : ℤ}
    (hlater : ∀ earlier, last = some earlier → earlier ≤ completed) :
    RpcSpec setups p
      (Knows p fun s => Sent (setups p.scheduler).coordinator p entry last s ∧ .ended p answer ∈ s.log)
      (recordCompletion (setups p.scheduler) entry answer completed)
      (fun _ => Knows p fun s => Noted (setups p.scheduler).coordinator p entry answer completed s ∧
        ((setups p.scheduler).coordinator = true → .savedStart p entry.family completed ∈ s.log))
      (Stops p entry) := by
  have hover : ∀ s, Noted (setups p.scheduler).coordinator p entry answer completed s → Over p entry s :=
    fun s h => over_of_ended hnumber h.run h.ended
  have hnote : ∀ s event, Noted (setups p.scheduler).coordinator p entry answer completed s →
      Noted (setups p.scheduler).coordinator p entry answer completed (s.note event) :=
    fun s event h => ⟨h.run, h.lock, List.mem_cons_of_mem _ h.ended, List.mem_cons_of_mem _ h.remembered⟩
  have hsaved : (discipline setups).Stable p (Knows p fun s =>
      Noted (setups p.scheduler).coordinator p entry answer completed s ∧
        ((setups p.scheduler).coordinator = true → .savedStart p entry.family completed ∈ s.log)) := by
    intro s t hst h hlive
    exact ⟨stable_noted hnumber s t hst (fun hl => (h hl).1) hlive,
      fun hc => hst.2.2.log _ ((h (hst.2.2.live hlive)).2 hc)⟩
  have hmem : ∀ (_ : Unit) s, Inv setups s → Knows p (fun s =>
      Noted (setups p.scheduler).coordinator p entry answer completed s ∧ ((setups p.scheduler).coordinator = true →
        ∃ older, s.log = .savedStart p entry.family completed :: older)) s → Knows p (fun s =>
      Noted (setups p.scheduler).coordinator p entry answer completed s ∧ ((setups p.scheduler).coordinator = true →
        .savedStart p entry.family completed ∈ s.log)) s := by
    intro _ s _ h hlive
    refine ⟨(h hlive).1, fun hc => ?_⟩
    rcases (h hlive).2 hc with ⟨older, hlog⟩
    rw [hlog]
    exact List.mem_cons_self
  refine Spec.bind (spec_remember hnumber hlater) ?_
  intro _
  refine Spec.bind (Spec.conseq
    (spec_saveStart (stable_noted hnumber) hnumber (fun s h => h.run) (fun s h => h.lock) fun s h => hnote s _ h)
    (fun s _ h => h) hmem fun e s _ h hlive => hover s (h hlive)) ?_
  intro _
  refine Spec.bind (spec_cool hnumber hsaved (fun s h => h.1.run) ?_) ?_
  · intro s h
    refine ⟨⟨?_, h.1.lock, h.1.ended, h.1.remembered⟩, h.2⟩
    rw [set_schedulers, if_pos rfl]
    exact h.1.run
  · intro _
    refine Spec.conseq (spec_saveCooldownUntil hsaved hnumber (fun s h => h.1.run) (fun s h => h.1.lock) ?_)
      (fun s _ h => h) (fun _ s _ h hlive => (h hlive).1) fun e s _ h hlive => hover s (h hlive).1
    exact fun s h => ⟨hnote s _ h.1, fun hc => List.mem_cons_of_mem _ (h.2 hc)⟩

theorem spec_transport (hnumber : entry.number = p.number) {current : ℤ}
    (hreached : Reached entry.family last persisted persistedCooldown current)
    (hlast : ∀ earlier, last = some earlier → earlier ≤ current) :
    RpcSpec setups p
      (Knows p fun s : World Reply => current ≤ s.clock ∧
        Ready (setups p.scheduler).coordinator p entry last persisted persistedCooldown s)
      (transport (setups p.scheduler) entry current)
      (fun reply => Knows p (Answered (setups p.scheduler).coordinator p entry reply)) (Stops p entry) := by
  have hready : (discipline setups).Stable p (Knows p fun s : World Reply => current ≤ s.clock ∧
      Ready (setups p.scheduler).coordinator p entry last persisted persistedCooldown s) := by
    intro s t hst h hlive
    exact ⟨(h (hst.2.2.live hlive)).1.trans hst.2.2.clock,
      stable_ready hnumber s t hst (fun hl => (h hl).2) hlive⟩
  apply Spec.bind (M := fun _ => Knows p fun s : World Reply => (current ≤ s.clock ∧
    Ready (setups p.scheduler).coordinator p entry last persisted persistedCooldown s) ∧
      ((setups p.scheduler).coordinator = true → Window p entry current s))
  · refine Spec.conseq (spec_saveCooldownUntil hready hnumber (fun s h => h.2.run)
      (fun s h hc => (h.2.lock hc).1) fun s h => ⟨h.1, h.2.window⟩) (fun s _ h => h) ?_ ?_
    · intro _ s _ h hlive
      refine ⟨(h hlive).1, fun hc => ?_⟩
      rcases (h hlive).2 hc with ⟨older, hlog⟩
      exact window_of_saved hlog
    · exact fun e s _ h hlive => (h hlive).2.over hnumber
  intro _
  refine Spec.bind (spec_runTask hnumber hreached) ?_
  intro answer
  have hended : (discipline setups).Stable p (Knows p fun s =>
      Sent (setups p.scheduler).coordinator p entry last s ∧ .ended p answer ∈ s.log) := by
    intro s t hst h hlive
    exact ⟨stable_sent hnumber s t hst (fun hl => (h hl).1) hlive, hst.2.2.log _ (h (hst.2.2.live hlive)).2⟩
  have hover : ∀ s, Knows p (fun s => Sent (setups p.scheduler).coordinator p entry last s ∧
      .ended p answer ∈ s.log) s → Knows p (Over p entry) s :=
    fun s h hlive => over_of_ended hnumber (h hlive).1.run (h hlive).2
  refine Spec.bind (Spec.conseq (spec_clock hended) (fun s _ h => h)
    (fun v s _ h => h) fun e s _ h => hover s h) ?_
  intro completed
  split
  · exact Spec.fail fun s _ h => hover s h.2
  · rename_i hlater
    refine Spec.bind (Spec.pre (spec_recordCompletion hnumber ?_) fun s _ h => h.2) ?_
    · intro earlier hearlier
      have := hlast earlier hearlier
      omega
    · intro _
      have hrest : ∀ s, Noted (setups p.scheduler).coordinator p entry answer completed s → Over p entry s :=
        fun s h => over_of_ended hnumber h.run h.ended
      cases answer with
      | ok reply =>
        exact Spec.ret fun s _ h hlive => ⟨hrest s (h hlive).1, (h hlive).1.ended,
          entry.family, completed, (h hlive).1.remembered, (h hlive).2⟩
      | error failure => exact Spec.fail fun s _ h hlive => hrest s (h hlive).1

/-! ## The call -/

-- A turn of the family, from the coordinator's hand to the end of the task.
theorem spec_execute (hnumber : entry.number = p.number) :
    RpcSpec setups p
      (Knows p fun s : World Reply =>
        ∃ last, Ready (setups p.scheduler).coordinator p entry last persisted persistedCooldown s)
      (execute (setups p.scheduler) entry persisted persistedCooldown)
      (fun reply => Knows p (Answered (setups p.scheduler).coordinator p entry reply)) (Stops p entry) := by
  apply Spec.bind (M := fun state : FamilyState =>
    Knows p (Ready (setups p.scheduler).coordinator p entry state.lastStart persisted persistedCooldown))
  · apply spec_perform
    · intro s t hst h hlive
      rcases h (hst.2.2.live hlive) with ⟨last, hready⟩
      exact ⟨last, stable_ready hnumber s t hst (fun _ => hready) hlive⟩
    · rintro s state t hs h hlive ⟨rfl, hstate⟩
      rcases h hlive with ⟨last, hready⟩
      refine ⟨hs, fun q _ => Rely.refl q t, fun _ => ⟨hready.run, hready.unstarted, ?_, hready.lock⟩⟩
      exact congrArg FamilyState.lastStart hstate.symm
  · intro state
    have hstable : (discipline setups).Stable p (Knows p (Ready (setups p.scheduler).coordinator p entry
        state.lastStart persisted persistedCooldown : World Reply → Prop)) := stable_ready hnumber
    have hover : ∀ s : World Reply, Ready (setups p.scheduler).coordinator p entry state.lastStart persisted
        persistedCooldown s → Over p entry s := fun s h => h.over hnumber
    refine Spec.bind (spec_enter hstable hover) ?_
    intro before
    refine Spec.assume fun hbefore => ?_
    refine Spec.bind (Spec.conseq (spec_pause hstable) (fun s _ h => h.2) (fun _ s _ h => h)
      fun e s _ h hlive => hover s (h hlive)) ?_
    intro _
    refine Spec.bind (spec_reachBoundary hstable hover) ?_
    intro current
    refine Spec.assume fun hboundary => ?_
    refine Spec.bind (spec_passGate hstable hover) ?_
    intro gated
    refine Spec.assume fun hgated => ?_
    have hreached := reached_of_boundary hboundary.2
    have hlater : Reached entry.family state.lastStart persisted persistedCooldown gated :=
      ⟨fun c hc => (hreached.completion c hc).trans hgated, fun u hu => (hreached.cooldown u hu).trans hgated,
        fun hexact c hc => (hreached.remembered hexact c hc).trans hgated⟩
    refine Spec.pre (spec_transport hnumber hlater ?_) fun s _ h hlive => ⟨h.1, h.2 hlive⟩
    intro earlier hearlier
    have hbehind := le_of_not_ahead (ahead_latest hbefore).1 hearlier
    omega

/-- The call's entry waits or its run is going, and nothing was done for it yet. -/
structure Queued (p : Ticket) (entry : ScheduledRpcRead) (s : World Reply) : Prop where
  waits : entry ∈ (s.schedulers p.scheduler).queue ++ (s.schedulers p.scheduler).runs
  silent : ∀ event ∈ s.log, event.ticket ≠ p

/-- Its run is going, and nothing else was done for it yet. -/
structure Handed (p : Ticket) (entry : ScheduledRpcRead) (s : World Reply) : Prop where
  run : entry ∈ (s.schedulers p.scheduler).runs
  silent : ∀ event ∈ s.log, event.ticket ≠ p

/-- A call that was made has settled its promise. -/
def Done (p : Ticket) : World Reply → Prop :=
  Knows p fun s => p.number < (s.schedulers p.scheduler).next → p.number ∈ settlements p.scheduler s.log

theorem silent_kept (hrely : Rely p s t) (h : ∀ event ∈ s.log, event.ticket ≠ p) :
    ∀ event ∈ t.log, event.ticket ≠ p :=
  fun event he hticket => h event (hrely.own event he hticket) hticket

variable {family : String}

theorem cooldownOfOthers_silent {log : List (Event Reply)}
    (h : ∀ event ∈ log, event.ticket ≠ p) : cooldownOfOthers p family log = recordedCooldown family log := by
  induction log with
  | nil => rfl
  | cons event log ih =>
    have hrest := ih fun e he => h e (List.mem_cons_of_mem _ he)
    unfold cooldownOfOthers recordedCooldown at hrest ⊢
    rw [List.findSome?_cons, List.findSome?_cons, if_neg (h event List.mem_cons_self), hrest]

theorem mem_settlements {i n : ℕ} {log : List (Event Reply)} :
    n ∈ settlements i log ↔ ∃ outcome, .settled ⟨i, n⟩ outcome ∈ log := by
  unfold settlements
  rw [List.mem_filterMap]
  constructor
  · rintro ⟨event, hevent, hsettle⟩
    cases event with
    | settled q outcome =>
      simp only [Event.settleIn] at hsettle
      split at hsettle
      · rename_i hq
        cases hsettle
        rw [← hq]
        exact ⟨outcome, hevent⟩
      · cases hsettle
    | _ => cases hsettle
  · rintro ⟨outcome, hmem⟩
    exact ⟨_, hmem, by simp [Event.settleIn]⟩

theorem stable_done : (discipline setups).Stable p (Done p : World Reply → Prop) := by
  apply stable_knows
  intro s t hrely _ h hmade
  rcases mem_settlements.mp (h (hrely.calls hmade)) with ⟨outcome, hmem⟩
  exact mem_settlements.mpr ⟨outcome, hrely.log _ hmem⟩

-- The lock is given back, or a failure says that it may not be.
theorem spec_release {X : World Reply → Prop} (hstable : (discipline setups).Stable p (Knows p X))
    (hkeep : ∀ s family holder, X s → X (s.lock family holder)) :
    RpcSpec setups p (Knows p X) (call (.release family) rfl) (fun _ => Knows p X) fun _ => Knows p X := by
  apply spec_call hstable
  rintro s a t hs h hlive (rfl | ⟨-, rfl⟩)
  · refine ⟨⟨hs.tracked, hs.paced, hs.named⟩, ?_, fun _ _ hl => hkeep s _ _ (h hl), fun _ _ hl => hkeep s _ _ (h hl)⟩
    intro q hq
    exact Rely.lock fun _ hheld => System.dropped_ne hq hheld
  · exact ⟨hs, fun q _ => Rely.refl q t, fun _ _ => h, fun _ _ => h⟩

theorem Handed.over (h : Handed p entry s) (hnumber : entry.number = p.number) : Over p entry s := by
  refine ⟨h.run, ?_⟩
  intro hgoing
  rcases mem_startsOf.mp (List.mem_filter.mp hgoing).1 with ⟨instant, hmem⟩
  exact h.silent _ hmem (ticket_started hnumber)

theorem Handed.ready (h : Handed p entry s)
    (hlock : coordinator = true → s.locks entry.family = some p ∧ recordedStart entry.family s.log = persisted ∧
      recordedCooldown entry.family s.log = persistedCooldown) :
    ∃ last, Ready coordinator p entry last persisted persistedCooldown s := by
  refine ⟨_, h.run, fun event he hticket => absurd hticket (h.silent event he), rfl, ?_⟩
  rw [cooldownOfOthers_silent h.silent]
  exact hlock

theorem spec_coordinated (hnumber : entry.number = p.number) :
    RpcSpec setups p (Knows p (Handed p entry : World Reply → Prop)) (coordinated (setups p.scheduler) entry)
      (fun reply => Knows p (Answered (setups p.scheduler).coordinator p entry reply)) (Stops p entry) := by
  unfold coordinated
  split
  · apply Spec.bind (M := fun recorded => Knows p fun s : World Reply =>
      ∃ last, Ready (setups p.scheduler).coordinator p entry last recorded.1 recorded.2 s)
    · apply spec_call
      · apply stable_knows
        intro s t hrely _ h
        exact ⟨(hrely.runs entry h.run hnumber).1, silent_kept hrely h.silent⟩
      · intro s a t hs h hlive heffect
        have hhanded := h hlive
        cases a with
        | ok recorded =>
          rcases heffect with ⟨hfree, rfl, rfl⟩
          refine ⟨⟨hs.tracked, hs.paced, hs.named⟩, ?_, ?_, by rintro _ ⟨⟩⟩
          · intro q _
            apply Rely.lock
            intro _ hheld
            rw [hfree] at hheld
            cases hheld
          · rintro _ ⟨⟩ _
            have hlocked : Handed p entry (s.lock entry.family (some p)) := ⟨hhanded.run, hhanded.silent⟩
            exact hlocked.ready fun _ => ⟨Function.update_self _ _ _, rfl, rfl⟩
        | error failure =>
          cases heffect
          exact ⟨hs, fun q _ => Rely.refl q _, by rintro _ ⟨⟩, fun _ _ _ => hhanded.over hnumber⟩
    · intro recorded
      refine Spec.finally (spec_execute hnumber) ?_ ?_
      · intro reply
        refine Spec.conseq (spec_release (stable_answered hnumber) ?_) (fun s _ h => h) (fun _ s _ h => h) ?_
        · exact fun s _ _ h => ⟨⟨h.finished.run, h.finished.idle⟩, h.ended, h.recorded⟩
        · exact fun _ s _ h hlive => (h hlive).finished
      · intro _
        exact spec_release (stable_over hnumber) fun s _ _ h => ⟨h.run, h.idle⟩
  · rename_i hnone
    refine Spec.pre (spec_execute hnumber) ?_
    intro s _ h hlive
    exact (h hlive).ready fun hc => absurd hc hnone

/-- What the promise settles with, once the run is over. -/
def Outcome (coordinator : Bool) (p : Ticket) (entry : ScheduledRpcRead) (outcome : Except Failure Reply)
    (s : World Reply) : Prop :=
  Over p entry s ∧ ∀ reply, outcome = .ok reply → Answered coordinator p entry reply s

theorem stable_outcome (hnumber : entry.number = p.number) {outcome : Except Failure Reply} :
    (discipline setups).Stable p (Knows p (Outcome coordinator p entry outcome)) := by
  intro s t hst h hlive
  refine ⟨stable_over hnumber s t hst (fun hl => (h hl).1) hlive, ?_⟩
  intro reply hreply
  exact stable_answered hnumber s t hst (fun hl => (h hl).2 reply hreply) hlive

-- The others wait, run and remember as before.
theorem rely_finish (hinv : Inv setups s) (hnumber : entry.number = p.number)
    (hrun : entry ∈ (s.schedulers p.scheduler).runs) (hq : q ≠ p) :
    Rely q s (s.set p.scheduler ((s.schedulers p.scheduler).finish entry)) := by
  rcases Memory.finish_spec (hinv.tracked p.scheduler).seated hrun with ⟨-, -, honward⟩
  have hne : q.scheduler = p.scheduler → ∀ e : ScheduledRpcRead, e.number = q.number → e ≠ entry := by
    rintro hsame e he rfl
    apply hq
    cases p with
    | mk i n =>
      cases q with
      | mk j m =>
        simp only [Ticket.mk.injEq]
        exact ⟨hsame, he.symm.trans hnumber⟩
  apply Rely.set
  · exact Or.inr honward.dead
  · intro _ hmade
    rw [honward.next] at hmade
    exact hmade
  · intro hsame e he hother
    rw [honward.perm.mem_iff]
    rcases List.mem_append.mp he with he | he
    · exact List.mem_append_left _ he
    · exact List.mem_append_right _ ((List.mem_erase_of_ne (hne hsame e hother)).mpr he)
  · intro hsame e he hother
    refine ⟨honward.runs e ((List.mem_erase_of_ne (hne hsame e hother)).mpr he), ?_⟩
    rw [honward.lastStart]
    show (Function.update (s.schedulers p.scheduler).families entry.family _ e.family).lastStart = _
    by_cases hfamily : e.family = entry.family
    · rw [hfamily, Function.update_self]
    · rw [Function.update_of_ne hfamily]

variable {E : Failure → World Reply → Prop}

theorem spec_finish (hnumber : entry.number = p.number) {outcome : Except Failure Reply} :
    RpcSpec setups p (Knows p (Outcome (setups p.scheduler).coordinator p entry outcome))
      (Prog.perform (RpcOp.finish entry outcome)) (fun _ => Done p) E := by
  apply spec_perform (stable_outcome hnumber)
  rintro s _ t hs h hlive rfl
  rcases h hlive with ⟨hover, hanswered⟩
  rcases Memory.finish_spec (hs.tracked p.scheduler).seated hover.run with ⟨-, -, honward⟩
  refine ⟨?_, ?_, ?_⟩
  · refine inv_set_note hs rfl ?_ (Nat.le_of_eq honward.next.symm) ?_ fun _ => rfl
    · apply (hs.tracked p.scheduler).finish rfl hover.run hnumber hover.idle
      intro reply hreply
      exact ⟨(hanswered reply hreply).ended, (hanswered reply hreply).recorded⟩
    · rw [honward.next]
      exact named_of_run hs hnumber hover.run
  · exact fun q hq => (rely_finish hs hnumber hover.run hq).trans (Rely.note (Ne.symm hq) fun _ _ => ⟨rfl, rfl⟩)
  · exact fun _ _ => mem_settlements.mpr ⟨outcome, List.mem_cons_self⟩

theorem spec_run (hnumber : entry.number = p.number) :
    RpcSpec setups p (Knows p (Handed p entry : World Reply → Prop)) (run (setups p.scheduler) entry)
      (fun _ => Done p) E := by
  apply Spec.bind (M := fun outcome => Knows p (Outcome (setups p.scheduler).coordinator p entry outcome))
  · refine Spec.conseq (Spec.attempt (F := E) (spec_coordinated hnumber)) (fun s _ h => h) ?_
      fun e s _ h => h
    intro outcome s _ h hlive
    cases outcome with
    | ok reply =>
      refine ⟨(h hlive).finished, ?_⟩
      rintro _ ⟨⟩
      exact h hlive
    | error failure => exact ⟨h hlive, by rintro _ ⟨⟩⟩
  · exact fun outcome => spec_finish hnumber

theorem rely_schedule (hinv : Inv setups s) {gated : Bool}
    (hturn : (s.schedulers p.scheduler).next = p.number) (hq : q ≠ p) :
    Rely q s (s.set p.scheduler ((s.schedulers p.scheduler).schedule family gated)) := by
  rcases Memory.schedule_spec (hinv.tracked p.scheduler).seated family gated with ⟨-, -, honward⟩
  apply Rely.set
  · exact Or.inr honward.dead
  · intro hsame hmade
    rw [honward.next] at hmade
    have hle : q.number < (s.schedulers p.scheduler).next + 1 := hmade
    have hne : q.number ≠ p.number := by
      intro hnumber
      apply hq
      cases p
      cases q
      simp only [Ticket.mk.injEq]
      exact ⟨hsame, hnumber⟩
    omega
  · intro _ e he _
    rw [honward.perm.mem_iff]
    rcases List.mem_append.mp he with he | he
    · exact List.mem_append_left _ (List.mem_append_left _ he)
    · exact List.mem_append_right _ he
  · intro _ e he _
    exact ⟨honward.runs e he, honward.lastStart e.family⟩

-- One call, from the push to the settled promise.
theorem spec_schedule {gated : Bool} :
    RpcSpec setups p (fun _ => True) (schedule (setups p.scheduler) p.number family gated) (fun _ => Done p) E := by
  apply Spec.bind (M := fun _ => Knows p (Queued p ⟨p.number, family, gated⟩))
  · apply spec_perform
    · exact fun _ _ _ _ => trivial
    · rintro s _ t hs - hlive ⟨hturn, rfl⟩
      rcases Memory.schedule_spec (hs.tracked p.scheduler).seated family gated with ⟨-, -, honward⟩
      refine ⟨inv_set hs ((hs.tracked p.scheduler).schedule family gated) ?_, fun q hq => rely_schedule hs hturn hq, ?_⟩
      · rw [honward.next]
        exact Nat.le_succ _
      · intro _
        constructor
        · rw [set_schedulers, if_pos rfl, honward.perm.mem_iff, ← hturn]
          simp
        · rintro event he rfl
          have := hs.named event he
          omega
  · intro _
    apply Spec.bind (M := fun _ => Knows p (Handed p ⟨p.number, family, gated⟩))
    · apply spec_perform
      · apply stable_knows
        intro s t hrely _ h
        exact ⟨hrely.waits _ h.waits rfl, silent_kept hrely h.silent⟩
      · rintro s _ t hs h hlive ⟨⟨e, he, hnumber⟩, rfl⟩
        have hqueued := h hlive
        -- No two entries that wait or run have one number.
        have hnodup : (((t.schedulers p.scheduler).queue ++ (t.schedulers p.scheduler).runs).map (·.number)).Nodup :=
          ((hs.tracked p.scheduler).placed.nodup_iff.mpr List.nodup_range).of_append_left
        have hsame := List.inj_on_of_nodup_map hnodup (List.mem_append_right _ he) hqueued.waits hnumber
        rw [hsame] at he
        exact ⟨hs, fun q _ => Rely.refl q t, fun _ => ⟨he, hqueued.silent⟩⟩
    · exact fun _ => spec_run rfl

end PaymentNode.RpcScheduler
