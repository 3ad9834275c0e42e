import Mathlib.Data.List.Perm.Subperm
import PaymentNode.Rpc.Runs

/-!
# Serialized — what holds of every run of any number of schedulers

Two tasks at most and one per family, starts in the order of the calls, every promise settled once and fulfilled
only with a recorded completion, no entry that waits for nothing, and every start behind what is recorded of its
family, whoever recorded it and however that process ended.
-/

namespace PaymentNode.RpcScheduler

variable {Reply : Type} {setups : ℕ → Setup} {urlHostname : String → Option String} {s : World Reply} {p : Ticket}

/-- Anything but the call itself. -/
def Later (o : RpcOp Reply) : Prop := ∀ family gated, o ≠ .schedule family gated

section Lengths

variable {setup : Setup} {entry : ScheduledRpcRead}

theorem within_call {α : Type} {o : RpcOp Reply} {h : o.Answer = Except Failure α} (hlater : Later o) :
    (call o h : RpcProg Reply α).Within Later 1 := by
  refine (Prog.Within.perform hlater).bind (m := 0) fun answer => ?_
  cases (h ▸ answer : Except Failure α) with
  | ok a => exact Prog.Within.ret a
  | error e => exact Prog.Within.fail e

theorem within_save {family : String} {value : ℤ} :
    (saveStart setup family value : RpcProg Reply Unit).Within Later 1 ∧
      (saveCooldownUntil setup family value : RpcProg Reply Unit).Within Later 1 := by
  unfold saveStart saveCooldownUntil
  cases setup.coordinator with
  | true => exact ⟨within_call (by rintro _ _ ⟨⟩), within_call (by rintro _ _ ⟨⟩)⟩
  | false => exact ⟨Prog.Within.ret (), Prog.Within.ret ()⟩

theorem within_clock : (clock : RpcProg Reply ℤ).Within Later 1 := within_call (by rintro _ _ ⟨⟩)

theorem within_enter {lastStart cooldownUntil : Option ℤ} :
    (enter setup entry lastStart cooldownUntil : RpcProg Reply ℤ).Within Later 1 := by
  refine within_clock.bind (m := 0) fun before => ?_
  split
  · exact Prog.Within.fail _
  · split
    · exact Prog.Within.fail _
    · exact Prog.Within.ret _

theorem within_pause {delay : ℤ} : (pause delay : RpcProg Reply Unit).Within Later 2 := by
  refine (within_call (by rintro _ _ ⟨⟩)).bind (m := 1) fun _ => ?_
  split
  · exact within_call (by rintro _ _ ⟨⟩)
  · exact Prog.Within.ret _

theorem within_reachBoundary {exact' : Bool} {nextAllowed : Option ℤ} {before : ℤ} :
    (reachBoundary entry exact' nextAllowed before : RpcProg Reply ℤ).Within Later 4 := by
  refine within_clock.bind (m := 3) fun current => ?_
  split
  · exact Prog.Within.fail _
  · split
    · refine (within_call (by rintro _ _ ⟨⟩)).bind (m := 2) fun _ => ?_
      refine (within_call (by rintro _ _ ⟨⟩)).bind (m := 1) fun _ => ?_
      refine within_clock.bind (m := 0) fun rechecked => ?_
      split
      · exact Prog.Within.fail _
      · exact Prog.Within.ret _
    · exact Prog.Within.ret _

theorem within_passGate {current : ℤ} : (passGate entry current : RpcProg Reply ℤ).Within Later 2 := by
  unfold passGate
  split
  · refine (within_call (by rintro _ _ ⟨⟩)).bind (m := 1) fun _ => ?_
    refine within_clock.bind (m := 0) fun gated => ?_
    split
    · exact Prog.Within.fail _
    · exact Prog.Within.ret _
  · exact Prog.Within.ret _

theorem within_transport {current : ℤ} : (transport setup entry current : RpcProg Reply Reply).Within Later 8 := by
  have hplain : ∀ o : RpcOp Reply, Later o →
      (Prog.perform o : RpcProg Reply o.Answer).Within Later 1 := fun o h => Prog.Within.perform h
  have hrecord : ∀ answer completed,
      (recordCompletion setup entry answer completed : RpcProg Reply Unit).Within Later 4 := by
    intro answer completed
    refine (hplain _ (by rintro _ _ ⟨⟩)).bind (m := 3) fun _ => ?_
    refine within_save.1.bind (m := 2) fun _ => ?_
    exact (hplain _ (by rintro _ _ ⟨⟩)).bind (m := 1) fun _ => within_save.2
  refine within_save.2.bind (m := 7) fun _ => ?_
  have htask : (runTask entry : RpcProg Reply (Except Failure Reply)).Within Later 2 :=
    (hplain _ (by rintro _ _ ⟨⟩)).bind (m := 1) fun _ => hplain _ (by rintro _ _ ⟨⟩)
  refine htask.bind (m := 5) fun answer => ?_
  refine within_clock.bind (m := 4) fun completed => ?_
  split
  · exact Prog.Within.fail _
  · refine (hrecord answer completed).bind (m := 0) fun _ => ?_
    cases answer with
    | ok reply => exact Prog.Within.ret _
    | error failure => exact Prog.Within.fail _

theorem within_execute {persisted persistedCooldown : Option ℤ} :
    (execute setup entry persisted persistedCooldown : RpcProg Reply Reply).Within Later 18 := by
  have hread : (readFamily entry.family : RpcProg Reply FamilyState).Within Later 1 :=
    Prog.Within.perform (by rintro _ _ ⟨⟩)
  refine hread.bind (m := 17) fun state => ?_
  refine within_enter.bind (m := 16) fun before => ?_
  refine within_pause.bind (m := 14) fun _ => ?_
  refine within_reachBoundary.bind (m := 10) fun current => ?_
  exact within_passGate.bind (m := 8) fun gated => within_transport

theorem within_coordinated : (coordinated setup entry : RpcProg Reply Reply).Within Later 20 := by
  unfold coordinated
  split
  · refine (within_call (by rintro _ _ ⟨⟩)).bind (m := 19) fun recorded => ?_
    exact within_execute.finally (m := 1) (within_call (by rintro _ _ ⟨⟩))
  · exact within_execute.mono (by omega)

-- Once the call is made, at most twenty-two operations are left of it.
theorem within_rest {number : ℕ} {family : String} {gated : Bool} :
    ∃ k, (schedule setup number family gated : RpcProg Reply Unit) = .op (.schedule family gated) k ∧
      ∀ a, (k a).Within Later 22 := by
  refine ⟨_, rfl, fun _ => ?_⟩
  have hhanded : (Prog.perform RpcOp.handOver : RpcProg Reply Unit).Within Later 1 :=
    Prog.Within.perform (by rintro _ _ ⟨⟩)
  refine hhanded.bind (m := 21) fun _ => ?_
  refine within_coordinated.attempt.bind (m := 1) fun outcome => ?_
  exact Prog.Within.perform (by rintro _ _ ⟨⟩)

end Lengths

/-! ## The start -/

theorem inv_fresh : Inv setups (World.fresh : World Reply) := by
  refine ⟨?_, ?_, by rintro _ ⟨⟩⟩
  · intro i
    refine ⟨Memory.seated_fresh, by rintro _ _ ⟨⟩, List.Perm.refl _, ?_, by rintro _ _ _ _ ⟨⟩, ?_⟩
    · exact ⟨List.Pairwise.nil, List.nodup_nil, by rintro _ ⟨⟩, by rintro _ ⟨⟩, by rintro _ ⟨⟩, by rintro _ ⟨⟩⟩
    · exact ⟨by rintro _ _ _ _ ⟨⟩, by rintro _ _ _ ⟨⟩⟩
  · intro newer i entry instant older hsplit
    cases newer <;> cases hsplit

-- What a run of one of its own calls can always do.
theorem enabled (hlive : Live p s) {entry : ScheduledRpcRead} (hrun : entry ∈ (s.schedulers p.scheduler).runs)
    (hnumber : entry.number = p.number) {o : RpcOp Reply} (ho : Later o) :
    ∃ a t, system.exec p s o a t := by
  have hfails : ∀ o : RpcOp Reply, ∀ a : o.Answer, effect p s o a s → ∃ a t, system.exec p s o a t :=
    fun o a h => ⟨a, s, hlive, h⟩
  cases o with
  | schedule family gated => exact absurd rfl (ho family gated)
  | handOver => exact hfails _ () ⟨⟨entry, hrun, hnumber⟩, rfl⟩
  | coordinate family => exact hfails _ (.error (.other "")) rfl
  | release family => exact hfails _ (.error (.other "")) (Or.inr ⟨⟨_, rfl⟩, rfl⟩)
  | readFamily family => exact hfails _ _ ⟨rfl, rfl⟩
  | now => exact hfails _ (.error (.other "")) ⟨rfl, by rintro _ ⟨⟩⟩
  | beforeWait ms => exact hfails _ (.ok ()) rfl
  | wait ms => exact hfails _ (.ok ()) rfl
  | beforeStart => exact hfails _ (.ok ()) rfl
  | saveStart family value => exact hfails _ (.error (.other "")) (Or.inr ⟨⟨_, rfl⟩, rfl⟩)
  | saveCooldownUntil family value => exact hfails _ (.error (.other "")) (Or.inr ⟨⟨_, rfl⟩, rfl⟩)
  | startTask entry => exact ⟨(), _, hlive, rfl⟩
  | endTask => exact ⟨.error (.other ""), _, hlive, rfl⟩
  | remember family completed => exact ⟨(), _, hlive, rfl⟩
  | cool family value => exact ⟨(), _, hlive, rfl⟩
  | finish entry outcome => exact ⟨(), _, hlive, rfl⟩

/-! ## Whole runs -/

/-- What one scheduler keeps. -/
structure Serialized (coordinator : Bool) (i : ℕ) (s : World Reply) : Prop where
  atMostTwo : (tasks i s.log).length ≤ 2
  onePerFamily : ((tasks i s.log).map (·.family)).Nodup
  /-- Newest first. -/
  inOrder : (startsOf i s.log).Pairwise fun e e' => e.family = e'.family → e'.number < e.number
  settledOnce : (settlements i s.log).Nodup
  ownResult : ∀ q reply, q.scheduler = i → .settled q (.ok reply) ∈ s.log → .ended q (.ok reply) ∈ s.log ∧
    ∃ family completed, .remembered q family completed ∈ s.log ∧
      (coordinator = true → .savedStart q family completed ∈ s.log)
  slots : (s.schedulers i).active = (s.schedulers i).runs.length
  active : ∀ family, ((s.schedulers i).families family).active = true ↔
    family ∈ (s.schedulers i).runs.map (·.family)
  noneIdle : (s.schedulers i).active < 2 → ∀ q ∈ (s.schedulers i).queue,
    ((s.schedulers i).families q.family).active = true

theorem Tracked.serialized {coordinator : Bool} {i : ℕ} (h : Tracked coordinator i (s.schedulers i) s.log) :
    Serialized coordinator i s := by
  have hnodup : (tasks i s.log).Nodup := List.Nodup.filter _ (List.Nodup.of_map _ h.turns.once)
  have hsub := List.subperm_of_subset hnodup fun e he => h.turns.running e he
  refine ⟨?_, ?_, h.turns.ordered, ?_, h.told.kept, h.seated.count, h.seated.active, h.full⟩
  · have hle := hsub.length_le
    have hcount := h.seated.count
    have htwo := h.seated.atMostTwo
    omega
  · rcases hsub with ⟨front, hperm, hsublist⟩
    exact (hperm.map _).nodup_iff.mp (h.seated.families.sublist (hsublist.map _))
  · exact (h.placed.nodup_iff.mpr List.nodup_range).of_append_right

/-- No call of the scheduler can go on. -/
def Stopped (setups : ℕ → Setup) (urlHostname : String → Option String)
    (c : System.Config (RpcOp Reply) RpcOp.Answer Failure (World Reply) Ticket) (i : ℕ) : Prop :=
  ∀ p : Ticket, p.scheduler = i → ∀ o a c', ¬ System.Step system (rpcEntry setups urlHostname) c (.act p o a) c'

/-- **The scheduler serializes and paces**: in every run of any number of schedulers, with any answers, crashes and
passage of time, each of them keeps its slots, its order and its promises, every start is behind what is recorded of
its family, a call does at most twenty-three operations, and where none can go on every promise has settled once. -/
theorem scheduler_serializes_and_paces
    {labels : List (System.Label (RpcOp Reply) RpcOp.Answer Failure Ticket)}
    {c : System.Config (RpcOp Reply) RpcOp.Answer Failure (World Reply) Ticket}
    (hrun : Runs.Run (System.Step system (rpcEntry setups urlHostname)) (System.idle World.fresh) labels c) :
    (∀ i, Serialized (setups i).coordinator i c.shared) ∧ Paced setups c.shared.log ∧
      (∀ p, labels.countP (System.Label.actBy p) ≤ 23 * labels.countP (System.Label.startBy p)) ∧
      ∀ i, (c.shared.schedulers i).dead = false → Stopped setups urlHostname c i →
        ∀ n < (c.shared.schedulers i).next, (settlements i c.shared.log).count n = 1 := by
  have hunder : Inv setups c.shared ∧ ∀ p, ¬ Done p c.shared → ∃ o k, c.procs p = some (.op o k) ∧ Later o := by
    refine Discipline.underway (D := discipline setups) (fun p => stable_done) ?_ ?_ (fun _ _ _ h => h) ?_ inv_fresh ?_
      hrun
    · rintro p prog ⟨origin, gated, rfl⟩
      exact spec_schedule
    · rintro p prog ⟨origin, gated, rfl⟩
      rcases @within_rest Reply (setups p.scheduler) p.number (rpcProviderFamily urlHostname origin) gated with
        ⟨k, heq, hwithin⟩
      exact ⟨_, k, heq, fun a => ⟨22, hwithin a⟩⟩
    · exact fun s t hs hpass => passes_kept hs hpass
    · intro p _ hmade
      exact absurd hmade (Nat.not_lt_zero _)
  rcases hunder with ⟨hinv, hleft⟩
  refine ⟨fun i => (hinv.tracked i).serialized, hinv.paced, ?_, ?_⟩
  · have hbounded : ∀ p prog, rpcEntry setups urlHostname p prog → prog.Within (fun _ : RpcOp Reply => True) 23 := by
      rintro p prog ⟨origin, gated, rfl⟩
      rcases @within_rest Reply (setups p.scheduler) p.number (rpcProviderFamily urlHostname origin) gated with
        ⟨k, heq, hwithin⟩
      rw [heq]
      exact Prog.Within.op trivial fun a => (hwithin a).weaken fun _ _ => trivial
    exact System.acts_le hbounded hrun
  · intro i hlive hstopped n hn
    have htracked := hinv.tracked i
    have hnodup := htracked.placed.nodup_iff.mpr List.nodup_range
    -- An entry whose run is going has not settled, so its run has an operation left, and can do it.
    have hidle : (c.shared.schedulers i).runs = [] := by
      apply List.eq_nil_iff_forall_not_mem.mpr
      intro entry hentry
      have hnumber : entry.number < (c.shared.schedulers i).next :=
        htracked.seated.early entry (List.mem_append_right _ hentry)
      have hundone : ¬ Done ⟨i, entry.number⟩ c.shared := by
        intro hdone
        have hsettled := hdone hlive hnumber
        exact (List.nodup_append.mp hnodup).2.2 _
          (List.mem_map_of_mem (List.mem_append_right _ hentry)) _ hsettled rfl
      rcases hleft _ hundone with ⟨o, k, hproc, ho⟩
      rcases @enabled Reply c.shared ⟨i, entry.number⟩ hlive entry hentry rfl o ho with ⟨a, t, hexec⟩
      exact hstopped ⟨i, entry.number⟩ rfl o a _ (System.Step.act c _ o k a t hproc hexec)
    have hnone : (c.shared.schedulers i).queue = [] := by
      apply List.eq_nil_iff_forall_not_mem.mpr
      intro entry hentry
      have hfree : (c.shared.schedulers i).active < 2 := by
        rw [htracked.seated.count, hidle]
        decide
      have hactive := (htracked.seated.active entry.family).mp (htracked.full hfree entry hentry)
      rw [hidle] at hactive
      cases hactive
    have hperm : (settlements i c.shared.log).Perm (List.range (c.shared.schedulers i).next) := by
      simpa only [hidle, hnone, List.append_nil, List.map_nil, List.nil_append] using htracked.placed
    rw [List.perm_iff_count.mp hperm n]
    exact List.count_eq_one_of_mem List.nodup_range (List.mem_range.mpr hn)

/-! ## A start after a crash -/

namespace CrashRun

def bothCoordinated : ℕ → Setup := fun _ => ⟨true, .wait, .rateLimit⟩

/-- The origin of both calls is no URL. -/
def noUrl : String → Option String := fun _ => none

/-- Everything succeeds at once. -/
def answer (p : Ticket) (s : World Unit) : (o : RpcOp Unit) → o.Answer × World Unit
  | .schedule family gated => ((), s.set p.scheduler ((s.schedulers p.scheduler).schedule family gated))
  | .handOver => ((), s)
  | .coordinate family =>
    ((.ok (recordedStart family s.log, recordedCooldown family s.log) : Except Failure _), s.lock family (some p))
  | .release family => ((.ok () : Except Failure Unit), s.lock family (System.dropped p (s.locks family)))
  | .readFamily family => ((s.schedulers p.scheduler).families family, s)
  | .now => ((.ok s.clock : Except Failure ℤ), s)
  | .beforeWait _ | .wait _ | .beforeStart => ((.ok () : Except Failure Unit), s)
  | .saveStart family value => ((.ok () : Except Failure Unit), s.note (.savedStart p family value))
  | .saveCooldownUntil family value => ((.ok () : Except Failure Unit), s.note (.savedCooldown p family value))
  | .startTask entry => ((), s.note (.started p.scheduler entry s.clock))
  | .endTask => ((.ok () : Except Failure Unit), s.note (.ended p (.ok ())))
  | .remember family completed =>
    ((), (s.set p.scheduler ((s.schedulers p.scheduler).remember family completed)).note
      (.remembered p family completed))
  | .cool family value => ((), s.set p.scheduler ((s.schedulers p.scheduler).cool family value))
  | .finish entry outcome =>
    ((), (s.set p.scheduler ((s.schedulers p.scheduler).finish entry)).note (.settled p outcome))

def allowed (p : Ticket) (s : World Unit) (o : RpcOp Unit) : Bool :=
  !(s.schedulers p.scheduler).dead &&
    match o with
    | .schedule _ _ => (s.schedulers p.scheduler).next == p.number
    | .handOver => (s.schedulers p.scheduler).runs.any (·.number == p.number)
    | .coordinate family => (s.locks family).isNone
    | _ => true

theorem answer_allowed (p : Ticket) (s : World Unit) (o : RpcOp Unit) (h : allowed p s o = true) :
    system.exec p s o (answer p s o).1 (answer p s o).2 := by
  rcases Bool.and_eq_true_iff.mp h with ⟨hlive, hready⟩
  refine ⟨by simpa [Live] using hlive, ?_⟩
  cases o with
  | schedule family gated => exact ⟨by simpa using hready, rfl⟩
  | handOver =>
    rcases List.any_eq_true.mp hready with ⟨entry, hmem, hnumber⟩
    exact ⟨⟨entry, hmem, by simpa using hnumber⟩, rfl⟩
  | coordinate family => exact ⟨by simpa using hready, rfl, rfl⟩
  | release family => exact Or.inl rfl
  | readFamily family => exact ⟨rfl, rfl⟩
  | now =>
    refine ⟨rfl, ?_⟩
    rintro v ⟨⟩
    rfl
  | saveStart family value => exact Or.inl rfl
  | saveCooldownUntil family value => exact Or.inl rfl
  | _ => rfl

def made (p : Ticket) : RpcProg Unit Unit := schedule (bothCoordinated p.scheduler) p.number "invalid-origin" false

-- A call runs for a while, beside whatever is left of the others.
theorem run_call (p : Ticket) (n : ℕ) {procs : Ticket → Option (RpcProg Unit Unit)} (hnone : procs p = none)
    (s : World Unit) (hready : (made p).checked (allowed p) (answer p) n s = true) :
    ∃ labels procs', Runs.Run (System.Step system (rpcEntry bothCoordinated noUrl)) ⟨s, procs⟩ labels
      ⟨((made p).play (answer p) n s).2, procs'⟩ ∧ ∀ q, q ≠ p → procs' q = procs q := by
  have hallowed : ∀ s o, True → allowed p s o = true →
      system.exec p s o (answer p s o).1 (answer p s o).2 ∧ True :=
    fun s o _ h => ⟨answer_allowed p s o h, trivial⟩
  have hstart : System.Step system (rpcEntry bothCoordinated noUrl) ⟨s, procs⟩ _ _ :=
    System.Step.start ⟨s, procs⟩ p (made p) hnone ⟨"", false, rfl⟩
  rcases System.run_play_checked (I := fun _ => True) hallowed n procs (made p) s trivial hready with
    ⟨labels, hrun, -⟩
  refine ⟨_, _, Runs.Run.cons hstart hrun, ?_⟩
  exact fun q hq => Function.update_of_ne hq _ _

/-- The first scheduler's process dies in its transport, at the epoch. -/
def crashed : World Unit := ((made ⟨0, 0⟩).play (answer ⟨0, 0⟩) 9 World.fresh).2

def died : World Unit := crashed.set 0 { crashed.schedulers 0 with dead := true }

/-- Its lock is freed, and twenty-three seconds pass. -/
def later : World Unit := { died.lock "invalid-origin" none with clock := 23000 }

/-- The second scheduler runs its call to the end. -/
def afterwards : World Unit := ((made ⟨1, 0⟩).play (answer ⟨1, 0⟩) 21 later).2

theorem lock_left : died.locks "invalid-origin" = some ⟨0, 0⟩ ∧ ¬ Live ⟨0, 0⟩ died := by
  unfold Live
  decide +kernel

theorem started_again : startsOf 1 afterwards.log = [⟨0, "invalid-origin", false⟩] := by decide +kernel

theorem epoch : (died.lock "invalid-origin" none).clock ≤ 23000 := by decide +kernel

theorem run_afterwards : ∃ labels procs, Runs.Run (System.Step system (rpcEntry bothCoordinated noUrl))
    (System.idle World.fresh) labels ⟨afterwards, procs⟩ := by
  rcases @run_call ⟨0, 0⟩ 9 (fun _ => none) rfl World.fresh (by decide +kernel) with ⟨first, procs, hfirst, hothers⟩
  have hdies : System.Step system (rpcEntry bothCoordinated noUrl) ⟨crashed, procs⟩ _ ⟨died, procs⟩ :=
    System.Step.env _ _ (Passes.dies 0)
  have hfrees : System.Step system (rpcEntry bothCoordinated noUrl) ⟨died, procs⟩ _
      ⟨died.lock "invalid-origin" none, procs⟩ :=
    System.Step.env _ _ (Passes.frees "invalid-origin" ⟨0, 0⟩ lock_left.1 lock_left.2)
  have hticks : System.Step system (rpcEntry bothCoordinated noUrl) ⟨died.lock "invalid-origin" none, procs⟩ _
      ⟨later, procs⟩ := System.Step.env _ _ (Passes.tick 23000 epoch)
  rcases @run_call ⟨1, 0⟩ 21 procs (hothers _ (by decide)) later (by decide +kernel) with ⟨last, procs', hlast, -⟩
  exact ⟨_, procs', (((hfirst.snoc hdies).snoc hfrees).snoc hticks).append hlast⟩

end CrashRun

/-- A second process starts no earlier than the window that a crashed one left. -/
theorem scheduler_serializes_and_paces_after_crash : ∃ labels,
    ∃ c : System.Config (RpcOp Unit) RpcOp.Answer Failure (World Unit) Ticket,
    Runs.Run (System.Step system (rpcEntry CrashRun.bothCoordinated CrashRun.noUrl)) (System.idle World.fresh) labels c ∧
      startsOf 1 c.shared.log = [⟨0, "invalid-origin", false⟩] ∧
      Serialized true 1 c.shared ∧ Paced CrashRun.bothCoordinated c.shared.log := by
  rcases CrashRun.run_afterwards with ⟨labels, procs, hrun⟩
  have hall := scheduler_serializes_and_paces hrun
  exact ⟨labels, _, hrun, CrashRun.started_again, hall.1 1, hall.2.1⟩

end PaymentNode.RpcScheduler
