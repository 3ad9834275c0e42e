import PaymentNode.Rpc.Slots

/-!
# Kept — what every step of every call keeps

What has happened is read off the log: which tasks have started, which are running, which promises have settled,
what is recorded of a family.  `Tracked` ties one scheduler's memory to its part of the log, `Paced` says of every
start that nothing recorded before it forbade it, and `Rely` is what the other calls leave alone while one call
is under way.
-/

namespace PaymentNode.RpcScheduler

variable {Reply : Type}

/-! ## Reading the log -/

/-- The call an event is of. -/
def Event.ticket : Event Reply → Ticket
  | .started i entry _ => ⟨i, entry.number⟩
  | .ended p _ | .remembered p _ _ | .savedStart p _ _ | .savedCooldown p _ _ | .settled p _ => p

def Event.startIn (i : ℕ) : Event Reply → Option ScheduledRpcRead
  | .started j entry _ => if j = i then some entry else none
  | _ => none

def Event.endIn (i : ℕ) : Event Reply → Option ℕ
  | .ended p _ => if p.scheduler = i then some p.number else none
  | _ => none

def Event.settleIn (i : ℕ) : Event Reply → Option ℕ
  | .settled p _ => if p.scheduler = i then some p.number else none
  | _ => none

/-- The entries whose tasks a scheduler has started, newest first. -/
def startsOf (i : ℕ) (log : List (Event Reply)) : List ScheduledRpcRead := log.filterMap (Event.startIn i)

/-- The calls whose promises a scheduler has settled, newest first. -/
def settlements (i : ℕ) (log : List (Event Reply)) : List ℕ := log.filterMap (Event.settleIn i)

/-- The entries whose tasks are running. -/
def tasks (i : ℕ) (log : List (Event Reply)) : List ScheduledRpcRead :=
  (startsOf i log).filter fun entry => entry.number ∉ log.filterMap (Event.endIn i)

/-- The cooldown that was recorded before `p` reserved its own window. -/
def cooldownOfOthers (p : Ticket) (family : String) (log : List (Event Reply)) : Option ℤ :=
  log.findSome? fun event => if event.ticket = p then none else event.cooldownOf family

/-- Nothing recorded of the family forbids a start: neither its recorded completion, nor a completion this
scheduler remembers, nor the cooldown that stood when the lock was taken.  And what a crash from here on leaves on
record is the call's own window. -/
structure StartAllowed (p : Ticket) (family : String) (instant : ℤ) (log : List (Event Reply)) : Prop where
  completion : ∀ completed, recordedStart family log = some completed → completed + familyGap family ≤ instant
  cooldown : ∀ cooldownUntil, cooldownOfOthers p family log = some cooldownUntil → cooldownUntil ≤ instant
  remembered : ∀ q completed, q.scheduler = p.scheduler → .remembered q family completed ∈ log →
    completed + familyGap family ≤ instant
  window : ∃ current, current ≤ instant ∧ recordedCooldown family log = some (current + rpcCrashGuardMs)

/-- Every task of a scheduler with a coordinator started when it was allowed to. -/
def Paced (setups : ℕ → Setup) (log : List (Event Reply)) : Prop :=
  ∀ newer i entry instant older, log = newer ++ .started i entry instant :: older →
    (setups i).coordinator = true → StartAllowed ⟨i, entry.number⟩ entry.family instant older

variable {setups : ℕ → Setup} {log : List (Event Reply)} {event : Event Reply} {i : ℕ} {p q : Ticket}

variable {entry : ScheduledRpcRead}

theorem mem_startsOf :
    entry ∈ startsOf i log ↔ ∃ instant, .started i entry instant ∈ log := by
  unfold startsOf
  rw [List.mem_filterMap]
  constructor
  · rintro ⟨event, hevent, hstart⟩
    cases event with
    | started j entry' instant =>
      simp only [Event.startIn] at hstart
      split at hstart
      · rename_i hj
        cases hstart
        rw [hj] at hevent
        exact ⟨instant, hevent⟩
      · cases hstart
    | _ => cases hstart
  · rintro ⟨instant, hmem⟩
    exact ⟨_, hmem, by simp [Event.startIn]⟩

theorem mem_ends {n : ℕ} : n ∈ log.filterMap (Event.endIn i) ↔ ∃ answer, .ended ⟨i, n⟩ answer ∈ log := by
  rw [List.mem_filterMap]
  constructor
  · rintro ⟨event, hevent, hend⟩
    cases event with
    | ended q answer =>
      simp only [Event.endIn] at hend
      split at hend
      · rename_i hq
        cases hend
        rw [← hq]
        exact ⟨answer, hevent⟩
      · cases hend
    | _ => cases hend
  · rintro ⟨answer, hmem⟩
    exact ⟨_, hmem, by simp [Event.endIn]⟩

theorem paced_note (h : Paced setups log) (hstart : ∀ i entry instant, event = .started i entry instant →
    (setups i).coordinator = true → StartAllowed ⟨i, entry.number⟩ entry.family instant log) :
    Paced setups (event :: log) := by
  intro newer i entry instant older hsplit
  cases newer with
  | nil =>
    cases hsplit
    exact hstart i entry instant rfl
  | cons first newer =>
    cases hsplit
    exact h newer i entry instant older rfl

-- What a write of another kind, or of another call, leaves of the record.
theorem findSome_note {α : Type} {f : Event Reply → Option α} (h : f event = none) :
    (event :: log).findSome? f = log.findSome? f := by
  rw [List.findSome?_cons, h]

variable {family : String}

theorem recorded_isSome {u : ℤ} (h : .savedCooldown q family u ∈ log) (hne : q ≠ p) :
    (cooldownOfOthers p family log).isSome := by
  unfold cooldownOfOthers
  rw [List.findSome?_isSome_iff]
  exact ⟨_, h, by simp [Event.ticket, Event.cooldownOf, hne]⟩

/-! ## A scheduler's memory and its part of the log -/

/-- Which tasks have started, and which of them run, beside the entries that wait and those whose run is going. -/
structure Turns (m : Memory) (started running : List ScheduledRpcRead) : Prop where
  ordered : started.Pairwise fun e e' => e.family = e'.family → e'.number < e.number
  once : (started.map (·.number)).Nodup
  begun : ∀ e ∈ started, e.number < m.next
  before : ∀ e ∈ started, ∀ q ∈ m.queue, q.family = e.family → e.number < q.number
  upTo : ∀ e ∈ started, ∀ r ∈ m.runs, r.family = e.family → e.number ≤ r.number
  running : ∀ e ∈ running, e ∈ m.runs

/-- What was done before a completion was remembered, and before a promise was fulfilled. -/
structure Told (coordinator : Bool) (i : ℕ) (log : List (Event Reply)) : Prop where
  reserved : ∀ q family completed, q.scheduler = i → .remembered q family completed ∈ log →
    coordinator = true → ∃ window, .savedCooldown q family window ∈ log
  kept : ∀ q reply, q.scheduler = i → .settled q (.ok reply) ∈ log → .ended q (.ok reply) ∈ log ∧
    ∃ family completed, .remembered q family completed ∈ log ∧
      (coordinator = true → .savedStart q family completed ∈ log)

structure Tracked (coordinator : Bool) (i : ℕ) (m : Memory) (log : List (Event Reply)) : Prop where
  seated : m.Seated
  full : m.Full
  /-- Every call is waiting, going or settled, and only one of these, once. -/
  placed : ((m.queue ++ m.runs).map (·.number) ++ settlements i log).Perm (List.range m.next)
  turns : Turns m (startsOf i log) (tasks i log)
  memory : ∀ q family completed, q.scheduler = i → .remembered q family completed ∈ log →
    ∃ last, (m.families family).lastStart = some last ∧ completed ≤ last
  told : Told coordinator i log

variable {coordinator : Bool} {m m' : Memory}

theorem Told.note (h : Told coordinator i log)
    (hremember : ∀ q family completed, q.scheduler = i → event = .remembered q family completed →
      coordinator = true → ∃ window, .savedCooldown q family window ∈ log)
    (hsettle : ∀ q reply, q.scheduler = i → event = .settled q (.ok reply) → .ended q (.ok reply) ∈ log ∧
      ∃ family completed, .remembered q family completed ∈ log ∧
        (coordinator = true → .savedStart q family completed ∈ log)) : Told coordinator i (event :: log) := by
  constructor
  · intro q family completed hq hmem hcoordinator
    have hwindow : ∃ window, .savedCooldown q family window ∈ log := by
      rcases List.mem_cons.mp hmem with heq | hmem
      · exact hremember q family completed hq heq.symm hcoordinator
      · exact h.reserved q family completed hq hmem hcoordinator
    rcases hwindow with ⟨window, hwindow⟩
    exact ⟨window, List.mem_cons_of_mem _ hwindow⟩
  · intro q reply hq hmem
    have hfound : .ended q (.ok reply) ∈ log ∧ ∃ family completed, .remembered q family completed ∈ log ∧
        (coordinator = true → .savedStart q family completed ∈ log) := by
      rcases List.mem_cons.mp hmem with heq | hmem
      · exact hsettle q reply hq heq.symm
      · exact h.kept q reply hq hmem
    rcases hfound with ⟨hended, family, completed, hremembered, hsaved⟩
    exact ⟨List.mem_cons_of_mem _ hended, family, completed, List.mem_cons_of_mem _ hremembered,
      fun hc => List.mem_cons_of_mem _ (hsaved hc)⟩

-- An event that says nothing new about the scheduler's calls, but that a task may have ended.
theorem Tracked.note (h : Tracked coordinator i m log) (hstart : event.startIn i = none)
    (hsettle : event.settleIn i = none)
    (hremember : ∀ q family completed, q.scheduler = i → event ≠ .remembered q family completed) :
    Tracked coordinator i m (event :: log) := by
  have hstarts : startsOf i (event :: log) = startsOf i log := List.filterMap_cons_none hstart
  have hsettlements : settlements i (event :: log) = settlements i log := List.filterMap_cons_none hsettle
  have hfewer : ∀ e ∈ tasks i (event :: log), e ∈ tasks i log := by
    intro e he
    rcases List.mem_filter.mp he with ⟨hstarted, hgoing⟩
    rw [hstarts] at hstarted
    refine List.mem_filter.mpr ⟨hstarted, ?_⟩
    rw [decide_eq_true_eq] at hgoing ⊢
    intro hended
    apply hgoing
    rw [List.filterMap_cons]
    split
    · exact hended
    · exact List.mem_cons_of_mem _ hended
  refine ⟨h.seated, h.full, ?_, ?_, ?_, ?_⟩
  · rw [hsettlements]
    exact h.placed
  · rw [hstarts]
    exact ⟨h.turns.ordered, h.turns.once, h.turns.begun, h.turns.before, h.turns.upTo,
      fun e he => h.turns.running e (hfewer e he)⟩
  · intro q family completed hq hmem
    have hold := (List.mem_cons.mp hmem).resolve_left fun heq => hremember q family completed hq heq.symm
    exact h.memory q family completed hq hold
  · apply h.told.note
    · exact fun q family completed hq heq => absurd heq (hremember q family completed hq)
    · rintro q reply hq rfl
      simp [Event.settleIn, hq] at hsettle

-- An event of another scheduler.
theorem Tracked.note_other (h : Tracked coordinator i m log) (hother : event.ticket.scheduler ≠ i) :
    Tracked coordinator i m (event :: log) := by
  apply h.note
  · cases event <;> simp_all [Event.startIn, Event.ticket]
  · cases event <;> simp_all [Event.settleIn, Event.ticket]
  · rintro q family completed hq rfl
    exact hother hq

-- A task starts in the run that is its family's turn.
theorem Tracked.start (h : Tracked coordinator i m log) {instant : ℤ}
    (hrun : entry ∈ m.runs) (hnew : ∀ e ∈ startsOf i log, e.number ≠ entry.number) :
    Tracked coordinator i m (.started i entry instant :: log) := by
  have hstarts : startsOf i (.started i entry instant :: log) = entry :: startsOf i log := by
    simp [startsOf, Event.startIn]
  have hends : (Event.started i entry instant :: log).filterMap (Event.endIn i) = log.filterMap (Event.endIn i) :=
    List.filterMap_cons_none rfl
  have hsettlements : settlements i (.started i entry instant :: log) = settlements i log :=
    List.filterMap_cons_none rfl
  have hsame : ∀ r ∈ m.runs, r.family = entry.family → r = entry := by
    intro r hr hfamily
    exact List.inj_on_of_nodup_map h.seated.families hr hrun hfamily
  refine ⟨h.seated, h.full, ?_, ?_, ?_, ?_⟩
  · rw [hsettlements]
    exact h.placed
  · unfold tasks
    rw [hstarts, hends]
    refine ⟨?_, ?_, ?_, ?_, ?_, ?_⟩
    · rw [List.pairwise_cons]
      refine ⟨?_, h.turns.ordered⟩
      intro e he hfamily
      have hle := h.turns.upTo e he entry hrun hfamily
      have hne := hnew e he
      omega
    · rw [List.map_cons, List.nodup_cons]
      refine ⟨?_, h.turns.once⟩
      intro hmem
      rcases List.mem_map.mp hmem with ⟨e, he, hnumber⟩
      exact hnew e he hnumber
    · intro e he
      rcases List.mem_cons.mp he with rfl | he
      · exact h.seated.early e (List.mem_append_right _ hrun)
      · exact h.turns.begun e he
    · intro e he q hq hfamily
      rcases List.mem_cons.mp he with rfl | he
      · exact h.seated.turn e hrun q hq hfamily
      · exact h.turns.before e he q hq hfamily
    · intro e he r hr hfamily
      rcases List.mem_cons.mp he with rfl | he
      · rw [hsame r hr hfamily]
      · exact h.turns.upTo e he r hr hfamily
    · intro e he
      rcases List.mem_filter.mp he with ⟨he, hgoing⟩
      rcases List.mem_cons.mp he with rfl | he
      · exact hrun
      · exact h.turns.running e (List.mem_filter.mpr ⟨he, hgoing⟩)
  · intro q family completed hq hmem
    exact h.memory q family completed hq ((List.mem_cons.mp hmem).resolve_left (by rintro ⟨⟩))
  · apply h.told.note
    · rintro q family completed hq ⟨⟩
    · rintro q reply hq ⟨⟩

-- The memory of a scheduler changes, and nothing is said of its calls.
theorem Tracked.moves (h : Tracked coordinator i m log) (hseated : m'.Seated) (hfull : m'.Full)
    (hqueue : m'.queue = m.queue) (hruns : m'.runs = m.runs) (hnext : m'.next = m.next)
    (hlast : ∀ family last, (m.families family).lastStart = some last →
      ∃ last', (m'.families family).lastStart = some last' ∧ last ≤ last') : Tracked coordinator i m' log := by
  refine ⟨hseated, hfull, ?_, ?_, ?_, h.told⟩
  · rw [hqueue, hruns, hnext]
    exact h.placed
  · refine ⟨h.turns.ordered, h.turns.once, ?_, ?_, ?_, ?_⟩
    · rw [hnext]
      exact h.turns.begun
    · rw [hqueue]
      exact h.turns.before
    · rw [hruns]
      exact h.turns.upTo
    · rw [hruns]
      exact h.turns.running
  · intro q family completed hq hmem
    rcases h.memory q family completed hq hmem with ⟨last, hfound, hle⟩
    rcases hlast family last hfound with ⟨last', hfound', hle'⟩
    exact ⟨last', hfound', hle.trans hle'⟩

-- A family's state, with as late a start.
theorem Tracked.setFamily (h : Tracked coordinator i m log) {state : FamilyState}
    (hactive : state.active = (m.families family).active)
    (hlast : ∀ last, (m.families family).lastStart = some last →
      ∃ last', state.lastStart = some last' ∧ last ≤ last') :
    Tracked coordinator i (m.setFamily family state) log := by
  refine h.moves (h.seated.setFamily hactive) (h.full.setFamily hactive) rfl rfl rfl ?_
  intro other last hfound
  show ∃ last', (Function.update m.families family state other).lastStart = some last' ∧ last ≤ last'
  by_cases hother : other = family
  · rw [hother, Function.update_self]
    rw [hother] at hfound
    exact hlast last hfound
  · rw [Function.update_of_ne hother]
    exact ⟨last, hfound, Int.le_refl _⟩

theorem Tracked.cool (h : Tracked coordinator i m log) {value : ℤ} :
    Tracked coordinator i (m.cool family value) log :=
  h.setFamily rfl fun last hlast => ⟨last, hlast, Int.le_refl _⟩

theorem Tracked.dies (h : Tracked coordinator i m log) : Tracked coordinator i { m with dead := true } log :=
  h.moves ⟨h.seated.count, h.seated.atMostTwo, h.seated.families, h.seated.active, h.seated.sorted,
    h.seated.early, h.seated.turn⟩ h.full rfl rfl rfl fun _ last hlast => ⟨last, hlast, Int.le_refl _⟩

-- A completion that is no earlier than what was remembered of the family.
theorem Tracked.remember (h : Tracked coordinator i m log)
    {completed : ℤ} (hlater : ∀ last, (m.families family).lastStart = some last → last ≤ completed)
    (hreserved : coordinator = true → ∃ window, .savedCooldown p family window ∈ log) :
    Tracked coordinator i (m.remember family completed) (.remembered p family completed :: log) := by
  have hmoved : Tracked coordinator i (m.remember family completed) log :=
    h.setFamily rfl fun last hlast => ⟨completed, rfl, hlater last hlast⟩
  have hstarts : startsOf i (.remembered p family completed :: log) = startsOf i log :=
    List.filterMap_cons_none rfl
  have hends : (Event.remembered p family completed :: log).filterMap (Event.endIn i) =
      log.filterMap (Event.endIn i) := List.filterMap_cons_none rfl
  have hsettlements : settlements i (.remembered p family completed :: log) = settlements i log :=
    List.filterMap_cons_none rfl
  refine ⟨hmoved.seated, hmoved.full, ?_, ?_, ?_, ?_⟩
  · rw [hsettlements]
    exact hmoved.placed
  · unfold tasks
    rw [hstarts, hends]
    exact hmoved.turns
  · intro q other c hq hmem
    rcases List.mem_cons.mp hmem with heq | hmem
    · cases heq
      refine ⟨completed, ?_, Int.le_refl _⟩
      show (Function.update m.families family _ family).lastStart = some completed
      rw [Function.update_self]
    · exact hmoved.memory q other c hq hmem
  · apply hmoved.told.note
    · rintro q other c hq heq
      cases heq
      exact hreserved
    · rintro q reply hq ⟨⟩

-- The entries that `pump` hands over have started nothing yet.
theorem Turns.pumped {started running : List ScheduledRpcRead} (h : Turns m started running)
    (honward : Memory.Onward m m') : Turns m' started running := by
  refine ⟨h.ordered, h.once, ?_, ?_, ?_, fun e he => honward.runs e (h.running e he)⟩
  · rw [honward.next]
    exact h.begun
  · exact fun e he q hq hfamily => h.before e he q (honward.queue q hq) hfamily
  · intro e he r hr hfamily
    rcases honward.handed r hr with hrun | hqueue
    · exact h.upTo e he r hrun hfamily
    · exact Nat.le_of_lt (h.before e he r hqueue hfamily)

theorem Tracked.schedule (h : Tracked coordinator i m log) (family : String) (gated : Bool) :
    Tracked coordinator i (m.schedule family gated) log := by
  rcases Memory.schedule_spec h.seated family gated with ⟨hseated, hfull, honward⟩
  let entry : ScheduledRpcRead := ⟨m.next, family, gated⟩
  have hpushed : Turns { m with queue := m.queue ++ [entry], next := m.next + 1 } (startsOf i log) (tasks i log) := by
    refine ⟨h.turns.ordered, h.turns.once, ?_, ?_, h.turns.upTo, h.turns.running⟩
    · intro e he
      exact Nat.lt_succ_of_lt (h.turns.begun e he)
    · intro e he q hq hfamily
      rcases List.mem_append.mp hq with hq | hq
      · exact h.turns.before e he q hq hfamily
      · rw [List.mem_singleton.mp hq]
        exact h.turns.begun e he
  have hlast : ((m.queue ++ [entry]) ++ m.runs).Perm (entry :: (m.queue ++ m.runs)) := by
    rw [List.append_assoc]
    exact List.perm_middle
  refine ⟨hseated, hfull, ?_, hpushed.pumped honward, ?_, h.told⟩
  · rw [honward.next]
    refine ((honward.perm.map _).append_right _).trans (((hlast.map _).append_right _).trans ?_)
    show ((entry :: (m.queue ++ m.runs)).map (·.number) ++ settlements i log).Perm (List.range (m.next + 1))
    rw [List.map_cons, List.cons_append, List.range_succ]
    exact (List.Perm.cons _ h.placed).trans (List.perm_append_singleton _ _).symm
  · intro q other completed hq hmem
    rw [honward.lastStart]
    exact h.memory q other completed hq hmem

-- The run of an entry ends, its task over, and its promise settles.
theorem Tracked.finish (h : Tracked coordinator i m log) (hp : p.scheduler = i)
    (hentry : entry ∈ m.runs) (hnumber : entry.number = p.number) {outcome : Except Failure Reply}
    (hover : entry ∉ tasks i log) (hown : ∀ reply, outcome = .ok reply → .ended p (.ok reply) ∈ log ∧
      ∃ family completed, .remembered p family completed ∈ log ∧
        (coordinator = true → .savedStart p family completed ∈ log)) :
    Tracked coordinator i (m.finish entry) (.settled p outcome :: log) := by
  rcases Memory.finish_spec h.seated hentry with ⟨hseated, hfull, honward⟩
  have hstarts : startsOf i (.settled p outcome :: log) = startsOf i log := List.filterMap_cons_none rfl
  have hends : (Event.settled p outcome :: log).filterMap (Event.endIn i) = log.filterMap (Event.endIn i) :=
    List.filterMap_cons_none rfl
  have hsettlements : settlements i (.settled p outcome :: log) = entry.number :: settlements i log := by
    simp [settlements, Event.settleIn, hp, hnumber]
  have hrunning : ∀ e ∈ tasks i log, e ∈ m.runs.erase entry := by
    intro e he
    have hne : e ≠ entry := by
      rintro rfl
      exact hover he
    exact (List.mem_erase_of_ne hne).mpr (h.turns.running e he)
  refine ⟨hseated, hfull, ?_, ?_, ?_, ?_⟩
  · rw [honward.next, hsettlements]
    refine ((honward.perm.map _).append_right _).trans ?_
    show ((m.queue ++ m.runs.erase entry).map (·.number) ++ entry.number :: settlements i log).Perm
      (List.range m.next)
    refine List.perm_middle.trans (List.Perm.trans ?_ h.placed)
    rw [← List.cons_append, ← List.map_cons]
    refine (List.Perm.map _ ?_).append_right _
    exact List.perm_middle.symm.trans (List.Perm.append_left _ (List.perm_cons_erase hentry).symm)
  · unfold tasks
    rw [hstarts, hends]
    refine Turns.pumped ?_ honward
    exact ⟨h.turns.ordered, h.turns.once, h.turns.begun, h.turns.before,
      fun e he r hr hfamily => h.turns.upTo e he r (List.mem_of_mem_erase hr) hfamily, hrunning⟩
  · intro q family completed hq hmem
    rw [honward.lastStart]
    rcases h.memory q family completed hq ((List.mem_cons.mp hmem).resolve_left (by rintro ⟨⟩)) with
      ⟨last, hlast, hle⟩
    refine ⟨last, ?_, hle⟩
    show (Function.update m.families entry.family _ family).lastStart = some last
    by_cases hfamily : family = entry.family
    · rw [hfamily, Function.update_self]
      rw [hfamily] at hlast
      exact hlast
    · rw [Function.update_of_ne hfamily]
      exact hlast
  · apply h.told.note
    · rintro q family completed hq ⟨⟩
    · rintro q reply hq heq
      cases heq
      exact hown reply rfl

end PaymentNode.RpcScheduler
