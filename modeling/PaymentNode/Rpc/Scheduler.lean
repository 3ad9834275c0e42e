import Mathlib.Algebra.Order.Group.Int
import Mathlib.Data.List.Perm.Basic
import Mathlib.Data.List.Nodup
import PaymentNode.Lib.Underway

/-!
# Scheduler — provider requests, two at a time and one per family, paced across processes

`RpcProviderScheduler.schedule`, `pump` and `run`, for any number of schedulers that share one clock and, where
they are given a coordinator, the recorded pacing of each provider family.  Each call of `schedule` is a process:
its first operation pushes the entry and pumps, its next one waits until `pump` hands the entry over, and what it
awaits from there on (the clock, the waits, the gate, the task, the coordinator) answers or fails as it likes.
A scheduler's process can die between any two of its operations.
-/

namespace PaymentNode.RpcScheduler

/-! ## Families, failures and gaps -/

inductive Failure
  | rpcHttp (status : ℤ) (retryAfterMs : Option ℤ)
  | apn (code message : String) (details : List (String × String))
  | other (text : String)
deriving DecidableEq, Repr

def rpcOriginGapMs : ℤ := 750
def pimlicoPublicGapMs : ℤ := 3000
def rpcCrashGuardMs : ℤ := 20000 + pimlicoPublicGapMs
def rpcRetryDelayMs : ℤ := 2000

def transientReasons : List String :=
  ["DNS_deadline", "request_deadline", "request_interrupted", "response_aborted", "response_interrupted"]

def transientTransport : Failure → Bool
  | .apn code _ details =>
    code == "APN_RPC_AMBIGUOUS" &&
      match details.lookup "transportReason" with
      | some reason => transientReasons.contains reason
      | none => false
  | _ => false

/-- `urlHostname` is `new URL(origin).hostname`, where the origin parses. -/
def rpcProviderFamily (urlHostname : String → Option String) (origin : String) : String :=
  match urlHostname origin with
  | none => "invalid-origin"
  | some name =>
    let hostname := name.toLower
    let drpcLabel :=
      if hostname.endsWith ".drpc.org" then hostname.toList.take (hostname.length - ".drpc.org".length) else []
    if hostname = "publicnode.com" ∨ hostname.endsWith ".publicnode.com" then "publicnode.com"
    else if hostname = "drpc.org" ∨ (drpcLabel ≠ [] ∧ '.' ∉ drpcLabel) then "drpc.org"
    else hostname

def familyGap (family : String) : ℤ :=
  if family = "public.pimlico.io" then pimlicoPublicGapMs else rpcOriginGapMs

def schedulerClockRollback (family : String) : Failure :=
  .apn "APN_RPC_CONFIG" "RPC scheduler clock moved backwards."
    [("reason", "rpc_scheduler_clock_rollback"), ("providerFamily", family)]

def coolingDown : Failure :=
  .apn "APN_PROVIDER_UNAVAILABLE" "RPC provider is cooling down." [("reason", "rpc_provider_cooldown")]

inductive CooldownMode
  | wait
  | reject
deriving DecidableEq, Repr

inductive CooldownFailures
  | rateLimit
  | transient
deriving DecidableEq, Repr

/-- What a scheduler is constructed with. -/
structure Setup where
  coordinator : Bool
  cooldownMode : CooldownMode
  cooldownFailures : CooldownFailures
deriving DecidableEq, Repr

/-- `Math.max` of two times, where none is minus infinity. -/
def latest (a b : Option ℤ) : Option ℤ := Option.merge max a b

/-- A time that is not minus infinity lies after `now`. -/
def ahead : Option ℤ → ℤ → Bool
  | none, _ => false
  | some u, now => decide (now < u)

def msUntil : Option ℤ → ℤ → ℤ
  | none, _ => 0
  | some u, now => max 0 (u - now)

/-- When the family is free again after a task that ended so at `completed`. -/
def cooldownAfter {Reply : Type} (setup : Setup) (answer : Except Failure Reply) (completed : ℤ) : ℤ :=
  match answer with
  | .ok _ => completed
  | .error failure =>
    let transportCooldown := setup.cooldownFailures == .transient && transientTransport failure
    match failure with
    | .rpcHttp status retryAfterMs =>
      let httpCooldown := status == 429 || setup.cooldownFailures == .transient && 500 ≤ status && status ≤ 599
      let effectiveCooldown :=
        if status = 429 then min 30000 (max rpcRetryDelayMs (retryAfterMs.getD 0)) else 5000
      if httpCooldown || transportCooldown then completed + effectiveCooldown else completed
    | _ => if transportCooldown then completed + 5000 else completed

/-! ## The scheduler's memory -/

structure ScheduledRpcRead where
  number : ℕ
  family : String
  /-- `beforeStart` is given. -/
  gated : Bool
deriving DecidableEq, Repr

structure FamilyState where
  active : Bool := false
  lastStart : Option ℤ := none
  cooldownUntil : Option ℤ := none
deriving DecidableEq, Repr

/-- `families`, `queue` and `active` of one scheduler; beside them the entries whose `run` is going, how many
calls it has had, and whether its process is gone. -/
structure Memory where
  families : String → FamilyState := fun _ => {}
  queue : List ScheduledRpcRead := []
  active : ℕ := 0
  runs : List ScheduledRpcRead := []
  next : ℕ := 0
  dead : Bool := false

namespace Memory

def idle (m : Memory) (entry : ScheduledRpcRead) : Bool := !(m.families entry.family).active

def setFamily (m : Memory) (family : String) (state : FamilyState) : Memory :=
  { m with families := Function.update m.families family state }

/-- One turn of `pump`'s loop: the first entry of an idle family is spliced out, and its run begins. -/
def takeNext (m : Memory) : Option Memory :=
  (m.queue.find? m.idle).map fun entry =>
    { m.setFamily entry.family { m.families entry.family with active := true } with
      queue := m.queue.eraseP m.idle
      active := m.active + 1
      runs := entry :: m.runs }

/-- The loop `while (this.active < 2)`, which has as many turns as there are free slots. -/
def pumpTimes : ℕ → Memory → Memory
  | 0, m => m
  | slots + 1, m =>
    match m.takeNext with
    | none => m
    | some m' => pumpTimes slots m'

def pump (m : Memory) : Memory := pumpTimes (2 - m.active) m

def schedule (m : Memory) (family : String) (gated : Bool) : Memory :=
  pump { m with queue := m.queue ++ [⟨m.next, family, gated⟩], next := m.next + 1 }

/-- The run of an entry is over, and its slot is given away. -/
def finish (m : Memory) (entry : ScheduledRpcRead) : Memory :=
  pump { m.setFamily entry.family { m.families entry.family with active := false } with
    active := m.active - 1
    runs := m.runs.erase entry }

def remember (m : Memory) (family : String) (completed : ℤ) : Memory :=
  m.setFamily family { m.families family with lastStart := some completed }

def cool (m : Memory) (family : String) (cooldownUntil : ℤ) : Memory :=
  m.setFamily family { m.families family with cooldownUntil := some cooldownUntil }

end Memory

/-! ## One call of `schedule`, as a program -/

section Program

variable {Reply : Type}

inductive RpcOp (Reply : Type)
  | schedule (family : String) (gated : Bool)
  | handOver
  | coordinate (family : String)
  | release (family : String)
  | readFamily (family : String)
  | now
  | beforeWait (ms : ℤ)
  | wait (ms : ℤ)
  | beforeStart
  | saveStart (family : String) (value : ℤ)
  | saveCooldownUntil (family : String) (value : ℤ)
  | startTask (entry : ScheduledRpcRead)
  | endTask
  | remember (family : String) (completed : ℤ)
  | cool (family : String) (cooldownUntil : ℤ)
  | finish (entry : ScheduledRpcRead) (outcome : Except Failure Reply)

def RpcOp.Answer : RpcOp Reply → Type
  | schedule _ _ | handOver | startTask _ | remember _ _ | cool _ _ | finish _ _ => Unit
  | readFamily _ => FamilyState
  | now => Except Failure ℤ
  | coordinate _ => Except Failure (Option ℤ × Option ℤ)
  | endTask => Except Failure Reply
  | release _ | beforeWait _ | wait _ | beforeStart | saveStart _ _ | saveCooldownUntil _ _ => Except Failure Unit

abbrev RpcProg (Reply α : Type) := Prog (RpcOp Reply) RpcOp.Answer Failure α

def call {α : Type} (o : RpcOp Reply) (h : o.Answer = Except Failure α) : RpcProg Reply α := Prog.run o h

def clock : RpcProg Reply ℤ := call .now rfl

def readFamily (family : String) : RpcProg Reply FamilyState := Prog.perform (RpcOp.readFamily family)

/-- The task is called, and its promise settles. -/
def runTask (entry : ScheduledRpcRead) : RpcProg Reply (Except Failure Reply) :=
  (Prog.perform (RpcOp.startTask entry)).bind fun _ => Prog.perform RpcOp.endTask

/-- Without a coordinator there is nothing to save. -/
def saveStart (setup : Setup) (family : String) (value : ℤ) : RpcProg Reply Unit :=
  if setup.coordinator then call (.saveStart family value) rfl else .ret ()

def saveCooldownUntil (setup : Setup) (family : String) (value : ℤ) : RpcProg Reply Unit :=
  if setup.coordinator then call (.saveCooldownUntil family value) rfl else .ret ()

/-- The clock has not run back behind the last start, and the family is not cooling down. -/
def enter (setup : Setup) (entry : ScheduledRpcRead) (lastStart cooldownUntil : Option ℤ) : RpcProg Reply ℤ :=
  clock.bind fun before =>
    if ahead lastStart before then .fail (schedulerClockRollback entry.family)
    else if setup.cooldownMode = .reject ∧ ahead cooldownUntil before then .fail coolingDown
    else .ret before

def pause (delay : ℤ) : RpcProg Reply Unit :=
  (call (.beforeWait delay) rfl).bind fun _ =>
    if 0 < delay then call (.wait delay) rfl else .ret ()

/-- After the wait: a persisted coordinator must still reach the exact boundary. -/
def reachBoundary (entry : ScheduledRpcRead) (exact : Bool) (nextAllowed : Option ℤ) (before : ℤ) :
    RpcProg Reply ℤ :=
  clock.bind fun current =>
    if current < before then .fail (schedulerClockRollback entry.family)
    else if exact && ahead nextAllowed current then
      (call (.beforeWait (msUntil nextAllowed current)) rfl).bind fun _ =>
        (call (.wait (msUntil nextAllowed current)) rfl).bind fun _ =>
          clock.bind fun rechecked =>
            if rechecked ≤ current ∨ ahead nextAllowed rechecked then .fail (schedulerClockRollback entry.family)
            else .ret rechecked
    else .ret current

def passGate (entry : ScheduledRpcRead) (current : ℤ) : RpcProg Reply ℤ :=
  if entry.gated then
    (call .beforeStart rfl).bind fun _ =>
      clock.bind fun gated =>
        if gated < current then .fail (schedulerClockRollback entry.family) else .ret gated
  else .ret current

/-- The completion anchors the next start, in memory first and then on record. -/
def recordCompletion (setup : Setup) (entry : ScheduledRpcRead) (answer : Except Failure Reply) (completed : ℤ) :
    RpcProg Reply Unit :=
  (Prog.perform (RpcOp.remember entry.family completed)).bind fun _ =>
    (saveStart setup entry.family completed).bind fun _ =>
      (Prog.perform (RpcOp.cool entry.family (cooldownAfter setup answer completed))).bind fun _ =>
        saveCooldownUntil setup entry.family (cooldownAfter setup answer completed)

/-- A window is reserved before the transport, and replaced once its end is on record. -/
def transport (setup : Setup) (entry : ScheduledRpcRead) (current : ℤ) : RpcProg Reply Reply :=
  (saveCooldownUntil setup entry.family (current + rpcCrashGuardMs)).bind fun _ =>
    (runTask entry).bind fun answer =>
      clock.bind fun completed =>
        if completed < current then .fail (schedulerClockRollback entry.family)
        else (recordCompletion setup entry answer completed).bind fun _ => Prog.ofExcept answer

def execute (setup : Setup) (entry : ScheduledRpcRead) (persisted persistedCooldown : Option ℤ) :
    RpcProg Reply Reply :=
  (readFamily entry.family).bind fun state =>
    let lastStart := latest state.lastStart persisted
    let cooldownUntil := latest state.cooldownUntil persistedCooldown
    let nextAllowed := latest (lastStart.map (· + familyGap entry.family)) cooldownUntil
    (enter setup entry lastStart cooldownUntil).bind fun before =>
      (pause (msUntil nextAllowed before)).bind fun _ =>
        (reachBoundary entry (persisted.isSome || persistedCooldown.isSome) nextAllowed before).bind fun current =>
          (passGate entry current).bind fun current =>
            transport setup entry current

/-- The coordinator hands over what is recorded, under the family's lock. -/
def coordinated (setup : Setup) (entry : ScheduledRpcRead) : RpcProg Reply Reply :=
  if setup.coordinator then
    (call (.coordinate entry.family) rfl).bind fun recorded =>
      (execute setup entry recorded.1 recorded.2).finally' (call (.release entry.family) rfl)
  else execute setup entry none none

def run (setup : Setup) (entry : ScheduledRpcRead) : RpcProg Reply Unit :=
  (Prog.attempt (coordinated setup entry)).bind fun outcome => Prog.perform (RpcOp.finish entry outcome)

/-- `schedule` pushes and pumps; `pump` starts the run, now or later. -/
def schedule (setup : Setup) (number : ℕ) (family : String) (gated : Bool) : RpcProg Reply Unit :=
  (Prog.perform (RpcOp.schedule family gated)).bind fun _ =>
    (Prog.perform RpcOp.handOver).bind fun _ =>
      run setup ⟨number, family, gated⟩

end Program

/-! ## What the operations do -/

/-- The `number`-th call of a scheduler. -/
structure Ticket where
  scheduler : ℕ
  number : ℕ
deriving DecidableEq, Repr

inductive Event (Reply : Type)
  | started (scheduler : ℕ) (entry : ScheduledRpcRead) (instant : ℤ)
  | ended (p : Ticket) (answer : Except Failure Reply)
  | remembered (p : Ticket) (family : String) (completed : ℤ)
  | savedStart (p : Ticket) (family : String) (value : ℤ)
  | savedCooldown (p : Ticket) (family : String) (value : ℤ)
  | settled (p : Ticket) (outcome : Except Failure Reply)

/-- The clock, the schedulers, the families' locks, and what has happened, newest first: the last write of a
family's start or cooldown is what is recorded of it. -/
structure World (Reply : Type) where
  clock : ℤ
  schedulers : ℕ → Memory
  locks : String → Option Ticket
  log : List (Event Reply)

section Semantics

variable {Reply : Type}

def Event.startOf (family : String) : Event Reply → Option ℤ
  | .savedStart _ written value => if written = family then some value else none
  | _ => none

def Event.cooldownOf (family : String) : Event Reply → Option ℤ
  | .savedCooldown _ written value => if written = family then some value else none
  | _ => none

/-- The recorded completion of a family. -/
def recordedStart (family : String) (log : List (Event Reply)) : Option ℤ := log.findSome? (Event.startOf family)

def recordedCooldown (family : String) (log : List (Event Reply)) : Option ℤ :=
  log.findSome? (Event.cooldownOf family)

namespace World

def fresh : World Reply := ⟨0, fun _ => {}, fun _ => none, []⟩

def note (s : World Reply) (event : Event Reply) : World Reply := { s with log := event :: s.log }

def set (s : World Reply) (i : ℕ) (m : Memory) : World Reply :=
  { s with schedulers := Function.update s.schedulers i m }

def lock (s : World Reply) (family : String) (holder : Option Ticket) : World Reply :=
  { s with locks := Function.update s.locks family holder }

end World

def Live (p : Ticket) (s : World Reply) : Prop := (s.schedulers p.scheduler).dead = false

/-- A write that fails may have been made. -/
def Written (answer : Except Failure Unit) (s t : World Reply) (event : Event Reply) : Prop :=
  t = s.note event ∨ (∃ failure, answer = .error failure) ∧ t = s

def effect (p : Ticket) (s : World Reply) : (o : RpcOp Reply) → o.Answer → World Reply → Prop
  | .schedule family gated, _, t =>
    (s.schedulers p.scheduler).next = p.number ∧
      t = s.set p.scheduler ((s.schedulers p.scheduler).schedule family gated)
  | .handOver, _, t => (∃ entry ∈ (s.schedulers p.scheduler).runs, entry.number = p.number) ∧ t = s
  | .coordinate family, answer, t =>
    match (answer : Except Failure (Option ℤ × Option ℤ)) with
    | .ok recorded =>
      s.locks family = none ∧ recorded = (recordedStart family s.log, recordedCooldown family s.log) ∧
        t = s.lock family (some p)
    | .error _ => t = s
  | .release family, answer, t =>
    t = s.lock family (System.dropped p (s.locks family)) ∨
      (∃ failure, (answer : Except Failure Unit) = .error failure) ∧ t = s
  | .readFamily family, answer, t => t = s ∧ (answer : FamilyState) = (s.schedulers p.scheduler).families family
  | .now, answer, t => t = s ∧ ∀ v, (answer : Except Failure ℤ) = .ok v → v = s.clock
  | .beforeWait _, _, t | .wait _, _, t | .beforeStart, _, t => t = s
  | .saveStart family value, answer, t => Written answer s t (.savedStart p family value)
  | .saveCooldownUntil family value, answer, t => Written answer s t (.savedCooldown p family value)
  | .startTask entry, _, t => t = s.note (.started p.scheduler entry s.clock)
  | .endTask, answer, t => t = s.note (.ended p answer)
  | .remember family completed, _, t =>
    t = (s.set p.scheduler ((s.schedulers p.scheduler).remember family completed)).note
      (.remembered p family completed)
  | .cool family value, _, t => t = s.set p.scheduler ((s.schedulers p.scheduler).cool family value)
  | .finish entry outcome, _, t =>
    t = (s.set p.scheduler ((s.schedulers p.scheduler).finish entry)).note (.settled p outcome)

/-- Time passes, a scheduler's process dies, and a lock it left is freed. -/
inductive Passes (s : World Reply) : World Reply → Prop
  | tick (now : ℤ) : s.clock ≤ now → Passes s { s with clock := now }
  | dies (i : ℕ) : Passes s (s.set i { s.schedulers i with dead := true })
  | frees (family : String) (p : Ticket) : s.locks family = some p → ¬ Live p s → Passes s (s.lock family none)

def system : System (RpcOp Reply) RpcOp.Answer (World Reply) Ticket where
  exec p s o a t := Live p s ∧ effect p s o a t
  crash _ _ _ := False
  env := Passes

/-- Every scheduler is constructed somehow, and every call names an origin. -/
def rpcEntry (setups : ℕ → Setup) (urlHostname : String → Option String) (p : Ticket) (prog : RpcProg Reply Unit) :
    Prop :=
  ∃ origin gated, prog = schedule (setups p.scheduler) p.number (rpcProviderFamily urlHostname origin) gated

end Semantics
end PaymentNode.RpcScheduler
