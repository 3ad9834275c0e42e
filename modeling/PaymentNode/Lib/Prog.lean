import PaymentNode.Lib.Runs

/-!
# Prog — programs over atomic operations, their interleavings, and a rule for all of them

A `Prog` is a program that performs operations one at a time and continues with each answer; it may return
or throw.  A `System` says what an operation may do to a shared state, what the death of a process does to it,
and what else may change it.  `Step` interleaves any number of processes, each of which can be killed between
any two of its operations.

`wp` is the weakest precondition of a program under interference: before each operation the others may have
taken any steps they are allowed (`rely`), and each operation must keep the invariant and be a step the others
allow for.  It composes along the program's own structure (`wp_bind`, `wp_handle`), and `invariant_of_wp`
turns it into an invariant of every reachable configuration.  With nothing to rely on it is the ordinary
weakest precondition of a sequential program that can crash anywhere.
-/

/-- A program over operations `ω` with answers `A`, that throws `ε` or returns `α`. -/
inductive Prog (ω : Type) (A : ω → Type) (ε α : Type) : Type
  | ret (a : α)
  | fail (e : ε)
  | op (o : ω) (k : A o → Prog ω A ε α)

namespace Prog

variable {ω : Type} {A : ω → Type} {ε α β γ : Type}

def bind (x : Prog ω A ε α) (f : α → Prog ω A ε β) : Prog ω A ε β :=
  match x with
  | ret a => f a
  | fail e => fail e
  | op o k => op o fun a => (k a).bind f

/-- `try x catch e => h e`. -/
def handle (x : Prog ω A ε α) (h : ε → Prog ω A ε α) : Prog ω A ε α :=
  match x with
  | ret a => ret a
  | fail e => h e
  | op o k => op o fun a => (k a).handle h

instance : Monad (Prog ω A ε) where
  pure := ret
  bind := bind

/-- One operation, with its answer. -/
def perform (o : ω) : Prog ω A ε (A o) := op o ret

def ofExcept : Except ε α → Prog ω A ε α
  | .ok a => .ret a
  | .error e => .fail e

/-- An operation whose failure is thrown. -/
def run (o : ω) (h : A o = Except ε α) : Prog ω A ε α :=
  (perform o).bind fun answer => ofExcept (h ▸ answer)

/-- The outcome of a program, thrown or returned, as a value. -/
def attempt (x : Prog ω A ε α) : Prog ω A ε (Except ε α) :=
  (x.bind fun a => ret (.ok a)).handle fun e => ret (.error e)

/-- Up to `n` operations of a program, each answered by a strategy. -/
def play {σ : Type} (answer : σ → (o : ω) → A o × σ) : Nat → Prog ω A ε α → σ → Prog ω A ε α × σ
  | n + 1, op o k, s => play answer n (k (answer s o).1) (answer s o).2
  | _, x, s => (x, s)

/-- A program run to its end, alone. -/
def eval {σ : Type} (answer : σ → (o : ω) → A o × σ) : Prog ω A ε α → σ → Except ε α × σ
  | ret a, s => (.ok a, s)
  | fail e, s => (.error e, s)
  | op o k, s => eval answer (k (answer s o).1) (answer s o).2

/-- The first `n` operations, answered so, pass a check. -/
def checked {σ : Type} (check : σ → ω → Bool) (answer : σ → (o : ω) → A o × σ) : Nat → Prog ω A ε α → σ → Bool
  | n + 1, op o k, s => check s o && checked check answer n (k (answer s o).1) (answer s o).2
  | _, _, _ => true

theorem checked_true {σ : Type} {answer : σ → (o : ω) → A o × σ} {n : Nat} {s : σ} (x : Prog ω A ε α) :
    x.checked (fun _ _ => true) answer n s = true := by
  induction n generalizing x s with
  | zero => cases x <;> rfl
  | succ n ih =>
    cases x with
    | ret a => rfl
    | fail e => rfl
    | op o k => exact ih (k (answer s o).1)

/-- `try x finally y`: `y` runs after `x` however it ended, and `x`'s ending stands. -/
def finally' (x : Prog ω A ε α) (y : Prog ω A ε Unit) : Prog ω A ε α :=
  (x.handle fun e => y.bind fun _ => fail e).bind fun a => y.bind fun _ => ret a

end Prog

/-- What the operations of each process `π` do to a shared state `σ`. -/
structure System (ω : Type) (A : ω → Type) (σ π : Type) where
  exec : π → σ → (o : ω) → A o → σ → Prop
  crash : π → σ → σ → Prop
  env : σ → σ → Prop

namespace System

variable {ω : Type} {A : ω → Type} {ε σ π : Type}

/-- The shared state, and what is left to do of each process that is running. -/
structure Config (ω : Type) (A : ω → Type) (ε σ π : Type) where
  shared : σ
  procs : π → Option (Prog ω A ε Unit)

inductive Label (ω : Type) (A : ω → Type) (ε π : Type)
  | start (p : π) (prog : Prog ω A ε Unit)
  | act (p : π) (o : ω) (a : A o)
  | finish (p : π)
  | crash (p : π)
  | env

variable {S : System ω A σ π} {p : π} {answer : σ → (o : ω) → A o × σ} {s t : σ}

/-- `p`'s program, run from `s` to its end in `t`, the environment acting in between. -/
inductive Ends {α : Type} (S : System ω A σ π) (p : π) :
    Prog ω A ε α → σ → Except ε α → σ → Prop
  | ret (a : α) (s : σ) : Ends S p (.ret a) s (.ok a) s
  | fail (e : ε) (s : σ) : Ends S p (.fail e) s (.error e) s
  | op {o : ω} {k : A o → Prog ω A ε α} {a : A o} {s t u : σ} {r : Except ε α} :
      S.exec p s o a t → Ends S p (k a) t r u → Ends S p (.op o k) s r u
  | env {x : Prog ω A ε α} {s t u : σ} {r : Except ε α} :
      S.env s t → Ends S p x t r u → Ends S p x s r u

/-- A program whose answers follow a strategy the system allows ends as it evaluates. -/
theorem ends_eval {α : Type}
    (hanswer : ∀ s o, S.exec p s o (answer s o).1 (answer s o).2) (x : Prog ω A ε α) (s : σ) :
    Ends S p x s (x.eval answer s).1 (x.eval answer s).2 := by
  induction x generalizing s with
  | ret a => exact Ends.ret a s
  | fail e => exact Ends.fail e s
  | op o k ih => exact Ends.op (hanswer s o) (ih (answer s o).1 (answer s o).2)

theorem Ends.perform {o : ω} {a : A o} {s t : σ} (h : S.exec p s o a t) :
    Ends S p (Prog.perform o : Prog ω A ε (A o)) s (.ok a) t :=
  Ends.op h (Ends.ret a t)

theorem Ends.bind {α β : Type} {x : Prog ω A ε α} {f : α → Prog ω A ε β} {a : α}
    {s t u : σ} {r : Except ε β} (hx : Ends S p x s (.ok a) t) (hf : Ends S p (f a) t r u) :
    Ends S p (x.bind f) s r u := by
  generalize hr : (Except.ok a : Except ε α) = result at hx
  induction hx with
  | ret b s =>
    cases hr
    exact hf
  | fail e s => cases hr
  | op hexec _ ih => exact Ends.op hexec (ih hf hr)
  | env hstep _ ih => exact Ends.env hstep (ih hf hr)

theorem Ends.attempt {α : Type} {x : Prog ω A ε α} {s t : σ} {r : Except ε α}
    (hx : Ends S p x s r t) : Ends S p x.attempt s (.ok r) t := by
  induction hx with
  | ret a s => exact Ends.ret (Except.ok a) s
  | fail e s => exact Ends.ret (Except.error e) s
  | op hexec _ ih => exact Ends.op hexec ih
  | env hstep _ ih => exact Ends.env hstep ih

variable [DecidableEq π]

/-- What one process at a time holds, given up by `p` and by nobody else. -/
def dropped (p : π) (holder : Option π) : Option π := if holder = some p then none else holder

theorem dropped_ne {p q : π} {holder : Option π} (hne : q ≠ p) (h : holder = some q) :
    dropped p holder = some q := by
  unfold dropped
  rw [h, if_neg]
  intro heq
  exact hne (Option.some.inj heq)

theorem dropped_isSome {holder : Option π} (h : (dropped p holder).isSome) :
    holder.isSome := by
  unfold dropped at h
  split at h
  · cases h
  · exact h

/-- One step of one process, a death, or a step of the environment. -/
inductive Step (S : System ω A σ π) (entry : π → Prog ω A ε Unit → Prop) :
    Config ω A ε σ π → Label ω A ε π → Config ω A ε σ π → Prop
  | start (c : Config ω A ε σ π) (p : π) (prog : Prog ω A ε Unit) :
      c.procs p = none → entry p prog →
      Step S entry c (.start p prog) { c with procs := Function.update c.procs p (some prog) }
  | act (c : Config ω A ε σ π) (p : π) (o : ω) (k : A o → Prog ω A ε Unit) (a : A o) (t : σ) :
      c.procs p = some (.op o k) → S.exec p c.shared o a t →
      Step S entry c (.act p o a) ⟨t, Function.update c.procs p (some (k a))⟩
  | returned (c : Config ω A ε σ π) (p : π) :
      c.procs p = some (.ret ()) →
      Step S entry c (.finish p) { c with procs := Function.update c.procs p none }
  | threw (c : Config ω A ε σ π) (p : π) (e : ε) :
      c.procs p = some (.fail e) →
      Step S entry c (.finish p) { c with procs := Function.update c.procs p none }
  | crash (c : Config ω A ε σ π) (p : π) (prog : Prog ω A ε Unit) (t : σ) :
      c.procs p = some prog → S.crash p c.shared t →
      Step S entry c (.crash p) ⟨t, Function.update c.procs p none⟩
  | env (c : Config ω A ε σ π) (t : σ) :
      S.env c.shared t → Step S entry c .env { c with shared := t }

def idle (s : σ) : Config ω A ε σ π := ⟨s, fun _ => none⟩

variable {entry : π → Prog ω A ε Unit → Prop}

/-- A process can follow any strategy whose answers the system allows, where it meets the operations that `x`
does. -/
theorem run_play_checked {check : σ → ω → Bool} {I : σ → Prop}
    (hanswer : ∀ s o, I s → check s o → S.exec p s o (answer s o).1 (answer s o).2 ∧ I (answer s o).2)
    (n : Nat) (procs : π → Option (Prog ω A ε Unit)) (x : Prog ω A ε Unit) (s : σ) (hs : I s)
    (hchecked : x.checked check answer n s) :
    ∃ labels, Runs.Run (Step S entry) ⟨s, Function.update procs p (some x)⟩ labels
      ⟨(x.play answer n s).2, Function.update procs p (some (x.play answer n s).1)⟩ ∧
      I (x.play answer n s).2 := by
  induction n generalizing x s with
  | zero => exact ⟨[], by cases x <;> exact ⟨Runs.Run.refl, hs⟩⟩
  | succ n ih =>
    cases x with
    | ret a => exact ⟨[], Runs.Run.refl, hs⟩
    | fail e => exact ⟨[], Runs.Run.refl, hs⟩
    | op o k =>
      rcases Bool.and_eq_true_iff.mp hchecked with ⟨hcheck, hrest⟩
      rcases hanswer s o hs hcheck with ⟨hexec, hnext⟩
      rcases ih (k (answer s o).1) (answer s o).2 hnext hrest with ⟨labels, hrun, hend⟩
      have hstep : Step S entry _ _ _ :=
        Step.act ⟨s, Function.update procs p (some (Prog.op o k))⟩ p o k _ _ (by simp) hexec
      rw [Function.update_idem] at hstep
      exact ⟨_ :: labels, Runs.Run.cons hstep hrun, hend⟩

theorem run_play (hanswer : ∀ s o, S.exec p s o (answer s o).1 (answer s o).2) (n : Nat)
    (procs : π → Option (Prog ω A ε Unit)) (x : Prog ω A ε Unit) (s : σ) :
    ∃ labels, Runs.Run (Step S entry) ⟨s, Function.update procs p (some x)⟩ labels
      ⟨(x.play answer n s).2, Function.update procs p (some (x.play answer n s).1)⟩ := by
  have hall : ∀ s o, True → (fun _ _ => true : σ → ω → Bool) s o →
      S.exec p s o (answer s o).1 (answer s o).2 ∧ True := fun s o _ _ => ⟨hanswer s o, trivial⟩
  have hplayed : ∃ labels, Runs.Run (Step S entry) _ labels _ ∧ True :=
    run_play_checked hall n procs x s trivial x.checked_true
  rcases hplayed with ⟨labels, hrun, -⟩
  exact ⟨labels, hrun⟩

/-- What a schedule lets happen next: a process begins, or does up to `n` of its operations. -/
inductive Turn (ω : Type) (A : ω → Type) (ε π : Type)
  | begins (p : π) (prog : Prog ω A ε Unit)
  | goesOn (p : π) (n : Nat)

def takeTurn (answer : π → σ → (o : ω) → A o × σ) (c : Config ω A ε σ π) :
    Turn ω A ε π → Config ω A ε σ π
  | .begins p prog =>
    match c.procs p with
    | none => { c with procs := Function.update c.procs p (some prog) }
    | some _ => c
  | .goesOn p n =>
    match c.procs p with
    | none => c
    | some x => ⟨(x.play (answer p) n c.shared).2,
        Function.update c.procs p (some (x.play (answer p) n c.shared).1)⟩

/-- Any schedule of processes that follow strategies the system allows, as long as an invariant holds that their
answers keep, is a run. -/
theorem run_turns_kept {answer : π → σ → (o : ω) → A o × σ} {I : σ → Prop}
    (hanswer : ∀ p s o, I s → S.exec p s o (answer p s o).1 (answer p s o).2 ∧ I (answer p s o).2)
    (turns : List (Turn ω A ε π)) (hentry : ∀ p prog, .begins p prog ∈ turns → entry p prog)
    (c : Config ω A ε σ π) (hc : I c.shared) :
    ∃ labels, Runs.Run (Step S entry) c labels (turns.foldl (takeTurn answer) c) := by
  induction turns generalizing c with
  | nil => exact ⟨[], Runs.Run.refl⟩
  | cons turn turns ih =>
    have hone : (∃ labels, Runs.Run (Step S entry) c labels (takeTurn answer c turn)) ∧
        I (takeTurn answer c turn).shared := by
      cases turn with
      | begins p prog =>
        cases hproc : c.procs p with
        | none =>
          have hnext : takeTurn answer c (.begins p prog) =
              { c with procs := Function.update c.procs p (some prog) } := by
            simp only [takeTurn, hproc]
          rw [hnext]
          exact ⟨⟨_, Runs.Run.cons
            (Step.start c p prog hproc (hentry p prog List.mem_cons_self)) Runs.Run.refl⟩, hc⟩
        | some x =>
          have hnext : takeTurn answer c (.begins p prog) = c := by simp only [takeTurn, hproc]
          rw [hnext]
          exact ⟨⟨[], Runs.Run.refl⟩, hc⟩
      | goesOn p n =>
        cases hproc : c.procs p with
        | none =>
          have hnext : takeTurn answer c (.goesOn p n) = c := by simp only [takeTurn, hproc]
          rw [hnext]
          exact ⟨⟨[], Runs.Run.refl⟩, hc⟩
        | some x =>
          have hnext : takeTurn answer c (.goesOn p n) = ⟨(x.play (answer p) n c.shared).2,
              Function.update c.procs p (some (x.play (answer p) n c.shared).1)⟩ := by
            simp only [takeTurn, hproc]
          have hstrategy : ∀ s o, I s → (fun _ _ => true : σ → ω → Bool) s o →
              S.exec p s o (answer p s o).1 (answer p s o).2 ∧ I (answer p s o).2 :=
            fun s o hs _ => hanswer p s o hs
          have hplayed : ∃ labels, Runs.Run (Step S entry) _ labels _ ∧ I _ :=
            run_play_checked hstrategy n c.procs x c.shared hc x.checked_true
          rcases hplayed with ⟨labels, hrun, hend⟩
          rw [← hproc, Function.update_eq_self] at hrun
          rw [hnext]
          exact ⟨⟨labels, hrun⟩, hend⟩
    rcases hone with ⟨⟨labels, hfirst⟩, hnext⟩
    rcases ih (fun p prog h => hentry p prog (List.mem_cons_of_mem _ h)) (takeTurn answer c turn) hnext with
      ⟨labels', hrest⟩
    exact ⟨labels ++ labels', hfirst.append hrest⟩

theorem run_turns {answer : π → σ → (o : ω) → A o × σ}
    (hanswer : ∀ p s o, S.exec p s o (answer p s o).1 (answer p s o).2)
    (turns : List (Turn ω A ε π)) (hentry : ∀ p prog, .begins p prog ∈ turns → entry p prog)
    (c : Config ω A ε σ π) :
    ∃ labels, Runs.Run (Step S entry) c labels (turns.foldl (takeTurn answer) c) :=
  run_turns_kept (I := fun _ => True) (fun p s o _ => ⟨hanswer p s o, trivial⟩) turns hentry c trivial

/-- One program of the only process: how its operations are answered, and after how many it stops. -/
structure Call (ω : Type) (A : ω → Type) (ε σ : Type) where
  prog : Prog ω A ε Unit
  answer : σ → (o : ω) → A o × σ
  operations : Nat

def Call.after (call : Call ω A ε σ) (s : σ) : σ := (call.prog.play call.answer call.operations s).2

/-- Every operation the calls do passes a check. -/
def checkedCalls (check : σ → ω → Bool) : List (Call ω A ε σ) → σ → Bool
  | [], _ => true
  | call :: calls, s =>
    call.prog.checked check call.answer call.operations s && checkedCalls check calls (call.after s)

theorem checkedCalls_true (calls : List (Call ω A ε σ)) (s : σ) :
    checkedCalls (fun _ _ => true) calls s = true := by
  induction calls generalizing s with
  | nil => rfl
  | cons call calls ih => simp [checkedCalls, Prog.checked_true, ih]

/-- Any calls one after another, each stopped anywhere, are a run, where their answers are allowed. -/
theorem run_calls_checked {S : System ω A σ Unit} {entry : Unit → Prog ω A ε Unit → Prop}
    {check : σ → ω → Bool} {I : σ → Prop} (hcrash : ∀ s, S.crash () s s) (calls : List (Call ω A ε σ))
    (hcalls : ∀ call ∈ calls, entry () call.prog ∧ ∀ s o, I s → check s o →
      S.exec () s o (call.answer s o).1 (call.answer s o).2 ∧ I (call.answer s o).2)
    (s : σ) (hs : I s) (hchecked : checkedCalls check calls s) :
    ∃ labels, Runs.Run (Step S entry) (idle s) labels
      (idle (calls.foldl (fun s call => call.after s) s)) := by
  induction calls generalizing s with
  | nil => exact ⟨[], Runs.Run.refl⟩
  | cons call calls ih =>
    rcases hcalls call List.mem_cons_self with ⟨hentry, hanswer⟩
    rcases Bool.and_eq_true_iff.mp hchecked with ⟨hcheck, hothers⟩
    rcases run_play_checked (S := S) hanswer call.operations (fun _ => none) call.prog s hs hcheck with
      ⟨labels, hplay, hafter⟩
    have hstart : Step S entry (idle s) _ _ := Step.start (idle s) () call.prog rfl hentry
    have hidle : ∀ x : Option (Prog ω A ε Unit),
        Function.update (Function.update (fun _ : Unit => none) () x) () none = fun _ => none := by
      intro x
      rw [Function.update_idem]
      simp
    have hstopped : Function.update (fun _ : Unit => none) ()
        (some (call.prog.play call.answer call.operations s).1) () =
          some (call.prog.play call.answer call.operations s).1 := Function.update_self _ _ _
    have hend : Step S entry _ _ _ :=
      Step.crash ⟨call.after s, Function.update (fun _ => none) () _⟩ () _ (call.after s) hstopped
        (hcrash _)
    rw [hidle] at hend
    rcases ih (fun call h => hcalls call (List.mem_cons_of_mem _ h)) (call.after s) hafter hothers with
      ⟨labels', hrest⟩
    exact ⟨_, Runs.Run.cons hstart (hplay.append (Runs.Run.cons hend hrest))⟩

theorem run_calls {S : System ω A σ Unit} {entry : Unit → Prog ω A ε Unit → Prop}
    (hcrash : ∀ s, S.crash () s s) (calls : List (Call ω A ε σ))
    (hcalls : ∀ call ∈ calls, entry () call.prog ∧
      ∀ s o, S.exec () s o (call.answer s o).1 (call.answer s o).2) (s : σ) :
    ∃ labels, Runs.Run (Step S entry) (idle s) labels
      (idle (calls.foldl (fun s call => call.after s) s)) :=
  run_calls_checked (I := fun _ => True) hcrash calls
    (fun call h => ⟨(hcalls call h).1, fun s o _ _ => ⟨(hcalls call h).2 s o, trivial⟩⟩) s trivial
    (checkedCalls_true calls s)

end System

/-- An invariant of the shared state, and the steps each process lets the others take. -/
structure Discipline (σ π : Type) where
  inv : σ → Prop
  rely : π → σ → σ → Prop

namespace Discipline

variable {ω : Type} {A : ω → Type} {ε σ π α β : Type}

/-- A step of the others that `p` allows for, between states under the invariant. -/
def Interferes (D : Discipline σ π) (p : π) (s t : σ) : Prop :=
  D.inv s ∧ D.inv t ∧ D.rely p s t

/-- A step of `p` that keeps the invariant and that every other process allows for. -/
def Keeps (D : Discipline σ π) (p : π) (s t : σ) : Prop :=
  D.inv t ∧ ∀ q, q ≠ p → D.rely q s t

/-- A fact `p` may hold on to: no step it allows for takes it away. -/
def Stable (D : Discipline σ π) (p : π) (P : σ → Prop) : Prop :=
  ∀ s t, D.Interferes p s t → P s → P t

/-- The weakest precondition of `p`'s program under the others' interference. -/
def wp (D : Discipline σ π) (S : System ω A σ π) (p : π) :
    Prog ω A ε α → (α → σ → Prop) → (ε → σ → Prop) → σ → Prop
  | .ret a, Q, _, s => Q a s
  | .fail e, _, E, s => E e s
  | .op o k, Q, E, s => ∀ s', Relation.ReflTransGen (D.Interferes p) s s' →
      ∀ a t, S.exec p s' o a t → D.Keeps p s' t ∧ D.wp S p (k a) Q E t

variable {D : Discipline σ π} {S : System ω A σ π} {p : π} {P : σ → Prop} {s t : σ}

theorem Stable.star (h : D.Stable p P) (hst : Relation.ReflTransGen (D.Interferes p) s t) (hP : P s) : P t := by
  induction hst with
  | refl => exact hP
  | tail _ hstep ih => exact h _ _ hstep ih

theorem inv_star (hst : Relation.ReflTransGen (D.Interferes p) s t) (hs : D.inv s) :
    D.inv t := by
  cases hst with
  | refl => exact hs
  | tail _ hstep => exact hstep.2.1

theorem Stable.and {P Q : σ → Prop} (hP : D.Stable p P) (hQ : D.Stable p Q) :
    D.Stable p fun s => P s ∧ Q s :=
  fun s t hst h => ⟨hP s t hst h.1, hQ s t hst h.2⟩

theorem wp_mono {x : Prog ω A ε α} {Q Q' : α → σ → Prop} {E E' : ε → σ → Prop} {s : σ}
    (h : D.wp S p x Q E s) (hs : D.inv s) (hQ : ∀ a t, D.inv t → Q a t → Q' a t)
    (hE : ∀ e t, D.inv t → E e t → E' e t) : D.wp S p x Q' E' s := by
  induction x generalizing s with
  | ret a => exact hQ a s hs h
  | fail e => exact hE e s hs h
  | op o k ih =>
    intro s' hrely a t hexec
    rcases h s' hrely a t hexec with ⟨hkeeps, hrest⟩
    exact ⟨hkeeps, ih a hrest hkeeps.1⟩

theorem wp_bind (x : Prog ω A ε α) (f : α → Prog ω A ε β) (Q : β → σ → Prop) (E : ε → σ → Prop) :
    D.wp S p (x.bind f) Q E = D.wp S p x (fun a => D.wp S p (f a) Q E) E := by
  induction x with
  | ret a => rfl
  | fail e => rfl
  | op o k ih =>
    funext s
    simp only [Prog.bind, wp, ih]

theorem wp_handle (x : Prog ω A ε α) (f : ε → Prog ω A ε α) (Q : α → σ → Prop) (E : ε → σ → Prop) :
    D.wp S p (x.handle f) Q E = D.wp S p x Q fun e => D.wp S p (f e) Q E := by
  induction x with
  | ret a => rfl
  | fail e => rfl
  | op o k ih =>
    funext s
    simp only [Prog.handle, wp, ih]

theorem wp_finally (x : Prog ω A ε α) (y : Prog ω A ε Unit) (Q : α → σ → Prop) (E : ε → σ → Prop) :
    D.wp S p (x.finally' y) Q E =
      D.wp S p x (fun a => D.wp S p y (fun _ => Q a) E) fun e => D.wp S p y (fun _ => E e) E := by
  simp only [Prog.finally', wp_bind, wp_handle]
  rfl

variable {E : ε → σ → Prop} {Q : α → σ → Prop}

/-- One operation, from a fact that is stable until it is taken. -/
theorem wp_op {o : ω} {k : A o → Prog ω A ε α} {s : σ} (hs : D.inv s) (hP : P s) (hstable : D.Stable p P)
    (hop : ∀ s a t, D.inv s → P s → S.exec p s o a t → D.Keeps p s t ∧ D.wp S p (k a) Q E t) :
    D.wp S p (.op o k) Q E s := by
  intro s' hrely a t hexec
  exact hop s' a t (inv_star hrely hs) (hstable.star hrely hP) hexec

/-! ## Specifications -/

/-- From `P`, under the invariant, `x` returns with `Q` or throws with `E`. -/
def Spec (D : Discipline σ π) (S : System ω A σ π) (p : π) (P : σ → Prop) (x : Prog ω A ε α)
    (Q : α → σ → Prop) (E : ε → σ → Prop) : Prop :=
  ∀ s, D.inv s → P s → D.wp S p x Q E s

theorem Spec.ret {a : α} (h : ∀ s, D.inv s → P s → Q a s) : D.Spec S p P (Prog.ret a) Q E :=
  fun s hs hP => h s hs hP

theorem Spec.fail {e : ε} (h : ∀ s, D.inv s → P s → E e s) : D.Spec S p P (Prog.fail e) Q E :=
  fun s hs hP => h s hs hP

theorem Spec.conseq {x : Prog ω A ε α} {P N : σ → Prop} {Q M : α → σ → Prop}
    {E F : ε → σ → Prop} (h : D.Spec S p N x M F) (hP : ∀ s, D.inv s → P s → N s)
    (hQ : ∀ a s, D.inv s → M a s → Q a s) (hE : ∀ e s, D.inv s → F e s → E e s) :
    D.Spec S p P x Q E :=
  fun s hs hPs => wp_mono (h s hs (hP s hs hPs)) hs hQ hE

theorem Spec.pre {x : Prog ω A ε α} {P N : σ → Prop}
    (h : D.Spec S p N x Q E) (hP : ∀ s, D.inv s → P s → N s) : D.Spec S p P x Q E :=
  fun s hs hPs => h s hs (hP s hs hPs)

theorem Spec.post {x : Prog ω A ε α} {Q M : α → σ → Prop} (h : D.Spec S p P x M E)
    (hQ : ∀ a s, D.inv s → M a s → Q a s) : D.Spec S p P x Q E :=
  h.conseq (fun _ _ hP => hP) hQ fun _ _ _ hE => hE

theorem Spec.bind {x : Prog ω A ε α} {f : α → Prog ω A ε β} {M : α → σ → Prop}
    {Q : β → σ → Prop} (hx : D.Spec S p P x M E)
    (hf : ∀ a, D.Spec S p (M a) (f a) Q E) : D.Spec S p P (x.bind f) Q E := by
  intro s hs hP
  rw [wp_bind]
  exact wp_mono (hx s hs hP) hs (fun a t ht hM => hf a t ht hM) fun e t _ hE => hE

theorem Spec.handle {x : Prog ω A ε α} {f : ε → Prog ω A ε α}
    {M E : ε → σ → Prop} (hx : D.Spec S p P x Q M) (hf : ∀ e, D.Spec S p (M e) (f e) Q E) :
    D.Spec S p P (x.handle f) Q E := by
  intro s hs hP
  rw [wp_handle]
  exact wp_mono (hx s hs hP) hs (fun a t _ hQ => hQ) fun e t ht hM => hf e t ht hM

theorem Spec.finally {x : Prog ω A ε α} {y : Prog ω A ε Unit}
    {M Q : α → σ → Prop} {N E : ε → σ → Prop} (hx : D.Spec S p P x M N)
    (hQ : ∀ a, D.Spec S p (M a) y (fun _ => Q a) E)
    (hE : ∀ e, D.Spec S p (N e) y (fun _ => E e) E) : D.Spec S p P (x.finally' y) Q E := by
  intro s hs hP
  rw [wp_finally]
  exact wp_mono (hx s hs hP) hs (fun a t ht hM => hQ a t ht hM) fun e t ht hN => hE e t ht hN

theorem Spec.attempt {x : Prog ω A ε α} {E F : ε → σ → Prop} (h : D.Spec S p P x Q E) :
    D.Spec S p P x.attempt (fun r s => match r with | .ok a => Q a s | .error e => E e s) F := by
  apply Spec.handle (M := E)
  · exact Spec.bind h fun a => Spec.ret fun s _ hQ => hQ
  · exact fun e => Spec.ret fun s _ hE => hE

/-- One operation, taken from a stable fact. -/
theorem Spec.op {o : ω} {k : A o → Prog ω A ε α} {M : A o → σ → Prop} (hstable : D.Stable p P)
    (hop : ∀ s a t, D.inv s → P s → S.exec p s o a t → D.Keeps p s t ∧ M a t)
    (hk : ∀ a, D.Spec S p (M a) (k a) Q E) : D.Spec S p P (.op o k) Q E := by
  intro s hs hP
  apply wp_op hs hP hstable
  intro s a t hs hP hexec
  rcases hop s a t hs hP hexec with ⟨hkeeps, hM⟩
  exact ⟨hkeeps, hk a t hkeeps.1 hM⟩

/-- An operation that leaves the shared state alone keeps every stable fact. -/
theorem Spec.quiet {o : ω} {k : A o → Prog ω A ε α} (hstable : D.Stable p P) (hrefl : ∀ q s, D.inv s → D.rely q s s)
    (hquiet : ∀ s a t, S.exec p s o a t → t = s) (hk : ∀ a, D.Spec S p P (k a) Q E) :
    D.Spec S p P (.op o k) Q E := by
  apply Spec.op (M := fun _ => P) hstable _ hk
  intro s a t hs hP hexec
  cases hquiet s a t hexec
  exact ⟨⟨hs, fun q _ => hrefl q s hs⟩, hP⟩

/-- What a program answers is what its specification says, up to what the environment did since. -/
theorem Spec.ends {x : Prog ω A ε α} (h : D.Spec S p P x Q E) (henv : ∀ s t, S.env s t → D.inv t ∧ D.rely p s t)
    {r : Except ε α} (hs : D.inv s) (hP : P s) (hends : System.Ends S p x s r t) :
    ∃ u, (match r with | .ok a => Q a u | .error e => E e u) ∧
      Relation.ReflTransGen (D.Interferes p) u t := by
  -- The environment's steps before the next operation are kept aside until it is taken.
  have hrun : ∀ u, D.inv u → D.wp S p x Q E u → Relation.ReflTransGen (D.Interferes p) u s →
      ∃ v, (match r with | .ok a => Q a v | .error e => E e v) ∧
        Relation.ReflTransGen (D.Interferes p) v t := by
    clear h hP hs
    induction hends with
    | ret a s => exact fun u _ hwp hrely => ⟨u, hwp, hrely⟩
    | fail e s => exact fun u _ hwp hrely => ⟨u, hwp, hrely⟩
    | op hexec _ ih =>
      intro u hu hwp hrely
      rcases hwp _ hrely _ _ hexec with ⟨hkeeps, hrest⟩
      exact ih _ hkeeps.1 hrest Relation.ReflTransGen.refl
    | env hstep _ ih =>
      intro u hu hwp hrely
      have hnext := henv _ _ hstep
      exact ih u hu hwp (hrely.tail ⟨inv_star hrely hu, hnext.1, hnext.2⟩)
  exact hrun s hs (h s hs hP) Relation.ReflTransGen.refl

/-! ## The rule for whole runs -/

section Runs

variable {entry : π → Prog ω A ε Unit → Prop}

/-- The invariant holds, and every running process is in a state its program is fit for. -/
def Fit (D : Discipline σ π) (S : System ω A σ π) (c : System.Config ω A ε σ π) : Prop :=
  D.inv c.shared ∧
    ∀ p prog, c.procs p = some prog → D.wp S p prog (fun _ _ => True) (fun _ _ => True) c.shared

/-- A step of another process leaves a program as fit as it was. -/
theorem wp_of_interferes {x : Prog ω A ε Unit} (hst : D.Interferes p s t)
    (h : D.wp S p x (fun _ _ => True) (fun _ _ => True) s) :
    D.wp S p x (fun _ _ => True) (fun _ _ => True) t := by
  cases x with
  | ret a => trivial
  | fail e => trivial
  | op o k =>
    intro s' hrely a u hexec
    exact h s' (Relation.ReflTransGen.head hst hrely) a u hexec

variable [DecidableEq π]

theorem fit_update {c : System.Config ω A ε σ π} {t : σ} {p : π} {next : Option (Prog ω A ε Unit)}
    (hfit : D.Fit S c) (hkeeps : D.Keeps p c.shared t)
    (hnext : ∀ prog, next = some prog → D.wp S p prog (fun _ _ => True) (fun _ _ => True) t) :
    D.Fit S ⟨t, Function.update c.procs p next⟩ := by
  refine ⟨hkeeps.1, ?_⟩
  intro q prog hq
  by_cases hqp : q = p
  · subst hqp
    apply hnext
    simpa using hq
  · have hold : c.procs q = some prog := by simpa [Function.update_of_ne hqp] using hq
    exact wp_of_interferes ⟨hfit.1, hkeeps.1, hkeeps.2 q hqp⟩ (hfit.2 q prog hold)

theorem fit_step {c c' : System.Config ω A ε σ π} {label : System.Label ω A ε π}
    (hentry : ∀ p prog, entry p prog →
      D.Spec S p (fun _ => True) prog (fun _ _ => True) fun _ _ => True)
    (hcrash : ∀ p s t, D.inv s → S.crash p s t → D.Keeps p s t)
    (henv : ∀ s t, D.inv s → S.env s t → D.inv t ∧ ∀ p, D.rely p s t)
    (hfit : D.Fit S c) (h : System.Step S entry c label c') : D.Fit S c' := by
  -- A step that leaves the shared state alone concerns only the process that takes it.
  have hlocal : ∀ p (next : Option (Prog ω A ε Unit)),
      (∀ prog, next = some prog → D.wp S p prog (fun _ _ => True) (fun _ _ => True) c.shared) →
      D.Fit S { c with procs := Function.update c.procs p next } := by
    intro p next hnext
    refine ⟨hfit.1, ?_⟩
    intro q prog hq
    by_cases hqp : q = p
    · subst hqp
      apply hnext
      simpa using hq
    · exact hfit.2 q prog (by simpa [Function.update_of_ne hqp] using hq)
  cases h with
  | start p prog _ hprog =>
    apply hlocal
    intro _ hnext
    cases hnext
    exact hentry p prog hprog c.shared hfit.1 trivial
  | act p o k a t hproc hexec =>
    rcases hfit.2 p _ hproc c.shared Relation.ReflTransGen.refl a t hexec with ⟨hkeeps, hrest⟩
    apply fit_update hfit hkeeps
    intro _ hnext
    cases hnext
    exact hrest
  | returned p _ => exact hlocal p none (by simp)
  | threw p e _ => exact hlocal p none (by simp)
  | crash p prog t _ hdies => exact fit_update hfit (hcrash p c.shared t hfit.1 hdies) (by simp)
  | env t hstep =>
    rcases henv c.shared t hfit.1 hstep with ⟨hinv, hrely⟩
    refine ⟨hinv, ?_⟩
    intro q prog hq
    exact wp_of_interferes ⟨hfit.1, hinv, hrely q⟩ (hfit.2 q prog hq)

/-- **Programs that are fit keep the invariant**: if every program a process can start is fit for every
state under the invariant, and deaths and the environment keep it, it holds after every run. -/
theorem invariant_of_wp
    (hentry : ∀ p prog, entry p prog →
      D.Spec S p (fun _ => True) prog (fun _ _ => True) fun _ _ => True)
    (hcrash : ∀ p s t, D.inv s → S.crash p s t → D.Keeps p s t)
    (henv : ∀ s t, D.inv s → S.env s t → D.inv t ∧ ∀ p, D.rely p s t)
    {s : σ} {labels : List (System.Label ω A ε π)} {c : System.Config ω A ε σ π} (hs : D.inv s)
    (hrun : Runs.Run (System.Step S entry) (System.idle s) labels c) : D.inv c.shared := by
  have hfit : D.Fit S c := by
    apply hrun.invariant
    · exact ⟨hs, by simp [System.idle]⟩
    · intro c label c' hfit hstep
      exact fit_step hentry hcrash henv hfit hstep
  exact hfit.1

end Runs

/-! ## A program that runs alone -/

section Alone

/-- The one process of a deterministic system, that nothing interferes with. -/
def alone (answer : σ → (o : ω) → A o × σ) : System ω A σ Unit where
  exec := fun _ s o a t => (a, t) = answer s o
  crash := fun _ s t => t = s
  env := fun _ _ => False

def undisturbed (inv : σ → Prop) : Discipline σ Unit := ⟨inv, fun _ _ _ => False⟩

variable {answer : σ → (o : ω) → A o × σ} {inv P : σ → Prop}

theorem stable_undisturbed : (undisturbed inv).Stable () P :=
  fun _ _ h => h.2.2.elim

theorem undisturbed_refl (h : Relation.ReflTransGen ((undisturbed inv).Interferes ()) s t) : t = s := by
  cases h with
  | refl => rfl
  | tail _ hstep => exact hstep.2.2.elim

/-- One operation, where nothing interferes. -/
theorem Spec.act {S : System ω A σ Unit} {o : ω} {Q : A o → σ → Prop}
    (h : ∀ s a t, inv s → P s → S.exec () s o a t → inv t ∧ Q a t) :
    (undisturbed inv).Spec S () P (Prog.perform o) Q E := by
  apply Spec.op (M := Q) stable_undisturbed
  · intro s a t hs hP hexec
    rcases h s a t hs hP hexec with ⟨hinv, hQ⟩
    exact ⟨⟨hinv, fun q hq => absurd rfl hq⟩, hQ⟩
  · exact fun a => Spec.ret fun s _ hQ => hQ

/-- What every operation leaves true stays true beside a specification. -/
theorem Spec.frame {S : System ω A σ Unit} {F : σ → Prop} {x : Prog ω A ε α}
    (hF : ∀ s o a t, S.exec () s o a t → F s → F t) (h : (undisturbed inv).Spec S () P x Q E) :
    (undisturbed inv).Spec S () (fun s => P s ∧ F s) x (fun a s => Q a s ∧ F s)
      fun e s => E e s ∧ F s := by
  rintro s hs ⟨hP, hFs⟩
  have hwp := h s hs hP
  clear h hP
  induction x generalizing s with
  | ret a => exact ⟨hwp, hFs⟩
  | fail e => exact ⟨hwp, hFs⟩
  | op o k ih =>
    intro s' hrely a t hexec
    have hsame : s' = s := undisturbed_refl hrely
    subst hsame
    rcases hwp s' hrely a t hexec with ⟨hkeeps, hrest⟩
    exact ⟨hkeeps, ih a t hkeeps.1 (hF s' o a t hexec hFs) hrest⟩

/-- One operation of a program alone. -/
theorem Spec.step {o : ω} {Q : A o → σ → Prop}
    (h : ∀ s, inv s → P s → inv (answer s o).2 ∧ Q (answer s o).1 (answer s o).2) :
    (undisturbed inv).Spec (alone answer) () P (Prog.perform o) Q E := by
  apply Spec.act
  intro s a t hs hP hexec
  have heq : (a, t) = answer s o := hexec
  rcases h s hs hP with ⟨hinv, hQ⟩
  rw [← heq] at hinv hQ
  exact ⟨hinv, hQ⟩

/-- Stopped after any number of operations, a program leaves the invariant. -/
theorem inv_play {x : Prog ω A ε α}
    (h : (undisturbed inv).Spec (alone answer) () P x Q E) (n : Nat) {s : σ} (hs : inv s) (hP : P s) :
    inv (x.play answer n s).2 := by
  have hwp := h s hs hP
  clear h hP
  induction n generalizing x s with
  | zero =>
    cases x <;> exact hs
  | succ n ih =>
    cases x with
    | ret a => exact hs
    | fail e => exact hs
    | op o k =>
      rcases hwp s Relation.ReflTransGen.refl _ _ rfl with ⟨hkeeps, hrest⟩
      exact ih hkeeps.1 hrest

/-- Run to its end, a program meets its specification. -/
theorem spec_eval {x : Prog ω A ε α}
    (h : (undisturbed inv).Spec (alone answer) () P x Q E) {s : σ} (hs : inv s) (hP : P s) :
    inv (x.eval answer s).2 ∧
      match (x.eval answer s).1 with
      | .ok a => Q a (x.eval answer s).2
      | .error e => E e (x.eval answer s).2 := by
  have hwp := h s hs hP
  clear h hP
  induction x generalizing s with
  | ret a => exact ⟨hs, hwp⟩
  | fail e => exact ⟨hs, hwp⟩
  | op o k ih =>
    rcases hwp s Relation.ReflTransGen.refl _ _ rfl with ⟨hkeeps, hrest⟩
    exact ih _ hkeeps.1 hrest

end Alone
end Discipline
