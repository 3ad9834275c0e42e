import Mathlib.Data.Nat.Notation
import PaymentNode.Lib.Prog

/-!
# Underway — programs of bounded length, and the ones that are not done yet

`Within ok n x` says that `x` does at most `n` operations, all of them `ok`.  `acts_le` bounds what the processes
of a run do by what they started; `underway` says that a process that is not done still has an operation to do,
where every program of it ends done.  Nothing here names a program.
-/

namespace Prog

variable {ω : Type} {A : ω → Type} {ε α β : Type} {ok : ω → Prop} {n m : ℕ}

/-- At most `n` operations, however they are answered, and each of them `ok`. -/
inductive Within (ok : ω → Prop) : ℕ → Prog ω A ε α → Prop
  | ret {n : ℕ} (a : α) : Within ok n (.ret a)
  | fail {n : ℕ} (e : ε) : Within ok n (.fail e)
  | op {n : ℕ} {o : ω} {k : A o → Prog ω A ε α} : ok o → (∀ a, Within ok n (k a)) → Within ok (n + 1) (.op o k)

theorem Within.mono {x : Prog ω A ε α} (h : x.Within ok n) (hle : n ≤ m) : x.Within ok m := by
  induction h generalizing m with
  | ret a => exact Within.ret a
  | fail e => exact Within.fail e
  | op hok _ ih =>
    cases m with
    | zero => omega
    | succ m => exact Within.op hok fun a => ih a (by omega)

theorem Within.weaken {ok' : ω → Prop} {x : Prog ω A ε α} (h : x.Within ok n) (hok : ∀ o, ok o → ok' o) :
    x.Within ok' n := by
  induction h with
  | ret a => exact Within.ret a
  | fail e => exact Within.fail e
  | op ho _ ih => exact Within.op (hok _ ho) ih

theorem Within.bind {x : Prog ω A ε α} {f : α → Prog ω A ε β} (hx : x.Within ok n)
    (hf : ∀ a, (f a).Within ok m) : (x.bind f).Within ok (n + m) := by
  induction hx with
  | ret a => exact (hf a).mono (by omega)
  | fail e => exact Within.fail e
  | @op n o k hok _ ih =>
    rw [show n + 1 + m = n + m + 1 by omega]
    exact Within.op hok ih

theorem Within.handle {x : Prog ω A ε α} {f : ε → Prog ω A ε α} (hx : x.Within ok n)
    (hf : ∀ e, (f e).Within ok m) : (x.handle f).Within ok (n + m) := by
  induction hx with
  | ret a => exact Within.ret a
  | fail e => exact (hf e).mono (by omega)
  | @op n o k hok _ ih =>
    rw [show n + 1 + m = n + m + 1 by omega]
    exact Within.op hok ih

theorem Within.attempt {x : Prog ω A ε α} (hx : x.Within ok n) :
    (Prog.attempt x : Prog ω A ε (Except ε α)).Within ok n := by
  have hvalue : (x.bind fun a => (Prog.ret (.ok a) : Prog ω A ε (Except ε α))).Within ok (n + 0) :=
    hx.bind fun a => Within.ret _
  have hcaught := hvalue.handle (m := 0) fun e => Within.ret (.error e)
  exact hcaught

theorem Within.finally {x : Prog ω A ε α} {y : Prog ω A ε Unit} (hx : x.Within ok n) (hy : y.Within ok m) :
    (x.finally' y).Within ok (n + m) := by
  induction hx with
  | ret a => exact (hy.bind (m := 0) fun _ => Within.ret a).mono (by omega)
  | @fail n e =>
    -- The second run of `y` is on no path: the first one fails behind it.
    have hover : ∀ {k : ℕ} (z : Prog ω A ε Unit), z.Within ok k →
        ((z.bind fun _ => (Prog.fail e : Prog ω A ε α)).bind fun a => y.bind fun _ => Prog.ret a).Within ok k := by
      intro k z hz
      induction hz with
      | ret a => exact Within.fail e
      | fail e' => exact Within.fail e'
      | op hok _ ih => exact Within.op hok ih
    exact (hover y hy).mono (by omega)
  | @op n o k hok _ ih =>
    rw [show n + 1 + m = n + m + 1 by omega]
    exact Within.op hok ih

theorem Within.perform {o : ω} (h : ok o) : (Prog.perform o : Prog ω A ε (A o)).Within ok 1 :=
  Within.op h fun a => Within.ret a

end Prog

namespace System

variable {ω : Type} {A : ω → Type} {ε σ π : Type} [DecidableEq π]

/-- An operation of `p`. -/
def Label.actBy (p : π) : Label ω A ε π → Bool
  | .act q _ _ => decide (q = p)
  | _ => false

/-- A program that `p` starts. -/
def Label.startBy (p : π) : Label ω A ε π → Bool
  | .start q _ => decide (q = p)
  | _ => false

variable {S : System ω A σ π} {entry : π → Prog ω A ε Unit → Prop} {ok : ω → Prop} {n : ℕ}

/-- A process does no more operations than its programs are long. -/
theorem acts_le (hentry : ∀ p prog, entry p prog → prog.Within ok n) {s : σ}
    {labels : List (Label ω A ε π)} {c : Config ω A ε σ π} (hrun : Runs.Run (Step S entry) (idle s) labels c)
    (p : π) : labels.countP (Label.actBy p) ≤ n * labels.countP (Label.startBy p) := by
  -- What the process has done and what it has left fit into what it started.
  have hleft : ∃ k, (∀ prog, c.procs p = some prog → prog.Within ok k) ∧
      labels.countP (Label.actBy p) + k ≤ n * labels.countP (Label.startBy p) := by
    induction hrun with
    | refl =>
      refine ⟨0, ?_, by simp⟩
      intro prog hprog
      cases hprog
    | @snoc c c' labels label _ hstep ih =>
      rcases ih with ⟨k, hwithin, hcount⟩
      -- A step of another process leaves this one's program alone.
      have hother : ∀ q (next : Option (Prog ω A ε Unit)), q ≠ p →
          ∀ prog, Function.update c.procs q next p = some prog → prog.Within ok k := by
        intro q next hq prog hprog
        rw [Function.update_of_ne (Ne.symm hq)] at hprog
        exact hwithin prog hprog
      have hgone : ∀ q prog, Function.update c.procs q none p = some prog → prog.Within ok k := by
        intro q prog hprog
        by_cases hq : q = p
        · rw [hq, Function.update_self] at hprog
          cases hprog
        · exact hother q none hq prog hprog
      rw [List.countP_append, List.countP_append, List.countP_singleton, List.countP_singleton]
      cases hstep with
      | start q prog hnone hprog =>
        by_cases hq : q = p
        · refine ⟨n, ?_, ?_⟩
          · intro prog' hprog'
            simp only [hq, Function.update_self, Option.some.injEq] at hprog'
            rw [← hprog']
            exact hentry q prog hprog
          · simp only [Label.actBy, Label.startBy, hq, decide_true, Bool.false_eq_true, if_false, if_true]
            rw [Nat.mul_add]
            omega
        · refine ⟨k, hother q _ hq, ?_⟩
          simpa [Label.actBy, Label.startBy, hq] using hcount
      | act q o f a t hproc _ =>
        by_cases hq : q = p
        · rw [hq] at hproc
          have hop := hwithin _ hproc
          cases hop with
          | @op k _ _ _ hnext =>
            refine ⟨k, ?_, ?_⟩
            · intro prog' hprog'
              simp only [hq, Function.update_self, Option.some.injEq] at hprog'
              rw [← hprog']
              exact hnext a
            · simp only [Label.actBy, Label.startBy, hq, decide_true, Bool.false_eq_true, if_false, if_true,
                Nat.add_zero]
              omega
        · refine ⟨k, hother q _ hq, ?_⟩
          simpa [Label.actBy, Label.startBy, hq] using hcount
      | returned q _ => exact ⟨k, hgone q, by simpa [Label.actBy, Label.startBy] using hcount⟩
      | threw q e _ => exact ⟨k, hgone q, by simpa [Label.actBy, Label.startBy] using hcount⟩
      | crash q prog t _ _ => exact ⟨k, hgone q, by simpa [Label.actBy, Label.startBy] using hcount⟩
      | env t _ => exact ⟨k, hwithin, by simpa [Label.actBy, Label.startBy] using hcount⟩
  rcases hleft with ⟨k, -, hcount⟩
  omega

end System

namespace Discipline

variable {ω : Type} {A : ω → Type} {ε σ π : Type} [DecidableEq π] {D : Discipline σ π} {S : System ω A σ π}
  {entry : π → Prog ω A ε Unit → Prop} {ok : ω → Prop} {n : ℕ} {done : π → σ → Prop}

omit [DecidableEq π] in
/-- What holds whatever the state is becomes a hypothesis. -/
theorem Spec.assume {α : Type} {p : π} {fact : Prop} {P : σ → Prop} {x : Prog ω A ε α} {Q : α → σ → Prop}
    {E : ε → σ → Prop} (h : fact → D.Spec S p P x Q E) : D.Spec S p (fun s => fact ∧ P s) x Q E :=
  fun s hs hP => h hP.1 s hs hP.2

/-- Between its first operation and its end, a process has a program of `ok` operations that will end done. -/
structure Underway (D : Discipline σ π) (S : System ω A σ π) (entry : π → Prog ω A ε Unit → Prop)
    (ok : ω → Prop) (done : π → σ → Prop) (c : System.Config ω A ε σ π) : Prop where
  inv : D.inv c.shared
  absent : ∀ p, c.procs p = none → done p c.shared
  ends : ∀ p prog, c.procs p = some prog → D.wp S p prog (fun _ => done p) (fun _ => done p) c.shared
  begun : ∀ p prog, c.procs p = some prog →
    (done p c.shared ∧ entry p prog) ∨ ∃ n, prog.Within ok n

omit [DecidableEq π] in
/-- A step of the others leaves a program that will end done. -/
theorem ends_of_interferes {p : π} (hdone : D.Stable p (done p)) {x : Prog ω A ε Unit} {s t : σ}
    (hst : D.Interferes p s t) (h : D.wp S p x (fun _ => done p) (fun _ => done p) s) :
    D.wp S p x (fun _ => done p) (fun _ => done p) t := by
  cases x with
  | ret a => exact hdone s t hst h
  | fail e => exact hdone s t hst h
  | op o k =>
    intro s' hrely a u hexec
    exact h s' (Relation.ReflTransGen.head hst hrely) a u hexec

theorem underway_step (hdone : ∀ p, D.Stable p (done p))
    (hentry : ∀ p prog, entry p prog → D.Spec S p (fun _ => True) prog (fun _ => done p) fun _ => done p)
    (hbegins : ∀ p prog, entry p prog → ∃ o k, prog = .op o k ∧ ∀ a, ∃ n, (k a).Within ok n)
    (hcrash : ∀ p s t, ¬ S.crash p s t)
    (henv : ∀ s t, D.inv s → S.env s t → D.inv t ∧ ∀ p, D.rely p s t)
    {c c' : System.Config ω A ε σ π} {label : System.Label ω A ε π} (h : Underway D S entry ok done c)
    (hstep : System.Step S entry c label c') : Underway D S entry ok done c' := by
  -- A step of `p` that leaves the shared state alone.
  have hends : ∀ p, done p c.shared → Underway D S entry ok done
      { c with procs := Function.update c.procs p none } := by
    intro p hp
    refine ⟨h.inv, ?_, ?_, ?_⟩
    · intro q hq
      by_cases hqp : q = p
      · rw [hqp]
        exact hp
      · exact h.absent q (by simpa [Function.update_of_ne hqp] using hq)
    · intro q prog hq
      by_cases hqp : q = p
      · simp [hqp] at hq
      · exact h.ends q prog (by simpa [Function.update_of_ne hqp] using hq)
    · intro q prog hq
      by_cases hqp : q = p
      · simp [hqp] at hq
      · exact h.begun q prog (by simpa [Function.update_of_ne hqp] using hq)
  cases hstep with
  | start p prog hnone hprog =>
    have hp : done p c.shared := h.absent p hnone
    refine ⟨h.inv, ?_, ?_, ?_⟩
    · intro q hq
      by_cases hqp : q = p
      · simp [hqp] at hq
      · exact h.absent q (by simpa [Function.update_of_ne hqp] using hq)
    · intro q prog' hq
      by_cases hqp : q = p
      · subst hqp
        simp only [Function.update_self, Option.some.injEq] at hq
        rw [← hq]
        exact hentry q prog hprog c.shared h.inv trivial
      · exact h.ends q prog' (by simpa [Function.update_of_ne hqp] using hq)
    · intro q prog' hq
      by_cases hqp : q = p
      · subst hqp
        simp only [Function.update_self, Option.some.injEq] at hq
        rw [← hq]
        exact Or.inl ⟨hp, hprog⟩
      · exact h.begun q prog' (by simpa [Function.update_of_ne hqp] using hq)
  | act p o k a t hproc hexec =>
    rcases h.ends p _ hproc c.shared Relation.ReflTransGen.refl a t hexec with ⟨hkeeps, hrest⟩
    have hothers : ∀ q, q ≠ p → D.Interferes q c.shared t := fun q hq => ⟨h.inv, hkeeps.1, hkeeps.2 q hq⟩
    refine ⟨hkeeps.1, ?_, ?_, ?_⟩
    · intro q hq
      by_cases hqp : q = p
      · simp [hqp] at hq
      · exact hdone q _ _ (hothers q hqp) (h.absent q (by simpa [Function.update_of_ne hqp] using hq))
    · intro q prog hq
      by_cases hqp : q = p
      · subst hqp
        simp only [Function.update_self, Option.some.injEq] at hq
        rw [← hq]
        exact hrest
      · exact ends_of_interferes (hdone q) (hothers q hqp)
          (h.ends q prog (by simpa [Function.update_of_ne hqp] using hq))
    · intro q prog hq
      by_cases hqp : q = p
      · subst hqp
        simp only [Function.update_self, Option.some.injEq] at hq
        rw [← hq]
        right
        rcases h.begun q _ hproc with ⟨-, hprog⟩ | ⟨n, hwithin⟩
        · rcases hbegins q _ hprog with ⟨o', k', heq, hnext⟩
          cases heq
          exact hnext a
        · cases hwithin with
          | op _ hnext => exact ⟨_, hnext a⟩
      · have hold := h.begun q prog (by simpa [Function.update_of_ne hqp] using hq)
        exact hold.imp (fun hb => ⟨hdone q _ _ (hothers q hqp) hb.1, hb.2⟩) id
  | returned p hproc => exact hends p (h.ends p _ hproc)
  | threw p e hproc => exact hends p (h.ends p _ hproc)
  | crash p prog t _ hdies => exact absurd hdies (hcrash p c.shared t)
  | env t henvStep =>
    rcases henv c.shared t h.inv henvStep with ⟨hinv, hrely⟩
    have hothers : ∀ q, D.Interferes q c.shared t := fun q => ⟨h.inv, hinv, hrely q⟩
    refine ⟨hinv, fun q hq => hdone q _ _ (hothers q) (h.absent q hq), ?_, ?_⟩
    · exact fun q prog hq => ends_of_interferes (hdone q) (hothers q) (h.ends q prog hq)
    · exact fun q prog hq => (h.begun q prog hq).imp (fun hb => ⟨hdone q _ _ (hothers q) hb.1, hb.2⟩) id

/-- **A process that is not done has an operation to do**: where nothing kills one, and every program of it ends
done. -/
theorem underway (hdone : ∀ p, D.Stable p (done p))
    (hentry : ∀ p prog, entry p prog → D.Spec S p (fun _ => True) prog (fun _ => done p) fun _ => done p)
    (hbegins : ∀ p prog, entry p prog → ∃ o k, prog = .op o k ∧ ∀ a, ∃ n, (k a).Within ok n)
    (hcrash : ∀ p s t, ¬ S.crash p s t)
    (henv : ∀ s t, D.inv s → S.env s t → D.inv t ∧ ∀ p, D.rely p s t) {s : σ}
    {labels : List (System.Label ω A ε π)} {c : System.Config ω A ε σ π} (hs : D.inv s)
    (hstart : ∀ p, done p s) (hrun : Runs.Run (System.Step S entry) (System.idle s) labels c) :
    D.inv c.shared ∧ ∀ p, ¬ done p c.shared → ∃ o k, c.procs p = some (.op o k) ∧ ok o := by
  have hunder : Underway D S entry ok done c := by
    apply hrun.invariant
    · exact ⟨hs, fun p _ => hstart p, by simp [System.idle], by simp [System.idle]⟩
    · intro c label c' hc hstep
      exact underway_step hdone hentry hbegins hcrash henv hc hstep
  refine ⟨hunder.inv, ?_⟩
  intro p hp
  cases hproc : c.procs p with
  | none => exact absurd (hunder.absent p hproc) hp
  | some prog =>
    have hends := hunder.ends p prog hproc
    cases prog with
    | ret a => exact absurd hends hp
    | fail e => exact absurd hends hp
    | op o k =>
      rcases hunder.begun p _ hproc with ⟨hdonep, -⟩ | ⟨n, hwithin⟩
      · exact absurd hdonep hp
      · cases hwithin with
        | op hok _ => exact ⟨o, k, rfl, hok⟩

end Discipline
