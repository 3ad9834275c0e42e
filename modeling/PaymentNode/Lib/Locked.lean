import PaymentNode.Lib.Solo

/-!
# Locked — concurrent calls behind one lock

Any number of processes call, each call waits for the lock and keeps it until it ends or dies.  `run_serial`
says that such a run is a run of calls made one after another, so an invariant of those holds here.  Nothing
here names a program.
-/

namespace Locked

open Solo

variable {ω : Type} {A : ω → Type} {ε σ π : Type}

/-- The shared state, who holds the lock, and what is left to do of each call. -/
structure Config (ω : Type) (A : ω → Type) (ε σ π : Type) where
  shared : σ
  holder : Option π
  procs : π → Option (Prog ω A ε Unit)

def idle (s : σ) : Config ω A ε σ π := ⟨s, none, fun _ => none⟩

inductive Label (ω : Type) (A : ω → Type) (ε π : Type)
  | call (p : π) (prog : Prog ω A ε Unit)
  | acquire (p : π)
  | act (p : π) (o : ω) (a : A o)
  | finish (p : π)
  | crash (p : π)

variable [DecidableEq π]

/-- A call that begins waits; only the holder acts, and its end or its death frees the lock. -/
inductive Step (exec : Exec ω A σ) (entry : Prog ω A ε Unit → Prop) :
    Config ω A ε σ π → Label ω A ε π → Config ω A ε σ π → Prop
  | call (c : Config ω A ε σ π) (p : π) (prog : Prog ω A ε Unit) :
      c.procs p = none → entry prog →
      Step exec entry c (.call p prog) { c with procs := Function.update c.procs p (some prog) }
  | acquire (c : Config ω A ε σ π) (p : π) (prog : Prog ω A ε Unit) :
      c.procs p = some prog → c.holder = none →
      Step exec entry c (.acquire p) { c with holder := some p }
  | act (c : Config ω A ε σ π) (p : π) (o : ω) (k : A o → Prog ω A ε Unit) (a : A o) (t : σ) :
      c.holder = some p → c.procs p = some (.op o k) → exec c.shared o a t →
      Step exec entry c (.act p o a) ⟨t, c.holder, Function.update c.procs p (some (k a))⟩
  | returned (c : Config ω A ε σ π) (p : π) :
      c.holder = some p → c.procs p = some (.ret ()) →
      Step exec entry c (.finish p) ⟨c.shared, none, Function.update c.procs p none⟩
  | threw (c : Config ω A ε σ π) (p : π) (e : ε) :
      c.holder = some p → c.procs p = some (.fail e) →
      Step exec entry c (.finish p) ⟨c.shared, none, Function.update c.procs p none⟩
  | crash (c : Config ω A ε σ π) (p : π) (prog : Prog ω A ε Unit) :
      c.procs p = some prog →
      Step exec entry c (.crash p)
        ⟨c.shared, if c.holder = some p then none else c.holder, Function.update c.procs p none⟩

/-- The call that the serial run is in: the holder's. -/
def Config.current (c : Config ω A ε σ π) : Option (Prog ω A ε Unit) := c.holder.bind c.procs

/-- A serial configuration at the same point: the calls that wait have not begun in it. -/
structure Serial (entry : Prog ω A ε Unit → Prop) (c : Config ω A ε σ π) (d : System.Config ω A ε σ Unit) :
    Prop where
  shared : d.shared = c.shared
  procs : d.procs = fun _ => c.current
  waiting : ∀ p prog, c.procs p = some prog → c.holder ≠ some p → entry prog
  holding : ∀ p, c.holder = some p → c.procs p ≠ none

variable {exec : Exec ω A σ} {entry : Prog ω A ε Unit → Prop} {c c' : Config ω A ε σ π}
  {d : System.Config ω A ε σ Unit} {l : Label ω A ε π}

omit [DecidableEq π] in
theorem Serial.eq (h : Serial entry c d) : d = ⟨c.shared, fun _ => c.current⟩ := by
  rcases d with ⟨shared, procs⟩
  rw [h.shared.symm, h.procs.symm]

omit [DecidableEq π] in
theorem serial_idle (s : σ) : Serial entry (idle s : Config ω A ε σ π) (System.idle s) :=
  ⟨rfl, rfl, fun _ _ h => (nomatch h), fun _ h => (nomatch h)⟩

theorem update_unit {α : Type} (x y : α) : Function.update (fun _ : Unit => x) () y = fun _ => y := by
  funext u
  cases u
  simp

/-- The holder's call is over. -/
theorem Serial.freed (h : Serial entry c d) {p : π} (hholder : c.holder = some p) :
    Serial entry ⟨c.shared, none, Function.update c.procs p none⟩
      ⟨c.shared, Function.update (fun _ : Unit => c.current) () none⟩ := by
  refine ⟨rfl, ?_, ?_, fun q hq => nomatch hq⟩
  · show Function.update (fun _ : Unit => c.current) () none = fun _ => none
    exact update_unit c.current none
  · intro q prog hq _
    have hqp : q ≠ p := by
      rintro rfl
      exact nomatch (Function.update_self q none c.procs).symm.trans hq
    refine h.waiting q prog ((Function.update_of_ne hqp _ _).symm.trans hq) ?_
    intro hother
    exact hqp (Option.some.inj (hother.symm.trans hholder))

/-- A call that waited is gone. -/
theorem Serial.left (h : Serial entry c d) {p : π} (hholder : c.holder ≠ some p) :
    Serial entry ⟨c.shared, c.holder, Function.update c.procs p none⟩ ⟨c.shared, fun _ => c.current⟩ := by
  have hother : ∀ q, c.holder = some q → q ≠ p := by
    rintro q hq rfl
    exact hholder hq
  refine ⟨rfl, ?_, ?_, ?_⟩
  · funext u
    show c.holder.bind c.procs = c.holder.bind (Function.update c.procs p none)
    cases hq : c.holder with
    | none => rfl
    | some q => exact (Function.update_of_ne (hother q hq) _ _).symm
  · intro q prog hq hwaits
    have hqp : q ≠ p := by
      rintro rfl
      exact nomatch (Function.update_self q none c.procs).symm.trans hq
    exact h.waiting q prog ((Function.update_of_ne hqp _ _).symm.trans hq) hwaits
  · intro q hq
    show Function.update c.procs p none q ≠ none
    rw [Function.update_of_ne (hother q hq)]
    exact h.holding q hq

/-- One step of the concurrent run is at most one step of the serial one. -/
theorem Serial.step (h : Serial entry c d) (hstep : Step exec entry c l c') :
    ∃ labels d', Runs.Run (Solo.Step exec entry) d labels d' ∧ Serial entry c' d' := by
  rw [h.eq]
  cases hstep with
  | call p prog hnone hentry =>
    -- A call that waits is no step of the serial run.
    have hother : c.holder ≠ some p := fun hp => h.holding p hp hnone
    refine ⟨[], _, Runs.Run.refl, rfl, ?_, ?_, ?_⟩
    · funext u
      show c.current = c.holder.bind (Function.update c.procs p (some prog))
      unfold Config.current
      cases hholder : c.holder with
      | none => rfl
      | some q =>
        have hne : q ≠ p := by
          rintro rfl
          exact hother hholder
        exact (Function.update_of_ne hne _ _).symm
    · intro q prog' hq hwaits
      by_cases hqp : q = p
      · rw [hqp] at hq
        have hprog : some prog = some prog' := (Function.update_self p (some prog) c.procs).symm.trans hq
        cases hprog
        exact hentry
      · exact h.waiting q prog' ((Function.update_of_ne hqp _ _).symm.trans hq) hwaits
    · intro q hq
      by_cases hqp : q = p
      · exact absurd (hqp ▸ hq) hother
      · show Function.update c.procs p (some prog) q ≠ none
        rw [Function.update_of_ne hqp]
        exact h.holding q hq
  | acquire p prog hprog hfree =>
    -- The serial call starts where the lock is taken.
    have hidle : c.current = none := by
      unfold Config.current
      rw [hfree]
      rfl
    have hentry : entry prog := h.waiting p prog hprog (by rw [hfree]; exact fun h => (nomatch h))
    have hstart : Solo.Step exec entry ⟨c.shared, fun _ => c.current⟩ _ _ :=
      System.Step.start ⟨c.shared, fun _ => c.current⟩ () prog hidle hentry
    refine ⟨_, _, Runs.Run.single hstart, rfl, ?_, ?_, ?_⟩
    · show Function.update (fun _ : Unit => c.current) () (some prog) = fun _ => c.procs p
      rw [update_unit, hprog]
    · intro q prog' hq _
      exact h.waiting q prog' hq (by rw [hfree]; exact fun h => (nomatch h))
    · intro q hq
      cases hq
      show c.procs p ≠ none
      rw [hprog]
      exact fun h => nomatch h
  | act p o k a t hholder hprog hexec =>
    have hcurrent : c.current = some (.op o k) := by
      unfold Config.current
      rw [hholder]
      exact hprog
    have hact : Solo.Step exec entry ⟨c.shared, fun _ => c.current⟩ _ _ :=
      System.Step.act ⟨c.shared, fun _ => c.current⟩ () o k a t hcurrent hexec
    refine ⟨_, _, Runs.Run.single hact, rfl, ?_, ?_, ?_⟩
    · show Function.update (fun _ : Unit => c.current) () (some (k a)) =
        fun _ => c.holder.bind (Function.update c.procs p (some (k a)))
      rw [update_unit, hholder]
      funext u
      exact (Function.update_self p (some (k a)) c.procs).symm
    · intro q prog' hq hwaits
      have hqp : q ≠ p := by
        rintro rfl
        exact hwaits hholder
      exact h.waiting q prog' ((Function.update_of_ne hqp _ _).symm.trans hq) hwaits
    · intro q hq
      have hqp : p = q := Option.some.inj (hholder.symm.trans hq)
      rw [← hqp]
      show Function.update c.procs p (some (k a)) p ≠ none
      rw [Function.update_self]
      exact fun h => nomatch h
  | returned p hholder hprog =>
    have hcurrent : c.current = some (.ret ()) := by
      unfold Config.current
      rw [hholder]
      exact hprog
    have hend : Solo.Step exec entry ⟨c.shared, fun _ => c.current⟩ _ _ :=
      System.Step.returned ⟨c.shared, fun _ => c.current⟩ () hcurrent
    exact ⟨_, _, Runs.Run.single hend, h.freed hholder⟩
  | threw p e hholder hprog =>
    have hcurrent : c.current = some (.fail e) := by
      unfold Config.current
      rw [hholder]
      exact hprog
    have hend : Solo.Step exec entry ⟨c.shared, fun _ => c.current⟩ _ _ :=
      System.Step.threw ⟨c.shared, fun _ => c.current⟩ () e hcurrent
    exact ⟨_, _, Runs.Run.single hend, h.freed hholder⟩
  | crash p prog hprog =>
    -- Only the death of the holder is a step of the serial run.
    by_cases hholder : c.holder = some p
    · have hcurrent : c.current = some prog := by
        unfold Config.current
        rw [hholder]
        exact hprog
      have hend : Solo.Step exec entry ⟨c.shared, fun _ => c.current⟩ _ _ :=
        System.Step.crash ⟨c.shared, fun _ => c.current⟩ () prog c.shared hcurrent rfl
      refine ⟨_, _, Runs.Run.single hend, ?_⟩
      rw [if_pos hholder]
      exact h.freed hholder
    · refine ⟨[], _, Runs.Run.refl, ?_⟩
      rw [if_neg hholder]
      exact h.left hholder

/-- **Concurrent calls behind one lock are calls made one after another.** -/
theorem run_serial {s : σ} {labels : List (Label ω A ε π)} (hrun : Runs.Run (Step exec entry) (idle s) labels c) :
    ∃ labels' d, Runs.Run (Solo.Step exec entry) (System.idle s) labels' d ∧ d.shared = c.shared := by
  rcases hrun.simulation (serial_idle s) fun _ _ _ _ h hstep => h.step hstep with ⟨labels', d, hserial, hd⟩
  exact ⟨labels', d, hserial, hd.shared⟩

/-- Programs that keep an invariant keep it in every concurrent run. -/
theorem inv_of_run {inv : σ → Prop}
    (hentry : ∀ prog, entry prog → Triple exec inv (fun _ => True) prog (fun _ _ => True) fun _ _ => True)
    {s : σ} {labels : List (Label ω A ε π)} (hs : inv s)
    (hrun : Runs.Run (Step exec entry) (idle s) labels c) : inv c.shared := by
  rcases run_serial hrun with ⟨labels', d, hserial, hd⟩
  rw [← hd]
  exact Solo.inv_of_run hentry hs hserial

/-- A serial run, seen as the calls of one process. -/
def lift (d : System.Config ω A ε σ Unit) : Config ω A ε σ Unit :=
  ⟨d.shared, (d.procs ()).map fun _ => (), d.procs⟩

theorem holder_lift {p : Unit} {prog : Prog ω A ε Unit} (h : d.procs p = some prog) :
    (lift d).holder = some p := by
  show (d.procs ()).map _ = some p
  rw [h]
  rfl

/-- Calls made one after another are a run behind the lock. -/
theorem run_of_serial {s : σ} {labels : List (System.Label ω A ε Unit)} {d : System.Config ω A ε σ Unit}
    (hrun : Runs.Run (Solo.Step exec entry) (System.idle s) labels d) :
    ∃ labels', Runs.Run (Step exec entry) (idle s : Config ω A ε σ Unit) labels' (lift d) := by
  have hstep : ∀ d l d', Solo.Step exec entry d l d' →
      ∃ labels', Runs.Run (Step exec entry) (lift d) labels' (lift d') := by
    intro d l d' h
    cases h with
    | start p prog hnone hentry =>
      have hcall : Step exec entry (lift d) _ _ := Step.call (lift d) p prog hnone hentry
      have hacquire : Step exec entry _ _ _ :=
        Step.acquire ⟨d.shared, (lift d).holder, Function.update d.procs p (some prog)⟩ p prog (by simp)
          (by show (d.procs ()).map _ = none; rw [hnone]; rfl)
      have hlift : lift { d with procs := Function.update d.procs p (some prog) } =
          ⟨d.shared, some p, Function.update d.procs p (some prog)⟩ := by simp [lift]
      rw [hlift]
      exact ⟨_, (Runs.Run.single hcall).append (Runs.Run.single hacquire)⟩
    | act p o k a t hprog hexec =>
      have hheld := holder_lift hprog
      have hact : Step exec entry (lift d) _ _ := Step.act (lift d) p o k a t hheld hprog hexec
      have hlift : lift ⟨t, Function.update d.procs p (some (k a))⟩ =
          ⟨t, (lift d).holder, Function.update d.procs p (some (k a))⟩ := by rw [hheld]; simp [lift]
      rw [hlift]
      exact ⟨_, Runs.Run.single hact⟩
    | returned p hprog =>
      have hheld := holder_lift hprog
      have hend : Step exec entry (lift d) _ _ := Step.returned (lift d) p hheld hprog
      have hlift : lift { d with procs := Function.update d.procs p none } =
          ⟨d.shared, none, Function.update d.procs p none⟩ := by simp [lift]
      rw [hlift]
      exact ⟨_, Runs.Run.single hend⟩
    | threw p e hprog =>
      have hheld := holder_lift hprog
      have hend : Step exec entry (lift d) _ _ := Step.threw (lift d) p e hheld hprog
      have hlift : lift { d with procs := Function.update d.procs p none } =
          ⟨d.shared, none, Function.update d.procs p none⟩ := by simp [lift]
      rw [hlift]
      exact ⟨_, Runs.Run.single hend⟩
    | crash p prog t hprog hcrash =>
      have hheld := holder_lift hprog
      have hend : Step exec entry (lift d) _ _ := Step.crash (lift d) p prog hprog
      have hlift : lift ⟨d.shared, Function.update d.procs p none⟩ =
          ⟨d.shared, if (lift d).holder = some p then none else (lift d).holder,
            Function.update d.procs p none⟩ := by rw [if_pos hheld]; simp [lift]
      have hsame : t = d.shared := hcrash
      rw [hsame, hlift]
      exact ⟨_, Runs.Run.single hend⟩
    | env t henv => exact henv.elim
  induction hrun with
  | refl => exact ⟨[], Runs.Run.refl⟩
  | snoc _ hlast ih =>
    rcases ih with ⟨labels', hfirst⟩
    rcases hstep _ _ _ hlast with ⟨labels'', hnext⟩
    exact ⟨labels' ++ labels'', hfirst.append hnext⟩

end Locked
