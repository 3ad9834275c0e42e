import PaymentNode.Lib.Prog

/-!
# Solo — calls made one after another on a durable state

Calls that a lock serialises: one program runs at a time, it can die between any two of its operations, and
nothing else changes the state.  `Exec` says what an operation with its answer makes of the state, `Triple` is
the specification of a program under an invariant of the state, and `inv_of_run` is the invariant of every run.
`Exec.only` keeps to the operations that meet a condition, for what holds of runs whose steps all meet it.
Nothing here names a program.
-/

namespace Solo

open Discipline

/-- What an operation with its answer makes of the state. -/
abbrev Exec (ω : Type) (A : ω → Type) (σ : Type) := σ → (o : ω) → A o → σ → Prop

variable {ω : Type} {A : ω → Type} {ε σ α β : Type}

/-- The steps that meet a condition. -/
def Exec.only (exec : Exec ω A σ) (meets : σ → (o : ω) → A o → Prop) : Exec ω A σ :=
  fun s o a t => meets s o a ∧ exec s o a t

theorem Exec.only_true (exec : Exec ω A σ) : exec.only (fun _ _ _ => True) = exec := by
  funext s o a t
  simp [Exec.only]

def system (exec : Exec ω A σ) : System ω A σ Unit where
  exec := fun _ => exec
  crash := fun _ s t => t = s
  env := fun _ _ => False

abbrev Step (exec : Exec ω A σ) (entry : Prog ω A ε Unit → Prop) :=
  System.Step (system exec) fun (_ : Unit) prog => entry prog

/-- From a state under the invariant with `P`, `x` keeps the invariant and answers with `Q` or throws with `E`. -/
def Triple (exec : Exec ω A σ) (inv : σ → Prop) (P : σ → Prop) (x : Prog ω A ε α)
    (Q : α → σ → Prop) (E : ε → σ → Prop) : Prop :=
  (undisturbed inv).Spec (system exec) () P x Q E

section Rules

variable {exec : Exec ω A σ} {inv : σ → Prop} {P N : σ → Prop} {x : Prog ω A ε α}
  {f : α → Prog ω A ε β} {Q Q' M : α → σ → Prop} {R : β → σ → Prop} {E E' F : ε → σ → Prop}

theorem Triple.ret {a : α} (h : ∀ s, inv s → P s → Q a s) :
    Triple exec inv P (Prog.ret a) Q E :=
  Spec.ret h

theorem Triple.fail {e : ε} (h : ∀ s, inv s → P s → E e s) :
    Triple exec inv P (Prog.fail e : Prog ω A ε α) Q E :=
  Spec.fail h

theorem Triple.conseq (h : Triple exec inv N x Q' E') (hP : ∀ s, inv s → P s → N s)
    (hQ : ∀ a s, inv s → Q' a s → Q a s) (hE : ∀ e s, inv s → E' e s → E e s) :
    Triple exec inv P x Q E :=
  Spec.conseq h hP hQ hE

theorem Triple.pre (h : Triple exec inv N x Q E) (hP : ∀ s, inv s → P s → N s) :
    Triple exec inv P x Q E :=
  Spec.pre h hP

/-- A fact that does not speak of the state is assumed beside it. -/
theorem Triple.assume {c : Prop} (h : c → Triple exec inv P x Q E) :
    Triple exec inv (fun s => c ∧ P s) x Q E :=
  fun s hs hP => h hP.1 s hs hP.2

/-- A program whose precondition cannot hold. -/
theorem Triple.absurd (h : ∀ s, inv s → ¬ P s) : Triple exec inv P x Q E :=
  fun s hs hP => (h s hs hP).elim

theorem Triple.bind (hx : Triple exec inv P x M E)
    (hf : ∀ a, Triple exec inv (M a) (f a) R E) : Triple exec inv P (x.bind f) R E :=
  Spec.bind hx hf

theorem Triple.handle {h : ε → Prog ω A ε α} (hx : Triple exec inv P x Q F)
    (hh : ∀ e, Triple exec inv (F e) (h e) Q E) : Triple exec inv P (x.handle h) Q E :=
  Spec.handle hx hh

theorem Triple.attempt (hx : Triple exec inv P x Q F) :
    Triple exec inv P x.attempt
      (fun r s => match r with | .ok a => Q a s | .error e => F e s) E :=
  Spec.attempt hx

/-- What every operation leaves true stays true beside a specification. -/
theorem Triple.frame {K : σ → Prop} (hK : ∀ s o a t, exec s o a t → K s → K t)
    (h : Triple exec inv P x Q E) :
    Triple exec inv (fun s => P s ∧ K s) x (fun a s => Q a s ∧ K s) fun e s => E e s ∧ K s :=
  Spec.frame hK h

theorem Triple.ite {c : Prop} [Decidable c] {y : Prog ω A ε α}
    (hx : c → Triple exec inv P x Q E) (hy : ¬ c → Triple exec inv P y Q E) :
    Triple exec inv P (if c then x else y) Q E := by
  split
  · exact hx ‹c›
  · exact hy ‹¬ c›

theorem Triple.perform {o : ω} {Q : A o → σ → Prop}
    (h : ∀ s a t, inv s → P s → exec s o a t → inv t ∧ Q a t) :
    Triple exec inv P (Prog.perform o) Q E :=
  Spec.act h

theorem Triple.ofExcept {r : Except ε α} (hok : ∀ a s, r = .ok a → inv s → P s → Q a s)
    (herror : ∀ e s, r = .error e → inv s → P s → E e s) :
    Triple exec inv P (Prog.ofExcept r : Prog ω A ε α) Q E := by
  cases r with
  | ok a => exact Triple.ret fun s hs hP => hok a s rfl hs hP
  | error e => exact Triple.fail fun s hs hP => herror e s rfl hs hP

/-- One operation whose failure is thrown. -/
theorem Triple.run {o : ω} {h : A o = Except ε α}
    (hop : ∀ s t (answer : A o), inv s → P s → exec s o answer t →
      inv t ∧
        match (h ▸ answer : Except ε α) with
        | .ok a => Q a t
        | .error e => E e t) :
    Triple exec inv P (Prog.run o h) Q E := by
  apply Triple.bind (M := fun answer t =>
    match (h ▸ answer : Except ε α) with
    | .ok a => Q a t
    | .error e => E e t)
  · exact Triple.perform fun s a t hs hP hexec => hop s t a hs hP hexec
  · intro answer
    generalize (h ▸ answer : Except ε α) = r
    cases r with
    | ok a => exact Triple.ret fun _ _ h => h
    | error e => exact Triple.fail fun _ _ h => h

end Rules

/-! ## Programs that leave the state alone -/

section Silent

variable {exec : Exec ω A σ} {inv : σ → Prop} {P : σ → Prop} {x : Prog ω A ε α} {f : α → Prog ω A ε β}
  {Φ Φ' : α → Prop} {Ψ : β → Prop} {R : β → σ → Prop} {E : ε → σ → Prop}

/-- `x` leaves the state alone, and what it answers satisfies `Φ`. -/
def Silent (exec : Exec ω A σ) (inv : σ → Prop) (x : Prog ω A ε α) (Φ : α → Prop) : Prop :=
  ∀ P : σ → Prop, Triple exec inv P x (fun a s => Φ a ∧ P s) fun _ => P

theorem Silent.ret {a : α} (h : Φ a) : Silent exec inv (Prog.ret a : Prog ω A ε α) Φ :=
  fun _ => Triple.ret fun _ _ hP => ⟨h, hP⟩

theorem Silent.fail {e : ε} : Silent exec inv (Prog.fail e : Prog ω A ε α) Φ :=
  fun _ => Triple.fail fun _ _ hP => hP

theorem Silent.mono (hx : Silent exec inv x Φ) (h : ∀ a, Φ a → Φ' a) : Silent exec inv x Φ' :=
  fun P => (hx P).conseq (fun _ _ h => h) (fun a _ _ hQ => ⟨h a hQ.1, hQ.2⟩) fun _ _ _ h => h

theorem Silent.bind (hx : Silent exec inv x Φ) (hf : ∀ a, Φ a → Silent exec inv (f a) Ψ) :
    Silent exec inv (x.bind f) Ψ := by
  intro P
  apply Triple.bind (hx P)
  intro a
  exact Triple.assume fun h => hf a h P

theorem Silent.ite {c : Prop} [Decidable c] {y : Prog ω A ε α}
    (hx : c → Silent exec inv x Φ) (hy : ¬ c → Silent exec inv y Φ) :
    Silent exec inv (if c then x else y) Φ := by
  split
  · exact hx ‹c›
  · exact hy ‹¬ c›

theorem Silent.ofExcept {r : Except ε α} (h : ∀ a, r = .ok a → Φ a) :
    Silent exec inv (Prog.ofExcept r : Prog ω A ε α) Φ := by
  cases r with
  | ok a => exact Silent.ret (h a rfl)
  | error e => exact Silent.fail

theorem Silent.perform {o : ω} {Φ : A o → Prop} (h : ∀ s a t, inv s → exec s o a t → t = s ∧ Φ a) :
    Silent exec inv (Prog.perform o : Prog ω A ε (A o)) Φ := by
  intro P
  apply Triple.perform
  intro s a t hs hP hexec
  rcases h s a t hs hexec with ⟨rfl, hΦ⟩
  exact ⟨hs, hΦ, hP⟩

theorem Silent.run {o : ω} {h : A o = Except ε α}
    (hop : ∀ s t (answer : A o), inv s → exec s o answer t →
      t = s ∧ ∀ a, (h ▸ answer : Except ε α) = .ok a → Φ a) :
    Silent exec inv (Prog.run o h) Φ := by
  intro P
  apply Triple.run
  intro s t answer hs hP hexec
  rcases hop s t answer hs hexec with ⟨rfl, hΦ⟩
  refine ⟨hs, ?_⟩
  generalize (h ▸ answer : Except ε α) = r at hΦ
  cases r with
  | ok a => exact ⟨hΦ a rfl, hP⟩
  | error e => exact hP

/-- A program that leaves the state alone begins. -/
theorem Triple.silent (hx : Silent exec inv x Φ) (hE : ∀ e s, inv s → P s → E e s)
    (hf : ∀ a, Φ a → Triple exec inv P (f a) R E) : Triple exec inv P (x.bind f) R E := by
  apply Triple.bind (M := fun a s => Φ a ∧ P s)
  · exact (hx P).conseq (fun _ _ h => h) (fun _ _ _ h => h) hE
  · exact fun a => Triple.assume fun h => hf a h

/-- Where nothing is asked of an error, a silent program only adds what its answer satisfies. -/
theorem Triple.skip (hx : Silent exec inv x Φ)
    (hf : ∀ a, Φ a → Triple exec inv P (f a) R fun _ _ => True) :
    Triple exec inv P (x.bind f) R fun _ _ => True :=
  Triple.silent hx (fun _ _ _ _ => trivial) hf

end Silent

/-! ## Whole runs -/

section Runs

variable {exec : Exec ω A σ} {inv : σ → Prop} {entry : Prog ω A ε Unit → Prop}

/-- **Programs that keep an invariant keep it in every run**, wherever they die. -/
theorem inv_of_run
    (hentry : ∀ prog, entry prog →
      Triple exec inv (fun _ => True) prog (fun _ _ => True) fun _ _ => True)
    {s : σ} {labels : List (System.Label ω A ε Unit)} {c : System.Config ω A ε σ Unit}
    (hs : inv s) (hrun : Runs.Run (Step exec entry) (System.idle s) labels c) : inv c.shared := by
  apply invariant_of_wp (D := undisturbed inv) (S := system exec) (fun _ prog h => hentry prog h)
    _ _ hs hrun
  · intro p s t hinv hcrash
    cases hcrash
    exact ⟨hinv, fun q hq => absurd rfl hq⟩
  · exact fun s t _ henv => henv.elim

/-- A call that ended did what its specification says. -/
theorem Triple.ends {P : σ → Prop} {x : Prog ω A ε α} {Q : α → σ → Prop} {E : ε → σ → Prop}
    (h : Triple exec inv P x Q E) {s t : σ} {r : Except ε α} (hs : inv s) (hP : P s)
    (hends : System.Ends (system exec) () x s r t) :
    match r with
    | .ok a => Q a t
    | .error e => E e t := by
  rcases Spec.ends h (fun _ _ henv => henv.elim) hs hP hends with ⟨u, hu, hstar⟩
  have hsame : t = u := undisturbed_refl hstar
  subst hsame
  cases r <;> exact hu

end Runs
end Solo
