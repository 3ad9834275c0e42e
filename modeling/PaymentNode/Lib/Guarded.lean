import PaymentNode.Lib.Prog

/-!
# Guarded — processes on a shared state that one lock guards in part

Programs take the lock for a section and go on without it.  A part of the shared state is changed by the
holder of the lock only (`Law.guarded`), the rest by anyone, within what `Law.rely` lets the others do.
`Meets` is the specification of a program with the lock or without it, about the shared state alone: who
holds the lock is kept track of by the rules.  `inv_of_run` is the invariant of every interleaving.  Nothing
here names a program.
-/

namespace Guarded

open Discipline System

variable {ω : Type} {A : ω → Type} {ε σ π γ α β : Type}

structure State (σ π : Type) where
  core : σ
  holder : Option π

inductive Op (ω : Type)
  | lock
  | unlock
  | act (o : ω)

/-- The lock answers whether it was taken. -/
abbrev Op.Answer (A : ω → Type) : Op ω → Type
  | lock => Bool
  | unlock => Unit
  | act o => A o

abbrev Program (ω : Type) (A : ω → Type) (ε α : Type) := Prog (Op ω) (Op.Answer A) ε α

def act (o : ω) : Program ω A ε (A o) := Prog.perform (Op.act o)

/-- An operation whose failure is thrown. -/
def run (o : ω) (h : A o = Except ε α) : Program ω A ε α :=
  (act o).bind fun answer => Prog.ofExcept (h ▸ answer)

/-- A body under the lock; a call that does not get the lock throws. -/
def withLock (busy : ε) (x : Program ω A ε α) : Program ω A ε α :=
  Prog.op Op.lock fun taken => if taken then x.finally' (Prog.perform Op.unlock) else Prog.fail busy

/-- What an operation of a process, and its death, make of the shared state. -/
structure World (ω : Type) (A : ω → Type) (σ π : Type) where
  exec : π → σ → (o : ω) → A o → σ → Prop
  crash : π → σ → σ → Prop

/-- The invariant, what each process lets the others do, and the part that the lock guards. -/
structure Law (σ π γ : Type) where
  inv : σ → Prop
  rely : π → σ → σ → Prop
  guarded : σ → γ
  refl : ∀ p c, rely p c c

variable [DecidableEq π] {W : World ω A σ π} {L : Law σ π γ} {p : π} {l : Bool}

def system (W : World ω A σ π) : System (Op ω) (Op.Answer A) (State σ π) π where
  exec := fun p s o a t =>
    match o, a with
    | .lock, taken => if taken then s.holder = none ∧ t = { s with holder := some p } else t = s
    | .unlock, _ => t = { s with holder := dropped p s.holder }
    | .act o, a => t.holder = s.holder ∧ W.exec p s.core o a t.core
  crash := fun p s t => t.holder = dropped p s.holder ∧ W.crash p s.core t.core
  env := fun _ _ => False

def discipline (L : Law σ π γ) : Discipline (State σ π) π :=
  ⟨fun s => L.inv s.core, fun q s t =>
    (s.holder = some q → t.holder = some q ∧ L.guarded t.core = L.guarded s.core) ∧ L.rely q s.core t.core⟩

/-- `p` holds the lock, where it should. -/
def Own (p : π) (l : Bool) (s : State σ π) : Prop := l = true → s.holder = some p

/-- A fact that no step of the others takes away, with the lock or without it. -/
def Stable (L : Law σ π γ) (p : π) (l : Bool) (P : σ → Prop) : Prop :=
  ∀ c c', L.inv c → L.inv c' → L.rely p c c' → (l = true → L.guarded c' = L.guarded c) → P c → P c'

/-- A step of `p` that keeps the invariant and that every other process allows for. -/
def Keeps (L : Law σ π γ) (p : π) (l : Bool) (c c' : σ) : Prop :=
  L.inv c' ∧ (∀ q, q ≠ p → L.rely q c c') ∧ (l = false → L.guarded c' = L.guarded c)

/-- From `P`, `x` answers with `Q` or throws with `E`, and has the lock then as it had it before. -/
def Meets (W : World ω A σ π) (L : Law σ π γ) (p : π) (l : Bool) (P : σ → Prop) (x : Program ω A ε α)
    (Q : α → σ → Prop) (E : ε → σ → Prop) : Prop :=
  (discipline L).Spec (system W) p (fun s => Own p l s ∧ P s.core) x (fun a s => Own p l s ∧ Q a s.core)
    fun e s => Own p l s ∧ E e s.core

section Rules

variable {P N : σ → Prop} {x : Program ω A ε α} {f : α → Program ω A ε β} {Q Q' M : α → σ → Prop}
  {R : β → σ → Prop} {E E' F : ε → σ → Prop}

omit [DecidableEq π] in
theorem Stable.and {P Q : σ → Prop} (hP : Stable L p l P) (hQ : Stable L p l Q) :
    Stable L p l fun c => P c ∧ Q c :=
  fun c c' hc hc' hrely hkept h => ⟨hP c c' hc hc' hrely hkept h.1, hQ c c' hc hc' hrely hkept h.2⟩

omit [DecidableEq π] in
theorem Stable.const {c : Prop} : Stable L p l fun _ => c :=
  fun _ _ _ _ _ _ h => h

omit [DecidableEq π] in
/-- What the lock guards stays, for its holder. -/
theorem Stable.guarded {P : γ → Prop} : Stable L p true fun c => P (L.guarded c) := by
  intro c c' _ _ _ hkept h
  show P (L.guarded c')
  rw [hkept rfl]
  exact h

omit [DecidableEq π] in
/-- A fact that needs no lock stays with it. -/
theorem Stable.held {P : σ → Prop} (h : Stable L p false P) : Stable L p l P :=
  fun c c' hc hc' hrely _ hP => h c c' hc hc' hrely (by simp) hP

omit [DecidableEq π] in
theorem Stable.own {P : σ → Prop} (h : Stable L p l P) :
    (discipline L).Stable p fun s => Own p l s ∧ P s.core := by
  rintro s t ⟨hs, ht, hlock, hrely⟩ ⟨hown, hP⟩
  exact ⟨fun hl => (hlock (hown hl)).1, h s.core t.core hs ht hrely (fun hl => (hlock (hown hl)).2) hP⟩

omit [DecidableEq π] in
theorem Keeps.refl {c : σ} (hc : L.inv c) : Keeps L p l c c :=
  ⟨hc, fun q _ => L.refl q c, fun _ => rfl⟩

theorem Meets.ret {a : α} (h : ∀ c, L.inv c → P c → Q a c) : Meets W L p l P (Prog.ret a) Q E :=
  Spec.ret fun s hs hP => ⟨hP.1, h s.core hs hP.2⟩

theorem Meets.fail {e : ε} (h : ∀ c, L.inv c → P c → E e c) : Meets W L p l P (Prog.fail e) Q E :=
  Spec.fail fun s hs hP => ⟨hP.1, h s.core hs hP.2⟩

theorem Meets.conseq (h : Meets W L p l N x Q' E') (hP : ∀ c, L.inv c → P c → N c)
    (hQ : ∀ a c, L.inv c → Q' a c → Q a c) (hE : ∀ e c, L.inv c → E' e c → E e c) :
    Meets W L p l P x Q E :=
  Spec.conseq h (fun s hs hPs => ⟨hPs.1, hP s.core hs hPs.2⟩) (fun a s hs hQs => ⟨hQs.1, hQ a s.core hs hQs.2⟩)
    fun e s hs hEs => ⟨hEs.1, hE e s.core hs hEs.2⟩

theorem Meets.pre (h : Meets W L p l N x Q E) (hP : ∀ c, L.inv c → P c → N c) : Meets W L p l P x Q E :=
  h.conseq hP (fun _ _ _ h => h) fun _ _ _ h => h

theorem Meets.forget (h : Meets W L p l (fun _ => True) x Q E) : Meets W L p l P x Q E :=
  h.pre fun _ _ _ => trivial

theorem Meets.post (h : Meets W L p l P x Q' E) (hQ : ∀ a c, L.inv c → Q' a c → Q a c) :
    Meets W L p l P x Q E :=
  h.conseq (fun _ _ h => h) hQ fun _ _ _ h => h

/-- A fact that does not speak of the state is assumed beside it. -/
theorem Meets.assume {c : Prop} (h : c → Meets W L p l P x Q E) :
    Meets W L p l (fun s => c ∧ P s) x Q E :=
  fun s hs hP => h hP.2.1 s hs ⟨hP.1, hP.2.2⟩

theorem Meets.bind (hx : Meets W L p l P x M E) (hf : ∀ a, Meets W L p l (M a) (f a) R E) :
    Meets W L p l P (x.bind f) R E :=
  Spec.bind hx hf

theorem Meets.handle {h : ε → Program ω A ε α} (hx : Meets W L p l P x Q F)
    (hh : ∀ e, Meets W L p l (F e) (h e) Q E) : Meets W L p l P (x.handle h) Q E :=
  Spec.handle hx hh

theorem Meets.attempt (hx : Meets W L p l P x Q F) :
    Meets W L p l P x.attempt (fun r c => match r with | .ok a => Q a c | .error e => F e c) E := by
  apply Meets.handle (F := F)
  · exact Meets.bind hx fun _ => Meets.ret fun _ _ h => h
  · exact fun _ => Meets.ret fun _ _ h => h

theorem Meets.ite {c : Prop} [Decidable c] {y : Program ω A ε α} (hx : c → Meets W L p l P x Q E)
    (hy : ¬ c → Meets W L p l P y Q E) : Meets W L p l P (if c then x else y) Q E := by
  split
  · exact hx ‹c›
  · exact hy ‹¬ c›

theorem Meets.ofExcept {r : Except ε α} (hok : ∀ a c, r = .ok a → L.inv c → P c → Q a c)
    (herror : ∀ e c, r = .error e → L.inv c → P c → E e c) :
    Meets W L p l P (Prog.ofExcept r : Program ω A ε α) Q E := by
  cases r with
  | ok a => exact Meets.ret fun c hc hP => hok a c rfl hc hP
  | error e => exact Meets.fail fun c hc hP => herror e c rfl hc hP

theorem Meets.act {o : ω} {Q : A o → σ → Prop} (hP : Stable L p l P)
    (h : ∀ c a c', L.inv c → P c → W.exec p c o a c' → Keeps L p l c c' ∧ Q a c') :
    Meets W L p l P (act o : Program ω A ε (A o)) Q E := by
  have hstable := hP.own
  unfold Meets Guarded.act Prog.perform
  apply Spec.op (o := Op.act o) (M := fun a s => Own p l s ∧ Q a s.core) hstable
  · rintro s a t hs ⟨hown, hPs⟩ ⟨hholder, hexec⟩
    rcases h s.core a t.core hs hPs hexec with ⟨⟨hinv, hrely, hguarded⟩, hQ⟩
    refine ⟨⟨hinv, fun q hq => ⟨fun hother => ⟨?_, ?_⟩, hrely q hq⟩⟩, fun hl => ?_, hQ⟩
    · rw [hholder]
      exact hother
    · cases l with
      | false => exact hguarded rfl
      | true => exact (hq (Option.some.inj (hother.symm.trans (hown rfl)))).elim
    · rw [hholder]
      exact hown hl
  · exact fun _ => Spec.ret fun _ _ h => h

/-- One operation whose failure is thrown. -/
theorem Meets.run {o : ω} {h : A o = Except ε α} (hP : Stable L p l P)
    (hop : ∀ c c' (answer : A o), L.inv c → P c → W.exec p c o answer c' →
      Keeps L p l c c' ∧
        match (h ▸ answer : Except ε α) with
        | .ok a => Q a c'
        | .error e => E e c') :
    Meets W L p l P (run o h) Q E := by
  apply Meets.bind (M := fun answer c' =>
    match (h ▸ answer : Except ε α) with
    | .ok a => Q a c'
    | .error e => E e c')
  · exact Meets.act hP fun c a c' hc hPc hexec => hop c c' a hc hPc hexec
  · intro answer
    generalize (h ▸ answer : Except ε α) = r
    cases r with
    | ok a => exact Meets.ret fun _ _ h => h
    | error e => exact Meets.fail fun _ _ h => h

/-- One such operation, whatever it answers. -/
theorem Meets.run_any {o : ω} {h : A o = Except ε α} {M : σ → Prop} (hP : Stable L p l P)
    (hop : ∀ c c' (answer : A o), L.inv c → P c → W.exec p c o answer c' → Keeps L p l c c' ∧ M c')
    (hE : ∀ e c, M c → E e c) : Meets W L p l P (Guarded.run o h) (fun _ => M) E := by
  apply Meets.bind (M := fun _ => M)
  · exact Meets.act hP fun c a c' hc hPc hexec => hop c c' a hc hPc hexec
  · exact fun _ => Meets.ofExcept (fun _ _ _ _ h => h) fun e c _ _ h => hE e c h

/-- **A section under the lock.**  What it knows of the guarded part is true until the lock is given up. -/
theorem Meets.withLock {busy : ε} (hP : Stable L p false P) (hQ : ∀ a, Stable L p true (Q a))
    (hE : ∀ e, Stable L p true (E e)) (hbusy : ∀ c, P c → E busy c) (hx : Meets W L p true P x Q E) :
    Meets W L p false P (withLock busy x) Q E := by
  have hstable := hP.own
  apply Spec.op (M := fun taken s =>
    if taken then Own p true s ∧ P s.core else Own p false s ∧ P s.core) hstable
  · rintro s taken t hs ⟨_, hPs⟩ hexec
    cases taken with
    | false =>
      have hsame : t = s := hexec
      subst hsame
      exact ⟨⟨hs, fun q _ => ⟨fun h => ⟨h, rfl⟩, L.refl q t.core⟩⟩, fun h => (nomatch h), hPs⟩
    | true =>
      rcases hexec with ⟨hfree, rfl⟩
      refine ⟨⟨hs, fun q _ => ⟨fun h => ?_, L.refl q s.core⟩⟩, fun _ => rfl, hPs⟩
      rw [hfree] at h
      cases h
  · intro taken
    cases taken with
    | false => exact Spec.fail fun s _ h => ⟨h.1, hbusy s.core h.2⟩
    | true =>
      -- Giving the lock up changes nothing else.
      have hunlock : ∀ (K : σ → Prop) (F : ε → State σ π → Prop), Stable L p true K →
          (discipline L).Spec (system W) p (fun s => Own p true s ∧ K s.core)
            (Prog.perform Op.unlock : Program ω A ε Unit) (fun _ s => Own p false s ∧ K s.core) F := by
        intro K F hK
        have hkept := hK.own
        apply Spec.op (M := fun _ s => Own p false s ∧ K s.core) hkept
        · rintro s _ t hs ⟨hown, hKs⟩ rfl
          exact ⟨⟨hs, fun q hq => ⟨fun h => ⟨dropped_ne hq h, rfl⟩, L.refl q s.core⟩⟩, fun h => (nomatch h), hKs⟩
        · exact fun _ => Spec.ret fun _ _ h => h
      exact Spec.finally hx (fun a => hunlock (Q a) _ (hQ a)) fun e => hunlock (E e) _ (hE e)

end Rules

/-- **Programs that keep an invariant keep it in every interleaving**, wherever they die. -/
theorem inv_of_run {entry : π → Program ω A ε Unit → Prop}
    (hentry : ∀ p prog, entry p prog →
      Meets W L p false (fun _ => True) prog (fun _ _ => True) fun _ _ => True)
    (hcrash : ∀ p c c', L.inv c → W.crash p c c' → Keeps L p false c c') {s : State σ π}
    {labels : List (System.Label (Op ω) (Op.Answer A) ε π)}
    {c : System.Config (Op ω) (Op.Answer A) ε (State σ π) π} (hs : L.inv s.core)
    (hrun : Runs.Run (System.Step (system W) entry) (System.idle s) labels c) : L.inv c.shared.core := by
  have hall : ∀ p prog, entry p prog →
      (discipline L).Spec (system W) p (fun _ => True) prog (fun _ _ => True) fun _ _ => True := by
    intro p prog hprog
    have hmeets := hentry p prog hprog
    exact Spec.conseq hmeets (fun _ _ _ => ⟨fun h => (nomatch h), trivial⟩) (fun _ _ _ _ => trivial)
      fun _ _ _ _ => trivial
  have hdies : ∀ p s t, (discipline L).inv s → (system W).crash p s t → (discipline L).Keeps p s t := by
    rintro p s t hinv ⟨hholder, hdead⟩
    rcases hcrash p s.core t.core hinv hdead with ⟨hnext, hrely, hguarded⟩
    refine ⟨hnext, fun q hq => ⟨fun h => ⟨?_, hguarded rfl⟩, hrely q hq⟩⟩
    rw [hholder]
    exact dropped_ne hq h
  exact invariant_of_wp (D := discipline L) (S := system W) hall hdies (fun _ _ _ h => h.elim) hs hrun

end Guarded
