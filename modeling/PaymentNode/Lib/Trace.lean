import PaymentNode.Lib.Prog

/-!
# Trace — programs that are known by the log they leave

The state is a world and a log, newest event first.  An operation adds events to the log (`effect`); the world
moves by its own rules and decides which events it lets happen (`Rules`).  `LawfulLog` holds of a log whose every
event is lawful after the older ones, and `Walks` is the specification of a program that only adds lawful events,
stated about the log alone.  So one walk over the programs serves every world: what is then to be proved of all
runs is an induction on lawful logs (`lawful_of_run`), with what the world itself guarantees (`world_of_run`).
Nothing here names a program.
-/

namespace Trace

open Discipline

/-- What the world is now, and everything that happened, newest first. -/
structure Shared (W Ev : Type) where
  world : W
  log : List Ev

/-- How a world goes on, and the events it lets happen after a log. -/
structure Rules (W Ev : Type) where
  moves : W → W → Prop
  allows : W → List Ev → Ev → Prop

/-- No constraint at all. -/
def Rules.any (W Ev : Type) : Rules W Ev := ⟨fun _ _ => True, fun _ _ _ => True⟩

/-- What an operation with its answer makes of the log. -/
abbrev Effect (ω : Type) (A : ω → Type) (Ev : Type) := List Ev → (o : ω) → A o → List Ev → Prop

variable {ω : Type} {A : ω → Type} {ε α β W Ev : Type}

/-- Each event of `log'` above `log` is one the world lets happen. -/
def Allowed (rules : Rules W Ev) (w : W) (log : List Ev) : List Ev → Prop
  | [] => True
  | e :: log' => e :: log' = log ∨ (rules.allows w log' e ∧ Allowed rules w log log')

/-- Processes that run one after another, each of which can die anywhere. -/
def system (effect : Effect ω A Ev) (rules : Rules W Ev) : System ω A (Shared W Ev) Unit where
  exec := fun _ s o a t =>
    rules.moves s.world t.world ∧ effect s.log o a t.log ∧ Allowed rules t.world s.log t.log
  crash := fun _ s t => t = s
  env := fun s t => rules.moves s.world t.world ∧ t.log = s.log

/-- Every event is lawful after the older ones. -/
def LawfulLog (lawful : List Ev → Ev → Prop) : List Ev → Prop
  | [] => True
  | e :: log => lawful log e ∧ LawfulLog lawful log

variable {lawful : List Ev → Ev → Prop}

theorem LawfulLog.of_suffix {log older : List Ev}
    (h : LawfulLog lawful log) (hsuffix : older <:+ log) : LawfulLog lawful older := by
  rcases hsuffix with ⟨newer, rfl⟩
  induction newer with
  | nil => exact h
  | cons e newer ih => exact ih h.2

theorem LawfulLog.of_mem {log : List Ev} {e : Ev}
    (h : LawfulLog lawful log) (he : e ∈ log) : ∃ older, older <:+ log ∧ lawful older e := by
  induction log with
  | nil => cases he
  | cons f log ih =>
    rcases List.mem_cons.mp he with rfl | he
    · exact ⟨log, List.suffix_cons _ _, h.1⟩
    · rcases ih h.2 he with ⟨older, hsuffix, hlawful⟩
      exact ⟨older, hsuffix.trans (List.suffix_cons _ _), hlawful⟩

theorem LawfulLog.of_split {newer older : List Ev} {e : Ev}
    (h : LawfulLog lawful (newer ++ e :: older)) : lawful older e :=
  (h.of_suffix ⟨newer, rfl⟩).1

/-- What is lawful only where it never was before happens once. -/
theorem LawfulLog.count_le_one {p : Ev → Bool} {log : List Ev}
    (h : LawfulLog lawful log) (hnew : ∀ older e, lawful older e → p e = true → ∀ x ∈ older, ¬ p x = true) :
    log.countP p ≤ 1 := by
  induction log with
  | nil => simp
  | cons e log ih =>
    by_cases he : p e = true
    · have hnone : log.countP p = 0 := List.countP_eq_zero.mpr (hnew log e h.1 he)
      rw [List.countP_cons_of_pos he]
      omega
    · rw [List.countP_cons_of_neg he]
      exact ih h.2

/-- The world moves beside a program without a trace in the log. -/
def discipline (lawful : List Ev → Ev → Prop) : Discipline (Shared W Ev) Unit :=
  ⟨fun s => LawfulLog lawful s.log, fun _ s t => t.log = s.log⟩

/-- From a lawful log with `P`, `x` adds only lawful events, and answers with `Q` or throws with `E`. -/
def Walks (effect : Effect ω A Ev) (rules : Rules W Ev) (lawful : List Ev → Ev → Prop)
    (P : List Ev → Prop) (x : Prog ω A ε α) (Q : α → List Ev → Prop) (E : ε → List Ev → Prop) : Prop :=
  (discipline (W := W) lawful).Spec (system effect rules) () (fun s => P s.log) x
    (fun a s => Q a s.log) fun e s => E e s.log

section Walks

variable {effect : Effect ω A Ev} {rules : Rules W Ev} {lawful : List Ev → Ev → Prop}
  {P N : List Ev → Prop} {x : Prog ω A ε α} {f : α → Prog ω A ε β} {Q Q' M : α → List Ev → Prop}
  {R : β → List Ev → Prop} {E E' F : ε → List Ev → Prop}

theorem Walks.ret {a : α} (h : ∀ log, P log → Q a log) :
    Walks effect rules lawful P (Prog.ret a) Q E :=
  Spec.ret fun s _ hP => h s.log hP

theorem Walks.fail {e : ε} (h : ∀ log, P log → E e log) :
    Walks effect rules lawful P (Prog.fail e : Prog ω A ε α) Q E :=
  Spec.fail fun s _ hP => h s.log hP

theorem Walks.conseq (h : Walks effect rules lawful N x Q' E') (hP : ∀ log, P log → N log)
    (hQ : ∀ a log, Q' a log → Q a log) (hE : ∀ e log, E' e log → E e log) :
    Walks effect rules lawful P x Q E :=
  Spec.conseq h (fun s _ hs => hP s.log hs) (fun a s _ hs => hQ a s.log hs)
    fun e s _ hs => hE e s.log hs

theorem Walks.pre (h : Walks effect rules lawful N x Q E) (hP : ∀ log, P log → N log) :
    Walks effect rules lawful P x Q E :=
  h.conseq hP (fun _ _ h => h) fun _ _ h => h

/-- A fact that does not speak of the log is assumed beside it. -/
theorem Walks.assume {c : Prop} (h : c → Walks effect rules lawful P x Q E) :
    Walks effect rules lawful (fun log => c ∧ P log) x Q E :=
  fun s hs hP => h hP.1 s hs hP.2

/-- A program is walked from the lawful log it starts with. -/
theorem Walks.lawful_pre
    (h : Walks effect rules lawful (fun log => LawfulLog lawful log ∧ P log) x Q E) :
    Walks effect rules lawful P x Q E :=
  fun s hs hP => h s hs ⟨hs, hP⟩

theorem Walks.bind (hx : Walks effect rules lawful P x M E)
    (hf : ∀ a, Walks effect rules lawful (M a) (f a) R E) :
    Walks effect rules lawful P (x.bind f) R E :=
  Spec.bind hx hf

theorem Walks.handle {h : ε → Prog ω A ε α} (hx : Walks effect rules lawful P x Q F)
    (hh : ∀ e, Walks effect rules lawful (F e) (h e) Q E) :
    Walks effect rules lawful P (x.handle h) Q E :=
  Spec.handle hx hh

theorem Walks.attempt (hx : Walks effect rules lawful P x Q F) :
    Walks effect rules lawful P x.attempt
      (fun r log => match r with | .ok a => Q a log | .error e => F e log) E :=
  (Spec.attempt hx).conseq (fun _ _ h => h) (fun r _ _ h => by cases r <;> exact h) fun _ _ _ h => h

theorem Walks.ite {c : Prop} [Decidable c] {y : Prog ω A ε α}
    (hx : c → Walks effect rules lawful P x Q E) (hy : ¬ c → Walks effect rules lawful P y Q E) :
    Walks effect rules lawful P (if c then x else y) Q E := by
  split
  · exact hx ‹c›
  · exact hy ‹¬ c›

/-- A first step that is chosen, before one rest. -/
theorem Walks.branch {c : Prop} [Decidable c] {y : Prog ω A ε α}
    (hx : c → Walks effect rules lawful P x M E) (hy : ¬ c → Walks effect rules lawful P y M E)
    (hf : ∀ a, Walks effect rules lawful (M a) (f a) R E) :
    Walks effect rules lawful P (if c then x.bind f else y.bind f) R E :=
  Walks.ite (fun h => Walks.bind (hx h) hf) fun h => Walks.bind (hy h) hf

theorem stable_log : (discipline (W := W) lawful).Stable () fun s => P s.log := by
  intro s t h hP
  have hlog : t.log = s.log := h.2.2
  rw [hlog]
  exact hP

theorem Walks.perform {o : ω} {Q : A o → List Ev → Prop}
    (h : ∀ log log' a, LawfulLog lawful log → P log → effect log o a log' →
      LawfulLog lawful log' ∧ Q a log') :
    Walks effect rules lawful P (Prog.perform o) Q E := by
  apply Spec.op (M := fun a s => Q a s.log) stable_log
  · intro s a t hs hP hexec
    rcases h s.log t.log a hs hP hexec.2.1 with ⟨hlawful, hQ⟩
    exact ⟨⟨hlawful, fun q hq => absurd rfl hq⟩, hQ⟩
  · exact fun a => Spec.ret fun s _ hQ => hQ

/-- One operation whose failure is thrown. -/
theorem Walks.run {o : ω} {h : A o = Except ε α}
    (hop : ∀ log log' (answer : A o), LawfulLog lawful log → P log → effect log o answer log' →
      LawfulLog lawful log' ∧
        match (h ▸ answer : Except ε α) with
        | .ok a => Q a log'
        | .error e => E e log') :
    Walks effect rules lawful P (Prog.run o h) Q E := by
  apply Walks.bind (M := fun answer log =>
    match (h ▸ answer : Except ε α) with
    | .ok a => Q a log
    | .error e => E e log)
  · exact Walks.perform hop
  · intro answer
    generalize (h ▸ answer : Except ε α) = r
    cases r with
    | ok a => exact Walks.ret fun _ h => h
    | error e => exact Walks.fail fun _ h => h

theorem Walks.ofExcept {r : Except ε α} (hok : ∀ a log, r = .ok a → P log → Q a log)
    (herror : ∀ e log, r = .error e → P log → E e log) :
    Walks effect rules lawful P (Prog.ofExcept r : Prog ω A ε α) Q E := by
  cases r with
  | ok a => exact Walks.ret fun log h => hok a log rfl h
  | error e => exact Walks.fail fun log h => herror e log rfl h

end Walks

/-! ## Programs that only read -/

section Reads

variable (effect : Effect ω A Ev) (rules : Rules W Ev) (lawful : List Ev → Ev → Prop)
  (quiet : Ev → Prop)

/-- No quiet event takes the fact away. -/
def Kept (P : List Ev → Prop) : Prop := ∀ log e, quiet e → P log → P (e :: log)

/-- `x` adds only quiet events, and from `K` answers with `Φ`. -/
def Reads (K : List Ev → Prop) (x : Prog ω A ε α) (Φ : α → List Ev → Prop) : Prop :=
  ∀ P, Kept quiet P → (∀ log, P log → K log) →
    Walks effect rules lawful P x (fun a log => P log ∧ Φ a log) fun _ log => P log

variable {effect rules lawful quiet} {K : List Ev → Prop} {x : Prog ω A ε α}
  {f : α → Prog ω A ε β} {Φ : α → List Ev → Prop} {Ψ : β → List Ev → Prop}

theorem Kept.and {P P' : List Ev → Prop} (h : Kept quiet P) (h' : Kept quiet P') :
    Kept quiet fun log => P log ∧ P' log :=
  fun log e he hP => ⟨h log e he hP.1, h' log e he hP.2⟩

theorem kept_const {c : Prop} : Kept quiet fun _ : List Ev => c := fun _ _ _ h => h

theorem Reads.ret {a : α} (h : ∀ log, K log → Φ a log) :
    Reads effect rules lawful quiet K (Prog.ret a : Prog ω A ε α) Φ :=
  fun _ _ hK => Walks.ret fun log hP => ⟨hP, h log (hK log hP)⟩

theorem Reads.fail {e : ε} : Reads effect rules lawful quiet K (Prog.fail e : Prog ω A ε α) Φ :=
  fun _ _ _ => Walks.fail fun _ hP => hP

theorem Reads.bind (hx : Reads effect rules lawful quiet K x Φ) (hΦ : ∀ a, Kept quiet (Φ a))
    (hf : ∀ a, Reads effect rules lawful quiet (fun log => K log ∧ Φ a log) (f a) Ψ) :
    Reads effect rules lawful quiet K (x.bind f) Ψ := by
  intro P hP hK
  apply Walks.bind (M := fun a log => P log ∧ Φ a log)
  · exact hx P hP hK
  · intro a
    have hrest := hf a (fun log => P log ∧ Φ a log) (hP.and (hΦ a)) fun log h => ⟨hK log h.1, h.2⟩
    exact hrest.conseq (fun _ h => h) (fun _ _ h => ⟨h.1.1, h.2⟩) fun _ _ h => h.1

theorem Reads.handle {h : ε → Prog ω A ε α} (hx : Reads effect rules lawful quiet K x Φ)
    (hh : ∀ e, Reads effect rules lawful quiet K (h e) Φ) :
    Reads effect rules lawful quiet K (x.handle h) Φ :=
  fun P hP hK => Walks.handle (hx P hP hK) fun e => hh e P hP hK

theorem Reads.mono {K' : List Ev → Prop} {Φ' : α → List Ev → Prop}
    (hx : Reads effect rules lawful quiet K' x Φ') (hK : ∀ log, K log → K' log)
    (hΦ : ∀ a log, Φ' a log → Φ a log) : Reads effect rules lawful quiet K x Φ := by
  intro P hP hPK
  exact (hx P hP fun log h => hK log (hPK log h)).conseq (fun _ h => h)
    (fun a log h => ⟨h.1, hΦ a log h.2⟩) fun _ _ h => h

theorem Reads.ite {c : Prop} [Decidable c] {y : Prog ω A ε α}
    (hx : c → Reads effect rules lawful quiet K x Φ)
    (hy : ¬ c → Reads effect rules lawful quiet K y Φ) :
    Reads effect rules lawful quiet K (if c then x else y) Φ := by
  split
  · exact hx ‹c›
  · exact hy ‹¬ c›

/-- One operation whose failure is thrown, that adds at most quiet lawful events. -/
theorem Reads.run {o : ω} {h : A o = Except ε α}
    (hop : ∀ log log' (answer : A o), K log → effect log o answer log' →
      (log' = log ∨ ∃ e, quiet e ∧ lawful log e ∧ log' = e :: log) ∧
        ∀ a, (h ▸ answer : Except ε α) = .ok a → Φ a log') :
    Reads effect rules lawful quiet K (Prog.run o h) Φ := by
  intro P hP hK
  apply Walks.run
  intro log log' answer hlawful hPlog heffect
  rcases hop log log' answer (hK log hPlog) heffect with ⟨hlog, hΦ⟩
  have hnext : LawfulLog lawful log' ∧ P log' := by
    rcases hlog with rfl | ⟨e, he, hle, rfl⟩
    · exact ⟨hlawful, hPlog⟩
    · exact ⟨⟨hle, hlawful⟩, hP log e he hPlog⟩
  refine ⟨hnext.1, ?_⟩
  generalize (h ▸ answer : Except ε α) = r at hΦ
  cases r with
  | ok a => exact ⟨hnext.2, hΦ a rfl⟩
  | error e => exact hnext.2

/-- One operation that adds at most quiet lawful events. -/
theorem Reads.perform {o : ω} {Φ : A o → List Ev → Prop}
    (hop : ∀ log log' (answer : A o), K log → effect log o answer log' →
      (log' = log ∨ ∃ e, quiet e ∧ lawful log e ∧ log' = e :: log) ∧ Φ answer log') :
    Reads effect rules lawful quiet K (Prog.perform o : Prog ω A ε (A o)) Φ := by
  intro P hP hK
  apply Walks.perform
  intro log log' answer hlawful hPlog heffect
  rcases hop log log' answer (hK log hPlog) heffect with ⟨hlog, hΦ⟩
  rcases hlog with rfl | ⟨e, he, hle, rfl⟩
  · exact ⟨hlawful, hPlog, hΦ⟩
  · exact ⟨⟨hle, hlawful⟩, hP log e he hPlog, hΦ⟩

/-- A program that only reads begins. -/
theorem Walks.reads {P : List Ev → Prop} {R : β → List Ev → Prop} {E : ε → List Ev → Prop}
    (hx : Reads effect rules lawful quiet K x Φ) (hP : Kept quiet P) (hK : ∀ log, P log → K log)
    (hE : ∀ e log, P log → E e log)
    (hf : ∀ a, Walks effect rules lawful (fun log => P log ∧ Φ a log) (f a) R E) :
    Walks effect rules lawful P (x.bind f) R E := by
  apply Walks.bind (M := fun a log => P log ∧ Φ a log)
  · exact (hx P hP hK).conseq (fun _ h => h) (fun _ _ h => h) hE
  · exact hf

/-- A read that asks nothing of the log, where nothing is asked of an error either. -/
theorem Walks.peeks {P : List Ev → Prop} {R : β → List Ev → Prop}
    (hx : Reads effect rules lawful quiet (fun _ => True) x Φ) (hP : Kept quiet P)
    (hf : ∀ a, Walks effect rules lawful (fun log => P log ∧ Φ a log) (f a) R fun _ _ => True) :
    Walks effect rules lawful P (x.bind f) R fun _ _ => True :=
  Walks.reads hx hP (fun _ _ => trivial) (fun _ _ _ => trivial) hf

end Reads

/-! ## Whole runs -/

section Runs

variable {effect : Effect ω A Ev} {rules : Rules W Ev} {lawful : List Ev → Ev → Prop}
  {entry : Prog ω A ε Unit → Prop}

/-- The steps of calls made one after another, each running to its end or dying anywhere. -/
abbrev Step (effect : Effect ω A Ev) (rules : Rules W Ev) (entry : Prog ω A ε Unit → Prop) :=
  System.Step (system effect rules) fun (_ : Unit) prog => entry prog

/-- **Walked programs leave lawful logs**, whatever the world does. -/
theorem lawful_of_run
    (hentry : ∀ prog, entry prog →
      Walks effect rules lawful (fun _ => True) prog (fun _ _ => True) fun _ _ => True)
    {w : W} {labels : List (System.Label ω A ε Unit)} {c : System.Config ω A ε (Shared W Ev) Unit}
    (hrun : Runs.Run (Step effect rules entry) (System.idle ⟨w, []⟩) labels c) :
    LawfulLog lawful c.shared.log := by
  apply invariant_of_wp (D := discipline (W := W) lawful) (S := system effect rules)
    (fun _ prog h => hentry prog h) _ _ _ hrun
  · intro p s t hs hcrash
    cases hcrash
    exact ⟨hs, fun q hq => absurd rfl hq⟩
  · rintro s t hs ⟨-, hlog⟩
    refine ⟨?_, fun _ => hlog⟩
    show LawfulLog lawful t.log
    rw [hlog]
    exact hs
  · exact (trivial : LawfulLog lawful ([] : List Ev))

/-- What the moves of the world and the events it lets happen preserve holds in every run. -/
theorem world_of_run {I : W → List Ev → Prop} (hmoves : ∀ w w' log, rules.moves w w' → I w log → I w' log)
    (hallows : ∀ w log e, rules.allows w log e → I w log → I w (e :: log))
    (heffect : ∀ log o a log', effect log o a log' → log <:+ log')
    {w : W} {labels : List (System.Label ω A ε Unit)} {c : System.Config ω A ε (Shared W Ev) Unit}
    (hstart : I w []) (hrun : Runs.Run (Step effect rules entry) (System.idle ⟨w, []⟩) labels c) :
    I c.shared.world c.shared.log := by
  have hadded : ∀ w log newer, I w log → Allowed rules w log (newer ++ log) → I w (newer ++ log) := by
    intro w log newer hI hallowed
    induction newer with
    | nil => exact hI
    | cons e newer ih =>
      rcases hallowed with heq | ⟨he, hrest⟩
      · have hsame : e :: (newer ++ log) = log := heq
        have hlen := congrArg List.length hsame
        simp only [List.length_cons, List.length_append] at hlen
        omega
      · exact hallows _ _ _ he (ih hrest)
  apply hrun.invariant (I := fun c => I c.shared.world c.shared.log)
  · exact hstart
  · intro c label c' hI hstep
    cases hstep with
    | start => exact hI
    | act p o k a t _ hexec =>
      rcases hexec with ⟨hmove, heff, hallowed⟩
      rcases heffect _ _ _ _ heff with ⟨newer, hnewer⟩
      show I t.world t.log
      rw [← hnewer] at hallowed ⊢
      exact hadded _ _ _ (hmoves _ _ _ hmove hI) hallowed
    | returned => exact hI
    | threw => exact hI
    | crash p prog t _ hcrash =>
      cases hcrash
      exact hI
    | env t henv =>
      show I t.world t.log
      rw [henv.2]
      exact hmoves _ _ _ henv.1 hI

end Runs
end Trace
