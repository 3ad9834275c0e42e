import Mathlib.Logic.Function.Basic
import Mathlib.Logic.Relation

/-!
# Runs — finite runs of a labelled step relation

`Run step s ls t` says that the labels `ls`, taken in order from `s`, end in `t`.  An invariant is
proved for one step and lifted to every run by `Run.invariant`; when only the steps with an
admitted label keep it, by `Run.invariant_of_labels`.  `Run.simulation` carries a run of one system
to another along a relation between their states.  Nothing here names a program.
-/

namespace Runs

variable {σ τ ℓ : Type*}

/-- A finite run, grown at its end: the last label is the last step taken. -/
inductive Run (step : σ → ℓ → σ → Prop) : σ → List ℓ → σ → Prop
  | refl {s : σ} : Run step s [] s
  | snoc {s t u : σ} {ls : List ℓ} {l : ℓ} :
      Run step s ls t → step t l u → Run step s (ls ++ [l]) u

namespace Run

variable {step : σ → ℓ → σ → Prop} {s t u : σ} {ls ms : List ℓ}

theorem single {l : ℓ} (h : step s l t) : Run step s [l] t := by
  simpa using Run.snoc Run.refl h

theorem append (h : Run step s ls t) (h' : Run step t ms u) : Run step s (ls ++ ms) u := by
  induction h' with
  | refl => simpa using h
  | snoc _ hstep ih =>
    rw [← List.append_assoc]
    exact Run.snoc ih hstep

theorem cons {l : ℓ} (h : step s l t) (h' : Run step t ms u) : Run step s (l :: ms) u := by
  simpa using (single h).append h'

/-- The run invariant rule: what holds at the start and is kept by each step holds at the end. -/
theorem invariant {I : σ → Prop} (h : Run step s ls t) (hs : I s)
    (hstep : ∀ s l t, I s → step s l t → I t) : I t := by
  induction h with
  | refl => exact hs
  | snoc _ hlast ih => exact hstep _ _ _ ih hlast

/-- The invariant rule for runs whose labels all satisfy `Q`. -/
theorem invariant_of_labels {I : σ → Prop} {Q : ℓ → Prop} (h : Run step s ls t)
    (hQ : ∀ l ∈ ls, Q l) (hs : I s) (hstep : ∀ s l t, I s → Q l → step s l t → I t) : I t := by
  induction h with
  | refl => exact hs
  | @snoc t u ls l _ hlast ih =>
    have hinit : I t := ih fun m hm => hQ m (List.mem_append_left _ hm)
    exact hstep _ _ _ hinit (hQ l (by simp)) hlast

/-- A run of one relation is a run of every wider one. -/
theorem mono {step' : σ → ℓ → σ → Prop} (h : Run step s ls t)
    (hstep : ∀ s l t, step s l t → step' s l t) : Run step' s ls t := by
  induction h with
  | refl => exact refl
  | snoc _ hlast ih => exact snoc ih (hstep _ _ _ hlast)

/-- A relation kept by matching steps carries a whole run. -/
theorem simulation {κ : Type*} {step' : τ → κ → τ → Prop} {R : σ → τ → Prop} {s' : τ}
    (h : Run step s ls t) (hs : R s s')
    (hstep : ∀ s l t s', R s s' → step s l t → ∃ ms t', Run step' s' ms t' ∧ R t t') :
    ∃ ms t', Run step' s' ms t' ∧ R t t' := by
  induction h with
  | refl => exact ⟨[], s', Run.refl, hs⟩
  | snoc _ hlast ih =>
    obtain ⟨ms, t', hrun, hR⟩ := ih
    obtain ⟨ns, u', hrun', hR'⟩ := hstep _ _ _ _ hR hlast
    exact ⟨ms ++ ns, u', hrun.append hrun', hR'⟩

end Run

/-- The end of a run of a partial step function, where every step of it is defined. -/
def play (step : σ → ℓ → Option σ) : σ → List ℓ → Option σ
  | s, [] => some s
  | s, l :: ls => (step s l).bind fun t => play step t ls

theorem run_of_play {step : σ → ℓ → Option σ} {s t : σ} {ls : List ℓ} (h : play step s ls = some t) :
    Run (fun s l t => step s l = some t) s ls t := by
  induction ls generalizing s with
  | nil =>
    cases h
    exact Run.refl
  | cons l ls ih =>
    rcases Option.bind_eq_some_iff.mp h with ⟨middle, hmiddle, hrest⟩
    exact Run.cons hmiddle (ih hrest)

end Runs
