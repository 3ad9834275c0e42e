import Mathlib.Data.Nat.Bitwise
import Mathlib.Data.List.Induction
import Mathlib.Order.Monotone.Defs

/-!
# Bits — folding over the binary digits of a number

`fold step start n count` changes `start` by `step k` for every bit `k < count` that `n` has, from the
lowest up: the shape of a power computed by repeated multiplication.  When each `step k` is monotone and the
bit `k` alone changes `start` at least as far as all bits below it together, the fold is monotone in `n`,
whatever is rounded away on the way.  Nothing here names a program.
-/

namespace Bits

variable {α : Type*}

def fold (step : ℕ → α → α) (start : α) (n : ℕ) : ℕ → α
  | 0 => start
  | k + 1 => if n.testBit k then step k (fold step start n k) else fold step start n k

variable {step : ℕ → α → α} {start : α}

theorem fold_congr {n m : ℕ} : ∀ {count : ℕ}, (∀ k < count, n.testBit k = m.testBit k) →
    fold step start n count = fold step start m count
  | 0, _ => rfl
  | count + 1, h => by
    have hbelow : fold step start n count = fold step start m count := fold_congr fun k hk => h k (by omega)
    rw [fold, fold, hbelow, h count (by omega)]

@[simp] theorem fold_zero (count : ℕ) : fold step start 0 count = start := by
  induction count with
  | zero => rfl
  | succ count ih => rw [fold, Nat.zero_testBit, if_neg Bool.false_ne_true, ih]

theorem fold_mod (n count : ℕ) : fold step start (n % 2 ^ count) count = fold step start n count :=
  fold_congr fun k hk => by rw [Nat.testBit_mod_two_pow, decide_eq_true hk, Bool.true_and]

theorem testBit_of_le {n k : ℕ} (hlow : 2 ^ k ≤ n) (hhigh : n < 2 ^ (k + 1)) : n.testBit k = true := by
  rw [Nat.testBit_eq_decide_div_mod_eq, decide_eq_true_eq]
  have hpow : 2 ^ (k + 1) = 2 ^ k * 2 := pow_succ 2 k
  have hone : n / 2 ^ k = 1 := Nat.div_eq_of_lt_le (by omega) (by omega)
  rw [hone]

theorem fold_of_lt {n k : ℕ} (h : n < 2 ^ k) : fold step start n (k + 1) = fold step start n k := by
  rw [fold, Nat.testBit_lt_two_pow h, if_neg Bool.false_ne_true]

theorem fold_of_le {n k : ℕ} (hlow : 2 ^ k ≤ n) (hhigh : n < 2 ^ (k + 1)) :
    fold step start n (k + 1) = step k (fold step start (n - 2 ^ k) k) := by
  have hpow : 2 ^ (k + 1) = 2 ^ k * 2 := pow_succ 2 k
  have hrest : n % 2 ^ k = n - 2 ^ k := by
    rw [Nat.mod_eq_sub_mod hlow, Nat.mod_eq_of_lt (by omega)]
  rw [fold, testBit_of_le hlow hhigh, if_pos rfl, ← fold_mod n k, hrest]

/-- A fold of monotone steps is monotone in the number when each bit outweighs those below it. -/
theorem fold_mono [Preorder α] : ∀ {count : ℕ}, (∀ k < count, Monotone (step k)) →
    (∀ k < count, fold step start (2 ^ k - 1) k ≤ step k start) →
    ∀ {m n : ℕ}, m ≤ n → n < 2 ^ count → fold step start m count ≤ fold step start n count
  | 0, _, _, m, n, _, _ => le_refl _
  | k + 1, hstep, hbit, m, n, hle, hn => by
    have ih : ∀ {a b : ℕ}, a ≤ b → b < 2 ^ k → fold step start a k ≤ fold step start b k :=
      fun hab hb => fold_mono (fun i hi => hstep i (by omega)) (fun i hi => hbit i (by omega)) hab hb
    have hpow : 2 ^ (k + 1) = 2 ^ k * 2 := pow_succ 2 k
    by_cases hntop : 2 ^ k ≤ n
    · rw [fold_of_le hntop hn]
      by_cases hmtop : 2 ^ k ≤ m
      · rw [fold_of_le hmtop (by omega)]
        exact hstep k (by omega) (ih (by omega) (by omega))
      · -- all bits of `m` lie below the bit `k` that only `n` has
        rw [fold_of_lt (by omega)]
        have hall : fold step start m k ≤ fold step start (2 ^ k - 1) k := ih (by omega) (by omega)
        have hzero : fold step start 0 k ≤ fold step start (n - 2 ^ k) k := ih (Nat.zero_le _) (by omega)
        rw [fold_zero] at hzero
        exact (hall.trans (hbit k (by omega))).trans (hstep k (by omega) hzero)
    · rw [fold_of_lt (by omega), fold_of_lt (by omega)]
      exact ih hle (by omega)

/-- A table of bits and factors, read from the lowest bit up, is such a fold. -/
theorem foldl_eq_fold {β : Type*} (change : β → α → α) (n : ℕ) (rows : List (ℕ × β)) (factor : ℕ → β)
    (hrows : ∀ k (h : k < rows.length), rows[k] = (2 ^ k, factor k)) :
    rows.foldl (fun r row => if n &&& row.1 ≠ 0 then change row.2 r else r) start =
      fold (fun k => change (factor k)) start n rows.length := by
  induction rows using List.reverseRecOn with
  | nil => rfl
  | append_singleton rows row ih =>
    have hlast : row = (2 ^ rows.length, factor rows.length) := by
      have h := hrows rows.length (by simp)
      simpa using h
    have hearlier : ∀ k (h : k < rows.length), rows[k] = (2 ^ k, factor k) := by
      intro k hk
      have h := hrows k (by rw [List.length_append]; omega)
      rwa [List.getElem_append_left hk] at h
    rw [List.foldl_append, ih hearlier, List.length_append, List.length_singleton, hlast]
    show (if n &&& 2 ^ rows.length ≠ 0 then _ else _) = _
    rw [fold, Nat.and_two_pow]
    cases n.testBit rows.length with
    | false => simp
    | true => simp

end Bits
