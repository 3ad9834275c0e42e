import Mathlib.Data.Nat.Digits.Lemmas
import Mathlib.Tactic.Ring

/-!
# Limbs — numbers held limb by limb, multiplied and added to in place

The least significant limb stands first; the number is `Nat.ofDigits`.
-/

namespace Limbs

/-- Multiplies every limb by `factor`, the carry running towards the end; what is carried out of the last limb. -/
def mulAdd (base factor : ℕ) : ℕ → List ℕ → List ℕ × ℕ
  | carry, [] => ([], carry)
  | carry, limb :: rest =>
    let next := limb * factor + carry
    (next % base :: (mulAdd base factor (next / base) rest).1, (mulAdd base factor (next / base) rest).2)

section Facts

variable (base factor carry : ℕ) (limbs : List ℕ)

theorem length_mulAdd : (mulAdd base factor carry limbs).1.length = limbs.length := by
  induction limbs generalizing carry with
  | nil => rfl
  | cons limb rest ih => rw [mulAdd, List.length_cons, List.length_cons, ih]

variable {base}

theorem mulAdd_lt (hbase : 0 < base) : ∀ limb ∈ (mulAdd base factor carry limbs).1, limb < base := by
  induction limbs generalizing carry with
  | nil => exact fun _ h => absurd h List.not_mem_nil
  | cons limb rest ih =>
    rw [mulAdd, List.forall_mem_cons]
    exact ⟨Nat.mod_lt _ hbase, ih _⟩

variable (base)

/-- Limbs and carry out together are the number times the factor plus the carry in. -/
theorem mulAdd_value : Nat.ofDigits base (mulAdd base factor carry limbs).1 +
    (mulAdd base factor carry limbs).2 * base ^ limbs.length = Nat.ofDigits base limbs * factor + carry := by
  induction limbs generalizing carry with
  | nil => simp [mulAdd]
  | cons limb rest ih =>
    have hrest := ih ((limb * factor + carry) / base)
    have hsplit := Nat.mod_add_div (limb * factor + carry) base
    rw [mulAdd, Nat.ofDigits_cons, Nat.ofDigits_cons, List.length_cons, pow_succ]
    calc (limb * factor + carry) % base + base * Nat.ofDigits base (mulAdd base factor _ rest).1 +
          (mulAdd base factor _ rest).2 * (base ^ rest.length * base)
        = (limb * factor + carry) % base + base * (Nat.ofDigits base (mulAdd base factor _ rest).1 +
            (mulAdd base factor _ rest).2 * base ^ rest.length) := by ring
      _ = (limb * factor + carry) % base + base * (Nat.ofDigits base rest * factor + (limb * factor + carry) / base) := by
          rw [hrest]
      _ = (limb + base * Nat.ofDigits base rest) * factor + carry := by
          rw [Nat.mul_add, ← Nat.add_assoc, Nat.add_right_comm, hsplit]
          ring

/-- Nothing is carried out exactly where the product fits the limbs. -/
theorem carry_eq_zero_iff {base : ℕ} (hbase : 1 < base) : (mulAdd base factor carry limbs).2 = 0 ↔
    Nat.ofDigits base limbs * factor + carry < base ^ limbs.length := by
  have hvalue := mulAdd_value base factor carry limbs
  have hlt : Nat.ofDigits base (mulAdd base factor carry limbs).1 < base ^ limbs.length := by
    have h := Nat.ofDigits_lt_base_pow_length hbase (mulAdd_lt factor carry limbs (by omega))
    rwa [length_mulAdd] at h
  constructor
  · intro hzero
    rw [hzero, Nat.zero_mul, Nat.add_zero] at hvalue
    omega
  · intro hfits
    by_contra hne
    have hone : base ^ limbs.length ≤ (mulAdd base factor carry limbs).2 * base ^ limbs.length :=
      Nat.le_mul_of_pos_left _ (Nat.pos_of_ne_zero hne)
    omega

end Facts

end Limbs
