import Mathlib.Data.List.Basic
import Mathlib.Data.Nat.Digits.Defs
import Mathlib.Tactic.IntervalCases

/-!
# HexText — hexadecimal numerals as text

The digits of a number in base sixteen are `Nat.toDigits 16`: lower case, without a leading zero.  `read` is the
number a text of digits stands for, in either case.
-/

namespace HexText

def isDigit (c : Char) : Bool :=
  c.isDigit || ('a' ≤ c && c ≤ 'f') || ('A' ≤ c && c ≤ 'F')

def isLowerDigit (c : Char) : Bool := c.isDigit || ('a' ≤ c && c ≤ 'f')

/-- The value of a digit. -/
def value (c : Char) : ℕ :=
  if c.isDigit then c.toNat - 48 else if 'a' ≤ c then c.toNat - 87 else c.toNat - 55

def read (digits : List Char) : ℕ := digits.foldl (fun n c => 16 * n + value c) 0

/-- `n` in at least `width` digits. -/
def padded (width n : ℕ) : List Char :=
  List.replicate (width - (Nat.toDigits 16 n).length) '0' ++ Nat.toDigits 16 n

/-! ## Case -/

variable {c : Char}

theorem toLower_of_upper (h : 65 ≤ c.toNat ∧ c.toNat ≤ 90) : c.toLower.toNat = c.toNat + 32 := by
  have hupper : c.val ≥ 'A'.val ∧ c.val ≤ 'Z'.val := h
  have hval : c.toLower.val = c.val + 32 := by
    unfold Char.toLower
    rw [dif_pos hupper]
    rfl
  show c.toLower.val.toNat = c.val.toNat + 32
  have hsmall : c.val.toNat ≤ 90 := h.2
  rw [hval, UInt32.toNat_add]
  show (c.val.toNat + 32) % 2 ^ 32 = _
  omega

theorem toLower_of_not_upper (h : ¬ (65 ≤ c.toNat ∧ c.toNat ≤ 90)) : c.toLower = c := by
  have hupper : ¬ (c.val ≥ 'A'.val ∧ c.val ≤ 'Z'.val) := h
  unfold Char.toLower
  exact dif_neg hupper

theorem toLower_toLower (c : Char) : c.toLower.toLower = c.toLower := by
  by_cases h : 65 ≤ c.toNat ∧ c.toNat ≤ 90
  · have hlower := toLower_of_upper h
    exact toLower_of_not_upper (by omega)
  · rw [toLower_of_not_upper h, toLower_of_not_upper h]

theorem map_toLower_map_toLower (text : List Char) :
    (text.map Char.toLower).map Char.toLower = text.map Char.toLower := by
  rw [List.map_map]
  exact List.map_congr_left fun c _ => toLower_toLower c

theorem isLowerDigit_iff :
    isLowerDigit c = true ↔ (48 ≤ c.toNat ∧ c.toNat ≤ 57) ∨ (97 ≤ c.toNat ∧ c.toNat ≤ 102) := by
  unfold isLowerDigit
  rw [Bool.or_eq_true, Bool.and_eq_true, decide_eq_true_eq, decide_eq_true_eq, Char.isDigit, Bool.and_eq_true,
    decide_eq_true_eq, decide_eq_true_eq]
  exact Iff.rfl

theorem isDigit_iff :
    isDigit c = true ↔ isLowerDigit c = true ∨ (65 ≤ c.toNat ∧ c.toNat ≤ 70) := by
  unfold isDigit isLowerDigit
  rw [Bool.or_eq_true, Bool.and_eq_true, decide_eq_true_eq, decide_eq_true_eq]
  exact Iff.rfl

theorem isDigit_of_lower (h : isLowerDigit c = true) : isDigit c = true := isDigit_iff.mpr (Or.inl h)

theorem toLower_of_isLowerDigit (h : isLowerDigit c = true) : c.toLower = c := by
  rw [isLowerDigit_iff] at h
  exact toLower_of_not_upper (by omega)

theorem isLowerDigit_toLower (h : isDigit c = true) : isLowerDigit c.toLower = true := by
  rcases isDigit_iff.mp h with hlower | hupper
  · rw [toLower_of_isLowerDigit hlower]
    exact hlower
  · have htoNat := toLower_of_upper (c := c) (by omega)
    rw [isLowerDigit_iff]
    omega

theorem map_toLower_of_lower {digits : List Char} (h : ∀ c ∈ digits, isLowerDigit c = true) :
    digits.map Char.toLower = digits := by
  rw [List.map_congr_left fun c hc => toLower_of_isLowerDigit (h c hc), List.map_id']

/-! ## Reading back -/

theorem digitChar_facts : ∀ d < 16, isLowerDigit (Nat.digitChar d) = true ∧ value (Nat.digitChar d) = d ∧
    (Nat.digitChar d = '0' → d = 0) := by
  decide

theorem isLowerDigit_of_mem_toDigits {n : ℕ} : ∀ c ∈ Nat.toDigits 16 n, isLowerDigit c = true := by
  induction n using Nat.strong_induction_on with
  | _ n ih =>
    by_cases hn : n < 16
    · rw [Nat.toDigits_of_lt_base hn]
      intro c hc
      rw [List.mem_singleton] at hc
      rw [hc]
      exact (digitChar_facts n hn).1
    · rw [Nat.toDigits_of_base_le (by decide) (by omega)]
      intro c hc
      rcases List.mem_append.mp hc with hfirst | hlast
      · exact ih (n / 16) (by omega) c hfirst
      · rw [List.mem_singleton] at hlast
        rw [hlast]
        exact (digitChar_facts (n % 16) (by omega)).1

theorem read_append_singleton (digits : List Char) (c : Char) : read (digits ++ [c]) = 16 * read digits + value c := by
  unfold read
  rw [List.foldl_append]
  rfl

theorem foldl_read (digits : List Char) (n : ℕ) :
    digits.foldl (fun n c => 16 * n + value c) n = n * 16 ^ digits.length + read digits := by
  induction digits generalizing n with
  | nil => simp [read]
  | cons c rest ih =>
    rw [read, List.foldl_cons, List.foldl_cons, ih, ih, List.length_cons, pow_succ]
    ring

theorem read_cons (c : Char) (rest : List Char) : read (c :: rest) = value c * 16 ^ rest.length + read rest := by
  rw [read, List.foldl_cons, foldl_read, Nat.mul_zero, Nat.zero_add]

theorem read_append (a b : List Char) : read (a ++ b) = read a * 16 ^ b.length + read b := by
  rw [← foldl_read]
  exact List.foldl_append

theorem value_toLower (h : isDigit c = true) : value c.toLower = value c := by
  rcases isDigit_iff.mp h with hlower | hupper
  · rw [toLower_of_isLowerDigit hlower]
  · have hall : ∀ n, 65 ≤ n → n ≤ 70 → value (Char.ofNat n).toLower = value (Char.ofNat n) := by
      intro n hfirst hlast
      interval_cases n <;> decide
    rw [← Char.ofNat_toNat c]
    exact hall c.toNat hupper.1 hupper.2

theorem read_map_toLower {digits : List Char} (h : ∀ c ∈ digits, isDigit c = true) :
    read (digits.map Char.toLower) = read digits := by
  induction digits with
  | nil => rfl
  | cons c rest ih =>
    obtain ⟨hc, hrest⟩ := List.forall_mem_cons.mp h
    rw [List.map_cons, read_cons, read_cons, value_toLower hc, List.length_map, ih hrest]

theorem read_toDigits (n : ℕ) : read (Nat.toDigits 16 n) = n := by
  induction n using Nat.strong_induction_on with
  | _ n ih =>
    by_cases hn : n < 16
    · rw [Nat.toDigits_of_lt_base hn]
      show 16 * 0 + value (Nat.digitChar n) = n
      rw [(digitChar_facts n hn).2.1]
      omega
    · rw [Nat.toDigits_of_base_le (by decide) (by omega), read_append_singleton, ih (n / 16) (by omega),
        (digitChar_facts (n % 16) (by omega)).2.1]
      omega

/-- A number other than zero has no leading zero. -/
theorem head_toDigits {n : ℕ} (hn : n ≠ 0) : (Nat.toDigits 16 n).head? ≠ some '0' := by
  induction n using Nat.strong_induction_on with
  | _ n ih =>
    by_cases hsmall : n < 16
    · rw [Nat.toDigits_of_lt_base hsmall, List.head?_cons]
      intro hzero
      exact hn ((digitChar_facts n hsmall).2.2 (Option.some.inj hzero))
    · rw [Nat.toDigits_of_base_le (by decide) (by omega), List.head?_append_of_ne_nil _ Nat.toDigits_ne_nil]
      exact ih (n / 16) (by omega) (by omega)

theorem read_padded (width n : ℕ) : read (padded width n) = n := by
  have hzeros : ∀ k, read (List.replicate k '0') = 0 := by
    intro k
    induction k with
    | zero => rfl
    | succ k ih => rw [List.replicate_succ', read_append_singleton, ih]; rfl
  rw [padded, read_append, hzeros, Nat.zero_mul, Nat.zero_add, read_toDigits]

theorem length_padded {width n : ℕ} (hwidth : 0 < width) (h : n < 16 ^ width) : (padded width n).length = width := by
  have hlength := (Nat.length_toDigits_le_iff (by decide : 1 < 16) hwidth).mpr h
  unfold padded
  rw [List.length_append, List.length_replicate]
  omega

theorem isLowerDigit_of_mem_padded {width n : ℕ} : ∀ c ∈ padded width n, isLowerDigit c = true := by
  intro c hc
  rcases List.mem_append.mp hc with hzero | hdigit
  · rw [(List.mem_replicate.mp hzero).2]
    decide
  · exact isLowerDigit_of_mem_toDigits c hdigit

end HexText
