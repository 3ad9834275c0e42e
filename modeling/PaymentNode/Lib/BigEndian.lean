import Mathlib.Data.List.Basic
import Mathlib.Data.Nat.Notation
import Mathlib.Tactic.Ring

/-!
# BigEndian — byte strings as numbers

`value` is the number a byte string stands for, most significant byte first; `fixed` writes a number in a given
number of bytes and `strip` drops the zero bytes a string begins with.
-/

namespace BigEndian

abbrev Bytes := List UInt8

def value (bytes : Bytes) : ℕ := bytes.foldl (fun n b => n * 256 + b.toNat) 0

/-- The low `width` bytes of `n`. -/
def fixed : ℕ → ℕ → Bytes
  | 0, _ => []
  | width + 1, n => fixed width (n / 256) ++ [UInt8.ofNat n]

def strip (bytes : Bytes) : Bytes := bytes.dropWhile (· == 0)

def pad (width : ℕ) (bytes : Bytes) : Bytes := List.replicate (width - bytes.length) 0 ++ bytes

/-! ## Values -/

theorem foldl_value (bytes : Bytes) (n : ℕ) :
    bytes.foldl (fun n b => n * 256 + b.toNat) n = n * 256 ^ bytes.length + value bytes := by
  induction bytes generalizing n with
  | nil => simp [value]
  | cons b rest ih =>
    have hvalue : value (b :: rest) = b.toNat * 256 ^ rest.length + value rest := by
      unfold value
      rw [List.foldl_cons, ih]
      simp [value]
    rw [List.foldl_cons, ih, hvalue, List.length_cons, pow_succ]
    ring

@[simp] theorem value_nil : value [] = 0 := rfl

theorem value_cons (b : UInt8) (rest : Bytes) : value (b :: rest) = b.toNat * 256 ^ rest.length + value rest := by
  have hfold := foldl_value rest (0 * 256 + b.toNat)
  rw [Nat.zero_mul, Nat.zero_add] at hfold
  unfold value
  rw [List.foldl_cons, Nat.zero_mul, Nat.zero_add]
  exact hfold

theorem value_append (a b : Bytes) : value (a ++ b) = value a * 256 ^ b.length + value b := by
  unfold value
  rw [List.foldl_append, foldl_value b]
  rfl

theorem value_concat (bytes : Bytes) (b : UInt8) : value (bytes ++ [b]) = value bytes * 256 + b.toNat := by
  rw [value_append, value_cons]
  simp

theorem value_lt (bytes : Bytes) : value bytes < 256 ^ bytes.length := by
  induction bytes with
  | nil => exact Nat.one_pos
  | cons b rest ih =>
    have hb : b.toNat < 256 := b.toNat_lt
    have hdigit : b.toNat * 256 ^ rest.length ≤ 255 * 256 ^ rest.length := Nat.mul_le_mul_right _ (by omega)
    rw [value_cons, List.length_cons, pow_succ]
    omega

/-- Byte strings of one length are told apart by their values. -/
theorem value_inj {a b : Bytes} (hlength : a.length = b.length) (h : value a = value b) : a = b := by
  induction a generalizing b with
  | nil => exact (List.eq_nil_of_length_eq_zero hlength.symm).symm
  | cons x rest ih =>
    cases b with
    | nil => cases hlength
    | cons y others =>
      have hlen : rest.length = others.length := Nat.succ.inj hlength
      have hrest := value_lt rest
      have hothers := value_lt others
      rw [← hlen] at hothers
      rw [value_cons, value_cons, ← hlen] at h
      have hpos : 0 < 256 ^ rest.length := Nat.pow_pos (by decide)
      have hfirst : x.toNat = y.toNat := by
        have hdiv := congrArg (· / 256 ^ rest.length) h
        simp only [Nat.mul_comm _ (256 ^ rest.length), Nat.mul_add_div hpos, Nat.div_eq_of_lt hrest,
          Nat.div_eq_of_lt hothers, Nat.add_zero] at hdiv
        exact hdiv
      rw [hfirst] at h
      rw [UInt8.toNat_inj.mp hfirst, ih hlen (by omega)]

@[simp] theorem value_zeros (n : ℕ) : value (List.replicate n 0) = 0 := by
  induction n with
  | zero => rfl
  | succ n ih => rw [List.replicate_succ, value_cons, ih]; simp

/-! ## Fixed width -/

@[simp] theorem length_fixed (width n : ℕ) : (fixed width n).length = width := by
  induction width generalizing n with
  | zero => rfl
  | succ width ih => rw [fixed, List.length_append, ih, List.length_singleton]

theorem value_fixed {width n : ℕ} (h : n < 256 ^ width) : value (fixed width n) = n := by
  induction width generalizing n with
  | zero =>
    rw [pow_zero, Nat.lt_one_iff] at h
    rw [h]
    rfl
  | succ width ih =>
    have hdiv : n / 256 < 256 ^ width := by
      rw [pow_succ] at h
      omega
    rw [fixed, value_concat, ih hdiv, UInt8.toNat_ofNat']
    omega

variable {bytes : Bytes}

@[simp] theorem length_pad {width : ℕ} (h : bytes.length ≤ width) : (pad width bytes).length = width := by
  unfold pad
  rw [List.length_append, List.length_replicate]
  omega

@[simp] theorem value_pad (width : ℕ) (bytes : Bytes) : value (pad width bytes) = value bytes := by
  unfold pad
  rw [value_append, value_zeros, Nat.zero_mul, Nat.zero_add]

theorem fixed_value {width : ℕ} (h : bytes.length ≤ width) : fixed width (value bytes) = pad width bytes := by
  have hlt : value bytes < 256 ^ width :=
    lt_of_lt_of_le (value_lt bytes) (Nat.pow_le_pow_right (by decide) h)
  exact value_inj (by rw [length_fixed, length_pad h]) (by rw [value_fixed hlt, value_pad])

/-! ## Leading zeros -/

theorem strip_zeros_append (n : ℕ) (bytes : Bytes) : strip (List.replicate n 0 ++ bytes) = strip bytes := by
  induction n with
  | zero => rfl
  | succ n ih =>
    rw [List.replicate_succ, List.cons_append]
    exact ih

@[simp] theorem strip_pad (width : ℕ) (bytes : Bytes) : strip (pad width bytes) = strip bytes := strip_zeros_append _ _

theorem strip_of_head (h : bytes.head? ≠ some 0) : strip bytes = bytes := by
  cases bytes with
  | nil => rfl
  | cons b rest =>
    have hb : ¬ ((b == 0) = true) := fun hzero => h (by rw [List.head?_cons, eq_of_beq hzero])
    exact List.dropWhile_cons_of_neg hb

theorem head_strip (bytes : Bytes) : (strip bytes).head? ≠ some 0 := by
  intro hzero
  have hhead := List.head?_dropWhile_not (p := (· == 0)) bytes
  unfold strip at hzero
  rw [hzero] at hhead
  simp at hhead

theorem strip_eq_self : strip bytes = bytes ↔ bytes.head? ≠ some 0 :=
  ⟨fun h => h ▸ head_strip bytes, strip_of_head⟩

theorem length_strip_le (bytes : Bytes) : (strip bytes).length ≤ bytes.length := by
  unfold strip
  exact (List.dropWhile_suffix _).length_le

theorem exists_zeros (bytes : Bytes) : ∃ n, bytes = List.replicate n 0 ++ strip bytes := by
  induction bytes with
  | nil => exact ⟨0, rfl⟩
  | cons b rest ih =>
    by_cases hb : b = 0
    · obtain ⟨n, hn⟩ := ih
      refine ⟨n + 1, ?_⟩
      have hstrip : strip (b :: rest) = strip rest := by
        rw [hb]
        rfl
      rw [hstrip, List.replicate_succ, List.cons_append, ← hn, hb]
    · refine ⟨0, ?_⟩
      rw [strip_of_head (by rwa [List.head?_cons, ne_eq, Option.some.injEq])]
      rfl

@[simp] theorem value_strip (bytes : Bytes) : value (strip bytes) = value bytes := by
  obtain ⟨n, hn⟩ := exists_zeros bytes
  conv_rhs => rw [hn]
  rw [value_append, value_zeros, Nat.zero_mul, Nat.zero_add]

theorem strip_fixed {width : ℕ} (h : bytes.length ≤ width) :
    strip (fixed width (value bytes)) = strip bytes := by
  rw [fixed_value h, strip_pad]

end BigEndian
