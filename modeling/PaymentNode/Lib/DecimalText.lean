import Mathlib.Data.List.DropRight
import Mathlib.Tactic.Ring

/-!
# DecimalText — decimal numerals as text

The digits of a number are `Nat.toDigits 10` and the number a text of digits stands for is `Nat.ofDigitChars 10`.
A canonical numeral has no leading zero; a canonical fraction has no trailing one.
-/

namespace DecimalText

def read (digits : List Char) : ℕ := Nat.ofDigitChars 10 digits 0

def print (n : ℕ) : List Char := Nat.toDigits 10 n

def Digits (text : List Char) : Prop := ∀ c ∈ text, c.isDigit = true

def isNonZeroDigit (c : Char) : Bool := c.isDigit && c != '0'

/-- `0|[1-9][0-9]*` -/
def isCanonical : List Char → Bool
  | [] => false
  | c :: rest => (c == '0' && rest.isEmpty) || (isNonZeroDigit c && rest.all Char.isDigit)

/-- `[0-9]*[1-9]` -/
def isFraction (text : List Char) : Bool :=
  text.all Char.isDigit && text.getLast?.any isNonZeroDigit

def padStart (width : ℕ) (text : List Char) : List Char := List.replicate (width - text.length) '0' ++ text

def padEnd (width : ℕ) (text : List Char) : List Char := text ++ List.replicate (width - text.length) '0'

/-- The text without the zeros it ends in. -/
def trimEnd (text : List Char) : List Char := text.rdropWhile (· == '0')

/-! ## Values -/

theorem isDigit_iff {c : Char} : c.isDigit = true ↔ 48 ≤ c.toNat ∧ c.toNat ≤ 57 := by
  rw [Char.isDigit, Bool.and_eq_true, decide_eq_true_eq, decide_eq_true_eq]
  exact Iff.rfl

@[simp] theorem read_nil : read [] = 0 := rfl

theorem read_append (a b : List Char) : read (a ++ b) = read a * 10 ^ b.length + read b := by
  unfold read
  rw [Nat.ofDigitChars_append, Nat.ofDigitChars_eq_ofDigitChars_zero, Nat.mul_comm]

theorem read_singleton (c : Char) : read [c] = c.toNat - 48 := by
  unfold read
  rw [Nat.ofDigitChars_cons, Nat.ofDigitChars_nil, Nat.mul_zero, Nat.zero_add]
  rfl

theorem read_cons (c : Char) (rest : List Char) : read (c :: rest) = (c.toNat - 48) * 10 ^ rest.length + read rest := by
  rw [← List.singleton_append, read_append, read_singleton]

theorem read_concat (text : List Char) (c : Char) : read (text ++ [c]) = read text * 10 + (c.toNat - 48) := by
  rw [read_append, read_singleton, List.length_singleton, pow_one]

@[simp] theorem read_zeros (n : ℕ) : read (List.replicate n '0') = 0 := by
  unfold read
  rw [Nat.ofDigitChars_replicate_zero, Nat.mul_zero]

@[simp] theorem read_print (n : ℕ) : read (print n) = n := Nat.ofDigitChars_ten_toDigits

theorem Digits.cons {c : Char} {rest : List Char} (h : Digits (c :: rest)) : c.isDigit = true ∧ Digits rest :=
  ⟨h c List.mem_cons_self, fun d hd => h d (List.mem_cons_of_mem c hd)⟩

theorem digits_append {a b : List Char} : Digits (a ++ b) ↔ Digits a ∧ Digits b := by
  unfold Digits
  rw [List.forall_mem_append]

variable {text : List Char}

theorem digits_of_all : text.all Char.isDigit = true ↔ Digits text := List.all_eq_true

theorem digits_zeros (n : ℕ) : Digits (List.replicate n '0') := by
  intro c hc
  rw [List.eq_of_mem_replicate hc]
  decide

theorem digits_print (n : ℕ) : Digits (print n) :=
  fun _ hc => Nat.isDigit_of_mem_toDigits (by decide) (by decide) hc

theorem read_lt (h : Digits text) : read text < 10 ^ text.length := by
  induction text with
  | nil => exact Nat.one_pos
  | cons c rest ih =>
    have hrest := ih h.cons.2
    have hc := isDigit_iff.mp h.cons.1
    have hdigit : (c.toNat - 48) * 10 ^ rest.length ≤ 9 * 10 ^ rest.length := Nat.mul_le_mul_right _ (by omega)
    rw [read_cons, List.length_cons, pow_succ]
    omega

/-- Numerals of one length are told apart by their values. -/
theorem read_inj {a b : List Char} (ha : Digits a) (hb : Digits b) (hlength : a.length = b.length)
    (h : read a = read b) : a = b := by
  induction a generalizing b with
  | nil => exact (List.eq_nil_of_length_eq_zero hlength.symm).symm
  | cons c rest ih =>
    cases b with
    | nil => cases hlength
    | cons d others =>
      have hlen : rest.length = others.length := Nat.succ.inj hlength
      have hc := isDigit_iff.mp ha.cons.1
      have hd := isDigit_iff.mp hb.cons.1
      have hrest := read_lt ha.cons.2
      have hothers := read_lt hb.cons.2
      rw [← hlen] at hothers
      rw [read_cons, read_cons, ← hlen] at h
      have hpos : 0 < 10 ^ rest.length := Nat.pow_pos (by decide)
      have hfirst : c.toNat - 48 = d.toNat - 48 := by
        have hdiv := congrArg (· / 10 ^ rest.length) h
        simp only [Nat.mul_comm _ (10 ^ rest.length), Nat.mul_add_div hpos, Nat.div_eq_of_lt hrest,
          Nat.div_eq_of_lt hothers, Nat.add_zero] at hdiv
        exact hdiv
      have hchar : c = d := Char.toNat_inj.mp (by omega)
      rw [hfirst] at h
      rw [hchar, ih ha.cons.2 hb.cons.2 hlen (by omega)]

/-! ## Canonical numerals -/

theorem isNonZeroDigit_iff {c : Char} : isNonZeroDigit c = true ↔ 49 ≤ c.toNat ∧ c.toNat ≤ 57 := by
  have hzero : c = '0' ↔ c.toNat = 48 := Char.toNat_inj.symm
  unfold isNonZeroDigit
  rw [Bool.and_eq_true, isDigit_iff, bne_iff_ne, ne_eq, hzero]
  omega

theorem isCanonical_iff : isCanonical text = true ↔
    text = ['0'] ∨ ∃ c rest, text = c :: rest ∧ isNonZeroDigit c = true ∧ Digits rest := by
  cases text with
  | nil => simp [isCanonical]
  | cons c rest => simp [isCanonical, Digits]

theorem digits_of_canonical (h : isCanonical text = true) : Digits text := by
  rcases isCanonical_iff.mp h with rfl | ⟨c, rest, rfl, hc, hrest⟩
  · exact digits_zeros 1
  · intro d hd
    rcases List.mem_cons.mp hd with rfl | hd
    · exact (Bool.and_eq_true _ _ ▸ hc).1
    · exact hrest d hd

/-- A canonical numeral of `k + 2` digits is at least `10 ^ (k + 1)`. -/
theorem canonical_ge (h : isCanonical text = true) (hlength : 1 < text.length) :
    10 ^ (text.length - 1) ≤ read text := by
  rcases isCanonical_iff.mp h with rfl | ⟨c, rest, rfl, hc, -⟩
  · exact absurd hlength (by decide)
  · have hdigit := isNonZeroDigit_iff.mp hc
    have hone : 1 * 10 ^ rest.length ≤ (c.toNat - 48) * 10 ^ rest.length := Nat.mul_le_mul_right _ (by omega)
    rw [read_cons, List.length_cons, Nat.add_sub_cancel]
    omega

theorem length_pos_of_canonical (h : isCanonical text = true) : 0 < text.length := by
  cases text with
  | nil => cases h
  | cons c rest => exact Nat.succ_pos _

theorem length_le_of_lt {k : ℕ} (h : isCanonical text = true) (hk : 0 < k)
    (hlt : read text < 10 ^ k) : text.length ≤ k := by
  by_contra hlong
  have hge := canonical_ge h (by omega)
  have hpow : 10 ^ k ≤ 10 ^ (text.length - 1) := Nat.pow_le_pow_right (by decide) (by omega)
  omega

theorem canonical_inj {a b : List Char} (ha : isCanonical a = true) (hb : isCanonical b = true)
    (h : read a = read b) : a = b := by
  have hapos := length_pos_of_canonical ha
  have hbpos := length_pos_of_canonical hb
  have hale := length_le_of_lt ha hbpos (h ▸ read_lt (digits_of_canonical hb))
  have hble := length_le_of_lt hb hapos (h ▸ read_lt (digits_of_canonical ha))
  exact read_inj (digits_of_canonical ha) (digits_of_canonical hb) (by omega) h

theorem digitChar_facts : ∀ d < 10, (Nat.digitChar d).toNat = 48 + d := by decide

theorem isCanonical_print (n : ℕ) : isCanonical (print n) = true := by
  induction n using Nat.strong_induction_on with
  | _ n ih =>
    by_cases hn : n < 10
    · have hprint : print n = [Nat.digitChar n] := Nat.toDigits_of_lt_base hn
      have hchar := digitChar_facts n hn
      rw [hprint, isCanonical_iff]
      by_cases hzero : n = 0
      · left
        rw [hzero]
        rfl
      · exact Or.inr ⟨_, [], rfl, isNonZeroDigit_iff.mpr (by omega), fun c hc => by cases hc⟩
    · have hprint : print n = print (n / 10) ++ [Nat.digitChar (n % 10)] :=
        Nat.toDigits_of_base_le (by decide) (by omega)
      have hlast : (Nat.digitChar (n % 10)).isDigit = true := by
        have hchar := digitChar_facts (n % 10) (by omega)
        rw [isDigit_iff]
        omega
      have hfirst := ih (n / 10) (by omega)
      rw [hprint]
      rcases isCanonical_iff.mp hfirst with hzero | ⟨c, rest, hshape, hc, hrest⟩
      · have hread := read_print (n / 10)
        rw [hzero] at hread
        have hnil : n / 10 = 0 := hread.symm
        omega
      · refine isCanonical_iff.mpr (Or.inr ⟨c, rest ++ [Nat.digitChar (n % 10)], by rw [hshape]; rfl, hc, ?_⟩)
        rw [digits_append]
        refine ⟨hrest, fun d hd => ?_⟩
        rw [List.mem_singleton.mp hd]
        exact hlast

/-- A canonical numeral is printed back from its value. -/
theorem print_read (h : isCanonical text = true) : print (read text) = text :=
  canonical_inj (isCanonical_print _) h (read_print _)

theorem length_print_le {n k : ℕ} (hk : 0 < k) : (print n).length ≤ k ↔ n < 10 ^ k :=
  Nat.length_toDigits_le_iff (by decide) hk

/-! ## Padding -/

theorem length_padStart {width : ℕ} (h : text.length ≤ width) :
    (padStart width text).length = width := by
  unfold padStart
  rw [List.length_append, List.length_replicate]
  omega

theorem length_padEnd {width : ℕ} (h : text.length ≤ width) :
    (padEnd width text).length = width := by
  unfold padEnd
  rw [List.length_append, List.length_replicate]
  omega

@[simp] theorem read_padStart (width : ℕ) (text : List Char) : read (padStart width text) = read text := by
  unfold padStart
  rw [read_append, read_zeros, Nat.zero_mul, Nat.zero_add]

theorem read_padEnd (width : ℕ) (text : List Char) :
    read (padEnd width text) = read text * 10 ^ (width - text.length) := by
  unfold padEnd
  rw [read_append, read_zeros, List.length_replicate, Nat.add_zero]

theorem digits_padStart (width : ℕ) (h : Digits text) : Digits (padStart width text) :=
  digits_append.mpr ⟨digits_zeros _, h⟩

theorem digits_padEnd (width : ℕ) (h : Digits text) : Digits (padEnd width text) :=
  digits_append.mpr ⟨h, digits_zeros _⟩

/-- The digits of `n` in exactly `width` places. -/
theorem padStart_print {width n : ℕ} (hn : n < 10 ^ width) (hdigits : Digits text)
    (hlength : text.length = width) (hread : read text = n) (hwidth : 0 < width) : padStart width (print n) = text := by
  have hle := (length_print_le hwidth).mpr hn
  refine read_inj (digits_padStart _ (digits_print n)) hdigits ?_ ?_
  · rw [length_padStart hle, hlength]
  · rw [read_padStart, read_print, hread]

/-! ## Fractions -/

theorem isFraction_iff :
    isFraction text = true ↔ ∃ front c, text = front ++ [c] ∧ Digits front ∧ isNonZeroDigit c = true := by
  rcases List.eq_nil_or_concat text with rfl | ⟨front, c, rfl⟩
  · simp [isFraction]
  · simp only [List.concat_eq_append, isFraction, Bool.and_eq_true, digits_of_all, digits_append, List.getLast?_concat,
      Option.any_some]
    constructor
    · rintro ⟨⟨hfront, -⟩, hc⟩
      exact ⟨front, c, rfl, hfront, hc⟩
    · rintro ⟨front', c', heq, hfront, hc⟩
      obtain ⟨rfl, hlast⟩ := List.append_inj' heq rfl
      rw [List.singleton_inj] at hlast
      subst hlast
      refine ⟨⟨hfront, fun d hd => ?_⟩, hc⟩
      rw [List.mem_singleton.mp hd]
      exact (Bool.and_eq_true _ _ ▸ hc).1

theorem digits_of_fraction (h : isFraction text = true) : Digits text :=
  digits_of_all.mp (Bool.and_eq_true _ _ ▸ h).1

theorem fraction_ne_nil (h : isFraction text = true) : text ≠ [] := by
  rintro rfl
  cases h

theorem trimEnd_zeros (n : ℕ) : trimEnd (List.replicate n '0') = [] :=
  List.rdropWhile_eq_nil_iff.mpr fun c hc => by rw [List.eq_of_mem_replicate hc]; rfl

theorem trimEnd_append_zeros (text : List Char) (n : ℕ) : trimEnd (text ++ List.replicate n '0') = trimEnd text := by
  induction n with
  | zero => rw [List.replicate_zero, List.append_nil]
  | succ n ih =>
    have hlast : trimEnd ((text ++ List.replicate n '0') ++ ['0']) = trimEnd (text ++ List.replicate n '0') :=
      List.rdropWhile_concat_pos _ _ _ rfl
    rw [List.replicate_succ', ← List.append_assoc, hlast, ih]

theorem trimEnd_fraction (h : isFraction text = true) : trimEnd text = text := by
  obtain ⟨front, c, rfl, -, hc⟩ := isFraction_iff.mp h
  have hne : c ≠ '0' := bne_iff_ne.mp (Bool.and_eq_true _ _ ▸ hc).2
  exact List.rdropWhile_concat_neg _ _ _ (by simpa using hne)

theorem trimEnd_padEnd (width : ℕ) (h : isFraction text = true) : trimEnd (padEnd width text) = text := by
  unfold padEnd
  rw [trimEnd_append_zeros, trimEnd_fraction h]

/-- What is cut off is zeros, and what is left is empty or a canonical fraction. -/
theorem trimEnd_spec (h : Digits text) :
    (∃ n, text = trimEnd text ++ List.replicate n '0') ∧ (trimEnd text = [] ∨ isFraction (trimEnd text) = true) := by
  induction text using List.reverseRecOn with
  | nil => exact ⟨⟨0, rfl⟩, Or.inl rfl⟩
  | append_singleton front c ih =>
    obtain ⟨hfront, hc⟩ := digits_append.mp h
    by_cases hzero : c = '0'
    · have htrim : trimEnd (front ++ [c]) = trimEnd front := List.rdropWhile_concat_pos _ _ _ (by simpa using hzero)
      obtain ⟨⟨n, hn⟩, hkept⟩ := ih hfront
      rw [htrim]
      refine ⟨⟨n + 1, ?_⟩, hkept⟩
      rw [List.replicate_succ', ← List.append_assoc, ← hn, hzero]
    · have htrim : trimEnd (front ++ [c]) = front ++ [c] := List.rdropWhile_concat_neg _ _ _ (by simpa using hzero)
      rw [htrim]
      refine ⟨⟨0, by rw [List.replicate_zero, List.append_nil]⟩, Or.inr (isFraction_iff.mpr ⟨front, c, rfl, hfront, ?_⟩)⟩
      unfold isNonZeroDigit
      rw [hc c (List.mem_singleton.mpr rfl)]
      simpa using hzero

theorem padEnd_trimEnd (h : Digits text) : padEnd text.length (trimEnd text) = text := by
  obtain ⟨⟨n, hn⟩, -⟩ := trimEnd_spec h
  have hlength := congrArg List.length hn
  rw [List.length_append, List.length_replicate] at hlength
  have hwidth : text.length - (trimEnd text).length = n := by omega
  unfold padEnd
  rw [hwidth]
  exact hn.symm

end DecimalText
