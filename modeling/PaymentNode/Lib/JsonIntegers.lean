import PaymentNode.Lib.DecimalText
import PaymentNode.Lib.JsonPrint

/-!
# JsonIntegers — the whole numbers among the numbers of JSON

An integer is its sign and its magnitude; both zeros are there.  A numeral is read up to its fraction.
-/

namespace JsonGrammar

open JsonText

/-- The decimal digits of a number, as code units. -/
def decimal (n : ℕ) : Text := (DecimalText.print n).map unit

theorem unit_val {c : Char} (h : c.isDigit = true) : (unit c).val = c.toNat := by
  rw [DecimalText.isDigit_iff] at h
  exact Nat.mod_eq_of_lt (by omega)

theorem isDigit_unit {c : Char} (h : c.isDigit = true) : isDigit (unit c) = true := by
  have hval := unit_val h
  rw [DecimalText.isDigit_iff] at h
  simp [isDigit, hval, h]

theorem allDigits_map {text : List Char} (h : DecimalText.Digits text) : AllDigits (text.map unit) := by
  intro d hd
  obtain ⟨c, hc, rfl⟩ := List.mem_map.mp hd
  exact isDigit_unit (h c hc)

theorem allDigits_decimal (n : ℕ) : AllDigits (decimal n) := allDigits_map (DecimalText.digits_print n)

theorem isInteger_decimal (n : ℕ) : IsInteger (decimal n) := by
  have hcanonical := DecimalText.isCanonical_print n
  rw [DecimalText.isCanonical_iff] at hcanonical
  unfold decimal
  rcases hcanonical with h | ⟨c, rest, h, hc, hrest⟩
  · rw [h]
    exact .inl rfl
  · rw [h]
    simp only [DecimalText.isNonZeroDigit, Bool.and_eq_true, bne_iff_ne] at hc
    refine .inr ⟨unit c, rest.map unit, rfl, ?_, (allDigits_map hrest).cons (isDigit_unit hc.1)⟩
    intro hzero
    have hval := unit_val hc.1
    rw [hzero] at hval
    exact hc.2 (Char.toNat_inj.mp hval.symm)

theorem numeral_map {text : List Char} (h : DecimalText.Digits text) : numeral (text.map unit) = DecimalText.read text := by
  have hfold : ∀ n, (text.map unit).foldl (fun n c => 10 * n + (c.val - 48)) n = Nat.ofDigitChars 10 text n := by
    induction text with
    | nil => exact fun _ => rfl
    | cons c text ih =>
      intro n
      obtain ⟨hc, htext⟩ := h.cons
      rw [List.map_cons, List.foldl_cons, unit_val hc, ih htext, Nat.ofDigitChars_cons]
      rfl
  exact hfold 0

theorem numeral_decimal (n : ℕ) : numeral (decimal n) = n := by
  rw [decimal, numeral_map (DecimalText.digits_print n), DecimalText.read_print]

def minus (n : Bool × ℕ) : Text := if n.1 && n.2 != 0 then [unit '-'] else []

theorem minus_cases (n : Bool × ℕ) : minus n = [] ∨ minus n = [unit '-'] := by
  unfold minus
  split_ifs
  · exact .inr rfl
  · exact .inl rfl

/-- The integers, by sign and magnitude. -/
def integers : Numbers where
  Num := Bool × ℕ
  read t := (!(takeMinus t).1.isEmpty, numeral (digitRun (takeMinus t).2).1)
  print n := minus n ++ decimal n.2
  safe n := n.2 ≤ 2 ^ 53 - 1
  unsigned n := if n.2 = 0 then (false, 0) else n
  isNumber_print n _ :=
    ⟨minus n, decimal n.2, [], [], by rw [List.append_nil, List.append_nil], minus_cases n, isInteger_decimal n.2,
      .inl rfl, .inl rfl⟩
  read_print n _ := by
    have hminus : takeMinus (minus n ++ (decimal n.2 ++ [])) = (minus n, decimal n.2 ++ []) :=
      takeMinus_complete (minus_cases n) (isInteger_decimal n.2)
    have hrun : digitRun (decimal n.2 ++ []) = (decimal n.2, []) :=
      digitRun_append (allDigits_decimal n.2) fun _ h => by simp at h
    rw [List.append_nil] at hminus hrun
    simp only [hminus, hrun, numeral_decimal]
    obtain ⟨negative, n⟩ := n
    by_cases hzero : n = 0
    · simp [minus, hzero]
    · cases negative <;> simp [minus, hzero]
  print_unsigned n := by
    by_cases hzero : n.2 = 0
    · simp [minus, hzero]
    · simp [hzero]
  safe_unsigned n h := by
    split_ifs
    · decide
    · exact h
  unsigned_unsigned n := by
    by_cases hzero : n.2 = 0
    · simp [hzero]
    · simp [hzero]

end JsonGrammar
