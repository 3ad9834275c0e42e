import PaymentNode.Basic
import PaymentNode.Lib.DecimalText
import Mathlib.Algebra.Order.Field.Rat
import Mathlib.Tactic.FieldSimp

/-!
# Amount — decimal money and atomic money

The two readers and printers of money: `parseDecimal`/`formatAtomic` of every rail and `chainDecimal`/`chainDisplay`
of the direct-chain policies.  Each acceptance condition is one lemma, and a value is told by its parts: the number
before the point and the digits after it.
-/

namespace PaymentNode.Money

open DecimalText

abbrev Text := List Char

section

variable (value : Text)

/-- The characters before the point. -/
def whole : Text := value.takeWhile (· != '.')

/-- The characters after the point. -/
def fraction : Text := (value.dropWhile (· != '.')).tail

/-- `DECIMAL`: `^(0|[1-9][0-9]*)(?:\.([0-9]*[1-9]))?$` -/
def isDecimal : Bool :=
  isCanonical (whole value) && ((value.dropWhile (· != '.')).isEmpty || isFraction (fraction value))

/-- The number a decimal text stands for. -/
def numericValue : ℚ := read (whole value) + read (fraction value) / 10 ^ (fraction value).length

def parseAtomic (positive : Bool) : Result ℕ :=
  if ¬ isCanonical value = true then invalid "Atomic money must be a canonical unsigned integer string."
  else if positive = true ∧ read value = 0 then invalid "Money must be greater than zero."
  else .ok (read value)

structure Parsed where
  atomic : Text
  decimal : Text
deriving DecidableEq, Repr

def parseDecimal (decimals : ℕ) (positive : Bool) : Result Parsed :=
  let parts := value.splitOn '.'
  let whole := parts.getD 0 []
  let fraction := parts.getD 1 []
  let padded := padEnd decimals fraction
  let atomic := read whole * 10 ^ decimals + read (if padded = [] then ['0'] else padded)
  if ¬ isDecimal value = true then invalid "Money must be a canonical decimal string."
  else if decimals < fraction.length then invalid "Money has more precision than the asset supports."
  else if positive = true ∧ atomic = 0 then invalid "Money must be greater than zero."
  else .ok ⟨print atomic, value⟩

/-- The text a whole part and a fraction are written as. -/
def written (whole fraction : Text) : Text := if fraction = [] then whole else whole ++ '.' :: fraction

def formatAtomic (decimals : ℕ) : Result Text := do
  let parsed ← parseAtomic value false
  let scale := 10 ^ decimals
  let whole := parsed / scale
  let fraction := trimEnd (padStart decimals (print (parsed % scale)))
  .ok (written (print whole) fraction)

def maximumChainAmount : ℕ := 18446744073709551615

def invalidAmount {α : Type} : Result α :=
  invalid "Use a positive canonical decimal amount within the asset precision and integer range."

def corruptChain {α : Type} : Result α := corrupt "The chain policy, asset or atomic value is invalid."

/-- `atomic` of chain-policy.ts. -/
def chainAtomic (positive : Bool) : Result ℕ :=
  if ¬ (isCanonical value = true ∧ value.length ≤ 20) then corruptChain
  else if maximumChainAmount < read value ∨ (positive = true ∧ read value = 0) then corruptChain
  else .ok (read value)

def chainDecimal (decimals : ℕ) : Result Text :=
  let parts := value.splitOn '.'
  let whole := parts.getD 0 []
  let fraction := parts.getD 1 []
  let amount := read (whole ++ padEnd decimals fraction)
  if ¬ isDecimal value = true then invalidAmount
  else if 20 < whole.length ∨ decimals < fraction.length then invalidAmount
  else if amount = 0 ∨ maximumChainAmount < amount then invalidAmount
  else .ok (print amount)

/-- `text.slice(-decimals)`; `-0` is the start of the text. -/
def sliceFrom (decimals : ℕ) (text : Text) : Text := if decimals = 0 then text else text.drop (text.length - decimals)

/-- `text.slice(0, -decimals)` -/
def sliceUpTo (decimals : ℕ) (text : Text) : Text := if decimals = 0 then [] else text.take (text.length - decimals)

def chainDisplay (decimals : ℕ) : Result Text := do
  let _ ← chainAtomic value false
  let text := padStart (decimals + 1) value
  let fraction := trimEnd (sliceFrom decimals text)
  .ok (written (sliceUpTo decimals text) fraction)

end

/-! ## Parts -/

theorem point_not_digit {text : Text} (h : Digits text) : '.' ∉ text := by
  intro hpoint
  exact absurd (h '.' hpoint) (by decide)

variable {value : Text}

theorem isDecimal_iff : isDecimal value = true ↔
    isCanonical (whole value) = true ∧ (fraction value = [] ∨ isFraction (fraction value) = true) ∧
      value = written (whole value) (fraction value) := by
  have hsplit : value = whole value ++ value.dropWhile (· != '.') := List.takeWhile_append_dropWhile.symm
  unfold isDecimal
  rw [Bool.and_eq_true, Bool.or_eq_true]
  constructor
  · rintro ⟨hwhole, hrest⟩
    refine ⟨hwhole, ?_⟩
    rcases hdrop : value.dropWhile (· != '.') with _ | ⟨point, rest⟩
    · have hfraction : fraction value = [] := by unfold fraction; rw [hdrop]; rfl
      refine ⟨Or.inl hfraction, ?_⟩
      rw [hdrop, List.append_nil] at hsplit
      unfold written
      rw [if_pos hfraction]
      exact hsplit
    · have hpoint : point = '.' := by
        have hhead := List.head?_dropWhile_not (p := (· != '.')) value
        rw [hdrop] at hhead
        simpa using hhead
      have hfraction : fraction value = rest := by unfold fraction; rw [hdrop]; rfl
      rw [hdrop] at hrest hsplit
      rcases hrest with hempty | hrest
      · cases hempty
      · refine ⟨Or.inr hrest, ?_⟩
        unfold written
        rw [if_neg (fraction_ne_nil hrest), hfraction, ← hpoint]
        exact hsplit
  · rintro ⟨hwhole, hfraction, hwritten⟩
    refine ⟨hwhole, ?_⟩
    rcases hfraction with hnil | hfraction
    · left
      unfold written at hwritten
      rw [if_pos hnil] at hwritten
      have hdrop : value.dropWhile (· != '.') = [] := by
        rw [← hwritten] at hsplit
        exact List.append_right_eq_self.mp hsplit.symm
      rw [hdrop]
      rfl
    · exact Or.inr hfraction

theorem whole_written {w f : Text} (hw : Digits w) : whole (written w f) = w := by
  have hall : ∀ c ∈ w, (c != '.') = true := fun c hc => bne_iff_ne.mpr fun h => point_not_digit hw (h ▸ hc)
  unfold whole written
  by_cases hf : f = []
  · rw [if_pos hf]
    exact List.takeWhile_eq_self_iff.mpr hall
  · rw [if_neg hf, List.takeWhile_append_of_pos hall, List.takeWhile_cons_of_neg (by decide), List.append_nil]

theorem fraction_written {w f : Text} (hw : Digits w) : fraction (written w f) = f := by
  have hall : ∀ c ∈ w, (c != '.') = true := fun c hc => bne_iff_ne.mpr fun h => point_not_digit hw (h ▸ hc)
  unfold fraction written
  by_cases hf : f = []
  · rw [if_pos hf, List.dropWhile_eq_nil_iff.mpr hall, hf]
    rfl
  · rw [if_neg hf, List.dropWhile_append_of_pos hall, List.dropWhile_cons_of_neg (by decide), List.tail_cons]

-- `split(".")` gives the two parts.
theorem split_parts (h : isDecimal value = true) :
    (value.splitOn '.').getD 0 [] = whole value ∧ (value.splitOn '.').getD 1 [] = fraction value := by
  obtain ⟨hwhole, hfraction, hwritten⟩ := isDecimal_iff.mp h
  have hpoint := point_not_digit (digits_of_canonical hwhole)
  rcases hfraction with hnil | hfraction
  · unfold written at hwritten
    rw [if_pos hnil] at hwritten
    rw [← hwritten] at hpoint
    rw [List.splitOn_eq_singleton hpoint, hnil, ← hwritten]
    exact ⟨rfl, rfl⟩
  · have hsplit : value.splitOn '.' = [whole value, fraction value] := by
      unfold written at hwritten
      rw [if_neg (fraction_ne_nil hfraction)] at hwritten
      conv_lhs => rw [hwritten]
      rw [List.splitOn_append_cons_self_of_not_mem hpoint,
        List.splitOn_eq_singleton (point_not_digit (digits_of_fraction hfraction))]
    rw [hsplit]
    exact ⟨rfl, rfl⟩

theorem isDecimal_written {w f : Text} (hw : isCanonical w = true) (hf : f = [] ∨ isFraction f = true) :
    isDecimal (written w f) = true := by
  rw [isDecimal_iff, whole_written (digits_of_canonical hw), fraction_written (digits_of_canonical hw)]
  exact ⟨hw, hf, rfl⟩

theorem digits_fraction (h : isDecimal value = true) : Digits (fraction value) := by
  rcases (isDecimal_iff.mp h).2.1 with hnil | hfraction
  · rw [hnil]
    exact digits_zeros 0
  · exact digits_of_fraction hfraction

/-- The atomic amount of a decimal text: its digits with the point moved `decimals` places. -/
def amountOf (value : Text) (decimals : ℕ) : ℕ :=
  read (whole value) * 10 ^ decimals + read (padEnd decimals (fraction value))

theorem read_or_zero (text : Text) : read (if text = [] then ['0'] else text) = read text := by
  by_cases h : text = []
  · rw [if_pos h, h]
    rfl
  · rw [if_neg h]

variable {decimals : ℕ}

theorem parseDecimal_ok {positive : Bool} {p : Parsed} :
    parseDecimal value decimals positive = .ok p ↔ isDecimal value = true ∧ (fraction value).length ≤ decimals ∧
      (positive = true → amountOf value decimals ≠ 0) ∧ p = ⟨print (amountOf value decimals), value⟩ := by
  unfold parseDecimal
  by_cases hdecimal : isDecimal value = true
  · obtain ⟨hwhole, hfraction⟩ := split_parts hdecimal
    have hamount : read (whole value) * 10 ^ decimals + read (padEnd decimals (fraction value)) =
        amountOf value decimals := rfl
    simp only [hwhole, hfraction, read_or_zero, hamount, invalid_guard, hdecimal, not_true_eq_false, not_false_eq_true,
      not_lt, not_and, true_and, Except.ok.injEq, eq_comm (a := p), ne_eq]
  · simp [hdecimal]

theorem chainDecimal_ok {c : Text} :
    chainDecimal value decimals = .ok c ↔ isDecimal value = true ∧
      ((whole value).length ≤ 20 ∧ (fraction value).length ≤ decimals) ∧
      (amountOf value decimals ≠ 0 ∧ amountOf value decimals ≤ maximumChainAmount) ∧
      c = print (amountOf value decimals) := by
  unfold chainDecimal invalidAmount
  by_cases hdecimal : isDecimal value = true
  · obtain ⟨hwhole, hfraction⟩ := split_parts hdecimal
    simp only [hwhole, hfraction, invalid_guard, hdecimal, not_true_eq_false, not_false_eq_true, true_and, not_or, not_lt,
      Except.ok.injEq, eq_comm (a := c)]
    refine and_congr_right fun hlengths => ?_
    have hamount : read (whole value ++ padEnd decimals (fraction value)) = amountOf value decimals := by
      rw [read_append, length_padEnd hlengths.2]
      rfl
    rw [hamount]
  · simp [hdecimal]

theorem amountOf_eq_numericValue (h : (fraction value).length ≤ decimals) :
    (amountOf value decimals : ℚ) = numericValue value * 10 ^ decimals := by
  have hsplit : (10 : ℚ) ^ decimals = 10 ^ (fraction value).length * 10 ^ (decimals - (fraction value).length) := by
    rw [← pow_add, Nat.add_sub_cancel' h]
  have hpow : (10 : ℚ) ^ (fraction value).length ≠ 0 := pow_ne_zero _ (by decide)
  unfold amountOf numericValue
  rw [read_padEnd]
  push_cast
  rw [hsplit]
  field_simp

/-! ## Printing -/

-- The digits of `n` after the point, in `decimals` places.
theorem exists_places {decimals n : ℕ} (h : n < 10 ^ decimals) : ∃ places : Text, Digits places ∧
    places.length = decimals ∧ read places = n ∧ trimEnd (padStart decimals (print n)) = trimEnd places := by
  by_cases hzero : decimals = 0
  · subst hzero
    have hn : n = 0 := by rwa [pow_zero, Nat.lt_one_iff] at h
    subst hn
    exact ⟨[], digits_zeros 0, rfl, rfl, by decide⟩
  · have hlength := (length_print_le (by omega)).mpr h
    exact ⟨_, digits_padStart decimals (digits_print n), length_padStart hlength, by rw [read_padStart, read_print], rfl⟩

theorem parseAtomic_print (n : ℕ) : parseAtomic (print n) false = .ok n := by
  unfold parseAtomic
  simp [isCanonical_print]

theorem formatAtomic_print (n decimals : ℕ) : formatAtomic (print n) decimals =
    .ok (written (print (n / 10 ^ decimals)) (trimEnd (padStart decimals (print (n % 10 ^ decimals))))) := by
  unfold formatAtomic
  rw [parseAtomic_print]
  rfl

-- A number of `decimals` places is printed from its whole part and its places.
theorem formatAtomic_parts {decimals w : ℕ} {places : Text} (hdigits : Digits places)
    (hlength : places.length = decimals) :
    formatAtomic (print (w * 10 ^ decimals + read places)) decimals = .ok (written (print w) (trimEnd places)) := by
  have hlt : read places < 10 ^ decimals := hlength ▸ read_lt hdigits
  have hdiv : (w * 10 ^ decimals + read places) / 10 ^ decimals = w := by
    rw [Nat.mul_comm, Nat.mul_add_div (by omega), Nat.div_eq_of_lt hlt, Nat.add_zero]
  have hmod : (w * 10 ^ decimals + read places) % 10 ^ decimals = read places := by
    rw [Nat.mul_comm, Nat.mul_add_mod, Nat.mod_eq_of_lt hlt]
  obtain ⟨places', hdigits', hlength', hread, htrim⟩ := exists_places hlt
  have hsame : places' = places := read_inj hdigits' hdigits (by omega) hread
  rw [formatAtomic_print, hdiv, hmod, htrim, hsame]

theorem trimEnd_padEnd_fraction (decimals : ℕ) (h : isDecimal value = true) :
    trimEnd (padEnd decimals (fraction value)) = fraction value := by
  rcases (isDecimal_iff.mp h).2.1 with hnil | hfraction
  · rw [hnil]
    exact trimEnd_zeros _
  · exact trimEnd_padEnd decimals hfraction

-- What is parsed is printed back.
theorem formatAtomic_amountOf (h : isDecimal value = true)
    (hlength : (fraction value).length ≤ decimals) : formatAtomic (print (amountOf value decimals)) decimals = .ok value := by
  obtain ⟨hwhole, -, hwritten⟩ := isDecimal_iff.mp h
  unfold amountOf
  rw [formatAtomic_parts (digits_padEnd decimals (digits_fraction h)) (length_padEnd hlength), print_read hwhole,
    trimEnd_padEnd_fraction decimals h, ← hwritten]

-- What is printed is parsed back.
theorem parse_format {a : Text} (decimals : ℕ) (h : isCanonical a = true) :
    ∃ value p, formatAtomic a decimals = .ok value ∧ parseDecimal value decimals false = .ok p ∧ p.atomic = a := by
  have hlt : read a % 10 ^ decimals < 10 ^ decimals := Nat.mod_lt _ (Nat.pow_pos (by decide))
  obtain ⟨places, hdigits, hlength, hread, -⟩ := exists_places hlt
  have hsum : read a / 10 ^ decimals * 10 ^ decimals + read places = read a := by
    rw [hread, Nat.mul_comm]
    exact Nat.div_add_mod _ _
  have hformat := formatAtomic_parts (w := read a / 10 ^ decimals) hdigits hlength
  rw [hsum, print_read h] at hformat
  have hwhole := isCanonical_print (read a / 10 ^ decimals)
  have hwdigits := digits_of_canonical hwhole
  have hvalue := isDecimal_written hwhole (trimEnd_spec hdigits).2
  have htrimmed : (trimEnd places).length ≤ decimals := by
    obtain ⟨n, hn⟩ := (trimEnd_spec hdigits).1
    have hcount := congrArg List.length hn
    rw [List.length_append] at hcount
    omega
  have hamount : amountOf (written (print (read a / 10 ^ decimals)) (trimEnd places)) decimals = read a := by
    unfold amountOf
    rw [whole_written hwdigits, fraction_written hwdigits, read_print, ← hlength, padEnd_trimEnd hdigits, hlength, hsum]
  refine ⟨_, _, hformat, parseDecimal_ok.mpr ⟨hvalue, ?_, by simp, rfl⟩, ?_⟩
  · rw [fraction_written hwdigits]
    exact htrimmed
  · rw [hamount, print_read h]

/-! ## The chain policy's printer -/

theorem canonical_take {text : Text} {k : ℕ} (h : isCanonical text = true) (hlength : 1 < text.length) (hk : 0 < k) :
    isCanonical (text.take k) = true := by
  rcases isCanonical_iff.mp h with rfl | ⟨c, rest, rfl, hc, hrest⟩
  · exact absurd hlength (by decide)
  · obtain ⟨n, rfl⟩ : ∃ n, k = n + 1 := ⟨k - 1, by omega⟩
    rw [List.take_succ_cons]
    exact isCanonical_iff.mpr (Or.inr ⟨c, rest.take n, rfl, hc, fun d hd => hrest d (List.mem_of_mem_take hd)⟩)

-- Cutting a padded numeral `decimals` digits before its end leaves its whole part and its places.
theorem cut_padStart {c : Text} (h : isCanonical c = true) (hdecimals : 0 < decimals) :
    ∃ w places, padStart (decimals + 1) c = w ++ places ∧ isCanonical w = true ∧ Digits places ∧
      places.length = decimals := by
  have hdigits := digits_padStart (decimals + 1) (digits_of_canonical h)
  have hlong : decimals + 1 ≤ (padStart (decimals + 1) c).length := by
    unfold padStart
    rw [List.length_append, List.length_replicate]
    omega
  refine ⟨(padStart (decimals + 1) c).take ((padStart (decimals + 1) c).length - decimals),
    (padStart (decimals + 1) c).drop ((padStart (decimals + 1) c).length - decimals), (List.take_append_drop _ _).symm, ?_,
    fun d hd => hdigits d (List.mem_of_mem_drop hd), by rw [List.length_drop]; omega⟩
  by_cases hc : decimals + 1 ≤ c.length
  · have hsame : padStart (decimals + 1) c = c := by
      unfold padStart
      rw [Nat.sub_eq_zero_of_le hc, List.replicate_zero, List.nil_append]
    rw [hsame]
    exact canonical_take h (by omega) (by omega)
  · have hlength : (padStart (decimals + 1) c).length = decimals + 1 := length_padStart (by omega)
    have hfirst : padStart (decimals + 1) c = '0' :: (List.replicate (decimals - c.length) '0' ++ c) := by
      unfold padStart
      rw [show decimals + 1 - c.length = decimals - c.length + 1 by omega, List.replicate_succ, List.cons_append]
    rw [hlength, hfirst, Nat.add_sub_cancel_left]
    rfl

theorem chainAtomic_print {n : ℕ} (h : n ≤ maximumChainAmount) : chainAtomic (print n) false = .ok n := by
  have hlength : (print n).length ≤ 20 := by
    rw [length_print_le (by decide)]
    unfold maximumChainAmount at h
    omega
  unfold chainAtomic
  simp [isCanonical_print, hlength, h]

-- The two printers agree on every amount the policies admit.
theorem chainDisplay_print {n decimals : ℕ} (hdecimals : 0 < decimals) (h : n ≤ maximumChainAmount) :
    chainDisplay (print n) decimals = formatAtomic (print n) decimals := by
  obtain ⟨w, places, hcut, hw, hdigits, hlength⟩ := cut_padStart (isCanonical_print n) hdecimals
  have hread : n = read w * 10 ^ decimals + read places := by
    rw [← hlength, ← read_append, ← hcut, read_padStart, read_print]
  have hlen : (w ++ places).length - decimals = w.length := by
    rw [List.length_append]
    omega
  have hupTo : sliceUpTo decimals (w ++ places) = w := by
    unfold sliceUpTo
    rw [if_neg (by omega), hlen, List.take_left]
  have hfrom : sliceFrom decimals (w ++ places) = places := by
    unfold sliceFrom
    rw [if_neg (by omega), hlen, List.drop_left]
  have hdisplay : chainDisplay (print n) decimals = .ok (written w (trimEnd places)) := by
    unfold chainDisplay
    rw [chainAtomic_print h, hcut]
    show Except.ok (written (sliceUpTo decimals (w ++ places)) (trimEnd (sliceFrom decimals (w ++ places)))) = _
    rw [hupTo, hfrom]
  have hformat := formatAtomic_parts (w := read w) hdigits hlength
  rw [← hread, print_read hw] at hformat
  rw [hdisplay, hformat]

/-- Decimal and atomic money are inverse, parsing is strictly monotone, and the chain policies' reader and printer
agree with it. -/
theorem decimal_atomic_inverse :
    (∀ value decimals positive p, parseDecimal value decimals positive = .ok p →
      formatAtomic p.atomic decimals = .ok value) ∧
    (∀ a decimals, isCanonical a = true →
      ∃ value p, formatAtomic a decimals = .ok value ∧ parseDecimal value decimals false = .ok p ∧ p.atomic = a) ∧
    (∀ v w decimals positive p q, parseDecimal v decimals positive = .ok p → parseDecimal w decimals positive = .ok q →
      (numericValue v < numericValue w ↔ read p.atomic < read q.atomic)) ∧
    (∀ value decimals positive p c, 1 ≤ decimals → parseDecimal value decimals positive = .ok p →
      chainDecimal value decimals = .ok c →
      c = p.atomic ∧ ∃ text, chainDisplay c decimals = .ok text ∧ formatAtomic p.atomic decimals = .ok text) := by
  refine ⟨fun value decimals positive p hp => ?_, fun a decimals ha => parse_format decimals ha,
    fun v w decimals positive p q hp hq => ?_, fun value decimals positive p c hdecimals hp hc => ?_⟩
  · obtain ⟨hdecimal, hlength, -, rfl⟩ := parseDecimal_ok.mp hp
    exact formatAtomic_amountOf hdecimal hlength
  · obtain ⟨-, hv, -, rfl⟩ := parseDecimal_ok.mp hp
    obtain ⟨-, hw, -, rfl⟩ := parseDecimal_ok.mp hq
    have hscale : (0 : ℚ) < 10 ^ decimals := pow_pos (by decide) _
    rw [read_print, read_print, ← Nat.cast_lt (α := ℚ), amountOf_eq_numericValue hv, amountOf_eq_numericValue hw,
      mul_lt_mul_iff_left₀ hscale]
  · obtain ⟨hdecimal, hlength, -, rfl⟩ := parseDecimal_ok.mp hp
    obtain ⟨-, -, ⟨-, hmax⟩, rfl⟩ := chainDecimal_ok.mp hc
    have hformat := formatAtomic_amountOf hdecimal hlength
    refine ⟨rfl, value, ?_, hformat⟩
    rw [chainDisplay_print (by omega) hmax]
    exact hformat

theorem decimal_atomic_inverse_dollar :
    formatAtomic ['1', '2', '5', '0', '0', '0', '0'] 6 = .ok ['1', '.', '2', '5'] ∧
    chainDecimal ['1', '.', '2', '5'] 6 = .ok ['1', '2', '5', '0', '0', '0', '0'] ∧
    ∃ text, chainDisplay ['1', '2', '5', '0', '0', '0', '0'] 6 = .ok text := by
  have hparse : parseDecimal ['1', '.', '2', '5'] 6 true = .ok ⟨['1', '2', '5', '0', '0', '0', '0'], ['1', '.', '2', '5']⟩ := by
    decide +kernel
  have hchain : chainDecimal ['1', '.', '2', '5'] 6 = .ok ['1', '2', '5', '0', '0', '0', '0'] := by
    decide +kernel
  obtain ⟨-, text, htext, -⟩ := decimal_atomic_inverse.2.2.2 _ 6 true _ _ (by decide) hparse hchain
  exact ⟨decimal_atomic_inverse.1 _ 6 true _ hparse, hchain, text, htext⟩

end PaymentNode.Money
