import PaymentNode.Native.Calendar

/-!
# Timestamps — reading and writing seconds

Both directions of the calendar arithmetic are the day numbers of `CivilDate`, and a text the parser accepts is six
runs of digits between fixed separators.
-/

namespace PaymentNode.Native

open CivilDate DecimalText
open ByteText (byteLen Holds takeBytes take_slice)

/-! ## Calendar arithmetic -/

theorem tdiv_of_nonneg {a b : ℤ} (h : 0 ≤ a) : a.tdiv b = a / b := Int.tdiv_eq_ediv_of_nonneg h

-- The source's floor division by way of truncation.
theorem floor_tdiv (a : ℤ) : (if 0 ≤ a then a else a - 399).tdiv 400 = a / 400 ∧
    (if 0 ≤ a then a else a - 146096).tdiv 146097 = a / 146097 := by
  by_cases h : 0 ≤ a
  · rw [if_pos h, if_pos h, tdiv_of_nonneg h, tdiv_of_nonneg h]
    exact ⟨rfl, rfl⟩
  · have hyears : (399 - a).tdiv 400 = (399 - a) / 400 := tdiv_of_nonneg (by omega)
    have hdays : (146096 - a).tdiv 146097 = (146096 - a) / 146097 := tdiv_of_nonneg (by omega)
    have hneg : a - 399 = -(399 - a) := by omega
    have hneg' : a - 146096 = -(146096 - a) := by omega
    rw [if_neg h, if_neg h, hneg, hneg', Int.neg_tdiv, Int.neg_tdiv, hyears, hdays]
    omega

theorem daysInMonth_eq {year month : ℤ} (hyear : 0 ≤ year) (h : 1 ≤ month ∧ month ≤ 12) :
    daysInMonth year month = monthLength year month := by
  unfold daysInMonth monthLength
  rw [Int.tmod_eq_emod_of_nonneg hyear, Int.tmod_eq_emod_of_nonneg hyear, Int.tmod_eq_emod_of_nonneg hyear]
  by_cases htwo : month = 2
  · have hleap : (month = 2 ∧ year % 4 = 0 ∧ (year % 100 ≠ 0 ∨ year % 400 = 0)) ↔ isLeap year := by
      unfold isLeap
      tauto
    rw [if_neg (by omega), if_neg (by omega), if_pos htwo, if_pos htwo]
    simp only [hleap]
  · rw [if_neg htwo, if_neg (c := month = 2 ∧ _) (by tauto), if_neg htwo]
    by_cases hthirty : month = 4 ∨ month = 6 ∨ month = 9 ∨ month = 11
    · rw [if_neg (by omega), if_pos hthirty, if_pos hthirty]
    · rw [if_pos (by omega), if_neg hthirty]

variable {year month day : ℤ}

-- The day number of a date, counted from the era its March year lies in.
theorem daysFromCivil_eq (h : 1 ≤ month ∧ month ≤ 12) : daysFromCivil year month day =
    marchYear year month / 400 * 146097 + (yearStart (marchYear year month % 400) + dayOfYear month day) - 719468 := by
  have hyear : marchYear year month - marchYear year month / 400 * 400 = marchYear year month % 400 := by omega
  have hmonth : (month + if 2 < month then -3 else 9) = shiftMonth month := by
    unfold shiftMonth
    split <;> omega
  obtain ⟨hshift, -⟩ := unshift_shift h
  have hnonneg : 0 ≤ marchYear year month % 400 := Int.emod_nonneg _ (by decide)
  have hlt : marchYear year month % 400 < 400 := Int.emod_lt_of_pos _ (by decide)
  have hera := (floor_tdiv (marchYear year month)).1
  have hadjusted : (year - if month ≤ 2 then 1 else 0) = marchYear year month := rfl
  unfold daysFromCivil
  simp only [hadjusted, hera, hyear, hmonth]
  rw [tdiv_of_nonneg hnonneg, tdiv_of_nonneg hnonneg, tdiv_of_nonneg (by omega)]
  unfold yearStart dayOfYear monthStart
  omega

theorem civilFromDays_eq (days : ℤ) : civilFromDays days =
    (yearOf ((days + 719468) % 146097) + (days + 719468) / 146097 * 400 +
        (if unshiftMonth (monthOf ((days + 719468) % 146097 - yearStart (yearOf ((days + 719468) % 146097)))) ≤ 2 then 1
          else 0),
      unshiftMonth (monthOf ((days + 719468) % 146097 - yearStart (yearOf ((days + 719468) % 146097)))),
      (days + 719468) % 146097 - yearStart (yearOf ((days + 719468) % 146097)) -
        monthStart (monthOf ((days + 719468) % 146097 - yearStart (yearOf ((days + 719468) % 146097)))) + 1) := by
  have hdoe : days + 719468 - (days + 719468) / 146097 * 146097 = (days + 719468) % 146097 := by omega
  have hera := (floor_tdiv (days + 719468)).2
  have hnonneg : 0 ≤ (days + 719468) % 146097 := Int.emod_nonneg _ (by decide)
  have hlt : (days + 719468) % 146097 < 146097 := Int.emod_lt_of_pos _ (by decide)
  unfold civilFromDays
  simp only [hera, hdoe]
  generalize (days + 719468) % 146097 = doe at *
  obtain ⟨hyoe, hfirst, hlast⟩ := yearOf_spec ⟨hnonneg, hlt⟩
  have hyear : (doe - doe.tdiv 1460 + doe.tdiv 36524 - doe.tdiv 146096).tdiv 365 = yearOf doe := by
    rw [tdiv_of_nonneg hnonneg, tdiv_of_nonneg hnonneg, tdiv_of_nonneg hnonneg, tdiv_of_nonneg (by omega)]
    rfl
  have hstart : doe - (365 * yearOf doe + (yearOf doe).tdiv 4 - (yearOf doe).tdiv 100) = doe - yearStart (yearOf doe) := by
    rw [tdiv_of_nonneg hyoe.1, tdiv_of_nonneg hyoe.1]
    unfold yearStart
    omega
  simp only [hyear, hstart]
  have hmonth : (5 * (doe - yearStart (yearOf doe)) + 2).tdiv 153 = monthOf (doe - yearStart (yearOf doe)) :=
    tdiv_of_nonneg (by omega)
  have hmonthNonneg : 0 ≤ monthOf (doe - yearStart (yearOf doe)) := by
    unfold monthOf
    omega
  have hday : (153 * monthOf (doe - yearStart (yearOf doe)) + 2).tdiv 5 = monthStart (monthOf (doe - yearStart (yearOf doe))) :=
    tdiv_of_nonneg (by omega)
  have hunshift : ∀ m : ℤ, (m + if m < 10 then 3 else -9) = unshiftMonth m := by
    intro m
    unfold unshiftMonth
    split <;> omega
  simp only [hmonth, hday, hunshift]

-- The date of a day is valid, and its day number is the day's.
theorem daysFromCivil_civilFromDays (days : ℤ) :
    ValidDate (civilFromDays days).1 (civilFromDays days).2.1 (civilFromDays days).2.2 ∧
      daysFromCivil (civilFromDays days).1 (civilFromDays days).2.1 (civilFromDays days).2.2 = days := by
  have hnonneg : 0 ≤ (days + 719468) % 146097 := Int.emod_nonneg _ (by decide)
  have hlt : (days + 719468) % 146097 < 146097 := Int.emod_lt_of_pos _ (by decide)
  have hsplit := Int.emod_add_mul_ediv (days + 719468) 146097
  rw [civilFromDays_eq]
  simp only
  generalize (days + 719468) % 146097 = doe at *
  generalize (days + 719468) / 146097 = era at *
  obtain ⟨hyoe, hfirst, hlast⟩ := yearOf_spec ⟨hnonneg, hlt⟩
  rw [yearStart_succ] at hlast
  generalize yearOf doe = yoe at *
  have hleap : isLeap (yoe + era * 400 + 1) ↔ isLeap (yoe + 1) := by
    unfold isLeap
    omega
  have hday : 0 ≤ doe - yearStart yoe := by omega
  have hvalid := @validDate_of_day (yoe + era * 400) _ hday (by simp only [hleap]; omega)
  obtain ⟨hmonthFirst, -⟩ := monthOf_spec (doe - yearStart yoe)
  have hm : 0 ≤ monthOf (doe - yearStart yoe) ∧ monthOf (doe - yearStart yoe) < 12 := by
    have hle : (if isLeap (yoe + 1) then (366 : ℤ) else 365) ≤ 366 := by split <;> omega
    unfold monthOf
    omega
  generalize monthOf (doe - yearStart yoe) = m at *
  obtain ⟨hmonth, hshift⟩ := shift_unshift hm
  refine ⟨hvalid, ?_⟩
  have hmarch : marchYear (yoe + era * 400 + if unshiftMonth m ≤ 2 then 1 else 0) (unshiftMonth m) = yoe + era * 400 := by
    unfold marchYear
    omega
  rw [daysFromCivil_eq hmonth, hmarch]
  have hmod : (yoe + era * 400) % 400 = yoe := by omega
  have hdiv : (yoe + era * 400) / 400 = era := by omega
  rw [hmod, hdiv]
  unfold dayOfYear
  rw [hshift]
  omega

-- A valid date is read back from its day number.
theorem civilFromDays_daysFromCivil (h : ValidDate year month day) :
    civilFromDays (daysFromCivil year month day) = (year, month, day) := by
  obtain ⟨hfirst, hlast, hmonth⟩ := dayOfYear_bounds h
  obtain ⟨-, hunshift⟩ := unshift_shift h.ofYear
  have hyearMod : 0 ≤ marchYear year month % 400 ∧ marchYear year month % 400 < 400 :=
    ⟨Int.emod_nonneg _ (by decide), Int.emod_lt_of_pos _ (by decide)⟩
  have hleap : isLeap (marchYear year month % 400 + 1) ↔ isLeap (marchYear year month + 1) := by
    unfold isLeap
    omega
  have hnext := yearStart_succ (y := marchYear year month % 400)
  simp only [hleap] at hnext
  have hstart := yearStart_nonneg hyearMod.1
  have hend : yearStart (marchYear year month % 400 + 1) ≤ 146097 := by
    unfold yearStart
    omega
  have hdays : daysFromCivil year month day + 719468 =
      marchYear year month / 400 * 146097 + (yearStart (marchYear year month % 400) + dayOfYear month day) := by
    rw [daysFromCivil_eq h.ofYear]
    omega
  have hdoe : (daysFromCivil year month day + 719468) % 146097 =
      yearStart (marchYear year month % 400) + dayOfYear month day := by omega
  have hera : (daysFromCivil year month day + 719468) / 146097 = marchYear year month / 400 := by omega
  have hyoe : yearOf (yearStart (marchYear year month % 400) + dayOfYear month day) = marchYear year month % 400 :=
    yearOf_eq hyearMod (by omega) (by omega)
  rw [civilFromDays_eq, hdoe, hera, hyoe, add_sub_cancel_left, hmonth, hunshift]
  have hyear : marchYear year month % 400 + marchYear year month / 400 * 400 + (if month ≤ 2 then 1 else 0) = year := by
    have hmarch : marchYear year month = year - if month ≤ 2 then 1 else 0 := rfl
    omega
  have hday : dayOfYear month day - monthStart (shiftMonth month) + 1 = day := by
    unfold dayOfYear
    omega
  rw [hyear, hday]

/-! ## The text of a timestamp -/

/-- The six components of a timestamp and what follows its seconds. -/
structure Parts where
  year : List Char
  month : List Char
  day : List Char
  hour : List Char
  minute : List Char
  second : List Char
  rest : List Char

namespace Parts

def text (p : Parts) : List Char := stamp p.year p.month p.day p.hour p.minute p.second p.rest

structure WellFormed (p : Parts) : Prop where
  year : Digits p.year ∧ p.year.length = 4
  month : Digits p.month ∧ p.month.length = 2
  day : Digits p.day ∧ p.day.length = 2
  hour : Digits p.hour ∧ p.hour.length = 2
  minute : Digits p.minute ∧ p.minute.length = 2
  second : Digits p.second ∧ p.second.length = 2
  rest : p.rest = ['Z'] ∨ ∃ f, p.rest = '.' :: (f ++ ['Z']) ∧ Digits f ∧ f.length = 3

/-- The ranges the parser asks for. -/
def InRange (p : Parts) : Prop :=
  (1 ≤ (read p.month : ℤ) ∧ (read p.month : ℤ) ≤ 12) ∧ ¬ (read p.day : ℤ) < 1 ∧
    ¬ daysInMonth (read p.year) (read p.month) < (read p.day : ℤ) ∧ ¬ 23 < (read p.hour : ℤ) ∧
    ¬ 59 < (read p.minute : ℤ) ∧ ¬ 59 < (read p.second : ℤ)

def days (p : Parts) : ℤ := daysFromCivil (read p.year) (read p.month) (read p.day)

def seconds (p : Parts) : ℤ := read p.hour * 3600 + read p.minute * 60 + read p.second

end Parts

variable {text : List Char}

theorem byteLen_digits (h : Digits text) : byteLen text = text.length :=
  ByteText.byteLen_ascii fun c hc => lt_of_le_of_lt (isDigit_iff.mp (h c hc)).2 (by decide)

theorem digits_length {n : ℕ} (h : Digits text) (hlen : byteLen text = n) : text.length = n := by
  rw [← byteLen_digits h, hlen]

theorem parseComponent_ok {value : List Char} {a b : ℕ} {n : ℤ} : parseComponent value a b = .ok n ↔
    ∃ text, ByteText.slice value a b = some text ∧ Digits text ∧ text ≠ [] ∧ n = read text := by
  unfold parseComponent
  simp only [run_ok, strSlice_ok, ensure_ok, Except.ok.injEq, digits_of_all]
  constructor
  · rintro ⟨text, hslice, -, ⟨hdigits, hne⟩, hn⟩
    exact ⟨text, hslice, hdigits, hne, hn.symm⟩
  · rintro ⟨text, hslice, hdigits, hne, hn⟩
    exact ⟨text, hslice, (), ⟨hdigits, hne⟩, hn.symm⟩

theorem checkedI64_ok {x y : ℤ} : checkedI64 x = .ok y ↔ (-(2 ^ 63) ≤ x ∧ x < 2 ^ 63) ∧ y = x := by
  unfold checkedI64
  by_cases h : -(2 ^ 63) ≤ x ∧ x < 2 ^ 63
  · rw [if_pos h, Except.ok.injEq, eq_comm]
    exact ⟨fun hy => ⟨h, hy⟩, fun hy => hy.2⟩
  · rw [if_neg h]
    simp only [refuse_ne_ok, false_iff]
    exact fun hy => h hy.1

section Text

variable {p : Parts}

theorem slices_of_text (h : p.WellFormed) : byteLen p.text = 19 + byteLen p.rest ∧
    (ByteText.slice p.text 0 4 = some p.year ∧ ByteText.slice p.text 5 7 = some p.month ∧
      ByteText.slice p.text 8 10 = some p.day ∧ ByteText.slice p.text 11 13 = some p.hour ∧
      ByteText.slice p.text 14 16 = some p.minute ∧ ByteText.slice p.text 17 19 = some p.second) ∧
    (Holds p.text 4 '-' ∧ Holds p.text 7 '-' ∧ Holds p.text 10 'T' ∧ Holds p.text 13 ':' ∧ Holds p.text 16 ':') := by
  have hyear : byteLen p.year = 4 := (byteLen_digits h.year.1).trans h.year.2
  have hmonth : byteLen p.month = 2 := (byteLen_digits h.month.1).trans h.month.2
  have hday : byteLen p.day = 2 := (byteLen_digits h.day.1).trans h.day.2
  have hhour : byteLen p.hour = 2 := (byteLen_digits h.hour.1).trans h.hour.2
  have hminute : byteLen p.minute = 2 := (byteLen_digits h.minute.1).trans h.minute.2
  have hsecond : byteLen p.second = 2 := (byteLen_digits h.second.1).trans h.second.2
  have hdash : Char.utf8Size '-' = 1 := by decide
  have hT : Char.utf8Size 'T' = 1 := by decide
  have hcolon : Char.utf8Size ':' = 1 := by decide
  have hlen : ∀ a b : List Char, byteLen (a ++ b) = byteLen a + byteLen b := ByteText.byteLen_append
  refine ⟨?_, ⟨?_, ?_, ?_, ?_, ?_, ?_⟩, ?_, ?_, ?_, ?_, ?_⟩
  · simp only [Parts.text, stamp, hlen, ByteText.byteLen_cons, hdash, hT, hcolon, hyear, hmonth, hday, hhour, hminute, hsecond]
    omega
  · exact ByteText.slice_some.mpr ⟨[], _, rfl, rfl, by simpa using hyear⟩
  · exact ByteText.slice_some.mpr ⟨p.year ++ ['-'], '-' :: (p.day ++ 'T' :: (p.hour ++ ':' :: (p.minute ++ ':' ::
      (p.second ++ p.rest)))), by simp [Parts.text, stamp], by simp [hyear, hdash], by simp [hyear, hdash, hmonth]⟩
  · exact ByteText.slice_some.mpr ⟨p.year ++ '-' :: (p.month ++ ['-']), 'T' :: (p.hour ++ ':' :: (p.minute ++ ':' ::
      (p.second ++ p.rest))), by simp [Parts.text, stamp], by simp [hyear, hdash, hmonth],
      by simp [hyear, hdash, hmonth, hday]⟩
  · exact ByteText.slice_some.mpr ⟨p.year ++ '-' :: (p.month ++ '-' :: (p.day ++ ['T'])), ':' :: (p.minute ++ ':' ::
      (p.second ++ p.rest)), by simp [Parts.text, stamp], by simp [hyear, hdash, hmonth, hday, hT],
      by simp [hyear, hdash, hmonth, hday, hT, hhour]⟩
  · exact ByteText.slice_some.mpr ⟨p.year ++ '-' :: (p.month ++ '-' :: (p.day ++ 'T' :: (p.hour ++ [':']))), ':' ::
      (p.second ++ p.rest), by simp [Parts.text, stamp], by simp [hyear, hdash, hmonth, hday, hT, hhour, hcolon],
      by simp [hyear, hdash, hmonth, hday, hT, hhour, hcolon, hminute]⟩
  · exact ByteText.slice_some.mpr ⟨p.year ++ '-' :: (p.month ++ '-' :: (p.day ++ 'T' :: (p.hour ++ ':' ::
      (p.minute ++ [':'])))), p.rest, by simp [Parts.text, stamp],
      by simp [hyear, hdash, hmonth, hday, hT, hhour, hcolon, hminute],
      by simp [hyear, hdash, hmonth, hday, hT, hhour, hcolon, hminute, hsecond]⟩
  · exact ⟨p.year, _, rfl, hyear⟩
  · exact ⟨p.year ++ '-' :: p.month, p.day ++ 'T' :: (p.hour ++ ':' :: (p.minute ++ ':' :: (p.second ++ p.rest))),
      by simp [Parts.text, stamp], by simp [hyear, hdash, hmonth]⟩
  · exact ⟨p.year ++ '-' :: (p.month ++ '-' :: p.day), p.hour ++ ':' :: (p.minute ++ ':' :: (p.second ++ p.rest)),
      by simp [Parts.text, stamp], by simp [hyear, hdash, hmonth, hday]⟩
  · exact ⟨p.year ++ '-' :: (p.month ++ '-' :: (p.day ++ 'T' :: p.hour)), p.minute ++ ':' :: (p.second ++ p.rest),
      by simp [Parts.text, stamp], by simp [hyear, hdash, hmonth, hday, hT, hhour]⟩
  · exact ⟨p.year ++ '-' :: (p.month ++ '-' :: (p.day ++ 'T' :: (p.hour ++ ':' :: p.minute))), p.second ++ p.rest,
      by simp [Parts.text, stamp], by simp [hyear, hdash, hmonth, hday, hT, hhour, hcolon, hminute]⟩

-- A well-formed text passes the guard, and its milliseconds are digits.
theorem framed_text (h : p.WellFormed) : framed p.text = .ok true ∧
    ∃ digits, fractionDigits p.text = .ok digits ∧ Digits digits := by
  obtain ⟨hlen, -, h4, h7, h10, h13, h16⟩ := slices_of_text h
  have hZ : Char.utf8Size 'Z' = 1 := by decide
  have hdotSize : Char.utf8Size '.' = 1 := by decide
  have hsecond : byteLen p.second = 2 := (byteLen_digits h.second.1).trans h.second.2
  have hsep : ∀ mark ∈ separators, Holds p.text mark.1 mark.2 := by
    intro mark hm
    simp only [separators, List.mem_cons, List.not_mem_nil, or_false] at hm
    rcases hm with rfl | rfl | rfl | rfl | rfl
    · exact h4
    · exact h7
    · exact h10
    · exact h13
    · exact h16
  have hfront : ∃ front, p.text = front ++ p.rest ∧ byteLen front = 19 := by
    refine ⟨stamp p.year p.month p.day p.hour p.minute p.second [], by simp [Parts.text, stamp], ?_⟩
    have htext : p.text = stamp p.year p.month p.day p.hour p.minute p.second [] ++ p.rest := by
      simp [Parts.text, stamp]
    rw [htext, ByteText.byteLen_append] at hlen
    omega
  obtain ⟨front, htext, hfrontLen⟩ := hfront
  rcases h.rest with hrest | ⟨f, hrest, hfdigits, hflength⟩
  · have htotal : byteLen p.text = 20 := by
      rw [hlen, hrest, ByteText.byteLen_cons, ByteText.byteLen_nil, hZ]
    have hlast : p.text.getLast? = some 'Z' := by rw [htext, hrest, List.getLast?_concat]
    refine ⟨framed_true.mpr ⟨Or.inl htotal, fun mark hm => ?_, hlast⟩, [], ?_, digits_zeros 0⟩
    · unfold marksOf at hm
      rw [if_neg (by omega), List.append_nil] at hm
      exact hsep mark hm
    · unfold fractionDigits
      rw [if_neg (by omega)]
  · have hf : byteLen f = 3 := (byteLen_digits hfdigits).trans hflength
    have htotal : byteLen p.text = 24 := by
      rw [hlen, hrest, ByteText.byteLen_cons, ByteText.byteLen_append, ByteText.byteLen_cons, ByteText.byteLen_nil, hZ,
        hdotSize, hf]
    have hlast : p.text.getLast? = some 'Z' := by
      rw [htext, hrest, ← List.cons_append, ← List.append_assoc, List.getLast?_concat]
    have hdot : Holds p.text 19 '.' := ⟨front, f ++ ['Z'], by rw [htext, hrest], hfrontLen⟩
    refine ⟨framed_true.mpr ⟨Or.inr htotal, fun mark hm => ?_, hlast⟩, f, ?_, hfdigits⟩
    · unfold marksOf at hm
      rw [if_pos ⟨htotal, hlast⟩] at hm
      rcases List.mem_append.mp hm with hm | hm
      · exact hsep mark hm
      · rw [List.mem_singleton.mp hm]
        exact hdot
    · unfold fractionDigits
      rw [if_pos htotal, strSlice_ok, ByteText.slice_some]
      refine ⟨front ++ ['.'], ['Z'], by rw [htext, hrest]; simp, ?_, ?_⟩
      · rw [ByteText.byteLen_append, ByteText.byteLen_cons, ByteText.byteLen_nil, hdotSize, hfrontLen]
      · rw [ByteText.byteLen_append, ByteText.byteLen_cons, ByteText.byteLen_nil, hdotSize, hfrontLen, hf]

theorem read_lt_of_length {n : ℕ} (h : Digits text ∧ text.length = n) : read text < 10 ^ n := by
  have hlt := read_lt h.1
  rwa [h.2] at hlt

-- The seconds of a well-formed text fit `i64`.
theorem parts_bounds (h : p.WellFormed) (hrange : p.InRange) :
    -(2 ^ 40) ≤ p.days ∧ p.days < 2 ^ 40 ∧ 0 ≤ p.seconds ∧ p.seconds < 86400 := by
  have hyear := read_lt_of_length h.year
  have hday := read_lt_of_length h.day
  obtain ⟨hmonth, hdayLow, -, hhour, hminute, hsecond⟩ := hrange
  obtain ⟨hshift, -⟩ := unshift_shift hmonth
  have hmarch : (-1 : ℤ) ≤ marchYear (read p.year) (read p.month) ∧ marchYear (read p.year) (read p.month) < 10 ^ 4 := by
    unfold marchYear
    split <;> omega
  unfold Parts.days Parts.seconds
  rw [daysFromCivil_eq hmonth]
  unfold dayOfYear yearStart monthStart
  generalize marchYear (read p.year : ℤ) (read p.month) = march at *
  generalize shiftMonth (read p.month : ℤ) = m at *
  omega

theorem parse_text (h : p.WellFormed) {t : ℤ} :
    parseRfc3339Utc p.text = .ok t ↔ p.InRange ∧ t = p.days * 86400 + p.seconds := by
  obtain ⟨-, ⟨hyear, hmonth, hday, hhour, hminute, hsecond⟩, -⟩ := slices_of_text h
  obtain ⟨hframed, digits, hfraction, hdigits⟩ := framed_text h
  have hne : ∀ {text : List Char} {n : ℕ}, text.length = n + 1 → text ≠ [] := by
    rintro text n hlen rfl
    cases hlen
  have hcomponent : ∀ {a b : ℕ} {text : List Char}, ByteText.slice p.text a b = some text → Digits text → text ≠ [] →
      parseComponent p.text a b = .ok (read text) :=
    fun hslice hdigits hne => parseComponent_ok.mpr ⟨_, hslice, hdigits, hne, rfl⟩
  unfold parseRfc3339Utc
  rw [hframed, hcomponent hyear h.year.1 (hne h.year.2), hcomponent hmonth h.month.1 (hne h.month.2),
    hcomponent hday h.day.1 (hne h.day.2), hcomponent hhour h.hour.1 (hne h.hour.2),
    hcomponent hminute h.minute.1 (hne h.minute.2), hcomponent hsecond h.second.1 (hne h.second.2), hfraction]
  simp only [ok_run, run_ok, ensure_ok, digits_of_all, hdigits, checkedI64_ok, exists_const, true_and]
  constructor
  · rintro ⟨hrange, base, ⟨-, rfl⟩, -, ht⟩
    exact ⟨hrange, ht⟩
  · rintro ⟨hrange, ht⟩
    obtain ⟨hlow, hhigh, hseconds, hday86400⟩ := parts_bounds h hrange
    refine ⟨hrange, _, ⟨⟨?_, ?_⟩, rfl⟩, ⟨?_, ?_⟩, ht⟩
    · show -(2 ^ 63) ≤ p.days * 86400
      omega
    · show p.days * 86400 < 2 ^ 63
      omega
    · show -(2 ^ 63) ≤ p.days * 86400 + p.seconds
      omega
    · show p.days * 86400 + p.seconds < 2 ^ 63
      omega

end Text

-- A text the parser accepts has six components and ends after its seconds or its milliseconds.
theorem text_of_parse {value : List Char} {t : ℤ} (h : parseRfc3339Utc value = .ok t) :
    ∃ p : Parts, p.WellFormed ∧ value = p.text := by
  unfold parseRfc3339Utc at h
  simp only [run_ok, ensure_ok, parseComponent_ok, digits_of_all] at h
  obtain ⟨shape, hframed, _, rfl, _, ⟨year, hyear, hyearDigits, -, -⟩, _, ⟨month, hmonth, hmonthDigits, -, -⟩, _,
    ⟨day, hday, hdayDigits, -, -⟩, _, ⟨hour, hhour, hhourDigits, -, -⟩, _, ⟨minute, hminute, hminuteDigits, -, -⟩, _,
    ⟨second, hsecond, hsecondDigits, -, -⟩, digits, hdigits, _, hfraction, -⟩ := h
  obtain ⟨hlen, hmarks, hlast⟩ := framed_true.mp hframed
  have hmark : ∀ mark ∈ marksOf value, ByteText.slice value mark.1 (mark.1 + 1) = some [mark.2] :=
    fun mark hm => ByteText.slice_one.mpr ⟨_, rfl, marks_size value mark hm, hmarks mark hm⟩
  have hsep : ∀ mark ∈ separators, ByteText.slice value mark.1 (mark.1 + 1) = some [mark.2] :=
    fun mark hm => hmark mark (List.mem_append_left _ hm)
  have hzero : takeBytes value 0 = some [] := ByteText.takeBytes_some.mpr ⟨⟨value, rfl⟩, rfl⟩
  have hsize : ∀ {a b : ℕ} {text : List Char}, ByteText.slice value a b = some text → byteLen text = b - a := by
    intro a b text hslice
    obtain ⟨front, rest, -, hfront, hend⟩ := ByteText.slice_some.mp hslice
    omega
  have hlength : ∀ {a b : ℕ} {text : List Char}, ByteText.slice value a b = some text → Digits text →
      text.length = b - a := fun hslice hd => digits_length hd (hsize hslice)
  have htaken := take_slice (take_slice (take_slice (take_slice (take_slice (take_slice (take_slice (take_slice (take_slice
    (take_slice (take_slice hzero hyear) (hsep (4, '-') (by decide))) hmonth) (hsep (7, '-') (by decide))) hday)
    (hsep (10, 'T') (by decide))) hhour) (hsep (13, ':') (by decide))) hminute) (hsep (16, ':') (by decide))) hsecond
  obtain ⟨front, rfl⟩ := List.getLast?_eq_some_iff.mp hlast
  have hZ : Char.utf8Size 'Z' = 1 := by decide
  have hfront : byteLen front + 1 = byteLen (front ++ ['Z']) := by
    rw [ByteText.byteLen_append, ByteText.byteLen_cons, ByteText.byteLen_nil, hZ]
  have hlastSlice : ByteText.slice (front ++ ['Z']) (byteLen front) (byteLen (front ++ ['Z'])) = some ['Z'] :=
    ByteText.slice_some.mpr ⟨front, [], by rw [List.append_nil], rfl, by
      rw [← hfront, ByteText.byteLen_cons, ByteText.byteLen_nil, hZ]⟩
  rcases hlen with hshort | hlong
  · rw [hshort] at hlastSlice hfront
    have hnineteen : byteLen front = 19 := by omega
    rw [hnineteen] at hlastSlice
    have hall := take_slice htaken hlastSlice
    rw [← hshort] at hall
    refine ⟨⟨year, month, day, hour, minute, second, ['Z']⟩, ⟨⟨hyearDigits, hlength hyear hyearDigits⟩,
      ⟨hmonthDigits, hlength hmonth hmonthDigits⟩, ⟨hdayDigits, hlength hday hdayDigits⟩,
      ⟨hhourDigits, hlength hhour hhourDigits⟩, ⟨hminuteDigits, hlength hminute hminuteDigits⟩,
      ⟨hsecondDigits, hlength hsecond hsecondDigits⟩, Or.inl rfl⟩, ?_⟩
    rw [ByteText.take_all hall]
    simp [Parts.text, stamp]
  · have hdot := hmark (19, '.') (by
      unfold marksOf
      rw [if_pos ⟨hlong, hlast⟩]
      exact List.mem_append_right _ (List.mem_singleton.mpr rfl))
    unfold fractionDigits at hdigits
    rw [if_pos hlong, strSlice_ok] at hdigits
    rw [hlong] at hlastSlice hfront
    have htwentyThree : byteLen front = 23 := by omega
    rw [htwentyThree] at hlastSlice
    have hall := take_slice (take_slice (take_slice htaken hdot) hdigits) hlastSlice
    rw [← hlong] at hall
    refine ⟨⟨year, month, day, hour, minute, second, '.' :: (digits ++ ['Z'])⟩, ⟨⟨hyearDigits, hlength hyear hyearDigits⟩,
      ⟨hmonthDigits, hlength hmonth hmonthDigits⟩, ⟨hdayDigits, hlength hday hdayDigits⟩,
      ⟨hhourDigits, hlength hhour hhourDigits⟩, ⟨hminuteDigits, hlength hminute hminuteDigits⟩,
      ⟨hsecondDigits, hlength hsecond hsecondDigits⟩, Or.inr ⟨digits, rfl, hfraction, hlength hdigits hfraction⟩⟩, ?_⟩
    rw [ByteText.take_all hall]
    simp [Parts.text, stamp]

/-! ## Writing -/

/-- The first and the last second of the years 0 to 9999. -/
def firstSecond : ℤ := -62167219200
def lastSecond : ℤ := 253402300799

theorem daysFromCivil_yearStart (h : 1 ≤ month ∧ month ≤ 12) :
    daysFromCivil year month day = yearStart (marchYear year month) + dayOfYear month day - 719468 := by
  rw [daysFromCivil_eq h]
  unfold yearStart
  omega

theorem yearStart_mono {a b : ℤ} (h : a ≤ b) : yearStart a ≤ yearStart b := by
  rcases eq_or_lt_of_le h with rfl | hlt
  · exact le_rfl
  · unfold yearStart
    omega

-- A date lies in the years 0 to 9999 when its day number does.
theorem year_iff (h : ValidDate year month day) : 0 ≤ year ∧ year ≤ 9999 ↔
    -719528 ≤ daysFromCivil year month day ∧ daysFromCivil year month day ≤ 2932896 := by
  obtain ⟨hfirst, hlast, hmonth⟩ := dayOfYear_bounds h
  have hday366 : dayOfYear month day < 366 := by
    have hle : (if isLeap (marchYear year month + 1) then (366 : ℤ) else 365) ≤ 366 := by split <;> omega
    omega
  have hvalid := h.ofYear
  rw [daysFromCivil_yearStart hvalid]
  have hbefore : yearStart (-2) = -731 ∧ yearStart (-1) = -366 ∧ yearStart 0 = 0 := by decide
  have hafter : yearStart 9998 = 3651694 ∧ yearStart 9999 = 3652059 ∧ yearStart 10000 = 3652425 := by decide
  have hmono : ∀ a b : ℤ, a ≤ b → yearStart a ≤ yearStart b := fun _ _ => yearStart_mono
  unfold monthOf shiftMonth at hmonth
  unfold marchYear
  by_cases hlate : 2 < month
  · rw [if_pos hlate] at hmonth
    rw [if_neg (by omega), Int.sub_zero]
    constructor
    · intro hyear
      have hlow := hmono 0 year hyear.1
      have hhigh := hmono year 9999 hyear.2
      omega
    · intro hdays
      by_contra hyear
      rcases (by omega : year ≤ -1 ∨ 10000 ≤ year) with hneg | hbig
      · have hle := hmono year (-1) hneg
        omega
      · have hle := hmono 10000 year hbig
        omega
  · rw [if_neg hlate] at hmonth
    rw [if_pos (by omega)]
    constructor
    · intro hyear
      have hlow := hmono (-1) (year - 1) (by omega)
      have hhigh := hmono (year - 1) 9998 (by omega)
      omega
    · intro hdays
      by_contra hyear
      rcases (by omega : year - 1 ≤ -2 ∨ 9999 ≤ year - 1) with hneg | hbig
      · have hle := hmono (year - 1) (-2) hneg
        omega
      · have hle := hmono 9999 (year - 1) hbig
        omega

theorem zeroPadded_spec {width : ℕ} {n : ℤ} (hwidth : 0 < width) (hn : 0 ≤ n) (hlt : n < 10 ^ width) :
    (Digits (zeroPadded width n) ∧ (zeroPadded width n).length = width) ∧ (read (zeroPadded width n) : ℤ) = n := by
  have hnat : n.toNat < 10 ^ width := by
    zify
    rw [Int.toNat_of_nonneg hn]
    exact hlt
  have hlength := (length_print_le hwidth).mpr hnat
  unfold zeroPadded
  refine ⟨⟨digits_padStart _ (digits_print _), length_padStart hlength⟩, ?_⟩
  rw [read_padStart, read_print, Int.toNat_of_nonneg hn]

theorem zeroPadded_read {width : ℕ} (hwidth : 0 < width) (h : Digits text ∧ text.length = width) :
    zeroPadded width (read text) = text :=
  padStart_print (read_lt_of_length h) h.1 h.2 rfl hwidth

/-- The components a timestamp is written with. -/
def partsOf (timestamp : ℤ) : Parts where
  year := zeroPadded 4 (civilFromDays (timestamp / 86400)).1
  month := zeroPadded 2 (civilFromDays (timestamp / 86400)).2.1
  day := zeroPadded 2 (civilFromDays (timestamp / 86400)).2.2
  hour := zeroPadded 2 ((timestamp % 86400).tdiv 3600)
  minute := zeroPadded 2 (((timestamp % 86400).tmod 3600).tdiv 60)
  second := zeroPadded 2 ((timestamp % 86400).tmod 60)
  rest := ['.', '0', '0', '0', 'Z']

theorem format_ok {t : ℤ} (hfirst : firstSecond ≤ t) (hlast : t ≤ lastSecond) :
    formatRfc3339Utc t = .ok (partsOf t).text := by
  obtain ⟨hvalid, hdays⟩ := daysFromCivil_civilFromDays (t / 86400)
  unfold firstSecond at hfirst
  unfold lastSecond at hlast
  have hyear := (year_iff hvalid).mpr (by omega)
  unfold formatRfc3339Utc
  rw [if_neg (not_not.mpr hyear)]
  rfl

theorem parse_partsOf {t : ℤ} (hfirst : firstSecond ≤ t) (hlast : t ≤ lastSecond) :
    parseRfc3339Utc (partsOf t).text = .ok t := by
  obtain ⟨hvalid, hdays⟩ := daysFromCivil_civilFromDays (t / 86400)
  unfold firstSecond at hfirst
  unfold lastSecond at hlast
  have hyear := (year_iff hvalid).mpr (by omega)
  have hlength : monthLength (civilFromDays (t / 86400)).1 (civilFromDays (t / 86400)).2.1 ≤ 31 := by
    unfold monthLength
    split
    · split <;> omega
    · split <;> omega
  have hmonth := hvalid.ofYear
  have hday := hvalid.ofMonth
  have hseconds : 0 ≤ t % 86400 ∧ t % 86400 < 86400 := by omega
  have hhour : (t % 86400).tdiv 3600 = t % 86400 / 3600 := tdiv_of_nonneg hseconds.1
  have hrest : (t % 86400).tmod 3600 = t % 86400 % 3600 := Int.tmod_eq_emod_of_nonneg hseconds.1
  have hminute : ((t % 86400).tmod 3600).tdiv 60 = t % 86400 % 3600 / 60 := by
    rw [hrest]
    exact tdiv_of_nonneg (by omega)
  have hsecond : (t % 86400).tmod 60 = t % 86400 % 60 := Int.tmod_eq_emod_of_nonneg hseconds.1
  obtain ⟨hyearDigits, hyearRead⟩ := @zeroPadded_spec 4 _ (by decide) hyear.1 (by omega)
  obtain ⟨hmonthDigits, hmonthRead⟩ :=
    @zeroPadded_spec 2 ((civilFromDays (t / 86400)).2.1) (by decide) (by omega) (by omega)
  obtain ⟨hdayDigits, hdayRead⟩ :=
    @zeroPadded_spec 2 ((civilFromDays (t / 86400)).2.2) (by decide) (by omega) (by omega)
  obtain ⟨hhourDigits, hhourRead⟩ :=
    @zeroPadded_spec 2 ((t % 86400).tdiv 3600) (by decide) (by omega) (by omega)
  obtain ⟨hminuteDigits, hminuteRead⟩ :=
    @zeroPadded_spec 2 (((t % 86400).tmod 3600).tdiv 60) (by decide) (by omega) (by omega)
  obtain ⟨hsecondDigits, hsecondRead⟩ :=
    @zeroPadded_spec 2 ((t % 86400).tmod 60) (by decide) (by omega) (by omega)
  have hwell : (partsOf t).WellFormed := ⟨hyearDigits, hmonthDigits, hdayDigits, hhourDigits, hminuteDigits, hsecondDigits,
    Or.inr ⟨['0', '0', '0'], rfl, digits_zeros 3, rfl⟩⟩
  refine (parse_text hwell).mpr ⟨⟨?_, ?_, ?_, ?_, ?_, ?_⟩, ?_⟩
  · show 1 ≤ (read (zeroPadded 2 _) : ℤ) ∧ (read (zeroPadded 2 _) : ℤ) ≤ 12
    rw [hmonthRead]
    exact hmonth
  · show ¬ (read (zeroPadded 2 _) : ℤ) < 1
    rw [hdayRead]
    omega
  · show ¬ daysInMonth (read (zeroPadded 4 _)) (read (zeroPadded 2 _)) < (read (zeroPadded 2 _) : ℤ)
    rw [hyearRead, hmonthRead, hdayRead, daysInMonth_eq hyear.1 hmonth]
    omega
  · show ¬ 23 < (read (zeroPadded 2 _) : ℤ)
    rw [hhourRead]
    omega
  · show ¬ 59 < (read (zeroPadded 2 _) : ℤ)
    rw [hminuteRead]
    omega
  · show ¬ 59 < (read (zeroPadded 2 _) : ℤ)
    rw [hsecondRead]
    omega
  · show t = daysFromCivil (read (zeroPadded 4 _)) (read (zeroPadded 2 _)) (read (zeroPadded 2 _)) * 86400 +
      ((read (zeroPadded 2 _) : ℤ) * 3600 + read (zeroPadded 2 _) * 60 + read (zeroPadded 2 _))
    rw [hyearRead, hmonthRead, hdayRead, hhourRead, hminuteRead, hsecondRead, hdays]
    omega

-- What is read, of a text in whole seconds, is written back.
theorem format_of_parse {value : List Char} {t : ℤ} (h : parseRfc3339Utc value = .ok t)
    (hwhole : ∃ front, value = front ++ ['.', '0', '0', '0', 'Z']) :
    (firstSecond ≤ t ∧ t ≤ lastSecond) ∧ formatRfc3339Utc t = .ok value := by
  obtain ⟨p, hp, rfl⟩ := text_of_parse h
  obtain ⟨⟨hmonth, hdayLow, hdayHigh, hhour, hminute, hsecond⟩, rfl⟩ := (parse_text hp).mp h
  have hyearLt := read_lt_of_length hp.year
  rw [daysInMonth_eq (by omega) hmonth] at hdayHigh
  have hvalid : ValidDate (read p.year) (read p.month) (read p.day) := ⟨hmonth, by omega, by omega⟩
  have hyear := (year_iff hvalid).mp (by omega)
  have hcivil := civilFromDays_daysFromCivil hvalid
  have hseconds : 0 ≤ p.seconds ∧ p.seconds < 86400 := by
    unfold Parts.seconds
    omega
  have hdays : daysFromCivil (read p.year) (read p.month) (read p.day) = p.days := rfl
  rw [hdays] at hyear hcivil
  have hbounds : firstSecond ≤ p.days * 86400 + p.seconds ∧ p.days * 86400 + p.seconds ≤ lastSecond := by
    unfold firstSecond lastSecond
    omega
  refine ⟨hbounds, ?_⟩
  rw [format_ok hbounds.1 hbounds.2]
  have hquotient : (p.days * 86400 + p.seconds) / 86400 = p.days := by omega
  have hremainder : (p.days * 86400 + p.seconds) % 86400 = p.seconds := by omega
  have hhourValue : p.seconds.tdiv 3600 = read p.hour := by
    rw [tdiv_of_nonneg hseconds.1]
    unfold Parts.seconds
    omega
  have hminuteValue : (p.seconds.tmod 3600).tdiv 60 = read p.minute := by
    rw [Int.tmod_eq_emod_of_nonneg hseconds.1, tdiv_of_nonneg (by omega)]
    unfold Parts.seconds
    omega
  have hsecondValue : p.seconds.tmod 60 = read p.second := by
    rw [Int.tmod_eq_emod_of_nonneg hseconds.1]
    unfold Parts.seconds
    omega
  have hrest : p.rest = ['.', '0', '0', '0', 'Z'] := by
    obtain ⟨front, hfront⟩ := hwhole
    have htext : p.text = stamp p.year p.month p.day p.hour p.minute p.second [] ++ p.rest := by
      simp [Parts.text, stamp]
    rw [htext] at hfront
    rcases hp.rest with hrest | ⟨f, hrest, hfdigits, hflength⟩
    · obtain ⟨a, b, hsecondText⟩ := List.length_eq_two.mp hp.second.2
      have hends : (p.year ++ '-' :: (p.month ++ '-' :: (p.day ++ 'T' :: (p.hour ++ ':' :: p.minute)))) ++ [':', a, b, 'Z'] =
          (front ++ ['.']) ++ ['0', '0', '0', 'Z'] := by
        rw [hrest] at hfront
        simpa [stamp, hsecondText] using hfront
      have hcolon := (List.append_inj' hends rfl).2
      exact absurd (List.cons.inj hcolon).1 (by decide)
    · rw [hrest] at hfront ⊢
      exact (List.append_inj' hfront (by simp [hflength])).2
  have hparts : partsOf (p.days * 86400 + p.seconds) = p := by
    unfold partsOf
    rw [hquotient, hremainder, hcivil, hhourValue, hminuteValue, hsecondValue]
    simp only
    rw [zeroPadded_read (by decide) hp.year, zeroPadded_read (by decide) hp.month, zeroPadded_read (by decide) hp.day,
      zeroPadded_read (by decide) hp.hour, zeroPadded_read (by decide) hp.minute, zeroPadded_read (by decide) hp.second,
      ← hrest]
  rw [hparts]

end PaymentNode.Native
