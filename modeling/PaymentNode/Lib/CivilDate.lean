import Mathlib.Data.Int.Basic
import Mathlib.Order.Monotone.Basic
import Mathlib.Tactic.Linarith

/-!
# CivilDate — Gregorian dates as day numbers

A year begins in March here, so that the leap day is its last; an era is 400 years.  The year of a day of an era and
the month of a day of a year are read off by a division each.
-/

namespace CivilDate

/-- Days of an era before its year `y`. -/
def yearStart (y : ℤ) : ℤ := 365 * y + y / 4 - y / 100 + y / 400

/-- Days of a year before its month `m`; March is `0`. -/
def monthStart (m : ℤ) : ℤ := (153 * m + 2) / 5

def yearOf (day : ℤ) : ℤ := (day - day / 1460 + day / 36524 - day / 146096) / 365

def monthOf (day : ℤ) : ℤ := (5 * day + 2) / 153

def isLeap (year : ℤ) : Prop := year % 4 = 0 ∧ (year % 100 ≠ 0 ∨ year % 400 = 0)

instance (year : ℤ) : Decidable (isLeap year) := inferInstanceAs (Decidable (_ ∧ _))

/-- The number of days of a month counted from January. -/
def monthLength (year month : ℤ) : ℤ :=
  if month = 2 then if isLeap year then 29 else 28
  else if month = 4 ∨ month = 6 ∨ month = 9 ∨ month = 11 then 30 else 31

/-! ## Years -/

theorem yearOf_le_succ (n : ℕ) : yearOf n ≤ yearOf (n + 1 : ℕ) := by
  unfold yearOf
  push_cast
  omega

theorem yearOf_mono {a b : ℕ} (h : a ≤ b) : yearOf a ≤ yearOf b :=
  monotone_nat_of_le_succ (f := fun n : ℕ => yearOf n) yearOf_le_succ h

/-- The first and the last day of each year of an era. -/
theorem yearOf_ends : ∀ y < 400, yearOf (yearStart (y : ℕ)) = y ∧ yearOf (yearStart ((y : ℕ) + 1) - 1) = y := by
  decide +kernel

theorem yearStart_nonneg {y : ℤ} (h : 0 ≤ y) : 0 ≤ yearStart y := by
  unfold yearStart
  omega

theorem yearOf_eq {y day : ℤ} (hy : 0 ≤ y ∧ y < 400) (hfirst : yearStart y ≤ day) (hlast : day < yearStart (y + 1)) :
    yearOf day = y := by
  obtain ⟨n, rfl⟩ := Int.eq_ofNat_of_zero_le hy.1
  have hstart := yearStart_nonneg hy.1
  have hends := yearOf_ends n (by omega)
  have hlow := yearOf_mono (a := (yearStart n).toNat) (b := day.toNat) (by omega)
  have hhigh := yearOf_mono (a := day.toNat) (b := (yearStart (n + 1) - 1).toNat) (by omega)
  rw [Int.toNat_of_nonneg hstart, Int.toNat_of_nonneg (by omega), hends.1] at hlow
  rw [Int.toNat_of_nonneg (by omega : (0 : ℤ) ≤ day), Int.toNat_of_nonneg (by omega), hends.2] at hhigh
  omega

theorem exists_year {day : ℤ} (h : 0 ≤ day) (n : ℕ) (hlt : day < yearStart n) :
    ∃ y : ℤ, (0 ≤ y ∧ y < n) ∧ yearStart y ≤ day ∧ day < yearStart (y + 1) := by
  induction n with
  | zero =>
    have hzero : yearStart ((0 : ℕ) : ℤ) = 0 := rfl
    omega
  | succ n ih =>
    by_cases hn : day < yearStart n
    · obtain ⟨y, hy, hrest⟩ := ih hn
      exact ⟨y, ⟨hy.1, by push_cast; omega⟩, hrest⟩
    · refine ⟨n, ⟨by omega, by push_cast; omega⟩, by omega, ?_⟩
      push_cast at hlt
      exact hlt

/-- Each day of an era lies in the year read off it. -/
theorem yearOf_spec {day : ℤ} (h : 0 ≤ day ∧ day < 146097) :
    (0 ≤ yearOf day ∧ yearOf day < 400) ∧ yearStart (yearOf day) ≤ day ∧ day < yearStart (yearOf day + 1) := by
  have hera : yearStart ((400 : ℕ) : ℤ) = 146097 := by decide
  obtain ⟨y, hy, hfirst, hlast⟩ := exists_year h.1 400 (by omega)
  push_cast at hy
  rw [yearOf_eq hy hfirst hlast]
  exact ⟨hy, hfirst, hlast⟩

/-- A year has its leap day when the year it ends in is a leap year. -/
theorem yearStart_succ {y : ℤ} : yearStart (y + 1) = yearStart y + if isLeap (y + 1) then 366 else 365 := by
  by_cases hleap : isLeap (y + 1)
  · rw [if_pos hleap]
    unfold isLeap at hleap
    unfold yearStart
    omega
  · rw [if_neg hleap]
    unfold isLeap at hleap
    unfold yearStart
    omega

/-! ## Months -/

theorem monthOf_eq {m day : ℤ} (hfirst : monthStart m ≤ day) (hlast : day < monthStart (m + 1)) : monthOf day = m := by
  unfold monthStart at hfirst hlast
  unfold monthOf
  omega

theorem monthOf_spec (day : ℤ) : monthStart (monthOf day) ≤ day ∧ day < monthStart (monthOf day + 1) := by
  unfold monthStart monthOf
  omega

/-! ## Dates -/

/-- The month of the year that begins in March. -/
def shiftMonth (month : ℤ) : ℤ := if 2 < month then month - 3 else month + 9

def unshiftMonth (m : ℤ) : ℤ := if m < 10 then m + 3 else m - 9

/-- The day of its year of the date `day` of the month `month`. -/
def dayOfYear (month day : ℤ) : ℤ := monthStart (shiftMonth month) + day - 1

structure ValidDate (year month day : ℤ) : Prop where
  ofYear : 1 ≤ month ∧ month ≤ 12
  ofMonth : 1 ≤ day ∧ day ≤ monthLength year month

theorem shift_unshift {m : ℤ} (h : 0 ≤ m ∧ m < 12) :
    (1 ≤ unshiftMonth m ∧ unshiftMonth m ≤ 12) ∧ shiftMonth (unshiftMonth m) = m := by
  unfold unshiftMonth
  split
  · refine ⟨by omega, ?_⟩
    unfold shiftMonth
    rw [if_pos (by omega)]
    omega
  · refine ⟨by omega, ?_⟩
    unfold shiftMonth
    rw [if_neg (by omega)]
    omega

theorem unshift_shift {month : ℤ} (h : 1 ≤ month ∧ month ≤ 12) :
    (0 ≤ shiftMonth month ∧ shiftMonth month < 12) ∧ unshiftMonth (shiftMonth month) = month := by
  unfold shiftMonth
  split
  · refine ⟨by omega, ?_⟩
    unfold unshiftMonth
    rw [if_pos (by omega)]
    omega
  · refine ⟨by omega, ?_⟩
    unfold unshiftMonth
    rw [if_neg (by omega)]
    omega

/-- The days of a month lie between its start and the next month's; February ends where the year does. -/
theorem monthLength_eq {year month : ℤ} (h : 1 ≤ month ∧ month ≤ 12) : monthLength year month =
    (if month = 2 then if isLeap year then 366 else 365 else monthStart (shiftMonth month + 1)) -
      monthStart (shiftMonth month) := by
  have hcases : ∀ m : ℕ, m < 12 → m ≠ 1 →
      monthStart (shiftMonth (m + 1 : ℕ) + 1) - monthStart (shiftMonth (m + 1 : ℕ)) =
        if m = 3 ∨ m = 5 ∨ m = 8 ∨ m = 10 then 30 else 31 := by decide
  obtain ⟨n, hn⟩ := Int.eq_ofNat_of_zero_le (by omega : (0 : ℤ) ≤ month - 1)
  have hmonth : month = ((n + 1 : ℕ) : ℤ) := by
    push_cast
    omega
  unfold monthLength
  by_cases htwo : month = 2
  · rw [if_pos htwo, if_pos htwo, htwo]
    have hstart : monthStart (shiftMonth 2) = 337 := by decide
    rw [hstart]
    split <;> rfl
  · have hlength := hcases n (by omega) (by omega)
    rw [← hmonth] at hlength
    rw [if_neg htwo, if_neg htwo, hlength]
    have hiff : (month = 4 ∨ month = 6 ∨ month = 9 ∨ month = 11) ↔ (n = 3 ∨ n = 5 ∨ n = 8 ∨ n = 10) := by omega
    simp only [hiff]

/-- The year that begins in March before the date. -/
def marchYear (year month : ℤ) : ℤ := year - if month ≤ 2 then 1 else 0

/-- A valid date is a day of its year. -/
theorem dayOfYear_bounds {year month day : ℤ} (h : ValidDate year month day) :
    0 ≤ dayOfYear month day ∧ dayOfYear month day < (if isLeap (marchYear year month + 1) then 366 else 365) ∧
      monthOf (dayOfYear month day) = shiftMonth month := by
  obtain ⟨hshift, -⟩ := unshift_shift h.ofYear
  have hlength := @monthLength_eq year month h.ofYear
  have hday := h.ofMonth
  have hstart : 0 ≤ monthStart (shiftMonth month) := by
    unfold monthStart
    omega
  unfold dayOfYear
  by_cases htwo : month = 2
  · have hyear : marchYear year month + 1 = year := by
      unfold marchYear
      rw [if_pos (by omega)]
      omega
    have hnext : monthStart (shiftMonth month + 1) = 367 := by
      rw [htwo]
      decide
    rw [hyear]
    rw [if_pos htwo] at hlength
    have hle : (if isLeap year then (366 : ℤ) else 365) ≤ 366 := by split <;> omega
    exact ⟨by omega, by omega, monthOf_eq (by omega) (by omega)⟩
  · rw [if_neg htwo] at hlength
    have hnext : monthStart (shiftMonth month + 1) ≤ 337 := by
      have hmonth := h.ofYear
      have hlt : shiftMonth month < 11 := by
        unfold shiftMonth
        split <;> omega
      unfold monthStart
      omega
    have hge : (365 : ℤ) ≤ if isLeap (marchYear year month + 1) then 366 else 365 := by split <;> omega
    exact ⟨by omega, by omega, monthOf_eq (by omega) (by omega)⟩

/-- A day of a year is a valid date of it. -/
theorem validDate_of_day {year day : ℤ} (hday : 0 ≤ day)
    (hlt : day < if isLeap (year + 1) then 366 else 365) :
    ValidDate (year + if unshiftMonth (monthOf day) ≤ 2 then 1 else 0) (unshiftMonth (monthOf day))
      (day - monthStart (monthOf day) + 1) := by
  obtain ⟨hfirst, hlast⟩ := monthOf_spec day
  have hday366 : day < 366 := by
    have hle : (if isLeap (year + 1) then (366 : ℤ) else 365) ≤ 366 := by split <;> omega
    omega
  have hm : 0 ≤ monthOf day ∧ monthOf day < 12 := by
    unfold monthOf
    omega
  obtain ⟨hmonth, hshift⟩ := shift_unshift hm
  refine ⟨hmonth, by omega, ?_⟩
  rw [monthLength_eq hmonth, hshift]
  by_cases htwo : unshiftMonth (monthOf day) = 2
  · have hyear : (if (2 : ℤ) ≤ 2 then (1 : ℤ) else 0) = 1 := if_pos le_rfl
    rw [if_pos htwo, htwo, hyear]
    omega
  · rw [if_neg htwo]
    omega

end CivilDate
