import ClusterSync.Object.Calendar
import Mathlib.Data.Nat.Init
import Mathlib.Order.Monotone.Basic

/-!
# Dates and days

**Theorem (`Calendar.daysOfDate?_dateOfDays`).** The date of a day is a date of the calendar, unless
its year is too far away, and the day of that date is the day itself.

The proof counts years from March, in eras of 400 years, which are all of the same length. Without
its leap days an era has years of 365 days, so that a division finds the year of a day.
-/

namespace ClusterSync.Calendar

/-! ## Years of an era -/

/-- The days of an era before a day, without the leap days among them. -/
def evened (day : Nat) : Nat := day - day / 1460 + day / 36524 - day / 146096

/-- The first day of a year of an era; the year 400 begins with the next era. -/
def firstDay (year : Nat) : Nat := 365 * year + year / 4 - year / 100 + year / 400

theorem monotone_evened : Monotone evened :=
  monotone_nat_of_le_succ fun day => by
    unfold evened
    omega

/-- The first and the last day of each year decide on all its days. -/
theorem evened_div {year day : Nat} (hyear : year < 400) (hfirst : firstDay year ≤ day)
    (hlast : day < firstDay (year + 1)) : evened day / 365 = year := by
  have hends : ∀ year < 400, 365 * year ≤ evened (firstDay year) ∧
      evened (firstDay (year + 1) - 1) < 365 * (year + 1) := by
    decide +kernel
  obtain ⟨hlow, hhigh⟩ := hends year hyear
  have hfrom := monotone_evened hfirst
  have huntil := monotone_evened (Nat.le_sub_one_of_lt hlast)
  omega

theorem exists_year {day : Nat} (h : day < 146097) :
    ∃ year < 400, firstDay year ≤ day ∧ day < firstDay (year + 1) := by
  suffices hbefore : ∀ bound, day < firstDay bound →
      ∃ year < bound, firstDay year ≤ day ∧ day < firstDay (year + 1) from hbefore 400 h
  intro bound
  induction bound with
  | zero => exact fun h => absurd h (Nat.not_lt_zero day)
  | succ bound ih =>
    intro hlt
    by_cases hfirst : firstDay bound ≤ day
    · exact ⟨bound, Nat.lt_succ_self bound, hfirst, hlt⟩
    · obtain ⟨year, hyear, hday⟩ := ih (Nat.lt_of_not_le hfirst)
      exact ⟨year, Nat.lt_succ_of_lt hyear, hday⟩

/-- A year of 366 days ends with the leap day of the calendar year that it ends in. -/
theorem isLeap_of_firstDay {year : Nat} (hyear : year < 400)
    (h : firstDay (year + 1) = firstDay year + 366) (era : Int) :
    isLeap (year + era * 400 + 1) = true := by
  have hnat : (year + 1) % 4 = 0 ∧ ((year + 1) % 100 ≠ 0 ∨ (year + 1) % 400 = 0) := by
    unfold firstDay at h
    omega
  simp only [isLeap, Bool.and_eq_true, Bool.or_eq_true, decide_eq_true_eq, ne_eq]
  omega

/-! ## Months -/

/-- The month in which a day lies of a year that begins in March. -/
def monthOfDay (day : Nat) : Nat :=
  if (5 * day + 2) / 153 < 10 then (5 * day + 2) / 153 + 3 else (5 * day + 2) / 153 - 9

/-- The place of such a day in its month, counted from one. -/
def placeOfDay (day : Nat) : Nat := day - (153 * ((5 * day + 2) / 153) + 2) / 5 + 1

theorem monthOfDay_spec {day : Nat} (h : day < 366) :
    1 ≤ monthOfDay day ∧ monthOfDay day ≤ 12 ∧ 1 ≤ placeOfDay day ∧
      (153 * ((monthOfDay day + 9) % 12) + 2) / 5 + placeOfDay day - 1 = day := by
  revert day
  decide +kernel

theorem placeOfDay_le {day : Nat} (h : day < 366) {year : Int}
    (hleap : day = 365 → isLeap year = true) :
    placeOfDay day ≤ daysInMonth year (monthOfDay day) := by
  by_cases hlast : day = 365
  · subst hlast
    rw [daysInMonth, hleap rfl]
    decide
  · have hcommon : ∀ day < 365, placeOfDay day ≤
        if monthOfDay day = 2 then 28
        else if monthOfDay day = 4 ∨ monthOfDay day = 6 ∨ monthOfDay day = 9 ∨ monthOfDay day = 11
        then 30 else 31 := by decide +kernel
    refine (hcommon day (by omega)).trans ?_
    unfold daysInMonth
    split
    · split <;> omega
    · exact le_rfl

/-! ## Dates -/

/-- The date of a day, given by its era, its year of the era and its place in that year. -/
theorem dateOfDays_eq {days era : Int} {year day : Nat} (hyear : year < 400)
    (hdays : days = era * 146097 + (firstDay year + day) - 719468) 
    (hday : firstDay year + day < firstDay (year + 1)) :
    dateOfDays days = (if monthOfDay day ≤ 2 then year + era * 400 + 1 else year + era * 400,
      monthOfDay day, placeOfDay day) := by
  have hbound : firstDay (year + 1) ≤ 146097 := by
    unfold firstDay
    omega
  have hfirst : 365 * year + year / 4 - year / 100 = firstDay year := by
    unfold firstDay
    omega
  have hera : (days + 719468).fdiv 146097 = era := by
    rw [Int.fdiv_eq_ediv_of_nonneg _ (by decide)]
    omega
  have hofEra : ((days + 719468) - era * 146097).toNat = firstDay year + day := by omega
  have hyearOf := evened_div hyear (Nat.le_add_right _ day) hday
  unfold evened at hyearOf
  unfold dateOfDays
  simp only [hera, hofEra, hyearOf, hfirst, Nat.add_sub_cancel_left]
  rfl

theorem exists_parts (days : Int) : ∃ (era : Int) (year day : Nat), year < 400 ∧
    days = era * 146097 + (firstDay year + day) - 719468 ∧
      firstDay year + day < firstDay (year + 1) := by
  have hlt : ((days + 719468) % 146097).toNat < 146097 := by omega
  obtain ⟨year, hyear, hfirst, hlast⟩ := exists_year hlt
  exact ⟨(days + 719468) / 146097, year, ((days + 719468) % 146097).toNat - firstDay year, hyear,
    by omega, by omega⟩

theorem daysOfDate?_dateOfDays {days : Int} (h : isYear (dateOfDays days).1 = true) :
    daysOfDate? (dateOfDays days).1 (dateOfDays days).2.1 (dateOfDays days).2.2 = some days := by
  obtain ⟨era, year, day, hyear, hdays, hday⟩ := exists_parts days
  rw [dateOfDays_eq hyear hdays hday] at h ⊢
  have hday366 : day < 366 := by
    unfold firstDay at hday
    omega
  obtain ⟨hfirst, hlast, hplace, hback⟩ := monthOfDay_spec hday366
  have hleap : day = 365 → isLeap (year + era * 400 + 1) = true := fun heq =>
    isLeap_of_firstDay hyear (by unfold firstDay at hday ⊢; omega) era
  have hyearOf : (if monthOfDay day ≤ 2 then
      (if monthOfDay day ≤ 2 then (year + era * 400 + 1 : Int) else year + era * 400) - 1 else
      (if monthOfDay day ≤ 2 then (year + era * 400 + 1 : Int) else year + era * 400)) =
      year + era * 400 := by
    split <;> omega
  have heraOf : (year + era * 400 : Int).fdiv 400 = era := by
    rw [Int.fdiv_eq_ediv_of_nonneg _ (by decide)]
    omega
  have hlength : placeOfDay day ≤ daysInMonth
      (if monthOfDay day ≤ 2 then year + era * 400 + 1 else year + era * 400) (monthOfDay day) := by
    refine placeOfDay_le hday366 fun heq => ?_
    rw [if_pos (by rw [heq]; decide)]
    exact hleap heq
  rw [daysOfDate?, if_pos ⟨h, hfirst, hlast, hplace, hlength⟩, daysOfDate]
  simp only [hyearOf, heraOf, hback]
  rw [Int.fdiv_eq_ediv_of_nonneg _ (by decide), Int.fdiv_eq_ediv_of_nonneg _ (by decide)]
  refine congrArg some ?_
  unfold firstDay at hdays
  omega

end ClusterSync.Calendar
