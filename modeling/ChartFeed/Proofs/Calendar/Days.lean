import ChartFeed.Calendar.Instant

/-!
# Counting days

* `Date.elapsed` : the days from 0000-01-01 to a date, counted month by month.
* `Date.dayNumber_eq_elapsed` : the closed form of `dayNumber` counts the same days.
* `Date.elapsed_lt_iff` : of two dates the one with fewer days comes first by year, month and day.
-/

namespace ChartFeed.Date

/-- The number of days in so many months, the first of which is January of the year 0. -/
def daysInMonths : Nat → Nat
  | 0 => 0
  | k + 1 => daysInMonths k + daysInMonth (k / 12 : Nat) (k % 12 + 1)

/-- The number of months from January of the year 0 to that of a date. -/
def monthsBefore (d : Date) : Nat := 12 * d.year.toNat + (d.month - 1)

/-- The number of days from the first of January of the year 0 to a date. -/
def elapsed (d : Date) : Nat := daysInMonths d.monthsBefore + (d.day - 1)

/-- By year, then by month, then by day. -/
def Precedes (a b : Date) : Prop :=
  a.year < b.year ∨ a.year = b.year ∧ (a.month < b.month ∨ a.month = b.month ∧ a.day < b.day)

theorem daysInMonth_le (year : Int) (month : Nat) : daysInMonth year month ≤ 31 := by
  unfold daysInMonth
  split <;> grind

theorem month_of_isValid {d : Date} (h : d.isValid = true) : 1 ≤ d.month ∧ d.month ≤ 12 := by
  simp only [isValid, Bool.and_eq_true, decide_eq_true_eq] at h
  have hdays : daysInMonth d.year d.month ≠ 0 := by omega
  unfold daysInMonth at hdays
  split at hdays <;> omega

theorem day_of_isValid {d : Date} (h : d.isValid = true) :
    1 ≤ d.day ∧ d.day ≤ daysInMonth d.year d.month := by
  simpa [isValid] using h

/-! ## The closed form -/

theorem isLeap_iff {y : Int} : isLeap y = true ↔ y % 4 = 0 ∧ (y % 100 ≠ 0 ∨ y % 400 = 0) := by
  simp [isLeap]

theorem daysBeforeYear_succ (y : Int) :
    daysBeforeYear (y + 1) = daysBeforeYear y + daysBeforeMonth y 13 := by
  simp only [daysBeforeYear, daysBeforeMonth, daysInMonth]
  by_cases hleap : isLeap y = true
  · have hyear := isLeap_iff.mp hleap
    rw [if_pos hleap]
    omega
  · have hyear := mt isLeap_iff.mpr hleap
    rw [if_neg hleap]
    omega

theorem daysInMonths_add (y : Nat) {m : Nat} (h : m ≤ 12) :
    daysInMonths (12 * y + m) = daysInMonths (12 * y) + daysBeforeMonth y (m + 1) := by
  induction m with
  | zero => rfl
  | succ m ih =>
    have hyear : (12 * y + m) / 12 = y := by omega
    have hmonth : (12 * y + m) % 12 = m := by omega
    have hnext : daysBeforeMonth y (m + 2) = daysBeforeMonth y (m + 1) + daysInMonth y (m + 1) := rfl
    rw [← Nat.add_assoc, daysInMonths, ih (by omega), hyear, hmonth, hnext, Nat.add_assoc]

theorem daysInMonths_years (y : Nat) : (daysInMonths (12 * y) : Int) = daysBeforeYear y + 366 := by
  induction y with
  | zero => rfl
  | succ y ih =>
    have hyear := daysInMonths_add y (Nat.le_refl 12)
    have hnext := daysBeforeYear_succ y
    rw [Nat.mul_succ, hyear]
    push_cast
    omega

/-- **The day number counts the days of the calendar**, over months of any length and leap years. -/
theorem dayNumber_eq_elapsed {d : Date} (h : d.isValid = true) (hyear : 0 ≤ d.year) :
    d.dayNumber = d.elapsed - 719528 := by
  obtain ⟨hmonth, hmonth'⟩ := month_of_isValid h
  obtain ⟨hday, -⟩ := day_of_isValid h
  have hyears := daysInMonths_years d.year.toNat
  have hmonths := daysInMonths_add d.year.toNat (m := d.month - 1) (by omega)
  rw [Nat.sub_add_cancel hmonth] at hmonths
  rw [Int.toNat_of_nonneg hyear] at hyears hmonths
  unfold dayNumber elapsed monthsBefore
  omega

/-! ## Order -/

theorem daysInMonths_mono {k l : Nat} (h : k ≤ l) : daysInMonths k ≤ daysInMonths l := by
  induction h with
  | refl => exact Nat.le_refl _
  | step _ ih => exact Nat.le_trans ih (Nat.le_add_right _ _)

theorem elapsed_lt_of_monthsBefore_lt {a b : Date} (ha : a.isValid = true) (hyear : 0 ≤ a.year)
    (h : a.monthsBefore < b.monthsBefore) : a.elapsed < b.elapsed := by
  obtain ⟨hmonth, hmonth'⟩ := month_of_isValid ha
  obtain ⟨hday, hday'⟩ := day_of_isValid ha
  have hnext : daysInMonths (a.monthsBefore + 1) =
      daysInMonths a.monthsBefore + daysInMonth a.year a.month := by
    have hmonths : a.monthsBefore % 12 + 1 = a.month := by
      unfold monthsBefore
      omega
    have hyears : ((a.monthsBefore / 12 : Nat) : Int) = a.year := by
      unfold monthsBefore
      omega
    rw [daysInMonths, hmonths, hyears]
  have hle : daysInMonths (a.monthsBefore + 1) ≤ daysInMonths b.monthsBefore := daysInMonths_mono h
  unfold elapsed
  omega

/-- **Days grow with the dates**: fewer days have gone by on the date that comes first. -/
theorem elapsed_lt_iff {a b : Date} (ha : a.isValid = true) (hb : b.isValid = true)
    (haYear : 0 ≤ a.year) (hbYear : 0 ≤ b.year) : a.elapsed < b.elapsed ↔ a.Precedes b := by
  obtain ⟨hmonthA, hmonthA'⟩ := month_of_isValid ha
  obtain ⟨hmonthB, hmonthB'⟩ := month_of_isValid hb
  obtain ⟨hdayA, -⟩ := day_of_isValid ha
  obtain ⟨hdayB, -⟩ := day_of_isValid hb
  rcases Nat.lt_trichotomy a.monthsBefore b.monthsBefore with hlt | heq | hgt
  · have hdays := elapsed_lt_of_monthsBefore_lt ha haYear hlt
    unfold monthsBefore at hlt
    unfold Precedes
    omega
  · have hdays : a.elapsed < b.elapsed ↔ a.day < b.day := by
      unfold elapsed
      rw [heq]
      omega
    rw [hdays]
    unfold monthsBefore at heq
    unfold Precedes
    omega
  · have hdays := elapsed_lt_of_monthsBefore_lt hb hbYear hgt
    unfold monthsBefore at hgt
    unfold Precedes
    omega

end ChartFeed.Date
