import NodeFeatureOperator.Time.Calendar

/-!
# Dates of days

The date of a day exists, and its number is the day. A day has its place in a cycle of four hundred
years that begin in March: the year of the cycle, and the day of that year. The year comes of the
day of the cycle less the leap days before it; that this gives the right year is checked at the
first and the last day of each of the four hundred years, and holds between them because a later day
has no fewer days before it.

## Main definitions

* `Calendar.Place`: the place of a day.

## Main results

* `Calendar.dayNumber_dateOfDay`: the date of a day has the number of the day.
* `Calendar.isValid_dateOfDay`: the date of a day exists, if its year is kept.
-/

namespace NodeFeatureOperator

namespace Calendar

/-! ### Years of a cycle -/

/-- The days of a cycle before one of its years. -/
def daysBefore (year : Int) : Int := 365 * year + year / 4 - year / 100

/-- The days before a day of a cycle, without the leap days among them. -/
def plainDays (day : Int) : Int := day - day / 1460 + day / 36524 - day / 146096

/-- A later day has no fewer days before it. -/
theorem plainDays_mono {day later : Int} (h : day ≤ later) : plainDays day ≤ plainDays later := by
  unfold plainDays
  omega

/-- Without the leap days every year of a cycle begins and ends as if it had 365 days. -/
theorem plainDays_daysBefore :
    ∀ year < 400, 365 * (year : Nat) ≤ plainDays (daysBefore year) ∧
      plainDays (daysBefore (year + 1 : Nat) - 1) < 365 * (year + 1 : Nat) := by
  decide +kernel

/-- A day of a cycle lies in the year that the days without leap days tell. -/
theorem daysBefore_bounds {day year : Int} (hlow : 0 ≤ day) (hhigh : day < 146097)
    (hyear : year = plainDays day / 365) :
    0 ≤ year ∧ year ≤ 399 ∧ daysBefore year ≤ day ∧
      (year < 399 → day < daysBefore (year + 1)) := by
  have hfirst : 0 ≤ plainDays day := plainDays_mono hlow
  have hlast : plainDays day ≤ 145999 := plainDays_mono (Int.le_sub_one_of_lt hhigh)
  have hpositive : 0 ≤ year := by omega
  obtain ⟨y, rfl⟩ := Int.eq_ofNat_of_zero_le hpositive
  refine ⟨by omega, by omega, ?_, fun hy => ?_⟩
  · refine Int.not_lt.mp fun hlt => ?_
    have hmono := plainDays_mono (Int.le_sub_one_of_lt hlt)
    cases y with
    | zero => exact absurd hlow (Int.not_le.mpr hlt)
    | succ y =>
        have hend := (plainDays_daysBefore y (by omega)).2
        omega
  · refine Int.not_le.mp fun hge => ?_
    have hmono := plainDays_mono hge
    have hstart := (plainDays_daysBefore (y + 1) (by omega)).1
    rw [Int.natCast_add, Int.natCast_one] at hstart
    omega

/-- A year of more than 365 days ends with the leap day. -/
theorem leap_of_daysBefore {year : Int} (h : daysBefore year + 365 < daysBefore (year + 1)) :
    (year + 1) % 4 = 0 ∧ (year + 1) % 100 ≠ 0 := by
  unfold daysBefore at h
  have hquarter : (year + 1) / 4 = year / 4 ∨
      (year + 1) / 4 = year / 4 + 1 ∧ (year + 1) % 4 = 0 := by omega
  have hcentury : (year + 1) / 100 = year / 100 ∧ (year + 1) % 100 ≠ 0 ∨
      (year + 1) / 100 = year / 100 + 1 := by omega
  omega

/-! ### Places of days -/

/-- The place of a day: its cycle, the year of that, and the day of that, which is the last one of
a leap year if it is the 366th. -/
structure Place (number cycle year day : Int) : Prop where
  year_low : 0 ≤ year
  year_high : year ≤ 399
  day_low : 0 ≤ day
  day_high : day ≤ 365
  leap : day = 365 → (year + 1) % 4 = 0 ∧ ((year + 1) % 100 ≠ 0 ∨ year + 1 = 400)
  number_eq : number = cycle * 146097 + daysBefore year + day - 719468

/-- The date at a place. -/
def dateAt (cycle year day : Int) : Date :=
  let month := (5 * day + 2) / 153
  let civilMonth := if month < 10 then month + 3 else month - 9
  ⟨if civilMonth ≤ 2 then year + cycle * 400 + 1 else year + cycle * 400, civilMonth,
    day - (153 * month + 2) / 5 + 1⟩

/-- The date of a day is that at its place. -/
theorem exists_place (number : Int) :
    ∃ cycle year day, dateOfDay number = dateAt cycle year day ∧
      Place number cycle year day := by
  let cycle := (number + 719468) / 146097
  let dayOfCycle := number + 719468 - cycle * 146097
  have hcycle : 0 ≤ dayOfCycle ∧ dayOfCycle < 146097 := by omega
  obtain ⟨hlow, hhigh, hfirst, hlast⟩ := daysBefore_bounds hcycle.1 hcycle.2 rfl
  refine ⟨cycle, plainDays dayOfCycle / 365, dayOfCycle - daysBefore (plainDays dayOfCycle / 365),
    rfl, ?_⟩
  generalize plainDays dayOfCycle / 365 = year at *
  have hlength : year < 399 → daysBefore (year + 1) ≤ daysBefore year + 366 := by
    unfold daysBefore
    omega
  have hwhole : year = 399 → daysBefore year = 145731 := by
    rintro rfl
    rfl
  refine ⟨hlow, hhigh, by omega, by omega, fun hday => ?_, by omega⟩
  obtain hyear | hyear := Int.lt_or_eq_of_le hhigh
  · have hlong : daysBefore year + 365 < daysBefore (year + 1) := by
      have := hlast hyear
      omega
    obtain ⟨hquarter, hcentury⟩ := leap_of_daysBefore hlong
    exact ⟨hquarter, .inl hcentury⟩
  · subst hyear
    exact ⟨rfl, .inr rfl⟩

/-- The months of a year that begins in March: the first ten are those from March on, the others
belong to the next civil year. -/
theorem dateAt_cases (cycle year : Int) {day : Int} (hlow : 0 ≤ day) (hhigh : day ≤ 365) :
    ∃ month, 0 ≤ month ∧ month ≤ 11 ∧ month = (5 * day + 2) / 153 ∧
      ((month < 10 ∧ dateAt cycle year day =
          ⟨year + cycle * 400, month + 3, day - (153 * month + 2) / 5 + 1⟩) ∨
        (10 ≤ month ∧ dateAt cycle year day =
          ⟨year + cycle * 400 + 1, month - 9, day - (153 * month + 2) / 5 + 1⟩)) := by
  refine ⟨(5 * day + 2) / 153, by omega, by omega, rfl, ?_⟩
  by_cases hearly : (5 * day + 2) / 153 < 10
  · refine .inl ⟨hearly, ?_⟩
    simp only [dateAt, if_pos hearly]
    rw [if_neg (by omega)]
  · refine .inr ⟨by omega, ?_⟩
    simp only [dateAt, if_neg hearly]
    rw [if_pos (by omega)]

/-- The date at a day's place has the number of the day. -/
theorem Place.dayNumber_dateAt {number cycle year day : Int} (h : Place number cycle year day) :
    dayNumber (dateAt cycle year day) = number := by
  have hcycle : (year + cycle * 400) / 400 = cycle := by
    have := h.year_low
    have := h.year_high
    omega
  have hyear : year + cycle * 400 - cycle * 400 = year := Int.add_sub_cancel ..
  have hnumber := h.number_eq
  unfold daysBefore at hnumber
  obtain ⟨month, hmlow, hmhigh, -, ⟨hearly, heq⟩ | ⟨hlate, heq⟩⟩ :=
    dateAt_cases cycle year h.day_low h.day_high
  · have hmarch : ¬ month + 3 ≤ 2 := by omega
    simp only [heq, dayNumber, if_neg hmarch, hcycle, hyear]
    omega
  · have hjanuary : month - 9 ≤ 2 := by omega
    simp only [heq, dayNumber, if_pos hjanuary, Int.add_sub_cancel, hcycle, hyear]
    omega

/-- The last day of February is the 366th of its year, and then a leap day. -/
theorem Place.isLeap {number cycle year day : Int} (h : Place number cycle year day)
    (hday : day = 365) : Calendar.isLeap (year + cycle * 400 + 1) = true := by
  obtain ⟨hquarter, hcentury⟩ := h.leap hday
  have h4 : (year + cycle * 400 + 1) % 4 = 0 := by omega
  have h100 : (year + cycle * 400 + 1) % 100 ≠ 0 ∨ (year + cycle * 400 + 1) % 400 = 0 := by omega
  simpa [Calendar.isLeap, h4] using h100

/-- The date at a day's place exists, if its year is kept. -/
theorem Place.isValid_dateAt {number cycle year day : Int} (h : Place number cycle year day)
    (hrange : inRange (dateAt cycle year day).year = true) :
    isValid (dateAt cycle year day) = true := by
  have hlow := h.day_low
  have hhigh := h.day_high
  have hleap := h.isLeap
  obtain ⟨month, hmlow, hmhigh, hmonth, ⟨hearly, heq⟩ | ⟨hlate, heq⟩⟩ :=
    dateAt_cases cycle year hlow hhigh
  · rw [heq] at hrange ⊢
    simp only [isValid, hrange, decide_eq_true_eq, true_and]
    refine ⟨by omega, by omega, by omega, ?_⟩
    have hfebruary : ¬ month + 3 = 2 := by omega
    simp only [daysInMonth, if_neg hfebruary]
    split <;> omega
  · rw [heq] at hrange ⊢
    simp only [isValid, hrange, decide_eq_true_eq, true_and]
    refine ⟨by omega, by omega, by omega, ?_⟩
    have hshort : ¬ (month - 9 = 4 ∨ month - 9 = 6 ∨ month - 9 = 9 ∨ month - 9 = 11) := by omega
    simp only [daysInMonth, if_neg hshort]
    split
    · split
      · omega
      next hnot =>
        have : day ≠ 365 := fun hday => hnot (hleap hday)
        omega
    · omega

/-- **The date of a day has the number of the day.** -/
theorem dayNumber_dateOfDay (number : Int) : dayNumber (dateOfDay number) = number := by
  obtain ⟨cycle, year, day, heq, hplace⟩ := exists_place number
  rw [heq, hplace.dayNumber_dateAt]

/-- The date of a day exists, if its year is kept. -/
theorem isValid_dateOfDay {number : Int} (h : inRange (dateOfDay number).year = true) :
    isValid (dateOfDay number) = true := by
  obtain ⟨cycle, year, day, heq, hplace⟩ := exists_place number
  rw [heq] at h ⊢
  exact hplace.isValid_dateAt h

end Calendar

end NodeFeatureOperator
