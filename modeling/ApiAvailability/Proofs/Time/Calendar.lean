import ApiAvailability.Time.Timestamp

/-!
# Proofs/Time/Calendar — days and dates tell the same

The date of a day is a real one, and it is that of the day again (`isReal_ofDays`, `toDays_ofDays`).

A day is the day `r` of a year `y`, counted from March, of an era of four hundred years; `YearDay`
says which days an era has.  Only the last day of a year depends on whether it is a leap year.
-/

namespace ApiAvailability.Time.Date

/-- **A day of an era**: the day `r` of its year `y`, both counted from zero.  The last day of a year
is the leap day of the next one in the calendar. -/
structure YearDay (y r : Int) : Prop where
  year_nonneg : 0 ≤ y
  year_lt : y < 400
  day_nonneg : 0 ≤ r
  day_le : r ≤ 365
  leap : r = 365 → y % 4 = 3 ∧ (y % 100 ≠ 99 ∨ y = 399)

/-- **Which day of which year** the day `d` of an era is. -/
theorem yearDay_of_dayOfEra {d : Int} (h₀ : 0 ≤ d) (h₁ : d < daysPerEra) :
    let y := (d - d / 1460 + d / 36524 - d / 146096) / 365
    YearDay y (d - (365 * y + y / 4 - y / 100)) := by
  rw [daysPerEra] at h₁
  intro y
  have hy : y = (d - d / 1460 + d / 36524 - d / 146096) / 365 := rfl
  clear_value y
  have hfewer : d / 36524 ≤ d / 1460 := by omega
  -- the centuries of an era have 36524 days, but the last has one more
  have hcentury : y / 100 = d / 36524 - d / 146096 := by
    have hcases : d / 36524 = 0 ∨ d / 36524 = 1 ∨ d / 36524 = 2 ∨ d / 36524 = 3 ∨ d / 36524 = 4 := by
      omega
    rcases hcases with h | h | h | h | h <;> omega
  have hleaps : y / 4 ≤ d / 1460 := by omega
  have hleaps' : d / 1460 ≤ y / 4 + 1 := by omega
  exact ⟨by omega, by omega, by omega, by omega, fun h => ⟨by omega, by omega⟩⟩

/-- The date of the day `r` of the year `y`, counted from March, of an era. -/
def ofYearDay (era y r : Int) : Date :=
  let m := (5 * r + 2) / 153
  let month := if m < 10 then m + 3 else m - 9
  ⟨era * 400 + y + (if month ≤ 2 then 1 else 0), month.toNat, (r - (153 * m + 2) / 5 + 1).toNat⟩

variable {era y r : Int}

/-- The day of such a date. -/
theorem toDays_ofYearDay (h : YearDay y r) : (ofYearDay era y r).toDays =
    era * daysPerEra + (365 * y + y / 4 - y / 100) + r - epoch := by
  obtain ⟨hy₀, hy₁, hr₀, hr₁, -⟩ := h
  have hera : (era * 400 + y) / 400 = era := by omega
  have hyear : (era * 400 + y) % 400 = y := by omega
  unfold ofYearDay toDays
  generalize hm : (5 * r + 2) / 153 = m
  by_cases hbefore : m < 10
  · have hmonth : ¬ (m + 3).toNat ≤ 2 := by omega
    have hmonth' : ¬ m + 3 ≤ 2 := by omega
    have hcast : ((m + 3).toNat : Int) - 3 = m := by omega
    simp only [if_pos hbefore, if_neg hmonth, if_neg hmonth', Int.add_zero, hera, hyear, hcast]
    omega
  · have hmonth : (m - 9).toNat ≤ 2 := by omega
    have hmonth' : m - 9 ≤ 2 := by omega
    have hcast : ((m - 9).toNat : Int) + 9 = m := by omega
    simp only [if_neg hbefore, if_pos hmonth, if_pos hmonth', Int.add_sub_cancel, hera, hyear, hcast]
    omega

/-- The year behind the last day of a year that has one is a leap year. -/
theorem isLeapYear_of_yearDay (h : YearDay y 365) : isLeapYear (era * 400 + y + 1) = true := by
  obtain ⟨hfour, hcentury⟩ := h.leap rfl
  rw [isLeapYear, Bool.and_eq_true, Bool.or_eq_true]
  simp only [decide_eq_true_eq]
  omega

/-- The number of days of the month `m`, counted from March, if that is not February. -/
theorem daysInMonth_of_march (year : Int) {m : Int} (h₀ : 0 ≤ m) (h₁ : m ≤ 10) :
    (daysInMonth year (if m < 10 then m + 3 else m - 9).toNat : Int) =
      (153 * (m + 1) + 2) / 5 - (153 * m + 2) / 5 := by
  have hcases : m = 0 ∨ m = 1 ∨ m = 2 ∨ m = 3 ∨ m = 4 ∨ m = 5 ∨ m = 6 ∨ m = 7 ∨ m = 8 ∨ m = 9 ∨
    m = 10 := by omega
  rcases hcases with rfl | rfl | rfl | rfl | rfl | rfl | rfl | rfl | rfl | rfl | rfl <;> rfl

/-- There is such a date. -/
theorem isReal_ofYearDay (h : YearDay y r) : (ofYearDay era y r).isReal = true := by
  have hr₀ := h.day_nonneg
  have hr₁ := h.day_le
  unfold ofYearDay
  generalize hm : (5 * r + 2) / 153 = m
  dsimp only
  generalize hyear : era * 400 + y + (if (if m < 10 then m + 3 else m - 9) ≤ 2 then 1 else 0) = year
  have hmonth : 1 ≤ (if m < 10 then m + 3 else m - 9).toNat ∧
      (if m < 10 then m + 3 else m - 9).toNat ≤ 12 := by
    split <;> omega
  have hday : (r - (153 * m + 2) / 5 + 1).toNat ≤
      daysInMonth year (if m < 10 then m + 3 else m - 9).toNat := by
    by_cases hlast : m = 11
    · subst hlast
      obtain rfl : era * 400 + y + 1 = year := hyear
      have hfebruary : daysInMonth (era * 400 + y + 1) 2 =
        if isLeapYear (era * 400 + y + 1) then 29 else 28 := rfl
      change _ ≤ daysInMonth (era * 400 + y + 1) 2
      rw [hfebruary]
      by_cases hleap : r = 365
      · subst hleap
        rw [if_pos (isLeapYear_of_yearDay h)]
        decide
      · split <;> omega
    · have hlength := daysInMonth_of_march year (m := m) (by omega) (by omega)
      omega
  simp only [isReal, Bool.and_eq_true, decide_eq_true_eq]
  exact ⟨⟨hmonth, by omega⟩, hday⟩

/-- A day is one of an era. -/
theorem ofDays_eq (days : Int) : ∃ era y r, YearDay y r ∧ ofDays days = ofYearDay era y r ∧
    days = era * daysPerEra + (365 * y + y / 4 - y / 100) + r - epoch := by
  have h₀ : 0 ≤ (days + epoch) % daysPerEra := Int.emod_nonneg _ (by decide)
  have h₁ : (days + epoch) % daysPerEra < daysPerEra := Int.emod_lt_of_pos _ (by decide)
  refine ⟨_, _, _, yearDay_of_dayOfEra h₀ h₁, rfl, ?_⟩
  have hsplit := Int.mul_ediv_add_emod (days + epoch) daysPerEra
  rw [Int.mul_comm] at hsplit
  omega

/-- **The date of a day is a real one.** -/
theorem isReal_ofDays (days : Int) : (ofDays days).isReal = true := by
  obtain ⟨era, y, r, h, hdate, -⟩ := ofDays_eq days
  rw [hdate, isReal_ofYearDay h]

/-- **The day of the date of a day.** -/
theorem toDays_ofDays (days : Int) : (ofDays days).toDays = days := by
  obtain ⟨era, y, r, h, hdate, hdays⟩ := ofDays_eq days
  rw [hdate, toDays_ofYearDay h, ← hdays]

end ApiAvailability.Time.Date
