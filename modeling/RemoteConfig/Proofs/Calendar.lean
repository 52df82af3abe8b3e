import RemoteConfig.Time.Calendar
/-! # Days and dates

The day of a number exists, and has that number.  In years that begin in March the leap day is the
last one, so the months begin on the same days in every year, and only the last month depends on the
year. -/

namespace RemoteConfig.Date

/-- The day with a given number in a year that begins in March. -/
def ofMarchYear (year dayOfYear : Int) : Date :=
  let monthFromMarch := (5 * dayOfYear + 2) / 153
  let day := dayOfYear - (153 * monthFromMarch + 2) / 5 + 1
  let month := if monthFromMarch < 10 then monthFromMarch + 3 else monthFromMarch - 9
  ⟨year + (if month ≤ 2 then 1 else 0), month.toNat, day.toNat⟩

/-- A day of an era of 400 years: the centuries, the groups of four years and the years before it,
and its number in its year.  Only the fourth year of a group has a last day, and in the last group
of a century only if the era ends with it. -/
structure IsDayOfEra (century group year day : Int) : Prop where
  century_nonneg : 0 ≤ century
  century_le : century ≤ 3
  group_nonneg : 0 ≤ group
  group_le : group ≤ 24
  year_nonneg : 0 ≤ year
  year_le : year ≤ 3
  day_nonneg : 0 ≤ day
  day_le : day ≤ 364 ∨ day = 365 ∧ year = 3 ∧ (group < 24 ∨ century = 3)

theorem exists_isDayOfEra {d : Int} (hlow : 0 ≤ d) (hhigh : d ≤ 146096) :
    ∃ century group year day, IsDayOfEra century group year day ∧
      d = 36524 * century + 1461 * group + 365 * year + day := by
  obtain ⟨century, hcentury⟩ : ∃ century, century = min (d / 36524) 3 := ⟨_, rfl⟩
  obtain ⟨group, hgroup⟩ : ∃ group, group = (d - 36524 * century) / 1461 := ⟨_, rfl⟩
  obtain ⟨year, hyear⟩ : ∃ year, year = min ((d - 36524 * century) % 1461 / 365) 3 := ⟨_, rfl⟩
  refine ⟨century, group, year, d - 36524 * century - 1461 * group - 365 * year, ?_, by omega⟩
  constructor <;> omega

variable {century group year day : Int}

/-- The rule that finds the year of a day of an era. -/
theorem yearOfEra_eq (h : IsDayOfEra century group year day) {d : Int}
    (hd : d = 36524 * century + 1461 * group + 365 * year + day) :
    (d - d / 1460 + d / 36524 - d / 146096) / 365 = 100 * century + 4 * group + year := by
  obtain ⟨_, _, _, _, _, _, _, _⟩ := h
  rcases Int.lt_or_le d 146096 with hlt | hge
  · have hera : d / 146096 = 0 := by omega
    have hcentury : d / 36524 = century := by omega
    have hgroup : d / 1460 = 25 * century + group ∧ day ≤ 364 ∨
        d / 1460 = 25 * century + group + 1 ∧ year = 3 ∧ 1 ≤ day := by omega
    omega
  · have hlast : d = 146096 := by omega
    subst hlast
    omega

theorem daysBeforeYear_eq (h : IsDayOfEra century group year day) :
    365 * (100 * century + 4 * group + year) + (100 * century + 4 * group + year) / 4 -
      (100 * century + 4 * group + year) / 100 = 36524 * century + 1461 * group + 365 * year := by
  obtain ⟨_, _, _, _, _, _, _, _⟩ := h
  omega

/-- The day of a number lies in the year of its era that the rule finds. -/
theorem exists_ofDays_eq (n : Int) : ∃ era century group year day,
    IsDayOfEra century group year day ∧
      n + epochShift = era * 146097 + (36524 * century + 1461 * group + 365 * year + day) ∧
      ofDays n = ofMarchYear (100 * century + 4 * group + year + era * 400) day := by
  obtain ⟨century, group, year, day, hday, hsum⟩ := exists_isDayOfEra
    (Int.emod_nonneg (n + epochShift) (by decide : (146097 : Int) ≠ 0))
    (Int.le_of_lt_add_one (Int.emod_lt_of_pos (n + epochShift) (by decide : (0 : Int) < 146097)))
  refine ⟨(n + epochShift) / 146097, century, group, year, day, hday, by omega, ?_⟩
  have hyear := yearOfEra_eq hday hsum
  have hbefore := daysBeforeYear_eq hday
  unfold ofDays
  simp only [hyear]
  have hrest : (n + epochShift) % 146097 - (365 * (100 * century + 4 * group + year) +
      (100 * century + 4 * group + year) / 4 - (100 * century + 4 * group + year) / 100) = day := by
    omega
  rw [hrest]
  rfl

theorem isLeapYear_iff (year : Int) :
    isLeapYear year = true ↔ year % 4 = 0 ∧ (year % 100 ≠ 0 ∨ year % 400 = 0) := by
  simp [isLeapYear]

theorem monthFromMarch_cases {dayOfYear : Int} (hlow : 0 ≤ dayOfYear) (hhigh : dayOfYear ≤ 365) :
    let m := (5 * dayOfYear + 2) / 153
    m = 0 ∨ m = 1 ∨ m = 2 ∨ m = 3 ∨ m = 4 ∨ m = 5 ∨ m = 6 ∨ m = 7 ∨ m = 8 ∨ m = 9 ∨ m = 10 ∨
      m = 11 := by
  omega

/-- Months that begin in March have their days whatever the year, but for the last one. -/
theorem isValid_ofMarchYear {year dayOfYear : Int} (hlow : 0 ≤ dayOfYear)
    (hhigh : dayOfYear ≤ 364 ∨ dayOfYear = 365 ∧ isLeapYear (year + 1) = true) :
    (ofMarchYear year dayOfYear).isValid = true := by
  rcases monthFromMarch_cases hlow (by omega) with
    h | h | h | h | h | h | h | h | h | h | h | h <;>
    simp only [ofMarchYear, h, isValid, daysInMonth] <;>
    simp <;> grind

theorem toDays_ofMarchYear {era yearOfEra dayOfYear : Int}
    (hyear : 0 ≤ yearOfEra ∧ yearOfEra < 400) (hday : 0 ≤ dayOfYear ∧ dayOfYear ≤ 365) :
    (ofMarchYear (yearOfEra + era * 400) dayOfYear).toDays = era * 146097 +
      (365 * yearOfEra + yearOfEra / 4 - yearOfEra / 100 + dayOfYear) - epochShift := by
  rcases monthFromMarch_cases hday.1 hday.2 with
    h | h | h | h | h | h | h | h | h | h | h | h <;>
    simp only [ofMarchYear, h, toDays] <;>
    simp <;> omega

/-- The day of a number has that number. -/
theorem toDays_ofDays (n : Int) : (ofDays n).toDays = n := by
  obtain ⟨era, century, group, year, day, hday, hsum, heq⟩ := exists_ofDays_eq n
  have hbefore := daysBeforeYear_eq hday
  obtain ⟨_, _, _, _, _, _, _, _⟩ := hday
  rw [heq, toDays_ofMarchYear ⟨by omega, by omega⟩ ⟨by omega, by omega⟩]
  omega

/-- The day of a number exists. -/
theorem isValid_ofDays (n : Int) : (ofDays n).isValid = true := by
  obtain ⟨era, century, group, year, day, hday, -, heq⟩ := exists_ofDays_eq n
  obtain ⟨_, _, _, _, _, _, hnonneg, hle⟩ := hday
  rw [heq]
  refine isValid_ofMarchYear hnonneg ?_
  rw [isLeapYear_iff]
  omega

theorem month_le_of_isValid {d : Date} (h : d.isValid = true) : d.month ≤ 12 := by
  simp only [isValid, Bool.and_eq_true, decide_eq_true_eq] at h
  omega

theorem day_le_of_isValid {d : Date} (h : d.isValid = true) : d.day ≤ 31 := by
  have hle : daysInMonth d.year d.month ≤ 31 := by
    unfold daysInMonth
    split
    · split <;> decide
    · split <;> decide
  simp only [isValid, Bool.and_eq_true, decide_eq_true_eq] at h
  omega

end RemoteConfig.Date
