import Mathlib.Tactic.IntervalCases
import VpnAuthority.Calendar

/-! The date of an instant exists, and it is that instant again. -/
namespace VpnAuthority

/-- A day by its place in the longest cycle of the calendar: four centuries, a century, four
years and a year, counted from the first of March. -/
structure MarchDay where
  fourCenturies : Int
  century : Int
  fourYears : Int
  single : Int
  day : Int

namespace MarchDay

def year (d : MarchDay) : Int :=
  400 * d.fourCenturies + 100 * d.century + 4 * d.fourYears + d.single

def month (d : MarchDay) : Int := (5 * d.day + 2) / 153

/-- How far each part goes. The last day of a year is there only if the year is the last of
four, and this is the last of its century only if that is the last of four centuries. -/
structure IsProper (d : MarchDay) : Prop where
  century : 0 ≤ d.century ∧ d.century ≤ 3
  fourYears : 0 ≤ d.fourYears ∧ d.fourYears ≤ 24
  single : 0 ≤ d.single ∧ d.single ≤ 3
  day : 0 ≤ d.day ∧ d.day ≤ 365
  leap : d.day = 365 → d.single = 3 ∧ (d.fourYears = 24 → d.century = 3)

def ofDays (days : Int) : MarchDay :=
  let century := min (days % 146097 / 36524) 3
  let days' := days % 146097 - century * 36524
  let single := min (days' % 1461 / 365) 3
  ⟨days / 146097, century, days' / 1461, single, days' % 1461 - single * 365⟩

theorem isProper_ofDays (days : Int) : (ofDays days).IsProper := by
  unfold ofDays
  constructor <;> dsimp only <;> omega

theorem sum_ofDays (days : Int) :
    (ofDays days).fourCenturies * 146097 + (ofDays days).century * 36524
      + (ofDays days).fourYears * 1461 + (ofDays days).single * 365 + (ofDays days).day = days := by
  simp only [ofDays]
  omega

theorem dateOfMarchDays_eq (days : Int) :
    dateOfMarchDays days = let d := ofDays days
      let day := d.day - (153 * d.month + 2) / 5 + 1
      if d.month < 10 then (d.year, d.month + 3, day) else (d.year + 1, d.month - 9, day) := rfl

variable {d : MarchDay} (h : d.IsProper)
include h

theorem IsProper.month_bounds : 0 ≤ d.month ∧ d.month ≤ 11 := by
  have := h.day
  unfold month
  omega

theorem IsProper.sum_year : 365 * d.year + d.year / 4 - d.year / 100 + d.year / 400 =
    d.fourCenturies * 146097 + d.century * 36524 + d.fourYears * 1461 + d.single * 365 := by
  have hc := h.century
  have hf := h.fourYears
  have hs := h.single
  have four : d.year / 4 = 100 * d.fourCenturies + 25 * d.century + d.fourYears := by
    unfold year
    omega
  have hundred : d.year / 100 = 4 * d.fourCenturies + d.century := by
    unfold year
    omega
  have fourHundred : d.year / 400 = d.fourCenturies := by
    unfold year
    omega
  rw [four, hundred, fourHundred]
  unfold year
  omega

theorem IsProper.dayOfMonth_bounds : 1 ≤ d.day - (153 * d.month + 2) / 5 + 1 ∧
    d.day - (153 * d.month + 2) / 5 + 1 ≤
      if d.month = 11 then if d.day = 365 then 29 else 28
      else if d.month = 1 ∨ d.month = 3 ∨ d.month = 6 ∨ d.month = 8 then 30 else 31 := by
  have hd := h.day
  obtain ⟨low, high⟩ := h.month_bounds
  have hm : d.month = (5 * d.day + 2) / 153 := rfl
  generalize d.month = m at *
  interval_cases m <;> simp <;> omega

theorem IsProper.isLeapYear (hd : d.day = 365) : isLeapYear (d.year + 1) = true := by
  obtain ⟨hs, hc⟩ := h.leap hd
  have := h.century
  have := h.fourYears
  simp only [VpnAuthority.isLeapYear, year, Bool.and_eq_true, Bool.or_eq_true, beq_iff_eq,
    bne_iff_ne]
  omega

end MarchDay

theorem marchDays_dateOfMarchDays (days : Int) :
    let (year, month, day) := dateOfMarchDays days
    marchDays year month day = days := by
  have proper := MarchDay.isProper_ofDays days
  have sum := MarchDay.sum_ofDays days
  have bounds := proper.month_bounds
  have years := proper.sum_year
  rw [MarchDay.dateOfMarchDays_eq]
  generalize MarchDay.ofDays days = d at *
  dsimp only
  split
  · next h =>
    simp only [marchDays]
    rw [if_neg (by omega), if_neg (by omega)]
    have : d.month + 3 - 3 = d.month := by omega
    rw [this]
    omega
  · next h =>
    simp only [marchDays]
    rw [if_pos (by omega), if_pos (by omega)]
    have : d.month - 9 + 9 = d.month := by omega
    have : d.year + 1 - 1 = d.year := by omega
    simp only [*]
    omega

theorem dateOfMarchDays_bounds (days : Int) :
    let (year, month, day) := dateOfMarchDays days
    1 ≤ month ∧ month ≤ 12 ∧ 1 ≤ day ∧ day ≤ lastDayOfMonth year month := by
  have proper := MarchDay.isProper_ofDays days
  rw [MarchDay.dateOfMarchDays_eq]
  generalize MarchDay.ofDays days = d at *
  obtain ⟨low, high⟩ := proper.month_bounds
  obtain ⟨first, last⟩ := proper.dayOfMonth_bounds
  dsimp only
  split
  · next h =>
    refine ⟨by dsimp only; omega, by dsimp only; omega, first, last.trans ?_⟩
    dsimp only
    unfold lastDayOfMonth
    rw [if_neg (show ¬d.month = 11 by omega), if_neg (show ¬d.month + 3 = 2 by omega)]
    split
    · rw [if_pos (by omega)]
    · rw [if_neg (by omega)]
  · next h =>
    refine ⟨by dsimp only; omega, by dsimp only; omega, first, last.trans ?_⟩
    rcases (show d.month = 10 ∨ d.month = 11 by omega) with hm | hm
    · simp [hm, lastDayOfMonth]
    · by_cases hd : d.day = 365
      · simp [hm, hd, lastDayOfMonth, proper.isLeapYear hd]
      · simp only [hm, hd, lastDayOfMonth, if_true, if_false, Int.reduceSub]
        split <;> decide

theorem Instant.toInstant_toDateTime (t : Instant) : t.toDateTime.toInstant = t := by
  have days := marchDays_dateOfMarchDays (t.seconds / secondsPerDay + epochDays)
  simp only [Instant.toDateTime]
  generalize dateOfMarchDays (t.seconds / secondsPerDay + epochDays) = date at days
  obtain ⟨year, month, day⟩ := date
  simp only at days
  simp only [DateTime.toInstant, days]
  obtain ⟨seconds⟩ := t
  simp only [secondsPerDay, Instant.mk.injEq]
  omega

theorem Instant.isValid_toDateTime (t : Instant) : t.toDateTime.isValid = true := by
  have bounds := dateOfMarchDays_bounds (t.seconds / secondsPerDay + epochDays)
  simp only [Instant.toDateTime]
  generalize dateOfMarchDays (t.seconds / secondsPerDay + epochDays) = date at bounds
  obtain ⟨year, month, day⟩ := date
  obtain ⟨hm, hm', hd, hd'⟩ := bounds
  unfold secondsPerDay
  simp only [DateTime.isValid, Bool.and_eq_true, decide_eq_true_eq]
  omega

end VpnAuthority
