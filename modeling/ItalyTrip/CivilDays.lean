import ItalyTrip.Filenames
import ItalyTrip.GoTime

namespace ItalyTrip

/-- A day of an era has its century, its four years of that, its year of those and its day. -/
theorem era_parts {doe : Nat} (h : doe < 146097) : ∃ c q r doy,
    doe = 36524 * c + 1461 * q + 365 * r + doy ∧ c ≤ 3 ∧ q ≤ 24 ∧ r ≤ 3 ∧ doy ≤ 365 ∧
      (doy = 365 → r = 3 ∧ (q = 24 → c = 3)) := by
  obtain ⟨c, s, rfl, hc, hs, last⟩ :
      ∃ c s, doe = 36524 * c + s ∧ c ≤ 3 ∧ s ≤ 36524 ∧ (s = 36524 → c = 3) := by
    by_cases h' : doe = 146096
    · exact ⟨3, 36524, by omega⟩
    · exact ⟨doe / 36524, doe % 36524, by omega⟩
  obtain ⟨q, t, rfl, hq, ht⟩ : ∃ q t, s = 1461 * q + t ∧ q ≤ 24 ∧ t ≤ 1460 :=
    ⟨s / 1461, s % 1461, by omega⟩
  by_cases h' : t = 1460
  · exact ⟨c, q, 3, 365, by omega⟩
  · exact ⟨c, q, t / 365, t % 365, by omega⟩

theorem era_year_eq {c q r doy : Nat} (hc : c ≤ 3) (hq : q ≤ 24) (hr : r ≤ 3) (hdoy : doy ≤ 365)
    (last : doy = 365 → r = 3 ∧ (q = 24 → c = 3)) {doe : Nat}
    (h : doe = 36524 * c + 1461 * q + 365 * r + doy) :
    (doe - doe / 1460 + doe / 36524 - doe / 146096) / 365 = 100 * c + 4 * q + r := by
  have fours : doe / 1460 = 25 * c + q + if 1460 ≤ 24 * c + q + 365 * r + doy then 1 else 0 := by
    split <;> omega
  have ends : doe / 146096 = if doe = 146096 then 1 else 0 := by split <;> omega
  have centuries : doe / 36524 = c + doe / 146096 := by
    rw [ends]
    split <;> omega
  rw [fours, centuries, ends]
  split <;> split <;> omega

theorem GoTime.daysIn_le (month year : Nat) : daysIn month year ≤ 31 := by
  unfold daysIn
  split
  next => split <;> decide
  all_goals decide

theorem daysBefore_march {year mp : Nat} (h : mp < 10) :
    GoTime.daysBefore year (mp + 3) =
      (153 * mp + 2) / 5 + if GoTime.isLeap year then 60 else 59 := by
  interval_cases mp <;> simp only [GoTime.daysBefore, GoTime.daysIn] <;> split <;> rfl

theorem day_march {doy mp year : Nat} (h : mp = (5 * doy + 2) / 153) (hm : mp < 10) :
    doy - (153 * mp + 2) / 5 + 1 ≤ GoTime.daysIn (mp + 3) year := by
  interval_cases mp <;> simp only [GoTime.daysIn] <;> omega

theorem day_winter {doy mp year : Nat} (high : doy ≤ 365) (h : mp = (5 * doy + 2) / 153)
    (hm : ¬ mp < 10) (leap : doy = 365 → GoTime.isLeap year = true) :
    (mp = 10 ∨ mp = 11) ∧ doy - (153 * mp + 2) / 5 + 1 ≤ GoTime.daysIn (mp - 9) year := by
  obtain rfl | rfl : mp = 10 ∨ mp = 11 := by omega
  · have january : GoTime.daysIn (10 - 9) year = 31 := rfl
    omega
  · have february : GoTime.daysIn (11 - 9) year = if GoTime.isLeap year then 29 else 28 := rfl
    rw [february]
    split
    next => omega
    next common =>
      have : doy ≠ 365 := fun h => common (leap h)
      omega

theorem isLeap_iff {year : Nat} :
    GoTime.isLeap year = true ↔ year % 4 = 0 ∧ (year % 100 ≠ 0 ∨ year % 400 = 0) := by
  simp [GoTime.isLeap]

/-- The year of an era and the day of that year. -/
theorem era_year {doe : Nat} (h : doe < 146097) : ∃ yoe doy,
    (doe - doe / 1460 + doe / 36524 - doe / 146096) / 365 = yoe ∧ yoe ≤ 399 ∧
      doe = 365 * yoe + yoe / 4 - yoe / 100 + doy ∧ doy ≤ 365 ∧
      (doy = 365 → yoe % 4 = 3 ∧ (yoe % 100 = 99 → yoe = 399)) := by
  obtain ⟨c, q, r, doy, hdoe, hc, hq, hr, hdoy, last⟩ := era_parts h
  refine ⟨_, doy, era_year_eq hc hq hr hdoy last hdoe, by omega, ?_, hdoy, ?_⟩
  · have fours : (100 * c + 4 * q + r) / 4 = 25 * c + q := by omega
    have centuries : (100 * c + 4 * q + r) / 100 = c := by omega
    omega
  · intro h
    have := last h
    omega

theorem civilDate_parts (days : Int) : ∃ (era : Int) (yoe doy mp : Nat),
    days + 719468 = era * 146097 + (365 * yoe + yoe / 4 - yoe / 100 + doy : Nat) ∧ yoe ≤ 399 ∧
    doy ≤ 365 ∧ (doy = 365 → yoe % 4 = 3 ∧ (yoe % 100 = 99 → yoe = 399)) ∧
    mp = (5 * doy + 2) / 153 ∧
    civilDate days = ⟨yoe + era * 400 + if mp < 10 then 0 else 1,
      if mp < 10 then mp + 3 else mp - 9, doy - (153 * mp + 2) / 5 + 1⟩ := by
  have hz := Int.mul_ediv_add_emod (days + 719468) 146097
  have nonneg := Int.emod_nonneg (days + 719468) (show (146097 : Int) ≠ 0 by decide)
  obtain ⟨yoe, doy, hyoe, high, hdoe, hdoy, last⟩ :=
    era_year (show ((days + 719468) % 146097).toNat < 146097 by omega)
  refine ⟨(days + 719468) / 146097, yoe, doy, (5 * doy + 2) / 153, ?_, high, hdoy, last, rfl, ?_⟩
  · rw [← hdoe]
    omega
  · have hstart : ((days + 719468) % 146097).toNat - (365 * yoe + yoe / 4 - yoe / 100) = doy := by
      rw [hdoe, Nat.add_sub_cancel_left]
    unfold civilDate
    dsimp only
    rw [hyoe, hstart]
    have hmp : (5 * doy + 2) / 153 ≤ 11 := by omega
    generalize (5 * doy + 2) / 153 = mp at *
    congr 2
    split <;> split <;> omega

/-- Every day, however long ago, has a month and a day of at most two digits. -/
theorem civilDate_bounds (days : Int) : (civilDate days).month ≤ 12 ∧ (civilDate days).day ≤ 31 := by
  obtain ⟨era, yoe, doy, mp, hdays, hyoe, hdoy, last, hmp, hdate⟩ := civilDate_parts days
  rw [hdate]
  dsimp only
  constructor
  · split <;> omega
  · omega

/-- The date of a day is a day of the calendar, and the parser counts it back to that day. -/
theorem civilDate_counts {days : Int} {year month day : Nat}
    (h : civilDate days = ⟨year, month, day⟩) :
    1 ≤ month ∧ month ≤ 12 ∧ 1 ≤ day ∧ day ≤ GoTime.daysIn month year ∧
      ((GoTime.daysToYear year + GoTime.daysBefore year month + day : Nat) : Int) - 719529 =
        days := by
  obtain ⟨era, yoe, doy, mp, hdays, hyoe, hdoy, last, hmp, hdate⟩ := civilDate_parts days
  rw [hdate, CivilDate.mk.injEq] at h
  obtain ⟨hyear, hmonth, hday⟩ := h
  unfold GoTime.daysToYear
  by_cases hm : mp < 10
  · simp only [hm, ↓reduceIte] at hmonth hyear
    have inMonth := @day_march _ _ year hmp hm
    subst hmonth hday
    rw [daysBefore_march hm]
    have leap := @isLeap_iff year
    refine ⟨by omega, by omega, by omega, inMonth, ?_⟩
    split
    next h =>
      have := leap.mp h
      omega
    next h =>
      have := mt leap.mpr h
      omega
  · simp only [hm, ↓reduceIte] at hmonth hyear
    have leap : doy = 365 → GoTime.isLeap year = true := by
      intro h
      rw [isLeap_iff]
      omega
    obtain ⟨which, inMonth⟩ := day_winter hdoy hmp hm leap
    subst hmonth hday
    obtain rfl | rfl := which
    · have before : GoTime.daysBefore year (10 - 9) = 0 := rfl
      rw [before]
      omega
    · have before : GoTime.daysBefore year (11 - 9) = 31 := rfl
      rw [before]
      omega

end ItalyTrip
