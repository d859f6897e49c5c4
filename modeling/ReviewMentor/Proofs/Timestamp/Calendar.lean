import Mathlib.Tactic.IntervalCases
import Mathlib.Tactic.NormNum
import ReviewMentor.Timestamp

/-!
# The calendar

Days are counted in eras of 400 years that begin in March. The date of a day is one that the
calendar has, and lies as many days after the start of 1970 as were counted.
-/

namespace ReviewMentor.Timestamp

/-! ### Years of an era -/

/-- A day of an era of 400 years: its century, its four years in it, its year in those, and its day
in the year. Years begin in March, so that leap days end four years. -/
structure InEra (dayOfEra c q y dayOfYear : Nat) : Prop where
  century : c ≤ 3
  four : q ≤ 24
  year : y ≤ 3
  day : dayOfEra = 36524 * c + 1461 * q + 365 * y + dayOfYear
  common : dayOfYear ≤ 364 ∨ dayOfYear = 365 ∧ y = 3 ∧ (q = 24 → c = 3)

theorem exists_inEra {n : Nat} (h : n < 146097) : ∃ c q y d, InEra n c q y d := by
  by_cases hlast : n = 146096
  · exact ⟨3, 24, 3, 365, by omega, by omega, by omega, by omega, .inr ⟨rfl, rfl, fun _ => rfl⟩⟩
  obtain ⟨c, r, hc, hr, rfl⟩ : ∃ c r, c ≤ 3 ∧ r < 36524 ∧ n = 36524 * c + r :=
    ⟨n / 36524, n % 36524, by omega, by omega, by omega⟩
  obtain ⟨q, s, hq, hs, rfl⟩ : ∃ q s, q ≤ 24 ∧ s < 1461 ∧ r = 1461 * q + s :=
    ⟨r / 1461, r % 1461, by omega, by omega, by omega⟩
  by_cases hleap : s = 1460
  · exact ⟨c, q, 3, 365, hc, hq, by omega, by omega, .inr ⟨rfl, rfl, by omega⟩⟩
  · exact ⟨c, q, s / 365, s % 365, hc, hq, by omega, by omega, by omega⟩

/-- The year of an era in which a day lies. -/
def yearOfEra (n : Nat) : Nat := (n - n / 1460 + n / 36524 - n / 146096) / 365

variable {n c q y d : Nat}

theorem InEra.yearOfEra_eq (h : InEra n c q y d) : yearOfEra n = 100 * c + 4 * q + y := by
  obtain ⟨hc, hq, hy, rfl, hd⟩ := h
  generalize hs : 365 * y + d = s
  rw [Nat.add_assoc _ (365 * y), hs, yearOfEra]
  by_cases hlast : 36524 * c + 1461 * q + s = 146096
  · omega
  have hcentury : (36524 * c + 1461 * q + s) / 36524 = c := by omega
  have hera : (36524 * c + 1461 * q + s) / 146096 = 0 := by omega
  have hfour : (36524 * c + 1461 * q + s) / 1460 = 25 * c + q + (24 * c + q + s) / 1460 := by
    omega
  rw [hcentury, hera, hfour]
  by_cases hend : 1460 ≤ 24 * c + q + s
  · have hone : (24 * c + q + s) / 1460 = 1 := by omega
    rw [hone]
    omega
  · have hzero : (24 * c + q + s) / 1460 = 0 := by omega
    rw [hzero]
    omega

theorem InEra.start (h : InEra n c q y d) :
    365 * yearOfEra n + yearOfEra n / 4 - yearOfEra n / 100 + d = n := by
  rw [h.yearOfEra_eq]
  obtain ⟨hc, hq, hy, rfl, hd⟩ := h
  omega

/-! ### Days of a year -/

/-- The months since March that have passed before a day of a year. -/
def monthsBefore (d : Nat) : Nat := (5 * d + 2) / 153

/-- The month of a day of a year. -/
def monthOf (d : Nat) : Nat :=
  if monthsBefore d < 10 then monthsBefore d + 3 else monthsBefore d - 9

/-- The day in its month of a day of a year. -/
def dayOf (d : Nat) : Nat := d - (153 * monthsBefore d + 2) / 5 + 1

theorem monthsBefore_le {d : Nat} (h : d ≤ 365) : monthsBefore d ≤ 11 := by
  unfold monthsBefore
  omega

theorem monthOf_cases {d : Nat} (h : d ≤ 365) : 1 ≤ monthOf d ∧ monthOf d ≤ 12 ∧
    (monthOf d + 9) % 12 = monthsBefore d := by
  have hmonths := monthsBefore_le h
  unfold monthOf
  split <;> omega

theorem dayOf_pos (d : Nat) : (153 * monthsBefore d + 2) / 5 + dayOf d = d + 1 := by
  unfold dayOf monthsBefore
  omega

/-! ### Dates -/

theorem dateOf_eq {days era : Int} (h : InEra n c q y d)
    (hdays : days + 719468 = era * 146097 + n) (hn : n < 146097) :
    dateOf days =
      (yearOfEra n + era * 400 + (if monthOf d ≤ 2 then 1 else 0), monthOf d, dayOf d) := by
  have hera : (days + 719468).fdiv 146097 = era := by
    rw [Int.fdiv_eq_ediv_of_nonneg _ (by omega)]
    omega
  have hday : (days + 719468 - era * 146097).toNat = n := by omega
  have hyear : (n - n / 1460 + n / 36524 - n / 146096) / 365 = yearOfEra n := rfl
  have hstart := h.start
  have hd : n - (365 * yearOfEra n + yearOfEra n / 4 - yearOfEra n / 100) = d := by omega
  simp only [dateOf, hera, hday, hyear, hd]
  rfl

theorem daysOf_eq {yoe month day : Nat} {era : Int} (h : yoe ≤ 399) :
    daysOf (yoe + era * 400 + (if month ≤ 2 then 1 else 0)) month day =
      era * 146097 + (yoe * 365 + yoe / 4 - yoe / 100 +
        ((153 * ((month + 9) % 12) + 2) / 5 + day - 1)) - 719468 := by
  have hyear : (if month ≤ 2 then (yoe + era * 400 + (if month ≤ 2 then 1 else 0) : Int) - 1
      else yoe + era * 400 + (if month ≤ 2 then 1 else 0)) = yoe + era * 400 := by
    split_ifs <;> omega
  have hera : (yoe + era * 400 : Int).fdiv 400 = era := by
    rw [Int.fdiv_eq_ediv_of_nonneg _ (by omega)]
    omega
  have hrest : (yoe + era * 400 - era * 400 : Int) = yoe := by omega
  simp only [daysOf, hyear, hera, hrest]
  norm_cast

/-- A date that the calendar has. -/
structure IsDate (year : Int) (month day : Nat) : Prop where
  month_pos : 1 ≤ month
  month_le : month ≤ 12
  day_pos : 1 ≤ day
  day_le : day ≤ daysIn year month

/-- The days of a month, by the months before it. -/
theorem dayOf_le {d : Nat} (h : d ≤ 365) :
    dayOf d ≤ (if monthOf d = 2 then 29 else if monthOf d ∈ [4, 6, 9, 11] then 30 else 31) ∧
    (monthOf d = 2 → dayOf d = 29 → d = 365) := by
  have hmonths := monthsBefore_le h
  have hday := dayOf_pos d
  have hbefore : 153 * monthsBefore d ≤ 5 * d + 2 ∧ 5 * d + 2 < 153 * monthsBefore d + 153 := by
    unfold monthsBefore
    omega
  rw [monthOf]
  generalize monthsBefore d = m at *
  interval_cases m <;> simp <;> omega

theorem isLeap_of_day {era : Int} (h : InEra n c q y 365) :
    isLeap (yearOfEra n + era * 400 + 1) = true := by
  rw [h.yearOfEra_eq]
  obtain ⟨hc, hq, -, -, hd⟩ := h
  simp only [isLeap, Bool.and_eq_true, Bool.or_eq_true, decide_eq_true_eq]
  omega

/-- **The calendar.** The date that lies some days after the start of 1970 is one that there is, and
lies that many days after it. -/
theorem dateOf_spec (days : Int) :
    IsDate (dateOf days).1 (dateOf days).2.1 (dateOf days).2.2 ∧
      daysOf (dateOf days).1 (dateOf days).2.1 (dateOf days).2.2 = days := by
  obtain ⟨era, n, hn, hdays⟩ : ∃ (era : Int) (n : Nat), n < 146097 ∧
      days + 719468 = era * 146097 + n :=
    ⟨(days + 719468) / 146097, ((days + 719468) % 146097).toNat, by omega, by omega⟩
  obtain ⟨c, q, y, d, h⟩ := exists_inEra hn
  have hd : d ≤ 365 := by
    have hcommon := h.common
    omega
  obtain ⟨hpos, hle, hmonths⟩ := monthOf_cases hd
  have hday := dayOf_pos d
  rw [dateOf_eq h hdays hn]
  refine ⟨⟨hpos, hle, ?_, ?_⟩, ?_⟩
  · show 1 ≤ d - (153 * monthsBefore d + 2) / 5 + 1
    omega
  · obtain ⟨hmost, hlast⟩ := dayOf_le hd
    dsimp only
    by_cases hfebruary : monthOf d = 2
    · rw [if_pos hfebruary] at hmost
      by_cases hleap : dayOf d = 29
      · obtain rfl := hlast hfebruary hleap
        rw [hfebruary, if_pos (by omega), daysIn, if_pos rfl, isLeap_of_day h, if_pos rfl, hleap]
      · rw [daysIn, if_pos hfebruary]
        split_ifs <;> omega
    · rw [if_neg hfebruary] at hmost
      rwa [daysIn, if_neg hfebruary]
  · have hyear : yearOfEra n ≤ 399 := by
      rw [h.yearOfEra_eq]
      obtain ⟨hc, hq, hy, -, -⟩ := h
      omega
    have hcast : ((monthOf d : Int) + 9) % 12 = monthsBefore d := by omega
    have hstart := h.start
    dsimp only
    rw [daysOf_eq hyear, hcast]
    omega

end ReviewMentor.Timestamp
