import Mathlib.Tactic.IntervalCases
import Runbook.Calendar

/-!
Dates and day numbers. Every day number from the first of January of the year 1 to the last of
December of the year 9999 is that of one valid date. A day of a cycle of four hundred years is
told by the century it lies in, the four years in the century, the year in these and the day in
the year, all counted from March.
-/
namespace Runbook.Date

/-- A day of a cycle of four hundred years. -/
theorem exists_century (e : Nat) (he : e ≤ 146096) : ∃ c q y s, c ≤ 3 ∧ q ≤ 24 ∧ y ≤ 3 ∧
    e = 36524 * c + 1461 * q + 365 * y + s ∧ (s ≤ 364 ∨ s = 365 ∧ y = 3) ∧
      (q = 24 → s = 365 → c = 3) := by
  obtain ⟨c, hc⟩ : ∃ c, c = min (e / 36524) 3 := ⟨_, rfl⟩
  obtain ⟨q, hq⟩ : ∃ q, q = (e - 36524 * c) / 1461 := ⟨_, rfl⟩
  obtain ⟨y, hy⟩ : ∃ y, y = min ((e - 36524 * c - 1461 * q) / 365) 3 := ⟨_, rfl⟩
  refine ⟨c, q, y, e - 36524 * c - 1461 * q - 365 * y, ?_, ?_, ?_, ?_, ?_, ?_⟩ <;> omega

/-- The year of the cycle is found from the day by leaving out the days that leap years add. -/
theorem yearOfEra_eq {c q y s e : Nat} (hc : c ≤ 3) (hq : q ≤ 24) (hy : y ≤ 3)
    (he : e = 36524 * c + 1461 * q + 365 * y + s) (hs : s ≤ 364 ∨ s = 365 ∧ y = 3)
    (hlast : q = 24 → s = 365 → c = 3) :
    (e - e / 1460 + e / 36524 - e / 146096) / 365 = 100 * c + 4 * q + y := by
  have hcentury : e / 36524 = c ∧ e / 146096 = 0 ∨ e / 36524 = c + 1 ∧ e / 146096 = 1 := by omega
  by_cases hearly : 24 * c + q + 365 * y + s < 1460
  · have hleaps : e / 1460 = 25 * c + q := by omega
    have hdays : e - e / 1460 + e / 36524 - e / 146096 = 365 * (100 * c + 4 * q + y) + s := by omega
    omega
  · have hleaps : e / 1460 = 25 * c + q + 1 := by omega
    have hdays : e - e / 1460 + e / 36524 - e / 146096 =
        365 * (100 * c + 4 * q + y) + (s - 1) := by omega
    omega

/-- Days and months of a year that begins in March. -/
theorem exists_month (s : Nat) (hs : s ≤ 365) : ∃ m d, m ≤ 11 ∧ m = (5 * s + 2) / 153 ∧
    s = (153 * m + 2) / 5 + d ∧ d ≤ 30 ∧ (m = 11 → d ≤ 28) ∧
      (m = 1 ∨ m = 3 ∨ m = 6 ∨ m = 8 → d ≤ 29) := by
  refine ⟨(5 * s + 2) / 153, s - (153 * ((5 * s + 2) / 153) + 2) / 5, ?_, rfl, ?_, ?_, ?_, ?_⟩ <;>
    omega

/-- A month counted from March, as it is counted from January. -/
def monthOf (m : Nat) : Nat := if m < 10 then m + 3 else m - 9

theorem monthOf_le {m : Nat} (hm : m ≤ 11) : monthOf m ≤ 2 ↔ 10 ≤ m := by
  unfold monthOf
  split <;> omega

/-- The last month of a year that begins in March has its last day in leap years alone. -/
theorem le_daysIn_february {year n : Nat} (hn : n ≤ 29)
    (hleap : n = 29 → year % 4 = 0 ∧ (year % 100 ≠ 0 ∨ year % 400 = 0)) :
    n ≤ daysIn year (monthOf 11) := by
  change n ≤ if isLeap year then 29 else 28
  split
  · exact hn
  · rename_i hcommon
    have hne : n ≠ 29 := fun heq => by
      obtain ⟨hfour, hhundred⟩ := hleap heq
      refine hcommon ?_
      simpa [isLeap, hfour] using hhundred
    omega

/-- The other months have thirty days or thirty-one. -/
theorem le_daysIn_monthOf {year m d : Nat} (hm : m ≤ 10) (hlong : d ≤ 30)
    (hshort : m = 1 ∨ m = 3 ∨ m = 6 ∨ m = 8 → d ≤ 29) : d + 1 ≤ daysIn year (monthOf m) := by
  interval_cases m <;> simp only [daysIn, monthOf] <;> simp <;> omega

/-- The date of a day number, from the parts that the number is made of. -/
theorem ofDays_eq {days : Int} {era c q y s m d : Nat} (hc : c ≤ 3) (hq : q ≤ 24) (hy : y ≤ 3)
    (hs : s ≤ 364 ∨ s = 365 ∧ y = 3) (hlast : q = 24 → s = 365 → c = 3)
    (hdays : days + 719468 = (146097 * era + (36524 * c + 1461 * q + 365 * y + s) : Nat))
    (hm : m = (5 * s + 2) / 153) (hd : s = (153 * m + 2) / 5 + d) :
    ofDays days = ⟨100 * c + 4 * q + y + 400 * era + if monthOf m ≤ 2 then 1 else 0, monthOf m,
      d + 1⟩ := by
  have hera : Int.fdiv (days + 719468) 146097 = era := by
    rw [Int.fdiv_eq_ediv_of_nonneg _ (by decide)]
    omega
  generalize hday : 36524 * c + 1461 * q + 365 * y + s = e at hdays
  have hdayOfEra : (days + 719468 - era * 146097).toNat = e := by omega
  have hyear := yearOfEra_eq hc hq hy hday.symm hs hlast
  have hdayOfYear : e - (365 * (100 * c + 4 * q + y) + (100 * c + 4 * q + y) / 4 -
      (100 * c + 4 * q + y) / 100) = s := by omega
  unfold ofDays
  simp only [hera, hdayOfEra, hyear, hdayOfYear, ← hm]
  unfold monthOf
  congr 1
  · congr 1
    omega
  · omega

/-- The day number of a date, from its parts. -/
theorem toDays_eq {era yearOfEra m d : Nat} (hyear : yearOfEra ≤ 399) (hm : m ≤ 11) :
    toDays ⟨yearOfEra + 400 * era + if monthOf m ≤ 2 then 1 else 0, monthOf m, d + 1⟩ =
      (146097 * era + (yearOfEra * 365 + yearOfEra / 4 - yearOfEra / 100 +
        ((153 * m + 2) / 5 + d)) : Nat) - 719468 := by
  have hmonth : ((monthOf m : Int) + 9) % 12 = m := by
    unfold monthOf
    split <;> omega
  have hfrom : (if monthOf m ≤ 2 then
      ((yearOfEra + 400 * era + if monthOf m ≤ 2 then 1 else 0 : Nat) : Int) - 1
      else (yearOfEra + 400 * era + if monthOf m ≤ 2 then 1 else 0 : Nat)) =
        (yearOfEra + 400 * era : Nat) := by
    split <;> omega
  unfold toDays
  dsimp only
  rw [hfrom, hmonth]
  simp only [Int.fdiv_eq_ediv_of_nonneg _ (show (0 : Int) ≤ 400 by decide),
    Int.fdiv_eq_ediv_of_nonneg _ (show (0 : Int) ≤ 5 by decide),
    Int.fdiv_eq_ediv_of_nonneg _ (show (0 : Int) ≤ 4 by decide),
    Int.fdiv_eq_ediv_of_nonneg _ (show (0 : Int) ≤ 100 by decide)]
  omega

/-- The first and the last day number of the years from 1 to 9999. -/
def InYears (days : Int) : Prop := -719162 ≤ days ∧ days ≤ 2932896

/-- Every day number of those years belongs to a valid date, and to no other. -/
theorem ofDays_spec {days : Int} (h : InYears days) : (ofDays days).toDays = days ∧
    check (ofDays days).year (ofDays days).month (ofDays days).day = .ok (ofDays days) := by
  obtain ⟨hlow, hhigh⟩ := h
  obtain ⟨era, e, he, hdays⟩ : ∃ era e : Nat, e ≤ 146096 ∧
      days + 719468 = (146097 * era + e : Nat) :=
    ⟨((days + 719468) / 146097).toNat, ((days + 719468) % 146097).toNat, by omega, by omega⟩
  obtain ⟨c, q, y, s, hc, hq, hy, hday, hs, hlast⟩ := exists_century e he
  obtain ⟨m, d, hm, hmonth, hdayOfYear, hlong, hfebruary, hshort⟩ := exists_month s (by omega)
  rw [hday] at hdays
  rw [ofDays_eq hc hq hy hs hlast hdays hmonth hdayOfYear]
  have hquarters : (100 * c + 4 * q + y) / 4 = 25 * c + q := by omega
  have hcenturies : (100 * c + 4 * q + y) / 100 = c := by omega
  constructor
  · rw [toDays_eq (by omega) hm, hquarters, hcenturies]
    omega
  · have hturn := monthOf_le hm
    have hyear : 1 ≤ 100 * c + 4 * q + y + 400 * era + (if monthOf m ≤ 2 then 1 else 0) ∧
        100 * c + 4 * q + y + 400 * era + (if monthOf m ≤ 2 then 1 else 0) ≤ 9999 := by
      split <;> omega
    have hrange : 1 ≤ monthOf m ∧ monthOf m ≤ 12 := by
      unfold monthOf
      split <;> omega
    have hdays : d + 1 ≤ daysIn (100 * c + 4 * q + y + 400 * era +
        (if monthOf m ≤ 2 then 1 else 0)) (monthOf m) := by
      by_cases hfinal : m = 11
      · rw [if_pos (hturn.mpr (by omega)), hfinal]
        exact le_daysIn_february (by omega) fun hleap => by omega
      · exact le_daysIn_monthOf (by omega) hlong hshort
    unfold check
    dsimp only
    rw [if_neg (by omega), if_neg (by omega), if_neg (by omega)]

theorem daysIn_le (year month : Nat) : daysIn year month ≤ 31 := by
  unfold daysIn
  split
  · split <;> decide
  · split <;> decide

theorem inYears_toDays {year month day : Nat} (hyear : 1 ≤ year ∧ year ≤ 9999)
    (hmonth : 1 ≤ month ∧ month ≤ 12) (hday : 1 ≤ day ∧ day ≤ 31) :
    InYears (toDays ⟨year, month, day⟩) := by
  unfold toDays InYears
  dsimp only
  simp only [Int.fdiv_eq_ediv_of_nonneg _ (show (0 : Int) ≤ 400 by decide),
    Int.fdiv_eq_ediv_of_nonneg _ (show (0 : Int) ≤ 5 by decide),
    Int.fdiv_eq_ediv_of_nonneg _ (show (0 : Int) ≤ 4 by decide),
    Int.fdiv_eq_ediv_of_nonneg _ (show (0 : Int) ≤ 100 by decide)]
  by_cases hlate : month ≤ 2
  · have hmarch : ((month : Int) + 9) % 12 = month + 9 := by omega
    rw [if_pos hlate, hmarch]
    omega
  · have hmarch : ((month : Int) + 9) % 12 = month - 3 := by omega
    rw [if_neg hlate, hmarch]
    omega

/-- A valid date has a day number of those years. -/
theorem inYears_of_check {year month day : Nat} {d : Date}
    (h : check year month day = .ok d) : InYears d.toDays := by
  unfold check at h
  split at h
  · cases h
  · split at h
    · cases h
    · split at h
      · cases h
      · rename_i hyear hmonth hday
        cases h
        exact inYears_toDays (by omega) (by omega) (by have := daysIn_le year month; omega)

end Runbook.Date
