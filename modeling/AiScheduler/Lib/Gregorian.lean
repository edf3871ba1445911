/-
  **THE GREGORIAN CALENDAR, with years that start on March 1.**

  The leap day is then the LAST day of its year, so a day's place in its year (`dayOfYear`) fixes
  its month and its day of the month.
-/
import Mathlib.Tactic.IntervalCases
import Mathlib.Tactic.Ring

namespace AiScheduler.Lib.Gregorian

variable {y e c r : Int}

/-! ## Years. -/

def Leap (y : Int) : Prop := y % 4 = 0 ∧ (y % 100 ≠ 0 ∨ y % 400 = 0)

instance (y : Int) : Decidable (Leap y) := inferInstanceAs (Decidable (_ ∧ _))

/-- March 1 of year `y`, in days since March 1 of year 0. -/
def march (y : Int) : Int := 365 * y + y / 4 - y / 100 + y / 400

/-- The year from March 1 of `y` on ends with the leap day of `y + 1`. -/
theorem march_succ (y : Int) :
    march (y + 1) = march y + 365 + if Leap (y + 1) then 1 else 0 := by
  by_cases hleap : Leap (y + 1)
  · rw [if_pos hleap]
    unfold Leap at hleap
    unfold march
    omega
  rw [if_neg hleap]
  unfold Leap at hleap
  unfold march
  omega

theorem march_succ_bounds (y : Int) :
    march y + 365 ≤ march (y + 1) ∧ march (y + 1) ≤ march y + 366 := by
  rw [march_succ]
  split <;> omega

theorem march_mono {z : Int} (h : y ≤ z) : march y ≤ march z := by
  induction z, h using Int.leInduction with
  | base => exact Int.le_refl _
  | succ z _ ih =>
    have hstep := march_succ_bounds z
    omega

/-- The years of an era, within it. -/
def yearOfEra (e : Int) : Int := (e - e / 1460 + e / 36524 - e / 146096) / 365

def year (d : Int) : Int := 400 * (d / 146097) + yearOfEra (d % 146097)

/-- The place of a day in its year, from 0. -/
def dayOfYear (d : Int) : Int := d - march (year d)

/-- A day of the era in centuries, groups of four years, years and days. -/
theorem exists_digits (h₀ : 0 ≤ e) (h : e < 146097) :
    ∃ c b a r : Int, (0 ≤ c ∧ c ≤ 3) ∧ (0 ≤ b ∧ b ≤ 24) ∧ (0 ≤ a ∧ a ≤ 3) ∧ 0 ≤ r
      ∧ e = 36524 * c + 1461 * b + 365 * a + r
      ∧ (r ≤ 364 ∨ (r = 365 ∧ a = 3 ∧ (b ≤ 23 ∨ c = 3))) := by
  have hc : ∃ c n : Int, 0 ≤ c ∧ c ≤ 3 ∧ e = 36524 * c + n ∧ 0 ≤ n
      ∧ (n < 36524 ∨ (n = 36524 ∧ c = 3)) := by
    by_cases hlast : e < 146096
    · exact ⟨e / 36524, e % 36524, by omega⟩
    · exact ⟨3, 36524, by omega⟩
  obtain ⟨c, n, hc⟩ := hc
  have hb : ∃ b p : Int, n = 1461 * b + p ∧ 0 ≤ b ∧ b ≤ 24 ∧ 0 ≤ p ∧ p ≤ 1460 :=
    ⟨n / 1461, n % 1461, by omega⟩
  obtain ⟨b, p, hb⟩ := hb
  have ha : ∃ a r : Int, p = 365 * a + r ∧ 0 ≤ a ∧ a ≤ 3 ∧ 0 ≤ r
      ∧ (r ≤ 364 ∨ (r = 365 ∧ a = 3)) := by
    by_cases hlast : p < 1460
    · exact ⟨p / 365, p % 365, by omega⟩
    · exact ⟨3, 365, by omega⟩
  obtain ⟨a, r, ha⟩ := ha
  exact ⟨c, b, a, r, by omega⟩

theorem yearOfEra_digits {b a : Int} (hc : 0 ≤ c ∧ c ≤ 3) (hb : 0 ≤ b ∧ b ≤ 24)
    (ha : 0 ≤ a ∧ a ≤ 3) (hr : 0 ≤ r) (he : e = 36524 * c + 1461 * b + 365 * a + r)
    (hlast : r ≤ 364 ∨ (r = 365 ∧ a = 3 ∧ (b ≤ 23 ∨ c = 3))) :
    yearOfEra e = 100 * c + 4 * b + a := by
  have hcentury : e / 36524 = c ∨ (e / 36524 = 4 ∧ e = 146096) := by omega
  have hera : e / 146096 = 0 ∨ (e / 146096 = 1 ∧ e = 146096) := by omega
  -- the leap days of the centuries and groups push at most one quotient over
  have hfour : e = 1460 * (25 * c + b) + (24 * c + b + 365 * a + r) := by omega
  have hgroup : e / 1460 = 25 * c + b ∨ e / 1460 = 25 * c + b + 1 := by omega
  unfold yearOfEra
  rcases hcentury with hcentury | hcentury
  · rcases hera with hera | hera
    · rw [hcentury, hera]
      rcases hgroup with hgroup | hgroup
      · rw [hgroup]
        omega
      · rw [hgroup]
        omega
    · omega
  · omega

theorem yearOfEra_bounds (h₀ : 0 ≤ e) (h : e < 146097) :
    0 ≤ yearOfEra e ∧ yearOfEra e ≤ 399 := by
  obtain ⟨c, b, a, r, hc, hb, ha, hr, he, hlast⟩ := exists_digits h₀ h
  rw [yearOfEra_digits hc hb ha hr he hlast]
  omega

theorem dayOfYear_eq (d : Int) :
    dayOfYear d = d % 146097 - (365 * yearOfEra (d % 146097)
      + yearOfEra (d % 146097) / 4 - yearOfEra (d % 146097) / 100) := by
  have hbounds := yearOfEra_bounds (Int.emod_nonneg d (by decide : (146097 : Int) ≠ 0))
    (Int.emod_lt_of_pos d (by decide : (0 : Int) < 146097))
  unfold dayOfYear year march
  generalize yearOfEra (d % 146097) = y at *
  omega

theorem march_digits {q b a : Int} (hc : 0 ≤ c ∧ c ≤ 3) (hb : 0 ≤ b ∧ b ≤ 24)
    (ha : 0 ≤ a ∧ a ≤ 3) :
    march (400 * q + (100 * c + 4 * b + a)) = 146097 * q + 36524 * c + 1461 * b + 365 * a := by
  have hfour : (400 * q + (100 * c + 4 * b + a)) / 4 = 100 * q + 25 * c + b := by omega
  have hcentury : (400 * q + (100 * c + 4 * b + a)) / 100 = 4 * q + c := by omega
  have hera : (400 * q + (100 * c + 4 * b + a)) / 400 = q := by omega
  unfold march
  rw [hfour, hcentury, hera]
  ring

/-- **A day lies in its year.** -/
theorem year_bounds (d : Int) : march (year d) ≤ d ∧ d < march (year d + 1) := by
  obtain ⟨c, b, a, r, hc, hb, ha, hr, he, hlast⟩ := exists_digits
    (Int.emod_nonneg d (by decide : (146097 : Int) ≠ 0))
    (Int.emod_lt_of_pos d (by decide : (0 : Int) < 146097))
  have hyear : year d = 400 * (d / 146097) + (100 * c + 4 * b + a) := by
    unfold year
    rw [yearOfEra_digits hc hb ha hr he hlast]
  have hd : d = 146097 * (d / 146097) + d % 146097 := by omega
  rw [hyear, march_succ, march_digits hc hb ha]
  refine ⟨by omega, ?_⟩
  by_cases hleap : Leap (400 * (d / 146097) + (100 * c + 4 * b + a) + 1)
  · rw [if_pos hleap]
    omega
  · rw [if_neg hleap]
    unfold Leap at hleap
    omega

theorem year_eq {d : Int} (h₀ : march y ≤ d) (h : d < march (y + 1)) : year d = y := by
  obtain ⟨hle, hlt⟩ := year_bounds d
  rcases Int.lt_trichotomy (year d) y with hy | hy | hy
  · have := march_mono (show year d + 1 ≤ y by omega)
    omega
  · exact hy
  · have := march_mono (show y + 1 ≤ year d by omega)
    omega

theorem dayOfYear_bounds (d : Int) : 0 ≤ dayOfYear d ∧ dayOfYear d ≤ 365 := by
  have hbounds := year_bounds d
  have hlength := march_succ_bounds (year d)
  unfold dayOfYear
  omega

theorem dayOfYear_march_add (y : Int) (h₀ : 0 ≤ r) (h : r ≤ 364) :
    dayOfYear (march y + r) = r := by
  have hlength := march_succ_bounds y
  unfold dayOfYear
  rw [year_eq (show march y ≤ march y + r by omega) (by omega)]
  omega

/-- **Each place up to 364 comes within 366 days.** -/
theorem exists_march_add (n : Int) (h₀ : 0 ≤ r) (h : r ≤ 364) :
    ∃ y, n < march y + r ∧ march y + r ≤ n + 366 := by
  have hyear := year_bounds n
  have hlength := march_succ_bounds (year n)
  by_cases hthis : n < march (year n) + r
  · exact ⟨year n, hthis, by omega⟩
  · exact ⟨year n + 1, by omega, by omega⟩

/-! ## Leap days. -/

/-- Place 365 is the day before March 1 of a leap year. -/
theorem dayOfYear_eq_last_iff (d : Int) :
    dayOfYear d = 365 ↔ ∃ y, Leap y ∧ d = march y - 1 := by
  constructor
  · intro h
    have hbounds := year_bounds d
    have hlength := march_succ (year d)
    unfold dayOfYear at h
    refine ⟨year d + 1, ?_, ?_⟩
    · by_contra hleap
      rw [if_neg hleap] at hlength
      omega
    · split at hlength <;> omega
  · rintro ⟨y, hleap, rfl⟩
    have hlength := march_succ (y - 1)
    rw [Int.sub_add_cancel, if_pos hleap] at hlength
    unfold dayOfYear
    rw [year_eq (show march (y - 1) ≤ march y - 1 by omega) (by rw [Int.sub_add_cancel]; omega)]
    omega

/-- A year that four divides, but not a leap year. -/
def Skipped (y : Int) : Prop := y % 100 = 0 ∧ y % 400 ≠ 0

instance (y : Int) : Decidable (Skipped y) := inferInstanceAs (Decidable (_ ∧ _))

theorem march_leap_add_four (h : Leap y) (h' : Leap (y + 4)) :
    march (y + 4) = march y + 1461 := by
  unfold Leap at *
  unfold march
  omega

/-- Around a skipped year there is no leap year for eight years. -/
theorem not_leap_near_skipped (hc : Skipped c) (hleap : Leap y) :
    y ≤ c - 4 ∨ c + 4 ≤ y := by
  unfold Leap Skipped at *
  omega

theorem leap_before_skipped (hc : Skipped c) : Leap (c - 4) := by
  unfold Leap Skipped at *
  omega

theorem leap_after_skipped (hc : Skipped c) : Leap (c + 4) := by
  unfold Leap Skipped at *
  omega

/-- **Every day lies between two leap days**, four years apart, or eight with a
skipped year in the middle. -/
theorem exists_leap_days (d : Int) :
    ∃ p y, Leap p ∧ Leap y ∧ march p - 1 < d ∧ d ≤ march y - 1
      ∧ (y = p + 4 ∨ (y = p + 8 ∧ Skipped (p + 4))) := by
  have hyear := year_bounds d
  -- the first multiple of four after the year
  obtain ⟨z, hz, hfour⟩ : ∃ z, (year d + 1 ≤ z ∧ z ≤ year d + 4) ∧ z % 4 = 0 :=
    ⟨4 * ((year d + 4) / 4), by omega, by omega⟩
  have hnext : d ≤ march z - 1 := by
    have := march_mono hz.1
    omega
  have hprev : march (z - 4) - 1 < d := by
    have := march_mono (show z - 4 ≤ year d by omega)
    omega
  by_cases hthis : Leap z
  · by_cases hbefore : Leap (z - 4)
    · exact ⟨z - 4, z, hbefore, hthis, hprev, hnext, .inl (by omega)⟩
    have hskipped : Skipped (z - 4) := by
      unfold Leap Skipped at *
      omega
    have := march_mono (show z - 8 ≤ z - 4 by omega)
    refine ⟨z - 8, z, ?_, hthis, by omega, hnext, .inr ⟨by omega, ?_⟩⟩
    · have hleap := leap_before_skipped hskipped
      rwa [show z - 4 - 4 = z - 8 by omega] at hleap
    · rwa [show z - 8 + 4 = z - 4 by omega]
  have hskipped : Skipped z := by
    unfold Leap Skipped at *
    omega
  have := march_mono (show z ≤ z + 4 by omega)
  refine ⟨z - 4, z + 4, leap_before_skipped hskipped, leap_after_skipped hskipped, hprev,
    by omega, .inr ⟨by omega, ?_⟩⟩
  rwa [Int.sub_add_cancel]

/-! ## Months. -/

/-- The month of a place, from 1. -/
def month (r : Int) : Int :=
  if (5 * r + 2) / 153 < 10 then (5 * r + 2) / 153 + 3 else (5 * r + 2) / 153 - 9

def day (r : Int) : Int := r - (153 * ((5 * r + 2) / 153) + 2) / 5 + 1

/-- The days of a month, in a leap year. -/
def daysIn (m : Int) : Int := if m = 2 then 29 else if m ∈ [4, 6, 9, 11] then 30 else 31

/-- The place of a date. -/
def place (m d : Int) : Int := (153 * (if 3 ≤ m then m - 3 else m + 9) + 2) / 5 + d - 1

/-- **Every date has its place**, the leap day the last one. -/
theorem place_spec {m d : Int} (hm : 1 ≤ m ∧ m ≤ 12) (hd : 1 ≤ d ∧ d ≤ daysIn m) :
    month (place m d) = m ∧ day (place m d) = d ∧ 0 ≤ place m d
      ∧ (place m d ≤ 364 ∨ (m = 2 ∧ d = 29)) := by
  obtain ⟨hm₁, hm₂⟩ := hm
  interval_cases m <;> simp [daysIn] at hd <;> simp [month, day, place] <;> omega

/-- **Every place has its date**, those up to 364 one other than February 29. -/
theorem date_spec (h₀ : 0 ≤ r) (h : r ≤ 364) :
    (1 ≤ month r ∧ month r ≤ 12) ∧ (1 ≤ day r ∧ day r ≤ daysIn (month r))
      ∧ ¬(month r = 2 ∧ day r = 29) := by
  obtain ⟨mp, hmp⟩ : ∃ mp, (5 * r + 2) / 153 = mp := ⟨_, rfl⟩
  have hlow : 0 ≤ mp := by omega
  have hhigh : mp ≤ 11 := by omega
  unfold month day
  rw [hmp]
  interval_cases mp <;> simp [daysIn] <;> omega

theorem date_last : month 365 = 2 ∧ day 365 = 29 := by decide

theorem month_bounds (h₀ : 0 ≤ r) (h : r ≤ 365) : 1 ≤ month r ∧ month r ≤ 12 := by
  unfold month
  split <;> omega

end AiScheduler.Lib.Gregorian
