/-
  **FIVE YEARS ARE FAR ENOUGH, except for February 29 across a skipped leap year.**

  A minute is a day and a minute of the clock (`instant`); a schedule accepts the two separately,
  and what it accepts comes again within 372 days. Only February 29 alone waits longer: four years,
  or EIGHT.
-/
import AiScheduler.Lib.Gregorian
import AiScheduler.Proofs.CronFields
import AiScheduler.Proofs.NextTimes

namespace AiScheduler.Cron

open Lib Gregorian

variable {d m now : Int}

/-! ## Days and minutes. -/

/-- Minute `m` of day `d`, with days counted from March 1 of year 0. -/
def instant (d m : Int) : Int := ((d - 306) * 1440 + m) * minute

def weekday (d : Int) : Int := (d - 305) % 7

theorem dayNumber_instant (h₀ : 0 ≤ m) (h : m < 1440) :
    dayNumber (instant d m) = d - 306 := by
  unfold dayNumber instant minute second
  omega

theorem minuteOf_instant (d m : Int) : minuteOf (instant d m) = m % 60 := by
  unfold minuteOf instant minute second
  omega

theorem hourOf_instant (h₀ : 0 ≤ m) (h : m < 1440) :
    hourOf (instant d m) = m / 60 := by
  unfold hourOf instant minute second
  omega

theorem wholeMinute_instant (d m : Int) : wholeMinute 0 (instant d m) := by
  unfold wholeMinute instant minute second
  omega

theorem exists_instant {t : Int} (h : wholeMinute 0 t) :
    ∃ d m, 0 ≤ m ∧ m < 1440 ∧ t = instant d m := by
  unfold wholeMinute minute second at h
  refine ⟨t / 60000000000 / 1440 + 306, t / 60000000000 % 1440, by omega, by omega, ?_⟩
  unfold instant minute second
  omega

theorem dayOfMarchYear_eq (t : Int) :
    dayOfMarchYear t = dayOfYear (dayNumber t + 306) := by
  rw [dayOfYear_eq]
  rfl

theorem monthOf_eq (t : Int) :
    monthOf t = month (dayOfYear (dayNumber t + 306)) := by
  unfold monthOf
  rw [dayOfMarchYear_eq]
  rfl

theorem dayOf_eq (t : Int) :
    dayOf t = day (dayOfYear (dayNumber t + 306)) := by
  unfold dayOf
  rw [dayOfMarchYear_eq]
  rfl

def Schedule.onDay (s : Schedule) (d : Int) : Bool :=
  s.month.contains (Gregorian.month (Gregorian.dayOfYear d))
    && (if s.day.any && s.week.any then true
      else if s.day.any then s.week.contains (weekday d)
      else if s.week.any then s.day.contains (Gregorian.day (Gregorian.dayOfYear d))
      else s.day.contains (Gregorian.day (Gregorian.dayOfYear d)) || s.week.contains (weekday d))

def Schedule.onClock (s : Schedule) (m : Int) : Bool :=
  s.minute.contains (m % 60) && s.hour.contains (m / 60)

/-- **A schedule matches a minute when it accepts the day and the clock.** -/
theorem matches_instant (s : Schedule) (h₀ : 0 ≤ m) (h : m < 1440) :
    s.matches (instant d m) = (s.onDay d && s.onClock m) := by
  have hweek : weekdayOf (instant d m) = weekday d := by
    unfold weekdayOf weekday
    rw [dayNumber_instant h₀ h]
    omega
  unfold Schedule.matches Schedule.onDay Schedule.onClock
  rw [minuteOf_instant, hourOf_instant h₀ h, monthOf_eq, dayOf_eq, hweek,
    dayNumber_instant h₀ h, Int.sub_add_cancel]
  dsimp only
  cases s.minute.contains (m % 60) with
  | false => simp
  | true =>
    cases s.hour.contains (m / 60) with
    | false => simp
    | true =>
      cases s.month.contains (month (dayOfYear d)) with
      | false | true => simp

theorem exists_onClock {expr : String} {s : Schedule} (hparse : parse expr = .ok s) :
    ∃ m, 0 ≤ m ∧ m < 1440 ∧ s.onClock m = true := by
  obtain ⟨a, ha₀, ha, hminute⟩ := exists_contains_of_parse hparse .minute
  obtain ⟨b, hb₀, hb, hhour⟩ := exists_contains_of_parse hparse .hour
  simp only [FieldKind.min, FieldKind.max] at *
  refine ⟨60 * b + a, by omega, by omega, ?_⟩
  unfold Schedule.onClock
  rw [show (60 * b + a) % 60 = a by omega, show (60 * b + a) / 60 = b by omega]
  exact Bool.and_eq_true_iff.mpr ⟨hminute, hhour⟩

/-! ## What comes again every year. -/

section Days

variable {s : Schedule}

theorem month_of_onDay (h : s.onDay d = true) :
    s.month.contains (month (dayOfYear d)) = true :=
  (Bool.and_eq_true_iff.mp h).1

theorem onDay_iff_of_week_any (hweek : s.week.any = true) (d : Int) :
    s.onDay d = true ↔ s.month.contains (month (dayOfYear d)) = true
        ∧ s.day.contains (day (dayOfYear d)) = true := by
  unfold Schedule.onDay
  rw [Bool.and_eq_true_iff, hweek]
  cases hday : s.day.any with
  | false => simp
  | true => simp [Field.contains, hday]

theorem onDay_of_week (hweek : s.week.any = false)
    (hmonth : s.month.contains (month (dayOfYear d)) = true)
    (h : s.week.contains (weekday d) = true) : s.onDay d = true := by
  unfold Schedule.onDay
  rw [hmonth, h, hweek]
  simp

/-- A date of the calendar, in a leap year. -/
def IsDate (m d : Int) : Prop := (1 ≤ m ∧ m ≤ 12) ∧ (1 ≤ d ∧ d ≤ Gregorian.daysIn m)

/-- **February 29 is the only date a schedule asks for.** -/
def LeapDayOnly (s : Schedule) : Prop :=
  s.week.any = true ∧ s.day.any = false ∧ s.month.contains 2 = true ∧ s.day.contains 29 = true
    ∧ ∀ m d, IsDate m d → s.month.contains m = true → s.day.contains d = true → m = 2 ∧ d = 29

theorem exists_date_near (hweek : s.week.any = true) (hdate : IsDate m d)
    (hmonth : s.month.contains m = true) (hday : s.day.contains d = true)
    (hne : ¬(m = 2 ∧ d = 29)) (n : Int) :
    ∃ e, n < e ∧ e ≤ n + 366 ∧ s.onDay e = true := by
  obtain ⟨hm, hd, hplace, hlast⟩ := place_spec hdate.1 hdate.2
  have hlow := hlast.resolve_right hne
  obtain ⟨y, hlt, hle⟩ := exists_march_add n hplace hlow
  refine ⟨_, hlt, hle, ?_⟩
  rw [onDay_iff_of_week_any hweek, dayOfYear_march_add y hplace hlow, hm, hd]
  exact ⟨hmonth, hday⟩

theorem exists_weekday_near (hweek : s.week.any = false) {v : Int} (hm : 1 ≤ m ∧ m ≤ 12)
    (hmonth : s.month.contains m = true) (hv : 0 ≤ v ∧ v ≤ 6) (hcontains : s.week.contains v = true)
    (n : Int) : ∃ e, n < e ∧ e ≤ n + 372 ∧ s.onDay e = true := by
  have hdays : ∀ d, 1 ≤ d → d ≤ 7 → 1 ≤ d ∧ d ≤ daysIn m := by
    intro d hd hd'
    unfold daysIn
    split
    · omega
    · split <;> omega
  obtain ⟨_, _, hplace, hlast⟩ := place_spec hm (hdays 1 (by omega) (by omega))
  obtain ⟨y, hlt, hle⟩ := exists_march_add n hplace (hlast.resolve_right (by omega))
  -- `k` days into the month
  obtain ⟨k, hk₀, hk, hkv⟩ : ∃ k, 0 ≤ k ∧ k ≤ 6 ∧ weekday (march y + place m 1 + k) = v := by
    unfold weekday
    exact ⟨(v - (march y + place m 1 - 305)) % 7, by omega, by omega, by omega⟩
  obtain ⟨hmk, _, hplacek, hlastk⟩ :=
    place_spec hm (hdays (1 + k) (by omega) (by omega))
  have hadd : place m (1 + k) = place m 1 + k := by
    unfold place
    omega
  have hplace_eq := dayOfYear_march_add y hplacek (hlastk.resolve_right (by omega))
  rw [hadd, ← Int.add_assoc] at hplace_eq
  refine ⟨march y + place m 1 + k, by omega, by omega, ?_⟩
  apply onDay_of_week hweek
  · rw [hplace_eq, ← hadd, hmk]
    exact hmonth
  · rw [hkv]
    exact hcontains

/-- **What a schedule accepts comes again within 372 days**, unless it is
February 29 alone. -/
theorem exists_onDay_near {expr : String} (hparse : parse expr = .ok s)
    (h : s.onDay d = true) (hnot : ¬LeapDayOnly s) (n : Int) :
    ∃ e, n < e ∧ e ≤ n + 372 ∧ s.onDay e = true := by
  have hplace := dayOfYear_bounds d
  have hmonth := month_of_onDay h
  cases hweek : s.week.any with
  | false =>
    obtain ⟨v, hv₀, hv, hcontains⟩ := exists_contains_of_parse hparse .week
    exact exists_weekday_near hweek (month_bounds hplace.1 hplace.2) hmonth ⟨hv₀, hv⟩ hcontains n
  | true =>
  have hday := ((onDay_iff_of_week_any hweek d).mp h).2
  -- some date other than February 29 is accepted
  have hdate : ∃ m e, IsDate m e ∧ s.month.contains m = true ∧ s.day.contains e = true
      ∧ ¬(m = 2 ∧ e = 29) := by
    by_cases hlast : dayOfYear d ≤ 364
    · obtain ⟨hm, he, hne⟩ := date_spec hplace.1 hlast
      exact ⟨_, _, ⟨hm, he⟩, hmonth, hday, hne⟩
    have heq : dayOfYear d = 365 := by omega
    rw [heq, date_last.1] at hmonth
    rw [heq, date_last.2] at hday
    by_contra hnone
    apply hnot
    refine ⟨hweek, ?_, hmonth, hday, ?_⟩
    · -- with any day, February 28 would do
      by_contra hany
      refine hnone ⟨2, 28, ⟨by decide, by decide⟩, hmonth, ?_, by omega⟩
      simpa [Field.contains] using Or.inl hany
    · intro m e hdate hm he
      by_contra hne
      exact hnone ⟨m, e, hdate, hm, he, hne⟩
  obtain ⟨m, e, hdate, hm, he, hne⟩ := hdate
  obtain ⟨e', hlt, hle, hon⟩ := exists_date_near hweek hdate hm he hne n
  exact ⟨e', hlt, by omega, hon⟩

theorem onDay_iff_of_leapDayOnly (hs : LeapDayOnly s) (d : Int) :
    s.onDay d = true ↔ ∃ y, Leap y ∧ d = march y - 1 := by
  obtain ⟨hweek, _, hfeb, h29, honly⟩ := hs
  rw [onDay_iff_of_week_any hweek, ← dayOfYear_eq_last_iff]
  constructor
  · rintro ⟨hm, hd⟩
    have hplace := dayOfYear_bounds d
    by_contra hlast
    obtain ⟨hmonth, hday, hne⟩ := date_spec hplace.1 (by omega)
    exact hne (honly _ _ ⟨hmonth, hday⟩ hm hd)
  · intro hlast
    rw [hlast, date_last.1, date_last.2]
    exact ⟨hfeb, h29⟩

end Days

/-! ## What the search reaches. -/

section Search

variable {expr : String} {s : Schedule} (hparse : parse expr = .ok s)

include hparse

theorem exists_nextAfter (hday : s.onDay d = true) (hclock : s.onClock m = true)
    (hm₀ : 0 ≤ m) (hm : m < 1440) (hnow : now < instant d m)
    (hreach : instant d m ≤ now + searchLimitMinutes * minute) :
    ∃ t, nextAfter now expr = .ok t := by
  have hmatch : s.matches (instant d m + 0) = true := by
    rw [Int.add_zero, matches_instant s hm₀ hm, hday, hclock]
    rfl
  obtain ⟨t, ht⟩ := exists_nextAfterIn (by decide) hparse
    ⟨wholeMinute_instant d m, hmatch⟩ hnow hreach
  exact ⟨t, by rw [← nextAfterIn_zero]; exact ht⟩

theorem instant_of_nextAfter {t : Int} (h : nextAfter now expr = .ok t) :
    ∃ d m, (0 ≤ m ∧ m < 1440) ∧ s.onDay d = true ∧ s.onClock m = true ∧ now < instant d m
      ∧ instant d m ≤ truncateMinute now + searchLimitMinutes * minute := by
  rw [← nextAfterIn_zero] at h
  have hnext := next_of_nextAfterIn (by decide) hparse h
  obtain ⟨d, m, hm₀, hm, rfl⟩ := exists_instant hnext.mem.1
  have hmatch : s.matches (instant d m + 0) = true := hnext.mem.2
  rw [Int.add_zero, matches_instant s hm₀ hm, Bool.and_eq_true_iff] at hmatch
  refine ⟨d, m, ⟨hm₀, hm⟩, hmatch.1, hmatch.2, hnext.lt, ?_⟩
  obtain ⟨k, hk, heq, _⟩ := firstFrom_eq_some (firstFrom_of_nextAfterIn hparse h)
  rw [heq]
  unfold minute second
  omega

end Search

/-- `now` lies after the last accepted minute of February 29 four years before a skipped leap year,
and the search ends before the first one after it. -/
def AcrossSkipped (s : Schedule) (now : Int) : Prop :=
  ∃ c, Gregorian.Skipped c ∧ ∀ m, 0 ≤ m → m < 1440 → s.onClock m = true →
    instant (Gregorian.march (c - 4) - 1) m ≤ now
      ∧ truncateMinute now + searchLimitMinutes * minute < instant (Gregorian.march (c + 4) - 1) m

theorem instant_le {e : Int} (h : d ≤ e) : instant d m ≤ instant e m := by
  unfold instant minute second
  omega

section LeapDay

variable {expr : String} {s : Schedule} (hparse : parse expr = .ok s) (hs : LeapDayOnly s)

include hparse hs

theorem no_answer_across_skipped (hacross : AcrossSkipped s now) (t : Int) :
    nextAfter now expr ≠ .ok t := by
  intro h
  obtain ⟨d, m, ⟨hm₀, hm⟩, hday, hclock, hnow, hreach⟩ := instant_of_nextAfter hparse h
  obtain ⟨y, hleap, rfl⟩ := (onDay_iff_of_leapDayOnly hs d).mp hday
  obtain ⟨c, hskipped, hall⟩ := hacross
  obtain ⟨hbefore, hafter⟩ := hall m hm₀ hm hclock
  rcases not_leap_near_skipped hskipped hleap with hle | hle
  · have hmono := march_mono hle
    have := instant_le (m := m) (show march y - 1 ≤ march (c - 4) - 1 by omega)
    omega
  · have hmono := march_mono hle
    have := instant_le (m := m) (show march (c + 4) - 1 ≤ march y - 1 by omega)
    omega

theorem answer_unless_across_skipped (hnot : ¬AcrossSkipped s now) :
    ∃ t, nextAfter now expr = .ok t := by
  by_contra hno
  have hfar : ∀ y m, Leap y → 0 ≤ m → m < 1440 → s.onClock m = true →
      now < instant (march y - 1) m →
      now + searchLimitMinutes * minute < instant (march y - 1) m := by
    intro y m hleap hm₀ hm hclock hnow
    by_contra hreach
    have hday := (onDay_iff_of_leapDayOnly hs _).mpr ⟨y, hleap, rfl⟩
    exact hno (exists_nextAfter hparse hday hclock hm₀ hm hnow (by omega))
  obtain ⟨m₀, hm₀, hm₀', hclock₀⟩ := exists_onClock hparse
  -- the leap days around `now`, by the clock's minute `m₀`
  obtain ⟨p, y, hp, hy, hbefore, hafter, hgap⟩ :=
    exists_leap_days ((now - m₀ * minute) / (1440 * minute) + 307)
  have hpnow : instant (march p - 1) m₀ ≤ now := by
    unfold instant minute second at *
    omega
  have hynow : now < instant (march y - 1) m₀ := by
    unfold instant minute second at *
    omega
  have hyfar := hfar y m₀ hy hm₀ hm₀' hclock₀ hynow
  rcases hgap with rfl | ⟨rfl, hskipped⟩
  · -- four years are in reach
    rw [march_leap_add_four hp hy] at hyfar
    unfold instant searchLimitMinutes minute second at *
    omega
  apply hnot
  refine ⟨p + 4, hskipped, ?_⟩
  intro m hm hm' hclock
  rw [show p + 4 - 4 = p by omega, show p + 4 + 4 = p + 8 by omega]
  constructor
  · by_contra hlate
    have := hfar p m hp hm hm' hclock (by omega)
    unfold instant searchLimitMinutes minute second at *
    omega
  · have hm_far := hfar (p + 8) m hy hm hm' hclock
    unfold instant truncateMinute searchLimitMinutes minute second at *
    omega

end LeapDay

/-! ## The limit of the search. -/

/-- **`NextAfter` FINDS A TIME of every schedule that has one, exactly when** it is not February 29
alone or `now` does not lie across a skipped leap year. -/
theorem nextAfter_succeeds_iff (now : Int) (expr : String) (s : Schedule)
    (hparse : parse expr = .ok s) :
    ((∃ u, wholeMinute 0 u ∧ s.matches u = true) → ∃ t, nextAfter now expr = .ok t)
      ↔ ¬(LeapDayOnly s ∧ AcrossSkipped s now) := by
  constructor
  · rintro h ⟨hs, hacross⟩
    -- it matches every leap day
    obtain ⟨m, hm₀, hm, hclock⟩ := exists_onClock hparse
    have hday := (onDay_iff_of_leapDayOnly hs _).mpr ⟨0, by decide, rfl⟩
    obtain ⟨t, ht⟩ := h ⟨instant (Gregorian.march 0 - 1) m, wholeMinute_instant _ m, by
      rw [matches_instant s hm₀ hm, hday, hclock]
      rfl⟩
    exact no_answer_across_skipped hparse hs hacross t ht
  · rintro hnot ⟨u, hwhole, hmatch⟩
    by_cases hs : LeapDayOnly s
    · exact answer_unless_across_skipped hparse hs (fun hacross => hnot ⟨hs, hacross⟩)
    obtain ⟨d, m, hm₀, hm, rfl⟩ := exists_instant hwhole
    rw [matches_instant s hm₀ hm, Bool.and_eq_true_iff] at hmatch
    obtain ⟨e, hlt, hle, hon⟩ := exists_onDay_near hparse hmatch.1 hs (dayNumber now + 306)
    refine exists_nextAfter hparse hon hmatch.2 hm₀ hm ?_ ?_
    · unfold instant dayNumber minute second at *
      omega
    · unfold instant dayNumber searchLimitMinutes minute second at *
      omega

/-- February 29, asked for on March 1, 2096: the search ends before 2104. -/
theorem leap_day_not_found :
    validate "0 0 29 2 *" = .ok () ∧ (∃ s, parse "0 0 29 2 *" = .ok s
          ∧ wholeMinute 0 (instant (Gregorian.march 2104 - 1) 0)
          ∧ s.matches (instant (Gregorian.march 2104 - 1) 0) = true)
      ∧ ∀ t, nextAfter (instant (Gregorian.march 2096) 0) "0 0 29 2 *" ≠ .ok t := by
  have hparse : parse "0 0 29 2 *"
      = .ok ⟨⟨[0], false⟩, ⟨[0], false⟩, ⟨[29], false⟩, ⟨[2], false⟩, ⟨[], true⟩⟩ := by
    decide
  refine ⟨by decide, ⟨_, hparse, wholeMinute_instant _ _, by decide⟩, ?_⟩
  apply no_answer_across_skipped hparse
  · refine ⟨rfl, rfl, by decide, by decide, ?_⟩
    intro m d _ hm hd
    simp only [Field.contains, Bool.false_or, List.mem_singleton, decide_eq_true_eq] at hm hd
    exact ⟨hm, hd⟩
  refine ⟨2100, by decide, ?_⟩
  intro m hm₀ hm hclock
  have hzero : m = 0 := by
    simp only [Schedule.onClock, Field.contains, Bool.false_or, List.mem_singleton,
      Bool.and_eq_true_iff, decide_eq_true_eq] at hclock
    omega
  subst hzero
  exact ⟨by decide, by decide⟩

/-- With March 29 as well, there is always a next time. -/
theorem nextAfter_succeeds_march :
    ∃ t, nextAfter (instant (Gregorian.march 2096) 0) "0 0 29 2,3 *" = .ok t := by
  refine (nextAfter_succeeds_iff _ "0 0 29 2,3 *"
    ⟨⟨[0], false⟩, ⟨[0], false⟩, ⟨[29], false⟩, ⟨[2, 3], false⟩, ⟨[], true⟩⟩
    (by decide)).mpr ?_ ⟨instant 28 0, wholeMinute_instant _ _, by decide⟩
  rintro ⟨⟨_, _, _, _, honly⟩, _⟩
  have := honly 3 29 ⟨by decide, by decide⟩ (by decide) (by decide)
  omega

end AiScheduler.Cron
