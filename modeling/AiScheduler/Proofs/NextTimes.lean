/-
  **`NextAfter` IS THE EXACT SUCCESSOR FUNCTION of a schedule's minutes.**

  The candidates of the search are the whole minutes after `now`, in order and
  none left out (`exists_candidate`), so the first hit is the NEXT matching
  minute; the rest is a matter of order alone (`Lib.Successor`).
-/
import AiScheduler.Cron.Expr

namespace AiScheduler.Cron

open Lib

variable {now u t : Int}

/-! ## Whole minutes. -/

def wholeMinute (offset t : Int) : Prop := (t + offset) % minute = 0

def matching (s : Schedule) (offset : Int) : Set Int :=
  {t | wholeMinute offset t ∧ s.matches (t + offset) = true}

section Minutes

variable {offset : Int} (hoffset : offset % minute = 0)

include hoffset

theorem wholeMinute_iff (t : Int) : wholeMinute offset t ↔ t % minute = 0 := by
  unfold wholeMinute minute second at *
  omega

theorem wholeMinute_candidate (now : Int) (k : Nat) :
    wholeMinute offset (truncateMinute now + minute + k * minute) := by
  rw [wholeMinute_iff hoffset]
  unfold truncateMinute minute second
  omega

/-- **Every whole minute after `now` is a candidate**. -/
theorem exists_candidate (hu : wholeMinute offset u) (hnow : now < u) {n : Nat}
    (hn : u ≤ now + n * minute) :
    ∃ k : Nat, k < n ∧ u = truncateMinute now + minute + k * minute := by
  rw [wholeMinute_iff hoffset] at hu
  unfold truncateMinute minute second at *
  refine ⟨((u - (now - now % 60000000000)) / 60000000000 - 1).toNat, ?_, ?_⟩
  · omega
  · omega

end Minutes

theorem lt_candidate (now : Int) (k : Nat) : now < truncateMinute now + minute + k * minute := by
  unfold truncateMinute minute second
  omega

/-! ## One call. -/

section Call

variable {offset : Int} {expr : String} {s : Schedule}

theorem firstFrom_of_nextAfterIn (hparse : parse expr = .ok s)
    (h : nextAfterIn offset now expr = .ok t) :
    firstFrom (fun t => s.matches (t + offset)) minute searchLimitMinutes
      (truncateMinute now + minute) = some t := by
  unfold nextAfterIn at h
  rw [hparse] at h
  dsimp only at h
  split at h
  next t' hsearch =>
    injection h with h
    rw [hsearch, h]
  next => cases h

theorem firstFrom_of_nextAfterIn_error {e : Err} (hparse : parse expr = .ok s)
    (h : nextAfterIn offset now expr = .error e) :
    firstFrom (fun t => s.matches (t + offset)) minute searchLimitMinutes
      (truncateMinute now + minute) = none := by
  unfold nextAfterIn at h
  rw [hparse] at h
  dsimp only at h
  split at h
  next => cases h
  next hsearch => exact hsearch

variable (hoffset : offset % minute = 0) (hparse : parse expr = .ok s)

include hoffset hparse

/-- **A time that `NextAfter` returns is the next one.** -/
theorem next_of_nextAfterIn (h : nextAfterIn offset now expr = .ok t) :
    Next (matching s offset) now t := by
  obtain ⟨k, _, rfl, hmatch, hbefore⟩ := firstFrom_eq_some (firstFrom_of_nextAfterIn hparse h)
  refine ⟨⟨⟨wholeMinute_candidate hoffset now k, hmatch⟩, lt_candidate now k⟩, ?_⟩
  rintro u ⟨⟨hwhole, humatch⟩, hnow⟩
  -- an earlier matching minute would have been an earlier candidate
  by_contra hlt
  have hn : u ≤ now + k * minute := by
    rw [wholeMinute_iff hoffset] at hwhole
    unfold truncateMinute minute second at *
    omega
  obtain ⟨j, hj, rfl⟩ := exists_candidate hoffset hwhole hnow hn
  have hfalse := hbefore j hj
  rw [humatch] at hfalse
  cases hfalse

theorem no_match_of_nextAfterIn_error {e : Err}
    (h : nextAfterIn offset now expr = .error e) (hwhole : wholeMinute offset u)
    (hnow : now < u) (hreach : u ≤ now + searchLimitMinutes * minute) :
    s.matches (u + offset) = false := by
  obtain ⟨k, hk, rfl⟩ := exists_candidate hoffset hwhole hnow hreach
  exact firstFrom_eq_none_iff.mp (firstFrom_of_nextAfterIn_error hparse h) k hk

theorem exists_nextAfterIn (hu : u ∈ matching s offset) (hnow : now < u)
    (hreach : u ≤ now + searchLimitMinutes * minute) :
    ∃ t, nextAfterIn offset now expr = .ok t := by
  cases h : nextAfterIn offset now expr with
  | ok t => exact ⟨t, rfl⟩
  | error e =>
    have hfalse := no_match_of_nextAfterIn_error hoffset hparse h hu.1 hnow hreach
    rw [hu.2] at hfalse
    cases hfalse

theorem nextAfterIn_of_between {now' : Int} (h : nextAfterIn offset now expr = .ok t)
    (hle : now ≤ now') (hlt : now' < t) : nextAfterIn offset now' expr = .ok t := by
  have hnext := next_of_nextAfterIn hoffset hparse h
  have hreach : t ≤ now' + searchLimitMinutes * minute := by
    obtain ⟨k, hk, rfl, _⟩ := firstFrom_eq_some (firstFrom_of_nextAfterIn hparse h)
    unfold truncateMinute minute second at *
    omega
  obtain ⟨t', ht'⟩ := exists_nextAfterIn hoffset hparse hnext.mem hlt hreach
  have hnext' := next_of_nextAfterIn hoffset hparse ht'
  rw [ht', hnext'.unique (hnext.of_between hle hlt)]

end Call

/-! ## Iterating. -/

/-- The first `n` answers, each asked for from the one before. -/
def upcoming (offset : Int) (expr : String) : Nat → Int → List Int
  | 0, _ => []
  | n + 1, now =>
    match nextAfterIn offset now expr with
    | .ok t => t :: upcoming offset expr n t
    | .error _ => []

theorem successive_upcoming {offset : Int} (hoffset : offset % minute = 0) {expr : String}
    {s : Schedule} (hparse : parse expr = .ok s) :
    ∀ (n : Nat) (now : Int), Successive (matching s offset) now (upcoming offset expr n now) := by
  intro n
  induction n with
  | zero =>
    intro now
    trivial
  | succ n ih =>
    intro now
    unfold upcoming
    cases h : nextAfterIn offset now expr with
    | error e => trivial
    | ok t => exact ⟨next_of_nextAfterIn hoffset hparse h, ih t⟩

/-- **`NextAfter`, for every expression, instant and zone of whole minutes**: its answer is the
first matching whole minute after `now`, an error means that none in reach matches; so it is
monotone, constant up to its answer, and iterating it enumerates the matching minutes. -/
theorem nextAfter_successor (offset : Int) (hoffset : offset % minute = 0) (expr : String)
    (s : Schedule) (hparse : parse expr = .ok s) :
    (∀ now t, nextAfterIn offset now expr = .ok t →
        wholeMinute offset t ∧ now < t ∧ s.matches (t + offset) = true
          ∧ ∀ u, wholeMinute offset u → now < u → u < t → s.matches (u + offset) = false)
      ∧ (∀ now e, nextAfterIn offset now expr = .error e →
        ∀ u, wholeMinute offset u → now < u → u ≤ now + (5 * 366 * 24 * 60) * minute →
          s.matches (u + offset) = false)
      ∧ (∀ now now' t t', now ≤ now' → nextAfterIn offset now expr = .ok t →
        nextAfterIn offset now' expr = .ok t' → t ≤ t')
      ∧ (∀ now now' t, nextAfterIn offset now expr = .ok t → now ≤ now' → now' < t →
        nextAfterIn offset now' expr = .ok t)
      ∧ ∀ n now, (upcoming offset expr n now).Pairwise (· < ·) ∧ ∀ u, u ∈ upcoming offset expr n now
            ↔ (wholeMinute offset u ∧ s.matches (u + offset) = true) ∧ now < u
              ∧ ∃ t ∈ upcoming offset expr n now, u ≤ t := by
  refine ⟨?_, ?_, ?_, ?_, ?_⟩
  · intro now t h
    have hnext := next_of_nextAfterIn hoffset hparse h
    refine ⟨hnext.mem.1, hnext.lt, hnext.mem.2, ?_⟩
    intro u hwhole hnow hlt
    by_contra hmatch
    exact hnext.not_mem hnow hlt ⟨hwhole, by simpa using hmatch⟩
  · intro now e h u hwhole hnow hreach
    exact no_match_of_nextAfterIn_error hoffset hparse h hwhole hnow hreach
  · intro now now' t t' hle h h'
    exact (next_of_nextAfterIn hoffset hparse h).mono (next_of_nextAfterIn hoffset hparse h') hle
  · intro now now' t h hle hlt
    exact nextAfterIn_of_between hoffset hparse h hle hlt
  · intro n now
    have hsucc := successive_upcoming hoffset hparse n now
    exact ⟨hsucc.pairwise, fun u => hsucc.mem_iff⟩

/-- Weekdays at 9:30, 5:45 ahead of UTC, asked on Monday, April 27, 2026, at 9:28:30. -/
theorem nextAfter_successor_monday :
    nextAfterIn (345 * minute) (unixEpoch + 1777261410 * second) "30 9 * * 1-5"
        = .ok (unixEpoch + 1777261500 * second)
      ∧ ∀ now', unixEpoch + 1777261410 * second ≤ now' → now' < unixEpoch + 1777261500 * second →
          nextAfterIn (345 * minute) now' "30 9 * * 1-5"
              = .ok (unixEpoch + 1777261500 * second) := by
  have h : nextAfterIn (345 * minute) (unixEpoch + 1777261410 * second) "30 9 * * 1-5"
      = .ok (unixEpoch + 1777261500 * second) := by rfl
  have hall := nextAfter_successor (345 * minute) (by decide) "30 9 * * 1-5"
    ⟨⟨[30], false⟩, ⟨[9], false⟩, ⟨[], true⟩, ⟨[], true⟩, ⟨[1, 2, 3, 4, 5], false⟩⟩
      (by decide +kernel)
  exact ⟨h, fun now' hle hlt => hall.2.2.2.1 _ now' _ h hle hlt⟩

end AiScheduler.Cron
