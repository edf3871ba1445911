/-
  **DURATION STATISTICS** (`internal/ai/predictduration`): `ComputeStats` over
  the instances of a task.

  Seconds and percentages are exact fractions.  A difference of two times
  SATURATES at the bounds of `time.Duration`, like `Time.Sub`.
-/
import AiScheduler.Scheduler.RateLimit
import Mathlib.Data.List.Sort

namespace AiScheduler.Durations

open List

/-- `t.Sub(u)`. -/
def sub (t u : Int) : Int :=
  max (-9223372036854775808) (min 9223372036854775807 (t - u))

structure DurationStats where
  count : Nat
  avgDuration : ℚ := 0
  minDuration : ℚ := 0
  maxDuration : ℚ := 0
  p50Duration : ℚ := 0
  p95Duration : ℚ := 0
  deriving DecidableEq, Repr

/-- One pass of the first loop of `ComputeStats`: the duration it appends. -/
def duration (inst : TaskInstance) : Option ℚ :=
  if inst.status ≠ .success ∧ inst.status ≠ .failed then none
  else
    let dur := seconds (sub inst.finishedAt inst.startedAt)
    if inst.startedAt ≠ 0 ∧ inst.finishedAt ≠ 0 ∧ dur ≥ 0 then some dur
    else if inst.dispatchTime = 0 then none
    else
      let dur := seconds (sub inst.updatedAt inst.dispatchTime)
      some (if dur < 0 then 0 else dur)

/-- `durations`, before they are sorted. -/
def durations (instances : List TaskInstance) : List ℚ := instances.filterMap duration

def percentile (sorted : List ℚ) (p : ℚ) : ℚ :=
  if sorted.length = 0 then 0
  else
    let idx := ⌈p / 100 * sorted.length⌉ - 1
    let idx := if idx < 0 then 0 else idx
    let idx := if idx ≥ sorted.length then (sorted.length : Int) - 1 else idx
    sorted.getD idx.toNat 0

def computeStats (instances : List TaskInstance) : DurationStats :=
  let durations := durations instances
  if durations.length = 0 then { count := 0 }
  else
    -- `sort.Float64s`
    let sorted := durations.insertionSort (· ≤ ·)
    { count := durations.length
      minDuration := sorted.getD 0 0
      maxDuration := sorted.getD (sorted.length - 1) 0
      avgDuration := sorted.foldl (· + ·) 0 / sorted.length
      p50Duration := percentile sorted 50
      p95Duration := percentile sorted 95 }

end AiScheduler.Durations
