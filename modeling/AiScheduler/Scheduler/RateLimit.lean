/-
  **RATE LIMITS AND BACKPRESSURE** (`internal/scheduler/ratelimit`), and the
  guard of the AI endpoints that uses them (`internal/ai/handler.go`).

  Tokens, rates and thresholds are exact fractions; times are nanoseconds.  A
  bucket is refilled LAZILY, by the calls themselves: `AllowN`, refused or not,
  and `WaitTime`.
-/
import AiScheduler.Lib.Table
import AiScheduler.Scheduler.Memory
import Mathlib.Data.Rat.Floor
import Mathlib.Algebra.BigOperators.Group.List.Basic

namespace AiScheduler

open Lib

/-! ## The token bucket. -/

/-- `Duration.Seconds`. -/
def seconds (d : Int) : ℚ := (d : ℚ) / (second : ℚ)

/-- `TokenBucket`. -/
structure TokenBucket where
  rate : ℚ
  capacity : ℚ
  tokens : ℚ
  lastRefill : Int
  deriving DecidableEq, Repr

/-- `NewTokenBucket`; `ratePerSec * 2` is a 64-bit product. -/
def TokenBucket.new (ratePerSec capacity now : Int) : TokenBucket :=
  let ratePerSec := if ratePerSec ≤ 0 then 1000 else ratePerSec
  let capacity := if capacity ≤ 0 then wrap64 (ratePerSec * 2) else capacity
  { rate := ratePerSec, capacity := capacity, tokens := capacity, lastRefill := now }

/-- `refill`, at `now`. -/
def TokenBucket.refill (tb : TokenBucket) (now : Int) : TokenBucket :=
  let elapsed := seconds (now - tb.lastRefill)
  let tokens := tb.tokens + elapsed * tb.rate
  { tb with
    tokens := if tokens > tb.capacity then tb.capacity else tokens
    lastRefill := now }

/-- `AllowN`. -/
def TokenBucket.allowN (tb : TokenBucket) (n now : Int) : Bool × TokenBucket :=
  let tb := tb.refill now
  if tb.tokens ≥ n then (true, { tb with tokens := tb.tokens - n }) else (false, tb)

/-- `Allow`. -/
def TokenBucket.allow (tb : TokenBucket) (now : Int) : Bool × TokenBucket := tb.allowN 1 now

/-- The conversion of a positive number to a `Duration`: it truncates, and what does not fit into 64
bits becomes the smallest number (Go leaves that open; so it is on amd64). -/
def toDuration (x : ℚ) : Int := if x < 2 ^ 63 then ⌊x⌋ else -2 ^ 63

/-- `WaitTime`. -/
def TokenBucket.waitTime (tb : TokenBucket) (n now : Int) : Int × TokenBucket :=
  let tb := tb.refill now
  if tb.tokens ≥ n then (0, tb)
  else
    let needed := n - tb.tokens
    (toDuration (needed / tb.rate * second), tb)

/-! ## The guard of the AI endpoints. -/

/-- The limiter of `NewRouter`: none unless a limit is configured. -/
def newLimiter (rateLimitRPM now : Int) : Option TokenBucket :=
  if rateLimitRPM > 0 then some (TokenBucket.new (rateLimitRPM.tdiv 60) rateLimitRPM now) else none

/-- `llmGuard`: whether the request is let through. -/
def llmGuard (rl : Option TokenBucket) (now : Int) : Bool × Option TokenBucket :=
  match rl with
  | none => (true, none)
  | some tb =>
    let (allowed, tb) := tb.allow now
    (allowed, some tb)

/-! ## Backpressure. -/

/-- How severe a state is, as Go compares them. -/
def PressureState.severity : PressureState → Nat
  | green => 0
  | yellow => 1
  | red => 2

/-- The thresholds of a configuration. -/
structure BackpressureConfig where
  maxPending : Int := 0
  yellowRatio : ℚ := 0
  redRatio : ℚ := 0
  maxWorkerLoad : ℚ := 0

/-- `NewBackpressureController`. -/
def Backpressure.new (cfg : BackpressureConfig) : Backpressure where
  maxPending := if cfg.maxPending ≤ 0 then 1000 else cfg.maxPending
  yellowRatio := if cfg.yellowRatio ≤ 0 then 7 / 10 else cfg.yellowRatio
  redRatio := if cfg.redRatio ≤ 0 then 9 / 10 else cfg.redRatio
  maxWorkerLoad := if cfg.maxWorkerLoad ≤ 0 then 85 / 100 else cfg.maxWorkerLoad

/-- The loads of the workers by their ids, a Go map. -/
abbrev WorkerLoads := Table (Prod.fst : String × Int → String)

/-- `UpdateWorkerLoad`: it RAISES the state and never lowers it. -/
def Backpressure.updateWorkerLoad (bp : Backpressure) (loads : WorkerLoads) (maxConcurrency : Int) :
    Backpressure :=
  if maxConcurrency ≤ 0 then bp
  else
    let totalLoad : ℚ := (loads.rows.map (fun l => (l.2 : ℚ))).sum
    if loads.rows.length = 0 then bp
    else
      let avgLoad := totalLoad / (loads.rows.length : ℚ)
      let avgRatio := avgLoad / (maxConcurrency : ℚ)
      if avgRatio ≥ bp.maxWorkerLoad then { bp with state := .red }
      else if avgRatio ≥ bp.maxWorkerLoad * (8 / 10) then
        if bp.state.severity < PressureState.yellow.severity then { bp with state := .yellow }
        else bp
      else bp

/-! ## The concurrency limiter. -/

/-- `ConcurrencyLimiter`, with the goroutines in its `cond.Wait`: those not signalled yet, and those
signalled that have not taken the mutex again. -/
structure ConcurrencyLimiter where
  limit : Int
  current : Int := 0
  waiting : List Nat := []
  signalled : List Nat := []

/-- `NewConcurrencyLimiter`. -/
def ConcurrencyLimiter.new (limit : Int) : ConcurrencyLimiter where
  limit := if limit ≤ 0 then 100 else limit

/-- The test of `Acquire`'s loop: goroutine `g` has a slot, or waits. -/
def ConcurrencyLimiter.acquire (cl : ConcurrencyLimiter) (g : Nat) : Bool × ConcurrencyLimiter :=
  if cl.current ≥ cl.limit then (false, { cl with waiting := cl.waiting ++ [g] })
  else (true, { cl with current := cl.current + 1 })

/-- `g` returns from `cond.Wait` and tests again. -/
def ConcurrencyLimiter.wake (cl : ConcurrencyLimiter) (g : Nat) : Bool × ConcurrencyLimiter :=
  { cl with signalled := cl.signalled.erase g }.acquire g

/-- `cond.Signal`; `k` decides which waiter it picks. -/
def ConcurrencyLimiter.signal (cl : ConcurrencyLimiter) (k : Nat) : ConcurrencyLimiter :=
  match cl.waiting[k % cl.waiting.length]? with
  | none => cl
  | some g =>
    { cl with
      waiting := cl.waiting.eraseIdx (k % cl.waiting.length)
      signalled := cl.signalled ++ [g] }

/-- `Release`. -/
def ConcurrencyLimiter.release (cl : ConcurrencyLimiter) (k : Nat) : ConcurrencyLimiter :=
  { cl with current := if cl.current > 0 then cl.current - 1 else cl.current }.signal k

end AiScheduler
