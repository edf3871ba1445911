/-
  **WHAT A TOKEN BUCKET LETS THROUGH** (`bucket_conforms`).

  The guard of the AI endpoints gives the bucket a limit PER MINUTE as an integer rate PER SECOND.
  Below 60 that rate is 0, which `NewTokenBucket` reads as 1000 (`limit_kept_iff`).
-/
import AiScheduler.Lib.TokenBucket
import AiScheduler.Scheduler.RateLimit
import Mathlib.Algebra.BigOperators.Ring.Finset
import Mathlib.Data.Int.ConditionallyCompleteOrder
import Mathlib.Tactic.Ring
import Mathlib.Tactic.Linarith

namespace AiScheduler.Conformance

open Lib List

variable {now r : Int}

/-! ## Refilling. -/

theorem seconds_add (d e : Int) : seconds (d + e) = seconds d + seconds e := by
  unfold seconds
  rw [Int.cast_add, add_div]

theorem seconds_nonneg {d : Int} (h : 0 ≤ d) : 0 ≤ seconds d := by
  unfold seconds second
  have h : (0 : ℚ) ≤ (d : ℚ) := by exact_mod_cast h
  positivity

theorem seconds_mono : Monotone seconds := by
  intro d e h
  have hdiff := seconds_nonneg (sub_nonneg.mpr h)
  have hsum := seconds_add d (e - d)
  rw [add_sub_cancel] at hsum
  rw [hsum]
  linarith

/-- A bucket that can be in use: the tokens are within the capacity. -/
structure Sound (tb : TokenBucket) : Prop where
  rate : 0 ≤ tb.rate
  nonneg : 0 ≤ tb.tokens
  le_capacity : tb.tokens ≤ tb.capacity

variable {tb : TokenBucket}

theorem refill_tokens (tb : TokenBucket) (now : Int) :
    (tb.refill now).tokens
      = min tb.capacity (tb.tokens + seconds (now - tb.lastRefill) * tb.rate) := by
  show (if tb.tokens + seconds (now - tb.lastRefill) * tb.rate > tb.capacity then _ else _) = _
  split
  next h => exact (min_eq_left h.le).symm
  next h => exact (min_eq_right (not_lt.mp h)).symm

theorem Sound.refill (h : Sound tb) (hnow : tb.lastRefill ≤ now) :
    Sound (tb.refill now) := by
  have hearned : 0 ≤ seconds (now - tb.lastRefill) * tb.rate :=
    mul_nonneg (seconds_nonneg (sub_nonneg.mpr hnow)) h.rate
  refine ⟨h.rate, ?_, ?_⟩
  · rw [refill_tokens]
    exact le_min (h.nonneg.trans h.le_capacity) (add_nonneg h.nonneg hearned)
  · rw [refill_tokens]
    exact min_le_left _ _

/-- **Refills compose**: one in between makes no difference. -/
theorem refill_refill (h : Sound tb) {later : Int} (hlater : now ≤ later) :
    (tb.refill now).refill later = tb.refill later := by
  have hearned : 0 ≤ seconds (later - now) * tb.rate :=
    mul_nonneg (seconds_nonneg (sub_nonneg.mpr hlater)) h.rate
  have hsum : seconds (later - tb.lastRefill) * tb.rate
      = seconds (now - tb.lastRefill) * tb.rate + seconds (later - now) * tb.rate := by
    rw [← add_mul, ← seconds_add]
    congr 2
    omega
  have htokens : ((tb.refill now).refill later).tokens = (tb.refill later).tokens := by
    rw [refill_tokens, refill_tokens, refill_tokens]
    show min tb.capacity (min tb.capacity (tb.tokens + seconds (now - tb.lastRefill) * tb.rate)
      + seconds (later - now) * tb.rate) = _
    rw [hsum, ← add_assoc]
    rcases le_total tb.capacity (tb.tokens + seconds (now - tb.lastRefill) * tb.rate) with hle | hle
    · rw [min_eq_left hle, min_eq_left (by linarith), min_eq_left (by linarith)]
    · rw [min_eq_right hle]
  show TokenBucket.mk _ _ _ _ = TokenBucket.mk _ _ _ _
  congr 1

/-! ## Calls. -/

/-- The calls of a bucket's users. -/
inductive BucketCall where
  | allowN (n : Nat)
  | waitTime (n : Int)

/-- A call at a time: the tokens granted, and the bucket after it. -/
def call (tb : TokenBucket) (now : Int) : BucketCall → Nat × TokenBucket
  | .allowN n => (if (tb.allowN n now).1 then n else 0, (tb.allowN n now).2)
  | .waitTime n => (0, (tb.waitTime n now).2)

def grants (tb : TokenBucket) : List (Int × BucketCall) → List (Int × Nat)
  | [] => []
  | c :: cs => (c.1, (call tb c.1 c.2).1) :: grants (call tb c.1 c.2).2 cs

def after (tb : TokenBucket) : List (Int × BucketCall) → TokenBucket
  | [] => tb
  | c :: cs => after (call tb c.1 c.2).2 cs

theorem allowN_of_refused {n : Int} (h : (tb.allowN n now).1 = false) :
    (tb.allowN n now).2 = tb.refill now := by
  unfold TokenBucket.allowN at h ⊢
  dsimp only at h ⊢
  split at h
  next => cases h
  next hless => rw [if_neg hless]

theorem waitTime_snd (tb : TokenBucket) (n now : Int) : (tb.waitTime n now).2 = tb.refill now := by
  unfold TokenBucket.waitTime
  dsimp only
  split <;> rfl

/-- What one call leaves: the tokens granted come out of the refilled bucket. -/
structure Called (tb : TokenBucket) (now : Int) (granted : Nat) (tb' : TokenBucket) : Prop where
  rate : tb'.rate = tb.rate
  capacity : tb'.capacity = tb.capacity
  lastRefill : tb'.lastRefill = now
  nonneg : 0 ≤ tb'.tokens
  spent : granted + tb'.tokens = (tb.refill now).tokens

theorem called (h : Sound tb) (hnow : tb.lastRefill ≤ now) (c : BucketCall) :
    Called tb now (call tb now c).1 (call tb now c).2 := by
  have hidle : Called tb now 0 (tb.refill now) :=
    ⟨rfl, rfl, rfl, (h.refill hnow).nonneg, by simp⟩
  cases c with
  | waitTime n =>
    show Called tb now 0 (tb.waitTime n now).2
    rw [waitTime_snd]
    exact hidle
  | allowN n =>
  show Called tb now (if (tb.allowN n now).1 then n else 0) (tb.allowN n now).2
  cases hallowed : (tb.allowN n now).1 with
  | false =>
    rw [allowN_of_refused hallowed, if_neg Bool.false_ne_true]
    exact hidle
  | true =>
  have henough : ((n : Int) : ℚ) ≤ (tb.refill now).tokens := by
    unfold TokenBucket.allowN at hallowed
    dsimp only at hallowed
    split at hallowed
    next hle => exact hle
    next => cases hallowed
  have hleft : (tb.allowN n now).2
      = { tb.refill now with tokens := (tb.refill now).tokens - n } := by
    unfold TokenBucket.allowN
    dsimp only
    rw [if_pos henough]
    norm_cast
  rw [hleft, if_pos rfl]
  refine ⟨rfl, rfl, rfl, ?_, ?_⟩
  · show 0 ≤ (tb.refill now).tokens - (n : ℚ)
    have henough : (n : ℚ) ≤ (tb.refill now).tokens := by exact_mod_cast henough
    linarith
  · show (n : ℚ) + ((tb.refill now).tokens - n) = _
    ring

theorem Called.sound {granted : Nat} {tb' : TokenBucket}
    (hcalled : Called tb now granted tb') (h : Sound tb) (hnow : tb.lastRefill ≤ now) :
    Sound tb' := by
  have hle := (h.refill hnow).le_capacity
  have hspent := hcalled.spent
  have hgranted : (0 : ℚ) ≤ granted := Nat.cast_nonneg granted
  refine ⟨by rw [hcalled.rate]; exact h.rate, hcalled.nonneg, ?_⟩
  rw [hcalled.capacity]
  show tb'.tokens ≤ (tb.refill now).capacity
  linarith

/-! ## Sequences of calls. -/

/-- What a bucket has earned up to a time. -/
def earned (rate : ℚ) (t : Int) : ℚ := rate * seconds t

theorem earned_mono {rate : ℚ} (h : 0 ≤ rate) : Monotone (earned rate) := by
  intro s t hst
  exact mul_le_mul_of_nonneg_left (seconds_mono hst) h

theorem earned_sub (rate : ℚ) (s t : Int) :
    earned rate t - earned rate s = rate * seconds (t - s) := by
  have hsum := seconds_add s (t - s)
  rw [add_sub_cancel] at hsum
  unfold earned
  rw [hsum]
  ring

/-- The times of the calls do not go back. -/
def Ordered (start : Int) (calls : List (Int × BucketCall)) : Prop :=
  (start :: calls.map Prod.fst).Pairwise (· ≤ ·)

instance (start : Int) (calls : List (Int × BucketCall)) : Decidable (Ordered start calls) :=
  inferInstanceAs (Decidable (List.Pairwise _ _))

theorem Ordered.head {start : Int} {c : Int × BucketCall} {cs : List (Int × BucketCall)}
    (h : Ordered start (c :: cs)) : start ≤ c.1 :=
  (pairwise_cons.mp h).1 c.1 (by simp)

theorem Ordered.tail {start : Int} {c : Int × BucketCall} {cs : List (Int × BucketCall)}
    (h : Ordered start (c :: cs)) : Ordered c.1 cs :=
  (pairwise_cons.mp h).2

theorem Sound.after : ∀ {calls : List (Int × BucketCall)} {tb : TokenBucket}, Sound tb →
    Ordered tb.lastRefill calls →
    Sound (Conformance.after tb calls) ∧ (Conformance.after tb calls).capacity = tb.capacity := by
  intro calls
  induction calls with
  | nil =>
    intro tb h _
    exact ⟨h, rfl⟩
  | cons c cs ih =>
  intro tb h hordered
  have hcalled := called h hordered.head c.2
  have hordered' : Ordered (call tb c.1 c.2).2.lastRefill cs := by
    rw [hcalled.lastRefill]
    exact hordered.tail
  obtain ⟨hsound, hcapacity⟩ := ih (hcalled.sound h hordered.head) hordered'
  exact ⟨hsound, hcapacity.trans hcalled.capacity⟩

/-- **The grants are withdrawals from an account** that holds at most the capacity and earns at the
rate. -/
theorem conforms_grants : ∀ {calls : List (Int × BucketCall)} {tb : TokenBucket}, Sound tb →
    Ordered tb.lastRefill calls →
    Conforms tb.capacity (earned tb.rate) tb.tokens tb.lastRefill
      ((grants tb calls).map (fun g => (g.1, (g.2 : ℚ)))) := by
  intro calls
  induction calls with
  | nil =>
    intro tb _ _
    exact .nil _ _
  | cons c cs ih =>
  intro tb h hordered
  have hcalled := called h hordered.head c.2
  have hordered' : Ordered (call tb c.1 c.2).2.lastRefill cs := by
    rw [hcalled.lastRefill]
    exact hordered.tail
  have hrest := ih (hcalled.sound h hordered.head) hordered'
  rw [hcalled.rate, hcalled.capacity, hcalled.lastRefill] at hrest
  refine .cons hordered.head ?_ ?_ hcalled.nonneg hrest
  · rw [hcalled.spent, refill_tokens, earned_sub, mul_comm tb.rate]
    exact min_le_right _ _
  · rw [hcalled.spent]
    exact (h.refill hordered.head).le_capacity

def granted (tb : TokenBucket) (calls : List (Int × BucketCall)) (s t : Int) : Nat :=
  (((grants tb calls).filter (fun g => s ≤ g.1 ∧ g.1 ≤ t)).map Prod.snd).sum

theorem cast_granted (tb : TokenBucket) (calls : List (Int × BucketCall)) (s t : Int) :
    ((granted tb calls s t : Nat) : ℚ)
      = drawn s t ((grants tb calls).map (fun g => (g.1, (g.2 : ℚ)))) := by
  unfold granted drawn
  rw [Nat.cast_list_sum, filter_map, map_map, map_map]
  rfl

/-- **In any window at most the capacity and what the rate gives is granted.** -/
theorem granted_le (h : Sound tb) {calls : List (Int × BucketCall)}
    (hordered : Ordered tb.lastRefill calls) {s t : Int} (hst : s ≤ t) :
    (granted tb calls s t : ℚ) ≤ tb.capacity + tb.rate * seconds (t - s) := by
  rw [cast_granted, ← earned_sub]
  exact (conforms_grants h hordered).drawn_le (earned_mono h.rate)
    (h.nonneg.trans h.le_capacity) hst

/-- A full bucket, as `NewTokenBucket` creates it. -/
abbrev full (rate capacity : ℚ) (start : Int) : TokenBucket :=
  { rate, capacity, tokens := capacity, lastRefill := start }

theorem sound_full {rate capacity : ℚ} (hrate : 0 ≤ rate) (hcapacity : 0 ≤ capacity)
    (start : Int) : Sound (full rate capacity start) := ⟨hrate, hcapacity, le_refl capacity⟩

/-- **TOKEN-BUCKET CONFORMANCE.** -/
theorem bucket_conforms {rate capacity : ℚ} (hrate : 0 ≤ rate) (hcapacity : 0 ≤ capacity)
    (start : Int) {calls : List (Int × BucketCall)} (hordered : Ordered start calls) :
    let tb := full rate capacity start
    (0 ≤ (after tb calls).tokens ∧ (after tb calls).tokens ≤ capacity)
      ∧ (∀ n now, ((after tb calls).allowN n now).1 = false →
          ((after tb calls).allowN n now).2.tokens = ((after tb calls).refill now).tokens
          ∧ ∀ later, now ≤ later →
              ((after tb calls).allowN n now).2.refill later = (after tb calls).refill later)
      ∧ ∀ s t, s ≤ t → (granted tb calls s t : ℚ) ≤ capacity + rate * seconds (t - s) := by
  intro tb
  have hsound : Sound tb := sound_full hrate hcapacity start
  obtain ⟨hafter, hcap⟩ := hsound.after hordered
  refine ⟨⟨hafter.nonneg, ?_⟩, ?_, ?_⟩
  · have hle := hafter.le_capacity
    rw [hcap] at hle
    exact hle
  · intro n now hrefused
    rw [allowN_of_refused hrefused]
    exact ⟨rfl, fun later hlater => refill_refill hafter hlater⟩
  · intro s t hst
    exact granted_le hsound hordered hst

/-- Ten tokens, ten a second: five are taken, seven refused, the rest taken half a second later. -/
def burst : List (Int × BucketCall) :=
  [(0, .allowN 5), (0, .waitTime 7), (0, .allowN 7), (second / 2, .allowN 10)]

theorem burst_conforms :
    granted (TokenBucket.new 10 10 0) burst 0 (second / 2) = 15
      ∧ (granted (TokenBucket.new 10 10 0) burst 0 (second / 2) : ℚ)
          ≤ 10 + 10 * seconds (second / 2 - 0) := by
  refine ⟨by decide +kernel, ?_⟩
  have hordered : Ordered 0 burst := by decide
  exact (bucket_conforms (by norm_num) (by norm_num) 0 hordered).2.2 0 (second / 2) (by decide)

/-! ## The limit of the AI endpoints. -/

/-- The requests the guard lets through, by their times. -/
def letThrough (rl : Option TokenBucket) : List Int → List Int
  | [] => []
  | now :: times =>
    if (llmGuard rl now).1 then now :: letThrough (llmGuard rl now).2 times
    else letThrough (llmGuard rl now).2 times

def admitted (rl : Option TokenBucket) (times : List Int) (s t : Int) : Nat :=
  (letThrough rl times).countP (fun now => s ≤ now ∧ now ≤ t)

theorem admitted_some (s t : Int) : ∀ (times : List Int) (tb : TokenBucket),
    admitted (some tb) times s t = granted tb (times.map (fun now => (now, .allowN 1))) s t := by
  intro times
  induction times with
  | nil =>
    intro tb
    rfl
  | cons now times ih =>
  intro tb
  have hrest := ih (tb.allowN 1 now).2
  unfold admitted granted at hrest ⊢
  rw [letThrough, map_cons, grants]
  show countP _ (if (tb.allowN 1 now).1 then
      now :: letThrough (some (tb.allowN 1 now).2) times
    else letThrough (some (tb.allowN 1 now).2) times)
      = ((filter _ ((now, if (tb.allowN 1 now).1 then 1 else 0)
          :: grants (tb.allowN 1 now).2 _)).map Prod.snd).sum
  cases hallowed : (tb.allowN 1 now).1 with
  | true =>
    rw [if_pos rfl, if_pos rfl]
    by_cases hin : s ≤ now ∧ now ≤ t
    · rw [countP_cons_of_pos (by simpa using hin),
        filter_cons_of_pos (by simpa using hin), hrest, map_cons, sum_cons]
      exact Nat.add_comm _ _
    · rw [countP_cons_of_neg (by simpa using hin), filter_cons_of_neg (by simpa using hin), hrest]
  | false =>
    rw [if_neg Bool.false_ne_true, if_neg Bool.false_ne_true, hrest]
    by_cases hin : s ≤ now ∧ now ≤ t
    · rw [filter_cons_of_pos (by simpa using hin), map_cons, sum_cons, Nat.zero_add]
    · rw [filter_cons_of_neg (by simpa using hin)]

theorem newLimiter_of_pos (hr : 0 < r) (now : Int) :
    newLimiter r now = some (full (if 60 ≤ r then ((r / 60 : Int) : ℚ) else 1000) r now) := by
  have hdiv : r.tdiv 60 = r / 60 := Int.tdiv_eq_ediv_of_nonneg hr.le
  unfold newLimiter TokenBucket.new
  rw [if_pos hr, hdiv]
  dsimp only
  rw [if_neg (not_le.mpr hr)]
  by_cases h60 : 60 ≤ r
  · rw [if_neg (by omega), if_pos h60]
  · rw [if_pos (by omega), if_neg h60]
    norm_num

/-- The guarded requests of any window are within the limit `r` per minute. -/
def KeepsLimit (r : Int) : Prop :=
  ∀ (start : Int) (times : List Int), (start :: times).Pairwise (· ≤ ·) → ∀ s t, s ≤ t →
    (admitted (newLimiter r start) times s t : ℚ) ≤ r + r * (((t - s : Int) : ℚ) / (minute : ℚ))

theorem keepsLimit_of_le (h60 : 60 ≤ r) : KeepsLimit r := by
  intro start times hordered s t hst
  have hr : (0 : ℚ) ≤ (r : ℚ) := by
    exact_mod_cast (show (0 : Int) ≤ r by omega)
  have hrate : 0 ≤ r / 60 := by omega
  rw [newLimiter_of_pos (by omega), admitted_some, if_pos h60]
  have hsound : Sound (full ((r / 60 : Int) : ℚ) r start) :=
    sound_full (by exact_mod_cast hrate) hr start
  have hcalls : Ordered start (times.map (fun now => (now, BucketCall.allowN 1))) := by
    unfold Ordered
    rw [map_map]
    simpa [Function.comp_def] using hordered
  refine (granted_le hsound hcalls hst).trans ?_
  show (r : ℚ) + ((r / 60 : Int) : ℚ) * seconds (t - s) ≤ _
  have hdown : ((r / 60 : Int) : ℚ) * 60 ≤ r := by
    exact_mod_cast Int.ediv_mul_le r (by decide)
  have hminute : ((t - s : Int) : ℚ) / (minute : ℚ) = seconds (t - s) / 60 := by
    unfold seconds minute
    push_cast
    rw [div_div, mul_comm (60 : ℚ)]
  rw [hminute]
  have hwindow := mul_le_mul_of_nonneg_right hdown (seconds_nonneg (sub_nonneg.mpr hst))
  linarith

/-! ### Limits below 60. -/

def milli : Int := second / 1000

def everyMilli (start : Int) : Nat → List Int
  | 0 => []
  | k + 1 => start :: everyMilli (start + milli) k

theorem everyMilli_range : ∀ (k : Nat) (start : Int), ∀ now ∈ everyMilli start k,
    start ≤ now ∧ now ≤ start + k * milli := by
  intro k
  induction k with
  | zero =>
    intro start now hnow
    simp [everyMilli] at hnow
  | succ k ih =>
  intro start now hnow
  have hmilli : (0 : Int) ≤ milli := by decide
  have hk : (0 : Int) ≤ k * milli := Int.mul_nonneg (Int.natCast_nonneg k) hmilli
  rw [Nat.cast_succ, Int.add_mul, Int.one_mul]
  rcases mem_cons.mp hnow with rfl | hnow
  · omega
  · have := ih _ now hnow
    omega

theorem everyMilli_ordered : ∀ (k : Nat) (start : Int),
    (start :: everyMilli start k).Pairwise (· ≤ ·) := by
  intro k
  induction k with
  | zero =>
    intro start
    exact pairwise_singleton _ _
  | succ k ih =>
  intro start
  have hmilli : (0 : Int) ≤ milli := by decide
  rw [pairwise_cons]
  refine ⟨fun now hnow => (everyMilli_range _ _ now hnow).1, ?_⟩
  show (start :: everyMilli (start + milli) k).Pairwise (· ≤ ·)
  rw [pairwise_cons]
  refine ⟨?_, (ih (start + milli)).of_cons⟩
  intro now hnow
  have := (everyMilli_range _ _ now hnow).1
  omega

/-- A bucket of 1000 tokens a second that has one now. -/
structure Ready (tb : TokenBucket) (now : Int) : Prop where
  rate : tb.rate = 1000
  capacity : 1 ≤ tb.capacity
  token : 1 ≤ (tb.refill now).tokens

theorem Ready.allow (h : Ready tb now) :
    (tb.allow now).1 = true ∧ Ready (tb.allow now).2 (now + milli) := by
  have hallow : tb.allow now
      = (true, { tb.refill now with tokens := (tb.refill now).tokens - 1 }) := by
    unfold TokenBucket.allow TokenBucket.allowN
    dsimp only
    rw [if_pos (by exact_mod_cast h.token), Int.cast_one]
  rw [hallow]
  refine ⟨rfl, h.rate, h.capacity, ?_⟩
  rw [refill_tokens]
  have hmilli : seconds (now + milli - now) * tb.rate = 1 := by
    rw [add_sub_cancel_left, h.rate]
    norm_num [seconds, milli, second]
  refine le_min h.capacity ?_
  show 1 ≤ (tb.refill now).tokens - 1 + seconds (now + milli - now) * tb.rate
  rw [hmilli]
  linarith [h.token]

theorem letThrough_everyMilli : ∀ (k : Nat) {tb : TokenBucket} {now : Int}, Ready tb now →
    letThrough (some tb) (everyMilli now k) = everyMilli now k := by
  intro k
  induction k with
  | zero =>
    intro tb now _
    rfl
  | succ k ih =>
    intro tb now h
    obtain ⟨hallowed, hnext⟩ := h.allow
    show (if (tb.allow now).1 then now :: letThrough (some (tb.allow now).2) _ else _) = _
    rw [if_pos hallowed, ih hnext]
    rfl

theorem length_everyMilli : ∀ (k : Nat) (start : Int), (everyMilli start k).length = k := by
  intro k
  induction k with
  | zero =>
    intro start
    rfl
  | succ k ih =>
    intro start
    exact congrArg Nat.succ (ih _)

/-- **Below 60 a minute the limiter lets 1000 a second through.** -/
theorem not_keepsLimit_of_lt (hr : 0 < r) (h60 : r < 60) : ¬ KeepsLimit r := by
  intro hkeeps
  obtain ⟨n, rfl⟩ := Int.eq_ofNat_of_zero_le hr.le
  have hn : n < 60 := by omega
  have hone : (1 : ℚ) ≤ ((n : Int) : ℚ) := by exact_mod_cast hr
  have hready : Ready (full 1000 (n : Int) 0) 0 := by
    refine ⟨rfl, hone, ?_⟩
    rw [refill_tokens]
    exact le_min hone (by simpa [seconds] using hone)
  -- one request more than the capacity, all of them let through
  have hall :=
    hkeeps 0 (everyMilli 0 (n + 1)) (everyMilli_ordered _ 0) 0 (0 + (n + 1 : Nat) * milli)
    (Int.le_add_of_nonneg_right (Int.mul_nonneg (Int.natCast_nonneg _) (by decide)))
  rw [newLimiter_of_pos hr, if_neg (by omega)] at hall
  unfold admitted at hall
  rw [letThrough_everyMilli _ hready, countP_eq_length.mpr, length_everyMilli] at hall
  · have hwindow : (((0 + (n + 1 : Nat) * milli - 0 : Int) : ℚ)) / (minute : ℚ)
        = ((n : ℚ) + 1) / 60000 := by
      norm_num [milli, minute, second]
      ring
    rw [hwindow] at hall
    have hle : ((n : ℚ)) ≤ 59 := by exact_mod_cast Nat.le_of_lt_succ hn
    have hnn : (0 : ℚ) ≤ (n : ℚ) := Nat.cast_nonneg n
    push_cast at hall
    nlinarith
  · intro now hnow
    exact decide_eq_true (everyMilli_range _ _ now hnow)

/-- **THE LIMIT IS KEPT EXACTLY FROM 60 A MINUTE ON.** -/
theorem limit_kept_iff {r : Int} (hr : 0 < r) : KeepsLimit r ↔ 60 ≤ r := by
  constructor
  · intro hkeeps
    by_contra hlt
    exact not_keepsLimit_of_lt hr (not_le.mp hlt) hkeeps
  · exact keepsLimit_of_le

theorem sixty_a_minute : KeepsLimit 60 := (limit_kept_iff (by decide)).mpr (le_refl 60)

/-- **One a minute**: three requests within two milliseconds. -/
theorem one_a_minute_exceeded :
    admitted (newLimiter 1 0) [0, milli, 2 * milli] 0 (2 * milli) = 3
      ∧ ¬ ((3 : ℚ) ≤ 1 + 1 * (((2 * milli - 0 : Int) : ℚ) / (minute : ℚ))) := by
  decide +kernel

end AiScheduler.Conformance
