/-
  **WHO GETS IN, AND HOW LONG TO WAIT.**

  A goroutine in `Acquire` tests under the mutex, waits, and tests again when it is signalled; in
  between others may come in.  No more are inside than the limit allows, but for releases by
  goroutines that are not inside, and no wake-up is lost.
-/
import AiScheduler.Proofs.Conformance

namespace AiScheduler

namespace ConcurrencyLimiter

/-- A goroutine takes the mutex: to acquire, to test again, or to release. -/
inductive Turn where
  | acquire (g : Nat)
  | wake (g : Nat)
  | release (g : Nat) (k : Nat)

/-- The limiter, and the goroutines that have acquired and not released. -/
structure Room where
  cl : ConcurrencyLimiter
  inside : List Nat := []

def Room.entered (s : Room) (g : Nat) : Bool × ConcurrencyLimiter → Room
  | (true, cl) => { cl := cl, inside := g :: s.inside }
  | (false, cl) => { s with cl := cl }

/-- One turn; only a signalled goroutine wakes up. -/
def Room.step (s : Room) : Turn → Room
  | .acquire g => s.entered g (s.cl.acquire g)
  | .wake g => if g ∈ s.cl.signalled then s.entered g (s.cl.wake g) else s
  | .release g k => { cl := s.cl.release k, inside := s.inside.erase g }

/-- A release by a goroutine that is not inside. -/
def Room.stray (s : Room) : Turn → Nat
  | .release g _ => if g ∈ s.inside then 0 else 1
  | _ => 0

def Room.run (s : Room) : List Turn → Room
  | [] => s
  | x :: xs => (s.step x).run xs

def Room.strays (s : Room) : List Turn → Nat
  | [] => 0
  | x :: xs => s.stray x + (s.step x).strays xs

/-- The slots taken are those of the goroutines inside, up to `n`, and nobody waits for a slot that
is neither taken nor on offer. -/
structure Kept (limit : Int) (s : Room) (n : Nat) : Prop where
  limit_eq : s.cl.limit = limit
  nonneg : 0 ≤ s.cl.current
  le_limit : s.cl.current ≤ limit
  le_inside : s.cl.current ≤ s.inside.length
  inside_le : (s.inside.length : Int) ≤ s.cl.current + n
  offered : s.cl.waiting ≠ [] → limit ≤ s.cl.current + s.cl.signalled.length

/-- The test, with the goroutine no longer among the signalled ones: one offer fewer at most. -/
theorem Kept.entered {limit : Int} {s : Room} {n : Nat} (h : Kept limit s n)
    {cl : ConcurrencyLimiter} {g : Nat} (hcurrent : cl.current = s.cl.current)
    (hlimit : cl.limit = s.cl.limit)
    (hwaiting : cl.waiting = s.cl.waiting)
    (hsignalled : s.cl.signalled.length ≤ cl.signalled.length + 1) :
    Kept limit (s.entered g (cl.acquire g)) n := by
  obtain ⟨heq, h₀, hle, hin, hin', hoff⟩ := h
  unfold ConcurrencyLimiter.acquire
  split
  next hfull =>
    refine ⟨hlimit.trans heq, ?_, ?_, ?_, ?_, fun _ => ?_⟩ <;> dsimp only [Room.entered] <;> omega
  next hfree =>
    refine ⟨hlimit.trans heq, ?_, ?_, ?_, ?_, ?_⟩ <;> dsimp only [Room.entered]
    · omega
    · omega
    · push_cast [List.length_cons]
      omega
    · push_cast [List.length_cons]
      omega
    · intro hw
      have := hoff (hwaiting ▸ hw)
      omega

theorem current_signal (cl : ConcurrencyLimiter) (k : Nat) :
    (cl.signal k).current = cl.current := by
  unfold signal
  split <;> rfl

theorem limit_signal (cl : ConcurrencyLimiter) (k : Nat) : (cl.signal k).limit = cl.limit := by
  unfold signal
  split <;> rfl

/-- A signal finds a waiter if there is one. -/
theorem length_signalled_signal (cl : ConcurrencyLimiter) (k : Nat)
    (h : (cl.signal k).waiting ≠ []) :
    (cl.signal k).signalled.length = cl.signalled.length + 1 ∧ cl.waiting ≠ [] := by
  unfold signal at h ⊢
  split at h
  next hnone =>
    -- the position is in range unless nobody waits
    have hlen : 0 < cl.waiting.length := List.length_pos_iff.mpr h
    have := List.getElem?_eq_none_iff.mp hnone
    have := Nat.mod_lt k hlen
    omega
  next g hsome =>
    refine ⟨by simp, ?_⟩
    intro hnil
    simp [hnil] at hsome

theorem Kept.release {limit : Int} {s : Room} {n : Nat} (h : Kept limit s n) (g k : Nat) :
    Kept limit (s.step (.release g k)) (n + s.stray (.release g k)) := by
  obtain ⟨heq, h₀, hle, hin, hin', hoff⟩ := h
  have hcur : (s.step (.release g k)).cl.current
      = if s.cl.current > 0 then s.cl.current - 1 else s.cl.current := current_signal _ k
  have hlen : (((s.step (.release g k)).inside.length : Nat) : Int)
      = s.inside.length - 1 + s.stray (.release g k) := by
    show ((s.inside.erase g).length : Int) = _
    by_cases hg : g ∈ s.inside
    · have := List.length_pos_of_mem hg
      rw [List.length_erase_of_mem hg, Room.stray, if_pos hg]
      omega
    · rw [List.erase_of_not_mem hg, Room.stray, if_neg hg]
      omega
  have hlow : s.cl.current - 1 ≤ (s.step (.release g k)).cl.current
      ∧ (s.step (.release g k)).cl.current ≤ s.cl.current := by
    rw [hcur]
    split <;> omega
  refine ⟨(limit_signal _ k).trans heq, ?_, by omega, ?_, ?_, ?_⟩
  · rw [hcur]
    split <;> omega
  · rw [hcur]
    split <;> omega
  · push_cast
    omega
  · intro hw
    obtain ⟨hsignalled, hw₀⟩ := length_signalled_signal _ k hw
    have := hoff hw₀
    have hsig : (s.step (.release g k)).cl.signalled.length
        = s.cl.signalled.length + 1 := hsignalled
    omega

theorem Kept.step {limit : Int} {s : Room} {n : Nat} (h : Kept limit s n) (x : Turn) :
    Kept limit (s.step x) (n + s.stray x) := by
  cases x with
  | acquire g => exact h.entered rfl rfl rfl (by omega)
  | wake g =>
    show Kept limit (if g ∈ s.cl.signalled then _ else _) n
    split
    next hg => exact h.entered rfl rfl rfl (by rw [List.length_erase_of_mem hg]; omega)
    next => exact h
  | release g k => exact h.release g k

theorem Kept.run : ∀ {limit : Int} {xs : List Turn} {s : Room} {n : Nat}, Kept limit s n →
    Kept limit (s.run xs) (n + s.strays xs) := by
  intro limit xs
  induction xs with
  | nil => exact fun h => h
  | cons x xs ih =>
    intro s n h
    show Kept limit ((s.step x).run xs) (n + (s.stray x + (s.step x).strays xs))
    rw [← Nat.add_assoc]
    exact ih (h.step x)

/-- Nobody has come yet. -/
def Room.empty (limit : Int) : Room := { cl := new limit }

/-- **At most `limit` goroutines are inside**, and one more for each stray release; whoever waits,
with nobody signalled, waits for slots that are all taken. -/
theorem limiter_safe (limit : Int) (turns : List Turn) :
    (((Room.empty limit).run turns).inside.length : Int)
        ≤ (new limit).limit + (Room.empty limit).strays turns
      ∧ ((Room.empty limit).strays turns = 0 →
          (((Room.empty limit).run turns).inside.length : Int)
            = ((Room.empty limit).run turns).cl.current)
      ∧ (((Room.empty limit).run turns).cl.waiting ≠ [] →
          ((Room.empty limit).run turns).cl.signalled = [] →
          ((Room.empty limit).run turns).cl.current = (new limit).limit) := by
  have hlimit : 0 < (new limit).limit := by
    show 0 < if limit ≤ 0 then (100 : Int) else limit
    split <;> omega
  have hempty : Kept (new limit).limit (Room.empty limit) 0 :=
    ⟨rfl, Int.le_refl 0, Int.le_of_lt hlimit, Int.le_refl 0, Int.le_refl 0, fun h => absurd rfl h⟩
  have hkept : Kept (new limit).limit ((Room.empty limit).run turns) _ := hempty.run
  obtain ⟨_, _, hle, hin, hin', hoff⟩ := hkept
  rw [Nat.zero_add] at hin'
  refine ⟨by omega, fun hno => by omega, ?_⟩
  intro hw hnone
  have := hoff hw
  rw [hnone] at this
  simp only [List.length_nil] at this
  omega

/-- A stray release lets a second goroutine in beside the first. -/
example : ((Room.empty 1).run [.acquire 1, .release 2 0, .acquire 3]).inside = [3, 1] := by decide

end ConcurrencyLimiter

namespace Conformance

variable {tb : TokenBucket} {n now later : Int}

/-- After a `WaitTime`: `n` tokens are there once the exact wait is over, if they ever fit. -/
theorem allowN_after_wait_iff (hrate : 0 < tb.rate) (n now later : Int) :
    ((tb.waitTime n now).2.allowN n later).1 = true ↔ (n : ℚ) ≤ tb.capacity
      ∧ (n - (tb.refill now).tokens) / tb.rate * second ≤ ((later - now : Int) : ℚ) := by
  have hsecond : (0 : ℚ) < (second : ℚ) := by norm_num [second]
  have hallow : ((tb.waitTime n now).2.allowN n later).1 = true
      ↔ (n : ℚ) ≤ ((tb.refill now).refill later).tokens := by
    rw [waitTime_snd]
    unfold TokenBucket.allowN
    dsimp only
    split
    next h => exact iff_of_true rfl h
    next h => exact iff_of_false Bool.false_ne_true h
  rw [hallow, refill_tokens, le_min_iff, div_mul_eq_mul_div, div_le_iff₀ hrate]
  apply and_congr Iff.rfl
  show _ ≤ (tb.refill now).tokens + ((later - now : Int) : ℚ) / second * tb.rate ↔ _
  rw [div_mul_eq_mul_div, ← sub_le_iff_le_add', le_div_iff₀ hsecond]

theorem waitTime_fst (tb : TokenBucket) (n now : Int) :
    (tb.waitTime n now).1 = if (n : ℚ) ≤ (tb.refill now).tokens then 0
      else toDuration ((n - (tb.refill now).tokens) / tb.rate * second) := by
  unfold TokenBucket.waitTime
  dsimp only
  split <;> rfl

/-- **`WaitTime` is exact to a nanosecond.**  Until then `AllowN` refuses, and from the next
nanosecond on it does not, if the wait fits into a `Duration` — unless the capacity is too small,
and it always will. -/
theorem wait_time_exact (hrate : 0 < tb.rate) (hlater : now ≤ later) :
    (later < now + (tb.waitTime n now).1 → ((tb.waitTime n now).2.allowN n later).1 = false)
      ∧ ((n - (tb.refill now).tokens) / tb.rate * second < 2 ^ 63 →
          now + (tb.waitTime n now).1 < later → (n : ℚ) ≤ tb.capacity →
          ((tb.waitTime n now).2.allowN n later).1 = true)
      ∧ (tb.capacity < n → ((tb.waitTime n now).2.allowN n later).1 = false) := by
  have hiff := allowN_after_wait_iff hrate n now later
  have hzero : (0 : ℚ) ≤ ((later - now : Int) : ℚ) := by exact_mod_cast sub_nonneg.mpr hlater
  rw [← Bool.not_eq_true, hiff, waitTime_fst]
  refine ⟨?_, ?_, fun hcap h => not_le.mpr hcap h.1⟩
  · intro hearly h
    split at hearly
    next => omega
    next =>
    unfold toDuration at hearly
    split at hearly
    next =>
      -- an integer below the floor is below the exact wait
      have hlt : later - now < ⌊(n - (tb.refill now).tokens) / tb.rate * second⌋ := by omega
      exact absurd (Int.floor_le_iff.mpr (lt_of_le_of_lt h.2 (lt_add_one _))) (not_le.mpr hlt)
    next => omega
  · intro hfits hlate hcap
    refine ⟨hcap, ?_⟩
    split at hlate
    next henough =>
      refine le_trans (mul_nonpos_of_nonpos_of_nonneg ?_ ?_) hzero
      · exact div_nonpos_of_nonpos_of_nonneg (sub_nonpos.mpr henough) hrate.le
      · norm_num [second]
    next =>
      rw [toDuration, if_pos hfits] at hlate
      exact (Int.floor_lt.mp (by omega)).le

/-- Eleven tokens never fit into ten; `WaitTime` says a tenth of a second. -/
theorem wait_time_of_eleven :
    ((TokenBucket.new 10 10 0).waitTime 11 0).1 = second / 10
      ∧ (((TokenBucket.new 10 10 0).waitTime 11 0).2.allowN 11 second).1 = false :=
  ⟨by decide +kernel,
    (wait_time_exact (by norm_num [TokenBucket.new]) (by decide)).2.2
      (by norm_num [TokenBucket.new])⟩

end Conformance

end AiScheduler
