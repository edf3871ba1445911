/-
  **WHEN THE TIMING WHEEL FIRES.**

  `Add` counts ticks from the UNIX EPOCH; the cursor counts the ticks since the wheel was CREATED.
  A task comes out on time exactly when the two counts agree, up to the rounding of a tick, modulo
  the wheel size (`InStep`).
-/
import AiScheduler.Proofs.Wheel
import Mathlib.Algebra.Order.Group.Unbundled.Int
import Mathlib.Algebra.Order.Ring.Int

namespace AiScheduler.TimingWheel

/-! ## Ticks in time. -/

/-- The time of the `k`-th tick of a wheel created at `t0`. -/
def tickTime (tw : TimingWheel) (t0 : Int) (k : Nat) : Int := t0 + k * tw.tickDuration

/-- The task is returned whatever else is done to the wheel, first by a tick not before its trigger
time and at most one tick after it. -/
def FiresOnTime (tw : TimingWheel) (t0 : Int) (j : Nat) (id triggerTime : Int) : Prop :=
  ∃ tw', tw.add id triggerTime = some tw' ∧ ∀ after outs tw'', (∀ op ∈ after, ¬ op.touches id) →
        wheelRun tw' after = some (outs, tw'') → tw.slots.length ≤ ticks after →
        ∃ k, id ∈ outs.getD k [] ∧ (∀ k' < k, id ∉ outs.getD k' [])
          ∧ triggerTime ≤ tw.tickTime t0 (j + (k + 1))
          ∧ tw.tickTime t0 (j + (k + 1)) ≤ triggerTime + tw.tickDuration

/-- The trigger time's tick numbers since the epoch and since the creation are IN STEP modulo the
wheel size: the first is one ahead, before the end of the turn, or they are equal and the time falls
on a tick. -/
def InStep (tw : TimingWheel) (t0 : Int) (j : Nat) (triggerTime : Int) : Prop :=
  let sinceEpoch := (unixNano triggerTime).tdiv tw.tickDuration
  let sinceCreation := (triggerTime - t0) / tw.tickDuration
  tw.Indexable triggerTime ∧ (((tw.slots.length : Int) ∣ sinceEpoch - (sinceCreation + 1)
          ∧ triggerTime < tw.tickTime t0 (j + tw.slots.length))
        ∨ ((tw.slots.length : Int) ∣ sinceEpoch - sinceCreation
          ∧ tw.tickDuration ∣ triggerTime - t0))

instance (tw : TimingWheel) (t0 : Int) (j : Nat) (triggerTime : Int) :
    Decidable (tw.InStep t0 j triggerTime) :=
  inferInstanceAs (Decidable (_ ∧ (_ ∧ _ ∨ _ ∧ _)))

/-! ## The tick in the window. -/

theorem window_iff {d : Int} (hd : 0 < d) (x K : Int) :
    (x ≤ K * d ∧ K * d ≤ x + d) ↔ K = x / d + 1 ∨ (K = x / d ∧ d ∣ x) := by
  have hlo : x / d * d ≤ x := Int.ediv_mul_le x (Int.ne_of_gt hd)
  have hhi : x < (x / d + 1) * d := Int.lt_ediv_add_one_mul_self x hd
  constructor
  · rintro ⟨hle, hge⟩
    -- within one tick after `x` there is room for two multiples of `d` at most
    have hK : K - 1 ≤ x / d := by
      rw [Int.le_ediv_iff_mul_le hd, Int.sub_mul, Int.one_mul]
      omega
    have hK' : x / d ≤ K := Int.le_of_mul_le_mul_right (Int.le_trans hlo hle) hd
    by_cases heq : K = x / d + 1
    · exact .inl heq
    have hK'' : K = x / d := by omega
    refine .inr ⟨hK'', ?_⟩
    rw [hK''] at hle
    exact ⟨x / d, by rw [Int.mul_comm]; omega⟩
  · rintro (rfl | ⟨rfl, hdvd⟩)
    · rw [Int.add_mul, Int.one_mul] at hhi ⊢
      omega
    · rw [Int.ediv_mul_cancel hdvd]
      omega

theorem eq_of_dvd_of_turn {n j K K' u : Int} (hK : j < K ∧ K ≤ j + n)
    (hK' : j < K' ∧ K' ≤ j + n) (hu : n ∣ u - K) (hu' : n ∣ u - K') : K = K' := by
  have hdvd : n ∣ K - K' := by
    have := Int.dvd_sub hu' hu
    rwa [show u - K' - (u - K) = K - K' by omega] at this
  -- the numbers of one turn differ by less than `n`
  have hzero := Int.eq_zero_of_abs_lt_dvd hdvd (by rw [abs_lt]; omega)
  omega

/-- **The tick that visits the slot is in the window exactly when the counts are in step.** -/
theorem window_inStep_iff {d n t0 T : Int} {j K u : Int} (hd : 0 < d)
    (hK : j < K ∧ K ≤ j + n) (hu : n ∣ u - K) (hlo : t0 + j * d < T)
    (hhi : T < t0 + (j + 1 + n) * d) :
    (T ≤ t0 + K * d ∧ t0 + K * d ≤ T + d) ↔ (n ∣ u - ((T - t0) / d + 1) ∧ T < t0 + (j + n) * d)
        ∨ (n ∣ u - (T - t0) / d ∧ d ∣ T - t0) := by
  have hwin : (T ≤ t0 + K * d ∧ t0 + K * d ≤ T + d) ↔ (T - t0 ≤ K * d ∧ K * d ≤ T - t0 + d) := by
    constructor
    · rintro ⟨h₁, h₂⟩
      exact ⟨by omega, by omega⟩
    · rintro ⟨h₁, h₂⟩
      exact ⟨by omega, by omega⟩
  -- the trigger time is in the turn that starts now, or in the tick after it
  have hj : j ≤ (T - t0) / d := by
    rw [Int.le_ediv_iff_mul_le hd]
    omega
  have hjn : (T - t0) / d < j + 1 + n := by
    rw [Int.ediv_lt_iff_lt_mul hd]
    omega
  have hend : T < t0 + (j + n) * d ↔ (T - t0) / d < j + n := by
    rw [Int.ediv_lt_iff_lt_mul hd]
    omega
  rw [hwin, window_iff hd, hend]
  constructor
  · rintro (rfl | ⟨rfl, hdvd⟩)
    · exact .inl ⟨hu, by omega⟩
    · exact .inr ⟨hu, hdvd⟩
  · rintro (⟨hstep, hlt⟩ | ⟨hstep, hdvd⟩)
    · exact .inl (eq_of_dvd_of_turn hK ⟨by omega, by omega⟩ hu hstep)
    · -- a trigger time on a tick is after the last tick, not on it
      have hne : (T - t0) / d ≠ j := by
        intro heq
        have := Int.ediv_mul_cancel hdvd
        rw [heq] at this
        omega
      exact .inr ⟨eq_of_dvd_of_turn hK ⟨by omega, by omega⟩ hu hstep, hdvd⟩

/-! ## When a task fires on time. -/

section Fires

variable {tickDuration wheelSize : Int} {before : List WheelOp} {outs : List (List Int)}
  {tw : TimingWheel} {id t0 a triggerTime : Int}

/-- The tick that returns a task is its trigger time's tick number, modulo the wheel size. -/
theorem exists_firing_tick (hrun : wheelRun (new tickDuration wheelSize) before = some (outs, tw))
    (hnew : ¬ tw.Pending id) {tw' : TimingWheel} (hadd : tw.add id triggerTime = some tw') :
    ∃ m : Nat, 0 < m ∧ m ≤ tw.slots.length
      ∧ (tw.slots.length : Int) ∣ (unixNano triggerTime).tdiv tw.tickDuration
          - ((ticks before + m : Nat) : Int)
      ∧ ∀ after outs' tw'', (∀ op ∈ after, ¬ op.touches id) →
          wheelRun tw' after = some (outs', tw'') → tw.slots.length ≤ ticks after →
          ∀ k, id ∈ outs'.getD k [] ↔ k + 1 = m := by
  have hw := (wellFormed_new tickDuration wheelSize).run hrun
  -- the id is in one slot, and the `m`-th tick from now visits it
  obtain ⟨p, m, hp, hdue⟩ := dueIn_of_add hw hnew hadd
  have hlen := length_add hadd
  have hturn := hdue.turn
  rw [hlen] at hturn
  refine ⟨m, hdue.pos, hturn, ?_, ?_⟩
  · -- the cursor is the number of ticks so far, modulo the wheel size
    have hcur : tw.currentPos = (0 + ticks before) % tw.slots.length := by
      rw [(sizes_run hrun).1]
      exact currentPos_run hrun (wellFormed_new tickDuration wheelSize).size_pos
    have hvisit := hdue.visits
    rw [hlen, (add_eq_some hadd).2.2, hcur, Nat.mod_add_mod, Nat.zero_add] at hvisit
    have hticks : ((ticks before + m : Nat) : Int) ≡ p [ZMOD (tw.slots.length : Int)] := by
      show ((ticks before + m : Nat) : Int) % _ = (p : Int) % _
      rw [← hvisit]
      push_cast
      rw [Int.emod_emod_of_dvd _ (Int.dvd_refl _)]
    rw [hp] at hticks
    exact (hticks.trans (position_modEq tw triggerTime)).dvd
  intro after outs' tw'' hops hafter hlong k
  rw [run_pending hafter hdue hops, length_outs hafter]
  constructor
  · exact And.left
  · intro hk
    exact ⟨hk, by omega⟩

/-- **A task of the coming turn fires on time exactly when the counts are in step.** -/
theorem firesOnTime_iff_inStep
    (hrun : wheelRun (new tickDuration wheelSize) before = some (outs, tw))
    (hnew : ¬ tw.Pending id) (hlo : t0 + (ticks before : Int) * tw.tickDuration < triggerTime)
    (hhi : triggerTime < t0 + ((ticks before : Int) + 1 + tw.slots.length) * tw.tickDuration) :
    tw.FiresOnTime t0 (ticks before) id triggerTime ↔ tw.InStep t0 (ticks before) triggerTime := by
  have hw := (wellFormed_new tickDuration wheelSize).run hrun
  have hd := hw.tick_pos
  -- the tick that returns the task is known; what is left is whether its time is right
  have hinStep : ∀ m : Nat, 0 < m → m ≤ tw.slots.length →
      (tw.slots.length : Int) ∣ (unixNano triggerTime).tdiv tw.tickDuration
        - ((ticks before + m : Nat) : Int) → tw.Indexable triggerTime →
      ((triggerTime ≤ tw.tickTime t0 (ticks before + m)
          ∧ tw.tickTime t0 (ticks before + m) ≤ triggerTime + tw.tickDuration)
        ↔ tw.InStep t0 (ticks before) triggerTime) := by
    intro m hm hmn hdvd hindex
    have hwin := window_inStep_iff (K := ((ticks before + m : Nat) : Int)) hd
      ⟨by omega, by omega⟩ hdvd hlo hhi
    unfold tickTime InStep tickTime
    dsimp only
    rw [hwin]
    push_cast
    constructor
    · intro h
      exact ⟨hindex, h⟩
    · intro h
      exact h.2
  constructor
  · rintro ⟨tw', hadd, hfires⟩
    obtain ⟨m, hm, hmn, hdvd, hout⟩ := exists_firing_tick hrun hnew hadd
    have hindex := (isSome_add_iff hd hw.size_pos id triggerTime).mp (by rw [hadd]; rfl)
    -- a turn of ticks and nothing else
    have hquiet : ∀ op ∈ List.replicate tw.slots.length WheelOp.tick, op = .tick :=
      fun op hop => List.eq_of_mem_replicate hop
    obtain ⟨outs', tw'', hturn⟩ : ∃ outs' tw'',
        wheelRun tw' (List.replicate tw.slots.length .tick) = some (outs', tw'') := by
      apply run_isSome (hw.add hadd)
      intro id' t' hmem
      cases hquiet _ hmem
    have htouch : ∀ op ∈ List.replicate tw.slots.length WheelOp.tick, ¬ op.touches id := by
      intro op hop
      rw [hquiet op hop]
      exact not_false
    have hlong : tw.slots.length ≤ ticks (List.replicate tw.slots.length .tick) := by
      rw [ticks_replicate]
    obtain ⟨k, hk, _, htime⟩ := hfires _ outs' tw'' htouch hturn hlong
    have hkm := (hout _ outs' tw'' htouch hturn hlong k).mp hk
    rw [hkm] at htime
    exact (hinStep m hm hmn hdvd hindex).mp htime
  · intro hstep
    obtain ⟨tw', hadd⟩ :=
      Option.isSome_iff_exists.mp ((isSome_add_iff hd hw.size_pos id triggerTime).mpr hstep.1)
    obtain ⟨m, hm, hmn, hdvd, hout⟩ := exists_firing_tick hrun hnew hadd
    refine ⟨tw', hadd, ?_⟩
    intro after outs' tw'' hops hafter hlong
    have htick := hout after outs' tw'' hops hafter hlong
    refine ⟨m - 1, (htick (m - 1)).mpr (by omega), ?_, ?_⟩
    · intro k' hk' hmem
      have := (htick k').mp hmem
      omega
    · rw [show m - 1 + 1 = m by omega]
      exact (hinStep m hm hmn hdvd hstep.1).mpr hstep

/-- **A task added less than the wheel's span ahead fires on time exactly when the counts are in
step.** -/
theorem fires_on_time_iff (hrun : wheelRun (new tickDuration wheelSize) before = some (outs, tw))
    (hnew : ¬ tw.Pending id) (hlast : tw.tickTime t0 (ticks before) ≤ a)
    (hnext : a ≤ tw.tickTime t0 (ticks before + 1)) (hlater : a < triggerTime)
    (hspan : triggerTime < a + tw.slotSpan) :
    tw.FiresOnTime t0 (ticks before) id triggerTime ↔ tw.InStep t0 (ticks before) triggerTime := by
  have hw := (wellFormed_new tickDuration wheelSize).run hrun
  have hspan' : tw.slotSpan ≤ tw.tickDuration * tw.slots.length :=
    wrap64_le (Int.mul_nonneg (Int.le_of_lt hw.tick_pos) (Int.natCast_nonneg _))
  unfold tickTime at hlast hnext
  refine firesOnTime_iff_inStep hrun hnew (by omega) ?_
  rw [Int.add_mul, Int.mul_comm (tw.slots.length : Int)]
  push_cast at hnext
  omega

/-- A wheel of sixty seconds created on a full minute of the epoch's clock. -/
theorem fires_on_time_full_minute :
    (new second 60).InStep unixEpoch 0 (unixEpoch + 5 * second)
      ∧ (new second 60).FiresOnTime unixEpoch 0 1 (unixEpoch + 5 * second) := by
  have hstep : (new second 60).InStep unixEpoch 0 (unixEpoch + 5 * second) := by decide
  have hrun : wheelRun (new second 60) [] = some ([], new second 60) := rfl
  exact ⟨hstep, (fires_on_time_iff (a := unixEpoch) hrun (not_pending_new second 60 1) (by decide)
    (by decide) (by decide) (by decide)).mpr hstep⟩

/-- The same wheel created half a minute later returns the task thirty seconds early. -/
theorem fires_half_minute_early :
    (wheelRun (new second 60)
        (.add 1 (unixEpoch + 70 * second) :: List.replicate 10 .tick)).map Prod.fst
          = some (List.replicate 9 [] ++ [[1]])
      ∧ unixEpoch + 30 * second < unixEpoch + 70 * second
      ∧ unixEpoch + 70 * second < unixEpoch + 30 * second + (new second 60).slotSpan
      ∧ ¬ (new second 60).FiresOnTime (unixEpoch + 30 * second) 0 1 (unixEpoch + 70 * second) := by
  refine ⟨by decide, by decide, by decide, ?_⟩
  have hrun : wheelRun (new second 60) [] = some ([], new second 60) := rfl
  intro hfires
  have hstep := (firesOnTime_iff_inStep hrun (not_pending_new second 60 1) (by decide)
    (by decide)).mp hfires
  revert hstep
  decide

end Fires

/-! ## The creation time decides. -/

theorem sub_ediv {d : Int} (hd : 0 < d) (x c : Int) :
    (x - c) / d = x / d - c / d - if x % d < c % d then 1 else 0 := by
  have hx := Int.mul_ediv_add_emod x d
  have hc := Int.mul_ediv_add_emod c d
  have hx₀ := Int.emod_nonneg x (Int.ne_of_gt hd)
  have hx₁ := Int.emod_lt_of_pos x hd
  have hc₀ := Int.emod_nonneg c (Int.ne_of_gt hd)
  have hc₁ := Int.emod_lt_of_pos c hd
  split
  -- a borrow: the remainder of the difference is one `d` more
  next hlt =>
    refine ((Int.ediv_emod_unique hd).mpr ⟨?_, (?_ : 0 ≤ x % d - c % d + d), by omega⟩).1
    · rw [Int.mul_sub, Int.mul_sub]
      omega
    · omega
  next hge =>
    refine ((Int.ediv_emod_unique hd).mpr ⟨?_, (?_ : 0 ≤ x % d - c % d), by omega⟩).1
    · rw [Int.mul_sub, Int.mul_sub]
      omega
    · omega

/-- **From 1970 to 2262 the creation time decides**: it lies in the first tick of a turn of the
epoch's clock, or in the second, and the trigger time in its tick before or after it. -/
theorem inStep_iff_created {tw : TimingWheel} (h : tw.WellFormed) {t0 triggerTime : Int} {j : Nat}
    (hlo : unixEpoch ≤ triggerTime) (hhi : triggerTime < unixEpoch + 9223372036854775808) :
    tw.InStep t0 j triggerTime ↔ ((((tw.slots.length : Int) ∣ (t0 - unixEpoch) / tw.tickDuration
              ∧ (triggerTime - unixEpoch) % tw.tickDuration < (t0 - unixEpoch) % tw.tickDuration)
            ∨ ((tw.slots.length : Int) ∣ (t0 - unixEpoch) / tw.tickDuration - 1
              ∧ (t0 - unixEpoch) % tw.tickDuration ≤ (triggerTime - unixEpoch) % tw.tickDuration))
          ∧ triggerTime < tw.tickTime t0 (j + tw.slots.length))
        ∨ ((tw.slots.length : Int) ∣ (t0 - unixEpoch) / tw.tickDuration
            ∧ (triggerTime - unixEpoch) % tw.tickDuration
                = (t0 - unixEpoch) % tw.tickDuration) := by
  have hd := h.tick_pos
  -- in this range the nanosecond count does not overflow and is not negative
  have hnano : unixNano triggerTime = triggerTime - unixEpoch :=
    wrap64_of_range (by omega) (by omega)
  have hindex : tw.Indexable triggerTime := .inl (by omega)
  have hdvd : tw.tickDuration ∣ triggerTime - t0
      ↔ (triggerTime - unixEpoch) % tw.tickDuration = (t0 - unixEpoch) % tw.tickDuration := by
    rw [Int.emod_eq_emod_iff_emod_sub_eq_zero, ← Int.dvd_iff_emod_eq_zero]
    rw [show triggerTime - unixEpoch - (t0 - unixEpoch) = triggerTime - t0 by omega]
  have hquot := sub_ediv hd (triggerTime - unixEpoch) (t0 - unixEpoch)
  rw [show triggerTime - unixEpoch - (t0 - unixEpoch) = triggerTime - t0 by omega] at hquot
  unfold InStep
  dsimp only
  rw [hnano, Int.tdiv_eq_ediv_of_nonneg (by omega), hquot, hdvd]
  generalize (triggerTime - unixEpoch) / tw.tickDuration = q
  generalize (t0 - unixEpoch) / tw.tickDuration = c
  -- does the trigger time lie earlier in its tick than the creation time in its own?
  by_cases hlt : (triggerTime - unixEpoch) % tw.tickDuration < (t0 - unixEpoch) % tw.tickDuration
  · rw [if_pos hlt, show q - (q - c - 1 + 1) = c by omega]
    grind
  · rw [if_neg hlt, Int.sub_zero, show q - (q - c + 1) = c - 1 by omega,
      show q - (q - c) = c by omega]
    grind

end AiScheduler.TimingWheel
