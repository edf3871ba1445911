/-
  **`ComputeStats` IS ORDER STATISTICS of the recorded durations.**

  Everything is read off the sorted durations, which are the same for every
  order of the instances.  The index of `percentile` is the nearest rank, and
  its two clamps never apply to 50 and 95 percent.
-/
import AiScheduler.Ai.Durations
import AiScheduler.Lib.NearestRank
import Mathlib.Algebra.Order.BigOperators.Group.List
import Mathlib.Data.List.GetD
import Mathlib.Tactic.Linarith

namespace AiScheduler.Durations

open Lib List

variable {sorted : List ℚ} {p : ℚ}

/-! ## Which instances are recorded. -/

/-- An instance with a duration: it ended, and has both times of its run in order, or a dispatch
time. -/
def Recorded (inst : TaskInstance) : Prop :=
  (inst.status = .success ∨ inst.status = .failed)
    ∧ (inst.startedAt ≠ 0 ∧ inst.finishedAt ≠ 0 ∧ inst.startedAt ≤ inst.finishedAt
      ∨ inst.dispatchTime ≠ 0)

instance (inst : TaskInstance) : Decidable (Recorded inst) :=
  inferInstanceAs (Decidable (_ ∧ _))

theorem seconds_sub_nonneg_iff (t u : Int) : 0 ≤ seconds (sub t u) ↔ u ≤ t := by
  have hsecond : (0 : ℚ) < (second : ℚ) := by norm_num [second]
  unfold seconds
  rw [le_div_iff₀ hsecond, zero_mul, Int.cast_nonneg_iff]
  unfold sub
  omega

theorem duration_isSome_iff (inst : TaskInstance) :
    (duration inst).isSome = true ↔ Recorded inst := by
  have hrun := seconds_sub_nonneg_iff inst.finishedAt inst.startedAt
  unfold duration Recorded
  dsimp only
  by_cases hstatus : inst.status = .success ∨ inst.status = .failed
  · rw [if_neg (by tauto)]
    split
    next h => simp [hstatus, h.1, h.2.1, hrun.mp h.2.2]
    next h =>
      rw [ge_iff_le, hrun] at h
      split
      next hdispatch => simp [h, hdispatch]
      next hdispatch => simp [hstatus, hdispatch]
  · rw [if_pos (by tauto)]
    simp [hstatus]

theorem length_durations (instances : List TaskInstance) :
    (durations instances).length = instances.countP (fun inst => Recorded inst) := by
  unfold durations
  rw [length_filterMap_eq_countP]
  exact countP_congr (fun inst _ => by rw [duration_isSome_iff, decide_eq_true_iff])

/-! ## Percentiles. -/

/-- The entries that `p` percent of the entries do not exceed. -/
def Covering (xs : List ℚ) (p : ℚ) : Set ℚ :=
  {v | v ∈ xs ∧ p / 100 * xs.length ≤ xs.countP (· ≤ v)}

theorem covering_of_perm {xs : List ℚ} (h : sorted.Perm xs) :
    Covering sorted p = Covering xs p := by
  unfold Covering
  simp only [h.mem_iff, h.length_eq, h.countP_eq]

/-- **`percentile` OF A SORTED LIST**, up to 100 percent, is the least such
entry. -/
theorem percentile_isLeast (h : sorted.Pairwise (· ≤ ·)) (hne : 0 < sorted.length) (hp : 0 < p)
    (hp' : p ≤ 100) : IsLeast (Covering sorted p) (percentile sorted p) := by
  have hn : (0 : ℚ) < sorted.length := by exact_mod_cast hne
  have hpos : 0 < p / 100 * sorted.length := mul_pos (by linarith) hn
  have hle : p / 100 * sorted.length ≤ sorted.length :=
    mul_le_of_le_one_left hn.le (by linarith)
  have hceil : 0 < ⌈p / 100 * sorted.length⌉ := Int.ceil_pos.mpr hpos
  have hceil' : ⌈p / 100 * sorted.length⌉ ≤ sorted.length := Int.ceil_le.mpr (by exact_mod_cast hle)
  obtain ⟨i, hi⟩ : ∃ i : Nat, ⌈p / 100 * sorted.length⌉ = i + 1 :=
    ⟨(⌈p / 100 * sorted.length⌉ - 1).toNat, by omega⟩
  have hlt : i < sorted.length := by omega
  -- neither clamp applies
  have hvalue : percentile sorted p = sorted[i] := by
    unfold percentile
    rw [if_neg (by omega), hi]
    dsimp only
    rw [if_neg (by omega), if_neg (by omega)]
    simp [hlt]
  obtain ⟨hbelow, habove⟩ := Int.ceil_eq_iff.mp hi
  push_cast at hbelow habove
  rw [hvalue]
  exact isLeast_nearestRank h hlt (by linarith) habove

theorem covering_anti {xs : List ℚ} {q : ℚ} (hpq : p ≤ q) : Covering xs q ⊆ Covering xs p := by
  rintro v ⟨hv, hq⟩
  have hle : p / 100 * xs.length ≤ q / 100 * xs.length :=
    mul_le_mul_of_nonneg_right (by linarith) (Nat.cast_nonneg _)
  exact ⟨hv, hle.trans hq⟩

/-! ## The ends and the average. -/

theorem getD_zero_le (h : sorted.Pairwise (· ≤ ·)) {v : ℚ} (hv : v ∈ sorted) :
    sorted.getD 0 0 ≤ v := by
  obtain ⟨i, hi, rfl⟩ := getElem_of_mem hv
  rw [getD_eq_getElem _ _ (by omega)]
  exact h.sortedLE.getElem_le_getElem_of_le (Nat.zero_le i)

theorem le_getD_last (h : sorted.Pairwise (· ≤ ·)) {v : ℚ} (hv : v ∈ sorted) :
    v ≤ sorted.getD (sorted.length - 1) 0 := by
  obtain ⟨i, hi, rfl⟩ := getElem_of_mem hv
  rw [getD_eq_getElem _ _ (by omega)]
  exact h.sortedLE.getElem_le_getElem_of_le (by omega)

theorem average_between {xs : List ℚ} (hne : 0 < xs.length) {lo hi : ℚ} (hlo : ∀ v ∈ xs, lo ≤ v)
    (hhi : ∀ v ∈ xs, v ≤ hi) :
    lo ≤ xs.foldl (· + ·) 0 / xs.length ∧ xs.foldl (· + ·) 0 / xs.length ≤ hi := by
  have hn : (0 : ℚ) < xs.length := by exact_mod_cast hne
  have hlower := card_nsmul_le_sum xs lo hlo
  have hupper := sum_le_card_nsmul xs hi hhi
  rw [nsmul_eq_mul, mul_comm] at hlower hupper
  rw [← sum_eq_foldl]
  exact ⟨(le_div_iff₀ hn).mpr hlower, (div_le_iff₀ hn).mpr hupper⟩

/-! ## The statistics. -/

theorem sort_of_perm {xs ys : List ℚ} (h : xs.Perm ys) :
    xs.insertionSort (· ≤ ·) = ys.insertionSort (· ≤ ·) :=
  (((perm_insertionSort _ xs).trans h).trans (perm_insertionSort _ ys).symm).eq_of_pairwise'
    (pairwise_insertionSort _ xs) (pairwise_insertionSort _ ys)

theorem computeStats_of_perm {instances instances' : List TaskInstance}
    (h : instances'.Perm instances) : computeStats instances' = computeStats instances := by
  have hdurations : (durations instances').Perm (durations instances) := h.filterMap duration
  unfold computeStats
  dsimp only
  rw [hdurations.length_eq, sort_of_perm hdurations]

theorem computeStats_count (instances : List TaskInstance) :
    (computeStats instances).count = (durations instances).length := by
  unfold computeStats
  dsimp only
  split
  next h => exact h.symm
  next => rfl

/-- **`ComputeStats` IS ORDER STATISTICS**: `Count` counts the recorded instances in any order, and
P50 and P95 are the least recorded durations that 50 and 95 percent of them do not exceed. -/
theorem computeStats_correct (instances : List TaskInstance) :
    (computeStats instances).count = instances.countP (fun inst => Recorded inst)
      ∧ (∀ instances', instances'.Perm instances → computeStats instances' = computeStats instances)
      ∧ (0 < (computeStats instances).count →
          ((computeStats instances).minDuration ≤ (computeStats instances).p50Duration
              ∧ (computeStats instances).p50Duration ≤ (computeStats instances).p95Duration
              ∧ (computeStats instances).p95Duration ≤ (computeStats instances).maxDuration)
            ∧ ((computeStats instances).minDuration ≤ (computeStats instances).avgDuration
              ∧ (computeStats instances).avgDuration ≤ (computeStats instances).maxDuration)
            ∧ IsLeast (Covering (durations instances) 50) (computeStats instances).p50Duration
            ∧ IsLeast (Covering (durations instances) 95)
                (computeStats instances).p95Duration) := by
  refine ⟨by rw [computeStats_count, length_durations], fun _ => computeStats_of_perm, ?_⟩
  intro hpos
  rw [computeStats_count] at hpos
  have hperm := perm_insertionSort (· ≤ ·) (durations instances)
  have hsorted := pairwise_insertionSort (· ≤ ·) (durations instances)
  have hne : 0 < ((durations instances).insertionSort (· ≤ ·)).length := by rwa [hperm.length_eq]
  unfold computeStats
  dsimp only
  rw [if_neg (by omega), ← covering_of_perm hperm, ← covering_of_perm hperm]
  dsimp only
  generalize (durations instances).insertionSort (· ≤ ·) = sorted at hsorted hne
  -- from here on only the sorted list is looked at
  have h50 := percentile_isLeast hsorted hne (p := 50) (by norm_num) (by norm_num)
  have h95 := percentile_isLeast hsorted hne (p := 95) (by norm_num) (by norm_num)
  refine ⟨⟨getD_zero_le hsorted h50.1.1, h50.2 (covering_anti (by norm_num) h95.1),
    le_getD_last hsorted h95.1.1⟩, ?_, h50, h95⟩
  exact average_between hne (fun v => getD_zero_le hsorted) (fun v => le_getD_last hsorted)

/-- Runs of four and two seconds, and an instance that was only dispatched. -/
def threeInstances : List TaskInstance :=
  [{ status := .success, startedAt := second, finishedAt := 5 * second },
    { status := .failed, dispatchTime := second },
    { status := .success, startedAt := second, finishedAt := 3 * second }]

theorem computeStats_of_three :
    (computeStats threeInstances).count = 3 ∧ (computeStats threeInstances).p50Duration = 2
      ∧ (computeStats threeInstances).p50Duration ≤ (computeStats threeInstances).p95Duration :=
  ⟨by decide +kernel, by decide +kernel,
    ((computeStats_correct threeInstances).2.2 (by decide +kernel)).1.2.1⟩

end AiScheduler.Durations
