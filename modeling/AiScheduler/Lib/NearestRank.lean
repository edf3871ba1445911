/-
  **PERCENTILES BY NEAREST RANK.**

  In a sorted list the entry at index `i` has at least `i + 1` entries up to it, and a smaller
  value has at most `i`. The entry of rank `⌈q·n⌉` is therefore THE LEAST ENTRY THAT A FRACTION
  `q` OF ALL ENTRIES DOES NOT EXCEED.
-/
import Mathlib.Data.List.Sort
import Mathlib.Data.Rat.Floor
import Mathlib.Order.Bounds.Basic

namespace AiScheduler.Lib

open List

variable {α : Type} [LinearOrder α] {xs : List α} {i : Nat}

/-- The entries up to the one at `i` are `i + 1` at least. -/
theorem lt_countP_le_getElem (h : xs.Pairwise (· ≤ ·)) (hi : i < xs.length) :
    i < xs.countP (· ≤ xs[i]) := by
  have hall : ∀ v ∈ xs.take (i + 1), decide (v ≤ xs[i]) = true := by
    intro v hv
    obtain ⟨j, hj, rfl⟩ := mem_take_iff_getElem.mp hv
    exact decide_eq_true (h.sortedLE.getElem_le_getElem_of_le (by omega))
  refine lt_of_lt_of_le ?_ (take_sublist (i + 1) xs).countP_le
  rw [countP_eq_length.mpr hall, length_take]
  omega

/-- The entries up to a value below the one at `i` are `i` at most. -/
theorem countP_le_of_lt_getElem (h : xs.Pairwise (· ≤ ·)) (hi : i < xs.length) {w : α}
    (hw : w < xs[i]) : xs.countP (· ≤ w) ≤ i := by
  have hnone : ∀ v ∈ xs.drop i, ¬ decide (v ≤ w) = true := by
    intro v hv
    obtain ⟨j, hj, rfl⟩ := mem_drop_iff_getElem.mp hv
    have hle : xs[i] ≤ xs[i + j] := h.sortedLE.getElem_le_getElem_of_le (by omega)
    exact fun hvw => absurd (of_decide_eq_true hvw) (not_le.mpr (hw.trans_le hle))
  calc xs.countP (· ≤ w) = (xs.take i).countP (· ≤ w) + (xs.drop i).countP (· ≤ w) := by
        rw [← countP_append, take_append_drop]
    _ = (xs.take i).countP (· ≤ w) := by rw [countP_eq_zero.mpr hnone, Nat.add_zero]
    _ ≤ (xs.take i).length := countP_le_length
    _ ≤ i := length_take_le i xs

/-- **THE ENTRY OF RANK `⌈q·n⌉`** is the least one with a fraction `q` of the
entries up to it. -/
theorem isLeast_nearestRank (h : xs.Pairwise (· ≤ ·)) {q : ℚ} (hi : i < xs.length)
    (hlo : (i : ℚ) < q * xs.length) (hhi : q * xs.length ≤ i + 1) :
    IsLeast {v | v ∈ xs ∧ q * xs.length ≤ xs.countP (· ≤ v)} xs[i] := by
  constructor
  · refine ⟨getElem_mem hi, hhi.trans ?_⟩
    exact_mod_cast lt_countP_le_getElem h hi
  · rintro v ⟨_, hv⟩
    by_contra hlt
    have hcount : (xs.countP (· ≤ v) : ℚ) ≤ i := by
      exact_mod_cast countP_le_of_lt_getElem h hi (not_le.mp hlt)
    exact absurd (hlo.trans_le (hv.trans hcount)) (lt_irrefl _)

end AiScheduler.Lib
