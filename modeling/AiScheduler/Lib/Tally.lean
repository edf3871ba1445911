/-
  **COUNTING OVER THE THREADS OF A POOL.**

  A quantity every thread contributes to (tokens held, seats taken, …) is the
  `tally` of the contributions.  When one thread moves, only its own
  contribution changes; `tallyExcept` is what the others contribute.
-/
import Mathlib.Algebra.Order.BigOperators.Group.Finset

namespace AiScheduler.Lib

open Function

/-- The sum over the first `n` threads. -/
def tally (n : Nat) (f : Nat → Nat) : Nat := ∑ u ∈ Finset.range n, f u

/-- The sum over all of them but `t`. -/
def tallyExcept (n t : Nat) (f : Nat → Nat) : Nat := ∑ u ∈ (Finset.range n).erase t, f u

section Tally

variable {n t : Nat} {f f' : Nat → Nat}

theorem tally_eq_add (h : t < n) : tally n f = tallyExcept n t f + f t := by
  unfold tally tallyExcept
  rw [Finset.sum_erase_add _ _ (Finset.mem_range.mpr h)]

theorem tally_add (n : Nat) (f f' : Nat → Nat) :
    tally n (fun u => f u + f' u) = tally n f + tally n f' :=
  Finset.sum_add_distrib

theorem tallyExcept_le (h : ∀ u < n, u ≠ t → f u ≤ f' u) :
    tallyExcept n t f ≤ tallyExcept n t f' := by
  apply Finset.sum_le_sum
  intro u hu
  obtain ⟨hne, hlt⟩ := Finset.mem_erase.mp hu
  exact h u (Finset.mem_range.mp hlt) hne

theorem tallyExcept_eq_zero (h : ∀ u < n, u ≠ t → f u = 0) : tallyExcept n t f = 0 := by
  apply Finset.sum_eq_zero
  intro u hu
  obtain ⟨hne, hlt⟩ := Finset.mem_erase.mp hu
  exact h u (Finset.mem_range.mp hlt) hne

theorem le_tallyExcept {u : Nat} (hu : u < n) (hne : u ≠ t) : f u ≤ tallyExcept n t f :=
  Finset.single_le_sum (fun _ _ => Nat.zero_le _)
    (Finset.mem_erase.mpr ⟨hne, Finset.mem_range.mpr hu⟩)

theorem countP_le_tally {p : Nat → Bool} (h : ∀ u < n, p u = true → 1 ≤ f u) :
    (List.range n).countP p ≤ tally n f := by
  induction n with
  | zero => exact Nat.le_refl 0
  | succ n ih =>
  have hrest := ih (fun u hu => h u (Nat.lt_succ_of_lt hu))
  have hlast := h n (Nat.lt_succ_self n)
  rw [List.range_succ, List.countP_append, List.countP_singleton]
  unfold tally at hrest ⊢
  rw [Finset.sum_range_succ]
  split
  next hp =>
    have := hlast hp
    omega
  next => omega

end Tally

section Ghost

variable {σ : Type} {n t : Nat} {g : Nat → σ} {q : σ} (φ : σ → Nat)

theorem tallyExcept_update :
    tallyExcept n t (fun u => φ (update g t q u)) = tallyExcept n t (fun u => φ (g u)) := by
  apply Finset.sum_congr rfl
  intro u hu
  show φ (update g t q u) = φ (g u)
  rw [update_of_ne (Finset.mem_erase.mp hu).1]

theorem tally_update (h : t < n) :
    tally n (fun u => φ (update g t q u)) = tallyExcept n t (fun u => φ (g u)) + φ q := by
  rw [tally_eq_add h, tallyExcept_update, update_self]

theorem tally_succ_update :
    tally (n + 1) (fun u => φ (update g n q u)) = tally n (fun u => φ (g u)) + φ q := by
  unfold tally
  rw [Finset.sum_range_succ, update_self]
  congr 1
  apply Finset.sum_congr rfl
  intro u hu
  have hlt := Finset.mem_range.mp hu
  show φ (update g n q u) = φ (g u)
  rw [update_of_ne (by omega)]

end Ghost

end AiScheduler.Lib
