/-
  **WITHDRAWALS FROM A BOUNDED ACCOUNT.**

  An account holds at most `cap`, has earned `earned t` up to time `t`, and loses what would
  overflow. Withdrawals conform if each is covered by the level the last one left and what was
  earned since. In any window what is drawn is at most `cap` and what was earned in it
  (`Conforms.drawn_le`).
-/
import Mathlib.Algebra.Order.Group.Defs
import Mathlib.Algebra.BigOperators.Group.List.Basic
import Mathlib.Order.Monotone.Defs
import Mathlib.Tactic.Abel

namespace AiScheduler.Lib

variable {T K : Type} [LinearOrder T]

/-! ## Windows. -/

section Window

variable [AddCommMonoid K]

/-- What is drawn in a window. -/
def drawn (s t : T) (ws : List (T × K)) : K :=
  ((ws.filter (fun w => s ≤ w.1 ∧ w.1 ≤ t)).map Prod.snd).sum

theorem drawn_cons_of_mem {s t time : T} (hs : s ≤ time) (ht : time ≤ t) (amount : K)
    (ws : List (T × K)) : drawn s t ((time, amount) :: ws) = amount + drawn s t ws := by
  unfold drawn
  rw [List.filter_cons_of_pos (by simp [hs, ht]), List.map_cons, List.sum_cons]

theorem drawn_cons_of_not_mem {s t time : T} (h : ¬ (s ≤ time ∧ time ≤ t)) (amount : K)
    (ws : List (T × K)) : drawn s t ((time, amount) :: ws) = drawn s t ws := by
  unfold drawn
  rw [List.filter_cons_of_neg (by simpa using h)]

end Window

/-! ## The bound. -/

variable [AddCommGroup K] [LinearOrder K]

/-- Withdrawals, each a time and an amount, from an account with `level` at `time`. -/
inductive Conforms (cap : K) (earned : T → K) : K → T → List (T × K) → Prop where
  | nil (level : K) (time : T) : Conforms cap earned level time []
  | cons {level level' amount : K} {time t : T} {ws : List (T × K)} (later : time ≤ t)
      (covered : amount + level' ≤ level + (earned t - earned time))
      (bounded : amount + level' ≤ cap) (nonneg : 0 ≤ level')
      (rest : Conforms cap earned level' t ws) : Conforms cap earned level time ((t, amount) :: ws)

namespace Conforms

variable {cap level : K} {earned : T → K} {time s t : T} {ws : List (T × K)}

theorem time_le (h : Conforms cap earned level time ws) : ∀ w ∈ ws, time ≤ w.1 := by
  induction h with
  | nil =>
    intro w hw
    exact absurd hw (by simp)
  | @cons level level' amount time t ws later _ _ _ _ ih =>
    intro w hw
    rcases List.mem_cons.mp hw with rfl | hw
    · exact later
    · exact later.trans (ih w hw)

theorem drawn_eq_zero (h : Conforms cap earned level time ws) (ht : t < time) :
    drawn s t ws = 0 := by
  unfold drawn
  rw [List.filter_eq_nil_iff.mpr]
  · rfl
  · intro w hw hin
    have hin : s ≤ w.1 ∧ w.1 ≤ t := by simpa using hin
    exact absurd (h.time_le w hw) (not_le.mpr (lt_of_le_of_lt hin.2 ht))

variable [IsOrderedAddMonoid K]

/-- Up to `t`, at most the level and what is earned until then is drawn. -/
theorem drawn_le_level (hearned : Monotone earned) (h : Conforms cap earned level time ws)
    (hlevel : 0 ≤ level) (hs : s ≤ time) (ht : time ≤ t) :
    drawn s t ws ≤ level + (earned t - earned time) := by
  induction h with
  | nil => exact add_nonneg hlevel (sub_nonneg.mpr (hearned ht))
  | @cons level level' amount time t₁ ws later covered _ nonneg rest ih =>
    by_cases hin : t₁ ≤ t
    · rw [drawn_cons_of_mem (hs.trans later) hin]
      calc amount + drawn s t ws ≤ amount + (level' + (earned t - earned t₁)) :=
            add_le_add_right (ih nonneg (hs.trans later) hin) amount
        _ = (amount + level') + (earned t - earned t₁) := (add_assoc _ _ _).symm
        _ ≤ (level + (earned t₁ - earned time)) + (earned t - earned t₁) :=
            add_le_add_left covered _
        _ = level + (earned t - earned time) := by abel
    · -- this withdrawal and all after it are too late
      rw [drawn_cons_of_not_mem (fun h => hin h.2), rest.drawn_eq_zero (not_le.mp hin)]
      exact add_nonneg hlevel (sub_nonneg.mpr (hearned ht))

/-- **In any window at most `cap` and what is earned in the window is drawn.** -/
theorem drawn_le (hearned : Monotone earned) (hcap : 0 ≤ cap)
    (h : Conforms cap earned level time ws) (hst : s ≤ t) :
    drawn s t ws ≤ cap + (earned t - earned s) := by
  have hnone : 0 ≤ cap + (earned t - earned s) := add_nonneg hcap (sub_nonneg.mpr (hearned hst))
  induction h with
  | nil => exact hnone
  | @cons level level' amount time t₁ ws later _ bounded nonneg rest ih =>
    by_cases hbefore : t₁ < s
    · rw [drawn_cons_of_not_mem (fun h => absurd h.1 (not_le.mpr hbefore))]
      exact ih
    have hbefore : s ≤ t₁ := not_lt.mp hbefore
    by_cases hin : t₁ ≤ t
    · -- the first withdrawal of the window: from here on the level pays
      rw [drawn_cons_of_mem hbefore hin]
      calc amount + drawn s t ws ≤ amount + (level' + (earned t - earned t₁)) :=
            add_le_add_right (drawn_le_level hearned rest nonneg hbefore hin) amount
        _ = (amount + level') + (earned t - earned t₁) := (add_assoc _ _ _).symm
        _ ≤ cap + (earned t - earned s) :=
            add_le_add bounded (sub_le_sub_left (hearned hbefore) (earned t))
    · rw [drawn_cons_of_not_mem (fun h => hin h.2), rest.drawn_eq_zero (not_le.mp hin)]
      exact hnone

end Conforms

end AiScheduler.Lib
