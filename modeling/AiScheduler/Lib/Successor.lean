/-
  **THE NEXT ELEMENT OF A SET AFTER A POINT, and the loop that looks for it.**

  `firstFrom p step n c` tries the `n` candidates `c`, `c + step`, `c + 2 step`, … in turn; `Next S
  a t` says that `t` is the LEAST element of `S` above `a`. Taken again and again it runs through
  the set in order (`Successive`).
-/
import Mathlib.Order.Bounds.Basic
import Mathlib.Data.List.Pairwise
import Mathlib.Data.Int.Order.Basic
import Mathlib.Tactic.Ring

namespace AiScheduler.Lib

/-! ## A bounded search. -/

/-- The first of the `n` candidates `c`, `c + step`, … that satisfies `p`. -/
def firstFrom (p : Int → Bool) (step : Int) : Nat → Int → Option Int
  | 0, _ => none
  | n + 1, c => if p c then some c else firstFrom p step n (c + step)

section Search

variable {p : Int → Bool} {step : Int}

theorem candidate_succ (step c : Int) (k : Nat) :
    c + ((k + 1 : Nat) : Int) * step = c + step + k * step := by
  push_cast
  ring

theorem candidate_zero (step c : Int) : c + ((0 : Nat) : Int) * step = c := by
  rw [Int.natCast_zero, Int.zero_mul, Int.add_zero]

theorem firstFrom_eq_none_iff : ∀ {n : Nat} {c : Int},
    firstFrom p step n c = none ↔ ∀ k : Nat, k < n → p (c + k * step) = false := by
  intro n
  induction n with
  | zero =>
    intro c
    constructor
    · intro _ k hk
      exact absurd hk (by omega)
    · intro _
      rfl
  | succ n ih =>
  intro c
  unfold firstFrom
  by_cases hp : p c = true
  · -- the first candidate is a hit
    rw [if_pos hp]
    constructor
    · intro h
      cases h
    · intro h
      have h₀ := h 0 (by omega)
      rw [candidate_zero, hp] at h₀
      cases h₀
  rw [if_neg hp, ih]
  constructor
  · intro h k hk
    cases k with
    | zero =>
      rw [candidate_zero]
      simpa using hp
    | succ k =>
      rw [candidate_succ]
      exact h k (by omega)
  · intro h k hk
    rw [← candidate_succ]
    exact h (k + 1) (by omega)

theorem firstFrom_eq_some : ∀ {n : Nat} {c t : Int}, firstFrom p step n c = some t →
    ∃ k : Nat, k < n ∧ t = c + k * step ∧ p t = true
      ∧ ∀ j : Nat, j < k → p (c + j * step) = false := by
  intro n
  induction n with
  | zero =>
    intro c t h
    simp [firstFrom] at h
  | succ n ih =>
  intro c t h
  unfold firstFrom at h
  split at h
  next hp =>
    injection h with h
    refine ⟨0, by omega, ?_, by rw [← h]; exact hp, fun j hj => absurd hj (by omega)⟩
    rw [candidate_zero, h]
  next hp =>
    obtain ⟨k, hk, ht, hpt, hbefore⟩ := ih h
    refine ⟨k + 1, by omega, by rw [ht, candidate_succ], hpt, ?_⟩
    intro j hj
    cases j with
    | zero =>
      rw [candidate_zero]
      simpa using hp
    | succ j =>
      rw [candidate_succ]
      exact hbefore j (by omega)

end Search

/-! ## The next element. -/

section Order

variable {α : Type} [LinearOrder α] {S : Set α} {a b t u : α}

/-- `t` is the least element of `S` above `a`. -/
def Next (S : Set α) (a t : α) : Prop := IsLeast (S ∩ Set.Ioi a) t

theorem Next.mem (h : Next S a t) : t ∈ S := h.1.1

theorem Next.lt (h : Next S a t) : a < t := h.1.2

theorem Next.le_of_mem (h : Next S a t) (hu : u ∈ S) (hau : a < u) : t ≤ u := h.2 ⟨hu, hau⟩

theorem Next.not_mem (h : Next S a t) (hau : a < u) (hut : u < t) : u ∉ S :=
  fun hu => absurd (h.le_of_mem hu hau) (not_le_of_gt hut)

theorem Next.mono (h : Next S a t) (h' : Next S b u) (hab : a ≤ b) : t ≤ u :=
  h.le_of_mem h'.mem (lt_of_le_of_lt hab h'.lt)

theorem Next.of_between (h : Next S a t) (hab : a ≤ b) (hbt : b < t) : Next S b t :=
  ⟨⟨h.mem, hbt⟩, fun _ hu => h.le_of_mem hu.1 (lt_of_le_of_lt hab hu.2)⟩

/-- Each element is the next after the one before it, the first after `a`. -/
def Successive (S : Set α) : α → List α → Prop
  | _, [] => True
  | a, t :: ts => Next S a t ∧ Successive S t ts

theorem Successive.lt {ts : List α} : ∀ {a : α}, Successive S a ts → ∀ u ∈ ts, a < u := by
  induction ts with
  | nil =>
    intro a _ u hu
    cases hu
  | cons t ts ih =>
    intro a h u hu
    rcases List.mem_cons.mp hu with rfl | hu
    · exact h.1.lt
    · exact lt_trans h.1.lt (ih h.2 u hu)

/-- **In increasing order**, so without repetition. -/
theorem Successive.pairwise {ts : List α} :
    ∀ {a : α}, Successive S a ts → ts.Pairwise (· < ·) := by
  induction ts with
  | nil =>
    intro a _
    exact List.Pairwise.nil
  | cons t ts ih =>
    intro a h
    exact List.pairwise_cons.mpr ⟨h.2.lt, ih h.2⟩

/-- **Without gaps**: up to its last element the list has all of `S` above `a`. -/
theorem Successive.mem_iff {ts : List α} : ∀ {a u : α}, Successive S a ts →
    (u ∈ ts ↔ u ∈ S ∧ a < u ∧ ∃ t ∈ ts, u ≤ t) := by
  induction ts with
  | nil =>
    intro a u _
    simp
  | cons t ts ih =>
  intro a u h
  constructor
  · intro hu
    refine ⟨?_, Successive.lt h u hu, u, hu, le_refl u⟩
    rcases List.mem_cons.mp hu with rfl | hu
    · exact h.1.mem
    · exact ((ih h.2).mp hu).1
  · rintro ⟨hu, hau, v, hv, huv⟩
    rcases lt_trichotomy u t with hut | rfl | htu
    · exact absurd hu (h.1.not_mem hau hut)
    · exact .head _
    -- beyond the first element
    refine .tail _ ((ih h.2).mpr ⟨hu, htu, v, ?_, huv⟩)
    rcases List.mem_cons.mp hv with rfl | hv
    · exact absurd huv (not_le_of_gt htu)
    · exact hv

end Order

end AiScheduler.Lib
