/-
  **SUCCESSION**: a relation in which an element has at most one successor, of
  rank one higher.

  Where the ranks are bounded, what is reachable from an element is ONE finite
  line, and the ranks along it count up by one.
-/
import Mathlib.Data.List.Chain
import Mathlib.Logic.Relation

namespace AiScheduler.Lib

variable {α : Type} {R : α → α → Prop} {rank : α → Nat}

/-- At most one successor, one rank higher. -/
structure Succession (R : α → α → Prop) (rank : α → Nat) : Prop where
  unique : ∀ a b c, R a b → R a c → b = c
  rank_succ : ∀ a b, R a b → rank b = rank a + 1

/-- `line` is `a`, its successor and so on to the last: EXACTLY what is reachable from `a`. -/
structure Line (R : α → α → Prop) (a : α) (line : List α) : Prop where
  chain : line.IsChain R
  head : line.head? = some a
  mem_iff : ∀ x, x ∈ line ↔ Relation.ReflTransGen R a x

theorem Line.single {a : α} (h : ∀ b, ¬ R a b) : Line R a [a] where
  chain := List.isChain_singleton a
  head := rfl
  mem_iff := by
    intro x
    rw [List.mem_singleton]
    constructor
    · intro hx
      rw [hx]
    · intro hx
      rcases Relation.ReflTransGen.cases_head hx with hx | ⟨b, hb, _⟩
      · exact hx.symm
      · exact absurd hb (h b)

theorem Line.cons {a b : α} {line : List α} (hb : R a b) (hunique : ∀ c, R a c → c = b)
    (hline : Line R b line) : Line R a (a :: line) where
  chain := by
    refine List.IsChain.cons hline.chain ?_
    intro y hy
    rw [hline.head, Option.mem_some_iff] at hy
    rw [← hy]
    exact hb
  head := rfl
  mem_iff := by
    intro x
    rw [List.mem_cons, hline.mem_iff]
    constructor
    · intro hx
      rcases hx with rfl | hx
      · exact Relation.ReflTransGen.refl
      · exact Relation.ReflTransGen.head hb hx
    · intro hx
      rcases Relation.ReflTransGen.cases_head hx with hx | ⟨c, hc, hx⟩
      · exact Or.inl hx.symm
      · rw [hunique c hc] at hx
        exact Or.inr hx

namespace Succession

/-- **There is a line** from an element below which the ranks are bounded. -/
theorem exists_line (h : Succession R rank) {n : Nat} :
    ∀ (k : Nat) (a : α), (∀ x, Relation.ReflTransGen R a x → rank x ≤ n) → n < rank a + k →
      ∃ line, Line R a line := by
  intro k
  induction k with
  | zero =>
    intro a hbound hk
    have := hbound a Relation.ReflTransGen.refl
    omega
  | succ k ih =>
  intro a hbound hk
  by_cases hsucc : ∃ b, R a b
  · obtain ⟨b, hb⟩ := hsucc
    have hrank := h.rank_succ a b hb
    obtain ⟨line, hline⟩ := ih b
      (fun x hx => hbound x (Relation.ReflTransGen.head hb hx)) (by omega)
    exact ⟨a :: line, Line.cons hb (fun c hc => h.unique a c b hc hb) hline⟩
  · exact ⟨[a], Line.single (fun b hb => hsucc ⟨b, hb⟩)⟩

theorem ranks_of_chain (h : Succession R rank) :
    ∀ (line : List α) (a : α), (a :: line).IsChain R →
      (a :: line).map rank = List.range' (rank a) (line.length + 1) := by
  intro line
  induction line with
  | nil =>
    intro a _
    rfl
  | cons b line ih =>
    intro a hchain
    rw [List.isChain_cons_cons] at hchain
    rw [List.map_cons, ih b hchain.2, h.rank_succ a b hchain.1, List.length_cons]
    rfl

theorem ranks (h : Succession R rank) {a : α} {line : List α} (hline : Line R a line) :
    line.map rank = List.range' (rank a) line.length := by
  cases line with
  | nil => rfl
  | cons b line =>
    have hhead : b = a := Option.some.inj hline.head
    subst hhead
    exact h.ranks_of_chain line b hline.chain

theorem length_le (h : Succession R rank) {a : α} {line : List α} (hline : Line R a line)
    {n : Nat} (hbound : ∀ x, Relation.ReflTransGen R a x → rank x ≤ n) :
    rank a + line.length ≤ n + 1 := by
  cases hlen : line.length with
  | zero =>
    have := hbound a Relation.ReflTransGen.refl
    omega
  | succ k =>
  -- the last rank of the line is somebody's
  have hlast : rank a + k ∈ line.map rank := by
    rw [h.ranks hline, List.mem_range'_1]
    omega
  obtain ⟨x, hx, hrank⟩ := List.mem_map.mp hlast
  have := hbound x ((hline.mem_iff x).mp hx)
  omega

end Succession

end AiScheduler.Lib
