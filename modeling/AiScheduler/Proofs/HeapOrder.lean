/-
  **THE ORDER OF THE ENGINE'S HEAP.**

  `AddToHeap` sifts the new item up and keeps the order. `PopUntil` does not use `container/heap`:
  it closes the gaps of the items it takes out, so the items left get NEW PARENTS.

  Main results:
    * `heapOf_apply` — what one operation preserves.
    * `heap_order_of_safe_pops` — which trigger times and cutoffs keep the order over a run.
-/
import AiScheduler.Lib.BinaryHeap
import AiScheduler.Scheduler.Memory
import Mathlib.Algebra.Order.Ring.Int
import Mathlib.Data.List.Induction

namespace AiScheduler

open Lib

/-! ## The heap's operations, through the library. -/

theorem siftUp_eq (fuel : Nat) (h : List HeapItem) (j : Nat) :
    siftUp fuel h j = Lib.siftUp HeapItem.triggerTime fuel h j := by
  induction fuel generalizing h j with
  | zero => rfl
  | succ fuel ih =>
  rw [siftUp, Lib.siftUp]
  dsimp only [parent]
  cases h[(j - 1) / 2]? with
  | none => rfl
  | some a =>
  cases h[j]? with
  | none => rfl
  | some b =>
  by_cases hdone : (j - 1) / 2 = j ∨ ¬ b.triggerTime < a.triggerTime
  · dsimp only
    rw [if_pos hdone]
    exact (if_pos hdone).symm
  · dsimp only
    rw [if_neg hdone, ih]
    exact (if_neg hdone).symm

theorem heapPush_eq (h : List HeapItem) (x : HeapItem) :
    heapPush h x = push HeapItem.triggerTime h x :=
  siftUp_eq _ _ _

/-- The items later than the cutoff, which `PopUntil` leaves. -/
def stays (cutoff : Int) (item : HeapItem) : Bool := item.triggerTime > cutoff

/-! ## Runs. -/

/-- The engine's operations on its heap. -/
inductive HeapOp where
  | addToHeap (taskID triggerTime : Int)
  | popUntil (cutoff : Int)

/-- What an operation makes of the array. -/
def HeapOp.apply (h : List HeapItem) : HeapOp → List HeapItem
  | addToHeap taskID triggerTime => heapPush h { taskID, triggerTime }
  | popUntil cutoff => (AiScheduler.popUntil h cutoff).2

/-- The heap after these operations on an empty one. -/
def heapAfter (ops : List HeapOp) : List HeapItem := ops.foldl HeapOp.apply []

/-- Every item is not before its parent, and `Peek` shows an earliest one. -/
def InHeapOrder (h : List HeapItem) : Prop :=
  HeapOrdered HeapItem.triggerTime h
    ∧ ∀ item, peek h = some item → ∀ other ∈ h, item.triggerTime ≤ other.triggerTime

theorem inHeapOrder_of_ordered {h : List HeapItem} (hh : HeapOrdered HeapItem.triggerTime h) :
    InHeapOrder h :=
  ⟨hh, fun _ hitem _ hother => hh.head_le hitem hother⟩

/-- What an operation makes of the items still waiting, in the order they were added. -/
def HeapOp.wait (items : List HeapItem) : HeapOp → List HeapItem
  | addToHeap taskID triggerTime => items ++ [{ taskID, triggerTime }]
  | popUntil cutoff => items.filter (stays cutoff)

/-- A `PopUntil` takes none of these waiting items, leaves items of one trigger time only, or leaves
none that was added before an earlier one. -/
def HeapOp.Safe (items : List HeapItem) : HeapOp → Prop
  | addToHeap _ _ => True
  | popUntil cutoff => HeapOf.Safe HeapItem.triggerTime cutoff items

/-- Every `PopUntil` of the run is safe, from these waiting items on. -/
def SafePops (items : List HeapItem) : List HeapOp → Prop
  | [] => True
  | op :: ops => op.Safe items ∧ SafePops (op.wait items) ops

/-- **One operation**: the heap goes on holding the waiting items, in order. -/
theorem heapOf_apply {h items : List HeapItem} (hh : HeapOf HeapItem.triggerTime h items)
    {op : HeapOp} (hsafe : op.Safe items) :
    HeapOf HeapItem.triggerTime (op.apply h) (op.wait items) := by
  cases op with
  | addToHeap taskID triggerTime =>
    show HeapOf _ (heapPush h _) _
    rw [heapPush_eq]
    exact hh.push _
  | popUntil cutoff => exact hh.filter hsafe

/-- **The heap is in order, and `Peek` shows an earliest item, in every state of a run whose
`PopUntil`s are safe.** -/
theorem heap_order_of_safe_pops (ops : List HeapOp) (hsafe : SafePops [] ops) :
    ∀ pre, pre <+: ops → InHeapOrder (heapAfter pre) := by
  -- from any heap that holds the waiting items, operation by operation
  suffices hrun : ∀ (ops : List HeapOp) {h items : List HeapItem},
      HeapOf HeapItem.triggerTime h items → SafePops items ops →
      ∀ pre, pre <+: ops → InHeapOrder (pre.foldl HeapOp.apply h) from
    hrun ops HeapOf.nil hsafe
  intro ops
  induction ops with
  | nil =>
    intro h items hh _ pre hpre
    rw [List.prefix_nil.mp hpre]
    exact inHeapOrder_of_ordered hh.ordered
  | cons op ops ih =>
  intro h items hh hsafe pre hpre
  cases pre with
  | nil => exact inHeapOrder_of_ordered hh.ordered
  | cons op' pre =>
    obtain ⟨rfl, hrest⟩ := List.cons_prefix_cons.mp hpre
    exact ih (heapOf_apply hh hsafe.1) hsafe.2 pre hrest

/-- Times 5, 2, 7 and 8, popped up to 5: the two that stay were added in order, after the others. -/
theorem heap_order_of_late_items :
    InHeapOrder (heapAfter
      [.addToHeap 1 5, .addToHeap 2 2, .addToHeap 3 7, .addToHeap 4 8, .popUntil 5]) :=
  heap_order_of_safe_pops
    [.addToHeap 1 5, .addToHeap 2 2, .addToHeap 3 7, .addToHeap 4 8, .popUntil 5]
    ⟨trivial, trivial, trivial, trivial, .inr (.inr (by unfold Undisturbed; decide)), trivial⟩
    _ List.prefix_rfl

/-- Trigger times 1, 5 and 2 in the heap; the pop of the first leaves 5 above 2. -/
theorem popUntil_breaks_order :
    heapAfter [.addToHeap 1 1, .addToHeap 2 5, .addToHeap 3 2] = [⟨1, 1⟩, ⟨2, 5⟩, ⟨3, 2⟩]
      ∧ heapAfter [.addToHeap 1 1, .addToHeap 2 5, .addToHeap 3 2, .popUntil 1] = [⟨2, 5⟩, ⟨3, 2⟩]
      ∧ ¬ InHeapOrder
          (heapAfter [.addToHeap 1 1, .addToHeap 2 5, .addToHeap 3 2, .popUntil 1]) := by
  refine ⟨by decide, by decide, ?_⟩
  rintro ⟨_, hpeek⟩
  exact absurd (hpeek ⟨2, 5⟩ (by decide) ⟨3, 2⟩ (by decide)) (by decide)

end AiScheduler
