/-
  **`PopUntil` COMPACTS THE HEAP IN ITS OWN ARRAY.**

  `remaining` starts as the empty slice of the array the loop ranges over. The write position never
  passes the read position (`Swept`): nothing is overwritten unread, and what comes out is the
  partition of the list.
-/
import AiScheduler.Proofs.HeapOrder

namespace AiScheduler

open Lib List

variable {cutoff : Int} {array : List HeapItem} {x : HeapItem}

/-! ## The loop of `PopUntil`. -/

/-- The variables of the loop: `remaining` is a slice of the array, `result` has its own. -/
structure PopLoop where
  array : List HeapItem
  remaining : Nat
  result : List HeapItem

def PopLoop.next (cutoff : Int) (s : PopLoop) (i : Nat) : PopLoop :=
  match s.array[i]? with
  | none => s
  | some item =>
    if item.triggerTime > cutoff then
      -- `append` finds room behind `remaining` and writes there
      { s with array := s.array.set s.remaining item, remaining := s.remaining + 1 }
    else { s with result := s.result ++ [item] }

def popLoop (cutoff : Int) (array : List HeapItem) (n : Nat) : PopLoop :=
  (List.range n).foldl (PopLoop.next cutoff) ⟨array, 0, []⟩

/-- After `n` iterations: the items read are in the two slices, the others are
where they were. -/
structure Swept (cutoff : Int) (array : List HeapItem) (n : Nat) (s : PopLoop) : Prop where
  size : s.array.length = array.length
  behind : s.remaining ≤ n
  unread : s.array.drop n = array.drop n
  kept : s.array.take s.remaining = (array.take n).filter (stays cutoff)
  popped : s.result = (array.take n).filter (fun item => ¬ stays cutoff item)

theorem Swept.next {n : Nat} {s : PopLoop} (hs : Swept cutoff array n s) (hn : n < array.length) :
    Swept cutoff array (n + 1) (s.next cutoff n) := by
  have hread : s.array[n]? = some array[n] := by
    have hhead : (s.array.drop n)[0]? = (array.drop n)[0]? := by rw [hs.unread]
    rw [getElem?_drop, getElem?_drop] at hhead
    exact hhead.trans (getElem?_eq_getElem hn)
  have htake : array.take (n + 1) = array.take n ++ [array[n]] := by
    rw [take_add_one, getElem?_eq_getElem hn]
    rfl
  have hdrop : s.array.drop (n + 1) = array.drop (n + 1) := by
    rw [← drop_drop, hs.unread, drop_drop]
  have hroom : s.remaining < s.array.length := by
    have := hs.behind
    have := hs.size
    omega
  unfold PopLoop.next
  rw [hread]
  dsimp only
  split
  next hlate =>
    have hstays : stays cutoff array[n] = true := decide_eq_true hlate
    refine ⟨?_, Nat.succ_le_succ hs.behind, ?_, ?_, ?_⟩
    · rw [length_set, hs.size]
    · rw [drop_set_of_lt (Nat.lt_succ_of_le hs.behind), hdrop]
    · rw [take_add_one, take_set_of_le (Nat.le_refl _), hs.kept,
        getElem?_set_self hroom, htake, filter_append, filter_cons_of_pos hstays]
      rfl
    · rw [hs.popped, htake, filter_append]
      simp [hstays]
  next hdue =>
    have hpops : stays cutoff array[n] = false := decide_eq_false hdue
    refine ⟨hs.size, Nat.le_succ_of_le hs.behind, hdrop, ?_, ?_⟩
    · rw [hs.kept, htake, filter_append]
      simp [hpops]
    · rw [hs.popped, htake, filter_append]
      simp [hpops]

theorem swept_popLoop {n : Nat} (hn : n ≤ array.length) :
    Swept cutoff array n (popLoop cutoff array n) := by
  induction n with
  | zero => exact ⟨rfl, Nat.le_refl 0, rfl, rfl, rfl⟩
  | succ n ih =>
  have hloop : popLoop cutoff array (n + 1) = (popLoop cutoff array n).next cutoff n := by
    unfold popLoop
    rw [range_succ, foldl_append]
    rfl
  rw [hloop]
  exact (ih (Nat.le_of_succ_le hn)).next hn

/-! ## The slice. -/

/-- A `taskHeap`: its array, up to the capacity, and its length. -/
structure TaskHeap where
  array : List HeapItem
  len : Nat
  fits : len ≤ array.length

def TaskHeap.items (h : TaskHeap) : List HeapItem := h.array.take h.len

variable {h : TaskHeap}

def TaskHeap.popUntil (h : TaskHeap) (cutoff : Int) : List HeapItem × TaskHeap :=
  ((popLoop cutoff h.array h.len).result,
    { array := (popLoop cutoff h.array h.len).array
      len := (popLoop cutoff h.array h.len).remaining
      fits := by
        have hs : Swept cutoff h.array h.len _ := swept_popLoop h.fits
        rw [hs.size]
        exact Nat.le_trans hs.behind h.fits })

/-- `heap.Push`: `append` writes behind the last item, in a larger array if there is no room. -/
def TaskHeap.push (h : TaskHeap) (x : HeapItem) : TaskHeap where
  array := heapPush h.items x ++ h.array.drop (h.len + 1)
  len := (heapPush h.items x).length
  fits := by simp

theorem TaskHeap.popUntil_fst (h : TaskHeap) (cutoff : Int) :
    (h.popUntil cutoff).1 = h.items.filter (fun item => item.triggerTime ≤ cutoff) := by
  have hs : Swept cutoff h.array h.len _ := swept_popLoop h.fits
  refine hs.popped.trans ?_
  simp [stays, TaskHeap.items]

theorem TaskHeap.popUntil_items (h : TaskHeap) (cutoff : Int) :
    (h.popUntil cutoff).2.items = h.items.filter (fun item => cutoff < item.triggerTime) := by
  have hs : Swept cutoff h.array h.len _ := swept_popLoop h.fits
  exact hs.kept

theorem TaskHeap.push_items_perm : (h.push x).items.Perm (x :: h.items) := by
  have hitems : (h.push x).items = heapPush h.items x := take_left
  rw [hitems, heapPush_eq]
  exact push_perm _ _

/-! ## Runs. -/

/-- The heap, and every item triggered so far. -/
structure HeapRun where
  heap : TaskHeap
  fired : List HeapItem

/-- `AddToHeap`, or `processHeapTick` when the clock shows `cutoff`. -/
def HeapRun.next (r : HeapRun) : HeapOp → HeapRun
  | .addToHeap taskID triggerTime => { r with heap := r.heap.push { taskID, triggerTime } }
  | .popUntil cutoff => ⟨(r.heap.popUntil cutoff).2, r.fired ++ (r.heap.popUntil cutoff).1⟩

def heapRun (ops : List HeapOp) : HeapRun :=
  ops.foldl HeapRun.next ⟨⟨[], 0, Nat.le_refl 0⟩, []⟩

def HeapOp.pushes (x : HeapItem) : HeapOp → Bool
  | .addToHeap taskID triggerTime => x = { taskID, triggerTime }
  | .popUntil _ => false

def HeapOp.reaches (x : HeapItem) : HeapOp → Bool
  | .addToHeap _ _ => false
  | .popUntil cutoff => x.triggerTime ≤ cutoff

/-- How often the item was pushed since the last tick that reached it. -/
def waiting (x : HeapItem) (ops : List HeapOp) : Nat :=
  (ops.reverse.takeWhile (fun op => ¬ op.reaches x)).countP (HeapOp.pushes x)

theorem waiting_concat (x : HeapItem) (ops : List HeapOp) (op : HeapOp) :
    waiting x (ops ++ [op])
      = if op.reaches x then 0 else waiting x ops + if op.pushes x then 1 else 0 := by
  unfold waiting
  rw [reverse_append, reverse_singleton, singleton_append, takeWhile_cons]
  cases op.reaches x with
  | true => rfl
  | false => exact countP_cons

theorem count_popped : (h.popUntil cutoff).1.count x
    = if x.triggerTime ≤ cutoff then h.items.count x else 0 := by
  rw [h.popUntil_fst]
  split
  next hle => exact count_filter (decide_eq_true hle)
  next hlt =>
    refine count_eq_zero_of_not_mem ?_
    intro hmem
    exact hlt (of_decide_eq_true (mem_filter.mp hmem).2)

theorem count_kept : (h.popUntil cutoff).2.items.count x
    = if x.triggerTime ≤ cutoff then 0 else h.items.count x := by
  rw [h.popUntil_items]
  split
  next hle =>
    refine count_eq_zero_of_not_mem ?_
    intro hmem
    exact absurd hle (Int.not_le.mpr (of_decide_eq_true (mem_filter.mp hmem).2))
  next hlt => exact count_filter (decide_eq_true (Int.not_le.mp hlt))

/-- **The run lemma**: an item is in the heap as often as it waits, else it was triggered. -/
theorem counts_heapRun (x : HeapItem) (ops : List HeapOp) :
    (heapRun ops).heap.items.count x = waiting x ops
      ∧ (heapRun ops).fired.count x + waiting x ops = ops.countP (HeapOp.pushes x) := by
  induction ops using reverseRecOn with
  | nil => exact ⟨rfl, rfl⟩
  | append_singleton ops op ih =>
  have hrun : heapRun (ops ++ [op]) = (heapRun ops).next op := by
    unfold heapRun
    rw [foldl_append]
    rfl
  rw [hrun, waiting_concat, countP_append, countP_singleton]
  cases op with
  | addToHeap taskID triggerTime =>
    have hpush : ((heapRun ops).next (.addToHeap taskID triggerTime)).heap.items.count x
        = waiting x ops + if HeapOp.pushes x (.addToHeap taskID triggerTime) then 1 else 0 := by
      refine (TaskHeap.push_items_perm.count_eq x).trans ?_
      rw [count_cons, ih.1]
      by_cases hx : x = { taskID, triggerTime }
      · simp [HeapOp.pushes, hx]
      · simp [HeapOp.pushes, hx, Ne.symm hx]
    refine ⟨hpush, ?_⟩
    show (heapRun ops).fired.count x + (waiting x ops + _) = _
    rw [← ih.2, Nat.add_assoc]
  | popUntil cutoff =>
    show ((heapRun ops).heap.popUntil cutoff).2.items.count x = _
      ∧ ((heapRun ops).fired ++ ((heapRun ops).heap.popUntil cutoff).1).count x + _ = _
    rw [count_append, count_kept, count_popped, ih.1, ← ih.2]
    by_cases hle : x.triggerTime ≤ cutoff <;> simp [HeapOp.reaches, HeapOp.pushes, hle]

/-- **`PopUntil` is an exact partition**, in the original order, and **over any run every push is
triggered once**, at the first tick that reaches it, or still waits in the heap. -/
theorem heap_ticks_exact :
    (∀ (h : TaskHeap) (cutoff : Int),
      (h.popUntil cutoff).1 = h.items.filter (fun item => item.triggerTime ≤ cutoff)
      ∧ (h.popUntil cutoff).2.items = h.items.filter (fun item => cutoff < item.triggerTime))
    ∧ ∀ (ops : List HeapOp) (x : HeapItem),
      (∀ cutoff, ((heapRun ops).heap.popUntil cutoff).1.count x
        = if x.triggerTime ≤ cutoff then waiting x ops else 0)
      ∧ (heapRun ops).heap.items.count x = waiting x ops
      ∧ (heapRun ops).fired.count x + waiting x ops = ops.countP (HeapOp.pushes x) := by
  constructor
  · intro h cutoff
    exact ⟨h.popUntil_fst cutoff, h.popUntil_items cutoff⟩
  · intro ops x
    refine ⟨?_, counts_heapRun x ops⟩
    intro cutoff
    rw [count_popped, (counts_heapRun x ops).1]

/-- The tick at 5 takes the two items due at 3; the array then holds the third twice. -/
example :
    (heapRun [.addToHeap 1 3, .addToHeap 2 9, .addToHeap 3 3, .popUntil 5]).fired = [⟨1, 3⟩, ⟨3, 3⟩]
      ∧ (heapRun [.addToHeap 1 3, .addToHeap 2 9, .addToHeap 3 3, .popUntil 5]).heap.array
        = [⟨2, 9⟩, ⟨2, 9⟩, ⟨3, 3⟩] := by
  decide

end AiScheduler
