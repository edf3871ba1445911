/-
  **BINARY MIN-HEAPS, as lists in level order.**

  The item at position `j > 0` has its parent at `(j - 1) / 2`; no item is before its parent by
  the key (`HeapOrdered`). KEEPING ONLY THE LATE ITEMS moves them, without a sift.

  Main results:
    * `HeapOrdered.head_le` — the first item of a heap is a least one.
    * `heapOrdered_push` — a push keeps the order.
    * `HeapOf.filter` — so does dropping the items up to a cutoff, under a condition on the order in
      which the items were pushed.
-/
import Mathlib.Data.List.Perm.Basic
import Mathlib.Order.Lattice
import Mathlib.Tactic.Push

namespace AiScheduler.Lib

open List

/-- The position of the parent. -/
def parent (j : Nat) : Nat := (j - 1) / 2

theorem parent_lt {j : Nat} (hj : 0 < j) : parent j < j := by
  unfold parent
  omega

section Heap

variable {α β : Type} [LinearOrder β] {key : α → β}

/-! ## Heap order. -/

/-- No item is before its parent. -/
def HeapOrdered (key : α → β) (xs : List α) : Prop :=
  ∀ j a b, 0 < j → xs[parent j]? = some a → xs[j]? = some b → key a ≤ key b

theorem heapOrdered_nil : HeapOrdered key ([] : List α) := by
  intro j a b _ _ hb
  simp at hb

/-- The root is not after any item: up to the root, one parent at a time. -/
theorem HeapOrdered.root_le {xs : List α} (h : HeapOrdered key xs) {x : α} (hx : xs[0]? = some x)
    (j : Nat) : ∀ y, xs[j]? = some y → key x ≤ key y := by
  induction j using Nat.strongRecOn with
  | _ j ih =>
  intro y hy
  rcases Nat.eq_zero_or_pos j with rfl | hj
  · rw [hx] at hy
    cases hy
    exact le_refl _
  have hlt : parent j < xs.length :=
    Nat.lt_trans (parent_lt hj) (List.getElem?_eq_some_iff.mp hy).1
  have hp : xs[parent j]? = some xs[parent j] := getElem?_eq_getElem hlt
  exact le_trans (ih (parent j) (parent_lt hj) _ hp) (h j _ y hj hp hy)

/-- **The first item of a heap is a least one.** -/
theorem HeapOrdered.head_le {xs : List α} (h : HeapOrdered key xs) {x : α} (hx : xs.head? = some x)
    {y : α} (hy : y ∈ xs) : key x ≤ key y := by
  obtain ⟨j, hj⟩ := getElem?_of_mem hy
  rw [head?_eq_getElem?] at hx
  exact h.root_le hx j y hj

/-! ## Sifting up. -/

/-- Exchange the item at `j` with its parent while it is before it. -/
def siftUp (key : α → β) : Nat → List α → Nat → List α
  | 0, xs, _ => xs
  | fuel + 1, xs, j =>
    match xs[parent j]?, xs[j]? with
    | some a, some b =>
      if parent j = j ∨ ¬ key b < key a then xs
      else siftUp key fuel ((xs.set (parent j) b).set j a) (parent j)
    | _, _ => xs

/-- Append an item and sift it up. -/
def push (key : α → β) (xs : List α) (x : α) : List α :=
  siftUp key (xs.length + 1) (xs ++ [x]) xs.length

theorem swap_perm {xs : List α} {i j : Nat} {a b : α} (ha : xs[i]? = some a)
    (hb : xs[j]? = some b) :
    ((xs.set i b).set j a).Perm xs := by
  obtain ⟨hi, rfl⟩ := List.getElem?_eq_some_iff.mp ha
  obtain ⟨hj, rfl⟩ := List.getElem?_eq_some_iff.mp hb
  exact set_set_perm hi hj

theorem siftUp_perm (fuel : Nat) (xs : List α) (j : Nat) : (siftUp key fuel xs j).Perm xs := by
  induction fuel generalizing xs j with
  | zero => exact Perm.refl _
  | succ fuel ih =>
  unfold siftUp
  split
  next a b ha hb =>
    split
    · exact Perm.refl _
    · exact (ih _ _).trans (swap_perm ha hb)
  next => exact Perm.refl _

/-- **A push adds exactly the pushed item.** -/
theorem push_perm (xs : List α) (x : α) : (push key xs x).Perm (x :: xs) :=
  (siftUp_perm _ _ _).trans (perm_append_singleton x xs)

/-- What a sift from `j` starts with: only the item at `j` may be out of order with its parent, and
the items below `j` are in order with `j`'s parent. -/
structure SiftReady (key : α → β) (xs : List α) (j : Nat) : Prop where
  except : ∀ i a b, 0 < i → i ≠ j → xs[parent i]? = some a → xs[i]? = some b → key a ≤ key b
  grand : ∀ i a b, 0 < i → parent i = j → 0 < j → xs[parent j]? = some a → xs[i]? = some b →
    key a ≤ key b

theorem getElem?_swap {xs : List α} {i j : Nat} {a b : α} (ha : xs[i]? = some a)
    (hb : xs[j]? = some b) (k : Nat) :
    ((xs.set i b).set j a)[k]? = if k = j then some a else if k = i then some b else xs[k]? := by
  have hi := (List.getElem?_eq_some_iff.mp ha).1
  have hj := (List.getElem?_eq_some_iff.mp hb).1
  rw [getElem?_set, getElem?_set]
  by_cases hkj : k = j
  · subst hkj
    simp [hj]
  by_cases hki : k = i
  · subst hki
    simp [hi, hkj, Ne.symm hkj]
  · simp [hkj, hki, Ne.symm hkj, Ne.symm hki]

/-- **One exchange**: a sift from `j` goes on as a sift from the parent. -/
theorem SiftReady.swap {xs : List α} {j : Nat} {a b : α} (h : SiftReady key xs j) (hj : 0 < j)
    (ha : xs[parent j]? = some a) (hb : xs[j]? = some b) (hlt : key b < key a) :
    SiftReady key ((xs.set (parent j) b).set j a) (parent j) := by
  have hpj : parent j ≠ j := Nat.ne_of_lt (parent_lt hj)
  -- a child of the parent other than `j` is not before the parent's old item
  have hsibling : ∀ i c, 0 < i → parent i = parent j → i ≠ j → xs[i]? = some c → key a ≤ key c := by
    intro i c hi hpi hij hc
    exact h.except i a c hi hij (by rw [hpi]; exact ha) hc
  constructor
  · intro i c e hi hip hc he
    rw [getElem?_swap ha hb] at hc he
    rw [if_neg hip] at he
    by_cases hij : i = j
    · subst hij
      rw [if_pos rfl] at he
      rw [if_neg hpj, if_pos rfl] at hc
      cases hc
      cases he
      exact le_of_lt hlt
    rw [if_neg hij] at he
    by_cases hpi : parent i = j
    · rw [if_pos hpi] at hc
      cases hc
      exact h.grand i a e hi hpi hj ha he
    rw [if_neg hpi] at hc
    by_cases hpp : parent i = parent j
    · rw [if_pos hpp] at hc
      cases hc
      exact le_trans (le_of_lt hlt) (hsibling i e hi hpp hij he)
    · rw [if_neg hpp] at hc
      exact h.except i c e hi hij hc he
  · intro i c e hi hpi hp hc he
    have hgp : parent (parent j) ≠ parent j := Nat.ne_of_lt (parent_lt hp)
    have hgj : parent (parent j) ≠ j := Nat.ne_of_lt (Nat.lt_trans (parent_lt hp) (parent_lt hj))
    rw [getElem?_swap ha hb] at hc he
    rw [if_neg hgj, if_neg hgp] at hc
    have hca : key c ≤ key a := h.except (parent j) c a hp hpj hc ha
    by_cases hij : i = j
    · rw [if_pos hij] at he
      cases he
      exact hca
    have hip : i ≠ parent j := by
      intro hcon
      rw [hcon] at hpi
      exact hgp hpi
    rw [if_neg hij, if_neg hip] at he
    exact le_trans hca (hsibling i e hi hpi hij he)

/-- A sift stops where the item is in order with its parent. -/
theorem SiftReady.ordered {xs : List α} {j : Nat} (h : SiftReady key xs j)
    (hstop : ∀ a b, 0 < j → xs[parent j]? = some a → xs[j]? = some b → key a ≤ key b) :
    HeapOrdered key xs := by
  intro i a b hi ha hb
  by_cases hij : i = j
  · subst hij
    exact hstop a b hi ha hb
  · exact h.except i a b hi hij ha hb

/-- **A sift with enough fuel ends in a heap.** -/
theorem heapOrdered_siftUp (fuel : Nat) {xs : List α} {j : Nat} (hfuel : j < fuel)
    (h : SiftReady key xs j) : HeapOrdered key (siftUp key fuel xs j) := by
  induction fuel generalizing xs j with
  | zero => exact absurd hfuel (Nat.not_lt_zero j)
  | succ fuel ih =>
  unfold siftUp
  split
  next a b ha hb =>
    split
    next hdone =>
      apply h.ordered
      intro a' b' hj ha' hb'
      rw [ha] at ha'
      rw [hb] at hb'
      cases ha'
      cases hb'
      rcases hdone with hroot | hle
      · exact absurd hroot (Nat.ne_of_lt (parent_lt hj))
      · exact not_lt.mp hle
    next hmore =>
      rw [not_or, not_not] at hmore
      have hj : 0 < j := by
        rcases Nat.eq_zero_or_pos j with rfl | hj
        · exact absurd rfl hmore.1
        · exact hj
      have hp := parent_lt hj
      exact ih (by omega) (h.swap hj ha hb hmore.2)
  next hnone =>
    apply h.ordered
    intro a b hj ha hb
    exact absurd hb (hnone a b ha)

/-- **A push keeps the heap order.** -/
theorem heapOrdered_push {xs : List α} (h : HeapOrdered key xs) (x : α) :
    HeapOrdered key (push key xs x) := by
  refine heapOrdered_siftUp _ (Nat.lt_succ_self _) ⟨?_, ?_⟩
  · intro i a b hi hne ha hb
    have hlen := (List.getElem?_eq_some_iff.mp hb).1
    have hlt : i < xs.length := by
      rw [length_append, length_singleton] at hlen
      omega
    have hp := parent_lt hi
    rw [getElem?_append_left (by omega)] at ha
    rw [getElem?_append_left hlt] at hb
    exact h i a b hi ha hb
  intro i a b hi hp _ _ hb
  -- nothing is below the last position
  have hlen := (List.getElem?_eq_some_iff.mp hb).1
  rw [length_append, length_singleton] at hlen
  have := parent_lt hi
  omega

/-! ## Keeping only the late items. -/

theorem heapOrdered_of_pairwise {xs : List α} (h : xs.Pairwise (fun a b => key a ≤ key b)) :
    HeapOrdered key xs := by
  intro j a b hj ha hb
  obtain ⟨hp, rfl⟩ := List.getElem?_eq_some_iff.mp ha
  obtain ⟨hlt, rfl⟩ := List.getElem?_eq_some_iff.mp hb
  exact pairwise_iff_getElem.mp h _ _ hp hlt (parent_lt hj)

/-- A last item is pushed without a sift. -/
theorem push_of_le {xs : List α} {x : α} (h : ∀ y ∈ xs, key y ≤ key x) :
    push key xs x = xs ++ [x] := by
  unfold push siftUp
  split
  next a b ha hb =>
    refine if_pos ?_
    by_cases hroot : parent xs.length = xs.length
    · exact .inl hroot
    right
    have hp : parent xs.length < xs.length := by
      unfold parent at hroot ⊢
      omega
    rw [getElem?_append_left hp] at ha
    simp only [getElem?_concat_length, Option.some.injEq] at hb
    rw [← hb]
    exact not_lt.mpr (h a (mem_of_getElem? ha))
  next => rfl

/-- Nothing later than `c` was pushed before something earlier than it. -/
def Undisturbed (key : α → β) (c : β) (items : List α) : Prop :=
  items.Pairwise (fun a b => c < key a → key a ≤ key b)

/-- The heap holds the items, pushed in this order; those later than a cutoff stand in that order if
they are undisturbed. -/
structure HeapOf (key : α → β) (xs items : List α) : Prop where
  ordered : HeapOrdered key xs
  perm : xs.Perm items
  late : ∀ c, Undisturbed key c items →
    (xs.filter (fun x => c < key x)).map key = (items.filter (fun x => c < key x)).map key

namespace HeapOf

variable {xs items : List α}

theorem nil : HeapOf key ([] : List α) [] := ⟨heapOrdered_nil, Perm.refl _, fun _ _ => rfl⟩

theorem push (h : HeapOf key xs items) (x : α) :
    HeapOf key (Lib.push key xs x) (items ++ [x]) where
  ordered := heapOrdered_push h.ordered x
  perm := (push_perm xs x).trans ((h.perm.cons x).trans (perm_append_singleton x items).symm)
  late := by
    intro c hc
    obtain ⟨hitems, _, hlast⟩ := pairwise_append.mp hc
    have hlast : ∀ y ∈ items, c < key y → key y ≤ key x :=
      fun y hy hlate => hlast y hy x (mem_singleton.mpr rfl) hlate
    by_cases hx : c < key x
    · -- nothing is after `x`
      have hle : ∀ y ∈ xs, key y ≤ key x := by
        intro y hy
        by_cases hlate : c < key y
        · exact hlast y (h.perm.mem_iff.mp hy) hlate
        · exact le_trans (not_lt.mp hlate) (le_of_lt hx)
      rw [push_of_le hle, filter_append, filter_append, map_append, map_append, h.late c hitems]
    · -- nothing is later than `c`
      have hnone : ∀ y ∈ items ++ [x], ¬ c < key y := by
        intro y hy hlate
        rcases mem_append.mp hy with hy | hy
        · exact hx (lt_of_lt_of_le hlate (hlast y hy hlate))
        · exact hx (mem_singleton.mp hy ▸ hlate)
      have hperm := (push_perm xs x : (Lib.push key xs x).Perm _).trans
        ((h.perm.cons x).trans (perm_append_singleton x items).symm)
      rw [filter_eq_nil_iff.mpr (fun y hy => by simpa using hnone y (hperm.mem_iff.mp hy)),
        filter_eq_nil_iff.mpr (fun y hy => by simpa using hnone y hy)]

/-- A cutoff can be applied without a sift: nothing is dropped, or what is left has one key or is
undisturbed. -/
def Safe (key : α → β) (c : β) (items : List α) : Prop :=
  (∀ x ∈ items, c < key x)
    ∨ (∀ x ∈ items, ∀ y ∈ items, c < key x → c < key y → key x = key y)
    ∨ Undisturbed key c items

theorem pairwise_of_map {xs ys : List α} (h : xs.map key = ys.map key)
    (hys : ys.Pairwise (fun a b => key a ≤ key b)) : xs.Pairwise (fun a b => key a ≤ key b) := by
  rw [← pairwise_map (R := (· ≤ ·))] at hys ⊢
  rw [h]
  exact hys

/-- **Dropping the items up to a safe cutoff keeps the heap order.** -/
theorem filter (h : HeapOf key xs items) {c : β} (hc : Safe key c items) :
    HeapOf key (xs.filter (fun x => c < key x)) (items.filter (fun x => c < key x)) := by
  have hperm := h.perm.filter (fun x => decide (c < key x))
  rcases hc with hall | hone | hpush
  · -- nothing is dropped
    rw [filter_eq_self.mpr (fun x hx => by simpa using hall x (h.perm.mem_iff.mp hx)),
      filter_eq_self.mpr (fun x hx => by simpa using hall x hx)]
    exact h
  · -- equal keys are in order however they stand
    have hmem : ∀ {x}, x ∈ xs.filter (fun x => c < key x) → x ∈ items ∧ c < key x := by
      intro x hx
      simpa using mem_filter.mp (hperm.mem_iff.mp hx)
    have hkeys : ∀ {l : List α}, (∀ x ∈ l, x ∈ items ∧ c < key x) →
        l.Pairwise (fun a b => key a ≤ key b) := by
      intro l hl
      exact pairwise_of_forall_mem_list (fun a ha b hb =>
        le_of_eq (hone a (hl a ha).1 b (hl b hb).1 (hl a ha).2 (hl b hb).2))
    have hsorted : ∀ {l l' : List α}, l.Perm l' → (∀ x ∈ l, x ∈ items ∧ c < key x) →
        l.map key = l'.map key := by
      intro l l' hp hl
      exact Perm.eq_of_pairwise (fun a b _ _ => le_antisymm) (pairwise_map.mpr (hkeys hl))
        (pairwise_map.mpr (hkeys fun x hx => hl x (hp.mem_iff.mpr hx))) (hp.map key)
    refine ⟨heapOrdered_of_pairwise (hkeys fun x hx => hmem hx), hperm, fun c' _ => ?_⟩
    exact hsorted (hperm.filter _) (fun x hx => hmem (mem_of_mem_filter hx))
  · have hlate := h.late c hpush
    have hitems : (items.filter (fun x => c < key x)).Pairwise (fun a b => key a ≤ key b) := by
      refine (hpush.filter _).imp_of_mem ?_
      intro a b ha _ hab
      exact hab (by simpa using (mem_filter.mp ha).2)
    refine ⟨heapOrdered_of_pairwise (pairwise_of_map hlate hitems), hperm, ?_⟩
    intro c' hc'
    by_cases hle : c ≤ c'
    · -- a later cutoff: undisturbed among those left and by those dropped
      have hboth : ∀ x : α, (decide (c < key x) && decide (c' < key x)) = decide (c' < key x) := by
        intro x
        by_cases hx : c' < key x
        · simp [hx, lt_of_le_of_lt hle hx]
        · simp [hx]
      have hmore : Undisturbed key c' items :=
        hpush.imp (fun hab hlt => hab (lt_of_le_of_lt hle hlt))
      simpa only [filter_filter, Bool.and_comm, hboth] using h.late c' hmore
    · -- an earlier one keeps all of them
      have hself : ∀ {l : List α}, (l.filter (fun x => c < key x)).filter (fun x => c' < key x)
          = l.filter (fun x => c < key x) := by
        intro l
        rw [filter_eq_self]
        intro x hx
        have hx : c < key x := by simpa using (mem_filter.mp hx).2
        simpa using lt_trans (not_le.mp hle) hx
      rw [hself, hself]
      exact hlate

end HeapOf

end Heap

end AiScheduler.Lib
