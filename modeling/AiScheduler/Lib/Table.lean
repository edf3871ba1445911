/-
  **KEYED TABLES**: a list of rows in which no key occurs twice, and the queries over its rows.

  The writes of a table all keep the keys distinct.  A query sorts its rows by a key and may cut
  the list off.  Rows that compare EQUAL come out in no particular order, anew at each query: the
  order in which a query meets its rows is an argument (`Scan`).

  Main results: `Table.get?_modify`, `Table.get?_upsert`, `Table.get?_insertNew` (what each write
  does to a lookup), `exists_scan` (every sorted order of the rows is one a query may give).
-/
import Mathlib.Data.List.Nodup
import Mathlib.Data.List.Sort

namespace AiScheduler.Lib

open List

/-- Rows `ρ` with pairwise distinct keys. -/
structure Table {ρ κ : Type} (key : ρ → κ) where
  rows : List ρ
  nodup : (rows.map key).Nodup

namespace Table

variable {ρ κ : Type} {key : ρ → κ}

def empty : Table key := ⟨[], List.nodup_nil⟩

theorem ext {T U : Table key} (h : T.rows = U.rows) : T = U := by
  cases T; cases U; subst h; rfl

theorem eq_of_key {T : Table key} {r r' : ρ} (hr : r ∈ T.rows) (hr' : r' ∈ T.rows)
    (h : key r = key r') : r = r' :=
  inj_on_of_nodup_map T.nodup hr hr' h

/-! ## Change the rows that satisfy a test. -/

/-- Apply `f`, which must keep the key, to every row satisfying `p`. -/
def modify (T : Table key) (p : ρ → Bool) (f : ρ → ρ)
    (hf : ∀ r, key (f r) = key r) : Table key where
  rows := T.rows.map (fun r => if p r then f r else r)
  nodup := by
    have hkeys : (T.rows.map (fun r => if p r then f r else r)).map key = T.rows.map key := by
      rw [List.map_map]
      apply List.map_congr_left
      intro r _
      show key (if p r then f r else r) = key r
      split
      · exact hf r
      · rfl
    rw [hkeys]
    exact T.nodup

theorem mem_modify {T : Table key} {p : ρ → Bool} {f : ρ → ρ}
    {hf : ∀ r, key (f r) = key r} {r : ρ} :
    r ∈ (T.modify p f hf).rows ↔ ∃ r₀ ∈ T.rows, r = if p r₀ then f r₀ else r₀ := by
  simp only [modify, mem_map]
  constructor
  · rintro ⟨r₀, hr₀, h⟩
    exact ⟨r₀, hr₀, h.symm⟩
  · rintro ⟨r₀, hr₀, h⟩
    exact ⟨r₀, hr₀, h.symm⟩

/-! ## Lookup. -/

section Lookup

variable [DecidableEq κ]

/-- The row with key `k`. -/
def get? (T : Table key) (k : κ) : Option ρ := T.rows.find? (fun r => key r = k)

theorem get?_some {T : Table key} {k : κ} {r : ρ} (h : T.get? k = some r) :
    r ∈ T.rows ∧ key r = k := by
  refine ⟨mem_of_find?_eq_some h, ?_⟩
  have := find?_some h
  simpa using this

theorem get?_none {T : Table key} {k : κ} : T.get? k = none ↔ ∀ r ∈ T.rows, key r ≠ k := by
  simp [get?, find?_eq_none]

theorem get?_of_mem {T : Table key} {r : ρ} (hr : r ∈ T.rows) : T.get? (key r) = some r := by
  cases hg : T.get? (key r) with
  | none => exact absurd rfl (get?_none.mp hg r hr)
  | some r' =>
    obtain ⟨hr', hk⟩ := get?_some hg
    rw [eq_of_key hr' hr hk]

theorem get?_eq_some_iff {T : Table key} {k : κ} {r : ρ} :
    T.get? k = some r ↔ r ∈ T.rows ∧ key r = k := by
  constructor
  · exact get?_some
  · rintro ⟨hr, rfl⟩
    exact get?_of_mem hr

theorem get?_modify {T : Table key} {p : ρ → Bool} {f : ρ → ρ}
    {hf : ∀ r, key (f r) = key r} (k : κ) :
    (T.modify p f hf).get? k = (T.get? k).map (fun r => if p r then f r else r) := by
  have hkey : ∀ r, key (if p r then f r else r) = key r := by
    intro r
    split
    · exact hf r
    · rfl
  cases hg : T.get? k with
  | none =>
    rw [Option.map_none, get?_none]
    intro r hr
    obtain ⟨r₀, hr₀, rfl⟩ := mem_modify.mp hr
    rw [hkey]
    exact get?_none.mp hg r₀ hr₀
  | some r =>
    obtain ⟨hr, hk⟩ := get?_some hg
    rw [Option.map_some, get?_eq_some_iff]
    refine ⟨mem_modify.mpr ⟨r, hr, rfl⟩, ?_⟩
    rw [hkey, hk]

/-! ## Insert or replace one row. -/

/-- Replace the row with `r`'s key by `r`, or append `r`. -/
def upsert (T : Table key) (r : ρ) : Table key where
  rows :=
    if (T.get? (key r)).isSome then T.rows.map (fun r₀ => if key r₀ = key r then r else r₀)
    else T.rows ++ [r]
  nodup := by
    split
    next =>
      have hkeys : (T.rows.map (fun r₀ => if key r₀ = key r then r else r₀)).map key
          = T.rows.map key := by
        rw [List.map_map]
        apply List.map_congr_left
        intro r₀ _
        show key (if key r₀ = key r then r else r₀) = key r₀
        split
        next h => exact h.symm
        next => rfl
      rw [hkeys]
      exact T.nodup
    next h =>
      have hnone : T.get? (key r) = none := by simpa using h
      rw [List.map_append, List.nodup_append]
      refine ⟨T.nodup, by simp, ?_⟩
      intro a ha b hb hab
      obtain ⟨r₀, hr₀, rfl⟩ := List.mem_map.mp ha
      have hb' : b = key r := by simpa using hb
      exact get?_none.mp hnone r₀ hr₀ (hab.trans hb')

theorem mem_upsert {T : Table key} {r r' : ρ} :
    r' ∈ (T.upsert r).rows ↔ r' = r ∨ (r' ∈ T.rows ∧ key r' ≠ key r) := by
  show r' ∈ (if (T.get? (key r)).isSome then
      T.rows.map (fun r₀ => if key r₀ = key r then r else r₀) else T.rows ++ [r]) ↔ _
  split
  next h =>
    obtain ⟨r₁, hr₁⟩ := Option.isSome_iff_exists.mp h
    obtain ⟨hmem, hk⟩ := get?_some hr₁
    rw [mem_map]
    constructor
    · rintro ⟨r₀, hr₀, rfl⟩
      by_cases hk₀ : key r₀ = key r
      · left; rw [if_pos hk₀]
      · right; rw [if_neg hk₀]; exact ⟨hr₀, hk₀⟩
    · rintro (rfl | ⟨hr', hne⟩)
      · exact ⟨r₁, hmem, by rw [if_pos hk]⟩
      · exact ⟨r', hr', by rw [if_neg hne]⟩
  next h =>
    have hnone : T.get? (key r) = none := by simpa using h
    rw [mem_append, mem_singleton]
    constructor
    · rintro (hr' | rfl)
      · exact .inr ⟨hr', get?_none.mp hnone r' hr'⟩
      · exact .inl rfl
    · rintro (rfl | ⟨hr', _⟩)
      · exact .inr rfl
      · exact .inl hr'

theorem rows_upsert_of_mem {T : Table key} {r r₀ : ρ} (hr₀ : r₀ ∈ T.rows) (hk : key r₀ = key r) :
    (T.upsert r).rows = T.rows.map (fun x => if key x = key r then r else x) := by
  have hsome : T.get? (key r) = some r₀ := get?_eq_some_iff.mpr ⟨hr₀, hk⟩
  show (if (T.get? (key r)).isSome then _ else _) = _
  rw [hsome]
  rfl

theorem get?_upsert {T : Table key} {r : ρ} (k : κ) :
    (T.upsert r).get? k = if k = key r then some r else T.get? k := by
  split
  next h =>
    subst h
    rw [get?_eq_some_iff]
    exact ⟨mem_upsert.mpr (.inl rfl), rfl⟩
  next h =>
    cases hg : T.get? k with
    | none =>
      rw [get?_none]
      intro r' hr'
      rcases mem_upsert.mp hr' with rfl | ⟨hmem, _⟩
      · exact fun hk => h hk.symm
      · exact get?_none.mp hg r' hmem
    | some r' =>
      obtain ⟨hmem, hk⟩ := get?_some hg
      rw [get?_eq_some_iff]
      refine ⟨mem_upsert.mpr (.inr ⟨hmem, ?_⟩), hk⟩
      rw [hk]
      exact h

end Lookup

/-! ## Append a row with a new key. -/

/-- Append `r`, whose key no row has. -/
def insertNew (T : Table key) (r : ρ) (h : ∀ r₀ ∈ T.rows, key r₀ ≠ key r) : Table key where
  rows := T.rows ++ [r]
  nodup := by
    rw [List.map_append, List.nodup_append]
    refine ⟨T.nodup, by simp, ?_⟩
    intro a ha b hb hab
    obtain ⟨r₀, hr₀, rfl⟩ := List.mem_map.mp ha
    have hb' : b = key r := by simpa using hb
    exact h r₀ hr₀ (hab.trans hb')

@[simp] theorem mem_insertNew {T : Table key} {r r' : ρ} {h : ∀ r₀ ∈ T.rows, key r₀ ≠ key r} :
    r' ∈ (T.insertNew r h).rows ↔ r' ∈ T.rows ∨ r' = r := by
  simp [insertNew]

theorem get?_insertNew [DecidableEq κ] {T : Table key} {r : ρ}
    {h : ∀ r₀ ∈ T.rows, key r₀ ≠ key r} (k : κ) :
    (T.insertNew r h).get? k = if k = key r then some r else T.get? k := by
  split
  next hk =>
    subst hk
    rw [get?_eq_some_iff]
    exact ⟨mem_insertNew.mpr (.inr rfl), rfl⟩
  next hk =>
    show (T.rows ++ [r]).find? (fun r => key r = k) = T.rows.find? (fun r => key r = k)
    rw [find?_append]
    have hr : [r].find? (fun r => decide (key r = k)) = none := by
      simp [Ne.symm hk]
    rw [hr, Option.or_none]

/-! ## Remove a row. -/

/-- Remove the row with key `k`, if there is one. -/
def remove [DecidableEq κ] (T : Table key) (k : κ) : Table key where
  rows := T.rows.filter (fun r => key r ≠ k)
  nodup := T.nodup.sublist (List.filter_sublist.map _)

theorem get?_remove [DecidableEq κ] {T : Table key} {k : κ} (k' : κ) :
    (T.remove k).get? k' = if k' = k then none else T.get? k' := by
  have hmem : ∀ {r : ρ}, r ∈ (T.remove k).rows ↔ r ∈ T.rows ∧ key r ≠ k := by
    intro r
    simp [remove, mem_filter]
  split
  next h =>
    subst h
    rw [get?_none]
    exact fun r hr => (hmem.mp hr).2
  next h =>
    cases hg : T.get? k' with
    | none =>
      rw [get?_none] at hg ⊢
      exact fun r hr => hg r (hmem.mp hr).1
    | some r =>
      obtain ⟨hr, rfl⟩ := get?_some hg
      rw [get?_eq_some_iff]
      exact ⟨hmem.mpr ⟨hr, h⟩, rfl⟩

/-! ## Counting rows. -/

theorem countP_modify_of_same {T : Table key} {p : ρ → Bool} {f : ρ → ρ}
    {hf : ∀ r, key (f r) = key r} {φ : ρ → Bool} (h : ∀ r ∈ T.rows, p r = true → φ (f r) = φ r) :
    (T.modify p f hf).rows.countP φ = T.rows.countP φ := by
  show (T.rows.map (fun r => if p r then f r else r)).countP φ = _
  rw [countP_map]
  apply countP_congr
  intro r hr
  show φ (if p r then f r else r) = true ↔ φ r = true
  split
  next hp => rw [h r hr hp]
  next => exact Iff.rfl

private theorem countP_map_one {p φ : ρ → Bool} {f : ρ → ρ} {r : ρ} :
    ∀ rows : List ρ, rows.Nodup → r ∈ rows → (∀ x ∈ rows, p x = true ↔ x = r) →
      (rows.map (fun x => if p x then f x else x)).countP φ + (if φ r then 1 else 0)
        = rows.countP φ + (if φ (f r) then 1 else 0) := by
  intro rows
  induction rows with
  | nil =>
    intro _ hr _
    exact absurd hr (by simp)
  | cons x xs ih =>
  intro hnodup hr hp
  obtain ⟨hnot, hnodup⟩ := nodup_cons.mp hnodup
  rw [map_cons, countP_cons, countP_cons]
  by_cases hx : x = r
  · -- the row itself: no other one is changed
    subst hx
    have hrest : xs.map (fun y => if p y then f y else y) = xs := by
      conv_rhs => rw [← map_id xs]
      apply map_congr_left
      intro y hy
      have hne : ¬ p y = true := by
        intro hpy
        rw [(hp y (.tail _ hy)).mp hpy] at hy
        exact hnot hy
      rw [if_neg hne]
      rfl
    rw [hrest, if_pos ((hp x mem_cons_self).mpr rfl)]
    omega
  have hmem : r ∈ xs := by
    rcases mem_cons.mp hr with h | h
    · exact absurd h.symm hx
    · exact h
  have htail := ih hnodup hmem (fun y hy => hp y (.tail _ hy))
  have hne : ¬ p x = true := fun h => hx ((hp x mem_cons_self).mp h)
  rw [if_neg hne]
  omega

theorem countP_modify_one {T : Table key} {p : ρ → Bool} {f : ρ → ρ}
    {hf : ∀ r, key (f r) = key r} {r : ρ} (hr : r ∈ T.rows)
    (hp : ∀ x ∈ T.rows, p x = true ↔ x = r) (φ : ρ → Bool) :
    (T.modify p f hf).rows.countP φ + (if φ r then 1 else 0)
      = T.rows.countP φ + (if φ (f r) then 1 else 0) :=
  countP_map_one T.rows (T.nodup.of_map key) hr hp

theorem countP_insertNew {T : Table key} {r : ρ} {h : ∀ r₀ ∈ T.rows, key r₀ ≠ key r}
    (φ : ρ → Bool) :
    (T.insertNew r h).rows.countP φ = T.rows.countP φ + if φ r then 1 else 0 := by
  show (T.rows ++ [r]).countP φ = _
  rw [countP_append, countP_singleton]

end Table

/-! ## Sorted, limited queries. -/

section Query

variable {ρ : Type}

/-- Go's `sort` with `less`-by-key, or SQL `ORDER BY key`: stable ascending. -/
def sortBy (key : ρ → Int) (rows : List ρ) : List ρ :=
  rows.insertionSort (fun a b => key a ≤ key b)

/-- `LIMIT limit` when the limit is positive, everything otherwise. -/
def limited (limit : Int) (rows : List ρ) : List ρ :=
  if limit > 0 then rows.take limit.toNat else rows

@[simp] theorem mem_sortBy {key : ρ → Int} {rows : List ρ} {r : ρ} :
    r ∈ sortBy key rows ↔ r ∈ rows :=
  mem_insertionSort _

theorem mem_of_mem_limited {limit : Int} {rows : List ρ} {r : ρ}
    (h : r ∈ limited limit rows) : r ∈ rows := by
  unfold limited at h
  split at h
  · exact mem_of_mem_take h
  · exact h

theorem sortBy_perm (key : ρ → Int) (rows : List ρ) : (sortBy key rows).Perm rows :=
  perm_insertionSort _ rows

theorem sortBy_pairwise (key : ρ → Int) (rows : List ρ) :
    (sortBy key rows).Pairwise (fun a b => key a ≤ key b) := by
  have htotal : Std.Total (fun a b : ρ => key a ≤ key b) := ⟨fun a b => Int.le_total _ _⟩
  have htrans : IsTrans ρ (fun a b : ρ => key a ≤ key b) := ⟨fun a b c => Int.le_trans⟩
  exact pairwise_insertionSort (fun a b : ρ => key a ≤ key b) rows

/-- The order in which a query meets the rows it selects. -/
structure Scan (ρ : Type) where
  order : List ρ → List ρ
  perm : ∀ rows, (order rows).Perm rows

/-- Rows met in the order they are stored in. -/
def Scan.stored : Scan ρ := ⟨id, fun _ => Perm.refl _⟩

instance : Inhabited (Scan ρ) := ⟨.stored⟩

/-- `ORDER BY key`: rows with one key come as the query meets them. -/
def Scan.orderBy (scan : Scan ρ) (key : ρ → Int) (rows : List ρ) : List ρ :=
  sortBy key (scan.order rows)

theorem Scan.orderBy_perm (scan : Scan ρ) (key : ρ → Int) (rows : List ρ) :
    (scan.orderBy key rows).Perm rows :=
  (sortBy_perm key _).trans (scan.perm rows)

@[simp] theorem Scan.mem_orderBy {scan : Scan ρ} {key : ρ → Int} {rows : List ρ} {r : ρ} :
    r ∈ scan.orderBy key rows ↔ r ∈ rows :=
  (scan.orderBy_perm key rows).mem_iff

open Classical in
/-- Every sorted order of the rows is one that a query may give. -/
theorem exists_scan (key : ρ → Int) {rows sorted : List ρ} (hp : sorted.Perm rows)
    (hs : sorted.Pairwise (fun a b => key a ≤ key b)) :
    ∃ scan : Scan ρ, scan.orderBy key rows = sorted := by
  refine ⟨⟨fun l => if sorted.Perm l then sorted else l, ?_⟩, ?_⟩
  · intro l
    split
    next h => exact h
    next => exact Perm.refl l
  · show sortBy key (if sorted.Perm rows then sorted else rows) = sorted
    rw [if_pos hp]
    exact Pairwise.insertionSort_eq hs

/-- When no two rows share a key, the sorted list does not depend on their order. -/
theorem sortBy_eq_of_perm {key : ρ → Int} {rows rows' : List ρ} (hp : rows.Perm rows')
    (hkey : (rows'.map key).Nodup) : sortBy key rows = sortBy key rows' := by
  have hperm : (sortBy key rows).Perm (sortBy key rows') :=
    ((sortBy_perm key rows).trans hp).trans (sortBy_perm key rows').symm
  refine Perm.eq_of_pairwise ?_ (sortBy_pairwise key rows) (sortBy_pairwise key rows') hperm
  intro a b ha hb hab hba
  have ha' : a ∈ rows' := hp.mem_iff.mp (mem_sortBy.mp ha)
  exact inj_on_of_nodup_map hkey ha' (mem_sortBy.mp hb) (Int.le_antisymm hab hba)

theorem map_sortBy {σ : Type} {key : ρ → Int} {key' : σ → Int} {f : ρ → σ}
    (h : ∀ r, key' (f r) = key r) (rows : List ρ) :
    (sortBy key rows).map f = sortBy key' (rows.map f) := by
  unfold sortBy
  apply map_insertionSort
  intro a _ b _
  rw [h, h]

end Query

end AiScheduler.Lib
