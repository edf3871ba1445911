/-
  **TAKING TURNS ON A LIST THAT IS SORTED ANEW.**

  A pointer goes once around `n` items, which are sorted by a key before each turn, equal keys in
  any order. The item that is taken grows, so that it may move toward the end (`Round`).

  Main results:
    * `Round.once` — every item is taken once if each, when it has grown, is still before the next.
    * `Round.ahead_of_once` — and only if, where ties are broken by a fixed rank: an item not yet
      taken is never behind the place it started at, so in a fair round it is taken there.
    * `exists_rank` — an item that is not still before the next one has a rank that shows it.
-/
import Mathlib.Data.List.Perm.Subperm
import Mathlib.Data.List.Nodup
import Mathlib.Data.List.Range
import Mathlib.Logic.Function.Iterate
import Mathlib.Order.Defs.LinearOrder
import Mathlib.Tactic.Linarith

namespace AiScheduler.Lib

open List

variable {α β κ : Type}

/-! ## Once around. -/

section Place

variable {n s j k : Nat} (hs : s < n)

include hs

theorem place_eq (hk : k < n) : (s + k) % n = if s + k < n then s + k else s + k - n := by
  split
  next hlt => exact Nat.mod_eq_of_lt hlt
  next hge => rw [Nat.mod_eq_sub_mod (by omega), Nat.mod_eq_of_lt (by omega)]

theorem place_lt (k : Nat) : (s + k) % n < n := Nat.mod_lt _ (by omega)

theorem place_inj (hj : j < n) (hk : k < n) (heq : (s + j) % n = (s + k) % n) : j = k := by
  rw [place_eq hs hj, place_eq hs hk] at heq
  split at heq <;> split at heq <;> omega

/-- A place has its turn after the one before it, unless the pointer starts there. -/
theorem turn_lt_turn {i : Nat} (hj : j < n) (hk : k < n) (hplace : (s + j) % n = i)
    (hnext : (s + k) % n = i + 1) (hne : i + 1 ≠ s) : j < k := by
  rw [place_eq hs hj] at hplace
  rw [place_eq hs hk] at hnext
  split at hplace <;> split at hnext <;> omega

end Place

/-- The item taken at the turn `k` of a pointer that starts at `s`. -/
def turn (n s : Nat) (L : Nat → List α) (k : Nat) : Option α := (L k)[(s + k) % n]?

/-- The items taken, in turn. -/
def taken (n s : Nat) (L : Nat → List α) : List (Option α) := (List.range n).map (turn n s L)

theorem turn_mem_of_perm {n s k : Nat} {L : Nat → List α} (hs : s < n) (hlen : (L 0).length = n)
    (hperm : (L k).Perm (L 0)) : turn n s L k ∈ (L 0).map some := by
  have hlt : (s + k) % n < (L k).length := by
    rw [hperm.length_eq, hlen]
    exact place_lt hs k
  unfold turn
  rw [getElem?_eq_getElem hlt]
  exact mem_map_of_mem (hperm.mem_iff.mp (getElem_mem hlt))

/-! ## Items that grow when they are taken. -/

section Growing

variable [LinearOrder κ] {key : α → κ} {grow : α → α} {name : α → β} {n s : Nat}
  {l : Nat → List α}

/-- Once around items listed as `l k` at turn `k`: sorted by key, and from turn to turn the item
taken has grown. -/
structure Round (key : α → κ) (grow : α → α) (name : α → β) (n s : Nat) (l : Nat → List α) :
    Prop where
  start : s < n
  length : (l 0).length = n
  nodup : ((l 0).map name).Nodup
  sorted : ∀ k < n, (l k).Pairwise (fun a b => key a ≤ key b)
  grows : ∀ x, key x < key (grow x)
  named : ∀ x, name (grow x) = name x
  next : ∀ k, k + 1 < n → (l (k + 1)).Perm ((l k).modify ((s + k) % n) grow)

/-- Every grown item is still before the next, but for the pair the pointer starts between. -/
def Apart (key : α → κ) (grow : α → α) (s : Nat) (l : List α) : Prop :=
  ∀ i a b, l[i]? = some a → l[i + 1]? = some b → i + 1 ≠ s → key (grow a) < key b

theorem map_name_modify (hnamed : ∀ x, name (grow x) = name x) (l : List α) (i : Nat) :
    (l.modify i grow).map name = l.map name := by
  apply ext_getElem?
  intro j
  rw [getElem?_map, getElem?_map]
  by_cases hij : i = j
  · subst hij
    rw [getElem?_modify_eq]
    cases l[i]? with
    | none => rfl
    | some x => exact congrArg some (hnamed x)
  · rw [getElem?_modify_ne _ _ hij]

/-- Items at two places have two names. -/
theorem eq_place_of_name {l : List α} (hnodup : (l.map name).Nodup) {i j : Nat} {x y : α}
    (hx : l[i]? = some x) (hy : l[j]? = some y) (hname : name x = name y) : i = j := by
  have hi : i < (l.map name).length := by
    rw [length_map]
    exact (List.getElem?_eq_some_iff.mp hx).1
  apply (getElem?_inj hi hnodup).mp
  rw [getElem?_map, getElem?_map, hx, hy, Option.map_some, Option.map_some, hname]

/-- An item is replaced where it stands. -/
theorem map_replace_eq_modify [DecidableEq β] {l : List α} {i : Nat} {x : α} (hx : l[i]? = some x)
    (hnodup : (l.map name).Nodup) :
    l.map (fun y => if name y = name x then grow x else y) = l.modify i grow := by
  apply ext_getElem?
  intro j
  rw [getElem?_map]
  by_cases hij : i = j
  · subst hij
    rw [getElem?_modify_eq, hx]
    simp
  rw [getElem?_modify_ne _ _ hij]
  cases hy : l[j]? with
  | none => rfl
  | some y =>
    have hne : name y ≠ name x := fun hname => hij (eq_place_of_name hnodup hx hy hname.symm)
    simp [hne]

theorem name_iterate (hnamed : ∀ x, name (grow x) = name x) (x : α) (c : Nat) :
    name (grow^[c] x) = name x := by
  induction c with
  | zero => rfl
  | succ c ih => rw [Function.iterate_succ_apply', hnamed, ih]

namespace Round

section Names

variable (h : Round key grow name n s l)

include h

theorem names_perm : ∀ k < n, ((l k).map name).Perm ((l 0).map name) := by
  intro k
  induction k with
  | zero => exact fun _ => Perm.refl _
  | succ k ih =>
  intro hk
  have hperm := (h.next k hk).map name
  rw [map_name_modify h.named] at hperm
  exact hperm.trans (ih (by omega))

theorem nodup_at {k : Nat} (hk : k < n) : ((l k).map name).Nodup :=
  (h.names_perm k hk).nodup_iff.mpr h.nodup

theorem exists_item {k : Nat} (hk : k < n) : ∃ x, (l k)[(s + k) % n]? = some x := by
  have hlen := (h.names_perm k hk).length_eq
  rw [length_map, length_map, h.length] at hlen
  exact ⟨_, getElem?_eq_getElem (by rw [hlen]; exact place_lt h.start k)⟩

theorem perm_of_nodup (hnodup : (taken n s (fun k => (l k).map name)).Nodup) :
    (taken n s (fun k => (l k).map name)).Perm (((l 0).map name).map some) := by
  have hsub : taken n s (fun k => (l k).map name) ⊆ ((l 0).map name).map some := by
    intro x hx
    obtain ⟨k, hk, rfl⟩ := mem_map.mp hx
    exact turn_mem_of_perm (L := fun k => (l k).map name) h.start
      ((length_map _).trans h.length) (h.names_perm k (mem_range.mp hk))
  refine (subperm_of_subset hnodup hsub).perm_of_length_le ?_
  unfold taken
  rw [length_map, length_map, length_map, length_range, h.length]

variable {k : Nat} (hstill : ∀ j < k, (l j).map name = (l 0).map name)

include hstill

/-- While nobody has moved, the turns take the items where they are. -/
theorem place_of_turn {j i : Nat} {x : α} (hj : j < k) (hx : (l 0)[i]? = some x)
    (hturn : turn n s (fun k => (l k).map name) j = some (name x)) : (s + j) % n = i := by
  have hat : ((l j).map name)[(s + j) % n]? = some (name x) := hturn
  rw [hstill j hj, getElem?_map] at hat
  obtain ⟨y, hy, hname⟩ := Option.map_eq_some_iff.mp hat
  exact eq_place_of_name h.nodup hy hx hname

theorem nodup_turns (hk : k ≤ n) :
    ((List.range k).map (turn n s (fun k => (l k).map name))).Nodup := by
  apply Nodup.map_on _ nodup_range
  intro i hi j hj heq
  have hi := mem_range.mp hi
  have hj := mem_range.mp hj
  have hat : ((l i).map name)[(s + i) % n]? = ((l j).map name)[(s + j) % n]? := heq
  rw [hstill i hi, hstill j hj] at hat
  refine place_inj h.start (by omega) (by omega) ((getElem?_inj ?_ h.nodup).mp hat)
  rw [length_map, h.length]
  exact place_lt h.start i

end Names

end Round

/-- How often the item of this name was taken before the turn `k`. -/
def times [DecidableEq β] (name : α → β) (n s : Nat) (l : Nat → List α) (k : Nat) (b : β) : Nat :=
  ((List.range k).map (turn n s (fun k => (l k).map name))).count (some b)

/-- The items in the order of the first turn, each as it is at the turn `k`. -/
def grown [DecidableEq β] (grow : α → α) (name : α → β) (n s : Nat) (l : Nat → List α) (k : Nat) :
    List α :=
  (l 0).map (fun x => grow^[times name n s l k (name x)] x)

namespace Round

variable [DecidableEq β] (h : Round key grow name n s l)

include h

theorem perm_grown : ∀ k < n, (l k).Perm (grown grow name n s l k) := by
  intro k
  induction k with
  | zero =>
    intro _
    unfold grown times
    simp
  | succ k ih =>
  intro hk
  have hperm := ih (by omega)
  obtain ⟨x, hx⟩ := h.exists_item (k := k) (by omega)
  have hturn : turn n s (fun k => (l k).map name) k = some (name x) := by
    unfold turn
    rw [getElem?_map, hx, Option.map_some]
  refine (h.next k hk).trans ?_
  rw [← map_replace_eq_modify hx (h.nodup_at (by omega))]
  refine (hperm.map _).trans (Perm.of_eq ?_)
  unfold grown
  rw [map_map]
  refine map_congr_left (fun z hz => ?_)
  have htimes : times name n s l (k + 1) (name z)
      = times name n s l k (name z) + if name x = name z then 1 else 0 := by
    unfold times
    rw [range_succ, map_append, count_append, map_singleton, count_singleton, hturn]
    simp only [beq_iff_eq, Option.some.injEq]
  show (if name (grow^[_] z) = name x then grow x else grow^[_] z) = _
  rw [name_iterate h.named, htimes]
  by_cases hname : name z = name x
  · -- the item taken is the grown `z`
    have hgrown := hperm.mem_iff.mpr (mem_map_of_mem hz)
    rw [if_pos hname, if_pos hname.symm, Function.iterate_succ_apply',
      inj_on_of_nodup_map (h.nodup_at (by omega)) (mem_of_getElem? hx) hgrown
        (hname.symm.trans (name_iterate h.named z _).symm)]
  · rw [if_neg hname, if_neg (Ne.symm hname)]
    rfl

/-! ## Everybody in place. -/

/-- After the first turn the items at their places are strictly sorted. -/
theorem pairwise_grown (hapart : Apart key grow s (l 0)) {k : Nat} (hpos : 0 < k) (hk : k < n)
    (hstill : ∀ j < k, (l j).map name = (l 0).map name) :
    (grown grow name n s l k).Pairwise (fun a b => key a < key b) := by
  have hone : ∀ b, times name n s l k b ≤ 1 := fun b =>
    nodup_iff_count_le_one.mp (h.nodup_turns hstill (le_of_lt hk)) (some b)
  -- an item is as it was or has grown
  have hmay : ∀ x, key x ≤ key (grow^[times name n s l k (name x)] x)
      ∧ key (grow^[times name n s l k (name x)] x) ≤ key (grow x) := by
    intro x
    rcases Nat.le_one_iff_eq_zero_or_eq_one.mp (hone (name x)) with hc | hc <;> rw [hc]
    · exact ⟨le_refl _, le_of_lt (h.grows x)⟩
    · exact ⟨le_of_lt (h.grows x), le_refl _⟩
  have htrans : IsTrans α (fun a b => key a < key b) := ⟨fun _ _ _ => lt_trans⟩
  rw [← isChain_iff_pairwise, isChain_iff_getElem]
  intro i hi
  unfold grown at hi ⊢
  rw [length_map] at hi
  rw [getElem_map, getElem_map]
  have ha : (l 0)[i]? = _ := getElem?_eq_getElem (by omega)
  have hb : (l 0)[i + 1]? = _ := getElem?_eq_getElem hi
  by_cases hstart : i + 1 = s
  · -- the first turn was the right one's, the left one's is the last
    have hleft : times name n s l k (name (l 0)[i]) = 0 := by
      refine count_eq_zero.mpr (fun hmem => ?_)
      obtain ⟨j, hj, hturn⟩ := mem_map.mp hmem
      have hj := mem_range.mp hj
      have hplace := h.place_of_turn hstill hj ha hturn
      rw [place_eq h.start (by omega)] at hplace
      split at hplace <;> omega
    have hright : 0 < times name n s l k (name (l 0)[i + 1]) := by
      refine count_pos_iff.mpr (mem_map.mpr ⟨0, mem_range.mpr hpos, ?_⟩)
      unfold turn
      rw [Nat.add_zero, Nat.mod_eq_of_lt h.start, ← hstart, getElem?_map, hb, Option.map_some]
    rw [hleft, le_antisymm (hone (name (l 0)[i + 1])) hright]
    exact lt_of_le_of_lt (pairwise_iff_getElem.mp (h.sorted 0 (by omega)) i (i + 1) (by omega) hi
      (by omega)) (h.grows _)
  · exact lt_of_le_of_lt (hmay _).2 (lt_of_lt_of_le (hapart i _ _ ha hb hstart) (hmay _).1)

/-- Nobody moves if each, when it has grown, is still before the next. -/
theorem still_of_apart (hapart : Apart key grow s (l 0)) :
    ∀ k < n, (l k).map name = (l 0).map name := by
  intro k
  induction k using Nat.strong_induction_on with
  | h k ih =>
  intro hk
  rcases Nat.eq_zero_or_pos k with rfl | hpos
  · rfl
  have hperm := h.perm_grown k hk
  have hstrict := h.pairwise_grown hapart hpos hk (fun j hj => ih j hj (by omega))
  have hkeys : ((grown grow name n s l k).map key).Nodup :=
    pairwise_map.mpr (hstrict.imp (fun hab => ne_of_lt hab))
  have heq : l k = grown grow name n s l k := by
    refine Perm.eq_of_pairwise ?_ (h.sorted k hk) (hstrict.imp le_of_lt) hperm
    intro a b ha hb hab hba
    exact inj_on_of_nodup_map hkeys (hperm.mem_iff.mp ha) hb (le_antisymm hab hba)
  rw [heq]
  unfold grown
  rw [map_map]
  exact map_congr_left (fun x _ => name_iterate h.named x _)

/-- **Every item is taken once if each, when it has grown, is still before the next.** -/
theorem once (hapart : Apart key grow s (l 0)) :
    (taken n s (fun k => (l k).map name)).Perm (((l 0).map name).map some) :=
  h.perm_of_nodup (h.nodup_turns (h.still_of_apart hapart) (le_refl n))

end Round

/-! ## Ties broken by rank. -/

/-- By key, and among equal keys by rank. -/
def Ahead (key : α → κ) (rank : α → Nat) (a b : α) : Prop :=
  key a < key b ∨ key a = key b ∧ rank a < rank b

section Rank

variable {rank : α → Nat}

theorem Ahead.trans {a b c : α} (hab : Ahead key rank a b) (hbc : Ahead key rank b c) :
    Ahead key rank a c := by
  rcases hab with hab | ⟨hab, hr⟩ <;> rcases hbc with hbc | ⟨hbc, hr'⟩
  · exact .inl (lt_trans hab hbc)
  · exact .inl (hbc ▸ hab)
  · exact .inl (hab ▸ hbc)
  · exact .inr ⟨hab.trans hbc, by omega⟩

theorem Ahead.asymm {a b : α} (hab : Ahead key rank a b) : ¬ Ahead key rank b a := by
  rintro (hba | ⟨hba, hr'⟩) <;> rcases hab with hab | ⟨hab, hr⟩
  · exact lt_asymm hab hba
  · exact ne_of_gt hba hab
  · exact ne_of_gt hab hba
  · omega

theorem Ahead.of_iterate (hgrows : ∀ x, key x < key (grow x)) {x z : α} {c : Nat}
    (h : Ahead key rank (grow^[c] x) z) : Ahead key rank x z := by
  induction c with
  | zero => exact h
  | succ c ih =>
    rw [Function.iterate_succ_apply'] at h
    exact ih (.trans (.inl (hgrows _)) h)

/-- In a sorted list the items before a place are those ahead of its item. -/
theorem mem_take_iff_ahead {l : List α} (hl : l.Pairwise (Ahead key rank)) {i : Nat} {z : α}
    (hz : l[i]? = some z) (x : α) : x ∈ l.take i ↔ x ∈ l ∧ Ahead key rank x z := by
  obtain ⟨hi, rfl⟩ := List.getElem?_eq_some_iff.mp hz
  have hsplit : l.take i ++ l[i] :: l.drop (i + 1) = l := by
    rw [getElem_cons_drop, take_append_drop]
  rw [← hsplit, pairwise_append, pairwise_cons] at hl
  constructor
  · exact fun hx => ⟨mem_of_mem_take hx, hl.2.2 x hx _ mem_cons_self⟩
  · rintro ⟨hx, hahead⟩
    rw [← hsplit, mem_append, mem_cons] at hx
    rcases hx with hx | rfl | hx
    · exact hx
    · exact absurd hahead hahead.asymm
    · exact absurd hahead (hl.2.1.1 x hx).asymm

namespace Round

variable [DecidableEq β] (h : Round key grow name n s l)

include h

theorem item_of_name {k : Nat} (hk : k < n) {y z : α} (hy : y ∈ l k) (hz : z ∈ l 0)
    (hname : name y = name z) : y = grow^[times name n s l k (name z)] z := by
  obtain ⟨x, hx, rfl⟩ := mem_map.mp ((h.perm_grown k hk).mem_iff.mp hy)
  rw [name_iterate h.named] at hname
  rw [inj_on_of_nodup_map h.nodup hx hz hname]

/-- In a fair round every item is taken as it was. -/
theorem exists_turn
    (honce : (taken n s (fun k => (l k).map name)).Perm (((l 0).map name).map some)) {z : α}
    (hz : z ∈ l 0) : ∃ k < n, (l k)[(s + k) % n]? = some z := by
  obtain ⟨k, hk, hturn⟩ := mem_map.mp (honce.mem_iff.mpr (mem_map_of_mem (mem_map_of_mem hz)))
  have hat : ((l k).map name)[(s + k) % n]? = some (name z) := hturn
  rw [getElem?_map] at hat
  obtain ⟨y, hy, hname⟩ := Option.map_eq_some_iff.mp hat
  have hnodup : (taken n s (fun k => (l k).map name)).Nodup :=
    honce.nodup_iff.mpr (h.nodup.map (Option.some_injective β))
  have htimes : times name n s l k (name z) = 0 := by
    refine count_eq_zero.mpr (fun hbefore => ?_)
    obtain ⟨j, hj, hturn'⟩ := mem_map.mp hbefore
    have hjk := mem_range.mp hj
    have hkn := mem_range.mp hk
    have := inj_on_of_nodup_map hnodup (mem_range.mpr (hjk.trans hkn)) hk
      (hturn'.trans hturn.symm)
    omega
  refine ⟨k, mem_range.mp hk, ?_⟩
  rw [hy, h.item_of_name (mem_range.mp hk) (mem_of_getElem? hy) hz hname, htimes]
  rfl

variable (hrank : ∀ k < n, (l k).Pairwise (Ahead key rank))

include hrank

theorem before_subperm {k p i : Nat} {z : α} (hk : k < n) (hz : (l k)[p]? = some z)
    (hz₀ : (l 0)[i]? = some z) : (((l k).take p).map name).Subperm (((l 0).take i).map name) := by
  refine subperm_of_subset ((h.nodup_at hk).sublist ((take_sublist _ _).map _)) ?_
  intro b hb
  obtain ⟨y, hy, rfl⟩ := mem_map.mp hb
  obtain ⟨hmem, hahead⟩ := (mem_take_iff_ahead (hrank k hk) hz y).mp hy
  obtain ⟨x, hx, rfl⟩ := mem_map.mp ((h.perm_grown k hk).mem_iff.mp hmem)
  rw [name_iterate h.named]
  exact mem_map_of_mem ((mem_take_iff_ahead (hrank 0 (by omega)) hz₀ x).mpr
    ⟨hx, hahead.of_iterate h.grows⟩)

/-- **An item not yet taken is never behind the place it started at.** -/
theorem place_le {k p i : Nat} {z : α} (hk : k < n) (hz : (l k)[p]? = some z)
    (hz₀ : (l 0)[i]? = some z) : p ≤ i := by
  have hle := (h.before_subperm hrank hk hz hz₀).length_le
  have hp := (List.getElem?_eq_some_iff.mp hz).1
  rw [length_map, length_map, length_take, length_take] at hle
  omega

variable (honce : (taken n s (fun k => (l k).map name)).Perm (((l 0).map name).map some))

include honce

/-- **In a fair round every item is taken where it started.** -/
theorem turn_at_place (i : Nat) : ∀ z, (l 0)[i]? = some z →
    ∃ k < n, (s + k) % n = i ∧ (l k)[i]? = some z := by
  induction i using Nat.strong_induction_on with
  | h i ih =>
  intro z hz
  obtain ⟨k, hk, hat⟩ := h.exists_turn honce (mem_of_getElem? hz)
  rcases Nat.lt_or_eq_of_le (h.place_le hrank hk hat hz) with hlt | heq
  · -- that place belongs to another item
    obtain ⟨x, hx⟩ : ∃ x, (l 0)[(s + k) % n]? = some x :=
      ⟨_, getElem?_eq_getElem (by rw [h.length]; exact place_lt h.start k)⟩
    obtain ⟨k', hk', hplace, hat'⟩ := ih _ hlt x hx
    have hsame := place_inj h.start hk' hk hplace
    subst hsame
    cases hat.symm.trans hat'
    have := eq_place_of_name h.nodup hx hz rfl
    omega
  · rw [heq] at hat
    exact ⟨k, hk, heq, hat⟩

/-- **… and only if, by key and rank.** -/
theorem ahead_of_once {i : Nat} {a b : α} (ha : (l 0)[i]? = some a) (hb : (l 0)[i + 1]? = some b)
    (hne : i + 1 ≠ s) : Ahead key rank (grow a) b := by
  obtain ⟨j, hj, hplace, hat⟩ := h.turn_at_place hrank honce i a ha
  obtain ⟨k, hk, hplace', hat'⟩ := h.turn_at_place hrank honce (i + 1) b hb
  have hjk := turn_lt_turn h.start hj hk hplace hplace' hne
  -- when `b` has its turn, as many are ahead of it as at the start, so `a` still is
  have hi := (List.getElem?_eq_some_iff.mp hat').1
  have hperm := (h.before_subperm hrank hk hat' hb).perm_of_length_le (by
    rw [length_map, length_map, length_take, length_take]
    omega)
  have hmem : a ∈ (l 0).take (i + 1) := by
    apply mem_of_getElem? (i := i)
    rw [getElem?_take_of_lt (by omega)]
    exact ha
  obtain ⟨y, hy, hname⟩ := mem_map.mp (hperm.mem_iff.mpr (mem_map_of_mem hmem))
  obtain ⟨hyk, hahead⟩ := (mem_take_iff_ahead (hrank k hk) hat' y).mp hy
  rw [h.item_of_name hk hyk (mem_of_getElem? ha) hname] at hahead
  -- and it has grown
  obtain ⟨c, hc⟩ : ∃ c, times name n s l k (name a) = c + 1 := by
    refine Nat.exists_eq_add_one.mpr (count_pos_iff.mpr (mem_map.mpr ⟨j, mem_range.mpr hjk, ?_⟩))
    unfold turn
    rw [hplace, getElem?_map, hat, Option.map_some]
  rw [hc, Function.iterate_succ_apply] at hahead
  exact hahead.of_iterate h.grows

end Round

end Rank

/-- **An item that has grown and is not before the next one** is behind it by some rank that keeps
the list as it is and tells any two items apart. -/
theorem exists_rank [DecidableEq β] {l : List α} {a b : α}
    (hsorted : l.Pairwise (fun a b => key a ≤ key b)) (hnodup : (l.map name).Nodup)
    (hgrows : ∀ x, key x < key (grow x)) (hnamed : ∀ x, name (grow x) = name x) (ha : a ∈ l)
    (hb : b ∈ l) (hnot : ¬ key (grow a) < key b) :
    ∃ rank : α → Nat, l.Pairwise (Ahead key rank) ∧ ¬ Ahead key rank (grow a) b
      ∧ ∀ x y, name x ∈ l.map name → name y ∈ l.map name → name x ≠ name y → rank x ≠ rank y := by
  classical
  -- the places in the list, but for the grown `a`
  let rank : α → Nat := fun x => if x = grow a then l.length else (l.map name).idxOf (name x)
  have hidx : ∀ x, name x ∈ l.map name → (l.map name).idxOf (name x) < l.length := by
    intro x hx
    have hlt := idxOf_lt_length_of_mem hx
    rwa [length_map] at hlt
  have hrank : ∀ x ∈ l, rank x = (l.map name).idxOf (name x) := by
    rintro x hx
    refine if_neg ?_
    rintro rfl
    have hsame := inj_on_of_nodup_map hnodup hx ha (hnamed a)
    exact ne_of_gt (hgrows a) (congrArg key hsame)
  refine ⟨rank, ?_, ?_, ?_⟩
  · have hplaces : l.Pairwise (fun x y =>
        (l.map name).idxOf (name x) < (l.map name).idxOf (name y)) := by
      rw [← pairwise_map (R := fun x y => (l.map name).idxOf x < (l.map name).idxOf y),
        pairwise_iff_getElem]
      intro i j hi hj hij
      rw [hnodup.idxOf_getElem i hi, hnodup.idxOf_getElem j hj]
      exact hij
    refine (hsorted.and hplaces).imp_of_mem ?_
    rintro x y hx hy ⟨hle, hr⟩
    rcases lt_or_eq_of_le hle with hlt | heq
    · exact .inl hlt
    · exact .inr ⟨heq, by rwa [hrank x hx, hrank y hy]⟩
  · rintro (hlt | ⟨_, hr⟩)
    · exact hnot hlt
    · rw [hrank b hb] at hr
      have hlt := hidx b (mem_map_of_mem hb)
      have hlast : rank (grow a) = l.length := if_pos rfl
      omega
  · intro x y hx hy hne
    have hltx := hidx x hx
    have hlty := hidx y hy
    show (if _ then _ else _) ≠ (if _ then _ else _)
    split
    next hxa =>
      rw [if_neg (fun hya => hne (congrArg name (hxa.trans hya.symm)))]
      omega
    next =>
      split
      · omega
      · exact fun heq => hne ((idxOf_inj hx).mp heq)

end Growing

end AiScheduler.Lib
