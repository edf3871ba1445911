/-
  **THE FIRST `k` ROWS OF A SORTED QUERY WHOSE TIES ARE OPEN.**

  `ORDER BY key LIMIT k` fixes the order of rows with different keys only, so rows that tie around
  the `k`th place may be answered or not.

  Main results:
    * `exists_scan_take_iff` — the lists such a query may answer.
    * `countP_lt_of_mem_take` — a row it answers has fewer than `k` before it.
    * `mem_take_of_countP_le` — a row with at most `k` up to it is always answered.
    * `mem_take_iff` — with a strict order, the first `k` are those with fewer than `k` before.
-/
import AiScheduler.Lib.Table

namespace AiScheduler.Lib

open List

variable {ρ : Type} {key : ρ → Int} {D E : List ρ} {d : ρ} {k : Nat}

/-- A row of a list, with what comes before and after it, is among the first `k` if its place is. -/
theorem mem_take_of_split {pre post : List ρ} (hk : pre.length < k) :
    d ∈ (pre ++ d :: post).take k := by
  rw [take_append, take_of_length_le (by omega)]
  obtain ⟨m, hm⟩ : ∃ m, k - pre.length = m + 1 := ⟨k - pre.length - 1, by omega⟩
  rw [hm]
  simp

theorem not_mem_take_of_split {pre post : List ρ} (hd : d ∉ pre) (hk : k ≤ pre.length) :
    d ∉ (pre ++ d :: post).take k := by
  rw [take_append_of_le_length hk]
  exact fun h => hd (mem_of_mem_take h)

/-! ## The rows a query answers. -/

/-- Fewer than `k` rows have a smaller key than one of the first `k`. -/
theorem countP_lt_of_mem_take {scan : Scan ρ} (hmem : d ∈ (scan.orderBy key D).take k) :
    D.countP (fun x => key x < key d) < k := by
  obtain ⟨pre, post, hsplit⟩ := append_of_mem hmem
  have hlen : pre.length < k := by
    have h := congrArg length hsplit
    rw [length_take, length_append, length_cons] at h
    omega
  -- nothing from `d` on has a smaller key
  have hsorted : (scan.orderBy key D).Pairwise (fun a b => key a ≤ key b) := sortBy_pairwise _ _
  have hall : scan.orderBy key D = pre ++ (d :: post ++ (scan.orderBy key D).drop k) := by
    rw [← append_assoc, ← hsplit, take_append_drop]
  rw [← (scan.orderBy_perm key D).countP_eq, hall, countP_append]
  rw [hall, cons_append, pairwise_append, pairwise_cons] at hsorted
  have hrest : (d :: post ++ (scan.orderBy key D).drop k).countP (fun x => key x < key d) = 0 := by
    rw [countP_eq_zero]
    intro x hx
    rcases mem_cons.mp hx with rfl | hx
    · simp
    · simpa using hsorted.2.1.1 x hx
  have hpre := countP_le_length (l := pre) (p := fun x => decide (key x < key d))
  omega

/-- A row is among the first `k`, in every order, if at most `k` rows have no larger key. -/
theorem mem_take_of_countP_le (scan : Scan ρ) (hd : d ∈ D)
    (hfew : D.countP (fun x => key x ≤ key d) ≤ k) : d ∈ (scan.orderBy key D).take k := by
  obtain ⟨pre, post, hsplit⟩ :=
    append_of_mem (scan.mem_orderBy.mpr hd : d ∈ scan.orderBy key D)
  have hsorted : (scan.orderBy key D).Pairwise (fun a b => key a ≤ key b) := sortBy_pairwise _ _
  rw [← (scan.orderBy_perm key D).countP_eq, hsplit, countP_append,
    countP_cons_of_pos (by simp)] at hfew
  rw [hsplit]
  apply mem_take_of_split
  rw [hsplit, pairwise_append] at hsorted
  have hpre : pre.countP (fun x => key x ≤ key d) = pre.length := by
    rw [countP_eq_length]
    exact fun x hx => by simpa using hsorted.2.2 x hx d mem_cons_self
  omega

/-! ## The lists a query may answer. -/

/-- The first `k` of a sorted list: sorted, from the list, and before what they leave out. -/
theorem take_sorted {R : ρ → ρ → Prop} (hD : D.Pairwise R) (k : Nat) :
    (D.take k).Pairwise R ∧ (∀ e ∈ D.take k, e ∈ D)
      ∧ ∀ d ∈ D, d ∈ D.take k ∨ ((D.take k).length = k ∧ ∀ e ∈ D.take k, R e d) := by
  refine ⟨hD.sublist (take_sublist k D), fun e he => mem_of_mem_take he, ?_⟩
  intro d hd
  rw [← take_append_drop k D] at hd hD
  rcases mem_append.mp hd with hd | hd
  · exact .inl hd
  refine .inr ⟨?_, fun e he => (pairwise_append.mp hD).2.2 e he d hd⟩
  -- something is dropped, so `k` rows were taken
  have hpos : 0 < (D.drop k).length := length_pos_of_mem hd
  rw [length_drop] at hpos
  rw [length_take]
  omega

/-- **THE LISTS A QUERY MAY ANSWER**: sorted, from the rows, and leaving out only rows that are not
before any of a full `k`. -/
theorem exists_scan_take_iff (hD : D.Nodup) :
    (∃ scan : Scan ρ, (scan.orderBy key D).take k = E)
      ↔ E.Nodup ∧ E.length ≤ k ∧ E.Pairwise (fun a b => key a ≤ key b) ∧ (∀ e ∈ E, e ∈ D)
        ∧ ∀ d ∈ D, d ∈ E ∨ (E.length = k ∧ ∀ e ∈ E, key e ≤ key d) := by
  classical
  constructor
  · rintro ⟨scan, rfl⟩
    obtain ⟨hsorted, hfrom, hrest⟩ := take_sorted
      (sortBy_pairwise key (scan.order D) : (scan.orderBy key D).Pairwise _) k
    have hnodup : (scan.orderBy key D).Nodup := (scan.orderBy_perm key D).nodup_iff.mpr hD
    exact ⟨hnodup.sublist (take_sublist _ _), length_take_le _ _, hsorted,
      fun e he => scan.mem_orderBy.mp (hfrom e he),
      fun d hd => hrest d (scan.mem_orderBy.mpr hd)⟩
  · rintro ⟨hnodup, hlen, hsorted, hfrom, hrest⟩
    -- the list, then the rows it leaves out
    obtain ⟨scan, hscan⟩ := exists_scan key
      (show (E ++ sortBy key (D.filter (fun x => x ∉ E))).Perm D by
        have hE : E.Perm (D.filter (fun x => x ∈ E)) := by
          rw [perm_ext_iff_of_nodup hnodup (hD.filter _)]
          intro x
          rw [mem_filter, decide_eq_true_iff]
          exact ⟨fun hx => ⟨hfrom x hx, hx⟩, fun hx => hx.2⟩
        have hsplit := filter_append_perm (fun x => decide (x ∈ E)) D
        simp only [← decide_not] at hsplit
        exact (hE.append (sortBy_perm _ _)).trans hsplit)
      (by
        rw [pairwise_append]
        refine ⟨hsorted, sortBy_pairwise _ _, ?_⟩
        intro e he d hd
        obtain ⟨hd, hout⟩ := mem_filter.mp (mem_sortBy.mp hd)
        exact ((hrest d hd).resolve_left (by simpa using hout)).2 e he)
    refine ⟨scan, ?_⟩
    rw [hscan]
    rcases Nat.lt_or_ge E.length k with hlt | hge
    · -- nothing is left out
      have hnil : D.filter (fun x => x ∉ E) = [] := by
        rw [filter_eq_nil_iff]
        intro d hd
        rcases hrest d hd with h | h
        · simpa using h
        · omega
      rw [hnil, show sortBy key [] = [] from rfl, append_nil]
      exact take_of_length_le hlen
    · rw [take_append_of_le_length hge, take_of_length_le hlen]

/-- In a sorted list a test of the key holds up to a row if it holds of all keys up to its own. -/
theorem mem_takeWhile_iff {p : Int → Bool} (hD : D.Pairwise (fun a b => key a ≤ key b)) :
    d ∈ D.takeWhile (fun x => p (key x)) ↔ d ∈ D ∧ ∀ x ∈ D, key x ≤ key d → p (key x) = true := by
  induction D with
  | nil => simp
  | cons a D ih =>
  obtain ⟨ha, hD⟩ := pairwise_cons.mp hD
  have hle : ∀ x ∈ a :: D, key a ≤ key x := by
    intro x hx
    rcases mem_cons.mp hx with rfl | hx
    · exact Int.le_refl _
    · exact ha x hx
  by_cases hp : p (key a) = true
  · rw [takeWhile_cons_of_pos (p := fun x => p (key x)) hp, mem_cons, mem_cons, ih hD]
    constructor
    · rintro (rfl | ⟨hd, hall⟩)
      · refine ⟨.inl rfl, fun x hx hxd => ?_⟩
        rwa [Int.le_antisymm hxd (hle x hx)]
      · refine ⟨.inr hd, fun x hx hxd => ?_⟩
        rcases mem_cons.mp hx with rfl | hx
        · exact hp
        · exact hall x hx hxd
    · rintro ⟨hd, hall⟩
      exact hd.imp_right (fun hd => ⟨hd, fun x hx => hall x (.tail _ hx)⟩)
  · rw [takeWhile_cons_of_neg (p := fun x => p (key x)) hp]
    constructor
    · intro h
      cases h
    · rintro ⟨hd, hall⟩
      exact absurd (hall a mem_cons_self (hle d hd)) hp

/-! ## Strict orders. -/

section Strict

variable {lt : ρ → ρ → Prop} [DecidableRel lt]

/-- **The first `k` of a strictly sorted list** are the rows with fewer than `k` before them. -/
theorem mem_take_iff (hasymm : ∀ a b, lt a b → ¬ lt b a) (hD : D.Pairwise lt) :
    d ∈ D.take k ↔ d ∈ D ∧ D.countP (fun x => lt x d) < k := by
  have hirrefl : ∀ a, ¬ lt a a := fun a h => hasymm a a h h
  have hsplit : ∀ {pre post : List ρ}, D = pre ++ d :: post →
      d ∉ pre ∧ D.countP (fun x => lt x d) = pre.length := by
    rintro pre post rfl
    obtain ⟨_, htail, hcross⟩ := pairwise_append.mp hD
    obtain ⟨hd, _⟩ := pairwise_cons.mp htail
    refine ⟨fun h => hirrefl d (hcross d h d mem_cons_self), ?_⟩
    have hpre : pre.countP (fun x => lt x d) = pre.length := by
      rw [countP_eq_length]
      exact fun x hx => by simpa using hcross x hx d mem_cons_self
    have hpost : (d :: post).countP (fun x => lt x d) = 0 := by
      rw [countP_eq_zero]
      intro x hx
      rcases mem_cons.mp hx with rfl | hx
      · simpa using hirrefl x
      · simpa using hasymm d x (hd x hx)
    rw [countP_append, hpre, hpost, Nat.add_zero]
  constructor
  · intro h
    have hmem := mem_of_mem_take h
    obtain ⟨pre, post, heq⟩ := append_of_mem hmem
    obtain ⟨hnot, hcount⟩ := hsplit heq
    refine ⟨hmem, ?_⟩
    rw [hcount]
    by_contra hge
    rw [heq] at h
    exact not_mem_take_of_split hnot (by omega) h
  · rintro ⟨hmem, hlt⟩
    obtain ⟨pre, post, heq⟩ := append_of_mem hmem
    rw [(hsplit heq).2] at hlt
    rw [heq]
    exact mem_take_of_split hlt

omit [DecidableRel lt] in
/-- What holds of the pairs of a strictly sorted list, in terms of its order. -/
theorem pairwise_iff_of_strict {R : ρ → ρ → Prop} (hasymm : ∀ a b, lt a b → ¬ lt b a)
    (hD : D.Pairwise lt) : D.Pairwise R ↔ ∀ a ∈ D, ∀ b ∈ D, lt a b → R a b := by
  constructor
  · intro hR a ha b hb hab
    obtain ⟨i, hi, rfl⟩ := getElem_of_mem ha
    obtain ⟨j, hj, rfl⟩ := getElem_of_mem hb
    rcases Nat.lt_trichotomy i j with hij | rfl | hji
    · exact pairwise_iff_getElem.mp hR i j hi hj hij
    · exact absurd hab (fun h => hasymm _ _ h h)
    · exact absurd (pairwise_iff_getElem.mp hD j i hj hi hji) (hasymm _ _ hab)
  · intro h
    exact hD.imp_of_mem (fun ha hb hab => h _ ha _ hb hab)

end Strict

end AiScheduler.Lib
