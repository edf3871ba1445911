/-
  **THE PAGES OF THE INSTANCE LIST.**

  The page at an offset should be that stretch of the matching instances, latest id first, next to
  how many match. The branches that cut in memory keep to it up to the end of the list and then
  START OVER; the branch that filters by status alone never reads the offset.
-/
import AiScheduler.Service.Instances

namespace AiScheduler.Pagination

open Lib TaskInstanceService

variable {b : Backend} {scan : Scan TaskInstance} {s : InstanceStore} {params : ListInstancesParams}

/-! ## The law. -/

def keeps (params : ListInstancesParams) (i : TaskInstance) : Bool :=
  (params.taskID ≤ 0 ∨ i.taskID = params.taskID)
    ∧ (params.status = .other "" ∨ i.status = params.status)

def matching (b : Backend) (s : InstanceStore) (params : ListInstancesParams) :
    List TaskInstance :=
  sortBy (fun i => - i.id) ((s.instances.rows.filter (keeps params)).map (readInstance b))

/-- The page the law asks for. -/
def lawful (b : Backend) (s : InstanceStore) (params : ListInstancesParams) :
    InstanceListResult :=
  ⟨((matching b s params).drop params.offset.toNat).take params.limit.toNat,
    (matching b s params).length⟩

def StatusOnly (params : ListInstancesParams) : Prop :=
  params.taskID ≤ 0 ∧ params.status ≠ .other ""

/-- The pages at the offsets `0, limit, …`, `m` of them, one after the other. -/
def pages (b : Backend) (scan : Scan TaskInstance) (s : InstanceStore)
    (params : ListInstancesParams)
    (m : Nat) : List TaskInstance :=
  (List.range m).flatMap (fun k : Nat =>
    match listInstancesWithParams b scan none s { params with offset := k * params.limit } with
    | .ok result => result.instances
    | .error _ => [])

/-! ## The matching instances. -/

theorem matching_ids_nodup :
    (((s.instances.rows.filter (keeps params)).map (readInstance b)).map
      (fun i => - i.id)).Nodup := by
  have hids : (s.instances.rows.map TaskInstance.id).Nodup := s.instances.nodup
  rw [List.map_map]
  have hneg : (fun i : TaskInstance => - i.id) ∘ readInstance b
    = (fun k => - k) ∘ TaskInstance.id := by
    funext i
    simp
  rw [hneg, ← List.map_map]
  exact List.Nodup.map (fun _ _ h => Int.neg_inj.mp h) (hids.sublist (List.filter_sublist.map _))

theorem sortBy_eq_matching {rows : List TaskInstance}
    (h : rows.Perm ((s.instances.rows.filter (keeps params)).map (readInstance b))) :
    sortBy (fun i => - i.id) rows = matching b s params :=
  sortBy_eq_of_perm h matching_ids_nodup

theorem matching_decreasing : (matching b s params).Pairwise (fun i j => j.id < i.id) := by
  have hne : (matching b s params).Pairwise (fun i j => - i.id ≠ - j.id) :=
    List.pairwise_map.mp (((sortBy_perm _ _).map _).nodup_iff.mpr matching_ids_nodup)
  refine (hne.and (sortBy_pairwise _ _)).imp ?_
  intro i j h
  have hle : - i.id ≤ - j.id := h.2
  omega

theorem mem_matching {i : TaskInstance} : i ∈ matching b s params
    ↔ ∃ r ∈ s.instances.rows, keeps params r = true ∧ readInstance b r = i := by
  simp only [matching, mem_sortBy, List.mem_map, List.mem_filter, and_assoc]

/-! ## The branches. -/

theorem select_perm (p : TaskInstance → Bool) (key : TaskInstance → Int) :
    (s.select scan p key).Perm (s.instances.rows.filter p) :=
  (sortBy_perm _ _).trans (scan.perm _)

theorem selected_perm {p : TaskInstance → Bool} {key : TaskInstance → Int}
    (h : ∀ i, keeps params i = p i) :
    ((s.select scan p key).map (readInstance b)).Perm
      ((s.instances.rows.filter (keeps params)).map (readInstance b)) := by
  rw [funext h]
  exact (select_perm p key).map _

theorem filtered_perm {p q : TaskInstance → Bool} {key : TaskInstance → Int}
    (hq : ∀ i, q (readInstance b i) = q i) (h : ∀ i, keeps params i = (q i && p i)) :
    (((s.select scan p key).map (readInstance b)).filter q).Perm
      ((s.instances.rows.filter (keeps params)).map (readInstance b)) := by
  rw [List.filter_map, show q ∘ readInstance b = q from funext hq, funext h, ← List.filter_filter]
  exact ((select_perm p key).filter q).map _

/-- **`paginateInstances`** at a page size and an offset. -/
theorem paginated {instances : List TaskInstance} {limit offset : Int} (hlimit : 0 < limit) :
    paginateInstances instances limit offset = ((sortBy (fun i => - i.id) instances).drop
          (if offset < instances.length then offset.toNat else 0)).take limit.toNat := by
  have hlen : (sortBy (fun i => - i.id) instances).length = instances.length :=
    (sortBy_perm _ _).length_eq
  have hrest : (if 0 < offset ∧ offset < (sortBy (fun i => - i.id) instances).length
        then (sortBy (fun i => - i.id) instances).drop offset.toNat
        else sortBy (fun i => - i.id) instances)
      = (sortBy (fun i => - i.id) instances).drop
          (if offset < instances.length then offset.toNat else 0) := by
    rw [hlen]
    by_cases hpos : 0 < offset
    · by_cases hlt : offset < instances.length
      · rw [if_pos ⟨hpos, hlt⟩, if_pos hlt]
      · rw [if_neg (fun h => hlt h.2), if_neg hlt, List.drop_zero]
    · rw [if_neg (fun h => hpos h.1), show offset.toNat = 0 by omega, ite_self, List.drop_zero]
  unfold paginateInstances
  dsimp only
  rw [hrest]
  generalize List.drop _ _ = rest
  split
  · rfl
  next h =>
    rw [List.take_of_length_le]
    omega

theorem page_in_memory (hlimit : 0 < params.limit) (hbranch : ¬ StatusOnly params) :
    listInstancesWithParams b scan none s params = .ok ⟨((matching b s params).drop
          (if params.offset < (matching b s params).length then params.offset.toNat else 0)).take
            params.limit.toNat, (matching b s params).length⟩ := by
  -- the query returns the matching instances in some order
  have hok : ∀ rows : List TaskInstance,
      rows.Perm ((s.instances.rows.filter (keeps params)).map (readInstance b)) →
      (⟨paginateInstances rows params.limit params.offset, rows.length⟩ : InstanceListResult)
        = ⟨((matching b s params).drop
          (if params.offset < (matching b s params).length then params.offset.toNat else 0)).take
            params.limit.toNat, (matching b s params).length⟩ := by
    intro rows hperm
    have hlen : (matching b s params).length = rows.length := by
      rw [← sortBy_eq_matching hperm, (sortBy_perm _ _).length_eq]
    rw [paginated hlimit, sortBy_eq_matching hperm, hlen]
  unfold listInstancesWithParams
  dsimp only
  by_cases htask : params.taskID > 0
  · rw [if_pos htask]
    refine congrArg Except.ok (hok _ ?_)
    by_cases hstatus : params.status = .other ""
    · rw [if_neg (not_not_intro hstatus)]
      exact selected_perm (fun i => by simp [keeps, hstatus, Int.not_le.mpr htask])
    · rw [if_pos hstatus]
      exact filtered_perm (fun i => by simp)
        (fun i => by simp [keeps, hstatus, Int.not_le.mpr htask, Bool.and_comm])
  rw [if_neg htask]
  have hstatus : params.status = .other "" := by
    by_contra hne
    exact hbranch ⟨by omega, hne⟩
  rw [if_neg (not_not_intro hstatus)]
  refine congrArg Except.ok (hok _ ?_)
  exact selected_perm (fun i => by simp [keeps, hstatus, Int.not_lt.mp htask])

theorem by_status_perm (hbranch : StatusOnly params) :
    (s.listInstancesByStatus b scan params.status 0).Perm (matching b s params) :=
  (selected_perm (fun i => by simp [keeps, hbranch.1, hbranch.2])).trans (sortBy_perm _ _).symm

theorem page_by_status (hlimit : 0 < params.limit) (hbranch : StatusOnly params) :
    listInstancesWithParams b scan none s params
      = .ok ⟨(s.listInstancesByStatus b scan params.status 0).take params.limit.toNat,
          min params.limit.toNat (matching b s params).length⟩ := by
  have hscan : s.listInstancesByStatus b scan params.status params.limit
      = (s.listInstancesByStatus b scan params.status 0).take params.limit.toNat := by
    unfold InstanceStore.listInstancesByStatus limited
    rw [if_pos hlimit, if_neg (by omega), List.map_take]
  unfold listInstancesWithParams
  dsimp only
  rw [if_neg (by have := hbranch.1; omega), if_pos hbranch.2, hscan, List.length_take,
    (by_status_perm hbranch).length_eq]

/-! ## When the law holds. -/

theorem pages_eq_take (hlimit : 0 < params.limit) (hbranch : ¬ StatusOnly params) (m : Nat)
    (hm : m * params.limit < (matching b s params).length + params.limit) :
    pages b scan s params m = (matching b s params).take (m * params.limit.toNat) := by
  induction m with
  | zero => simp [pages]
  | succ m ih =>
  have hstep : ((m + 1 : Nat) : Int) * params.limit = m * params.limit + params.limit := by
    rw [Int.natCast_succ, Int.add_mul, Int.one_mul]
  have hlt : m * params.limit < (matching b s params).length := by omega
  have hnat : ((m : Int) * params.limit).toNat = m * params.limit.toNat := by
    rw [show params.limit = (params.limit.toNat : Int) by omega]
    exact_mod_cast rfl
  have hpage := @page_in_memory b scan s { params with offset := m * params.limit } hlimit hbranch
  rw [show matching b s { params with offset := m * params.limit } = matching b s params from rfl,
    if_pos hlt, hnat] at hpage
  unfold pages at ih ⊢
  rw [List.range_succ, List.flatMap_append, ih (by omega), List.flatMap_singleton, hpage,
    ← List.take_add, Nat.succ_mul]

/-- **A page is the lawful one** if nothing matches, if the offset lies before the end of the list,
or, when only the status filters, if it is the first page, holds everything and was created in
decreasing id order. The pages of the other branches add up to the matching instances. -/
theorem page_lawful_iff (b : Backend) (scan : Scan TaskInstance) (s : InstanceStore)
    (params : ListInstancesParams) (hlimit : 0 < params.limit) (hoffset : 0 ≤ params.offset) :
    ((matching b s params).Pairwise (fun i j => j.id < i.id) ∧ ∀ i, i ∈ matching b s params
          ↔ ∃ r ∈ s.instances.rows, keeps params r = true ∧ readInstance b r = i)
    ∧ (listInstancesWithParams b scan none s params = .ok (lawful b s params)
      ↔ matching b s params = []
        ∨ (¬ StatusOnly params ∧ params.offset < (matching b s params).length)
        ∨ (StatusOnly params ∧ params.offset = 0 ∧ (matching b s params).length ≤ params.limit
          ∧ s.listInstancesByStatus b scan params.status 0 = matching b s params))
    ∧ (¬ StatusOnly params → ∀ m : Nat,
        m * params.limit < (matching b s params).length + params.limit →
        pages b scan s params m = (matching b s params).take (m * params.limit.toNat)) := by
  refine ⟨⟨matching_decreasing, fun i => mem_matching⟩, ?_,
    fun h m hm => pages_eq_take hlimit h m hm⟩
  by_cases hempty : matching b s params = []
  · -- nothing to cut
    refine iff_of_true ?_ (.inl hempty)
    by_cases hbranch : StatusOnly params
    · have hnone : (s.listInstancesByStatus b scan params.status 0).Perm (matching b s params) :=
        by_status_perm hbranch
      rw [hempty] at hnone
      rw [page_by_status hlimit hbranch, lawful, hempty, hnone.eq_nil]
      simp
    · rw [page_in_memory hlimit hbranch, lawful, hempty]
      simp
  have hpos : 0 < (matching b s params).length := List.length_pos_iff.mpr hempty
  by_cases hbranch : StatusOnly params
  · have hlen : (s.listInstancesByStatus b scan params.status 0).length = _ :=
      (by_status_perm hbranch).length_eq
    rw [page_by_status hlimit hbranch, lawful]
    simp only [Except.ok.injEq, InstanceListResult.mk.injEq, hempty, hbranch, not_true_eq_false,
      false_and, false_or, true_and]
    constructor
    · rintro ⟨hlist, htotal⟩
      have hfits : (matching b s params).length ≤ params.limit.toNat := by omega
      rw [List.take_of_length_le (by omega),
        List.take_of_length_le (by rw [List.length_drop]; omega)] at hlist
      have hdrop := congrArg List.length hlist
      rw [List.length_drop, hlen] at hdrop
      have hzero : params.offset = 0 := by omega
      rw [hzero] at hlist
      exact ⟨hzero, by omega, hlist⟩
    · rintro ⟨hzero, hfits, hlist⟩
      rw [hzero, hlist]
      exact ⟨rfl, by omega⟩
  · rw [page_in_memory hlimit hbranch, lawful]
    simp only [Except.ok.injEq, InstanceListResult.mk.injEq, hempty, hbranch, not_false_eq_true,
      false_and, or_false, false_or, true_and, and_true]
    constructor
    · intro hlist
      by_contra hge
      rw [if_neg hge, List.drop_zero, List.drop_eq_nil_of_le (by omega), List.take_nil] at hlist
      have hlen := congrArg List.length hlist
      rw [List.length_take, List.length_nil] at hlen
      omega
    · intro hlt
      rw [if_pos hlt]

def twoPending : InstanceStore :=
  ((InstanceStore.empty.createInstance .teststore 10
      { taskID := 4, scheduleInstanceID := "4-1", status := .pending }).2.createInstance
        .teststore 20
    { taskID := 4, scheduleInstanceID := "4-2", status := .pending }).2

/-- The second page of task 4, one instance to a page. -/
theorem second_page_lawful :
    listInstancesWithParams .teststore .stored none twoPending ⟨.pending, 4, 1, 1⟩
      = .ok (lawful .teststore twoPending ⟨.pending, 4, 1, 1⟩) :=
  (page_lawful_iff .teststore .stored twoPending ⟨.pending, 4, 1, 1⟩ (by decide)
    (by decide)).2.1.mpr (.inr (.inl ⟨fun h => absurd h.1 (by decide), by decide⟩))

/-- **Past the end the list starts over**; by status alone every page is the first one. -/
theorem pages_start_over :
    (listInstancesWithParams .teststore .stored none twoPending ⟨.other "", 0, 1, 2⟩).map
        (fun page => (page.instances.map TaskInstance.id, page.total)) = .ok ([2], 2)
    ∧ (∀ offset ∈ [0, 1, 2],
      (listInstancesWithParams .teststore .stored none twoPending ⟨.pending, 0, 1, offset⟩).map
        (fun page => (page.instances.map TaskInstance.id, page.total)) = .ok ([1], 1))
    ∧ (matching .teststore twoPending ⟨.pending, 0, 1, 0⟩).map TaskInstance.id = [2, 1] := by
  decide

end AiScheduler.Pagination
