/-
  **ROUND ROBIN ON A LIST SORTED BY LOAD.**

  `pickRoundRobin` takes the counter modulo the length of the eligible workers, which MySQL sorts by
  LOAD, then by the latest heartbeat, equal ones in any order, anew at each `Pick`: a worker that
  was picked may move toward the end.

  Main results:
    * `round` — consecutive picks are a `Round` of `Lib.Rotation`.
    * `fair_iff` — `n` picks among `n` workers are fair if and only if nobody can move.
-/
import Mathlib.Data.Prod.Lex
import AiScheduler.Lib.Rotation
import AiScheduler.Proofs.WorkerRows

namespace AiScheduler.Fairness

open Lib Gate WorkerRows Router List

variable {w : World} {x : WorkerNode} {k : Nat} {env : Nat → Input} {opts : SelectOptions}
  {scan : Scan WorkerNode}

/-! ## The order of the eligible workers. -/

/-- What MySQL sorts by: the load, then the heartbeat, the latest first. -/
def loadKey (x : WorkerNode) : Int ×ₗ Int := toLex (x.currentLoad, -x.lastHeartbeatAt)

theorem loadKey_lt_iff {a b : WorkerNode} :
    loadKey a < loadKey b ↔ a.currentLoad < b.currentLoad
      ∨ a.currentLoad = b.currentLoad ∧ b.lastHeartbeatAt < a.lastHeartbeatAt := by
  unfold loadKey
  rw [Prod.Lex.toLex_lt_toLex]
  dsimp only
  omega

theorem workerOrder_mysql_iff {a b : WorkerNode} :
    workerOrder .mysql a b = true ↔ loadKey a ≤ loadKey b := by
  unfold loadKey
  rw [Prod.Lex.toLex_le_toLex]
  simp only [workerOrder, decide_eq_true_iff]
  omega

theorem loadKey_lt_reserved (x : WorkerNode) : loadKey x < loadKey (reserved x) :=
  loadKey_lt_iff.mpr (.inl (Int.lt_succ x.currentLoad))

/-- The rows of the workers a `Pick` may take. -/
def available (opts : SelectOptions) (w : World) : List WorkerNode :=
  w.workers.rows.filter (fun x => Eligible opts x)

theorem nodup_available (opts : SelectOptions) (w : World) :
    ((available opts w).map WorkerNode.id).Nodup :=
  w.workers.nodup.sublist (filter_sublist.map _)

theorem nodup_eligible (scan : Scan WorkerNode) (w : World) (opts : SelectOptions) :
    ((eligible scan w opts).map WorkerNode.id).Nodup := by
  have hlist : ((w.workers.listAvailableWorkers w.backend scan).map WorkerNode.id).Nodup := by
    have hperm := (perm_insertionSort (fun v x => workerOrder w.backend v x = true)
      (scan.order (w.workers.rows.filter WorkerNode.isAvailable))).trans (scan.perm _)
    exact (hperm.map WorkerNode.id).nodup_iff.mpr (w.workers.nodup.sublist (filter_sublist.map _))
  unfold eligible filterByLabels
  split
  · exact hlist
  · exact hlist.sublist (filter_sublist.map _)

theorem eligible_perm (scan : Scan WorkerNode) (w : World) (opts : SelectOptions) :
    (eligible scan w opts).Perm (available opts w) := by
  rw [perm_ext_iff_of_nodup (nodup_eligible scan w opts).of_map (nodup_available opts w).of_map]
  intro x
  unfold available
  rw [mem_eligible, mem_filter, decide_eq_true_iff]

theorem length_eligible (scan : Scan WorkerNode) (w : World) (opts : SelectOptions) :
    (eligible scan w opts).length = (available opts w).length :=
  (eligible_perm scan w opts).length_eq

/-- The rows a query filters keep any order they are sorted in. -/
theorem pairwise_filterByLabels {r : WorkerNode → WorkerNode → Prop} {workers : List WorkerNode}
    (h : workers.Pairwise r) (selector : Labels) :
    (filterByLabels workers selector).Pairwise r := by
  unfold filterByLabels
  split
  · exact h
  · exact h.filter _

theorem sorted_eligible (hb : w.backend = .mysql) (scan : Scan WorkerNode) (opts : SelectOptions) :
    (eligible scan w opts).Pairwise (fun a b => loadKey a ≤ loadKey b) := by
  apply pairwise_filterByLabels
  rw [hb]
  have : IsTrans WorkerNode (fun v w => workerOrder .mysql v w = true) := by
    constructor
    intro a b c
    simp only [workerOrder_mysql_iff]
    exact le_trans
  have : Std.Total (fun v w => workerOrder .mysql v w = true) := by
    constructor
    intro a b
    simp only [workerOrder_mysql_iff]
    exact le_total _ _
  exact (pairwise_insertionSort _ _).imp workerOrder_mysql_iff.mp

/-! ## Ties broken by a rank. -/

section Rank

variable {rank : WorkerNode → Nat}

/-- Not behind by key, and among equal keys by rank. -/
def rankLE (rank : WorkerNode → Nat) (a b : WorkerNode) : Prop :=
  loadKey a < loadKey b ∨ loadKey a = loadKey b ∧ rank a ≤ rank b

instance : DecidableRel (rankLE rank) :=
  fun _ _ => inferInstanceAs (Decidable (_ ∨ _ ∧ _))

/-- The scan that meets the workers in the order of key and rank. -/
def rankScan (rank : WorkerNode → Nat) : Scan WorkerNode :=
  ⟨fun rows => rows.insertionSort (rankLE rank), fun _ => perm_insertionSort _ _⟩

theorem pairwise_rankScan (hb : w.backend = .mysql)
    (hrank : (available opts w).Pairwise (fun a b => rank a ≠ rank b)) :
    (eligible (rankScan rank) w opts).Pairwise (Ahead loadKey rank) := by
  have : IsTrans WorkerNode (rankLE rank) := by
    constructor
    rintro a b c (hab | ⟨hab, hr⟩) (hbc | ⟨hbc, hr'⟩)
    · exact .inl (lt_trans hab hbc)
    · exact .inl (hbc ▸ hab)
    · exact .inl (hab ▸ hbc)
    · exact .inr ⟨hab.trans hbc, by omega⟩
  have : Std.Total (rankLE rank) := by
    constructor
    intro a b
    rcases lt_trichotomy (loadKey a) (loadKey b) with hlt | heq | hgt
    · exact .inl (.inl hlt)
    · rcases Nat.le_total (rank a) (rank b) with hr | hr
      · exact .inl (.inr ⟨heq, hr⟩)
      · exact .inr (.inr ⟨heq.symm, hr⟩)
    · exact .inr (.inl hgt)
  -- the rows are met in this order, and sorting by key leaves them so
  have hmet := pairwise_insertionSort (rankLE rank) (w.workers.rows.filter WorkerNode.isAvailable)
  have hle : (eligible (rankScan rank) w opts).Pairwise (rankLE rank) := by
    apply pairwise_filterByLabels
    rw [hb]
    show (insertionSort _ (insertionSort (rankLE rank) _)).Pairwise _
    rw [Pairwise.insertionSort_eq]
    · exact hmet
    refine hmet.imp ?_
    rintro a b (hlt | ⟨heq, _⟩)
    · exact workerOrder_mysql_iff.mpr (le_of_lt hlt)
    · exact workerOrder_mysql_iff.mpr (le_of_eq heq)
  have hne := (eligible_perm (rankScan rank) w opts).symm.pairwise hrank Ne.symm
  refine (hle.and hne).imp ?_
  rintro a b ⟨hlt | ⟨heq, hr⟩, hne⟩
  · exact .inl hlt
  · exact .inr ⟨heq, Nat.lt_of_le_of_ne hr hne⟩

end Rank

/-! ## One pick. -/

theorem chosen_roundRobin (hs : opts.strategy = .roundRobin) :
    chosen scan w opts
      = (eligible scan w opts)[w.memory.rrCounter % (eligible scan w opts).length]? := by
  unfold chosen
  cases eligible scan w opts with
  | nil => rfl
  | cons first rest =>
  rw [hs]
  have hlt : w.memory.rrCounter % (rest.length + 1) < (first :: rest).length :=
    Nat.mod_lt _ (Nat.succ_pos _)
  show some ((first :: rest).getD (w.memory.rrCounter % (rest.length + 1)) first)
    = (first :: rest)[w.memory.rrCounter % (rest.length + 1)]?
  rw [getD_eq_getElem?_getD, getElem?_eq_getElem hlt, Option.getD_some]

theorem rows_picked_mysql (hb : w.backend = .mysql) (hx : x ∈ w.workers.rows) (now : Int) :
    (picked opts now w x).workers.rows
      = w.workers.rows.map (fun y => if y.id = x.id then reserved x else y) := by
  apply rows_picked _ hx
  apply WorkerStore.built_of_heartbeat w.workers.rows w.workers.nodup
  intro _ _ h
  rw [hb] at h
  cases h

/-- **One pick**: the row of the worker taken, and no other, has one more unit of load. -/
theorem available_picked (hb : w.backend = .mysql) (hx : x ∈ available opts w)
    (hstays : Eligible opts (reserved x)) (now : Int) :
    available opts (picked opts now w x)
      = (available opts w).map (fun y => if y.id = x.id then reserved x else y) := by
  obtain ⟨hxrows, hxel⟩ := mem_filter.mp hx
  unfold available
  rw [rows_picked_mysql hb hxrows, filter_map]
  congr 1
  apply filter_congr
  intro y hy
  show decide (Eligible opts (if y.id = x.id then reserved x else y)) = decide (Eligible opts y)
  split
  next hid =>
    rw [Table.eq_of_key hy hxrows hid, decide_eq_true hstays]
    exact hxel.symm
  next => rfl

theorem eligible_picked_perm (hb : w.backend = .mysql) {i : Nat}
    (hx : (eligible scan w opts)[i]? = some x) (hstays : Eligible opts (reserved x)) (now : Int)
    (scan' : Scan WorkerNode) :
    (eligible scan' (picked opts now w x) opts).Perm
        ((eligible scan w opts).modify i reserved) := by
  have hmem := (eligible_perm scan w opts).mem_iff.mp (mem_of_getElem? hx)
  rw [← map_replace_eq_modify hx (nodup_eligible scan w opts)]
  refine (eligible_perm scan' _ opts).trans ?_
  rw [available_picked hb hmem hstays]
  exact ((eligible_perm scan w opts).map _).symm

/-! ## Consecutive picks. -/

/-- The world, and the number of calls made, after `k` consecutive picks. -/
def afterPicks (env : Nat → Input) (opts : SelectOptions) (s : World × Nat) : Nat → World × Nat
  | 0 => s
  | k + 1 => (Prog.run (execAt env) (Router.pick opts) (afterPicks env opts s k)).2

/-- What the pick after `k` others answers. -/
def answer (env : Nat → Input) (opts : SelectOptions) (s : World × Nat) (k : Nat) :
    Except Err WorkerNode :=
  (Prog.run (execAt env) (Router.pick opts) (afterPicks env opts s k)).1

/-- The workers available at the start stay so for as many picks. -/
def StayAvailable (env : Nat → Input) (opts : SelectOptions) (s : World × Nat) : Prop :=
  ∀ k < (available opts s.1).length, ∀ x ∈ available opts s.1,
    x.id ∈ (available opts (afterPicks env opts s k).1).map WorkerNode.id

/-- The pick selected this worker. -/
def selects (id : String) : Except Err WorkerNode → Bool
  | .ok v => v.id = id
  | .error _ => false

/-- As many picks as there are available workers select each of them once. -/
def Fair (env : Nat → Input) (opts : SelectOptions) (s : World × Nat) : Prop :=
  ∀ x ∈ available opts s.1,
    ((List.range (available opts s.1).length).map (answer env opts s)).countP (selects x.id) = 1

/-- The workers the pick after `k` others chooses among, as it sees them. -/
def listed (env : Nat → Input) (opts : SelectOptions) (s : World × Nat) (k : Nat) :
    List WorkerNode :=
  eligible (env (afterPicks env opts s k).2).workerScan (afterPicks env opts s k).1 opts

section Run

variable {s : World × Nat}

/-- What does not change, or changes in a known way, over `k` picks. -/
structure At (env : Nat → Input) (opts : SelectOptions) (s : World × Nat) (k : Nat) : Prop where
  backend : (afterPicks env opts s k).1.backend = .mysql
  counter : (afterPicks env opts s k).1.memory.rrCounter = s.1.memory.rrCounter + k
  perm : ((available opts (afterPicks env opts s k).1).map WorkerNode.id).Perm
    ((available opts s.1).map WorkerNode.id)

theorem At.length (h : At env opts s k) :
    (listed env opts s k).length = (available opts s.1).length := by
  have hlen := h.perm.length_eq
  rw [length_map, length_map] at hlen
  exact (length_eligible _ _ _).trans hlen

/-- The place the pick `k` looks at. -/
def placeAt (opts : SelectOptions) (s : World × Nat) (k : Nat) : Nat :=
  (s.1.memory.rrCounter % (available opts s.1).length + k) % (available opts s.1).length

theorem At.pick (hno : NoFaults env) (hs : opts.strategy = .roundRobin)
    (h : At env opts s k) (hpos : 0 < (available opts s.1).length) :
    ∃ x now, (listed env opts s k)[placeAt opts s k]? = some x
      ∧ answer env opts s k = .ok (reserved x)
      ∧ (afterPicks env opts s (k + 1)).1 = picked opts now (afterPicks env opts s k).1 x := by
  have hchosen : chosen (env (afterPicks env opts s k).2).workerScan
      (afterPicks env opts s k).1 opts
      = _ := chosen_roundRobin hs
  rw [show eligible _ (afterPicks env opts s k).1 opts = listed env opts s k from rfl, h.length,
    h.counter, ← Nat.mod_add_mod] at hchosen
  have hlt : placeAt opts s k < (listed env opts s k).length := by
    rw [h.length]
    exact Nat.mod_lt _ hpos
  rcases run_pick hno opts (afterPicks env opts s k).1 (afterPicks env opts s k).2 with
    ⟨hnone, _⟩ | ⟨x, m, hsome, hrun⟩
  · rw [hchosen] at hnone
    exact absurd (getElem?_eq_none_iff.mp hnone) (Nat.not_le_of_lt hlt)
  rw [hchosen] at hsome
  exact ⟨x, (env m).now, hsome, congrArg Prod.fst hrun, congrArg (fun r => r.2.1) hrun⟩

/-- **The step**: from one pick to the next the worker taken has one more unit of load. -/
theorem At.step (hno : NoFaults env) (hs : opts.strategy = .roundRobin)
    (hstay : StayAvailable env opts s) (h : At env opts s k)
    (hk : k + 1 < (available opts s.1).length) :
    At env opts s (k + 1)
      ∧ (listed env opts s (k + 1)).Perm
          ((listed env opts s k).modify (placeAt opts s k) reserved) := by
  obtain ⟨x, now, hx, _, hafter⟩ := h.pick hno hs (by omega)
  have hxmem := (eligible_perm _ _ _).mem_iff.mp (mem_of_getElem? hx)
  obtain ⟨hxrows, _⟩ := mem_filter.mp hxmem
  -- the row of `x` is still among the available ones, so it is eligible as written
  have hstays : Eligible opts (reserved x) := by
    have hx0 := h.perm.mem_iff.mp (mem_map_of_mem hxmem)
    obtain ⟨x0, hx0, hid0⟩ := mem_map.mp hx0
    have hx1 := hstay (k + 1) hk x0 hx0
    rw [hid0, hafter] at hx1
    obtain ⟨y, hy, hid⟩ := mem_map.mp hx1
    obtain ⟨hyrows, hyel⟩ := mem_filter.mp hy
    rw [rows_picked_mysql h.backend hxrows] at hyrows
    obtain ⟨z, _, rfl⟩ := mem_map.mp hyrows
    split at hid
    next hzx =>
      rw [if_pos hzx] at hyel
      exact of_decide_eq_true hyel
    next hzx => exact absurd hid hzx
  have hperm : (listed env opts s (k + 1)).Perm
      ((listed env opts s k).modify (placeAt opts s k) reserved) := by
    unfold listed
    rw [hafter]
    exact eligible_picked_perm h.backend hx hstays now _
  refine ⟨⟨?_, ?_, ?_⟩, hperm⟩
  · rw [hafter]
    exact h.backend
  · rw [hafter]
    show (counted opts.strategy (afterPicks env opts s k).1.memory).rrCounter = _
    rw [hs]
    show (afterPicks env opts s k).1.memory.rrCounter + 1 = _
    rw [h.counter]
    omega
  · have hnames := hperm.map WorkerNode.id
    rw [map_name_modify (fun x => (rfl : (reserved x).id = x.id))] at hnames
    exact (((eligible_perm _ _ _).map _).symm.trans hnames).trans
      (((eligible_perm _ _ _).map _).trans h.perm)

variable (hno : NoFaults env) (hs : opts.strategy = .roundRobin) (hb : s.1.backend = .mysql)
  (hstay : StayAvailable env opts s)

include hno hs hb hstay

theorem at_of_stay : ∀ k < (available opts s.1).length, At env opts s k := by
  intro k
  induction k with
  | zero => exact fun _ => ⟨hb, rfl, Perm.refl _⟩
  | succ k ih => exact fun hk => ((ih (by omega)).step hno hs hstay hk).1

/-- **Consecutive picks are a round.** -/
theorem round (hpos : 0 < (available opts s.1).length) :
    Round loadKey reserved WorkerNode.id (available opts s.1).length
      (s.1.memory.rrCounter % (available opts s.1).length) (listed env opts s) where
  start := Nat.mod_lt _ hpos
  length := length_eligible _ _ _
  nodup := nodup_eligible _ _ _
  sorted := fun k hk => sorted_eligible (at_of_stay hno hs hb hstay k hk).backend _ _
  grows := loadKey_lt_reserved
  named := fun _ => rfl
  next := fun k hk => ((at_of_stay hno hs hb hstay k (by omega)).step hno hs hstay hk).2

theorem selects_iff (hk : k < (available opts s.1).length) (id : String) :
    selects id (answer env opts s k) = true ↔ turn (available opts s.1).length
      (s.1.memory.rrCounter % (available opts s.1).length)
      (fun k => (listed env opts s k).map WorkerNode.id) k = some id := by
  obtain ⟨x, now, hx, hanswer, _⟩ := (at_of_stay hno hs hb hstay k hk).pick hno hs (by omega)
  have hturn : turn (available opts s.1).length
      (s.1.memory.rrCounter % (available opts s.1).length)
      (fun k => (listed env opts s k).map WorkerNode.id) k = some x.id := by
    show ((listed env opts s k).map WorkerNode.id)[placeAt opts s k]? = _
    rw [getElem?_map, hx, Option.map_some]
  rw [hturn, hanswer, Option.some.injEq]
  show decide (x.id = id) = true ↔ _
  rw [decide_eq_true_iff]

/-- Fair is to take everybody once. -/
theorem fair_iff_perm (hpos : 0 < (available opts s.1).length) :
    Fair env opts s ↔ (taken (available opts s.1).length
        (s.1.memory.rrCounter % (available opts s.1).length)
        (fun k => (listed env opts s k).map WorkerNode.id)).Perm
        (((listed env opts s 0).map WorkerNode.id).map some) := by
  have hround := round hno hs hb hstay hpos
  have hcount : ∀ id, ((range (available opts s.1).length).map
        (answer env opts s)).countP (selects id)
      = (taken (available opts s.1).length
          (s.1.memory.rrCounter % (available opts s.1).length)
          (fun k => (listed env opts s k).map WorkerNode.id)).count (some id) := by
    intro id
    unfold taken count
    rw [countP_map, countP_map]
    apply countP_congr
    intro k hk
    show selects id (answer env opts s k) = true ↔ (_ == some id) = true
    rw [selects_iff hno hs hb hstay (mem_range.mp hk), beq_iff_eq]
  have hnodup : (((listed env opts s 0).map WorkerNode.id).map some).Nodup :=
    hround.nodup.map (Option.some_injective _)
  have hmem : ∀ x, x ∈ listed env opts s 0 ↔ x ∈ available opts s.1 :=
    fun _ => (eligible_perm _ _ _).mem_iff
  unfold Fair
  constructor
  · intro hfair
    rw [perm_iff_count]
    intro a
    by_cases ha : a ∈ ((listed env opts s 0).map WorkerNode.id).map some
    · obtain ⟨id, hid, rfl⟩ := mem_map.mp ha
      obtain ⟨x, hx, rfl⟩ := mem_map.mp hid
      rw [← hcount, hfair x ((hmem x).mp hx), count_eq_one_of_mem hnodup ha]
    -- nobody else is taken
    rw [count_eq_zero_of_not_mem ha, count_eq_zero]
    intro htaken
    obtain ⟨k, hk, rfl⟩ := mem_map.mp htaken
    exact ha (turn_mem_of_perm (k := k) hround.start ((length_map _).trans hround.length)
      (hround.names_perm k (mem_range.mp hk)))
  · intro hperm x hx
    rw [hcount, hperm.count_eq]
    exact count_eq_one_of_mem hnodup
      (mem_map_of_mem (mem_map_of_mem (f := WorkerNode.id) ((hmem x).mpr hx)))

end Run

/-- **ROUND ROBIN IS FAIR**, in whatever order each pick meets equal workers, **IF AND ONLY IF** in
every order the first may meet, each worker with one more unit of load is still before the next, but
for the pair the counter starts between. -/
theorem fair_iff (s : World × Nat) (hs : opts.strategy = .roundRobin) (hb : s.1.backend = .mysql)
    (hstay : ∀ env, NoFaults env → StayAvailable env opts s) :
    (∀ env, NoFaults env → Fair env opts s)
      ↔ ∀ scan i a b, (Router.eligible scan s.1 opts)[i]? = some a →
          (Router.eligible scan s.1 opts)[i + 1]? = some b →
          i + 1 ≠ s.1.memory.rrCounter % (available opts s.1).length →
          a.currentLoad + 1 < b.currentLoad ∨ a.currentLoad + 1 = b.currentLoad
            ∧ b.lastHeartbeatAt < a.lastHeartbeatAt := by
  have hahead : ∀ a b : WorkerNode, loadKey (reserved a) < loadKey b
      ↔ a.currentLoad + 1 < b.currentLoad ∨ a.currentLoad + 1 = b.currentLoad
          ∧ b.lastHeartbeatAt < a.lastHeartbeatAt := fun _ _ => loadKey_lt_iff
  simp only [← hahead]
  constructor
  · intro hfair scan i a b ha hb' hne
    by_contra hnot
    have hpos : 0 < (available opts s.1).length := by
      rw [← length_eligible scan]
      exact Nat.lt_of_le_of_lt (Nat.zero_le _) (List.getElem?_eq_some_iff.mp hb').1
    -- meet the workers by a rank that shows the move, at every pick
    obtain ⟨rank, hpair, hbehind, hranks⟩ := exists_rank (sorted_eligible hb scan opts)
      (nodup_eligible scan s.1 opts) loadKey_lt_reserved (fun _ => rfl)
      (mem_of_getElem? ha) (mem_of_getElem? hb') hnot
    let env : Nat → Input := fun _ => { workerScan := rankScan rank }
    have hno : NoFaults env := fun _ => rfl
    have hround := round hno hs hb (hstay env hno) hpos
    have hahead : ∀ k < (available opts s.1).length,
        (listed env opts s k).Pairwise (Ahead loadKey rank) := by
      intro k hk
      have hat := at_of_stay hno hs hb (hstay env hno) k hk
      have hname := (hat.perm.trans ((eligible_perm scan s.1 opts).map _).symm).subset
      refine pairwise_rankScan hat.backend
        ((pairwise_map.mp (nodup_available opts _)).imp_of_mem ?_)
      exact fun hx hy => hranks _ _ (hname (mem_map_of_mem hx)) (hname (mem_map_of_mem hy))
    have hfirst : listed env opts s 0 = eligible scan s.1 opts := by
      refine Perm.eq_of_pairwise ?_ (hahead 0 hpos) hpair
        ((eligible_perm _ _ _).trans (eligible_perm scan s.1 opts).symm)
      exact fun x y _ _ hxy hyx => absurd hyx hxy.asymm
    exact hbehind (hround.ahead_of_once hahead
      ((fair_iff_perm hno hs hb (hstay env hno) hpos).mp (hfair env hno)) (hfirst ▸ ha)
      (hfirst ▸ hb') hne)
  · intro hapart env hno
    rcases Nat.eq_zero_or_pos (available opts s.1).length with hzero | hpos
    · intro x hx
      rw [List.length_eq_zero_iff.mp hzero] at hx
      cases hx
    · rw [fair_iff_perm hno hs hb (hstay env hno) hpos]
      exact (round hno hs hb (hstay env hno) hpos).once (hapart _)

/-! ## Workers with room. -/

/-- Room for as many picks as there are workers keeps them available. -/
theorem stayAvailable_of_room {s : World × Nat} (hno : NoFaults env) (hb : s.1.backend = .mysql)
    (hroom : ∀ x ∈ available opts s.1,
      x.currentLoad + (available opts s.1).length ≤ x.maxConcurrency) :
    StayAvailable env opts s := by
  -- a row keeps all but its load, which each pick raises by one at most
  have hrows : ∀ k, (afterPicks env opts s k).1.backend = .mysql
      ∧ ∀ x ∈ s.1.workers.rows, ∃ load ≤ x.currentLoad + k,
        { x with currentLoad := load } ∈ (afterPicks env opts s k).1.workers.rows := by
    intro k
    induction k with
    | zero => exact ⟨hb, fun x hx => ⟨x.currentLoad, by omega, hx⟩⟩
    | succ k ih =>
    obtain ⟨hback, hrows⟩ := ih
    rcases run_pick hno opts (afterPicks env opts s k).1 (afterPicks env opts s k).2 with
      ⟨_, hrun⟩ | ⟨y, m, hsome, hrun⟩
    · have hafter : (afterPicks env opts s (k + 1)).1 = (afterPicks env opts s k).1 :=
        congrArg (fun r => r.2.1) hrun
      rw [hafter]
      refine ⟨hback, fun x hx => ?_⟩
      obtain ⟨load, hload, hmem⟩ := hrows x hx
      exact ⟨load, by push_cast; omega, hmem⟩
    have hafter : (afterPicks env opts s (k + 1)).1
        = picked opts (env m).now (afterPicks env opts s k).1 y := congrArg (fun r => r.2.1) hrun
    have hy := (mem_eligible.mp (chosen_mem hsome)).1
    rw [hafter, rows_picked_mysql hback hy]
    refine ⟨hback, fun x hx => ?_⟩
    obtain ⟨load, hload, hmem⟩ := hrows x hx
    by_cases hid : x.id = y.id
    · have hxy : { x with currentLoad := load } = y := Table.eq_of_key hmem hy hid
      refine ⟨load + 1, by push_cast; omega, mem_map.mpr ⟨_, hmem, ?_⟩⟩
      rw [if_pos hid, ← hxy]
      rfl
    · exact ⟨load, by push_cast; omega, mem_map.mpr ⟨_, hmem, if_neg hid⟩⟩
  intro k hk x hx
  obtain ⟨hxrows, hxel⟩ := mem_filter.mp hx
  obtain ⟨hstatus, _, hlabels⟩ := of_decide_eq_true hxel
  obtain ⟨load, hload, hmem⟩ := (hrows k).2 x hxrows
  have hmax := hroom x hx
  refine mem_map.mpr ⟨_, mem_filter.mpr ⟨hmem, decide_eq_true ⟨hstatus, ?_, hlabels⟩⟩, rfl⟩
  show load < x.maxConcurrency
  omega

/-! ## Two workers. -/

/-- Round robin among all workers. -/
def anyRoundRobin : SelectOptions := { labels := Table.empty, strategy := .roundRobin }

/-- Two online workers in MySQL; `second` has this load and the older heartbeat. -/
def twoWorkers (load : Int) : World :=
  World.ofRows .mysql [] [] []
    [{ id := "first", status := .online, maxConcurrency := 10, lastHeartbeatAt := 7 },
     { id := "second", status := .online, maxConcurrency := 10, currentLoad := load,
       lastHeartbeatAt := 5 }]

theorem busy_second_fair :
    (∀ env, NoFaults env → Fair env anyRoundRobin (twoWorkers 5, 0))
      ∧ (available anyRoundRobin (twoWorkers 5)).length = 2 := by
  have hlen : (available anyRoundRobin (twoWorkers 5)).length = 2 := by decide
  refine ⟨(fair_iff (twoWorkers 5, 0) rfl rfl ?_).mpr ?_, hlen⟩
  · exact fun env hno => stayAvailable_of_room hno rfl (by decide)
  intro scan i a b ha hb _
  -- two workers in the order of their loads
  have hloads : ∀ x ∈ available anyRoundRobin (twoWorkers 5),
      x.id = "first" ∧ x.currentLoad = 0 ∨ x.id = "second" ∧ x.currentLoad = 5 := by decide
  have hmem : ∀ {j x}, (eligible scan (twoWorkers 5) anyRoundRobin)[j]? = some x →
      x ∈ available anyRoundRobin (twoWorkers 5) :=
    fun hx => (eligible_perm _ _ _).mem_iff.mp (mem_of_getElem? hx)
  have hloada := hloads a (hmem ha)
  have hloadb := hloads b (hmem hb)
  obtain ⟨hi, rfl⟩ := List.getElem?_eq_some_iff.mp ha
  obtain ⟨hi', rfl⟩ := List.getElem?_eq_some_iff.mp hb
  have hle := not_lt.mpr (pairwise_iff_getElem.mp
    (sorted_eligible (w := twoWorkers 5) rfl scan anyRoundRobin) i (i + 1) hi hi' (by omega))
  have hne := pairwise_iff_getElem.mp
    (pairwise_map.mp (nodup_eligible scan (twoWorkers 5) anyRoundRobin)) i (i + 1) hi hi' (by omega)
  rw [loadKey_lt_iff] at hle
  rcases hloada with ⟨hida, hla⟩ | ⟨hida, hla⟩ <;> rcases hloadb with ⟨hidb, hlb⟩ | ⟨hidb, hlb⟩
  · exact absurd (hida.trans hidb.symm) hne
  · left
    rw [hla, hlb]
    decide
  · refine absurd (.inl ?_) hle
    rw [hla, hlb]
    decide
  · exact absurd (hida.trans hidb.symm) hne

/-- Both idle: the first pick moves its worker to the place the second looks at. -/
theorem idle_second_never_picked :
    StayAvailable (fun _ => {}) anyRoundRobin (twoWorkers 0, 0)
      ∧ ((List.range 2).map (answer (fun _ => {}) anyRoundRobin (twoWorkers 0, 0))).countP
          (selects "first") = 2
      ∧ ¬ Fair (fun _ => {}) anyRoundRobin (twoWorkers 0, 0) := by
  unfold StayAvailable Fair
  decide

end AiScheduler.Fairness
