/-
  **WHEN A SCAN WITH THE CACHE TAKES UP THE TASKS OF A SCAN WITHOUT IT.**

  The slow path takes the first 100 due tasks by trigger time, in any order where times are equal;
  the fast path takes the first 100 cached tasks that are LIVE: enabled and not in the future.

  Main results:
    * `fast_path_iff` — the caches and stores for which every scan with the cache is one without it.
    * `due_task_passed_over` — a task that came due since the last warm is passed over.
-/
import AiScheduler.Lib.Ranking
import AiScheduler.Scheduler.DueCache
import AiScheduler.System.Jobs
import Mathlib.Data.String.Basic

namespace AiScheduler.FastPath

open Lib Prog

variable {w : World} {now : Int} {t : Task} {e : DueEntry} {z : DueSet}

/-! ## The two paths. -/

/-- The surroundings of a scan's selection; the cache is `none` without Redis. -/
def scanEnv (now : Int) (scan : Scan Task) (cache : Option DueSet) : Nat → Input :=
  fun _ =>
    { now := now, taskScan := scan, cachedIDs := cache.map (fun z => getCachedDueTaskIDs z now) }

/-- The tasks a scan takes up. -/
def taken (w : World) (now : Int) (scan : Scan Task) (cache : Option DueSet) :
    Except Err (List Task) :=
  (Prog.run (execAt (scanEnv now scan cache)) TriggerLoop.dueTasks (w, 0)).1

/-- Enabled and not in the future; no trigger time at all counts too. -/
def isLive (now : Int) (t : Task) : Bool := t.status = .enabled ∧ t.nextTriggerTime ≤ now

/-- The stored task an id names, if it is live. -/
def liveTask (w : World) (now : Int) (id : Int) : Option Task :=
  (w.tasks.tasks.get? id).filter (isLive now)

/-! ## The condition. -/

/-- The entry brings a live task before a scan: its score is up to the second of the scan. -/
def counts (w : World) (now : Int) (e : DueEntry) : Bool :=
  0 ≤ e.score ∧ e.score ≤ unix now ∧ (liveTask w now e.taskID).isSome

/-- … and fewer than 100 such entries come before it. -/
def Reached (w : World) (now : Int) (z : DueSet) (e : DueEntry) : Prop :=
  e ∈ z.entries ∧ counts w now e = true
    ∧ z.entries.countP (fun e' => counts w now e' ∧ e'.lt e) < 100

/-- **The condition on cache and store.** -/
structure InStep (w : World) (now : Int) (z : DueSet) : Prop where
  /-- No entry reached is of a task without a trigger time. -/
  timed : ∀ e t, Reached w now z e → liveTask w now e.taskID = some t → t.nextTriggerTime ≠ 0
  /-- The order of the entries reached, by the second the task was due when it was cached and then
  by the text of its id, is an order by the trigger times the tasks have now. -/
  ordered : ∀ e e' t t', Reached w now z e → Reached w now z e' → e.lt e' →
    liveTask w now e.taskID = some t → liveTask w now e'.taskID = some t' →
    t.nextTriggerTime ≤ t'.nextTriggerTime
  /-- A due task that no entry reached names (it came due or was put off since the warm, or was cut
  off at 500) is not before any of a hundred that are. -/
  complete : ∀ t ∈ w.tasks.tasks.rows, t.isDue now = true →
    (∃ e, Reached w now z e ∧ e.taskID = t.id)
      ∨ (100 ≤ z.entries.countP (counts w now)
        ∧ ∀ e u, Reached w now z e → liveTask w now e.taskID = some u →
          u.nextTriggerTime ≤ t.nextTriggerTime)

/-! ## The order of the entries. -/

theorem lt_asymm (a b : DueEntry) (h : a.lt b) : ¬ b.lt a := by
  rintro (hlt | ⟨heq, hlt⟩) <;> rcases h with h | ⟨he, h⟩
  · omega
  · omega
  · omega
  · exact absurd hlt (not_lt_of_gt h)

theorem lt_total {a b : DueEntry} (h : a.member ≠ b.member) : a.lt b ∨ b.lt a := by
  unfold DueEntry.lt
  rcases lt_trichotomy a.score b.score with hs | hs | hs
  · exact .inl (.inl hs)
  · rcases lt_or_gt_of_ne h with hm | hm
    · exact .inl (.inr ⟨hs, hm⟩)
    · exact .inr (.inr ⟨hs.symm, hm⟩)
  · exact .inr (.inl hs)

instance : IsTrans DueEntry (fun a b => ¬ b.lt a) where
  trans a b c hab hbc := by
    unfold DueEntry.lt at *
    simp only [not_or, not_and, not_lt] at *
    refine ⟨Int.le_trans hab.1 hbc.1, fun heq => ?_⟩
    have h₁ : a.score = b.score := by omega
    have h₂ : b.score = c.score := by omega
    exact le_trans (hab.2 h₁.symm) (hbc.2 h₂.symm)

instance : Std.Total (fun a b : DueEntry => ¬ b.lt a) where
  total a b := by
    by_contra h
    simp only [not_or, not_not] at h
    exact lt_asymm _ _ h.1 h.2

/-- The answer of a range query is strictly sorted. -/
theorem zRangeByScore_pairwise (z : DueSet) (min max : Int) :
    (zRangeByScore z min max).Pairwise DueEntry.lt := by
  have hsorted : (zRangeByScore z min max).Pairwise (fun a b => ¬ b.lt a) :=
    List.pairwise_insertionSort _ _
  have hmembers : ((zRangeByScore z min max).map DueEntry.member).Nodup :=
    ((List.perm_insertionSort _ _).map _).nodup_iff.mpr
      (z.nodup.sublist (List.filter_sublist.map _))
  exact (hsorted.and (List.pairwise_map.mp hmembers)).imp
    (fun h => (lt_total h.2).resolve_right h.1)

/-- The entries that bring a live task before the scan, in order. -/
def liveEntries (w : World) (now : Int) (z : DueSet) : List DueEntry :=
  (zRangeByScore z 0 (unix now)).filter (fun e => (liveTask w now e.taskID).isSome)

theorem liveEntries_perm (w : World) (now : Int) (z : DueSet) :
    (liveEntries w now z).Perm (z.entries.filter (counts w now)) := by
  have hperm := (List.perm_insertionSort (fun a b => ¬ DueEntry.lt b a)
    (z.entries.filter (fun e => 0 ≤ e.score ∧ e.score ≤ unix now))).filter
      (fun e => (liveTask w now e.taskID).isSome)
  rw [List.filter_filter] at hperm
  refine hperm.trans (List.Perm.of_eq (List.filter_congr ?_))
  intro e _
  unfold counts
  rw [Bool.eq_iff_iff, Bool.and_eq_true, decide_eq_true_iff, decide_eq_true_iff]
  tauto

theorem liveEntries_pairwise (w : World) (now : Int) (z : DueSet) :
    (liveEntries w now z).Pairwise DueEntry.lt :=
  (zRangeByScore_pairwise z 0 (unix now)).filter _

/-- **The entries of the tasks the fast path takes.** -/
theorem mem_take_liveEntries : e ∈ (liveEntries w now z).take 100 ↔ Reached w now z e := by
  rw [mem_take_iff lt_asymm (liveEntries_pairwise w now z), (liveEntries_perm w now z).countP_eq,
    List.countP_filter, (liveEntries_perm w now z).mem_iff, List.mem_filter]
  have hcount : z.entries.countP (fun e' => decide (e'.lt e) && counts w now e')
      = z.entries.countP (fun e' => counts w now e' ∧ e'.lt e) :=
    List.countP_congr (fun e' _ => by simp [and_comm])
  rw [hcount, and_assoc]
  rfl

theorem length_liveEntries : (liveEntries w now z).length = z.entries.countP (counts w now) := by
  rw [(liveEntries_perm w now z).length_eq, ← List.countP_eq_length_filter]

/-! ## What each path takes. -/

/-- The live tasks of the ids. -/
def liveTasks (w : World) (now : Int) (ids : List Int) : List Task := ids.filterMap (liveTask w now)

theorem liveTask_some {id : Int} (h : liveTask w now id = some t) :
    w.tasks.tasks.get? id = some t ∧ isLive now t = true := Option.filter_eq_some_iff.mp h

theorem liveTasks_cons (w : World) (now id : Int) (ids : List Int) :
    liveTasks w now (id :: ids) = (liveTask w now id).toList ++ liveTasks w now ids := by
  unfold liveTasks
  rw [List.filterMap_cons]
  cases liveTask w now id with
  | none | some t => rfl

/-- The tasks of the entries reached. -/
def reachedTasks (w : World) (now : Int) (z : DueSet) : List Task :=
  ((liveEntries w now z).take 100).filterMap (fun e => liveTask w now e.taskID)

theorem take_liveTasks (w : World) (now : Int) (z : DueSet) :
    (liveTasks w now (getCachedDueTaskIDs z now)).take 100 = reachedTasks w now z := by
  have hfilter : ∀ (l : List DueEntry) (k : Nat),
      ((l.map DueEntry.taskID).filterMap (liveTask w now)).take k
        = ((l.filter (fun e => (liveTask w now e.taskID).isSome)).take k).filterMap
            (fun e => liveTask w now e.taskID) := by
    intro l
    induction l with
    | nil => simp
    | cons e l ih =>
    intro k
    rw [List.map_cons, List.filterMap_cons, List.filter_cons]
    cases hlive : liveTask w now e.taskID with
    | none => exact ih k
    | some t =>
      cases k with
      | zero => rfl
      | succ k =>
        simp only [Option.isSome_some, if_true, List.take_succ_cons, List.filterMap_cons, hlive]
        rw [ih k]
  exact hfilter _ 100

theorem run_loadCached (w : World) (now : Int) (scan : Scan Task) (cache : Option DueSet) :
    ∀ (ids : List Int) (n : Nat),
      (run (execAt (scanEnv now scan cache)) (TriggerLoop.loadCached ids) (w, n)).1
          = (liveTasks w now ids).map (readTask w.backend)
        ∧ (run (execAt (scanEnv now scan cache)) (TriggerLoop.loadCached ids) (w, n)).2.1 = w := by
  intro ids
  induction ids with
  | nil =>
    intro n
    exact ⟨rfl, rfl⟩
  | cons id ids ih =>
  intro n
  unfold TriggerLoop.loadCached
  have hexec : Call.exec (scanEnv now scan cache n) (.task (.getTask id)) w
      = (w.tasks.getTask w.backend id, w) := rfl
  simp only [ask_bind, run_call, execAt, hexec]
  rw [liveTasks_cons]
  unfold TaskStore.getTask liveTask
  cases hget : w.tasks.tasks.get? id with
  | none => exact ih (n + 1)
  | some t =>
  by_cases hen : t.status = .enabled
  · -- the clock is read, then the rest is loaded
    obtain ⟨hval, hworld⟩ := ih (n + 2)
    have hclock : Call.exec (scanEnv now scan cache (n + 1)) (.memory .now) w = (now, w) := rfl
    simp only [readTask_status, hen, if_true, run_call, execAt, hclock, run_bind,
      readTask_nextTriggerTime]
    refine ⟨?_, hworld⟩
    show (if ¬ t.nextTriggerTime > now then readTask w.backend t :: _ else _) = _
    rw [hval]
    by_cases hnow : t.nextTriggerTime ≤ now
    · have hlive : isLive now t = true := by simp [isLive, hen, hnow]
      rw [Option.filter_some_pos hlive, if_pos (by omega)]
      rfl
    · have hlive : isLive now t = false := by simp [isLive, hnow]
      rw [Option.filter_some_neg hlive, if_neg (by omega)]
      rfl
  · obtain ⟨hval, hworld⟩ := ih (n + 1)
    simp only [readTask_status, hen, if_false]
    refine ⟨?_, hworld⟩
    rw [hval]
    simp [isLive, hen]

theorem taken_none (w : World) (now : Int) (scan : Scan Task) :
    taken w now scan none
      = .ok (((scan.orderBy Task.nextTriggerTime
          (w.tasks.tasks.rows.filter (fun t => t.isDue now))).take 100).map
            (readTask w.backend)) := rfl

theorem liveTasks_eq_nil_iff :
    liveTasks w now (getCachedDueTaskIDs z now) = [] ↔ ∀ e ∈ z.entries, ¬ counts w now e := by
  have hempty : liveTasks w now (getCachedDueTaskIDs z now) = [] ↔ liveEntries w now z = [] := by
    unfold liveTasks getCachedDueTaskIDs getDueTaskIDs liveEntries
    rw [List.filterMap_map, List.filterMap_eq_nil_iff, List.filter_eq_nil_iff]
    simp
  rw [hempty, ← List.length_eq_zero_iff, length_liveEntries, List.countP_eq_zero]

theorem taken_some (w : World) (now : Int) (scan : Scan Task) (z : DueSet) :
    taken w now scan (some z)
      = if liveTasks w now (getCachedDueTaskIDs z now) = [] then taken w now scan none
        else .ok ((reachedTasks w now z).map (readTask w.backend)) := by
  obtain ⟨hval, hworld⟩ := run_loadCached w now scan (some z) (getCachedDueTaskIDs z now) 1
  have hcache : Call.exec (scanEnv now scan (some z) 0) (.memory .cachedDueTaskIDs) w
      = (some (getCachedDueTaskIDs z now), w) := rfl
  rw [taken_none, ← take_liveTasks]
  unfold taken TriggerLoop.dueTasks
  simp only [ask_bind, run_call, execAt, hcache, run_bind, Option.getD_some, Nat.zero_add]
  generalize run (execAt (scanEnv now scan (some z)))
    (TriggerLoop.loadCached (getCachedDueTaskIDs z now)) (w, 1) = loaded at hval hworld ⊢
  obtain ⟨tasks, w', n⟩ := loaded
  obtain rfl : w' = w := hworld
  obtain rfl : tasks = _ := hval
  rw [← List.map_take]
  cases hlive : liveTasks w' now (getCachedDueTaskIDs z now) with
  | nil | cons t ts => rfl

/-! ## When they are the same. -/

theorem map_readTask_inj {xs ys : List Task} (hxs : ∀ t ∈ xs, t ∈ w.tasks.tasks.rows)
    (hys : ∀ t ∈ ys, t ∈ w.tasks.tasks.rows)
    (h : xs.map (readTask w.backend) = ys.map (readTask w.backend)) : xs = ys := by
  -- looking the ids up again gives the rows back
  have hback : ∀ zs : List Task, (∀ t ∈ zs, t ∈ w.tasks.tasks.rows) →
      ((zs.map (readTask w.backend)).map Task.id).filterMap w.tasks.tasks.get? = zs := by
    intro zs hzs
    rw [List.map_map, List.filterMap_map]
    conv_rhs => rw [← List.filterMap_some (l := zs)]
    apply List.filterMap_congr
    intro t ht
    show w.tasks.tasks.get? (readTask w.backend t).id = some t
    rw [readTask_id]
    exact Table.get?_of_mem (hzs t ht)
  rw [← hback xs hxs, h, hback ys hys]

theorem mem_reachedTasks :
    t ∈ reachedTasks w now z ↔ ∃ e, Reached w now z e ∧ liveTask w now e.taskID = some t := by
  unfold reachedTasks
  rw [List.mem_filterMap]
  simp only [mem_take_liveEntries]

theorem mem_rows_of_reached (h : t ∈ reachedTasks w now z) : t ∈ w.tasks.tasks.rows := by
  obtain ⟨e, _, he⟩ := mem_reachedTasks.mp h
  exact (Table.get?_some (liveTask_some he).1).1

/-- A reached task is due if it has a trigger time. -/
theorem isDue_of_reached (h : t ∈ reachedTasks w now z) :
    t.isDue now = true ↔ t.nextTriggerTime ≠ 0 := by
  obtain ⟨e, _, he⟩ := mem_reachedTasks.mp h
  obtain ⟨hen, hnow⟩ := of_decide_eq_true (liveTask_some he).2
  exact ⟨fun ht => (of_decide_eq_true ht).2.1, fun hne => decide_eq_true ⟨hen, hne, hnow⟩⟩

/-- Each entry reached brings one task. -/
theorem length_reachedTasks (w : World) (now : Int) (z : DueSet) :
    (reachedTasks w now z).length = min 100 (z.entries.countP (counts w now)) := by
  have hall : ∀ l : List DueEntry, (∀ e ∈ l, (liveTask w now e.taskID).isSome) →
      (l.filterMap (fun e => liveTask w now e.taskID)).length = l.length := by
    intro l hl
    rw [List.length_filterMap_eq_countP, List.countP_eq_length]
    exact hl
  have hsome : ∀ e ∈ (liveEntries w now z).take 100, (liveTask w now e.taskID).isSome :=
    fun e he => (List.mem_filter.mp (List.mem_of_mem_take he)).2
  unfold reachedTasks
  rw [hall _ hsome, List.length_take, length_liveEntries]

theorem nodup_reachedTasks (w : World) (now : Int) (z : DueSet) : (reachedTasks w now z).Nodup := by
  have hmembers : ((liveEntries w now z).take 100).Pairwise (fun a b => a.member ≠ b.member) := by
    refine ((liveEntries_pairwise w now z).sublist (List.take_sublist _ _)).imp_of_mem ?_
    intro a b ha hb hlt heq
    have hmem : ∀ {x}, x ∈ (liveEntries w now z).take 100 → x ∈ z.entries :=
      fun hx => (mem_take_liveEntries.mp hx).1
    have hab : a = b := List.inj_on_of_nodup_map z.nodup (hmem ha) (hmem hb) heq
    rw [hab] at hlt
    exact lt_asymm b b hlt hlt
  unfold reachedTasks
  refine List.Pairwise.filterMap _ ?_ hmembers
  -- two entries of one task would have the same member
  rintro a b hne t ht t' ht' rfl
  refine hne (congrArg toString ?_)
  rw [← (Table.get?_some (liveTask_some ht).1).2, ← (Table.get?_some (liveTask_some ht').1).2]

theorem pairwise_reachedTasks :
    (reachedTasks w now z).Pairwise (fun a b => a.nextTriggerTime ≤ b.nextTriggerTime)
      ↔ ∀ e e' t t', Reached w now z e → Reached w now z e' → e.lt e' →
        liveTask w now e.taskID = some t → liveTask w now e'.taskID = some t' →
        t.nextTriggerTime ≤ t'.nextTriggerTime := by
  unfold reachedTasks
  rw [List.pairwise_filterMap, pairwise_iff_of_strict lt_asymm
    ((liveEntries_pairwise w now z).sublist (List.take_sublist _ _))]
  simp only [mem_take_liveEntries]
  constructor
  · exact fun h e e' t t' he he' hlt ht ht' => h e he e' he' hlt t ht t' ht'
  · exact fun h e he e' he' hlt t ht t' ht' => h e e' t t' he he' hlt ht ht'

/-- **THE FAST PATH AGREES WITH THE SLOW PATH** — each scan with the cache takes up tasks that a
scan without it may take up — exactly when the cache names no live task or is in step with the
store. -/
theorem fast_path_iff (w : World) (now : Int) (z : DueSet) :
    (∀ scan, ∃ scan', taken w now scan (some z) = taken w now scan' none)
      ↔ (∀ e ∈ z.entries, ¬ counts w now e) ∨ InStep w now z := by
  simp only [taken_some, taken_none, ← liveTasks_eq_nil_iff]
  by_cases hnil : liveTasks w now (getCachedDueTaskIDs z now) = []
  · simp only [if_pos hnil]
    exact ⟨fun _ => .inl hnil, fun _ scan => ⟨scan, rfl⟩⟩
  simp only [if_neg hnil, forall_const, or_iff_right hnil]
  have hrows : (w.tasks.tasks.rows.filter (fun t => t.isDue now)).Nodup :=
    (w.tasks.tasks.nodup.of_map _).filter _
  have hfirst : (∃ scan : Scan Task,
        (Except.ok ((reachedTasks w now z).map (readTask w.backend)) : Except Err (List Task))
          = .ok (((scan.orderBy Task.nextTriggerTime
            (w.tasks.tasks.rows.filter (fun t => t.isDue now))).take 100).map
              (readTask w.backend)))
      ↔ ∃ scan : Scan Task, (scan.orderBy Task.nextTriggerTime
          (w.tasks.tasks.rows.filter (fun t => t.isDue now))).take 100 = reachedTasks w now z := by
    apply exists_congr
    intro scan
    constructor
    · intro heq
      refine (map_readTask_inj (fun _ => mem_rows_of_reached) ?_ (Except.ok.inj heq)).symm
      intro t ht
      exact (List.mem_filter.mp (Scan.mem_orderBy.mp (List.mem_of_mem_take ht))).1
    · intro heq
      rw [heq]
  rw [hfirst, exists_scan_take_iff hrows, pairwise_reachedTasks, length_reachedTasks]
  have hlen : min 100 (z.entries.countP (counts w now)) = 100
      ↔ 100 ≤ z.entries.countP (counts w now) := by omega
  constructor
  · rintro ⟨_, _, hordered, hdue, hrest⟩
    refine ⟨?_, hordered, ?_⟩
    · intro e t he ht
      have hmem := mem_reachedTasks.mpr ⟨e, he, ht⟩
      exact (isDue_of_reached hmem).mp (List.mem_filter.mp (hdue t hmem)).2
    · intro t hrow ht
      rcases hrest t (List.mem_filter.mpr ⟨hrow, ht⟩) with hmem | ⟨hfull, hlater⟩
      · obtain ⟨e, he, hlive⟩ := mem_reachedTasks.mp hmem
        exact .inl ⟨e, he, (Table.get?_some (liveTask_some hlive).1).2.symm⟩
      · exact .inr ⟨hlen.mp hfull,
          fun e u he hu => hlater u (mem_reachedTasks.mpr ⟨e, he, hu⟩)⟩
  · rintro ⟨htimed, hordered, hcomplete⟩
    refine ⟨nodup_reachedTasks w now z, Nat.min_le_left _ _, hordered, ?_, ?_⟩
    · intro t hmem
      obtain ⟨e, he, hlive⟩ := mem_reachedTasks.mp hmem
      exact List.mem_filter.mpr ⟨mem_rows_of_reached hmem,
        (isDue_of_reached hmem).mpr (htimed e t he hlive)⟩
    · intro t ht
      obtain ⟨hrow, hdue⟩ := List.mem_filter.mp ht
      rcases hcomplete t hrow hdue with ⟨e, he, hid⟩ | ⟨hfull, hlater⟩
      · -- the entry of a due task brings that task
        refine .inl (mem_reachedTasks.mpr ⟨e, he, ?_⟩)
        unfold liveTask
        rw [hid, Table.get?_of_mem hrow]
        obtain ⟨hen, _, hnow⟩ := of_decide_eq_true hdue
        exact Option.filter_some_pos (decide_eq_true ⟨hen, hnow⟩)
      · refine .inr ⟨hlen.mpr hfull, ?_⟩
        intro u hu
        obtain ⟨e, he, hlive⟩ := mem_reachedTasks.mp hu
        exact hlater e u he hlive

/-- Two tasks, due five seconds apart. -/
def twoTasks : World :=
  World.ofRows .mysql
    [{ id := 1, name := "extract", status := .enabled,
       nextTriggerTime := unixEpoch + 100 * second },
     { id := 2, name := "load", status := .enabled,
       nextTriggerTime := unixEpoch + 105 * second }] [] [] []

/-- **A TASK THAT CAME DUE SINCE THE WARM IS PASSED OVER**: both are due at second 106, and the scan
with the cache of second 101 takes up the first only, which no scan without it does. -/
theorem due_task_passed_over :
    ¬ ∀ scan, ∃ scan', taken twoTasks (unixEpoch + 106 * second) scan
        (some (warmDueTasks .mysql (unixEpoch + 101 * second) .stored twoTasks.tasks))
      = taken twoTasks (unixEpoch + 106 * second) scan' none := by
  intro h
  obtain ⟨scan', heq⟩ := h .stored
  have hlen := congrArg (Except.map List.length) heq
  rw [taken_none] at hlen
  simp only [Except.map, List.length_map, List.length_take,
    (scan'.orderBy_perm Task.nextTriggerTime _).length_eq] at hlen
  revert hlen
  decide

end AiScheduler.FastPath
