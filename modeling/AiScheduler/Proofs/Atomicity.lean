/-
  **AN UPSERT IS NOT ATOMIC.**

  `CreateTask` and `UpdateTask` write the task row first and bring the
  dependency edges in line afterwards, edge by edge, in the order of a Go map.
  An `AddDependency` that names an unknown task fails the request, and nothing
  takes the row back.
-/
import AiScheduler.Proofs.Gate
import AiScheduler.System.Serving

namespace AiScheduler.Atomicity

open Lib Gate TaskService Prog

variable {taskID id tenant : Int} {s : TaskStore} {req : TaskUpsertRequest} {task current : Task}

/-! ## What a request may ask for. -/

/-- The stored tasks and dependency edges are the same. -/
structure SameStore (s s' : TaskStore) : Prop where
  tasks : s.tasks.rows = s'.tasks.rows
  dependencies : s.dependencies = s'.dependencies

/-- A request that fails leaves tasks and edges as they were. -/
def Atomic (w : World) (r : Request) : Prop :=
  ∀ e, (serve w r).1 = .error e → SameStore (serve w r).2.tasks w.tasks

/-- The fields are valid, and `next` is the trigger time they give at `now`. -/
structure Valid (req : TaskUpsertRequest) (now next : Int) : Prop where
  named : (Cron.trimSpace req.name.toList).isEmpty = false
  typed : (Cron.trimSpace req.type.toList).isEmpty = false
  cron : req.cronExpr ≠ "" → Cron.validate req.cronExpr = .ok ()
  given : req.cronExpr = "" ∨ req.nextTriggerTime ≠ 0 → next = req.nextTriggerTime
  computed : ¬ (req.cronExpr = "" ∨ req.nextTriggerTime ≠ 0) →
    Cron.nextAfter now req.cronExpr = .ok next

/-- `CreateTask` gets as far as writing the row. -/
structure Creates (w : World) (tenant : Int) (req : TaskUpsertRequest) (env : Nat → Input) :
    Prop where
  valid : ∃ next, Valid req (env 0).now next
  free : w.backend = .mysql → ∀ t ∈ w.tasks.tasks.rows,
    ¬ (t.tenantID = (if req.tenantID = 0 then tenant else req.tenantID) ∧ t.name = req.name)

/-- `UpdateTask` gets as far as writing the row `current`. -/
structure Updates (w : World) (tenant id : Int) (req : TaskUpsertRequest) (env : Nat → Input)
    (current : Task) : Prop where
  positive : 0 < id
  stored : w.tasks.tasks.get? id = some current
  owned : tenant = 0 ∨ current.tenantID = 0 ∨ current.tenantID = tenant
  valid : ∃ next, Valid req (env 1).now next
    -- a computed time that is the zero time is computed once more
    ∧ (next ≠ 0 ∨ req.cronExpr = current.cronExpr ∨ req.cronExpr = ""
        ∨ ∃ next', Cron.nextAfter (env 2).now req.cronExpr = .ok next')
  free : w.backend = .mysql → (req.tenantID ≠ current.tenantID ∨ req.name ≠ current.name) →
    ∀ t ∈ w.tasks.tasks.rows, t.id ≠ id → ¬ (t.tenantID = req.tenantID ∧ t.name = req.name)

/-- Every wanted dependency is there already, or leads to a stored task or the task itself. -/
def AllKnown (s : TaskStore) (taskID : Int) (dependsOn : List Int) : Prop :=
  ∀ dep ∈ dependsOn, dep ∈ s.listUpstreamDeps taskID ∨ dep = taskID
    ∨ (s.tasks.get? dep).isSome = true

/-! ## The edges. -/

section Sync

variable {env : Nat → Input} (hno : NoFaults env)

/-- The tasks are as in `w`, and there is no edge that `w` has not. -/
structure Trimmed (w : World) (x : World × Nat) : Prop where
  backend : x.1.backend = w.backend
  tasks : x.1.tasks.tasks = w.tasks.tasks
  edges : ∀ d ∈ x.1.tasks.dependencies, d ∈ w.tasks.dependencies

include hno

theorem wp_removeDeps (taskID : Int) :
    ∀ (ids : List Int) (w : World) (n : Nat),
      wp (execAt env) (removeDeps taskID ids) (fun r x => r = .ok () ∧ Trimmed w x) (w, n) := by
  intro ids
  induction ids with
  | nil =>
    intro w n
    exact ⟨rfl, rfl, rfl, fun _ hd => hd⟩
  | cons id ids ih =>
  intro w n
  unfold removeDeps
  rw [wp_task_bind_of_free (hno n)]
  refine (ih _ (n + 1)).mono ?_
  rintro r x ⟨hr, hx⟩
  exact ⟨hr, hx.backend, hx.tasks, fun d hd => List.mem_of_mem_filter (hx.edges d hd)⟩

theorem wp_addDeps (taskID : Int) :
    ∀ (ids : List Int) (w : World) (n : Nat), (w.tasks.tasks.get? taskID).isSome = true →
      ids.Nodup → (∀ id ∈ ids, ⟨taskID, id⟩ ∉ w.tasks.dependencies) →
      wp (execAt env) (addDeps taskID ids) (fun r x => x.1.tasks.tasks = w.tasks.tasks
          ∧ (r = .ok () ↔ ∀ id ∈ ids, (w.tasks.tasks.get? id).isSome = true)) (w, n) := by
  intro ids
  induction ids with
  | nil =>
    intro w n _ _ _
    exact ⟨rfl, fun _ id hid => (by cases hid), fun _ => rfl⟩
  | cons id ids ih =>
  intro w n htask hnodup hnew
  obtain ⟨hid, hnodup⟩ := List.nodup_cons.mp hnodup
  unfold addDeps
  rw [wp_task_bind_of_free (hno n)]
  cases hknown : (w.tasks.tasks.get? id).isSome with
  | true =>
    have hadd := TaskStore.addDependency_of_new htask hknown (hnew id List.mem_cons_self) w.backend
    rw [show TaskCall.exec _ _ (.addDependency taskID id) _ = _ from hadd]
    dsimp only
    refine (ih _ (n + 1) ?_ hnodup ?_).mono ?_
    · exact htask
    · intro id' hid' hmem
      rcases List.mem_append.mp hmem with hmem | hmem
      · exact hnew id' (.tail _ hid') hmem
      -- the wanted ids are distinct
      have heq : id' = id := congrArg TaskDependency.dependsOnTaskID (List.mem_singleton.mp hmem)
      rw [heq] at hid'
      exact hid hid'
    rintro r x ⟨htasks, hr⟩
    refine ⟨htasks, ?_⟩
    rw [hr, List.forall_mem_cons]
    exact ⟨fun h => ⟨hknown, h⟩, fun h => h.2⟩
  -- the edge to an unknown task is refused, and the loop ends
  | false =>
    rcases w.tasks.addDependency_cases w.backend taskID id with ⟨e, he⟩ | ⟨_, _, hsome⟩
    · rw [show TaskCall.exec _ _ (.addDependency taskID id) _ = _ from he]
      refine ⟨rfl, ?_⟩
      rw [List.forall_mem_cons, hknown]
      exact ⟨fun h => (by cases h), fun h => (by cases h.1)⟩
    · rw [hknown] at hsome
      cases hsome

/-- **`syncDependencies`** of a stored task succeeds exactly if the dependencies are known. -/
theorem wp_syncDependencies_iff (dependsOn : List Int) {w : World}
    (htask : (w.tasks.tasks.get? taskID).isSome = true) (n : Nat) :
    wp (execAt env) (syncDependencies taskID dependsOn) (fun r x => x.1.tasks.tasks = w.tasks.tasks
        ∧ (r = .ok () ↔ AllKnown w.tasks taskID dependsOn)) (w, n) := by
  unfold syncDependencies
  rw [wp_task_bind_of_free (hno n)]
  show wp (execAt env) (rangeOrder ((env n).shuffle (w.tasks.listUpstreamDeps taskID)).dedup >>= _)
    _ (w, n + 1)
  rw [wp_ask_bind, wp_bind]
  -- stale edges go first; this cannot fail
  refine (wp_removeDeps hno taskID _ w (n + 1 + 1)).mono ?_
  rintro r ⟨w₁, n₁⟩ ⟨rfl, htrimmed⟩
  have htasks : w₁.tasks.tasks = w.tasks.tasks := htrimmed.tasks
  dsimp only
  rw [wp_ask_bind]
  -- the ids to be added, in the order the map is ranged over
  have hperm := (env n₁).shuffle_perm dependsOn.dedup
  have hmem : ∀ id, id ∈ ((env n₁).shuffle dependsOn.dedup).filter
      (fun id => id ∉ (env n).shuffle (w.tasks.listUpstreamDeps taskID))
        ↔ id ∈ dependsOn ∧ id ∉ w.tasks.listUpstreamDeps taskID := by
    intro id
    rw [List.mem_filter, hperm.mem_iff, List.mem_dedup, decide_eq_true_iff, Input.mem_shuffle]
  refine (wp_addDeps hno taskID _ w₁ (n₁ + 1) (by rw [htasks]; exact htask) ?_ ?_).mono ?_
  · exact (hperm.nodup_iff.mpr (List.nodup_dedup _)).filter _
  · intro id hid hedge
    exact ((hmem id).mp hid).2 (TaskStore.mem_listUpstreamDeps.mpr (htrimmed.edges _ hedge))
  rintro r x ⟨hx, hr⟩
  refine ⟨hx.trans htasks, ?_⟩
  rw [hr, htasks]
  constructor
  · intro h dep hdep
    by_cases hup : dep ∈ w.tasks.listUpstreamDeps taskID
    · exact .inl hup
    · exact .inr (.inr (h dep ((hmem dep).mpr ⟨hdep, hup⟩)))
  · intro h id hid
    obtain ⟨hdep, hup⟩ := (hmem id).mp hid
    rcases h id hdep with h | rfl | h
    · exact absurd h hup
    · exact htask
    · exact h

end Sync

/-! ## The row. -/

theorem SameStore.refl (s : TaskStore) : SameStore s s := ⟨rfl, rfl⟩

theorem not_sameStore {s' : TaskStore} (h : s.tasks.get? id ≠ s'.tasks.get? id) :
    ¬ SameStore s s' := by
  intro hsame
  apply h
  rw [Table.ext hsame.tasks]

section Upsert

variable {env : Nat → Input} {w : World}

theorem wp_buildTask_of_valid {post : Except Err Task → World × Nat → Prop} {n : Nat}
    (herr : (∀ next, ¬ Valid req (env n).now next) → ∀ e m, post (.error e) (w, m))
    (hok : ∀ next m, Valid req (env n).now next →
      (req.nextTriggerTime = 0 → req.cronExpr ≠ "" → m = n + 1) →
      post (.ok (requestedTask id req next)) (w, m)) :
    wp (execAt env) (buildTask id req) post (w, n) := by
  unfold buildTask
  split
  next hname => exact herr (fun next hvalid => by grind [hvalid.named]) _ n
  next hname =>
  split
  next htype => exact herr (fun next hvalid => by grind [hvalid.typed]) _ n
  next htype =>
  have hname : (Cron.trimSpace req.name.toList).isEmpty = false := by simpa using hname
  have htype : (Cron.trimSpace req.type.toList).isEmpty = false := by simpa using htype
  rw [wp_bind]
  unfold requestedTrigger
  split
  -- without an expression the requested time is taken as it is
  next hcron => exact hok req.nextTriggerTime n (by constructor <;> grind) (by grind)
  next hcron =>
  cases hvalidate : Cron.validate req.cronExpr with
  | error e => exact herr (fun next hvalid => by grind [hvalid.cron hcron]) _ n
  | ok u =>
  dsimp only
  split
  next hgiven => exact hok req.nextTriggerTime n (by constructor <;> grind) (by grind)
  -- only here the clock is read
  next hgiven =>
    rw [wp_timeNow_bind]
    cases hnext : Cron.nextAfter (env n).now req.cronExpr with
    | error e => exact herr (fun next hvalid => by grind [hvalid.computed]) _ (n + 1)
    | ok next => exact hok next (n + 1) (by constructor <;> grind) (fun _ _ => rfl)

theorem allKnown_of_write {s' : TaskStore} {dependsOn : List Int}
    (hedges : s'.dependencies = s.dependencies)
    (hrows : ∀ id, id ≠ taskID → (s'.tasks.get? id).isSome = (s.tasks.get? id).isSome) :
    AllKnown s' taskID dependsOn ↔ AllKnown s taskID dependsOn := by
  -- the task itself always counts as known
  have hup : s'.listUpstreamDeps taskID = s.listUpstreamDeps taskID := by
    unfold TaskStore.listUpstreamDeps
    rw [hedges]
  unfold AllKnown
  rw [hup]
  grind

/-- What an upsert leaves that wrote its row. -/
structure Wrote (w : World) (taskID : Int) (dependsOn : List Int) (r : Except Err Task)
    (x : World × Nat) : Prop where
  changed : ¬ SameStore x.1.tasks w.tasks
  succeeds : (∃ t, r = .ok t) ↔ AllKnown w.tasks taskID dependsOn

theorem wp_sync_of_write (hno : NoFaults env) (dependsOn : List Int)
    (hedges : s.dependencies = w.tasks.dependencies)
    (htask : (s.tasks.get? taskID).isSome = true)
    (hrows : ∀ id, id ≠ taskID → (s.tasks.get? id).isSome = (w.tasks.tasks.get? id).isSome)
    (hchanged : s.tasks.get? taskID ≠ w.tasks.tasks.get? taskID) (n : Nat) :
    wp (execAt env) (syncDependencies taskID dependsOn)
      (fun r x => ∀ stored : Task, Wrote w taskID dependsOn (r.map (fun _ => stored)) x)
      ({ w with tasks := s }, n) := by
  -- whatever the edges come to, the row stays written
  refine (wp_syncDependencies_iff hno dependsOn (w := { w with tasks := s }) htask n).mono ?_
  rintro r ⟨w₁, n₁⟩ ⟨htasks, hr⟩ stored
  rw [allKnown_of_write hedges hrows] at hr
  refine ⟨?_, ?_⟩
  · apply not_sameStore
    rw [show w₁.tasks.tasks = s.tasks from htasks]
    exact hchanged
  rw [← hr]
  cases r with
  | error e => exact ⟨fun ⟨t, h⟩ => (by cases h), fun h => (by cases h)⟩
  | ok u => exact ⟨fun _ => rfl, fun _ => ⟨stored, rfl⟩⟩

theorem wp_storeCreated_iff (hno : NoFaults env) (task : Task) (dependsOn : List Int) (n : Nat) :
    wp (execAt env) (storeCreated task dependsOn)
      (fun r x => (w.backend = .mysql ∧ ∃ t ∈ w.tasks.tasks.rows, t.tenantID = task.tenantID
            ∧ t.name = task.name) ∧ x.1 = w
        ∨ ¬ (w.backend = .mysql ∧ ∃ t ∈ w.tasks.tasks.rows, t.tenantID = task.tenantID
            ∧ t.name = task.name) ∧ Wrote w w.tasks.nextID dependsOn r x) (w, n) := by
  have herror := w.tasks.createTask_error_iff w.backend (env n).now task
  unfold storeCreated
  rw [wp_task_bind_of_free (hno n)]
  rcases w.tasks.createTask_cases w.backend (env n).now task with
    ⟨e, he⟩ | ⟨row, s, hs, hid, _, hrows, _, hedges⟩
  · rw [show TaskCall.exec _ _ (.createTask task) _ = _ from he]
    exact .inl ⟨herror.mp ⟨e, he⟩, rfl⟩
  have hfree : ¬ (w.backend = .mysql ∧ ∃ t ∈ w.tasks.tasks.rows, t.tenantID = task.tenantID
      ∧ t.name = task.name) := by
    intro htaken
    obtain ⟨e, he⟩ := herror.mpr htaken
    cases congrArg Prod.fst (hs.symm.trans he)
  -- the next id is not in use, so the store has changed
  have hnew : w.tasks.tasks.get? w.tasks.nextID = none := by
    rw [Table.get?_none]
    intro t ht
    exact Int.ne_of_lt (w.tasks.fresh t ht)
  rw [show TaskCall.exec _ _ (.createTask task) _ = _ from hs]
  dsimp only
  rw [wp_bind, readTask_id, hid]
  refine (wp_sync_of_write hno dependsOn hedges ?_ ?_ ?_ (n + 1)).mono ?_
  · rw [hrows, if_pos rfl]
    rfl
  · intro id hne
    rw [hrows, if_neg hne]
  · rw [hrows, if_pos rfl, hnew]
    simp
  intro r x hx
  cases r with
  | error e => exact .inr ⟨hfree, hx row⟩
  | ok u => exact .inr ⟨hfree, hx _⟩

theorem wp_createTask_iff (hno : NoFaults env) (tenant : Int) (req : TaskUpsertRequest) :
    wp (execAt env) (TaskService.createTask tenant req)
      (fun r x => (Creates w tenant req env → Wrote w w.tasks.nextID req.dependsOn r x)
        ∧ (¬ Creates w tenant req env → x.1 = w)) (w, 0) := by
  unfold TaskService.createTask
  rw [wp_bind]
  apply wp_buildTask_of_valid
  · intro hinvalid e m
    exact ⟨fun ⟨⟨next, hvalid⟩, _⟩ => absurd hvalid (hinvalid next), fun _ => rfl⟩
  intro next m hvalid _
  refine (wp_storeCreated_iff hno _ req.dependsOn m).mono ?_
  rintro r x (⟨⟨hmysql, t, ht, htaken⟩, hx⟩ | ⟨hfree, hx⟩)
  · exact ⟨fun hcreates => absurd htaken (hcreates.free hmysql t ht), fun _ => hx⟩
  · have hcreates : Creates w tenant req env :=
      ⟨⟨next, hvalid⟩, fun hmysql t ht htaken => hfree ⟨hmysql, t, ht, htaken⟩⟩
    exact ⟨fun _ => hx, fun h => absurd hcreates h⟩

/-- MySQL's unique key refuses the update of `current`. -/
def NameClash (w : World) (task current : Task) : Prop :=
  w.backend = .mysql ∧ (task.tenantID ≠ current.tenantID ∨ task.name ≠ current.name)
    ∧ ∃ t ∈ w.tasks.tasks.rows, t.id ≠ task.id ∧ t.tenantID = task.tenantID ∧ t.name = task.name

theorem nameTaken_iff (s : TaskStore) (task : Task) :
    s.nameTaken task = true ↔ ∃ t ∈ s.tasks.rows, t.id ≠ task.id
      ∧ t.tenantID = task.tenantID ∧ t.name = task.name := by
  unfold TaskStore.nameTaken
  rw [List.any_eq_true]
  simp only [decide_eq_true_eq]

theorem updateTask_of_clash
    (hstored : w.tasks.tasks.get? task.id = some current) (hclash : NameClash w task current)
    (now : Int) :
    w.tasks.updateTask w.backend now task = (.error (duplicateName "update task"), w.tasks) := by
  unfold TaskStore.updateTask
  rw [hstored]
  exact if_pos ⟨hclash.1, hclash.2.1, (nameTaken_iff _ _).mpr hclash.2.2⟩

theorem updateTask_of_free
    (hstored : w.tasks.tasks.get? task.id = some current) (hfree : ¬ NameClash w task current)
    (now : Int) :
    w.tasks.updateTask w.backend now task
      = (.ok (readTask w.backend (updatedTask w.backend now task current)),
          w.tasks.write w.backend now task) := by
  unfold TaskStore.updateTask
  rw [hstored]
  exact if_neg (fun h => hfree ⟨h.1, h.2.1, (nameTaken_iff _ _).mp h.2.2⟩)

theorem get?_write_of_stored (hstored : w.tasks.tasks.get? task.id = some current) (now : Int) :
    (w.tasks.write w.backend now task).tasks.get? task.id
      = some (updatedTask w.backend now task current) := by
  rw [TaskStore.get?_write, hstored, Option.map_some, if_pos (Table.get?_some hstored).2]

theorem wp_storeUpdated_iff (hno : NoFaults env)
    (hstored : w.tasks.tasks.get? task.id = some current) (dependsOn : List Int) (n : Nat) :
    wp (execAt env) (storeUpdated task dependsOn) (fun r x => NameClash w task current ∧ x.1 = w
        ∨ ¬ NameClash w task current ∧ Wrote w task.id dependsOn r x) (w, n) := by
  unfold storeUpdated
  rw [wp_task_bind_of_free (hno n)]
  by_cases hclash : NameClash w task current
  · rw [show TaskCall.exec _ _ (.updateTask task) _ = _ from updateTask_of_clash hstored hclash _]
    exact .inl ⟨hclash, rfl⟩
  rw [show TaskCall.exec _ _ (.updateTask task) _ = _ from updateTask_of_free hstored hclash _]
  have hrow := get?_write_of_stored hstored (env n).now
  dsimp only
  rw [wp_bind, readTask_id, updatedTask_id, (Table.get?_some hstored).2]
  have hedges : (w.tasks.write w.backend (env n).now task).dependencies = w.tasks.dependencies :=
    rfl
  refine (wp_sync_of_write hno dependsOn hedges ?_ ?_ ?_ (n + 1)).mono ?_
  · rw [hrow]
    rfl
  · intro id hne
    rw [TaskStore.get?_write_of_ne hne]
  · -- the version goes up
    rw [hrow, hstored]
    intro heq
    have hversion := congrArg Task.version (Option.some.inj heq)
    rw [updatedTask_version] at hversion
    omega
  intro r x hwrote
  cases r with
  | error e => exact .inr ⟨hclash, hwrote task⟩
  | ok u => exact .inr ⟨hclash, hwrote _⟩

theorem wp_loadOwned_of_stored {β : Type}
    {f : Except Err Task → Program (Except Err β)} {post : Except Err β → World × Nat → Prop}
    (herr : (∀ t, (env 0).fault = none → 0 < id → w.tasks.tasks.get? id = some t →
        ¬ (tenant = 0 ∨ t.tenantID = 0 ∨ t.tenantID = tenant)) →
      ∀ e n, wp (execAt env) (f (.error e)) post (w, n))
    (hok : ∀ t, (env 0).fault = none → 0 < id → w.tasks.tasks.get? id = some t →
      (tenant = 0 ∨ t.tenantID = 0 ∨ t.tenantID = tenant) →
      wp (execAt env) (f (.ok (readTask w.backend t))) post (w, 1)) :
    wp (execAt env) (loadOwned tenant id >>= f) post (w, 0) := by
  rw [wp_bind]
  unfold loadOwned
  split
  next hid => exact herr (fun t _ hpos => by omega) _ 0
  next hid =>
  have hpos : 0 < id := by omega
  cases hf : (env 0).fault with
  | some text =>
    rw [AiScheduler.getTask, wp_ask_bind]
    simp only [Call.exec, hf]
    exact herr (by grind) _ 1
  | none =>
  rw [wp_task_bind_of_free hf]
  simp only [TaskCall.exec, TaskStore.getTask]
  cases hg : w.tasks.tasks.get? id with
  | none => exact herr (by grind) _ 1
  | some t =>
  dsimp only
  have howner := checkTenant_eq_ok_iff tenant (readTask w.backend t)
  rw [readTask_tenantID] at howner
  cases hc : checkTenant tenant (readTask w.backend t) with
  | error e => exact herr (by grind) _ 1
  | ok u => exact hok t hf hpos hg (howner.mp hc)

theorem wp_updatedTrigger_iff {post : Except Err Int → World × Nat → Prop} {n : Nat}
    (herr : task.nextTriggerTime = 0 → task.cronExpr ≠ current.cronExpr → task.cronExpr ≠ "" →
      (¬ ∃ next, Cron.nextAfter (env n).now task.cronExpr = .ok next) →
      ∀ e m, post (.error e) (w, m))
    (hok : ∀ time m, (task.nextTriggerTime ≠ 0 ∨ task.cronExpr = current.cronExpr
        ∨ task.cronExpr = "" ∨ ∃ next, Cron.nextAfter (env n).now task.cronExpr = .ok next) →
      (task.nextTriggerTime ≠ 0 → time = task.nextTriggerTime) →
      (task.nextTriggerTime = 0 → task.cronExpr = current.cronExpr →
        time = current.nextTriggerTime) →
      (task.nextTriggerTime ≠ 0 ∨ task.cronExpr = current.cronExpr → m = n) →
      post (.ok time) (w, m)) :
    wp (execAt env) (updatedTrigger task current) post (w, n) := by
  unfold updatedTrigger
  split
  next hnext => exact hok _ n (.inl hnext) (by grind) (by grind) (by grind)
  next hnext =>
  split
  next hcron =>
    rw [wp_timeNow_bind]
    cases hagain : Cron.nextAfter (env n).now task.cronExpr with
    | error e => exact herr (by simpa using hnext) hcron.1 hcron.2 (by grind) _ (n + 1)
    | ok next => exact hok next (n + 1) (by grind) (by grind) (by grind) (by grind)
  next hcron => exact hok _ n (by grind) (by grind) (by grind) (by grind)

/-- `UpdateTask` is ready to write: the row `current`, the built time `next`, the stored time. -/
structure Prepared (w : World) (tenant id : Int) (req : TaskUpsertRequest) (env : Nat → Input)
    (current : Task) (next time : Int) (call : Nat) : Prop where
  loaded : (env 0).fault = none
  positive : 0 < id
  stored : w.tasks.tasks.get? id = some current
  owned : tenant = 0 ∨ current.tenantID = 0 ∨ current.tenantID = tenant
  valid : Valid req (env 1).now next
  computed : next ≠ 0 ∨ req.cronExpr = current.cronExpr ∨ req.cronExpr = ""
    ∨ ∃ next', Cron.nextAfter (env 2).now req.cronExpr = .ok next'
  built : next ≠ 0 → time = next
  kept : next = 0 → req.cronExpr = current.cronExpr → time = current.nextTriggerTime
  -- after `GetTask` and the clock
  third : req.nextTriggerTime = 0 → req.cronExpr ≠ "" → req.cronExpr = current.cronExpr → call = 2

theorem Valid.unique {now next next' : Int} (h : Valid req now next)
    (h' : Valid req now next') : next = next' := by
  by_cases hgiven : req.cronExpr = "" ∨ req.nextTriggerTime ≠ 0
  · rw [h.given hgiven, h'.given hgiven]
  · exact Except.ok.inj ((h.computed hgiven).symm.trans (h'.computed hgiven))

theorem Updates.prepared (h : Updates w tenant id req env current) (hfree : (env 0).fault = none) :
    ∃ next time, Prepared w tenant id req env current next time 2 := by
  obtain ⟨next, hvalid, hcomputed⟩ := h.valid
  by_cases hzero : next = 0
  · exact ⟨next, current.nextTriggerTime, hfree, h.positive, h.stored, h.owned, hvalid, hcomputed,
      fun hne => absurd hzero hne, fun _ _ => rfl, fun _ _ _ => rfl⟩
  · exact ⟨next, next, hfree, h.positive, h.stored, h.owned, hvalid, hcomputed,
      fun _ => rfl, fun h => absurd h hzero, fun _ _ _ => rfl⟩

/-- **`UpdateTask`, up to its write**: it fails, or stores what was prepared. -/
theorem wp_updateTask_of_prepared {post : Except Err Task → World × Nat → Prop}
    (herr : (∀ current next time k, ¬ Prepared w tenant id req env current next time k) →
      ∀ e n, post (.error e) (w, n))
    (hok : ∀ current next time k, Prepared w tenant id req env current next time k →
      wp (execAt env) (storeUpdated
        { requestedTask id req time with
          createdAt := (readTask w.backend current).createdAt
          version := (readTask w.backend current).version } req.dependsOn) post (w, k)) :
    wp (execAt env) (TaskService.updateTask tenant id req) post (w, 0) := by
  unfold TaskService.updateTask
  apply wp_loadOwned_of_stored
  · intro hnot e n
    exact herr (fun current _ _ _ h => hnot current h.loaded h.positive h.stored h.owned) e n
  intro t hloaded hpos hstored howned
  dsimp only
  rw [wp_bind]
  apply wp_buildTask_of_valid
  · intro hinvalid e m
    exact herr (fun _ next _ _ h => hinvalid next h.valid) e m
  intro next m hvalid hm
  -- a built time of zero was computed; the clock is read again after that
  have hclock : next = 0 → req.cronExpr ≠ "" → env m = env 2 := by
    have hgiven := hvalid.given
    grind
  dsimp only
  rw [wp_bind]
  apply wp_updatedTrigger_iff
  · intro hzero hchanged hcron hnone e k
    rw [readTask_cronExpr] at hchanged
    refine herr ?_ e k
    intro current next' time k h
    have hcurrent : current = t := Option.some.inj (h.stored.symm.trans hstored)
    have hcomputed := h.computed
    rw [hcurrent, h.valid.unique hvalid, ← hclock hzero hcron] at hcomputed
    rcases hcomputed with h | h | h | h
    · exact absurd hzero h
    · exact absurd h hchanged
    · exact absurd h hcron
    · exact absurd h hnone
  intro time k hcomputed hbuilt hkept hcall
  rw [readTask_cronExpr] at hcomputed hkept hcall
  rw [readTask_nextTriggerTime] at hkept
  refine hok t next time k ⟨hloaded, hpos, hstored, howned, hvalid, ?_, hbuilt, hkept, ?_⟩
  · by_cases hzero : next = 0
    · by_cases hcron : req.cronExpr = ""
      · exact .inr (.inr (.inl hcron))
      · rw [← hclock hzero hcron]
        exact hcomputed
    · exact .inl hzero
  · intro hgiven hcron hsame
    rw [hcall (.inr hsame), hm hgiven hcron]

theorem wp_updateTask_iff (hno : NoFaults env) (tenant id : Int) (req : TaskUpsertRequest) :
    wp (execAt env) (TaskService.updateTask tenant id req)
      (fun r x => ((∃ current, Updates w tenant id req env current) → Wrote w id req.dependsOn r x)
        ∧ ((¬ ∃ current, Updates w tenant id req env current) → x.1 = w)) (w, 0) := by
  apply wp_updateTask_of_prepared
  · intro hnot e n
    refine ⟨?_, fun _ => rfl⟩
    rintro ⟨current, hupdates⟩
    obtain ⟨next, time, hprepared⟩ := hupdates.prepared (hno 0)
    exact absurd hprepared (hnot current next time 2)
  intro t next time k h
  refine (wp_storeUpdated_iff hno h.stored req.dependsOn k).mono ?_
  rintro r x (⟨⟨hmysql, hchanged, t', ht', hne, htaken⟩, hx⟩ | ⟨hfree, hx⟩)
  · refine ⟨?_, fun _ => hx⟩
    rintro ⟨current, hupdates⟩
    obtain rfl : current = t := Option.some.inj (hupdates.stored.symm.trans h.stored)
    exact absurd htaken (hupdates.free hmysql hchanged t' ht' hne)
  · have hupdates : Updates w tenant id req env t :=
      ⟨h.positive, h.stored, h.owned, ⟨next, h.valid, h.computed⟩,
        fun hmysql hchanged t' ht' hne htaken => hfree ⟨hmysql, hchanged, t', ht', hne, htaken⟩⟩
    exact ⟨fun _ => hx, fun hnone => absurd ⟨t, hupdates⟩ hnone⟩

end Upsert

/-! ## Atomicity. -/

/-- An upsert is atomic exactly if, once it writes its row, its dependencies are
known. -/
theorem atomic_of_wrote {w : World} {r : Request} {p : Program (Except Err Task)} {writes : Prop}
    {dependsOn : List Int} (hprogram : r.op.program r.tenant = reply .task p)
    (hp : wp (execAt r.env) p
      (fun res x => (writes → Wrote w taskID dependsOn res x) ∧ (¬ writes → x.1 = w)) (w, 0)) :
    Atomic w r ↔ (writes → AllKnown w.tasks taskID dependsOn) := by
  have hreply : wp (execAt r.env) (r.op.program r.tenant)
      (fun out x => ∃ res : Except Err Task, out = res.map Reply.task
        ∧ (writes → Wrote w taskID dependsOn res x) ∧ (¬ writes → x.1 = w)) (w, 0) := by
    rw [hprogram, wp_reply]
    exact hp.mono (fun res x h => ⟨res, rfl, h⟩)
  obtain ⟨res, hout, hwrote, hunwritten⟩ := hreply
  have hout : (serve w r).1 = res.map Reply.task := hout
  unfold Atomic
  constructor
  · intro hatomic hwrites
    obtain ⟨hchanged, hsucceeds⟩ := hwrote hwrites
    rw [← hsucceeds]
    cases res with
    | ok t => exact ⟨t, rfl⟩
    | error e => exact absurd (hatomic e hout) hchanged
  · intro hknown e he
    by_cases hwrites : writes
    · obtain ⟨t, rfl⟩ := (hwrote hwrites).succeeds.mpr (hknown hwrites)
      rw [hout] at he
      cases he
    · rw [show (serve w r).2 = w from hunwritten hwrites]
      exact .refl _

/-- **`CreateTask` and `UpdateTask` are atomic EXACTLY for the requests** that are refused before
the row is written, or whose dependencies are all known. -/
theorem atomic_iff (w : World) (tenant : Int) (req : TaskUpsertRequest) (env : Nat → Input)
    (hno : NoFaults env) :
    (Atomic w { tenant, op := .createTask req, env }
        ↔ (Creates w tenant req env → AllKnown w.tasks w.tasks.nextID req.dependsOn))
      ∧ ∀ id, (Atomic w { tenant, op := .updateTask id req, env }
        ↔ ((∃ current, Updates w tenant id req env current) → AllKnown w.tasks id req.dependsOn)) :=
  ⟨atomic_of_wrote rfl (wp_createTask_iff hno tenant req),
    fun id => atomic_of_wrote rfl (wp_updateTask_iff hno tenant id req)⟩

def twoTasks : World :=
  World.ofRows .teststore [{ id := 1, name := "load" }, { id := 2, name := "report" }] [] [] []

/-- A new version of the second one, which is to wait for task 1 and task 9. -/
def waitForBoth : TaskUpsertRequest :=
  { name := "report daily", type := "shell", dependsOn := [1, 9] }

/-- **Task 9 does not exist**: both requests fail, yet task 3 is stored and task 2 renamed, with an
edge to task 1. -/
theorem upsert_half_done :
    (serve twoTasks { tenant := 0, op := .createTask waitForBoth }).1.isOk = false
      ∧ ¬ Atomic twoTasks { tenant := 0, op := .createTask waitForBoth }
      ∧ (serve twoTasks { tenant := 0, op := .createTask waitForBoth }).2.tasks.dependencies
          = [⟨3, 1⟩]
      ∧ (serve twoTasks { tenant := 0, op := .updateTask 2 waitForBoth }).1.isOk = false
      ∧ ¬ Atomic twoTasks { tenant := 0, op := .updateTask 2 waitForBoth }
      ∧ ((serve twoTasks { tenant := 0, op := .updateTask 2 waitForBoth }).2.tasks.tasks.get? 2).map
          Task.name = some "report daily"
      ∧ (serve twoTasks { tenant := 0, op := .updateTask 2 waitForBoth }).2.tasks.dependencies
          = [⟨2, 1⟩] := by
  have hcreate : (serve twoTasks { tenant := 0, op := .createTask waitForBoth }).1
      = .error (.text "task not found") := by decide
  have hupdate : (serve twoTasks { tenant := 0, op := .updateTask 2 waitForBoth }).1
      = .error (.text "task not found") := by decide
  refine ⟨by decide, ?_, by decide, by decide, ?_, by decide,
    by decide⟩
  · intro h
    have hrows := congrArg List.length (h _ hcreate).tasks
    revert hrows
    decide
  intro h
  have hrows := congrArg (List.map Task.name) (h _ hupdate).tasks
  revert hrows
  decide

/-- A request for known dependencies is atomic. -/
theorem upsert_atomic_known :
    Atomic twoTasks { tenant := 0, op := .updateTask 2 { waitForBoth with dependsOn := [1] } } := by
  refine ((atomic_iff twoTasks 0 { waitForBoth with dependsOn := [1] } (fun _ => {})
    (fun _ => rfl)).2 2).mpr ?_
  intro _ dep hdep
  rw [List.mem_singleton.mp hdep]
  exact .inr (.inr (by decide))

end AiScheduler.Atomicity
