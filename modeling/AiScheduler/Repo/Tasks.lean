/-
  **THE TASK REPOSITORY**, MySQL (`internal/repo/mysql`) and in-memory
  (`internal/repo/teststore`).

  Both are one table of tasks and one list of dependency edges; the `Backend` decides what a read
  shows, what an update keeps and which errors there are. MySQL has no column for shards,
  idempotency key, event trigger and the two retry times. A time column is taken to return the
  time it was given.
-/
import AiScheduler.Model.Types
import AiScheduler.Model.Dependency

namespace AiScheduler

open Lib

/-- Which repositories the process is wired to. -/
inductive Backend where
  | mysql
  | teststore
  deriving DecidableEq, Repr

/-! ## Task rows. -/

def timeOrNil (t : Int) : Option Int := if t = 0 then none else some t

theorem getD_timeOrNil (time : Int) : (timeOrNil time).getD 0 = time := by
  unfold timeOrNil
  by_cases h : time = 0
  · rw [if_pos h, h]
    rfl
  · rw [if_neg h]
    rfl

/-- `taskRow`: the columns of table `task`. -/
structure TaskRow where
  id : Int
  name : String
  type : String
  cronExpr : String
  payload : String
  image : String
  status : TaskStatus
  timeoutSeconds : Int
  maxRetry : Int
  retryPolicy : RetryPolicy
  retryOnErrors : String
  routeStrategy : RouteStrategy
  labels : String
  nextTriggerTime : Option Int
  tenantID : Int
  version : Int
  createdAt : Int
  updatedAt : Int
  deriving DecidableEq, Repr

def taskToRow (task : Task) : TaskRow where
  id := task.id
  name := task.name
  type := task.type
  cronExpr := task.cronExpr
  payload := task.payload
  image := task.image
  status := task.status
  timeoutSeconds := task.timeoutSeconds
  maxRetry := task.maxRetry
  retryPolicy := task.retryPolicy
  retryOnErrors := task.retryOnErrors
  routeStrategy := task.routeStrategy
  labels := task.labels
  nextTriggerTime := timeOrNil task.nextTriggerTime
  tenantID := task.tenantID
  version := task.version
  createdAt := task.createdAt
  updatedAt := task.updatedAt

def rowToTask (row : TaskRow) : Task where
  id := row.id
  name := row.name
  type := row.type
  cronExpr := row.cronExpr
  payload := row.payload
  image := row.image
  status := row.status
  timeoutSeconds := row.timeoutSeconds
  maxRetry := row.maxRetry
  retryPolicy := row.retryPolicy
  retryOnErrors := row.retryOnErrors
  routeStrategy := row.routeStrategy
  labels := row.labels
  nextTriggerTime := row.nextTriggerTime.getD 0
  tenantID := row.tenantID
  version := row.version
  createdAt := row.createdAt
  updatedAt := row.updatedAt

/-- What a read of a stored task shows. -/
def readTask : Backend → Task → Task
  | .mysql, t => rowToTask (taskToRow t)
  | .teststore, t => t

section

variable (b : Backend) (t : Task)

@[simp] theorem readTask_id : (readTask b t).id = t.id := by
  cases b <;> rfl

@[simp] theorem readTask_status :
    (readTask b t).status = t.status := by
  cases b <;> rfl

@[simp] theorem readTask_name : (readTask b t).name = t.name := by
  cases b <;> rfl

@[simp] theorem readTask_maxRetry :
    (readTask b t).maxRetry = t.maxRetry := by
  cases b <;> rfl

@[simp] theorem readTask_cronExpr :
    (readTask b t).cronExpr = t.cronExpr := by
  cases b <;> rfl

@[simp] theorem readTask_tenantID :
    (readTask b t).tenantID = t.tenantID := by
  cases b <;> rfl

@[simp] theorem readTask_nextTriggerTime :
    (readTask b t).nextTriggerTime = t.nextTriggerTime := by
  cases b with
  | teststore => rfl
  | mysql =>
    show (timeOrNil t.nextTriggerTime).getD 0 = t.nextTriggerTime
    unfold timeOrNil
    split
    next h => exact h.symm
    next => rfl

end

/-- `UpdateTask(task)` over `current`: MySQL sets the listed columns, memory keeps `task` itself. -/
def updatedTask (b : Backend) (now : Int) (task current : Task) : Task :=
  match b with
  | .mysql =>
    { current with
      name := task.name, type := task.type, cronExpr := task.cronExpr
      payload := task.payload, image := task.image, status := task.status
      timeoutSeconds := task.timeoutSeconds, maxRetry := task.maxRetry
      retryPolicy := task.retryPolicy, retryOnErrors := task.retryOnErrors
      routeStrategy := task.routeStrategy, labels := task.labels
      nextTriggerTime := task.nextTriggerTime, tenantID := task.tenantID
      version := current.version + 1, updatedAt := now }
  | .teststore =>
    { task with
      id := current.id, createdAt := current.createdAt, updatedAt := now
      version := current.version + 1 }

section

variable (b : Backend) (now : Int) (task current : Task)

@[simp] theorem updatedTask_id :
    (updatedTask b now task current).id = current.id := by
  cases b <;> rfl

@[simp] theorem updatedTask_status :
    (updatedTask b now task current).status = task.status := by
  cases b <;> rfl

@[simp] theorem updatedTask_tenantID :
    (updatedTask b now task current).tenantID = task.tenantID := by
  cases b <;> rfl

@[simp] theorem updatedTask_version :
    (updatedTask b now task current).version = current.version + 1 := by
  cases b <;> rfl

@[simp] theorem updatedTask_nextTriggerTime :
    (updatedTask b now task current).nextTriggerTime = task.nextTriggerTime := by
  cases b <;> rfl

end

/-! ## The store. -/

/-- Tasks under distinct ids, all below the next id, and dependency edges. -/
structure TaskStore where
  tasks : Table Task.id
  nextID : Int
  fresh : ∀ t ∈ tasks.rows, t.id < nextID
  dependencies : List TaskDependency

/-- The error of a lookup that finds nothing. -/
def taskNotFound : Backend → Err
  | .mysql => .wrap "get task" (.text "record not found")
  | .teststore => .text "task not found"

/-- MySQL's unique key on tenant and name: another row has both. -/
def TaskStore.nameTaken (s : TaskStore) (task : Task) : Bool :=
  s.tasks.rows.any (fun t => t.id ≠ task.id ∧ t.tenantID = task.tenantID ∧ t.name = task.name)

/-- The error of that unique key. -/
def duplicateName (context : String) : Err :=
  .wrap context (.text "Error 1062 (23000): Duplicate entry for key 'uk_task_name_tenant'")

def TaskStore.getTask (b : Backend) (s : TaskStore) (id : Int) : Except Err Task :=
  match s.tasks.get? id with
  | some t => .ok (readTask b t)
  | none => .error (taskNotFound b)

/-- `CreateTask`: the stored task with its new id and version 1. -/
def TaskStore.createTask (b : Backend) (now : Int) (s : TaskStore) (task : Task) :
    Except Err Task × TaskStore :=
  let stamped : Task :=
    match b with
    | .mysql =>
      { task with
        createdAt := if task.createdAt = 0 then now else task.createdAt
        updatedAt := if task.updatedAt = 0 then now else task.updatedAt }
    | .teststore => { task with createdAt := now, updatedAt := now }
  let row : Task := { stamped with id := s.nextID, version := 1 }
  if b = .mysql ∧ s.nameTaken row then (.error (duplicateName "insert task"), s)
  else
    (.ok (readTask b row),
      { s with
        tasks := s.tasks.insertNew row (fun t ht hk => by
          have := s.fresh t ht
          have hid : row.id = s.nextID := rfl
          omega)
        nextID := s.nextID + 1
        fresh := by
          intro t ht
          rcases Table.mem_insertNew.mp ht with ht | rfl
          · have := s.fresh t ht
            omega
          · show s.nextID < s.nextID + 1
            omega })

/-- The table write of `UpdateTask`. -/
def TaskStore.write (b : Backend) (now : Int) (s : TaskStore) (task : Task) : TaskStore :=
  { s with
    tasks := s.tasks.modify (fun t => t.id = task.id) (updatedTask b now task)
      (updatedTask_id b now task)
    fresh := by
      intro t ht
      obtain ⟨t₀, ht₀, rfl⟩ := Table.mem_modify.mp ht
      split
      · rw [updatedTask_id]
        exact s.fresh t₀ ht₀
      · exact s.fresh t₀ ht₀ }

/-- `UpdateTask`. The version is never compared; MySQL's unique key is checked when tenant or name
change. -/
def TaskStore.updateTask (b : Backend) (now : Int) (s : TaskStore) (task : Task) :
    Except Err Task × TaskStore :=
  match s.tasks.get? task.id with
  | none => (.error (taskNotFound b), s)
  | some current =>
    if b = .mysql ∧ (task.tenantID ≠ current.tenantID ∨ task.name ≠ current.name)
        ∧ s.nameTaken task then
      (.error (duplicateName "update task"), s)
    else (.ok (readTask b (updatedTask b now task current)), s.write b now task)

/-- `DeleteTask`; MySQL's foreign keys drop the edges of the task. -/
def TaskStore.deleteTask (b : Backend) (s : TaskStore) (id : Int) :
    Except Err Unit × TaskStore :=
  let rest : Table Task.id :=
    { rows := s.tasks.rows.filter (fun t => t.id ≠ id)
      nodup := s.tasks.nodup.sublist (List.filter_sublist.map _) }
  let deleted : TaskStore :=
    { s with tasks := rest, fresh := fun t ht => s.fresh t (List.mem_of_mem_filter ht) }
  match b with
  | .mysql =>
    (.ok (), { deleted with
      dependencies := s.dependencies.filter (fun d => d.taskID ≠ id ∧ d.dependsOnTaskID ≠ id) })
  | .teststore =>
    if (s.tasks.get? id).isSome then (.ok (), deleted) else (.error (taskNotFound b), s)

/-- `ListTasks`, by id. -/
def TaskStore.listTasks (b : Backend) (s : TaskStore) : List Task :=
  (sortBy Task.id s.tasks.rows).map (readTask b)

/-- `ListTasksByTenant`, by id. -/
def TaskStore.listTasksByTenant (b : Backend) (s : TaskStore) (tenantID : Int) : List Task :=
  (sortBy Task.id (s.tasks.rows.filter (fun t => t.tenantID = tenantID))).map (readTask b)

/-- Enabled, with a trigger time that has come. -/
def Task.isDue (t : Task) (now : Int) : Bool :=
  t.status = .enabled ∧ t.nextTriggerTime ≠ 0 ∧ t.nextTriggerTime ≤ now

/-- `ListDueTasks`, by trigger time. -/
def TaskStore.listDueTasks (b : Backend) (now : Int) (scan : Scan Task) (s : TaskStore)
    (limit : Int) : List Task :=
  (limited limit (scan.orderBy Task.nextTriggerTime
    (s.tasks.rows.filter (fun t => t.isDue now)))).map (readTask b)

def TaskStore.addDependency (b : Backend) (s : TaskStore) (taskID dependsOnTaskID : Int) :
    Except Err Unit × TaskStore :=
  let edge : TaskDependency := { taskID, dependsOnTaskID }
  let added : TaskStore := { s with dependencies := s.dependencies ++ [edge] }
  let known := (s.tasks.get? taskID).isSome && (s.tasks.get? dependsOnTaskID).isSome
  match b with
  | .mysql =>
    if !known then (.error (.wrap "add dependency" (.text "Error 1452 (23000)")), s)
    else if edge ∈ s.dependencies then
      (.error (.wrap "add dependency" (.text "Error 1062 (23000)")), s)
    else (.ok (), added)
  | .teststore => if !known then (.error (taskNotFound b), s) else (.ok (), added)

def TaskStore.removeDependency (s : TaskStore) (taskID dependsOnTaskID : Int) : TaskStore :=
  { s with
    dependencies := s.dependencies.filter
      (fun d => ¬(d.taskID = taskID ∧ d.dependsOnTaskID = dependsOnTaskID)) }

def TaskStore.listDownstreamTasks (s : TaskStore) (taskID : Int) : List Int :=
  (s.dependencies.filter (fun d => d.dependsOnTaskID = taskID)).map TaskDependency.taskID

def TaskStore.listUpstreamDeps (s : TaskStore) (taskID : Int) : List Int :=
  (s.dependencies.filter (fun d => d.taskID = taskID)).map TaskDependency.dependsOnTaskID

/-! ## What the operations do to a task. -/

theorem TaskStore.get?_write (b : Backend) (now : Int) (s : TaskStore) (task : Task) (id : Int) :
    (s.write b now task).tasks.get? id
      = (s.tasks.get? id).map
        (fun t => if t.id = task.id then updatedTask b now task t else t) := by
  unfold TaskStore.write
  rw [Table.get?_modify]
  simp

theorem TaskStore.get?_write_of_ne {b : Backend} {now : Int} {s : TaskStore} {task : Task}
    {id : Int} (h : id ≠ task.id) :
    (s.write b now task).tasks.get? id = s.tasks.get? id := by
  rw [TaskStore.get?_write]
  cases hg : s.tasks.get? id with
  | none => rfl
  | some t =>
    have hid := (Table.get?_some hg).2
    rw [Option.map_some, if_neg (by rw [hid]; exact h)]

/-- `UpdateTask` either fails and leaves the store alone, or writes the row. -/
theorem TaskStore.updateTask_cases (b : Backend) (now : Int) (s : TaskStore) (task : Task) :
    (∃ e, s.updateTask b now task = (.error e, s)) ∨ ∃ current, s.tasks.get? task.id = some current
          ∧ s.updateTask b now task
              = (.ok (readTask b (updatedTask b now task current)), s.write b now task) := by
  unfold TaskStore.updateTask
  cases hg : s.tasks.get? task.id with
  | none => exact .inl ⟨_, rfl⟩
  | some current =>
  by_cases hdup : b = .mysql ∧ (task.tenantID ≠ current.tenantID ∨ task.name ≠ current.name)
      ∧ s.nameTaken task
  · left
    exact ⟨duplicateName "update task", if_pos hdup⟩
  · right
    exact ⟨current, rfl, if_neg hdup⟩

theorem TaskStore.updateTask_of_same_name {b : Backend} {now : Int} {s : TaskStore}
    {task current : Task} (hg : s.tasks.get? task.id = some current)
    (htenant : task.tenantID = current.tenantID) (hname : task.name = current.name) :
    s.updateTask b now task
      = (.ok (readTask b (updatedTask b now task current)), s.write b now task) := by
  unfold TaskStore.updateTask
  rw [hg]
  have hno : ¬ (b = .mysql ∧ (task.tenantID ≠ current.tenantID ∨ task.name ≠ current.name)
      ∧ s.nameTaken task) := by
    rintro ⟨_, h | h, _⟩
    · exact h htenant
    · exact h hname
  exact if_neg hno

section Create

variable (b : Backend) (now : Int) (s : TaskStore) (task : Task)

/-- The row `CreateTask` stores. -/
def TaskStore.newRow : Task :=
  match b with
  | .mysql =>
    { task with
      id := s.nextID, version := 1
      createdAt := if task.createdAt = 0 then now else task.createdAt
      updatedAt := if task.updatedAt = 0 then now else task.updatedAt }
  | .teststore => { task with id := s.nextID, version := 1, createdAt := now, updatedAt := now }

theorem TaskStore.newRow_id : (s.newRow b now task).id = s.nextID := by
  cases b <;> rfl

theorem TaskStore.newRow_tenantID : (s.newRow b now task).tenantID = task.tenantID := by
  cases b <;> rfl

theorem TaskStore.newRow_name : (s.newRow b now task).name = task.name := by
  cases b <;> rfl

theorem TaskStore.createTask_of_taken (h : b = .mysql ∧ s.nameTaken (s.newRow b now task) = true) :
    ∃ e, s.createTask b now task = (.error e, s) := by
  obtain ⟨rfl, htaken⟩ := h
  exact ⟨_, if_pos ⟨rfl, htaken⟩⟩

theorem TaskStore.createTask_of_free
    (h : ¬ (b = .mysql ∧ s.nameTaken (s.newRow b now task) = true)) :
    ∃ s', s.createTask b now task = (.ok (readTask b (s.newRow b now task)), s')
      ∧ (∀ id, s'.tasks.get? id
          = if id = s.nextID then some (s.newRow b now task) else s.tasks.get? id)
      ∧ s'.nextID = s.nextID + 1 ∧ s'.dependencies = s.dependencies := by
  have hnew : ∀ t ∈ s.tasks.rows, t.id ≠ s.nextID := fun t ht => Int.ne_of_lt (s.fresh t ht)
  cases b with
  | mysql => exact ⟨_, if_neg h, fun id => Table.get?_insertNew (h := hnew) id, rfl, rfl⟩
  | teststore => exact ⟨_, rfl, fun id => Table.get?_insertNew (h := hnew) id, rfl, rfl⟩

/-- `CreateTask` fails and leaves the store alone, or stores the task under the next id. -/
theorem TaskStore.createTask_cases :
    (∃ e, s.createTask b now task = (.error e, s))
      ∨ ∃ row s', s.createTask b now task = (.ok (readTask b row), s')
          ∧ row.id = s.nextID ∧ row.tenantID = task.tenantID
          ∧ (∀ id, s'.tasks.get? id = if id = s.nextID then some row else s.tasks.get? id)
          ∧ s'.nextID = s.nextID + 1 ∧ s'.dependencies = s.dependencies := by
  by_cases htaken : b = .mysql ∧ s.nameTaken (s.newRow b now task) = true
  · exact .inl (s.createTask_of_taken b now task htaken)
  · obtain ⟨s', hs, hrest⟩ := s.createTask_of_free b now task htaken
    exact .inr ⟨_, s', hs, s.newRow_id b now task, s.newRow_tenantID b now task, hrest⟩

theorem TaskStore.nameTaken_newRow_iff :
    s.nameTaken (s.newRow b now task) = true
      ↔ ∃ t ∈ s.tasks.rows, t.tenantID = task.tenantID ∧ t.name = task.name := by
  unfold TaskStore.nameTaken
  rw [List.any_eq_true, s.newRow_id, s.newRow_tenantID, s.newRow_name]
  constructor
  · rintro ⟨t, ht, h⟩
    exact ⟨t, ht, (of_decide_eq_true h).2⟩
  · rintro ⟨t, ht, h⟩
    exact ⟨t, ht, decide_eq_true ⟨Int.ne_of_lt (s.fresh t ht), h⟩⟩

/-- `CreateTask` is refused by MySQL's unique key, and by nothing else. -/
theorem TaskStore.createTask_error_iff :
    (∃ e, s.createTask b now task = (.error e, s))
      ↔ b = .mysql ∧ ∃ t ∈ s.tasks.rows, t.tenantID = task.tenantID ∧ t.name = task.name := by
  rw [← s.nameTaken_newRow_iff b now task]
  by_cases htaken : b = .mysql ∧ s.nameTaken (s.newRow b now task) = true
  · exact iff_of_true (s.createTask_of_taken b now task htaken) htaken
  refine iff_of_false ?_ htaken
  rintro ⟨e, he⟩
  obtain ⟨s', hs, _⟩ := s.createTask_of_free b now task htaken
  cases congrArg Prod.fst (hs.symm.trans he)

end Create

theorem TaskStore.mem_listUpstreamDeps {s : TaskStore} {taskID dep : Int} :
    dep ∈ s.listUpstreamDeps taskID ↔ ⟨taskID, dep⟩ ∈ s.dependencies := by
  unfold TaskStore.listUpstreamDeps
  rw [List.mem_map]
  constructor
  · rintro ⟨d, hd, rfl⟩
    obtain ⟨hmem, htask⟩ := List.mem_filter.mp hd
    have htask : d.taskID = taskID := of_decide_eq_true htask
    rw [← htask]
    exact hmem
  · intro h
    exact ⟨⟨taskID, dep⟩, List.mem_filter.mpr ⟨h, decide_eq_true rfl⟩, rfl⟩

theorem TaskStore.addDependency_of_new {s : TaskStore} {taskID dep : Int}
    (htask : (s.tasks.get? taskID).isSome = true) (hdep : (s.tasks.get? dep).isSome = true)
    (hnew : ⟨taskID, dep⟩ ∉ s.dependencies) (b : Backend) :
    s.addDependency b taskID dep
      = (.ok (),
        { s with dependencies := s.dependencies ++ [{ taskID, dependsOnTaskID := dep }] }) := by
  unfold TaskStore.addDependency
  cases b with
  | mysql => simp [htask, hdep, hnew]
  | teststore => simp [htask, hdep]

/-- `AddDependency` fails and leaves the store alone, or joins two stored tasks. -/
theorem TaskStore.addDependency_cases (b : Backend) (s : TaskStore) (taskID dep : Int) :
    (∃ e, s.addDependency b taskID dep = (.error e, s)) ∨ (s.addDependency b taskID dep
            = (.ok (),
              { s with dependencies := s.dependencies ++ [{ taskID, dependsOnTaskID := dep }] })
          ∧ (s.tasks.get? taskID).isSome ∧ (s.tasks.get? dep).isSome) := by
  unfold TaskStore.addDependency
  by_cases hknown : ((s.tasks.get? taskID).isSome && (s.tasks.get? dep).isSome) = true
  · have hboth := (Bool.and_eq_true _ _).mp hknown
    cases b with
    | mysql =>
      simp only [hknown, Bool.not_true, Bool.false_eq_true, if_false]
      split
      · exact .inl ⟨_, rfl⟩
      · exact .inr ⟨rfl, hboth⟩
    | teststore =>
      simp only [hknown, Bool.not_true, Bool.false_eq_true, if_false]
      exact .inr ⟨trivial, hboth⟩
  cases b with
  | mysql | teststore =>
    simp only [hknown, Bool.not_false, if_true]
    exact .inl ⟨_, rfl⟩

theorem TaskStore.deleteTask_spec (b : Backend) (s : TaskStore) (id : Int) :
    (∀ k t, (s.deleteTask b id).2.tasks.get? k = some t → s.tasks.get? k = some t)
      ∧ (s.deleteTask b id).2.nextID = s.nextID
      ∧ ∀ d ∈ (s.deleteTask b id).2.dependencies, d ∈ s.dependencies := by
  have hrest : ∀ (k : Int) (t : Task),
      t ∈ s.tasks.rows.filter (fun t => t.id ≠ id) → t.id = k → s.tasks.get? k = some t := by
    intro k t ht hk
    exact Table.get?_eq_some_iff.mpr ⟨List.mem_of_mem_filter ht, hk⟩
  unfold TaskStore.deleteTask
  cases b with
  | mysql =>
    refine ⟨?_, rfl, fun d hd => List.mem_of_mem_filter hd⟩
    intro k t h
    obtain ⟨ht, hk⟩ := Table.get?_some h
    exact hrest k t ht hk
  | teststore =>
  dsimp only
  split
  · refine ⟨?_, rfl, fun d hd => hd⟩
    intro k t h
    obtain ⟨ht, hk⟩ := Table.get?_some h
    exact hrest k t ht hk
  · exact ⟨fun k t h => h, rfl, fun d hd => hd⟩

theorem TaskStore.mem_listDueTasks {b : Backend} {now : Int} {scan : Scan Task} {s : TaskStore}
    {limit : Int} {t : Task} (h : t ∈ s.listDueTasks b now scan limit) :
    ∃ t₀ ∈ s.tasks.rows, t₀.isDue now = true ∧ t = readTask b t₀ := by
  obtain ⟨t₀, ht₀, rfl⟩ := List.mem_map.mp h
  have hmem := Scan.mem_orderBy.mp (mem_of_mem_limited ht₀)
  rw [List.mem_filter] at hmem
  exact ⟨t₀, hmem.1, hmem.2, rfl⟩

theorem TaskStore.nodup_listDueTasks (b : Backend) (now : Int) (scan : Scan Task) (s : TaskStore)
    (limit : Int) : ((s.listDueTasks b now scan limit).map Task.id).Nodup := by
  have hid : (s.listDueTasks b now scan limit).map Task.id
      = (limited limit (scan.orderBy Task.nextTriggerTime
          (s.tasks.rows.filter (fun t => t.isDue now)))).map Task.id := by
    unfold TaskStore.listDueTasks
    rw [List.map_map]
    apply List.map_congr_left
    intro t _
    exact readTask_id b t
  have hfilter : ((s.tasks.rows.filter (fun t => t.isDue now)).map Task.id).Nodup :=
    s.tasks.nodup.sublist (List.filter_sublist.map _)
  have hsorted : ((scan.orderBy Task.nextTriggerTime
      (s.tasks.rows.filter (fun t => t.isDue now))).map Task.id).Nodup :=
    (((scan.orderBy_perm _ _).map _).nodup_iff).mpr hfilter
  rw [hid]
  unfold limited
  split
  · exact hsorted.sublist ((List.take_sublist _ _).map _)
  · exact hsorted

end AiScheduler
