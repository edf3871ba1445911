/-
  **THE TRIGGER LOOP** (`internal/scheduler/trigger/loop.go`): one scan reads
  the due tasks and handles them one after the other; `handleTask` checks the
  upstream dependencies, creates and dispatches one instance per shard, and
  stores the next trigger time.

  Sleeping between dispatches (`ThrottleDelay`), logging and metrics have no
  effect on the stores and are left out.
-/
import AiScheduler.Cron.Expr
import AiScheduler.Scheduler.Router

namespace AiScheduler.TriggerLoop

open Lib

/-! ## The dependency gate. -/

/-- One pass of the gate's loop: is ONE success instance one of this upstream task? -/
def dependencyFound (depID : Int) : Program Bool := do
  match ← listInstancesByStatus .success 1 with
  | .error _ => return false
  | .ok instances => return instances.any (fun inst => inst.taskID = depID)

/-- The gate's loop. -/
def allSatisfied : List Int → Program Bool
  | [] => pure true
  | depID :: deps => do
    if ← dependencyFound depID then allSatisfied deps else return false

/-- Put the task off by `delay`; the update's error is ignored. -/
def deferTask (task : Task) (delay : Int) : Program Unit := do
  let now ← timeNow
  let _ ← updateTask { task with nextTriggerTime := now + delay }
  return ()

/-! ## Shards. -/

def scheduleInstanceID (taskID : Int) (now : Int) : String := s!"task-{taskID}-{unixNano now}"

/-- How the task's route options read. -/
def selectOptions (task : Task) : SelectOptions where
  labels := decodeLabels task.labels
  strategy := task.routeStrategy

/-- The instance of one shard, before it is stored. -/
def shardInstance (task : Task) (shard : Nat) (idTime triggerTime : Int) : TaskInstance where
  taskID := task.id
  scheduleInstanceID := scheduleInstanceID task.id idTime
  shardNo := shard
  shardTotal := task.totalShards
  triggerTime := triggerTime
  status := .pending

/-- The request for one shard. -/
def shardRequest (schedulerURL : String) (task : Task) (shard : Nat) (inst : TaskInstance) :
    ExecuteTaskRequest where
  scheduleInstanceID := inst.scheduleInstanceID
  taskID := task.id
  taskType := task.type
  payload := task.payload
  image := task.image
  timeoutSeconds := task.timeoutSeconds
  retryCount := inst.retryCount
  shardNo := shard
  shardTotal := task.totalShards
  idempotencyKey := task.idempotencyKey
  schedulerURL := schedulerURL

/-- Mark the instance dispatched and send it, or mark it failed and release the worker. -/
def dispatchShard (schedulerURL : String) (task : Task) (shard : Nat) (inst : TaskInstance)
    (worker : WorkerNode) : Program Unit := do
  let dispatchTime ← timeNow
  let _ ← updateInstanceDispatch inst.id worker.id dispatchTime
  match ← dispatch worker (shardRequest schedulerURL task shard inst) with
  | .error e => do
    let _ ← updateInstanceResult inst.scheduleInstanceID .failed "dispatch_failed" e.message
    let _ ← Router.release worker
    return ()
  | .ok () => return ()

/-- One pass of the shard loop: `none` goes on, `some r` returns `r` from `handleTask`. -/
def runShard (schedulerURL : String) (task : Task) (shard : Nat) :
    Program (Option (Except Err Unit)) := do
  let idTime ← timeNow
  let triggerTime ← timeNow
  match ← createInstance (shardInstance task shard idTime triggerTime) with
  | .error e => return some (.error (.wrap s!"create task instance shard={shard}" e))
  | .ok inst =>
    match ← Router.pick (selectOptions task) with
    | .error e =>
      if e = .noAvailableWorker then do
        deferTask task (10 * second)
        return some (.ok ())
      else return some (.error (.wrap s!"pick worker shard={shard}" e))
    | .ok worker => do
      dispatchShard schedulerURL task shard inst worker
      return none

/-- The shard loop from `shard` on, with `remaining` shards to go. -/
def runShards (schedulerURL : String) (task : Task) :
    (remaining shard : Nat) → Program (Option (Except Err Unit))
  | 0, _ => pure none
  | remaining + 1, shard => do
    match ← runShard schedulerURL task shard with
    | some r => return some r
    | none => runShards schedulerURL task remaining (shard + 1)

/-- The number of shards the loops run: at least one. -/
def shardCount (task : Task) : Nat := if task.totalShards ≤ 0 then 1 else task.totalShards.toNat

theorem shardCount_eq_succ (task : Task) : ∃ k, shardCount task = k + 1 := by
  refine ⟨shardCount task - 1, ?_⟩
  unfold shardCount
  split
  · rfl
  · omega

/-! ## One task. -/

def nextTriggerTime (task : Task) (now : Int) : Except Err Int :=
  if task.cronExpr = "" then .ok (now + 24 * hour * 365) else Cron.nextAfter now task.cronExpr

theorem nextTriggerTime_of_empty {task : Task} (h : task.cronExpr = "") (now : Int) :
    nextTriggerTime task now = .ok (now + 24 * hour * 365) := by
  unfold nextTriggerTime
  rw [if_pos h]

theorem nextTriggerTime_of_cron {task : Task} (h : task.cronExpr ≠ "") (now : Int) :
    nextTriggerTime task now = Cron.nextAfter now task.cronExpr := by
  unfold nextTriggerTime
  rw [if_neg h]

/-- The end of `handleTask`: store the next trigger time. -/
def reschedule (task : Task) : Program (Except Err Unit) := do
  let now ← timeNow
  match nextTriggerTime task now with
  | .error e => return .error (.wrap "compute next trigger time" e)
  | .ok next =>
    match ← updateTask { task with nextTriggerTime := next } with
    | .error e => return .error (.wrap "update next trigger time" e)
    | .ok _ => return .ok ()

/-- `handleTask` once the gate is passed. -/
def triggerTask (schedulerURL : String) (task : Task) : Program (Except Err Unit) := do
  match ← runShards schedulerURL task (shardCount task) 0 with
  | some r => return r
  | none => reschedule task

def handleTask (schedulerURL : String) (task : Task) : Program (Except Err Unit) := do
  match ← listUpstreamDeps task.id with
  | .error e => return .error (.wrap "list upstream dependencies" e)
  | .ok upstream => do
    if ← allSatisfied upstream then triggerTask schedulerURL task
    else do
      deferTask task (5 * second)
      return .ok ()

/-! ## One scan. -/

/-- The cached ids' tasks that are enabled and due. -/
def loadCached : List Int → Program (List Task)
  | [] => pure []
  | id :: ids => do
    match ← getTask id with
    | .error _ => loadCached ids
    | .ok t =>
      if t.status = .enabled then do
        let now ← timeNow
        let ts ← loadCached ids
        return (if ¬ t.nextTriggerTime > now then t :: ts else ts)
      else loadCached ids

/-- The tasks of a scan: from the cache, else from the repository. -/
def dueTasks : Program (Except Err (List Task)) := do
  let cached ← cachedDueTaskIDs
  let fromCache ← loadCached (cached.getD [])
  if (fromCache.take 100).isEmpty then listDueTasks 100
  else return .ok (fromCache.take 100)

/-- The loop over the tasks; it stops when backpressure turns red. -/
def handleTasks (schedulerURL : String) : List Task → Program Unit
  | [] => pure ()
  | task :: tasks => do
    if ← allowDispatch then do
      let _ ← handleTask schedulerURL task
      handleTasks schedulerURL tasks
    else return ()

def scan (schedulerURL : String) : Program Unit := do
  match ← countInstancesByStatus .pending with
  | .error _ => return ()
  | .ok pending => do
    updatePending pending
    if ← allowDispatch then
      match ← dueTasks with
      | .error _ => return ()
      | .ok tasks => handleTasks schedulerURL tasks
    else return ()

end AiScheduler.TriggerLoop
