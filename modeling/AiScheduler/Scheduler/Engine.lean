/-
  **THE HYBRID ENGINE** (`internal/scheduler/engine`) and its `OnTrigger`
  callback (`cmd/scheduler/main.go`).

  `Warm` copies due tasks into the timing wheel and waiting RETRY INSTANCES,
  by the id of their task, into the heap; a tick of either calls `OnTrigger`
  with the task ids it yields.
-/
import AiScheduler.Scheduler.TriggerLoop

namespace AiScheduler.Engine

open Lib

/-! ## The callback. -/

/-- The instance `OnTrigger` creates. -/
def triggerInstance (task : Task) (idTime triggerTime : Int) : TaskInstance where
  taskID := task.id
  scheduleInstanceID := TriggerLoop.scheduleInstanceID task.id idTime
  triggerTime := triggerTime
  status := .pending

/-- The request `OnTrigger` sends. -/
def triggerRequest (schedulerURL : String) (task : Task) (inst : TaskInstance) :
    ExecuteTaskRequest where
  scheduleInstanceID := inst.scheduleInstanceID
  taskID := task.id
  taskType := task.type
  payload := task.payload
  image := task.image
  timeoutSeconds := task.timeoutSeconds
  retryCount := inst.retryCount
  idempotencyKey := task.idempotencyKey
  schedulerURL := schedulerURL

/-- After an accepted dispatch: store the next cron time and put it on the wheel. -/
def reschedule (task : Task) : Program Unit := do
  let now ← timeNow
  match Cron.nextAfter now task.cronExpr with
  | .error _ => return ()
  | .ok next =>
    if next = 0 then return ()
    else do
      let _ ← updateTask { task with nextTriggerTime := next }
      let _ ← addToWheel task.id next
      return ()

/-- Mark the instance dispatched and send it; then the next trigger time, if accepted. -/
def dispatchTrigger (schedulerURL : String) (task : Task) (inst : TaskInstance)
    (worker : WorkerNode) : Program Unit := do
  let dispatchTime ← timeNow
  let _ ← updateInstanceDispatch inst.id worker.id dispatchTime
  match ← dispatch worker (triggerRequest schedulerURL task inst) with
  | .error e => do
    let _ ← updateInstanceResult inst.scheduleInstanceID .failed "dispatch_failed" e.message
    let _ ← Router.release worker
    return ()
  | .ok () => reschedule task

/-- `OnTrigger` for an enabled task. -/
def triggerEnabled (schedulerURL : String) (task : Task) : Program Unit := do
  let idTime ← timeNow
  let triggerTime ← timeNow
  match ← createInstance (triggerInstance task idTime triggerTime) with
  | .error _ => return ()
  | .ok inst =>
    match ← Router.pick (TriggerLoop.selectOptions task) with
    | .error e =>
      if e = .noAvailableWorker then TriggerLoop.deferTask task (10 * second)
      else return ()
    | .ok worker => dispatchTrigger schedulerURL task inst worker

def onTrigger (schedulerURL : String) (taskID : Int) : Program Unit := do
  if ← allowDispatch then
    match ← getTask taskID with
    | .error _ => return ()
    | .ok task => if task.status ≠ .enabled then return () else triggerEnabled schedulerURL task
  else return ()

/-- `OnTrigger` for each id. -/
def onTriggers (schedulerURL : String) : List Int → Program Unit
  | [] => pure ()
  | id :: ids => do
    onTrigger schedulerURL id
    onTriggers schedulerURL ids

/-! ## Ticks. -/

def processWheelTick (schedulerURL : String) : Program Unit := do
  let taskIDs ← tickWheel
  onTriggers schedulerURL taskIDs

def processHeapTick (schedulerURL : String) : Program Unit := do
  let now ← timeNow
  let items ← popHeap now
  onTriggers schedulerURL (items.map HeapItem.taskID)

/-! ## Warming. -/

/-- The tasks before the cutoff go onto the wheel; `false` is a panic. -/
def warmWheel (cutoff : Int) : List Task → Program Bool
  | [] => pure true
  | t :: ts => do
    if t.nextTriggerTime < cutoff then do
      if ← addToWheel t.id t.nextTriggerTime then warmWheel cutoff ts else return false
    else warmWheel cutoff ts

/-- The retry instances before the cutoff go onto the heap. -/
def warmHeap (cutoff : Int) : List TaskInstance → Program Unit
  | [] => pure ()
  | inst :: insts => do
    if inst.nextRetryTime ≠ 0 ∧ inst.nextRetryTime < cutoff then do
      addToHeap inst.taskID inst.nextRetryTime
      warmHeap cutoff insts
    else warmHeap cutoff insts

/-- The panic of an index outside the slots. -/
def indexPanic : Err := .text "panic: runtime error: index out of range"

def warm : Program (Except Err Unit) := do
  let span ← wheelSpan
  let now ← timeNow
  let cutoff := now + span
  match ← listDueTasks 500 with
  | .error e => return .error e
  | .ok tasks => do
    if ← warmWheel cutoff tasks then
      match ← listDueRetryInstances cutoff 500 with
      | .error _ => return .ok ()
      | .ok insts => do
        warmHeap cutoff insts
        return .ok ()
    else return .error indexPanic

end AiScheduler.Engine
