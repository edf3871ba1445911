/-
  **THE RETRY LOOP** (`internal/scheduler/retry/loop.go`): one scan reads the
  due `retry_waiting` instances and dispatches them one after the other; a
  dispatch that fails puts the instance back to `retry_waiting`.
-/
import AiScheduler.Scheduler.TriggerLoop

namespace AiScheduler.RetryLoop

open Lib

/-- The request of a retried instance. -/
def retryRequest (schedulerURL : String) (task : Task) (inst : TaskInstance) :
    ExecuteTaskRequest where
  scheduleInstanceID := inst.scheduleInstanceID
  taskID := task.id
  taskType := task.type
  payload := task.payload
  timeoutSeconds := task.timeoutSeconds
  retryCount := inst.retryCount
  shardNo := inst.shardNo
  shardTotal := inst.shardTotal
  idempotencyKey := task.idempotencyKey
  schedulerURL := schedulerURL

/-- Mark the instance dispatched on the picked worker and send it. -/
def dispatchRetry (schedulerURL : String) (task : Task) (inst : TaskInstance)
    (worker : WorkerNode) : Program Unit := do
  let dispatchTime ← timeNow
  match ← updateInstanceDispatch inst.id worker.id dispatchTime with
  | .error _ => do
    let _ ← Router.release worker
    return ()
  | .ok () =>
    match ← dispatch worker (retryRequest schedulerURL task inst) with
    | .error _ => do
      let _ ← updateInstanceStatus inst.id .retryWaiting
      let _ ← Router.release worker
      return ()
    | .ok () => return ()

/-- The loop over the due instances; without an available worker it ends. -/
def retryInstances (schedulerURL : String) : List TaskInstance → Program Unit
  | [] => pure ()
  | inst :: insts => do
    match ← getTask inst.taskID with
    | .error _ => retryInstances schedulerURL insts
    | .ok task =>
      match ← Router.pick (TriggerLoop.selectOptions task) with
      | .error e =>
        if e = .noAvailableWorker then return ()
        else retryInstances schedulerURL insts
      | .ok worker => do
        dispatchRetry schedulerURL task inst worker
        retryInstances schedulerURL insts

def scan (schedulerURL : String) : Program Unit := do
  let now ← timeNow
  match ← listDueRetryInstances now 100 with
  | .error _ => return ()
  | .ok insts => retryInstances schedulerURL insts

end AiScheduler.RetryLoop
