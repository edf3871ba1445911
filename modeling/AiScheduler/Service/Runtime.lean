/-
  **THE RUNTIME SERVICE** (`internal/api/service/task_runtime_service.go`): a worker's report is
  stored, fires the downstream tasks of a success, releases the worker and creates the retry of a
  failure; a cancel is sent to the worker and stored.

  The check for a finished instance and the write of its status are SEPARATE repository calls. The
  alert and the AI analysis of a failure (which only writes `analysis_json`) are left out.
-/
import AiScheduler.Scheduler.TriggerLoop

namespace AiScheduler.Runtime

open Lib

/-! ## Retry rules. -/

/-- `retryDelay`, with 64-bit durations. -/
def retryDelay (retryPolicy : RetryPolicy) (retryCount : Nat) (intervalSeconds : Int) : Int :=
  match retryPolicy with
  | .exponentialBackoff =>
    let d := wrap64 (wrap64 (2 ^ retryCount) * second)
    if d > 10 * minute then 10 * minute else d
  | .fixedInterval => if intervalSeconds > 0 then wrap64 (intervalSeconds * second) else 0
  | _ => 0

/-- `retryWindowExceeded`; the clock is read only when there is a window. -/
def retryWindowExceeded (inst : TaskInstance) (windowSeconds : Int) : Program Bool :=
  if windowSeconds ≤ 0 then return false
  else do
    let now ← timeNow
    return now - inst.triggerTime > wrap64 (windowSeconds * second)

def shouldRetryOnErrors (retryPolicy : RetryPolicy) (retryOnErrors errorCode : String) : Bool :=
  if retryPolicy ≠ .errorCode ∨ retryOnErrors = "" then true
  else (Cron.split ',' retryOnErrors.toList).any
    (fun code => Cron.trimSpace code = errorCode.toList)

def retryScheduleInstanceID (taskID : Int) (retryCount : Nat) (now : Int) : String :=
  s!"task-{taskID}-retry-{retryCount}-{unixNano now}"

/-- The retry of `inst`, before it is stored. -/
def retryInstance (task : Task) (inst : TaskInstance) (idTime triggerTime : Int) :
    TaskInstance where
  taskID := task.id
  scheduleInstanceID := retryScheduleInstanceID task.id (inst.retryCount + 1) idTime
  triggerTime := triggerTime
  status := .pending
  retryCount := inst.retryCount + 1
  shardNo := inst.shardNo
  shardTotal := inst.shardTotal

/-- The request of a retry. -/
def retryRequest (schedulerURL : String) (task : Task) (inst retry : TaskInstance) :
    ExecuteTaskRequest where
  scheduleInstanceID := retry.scheduleInstanceID
  taskID := task.id
  taskType := task.type
  payload := task.payload
  timeoutSeconds := task.timeoutSeconds
  retryCount := inst.retryCount + 1
  shardNo := inst.shardNo
  shardTotal := inst.shardTotal
  idempotencyKey := task.idempotencyKey
  schedulerURL := schedulerURL

/-! ## Retrying. -/

/-- Mark the retry dispatched on the picked worker and send it. -/
def dispatchRetry (schedulerURL : String) (task : Task) (inst retry : TaskInstance)
    (worker : WorkerNode) : Program (Except Err Unit) := do
  let dispatchTime ← timeNow
  match ← updateInstanceDispatch retry.id worker.id dispatchTime with
  | .error e => do
    let _ ← Router.release worker
    return .error e
  | .ok () =>
    match ← dispatch worker (retryRequest schedulerURL task inst retry) with
    | .error _ => do
      let _ ← updateInstanceStatus retry.id .retryWaiting
      let _ ← Router.release worker
      return .ok ()
    | .ok () => return .ok ()

/-- An immediate retry. -/
def retryNow (schedulerURL : String) (task : Task) (inst retry : TaskInstance) :
    Program (Except Err Unit) := do
  match ← createInstance retry with
  | .error e => return .error e
  | .ok stored =>
    match ← Router.pick (TriggerLoop.selectOptions task) with
    | .error e =>
      if e = .noAvailableWorker then do
        let _ ← updateInstanceStatus stored.id .retryWaiting
        return .ok ()
      else return .error e
    | .ok worker => dispatchRetry schedulerURL task inst stored worker

/-- A retry after a delay. -/
def retryLater (retry : TaskInstance) (delay : Int) : Program (Except Err Unit) := do
  let now ← timeNow
  match ← createInstance { retry with status := .retryWaiting, nextRetryTime := now + delay } with
  | .error e => return .error e
  | .ok _ => return .ok ()

/-- `retryIfNeeded` once the retry is due to be created. -/
def createRetry (schedulerURL : String) (task : Task) (inst : TaskInstance) :
    Program (Except Err Unit) := do
  let idTime ← timeNow
  let triggerTime ← timeNow
  let retry := retryInstance task inst idTime triggerTime
  let delay := retryDelay task.retryPolicy (inst.retryCount + 1) task.retryIntervalSeconds
  if delay > 0 then retryLater retry delay else retryNow schedulerURL task inst retry

def retryIfNeeded (schedulerURL : String) (inst : TaskInstance) (req : TaskStatusReportRequest) :
    Program (Except Err Unit) :=
  if !isRetryableStatus req.status then return .ok ()
  else do
    match ← getTask inst.taskID with
    | .error e => return .error e
    | .ok task =>
      if (inst.retryCount : Int) ≥ task.maxRetry then return .ok ()
      else if !shouldRetryOnErrors task.retryPolicy task.retryOnErrors req.errorCode then
        return .ok ()
      else do
        if ← retryWindowExceeded inst task.retryWindowSeconds then return .ok ()
        else createRetry schedulerURL task inst

/-! ## Reports. -/

/-- One pass of `fireDownstream`'s loop: an enabled downstream task is due now. -/
def fireTask (dtID : Int) : Program Unit := do
  match ← getTask dtID with
  | .error _ => return ()
  | .ok dt =>
    if dt.status ≠ .enabled then return ()
    else do
      let now ← timeNow
      let _ ← updateTask { dt with nextTriggerTime := now }
      return ()

/-- `fireDownstream`'s loop. -/
def fireTasks : List Int → Program Unit
  | [] => pure ()
  | id :: ids => do
    fireTask id
    fireTasks ids

def fireDownstream (inst : TaskInstance) : Program Unit := do
  match ← listDownstreamTasks inst.taskID with
  | .error _ => return ()
  | .ok downstream => fireTasks downstream

/-- Store the reported execution times, if any; the error is only logged. -/
def reportTimestamps (req : TaskStatusReportRequest) : Program Unit :=
  if req.startedAt.isSome ∨ req.finishedAt.isSome then do
    let _ ← updateInstanceTimestamps req.scheduleInstanceID (req.startedAt.getD 0)
      (req.finishedAt.getD 0)
    return ()
  else return ()

/-- The end of `ReportStatus`: release the reporting worker, then retry. -/
def settle (schedulerURL : String) (inst : TaskInstance) (req : TaskStatusReportRequest) :
    Program (Except Err Unit) :=
  if req.workerID = "" then retryIfNeeded schedulerURL inst req
  else do
    match ← getWorker req.workerID with
    | .error _ => retryIfNeeded schedulerURL inst req
    | .ok worker =>
      match ← upsertWorker (Router.released worker) with
      | .error e => return .error e
      | .ok () => retryIfNeeded schedulerURL inst req

/-- `ReportStatus` once the status is stored. -/
def afterStore (schedulerURL : String) (inst : TaskInstance) (req : TaskStatusReportRequest) :
    Program (Except Err Unit) := do
  reportTimestamps req
  if req.status = .running then return .ok ()
  else if req.status = .success then do
    fireDownstream inst
    settle schedulerURL inst req
  else settle schedulerURL inst req

def reportStatus (schedulerURL : String) (req : TaskStatusReportRequest) :
    Program (Except Err Unit) :=
  if req.scheduleInstanceID = "" then return .error .scheduleInstanceIDRequired
  else do
    match ← getInstanceByScheduleID req.scheduleInstanceID with
    | .error e => return .error e
    | .ok inst =>
      if isTerminalStatus inst.status then return .ok ()
      else
        match ← updateInstanceResult req.scheduleInstanceID req.status req.errorCode
            req.errorMessage with
        | .error e => return .error e
        | .ok () => afterStore schedulerURL inst req

/-! ## Cancelling. -/

/-- Tell the instance's worker, if it has one; errors are ignored. -/
def cancelOnWorker (inst : TaskInstance) (scheduleID : String) : Program Unit :=
  if inst.workerID ≠ "" then do
    match ← getWorker inst.workerID with
    | .error _ => return ()
    | .ok worker => do
      let _ ← cancelDispatch worker scheduleID
      return ()
  else return ()

def cancelInstance (scheduleID : String) : Program (Except Err Unit) := do
  match ← getInstanceByScheduleID scheduleID with
  | .error e => return .error e
  | .ok inst =>
    if isTerminalStatus inst.status then
      return .error (.text ("instance already in terminal state: " ++ inst.status.text))
    else do
      cancelOnWorker inst scheduleID
      updateInstanceResult scheduleID .cancelled "cancelled" "cancelled by user"

end AiScheduler.Runtime
