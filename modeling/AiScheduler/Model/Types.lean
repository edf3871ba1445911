/-
  **THE SCHEDULER'S RECORDS** (`internal/model`): tasks, task instances, workers, execution
  requests, and the errors the services hand back.

  A `time.Time` is an `Int`: nanoseconds since Go's zero time, so `IsZero` is `t = 0`; so is a
  `time.Duration`. The status and strategy columns are strings with a few meaningful values; each
  is an enumeration whose last constructor stands for any other text.
-/
import Mathlib.Data.Int.Notation

namespace AiScheduler

/-! ## Time. -/

def second : Int := 1000000000

def minute : Int := 60 * second

def hour : Int := 60 * minute

def unixEpoch : Int := 62135596800 * second

/-- A 64-bit signed result: wrap-around. -/
def wrap64 (n : Int) : Int := Int.bmod n 18446744073709551616

theorem wrap64_le {n : Int} (h : 0 ≤ n) : wrap64 n ≤ n := by
  unfold wrap64
  rw [Int.bmod_def]
  split <;> omega

theorem wrap64_of_range {n : Int} (hlo : -9223372036854775808 ≤ n) (hhi : n < 9223372036854775808) :
    wrap64 n = n := by
  unfold wrap64
  rw [Int.bmod_def]
  split <;> omega

/-- `t.UnixNano()`. -/
def unixNano (t : Int) : Int := wrap64 (t - unixEpoch)

/-- `time.UnixMilli(ms)`. -/
def ofUnixMilli (ms : Int) : Int := unixEpoch + ms * 1000000

/-! ## Enumerated columns. -/

/-- `Task.Status`. -/
inductive TaskStatus where
  | enabled
  | disabled
  | other (text : String)
  deriving DecidableEq, Repr

/-- `TaskInstance.Status`. -/
inductive InstanceStatus where
  | pending
  | dispatched
  | running
  | success
  | failed
  | timeout
  | cancelled
  | retryWaiting
  | other (text : String)
  deriving DecidableEq, Repr

/-- The stored text. -/
def InstanceStatus.text : InstanceStatus → String
  | pending => "pending"
  | dispatched => "dispatched"
  | running => "running"
  | success => "success"
  | failed => "failed"
  | timeout => "timeout"
  | cancelled => "cancelled"
  | retryWaiting => "retry_waiting"
  | other text => text

/-- `WorkerNode.Status`. -/
inductive WorkerStatus where
  | online
  | offline
  | other (text : String)
  deriving DecidableEq, Repr

inductive RouteStrategy where
  | roundRobin
  | leastLoaded
  | other (text : String)
  deriving DecidableEq, Repr

inductive RetryPolicy where
  | fixedInterval
  | exponentialBackoff
  | errorCode
  | other (text : String)
  deriving DecidableEq, Repr

inductive TriggerType where
  | cron
  | event
  | other (text : String)
  deriving DecidableEq, Repr

/-! ## Records. -/

structure Task where
  id : Int := 0
  name : String := ""
  type : String := ""
  cronExpr : String := ""
  payload : String := ""
  image : String := ""
  status : TaskStatus := .other ""
  timeoutSeconds : Int := 0
  maxRetry : Int := 0
  retryPolicy : RetryPolicy := .other ""
  retryOnErrors : String := ""
  retryIntervalSeconds : Int := 0
  retryWindowSeconds : Int := 0
  routeStrategy : RouteStrategy := .other ""
  labels : String := ""
  nextTriggerTime : Int := 0
  tenantID : Int := 0
  version : Int := 0
  totalShards : Int := 0
  idempotencyKey : String := ""
  triggerType : TriggerType := .other ""
  eventName : String := ""
  createdAt : Int := 0
  updatedAt : Int := 0
  deriving DecidableEq, Repr

structure TaskInstance where
  id : Int := 0
  taskID : Int := 0
  scheduleInstanceID : String := ""
  shardNo : Int := 0
  shardTotal : Int := 0
  triggerTime : Int := 0
  dispatchTime : Int := 0
  startedAt : Int := 0
  finishedAt : Int := 0
  workerID : String := ""
  status : InstanceStatus := .other ""
  retryCount : Nat := 0
  errorCode : String := ""
  errorMessage : String := ""
  analysisJSON : String := ""
  nextRetryTime : Int := 0
  traceID : String := ""
  createdAt : Int := 0
  updatedAt : Int := 0
  deriving DecidableEq, Repr

structure WorkerNode where
  id : String := ""
  hostname : String := ""
  ip : String := ""
  callbackURL : String := ""
  grpcAddr : String := ""
  protocol : String := ""
  status : WorkerStatus := .other ""
  labels : String := ""
  maxConcurrency : Int := 0
  currentLoad : Int := 0
  lastHeartbeatAt : Int := 0
  deriving DecidableEq, Repr

/-- `model.ExecuteTaskRequest`: what a worker is sent. -/
structure ExecuteTaskRequest where
  scheduleInstanceID : String := ""
  taskID : Int := 0
  taskType : String := ""
  payload : String := ""
  image : String := ""
  timeoutSeconds : Int := 0
  retryCount : Int := 0
  shardNo : Int := 0
  shardTotal : Int := 0
  idempotencyKey : String := ""
  schedulerURL : String := ""
  deriving DecidableEq, Repr

/-- `service.TaskStatusReportRequest`; a time text is given by what it parses to: `none` if empty,
the zero time if it does not parse. -/
structure TaskStatusReportRequest where
  scheduleInstanceID : String := ""
  workerID : String := ""
  status : InstanceStatus := .other ""
  errorCode : String := ""
  errorMessage : String := ""
  startedAt : Option Int := none
  finishedAt : Option Int := none
  deriving DecidableEq, Repr

/-! ## Status classes. -/

def isTerminalStatus : InstanceStatus → Bool
  | .success | .failed | .timeout | .cancelled => true
  | _ => false

def isRetryableStatus : InstanceStatus → Bool
  | .failed | .timeout => true
  | _ => false

theorem isTerminalStatus_of_isRetryableStatus {s : InstanceStatus}
    (h : isRetryableStatus s = true) : isTerminalStatus s = true := by
  unfold isRetryableStatus at h
  split at h
  · rfl
  · rfl
  · exact absurd h (by simp)

/-! ## Errors. -/

/-- A Go `error`: a sentinel, another text, or `fmt.Errorf("context: %w", e)`. -/
inductive Err where
  | noAvailableWorker
  | scheduleInstanceIDRequired
  | workerIDRequired
  | workerHostRequired
  | taskNameRequired
  | taskTypeRequired
  | taskIDRequired
  | invalidCronExpr
  | taskNotEnabled
  | taskNotOwned
  | text (s : String)
  | wrap (context : String) (inner : Err)
  deriving DecidableEq, Repr

/-- `err.Error()`. -/
def Err.message : Err → String
  | noAvailableWorker => "no available worker"
  | scheduleInstanceIDRequired => "schedule_instance_id is required"
  | workerIDRequired => "worker_id is required"
  | workerHostRequired => "hostname is required"
  | taskNameRequired => "task name is required"
  | taskTypeRequired => "task type is required"
  | taskIDRequired => "task id is required"
  | invalidCronExpr => "invalid cron expression"
  | taskNotEnabled => "task is not enabled"
  | taskNotOwned => "task does not belong to this tenant"
  | text s => s
  | wrap context inner => context ++ ": " ++ inner.message

end AiScheduler
