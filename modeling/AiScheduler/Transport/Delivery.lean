/-
  **THE INTERNAL TRANSPORTS**: an execution request from `Client.Dispatch` to `Handler.run`, and a
  report from `ReportClient.Report` to `TaskRuntimeService.ReportStatus`, over HTTP or gRPC.

  Over HTTP the struct is a JSON object, written and read by the same tags. Over gRPC it is copied
  field by field into a message of `scheduler.proto` and back; an `int` goes through an `int32`.
-/
import AiScheduler.Service.Workers

namespace AiScheduler.Transport

/-! ## JSON objects. -/

/-- The value of a member; a status and a time are texts. -/
inductive Value where
  | text (s : String)
  | number (n : Int)
  | status (s : InstanceStatus)
  | time (t : Int)
  deriving DecidableEq, Repr

abbrev Json := List (String × Value)

/-- The error of a body that does not decode. -/
def invalidBody : Err := .text "invalid json body"

/-- A string member; an absent one leaves the field empty. -/
def Json.text (o : Json) (tag : String) : Except Err String :=
  match o.lookup tag with
  | none => .ok ""
  | some (.text s) => .ok s
  | some _ => .error invalidBody

def Json.number (o : Json) (tag : String) : Except Err Int :=
  match o.lookup tag with
  | none => .ok 0
  | some (.number n) => .ok n
  | some _ => .error invalidBody

def Json.status (o : Json) (tag : String) : Except Err InstanceStatus :=
  match o.lookup tag with
  | none => .ok (.other "")
  | some (.status s) => .ok s
  | some _ => .error invalidBody

def Json.time (o : Json) (tag : String) : Except Err (Option Int) :=
  match o.lookup tag with
  | none => .ok none
  | some (.time t) => .ok (some t)
  | some _ => .error invalidBody

/-- A time under `omitempty`. -/
def Json.omitEmpty (tag : String) (t : Option Int) : Json :=
  match t with
  | none => []
  | some t => [(tag, .time t)]

/-! ## Execution requests. -/

/-- The body `dispatchHTTP` posts: `json.Marshal(req)`. -/
def dispatchHTTP (req : ExecuteTaskRequest) : Json :=
  [ ("schedule_instance_id", .text req.scheduleInstanceID)
  , ("task_id", .number req.taskID)
  , ("task_type", .text req.taskType)
  , ("payload", .text req.payload)
  , ("image", .text req.image)
  , ("timeout_seconds", .number req.timeoutSeconds)
  , ("retry_count", .number req.retryCount)
  , ("shard_no", .number req.shardNo)
  , ("shard_total", .number req.shardTotal)
  , ("idempotency_key", .text req.idempotencyKey)
  , ("scheduler_url", .text req.schedulerURL) ]

/-- `Handler.Execute`: the request it runs. -/
def execute (body : Json) : Except Err ExecuteTaskRequest := do
  return {
    scheduleInstanceID := ← body.text "schedule_instance_id"
    taskID := ← body.number "task_id"
    taskType := ← body.text "task_type"
    payload := ← body.text "payload"
    image := ← body.text "image"
    timeoutSeconds := ← body.number "timeout_seconds"
    retryCount := ← body.number "retry_count"
    shardNo := ← body.number "shard_no"
    shardTotal := ← body.number "shard_total"
    idempotencyKey := ← body.text "idempotency_key"
    schedulerURL := ← body.text "scheduler_url" }

/-- `schedulerv1.ExecuteTaskRequest`. -/
structure ExecuteTaskMessage where
  scheduleInstanceId : String
  taskId : Int
  taskType : String
  payload : String
  timeoutSeconds : Int32
  retryCount : Int32
  schedulerUrl : String
  image : String
  deriving DecidableEq

/-- The message `dispatchGRPC` sends. -/
def dispatchGRPC (req : ExecuteTaskRequest) : ExecuteTaskMessage where
  scheduleInstanceId := req.scheduleInstanceID
  taskId := req.taskID
  taskType := req.taskType
  payload := req.payload
  image := req.image
  timeoutSeconds := Int32.ofInt req.timeoutSeconds
  retryCount := Int32.ofInt req.retryCount
  schedulerUrl := req.schedulerURL

/-- `Server.ExecuteTask`: the request it runs. -/
def executeTask (req : ExecuteTaskMessage) : ExecuteTaskRequest where
  scheduleInstanceID := req.scheduleInstanceId
  taskID := req.taskId
  taskType := req.taskType
  payload := req.payload
  image := req.image
  timeoutSeconds := req.timeoutSeconds.toInt
  retryCount := req.retryCount.toInt
  schedulerURL := req.schedulerUrl

/-- `strings.EqualFold(protocol, "grpc")`. -/
def equalFoldGRPC (protocol : String) : Bool :=
  protocol.toList.map Workers.lower = "grpc".toList

/-- `Client.Dispatch`: what the worker's `Handler.run` is called with. -/
def dispatched (protocol : String) (req : ExecuteTaskRequest) : Except Err ExecuteTaskRequest :=
  if equalFoldGRPC protocol then .ok (executeTask (dispatchGRPC req))
  else execute (dispatchHTTP req)

/-! ## Reports. -/

/-- The body `reportHTTP` posts: `json.Marshal(req)`. -/
def reportHTTP (req : TaskStatusReportRequest) : Json :=
  [ ("schedule_instance_id", .text req.scheduleInstanceID)
  , ("worker_id", .text req.workerID)
  , ("status", .status req.status)
  , ("error_code", .text req.errorCode)
  , ("error_message", .text req.errorMessage) ]
    ++ Json.omitEmpty "started_at" req.startedAt ++ Json.omitEmpty "finished_at" req.finishedAt

/-- `TaskRuntimeHandler.Report`: what it calls `ReportStatus` with. -/
def report (body : Json) : Except Err TaskStatusReportRequest := do
  return {
    scheduleInstanceID := ← body.text "schedule_instance_id"
    workerID := ← body.text "worker_id"
    status := ← body.status "status"
    errorCode := ← body.text "error_code"
    errorMessage := ← body.text "error_message"
    startedAt := ← body.time "started_at"
    finishedAt := ← body.time "finished_at" }

/-- `schedulerv1.ReportTaskStatusRequest`. -/
structure ReportTaskStatusMessage where
  scheduleInstanceId : String
  workerId : String
  status : InstanceStatus
  errorCode : String
  errorMessage : String
  finishedUnixSeconds : Int := 0
  startedAt : Option Int
  finishedAt : Option Int
  deriving DecidableEq

/-- The message `reportGRPC` sends. -/
def reportGRPC (req : TaskStatusReportRequest) : ReportTaskStatusMessage where
  scheduleInstanceId := req.scheduleInstanceID
  workerId := req.workerID
  status := req.status
  errorCode := req.errorCode
  errorMessage := req.errorMessage
  startedAt := req.startedAt
  finishedAt := req.finishedAt

/-- `Server.ReportTaskStatus`: what it calls `ReportStatus` with. -/
def reportTaskStatus (req : ReportTaskStatusMessage) : TaskStatusReportRequest where
  scheduleInstanceID := req.scheduleInstanceId
  workerID := req.workerId
  status := req.status
  errorCode := req.errorCode
  errorMessage := req.errorMessage

/-- `ReportClient.Report`: what `ReportStatus` is called with. -/
def reported (protocol : String) (req : TaskStatusReportRequest) :
    Except Err TaskStatusReportRequest :=
  if (Cron.trimSpace protocol.toList).map Workers.lower = "grpc".toList then
    .ok (reportTaskStatus (reportGRPC req))
  else report (reportHTTP req)

end AiScheduler.Transport
