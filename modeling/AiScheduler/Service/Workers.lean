/-
  **THE WORKER SERVICE** (`internal/api/service/worker_service.go`) and the
  worker process that calls it (`cmd/worker/main.go`, `internal/worker`).

  A registration stores load 0 and a heartbeat stores the number of executions
  the worker says are RUNNING; neither looks at what the scheduler has reserved.
-/
import AiScheduler.Service.Runtime

namespace AiScheduler.Workers

open Lib

/-! ## The service. -/

structure WorkerRegistrationRequest where
  workerID : String := ""
  hostname : String := ""
  ip : String := ""
  callbackURL : String := ""
  grpcAddr : String := ""
  protocol : String := ""
  maxConcurrency : Int := 0
  labels : Labels := Table.empty

structure WorkerHeartbeatRequest where
  workerID : String := ""
  currentLoad : Int := 0
  runningTasks : Int := 0
  reportUnixMilli : Int := 0
  deriving DecidableEq, Repr

def isBlank (s : String) : Bool := (Cron.trimSpace s.toList).isEmpty

/-- `strings.ToLower` on ASCII letters, enough for `EqualFold` with `grpc`. -/
def lower (c : Char) : Char :=
  if 65 ≤ c.toNat ∧ c.toNat ≤ 90 then Char.ofNat (c.toNat + 32) else c

def defaultProtocol (value : String) : String :=
  if (Cron.trimSpace value.toList).map lower = "grpc".toList then "grpc" else "http"

/-- The row a registration stores. -/
def registeredWorker (req : WorkerRegistrationRequest) (now : Int) : WorkerNode where
  id := req.workerID
  hostname := req.hostname
  ip := req.ip
  callbackURL := req.callbackURL
  grpcAddr := req.grpcAddr
  protocol := defaultProtocol req.protocol
  status := .online
  labels := encodeLabels req.labels
  maxConcurrency := if req.maxConcurrency ≤ 0 then 100 else req.maxConcurrency
  currentLoad := 0
  lastHeartbeatAt := now

def registerWorker (req : WorkerRegistrationRequest) : Program (Except Err WorkerNode) :=
  if isBlank req.workerID then return .error .workerIDRequired
  else if isBlank req.hostname then return .error .workerHostRequired
  else do
    let now ← timeNow
    match ← upsertWorker (registeredWorker req now) with
    | .error e => return .error e
    | .ok () => getWorker req.workerID

def heartbeatTime (unixMilli : Int) : Program Int :=
  if unixMilli ≤ 0 then timeNow else return ofUnixMilli unixMilli

/-- The load a heartbeat stores. -/
def heartbeatLoad (req : WorkerHeartbeatRequest) : Int :=
  if req.runningTasks > req.currentLoad then req.runningTasks else req.currentLoad

def heartbeat (req : WorkerHeartbeatRequest) : Program (Except Err WorkerNode) :=
  if isBlank req.workerID then return .error .workerIDRequired
  else do
    match ← getWorker req.workerID with
    | .error e => return .error e
    | .ok worker => do
      let at_ ← heartbeatTime req.reportUnixMilli
      match ← upsertWorker { worker with
          status := .online, currentLoad := heartbeatLoad req, lastHeartbeatAt := at_ } with
      | .error e => return .error e
      | .ok () => getWorker req.workerID

/-- The loop of `EvictStaleWorkers`: the rows written, and the error that stopped it. -/
def evictWorkers : List WorkerNode → Nat → Program (Nat × Option Err)
  | [], count => return (count, none)
  | w :: ws, count => do
    match ← upsertWorker { w with status := .offline, currentLoad := 0 } with
    | .error e => return (count, some e)
    | .ok () => evictWorkers ws (count + 1)

/-- `time.Now().Add(-timeout)`; the negation is one of 64 bits. -/
def staleCutoff (now timeout : Int) : Int := now + wrap64 (-timeout)

/-- `EvictStaleWorkers`. -/
def evictStaleWorkers (timeout : Int) : Program (Nat × Option Err) := do
  let now ← timeNow
  match ← listStaleWorkers (staleCutoff now timeout) with
  | .error e => return (0, some e)
  | .ok stale => evictWorkers stale 0

/-! ## The worker process. -/

/-- One pass of the worker's heartbeat loop: it reports its running counter. -/
def sendHeartbeat (workerID : String) : Program (Except Err WorkerNode) := do
  let running ← runningTasks workerID
  let now ← timeNow
  heartbeat { workerID, currentLoad := running, runningTasks := running,
              reportUnixMilli := (now - unixEpoch) / 1000000 }

/-- The final report of an execution. -/
def finalReport (workerID : String) (req : ExecuteTaskRequest) (outcome : ExecutionOutcome)
    (startedAt finishedAt : Int) : TaskStatusReportRequest :=
  let report : TaskStatusReportRequest :=
    { scheduleInstanceID := req.scheduleInstanceID, workerID, status := .success
      startedAt := some startedAt, finishedAt := some finishedAt }
  match outcome with
  | .succeeded output => { report with errorMessage := output }
  | .deadlineExceeded message =>
    { report with status := .timeout, errorCode := "timeout", errorMessage := message }
  | .failed message =>
    { report with status := .failed, errorCode := "execute_failed", errorMessage := message }

/-- `Handler.run` past the duplicate check. A report is the scheduler running `ReportStatus`; that
it may not get through is not part of this program. -/
def runTask (schedulerURL workerID : String) (req : ExecuteTaskRequest) : Program Unit := do
  addRunning workerID 1
  let _ ← Runtime.reportStatus schedulerURL
    { scheduleInstanceID := req.scheduleInstanceID, workerID, status := .running }
  let startedAt ← timeNow
  let outcome ← execute workerID req
  let finishedAt ← timeNow
  let _ ← Runtime.reportStatus schedulerURL (finalReport workerID req outcome startedAt finishedAt)
  addRunning workerID (-1)

/-- `Handler.run`, started when the worker takes up an accepted request. -/
def run (schedulerURL workerID : String) (req : ExecuteTaskRequest) : Program Unit := do
  if ← receive workerID req then do
    if ← isDuplicate workerID req.scheduleInstanceID then return ()
    else runTask schedulerURL workerID req
  else return ()

end AiScheduler.Workers
