/-
  **AGENT TOOLS** (`internal/ai/tools`): `retry_failed_instance` creates a
  pending retry of a failed instance — and nothing dispatches it.
  `trigger_task` and `pause_task` change a task through the repository, not
  through the task service.
-/
import AiScheduler.Cron.Expr
import AiScheduler.System.Calls

namespace AiScheduler.Tools

open Lib

/-- The instance the tool creates. -/
def retriedInstance (task : Task) (inst : TaskInstance) (now : Int) : TaskInstance where
  taskID := task.id
  scheduleInstanceID := inst.scheduleInstanceID ++ s!"-retry-{inst.retryCount + 1}"
  triggerTime := now
  status := .pending
  retryCount := inst.retryCount + 1
  shardNo := inst.shardNo
  shardTotal := inst.shardTotal

/-- `retry_failed_instance`; `none` for an instance that needs no retry. -/
def retryFailedInstance (instanceID : Int) : Program (Except Err (Option TaskInstance)) :=
  if instanceID ≤ 0 then return .error (.text "instance_id is required")
  else do
    match ← getInstance instanceID with
    | .error e => return .error (.wrap "get instance" e)
    | .ok inst =>
      if inst.status ≠ .failed ∧ inst.status ≠ .timeout then return .ok none
      else
        match ← getTask inst.taskID with
        | .error e => return .error (.wrap "get task" e)
        | .ok task => do
          let now ← timeNow
          match ← createInstance (retriedInstance task inst now) with
          | .error e => return .error (.wrap "create retry instance" e)
          | .ok newInst => return .ok (some newInst)

/-- The reply of `trigger_task` and `pause_task`; what is absent is not sent. -/
structure TaskReply where
  triggered : Bool := false
  task : Option (Int × String) := none
  status : Option TaskStatus := none
  message : String
  deriving DecidableEq, Repr

/-- The common start of the two tools. -/
def loadTask (taskID : Int) : Program (Except Err Task) :=
  if taskID ≤ 0 then return .error (.text "task_id is required")
  else do
    match ← getTask taskID with
    | .error e => return .error (.wrap "get task" e)
    | .ok task => return .ok task

/-- Their common end. -/
def saveTask (task : Task) (reply : TaskReply) : Program (Except Err TaskReply) := do
  match ← updateTask task with
  | .error e => return .error (.wrap "update task" e)
  | .ok _ => return .ok reply

/-- `triggerTaskTool.Execute`. -/
def triggerTaskTool (taskID : Int) : Program (Except Err TaskReply) := do
  match ← loadTask taskID with
  | .error e => return .error e
  | .ok task => do
    let now ← timeNow
    saveTask { task with nextTriggerTime := now }
      { triggered := true, task := some (task.id, task.name)
        message := "任务 " ++ task.name ++ " 已触发，将在下一个调度周期执行" }

/-- `pauseTaskTool.Execute`. -/
def pauseTaskTool (taskID : Int) (action : String) : Program (Except Err TaskReply) := do
  match ← loadTask taskID with
  | .error e => return .error e
  | .ok task =>
    let save (status : TaskStatus) (done : String) :=
      saveTask { task with status := status }
        { task := some (task.id, task.name), status := some status
          message := "任务 " ++ task.name ++ " 已" ++ done }
    if action = "pause" then
      if task.status = .disabled then return .ok { message := "任务已经是暂停状态" }
      else save .disabled "暂停"
    else if action = "resume" then
      if task.status = .enabled then return .ok { message := "任务已经是运行状态" }
      else save .enabled "恢复"
    else return .error (.text ("action must be pause or resume, got " ++ Cron.quote action.toList))

end AiScheduler.Tools
