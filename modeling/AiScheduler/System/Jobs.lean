/-
  **THE OPERATIONS AS JOBS**: one constructor per operation that a scheduler
  process, an API process or a worker process runs, and the program of each.

  A pool of jobs interleaves them call by call; `Prog.run (execAt env)` runs
  one alone, its `n`-th call under `env n`.
-/
import AiScheduler.Scheduler.RetryLoop
import AiScheduler.Scheduler.Engine
import AiScheduler.Handler.Events
import AiScheduler.Ai.Tools
import AiScheduler.Service.Workers

namespace AiScheduler

open Lib

/-- An operation of the system. -/
inductive Job where
  /-- One scan of the trigger loop. -/
  | triggerScan
  /-- `handleTask` on a task as it was read. -/
  | handleTask (task : Task)
  /-- One scan of the retry loop. -/
  | retryScan
  /-- `Engine.Warm`. -/
  | warm
  /-- `processWheelTick`. -/
  | wheelTick
  /-- `processHeapTick`. -/
  | heapTick
  /-- `OnTrigger`. -/
  | onTrigger (taskID : Int)
  /-- A worker's report arrives. -/
  | reportStatus (req : TaskStatusReportRequest)
  /-- A user cancels an instance. -/
  | cancelInstance (scheduleID : String)
  /-- An event is published. -/
  | publish (req : Events.PublishEventRequest)
  /-- The agent retries a failed instance. -/
  | retryFailedInstance (instanceID : Int)
  /-- A worker registers. -/
  | registerWorker (req : Workers.WorkerRegistrationRequest)
  /-- A worker sends a heartbeat. -/
  | heartbeat (workerID : String)
  /-- A worker takes up an accepted request and executes it. -/
  | execute (workerID : String) (req : ExecuteTaskRequest)

/-- The outcome of an operation, its value dropped. -/
def outcome {α : Type} (p : Program (Except Err α)) : Program (Except Err Unit) := do
  let r ← p
  return r.map (fun _ => ())

/-- The outcome of an operation that reports none. -/
def done (p : Program Unit) : Program (Except Err Unit) := do
  p
  return .ok ()

def body (schedulerURL : String) : Job → Program (Except Err Unit)
  | .triggerScan => done (TriggerLoop.scan schedulerURL)
  | .handleTask task => TriggerLoop.handleTask schedulerURL task
  | .retryScan => done (RetryLoop.scan schedulerURL)
  | .warm => Engine.warm
  | .wheelTick => done (Engine.processWheelTick schedulerURL)
  | .heapTick => done (Engine.processHeapTick schedulerURL)
  | .onTrigger taskID => done (Engine.onTrigger schedulerURL taskID)
  | .reportStatus req => Runtime.reportStatus schedulerURL req
  | .cancelInstance scheduleID => Runtime.cancelInstance scheduleID
  | .publish req => outcome (Events.publish req)
  | .retryFailedInstance instanceID => outcome (Tools.retryFailedInstance instanceID)
  | .registerWorker req => outcome (Workers.registerWorker req)
  | .heartbeat workerID => outcome (Workers.sendHeartbeat workerID)
  | .execute workerID req => done (Workers.run schedulerURL workerID req)

/-- A pool of the system's jobs. -/
abbrev Pool := Config System World Job (Except Err Unit)

abbrev PoolStep := Label Input Job

/-- Runs of the system from `w` whose steps satisfy `ok`. -/
abbrev Runs (schedulerURL : String) (ok : Pool → PoolStep → Prop) (w : World) (c : Pool) : Prop :=
  Reaches execCall (body schedulerURL) ok (Config.init w) c

/-- The world and the number of calls made, when one program runs alone. -/
def execAt (env : Nat → Input) (op : System.Op) (s : World × Nat) : System.Ans op × (World × Nat) :=
  ((Call.exec (env s.2) op s.1).1, ((Call.exec (env s.2) op s.1).2, s.2 + 1))

theorem execAt_eq {env : Nat → Input} {n : Nat} {op : Call} {w w' : World} {ans : op.Ans}
    (h : execCall (env n) op w = (ans, w')) : execAt env op (w, n) = (ans, (w', n + 1)) := by
  unfold execAt
  rw [show Call.exec (env n) op w = _ from h]

/-! ## Worlds from rows. -/

private theorem le_foldl_max (ids : List Int) : ∀ m : Int, m ≤ ids.foldl max m := by
  induction ids with
  | nil =>
    intro m
    show m ≤ m
    omega
  | cons i ids ih =>
    intro m
    have h := ih (max m i)
    show m ≤ ids.foldl max (max m i)
    omega

/-- An id above all of `ids`. -/
def idAbove (ids : List Int) : Int := ids.foldl max 0 + 1

theorem lt_idAbove {ids : List Int} {i : Int} (h : i ∈ ids) : i < idAbove ids := by
  have hle : ∀ (ids : List Int) (m : Int), i ∈ ids → i ≤ ids.foldl max m := by
    intro ids
    induction ids with
    | nil =>
      intro m hi
      exact absurd hi (by simp)
    | cons j js ih =>
    intro m hi
    rw [List.mem_cons] at hi
    rcases hi with hi | hi
    · have hmax := le_foldl_max js (max m j)
      show i ≤ js.foldl max (max m j)
      omega
    · exact ih (max m j) hi
  have := hle ids 0 h
  unfold idAbove
  omega

/-- The world with these rows and nothing in memory or at the workers. -/
def World.ofRows (b : Backend) (tasks : List Task) (edges : List TaskDependency)
    (instances : List TaskInstance) (workers : List WorkerNode)
    (htasks : decide (tasks.map Task.id).Nodup = true := by exact Eq.refl true)
    (hinstances : decide (instances.map TaskInstance.id).Nodup = true := by exact Eq.refl true)
    (hworkers : decide (workers.map WorkerNode.id).Nodup = true := by exact Eq.refl true) :
    World where
  backend := b
  tasks :=
    { tasks := ⟨tasks, of_decide_eq_true htasks⟩
      nextID := idAbove (tasks.map Task.id)
      fresh := fun _ ht => lt_idAbove (List.mem_map_of_mem ht)
      dependencies := edges }
  instances :=
    { instances := ⟨instances, of_decide_eq_true hinstances⟩
      nextID := idAbove (instances.map TaskInstance.id)
      fresh := fun _ hi => lt_idAbove (List.mem_map_of_mem hi) }
  workers := ⟨workers, of_decide_eq_true hworkers⟩
  memory := {}
  nodes := {}

end AiScheduler
