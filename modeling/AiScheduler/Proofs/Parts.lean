/-
  **WHICH CALLS THE SHARED PARTS OF THE OPERATIONS CAN MAKE.**

  A call protocol that does not care about a class of calls skips a part that
  makes no others in one step (`Prog.follows_bind_idle`).
-/
import AiScheduler.System.Jobs

namespace AiScheduler.Parts

open Lib Prog TriggerLoop

/-- Calls of worker selection: the availability query, the round-robin counter
and row writes. -/
def IsRouting : Call → Prop
  | .worker (.listAvailableWorkers _) => True
  | .worker (.upsertWorker _) => True
  | .memory .nextRoundRobin => True
  | _ => False

def IsTask : Call → Prop
  | .task _ => True
  | .memory .now => True
  | _ => False

def IsQuery : Call → Prop
  | .inst (.listInstancesByStatus _ _) => True
  | _ => False

section Each

variable {φ : Call → Prop}

theorem forall_isRouting (havailable : ∀ opts, φ (.worker (.listAvailableWorkers opts)))
    (hupsert : ∀ w, φ (.worker (.upsertWorker w))) (hnext : φ (.memory .nextRoundRobin)) :
    ∀ op, IsRouting op → φ op := by
  intro op h
  unfold IsRouting at h
  split at h
  · exact havailable _
  · exact hupsert _
  · exact hnext
  · exact h.elim

theorem forall_isTask (htask : ∀ c, φ (.task c)) (hnow : φ (.memory .now)) :
    ∀ op, IsTask op → φ op := by
  intro op h
  unfold IsTask at h
  split at h
  · exact htask _
  · exact hnow
  · exact h.elim

theorem forall_isQuery (h : ∀ status limit, φ (.inst (.listInstancesByStatus status limit))) :
    ∀ op, IsQuery op → φ op := by
  intro op hop
  unfold IsQuery at hop
  split at hop
  · exact h _ _
  · exact hop.elim

end Each

theorem calls_choose (strategy : RouteStrategy) (first : WorkerNode) (rest : List WorkerNode) :
    Calls IsRouting (Router.choose strategy first rest) := by
  cases strategy with
  | roundRobin => exact ⟨trivial, fun _ => trivial⟩
  | leastLoaded | other text => trivial

theorem calls_reserve (best : WorkerNode) : Calls IsRouting (Router.reserve best) := by
  refine ⟨trivial, ?_⟩
  intro ans
  cases ans with
  | error e | ok u => trivial

theorem calls_pick (opts : SelectOptions) : Calls IsRouting (Router.pick opts) := by
  refine calls_perform_bind trivial ?_
  intro ans
  cases ans with
  | error e => trivial
  | ok all =>
    dsimp only
    cases Router.filterByLabels all opts.labels with
    | nil => trivial
    | cons first rest =>
      exact calls_bind (calls_choose opts.strategy first rest) calls_reserve

theorem calls_release (w : WorkerNode) : Calls IsRouting (Router.release w) :=
  ⟨trivial, fun _ => trivial⟩

theorem calls_deferTask (task : Task) (delay : Int) :
    Calls IsTask (deferTask task delay) :=
  ⟨trivial, fun _ => ⟨trivial, fun _ => trivial⟩⟩

theorem calls_reschedule (task : Task) : Calls IsTask (reschedule task) := by
  refine calls_perform_bind trivial ?_
  intro now
  cases nextTriggerTime task now with
  | error e => trivial
  | ok next =>
    refine ⟨trivial, ?_⟩
    intro ans
    cases ans with
    | error e | ok t => trivial

theorem calls_allSatisfied :
    ∀ deps : List Int, Calls IsQuery (allSatisfied deps) := by
  intro deps
  induction deps with
  | nil => trivial
  | cons d ds ih =>
  unfold allSatisfied
  apply calls_bind
  · refine ⟨trivial, ?_⟩
    intro ans
    cases ans with
    | error e | ok instances => trivial
  intro found
  cases found with
  | false => trivial
  | true => exact ih

theorem calls_fireTask (id : Int) : Calls IsTask (Runtime.fireTask id) := by
  refine ⟨trivial, ?_⟩
  intro ans
  cases ans with
  | error e => trivial
  | ok dt =>
    show Calls (S := System) IsTask (if dt.status ≠ .enabled then _ else _)
    split
    · trivial
    · exact ⟨trivial, fun _ => ⟨trivial, fun _ => trivial⟩⟩

theorem calls_fireTasks : ∀ ids : List Int, Calls IsTask (Runtime.fireTasks ids) := by
  intro ids
  induction ids with
  | nil => trivial
  | cons id ids ih => exact calls_bind (calls_fireTask id) (fun _ => ih)

theorem calls_fireDownstream (inst : TaskInstance) :
    Calls IsTask (Runtime.fireDownstream inst) := by
  refine ⟨trivial, ?_⟩
  intro ans
  cases ans with
  | error e => trivial
  | ok downstream => exact calls_fireTasks downstream

theorem calls_retryWindowExceeded (inst : TaskInstance) (windowSeconds : Int) :
    Calls IsTask (Runtime.retryWindowExceeded inst windowSeconds) := by
  unfold Runtime.retryWindowExceeded
  split
  · trivial
  · exact ⟨trivial, fun _ => trivial⟩

/-- Calls of a cancel to the instance's worker. -/
inductive IsCancelling : Call → Prop where
  | getWorker (id : String) : IsCancelling (.worker (.getWorker id))
  | cancelDispatch (w : WorkerNode) (sid : String) : IsCancelling (.node (.cancelDispatch w sid))

theorem calls_cancelOnWorker (inst : TaskInstance) (scheduleID : String) :
    Calls IsCancelling (Runtime.cancelOnWorker inst scheduleID) := by
  unfold Runtime.cancelOnWorker
  split
  · refine calls_perform_bind (.getWorker _) ?_
    intro ans
    cases ans with
    | error e => trivial
    | ok worker => exact ⟨.cancelDispatch _ _, fun _ => trivial⟩
  · trivial

/-! ## Whole loops. -/

/-- Calls that fetch the tasks of a trigger scan. -/
inductive IsLoading : Call → Prop where
  | now : IsLoading (.memory .now)
  | cachedDueTaskIDs : IsLoading (.memory .cachedDueTaskIDs)
  | getTask (id : Int) : IsLoading (.task (.getTask id))
  | listDueTasks (limit : Int) : IsLoading (.task (.listDueTasks limit))

theorem calls_loadCached :
    ∀ ids : List Int, Calls IsLoading (loadCached ids) := by
  intro ids
  induction ids with
  | nil => trivial
  | cons id ids ih =>
  refine calls_perform_bind (.getTask id) ?_
  intro ans
  cases ans with
  | error e => exact ih
  | ok t =>
  show Calls (S := System) IsLoading (if t.status = .enabled then _ else _)
  split
  · refine calls_perform_bind .now ?_
    intro now
    exact calls_bind ih (fun _ => trivial)
  · exact ih

theorem calls_dueTasks : Calls IsLoading dueTasks := by
  refine calls_perform_bind .cachedDueTaskIDs ?_
  intro cached
  refine calls_bind (calls_loadCached _) ?_
  intro fromCache
  show Calls (S := System) IsLoading (if _ then _ else _)
  split
  · exact ⟨.listDueTasks 100, fun _ => trivial⟩
  · trivial

/-- Calls that put the next trigger of a task on the wheel. -/
inductive IsRescheduling : Call → Prop where
  | now : IsRescheduling (.memory .now)
  | updateTask (task : Task) : IsRescheduling (.task (.updateTask task))
  | addToWheel (taskID time : Int) : IsRescheduling (.memory (.addToWheel taskID time))

theorem calls_engineReschedule (task : Task) :
    Calls IsRescheduling (Engine.reschedule task) := by
  refine calls_perform_bind .now ?_
  intro now
  cases Cron.nextAfter now task.cronExpr with
  | error e => trivial
  | ok next =>
    show Calls (S := System) IsRescheduling (if next = 0 then _ else _)
    split
    · trivial
    · exact ⟨.updateTask _, fun _ => ⟨.addToWheel _ _, fun _ => trivial⟩⟩

/-- Calls that fill the wheel and the heap from the repositories. -/
inductive IsWarming : Call → Prop where
  | now : IsWarming (.memory .now)
  | wheelSpan : IsWarming (.memory .wheelSpan)
  | listDueTasks (limit : Int) : IsWarming (.task (.listDueTasks limit))
  | addToWheel (taskID time : Int) : IsWarming (.memory (.addToWheel taskID time))
  | listDueRetryInstances (cutoff limit : Int) :
      IsWarming (.inst (.listDueRetryInstances cutoff limit))
  | addToHeap (taskID time : Int) : IsWarming (.memory (.addToHeap taskID time))

theorem calls_warmWheel (cutoff : Int) :
    ∀ tasks : List Task, Calls IsWarming (Engine.warmWheel cutoff tasks) := by
  intro tasks
  induction tasks with
  | nil => trivial
  | cons t ts ih =>
  unfold Engine.warmWheel
  split
  · refine calls_perform_bind (.addToWheel t.id t.nextTriggerTime) ?_
    intro added
    cases added with
    | true => exact ih
    | false => trivial
  · exact ih

theorem calls_warmHeap (cutoff : Int) :
    ∀ insts : List TaskInstance, Calls IsWarming (Engine.warmHeap cutoff insts) := by
  intro insts
  induction insts with
  | nil => trivial
  | cons inst insts ih =>
    unfold Engine.warmHeap
    split
    · exact calls_perform_bind (.addToHeap inst.taskID inst.nextRetryTime) (fun _ => ih)
    · exact ih

theorem calls_warm : Calls IsWarming Engine.warm := by
  refine calls_perform_bind .wheelSpan ?_
  intro span
  refine calls_perform_bind .now ?_
  intro now
  refine calls_perform_bind (.listDueTasks 500) ?_
  intro ans
  cases ans with
  | error e => trivial
  | ok tasks =>
  refine calls_bind (calls_warmWheel _ tasks) ?_
  intro added
  cases added with
  | false => trivial
  | true =>
    refine calls_perform_bind (.listDueRetryInstances _ 500) ?_
    intro ans
    cases ans with
    | error e => trivial
    | ok insts => exact calls_bind (calls_warmHeap _ insts) (fun _ => trivial)

/-! ## Sending a retry. -/

/-- Mark a stored retry dispatched on the picked worker and send it. -/
def sendRetry (req : ExecuteTaskRequest) (retryID : Int) (worker : WorkerNode) :
    Program (Except Err Unit) := do
  let dispatchTime ← timeNow
  match ← updateInstanceDispatch retryID worker.id dispatchTime with
  | .error e => do
    let _ ← Router.release worker
    return .error e
  | .ok () =>
    match ← dispatch worker req with
    | .error _ => do
      let _ ← updateInstanceStatus retryID .retryWaiting
      let _ ← Router.release worker
      return .ok ()
    | .ok () => return .ok ()

theorem runtime_dispatchRetry (url : String) (task : Task) (inst retry : TaskInstance)
    (worker : WorkerNode) :
    Runtime.dispatchRetry url task inst retry worker
      = sendRetry (Runtime.retryRequest url task inst retry) retry.id worker := rfl

theorem retryLoop_dispatchRetry (url : String) (task : Task) (inst : TaskInstance)
    (worker : WorkerNode) :
    RetryLoop.dispatchRetry url task inst worker = (do
          let _ ← sendRetry (RetryLoop.retryRequest url task inst) inst.id worker
          return ()) := by
  refine congrArg (call (S := System) (.memory .now)) (funext fun now => ?_)
  refine congrArg (call (S := System) (.inst (.updateInstanceDispatch _ _ _)))
    (funext fun ans => ?_)
  cases ans with
  | error e => rfl
  | ok u =>
    refine congrArg (call (S := System) (.node (.dispatch _ _))) (funext fun ans => ?_)
    cases ans with
    | error e | ok u => rfl

/-- Calls that send retries whose ids have `P`. -/
inductive IsRetrying (P : Int → Prop) : Call → Prop where
  | now : IsRetrying P (.memory .now)
  | getTask (id : Int) : IsRetrying P (.task (.getTask id))
  | routing {op : Call} (h : IsRouting op) : IsRetrying P op
  | updateDispatch {id : Int} (h : P id) (workerID : String) (time : Int) :
      IsRetrying P (.inst (.updateInstanceDispatch id workerID time))
  | dispatch (worker : WorkerNode) (req : ExecuteTaskRequest) :
      IsRetrying P (.node (.dispatch worker req))
  | retryWaiting {id : Int} (h : P id) :
      IsRetrying P (.inst (.updateInstanceStatus id .retryWaiting))

section Retrying

variable {P : Int → Prop}

theorem calls_sendRetry (req : ExecuteTaskRequest) {retryID : Int} (hid : P retryID)
    (worker : WorkerNode) : Calls (IsRetrying P) (sendRetry req retryID worker) := by
  have hrelease : Calls (IsRetrying P) (Router.release worker) :=
    (calls_release worker).mono (fun _ h => .routing h)
  refine calls_perform_bind .now ?_
  intro dispatchTime
  refine calls_perform_bind (.updateDispatch hid worker.id dispatchTime) ?_
  intro ans
  cases ans with
  | error e => exact calls_bind hrelease (fun _ => trivial)
  | ok u =>
  refine calls_perform_bind (.dispatch worker req) ?_
  intro ans
  cases ans with
  | ok u => trivial
  | error e =>
    refine calls_perform_bind (.retryWaiting hid) ?_
    intro _
    exact calls_bind hrelease (fun _ => trivial)

theorem calls_retryInstances (url : String) :
    ∀ insts : List TaskInstance, (∀ inst ∈ insts, P inst.id) →
      Calls (IsRetrying P) (RetryLoop.retryInstances url insts) := by
  intro insts
  induction insts with
  | nil =>
    intro _
    trivial
  | cons inst insts ih =>
  intro hP
  have hrest := ih (fun i hi => hP i (.tail _ hi))
  refine calls_perform_bind (.getTask inst.taskID) ?_
  intro ans
  cases ans with
  | error e => exact hrest
  | ok task =>
  refine calls_bind ((calls_pick _).mono (fun _ h => .routing h)) ?_
  intro picked
  cases picked with
  | error e =>
    show Calls (S := System) (IsRetrying P) (if e = .noAvailableWorker then _ else _)
    split
    · trivial
    · exact hrest
  | ok worker =>
    refine calls_bind ?_ (fun _ => hrest)
    rw [retryLoop_dispatchRetry]
    exact calls_bind (calls_sendRetry _ (hP inst List.mem_cons_self) worker) (fun _ => trivial)

end Retrying

/-- Calls that send an instance and clean up after it. -/
inductive IsSending (inst : TaskInstance) : Call → Prop
  | now : IsSending inst (.memory .now)
  | mark (workerID : String) (time : Int) :
      IsSending inst (.inst (.updateInstanceDispatch inst.id workerID time))
  | dispatch (worker : WorkerNode) (req : ExecuteTaskRequest) :
      IsSending inst (.node (.dispatch worker req))
  | fail (code msg : String) :
      IsSending inst (.inst (.updateInstanceResult inst.scheduleInstanceID .failed code msg))
  | routing {op : Call} (h : IsRouting op) : IsSending inst op

theorem calls_dispatchShard (url : String) (task : Task) (shard : Nat)
    (inst : TaskInstance) (worker : WorkerNode) :
    Calls (IsSending inst) (dispatchShard url task shard inst worker) := by
  refine calls_perform_bind .now ?_
  intro dispatchTime
  refine calls_perform_bind (.mark _ _) ?_
  intro _
  refine calls_perform_bind (.dispatch _ _) ?_
  intro ans
  cases ans with
  | ok u => trivial
  | error e =>
    refine calls_perform_bind (.fail _ _) ?_
    intro _
    exact calls_bind ((calls_release worker).mono (fun _ h => .routing h)) (fun _ => trivial)

/-- Calls of a registration or a heartbeat. -/
inductive IsRegistering : Call → Prop
  | now : IsRegistering (.memory .now)
  | running (workerID : String) : IsRegistering (.node (.runningTasks workerID))
  | worker (c : WorkerCall) : IsRegistering (.worker c)

theorem calls_registerWorker (req : Workers.WorkerRegistrationRequest) :
    Calls IsRegistering (Workers.registerWorker req) := by
  unfold Workers.registerWorker
  split
  · trivial
  split
  · trivial
  refine calls_perform_bind .now ?_
  intro now
  refine calls_perform_bind (.worker _) ?_
  intro ans
  cases ans with
  | error e => trivial
  | ok u => exact ⟨.worker _, fun _ => trivial⟩

theorem calls_sendHeartbeat (workerID : String) :
    Calls IsRegistering (Workers.sendHeartbeat workerID) := by
  refine calls_perform_bind (.running _) ?_
  intro running
  refine calls_perform_bind .now ?_
  intro now
  unfold Workers.heartbeat
  split
  · trivial
  refine calls_perform_bind (.worker _) ?_
  intro ans
  cases ans with
  | error e => trivial
  | ok worker =>
  apply calls_bind
  · unfold Workers.heartbeatTime
    split
    · exact ⟨.now, fun _ => trivial⟩
    · trivial
  intro at_
  refine calls_perform_bind (.worker _) ?_
  intro ans
  cases ans with
  | error e => trivial
  | ok u => exact ⟨.worker _, fun _ => trivial⟩

end AiScheduler.Parts
