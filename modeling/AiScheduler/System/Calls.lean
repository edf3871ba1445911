/-
  **THE SYSTEM'S CALLS**: everything an operation asks of the world around it, one call at a time,
  and what each call does: the three repositories, the clock and the scheduler's memory
  (`MemoryCall`), the messages to the workers and their own state (`NodeCall`).

  One call is ATOMIC: that is the granularity at which operations interleave.  A repository call
  may fail (`Input.fault`), and then changes nothing.
-/
import AiScheduler.Lib.Pool
import AiScheduler.Model.Labels
import AiScheduler.Repo.Instances
import AiScheduler.Repo.Workers
import AiScheduler.Scheduler.Memory

namespace AiScheduler

open Lib

/-! ## What the environment contributes. -/

/-- A dispatch: the worker took it, it did not, or it did but the acknowledgement was lost. -/
inductive DispatchOutcome where
  | accepted
  | refused (e : Err)
  | lost (e : Err)

/-- What an execution on a worker yields. -/
inductive ExecutionOutcome where
  | succeeded (output : String)
  | deadlineExceeded (message : String)
  | failed (message : String)

/-- The environment's contribution to one call. -/
structure Input where
  /-- The clock. -/
  now : Int := 0
  /-- A repository call fails, with this text. -/
  fault : Option String := none
  outcome : WorkerNode → ExecuteTaskRequest → DispatchOutcome := fun _ _ => .accepted
  cancelError : Option Err := none
  execution : ExecutionOutcome := .succeeded ""
  /-- The due ids in Redis; `none` without a cache or on a cache error. -/
  cachedIDs : Option (List Int) := none
  /-- The order in which a query meets its rows. -/
  taskScan : Scan Task := .stored
  instanceScan : Scan TaskInstance := .stored
  workerScan : Scan WorkerNode := .stored
  /-- The iteration order of a Go map, and that of a query without an order. -/
  shuffle : List Int → List Int := id
  shuffle_perm : ∀ l, (shuffle l).Perm l := by exact fun l => List.Perm.refl l

@[simp] theorem Input.mem_shuffle {inp : Input} {l : List Int} {x : Int} :
    x ∈ inp.shuffle l ↔ x ∈ l := (inp.shuffle_perm l).mem_iff

/-! ## Repository calls. -/

inductive TaskCall where
  | getTask (id : Int)
  | createTask (task : Task)
  | updateTask (task : Task)
  | deleteTask (id : Int)
  | listTasks
  | listTasksByTenant (tenantID : Int)
  | listDueTasks (limit : Int)
  | addDependency (taskID dependsOnTaskID : Int)
  | removeDependency (taskID dependsOnTaskID : Int)
  | listDownstreamTasks (taskID : Int)
  | listUpstreamDeps (taskID : Int)

/-- What a task call answers when it does not fail. -/
abbrev TaskCall.Result : TaskCall → Type
  | getTask _ | createTask _ | updateTask _ => Task
  | deleteTask _ | addDependency _ _ | removeDependency _ _ => Unit
  | listTasks | listTasksByTenant _ | listDueTasks _ => List Task
  | listDownstreamTasks _ | listUpstreamDeps _ => List Int

/-- A task call without a fault. -/
def TaskCall.exec (b : Backend) (inp : Input) :
    (c : TaskCall) → TaskStore → Except Err c.Result × TaskStore
  | getTask id, s => (s.getTask b id, s)
  | createTask task, s => s.createTask b inp.now task
  | updateTask task, s => s.updateTask b inp.now task
  | deleteTask id, s => s.deleteTask b id
  | listTasks, s => (.ok (s.listTasks b), s)
  | listTasksByTenant tenantID, s => (.ok (s.listTasksByTenant b tenantID), s)
  | listDueTasks limit, s => (.ok (s.listDueTasks b inp.now inp.taskScan limit), s)
  | addDependency taskID dep, s => s.addDependency b taskID dep
  | removeDependency taskID dep, s => (.ok (), s.removeDependency taskID dep)
  -- neither query asks for an order
  | listDownstreamTasks taskID, s => (.ok (inp.shuffle (s.listDownstreamTasks taskID)), s)
  | listUpstreamDeps taskID, s => (.ok (inp.shuffle (s.listUpstreamDeps taskID)), s)

/-- Calls of the task-instance repository. -/
inductive InstanceCall where
  | createInstance (i : TaskInstance)
  | getInstance (id : Int)
  | getInstanceByScheduleID (scheduleID : String)
  | listInstancesByStatus (status : InstanceStatus) (limit : Int)
  | listDueRetryInstances (cutoff limit : Int)
  | countInstancesByStatus (status : InstanceStatus)
  | updateInstanceStatus (id : Int) (status : InstanceStatus)
  | updateInstanceDispatch (id : Int) (workerID : String) (dispatchTime : Int)
  | updateInstanceResult (scheduleID : String) (status : InstanceStatus)
      (errorCode errorMessage : String)
  | updateInstanceTimestamps (scheduleID : String) (startedAt finishedAt : Int)

/-- What an instance call answers when it does not fail. -/
abbrev InstanceCall.Result : InstanceCall → Type
  | createInstance _ | getInstance _ | getInstanceByScheduleID _ => TaskInstance
  | listInstancesByStatus _ _ | listDueRetryInstances _ _ => List TaskInstance
  | countInstancesByStatus _ => Int
  | updateInstanceStatus _ _ | updateInstanceDispatch _ _ _ | updateInstanceResult _ _ _ _
  | updateInstanceTimestamps _ _ _ => Unit

/-- An instance call without a fault. -/
def InstanceCall.exec (b : Backend) (inp : Input) :
    (c : InstanceCall) → InstanceStore → Except Err c.Result × InstanceStore
  | createInstance i, s => s.createInstance b inp.now i
  | getInstance id, s => (s.getInstance b id, s)
  | getInstanceByScheduleID sid, s => (s.getInstanceByScheduleID b sid, s)
  | listInstancesByStatus status limit, s =>
    (.ok (s.listInstancesByStatus b inp.instanceScan status limit), s)
  | listDueRetryInstances cutoff limit, s =>
    (.ok (s.listDueRetryInstances b inp.instanceScan cutoff limit), s)
  | countInstancesByStatus status, s => (.ok (s.countInstancesByStatus status), s)
  | updateInstanceStatus id status, s => s.updateInstanceStatus b inp.now id status
  | updateInstanceDispatch id workerID time, s =>
    s.updateInstanceDispatch b inp.now id workerID time
  | updateInstanceResult sid status code msg, s =>
    s.updateInstanceResult b inp.now sid status code msg
  | updateInstanceTimestamps sid started finished, s =>
    s.updateInstanceTimestamps b inp.now sid started finished

structure SelectOptions where
  labels : Labels
  strategy : RouteStrategy

/-- Calls of the worker repository. `ListAvailableWorkers` carries the options of the `Pick` that
makes it, so that a run shows what the answer is used for. -/
inductive WorkerCall where
  | upsertWorker (w : WorkerNode)
  | getWorker (id : String)
  | listAvailableWorkers (opts : SelectOptions)
  | listStaleWorkers (cutoff : Int)

/-- What a worker call answers when it does not fail. -/
abbrev WorkerCall.Result : WorkerCall → Type
  | upsertWorker _ => Unit
  | getWorker _ => WorkerNode
  | listAvailableWorkers _ | listStaleWorkers _ => List WorkerNode

/-- A worker call without a fault. -/
def WorkerCall.exec (b : Backend) (inp : Input) :
    (c : WorkerCall) → WorkerStore → Except Err c.Result × WorkerStore
  | upsertWorker w, s => (.ok (), s.upsertWorker b inp.now w)
  | getWorker id, s => (s.getWorker b id, s)
  | listAvailableWorkers _, s => (.ok (s.listAvailableWorkers b inp.workerScan), s)
  | listStaleWorkers cutoff, s => (.ok (s.listStaleWorkers cutoff), s)

/-! ## The clock and the scheduler's memory. -/

/-- In-memory state of the scheduler process. -/
structure Memory where
  bp : Backpressure := {}
  rrCounter : Nat := 0
  wheel : TimingWheel := TimingWheel.new (second / 10) 600
  heap : List HeapItem := []

/-- Calls of the clock, the cache and the scheduler's memory. -/
inductive MemoryCall where
  | now
  | cachedDueTaskIDs
  | allowDispatch
  | updatePending (count : Int)
  | nextRoundRobin
  | wheelSpan
  | addToWheel (taskID triggerTime : Int)
  | tickWheel
  | addToHeap (taskID triggerTime : Int)
  | popHeap (cutoff : Int)
  | rangeOrder (keys : List Int)

/-- `rangeOrder` is the order of a map's keys; `addToWheel` answers `false` for a panic. -/
abbrev MemoryCall.Ans : MemoryCall → Type
  | now | wheelSpan => Int
  | cachedDueTaskIDs => Option (List Int)
  | allowDispatch | addToWheel _ _ => Bool
  | updatePending _ | addToHeap _ _ => Unit
  | nextRoundRobin => Nat
  | tickWheel | rangeOrder _ => List Int
  | popHeap _ => List HeapItem

/-- What a memory call does. -/
def MemoryCall.exec (inp : Input) : (c : MemoryCall) → Memory → c.Ans × Memory
  | now, m => (inp.now, m)
  | cachedDueTaskIDs, m => (inp.cachedIDs, m)
  | allowDispatch, m => (m.bp.allowDispatch, m)
  | updatePending count, m => ((), { m with bp := m.bp.updatePending count })
  | nextRoundRobin, m => (m.rrCounter, { m with rrCounter := m.rrCounter + 1 })
  | wheelSpan, m => (m.wheel.slotSpan, m)
  | addToWheel taskID t, m =>
    match m.wheel.add taskID t with
    | some wheel => (true, { m with wheel := wheel })
    | none => (false, m)
  | tickWheel, m => (inp.shuffle m.wheel.tick.1, { m with wheel := m.wheel.tick.2 })
  | addToHeap taskID t, m => ((), { m with heap := heapPush m.heap { taskID, triggerTime := t } })
  | popHeap cutoff, m => ((popUntil m.heap cutoff).1, { m with heap := (popUntil m.heap cutoff).2 })
  | rangeOrder keys, m => (inp.shuffle keys, m)

/-! ## Messages and worker processes. -/

/-- The workers' side: accepted requests not yet taken up, the seen schedule ids and the `running`
counters. -/
structure Nodes where
  inbox : List (String × ExecuteTaskRequest) := []
  seen : List (String × String) := []
  running : String → Int := fun _ => 0

/-- Calls to and on the workers. -/
inductive NodeCall where
  | dispatch (w : WorkerNode) (req : ExecuteTaskRequest)
  | cancelDispatch (w : WorkerNode) (scheduleID : String)
  | receive (workerID : String) (req : ExecuteTaskRequest)
  | isDuplicate (workerID scheduleID : String)
  | addRunning (workerID : String) (delta : Int)
  | runningTasks (workerID : String)
  | execute (workerID : String) (req : ExecuteTaskRequest)

/-- The answers; `receive` answers whether that request was there. -/
abbrev NodeCall.Ans : NodeCall → Type
  | dispatch _ _ | cancelDispatch _ _ => Except Err Unit
  | receive _ _ | isDuplicate _ _ => Bool
  | addRunning _ _ => Unit
  | runningTasks _ => Int
  | execute _ _ => ExecutionOutcome

/-- What a node call does. -/
def NodeCall.exec (inp : Input) : (c : NodeCall) → Nodes → c.Ans × Nodes
  | dispatch w req, n =>
    match inp.outcome w req with
    | .accepted => (.ok (), { n with inbox := n.inbox ++ [(w.id, req)] })
    | .refused e => (.error e, n)
    | .lost e => (.error e, { n with inbox := n.inbox ++ [(w.id, req)] })
  | cancelDispatch _ _, n => (inp.cancelError.elim (.ok ()) .error, n)
  | receive workerID req, n =>
    if (workerID, req) ∈ n.inbox then (true, { n with inbox := n.inbox.erase (workerID, req) })
    else (false, n)
  | isDuplicate workerID sid, n =>
    if (workerID, sid) ∈ n.seen then (true, n)
    else (false, { n with seen := (workerID, sid) :: n.seen })
  | addRunning workerID delta, n =>
    ((), { n with running := Function.update n.running workerID (n.running workerID + delta) })
  | runningTasks workerID, n => (n.running workerID, n)
  | execute _ _, n => (inp.execution, n)

/-! ## The world. -/

inductive Call where
  | task (c : TaskCall)
  | inst (c : InstanceCall)
  | worker (c : WorkerCall)
  | memory (c : MemoryCall)
  | node (c : NodeCall)

abbrev Call.Ans : Call → Type
  | task c => Except Err c.Result
  | inst c => Except Err c.Result
  | worker c => Except Err c.Result
  | memory c => c.Ans
  | node c => c.Ans

/-- The stores, the scheduler's memory and the workers. -/
structure World where
  backend : Backend
  tasks : TaskStore
  instances : InstanceStore
  workers : WorkerStore
  memory : Memory
  nodes : Nodes

/-- **What a call does.** -/
def Call.exec (inp : Input) : (c : Call) → World → c.Ans × World
  | task c, w =>
    match inp.fault with
    | some text => (.error (.text text), w)
    | none =>
      let r := c.exec w.backend inp w.tasks
      (r.1, { w with tasks := r.2 })
  | inst c, w =>
    match inp.fault with
    | some text => (.error (.text text), w)
    | none =>
      let r := c.exec w.backend inp w.instances
      (r.1, { w with instances := r.2 })
  | worker c, w =>
    match inp.fault with
    | some text => (.error (.text text), w)
    | none =>
      let r := c.exec w.backend inp w.workers
      (r.1, { w with workers := r.2 })
  | memory c, w =>
    let r := c.exec inp w.memory
    (r.1, { w with memory := r.2 })
  | node c, w =>
    let r := c.exec inp w.nodes
    (r.1, { w with nodes := r.2 })

abbrev System : Sig := { Op := Call, Ans := Call.Ans }

abbrev Program (α : Type) := Prog System α

/-- What a call does, as the library's pools take it. -/
abbrev execCall : Input → (op : System.Op) → World → System.Ans op × World := Call.exec

/-! ## The calls as programs. -/

section Programs

abbrev ask (c : Call) : Program c.Ans := Prog.perform (S := System) c

/-- A call in front of a program; `Call.Ans c` is hidden from simp's index, where it would not
match. -/
@[simp] theorem ask_bind {β : Type} (c : Call) (f : c.Ans → Program β) :
    @Bind.bind (Prog System) _ (no_index (Call.Ans c)) β (no_index (ask c)) f
      = Prog.call (S := System) c f := rfl

abbrev getTask (id : Int) : Program (Except Err Task) := ask (.task (.getTask id))

abbrev createTask (task : Task) : Program (Except Err Task) := ask (.task (.createTask task))

abbrev updateTask (task : Task) : Program (Except Err Task) := ask (.task (.updateTask task))

abbrev deleteTask (id : Int) : Program (Except Err Unit) := ask (.task (.deleteTask id))

abbrev listTasks : Program (Except Err (List Task)) := ask (.task .listTasks)

abbrev listTasksByTenant (tenantID : Int) : Program (Except Err (List Task)) :=
  ask (.task (.listTasksByTenant tenantID))

abbrev listDueTasks (limit : Int) : Program (Except Err (List Task)) :=
  ask (.task (.listDueTasks limit))

abbrev addDependency (taskID dependsOnTaskID : Int) : Program (Except Err Unit) :=
  ask (.task (.addDependency taskID dependsOnTaskID))

abbrev removeDependency (taskID dependsOnTaskID : Int) : Program (Except Err Unit) :=
  ask (.task (.removeDependency taskID dependsOnTaskID))

abbrev listDownstreamTasks (taskID : Int) : Program (Except Err (List Int)) :=
  ask (.task (.listDownstreamTasks taskID))

abbrev listUpstreamDeps (taskID : Int) : Program (Except Err (List Int)) :=
  ask (.task (.listUpstreamDeps taskID))

abbrev createInstance (i : TaskInstance) : Program (Except Err TaskInstance) :=
  ask (.inst (.createInstance i))

abbrev getInstance (id : Int) : Program (Except Err TaskInstance) :=
  ask (.inst (.getInstance id))

abbrev getInstanceByScheduleID (scheduleID : String) : Program (Except Err TaskInstance) :=
  ask (.inst (.getInstanceByScheduleID scheduleID))

abbrev listInstancesByStatus (status : InstanceStatus) (limit : Int) :
    Program (Except Err (List TaskInstance)) :=
  ask (.inst (.listInstancesByStatus status limit))

abbrev listDueRetryInstances (cutoff limit : Int) : Program (Except Err (List TaskInstance)) :=
  ask (.inst (.listDueRetryInstances cutoff limit))

abbrev countInstancesByStatus (status : InstanceStatus) : Program (Except Err Int) :=
  ask (.inst (.countInstancesByStatus status))

abbrev updateInstanceStatus (id : Int) (status : InstanceStatus) : Program (Except Err Unit) :=
  ask (.inst (.updateInstanceStatus id status))

abbrev updateInstanceDispatch (id : Int) (workerID : String) (dispatchTime : Int) :
    Program (Except Err Unit) :=
  ask (.inst (.updateInstanceDispatch id workerID dispatchTime))

abbrev updateInstanceResult (scheduleID : String) (status : InstanceStatus)
    (errorCode errorMessage : String) : Program (Except Err Unit) :=
  ask (.inst (.updateInstanceResult scheduleID status errorCode errorMessage))

abbrev updateInstanceTimestamps (scheduleID : String) (startedAt finishedAt : Int) :
    Program (Except Err Unit) :=
  ask (.inst (.updateInstanceTimestamps scheduleID startedAt finishedAt))

abbrev upsertWorker (w : WorkerNode) : Program (Except Err Unit) :=
  ask (.worker (.upsertWorker w))

abbrev getWorker (id : String) : Program (Except Err WorkerNode) :=
  ask (.worker (.getWorker id))

abbrev listAvailableWorkers (opts : SelectOptions) : Program (Except Err (List WorkerNode)) :=
  ask (.worker (.listAvailableWorkers opts))

abbrev listStaleWorkers (cutoff : Int) : Program (Except Err (List WorkerNode)) :=
  ask (.worker (.listStaleWorkers cutoff))

/-- `time.Now()`. -/
abbrev timeNow : Program Int := ask (.memory .now)

abbrev cachedDueTaskIDs : Program (Option (List Int)) := ask (.memory .cachedDueTaskIDs)

abbrev allowDispatch : Program Bool := ask (.memory .allowDispatch)

abbrev updatePending (count : Int) : Program Unit := ask (.memory (.updatePending count))

abbrev nextRoundRobin : Program Nat := ask (.memory .nextRoundRobin)

abbrev wheelSpan : Program Int := ask (.memory .wheelSpan)

abbrev addToWheel (taskID triggerTime : Int) : Program Bool :=
  ask (.memory (.addToWheel taskID triggerTime))

abbrev tickWheel : Program (List Int) := ask (.memory .tickWheel)

abbrev addToHeap (taskID triggerTime : Int) : Program Unit :=
  ask (.memory (.addToHeap taskID triggerTime))

abbrev popHeap (cutoff : Int) : Program (List HeapItem) := ask (.memory (.popHeap cutoff))

abbrev rangeOrder (keys : List Int) : Program (List Int) := ask (.memory (.rangeOrder keys))

abbrev dispatch (w : WorkerNode) (req : ExecuteTaskRequest) : Program (Except Err Unit) :=
  ask (.node (.dispatch w req))

abbrev cancelDispatch (w : WorkerNode) (scheduleID : String) : Program (Except Err Unit) :=
  ask (.node (.cancelDispatch w scheduleID))

abbrev receive (workerID : String) (req : ExecuteTaskRequest) : Program Bool :=
  ask (.node (.receive workerID req))

abbrev isDuplicate (workerID scheduleID : String) : Program Bool :=
  ask (.node (.isDuplicate workerID scheduleID))

abbrev addRunning (workerID : String) (delta : Int) : Program Unit :=
  ask (.node (.addRunning workerID delta))

abbrev runningTasks (workerID : String) : Program Int := ask (.node (.runningTasks workerID))

abbrev execute (workerID : String) (req : ExecuteTaskRequest) : Program ExecutionOutcome :=
  ask (.node (.execute workerID req))

end Programs

/-! ## What a call leaves alone. -/

section Frames

variable (inp : Input) (w : World)

variable {inp} in
theorem exec_inst (hf : inp.fault = none) (c : InstanceCall) :
    execCall inp (.inst c) w = ((c.exec w.backend inp w.instances).1,
      { w with instances := (c.exec w.backend inp w.instances).2 }) := by
  simp only [execCall, Call.exec, hf]

variable {inp} in
theorem exec_worker (hf : inp.fault = none) (c : WorkerCall) :
    execCall inp (.worker c) w = ((c.exec w.backend inp w.workers).1,
      { w with workers := (c.exec w.backend inp w.workers).2 }) := by
  simp only [execCall, Call.exec, hf]

variable {inp} in
theorem exec_task (hf : inp.fault = none) (c : TaskCall) :
    execCall inp (.task c) w = ((c.exec w.backend inp w.tasks).1,
      { w with tasks := (c.exec w.backend inp w.tasks).2 }) := by
  simp only [execCall, Call.exec, hf]

variable {inp} in
theorem exec_dispatch_accepted {v : WorkerNode} {req : ExecuteTaskRequest}
    (h : inp.outcome v req = .accepted) :
    execCall inp (.node (.dispatch v req)) w = (.ok (),
      { w with nodes := { w.nodes with inbox := w.nodes.inbox ++ [(v.id, req)] } }) := by
  simp only [execCall, Call.exec, NodeCall.exec, h]

theorem exec_inst_cases (c : InstanceCall) :
    (∃ e, execCall inp (.inst c) w = (.error e, w)) ∨ execCall inp (.inst c) w
          = ((c.exec w.backend inp w.instances).1,
              { w with instances := (c.exec w.backend inp w.instances).2 }) := by
  cases hf : inp.fault with
  | some text =>
    refine .inl ⟨.text text, ?_⟩
    simp only [execCall, Call.exec, hf]
  | none => exact .inr (exec_inst w hf c)

theorem exec_worker_cases (c : WorkerCall) :
    (∃ e, execCall inp (.worker c) w = (.error e, w)) ∨ execCall inp (.worker c) w
          = ((c.exec w.backend inp w.workers).1,
              { w with workers := (c.exec w.backend inp w.workers).2 }) := by
  cases hf : inp.fault with
  | some text =>
    refine .inl ⟨.text text, ?_⟩
    simp only [execCall, Call.exec, hf]
  | none => exact .inr (exec_worker w hf c)

theorem exec_backend (op : Call) : (execCall inp op w).2.backend = w.backend := by
  cases op with
  | task c | inst c | worker c =>
    simp only [execCall, Call.exec]
    split <;> rfl
  | memory c | node c => rfl

theorem exec_tasks {op : Call} (h : ∀ c, op ≠ .task c) :
    (execCall inp op w).2.tasks = w.tasks := by
  cases op with
  | task c => exact absurd rfl (h c)
  | inst c | worker c =>
    simp only [execCall, Call.exec]
    split <;> rfl
  | memory c | node c => rfl

theorem exec_task_cases (c : TaskCall) :
    (∃ e, execCall inp (.task c) w = (.error e, w)) ∨ execCall inp (.task c) w
          = ((c.exec w.backend inp w.tasks).1,
              { w with tasks := (c.exec w.backend inp w.tasks).2 }) := by
  cases hf : inp.fault with
  | some text =>
    refine .inl ⟨.text text, ?_⟩
    simp only [execCall, Call.exec, hf]
  | none => exact .inr (exec_task w hf c)

theorem exec_getTask_cases (id : Int) :
    (∃ e, execCall inp (.task (.getTask id)) w = (.error e, w))
      ∨ ∃ row, w.tasks.tasks.get? id = some row
          ∧ execCall inp (.task (.getTask id)) w = (.ok (readTask w.backend row), w) := by
  rcases exec_task_cases inp w (.getTask id) with he | he
  · exact .inl he
  rw [he]
  simp only [TaskCall.exec, TaskStore.getTask]
  cases hrow : w.tasks.tasks.get? id with
  | none => exact .inl ⟨_, rfl⟩
  | some row => exact .inr ⟨row, rfl, rfl⟩

theorem exec_getInstanceByScheduleID_cases (sid : String) :
    (∃ e, execCall inp (.inst (.getInstanceByScheduleID sid)) w = (.error e, w))
      ∨ ∃ r, w.instances.bySchedule w.backend sid = some r
          ∧ execCall inp (.inst (.getInstanceByScheduleID sid)) w
            = (.ok (readInstance w.backend r), w) := by
  rcases exec_inst_cases inp w (.getInstanceByScheduleID sid) with he | he
  · exact .inl he
  rw [he]
  simp only [InstanceCall.exec, InstanceStore.getInstanceByScheduleID]
  cases hr : w.instances.bySchedule w.backend sid with
  | none => exact .inl ⟨_, rfl⟩
  | some r => exact .inr ⟨r, rfl, rfl⟩

theorem exec_createInstance_cases (i : TaskInstance) :
    (∃ e, execCall inp (.inst (.createInstance i)) w = (.error e, w))
      ∨ execCall inp (.inst (.createInstance i)) w
          = (.ok (readInstance w.backend (w.instances.newRow w.backend inp.now i)),
              { w with instances := w.instances.insert w.backend inp.now i }) := by
  rcases exec_inst_cases inp w (.createInstance i) with he | he
  · exact .inl he
  rw [he]
  rcases w.instances.createInstance_cases w.backend inp.now i with ⟨e, hs⟩ | hs
  · exact .inl ⟨e, by simp only [InstanceCall.exec, hs]⟩
  · exact .inr (by simp only [InstanceCall.exec, hs])

theorem exec_updateInstanceResult_cases (sid : String) (status : InstanceStatus)
    (errorCode errorMessage : String) :
    (∃ e, execCall inp (.inst (.updateInstanceResult sid status errorCode errorMessage)) w
        = (.error e, w))
      ∨ execCall inp (.inst (.updateInstanceResult sid status errorCode errorMessage)) w
          = (.ok (), { w with
              instances := w.instances.rewrite (w.instances.addressed w.backend sid)
                (setResult inp.now status errorCode errorMessage) (fun _ => rfl) }) := by
  rcases exec_inst_cases inp w (.updateInstanceResult sid status errorCode errorMessage) with
    he | he
  · exact .inl he
  rw [he]
  rcases w.instances.updateBySchedule_cases w.backend sid
    (setResult inp.now status errorCode errorMessage) (fun _ => rfl) with ⟨e, hs⟩ | hs
  · exact .inl ⟨e, by simp only [InstanceCall.exec, InstanceStore.updateInstanceResult, hs]⟩
  · exact .inr (by simp only [InstanceCall.exec, InstanceStore.updateInstanceResult, hs])

theorem exec_createTask_cases (task : Task) :
    (∃ e, Call.exec inp (.task (.createTask task)) w = (.error e, w))
      ∨ ∃ row s', Call.exec inp (.task (.createTask task)) w
            = (.ok (readTask w.backend row), { w with tasks := s' })
          ∧ row.id = w.tasks.nextID ∧ s'.dependencies = w.tasks.dependencies := by
  rcases exec_task_cases inp w (.createTask task) with he | he
  · exact .inl he
  rw [show Call.exec inp (.task (.createTask task)) w = _ from he]
  rcases w.tasks.createTask_cases w.backend inp.now task with
    ⟨e, hs⟩ | ⟨row, s', hs, hid, _, _, _, hdeps⟩
  · exact .inl ⟨e, by simp only [TaskCall.exec, hs]⟩
  · exact .inr ⟨row, s', by simp only [TaskCall.exec, hs], hid, hdeps⟩

theorem exec_updateTask_cases (task : Task) :
    (∃ e, Call.exec inp (.task (.updateTask task)) w = (.error e, w))
      ∨ ∃ current, w.tasks.tasks.get? task.id = some current
          ∧ Call.exec inp (.task (.updateTask task)) w
            = (.ok (readTask w.backend (updatedTask w.backend inp.now task current)),
                { w with tasks := w.tasks.write w.backend inp.now task }) := by
  rcases exec_task_cases inp w (.updateTask task) with he | he
  · exact .inl he
  rw [show Call.exec inp (.task (.updateTask task)) w = _ from he]
  rcases w.tasks.updateTask_cases w.backend inp.now task with ⟨e, hs⟩ | ⟨current, hcur, hs⟩
  · exact .inl ⟨e, by simp only [TaskCall.exec, hs]⟩
  · exact .inr ⟨current, hcur, by simp only [TaskCall.exec, hs]⟩

/-- How a call may leave the task store: with fewer rows or edges, a new row, a row written, or a
new edge between stored tasks. -/
inductive TasksAfter (b : Backend) (now : Int) (s s' : TaskStore) : Call → Prop where
  | less {op : Call} (hrows : ∀ id t, s'.tasks.get? id = some t → s.tasks.get? id = some t)
      (hnext : s'.nextID = s.nextID) (hedges : ∀ d ∈ s'.dependencies, d ∈ s.dependencies) :
      TasksAfter b now s s' op
  | created {task row : Task} (htenant : row.tenantID = task.tenantID)
      (hrows : ∀ id, s'.tasks.get? id = if id = s.nextID then some row else s.tasks.get? id)
      (hnext : s'.nextID = s.nextID + 1) (hedges : s'.dependencies = s.dependencies) :
      TasksAfter b now s s' (.task (.createTask task))
  | written {task current : Task} (hcur : s.tasks.get? task.id = some current)
      (hs : s' = s.write b now task) : TasksAfter b now s s' (.task (.updateTask task))
  | linked {taskID dep : Int} (htask : (s.tasks.get? taskID).isSome)
      (hdep : (s.tasks.get? dep).isSome)
      (hs : s' = { s with dependencies := s.dependencies ++ [⟨taskID, dep⟩] }) :
      TasksAfter b now s s' (.task (.addDependency taskID dep))

theorem TasksAfter.refl {b : Backend} {now : Int} {s : TaskStore} {op : Call} :
    TasksAfter b now s s op :=
  .less (fun _ _ h => h) rfl (fun _ h => h)

theorem TaskCall.tasksAfter (b : Backend) (c : TaskCall) (s : TaskStore) :
    TasksAfter b inp.now s (c.exec b inp s).2 (.task c) := by
  cases c with
  | createTask task =>
    rcases s.createTask_cases b inp.now task with
      ⟨e, he⟩ | ⟨row, s', hs, _, htenant, hrows, hnext, hedges⟩
    · simp only [TaskCall.exec, he]
      exact .refl
    · simp only [TaskCall.exec, hs]
      exact .created htenant hrows hnext hedges
  | updateTask task =>
    rcases s.updateTask_cases b inp.now task with ⟨e, he⟩ | ⟨current, hcur, hs⟩
    · simp only [TaskCall.exec, he]
      exact .refl
    · simp only [TaskCall.exec, hs]
      exact .written hcur rfl
  | deleteTask k =>
    obtain ⟨hrows, hnext, hedges⟩ := s.deleteTask_spec b k
    exact .less hrows hnext hedges
  | addDependency taskID dep =>
    rcases s.addDependency_cases b taskID dep with ⟨e, he⟩ | ⟨hs, htask, hdep⟩
    · simp only [TaskCall.exec, he]
      exact .refl
    · simp only [TaskCall.exec, hs]
      exact .linked htask hdep rfl
  | removeDependency taskID dep =>
    exact .less (fun _ _ h => h) rfl (fun _ h => List.mem_of_mem_filter h)
  | _ => exact .refl

/-- **What any call does to the tasks.** -/
theorem tasksAfter_execCall (op : Call) :
    TasksAfter w.backend inp.now w.tasks (execCall inp op w).2.tasks op := by
  by_cases htask : ∃ c, op = .task c
  · obtain ⟨c, rfl⟩ := htask
    rcases exec_task_cases inp w c with ⟨e, he⟩ | he <;> rw [he]
    · exact .refl
    · exact c.tasksAfter inp w.backend w.tasks
  · rw [exec_tasks inp w (fun c hc => htask ⟨c, hc⟩)]
    exact .refl

theorem nextID_le_execCall (op : Call) :
    w.tasks.nextID ≤ (execCall inp op w).2.tasks.nextID := by
  cases tasksAfter_execCall inp w op with
  | less _ hnext _ | created _ _ hnext _ => omega
  | written _ hs | linked _ _ hs => exact Int.le_of_eq (congrArg TaskStore.nextID hs).symm

theorem exec_instances {op : Call} (h : ∀ c, op ≠ .inst c) :
    (execCall inp op w).2.instances = w.instances := by
  cases op with
  | task c =>
    simp only [execCall, Call.exec]
    split <;> rfl
  | inst c => exact absurd rfl (h c)
  | worker c =>
    simp only [execCall, Call.exec]
    split <;> rfl
  | memory c | node c => rfl

theorem exec_workers {op : Call} (h : ∀ c, op ≠ .worker c) :
    (execCall inp op w).2.workers = w.workers := by
  cases op with
  | task c | inst c =>
    simp only [execCall, Call.exec]
    split <;> rfl
  | worker c => exact absurd rfl (h c)
  | memory c | node c => rfl

theorem exec_nodes {op : Call} (h : ∀ c, op ≠ .node c) :
    (execCall inp op w).2.nodes = w.nodes := by
  cases op with
  | task c | inst c | worker c =>
    simp only [execCall, Call.exec]
    split <;> rfl
  | memory c => rfl
  | node c => exact absurd rfl (h c)

end Frames

end AiScheduler
