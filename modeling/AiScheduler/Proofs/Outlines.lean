/-
  **PROOF OUTLINES OF THE OPERATIONS, FOR ANY CALL PROTOCOL.**

  An outline names the assertions between an operation's main calls and asks for the triple of
  each; that the operation goes from its first to its last is shown here ONCE: `leads_pick`,
  `Course` (an instance on its way to a worker), `leads_reportStatus`.
-/
import AiScheduler.Proofs.Parts

namespace AiScheduler.Outlines

open Lib Prog Parts TriggerLoop Router
open Lib.Prog (Leads Stays leads_bind)

variable {P : Protocol System}

/-! ## Picking. -/

section Pick

variable {A : P.State → Prop} {D : Err → P.State → Prop} {L : List WorkerNode → P.State → Prop}
  {W : WorkerNode → P.State → Prop}

theorem leads_choose (hround : Stays P A nextRoundRobin)
    (strategy : RouteStrategy) (first : WorkerNode) (rest : List WorkerNode) :
    Leads P A (choose strategy first rest) (fun q best => A q ∧ best ∈ first :: rest) := by
  cases strategy with
  | roundRobin =>
    refine leads_bind hround ?_
    intro n q hq
    exact ⟨hq, getD_mem_cons first rest _⟩
  | leastLoaded | other text => exact fun q hq => ⟨hq, pickLeastLoaded_mem first rest⟩

/-- **`Pick`**: the rows are listed (`L`), then one of them is written. -/
theorem leads_pick (opts : SelectOptions)
    (hlist : Leads P A (listAvailableWorkers opts) (Either D (fun all q =>
      (filterByLabels all opts.labels = [] → D .noAvailableWorker q)
        ∧ (filterByLabels all opts.labels ≠ [] → L all q))))
    (hround : ∀ all, Leads P (L all) nextRoundRobin (fun q _ => L all q))
    (hreserve : ∀ all, ∀ best ∈ all, Leads P (L all)
      (upsertWorker { best with currentLoad := best.currentLoad + 1 })
      (Either D (fun _ => W { best with currentLoad := best.currentLoad + 1 }))) :
    Leads P A (pick opts) (Either D W) := by
  refine leads_bind hlist ?_
  intro ans
  cases ans with
  | error e => exact fun q hq => hq
  | ok all =>
  rintro q ⟨hnone, hsome⟩
  dsimp only
  cases hlabels : filterByLabels all opts.labels with
  | nil => exact hnone hlabels
  | cons first rest =>
  refine leads_bind (leads_choose (hround all) opts.strategy first rest) ?_ q
    (hsome (by simp [hlabels]))
  rintro best q ⟨hq, hbest⟩
  have hmem : best ∈ all := by
    rw [← hlabels] at hbest
    exact mem_of_mem_filterByLabels hbest
  refine leads_bind (hreserve all best hmem) ?_ q hq
  intro ans
  cases ans with
  | error e | ok u => exact fun q hq => hq

end Pick

/-! ## The trigger loop. -/

/-- Calls on task rows and in memory, and the queries of the trigger loop. -/
def IsAside : Call → Prop
  | .task _ | .memory _ => True
  | .inst (.listInstancesByStatus _ _) | .inst (.countInstancesByStatus _) => True
  | _ => False

theorem isAside_of_isTask : ∀ op, IsTask op → IsAside op :=
  forall_isTask (fun _ => trivial) trivial

theorem isAside_of_isQuery : ∀ op, IsQuery op → IsAside op :=
  forall_isQuery (fun _ _ => trivial)

theorem isAside_of_isLoading (op : Call) (h : IsLoading op) : IsAside op := by
  cases h <;> trivial

theorem isAside_of_isRescheduling (op : Call) (h : IsRescheduling op) : IsAside op := by
  cases h <;> trivial

/-- The loop goes on, or it has returned. -/
def Onward {α σ : Type} (I E : σ → Prop) (q : σ) : Option α → Prop
  | none => I q
  | some _ => E q

section Shards

variable {url : String} {task : Task} {I : Nat → P.State → Prop} {E : P.State → Prop}

theorem leads_runShard {shard : Nat} {C : TaskInstance → P.State → Prop} {D : Err → P.State → Prop}
    {W : TaskInstance → WorkerNode → P.State → Prop}
    (hnow : Leads P (I shard) timeNow (fun q _ => I shard q))
    (hcreate : ∀ idTime triggerTime, Leads P (I shard)
      (createInstance (shardInstance task shard idTime triggerTime))
      (Either (fun _ => E) C))
    (hpick : ∀ inst, Leads P (C inst) (pick (selectOptions task)) (Either D (W inst)))
    (hdefer : Leads P (D .noAvailableWorker) (deferTask task (10 * second)) (fun q _ => E q))
    (hdrop : ∀ e, e ≠ .noAvailableWorker → ∀ q, D e q → E q)
    (hdispatch : ∀ inst worker, Leads P (W inst worker) (dispatchShard url task shard inst worker)
      (fun q _ => I (shard + 1) q)) :
    Leads P (I shard) (runShard url task shard) (Onward (I (shard + 1)) E) := by
  refine leads_bind hnow ?_
  intro idTime
  refine leads_bind hnow ?_
  intro triggerTime
  refine leads_bind (hcreate idTime triggerTime) ?_
  intro ans
  cases ans with
  | error e => exact fun q hq => hq
  | ok inst =>
  refine leads_bind (hpick inst) ?_
  intro picked
  cases picked with
  | error e =>
    show Leads P (D e) (if e = .noAvailableWorker then _ else _) _
    split
    next he =>
      subst he
      exact leads_bind hdefer (fun _ q hq => hq)
    next he => exact hdrop e he
  | ok worker => exact leads_bind (hdispatch inst worker) (fun _ q hq => hq)

theorem leads_runShards (hshard : ∀ shard, Leads P (I shard) (runShard url task shard)
      (Onward (I (shard + 1)) E)) :
    ∀ remaining shard, Leads P (I shard) (runShards url task remaining shard)
      (Onward (I (shard + remaining)) E) := by
  intro remaining
  induction remaining with
  | zero => exact fun shard q hq => hq
  | succ remaining ih =>
  intro shard
  refine leads_bind (hshard shard) ?_
  intro r
  cases r with
  | some r => exact fun q hq => hq
  | none =>
    have hrest := ih (shard + 1)
    rw [show shard + 1 + remaining = shard + (remaining + 1) by omega] at hrest
    exact hrest

theorem leads_handleTask (hquery : P.Keeps (I 0) IsQuery)
    (hupstream : Leads P (I 0) (listUpstreamDeps task.id) (Either (fun _ => E) (fun _ => I 0)))
    (hdefer : Leads P (I 0) (deferTask task (5 * second)) (fun q _ => E q))
    (hshard : ∀ shard, Leads P (I shard) (runShard url task shard) (Onward (I (shard + 1)) E))
    (hreschedule : ∀ n, n ≠ 0 → Leads P (I n) (reschedule task) (fun q _ => E q)) :
    Leads P (I 0) (handleTask url task) (fun q _ => E q) := by
  refine leads_bind hupstream ?_
  intro ans
  cases ans with
  | error e => exact fun q hq => hq
  | ok upstream =>
  refine leads_bind (hquery.leads (calls_allSatisfied upstream)) ?_
  intro passed
  cases passed with
  | false => exact leads_bind hdefer (fun _ q hq => hq)
  | true =>
  refine leads_bind (leads_runShards hshard (shardCount task) 0) ?_
  intro r
  cases r with
  | some r => exact fun q hq => hq
  | none =>
    obtain ⟨k, hk⟩ := shardCount_eq_succ task
    exact hreschedule _ (by omega)

end Shards

/-! ## The course of a dispatch. -/

/-- The assertions on the way of an instance to a worker. -/
structure Course (P : Protocol System) where
  /-- Between two instances. -/
  rest : P.State → Prop
  created : TaskInstance → P.State → Prop
  /-- No worker was picked. -/
  declined : TaskInstance → Err → P.State → Prop
  picked : TaskInstance → WorkerNode → P.State → Prop
  /-- The time of the dispatch was read. -/
  timed : TaskInstance → WorkerNode → Int → P.State → Prop
  marked : TaskInstance → WorkerNode → P.State → Prop
  /-- The worker did not take it. -/
  failed : TaskInstance → WorkerNode → P.State → Prop
  /-- The worker is to be released. -/
  cleaned : WorkerNode → P.State → Prop

namespace Course

variable {c : Course P}

/-- What every dispatch needs. -/
structure Dispatches (c : Course P) : Prop where
  aside : P.Keeps c.rest IsAside
  pick : ∀ i opts, Leads P (c.created i) (Router.pick opts) (Either (c.declined i) (c.picked i))
  now : ∀ i w, Leads P (c.picked i w) timeNow (fun q time => c.timed i w time q)
  send : ∀ i w req, req.scheduleInstanceID = i.scheduleInstanceID →
    Leads P (c.marked i w) (dispatch w req) (Either (fun _ => c.failed i w) (fun _ => c.rest))
  release : ∀ w, Leads P (c.cleaned w) (Router.release w) (fun q _ => c.rest q)

/-- A first attempt, to be dispatched at once. -/
structure FirstAttempt (i : TaskInstance) : Prop where
  status : i.status = .pending
  retryCount : i.retryCount = 0
  nextRetryTime : i.nextRetryTime = 0
  createdAt : i.createdAt = 0

/-- An instance without a worker is left alone; the outcome of marking is not looked at. -/
structure Triggers (c : Course P) : Prop extends c.Dispatches where
  create : ∀ i, FirstAttempt i →
    Leads P c.rest (createInstance i) (Either (fun _ => c.rest) c.created)
  drop : ∀ i e q, c.declined i e q → c.rest q
  mark : ∀ i w time, Leads P (c.timed i w time) (updateInstanceDispatch i.id w.id time)
    (fun q _ => c.marked i w q)

/-- The clean-up of the triggers: the instance has failed. -/
def Fails (c : Course P) : Prop :=
  ∀ i w code msg, Leads P (c.failed i w)
    (updateInstanceResult i.scheduleInstanceID .failed code msg) (fun q _ => c.cleaned w q)

theorem Dispatches.timeNow (h : c.Dispatches) :
    Stays P c.rest timeNow :=
  h.aside (.memory .now) trivial

theorem Dispatches.deferTask (h : c.Dispatches) (task : Task) (delay : Int) :
    Stays P c.rest (deferTask task delay) :=
  h.aside.leads ((calls_deferTask task delay).mono isAside_of_isTask)

/-- The send, once the instance is marked; `f` follows an accepted one. -/
theorem Dispatches.clean (h : c.Dispatches) (hfails : c.Fails) {inst : TaskInstance}
    {worker : WorkerNode} {req : ExecuteTaskRequest}
    (hreq : req.scheduleInstanceID = inst.scheduleInstanceID) {f : Program Unit}
    (hf : Stays P c.rest f) :
    Leads P (c.marked inst worker) (do
      match ← dispatch worker req with
      | .error e => do
        let _ ← updateInstanceResult inst.scheduleInstanceID .failed "dispatch_failed" e.message
        let _ ← Router.release worker
        return ()
      | .ok () => f) (fun q _ => c.rest q) := by
  refine leads_bind (h.send inst worker req hreq) ?_
  intro ans
  cases ans with
  | ok u => exact hf
  | error e =>
    refine leads_bind (hfails inst worker _ _) ?_
    intro _
    exact leads_bind (h.release worker) (fun _ q hq => hq)

namespace Triggers

variable (h : c.Triggers) (hfails : c.Fails) (url : String)

include h

theorem markNow {β : Type} {B : P.State → β → Prop} {inst : TaskInstance} {worker : WorkerNode}
    {f : Except Err Unit → Program β} (hf : ∀ ans, Leads P (c.marked inst worker) (f ans) B) :
    Leads P (c.picked inst worker) (timeNow >>= fun dispatchTime =>
      updateInstanceDispatch inst.id worker.id dispatchTime >>= f) B := by
  refine leads_bind (h.now inst worker) ?_
  intro dispatchTime
  exact leads_bind (h.mark inst worker dispatchTime) hf

include hfails

theorem runShard (task : Task) (shard : Nat) :
    Leads P c.rest (runShard url task shard) (Onward c.rest c.rest) := by
  refine leads_runShard (P := P) (I := fun _ => c.rest) (C := c.created)
    (D := fun e q => ∃ inst, c.declined inst e q) (W := c.picked) h.timeNow ?_ ?_ ?_ ?_ ?_
  · intro idTime triggerTime
    exact h.create _ ⟨rfl, rfl, rfl, rfl⟩
  · intro inst
    refine (h.pick inst _).mono (fun _ hq => hq) ?_
    intro q r hq
    cases r with
    | error e => exact ⟨inst, hq⟩
    | ok worker => exact hq
  · refine (h.deferTask task _).mono ?_ (fun _ _ hq => hq)
    rintro q ⟨inst, hq⟩
    exact h.drop inst _ q hq
  · rintro e _ q ⟨inst, hq⟩
    exact h.drop inst e q hq
  · intro inst worker
    exact h.markNow (fun _ => h.clean hfails rfl (fun q hq => hq))

theorem handleTask (task : Task) :
    Stays P c.rest (handleTask url task) := by
  refine leads_handleTask (P := P) (I := fun _ => c.rest) ?_ ?_ (h.deferTask task _)
    (h.runShard hfails url task) ?_
  · intro op hop
    exact h.aside op (isAside_of_isQuery op hop)
  · refine (h.aside (.task (.listUpstreamDeps task.id)) trivial).mono (fun _ hq => hq) ?_
    intro q r hq
    cases r with
    | error e | ok upstream => exact hq
  · intro n _
    exact h.aside.leads ((calls_reschedule task).mono isAside_of_isTask)

theorem handleTasks : ∀ tasks : List Task, Stays P c.rest (handleTasks url tasks) := by
  intro tasks
  induction tasks with
  | nil => exact fun q hq => hq
  | cons task tasks ih =>
    refine leads_bind (h.aside (.memory .allowDispatch) trivial) ?_
    intro allowed
    cases allowed with
    | false => exact fun q hq => hq
    | true => exact leads_bind (h.handleTask hfails url task) (fun _ => ih)

theorem scan : Stays P c.rest (scan url) := by
  refine leads_bind (h.aside (.inst (.countInstancesByStatus .pending)) trivial) ?_
  intro ans
  cases ans with
  | error e => exact fun q hq => hq
  | ok pending =>
  refine leads_bind (h.aside (.memory (.updatePending pending)) trivial) ?_
  intro _
  refine leads_bind (h.aside (.memory .allowDispatch) trivial) ?_
  intro allowed
  cases allowed with
  | false => exact fun q hq => hq
  | true =>
  refine leads_bind (h.aside.leads (calls_dueTasks.mono isAside_of_isLoading)) ?_
  intro r
  cases r with
  | error e => exact fun q hq => hq
  | ok tasks => exact h.handleTasks hfails url tasks

theorem triggerEnabled (task : Task) :
    Stays P c.rest (Engine.triggerEnabled url task) := by
  refine leads_bind h.timeNow ?_
  intro idTime
  refine leads_bind h.timeNow ?_
  intro triggerTime
  refine leads_bind (h.create _ ⟨rfl, rfl, rfl, rfl⟩) ?_
  intro ans
  cases ans with
  | error e => exact fun q hq => hq
  | ok inst =>
  refine leads_bind (h.pick inst _) ?_
  intro picked
  cases picked with
  | error e =>
    intro q hq
    have hq := h.drop inst e q hq
    show Follows P _ q (if e = .noAvailableWorker then _ else _)
    split
    · exact h.deferTask task _ q hq
    · exact hq
  | ok worker =>
    refine h.markNow (fun _ => h.clean hfails rfl ?_)
    exact h.aside.leads ((calls_engineReschedule task).mono isAside_of_isRescheduling)

theorem onTrigger (taskID : Int) :
    Stays P c.rest (Engine.onTrigger url taskID) := by
  refine leads_bind (h.aside (.memory .allowDispatch) trivial) ?_
  intro allowed
  cases allowed with
  | false => exact fun q hq => hq
  | true =>
  refine leads_bind (h.aside (.task (.getTask taskID)) trivial) ?_
  intro ans
  cases ans with
  | error e => exact fun q hq => hq
  | ok task =>
    show Leads P _ (if task.status ≠ .enabled then _ else _) _
    split
    · exact fun q hq => hq
    · exact h.triggerEnabled hfails url task

theorem onTriggers : ∀ ids : List Int, Stays P c.rest (Engine.onTriggers url ids) := by
  intro ids
  induction ids with
  | nil => exact fun q hq => hq
  | cons id ids ih => exact leads_bind (h.onTrigger hfails url id) (fun _ => ih)

theorem processWheelTick :
    Stays P c.rest (Engine.processWheelTick url) :=
  leads_bind (h.aside (.memory .tickWheel) trivial) (h.onTriggers hfails url)

theorem processHeapTick :
    Stays P c.rest (Engine.processHeapTick url) := by
  refine leads_bind h.timeNow ?_
  intro now
  refine leads_bind (h.aside (.memory (.popHeap now)) trivial) ?_
  intro items
  exact h.onTriggers hfails url _

end Triggers

/-! ## Events. -/

section Events

variable (h : c.Triggers) (hlost : ∀ i w q, c.failed i w q → c.rest q)
  (req : Events.PublishEventRequest)

include h hlost

theorem Triggers.publishShard (task : Task) (shard : Nat) :
    Stays P c.rest (Events.publishShard task req shard) := by
  refine leads_bind h.timeNow ?_
  intro idTime
  refine leads_bind h.timeNow ?_
  intro triggerTime
  refine leads_bind (h.create _ ⟨rfl, rfl, rfl, rfl⟩) ?_
  intro ans
  cases ans with
  | error e => exact fun q hq => hq
  | ok inst =>
  refine leads_bind (h.pick inst _) ?_
  intro picked
  cases picked with
  | error e => exact h.drop inst e
  | ok worker =>
  refine h.markNow ?_
  intro _
  refine leads_bind (h.send inst worker _ rfl) ?_
  intro ans
  cases ans with
  | error e => exact hlost inst worker
  | ok u => exact fun q hq => hq

theorem Triggers.publishShards (task : Task) : ∀ remaining shard : Nat,
    Stays P c.rest (Events.publishShards task req remaining shard) := by
  intro remaining
  induction remaining with
  | zero => exact fun shard q hq => hq
  | succ remaining ih =>
    intro shard
    refine leads_bind (h.publishShard hlost req task shard) ?_
    intro _
    exact leads_bind (ih (shard + 1)) (fun _ q hq => hq)

theorem Triggers.publishTasks : ∀ tasks : List Task,
    Stays P c.rest (Events.publishTasks req tasks) := by
  intro tasks
  induction tasks with
  | nil => exact fun q hq => hq
  | cons task tasks ih =>
  unfold Events.publishTasks
  split
  · refine leads_bind (h.publishShards hlost req task _ 0) ?_
    intro _
    exact leads_bind ih (fun _ q hq => hq)
  · exact ih

theorem Triggers.publish :
    Stays P c.rest (Events.publish req) := by
  unfold Events.publish
  split
  · exact fun q hq => hq
  refine leads_bind (h.aside (.task .listTasks) trivial) ?_
  intro ans
  cases ans with
  | error e => exact fun q hq => hq
  | ok tasks => exact leads_bind (h.publishTasks hlost req tasks) (fun _ q hq => hq)

end Events

/-! ## Retries. -/

/-- The outcome of marking counts, and after a failed send the retry waits again. -/
structure Retries (c : Course P) : Prop extends c.Dispatches where
  mark : ∀ i w time, Leads P (c.timed i w time) (updateInstanceDispatch i.id w.id time)
    (Either (fun _ => c.cleaned w) (fun _ => c.marked i w))
  wait : ∀ i w, Leads P (c.failed i w) (updateInstanceStatus i.id .retryWaiting)
    (fun q _ => c.cleaned w q)

namespace Retries

variable (h : c.Retries) (url : String)

include h

theorem sendRetry {inst : TaskInstance} (worker : WorkerNode) {req : ExecuteTaskRequest}
    (hreq : req.scheduleInstanceID = inst.scheduleInstanceID) :
    Leads P (c.picked inst worker) (sendRetry req inst.id worker) (fun q _ => c.rest q) := by
  refine leads_bind (h.now inst worker) ?_
  intro dispatchTime
  refine leads_bind (h.mark inst worker dispatchTime) ?_
  intro ans
  cases ans with
  | error e => exact leads_bind (h.release worker) (fun _ q hq => hq)
  | ok u =>
  refine leads_bind (h.send inst worker req hreq) ?_
  intro ans
  cases ans with
  | ok u => exact fun q hq => hq
  | error e =>
    refine leads_bind (h.wait inst worker) ?_
    intro _
    exact leads_bind (h.release worker) (fun _ q hq => hq)

theorem retryInstances (hdrop : ∀ i e q, c.declined i e q → c.rest q) :
    ∀ insts : List TaskInstance, (∀ i ∈ insts, ∀ q, c.rest q → c.created i q) →
      Stays P c.rest (RetryLoop.retryInstances url insts) := by
  intro insts
  induction insts with
  | nil => exact fun _ q hq => hq
  | cons inst insts ih =>
  intro hinsts
  have hrest := ih (fun i hi => hinsts i (.tail _ hi))
  refine leads_bind (h.aside (.task (.getTask inst.taskID)) trivial) ?_
  intro ans
  cases ans with
  | error e => exact hrest
  | ok task =>
  refine leads_bind ((h.pick inst _).mono (hinsts inst List.mem_cons_self) (fun _ _ hq => hq)) ?_
  intro picked
  cases picked with
  | error e =>
    intro q hq
    have hq := hdrop inst e q hq
    show Follows P _ q (if e = .noAvailableWorker then _ else _)
    split
    · exact hq
    · exact hrest q hq
  | ok worker =>
    refine leads_bind ?_ (fun _ => hrest)
    rw [retryLoop_dispatchRetry]
    exact leads_bind (h.sendRetry worker rfl) (fun _ q hq => hq)

theorem retryNow {A : P.State → Prop} {task : Task} {inst retry : TaskInstance}
    (hcreate : Leads P A (createInstance retry) (Either (fun _ => c.rest) c.created))
    (hpark : ∀ i, Leads P (c.declined i .noAvailableWorker)
      (updateInstanceStatus i.id .retryWaiting) (fun q _ => c.rest q))
    (hdrop : ∀ i e, e ≠ .noAvailableWorker → ∀ q, c.declined i e q → c.rest q) :
    Leads P A (Runtime.retryNow url task inst retry) (fun q _ => c.rest q) := by
  refine leads_bind hcreate ?_
  intro ans
  cases ans with
  | error e => exact fun q hq => hq
  | ok stored =>
  refine leads_bind (h.pick stored _) ?_
  intro picked
  cases picked with
  | error e =>
    show Leads P _ (if e = .noAvailableWorker then _ else _) _
    split
    next he =>
      subst he
      exact leads_bind (hpark stored) (fun _ q hq => hq)
    next he => exact hdrop stored e he
  | ok worker => exact h.sendRetry worker rfl

end Retries

end Course

theorem leads_retryScan (url : String) {A B : P.State → Prop}
    {N : Int → P.State → Prop} {R : List TaskInstance → P.State → Prop}
    (hnow : Leads P A timeNow (fun q now => N now q))
    (hlist : ∀ now, Leads P (N now) (listDueRetryInstances now 100) (Either (fun _ => B) R))
    (hinsts : ∀ insts, Leads P (R insts) (RetryLoop.retryInstances url insts) (fun q _ => B q)) :
    Leads P A (RetryLoop.scan url) (fun q _ => B q) := by
  refine leads_bind hnow ?_
  intro now
  refine leads_bind (hlist now) ?_
  intro ans
  cases ans with
  | error e => exact fun q hq => hq
  | ok insts => exact hinsts insts

/-! ## Reports. -/

section Reports

variable {url : String} {inst : TaskInstance} {req : TaskStatusReportRequest}
  {A B : P.State → Prop}

/-- `retryIfNeeded`: `G` after the task is read, `H` after the window check. -/
theorem leads_retryIfNeeded {G H : Task → P.State → Prop}
    (hA : isRetryableStatus req.status = false → ∀ q, A q → B q)
    (hG : ∀ task, ((inst.retryCount : Int) < task.maxRetry → Runtime.shouldRetryOnErrors
      task.retryPolicy task.retryOnErrors req.errorCode = false) → ∀ q, G task q → B q)
    (htask : isRetryableStatus req.status = true →
      Leads P A (getTask inst.taskID) (Either (fun _ => B) G))
    (hwindow : ∀ task, Leads P (G task) (Runtime.retryWindowExceeded inst task.retryWindowSeconds)
      (fun q exceeded => (exceeded = true → B q) ∧ (exceeded = false → H task q)))
    (hcreate : ∀ task, isRetryableStatus req.status = true →
      (inst.retryCount : Int) < task.maxRetry →
      Leads P (H task) (Runtime.createRetry url task inst) (fun q _ => B q)) :
    Leads P A (Runtime.retryIfNeeded url inst req) (fun q _ => B q) := by
  unfold Runtime.retryIfNeeded
  split
  next hretryable => exact hA (by simpa using hretryable)
  next hretryable =>
    have hretryable : isRetryableStatus req.status = true := by simpa using hretryable
    refine leads_bind (htask hretryable) ?_
    intro ans
    cases ans with
    | error e => exact fun q hq => hq
    | ok task =>
    show Leads P _ (if _ then _ else if _ then _ else _) _
    split
    next hused => exact hG task (fun hleft => absurd hleft (by omega))
    next hleft =>
      split
      next hrefused => exact hG task (fun _ => by simpa using hrefused)
      refine leads_bind (hwindow task) ?_
      intro exceeded
      cases exceeded with
      | true => exact fun q hq => hq.1 rfl
      | false =>
        exact (hcreate task hretryable (by omega)).mono (fun q hq => hq.2 rfl) (fun _ _ hq => hq)

theorem leads_retryIfNeeded_of_keeps (hA : ∀ q, A q → B q) (hkeeps : P.Keeps A IsTask)
    (hcreate : isRetryableStatus req.status = true → ∀ task,
      Leads P A (Runtime.createRetry url task inst) (fun q _ => B q)) :
    Leads P A (Runtime.retryIfNeeded url inst req) (fun q _ => B q) := by
  refine leads_retryIfNeeded (G := fun _ => A) (H := fun _ => A) (fun _ => hA)
    (fun _ _ => hA) ?_ ?_ (fun task hretryable _ => hcreate hretryable task)
  · intro _
    refine (hkeeps (.task (.getTask inst.taskID)) trivial).mono (fun _ hq => hq) ?_
    intro q r hq
    cases r with
    | error e => exact hA q hq
    | ok task => exact hq
  · intro task
    exact (hkeeps.leads (calls_retryWindowExceeded inst _)).mono (fun _ hq => hq)
      (fun q _ hq => ⟨fun _ => hA q hq, fun _ => hq⟩)

theorem leads_retryLater {retry : TaskInstance} {delay : Int} {N : Int → P.State → Prop}
    (hnow : Leads P A timeNow (fun q now => N now q)) (hcreate : ∀ now, Leads P (N now)
      (createInstance { retry with status := .retryWaiting, nextRetryTime := now + delay })
      (fun q _ => B q)) :
    Leads P A (Runtime.retryLater retry delay) (fun q _ => B q) := by
  refine leads_bind hnow ?_
  intro now
  refine leads_bind (hcreate now) ?_
  intro ans
  cases ans with
  | error e | ok stored => exact fun q hq => hq

/-- The retry of `inst`, one step up. -/
structure RetryOf (task : Task) (inst retry : TaskInstance) : Prop where
  taskID : retry.taskID = task.id
  status : retry.status = .pending
  retryCount : retry.retryCount = inst.retryCount + 1
  nextRetryTime : retry.nextRetryTime = 0
  createdAt : retry.createdAt = 0

theorem leads_createRetry {task : Task} (hnow : Stays P A timeNow)
    (hlater : ∀ retry delay, RetryOf task inst retry → delay > 0 →
      Leads P A (Runtime.retryLater retry delay) (fun q _ => B q))
    (hretry : ∀ retry, RetryOf task inst retry →
      Leads P A (Runtime.retryNow url task inst retry) (fun q _ => B q)) :
    Leads P A (Runtime.createRetry url task inst) (fun q _ => B q) := by
  refine leads_bind hnow ?_
  intro idTime
  refine leads_bind hnow ?_
  intro triggerTime
  show Leads P _ (if _ then _ else _) _
  split
  next hdelay => exact hlater _ _ ⟨rfl, rfl, rfl, rfl, rfl⟩ hdelay
  next => exact hretry _ ⟨rfl, rfl, rfl, rfl, rfl⟩

/-- The end of a report: `L` with the worker read, `R` before the retry. -/
theorem leads_settle {L : WorkerNode → P.State → Prop} {R : P.State → Prop}
    (hanonymous : req.workerID = "" → ∀ q, A q → R q) (hread : req.workerID ≠ "" →
      Leads P A (getWorker req.workerID) (Either (fun _ => R) L))
    (hrelease : ∀ w, Leads P (L w) (upsertWorker (released w)) (Either (fun _ => B) (fun _ => R)))
    (hretry : Leads P R (Runtime.retryIfNeeded url inst req) (fun q _ => B q)) :
    Leads P A (Runtime.settle url inst req) (fun q _ => B q) := by
  unfold Runtime.settle
  split
  next h => exact hretry.mono (hanonymous h) (fun _ _ hq => hq)
  next h =>
    refine leads_bind (hread h) ?_
    intro ans
    cases ans with
    | error e => exact hretry
    | ok worker =>
      refine leads_bind (hrelease worker) ?_
      intro ans
      cases ans with
      | error e => exact fun q hq => hq
      | ok u => exact hretry

theorem leads_reportStatus {R T : TaskInstance → P.State → Prop} (hA : ∀ q, A q → B q)
    (hread : Leads P A (getInstanceByScheduleID req.scheduleInstanceID)
      (Either (fun _ => B) (fun inst q => (isTerminalStatus inst.status = true → B q)
        ∧ (isTerminalStatus inst.status = false → R inst q))))
    (hstore : ∀ inst, Leads P (R inst)
      (updateInstanceResult req.scheduleInstanceID req.status req.errorCode req.errorMessage)
      (Either (fun _ => B) (fun _ => T inst)))
    (htimes : ∀ inst started finished, Leads P (T inst)
      (updateInstanceTimestamps req.scheduleInstanceID started finished) (fun q _ => T inst q))
    (hfire : ∀ inst, req.status = .success → P.Keeps (T inst) IsTask)
    (hrunning : ∀ inst q, req.status = .running → T inst q → B q)
    (hsettle : ∀ inst, req.status ≠ .running →
      Leads P (T inst) (Runtime.settle url inst req) (fun q _ => B q)) :
    Leads P A (Runtime.reportStatus url req) (fun q _ => B q) := by
  unfold Runtime.reportStatus
  split
  · exact hA
  refine leads_bind hread ?_
  intro ans
  cases ans with
  | error e => exact fun q hq => hq
  | ok inst =>
  rintro q ⟨hend, hopen⟩
  show Follows P _ q (if isTerminalStatus inst.status then _ else _)
  split
  next hterminal => exact hend hterminal
  next hterminal =>
    refine leads_bind (hstore inst) ?_ q (hopen (by simpa using hterminal))
    intro ans
    cases ans with
    | error e => exact fun q hq => hq
    | ok u =>
    have hreport : Leads P (T inst) (Runtime.reportTimestamps req) (fun q _ => T inst q) := by
      unfold Runtime.reportTimestamps
      split
      · exact leads_bind (htimes inst _ _) (fun _ q hq => hq)
      · exact fun q hq => hq
    refine leads_bind hreport ?_
    intro _
    show Leads P _ (if _ then _ else if _ then _ else _) _
    split
    next hstatus => exact fun q hq => hrunning inst q hstatus hq
    next hstatus =>
      split
      next hsuccess =>
        refine leads_bind ((hfire inst hsuccess).leads (calls_fireDownstream inst)) ?_
        exact fun _ => hsettle inst hstatus
      next => exact hsettle inst hstatus

end Reports

/-! ## Jobs. -/

theorem leads_run {url workerID : String} {req : ExecuteTaskRequest}
    {A : P.State → Prop} (hnode : ∀ c, Stays P A (ask (.node c))) (hnow : Stays P A timeNow)
    (hreport : ∀ report, report.status ≠ .pending → Stays P A (Runtime.reportStatus url report)) :
    Stays P A (Workers.run url workerID req) := by
  refine leads_bind (hnode (.receive workerID req)) ?_
  intro received
  cases received with
  | false => exact fun q hq => hq
  | true =>
  refine leads_bind (hnode (.isDuplicate workerID req.scheduleInstanceID)) ?_
  intro duplicate
  cases duplicate with
  | true => exact fun q hq => hq
  | false =>
  refine leads_bind (hnode (.addRunning workerID 1)) ?_
  intro _
  refine leads_bind (hreport _ (by simp)) ?_
  intro _
  refine leads_bind hnow ?_
  intro startedAt
  refine leads_bind (hnode (.execute workerID req)) ?_
  intro outcome
  refine leads_bind hnow ?_
  intro finishedAt
  refine leads_bind (hreport _ ?_) ?_
  · cases outcome <;> simp [Workers.finalReport]
  intro _
  exact hnode (.addRunning workerID (-1))

theorem follows_done {post : P.State → Except Err Unit → Prop} {p : Program Unit} {q : P.State}
    (h : Follows P (fun q' _ => post q' (.ok ())) q p) : Follows P post q (done p) :=
  follows_bind h

theorem follows_outcome {α : Type} {post : P.State → Prop} {p : Program (Except Err α)}
    {q : P.State} (h : Follows P (fun q' _ => post q') q p) :
    Follows P (fun q' _ => post q') q (outcome p) :=
  follows_bind h

end AiScheduler.Outlines
