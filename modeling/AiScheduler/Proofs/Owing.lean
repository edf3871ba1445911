/-
  **WHO OWES A PENDING INSTANCE ANOTHER STATUS.**

  Five operations create pending instances and OWE each until they have written another status to
  it. Where a `Pick` of a trigger finds no eligible worker the debt is never paid, nor by
  `retry_failed_instance`: the `owing` protocol does not admit those answers.
-/
import AiScheduler.Lib.Inside
import AiScheduler.Proofs.Outlines

namespace AiScheduler.Pending

open Lib Prog Outlines Parts

/-! ## The protocol. -/

/-- How an operation gets rid of a pending instance. -/
inductive Role where
  /-- `handleTask`, `OnTrigger`, `Publish`: only by dispatching it. -/
  | trigger
  /-- `ReportStatus`: by dispatching its retry or letting it wait. -/
  | report
  /-- `retry_failed_instance`: not at all. -/
  | tool
  /-- The others create no pending instance. -/
  | other
  deriving DecidableEq

/-- The ghost position: the pending instance an operation owes. -/
structure Position where
  role : Role
  owes : Option Int := none

namespace Position

def afterCreate (q : Position) : Except Err TaskInstance → Position
  | .ok i => { q with owes := some i.id }
  | .error _ => q

/-- After writing another status to the instance `id`. -/
def paid (q : Position) (id : Int) : Position :=
  { q with owes := if q.owes = some id then none else q.owes }

def next (q : Position) : (op : Call) → op.Ans → Option Position
  | .inst (.createInstance i), ans =>
    if i.status ≠ .pending then some q
    else if q.owes = none ∧ q.role ≠ .other then some (q.afterCreate ans)
    else none
  | .inst (.updateInstanceStatus id status), _ =>
    if status = .pending then none else some (q.paid id)
  | .inst (.updateInstanceDispatch id _ _), _ => some (q.paid id)
  | .inst (.updateInstanceResult _ status _ _), _ => if status = .pending then none else some q
  | _, _ => some q

/-- Answers without a fault: the owed instance is there, workers are listed and stored, a trigger
finds one; the tool does not find the task of a failed instance. -/
def admits (q : Position) : (op : Call) → op.Ans → Prop
  | .inst (.updateInstanceStatus id _), ans => q.owes = some id → ans = .ok ()
  | .inst (.updateInstanceDispatch id _ _), ans => q.owes = some id → ans = .ok ()
  | .worker (.listAvailableWorkers opts), ans =>
    ∃ all, ans = .ok all ∧ (q.role = .trigger → Router.filterByLabels all opts.labels ≠ [])
  | .worker (.upsertWorker _), ans => ans = .ok ()
  | .task (.getTask _), ans => q.role = .tool → ∃ e, ans = .error e
  | _, _ => True

end Position

abbrev owing : Protocol System where
  State := Position
  next := Position.next
  admits := Position.admits

def roleOf : Job → Role
  | .triggerScan | .handleTask _ | .wheelTick | .heapTick | .onTrigger _ | .publish _ => .trigger
  | .reportStatus _ | .execute _ _ => .report
  | .retryFailedInstance _ => .tool
  | .retryScan | .warm | .cancelInstance _ | .registerWorker _ | .heartbeat _ => .other

def start (j : Job) : Position := { role := roleOf j }

def post (_ : Job) (q : Position) (_ : Except Err Unit) : Prop := q.owes = none

/-! ## Calls that leave the position alone. -/

def WritesNoPending : Call → Prop
  | .inst (.createInstance i) => i.status ≠ .pending
  | .inst (.updateInstanceStatus _ status) => status ≠ .pending
  | .inst (.updateInstanceResult _ status _ _) => status ≠ .pending
  | _ => True

theorem paid_of_owes_none {q : Position} (hq : q.owes = none) (id : Int) : q.paid id = q := by
  cases q
  simp only at hq
  simp [Position.paid, hq]

theorem next_of_writesNoPending {q : Position} (hq : q.owes = none) :
    ∀ op : Call, WritesNoPending op → ∀ ans, owing.next q op ans = some q := by
  intro op hop ans
  cases op with
  | inst call =>
    cases call with
    | createInstance i => exact if_pos hop
    | updateInstanceStatus id status =>
      exact (if_neg hop).trans (congrArg some (paid_of_owes_none hq id))
    | updateInstanceDispatch id workerID time => exact congrArg some (paid_of_owes_none hq id)
    | updateInstanceResult sid status code msg => exact if_neg hop
    | _ => rfl
  | _ => rfl

theorem writesNoPending_of_isRouting (op : Call) (h : IsRouting op) :
    WritesNoPending op :=
  forall_isRouting (fun _ => trivial) (fun _ => trivial) trivial op h

theorem writesNoPending_of_isTask (op : Call) (h : IsTask op) : WritesNoPending op :=
  forall_isTask (fun _ => trivial) trivial op h

theorem writesNoPending_of_isAside (op : Call) (h : IsAside op) :
    WritesNoPending op := by
  unfold IsAside at h
  split at h <;> trivial

/-! ## Picking and dispatching. -/

/-- Owing the instance `id`. -/
abbrev Position.with (q : Position) (id : Int) : Position := { q with owes := some id }

/-- The course of an instance: owed from its creation until it is marked. -/
def course (q : Position) : Outlines.Course owing where
  rest q' := q' = q
  created i q' := q' = q.with i.id
  declined i e q' := q' = q.with i.id ∧ q.role ≠ .trigger ∧ e = .noAvailableWorker
  picked i _ q' := q' = q.with i.id
  timed i _ _ q' := q' = q.with i.id
  marked _ _ q' := q' = q
  failed _ _ q' := q' = q
  cleaned _ q' := q' = q

section Course

variable {q : Position} (hq : q.owes = none)

include hq

theorem paid_with (id : Int) : (q.with id).paid id = q := by
  cases q
  simp only at hq
  simp [Position.paid, hq]

theorem follows_quiet {α : Type} {p : Program α} (hp : Calls WritesNoPending p) :
    Follows owing (fun q' _ => q' = q) q p :=
  follows_of_calls (next_of_writesNoPending hq) hp

/-- A `Pick` answers a worker; only outside a trigger can it answer that there
is none. -/
theorem dispatches_course : (course q).Dispatches where
  aside := Protocol.keeps_eq (fun op hop =>
    next_of_writesNoPending hq op (writesNoPending_of_isAside op hop))
  pick := by
    intro i opts
    refine leads_pick (P := owing) (L := fun _ q' => q' = q.with i.id) opts ?_ ?_ ?_
    · rintro q' rfl ans ⟨all, rfl, hsome⟩
      exact ⟨_, rfl, fun hnone => ⟨rfl, fun h => hsome h hnone, rfl⟩, fun _ => rfl⟩
    · exact fun _ q' hq' ans _ => ⟨q', rfl, hq'⟩
    rintro _ best _ q' rfl ans hans
    have hok : ans = .ok () := hans
    subst hok
    exact ⟨_, rfl, rfl⟩
  now := fun _ _ q' hq' _ _ => ⟨q', rfl, hq'⟩
  send := fun _ _ _ _ q' hq' ans _ => ⟨q', rfl, Either.same hq' ans⟩
  release := fun _ q' hq' _ _ => ⟨q', rfl, hq'⟩

theorem leads_createInstance (hrole : q.role ≠ .other) {i : TaskInstance}
    (hi : i.status = .pending) :
    Leads owing (fun q' => q' = q) (createInstance i)
      (Either (fun _ q' => q' = q) (fun stored q' => q' = q.with stored.id)) := by
  rintro q' rfl ans _
  refine ⟨q'.afterCreate ans, (if_neg (fun h => h hi)).trans (if_pos ⟨hq, hrole⟩), ?_⟩
  cases ans with
  | error e | ok stored => rfl

theorem leads_mark (id : Int) (workerID : String) (time : Int) :
    Leads owing (fun q' => q' = q.with id) (updateInstanceDispatch id workerID time)
      (fun q' ans => q' = q ∧ ans = .ok ()) := by
  rintro q' rfl ans hans
  exact ⟨_, congrArg some (paid_with hq id), rfl, hans rfl⟩

theorem triggers_course (hrole : q.role = .trigger) : (course q).Triggers where
  toDispatches := dispatches_course hq
  create := fun i hi => leads_createInstance hq (by rw [hrole]; simp) hi.status
  drop := fun _ _ _ h => absurd hrole h.2.1
  mark := fun i w time => (leads_mark hq i.id w.id time).mono (fun _ h => h) (fun _ _ h => h.1)

theorem fails_course : (course q).Fails := by
  rintro i w code msg q' rfl ans _
  exact ⟨q', next_of_writesNoPending hq _ InstanceStatus.noConfusion ans, rfl⟩

end Course

/-! ## Reports. -/

section Reports

variable {q : Position} (hq : q.owes = none) (hrole : q.role = .report)

include hq

theorem retries_course : (course q).Retries where
  toDispatches := dispatches_course hq
  mark := by
    intro i w time
    refine (leads_mark hq i.id w.id time).mono (fun _ h => h) ?_
    rintro q' ans ⟨rfl, rfl⟩
    rfl
  wait := by
    rintro i w q' rfl ans _
    exact ⟨_, congrArg some (paid_of_owes_none hq i.id), rfl⟩

include hrole

theorem leads_createRetry (url : String) (task : Task) (inst : TaskInstance) :
    Stays owing (fun q' => q' = q) (Runtime.createRetry url task inst) := by
  refine Outlines.leads_createRetry (P := owing) (dispatches_course hq).timeNow ?_ ?_
  · intro retry delay _ _ q' hq'
    subst hq'
    apply follows_quiet hq
    refine calls_perform_bind trivial ?_
    intro now
    refine calls_perform_bind (by simp [WritesNoPending]) ?_
    intro ans
    cases ans with
    | error e | ok stored => trivial
  intro retry hretry
  refine (retries_course hq).retryNow url
    (leads_createInstance hq (by rw [hrole]; simp) hretry.status) ?_ ?_
  · -- without a worker the retry waits: that pays the debt, too
    rintro i q' ⟨rfl, _⟩ ans _
    exact ⟨_, congrArg some (paid_with hq i.id), rfl⟩
  · exact fun _ _ he _ h => absurd h.2.2 he

/-- **`retryIfNeeded` leaves no debt.** -/
theorem leads_retryIfNeeded (url : String) (inst : TaskInstance) (req : TaskStatusReportRequest) :
    Stays owing (fun q' => q' = q) (Runtime.retryIfNeeded url inst req) :=
  leads_retryIfNeeded_of_keeps (fun _ h => h)
    (Protocol.keeps_eq (fun op hop =>
      next_of_writesNoPending hq op (writesNoPending_of_isTask op hop)))
    (fun _ task => leads_createRetry hq hrole url task inst)

end Reports

/-! ## The jobs. -/

theorem follows_retryFailedInstance {q : Position} (hrole : q.role = .tool) (instanceID : Int) :
    Follows owing (fun q' _ => q' = q) q (Tools.retryFailedInstance instanceID) := by
  unfold Tools.retryFailedInstance
  split
  · rfl
  refine follows_perform_idle (fun _ => rfl) ?_
  intro ans
  cases ans with
  | error e => rfl
  | ok inst =>
  show Follows owing _ _ (if _ then _ else _)
  split
  · rfl
  refine follows_perform_admitted (fun _ => q) (fun _ _ => rfl) ?_
  intro ans hans
  obtain ⟨e, rfl⟩ := hans hrole
  rfl

theorem writesNoPending_of_isRetrying {P : Int → Prop} (op : Call)
    (h : IsRetrying P op) : WritesNoPending op := by
  cases h with
  | now | getTask id => trivial
  | routing h => exact writesNoPending_of_isRouting op h
  | updateDispatch h workerID time | dispatch worker req => trivial
  | retryWaiting h => exact InstanceStatus.noConfusion

theorem calls_cancelInstance (sid : String) :
    Calls WritesNoPending (Runtime.cancelInstance sid) := by
  refine calls_perform_bind trivial ?_
  intro ans
  cases ans with
  | error e => trivial
  | ok inst =>
  show Calls (S := System) WritesNoPending (if isTerminalStatus inst.status then _ else _)
  split
  · trivial
  refine calls_bind ((calls_cancelOnWorker inst sid).mono ?_) ?_
  · intro op hop
    cases hop <;> trivial
  · intro _
    exact ⟨by simp [WritesNoPending], fun _ => trivial⟩

theorem writesNoPending_of_isWarming (op : Call) (h : IsWarming op) :
    WritesNoPending op := by
  cases h <;> trivial

theorem writesNoPending_of_isRegistering (op : Call) (h : IsRegistering op) :
    WritesNoPending op := by
  cases h <;> trivial

/-! ## The trigger steps. -/

/-- The calls that create pending instances, by the role of the jobs that make them. -/
inductive TriggerStep (url : String) : Role → (α : Type) → Program α → Prop where
  | handleTask (task : Task) :
      TriggerStep url .trigger _ (TriggerLoop.handleTask url task)
  | onTrigger (taskID : Int) :
      TriggerStep url .trigger _ (Engine.onTrigger url taskID)
  | publish (req : Events.PublishEventRequest) : TriggerStep url .trigger _ (Events.publish req)
  | retryIfNeeded (inst : TaskInstance) (req : TaskStatusReportRequest) :
      TriggerStep url .report _ (Runtime.retryIfNeeded url inst req)
  | retryFailedInstance (instanceID : Int) :
      TriggerStep url .tool _ (Tools.retryFailedInstance instanceID)

theorem stays_triggerStep {url : String} {role : Role} {α : Type} {p : Program α}
    (h : TriggerStep url role α p) : Stays owing (fun q => q = { role }) p := by
  cases h with
  | handleTask task => exact (triggers_course rfl rfl).handleTask (fails_course rfl) url task
  | onTrigger taskID => exact (triggers_course rfl rfl).onTrigger (fails_course rfl) url taskID
  | publish req => exact (triggers_course rfl rfl).publish (fun _ _ _ h => h) req
  | retryIfNeeded inst req => exact leads_retryIfNeeded rfl rfl url inst req
  | retryFailedInstance id =>
    rintro q rfl
    exact follows_retryFailedInstance rfl id

/-- A program of trigger steps and of calls that write no pending status. -/
abbrev Stepwise (url : String) (role : Role) {α : Type} (p : Program α) : Prop :=
  Parted (TriggerStep url role) WritesNoPending p

theorem stepwise_scan (url : String) : Stepwise url .trigger (TriggerLoop.scan url) := by
  have htasks : ∀ tasks, Stepwise url .trigger (TriggerLoop.handleTasks url tasks) := by
    intro tasks
    induction tasks with
    | nil => exact .ret ()
    | cons task tasks ih =>
      refine .perform_bind trivial fun allowed => ?_
      cases allowed with
      | true => exact .part (.handleTask task) fun _ => ih
      | false => exact .ret ()
  refine .perform_bind trivial fun counted => ?_
  cases counted with
  | error e => exact .ret ()
  | ok pending =>
  refine .perform_bind trivial fun _ => .perform_bind trivial fun allowed => ?_
  cases allowed with
  | false => exact .ret ()
  | true =>
  refine .bind (.of_calls (calls_dueTasks.mono (by rintro op ⟨⟩ <;> trivial))) fun due => ?_
  cases due with
  | error e => exact .ret ()
  | ok tasks => exact htasks tasks

theorem stepwise_onTriggers (url : String) (ids : List Int) :
    Stepwise url .trigger (Engine.onTriggers url ids) := by
  induction ids with
  | nil => exact .ret ()
  | cons id ids ih => exact .part (.onTrigger id) fun _ => ih

theorem stepwise_reportStatus (url : String) (req : TaskStatusReportRequest)
    (hreq : req.status ≠ .pending) : Stepwise url .report (Runtime.reportStatus url req) := by
  have hsettle : ∀ inst, Stepwise url .report (Runtime.settle url inst req) := by
    intro inst
    have hretry : Stepwise url .report (Runtime.retryIfNeeded url inst req) :=
      .of_part (.retryIfNeeded inst req)
    unfold Runtime.settle
    split
    · exact hretry
    refine .perform_bind trivial fun found => ?_
    cases found with
    | error e => exact hretry
    | ok worker =>
    refine .perform_bind trivial fun stored => ?_
    cases stored with
    | error e => exact .ret _
    | ok u => exact hretry
  unfold Runtime.reportStatus
  split
  · exact .ret _
  refine .perform_bind trivial fun found => ?_
  cases found with
  | error e => exact .ret _
  | ok inst =>
  dsimp only
  split
  · exact .ret _
  refine .perform_bind hreq fun stored => ?_
  cases stored with
  | error e => exact .ret _
  | ok u =>
  -- the times, the downstream tasks of a success, the worker and the retry
  refine .bind (p := Runtime.reportTimestamps req) ?_ fun _ => ?_
  · unfold Runtime.reportTimestamps
    split
    · exact .perform_bind trivial fun _ => .ret _
    · exact .ret _
  split
  · exact .ret _
  split
  · exact .bind (.of_calls ((calls_fireDownstream inst).mono writesNoPending_of_isTask))
      fun _ => hsettle inst
  · exact hsettle inst

theorem stepwise_run (url workerID : String) (req : ExecuteTaskRequest) :
    Stepwise url .report (Workers.run url workerID req) := by
  refine .perform_bind trivial fun received => ?_
  cases received with
  | false => exact .ret ()
  | true =>
  refine .perform_bind trivial fun duplicate => ?_
  cases duplicate with
  | true => exact .ret ()
  | false =>
  refine .perform_bind trivial fun _ => .bind (stepwise_reportStatus url _ (by simp)) fun _ => ?_
  refine .perform_bind trivial fun startedAt => .perform_bind trivial fun outcome => ?_
  refine .perform_bind trivial fun finishedAt => .bind (stepwise_reportStatus url _ ?_) fun _ => ?_
  · cases outcome <;> simp [Workers.finalReport]
  · exact .perform_bind trivial fun _ => .ret ()

/-- **Every job is made of trigger steps and of calls that write no pending status**, but for a
report of `pending`. -/
theorem stepwise_body (url : String) {j : Job}
    (hj : ∀ req, j = .reportStatus req → req.status ≠ .pending) :
    Stepwise url (roleOf j) (body url j) := by
  have hend : ∀ {α : Type} {role : Role} {p : Program α} {f : α → Program (Except Err Unit)},
      Stepwise url role p → (∀ a, ∃ r, f a = Prog.ret r) → Stepwise url role (p >>= f) := by
    intro α role p f hp hf
    refine hp.bind fun a => ?_
    obtain ⟨r, hr⟩ := hf a
    rw [hr]
    exact .ret r
  cases j with
  | triggerScan => exact hend (stepwise_scan url) fun _ => ⟨_, rfl⟩
  | handleTask task => exact .of_part (.handleTask task)
  | retryScan =>
    refine hend (.of_calls ?_) fun _ => ⟨_, rfl⟩
    refine calls_perform_bind trivial ?_
    intro now
    refine calls_perform_bind trivial ?_
    intro ans
    cases ans with
    | error e => trivial
    | ok insts =>
      exact (calls_retryInstances (P := fun _ => True) url insts
        (fun _ _ => trivial)).mono writesNoPending_of_isRetrying
  | warm => exact .of_calls (calls_warm.mono writesNoPending_of_isWarming)
  | wheelTick =>
    exact hend (.perform_bind trivial fun ids => stepwise_onTriggers url ids) fun _ => ⟨_, rfl⟩
  | heapTick =>
    refine hend (.perform_bind trivial fun now => ?_) fun _ => ⟨_, rfl⟩
    exact .perform_bind trivial fun items => stepwise_onTriggers url _
  | onTrigger taskID => exact .part (.onTrigger taskID) fun _ => .ret _
  | reportStatus req => exact stepwise_reportStatus url req (hj req rfl)
  | cancelInstance sid => exact .of_calls (calls_cancelInstance sid)
  | publish req => exact .part (.publish req) fun _ => .ret _
  | retryFailedInstance id => exact .part (.retryFailedInstance id) fun _ => .ret _
  | registerWorker req =>
    exact hend (.of_calls ((calls_registerWorker req).mono writesNoPending_of_isRegistering))
      fun _ => ⟨_, rfl⟩
  | heartbeat workerID =>
    exact hend (.of_calls ((calls_sendHeartbeat workerID).mono writesNoPending_of_isRegistering))
      fun _ => ⟨_, rfl⟩
  | execute workerID req => exact hend (stepwise_run url workerID req) fun _ => ⟨_, rfl⟩

theorem next_of_idle {role : Role} (q : Position) (op : Call) (hq : q = { role })
    (hop : WritesNoPending op) (ans : op.Ans) : owing.next q op ans = some q := by
  subst hq
  exact next_of_writesNoPending rfl op hop ans

/-- **So every job follows the protocol.** -/
theorem follows_body (url : String) {j : Job}
    (hj : ∀ req, j = .reportStatus req → req.status ≠ .pending) :
    Follows owing (post j) (start j) (body url j) := by
  refine ((stepwise_body url hj).stays next_of_idle
    (fun _ _ h => stays_triggerStep h) _ rfl).mono ?_
  rintro q _ rfl
  rfl

end AiScheduler.Pending
