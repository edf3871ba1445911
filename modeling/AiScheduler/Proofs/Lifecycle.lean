/-
  **WHAT THE FOUR WRITERS OF AN INSTANCE'S STATUS DO WITH IT.**

  `handleTask`, a retry-loop scan, `ReportStatus` and `CancelInstance` write statuses only of
  instances they HOLD: read unfinished, or created. A failure report releases the worker and
  creates the retry only once it has SETTLED its instance.
-/
import AiScheduler.Proofs.Outlines

namespace AiScheduler.Lifecycle

open Lib Prog Outlines

variable {status : InstanceStatus} {sid url : String} {ans : Except Err Unit}

/-! ## The protocol. -/

/-- What an operation may do on account of an instance. -/
inductive Role where
  /-- Delivers a failed or timeout report of this instance. -/
  | failureReport (sid : String)
  /-- Reports another status, or cancels: creates nothing. -/
  | quiet
  /-- The trigger loop and the retry loop. -/
  | loop
  deriving DecidableEq

/-- The ghost position of an operation. -/
structure Position where
  role : Role
  /-- Row id and schedule id of the instances it may still write. -/
  held : List (Int × String) := []
  /-- Schedule ids of the instances it has stored a final status of. -/
  settled : List String := []
  created : Bool := false
  released : Bool := false
  /-- Its last call read a worker row. -/
  afterGet : Bool := false

namespace Position

/-- The last call did not read a worker row. -/
def moved (q : Position) : Position := { q with afterGet := false }

/-- A final status of `sid` is stored. -/
def settle (q : Position) (sid : String) : Position :=
  { q with held := q.held.filter (fun p => p.2 ≠ sid), settled := sid :: q.settled }

/-- A failure report creates one retry, after its instance is settled. -/
def mayCreate (q : Position) : Bool :=
  match q.role with
  | .failureReport sid => sid ∈ q.settled ∧ q.created = false
  | .quiet => false
  | .loop => true

/-- A failure report releases its worker once, after its instance is settled. -/
def mayRelease (q : Position) : Bool :=
  match q.role with
  | .failureReport sid => sid ∈ q.settled ∧ q.released = false
  | _ => true

/-- After reading the instance `sid` stands for: held unless finished. -/
def afterRead (q : Position) (sid : String) : Except Err TaskInstance → Position
  | .ok i => { q with held := if isTerminalStatus i.status then [] else [(i.id, sid)] }
  | .error _ => q

def afterList (q : Position) : Except Err (List TaskInstance) → Position
  | .ok is => { q with held := is.map (fun i => (i.id, i.scheduleInstanceID)) }
  | .error _ => q

def afterCreate (q : Position) : Except Err TaskInstance → Position
  | .ok i => { q with held := (i.id, i.scheduleInstanceID) :: q.held, created := true }
  | .error _ => q

def afterResult (q : Position) (sid : String) (status : InstanceStatus) :
    Except Err Unit → Position
  | .ok _ => if isTerminalStatus status then q.settle sid else q
  | .error _ => q

def onInstance (q : Position) : (c : InstanceCall) → Except Err c.Result → Option Position
  | .getInstanceByScheduleID sid, ans => if q.held = [] then some (q.afterRead sid ans) else none
  | .listDueRetryInstances _ _, ans => if q.held = [] then some (q.afterList ans) else none
  | .createInstance i, ans =>
    if q.mayCreate ∧ isTerminalStatus i.status = false then some (q.afterCreate ans) else none
  | .updateInstanceStatus id status, _ =>
    if id ∈ q.held.map Prod.fst ∧ isTerminalStatus status = false then some q else none
  | .updateInstanceDispatch id _ _, _ => if id ∈ q.held.map Prod.fst then some q else none
  | .updateInstanceResult sid status _ _, ans =>
    if sid ∈ q.held.map Prod.snd then some (q.afterResult sid status ans) else none
  | _, _ => some q

def afterGetWorker (q : Position) : Except Err WorkerNode → Position
  | .ok _ => { q with afterGet := true }
  | .error _ => q.moved

/-- Worker calls: a row written right after a row was read is a release. -/
def onWorker (q : Position) : (c : WorkerCall) → Except Err c.Result → Option Position
  | .getWorker _, ans => some (q.afterGetWorker ans)
  | .upsertWorker _, _ =>
    if q.afterGet then
      if q.mayRelease then some { q.moved with released := true } else none
    else some q
  | _, _ => some q.moved

def next (q : Position) : (op : Call) → op.Ans → Option Position
  | .inst c, ans => q.moved.onInstance c ans
  | .worker c, ans => q.onWorker c ans
  | _, _ => some q.moved

end Position

abbrev lifecycle : Protocol System where
  State := Position
  next := Position.next

def roleOf : Job → Role
  | .reportStatus req =>
    if isRetryableStatus req.status then .failureReport req.scheduleInstanceID else .quiet
  | .cancelInstance _ => .quiet
  | _ => .loop

def start (j : Job) : Position := { role := roleOf j }

/-- When a job returns: a cancel without error has settled its instance. -/
def post : Job → Position → Except Err Unit → Prop
  | .cancelInstance sid, q, .ok _ => sid ∈ q.settled
  | _, _, _ => True

/-! ## Calls that leave the position alone. -/

theorem moved_of_not_afterGet {q : Position} (hq : q.afterGet = false) : q.moved = q := by
  cases q
  unfold Position.moved
  congr
  exact hq.symm

theorem next_of_isRouting {q : Position} (hq : q.afterGet = false) :
    ∀ op : Call, Parts.IsRouting op → ∀ ans, lifecycle.next q op ans = some q := by
  have hm := moved_of_not_afterGet hq
  refine Parts.forall_isRouting (fun _ _ => congrArg some hm) ?_ (fun _ => congrArg some hm)
  intro w ans
  show (if q.afterGet then _ else some q) = some q
  rw [hq]
  rfl

theorem next_of_isTask {q : Position} (hq : q.afterGet = false) :
    ∀ op : Call, Parts.IsTask op → ∀ ans, lifecycle.next q op ans = some q :=
  Parts.forall_isTask (fun _ _ => congrArg some (moved_of_not_afterGet hq))
    (fun _ => congrArg some (moved_of_not_afterGet hq))

theorem next_of_isAside {q : Position} (hq : q.afterGet = false) (op : Call)
    (h : IsAside op) (ans : op.Ans) : lifecycle.next q op ans = some q := by
  have hm : some q.moved = some q := congrArg some (moved_of_not_afterGet hq)
  unfold IsAside at h
  split at h
  · exact hm
  · exact hm
  · exact hm
  · exact hm
  · exact h.elim

theorem next_updateInstanceStatus {q : Position} (hq : q.afterGet = false) {id : Int}
    (hid : id ∈ q.held.map Prod.fst)
    (hstatus : isTerminalStatus status = false) (ans : Except Err Unit) :
    lifecycle.next q (.inst (.updateInstanceStatus id status)) ans = some q := by
  show q.moved.onInstance (.updateInstanceStatus id status) ans = some q
  rw [moved_of_not_afterGet hq]
  exact if_pos ⟨hid, hstatus⟩

/-! ## Calls that move. -/

theorem next_updateInstanceResult {q : Position} (hq : q.afterGet = false)
    (hsid : sid ∈ q.held.map Prod.snd) {code msg : String} :
    lifecycle.next q (.inst (.updateInstanceResult sid status code msg)) ans
      = some (q.afterResult sid status ans) := by
  show q.moved.onInstance (.updateInstanceResult sid status code msg) ans = _
  rw [moved_of_not_afterGet hq]
  exact if_pos hsid

theorem next_createInstance {q : Position} (hq : q.afterGet = false)
    (hmay : q.mayCreate = true) {i : TaskInstance} (hi : isTerminalStatus i.status = false)
    (ans : Except Err TaskInstance) :
    lifecycle.next q (.inst (.createInstance i)) ans = some (q.afterCreate ans) := by
  show q.moved.onInstance (.createInstance i) ans = _
  rw [moved_of_not_afterGet hq]
  exact if_pos ⟨hmay, hi⟩

@[simp] theorem afterResult_afterGet {q : Position} :
    (q.afterResult sid status ans).afterGet = q.afterGet := by
  cases ans with
  | error e => rfl
  | ok u =>
    show (if isTerminalStatus status then q.settle sid else q).afterGet = _
    split <;> rfl

@[simp] theorem afterResult_role {q : Position} : (q.afterResult sid status ans).role = q.role := by
  cases ans with
  | error e => rfl
  | ok u =>
    show (if isTerminalStatus status then q.settle sid else q).role = _
    split <;> rfl

/-! ## The course of an instance. -/

/-- The operation may write these instances. -/
structure Holds (role : Role) (insts : List TaskInstance) (q : Position) : Prop where
  afterGet : q.afterGet = false
  role : q.role = role
  held : ∀ i ∈ insts, (i.id, i.scheduleInstanceID) ∈ q.held

/-- The course of an instance to a worker: it is held until it is sent. -/
def course (role : Role) (insts : List TaskInstance) : Outlines.Course lifecycle where
  rest := Holds role insts
  created i := Holds role (i :: insts)
  declined i _ := Holds role (i :: insts)
  picked i _ := Holds role (i :: insts)
  timed i _ _ := Holds role (i :: insts)
  marked i _ := Holds role (i :: insts)
  failed i _ := Holds role (i :: insts)
  cleaned _ := Holds role insts

section Course

variable {role : Role} {insts : List TaskInstance} {q : Position} {i : TaskInstance}

theorem Holds.tail (h : Holds role (i :: insts) q) : Holds role insts q :=
  ⟨h.afterGet, h.role, fun j hj => h.held j (.tail _ hj)⟩

theorem Holds.id_mem (h : Holds role insts q) (hi : i ∈ insts) : i.id ∈ q.held.map Prod.fst :=
  List.mem_map_of_mem (h.held i hi)

theorem keeps_aside : lifecycle.Keeps (Holds role insts) IsAside :=
  fun op hop q hq ans _ => ⟨q, next_of_isAside hq.afterGet op hop ans, hq⟩

theorem keeps_routing : lifecycle.Keeps (Holds role insts) Parts.IsRouting :=
  fun op hop q hq ans _ => ⟨q, next_of_isRouting hq.afterGet op hop ans, hq⟩

theorem dispatches_course : (course role insts).Dispatches where
  aside := keeps_aside
  pick := fun i opts => (keeps_routing.leads (Parts.calls_pick opts)).mono (fun _ h => h)
    (fun _ r h => Either.same h r)
  now := fun _ _ => keeps_aside (.memory .now) trivial
  send := by
    intro i w req _ q hq ans _
    refine ⟨q, congrArg some (moved_of_not_afterGet hq.afterGet), ?_⟩
    cases ans with
    | error e => exact hq
    | ok u => exact hq.tail
  release := fun w => keeps_routing.leads (Parts.calls_release w)

theorem leads_mark (i : TaskInstance) (w : WorkerNode) (time : Int) :
    Stays lifecycle (Holds role (i :: insts)) (updateInstanceDispatch i.id w.id time) := by
  intro q hq ans _
  refine ⟨q, ?_, hq⟩
  show q.moved.onInstance (.updateInstanceDispatch i.id w.id time) ans = some q
  rw [moved_of_not_afterGet hq.afterGet]
  exact if_pos (hq.id_mem List.mem_cons_self)

theorem leads_createInstance {i : TaskInstance} (hi : isTerminalStatus i.status = false) :
    Leads lifecycle (fun q => Holds role insts q ∧ q.mayCreate = true) (createInstance i)
      (Either (fun _ => (course role insts).rest) (course role insts).created) := by
  rintro q ⟨hq, hmay⟩ ans _
  refine ⟨_, next_createInstance hq.afterGet hmay hi ans, ?_⟩
  cases ans with
  | error e => exact hq
  | ok stored =>
    refine ⟨hq.afterGet, hq.role, ?_⟩
    intro j hj
    rcases List.mem_cons.mp hj with rfl | hj
    · exact .head _
    · exact .tail _ (hq.held j hj)

theorem triggers_course : (course .loop insts).Triggers where
  toDispatches := dispatches_course
  create := by
    intro i hi
    refine (leads_createInstance (by rw [hi.status]; rfl)).mono ?_ (fun _ _ h => h)
    intro q hq
    refine ⟨hq, ?_⟩
    unfold Position.mayCreate
    rw [hq.role]
  drop := fun _ _ _ h => h.tail
  mark := leads_mark

theorem fails_course : (course role []).Fails := by
  intro i w code msg q hq ans _
  refine ⟨_, next_updateInstanceResult hq.afterGet
    (List.mem_map_of_mem (hq.held i List.mem_cons_self)), ?_, ?_, by simp⟩
  · exact (afterResult_afterGet).trans hq.afterGet
  · exact (afterResult_role).trans hq.role

theorem leads_wait (i : TaskInstance) :
    Leads lifecycle (Holds role (i :: insts)) (updateInstanceStatus i.id .retryWaiting)
      (fun q _ => Holds role insts q) :=
  fun q hq ans _ =>
    ⟨q, next_updateInstanceStatus hq.afterGet (hq.id_mem List.mem_cons_self) rfl ans, hq.tail⟩

theorem retries_course : (course role insts).Retries where
  toDispatches := dispatches_course
  mark := by
    intro i w time
    refine (leads_mark i w time).mono (fun _ h => h) ?_
    intro q r h
    cases r with
    | error e => exact h.tail
    | ok u => exact h
  wait := fun i _ => leads_wait i

end Course

theorem leads_retryScan :
    Leads lifecycle (fun q => q = start .retryScan) (RetryLoop.scan url) (fun _ _ => True) := by
  refine Outlines.leads_retryScan (P := lifecycle) url
    (N := fun _ q => q = start .retryScan) (R := fun insts => Holds .loop insts)
    (fun q hq _ _ => ⟨q, by rw [hq]; rfl, hq⟩) ?_ ?_
  · rintro now q rfl ans _
    refine ⟨(start .retryScan).afterList ans, rfl, ?_⟩
    cases ans with
    | error e => trivial
    | ok insts =>
      refine ⟨rfl, rfl, ?_⟩
      intro i hi
      exact List.mem_map_of_mem hi
  intro insts
  refine (retries_course.retryInstances url (fun _ _ _ h => h.tail) insts ?_).mono
    (fun _ h => h) (fun _ _ _ => trivial)
  intro i hi q hq
  exact ⟨hq.afterGet, hq.role, List.forall_mem_cons.mpr ⟨hq.held i hi, hq.held⟩⟩

/-! ## Reports and cancels. -/

section Reports

variable {role : Role}

variable {url : String} {inst : TaskInstance}

theorem leads_createRetry {task : Task} :
    Leads lifecycle (fun q => Holds role [] q ∧ q.mayCreate = true)
      (Runtime.createRetry url task inst) (fun _ _ => True) := by
  have hnow : Stays lifecycle (fun q => Holds role [] q ∧ q.mayCreate = true) timeNow :=
    fun q hq ans _ => ⟨q, next_of_isTask hq.1.afterGet (.memory .now) trivial ans, hq⟩
  have hretries : (course role []).Retries := retries_course
  refine Outlines.leads_createRetry (P := lifecycle) hnow ?_ ?_
  · intro retry delay _ _
    exact Outlines.leads_retryLater hnow (fun _ => (leads_createInstance rfl).mono (fun _ h => h)
      (fun _ _ _ => trivial))
  intro retry hretry
  exact (hretries.retryNow url (leads_createInstance (by rw [hretry.status]; rfl)) leads_wait
    (fun _ _ _ _ h => h.tail)).mono (fun _ h => h) (fun _ _ _ => trivial)

theorem leads_retryIfNeeded (url : String) (inst : TaskInstance) (req : TaskStatusReportRequest) :
    Leads lifecycle
      (fun q => Holds role [] q ∧ (isRetryableStatus req.status = true → q.mayCreate = true))
      (Runtime.retryIfNeeded url inst req) (fun _ _ => True) := by
  refine leads_retryIfNeeded_of_keeps (P := lifecycle) (fun _ _ => trivial) ?_ ?_
  · exact fun op hop q hq ans _ => ⟨q, next_of_isTask hq.1.afterGet op hop ans, hq⟩
  · intro hretryable task
    exact (leads_createRetry).mono (fun _ h => ⟨h.1, h.2 hretryable⟩) (fun _ _ h => h)

/-- After the status is stored. -/
structure Stored (role : Role) (req : TaskStatusReportRequest) (q : Position) : Prop where
  holds : Holds role [] q
  mayRelease : q.mayRelease = true
  mayCreate : isRetryableStatus req.status = true → q.mayCreate = true

theorem leads_settle
    {req : TaskStatusReportRequest} :
    Leads lifecycle (Stored role req) (Runtime.settle url inst req) (fun _ _ => True) := by
  refine Outlines.leads_settle (P := lifecycle)
    (L := fun _ q => q.afterGet = true ∧ Stored role req q.moved) (fun _ _ h => ⟨h.1, h.3⟩) ?_ ?_
    (leads_retryIfNeeded url inst req)
  · intro _ q hq ans _
    refine ⟨q.afterGetWorker ans, rfl, ?_⟩
    have hmoved : q.moved = q := moved_of_not_afterGet hq.holds.afterGet
    cases ans with
    | error e =>
      show Holds role [] q.moved ∧ _
      rw [hmoved]
      exact ⟨hq.holds, hq.mayCreate⟩
    | ok worker =>
      refine ⟨rfl, ?_⟩
      show Stored role req q.moved
      rw [hmoved]
      exact hq
  · rintro w q ⟨hget, hq⟩ ans _
    refine ⟨{ q.moved with released := true }, ?_, ?_⟩
    · show (if q.afterGet then _ else _) = _
      rw [if_pos hget]
      exact if_pos hq.mayRelease
    · cases ans with
      | error e => trivial
      | ok u => exact ⟨⟨rfl, hq.holds.role, by simp⟩, hq.mayCreate⟩

end Reports

theorem next_getInstanceByScheduleID {q : Position} (hq : q.afterGet = false) (hheld : q.held = [])
    (sid : String) (ans : Except Err TaskInstance) :
    lifecycle.next q (.inst (.getInstanceByScheduleID sid)) ans = some (q.afterRead sid ans) := by
  show q.moved.onInstance (.getInstanceByScheduleID sid) ans = _
  rw [moved_of_not_afterGet hq]
  exact if_pos hheld

theorem afterRead_of_unfinished (q : Position) (sid : String) {i : TaskInstance}
    (hi : isTerminalStatus i.status = false) :
    q.afterRead sid (.ok i) = { q with held := [(i.id, sid)] } := by
  simp [Position.afterRead, hi]

theorem stored_afterResult (req : TaskStatusReportRequest) (id : Int) :
    Stored (roleOf (.reportStatus req)) req
      (({ start (.reportStatus req) with held := [(id, req.scheduleInstanceID)] } :
        Position).afterResult req.scheduleInstanceID req.status (.ok ())) := by
  refine ⟨⟨afterResult_afterGet, afterResult_role, by simp⟩, ?_, ?_⟩
  · by_cases hretry : isRetryableStatus req.status = true
    · have hfinal := isTerminalStatus_of_isRetryableStatus hretry
      simp [Position.afterResult, hfinal, Position.settle, Position.mayRelease, start, roleOf,
        hretry]
    · simp [Position.mayRelease, start, roleOf, hretry]
  · intro hretry
    have hfinal := isTerminalStatus_of_isRetryableStatus hretry
    simp [Position.afterResult, hfinal, Position.settle, Position.mayCreate, start, roleOf, hretry]

theorem leads_reportStatus {req : TaskStatusReportRequest} :
    Leads lifecycle (fun q => q = start (.reportStatus req))
      (Runtime.reportStatus url req) (fun _ _ => True) := by
  refine Outlines.leads_reportStatus (P := lifecycle) (R := fun inst q => q
      = { start (.reportStatus req) with held := [(inst.id, req.scheduleInstanceID)] })
    (T := fun _ => Stored (roleOf (.reportStatus req)) req) (fun _ _ => trivial) ?_ ?_ ?_ ?_
    (fun _ _ _ _ => trivial) (fun inst _ => leads_settle)
  · rintro q rfl ans _
    refine ⟨_, next_getInstanceByScheduleID rfl rfl _ ans, ?_⟩
    cases ans with
    | error e => trivial
    | ok inst => exact ⟨fun _ => trivial, fun hopen => afterRead_of_unfinished _ _ hopen⟩
  · rintro inst q rfl ans _
    refine ⟨_, next_updateInstanceResult rfl List.mem_cons_self, ?_⟩
    cases ans with
    | error e => trivial
    | ok u => exact stored_afterResult req inst.id
  · exact fun _ _ _ q hq _ _ =>
      ⟨q, congrArg some (moved_of_not_afterGet hq.holds.afterGet), hq⟩
  · exact fun _ _ op hop q hq ans _ => ⟨q, next_of_isTask hq.holds.afterGet op hop ans, hq⟩

theorem follows_cancelOnWorker (inst : TaskInstance) (sid : String) {q : Position}
    (hq : q.afterGet = false) :
    Follows lifecycle (fun q' _ => q' = q) q (Runtime.cancelOnWorker inst sid) := by
  unfold Runtime.cancelOnWorker
  split
  · refine follows_perform q.afterGetWorker (fun ans => rfl) ?_
    intro ans
    cases ans with
    | error e => exact moved_of_not_afterGet hq
    | ok worker =>
      refine follows_perform (fun _ => q.moved) (fun ans => rfl) ?_
      intro _
      exact moved_of_not_afterGet hq
  · rfl

/-- **`CancelInstance` follows the protocol** and settles its instance. -/
theorem follows_cancelInstance (sid : String) :
    Follows lifecycle (post (.cancelInstance sid)) (start (.cancelInstance sid))
      (Runtime.cancelInstance sid) := by
  refine follows_perform _ (next_getInstanceByScheduleID rfl rfl _) ?_
  intro ans
  cases ans with
  | error e => trivial
  | ok inst =>
  show Follows lifecycle _ _ (if isTerminalStatus inst.status then _ else _)
  split
  · trivial
  next hopen =>
    rw [afterRead_of_unfinished _ _ (by simpa using hopen)]
    apply follows_bind
    refine (follows_cancelOnWorker inst sid rfl).mono ?_
    intro q' _ hq'
    subst hq'
    intro ans _
    refine ⟨_, next_updateInstanceResult rfl List.mem_cons_self, ?_⟩
    cases ans with
    | error e => trivial
    | ok u => exact .head _

/-! ## The four operations. -/

def isWriter : Job → Bool
  | .handleTask _ | .retryScan | .reportStatus _ | .cancelInstance _ => true
  | _ => false

theorem follows_writer (url : String) {j : Job} (hj : isWriter j = true) :
    Follows lifecycle (post j) (start j) (body url j) := by
  cases j with
  | handleTask task =>
    exact (triggers_course.handleTask fails_course url task _
      ⟨rfl, rfl, by simp⟩).mono (fun _ _ _ => trivial)
  | retryScan => exact follows_done (leads_retryScan _ rfl)
  | reportStatus req => exact leads_reportStatus _ rfl
  | cancelInstance sid => exact follows_cancelInstance sid
  | _ => simp [isWriter] at hj

end AiScheduler.Lifecycle
