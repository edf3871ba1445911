/-
  **HOW THE OPERATIONS TAKE AND GIVE UP PLACES ON A WORKER.**

  A `Pick` takes a PLACE for the instance about to be dispatched; the worker turns it into a SEAT,
  kept until the final report releases the worker. Pick, heartbeat and release are WINDOWS, closed
  at every yield.
-/
import AiScheduler.Lib.Blocks
import AiScheduler.Proofs.Outlines

namespace AiScheduler.Capacity

open Lib Prog Outlines

/-! ## Positions. -/

/-- What an operation is. -/
inductive Role where
  /-- A scheduler operation that dispatches whatever `UpdateInstanceDispatch`
  has answered. -/
  | trigger
  /-- The retry loop, which gives the place back when it has failed. -/
  | retryLoop
  /-- An execution on a worker, with its reports and the retries they create. -/
  | execution
  | heartbeat
  | register
  deriving DecidableEq

/-- A read-modify-write of a worker row. -/
inductive Window where
  | closed
  /-- `Pick` has read these rows. -/
  | listed (all : List WorkerNode)
  /-- `Pick` has stored `w`. -/
  | picked (w : WorkerNode)
  /-- A heartbeat has read this worker's running counter. -/
  | counted (workerID : String) (n : Int)
  /-- … and the worker's row. -/
  | beating (w : WorkerNode) (n : Int)
  /-- A final report has read its worker's row. -/
  | releasing (workerID : String) (w : WorkerNode)

def Window.isClosed : Window → Bool
  | .closed => true
  | _ => false

theorem Window.eq_closed {window : Window} (h : window.isClosed = true) : window = .closed := by
  cases window with
  | closed => rfl
  | _ => simp [Window.isClosed] at h

/-- The execution of a job on its worker. -/
inductive Seat where
  | absent
  /-- Taken up, not yet counted as running. -/
  | received (workerID : String)
  | started (workerID : String)
  /-- Finished, not yet reported. -/
  | finished (workerID : String)
  /-- Reported, still counted as running. -/
  | released (workerID : String)
  deriving DecidableEq

/-- Counted as running by the worker. -/
def Seat.counted (workerID : String) : Seat → Nat
  | .started W | .finished W | .released W => if W = workerID then 1 else 0
  | _ => 0

/-- Charged to the worker's load. -/
def Seat.charge (workerID : String) : Seat → Nat
  | .received W | .started W | .finished W => if W = workerID then 1 else 0
  | _ => 0

def Seat.isReceived : Seat → Bool
  | .received _ => true
  | _ => false

/-- The ghost position of an operation. -/
structure Position where
  role : Role
  window : Window := .closed
  /-- The worker it has picked for its next dispatch. -/
  place : Option String := none
  seat : Seat := .absent

namespace Position

/-- No window open, no message half taken up. -/
def atRest (q : Position) : Bool := q.window.isClosed && !q.seat.isReceived

def isFree (q : Position) : Bool := q.atRest && q.place.isNone

def charge (workerID : String) (q : Position) : Nat :=
  (if q.place = some workerID then 1 else 0) + q.seat.charge workerID

/-! ## The protocol. -/

def afterList (q : Position) (labels : Labels) : Except Err (List WorkerNode) → Position
  | .ok all => if Router.filterByLabels all labels = [] then q else { q with window := .listed all }
  | .error _ => q

def afterReserve (q : Position) (v : WorkerNode) : Except Err Unit → Position
  | .ok _ => { q with window := .picked v, place := some v.id }
  | .error _ => { q with window := .closed }

def afterCount (q : Position) (workerID : String) (n : Int) : Position :=
  if Workers.isBlank workerID then q else { q with window := .counted workerID n }

def afterBeat (q : Position) (n : Int) : Except Err WorkerNode → Position
  | .ok w => { q with window := .beating w n }
  | .error _ => { q with window := .closed }

def afterFinish (q : Position) (workerID : String) : Except Err WorkerNode → Position
  | .ok w => { q with window := .releasing workerID w }
  | .error _ => { q with seat := .released workerID }

def onWorker (q : Position) : (c : WorkerCall) → Except Err c.Result → Option Position
  | .listAvailableWorkers opts, ans =>
    if q.isFree then some (q.afterList opts.labels ans) else none
  | .upsertWorker v, ans =>
    match q.window with
    | .listed all =>
      if all.any (fun best => v = { best with currentLoad := best.currentLoad + 1 }) then
        some (q.afterReserve v ans)
      else none
    | .picked w =>
      if v = Router.released w then some { q with window := .closed, place := none } else none
    | .beating w n =>
      if v.id = w.id ∧ v.currentLoad = n ∧ v.maxConcurrency = w.maxConcurrency then
        some { q with window := .closed }
      else none
    | .releasing workerID w =>
      if v = Router.released w then
        some { q with window := .closed, seat := .released workerID }
      else none
    | .closed =>
      if q.role = .register ∧ q.place = none ∧ q.seat = .absent ∧ v.currentLoad = 0
          ∧ 0 ≤ v.maxConcurrency then some q
      else none
    | .counted _ _ => none
  | .getWorker id, ans =>
    match q.window, q.seat with
    | .counted workerID n, _ => if id = workerID then some (q.afterBeat n ans) else none
    | .closed, .finished workerID =>
      if id = workerID then some (q.afterFinish workerID ans) else none
    | .closed, _ => some q
    | _, _ => none
  | .listStaleWorkers _, _ => some q

/-- After `UpdateInstanceDispatch`: the window closes, unless the place is given back. -/
def afterMark (q : Position) : Except Err Unit → Position
  | .ok _ => { q with window := .closed }
  | .error _ => if q.role = .trigger then { q with window := .closed } else q

def onNode (q : Position) : (c : NodeCall) → c.Ans → Option Position
  | .dispatch v _, _ =>
    if q.atRest ∧ q.place = some v.id then some { q with place := none } else none
  | .receive workerID _, ans =>
    if q.isFree ∧ q.seat = .absent then
      some (if ans then { q with seat := .received workerID } else q)
    else none
  | .isDuplicate workerID _, ans =>
    if q.window.isClosed ∧ q.seat = .received workerID then
      some (if ans then { q with seat := .absent } else q)
    else none
  | .addRunning workerID delta, _ =>
    if q.window.isClosed ∧ q.seat = .received workerID ∧ delta = 1 then
      some { q with seat := .started workerID }
    else if q.window.isClosed ∧ (q.seat = .finished workerID ∨ q.seat = .released workerID)
        ∧ delta = -1 then some { q with seat := .absent }
    else none
  | .runningTasks workerID, n =>
    if q.role = .heartbeat ∧ q.isFree ∧ q.seat = .absent then
      some (q.afterCount workerID n) else none
  | .execute workerID _, _ =>
    if q.isFree ∧ q.seat = .started workerID then some { q with seat := .finished workerID }
    else none
  | .cancelDispatch _ _, _ => some q

def next (q : Position) : (op : Call) → op.Ans → Option Position
  | .worker c, ans => q.onWorker c ans
  | .node c, ans => q.onNode c ans
  | .inst (.updateInstanceDispatch _ workerID _), ans =>
    match q.window with
    | .picked w => if workerID = w.id then some (q.afterMark ans) else none
    | _ => none
  | .inst (.getInstanceByScheduleID _), _ => if q.isFree then some q else none
  | _, _ => some q

def admits (_ : Position) : (op : Call) → op.Ans → Prop
  | .node (.dispatch _ _), ans => ans = .ok ()
  | _, _ => True

end Position

abbrev seating : Protocol System where
  State := Position
  next := Position.next
  admits := Position.admits

def roleOf : Job → Role
  | .retryScan => .retryLoop
  | .execute _ _ => .execution
  | .heartbeat _ => .heartbeat
  | .registerWorker _ => .register
  | _ => .trigger

def start (j : Job) : Position := { role := roleOf j }

def post (_ : Job) (q : Position) (_ : Except Err Unit) : Prop := q.isFree = true

/-- The steps begin at a `Pick`, a delivery, a start, a finish or a report. -/
def isYield : Call → Bool
  | .worker (.listAvailableWorkers _) => true
  | .node (.dispatch _ _) => true
  | .node (.receive _ _) => true
  | .node (.execute _ _) => true
  | .inst (.getInstanceByScheduleID _) => true
  | _ => false

namespace Position

variable {q : Position}

theorem atRest_of_isFree (h : q.isFree = true) : q.atRest = true :=
  ((Bool.and_eq_true _ _).mp h).1

theorem place_of_isFree (h : q.isFree = true) : q.place = none :=
  Option.isNone_iff_eq_none.mp ((Bool.and_eq_true _ _).mp h).2

theorem at_yield {op : Call} (hop : isYield op = true)
    (h : ∀ ans, seating.admits q op ans → ∃ q', seating.next q op ans = some q') :
    q.isFree = true ∨ ∃ v req, op = .node (.dispatch v req) ∧ q.atRest = true
      ∧ q.place = some v.id := by
  unfold isYield at hop
  split at hop
  · have hnext := h (.ok []) trivial
    simp only [next, onWorker] at hnext
    grind
  · have hnext := h (.ok ()) rfl
    simp only [next, onNode] at hnext
    grind
  · have hnext := h true trivial
    simp only [next, onNode] at hnext
    grind
  · have hnext := h (.succeeded "") trivial
    simp only [next, onNode] at hnext
    grind
  · have hnext := h (.error .noAvailableWorker) trivial
    simp only [next] at hnext
    grind
  · cases hop

end Position

theorem discipline : Discipline seating post start isYield (fun q => q.atRest = true) where
  start := fun _ => rfl
  post := fun _ _ _ h => Position.atRest_of_isFree h
  yields := by
    intro q op hop h
    rcases Position.at_yield hop h with hfree | ⟨_, _, _, hrest, _⟩
    · exact Position.atRest_of_isFree hfree
    · exact hrest

/-! ## Picking and dispatching. -/

abbrev ready (role : Role) (seat : Seat) : Position := { role, seat }

abbrev holding (role : Role) (seat : Seat) (w : WorkerNode) : Position :=
  { role, seat, window := .picked w, place := some w.id }

abbrev dispatching (role : Role) (seat : Seat) (w : WorkerNode) : Position :=
  { role, seat, place := some w.id }

theorem next_of_isTask (q : Position) :
    ∀ op : Call, Parts.IsTask op → ∀ ans, seating.next q op ans = some q :=
  Parts.forall_isTask (fun _ _ => rfl) (fun _ => rfl)

theorem next_of_isAside (q : Position) (op : Call) (h : IsAside op) (ans : op.Ans) :
    seating.next q op ans = some q := by
  unfold IsAside at h
  split at h
  · rfl
  · rfl
  · rfl
  · rfl
  · exact h.elim

/-- Picking takes a place, an accepted dispatch passes it on, a release gives it back. -/
def course (role : Role) (seat : Seat) : Outlines.Course seating where
  rest q := q = ready role seat
  created _ q := q = ready role seat
  declined _ _ q := q = ready role seat
  picked _ w q := q = holding role seat w
  timed _ w _ q := q = holding role seat w
  marked _ w q := q = dispatching role seat w
  failed _ _ _ := False
  cleaned w q := q = holding role seat w

section Picking

variable {role : Role} {seat : Seat}

theorem isFree_ready (hseat : seat.isReceived = false) : (ready role seat).isFree = true := by
  simp [Position.isFree, Position.atRest, Window.isClosed, hseat]

theorem leads_pick (opts : SelectOptions) (hseat : seat.isReceived = false) :
    Leads seating (fun q => q = ready role seat) (Router.pick opts)
      (Either (fun _ q => q = ready role seat) (fun w q => q = holding role seat w)) := by
  refine Outlines.leads_pick (P := seating)
    (L := fun all q => q = { role, seat, window := .listed all }) opts ?_ ?_ ?_
  · rintro q rfl ans _
    refine ⟨(ready role seat).afterList opts.labels ans, if_pos (isFree_ready hseat), ?_⟩
    cases ans with
    | error e => rfl
    | ok all => exact ⟨fun h => if_pos h, fun h => if_neg h⟩
  · exact fun _ q hq _ _ => ⟨q, rfl, hq⟩
  -- the choice is one of the rows read
  rintro all best hbest q rfl ans _
  refine ⟨_, if_pos (List.any_eq_true.mpr ⟨best, hbest, by simp⟩), ?_⟩
  cases ans with
  | error e | ok u => rfl

theorem dispatches_course (hseat : seat.isReceived = false) : (course role seat).Dispatches where
  aside := Protocol.keeps_eq (next_of_isAside _)
  pick := fun _ opts => leads_pick opts hseat
  now := fun _ _ q hq _ _ => ⟨q, rfl, hq⟩
  send := by
    rintro i w req _ q rfl ans hans
    have hok : ans = .ok () := hans
    subst hok
    refine ⟨ready role seat, if_pos ⟨?_, rfl⟩, rfl⟩
    simp [Position.atRest, Window.isClosed, hseat]
  release := by
    rintro w q rfl ans _
    exact ⟨ready role seat, if_pos rfl, rfl⟩

theorem triggers_course : (course .trigger .absent).Triggers where
  toDispatches := dispatches_course rfl
  create := fun _ _ q hq ans _ => ⟨q, rfl, Either.same hq ans⟩
  drop := fun _ _ _ h => h
  mark := by
    rintro i w time q rfl ans _
    refine ⟨_, if_pos rfl, ?_⟩
    cases ans with
    | error e | ok u => rfl

theorem fails_course : (course role seat).Fails := fun _ _ _ _ _ h => h.elim

theorem retries_course (hrole : role ≠ .trigger) (hseat : seat.isReceived = false) :
    (course role seat).Retries where
  toDispatches := dispatches_course hseat
  mark := by
    rintro i w time q rfl ans _
    refine ⟨_, if_pos rfl, ?_⟩
    cases ans with
    | error e => exact if_neg hrole
    | ok u => rfl
  wait := fun _ _ _ h => h.elim

end Picking

abbrev Back (role : Role) (seat : Seat) {α : Type} (q : Position) (_ : α) : Prop :=
  q = ready role seat

/-! ## Executions. -/

section Executions

variable {seat : Seat}

variable {url workerID : String} {inst : TaskInstance} {req : TaskStatusReportRequest}

theorem leads_retryIfNeeded (hseat : seat.isReceived = false) :
    Stays seating (fun q => q = ready .execution seat) (Runtime.retryIfNeeded url inst req) := by
  have hretries : (course .execution seat).Retries := retries_course (by simp) hseat
  refine leads_retryIfNeeded_of_keeps (P := seating) (fun _ h => h)
    (Protocol.keeps_eq (next_of_isTask _)) ?_
  intro _ task
  refine leads_createRetry (P := seating) hretries.timeNow ?_ ?_
  · intro retry delay _ _
    exact leads_retryLater hretries.timeNow (fun _ q hq _ _ => ⟨q, rfl, hq⟩)
  · intro retry _
    exact hretries.retryNow url (fun q hq ans _ => ⟨q, rfl, Either.same hq ans⟩)
      (fun _ q hq _ _ => ⟨q, rfl, hq⟩) (fun _ _ _ _ h => h)

/-- Finished and then released, or never released. -/
def Reported (workerID : String) {α : Type} (q : Position) (_ : α) : Prop :=
  q = ready .execution (.finished workerID) ∨ q = ready .execution (.released workerID)

theorem leads_settle :
    Leads seating (fun q => q = ready .execution (.finished req.workerID))
      (Runtime.settle url inst req) (Reported req.workerID) := by
  refine Outlines.leads_settle (P := seating) (R := fun q => Reported req.workerID q ())
    (L := fun w q => q = { role := .execution, seat := .finished req.workerID
                           window := .releasing req.workerID w }) ?_ ?_ ?_ ?_
  · exact fun _ _ h => .inl h
  · rintro _ q rfl ans _
    refine ⟨_, if_pos rfl, ?_⟩
    cases ans with
    | error e => exact .inr rfl
    | ok w => rfl
  · rintro w q rfl ans _
    exact ⟨ready .execution (.released req.workerID), if_pos rfl, Either.same (.inr rfl) ans⟩
  · rintro q (rfl | rfl)
    · exact (leads_retryIfNeeded rfl _ rfl).mono (fun _ _ h => .inl h)
    · exact (leads_retryIfNeeded rfl _ rfl).mono (fun _ _ h => .inr h)

theorem leads_report {B : Position → Prop} (url : String)
    (req : TaskStatusReportRequest) (hseat : seat.isReceived = false)
    (hB : B (ready .execution seat)) (hsettle : ∀ inst, req.status ≠ .running →
      Leads seating (fun q => q = ready .execution seat)
        (Runtime.settle url inst req) (fun q _ => B q)) :
    Leads seating (fun q => q = ready .execution seat)
      (Runtime.reportStatus url req) (fun q _ => B q) := by
  refine leads_reportStatus (P := seating) (R := fun _ q => q = ready .execution seat)
    (T := fun _ q => q = ready .execution seat) ?_ ?_ ?_ ?_ ?_ ?_ hsettle
  · rintro q rfl
    exact hB
  · rintro q rfl ans _
    refine ⟨_, if_pos (isFree_ready hseat), ?_⟩
    cases ans with
    | error e => exact hB
    | ok inst => exact ⟨fun _ => hB, fun _ => rfl⟩
  · rintro inst q rfl ans _
    refine ⟨_, rfl, ?_⟩
    cases ans with
    | error e => exact hB
    | ok u => rfl
  · exact fun _ _ _ q hq _ _ => ⟨q, rfl, hq⟩
  · exact fun _ _ => Protocol.keeps_eq (next_of_isTask _)
  · rintro inst q _ rfl
    exact hB

theorem finalReport_workerID (workerID : String) (req : ExecuteTaskRequest)
    (outcome : ExecutionOutcome) (startedAt finishedAt : Int) :
    (Workers.finalReport workerID req outcome startedAt finishedAt).workerID = workerID := by
  cases outcome with
  | succeeded output | deadlineExceeded message | failed message => rfl

theorem follows_runTask {req : ExecuteTaskRequest} :
    Follows seating (Back .execution .absent) (ready .execution (.received workerID))
      (Workers.runTask url workerID req) := by
  refine follows_perform _ (fun _ => if_pos ⟨rfl, rfl, rfl⟩) ?_
  intro _
  -- ===== started =====
  apply follows_bind
  refine (leads_report (B := fun q => q = ready .execution (.started workerID)) url _
    rfl rfl (fun _ h => absurd rfl h) _ rfl).mono ?_
  intro q' _ hq'
  subst hq'
  refine follows_perform_idle (fun _ => rfl) ?_
  intro startedAt
  refine follows_perform _ (fun _ => if_pos ⟨isFree_ready rfl, rfl⟩) ?_
  intro outcome
  -- ===== finished =====
  refine follows_perform_idle (fun _ => rfl) ?_
  intro finishedAt
  have hreport := leads_report url
    (Workers.finalReport workerID req outcome startedAt finishedAt) rfl (.inl rfl)
    (fun inst _ => leads_settle) _ rfl
  rw [finalReport_workerID] at hreport
  apply follows_bind
  refine hreport.mono ?_
  intro q' _ hq'
  -- ===== reported =====
  refine follows_perform (fun _ => ready .execution .absent) ?_ (fun _ => rfl)
  intro _
  show Position.onNode q' (.addRunning workerID (-1)) () = _
  rcases hq' with rfl | rfl <;> simp [Position.onNode, Window.isClosed]

theorem follows_run {req : ExecuteTaskRequest} :
    Follows seating (Back .execution .absent) (ready .execution .absent)
      (Workers.run url workerID req) := by
  refine follows_perform (fun there => if there then ready .execution (.received workerID)
    else ready .execution .absent) (fun _ => rfl) ?_
  intro there
  cases there with
  | false => rfl
  | true =>
  refine follows_perform (fun duplicate => if duplicate then ready .execution .absent
    else ready .execution (.received workerID)) (fun _ => if_pos ⟨rfl, rfl⟩) ?_
  intro duplicate
  cases duplicate with
  | true => rfl
  | false => exact follows_runTask

end Executions

/-! ## Heartbeats and registrations. -/

theorem calls_heartbeatTime (unixMilli : Int) :
    Calls Parts.IsTask (Workers.heartbeatTime unixMilli) := by
  unfold Workers.heartbeatTime
  split
  · exact ⟨trivial, fun _ => trivial⟩
  · trivial

theorem follows_heartbeat (workerID : String) :
    Follows seating (Back .heartbeat .absent) (ready .heartbeat .absent)
      (Workers.sendHeartbeat workerID) := by
  refine follows_perform (fun n => (ready .heartbeat .absent).afterCount workerID n)
    (fun _ => rfl) ?_
  intro running
  refine follows_perform_idle (fun _ => rfl) ?_
  intro now
  show Follows seating _ (if Workers.isBlank workerID then _ else _)
    (if Workers.isBlank workerID then _ else _)
  split
  · rfl
  refine follows_perform _ (fun _ => if_pos rfl) ?_
  intro ans
  cases ans with
  | error e => rfl
  | ok w =>
  refine follows_bind_idle (next_of_isTask _) (calls_heartbeatTime _) ?_
  intro at_
  refine follows_perform (fun _ => ready .heartbeat .absent) ?_ ?_
  · -- the row is written back with the counter as its load
    intro ans
    refine if_pos ⟨rfl, ?_, rfl⟩
    simp [Workers.heartbeatLoad]
  intro ans
  cases ans with
  | error e => rfl
  | ok u => exact fun _ _ => ⟨_, rfl, rfl⟩

theorem follows_registerWorker (req : Workers.WorkerRegistrationRequest) :
    Follows seating (Back .register .absent) (ready .register .absent)
      (Workers.registerWorker req) := by
  unfold Workers.registerWorker
  split
  · rfl
  split
  · rfl
  refine follows_perform_idle (fun _ => rfl) ?_
  intro now
  refine follows_perform_idle ?_ ?_
  · intro ans
    refine if_pos ⟨rfl, rfl, rfl, rfl, ?_⟩
    show 0 ≤ if req.maxConcurrency ≤ 0 then (100 : Int) else req.maxConcurrency
    split <;> omega
  intro ans
  cases ans with
  | error e => rfl
  | ok u => exact fun _ _ => ⟨_, rfl, rfl⟩

/-! ## The operations in question. -/

def takesPlaces : Job → Bool
  | .handleTask _ | .onTrigger _ | .retryScan | .publish _ => true
  | .execute _ _ | .heartbeat _ | .registerWorker _ => true
  | _ => false

theorem leads_retryScan {url : String} :
    Stays seating (fun q => q = ready .retryLoop .absent) (RetryLoop.scan url) := by
  have hretries : (course .retryLoop .absent).Retries := retries_course (by simp) rfl
  refine Outlines.leads_retryScan (P := seating) url
    (R := fun _ q => q = ready .retryLoop .absent) hretries.timeNow ?_ ?_
  · exact fun _ q hq ans _ => ⟨q, rfl, Either.same hq ans⟩
  · intro insts
    exact hretries.retryInstances url (fun _ _ _ h => h) insts (fun _ _ _ h => h)

theorem follows_body (url : String) {j : Job} (hj : takesPlaces j = true) :
    Follows seating (post j) (start j) (body url j) := by
  have hfree : ∀ {α : Type} {role : Role} {q : Position} (a : α), Back role .absent q a →
      q.isFree = true := by
    intro α role q _ hq
    rw [show q = _ from hq]
    rfl
  cases j with
  | handleTask task =>
    exact (triggers_course.handleTask fails_course url task _ rfl).mono (fun _ r h => hfree r h)
  | onTrigger taskID =>
    apply follows_bind
    exact (triggers_course.onTrigger fails_course url taskID _ rfl).mono (fun _ r h => hfree r h)
  | retryScan =>
    apply follows_bind
    exact (leads_retryScan _ rfl).mono (fun _ r h => hfree r h)
  | publish req =>
    apply follows_bind
    exact (triggers_course.publish (fun _ _ _ h => h.elim) req _ rfl).mono (fun _ r h => hfree r h)
  | execute workerID req =>
    apply follows_bind
    exact (follows_run).mono (fun _ r h => hfree r h)
  | heartbeat workerID =>
    apply follows_bind
    exact (follows_heartbeat workerID).mono (fun _ r h => hfree r h)
  | registerWorker req =>
    apply follows_bind
    exact (follows_registerWorker req).mono (fun _ r h => hfree r h)
  | _ => simp [takesPlaces] at hj

end AiScheduler.Capacity
