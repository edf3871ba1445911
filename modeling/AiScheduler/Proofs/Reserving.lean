/-
  **HOW THE OPERATIONS KEEP A WORKER'S LOAD.**

  A `Pick` raises the load of the worker and the caller then marks an instance dispatched on it; a
  clean-up and a report take an instance away and then lower the load. In between the operation is
  INDEBTED to that worker, and does not yield.
-/
import AiScheduler.Lib.Blocks
import AiScheduler.Proofs.Outlines

namespace AiScheduler.Load

open Lib Prog Outlines

/-! ## Phases. -/

def isActive (i : TaskInstance) : Bool := i.status = .dispatched ∨ i.status = .running

/-- What an operation does about its worker. -/
inductive Role where
  /-- The trigger loop: marks what it has created, cleans up after a failure. -/
  | trigger
  /-- The retry loop: marks what it has read, cleans up after a failure. -/
  | retryLoop
  /-- The event handler: marks what it has created, does NOT clean up. -/
  | publish
  /-- A report, and the retry it creates. -/
  | report (req : TaskStatusReportRequest)
  /-- A cancel. -/
  | cancel

/-- Where an operation stands. -/
inductive Phase where
  | idle
  /-- `Pick` has read these rows. -/
  | listed (all : List WorkerNode)
  /-- The row `w` is stored with its load raised. -/
  | reserved (w : WorkerNode)
  /-- The instance `id` is marked dispatched on `w`. -/
  | marked (id : Int) (w : WorkerNode)
  /-- Its dispatch has failed. -/
  | failed (id : Int) (sid : String) (w : WorkerNode)
  /-- The failed instance is taken away from `w`. -/
  | cleaned (w : WorkerNode)
  /-- The instance `sid` stands for was read, unfinished, as `i`. -/
  | read (sid : String) (i : TaskInstance)
  /-- A report has taken its instance away from this worker. -/
  | settled (workerID : String)
  /-- … and has read the worker's row. -/
  | loaded (w : WorkerNode)

/-- The worker whose load is one too high. -/
def Phase.debt : Phase → Option String
  | .reserved w | .cleaned w | .loaded w => some w.id
  | .settled workerID => some workerID
  | _ => none

/-- A phase in which other operations may go on. -/
def Phase.Rest : Phase → Prop
  | .idle | .marked _ _ => True
  | _ => False

/-- The ghost position of an operation. -/
structure Position where
  role : Role
  /-- Row id and schedule id of the instances it has read or created. -/
  held : List (Int × String) := []
  /-- The pending instance it has created and nobody else will mark. -/
  own : Option Int := none
  phase : Phase := .idle

namespace Position

/-! ## The protocol. -/

def afterCreate (q : Position) (status : InstanceStatus) : Except Err TaskInstance → Position
  | .ok i =>
    { q with
      held := (i.id, i.scheduleInstanceID) :: q.held
      own := if status = .pending then some i.id else q.own }
  | .error _ => q

def afterRead (q : Position) (sid : String) : Except Err TaskInstance → Position
  | .ok i => if isTerminalStatus i.status then q else { q with phase := .read sid i }
  | .error _ => q

def afterList (q : Position) : Except Err (List TaskInstance) → Position
  | .ok is => { q with held := is.map (fun i => (i.id, i.scheduleInstanceID)) ++ q.held }
  | .error _ => q

def afterDispatch (q : Position) (id : Int) (sid : String) (w : WorkerNode) :
    Except Err Unit → Position
  | .ok _ => { q with phase := .idle }
  | .error _ =>
    match q.role with
    | .publish => { q with phase := .idle }
    | _ => { q with phase := .failed id sid w }

/-- After a result: a report of another status than running takes `i` from its worker. -/
def afterResult (q : Position) (i : TaskInstance) (status : InstanceStatus) : Option Position :=
  match q.role with
  | .report _ =>
    if status = .dispatched then none
    else if status = .running then some { q with phase := .idle }
    else some { q with phase := .settled i.workerID }
  | .cancel => if status = .cancelled then some { q with phase := .idle } else none
  | _ => none

def onInstance (q : Position) : (c : InstanceCall) → Except Err c.Result → Option Position
  | .createInstance i, ans =>
    match q.phase with
    | .idle =>
      if i.status = .pending ∨ i.status = .retryWaiting then some (q.afterCreate i.status ans)
      else none
    | _ => none
  | .getInstanceByScheduleID sid, ans =>
    match q.phase with
    | .idle => some (q.afterRead sid ans)
    | _ => none
  | .listDueRetryInstances _ _, ans =>
    match q.phase with
    | .idle => some (q.afterList ans)
    | _ => none
  | .updateInstanceDispatch id workerID _, _ =>
    match q.phase, q.role with
    | .reserved w, .retryLoop =>
      if workerID = w.id ∧ id ∈ q.held.map Prod.fst then
        some { q with phase := .marked id w, own := none }
      else none
    | .reserved w, _ =>
      if workerID = w.id ∧ q.own = some id then
        some { q with phase := .marked id w, own := none }
      else none
    | _, _ => none
  | .updateInstanceStatus id status, _ =>
    match q.phase with
    | .idle =>
      if status = .retryWaiting ∧ q.own = some id then some { q with own := none } else none
    | .failed id' _ w =>
      if id = id' ∧ status = .retryWaiting then some { q with phase := .cleaned w, own := none }
      else none
    | _ => none
  | .updateInstanceResult sid status _ _, _ =>
    match q.phase with
    | .failed _ sid' w =>
      if sid = sid' ∧ status = .failed then some { q with phase := .cleaned w } else none
    | .read sid' i => if sid = sid' then q.afterResult i status else none
    | _ => none
  | _, _ => some q

def onWorker (q : Position) : (c : WorkerCall) → Except Err c.Result → Option Position
  | .listAvailableWorkers opts, ans =>
    match q.phase with
    | .idle =>
      match ans with
      | .ok all =>
        some (if Router.filterByLabels all opts.labels = [] then q
          else { q with phase := .listed all })
      | .error _ => some q
    | _ => none
  | .upsertWorker v, _ =>
    match q.phase with
    | .listed all =>
      if all.any (fun best => v = { best with currentLoad := best.currentLoad + 1 }) then
        some { q with phase := .reserved v }
      else none
    | .cleaned w => if v = Router.released w then some { q with phase := .idle } else none
    | .loaded w => if v = Router.released w then some { q with phase := .idle } else none
    | _ => none
  | .getWorker id, ans =>
    match q.phase with
    | .settled workerID =>
      if id = workerID then
        match ans with
        | .ok w => some { q with phase := .loaded w }
        | .error _ => some q
      else none
    | _ => some q
  | .listStaleWorkers _, _ => some q

def next (q : Position) : (op : Call) → op.Ans → Option Position
  | .inst c, ans => q.onInstance c ans
  | .worker c, ans => q.onWorker c ans
  | .node (.dispatch v req), ans =>
    match q.phase with
    | .marked id w =>
      if v = w ∧ (id, req.scheduleInstanceID) ∈ q.held then
        some (q.afterDispatch id req.scheduleInstanceID w ans)
      else none
    | _ => none
  | _, _ => some q

/-- Answers without a fault; a report takes effect only on an instance of the
worker that sends it. -/
def admits (q : Position) : (op : Call) → op.Ans → Prop
  | .inst (.updateInstanceDispatch id _ _), ans => id ∈ q.held.map Prod.fst → ans = .ok ()
  | .inst (.updateInstanceResult sid _ _ _), ans =>
    match q.phase, q.role with
    | .read sid' i, .report req =>
      sid = sid' → ans = .ok () ∧ i.workerID = req.workerID ∧ req.workerID ≠ ""
    | _, _ => True
  | .worker (.listAvailableWorkers _), ans => ∃ all, ans = .ok all
  | .worker (.upsertWorker _), ans => ans = .ok ()
  | .worker (.getWorker id), ans =>
    match q.phase with
    | .settled workerID => id = workerID → ∃ w, ans = .ok w
    | _ => True
  | _, _ => True

end Position

abbrev reserving : Protocol System where
  State := Position
  next := Position.next
  admits := Position.admits

def roleOf : Job → Role
  | .handleTask _ => .trigger
  | .retryScan => .retryLoop
  | .publish _ => .publish
  | .reportStatus req => .report req
  | _ => .cancel

def start (j : Job) : Position := { role := roleOf j }

def post (_ : Job) (q : Position) (_ : Except Err Unit) : Prop := q.phase.Rest

/-- Other operations may go on before a `Pick`, and before the outcome of a
dispatch. -/
def isYield : Call → Bool
  | .worker (.listAvailableWorkers _) => true
  | .node (.dispatch _ _) => true
  | _ => false

theorem discipline : Discipline reserving post start isYield (fun q => q.phase.Rest) where
  start := fun _ => trivial
  post := fun _ _ _ h => h
  yields := by
    intro q op hop hnext
    unfold isYield at hop
    split at hop
    · have h := hnext (.ok []) ⟨[], rfl⟩
      simp only [Position.next, Position.onWorker] at h
      grind [Phase.Rest]
    · have h := hnext (.ok ()) trivial
      simp only [Position.next] at h
      grind [Phase.Rest]
    · cases hop

/-! ## Calls one by one. -/

theorem next_of_isTask (q : Position) :
    ∀ op : Call, Parts.IsTask op → ∀ ans, reserving.next q op ans = some q :=
  Parts.forall_isTask (fun _ _ => rfl) (fun _ => rfl)

theorem next_of_isAside (q : Position) (op : Call) (h : IsAside op) (ans : op.Ans) :
    reserving.next q op ans = some q := by
  unfold IsAside at h
  split at h
  · rfl
  · rfl
  · rfl
  · rfl
  · exact h.elim

/-- In this phase, with these instances held. -/
structure At (role : Role) (insts : List TaskInstance) (ph : Phase) (q : Position) : Prop where
  phase : q.phase = ph
  role : q.role = role
  held : ∀ i ∈ insts, (i.id, i.scheduleInstanceID) ∈ q.held

def failure (role : Role) (i : TaskInstance) (w : WorkerNode) : Phase :=
  match role with
  | .publish => .idle
  | _ => .failed i.id i.scheduleInstanceID w

/-- The instance is its own, unless it is one the retry loop has read. -/
def Owns (q : Position) (i : TaskInstance) : Prop := q.role ≠ .retryLoop → q.own = some i.id

/-- The course of an instance to a worker, beside others that are held. -/
def course (role : Role) (insts : List TaskInstance) : Outlines.Course reserving where
  rest := At role insts .idle
  created i q := At role (i :: insts) .idle q ∧ Owns q i
  declined i e q := (At role (i :: insts) .idle q ∧ Owns q i) ∧ e = .noAvailableWorker
  picked i w q := At role (i :: insts) (.reserved w) q ∧ Owns q i
  timed i w _ q := At role (i :: insts) (.reserved w) q ∧ Owns q i
  marked i w := At role (i :: insts) (.marked i.id w)
  failed i w := At role insts (failure role i w)
  cleaned w := At role insts (.cleaned w)

section Phases

variable {role : Role} {insts : List TaskInstance} {ph : Phase} {q : Position} {w : WorkerNode}

theorem At.to (h : At role insts ph q) (ph' : Phase) :
    At role insts ph' { q with phase := ph' } := ⟨rfl, h.role, h.held⟩

theorem At.tail {i : TaskInstance} (h : At role (i :: insts) ph q) : At role insts ph q :=
  ⟨h.phase, h.role, fun j hj => h.held j (.tail _ hj)⟩

theorem At.rest (h : At role insts .idle q) : q.phase.Rest := by
  rw [h.phase]
  trivial

/-- **`Pick`** answers a reserved worker, or that there is none. -/
theorem leads_pick (opts : SelectOptions) (i : TaskInstance) :
    Leads reserving ((course role insts).created i) (Router.pick opts)
      (Either ((course role insts).declined i) ((course role insts).picked i)) := by
  refine Outlines.leads_pick (P := reserving)
    (L := fun all q => At role (i :: insts) (.listed all) q ∧ Owns q i) opts ?_ ?_ ?_
  · rintro q ⟨hq, hown⟩ ans ⟨all, rfl⟩
    refine ⟨if Router.filterByLabels all opts.labels = [] then q
      else { q with phase := .listed all }, ?_, ?_, ?_⟩
    · show q.onWorker (.listAvailableWorkers opts) (.ok all) = _
      unfold Position.onWorker
      simp only [hq.phase]
    · intro hnone
      rw [if_pos hnone]
      exact ⟨⟨hq, hown⟩, rfl⟩
    · intro hsome
      rw [if_neg hsome]
      exact ⟨hq.to _, hown⟩
  · exact fun _ q hq _ _ => ⟨q, rfl, hq⟩
  -- the choice is one of the rows read
  rintro all best hbest q ⟨hq, hown⟩ ans hans
  have hok : ans = .ok () := hans
  subst hok
  refine ⟨{ q with phase := .reserved { best with currentLoad := best.currentLoad + 1 } }, ?_,
    hq.to _, hown⟩
  show q.onWorker (.upsertWorker { best with currentLoad := best.currentLoad + 1 }) (.ok ()) = _
  unfold Position.onWorker
  simp only [hq.phase]
  exact if_pos (List.any_eq_true.mpr ⟨best, hbest, by simp⟩)

theorem leads_release {L : Phase} (hL : L = .cleaned w ∨ L = .loaded w) :
    Leads reserving (At role insts L) (Router.release w)
      (fun q ans => At role insts .idle q ∧ ans = .ok ()) := by
  intro q hq ans hans
  refine ⟨{ q with phase := .idle }, ?_, hq.to _, hans⟩
  show q.onWorker (.upsertWorker (Router.released w)) ans = _
  unfold Position.onWorker
  rcases hL with rfl | rfl
  · simp only [hq.phase]
    rfl
  · simp only [hq.phase]
    rfl

theorem afterDispatch_error {i : TaskInstance} (hrole : q.role = role) (e : Err) :
    q.afterDispatch i.id i.scheduleInstanceID w (.error e)
      = { q with phase := failure role i w } := by
  subst hrole
  unfold failure Position.afterDispatch
  cases q with
  | mk role held own phase =>
    cases role with
    | _ => rfl

theorem dispatches_course : (course role insts).Dispatches where
  aside := Protocol.keeps_of_idle next_of_isAside _
  pick := fun i opts => leads_pick opts i
  now := fun _ _ q hq _ _ => ⟨q, rfl, hq⟩
  send := by
    intro i w req hreq q hq ans _
    refine ⟨q.afterDispatch i.id i.scheduleInstanceID w ans, ?_, ?_⟩
    · show q.next (.node (.dispatch w req)) ans = _
      unfold Position.next
      simp only [hq.phase, hreq]
      exact if_pos ⟨trivial, hq.held i List.mem_cons_self⟩
    cases ans with
    | ok u => exact hq.tail.to .idle
    | error e =>
      rw [afterDispatch_error hq.role]
      exact hq.tail.to _
  release := fun w => (leads_release (.inl rfl)).mono (fun _ h => h) (fun _ _ h => h.1)

theorem leads_mark (i : TaskInstance) (w : WorkerNode) (time : Int) :
    Leads reserving ((course role insts).picked i w) (updateInstanceDispatch i.id w.id time)
      (fun q ans => At role (i :: insts) (.marked i.id w) q ∧ ans = .ok ()) := by
  rintro q ⟨hq, hown⟩ ans hans
  have hheld : i.id ∈ q.held.map Prod.fst := List.mem_map_of_mem (hq.held i List.mem_cons_self)
  refine ⟨{ q with phase := .marked i.id w, own := none }, ?_, ⟨rfl, hq.role, hq.held⟩, hans hheld⟩
  show q.onInstance (.updateInstanceDispatch i.id w.id time) ans = _
  unfold Position.onInstance
  simp only [hq.phase]
  cases hrole : q.role with
  | retryLoop => exact if_pos ⟨rfl, hheld⟩
  | _ => exact if_pos ⟨rfl, hown (by rw [hrole]; simp)⟩

theorem leads_createInstance {i : TaskInstance}
    (hi : i.status = .pending ∨ i.status = .retryWaiting) :
    Leads reserving (At role insts .idle) (createInstance i)
      (Either (fun _ => At role insts .idle) (fun stored q =>
        At role (stored :: insts) .idle q ∧ (i.status = .pending → Owns q stored))) := by
  intro q hq ans _
  refine ⟨q.afterCreate i.status ans, ?_, ?_⟩
  · show q.onInstance (.createInstance i) ans = _
    unfold Position.onInstance
    simp only [hq.phase]
    exact if_pos hi
  cases ans with
  | error e => exact hq
  | ok stored =>
    refine ⟨⟨hq.phase, hq.role, ?_⟩, fun hpending _ => if_pos hpending⟩
    intro j hj
    rcases List.mem_cons.mp hj with rfl | hj
    · exact .head _
    · exact .tail _ (hq.held j hj)

theorem leads_createPending {i : TaskInstance} (hi : i.status = .pending) :
    Leads reserving (At role insts .idle) (createInstance i)
      (Either (fun _ => (course role insts).rest) (course role insts).created) := by
  refine (leads_createInstance (.inl hi)).mono (fun _ h => h) ?_
  intro q ans h
  cases ans with
  | error e => exact h
  | ok stored => exact ⟨h.1, h.2 hi⟩

theorem triggers_course : (course role insts).Triggers where
  toDispatches := dispatches_course
  create := fun _ hi => leads_createPending hi.status
  drop := fun _ _ _ h => h.1.1.tail
  mark := fun i w time => (leads_mark i w time).mono (fun _ h => h) (fun _ _ h => h.1)

theorem fails_course : (course .trigger insts).Fails := by
  intro i w code msg q hq ans _
  refine ⟨{ q with phase := .cleaned w }, ?_, hq.to _⟩
  show q.onInstance (.updateInstanceResult i.scheduleInstanceID .failed code msg) ans = _
  unfold Position.onInstance
  simp only [show q.phase = .failed i.id i.scheduleInstanceID w from hq.phase]
  exact if_pos ⟨trivial, trivial⟩

theorem retries_course (hrole : ∀ i w, failure role i w = .failed i.id i.scheduleInstanceID w) :
    (course role insts).Retries where
  toDispatches := dispatches_course
  mark := by
    intro i w time
    refine (leads_mark i w time).mono (fun _ h => h) ?_
    rintro q ans ⟨hq, rfl⟩
    exact hq
  wait := by
    intro i w q hq ans _
    refine ⟨{ q with phase := .cleaned w, own := none }, ?_, rfl, hq.role, hq.held⟩
    show q.onInstance (.updateInstanceStatus i.id .retryWaiting) ans = _
    unfold Position.onInstance
    simp only [hq.phase.trans (hrole i w)]
    exact if_pos ⟨trivial, trivial⟩

end Phases

/-! ## The retry loop. -/

theorem leads_retryScan (url : String) :
    Leads reserving (At .retryLoop [] .idle) (RetryLoop.scan url) (fun q _ => q.phase.Rest) := by
  refine Outlines.leads_retryScan (P := reserving) url
    (N := fun _ => At .retryLoop [] .idle) (R := fun insts => At .retryLoop insts .idle)
    (fun q hq _ _ => ⟨q, rfl, hq⟩) ?_ ?_
  · intro now q hq ans _
    refine ⟨q.afterList ans, ?_, ?_⟩
    · show q.onInstance (.listDueRetryInstances now 100) ans = _
      unfold Position.onInstance
      simp only [hq.phase]
    cases ans with
    | error e => exact hq.rest
    | ok insts =>
      refine ⟨hq.phase, hq.role, ?_⟩
      intro i hi
      exact List.mem_append_left _ (List.mem_map_of_mem hi)
  intro insts
  refine ((retries_course (fun _ _ => rfl)).retryInstances url
    (fun _ _ _ h => h.1.1.tail) insts ?_).mono (fun _ h => h) (fun _ _ h => At.rest h)
  intro i hi q hq
  refine ⟨⟨hq.phase, hq.role, ?_⟩, fun h => absurd hq.role h⟩
  intro j hj
  rcases List.mem_cons.mp hj with rfl | hj
  · exact hq.held j hi
  · exact hq.held j hj

/-! ## Reports and cancels. -/

section Reports

variable {req : TaskStatusReportRequest}

theorem leads_createRetry (url : String) (task : Task) (inst : TaskInstance) :
    Stays reserving (At (.report req) [] .idle) (Runtime.createRetry url task inst) := by
  have hretries : (course (.report req) []).Retries := retries_course (fun _ _ => rfl)
  refine Outlines.leads_createRetry (P := reserving) hretries.timeNow ?_ ?_
  · intro retry delay _ _
    refine Outlines.leads_retryLater hretries.timeNow (fun _ =>
      (leads_createInstance (.inr rfl)).mono (fun _ h => h) ?_)
    intro q ans h
    cases ans with
    | error e => exact h
    | ok stored => exact h.1.tail
  intro retry hretry
  refine hretries.retryNow url (leads_createPending hretry.status) ?_
    (fun _ _ he _ h => absurd h.2 he)
  -- nobody free: the retry it owns waits
  rintro i q ⟨⟨hq, hown⟩, _⟩ ans _
  refine ⟨{ q with own := none }, ?_, hq.tail.phase, hq.role, hq.tail.held⟩
  show q.onInstance (.updateInstanceStatus i.id .retryWaiting) ans = _
  unfold Position.onInstance
  simp only [hq.phase]
  exact if_pos ⟨trivial, hown (by rw [hq.role]; simp)⟩

theorem leads_settle (url : String) (inst : TaskInstance) (hworker : req.workerID ≠ "") :
    Leads reserving (At (.report req) [] (.settled req.workerID))
      (Runtime.settle url inst req) (fun q _ => q.phase.Rest) := by
  refine Outlines.leads_settle (P := reserving) (L := fun w => At (.report req) [] (.loaded w))
    (R := At (.report req) [] .idle) (fun h => absurd h hworker) ?_ ?_ ?_
  · intro _ q hq ans hans
    have hans : q.admits (.worker (.getWorker req.workerID)) ans := hans
    unfold Position.admits at hans
    simp only [hq.phase] at hans
    obtain ⟨w, rfl⟩ := hans trivial
    refine ⟨{ q with phase := .loaded w }, ?_, hq.to _⟩
    show q.onWorker (.getWorker req.workerID) (.ok w) = _
    unfold Position.onWorker
    simp only [hq.phase]
    rfl
  · intro w
    refine (leads_release (.inr rfl)).mono (fun _ h => h) ?_
    rintro q ans ⟨hq, rfl⟩
    exact hq
  · exact (leads_retryIfNeeded_of_keeps (P := reserving)
      (B := At (.report req) [] .idle) (fun _ h => h) (Protocol.keeps_of_idle next_of_isTask _)
      (fun _ task => leads_createRetry url task inst)).mono (fun _ h => h)
      (fun _ _ h => h.rest)

theorem leads_read {role : Role} (sid : String) :
    Leads reserving (At role [] .idle) (getInstanceByScheduleID sid)
      (Either (fun _ q => q.phase.Rest) (fun inst q =>
        (isTerminalStatus inst.status = true → q.phase.Rest)
          ∧ (isTerminalStatus inst.status = false → At role [] (.read sid inst) q))) := by
  intro q hq ans _
  refine ⟨q.afterRead sid ans, ?_, ?_⟩
  · show q.onInstance (.getInstanceByScheduleID sid) ans = _
    unfold Position.onInstance
    simp only [hq.phase]
  cases ans with
  | error e => exact hq.rest
  | ok inst =>
  show (_ → (if _ then _ else _ : Position).phase.Rest) ∧ (_ → At _ _ _ (if _ then _ else _))
  refine ⟨fun h => ?_, fun h => ?_⟩
  · rw [if_pos h]
    exact hq.rest
  · rw [if_neg (by simp [h])]
    exact hq.to _

/-- **`ReportStatus` follows the protocol**, unless it reports `dispatched`. -/
theorem leads_reportStatus (url : String) (hreq : req.status ≠ .dispatched) :
    Leads reserving (At (.report req) [] .idle) (Runtime.reportStatus url req)
      (fun q _ => q.phase.Rest) := by
  refine Outlines.leads_reportStatus (P := reserving)
    (R := fun inst => At (.report req) [] (.read req.scheduleInstanceID inst))
    (T := fun _ q => req.workerID ≠ "" ∧ At (.report req) []
      (if req.status = .running then .idle else .settled req.workerID) q)
    (fun _ h => h.rest) (leads_read _) ?_ ?_ ?_ ?_ ?_
  · intro inst q hq ans hans
    have hans : q.admits (.inst (.updateInstanceResult req.scheduleInstanceID req.status
      req.errorCode req.errorMessage)) ans := hans
    simp only [Position.admits, hq.phase, hq.role] at hans
    obtain ⟨rfl, hsame, hworker⟩ := hans trivial
    refine ⟨{ q with phase := if req.status = .running then .idle else .settled req.workerID }, ?_,
      hworker, hq.to _⟩
    show q.onInstance (.updateInstanceResult req.scheduleInstanceID req.status req.errorCode
      req.errorMessage) (.ok ()) = _
    unfold Position.onInstance
    simp only [hq.phase, Position.afterResult, hq.role]
    rw [if_pos trivial, if_neg hreq, hsame]
    split <;> rfl
  · exact fun _ _ _ q hq _ _ => ⟨q, rfl, hq⟩
  · exact fun _ _ => Protocol.keeps_of_idle next_of_isTask _
  · rintro inst q hrun ⟨_, hq⟩
    rw [if_pos hrun] at hq
    exact hq.rest
  · rintro inst hrun q ⟨hworker, hq⟩
    rw [if_neg hrun] at hq
    exact leads_settle url inst hworker q hq

end Reports

theorem leads_cancelInstance (sid : String) :
    Leads reserving (At .cancel [] .idle) (Runtime.cancelInstance sid)
      (fun q _ => q.phase.Rest) := by
  refine leads_bind (leads_read sid) ?_
  intro ans
  cases ans with
  | error e => exact fun q hq => hq
  | ok inst =>
  rintro q ⟨hend, hopen⟩
  show Follows reserving _ q (if isTerminalStatus inst.status then _ else _)
  split
  next hterminal => exact hend hterminal
  next hterminal =>
    have hread : At .cancel [] (.read sid inst) q := hopen (by simpa using hterminal)
    have hkeeps : reserving.Keeps (At .cancel [] (.read sid inst)) Parts.IsCancelling := by
      intro op hop q hq ans _
      refine ⟨q, ?_, hq⟩
      cases hop with
      | getWorker id =>
        show q.onWorker (.getWorker id) ans = _
        unfold Position.onWorker
        simp only [hq.phase]
      | cancelDispatch w sid => rfl
    refine leads_bind (hkeeps.leads (Parts.calls_cancelOnWorker inst sid)) ?_ q hread
    intro _ q hq ans _
    refine ⟨{ q with phase := .idle }, ?_, trivial⟩
    show q.onInstance (.updateInstanceResult sid .cancelled "cancelled" "cancelled by user") ans = _
    unfold Position.onInstance
    simp only [hq.phase, Position.afterResult, hq.role]
    rw [if_pos trivial, if_pos trivial]

/-! ## The operations of the load. -/

def keepsLoad : Job → Bool
  | .handleTask _ | .retryScan | .publish _ | .cancelInstance _ => true
  | .reportStatus req => req.status ≠ .dispatched
  | _ => false

theorem at_start {j : Job} {role : Role} (h : roleOf j = role) : At role [] .idle (start j) :=
  ⟨rfl, h, fun _ hi => absurd hi (by simp)⟩

theorem follows_body (url : String) {j : Job} (hj : keepsLoad j = true) :
    Follows reserving (post j) (start j) (body url j) := by
  cases j with
  | handleTask task =>
    exact (triggers_course.handleTask fails_course url task _ (at_start rfl)).mono
      (fun _ _ h => At.rest h)
  | retryScan =>
    exact follows_done (leads_retryScan url _ (at_start rfl))
  | publish req =>
    have hcourse : (course .publish []).Triggers := triggers_course
    exact follows_outcome ((hcourse.publish (fun _ _ _ h => h) req _
      (at_start rfl)).mono (fun _ _ h => h.rest))
  | reportStatus req =>
    exact leads_reportStatus url (of_decide_eq_true hj) _ (at_start rfl)
  | cancelInstance sid => exact leads_cancelInstance sid _ (at_start rfl)
  | _ => simp [keepsLoad] at hj

end AiScheduler.Load
