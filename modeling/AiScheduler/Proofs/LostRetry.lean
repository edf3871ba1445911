/-
  **WHICH FAILURES ARE RETRIED.**

  An instance fails when its dispatch fails, in `handleTask` or `OnTrigger`, or
  when a worker reports it.  Only the report goes on to `retryIfNeeded`.  The
  service calls run ONE AT A TIME; between two of them everything but the
  instances may change.
-/
import AiScheduler.Proofs.Readings
import AiScheduler.System.Births
import AiScheduler.System.Serving

namespace AiScheduler.LostRetry

open Lib Readings Prog

variable {i : TaskInstance} {s : InstanceStore}

variable {p : TaskInstance → Bool} {f : TaskInstance → TaskInstance}

/-! ## Service calls one at a time. -/

/-- One service call: what it finds around the instances, and the answers while it runs. -/
structure Turn where
  job : Job
  around : World
  env : Nat → Input := fun _ => {}

section Turns

variable (url : String) (b : Backend)

def Turn.start (t : Turn) (s : InstanceStore) : World :=
  { t.around with backend := b, instances := s }

def Turn.finish (t : Turn) (s : InstanceStore) : InstanceStore :=
  (Prog.run (execAt t.env) (body url t.job) (t.start b s, 0)).2.1.instances

def Turn.calls (t : Turn) (s : InstanceStore) : List (Event System) :=
  Prog.events (execAt t.env) (body url t.job) (t.start b s, 0)

def runTurns (s : InstanceStore) (turns : List Turn) : InstanceStore :=
  turns.foldl (fun s t => t.finish url b s) s

end Turns

def succeeded : Event System → Bool
  | ⟨.task _, ans⟩ => ans.isOk
  | ⟨.inst _, ans⟩ => ans.isOk
  | ⟨.worker _, ans⟩ => ans.isOk
  | _ => true

/-- … and the clock is not past `deadline`. -/
def Smooth (deadline : Int) (e : Event System) : Prop :=
  succeeded e = true ∧ ∀ now ∈ reading e, now ≤ deadline

instance (deadline : Int) (e : Event System) : Decidable (Smooth deadline e) :=
  inferInstanceAs (Decidable (_ ∧ _))

/-! ## Failures and retries. -/

/-- The instance is failed, and was not in `s`. -/
structure NewlyFailed (s : InstanceStore) (r : TaskInstance) : Prop where
  failed : isRetryableStatus r.status = true
  before : ∀ r₀ ∈ s.instances.rows, r₀.id = r.id → isRetryableStatus r₀.status = false

instance (s : InstanceStore) (r : TaskInstance) : Decidable (NewlyFailed s r) :=
  decidable_of_iff (_ ∧ _) ⟨fun h => ⟨h.1, h.2⟩, fun h => ⟨h.1, h.2⟩⟩

/-- A failure of `i` is to be retried until `deadline`: a retry is left, the policy admits the code,
the window is open. -/
structure Granted (b : Backend) (tasks : TaskStore) (i : TaskInstance) (code : String)
    (deadline : Int) (row : Task) : Prop where
  stored : tasks.tasks.get? i.taskID = some row
  left : (i.retryCount : Int) < (readTask b row).maxRetry
  admitted : Runtime.shouldRetryOnErrors (readTask b row).retryPolicy
    (readTask b row).retryOnErrors code = true
  isOpen : 0 < (readTask b row).retryWindowSeconds →
    deadline - i.triggerTime ≤ (readTask b row).retryWindowSeconds * second

instance (b : Backend) (tasks : TaskStore) (i : TaskInstance) (code : String) (deadline : Int)
    (row : Task) : Decidable (Granted b tasks i code deadline row) :=
  decidable_of_iff (_ ∧ _ ∧ _ ∧ _)
    ⟨fun h => ⟨h.1, h.2.1, h.2.2.1, h.2.2.2⟩, fun h => ⟨h.1, h.2, h.3, h.4⟩⟩

theorem Granted.of_born {b : Backend} {tasks : TaskStore} {j : TaskInstance} {code : String}
    {deadline : Int} {row : Task} (h : Granted b tasks i code deadline row)
    (hborn : i.born = j.born) : Granted b tasks j code deadline row := by
  obtain ⟨hstored, hleft, hadmitted, hopen⟩ := h
  rw [taskID_of_born hborn] at hstored
  rw [retryCount_of_born hborn] at hleft
  rw [triggerTime_of_born hborn] at hopen
  exact ⟨hstored, hleft, hadmitted, hopen⟩

/-- There is a retry of the attempt among the instances that came after `s`. -/
def HasRetry (s : InstanceStore) (taskID : Int) (retryCount : Nat) (s' : InstanceStore) : Prop :=
  ∃ r ∈ s'.instances.rows, s.nextID ≤ r.id ∧ r.taskID = taskID ∧ r.retryCount = retryCount + 1

instance (s : InstanceStore) (taskID : Int) (retryCount : Nat) (s' : InstanceStore) :
    Decidable (HasRetry s taskID retryCount s') :=
  inferInstanceAs (Decidable (∃ r ∈ s'.instances.rows, _))

theorem HasRetry.extends {s' s'' : InstanceStore} {taskID : Int} {retryCount : Nat}
    (h : HasRetry s taskID retryCount s') (hext : s'.Extends s'') :
    HasRetry s taskID retryCount s'' := by
  obtain ⟨r, hr, hid, htask, hcount⟩ := h
  obtain ⟨r', hr', hborn⟩ := hext.kept (Table.get?_of_mem hr)
  obtain ⟨hmem, hkey⟩ := Table.get?_some hr'
  exact ⟨r', hmem, by rw [hkey]; exact hid, (taskID_of_born hborn).trans htask,
    (retryCount_of_born hborn).trans hcount⟩

theorem extends_run {α : Type} (env : Nat → Input) (p : Program α) (x : World × Nat) :
    x.1.instances.Extends (run (execAt env) p x).2.1.instances := by
  refine run_invariant (execAt env)
    (fun y : World × Nat => x.1.instances.Extends y.1.instances) ?_ p (.refl _)
  intro op y hy
  exact hy.trans (extends_execCall (env y.2) op y.1)

/-! ## Who makes an instance fail. -/

/-- Calls after which nothing has failed that had not before. -/
def Quiet : Call → Prop
  | .inst (.createInstance i) => isRetryableStatus i.status = false
  | .inst (.updateInstanceStatus _ status) => isRetryableStatus status = false
  | .inst (.updateInstanceResult _ status _ _) => isRetryableStatus status = false
  | _ => True

/-- Every failed row of `s'` is one of `s`, with its error code. -/
def FailsAsIn (s s' : InstanceStore) : Prop :=
  ∀ r' ∈ s'.instances.rows, isRetryableStatus r'.status = true →
    ∃ r ∈ s.instances.rows, r.id = r'.id ∧ r.status = r'.status ∧ r.errorCode = r'.errorCode

theorem FailsAsIn.refl (s : InstanceStore) : FailsAsIn s s :=
  fun r hr _ => ⟨r, hr, rfl, rfl, rfl⟩

theorem failsAsIn_rewrite {hf : ∀ i, (f i).id = i.id}
    (hquiet : ∀ i, isRetryableStatus (f i).status = true →
      (f i).status = i.status ∧ (f i).errorCode = i.errorCode) :
    FailsAsIn s (s.rewrite p f hf) := by
  intro r' hr' hfailed
  obtain ⟨r, hr, rfl⟩ := InstanceStore.mem_rewrite.mp hr'
  exact ⟨r, hr, by grind⟩

theorem failsAsIn_insert {b : Backend} {now : Int}
    (hquiet : isRetryableStatus i.status = false) : FailsAsIn s (s.insert b now i) := by
  intro r' hr' hfailed
  rcases InstanceStore.mem_insert.mp hr' with hr' | rfl
  · exact ⟨r', hr', rfl, rfl, rfl⟩
  · rw [InstanceStore.newRow_status, hquiet] at hfailed
    cases hfailed

theorem quiet_updates {b : Backend} {now : Int} {c : InstanceCall} (hc : Quiet (.inst c))
    (h : c.Updates b now s p f) (i : TaskInstance)
    (hfailed : isRetryableStatus (f i).status = true) :
    (f i).status = i.status ∧ (f i).errorCode = i.errorCode := by
  cases h with
  | status id status => exact absurd (hc.symm.trans hfailed) (by simp)
  | dispatch id workerID time => cases hfailed
  | result sid status code msg => exact absurd (hc.symm.trans hfailed) (by simp)
  | timestamps sid started finished => cases b <;> exact ⟨rfl, rfl⟩

theorem failsAsIn_execCall {inp : Input} {op : Call} (hop : Quiet op) {w : World} :
    FailsAsIn w.instances (execCall inp op w).2.instances := by
  rcases execCall_instances_cases inp op w with
    h | ⟨c, rfl, h | ⟨i, rfl, h, _⟩ | ⟨p, f, hf, hupd, h⟩⟩
  · rw [h]
    exact .refl _
  · rw [h]
    exact .refl _
  · rw [h]
    exact failsAsIn_insert hop
  · rw [h]
    exact failsAsIn_rewrite (quiet_updates hop hupd)

/-- What fails newly since `s` has an id and an error code that satisfy `P`. -/
def OnlyFails (s : InstanceStore) (P : Int → String → Prop) (x : World × Nat) : Prop :=
  ∀ r ∈ x.1.instances.instances.rows, NewlyFailed s r → P r.id r.errorCode

theorem onlyFails_quiet {env : Nat → Input} {P : Int → String → Prop} :
    ∀ op, Quiet op → ∀ x, OnlyFails s P x → OnlyFails s P (execAt env op x).2 := by
  intro op hop x hx r' hr' hnew
  obtain ⟨r, hr, hid, hstatus, hcode⟩ := failsAsIn_execCall hop r' hr' hnew.failed
  rw [← hid, ← hcode]
  exact hx r hr ⟨by rw [hstatus]; exact hnew.failed,
    fun r₀ hr₀ hid₀ => hnew.before r₀ hr₀ (hid₀.trans hid)⟩

/-! ## What a report makes fail. -/

/-- MySQL's unique key on the schedule id. -/
def UniqueKey (b : Backend) (s : InstanceStore) : Prop := b = .mysql → s.SchedulesDistinct

theorem id_of_addressed {b : Backend} (hkey : UniqueKey b s) {sid : String}
    {r r' : TaskInstance} (hr : s.bySchedule b sid = some r) (hr' : r' ∈ s.instances.rows)
    (haddressed : s.addressed b sid r' = true) : r'.id = r.id := by
  cases b with
  | mysql =>
    obtain ⟨hmem, hsid⟩ := InstanceStore.bySchedule_some hr
    have hsid' : r'.scheduleInstanceID = sid := of_decide_eq_true haddressed
    rw [hkey rfl r' hr' r hmem (hsid'.trans hsid.symm)]
  | teststore =>
    have h : (s.bySchedule .teststore sid).map TaskInstance.id = some r'.id :=
      of_decide_eq_true haddressed
    rw [hr] at h
    exact (Option.some.inj h).symm

theorem not_newlyFailed {r : TaskInstance} (hr : r ∈ s.instances.rows) :
    ¬ NewlyFailed s r := by
  intro h
  grind [h.before r hr rfl, h.failed]

/-- What a report of failure makes fail: its instance, with its code. -/
def FailsByReport (r : TaskInstance) (req : TaskStatusReportRequest) (id : Int) (code : String) :
    Prop :=
  id = r.id ∧ code = req.errorCode ∧ isRetryableStatus req.status = true

theorem onlyFails_result {w : World} {n : Nat} (hkey : UniqueKey w.backend w.instances)
    {req : TaskStatusReportRequest} {r : TaskInstance} (now : Int)
    (hr : w.instances.bySchedule w.backend req.scheduleInstanceID = some r) :
    OnlyFails w.instances (FailsByReport r req)
      ({ w with
        instances := w.instances.rewrite (w.instances.addressed w.backend req.scheduleInstanceID)
          (setResult now req.status req.errorCode req.errorMessage) (fun _ => rfl) }, n) := by
  intro r' hr' hnew
  obtain ⟨r₀, hr₀, rfl⟩ := InstanceStore.mem_rewrite.mp hr'
  split at hnew
  next ha =>
    rw [if_pos ha]
    have hid : r₀.id = r.id := id_of_addressed hkey hr hr₀ ha
    exact ⟨hid, rfl, hnew.failed⟩
  next => exact absurd hnew (not_newlyFailed hr₀)

/-- The failures since `w` that are granted a retry until `deadline` have one. -/
def Retried (w : World) (deadline : Int) (x : World × Nat) : Prop :=
  ∀ r ∈ x.1.instances.instances.rows, NewlyFailed w.instances r →
    ∀ row, Granted w.backend w.tasks r r.errorCode deadline row →
      (readTask w.backend row).retryWindowSeconds * second < 2 ^ 63 →
      HasRetry w.instances r.taskID r.retryCount x.1.instances

theorem retried_of_same {w : World} {deadline : Int} {x : World × Nat}
    (h : x.1.instances = w.instances) : Retried w deadline x := by
  intro r hr hnew
  rw [h] at hr
  exact absurd hnew (not_newlyFailed hr)

section Report

variable {env : Nat → Input} {deadline : Int} {w : World} {r : TaskInstance}
  {req : TaskStatusReportRequest} {x : World × Nat}

variable {url : String}

/-- Nothing has failed since `w` but by the report on `r`. -/
structure Failing (w : World) (r : TaskInstance) (req : TaskStatusReportRequest)
    (x : World × Nat) : Prop where
  kept : w.instances.Extends x.1.instances
  only : OnlyFails w.instances (FailsByReport r req) x

theorem Failing.next (h : Failing w r req x) {op : Call} (hop : Quiet op) :
    Failing w r req (execAt env op x).2 :=
  ⟨h.kept.trans (extends_execCall (env x.2) op x.1), onlyFails_quiet op hop x h.only⟩

theorem Failing.retried (h : Failing w r req x)
    (hr : w.instances.bySchedule w.backend req.scheduleInstanceID = some r)
    (hretry : isRetryableStatus req.status = true → ∀ row,
      Granted w.backend w.tasks (readInstance w.backend r) req.errorCode deadline row →
      (readTask w.backend row).retryWindowSeconds * second < 2 ^ 63 →
      HasRetry w.instances r.taskID r.retryCount x.1.instances) : Retried w deadline x := by
  intro r' hr' hnew row hgranted hfits
  obtain ⟨hid, hcode, hstatus⟩ := h.only r' hr' hnew
  -- the failed row is the one the report read
  have hborn : r'.born = (readInstance w.backend r).born := by
    obtain ⟨r'', hr'', hborn⟩ :=
      h.kept.kept (Table.get?_of_mem (InstanceStore.bySchedule_some hr).1)
    have hsame := Table.get?_of_mem hr'
    rw [hid, hr''] at hsame
    rw [born_readInstance, ← hborn, Option.some.inj hsame]
  rw [hcode] at hgranted
  rw [taskID_of_born hborn, retryCount_of_born hborn, readInstance_taskID, readInstance_retryCount]
  exact hretry hstatus row (hgranted.of_born hborn) hfits

theorem Failing.retried_of_refused (h : Failing w r req x)
    (hr : w.instances.bySchedule w.backend req.scheduleInstanceID = some r) {row : Task}
    (hrow : w.tasks.tasks.get? r.taskID = some row)
    (hrefused : Granted w.backend w.tasks (readInstance w.backend r) req.errorCode deadline row →
      ¬ (readTask w.backend row).retryWindowSeconds * second < 2 ^ 63) : Retried w deadline x := by
  refine h.retried hr ?_
  intro _ row' hgranted hfits
  have hsame : row' = row := by
    have hstored := hgranted.stored
    rw [readInstance_taskID, hrow] at hstored
    exact (Option.some.inj hstored).symm
  subst hsame
  exact absurd hfits (hrefused hgranted)

/-- After a failure the tasks are still those of `w`. -/
structure Reported (w : World) (r : TaskInstance) (req : TaskStatusReportRequest)
    (x : World × Nat) : Prop extends Failing w r req x where
  tasks : isRetryableStatus req.status = true → x.1.tasks = w.tasks
  backend : x.1.backend = w.backend

/-- The retry is made. -/
structure Done (w : World) (r : TaskInstance) (req : TaskStatusReportRequest)
    (x : World × Nat) : Prop extends Failing w r req x where
  retry : HasRetry w.instances r.taskID r.retryCount x.1.instances

/-! ## The retry is made. -/

/-- The runs in which the repository answers, up to the deadline. -/
abbrev smoothly (env : Nat → Input) (deadline : Int) : Protocol System :=
  Prog.logged (Smooth deadline) (execAt env)

theorem keeps_failing : (smoothly env deadline).Keeps (fun q => Failing w r req q.2) Quiet :=
  fun _ hop _ hq _ _ => ⟨_, rfl, hq.next hop⟩

theorem keeps_reported : (smoothly env deadline).Keeps (fun q => Reported w r req q.2)
    (fun op => Quiet op ∧ ∀ c, op ≠ .task c) := by
  rintro op ⟨hquiet, hop⟩ ⟨log, y⟩ hq ans _
  exact ⟨_, rfl, hq.next hquiet, fun h => (exec_tasks (env y.2) y.1 hop).trans (hq.tasks h),
    (exec_backend (env y.2) y.1 op).trans hq.backend⟩

theorem keeps_done : (smoothly env deadline).Keeps (fun q => Done w r req q.2) Quiet := by
  rintro op hop ⟨log, y⟩ hq ans _
  exact ⟨_, rfl, hq.next hop, hq.retry.extends (extends_execCall (env y.2) op y.1)⟩

theorem quiet_of_isRouting : ∀ op, Parts.IsRouting op → Quiet op :=
  Parts.forall_isRouting (fun _ => trivial) (fun _ => trivial) trivial

theorem quiet_of_isTask : ∀ op, Parts.IsTask op → Quiet op :=
  Parts.forall_isTask (fun _ => trivial) trivial

theorem quiet_of_isAside (op : Call) (h : Outlines.IsAside op) : Quiet op := by
  unfold Outlines.IsAside at h
  split at h <;> trivial

/-- Nothing that follows takes the retry away. -/
def course (env : Nat → Input) (deadline : Int) (w : World) (r : TaskInstance)
    (req : TaskStatusReportRequest) : Outlines.Course (smoothly env deadline) where
  rest q := Done w r req q.2
  created _ q := Done w r req q.2
  declined _ _ q := Done w r req q.2
  picked _ _ q := Done w r req q.2
  timed _ _ _ q := Done w r req q.2
  marked _ _ q := Done w r req q.2
  failed _ _ q := Done w r req q.2
  cleaned _ q := Done w r req q.2

theorem retries_course : (course env deadline w r req).Retries where
  aside := fun op hop => keeps_done op (quiet_of_isAside op hop)
  pick := fun _ opts => (keeps_done.leads ((Parts.calls_pick opts).mono quiet_of_isRouting)).mono
    (fun _ h => h) (fun _ ans h => Either.same h ans)
  now := fun _ _ => keeps_done (.memory .now) trivial
  send := fun _ worker req _ => (keeps_done (.node (.dispatch worker req)) trivial).mono
    (fun _ h => h) (fun _ ans h => Either.same h ans)
  release := fun worker =>
    keeps_done.leads ((Parts.calls_release worker).mono quiet_of_isRouting)
  mark := fun i worker time =>
    (keeps_done (.inst (.updateInstanceDispatch i.id worker.id time)) trivial).mono
      (fun _ h => h) (fun _ ans h => Either.same h ans)
  wait := fun i _ => keeps_done (.inst (.updateInstanceStatus i.id .retryWaiting)) rfl

theorem leads_createInstance (hquiet : isRetryableStatus i.status = false)
    (htask : i.taskID = r.taskID) (hcount : i.retryCount = r.retryCount + 1) :
    Leads (smoothly env deadline) (fun q => Failing w r req q.2) (createInstance i)
      (fun q _ => Done w r req q.2) := by
  refine leads_logged ?_
  rintro ⟨log, w', n⟩ ans hq hans ⟨hok, _⟩
  have hcreate : Quiet (.inst (.createInstance i)) := hquiet
  refine ⟨hq.next hcreate, ?_⟩
  cases ans with
  | error e => cases (hok : false = true)
  | ok stored =>
  obtain ⟨_, hinsert⟩ := createInstance_ok hans.symm
  show HasRetry _ _ _ (execCall (env n) (.inst (.createInstance i)) w').2.instances
  rw [hinsert]
  refine ⟨_, InstanceStore.mem_insert.mpr (Or.inr rfl), ?_, ?_, ?_⟩
  · rw [InstanceStore.newRow_id]
    exact hq.kept.nextID_le
  · rw [InstanceStore.newRow_taskID, htask]
  · rw [InstanceStore.newRow_retryCount, hcount]

theorem leads_createRetry {task : Task} {inst : TaskInstance}
    (htask : task.id = r.taskID) (hcount : inst.retryCount = r.retryCount) :
    Leads (smoothly env deadline) (fun q => Failing w r req q.2)
      (Runtime.createRetry url task inst) (fun q _ => Done w r req q.2) := by
  have hnow : Stays (smoothly env deadline) (fun q => Failing w r req q.2) timeNow :=
    keeps_failing (.memory .now) trivial
  have hretries : (course env deadline w r req).Retries := retries_course
  refine Outlines.leads_createRetry (P := smoothly env deadline) hnow ?_ ?_
  · intro retry delay hretry _
    refine Outlines.leads_retryLater (N := fun _ q => Failing w r req q.2) hnow ?_
    intro now
    exact leads_createInstance rfl (hretry.taskID.trans htask) (hcount ▸ hretry.retryCount)
  intro retry hretry
  have hquiet : isRetryableStatus retry.status = false := by
    rw [hretry.status]
    rfl
  refine hretries.retryNow url ?_ ?_ (fun _ _ _ _ h => h)
  · exact (leads_createInstance hquiet (hretry.taskID.trans htask)
      (hcount ▸ hretry.retryCount)).mono (fun _ h => h) (fun _ ans h => Either.same h ans)
  · exact fun i => keeps_done (.inst (.updateInstanceStatus i.id .retryWaiting)) rfl

def Stored (w : World) (r : TaskInstance) (task : Task) : Prop :=
  ∃ row, w.tasks.tasks.get? r.taskID = some row ∧ task = readTask w.backend row

theorem leads_getTask (hstatus : isRetryableStatus req.status = true) {B : Err → _ → Prop} :
    Leads (smoothly env deadline) (fun q => Reported w r req q.2) (getTask r.taskID)
      (Either B (fun task q => Failing w r req q.2 ∧ Stored w r task)) := by
  refine leads_logged ?_
  rintro ⟨log, w', n⟩ ans hq hans ⟨hok, _⟩
  have htasks : w'.tasks = w.tasks := hq.tasks hstatus
  have hbackend : w'.backend = w.backend := hq.backend
  cases ans with
  | error e => cases (hok : false = true)
  | ok task =>
  refine ⟨hq.next (show Quiet (.task (.getTask r.taskID)) from trivial), ?_⟩
  have hans : Except.ok task = (execCall (env n) (.task (.getTask r.taskID)) w').1 := hans
  have hcases := exec_getTask_cases (env n) w' r.taskID
  unfold Stored
  grind

theorem leads_retryWindowExceeded
    (hr : w.instances.bySchedule w.backend req.scheduleInstanceID = some r) (task : Task) :
    Leads (smoothly env deadline) (fun q => Failing w r req q.2 ∧ Stored w r task)
      (Runtime.retryWindowExceeded (readInstance w.backend r) task.retryWindowSeconds)
      (fun q exceeded => (exceeded = true → Retried w deadline q.2)
        ∧ (exceeded = false → Failing w r req q.2 ∧ Stored w r task)) := by
  unfold Runtime.retryWindowExceeded
  split
  · exact fun q hq => ⟨fun h => absurd h (by simp), fun _ => hq⟩
  next hpos =>
    rintro q ⟨hq, row, hrow, rfl⟩ (now : Int) ⟨_, hgood⟩
    have hnext : Failing w r req (execAt env (.memory .now) q.2).2 := hq.next trivial
    refine ⟨_, rfl, ?_, fun _ => ⟨hnext, row, hrow, rfl⟩⟩
    intro hexceeded
    refine hnext.retried_of_refused hr hrow ?_
    intro hgranted hfits
    have hnow : now ≤ deadline := hgood.2 now rfl
    have hopen := hgranted.isOpen (by omega)
    have hlate : now - (readInstance w.backend r).triggerTime
        > wrap64 ((readTask w.backend row).retryWindowSeconds * second) :=
      of_decide_eq_true hexceeded
    have hnonneg : 0 ≤ (readTask w.backend row).retryWindowSeconds * second :=
      Int.mul_nonneg (by omega) (by decide)
    rw [wrap64_of_range (by omega) (by omega)] at hlate
    omega

/-- **`retryIfNeeded` makes the retry that is granted.** -/
theorem leads_retryIfNeeded
    (hr : w.instances.bySchedule w.backend req.scheduleInstanceID = some r) :
    Leads (smoothly env deadline) (fun q => Reported w r req q.2)
      (Runtime.retryIfNeeded url (readInstance w.backend r) req)
      (fun q _ => Retried w deadline q.2) := by
  refine Outlines.leads_retryIfNeeded (P := smoothly env deadline)
    (G := fun task q => Failing w r req q.2 ∧ Stored w r task)
    (H := fun task q => Failing w r req q.2 ∧ Stored w r task) ?_ ?_ ?_
    (leads_retryWindowExceeded hr) ?_
  · intro hstatus q hq
    exact hq.retried hr (fun h => absurd (hstatus.symm.trans h) (by simp))
  · rintro task hrefused q ⟨hq, row, hrow, rfl⟩
    refine hq.retried_of_refused hr hrow ?_
    intro hgranted
    have hadmitted := hgranted.admitted
    rw [hrefused hgranted.left] at hadmitted
    cases hadmitted
  · intro hstatus
    rw [readInstance_taskID]
    exact leads_getTask hstatus
  rintro task _ _ q ⟨hq, row, hrow, rfl⟩
  have hid : (readTask w.backend row).id = r.taskID := by
    rw [readTask_id]
    exact (Table.get?_some hrow).2
  exact (leads_createRetry hid (readInstance_retryCount _ _) q hq).mono
    (fun q' _ hdone => hdone.retried hr (fun _ _ _ _ => hdone.retry))

/-! ## One report. -/

theorem leads_settle (hr : w.instances.bySchedule w.backend req.scheduleInstanceID = some r) :
    Leads (smoothly env deadline) (fun q => Reported w r req q.2)
      (Runtime.settle url (readInstance w.backend r) req)
      (fun q _ => Retried w deadline q.2) := by
  refine Outlines.leads_settle (P := smoothly env deadline) (L := fun _ q => Reported w r req q.2)
    (fun _ _ h => h) ?_ ?_ (leads_retryIfNeeded hr)
  · exact fun _ => (keeps_reported (.worker (.getWorker req.workerID)) ⟨trivial, by simp⟩).mono
      (fun _ h => h) (fun _ ans h => Either.same h ans)
  intro worker q hq ans hans
  obtain ⟨q', hq', hnext⟩ := keeps_reported
    (.worker (.upsertWorker (Router.released worker))) ⟨trivial, by simp⟩ q hq ans hans
  refine ⟨q', hq', ?_⟩
  cases ans with
  | error e => cases (hans.2.1 : false = true)
  | ok u => exact hnext

theorem leads_reportStatus {req : TaskStatusReportRequest}
    (hkey : UniqueKey w.backend w.instances) :
    Leads (smoothly env deadline) (fun q => q.2.1 = w)
      (Runtime.reportStatus url req) (fun q _ => Retried w deadline q.2) := by
  refine Outlines.leads_reportStatus (P := smoothly env deadline)
    (R := fun inst q => q.2.1 = w ∧ ∃ r,
      w.instances.bySchedule w.backend req.scheduleInstanceID = some r
        ∧ inst = readInstance w.backend r)
    (T := fun inst q => ∃ r, w.instances.bySchedule w.backend req.scheduleInstanceID = some r
      ∧ inst = readInstance w.backend r ∧ Reported w r req q.2) ?_ ?_ ?_ ?_ ?_ ?_ ?_
  · rintro q rfl
    exact retried_of_same rfl
  · rintro ⟨log, w, n⟩ rfl ans ⟨rfl, _⟩
    rcases exec_getInstanceByScheduleID_cases (env n) w req.scheduleInstanceID with
      ⟨e, he⟩ | ⟨r, hr, he⟩
    · refine ⟨_, rfl, ?_⟩
      rw [execAt_eq he]
      exact retried_of_same rfl
    · refine ⟨_, rfl, ?_⟩
      rw [execAt_eq he]
      exact ⟨fun _ => retried_of_same rfl, fun _ => ⟨rfl, r, hr, rfl⟩⟩
  · rintro inst ⟨log, w, n⟩ ⟨rfl, r, hr, rfl⟩ ans ⟨rfl, _⟩
    rcases exec_updateInstanceResult_cases (env n) w req.scheduleInstanceID req.status
      req.errorCode req.errorMessage with ⟨e, he⟩ | he
    · refine ⟨_, rfl, ?_⟩
      rw [execAt_eq he]
      exact retried_of_same rfl
    refine ⟨_, rfl, ?_⟩
    rw [execAt_eq he]
    exact ⟨r, hr, rfl, ⟨InstanceStore.extends_rewrite (fun _ => rfl),
      onlyFails_result hkey (env n).now hr⟩, fun _ => rfl, rfl⟩
  · rintro inst started finished q ⟨r, hr, rfl, hq⟩ ans hans
    obtain ⟨q', hq', hnext⟩ := keeps_reported
      (.inst (.updateInstanceTimestamps req.scheduleInstanceID started finished))
      ⟨trivial, by simp⟩ q hq ans hans
    exact ⟨q', hq', r, hr, rfl, hnext⟩
  · rintro inst hsuccess op hop q ⟨r, hr, rfl, hq⟩ ans hans
    refine ⟨_, rfl, r, hr, rfl, hq.next (quiet_of_isTask op hop), ?_,
      (exec_backend (env q.2.2) q.2.1 op).trans hq.backend⟩
    intro hstatus
    rw [hsuccess] at hstatus
    cases hstatus
  · rintro inst q hrunning ⟨r, hr, rfl, hq⟩
    refine hq.retried hr ?_
    intro hstatus
    rw [hrunning] at hstatus
    cases hstatus
  · rintro inst _ q ⟨r, hr, rfl, hq⟩
    exact leads_settle hr q hq

end Report

/-! ## Whole runs. -/

section Runs

variable (url : String) {b : Backend}

theorem extends_finish (t : Turn) (s : InstanceStore) : s.Extends (t.finish url b s) :=
  extends_run t.env (body url t.job) (t.start b s, 0)

theorem uniqueKey_finish (t : Turn) (hkey : UniqueKey b s) :
    UniqueKey b (t.finish url b s) := by
  rintro rfl
  have hinv := run_invariant (execAt t.env)
    (fun x : World × Nat => x.1.backend = .mysql ∧ x.1.instances.SchedulesDistinct)
    (fun op x hx => ⟨(exec_backend (t.env x.2) x.1 op).trans hx.1,
      distinct_execCall (t.env x.2) op hx.1 hx.2⟩)
    (body url t.job) (s := (t.start .mysql s, 0)) ⟨rfl, hkey rfl⟩
  exact hinv.2

theorem extends_runTurns : ∀ (turns : List Turn) (s : InstanceStore),
    s.Extends (runTurns url b s turns) := by
  intro turns
  induction turns with
  | nil =>
    intro s
    exact .refl s
  | cons t turns ih =>
    intro s
    exact (extends_finish url t s).trans (ih (t.finish url b s))

theorem uniqueKey_runTurns : ∀ (turns : List Turn) {s : InstanceStore}, UniqueKey b s →
    UniqueKey b (runTurns url b s turns) := by
  intro turns
  induction turns with
  | nil =>
    intro s hkey
    exact hkey
  | cons t turns ih =>
    intro s hkey
    exact ih (uniqueKey_finish url t hkey)

end Runs

/-- **NO RETRY IS LOST AFTER A REPORT**: an instance that fails through `ReportStatus` with a retry
left, an admitted code and an open window has its retry when the report returns and ever after. -/
theorem reported_failure_retried (url : String) {b : Backend} {s : InstanceStore}
    (hkey : UniqueKey b s) (before after : List Turn) {t : Turn} {req : TaskStatusReportRequest}
    (hreport : t.job = .reportStatus req) {deadline : Int}
    (hsmooth : ∀ e ∈ t.calls url b (runTurns url b s before), Smooth deadline e)
    {r : TaskInstance}
    (hr : r ∈ (t.finish url b (runTurns url b s before)).instances.rows)
    (hfailed : NewlyFailed (runTurns url b s before) r) {row : Task}
    (hgranted : Granted b t.around.tasks r r.errorCode deadline row)
    (hfits : (readTask b row).retryWindowSeconds * second < 2 ^ 63) :
    HasRetry (runTurns url b s before) r.taskID r.retryCount
      (runTurns url b s (before ++ t :: after)) := by
  have hkey' := uniqueKey_runTurns url before hkey
  generalize hs' : runTurns url b s before = s' at *
  have hone : HasRetry s' r.taskID r.retryCount (t.finish url b s') := by
    unfold Turn.calls at hsmooth
    unfold Turn.finish at hr ⊢
    rw [hreport] at hsmooth hr ⊢
    have hretried := Prog.of_follows_logged
      (leads_reportStatus (w := t.start b s') hkey' ([], _, 0) rfl) hsmooth
    exact hretried r hr hfailed row hgranted hfits
  have hrun : runTurns url b s (before ++ t :: after)
      = runTurns url b (t.finish url b s') after := by
    rw [← hs']
    exact List.foldl_append
  rw [hrun]
  exact hone.extends (extends_runTurns url after _)

def once : Task := { id := 1, status := .enabled, cronExpr := "* * * * *", maxRetry := 1 }

def running : World :=
  World.ofRows .mysql [once] []
    [{ id := 1, taskID := 1, scheduleInstanceID := "s", workerID := "w1", status := .running }]
    [{ id := "w1", status := .online, maxConcurrency := 2, currentLoad := 1 }]

def failureReported : Turn :=
  { job := .reportStatus { scheduleInstanceID := "s", workerID := "w1", status := .failed }
    around := running }

theorem reported_failure_retried_once :
    ∃ r ∈ (failureReported.finish "" .mysql running.instances).instances.rows,
      NewlyFailed running.instances r ∧ Granted .mysql running.tasks r r.errorCode 0 once
        ∧ HasRetry running.instances r.taskID r.retryCount
            (runTurns "" .mysql running.instances [failureReported, failureReported]) := by
  have hr : ∃ r ∈ (failureReported.finish "" .mysql running.instances).instances.rows,
      NewlyFailed running.instances r ∧ Granted .mysql running.tasks r r.errorCode 0 once := by
    decide
  obtain ⟨r, hr, hfailed, hgranted⟩ := hr
  exact ⟨r, hr, hfailed, hgranted,
    reported_failure_retried "" (fun _ => by decide) [] [failureReported]
      (t := failureReported) rfl (by decide) hr hfailed hgranted (by decide)⟩

/-- The task is due, and the worker idle. -/
def due : World :=
  World.ofRows .mysql [once] [] []
    [{ id := "w1", status := .online, maxConcurrency := 2 }]

/-- A service call during which every dispatch is refused. -/
def refusedDuring (job : Job) : Turn :=
  { job := job
    around := due
    env := fun _ => { outcome := fun _ _ => .refused (.text "worker returned status 503") } }

/-- The call leaves a failed instance without a granted retry, though no repository call fails; the
next scan makes none either. -/
def LosesRetry (job : Job) : Prop :=
  (∀ e ∈ (refusedDuring job).calls "" .mysql due.instances, Smooth 0 e)
    ∧ ∃ r ∈ ((refusedDuring job).finish "" .mysql due.instances).instances.rows,
      NewlyFailed due.instances r ∧ Granted .mysql due.tasks r r.errorCode 0 once
        ∧ ¬ HasRetry due.instances r.taskID r.retryCount
            (runTurns "" .mysql due.instances [refusedDuring job, refusedDuring .retryScan])

/-- **A FAILED DISPATCH IS NOT RETRIED**, neither by `handleTask` nor by
`OnTrigger`. -/
theorem dispatch_failure_not_retried :
    LosesRetry (.handleTask once) ∧ LosesRetry (.onTrigger 1) := by
  unfold LosesRetry
  decide

end AiScheduler.LostRetry
