/-
  **WHAT AN OPERATION HAS READ, AND WHAT IT THEREFORE WRITES.**

  A thread's NOTES are its readings: the clock, the instance and the task it looked at, the worker
  rows it was given, the instances it may dispatch.  Every operation writes only what its notes
  allow (`Notes.allows`): a retry is due after, and a dispatch is marked at, the last clock reading;
  a worker row keeps the status it was read with, but for registrations, heartbeats and evictions.
-/
import AiScheduler.Lib.Watch
import AiScheduler.Proofs.Outlines

namespace AiScheduler.Readings

open Lib Prog Outlines Parts

variable {op : Call} {i inst : TaskInstance} {task : Task}

variable {url : String} {req : TaskStatusReportRequest}

/-! ## Notes. -/

def reading : Event System → Option Int
  | ⟨.memory .now, t⟩ => some t
  | _ => none

/-- What sets an operation apart. -/
inductive Role where
  /-- A worker registers or sends a heartbeat. -/
  | registrar
  /-- The agent's `retry_failed_instance`. -/
  | tool
  | other
  deriving DecidableEq

/-- What a thread has read. -/
structure Notes where
  role : Role
  /-- The last clock reading. -/
  clock : Int := 0
  /-- The instance looked up last. -/
  inst : Option TaskInstance := none
  /-- The task read last. -/
  task : Option Task := none
  /-- The first clock reading since then. -/
  checked : Option Int := none
  /-- The instances it may dispatch. -/
  ready : List Int := []
  /-- The worker rows it was given last. -/
  held : List WorkerNode := []

variable {q : Notes}

variable {A : Notes → Prop}

abbrev Notes.at (q : Notes) (t : Int) : Notes :=
  { q with clock := t, checked := some (q.checked.getD t) }

/-- The notes after an instance for immediate dispatch is stored. -/
abbrev Notes.created (q : Notes) (stored : TaskInstance) : Notes :=
  { q with ready := stored.id :: q.ready }

/-- The notes after a query for what is due at the last clock reading. -/
abbrev Notes.given (q : Notes) (insts : List TaskInstance) : Notes :=
  { q with ready := insts.map TaskInstance.id ++ q.ready }

def Notes.after (q : Notes) : (op : Call) → op.Ans → Notes
  | .memory .now, t => q.at t
  | .task (.getTask _), ans =>
    match ans with
    | .ok task => { q with task := some task, checked := none }
    | .error _ => q
  | .inst (.getInstance _), ans =>
    match ans with
    | .ok inst => { q with inst := some inst }
    | .error _ => q
  | .inst (.getInstanceByScheduleID _), ans =>
    match ans with
    | .ok inst => { q with inst := some inst }
    | .error _ => q
  | .inst (.createInstance i), ans =>
    match ans with
    | .ok stored => if i.nextRetryTime = 0 then q.created stored else q
    | .error _ => q
  | .inst (.listDueRetryInstances cutoff _), ans =>
    match ans with
    | .ok insts =>
      -- `Warm` asks for the instances due in the FUTURE: they are not ready
      if cutoff ≤ q.clock then q.given insts else q
    | .error _ => q
  | .worker (.listAvailableWorkers _), ans =>
    match ans with
    | .ok workers => { q with held := workers }
    | .error _ => q
  | .worker (.getWorker _), ans =>
    match ans with
    | .ok worker => { q with held := [worker] }
    | .error _ => q
  | _, _ => q

/-- **What a call can do to the notes.** -/
inductive Noted (q : Notes) : Event System → Notes → Prop
  | now (t : Int) : Noted q ⟨.memory .now, t⟩ (q.at t)
  | task (id : Int) (task : Task) :
      Noted q ⟨.task (.getTask id), .ok task⟩ { q with task := some task, checked := none }
  | byID (id : Int) (inst : TaskInstance) :
      Noted q ⟨.inst (.getInstance id), .ok inst⟩ { q with inst := some inst }
  | bySchedule (sid : String) (inst : TaskInstance) :
      Noted q ⟨.inst (.getInstanceByScheduleID sid), .ok inst⟩ { q with inst := some inst }
  | created (i stored : TaskInstance) (h : i.nextRetryTime = 0) :
      Noted q ⟨.inst (.createInstance i), .ok stored⟩ (q.created stored)
  | due (cutoff limit : Int) (insts : List TaskInstance) (h : cutoff ≤ q.clock) :
      Noted q ⟨.inst (.listDueRetryInstances cutoff limit), .ok insts⟩ (q.given insts)
  | workers (opts : SelectOptions) (all : List WorkerNode) :
      Noted q ⟨.worker (.listAvailableWorkers opts), .ok all⟩ { q with held := all }
  | worker (id : String) (w : WorkerNode) :
      Noted q ⟨.worker (.getWorker id), .ok w⟩ { q with held := [w] }
  | nothing (e : Event System) (h : ∀ t, e ≠ ⟨.memory .now, t⟩) : Noted q e q

theorem noted_after (q : Notes) (op : Call) (ans : op.Ans) :
    Noted q ⟨op, ans⟩ (q.after op ans) := by
  unfold Notes.after
  split
  · exact .now _
  · split
    · exact .task _ _
    · exact .nothing _ (by simp)
  · split
    · exact .byID _ _
    · exact .nothing _ (by simp)
  · split
    · exact .bySchedule _ _
    · exact .nothing _ (by simp)
  · split
    · split
      next h => exact .created _ _ h
      next => exact .nothing _ (by simp)
    · exact .nothing _ (by simp)
  · split
    · split
      next h => exact .due _ _ _ h
      next => exact .nothing _ (by simp)
    · exact .nothing _ (by simp)
  · split
    · exact .workers _ _
    · exact .nothing _ (by simp)
  · split
    · exact .worker _ _
    · exact .nothing _ (by simp)
  next hnow _ _ _ _ _ _ _ =>
    refine .nothing _ ?_
    intro t he
    obtain ⟨rfl, _⟩ := Sigma.mk.inj_iff.mp he
    exact hnow ans rfl HEq.rfl

theorem role_after (q : Notes) (op : Call) (ans : op.Ans) : (q.after op ans).role = q.role := by
  have hnoted := noted_after q op ans
  generalize q.after op ans = q' at hnoted
  cases hnoted <;> rfl

/-- The window was open at the first clock reading after the task was read. -/
abbrev Notes.WindowOpen (q : Notes) (inst : TaskInstance) (task : Task) : Prop :=
  0 < task.retryWindowSeconds →
    ∃ t ∈ q.checked, t - inst.triggerTime ≤ wrap64 (task.retryWindowSeconds * second)

/-- The instance is a retry of the one read, one step up. -/
abbrev Notes.MayRetry (q : Notes) (i : TaskInstance) : Prop :=
  ∃ inst ∈ q.inst, ∃ task ∈ q.task,
    i.retryCount = inst.retryCount + 1 ∧ (q.role ≠ .tool → q.WindowOpen inst task)

/-- The due time and the stamp of an instance to be created. -/
abbrev Notes.DueLater (q : Notes) (i : TaskInstance) : Prop :=
  (if i.status = .retryWaiting then q.clock < i.nextRetryTime else i.nextRetryTime = 0)
    ∧ i.createdAt = 0

/-- The thread was given this row, up to the load. -/
abbrev Notes.Holds (q : Notes) (w : WorkerNode) : Prop :=
  ∃ v ∈ q.held, v.id = w.id ∧ v.status = w.status

def Notes.allows (q : Notes) : Call → Bool
  | .inst (.createInstance i) => q.DueLater i ∧ (i.retryCount ≠ 0 → q.MayRetry i)
  | .inst (.updateInstanceDispatch id _ time) => id ∈ q.ready ∧ time = q.clock
  | .worker (.upsertWorker w) => q.role = .registrar ∨ w.status = .offline ∨ q.Holds w
  | _ => true

/-- **The protocol**: a thread does what its notes allow. -/
abbrev notes : Protocol System where
  State := Notes
  next q op ans := if q.allows op then some (q.after op ans) else none

theorem next_eq_some {q' : Notes} {ans : op.Ans} :
    notes.next q op ans = some q' ↔ q.allows op = true ∧ q.after op ans = q' := by
  show (if q.allows op = true then some (q.after op ans) else none) = some q' ↔ _
  by_cases h : q.allows op = true
  · rw [if_pos h]
    simp [h]
  · rw [if_neg h]
    simp [h]

theorem leads_ask {B : Notes → op.Ans → Prop}
    (hop : ∀ q, A q → q.allows op = true) (hB : ∀ q ans, A q → B (q.after op ans) ans) :
    Leads notes A (ask op) B :=
  fun q hq ans _ => ⟨q.after op ans, next_eq_some.mpr ⟨hop q hq, rfl⟩, hB q ans hq⟩

/-! ## Parts that write nothing of the kind. -/

/-- Nothing a later write rests on is lost. -/
structure Aside (q q' : Notes) : Prop where
  inst : q'.inst = q.inst
  ready : q.ready ⊆ q'.ready

/-- Calls that are always allowed and look up no instance. -/
def IsFree : Call → Prop
  | .inst (.createInstance _) | .inst (.updateInstanceDispatch _ _ _) => False
  | .inst (.getInstance _) | .inst (.getInstanceByScheduleID _) => False
  | .worker (.upsertWorker _) => False
  | _ => True

theorem allows_of_isFree (h : IsFree op) (q : Notes) : q.allows op = true := by
  unfold IsFree at h
  unfold Notes.allows
  split at h <;> simp_all

theorem aside_after (h : IsFree op) (q : Notes) (ans : op.Ans) :
    Aside q (q.after op ans) := by
  have hnoted := noted_after q op ans
  generalize q.after op ans = q' at hnoted
  cases hnoted with
  | byID id inst | bySchedule sid inst | created i stored hi => exact h.elim
  | due cutoff limit insts hc => exact ⟨rfl, List.subset_append_right _ _⟩
  | now t | task id task | workers opts all | worker id w
  | nothing e he => exact ⟨rfl, List.Subset.refl _⟩

theorem keeps_free {φ : Call → Prop} (hA : ∀ q q', Aside q q' → A q → A q')
    (hφ : ∀ op, φ op → IsFree op) : notes.Keeps A φ :=
  fun op hop => leads_ask (fun q _ => allows_of_isFree (hφ op hop) q)
    (fun q ans hq => hA q _ (aside_after (hφ op hop) q ans) hq)

theorem isFree_of_isTask : ∀ op, IsTask op → IsFree op :=
  forall_isTask (fun _ => trivial) trivial

theorem isFree_of_isAside (op : Call) (h : IsAside op) : IsFree op := by
  unfold IsAside at h
  split at h <;> trivial

/-! ## Creating and dispatching. -/

theorem holds_released {w : WorkerNode} (h : q.Holds w) :
    q.Holds (Router.released w) := by
  unfold Router.released
  split <;> exact h

/-- The course of an instance: it is ready, beside others, and the worker's row is held. -/
def course (ids : List Int) : Outlines.Course notes where
  rest q := ids ⊆ q.ready
  created i q := i.id :: ids ⊆ q.ready
  declined _ _ q := ids ⊆ q.ready
  picked i w q := i.id :: ids ⊆ q.ready ∧ q.Holds w
  timed i w time q := (i.id :: ids ⊆ q.ready ∧ q.Holds w) ∧ time = q.clock
  marked _ w q := ids ⊆ q.ready ∧ q.Holds w
  failed _ w q := ids ⊆ q.ready ∧ q.Holds w
  cleaned w q := ids ⊆ q.ready ∧ q.Holds w

section Course

variable {ids : List Int}

theorem subset_of_cons (h : i.id :: ids ⊆ q.ready) :
    ids ⊆ q.ready :=
  List.Subset.trans (List.subset_cons_self _ _) h

theorem leads_pick (opts : SelectOptions) (i : TaskInstance) :
    Leads notes ((course ids).created i) (Router.pick opts)
      (Either ((course ids).declined i) ((course ids).picked i)) := by
  refine Outlines.leads_pick (P := notes)
    (L := fun all q => i.id :: ids ⊆ q.ready ∧ q.held = all) opts ?_ ?_ ?_
  · refine leads_ask (fun _ _ => rfl) ?_
    intro q ans hq
    cases ans with
    | error e => exact subset_of_cons hq
    | ok all => exact ⟨fun _ => subset_of_cons hq, fun _ => ⟨hq, rfl⟩⟩
  · exact fun all => leads_ask (fun _ _ => rfl) (fun q _ hq => hq)
  intro all best hbest
  have hholds : ∀ {q : Notes}, q.held = all →
      q.Holds { best with currentLoad := best.currentLoad + 1 } := by
    rintro q rfl
    exact ⟨best, hbest, rfl, rfl⟩
  refine leads_ask (fun q hq => decide_eq_true (.inr (.inr (hholds hq.2)))) ?_
  intro q ans hq
  cases ans with
  | error e => exact subset_of_cons hq.1
  | ok u => exact ⟨hq.1, hholds hq.2⟩

theorem dispatches_course : (course ids).Dispatches where
  aside := keeps_free (fun _ _ h hq => List.Subset.trans hq h.ready) isFree_of_isAside
  pick := fun i opts => leads_pick opts i
  now := fun _ _ => leads_ask (fun _ _ => rfl) (fun _ _ hq => ⟨hq, rfl⟩)
  send := by
    intro i w req _
    refine leads_ask (fun _ _ => rfl) ?_
    intro q ans hq
    cases ans with
    | error e => exact hq
    | ok u => exact hq.1
  release := fun w => leads_ask
    (fun q hq => decide_eq_true (.inr (.inr (holds_released hq.2)))) (fun q _ hq => hq.1)

theorem leads_mark (i : TaskInstance) (w : WorkerNode) (time : Int) :
    Leads notes ((course ids).timed i w time) (updateInstanceDispatch i.id w.id time)
      (fun q _ => ids ⊆ q.ready ∧ q.Holds w) := by
  refine leads_ask ?_ (fun q _ hq => ⟨subset_of_cons hq.1.1, hq.1.2⟩)
  rintro q ⟨⟨hready, _⟩, htime⟩
  exact decide_eq_true ⟨hready List.mem_cons_self, htime⟩

theorem leads_createInstance
    (hpending : i.status = .pending) (hdue : i.nextRetryTime = 0) (hstamp : i.createdAt = 0)
    (hA : ∀ q, A q → ids ⊆ q.ready) (hretry : ∀ q, A q → i.retryCount ≠ 0 → q.MayRetry i) :
    Leads notes A (createInstance i)
      (Either (fun _ => (course ids).rest) (course ids).created) := by
  have hlater : ∀ q : Notes, q.DueLater i := by
    intro q
    refine ⟨?_, hstamp⟩
    rw [hpending, if_neg (by decide)]
    exact hdue
  refine leads_ask (fun q hq => decide_eq_true ⟨hlater q, hretry q hq⟩) ?_
  intro q ans hq
  cases ans with
  | error e => exact hA q hq
  | ok stored =>
    show stored.id :: ids ⊆ (if i.nextRetryTime = 0 then q.created stored else q).ready
    rw [if_pos hdue]
    exact List.cons_subset_cons _ (hA q hq)

theorem triggers_course : (course ids).Triggers where
  toDispatches := dispatches_course
  create := fun _ hi => leads_createInstance hi.status hi.nextRetryTime hi.createdAt
    (fun _ h => h) (fun _ _ h => absurd hi.retryCount h)
  drop := fun _ _ _ h => h
  mark := leads_mark

theorem fails_course : (course ids).Fails :=
  fun _ _ _ _ => leads_ask (fun _ _ => rfl) (fun _ _ hq => hq)

theorem retries_course : (course ids).Retries where
  toDispatches := dispatches_course
  mark := fun i w time => (leads_mark i w time).mono (fun _ h => h) (fun _ r h => Either.same h r)
  wait := fun _ _ => leads_ask (fun _ _ => rfl) (fun _ _ hq => hq)

end Course

/-! ## Retries. -/

theorem leads_retryScan (url : String) :
    Leads notes (fun _ => True) (RetryLoop.scan url) (fun _ _ => True) := by
  refine Outlines.leads_retryScan (P := notes) url (N := fun now q => q.clock = now)
    (R := fun insts q => insts.map TaskInstance.id ⊆ q.ready)
    (leads_ask (fun _ _ => rfl) (fun _ _ _ => rfl)) ?_ ?_
  · intro now
    refine leads_ask (fun _ _ => rfl) ?_
    rintro q ans rfl
    cases ans with
    | error e => trivial
    | ok insts =>
      show _ ⊆ (if q.clock ≤ q.clock then q.given insts else q).ready
      rw [if_pos (Int.le_refl q.clock)]
      exact List.subset_append_left _ _
  intro insts
  refine (retries_course.retryInstances url (fun _ _ _ h => h) insts ?_).mono
    (fun _ h => h) (fun _ _ _ => trivial)
  intro i hi q hq
  exact List.cons_subset.mpr ⟨hq (List.mem_map_of_mem hi), hq⟩

/-- The thread is about to retry `inst`. -/
structure Retrying (q : Notes) (inst : TaskInstance) (task : Task) : Prop where
  hinst : q.inst = some inst
  htask : q.task = some task
  isOpen : q.WindowOpen inst task

theorem Retrying.at (h : Retrying q inst task) (t : Int) : Retrying (q.at t) inst task := by
  refine ⟨h.hinst, h.htask, ?_⟩
  intro hw
  obtain ⟨t₀, ht₀, hle⟩ := h.isOpen hw
  refine ⟨t₀, ?_, hle⟩
  show some (q.checked.getD t) = some t₀
  rw [Option.mem_def.mp ht₀]
  rfl

theorem Retrying.mayRetry (h : Retrying q inst task) (hi : i.retryCount = inst.retryCount + 1) :
    q.MayRetry i :=
  ⟨inst, h.hinst, task, h.htask, hi, fun _ => h.isOpen⟩

theorem leads_retryWindowExceeded (inst : TaskInstance) (task : Task) :
    Leads notes (fun q => q.inst = some inst ∧ q.task = some task ∧ q.checked = none)
      (Runtime.retryWindowExceeded inst task.retryWindowSeconds)
      (fun q exceeded => (exceeded = true → True) ∧ (exceeded = false → Retrying q inst task)) := by
  unfold Runtime.retryWindowExceeded
  split
  next hw =>
    rintro q ⟨hinst, htask, _⟩
    exact ⟨fun _ => trivial, fun _ => ⟨hinst, htask, fun hpos => absurd hpos (by omega)⟩⟩
  next hw =>
    refine leads_bind (P := notes) (B := fun q now => q.inst = some inst ∧ q.task = some task
      ∧ q.checked = some now) (leads_ask (fun _ _ => rfl) ?_) ?_
    · rintro q now ⟨hinst, htask, hchecked⟩
      refine ⟨hinst, htask, ?_⟩
      show some (q.checked.getD now) = some now
      rw [hchecked]
      rfl
    rintro now q ⟨hinst, htask, hchecked⟩
    refine ⟨fun _ => trivial, fun hexceeded => ⟨hinst, htask, fun _ => ⟨now, hchecked, ?_⟩⟩⟩
    have hle := of_decide_eq_false hexceeded
    omega

theorem leads_retryLater {retry : TaskInstance}
    (hretry : RetryOf task inst retry) {delay : Int} (hdelay : delay > 0) :
    Leads notes (fun q => Retrying q inst task) (Runtime.retryLater retry delay)
      (fun _ _ => True) := by
  refine Outlines.leads_retryLater (P := notes)
    (N := fun now q => Retrying q inst task ∧ q.clock = now)
    (leads_ask (fun _ _ => rfl) (fun _ t hq => ⟨hq.at t, rfl⟩)) ?_
  intro now
  refine leads_ask ?_ (fun _ _ _ => trivial)
  rintro q ⟨hq, rfl⟩
  have hlater : q.DueLater
      { retry with status := .retryWaiting, nextRetryTime := q.clock + delay } := by
    refine ⟨?_, hretry.createdAt⟩
    rw [if_pos rfl]
    show q.clock < q.clock + delay
    omega
  exact decide_eq_true ⟨hlater, fun _ => hq.mayRetry hretry.retryCount⟩

theorem leads_createRetry {task : Task} {inst : TaskInstance} :
    Leads notes (fun q => Retrying q inst task)
      (Runtime.createRetry url task inst) (fun _ _ => True) := by
  refine Outlines.leads_createRetry (P := notes)
    (leads_ask (fun _ _ => rfl) (fun _ t hq => hq.at t)) ?_ ?_
  · exact fun _ _ hretry hdelay => leads_retryLater hretry hdelay
  intro retry hretry
  have hretries : (course []).Retries := retries_course
  refine (hretries.retryNow url
    (leads_createInstance hretry.status hretry.nextRetryTime hretry.createdAt
      (fun _ _ => List.nil_subset _) (fun _ hq _ => hq.mayRetry hretry.retryCount))
    (fun _ => leads_ask (fun _ _ => rfl) (fun _ _ hq => hq)) (fun _ _ _ _ h => h)).mono
    (fun _ h => h) (fun _ _ _ => trivial)

theorem leads_retryIfNeeded {inst : TaskInstance} :
    Leads notes (fun q => q.inst = some inst) (Runtime.retryIfNeeded url inst req)
      (fun _ _ => True) := by
  refine Outlines.leads_retryIfNeeded (P := notes)
    (G := fun task q => q.inst = some inst ∧ q.task = some task ∧ q.checked = none)
    (H := fun task q => Retrying q inst task) (fun _ _ _ => trivial) (fun _ _ _ _ => trivial) ?_
    (leads_retryWindowExceeded inst) (fun task _ _ => leads_createRetry)
  intro _
  refine leads_ask (fun _ _ => rfl) ?_
  intro q ans hq
  cases ans with
  | error e => trivial
  | ok task => exact ⟨hq, rfl, rfl⟩

/-! ## Reports and the other operations. -/

theorem leads_settle {inst : TaskInstance} :
    Leads notes (fun q => q.inst = some inst) (Runtime.settle url inst req) (fun _ _ => True) := by
  refine Outlines.leads_settle (P := notes) (L := fun w q => q.inst = some inst ∧ q.Holds w)
    (fun _ _ hq => hq) ?_ ?_ leads_retryIfNeeded
  · intro _
    refine leads_ask (fun _ _ => rfl) ?_
    intro q ans hq
    cases ans with
    | error e => exact hq
    | ok worker => exact ⟨hq, worker, List.mem_singleton.mpr rfl, rfl, rfl⟩
  intro w
  refine leads_ask (fun q hq => decide_eq_true (.inr (.inr (holds_released hq.2)))) ?_
  intro q ans hq
  cases ans with
  | error e => trivial
  | ok u => exact hq.1

theorem leads_reportStatus (url : String) (req : TaskStatusReportRequest) :
    Leads notes (fun _ => True) (Runtime.reportStatus url req) (fun _ _ => True) := by
  refine Outlines.leads_reportStatus (P := notes) (R := fun inst q => q.inst = some inst)
    (T := fun inst q => q.inst = some inst) (fun _ _ => trivial) ?_ ?_ ?_ ?_
    (fun _ _ _ _ => trivial) (fun inst _ => leads_settle)
  · refine leads_ask (fun _ _ => rfl) ?_
    intro q ans _
    cases ans with
    | error e => trivial
    | ok inst => exact ⟨fun _ => trivial, fun _ => rfl⟩
  · intro inst
    refine leads_ask (fun _ _ => rfl) ?_
    intro q ans hq
    cases ans with
    | error e => trivial
    | ok u => exact hq
  · exact fun inst _ _ => leads_ask (fun _ _ => rfl) (fun _ _ hq => hq)
  · exact fun inst _ => keeps_free (fun _ _ h hq => h.inst.trans hq) isFree_of_isTask

theorem leads_cancelInstance (scheduleID : String) :
    Leads notes (fun _ => True) (Runtime.cancelInstance scheduleID) (fun _ _ => True) := by
  refine leads_bind (P := notes) (B := fun _ _ => True)
    (leads_ask (fun _ _ => rfl) (fun _ _ hq => hq)) ?_
  intro ans
  cases ans with
  | error e => exact fun _ _ => trivial
  | ok inst =>
  show Leads notes _ (if isTerminalStatus inst.status then _ else _) _
  split
  · exact fun _ _ => trivial
  have hkeeps : notes.Keeps (fun _ => True) IsCancelling :=
    keeps_free (fun _ _ _ _ => trivial) (fun op hop => by cases hop <;> trivial)
  refine leads_bind (hkeeps.leads (calls_cancelOnWorker inst scheduleID)) ?_
  exact fun _ => leads_ask (fun _ _ => rfl) (fun _ _ _ => trivial)

theorem leads_retryFailedInstance (instanceID : Int) :
    Leads notes (fun q => q.role = .tool) (Tools.retryFailedInstance instanceID)
      (fun _ _ => True) := by
  unfold Tools.retryFailedInstance
  split
  · exact fun _ _ => trivial
  refine leads_bind (P := notes)
    (B := fun q r => q.role = .tool ∧ ∀ inst, r = .ok inst → q.inst = some inst)
    (leads_ask (fun _ _ => rfl) ?_) ?_
  · intro q r hq
    refine ⟨(role_after q _ r).trans hq, ?_⟩
    rintro inst rfl
    rfl
  intro r
  cases r with
  | error e => exact fun _ _ => trivial
  | ok inst =>
  show Leads notes _ (if _ then _ else _) _
  split
  · exact fun _ _ => trivial
  refine leads_bind (P := notes) (B := fun q r => q.role = .tool ∧ q.inst = some inst
    ∧ ∀ task, r = .ok task → q.task = some task) (leads_ask (fun _ _ => rfl) ?_) ?_
  · rintro q r ⟨hrole, hinst⟩
    refine ⟨(role_after q _ r).trans hrole, ?_, ?_⟩
    · have hfree : IsFree (.task (.getTask inst.taskID)) := trivial
      exact (aside_after hfree q r).inst.trans (hinst inst rfl)
    · rintro task rfl
      rfl
  intro r
  cases r with
  | error e => exact fun _ _ => trivial
  | ok task =>
  refine leads_bind (P := notes) (B := fun q _ => q.role = .tool ∧ q.inst = some inst
    ∧ ∀ t, (Except.ok task : Except Err Task) = .ok t → q.task = some t)
    (leads_ask (fun _ _ => rfl) (fun q _ hq => hq)) ?_
  intro now
  have hretry : ∀ q : Notes, (q.role = .tool ∧ q.inst = some inst
      ∧ ∀ t, (Except.ok task : Except Err Task) = .ok t → q.task = some t) →
      q.MayRetry (Tools.retriedInstance task inst now) := by
    rintro q ⟨hrole, hinst, htask⟩
    exact ⟨inst, hinst, task, htask task rfl, rfl, fun h => absurd hrole h⟩
  refine leads_bind (@leads_createInstance _ _ [] rfl rfl rfl
    (fun _ _ => List.nil_subset _) (fun q hq _ => hretry q hq)) ?_
  intro r
  cases r with
  | error e | ok stored => exact fun _ _ => trivial

theorem keeps_registrar : notes.Keeps (fun q => q.role = .registrar) IsRegistering := by
  intro op hop
  refine leads_ask ?_ (fun q ans hq => (role_after q op ans).trans hq)
  intro q hq
  cases hop with
  | now | running workerID => rfl
  | worker c =>
    cases c with
    | upsertWorker w => exact decide_eq_true (.inl hq)
    | _ => rfl

/-! ## The jobs. -/

def roleOf : Job → Role
  | .registerWorker _ | .heartbeat _ => .registrar
  | .retryFailedInstance _ => .tool
  | _ => .other

def start (j : Job) : Notes := { role := roleOf j }

/-- **EVERY JOB WRITES ONLY WHAT ITS NOTES ALLOW.** -/
theorem follows_body (url : String) (j : Job) :
    Follows notes (fun _ _ => True) (start j) (body url j) := by
  have hany : ∀ {α : Type} {A : Notes → Prop} {p : Program α} {B : Notes → α → Prop},
      Leads notes A p B → ∀ q, A q → Follows notes (fun _ _ => True) q p :=
    fun h q hq => (h q hq).mono (fun _ _ _ => trivial)
  have hcourse : (course []).Triggers := triggers_course
  have hready : (course []).rest (start j) := List.nil_subset _
  cases j with
  | triggerScan => exact follows_done (hany (hcourse.scan fails_course url) _ hready)
  | handleTask task => exact hany (hcourse.handleTask fails_course url task) _ hready
  | retryScan => exact follows_done (hany (leads_retryScan url) _ trivial)
  | warm =>
    have hkeeps : notes.Keeps (fun _ => True) IsWarming :=
      keeps_free (fun _ _ _ _ => trivial) (fun op hop => by cases hop <;> trivial)
    exact hkeeps.leads calls_warm _ trivial
  | wheelTick =>
    exact follows_done (hany (hcourse.processWheelTick fails_course url) _ hready)
  | heapTick =>
    exact follows_done (hany (hcourse.processHeapTick fails_course url) _ hready)
  | onTrigger taskID =>
    exact follows_done (hany (hcourse.onTrigger fails_course url taskID) _ hready)
  | reportStatus req => exact leads_reportStatus url req _ trivial
  | cancelInstance scheduleID => exact leads_cancelInstance scheduleID _ trivial
  | publish req =>
    exact follows_outcome (hany (hcourse.publish (fun _ _ _ h => h.1) req) _ hready)
  | retryFailedInstance instanceID =>
    exact follows_outcome (leads_retryFailedInstance instanceID _ rfl)
  | registerWorker req =>
    exact follows_outcome (hany (keeps_registrar.leads (calls_registerWorker req)) _ rfl)
  | heartbeat workerID =>
    exact follows_outcome (hany (keeps_registrar.leads (calls_sendHeartbeat workerID)) _ rfl)
  | execute workerID req =>
    exact follows_done (leads_run (P := notes) (A := fun _ => True)
      (fun c => leads_ask (fun _ _ => rfl) (fun _ _ _ => trivial))
      (leads_ask (fun _ _ => rfl) (fun _ _ _ => trivial))
      (fun report _ => leads_reportStatus url report) _ trivial)

end AiScheduler.Readings
