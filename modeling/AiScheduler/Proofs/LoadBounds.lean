/-
  **THE STORED LOAD OF A WORKER STAYS WITHIN ITS CAPACITY.**

  Rows are written back WHOLE, from snapshots that may be old by then, so updates of the load
  get lost (`Proofs.Load`).  They cannot take it out of `0 … MaxConcurrency`: load and capacity
  of a row that is written come from ONE row that was read, and the check was made on that row.

  Main results:
    * `follows_actBody` — every operation but a heartbeat writes only rows that fit.
    * `load_within_capacity` — so the stored loads fit in every state reached.
-/
import AiScheduler.Lib.Rely
import AiScheduler.Proofs.Eviction

namespace AiScheduler.LoadBounds

open Lib Prog Parts Outlines Router Eviction

/-- The load is one the capacity allows. -/
def Fits (w : WorkerNode) : Prop := 0 ≤ w.currentLoad ∧ w.currentLoad ≤ w.maxConcurrency

/-- Rows that fit, below their capacity. -/
def HaveRoom (ws : List WorkerNode) : Prop := ∀ w ∈ ws, Fits w ∧ w.currentLoad < w.maxConcurrency

/-- Operations write rows that fit … -/
def Writes : Call → Prop
  | .worker (.upsertWorker w) => Fits w
  | _ => True

/-- … as long as the rows they read do. -/
def Reads : (op : Call) → op.Ans → Prop
  | .worker (.getWorker _), .ok w => Fits w
  | .worker (.listAvailableWorkers _), .ok ws => HaveRoom ws
  | .worker (.listStaleWorkers _), .ok ws => ∀ w ∈ ws, Fits w
  | _, _ => True

/-- The protocol of such operations. -/
noncomputable abbrev bounding : Protocol System := relying Reads Writes

/-! ## The operations. -/

theorem fits_released {w : WorkerNode} (h : Fits w) : Fits (released w) := by
  obtain ⟨h₀, hmax⟩ := h
  unfold released
  split
  next hpos =>
    constructor
    · show (0 : Int) ≤ w.currentLoad - 1
      omega
    · show w.currentLoad - 1 ≤ w.maxConcurrency
      omega
  next => exact ⟨h₀, hmax⟩

theorem fits_reserved {all : List WorkerNode} (h : HaveRoom all) {best : WorkerNode}
    (hbest : best ∈ all) : Fits { best with currentLoad := best.currentLoad + 1 } := by
  obtain ⟨⟨h₀, _⟩, hlt⟩ := h best hbest
  constructor
  · show (0 : Int) ≤ best.currentLoad + 1
    omega
  · show best.currentLoad + 1 ≤ best.maxConcurrency
    omega

/-- A call that writes no worker row. -/
theorem stays (Q : bounding.State → Prop) {op : Call} (h : Writes op) : Stays bounding Q (ask op) :=
  leads_relying (fun _ _ => h) (fun _ _ hq _ => hq)

/-- The row on the way of a dispatch fits. -/
def course : Course bounding where
  rest _ := True
  created _ _ := True
  declined _ _ _ := True
  picked _ w _ := Fits w
  timed _ w _ _ := Fits w
  marked _ w _ := Fits w
  failed _ w _ := Fits w
  cleaned w _ := Fits w

theorem dispatches_course : course.Dispatches where
  aside := by
    intro op hop
    apply stays
    unfold IsAside at hop
    split at hop <;> trivial
  pick := by
    intro i opts
    refine leads_pick (P := bounding) (L := fun all _ => HaveRoom all) opts ?_
      (fun _ => stays _ trivial) ?_
    · refine leads_relying (fun _ _ => trivial) ?_
      intro ans q _ hans
      cases ans with
      | error e => trivial
      | ok all => exact ⟨fun _ => trivial, fun _ => hans⟩
    · intro all best hbest
      refine leads_relying (fun _ hall => fits_reserved hall hbest) ?_
      intro ans q hall _
      cases ans with
      | error e => trivial
      | ok u => exact fits_reserved hall hbest
  now := fun _ _ => stays _ trivial
  send := by
    intro i w req _
    refine leads_relying (fun _ _ => trivial) ?_
    intro ans q hw _
    cases ans with
    | error e => exact hw
    | ok u => trivial
  release := fun _ => leads_relying (fun _ => fits_released) (fun _ _ _ _ => trivial)

theorem leads_createInstance (i : TaskInstance) :
    Leads bounding (fun _ => True) (createInstance i)
        (Either (fun _ => course.rest) course.created) :=
  leads_relying (fun _ _ => trivial) (fun ans _ _ _ => Either.same trivial ans)

theorem triggers_course : course.Triggers where
  toDispatches := dispatches_course
  create := fun i _ => leads_createInstance i
  drop := fun _ _ _ _ => trivial
  mark := fun _ _ _ => stays _ trivial

theorem fails_course : course.Fails := fun _ _ _ _ => stays _ trivial

theorem retries_course : course.Retries where
  toDispatches := dispatches_course
  mark := fun _ _ _ => leads_relying (fun _ _ => trivial) (fun ans _ hw _ => Either.same hw ans)
  wait := fun _ _ => stays _ trivial

theorem stays_createRetry (url : String) (task : Task) (inst : TaskInstance) :
    Stays bounding (fun _ => True) (Runtime.createRetry url task inst) := by
  refine leads_createRetry (P := bounding) (stays _ trivial) ?_ ?_
  · intro retry delay _ _
    exact leads_retryLater (P := bounding) (stays _ trivial) (fun _ => stays _ trivial)
  · intro retry _
    exact retries_course.retryNow url (leads_createInstance retry) (fun _ => stays _ trivial)
      (fun _ _ _ _ _ => trivial)

theorem stays_reportStatus (url : String) (req : TaskStatusReportRequest) :
    Stays bounding (fun _ => True) (Runtime.reportStatus url req) := by
  have htasks : bounding.Keeps (fun _ => True) IsTask :=
    fun op hop => stays _ (forall_isTask (fun _ => trivial) trivial op hop)
  refine leads_reportStatus (P := bounding) (R := fun _ _ => True) (T := fun _ _ => True)
    (fun _ h => h) ?_ ?_ (fun _ _ _ => stays _ trivial) (fun _ _ => htasks) (fun _ _ _ h => h) ?_
  · refine leads_relying (fun _ _ => trivial) ?_
    intro ans q _ _
    cases ans with
    | error e => trivial
    | ok inst => exact ⟨fun _ => trivial, fun _ => trivial⟩
  · intro inst
    exact leads_relying (fun _ _ => trivial) (fun ans _ h _ => Either.same h ans)
  intro inst _
  -- the worker's row is read, and written back with one unit less
  refine leads_settle (P := bounding) (L := fun w _ => Fits w) (fun _ _ h => h) ?_ ?_ ?_
  · intro _
    refine leads_relying (fun _ _ => trivial) ?_
    intro ans q _ hans
    cases ans with
    | error e => trivial
    | ok w => exact hans
  · intro w
    exact leads_relying (fun _ => fits_released) (fun ans _ _ _ => Either.same trivial ans)
  · exact leads_retryIfNeeded_of_keeps (fun _ h => h) htasks
      (fun _ task => stays_createRetry url task inst)

/-! ## The jobs. -/

theorem calls_cancelInstance (sid : String) : Calls Writes (Runtime.cancelInstance sid) := by
  refine calls_perform_bind trivial ?_
  intro ans
  cases ans with
  | error e => trivial
  | ok inst =>
  show Calls (S := System) Writes (if isTerminalStatus inst.status then _ else _)
  split
  · trivial
  refine calls_bind ((calls_cancelOnWorker inst sid).mono ?_) (fun _ => ⟨trivial, fun _ => trivial⟩)
  intro op hop
  cases hop <;> trivial

theorem calls_retryFailedInstance (id : Int) : Calls Writes (Tools.retryFailedInstance id) := by
  unfold Tools.retryFailedInstance
  split
  · trivial
  refine calls_perform_bind trivial ?_
  intro ans
  cases ans with
  | error e => trivial
  | ok inst =>
  show Calls (S := System) Writes (if _ then _ else _)
  split
  · trivial
  refine calls_perform_bind trivial ?_
  intro ans
  cases ans with
  | error e => trivial
  | ok task =>
  refine calls_perform_bind trivial ?_
  intro now
  refine calls_perform_bind trivial ?_
  intro ans
  cases ans with
  | error e | ok stored => trivial

/-- A registration stores no load, and a positive capacity. -/
theorem calls_registerWorker (req : Workers.WorkerRegistrationRequest) :
    Calls Writes (Workers.registerWorker req) := by
  unfold Workers.registerWorker
  split
  · trivial
  split
  · trivial
  refine calls_perform_bind trivial ?_
  intro now
  refine calls_perform_bind ⟨Int.le_refl 0, ?_⟩ ?_
  · show 0 ≤ if req.maxConcurrency ≤ 0 then (100 : Int) else req.maxConcurrency
    split <;> omega
  intro ans
  cases ans with
  | error e => trivial
  | ok u => exact ⟨trivial, fun _ => trivial⟩

theorem follows_body (url : String) {j : Job} (hj : ∀ workerID, j ≠ .heartbeat workerID) :
    Follows bounding (fun _ _ => True) () (body url j) := by
  have hcalls : ∀ {α : Type} {p : Program α}, Calls Writes p →
      Follows bounding (fun _ _ => True) () p := by
    intro α p hp
    exact Protocol.Keeps.leads (P := bounding) (A := fun _ => True)
      (fun op => stays _) hp () trivial
  cases j with
  | triggerScan => exact follows_done (triggers_course.scan fails_course url () trivial)
  | handleTask task => exact triggers_course.handleTask fails_course url task () trivial
  | retryScan =>
    apply follows_done
    refine leads_retryScan url (P := bounding) (A := fun _ => True) (N := fun _ _ => True)
      (R := fun _ _ => True) (stays _ trivial) ?_ ?_ () trivial
    · intro now
      exact leads_relying (fun _ _ => trivial) (fun ans _ h _ => Either.same h ans)
    · intro insts
      exact retries_course.retryInstances url (fun _ _ _ _ => trivial) insts
        (fun _ _ _ _ => trivial)
  | warm => exact hcalls (calls_warm.mono (fun op hop => by cases hop <;> trivial))
  | wheelTick => exact follows_done (triggers_course.processWheelTick fails_course url () trivial)
  | heapTick => exact follows_done (triggers_course.processHeapTick fails_course url () trivial)
  | onTrigger id => exact follows_done (triggers_course.onTrigger fails_course url id () trivial)
  | reportStatus req => exact stays_reportStatus url req () trivial
  | cancelInstance sid => exact hcalls (calls_cancelInstance sid)
  | publish req =>
    exact follows_outcome (triggers_course.publish (fun _ _ _ _ => trivial) req () trivial)
  | retryFailedInstance id => exact follows_outcome (hcalls (calls_retryFailedInstance id))
  | registerWorker req => exact follows_outcome (hcalls (calls_registerWorker req))
  | heartbeat workerID => exact absurd rfl (hj workerID)
  | execute workerID req =>
    exact follows_done (leads_run (fun _ => stays _ trivial) (stays _ trivial)
      (fun report _ => stays_reportStatus url report) () trivial)

/-- An eviction takes the whole load off a row that fits. -/
theorem stays_evictWorkers : ∀ (ws : List WorkerNode) (count : Nat), (∀ w ∈ ws, Fits w) →
    Stays bounding (fun _ => True) (Workers.evictWorkers ws count) := by
  intro ws
  induction ws with
  | nil => exact fun _ _ _ _ => trivial
  | cons w ws ih =>
  intro count hfit
  obtain ⟨h₀, hmax⟩ := hfit w List.mem_cons_self
  refine leads_bind (P := bounding) (B := fun _ _ => True) (stays _ ⟨Int.le_refl 0, ?_⟩) ?_
  · exact Int.le_trans h₀ hmax
  intro ans
  cases ans with
  | error e => exact fun _ _ => trivial
  | ok u => exact ih (count + 1) (fun x hx => hfit x (.tail _ hx))

/-- **Every operation but a heartbeat** writes only rows that fit. -/
theorem follows_actBody (url : String) {a : Act} (ha : ∀ workerID, a ≠ .job (.heartbeat workerID)) :
    Follows bounding (fun _ _ => True) () (actBody url a) := by
  cases a with
  | job j =>
    apply follows_body
    rintro workerID rfl
    exact ha workerID rfl
  | evictStaleWorkers timeout =>
  apply follows_bind
  refine leads_bind (P := bounding) (A := fun _ => True) (B := fun _ _ => True)
    (show Stays bounding _ (ask (.memory .now)) from stays _ trivial) ?_ () trivial
  intro now
  refine leads_bind (P := bounding)
    (B := fun _ (ans : Except Err (List WorkerNode)) => ∀ ws, ans = .ok ws → ∀ w ∈ ws, Fits w) ?_ ?_
  · refine leads_relying (fun _ _ => trivial) ?_
    rintro _ _ _ hans ws rfl
    exact hans
  intro ans
  cases ans with
  | error e => exact fun _ _ => trivial
  | ok stale => exact fun _ hq => stays_evictWorkers stale 0 (hq stale rfl) () trivial

/-! ## The result. -/

/-- Every row fits. -/
def AllFit (w : World) : Prop := ∀ x ∈ w.workers.rows, Fits x

/-- What the store answers may be relied on … -/
theorem reads_of_allFit {w : World} (h : AllFit w) (inp : Input) (op : Call) :
    Reads op (execCall inp op w).1 := by
  cases op with
  | task c | inst c | memory c | node c => trivial
  | worker c =>
  rcases exec_worker_cases inp w c with ⟨e, hexec⟩ | hexec
  · rw [hexec]
    cases c <;> trivial
  rw [hexec]
  cases c with
  | upsertWorker x => trivial
  | listStaleWorkers cutoff =>
    intro x hx
    exact h x (List.mem_of_mem_filter ((List.mem_insertionSort _).mp hx))
  | getWorker id =>
    show Reads (.worker (.getWorker id)) (w.workers.getWorker w.backend id)
    cases hget : w.workers.getWorker w.backend id with
    | error e => trivial
    | ok x => exact h x (Table.get?_some (WorkerStore.getWorker_ok hget)).1
  | listAvailableWorkers opts =>
    intro x hx
    obtain ⟨hrow, havail⟩ := WorkerStore.mem_listAvailableWorkers.mp hx
    exact ⟨h x hrow, (of_decide_eq_true havail).2⟩

/-- … and a write that fits leaves rows that fit. -/
theorem allFit_exec {w : World} (h : AllFit w) (inp : Input) {op : Call} (hop : Writes op) :
    AllFit (execCall inp op w).2 := by
  cases op with
  | task c | inst c | memory c | node c =>
    unfold AllFit
    rw [exec_workers inp w (by simp)]
    exact h
  | worker c =>
  rcases exec_worker_cases inp w c with ⟨e, hexec⟩ | hexec
  · rw [hexec]
    exact h
  rw [hexec]
  cases c with
  | getWorker id | listAvailableWorkers opts | listStaleWorkers cutoff => exact h
  | upsertWorker x =>
    intro y hy
    rcases Table.mem_upsert.mp hy with rfl | ⟨hold, _⟩
    · -- the row may get a heartbeat; load and capacity are the written ones
      unfold Fits
      rw [storedWorker_currentLoad, storedWorker_maxConcurrency]
      exact hop
    · exact h y hold

/-- Starts anything but a heartbeat, which stores a load of its own. -/
def noHeartbeat : ActStep → Bool
  | .spawn (.job (.heartbeat _)) => false
  | _ => true

/-- **THE STORED LOAD OF EVERY WORKER STAYS IN `0 … MaxConcurrency`**, for every interleaving of
all operations but heartbeats, whatever calls fail and whichever updates are lost. -/
theorem load_within_capacity {url : String} {w : World} {c : ActPool}
    (hw : ∀ x ∈ w.workers.rows, 0 ≤ x.currentLoad ∧ x.currentLoad ≤ x.maxConcurrency)
    (h : ActRuns url (fun _ l => noHeartbeat l = true) w c) :
    ∀ x ∈ c.world.workers.rows, 0 ≤ x.currentLoad ∧ x.currentLoad ≤ x.maxConcurrency := by
  refine h.relies AllFit ?_ (fun inp op _ hI => reads_of_allFit hI inp op)
    (fun inp _ _ hI hop => allFit_exec hI inp hop) hw
  intro c a ha
  apply follows_actBody
  rintro workerID rfl
  cases ha

/-- A due task, and a worker with one place. -/
def onePlace : World :=
  World.ofRows .mysql [{ id := 1, status := .enabled, nextTriggerTime := 1 }] [] []
    [{ id := "w1", status := .online, maxConcurrency := 1 }]

/-- Two scans race for the place: both get it, and the stored load is still 1 of 1. -/
theorem load_within_capacity_of_race :
    ∃ c : ActPool, ActRuns "" (fun _ l => noHeartbeat l = true) onePlace c
      ∧ c.world.instances.instances.rows.map TaskInstance.workerID = ["w1", "w1"]
      ∧ ∀ x ∈ c.world.workers.rows, 0 ≤ x.currentLoad ∧ x.currentLoad ≤ x.maxConcurrency := by
  have hrun : (runSteps execCall (actBody "") (fun _ l => noHeartbeat l) (Config.init onePlace)
      ((.spawn (.job (.onTrigger 1)) :: .spawn (.job (.onTrigger 1)) ::
        List.replicate 6 (.step 0 {}))
        ++ List.replicate 10 (.step 1 { now := 1 }) ++ List.replicate 4 (.step 0 {}))).map
      (fun c => decide (c.world.instances.instances.rows.map TaskInstance.workerID = ["w1", "w1"]))
        = some true := by
    decide
  obtain ⟨c, h, hp⟩ := exists_reaches_of_runSteps (fun _ _ h => h) hrun
  exact ⟨c, h, of_decide_eq_true hp, load_within_capacity (by decide) h⟩

end AiScheduler.LoadBounds
