/-
  **A REPORT DELIVERED AGAIN after a delivery that failed half-way.**

  `ReportStatus` stores the status FIRST, and a stored terminal status is what makes a later
  delivery a duplicate. What a failed delivery had not done of the execution times, the release of
  the worker and the retry stays undone.
-/
import AiScheduler.Proofs.Gate
import AiScheduler.Proofs.LostRetry

namespace AiScheduler.Redelivery

open Lib Gate AiScheduler.Runtime Prog Parts Router

variable {n : Nat} {r row : TaskInstance} {due : Prop}

/-! ## Deliveries. -/

/-- One delivery of a report: its reply and the world after it. -/
def deliver (url : String) (env : Nat → Input) (req : TaskStatusReportRequest)
    (w : World) : Except Err Unit × World :=
  let res := Prog.run (execAt env) (reportStatus url req) (w, 0)
  (res.1, res.2.1)

def deliveryLog (url : String) (env : Nat → Input) (req : TaskStatusReportRequest)
    (w : World) : List (Event System) :=
  Prog.events (execAt env) (reportStatus url req) (w, 0)

/-- A row without the time of its last update. -/
def unstamped (i : TaskInstance) : TaskInstance := { i with updatedAt := 0 }

/-- The same instances, retries among them, and the same worker loads. -/
structure SameOutcome (w w' : World) : Prop where
  rows : ∀ id, (w.instances.instances.get? id).map unstamped
    = (w'.instances.instances.get? id).map unstamped
  loads : ∀ id, (w.workers.get? id).map WorkerNode.currentLoad
    = (w'.workers.get? id).map WorkerNode.currentLoad

def did (kind : Call → Bool) (log : List (Event System)) : Bool :=
  log.any (fun e => kind e.1 && LostRetry.succeeded e)

@[simp] theorem did_append (kind : Call → Bool) (log log' : List (Event System)) :
    did kind (log ++ log') = (did kind log || did kind log') := List.any_append

theorem did_of_forall {kind : Call → Bool} {φ : Call → Prop} {log : List (Event System)}
    (hlog : ∀ e ∈ log, φ e.1) (hφ : ∀ op, φ op → kind op = false) : did kind log = false := by
  rw [did, List.any_eq_false]
  intro e he
  rw [hφ e.1 (hlog e he)]
  simp

theorem did_of_isTask {kind : Call → Bool} (htask : ∀ c, kind (.task c) = false)
    (hnow : kind (.memory .now) = false) {log : List (Event System)}
    (hlog : ∀ e ∈ log, IsTask e.1) : did kind log = false :=
  did_of_forall hlog (forall_isTask htask hnow)

def storesResult : Call → Bool
  | .inst (.updateInstanceResult _ _ _ _) => true
  | _ => false

def storesTimes : Call → Bool
  | .inst (.updateInstanceTimestamps _ _ _) => true
  | _ => false

def storesWorker : Call → Bool
  | .worker (.upsertWorker _) => true
  | _ => false

def createsInstance : Call → Bool
  | .inst (.createInstance _) => true
  | _ => false

/-! ## What is left to do. -/

def reportsTimes (req : TaskStatusReportRequest) : Bool :=
  req.startedAt.isSome || req.finishedAt.isSome

/-- A failure of `inst` calls for a retry when the clock shows `now`. -/
structure RetryDue (b : Backend) (tasks : TaskStore) (inst : TaskInstance)
    (req : TaskStatusReportRequest) (now : Int) : Prop where
  failed : isRetryableStatus req.status = true
  granted : ∃ row, tasks.tasks.get? inst.taskID = some row
    ∧ (inst.retryCount : Int) < (readTask b row).maxRetry
    ∧ shouldRetryOnErrors (readTask b row).retryPolicy (readTask b row).retryOnErrors
        req.errorCode = true
    ∧ ((readTask b row).retryWindowSeconds ≤ 0
        ∨ now - inst.triggerTime ≤ wrap64 ((readTask b row).retryWindowSeconds * second))

def releaseCalls (w : World) (req : TaskStatusReportRequest) : Nat :=
  if req.workerID = "" then 0 else if (w.workers.get? req.workerID).isSome then 2 else 1

def windowCall (w : World) (req : TaskStatusReportRequest) : Nat :=
  3 + (reportsTimes req).toNat + releaseCalls w req

/-- The execution times were stored, or there are none to store. -/
def TimesKept (w : World) (req : TaskStatusReportRequest) (log : List (Event System)) : Prop :=
  did storesTimes log = true ∨ reportsTimes req = false ∨ ∀ r ∈ w.instances.instances.rows,
        w.instances.addressed w.backend req.scheduleInstanceID r = true →
        unstamped (setTimestamps w.backend 0 (req.startedAt.getD 0) (req.finishedAt.getD 0) r)
          = unstamped r

/-- The worker was released, or there is none to release. -/
def WorkerReleased (w : World) (req : TaskStatusReportRequest) (log : List (Event System)) :
    Prop :=
  did storesWorker log = true ∨ req.workerID = ""
    ∨ ∀ v, w.workers.get? req.workerID = some v → v.currentLoad ≤ 0

/-- **Nothing was lost**: the delivery failed before it stored the status, or all else was done. -/
def NothingLost (w : World) (req : TaskStatusReportRequest) (log : List (Event System))
    (now : Int) : Prop :=
  did storesResult log = false
    ∨ did createsInstance log = false ∧ TimesKept w req log ∧ WorkerReleased w req log
      ∧ ∀ r, w.instances.bySchedule w.backend req.scheduleInstanceID = some r →
          ¬ RetryDue w.backend w.tasks (readInstance w.backend r) req now

/-! ## The retry. -/

/-- The row with this id has a status with `P`, and the others are those of `s`. -/
structure RowAt (s : InstanceStore) (k : Int) (P : InstanceStatus → Prop) (w : World) : Prop where
  row : ∃ row, w.instances.instances.get? k = some row ∧ P row.status
  others : ∀ id, id ≠ k → w.instances.instances.get? id = s.instances.get? id

section RowAt

variable {s : InstanceStore} {k : Int} {P Q : InstanceStatus → Prop} {w w' : World}

theorem RowAt.mono (h : RowAt s k P w) (himp : ∀ st, P st → Q st) : RowAt s k Q w :=
  ⟨h.row.imp fun _ hrow => ⟨hrow.1, himp _ hrow.2⟩, h.others⟩

theorem RowAt.of_eq (h : RowAt s k P w) (heq : w'.instances = w.instances) : RowAt s k P w' :=
  ⟨heq ▸ h.row, heq ▸ h.others⟩

theorem RowAt.update (h : RowAt s k P w) {f : TaskInstance → TaskInstance}
    {hf : ∀ i, (f i).id = i.id} (hQ : ∀ r, Q (f r).status) {ans : Except Err Unit}
    {s' : InstanceStore} (hexec : w.instances.updateByID w.backend k f hf = (ans, s')) :
    ans = .ok () ∧ RowAt s k Q { w with instances := s' } := by
  obtain ⟨row, hrow, _⟩ := h.row
  rw [InstanceStore.updateByID_of_get? hrow] at hexec
  cases hexec
  refine ⟨rfl, ⟨f row, ?_, hQ row⟩, ?_⟩
  · rw [InstanceStore.get?_rewrite_of_some hrow, if_pos]
    exact decide_eq_true (Table.get?_some hrow).2
  · intro id hid
    have hothers := h.others id hid
    have hne : ∀ r, w.instances.instances.get? id = some r → r.id = id := fun _ h =>
      (Table.get?_some h).2
    cases hother : w.instances.instances.get? id <;> grind [InstanceStore.get?_rewrite]

end RowAt

section Retry

variable {env : Nat → Input} {β : Type}

variable {w : World} {s : InstanceStore} {k : Int} {P : InstanceStatus → Prop} {noFaults : Prop}
  {log : List (Event System)} {url : String} {task : Task} {inst : TaskInstance}

theorem wpLog_ask_of_ne_inst {c : Call} (hc : ∀ i, c ≠ .inst i) {f : c.Ans → Program β}
    {post : β → List (Event System) → World × Nat → Prop}
    (h : ∀ ans w', w'.instances = w.instances → wpLog (execAt env) (f ans)
      (fun r log => post r (⟨c, ans⟩ :: log)) (w', n + 1)) :
    wpLog (execAt env) (ask c >>= f) post (w, n) :=
  h _ _ (exec_instances (env n) w hc)

theorem rowAt_of_ne_inst (op : Call)
    (hop : ∀ i, op ≠ .inst i) (x : World × Nat) (hx : RowAt s k P x.1) :
    RowAt s k P (execAt env op x).2.1 :=
  hx.of_eq (exec_instances (env x.2) x.1 hop)

theorem ne_inst_of_isRouting {op : Call} (h : IsRouting op) : ∀ i, op ≠ .inst i := by
  rintro i rfl
  exact h

/-- What an attempt to send a stored retry can end with. -/
def Sent (noFaults : Prop) (r : Except Err Unit) (st : InstanceStatus) : Prop :=
  (r ≠ .ok () → st = .pending) ∧ (r = .ok () → noFaults → st = .retryWaiting ∨ st = .dispatched)

theorem sent_error (e : Err) : Sent noFaults (.error e) .pending :=
  ⟨fun _ => rfl, fun h => by cases h⟩

theorem sent_ok {st : InstanceStatus}
    (h : st = .retryWaiting ∨ st = .dispatched) :
    Sent noFaults (.ok ()) st :=
  ⟨fun hne => absurd rfl hne, fun _ _ => h⟩

theorem wpLog_release_ret {worker : WorkerNode} {r : Except Err Unit} (h : RowAt s k P w) :
    wpLog (execAt env) (release worker >>= fun _ => (ret r : Program _))
      (fun r' _ x => r' = r ∧ RowAt s k P x.1) (w, n) := by
  rw [wpLog_bind]
  refine (wpLog_of_calls (I := fun x => RowAt s k P x.1)
    (fun op hop x hx => rowAt_of_ne_inst op (ne_inst_of_isRouting hop) x hx)
    (calls_release worker) h).mono ?_
  intro _ _ x hx
  exact ⟨rfl, hx.1⟩

theorem wpLog_sendRetry (noFaults : Prop) (req : ExecuteTaskRequest)
    (worker : WorkerNode) (h : RowAt s k (· = .pending) w) :
    wpLog (execAt env) (sendRetry req k worker)
      (fun r _ x => RowAt s k (Sent noFaults r) x.1) (w, n) := by
  unfold sendRetry
  rw [wpLog_timeNow_bind]
  apply wpLog_inst_bind
  · intro _ e
    refine (wpLog_release_ret h).mono ?_
    rintro r _ x ⟨rfl, hx⟩
    exact hx.mono (by rintro st rfl; exact sent_error e)
  intro ans s' hexec
  obtain ⟨rfl, hdispatched⟩ := h.update (Q := (· = .dispatched)) (fun _ => rfl) hexec
  refine wpLog_ask_of_ne_inst (by simp) ?_
  intro ans w₂ hw₂
  have h₂ := hdispatched.of_eq hw₂
  cases ans with
  | ok u => exact h₂.mono (fun st hst => sent_ok (.inr hst))
  | error e =>
  -- the status may stay `dispatched`: that update's error is ignored
  have hrest : ∀ {w₃ : World} {n₃ : Nat},
      RowAt s k (fun st => st = .retryWaiting ∨ st = .dispatched) w₃ →
      wpLog (execAt env) (release worker >>= fun _ => (ret (.ok ()) : Program (Except Err Unit)))
        (fun r _ x => RowAt s k (Sent noFaults r) x.1) (w₃, n₃) := by
    intro w₃ n₃ h₃
    refine (wpLog_release_ret h₃).mono ?_
    rintro r _ x ⟨rfl, hx⟩
    exact hx.mono (fun st hst => sent_ok hst)
  apply wpLog_inst_bind
  · intro _ e'
    exact hrest (h₂.mono (fun st hst => .inr hst))
  · intro ans s' hexec
    exact hrest (h₂.update (fun _ => .inl rfl) hexec).2

theorem wpLog_createInstance_bind {i : TaskInstance} {f : Except Err TaskInstance → Program β}
    {post : β → List (Event System) → World × Nat → Prop}
    (herr : ∀ e, wpLog (execAt env) (f (.error e))
      (fun r log => post r (⟨.inst (.createInstance i), .error e⟩ :: log)) (w, n + 1))
    (hok : ∀ stored w', stored.id = w.instances.nextID →
      RowAt w.instances w.instances.nextID (· = i.status) w' → wpLog (execAt env) (f (.ok stored))
        (fun r log => post r (⟨.inst (.createInstance i), .ok stored⟩ :: log)) (w', n + 1)) :
    wpLog (execAt env) (createInstance i >>= f) post (w, n) := by
  apply wpLog_inst_bind
  · intro _ e
    exact herr e
  intro ans s hexec
  rcases w.instances.createInstance_cases w.backend (env n).now i with ⟨e, he⟩ | he
  · rw [show InstanceCall.exec _ _ (.createInstance i) _ = _ from he] at hexec
    cases hexec
    exact herr e
  rw [show InstanceCall.exec _ _ (.createInstance i) _ = _ from he] at hexec
  cases hexec
  refine hok _ _ (by simp) ⟨⟨w.instances.newRow w.backend (env n).now i, ?_, ?_⟩, ?_⟩
  · exact (InstanceStore.get?_insert _ _ _ _ _).trans (if_pos rfl)
  · exact InstanceStore.newRow_status _ _ _ _
  · intro id hid
    exact (InstanceStore.get?_insert _ _ _ _ _).trans (if_neg hid)

/-- What `createRetry` and `retryIfNeeded` leave, by what their log shows. -/
structure Retrying (env : Nat → Input) (w : World) (due : Prop) (r : Except Err Unit)
    (log : List (Event System)) (x : World × Nat) : Prop where
  idle : did createsInstance log = false → x.1.instances = w.instances ∧ x.1.workers = w.workers
    ∧ did storesWorker log = false ∧ did storesTimes log = false
  retried : did createsInstance log = true →
    RowAt w.instances w.instances.nextID (Sent (NoFaults env) r) x.1
  isDue : NoFaults env → r = .ok () → (did createsInstance log = true ↔ due)

theorem retrying_refused {e : Err} (hcreated : did createsInstance log = false)
    (hworker : did storesWorker log = false) (htimes : did storesTimes log = false) :
    Retrying env w due (.error e) log (w, n) := by
  constructor <;> grind

theorem retrying_stored (hdue : due) {r : Except Err Unit} {x : World × Nat}
    (hcreated : did createsInstance log = true)
    (hrow : RowAt w.instances w.instances.nextID (Sent (NoFaults env) r) x.1) :
    Retrying env w due r log x := by
  constructor <;> grind

theorem wpLog_retryNow
    {retry : TaskInstance} (hpending : retry.status = .pending) (hdue : due)
    {n : Nat} :
    wpLog (execAt env) (retryNow url task inst retry) (Retrying env w due) (w, n) := by
  apply wpLog_createInstance_bind
  · intro e
    exact retrying_refused rfl rfl rfl
  intro stored w₁ hid hrow
  rw [hpending, ← hid] at hrow
  -- from here on the log only grows
  suffices hsend : wpLog (execAt env) (_ : Program (Except Err Unit))
      (fun r _ x => RowAt w.instances stored.id (Sent (NoFaults env) r) x.1) (w₁, n + 1) by
    refine hsend.mono ?_
    intro r log x hx
    rw [hid] at hx
    exact retrying_stored hdue rfl hx
  rw [wpLog_bind]
  refine (wpLog_of_calls (I := fun x => RowAt w.instances stored.id (· = .pending) x.1)
    (fun op hop x hx => rowAt_of_ne_inst op (ne_inst_of_isRouting hop) x hx)
    (calls_pick _) hrow).mono ?_
  rintro picked log ⟨w₂, n₂⟩ ⟨h₂, _⟩
  cases picked with
  | ok worker =>
    dsimp only
    rw [runtime_dispatchRetry]
    exact wpLog_sendRetry _ _ worker h₂
  | error e =>
  dsimp only
  split
  · apply wpLog_inst_bind
    · intro hfault _
      refine h₂.mono ?_
      intro st _
      exact ⟨fun hne => absurd rfl hne, fun _ hno => absurd (hno n₂) hfault⟩
    · intro ans s hexec
      exact (h₂.update (Q := (· = .retryWaiting)) (fun _ => rfl) hexec).2.mono
        (fun st hst => sent_ok (.inl hst))
  · exact h₂.mono (by rintro st rfl; exact sent_error e)

theorem wpLog_createRetry
    (hdue : due) {n : Nat} :
    wpLog (execAt env) (createRetry url task inst) (Retrying env w due) (w, n) := by
  unfold createRetry
  rw [wpLog_timeNow_bind, wpLog_timeNow_bind]
  dsimp only
  split
  · unfold retryLater
    rw [wpLog_timeNow_bind]
    apply wpLog_createInstance_bind
    · intro e
      exact retrying_refused rfl rfl rfl
    · intro stored w' _ hrow
      exact retrying_stored hdue rfl (hrow.mono (fun st hst => sent_ok (.inl hst)))
  · refine (wpLog_retryNow rfl hdue).mono ?_
    intro r log x hx
    exact ⟨hx.idle, hx.retried, hx.isDue⟩

theorem retrying_done (hdue : ¬ due) (hcreated : did createsInstance log = false)
    (hworker : did storesWorker log = false) (htimes : did storesTimes log = false) :
    Retrying env w due (.ok ()) log (w, n) := by
  constructor <;> grind

theorem wpLog_retryIfNeeded
    {req : TaskStatusReportRequest} {n : Nat} :
    wpLog (execAt env) (retryIfNeeded url inst req)
      (Retrying env w (RetryDue w.backend w.tasks inst req (env (n + 1)).now)) (w, n) := by
  unfold retryIfNeeded
  split
  next hstatus =>
    refine retrying_done ?_ rfl rfl rfl
    intro hdue
    rw [hdue.failed] at hstatus
    cases hstatus
  next hstatus =>
  have hfailed : isRetryableStatus req.status = true := by simpa using hstatus
  apply wpLog_task_bind
  · intro _ e
    exact retrying_refused rfl rfl rfl
  intro ans s hexec
  have hread : (w.tasks.getTask w.backend inst.taskID, w.tasks) = (ans, s) := hexec
  cases hread
  cases hrow : w.tasks.tasks.get? inst.taskID with
  | none =>
    simp only [TaskStore.getTask, hrow]
    exact retrying_refused rfl rfl rfl
  | some row =>
  simp only [TaskStore.getTask, hrow]
  -- what a due retry would say about the stored task
  have hgranted : ∀ {now : Int}, RetryDue w.backend w.tasks inst req now →
      (inst.retryCount : Int) < (readTask w.backend row).maxRetry
        ∧ shouldRetryOnErrors (readTask w.backend row).retryPolicy
            (readTask w.backend row).retryOnErrors req.errorCode = true
        ∧ ((readTask w.backend row).retryWindowSeconds ≤ 0 ∨ now - inst.triggerTime
                ≤ wrap64 ((readTask w.backend row).retryWindowSeconds * second)) := by
    rintro now ⟨_, row', hrow', hgranted⟩
    rw [hrow] at hrow'
    cases hrow'
    exact hgranted
  split
  next hleft =>
    refine retrying_done ?_ rfl rfl rfl
    intro hdue
    have := (hgranted hdue).1
    omega
  next hleft =>
  split
  next hcode =>
    refine retrying_done ?_ rfl rfl rfl
    intro hdue
    rw [(hgranted hdue).2.1] at hcode
    cases hcode
  next hcode =>
  have hcode : shouldRetryOnErrors (readTask w.backend row).retryPolicy
      (readTask w.backend row).retryOnErrors req.errorCode = true := by simpa using hcode
  rw [wpLog_bind]
  unfold retryWindowExceeded
  split
  next hwindow =>
    have hdue : RetryDue w.backend w.tasks inst req (env (n + 1)).now :=
      ⟨hfailed, row, hrow, by omega, hcode, .inl hwindow⟩
    rw [wpLog_pure, if_neg Bool.false_ne_true]
    refine (wpLog_createRetry hdue).mono ?_
    intro r log x hx
    exact ⟨hx.idle, hx.retried, hx.isDue⟩
  next hwindow =>
    rw [wpLog_timeNow_bind]
    by_cases hlate : (env (n + 1)).now - inst.triggerTime
        > wrap64 ((readTask w.backend row).retryWindowSeconds * second)
    · rw [decide_eq_true hlate]
      refine retrying_done ?_ rfl rfl rfl
      intro hdue
      rcases (hgranted hdue).2.2 with h | h
      · exact hwindow h
      · omega
    have hdue : RetryDue w.backend w.tasks inst req (env (n + 1)).now :=
      ⟨hfailed, row, hrow, by omega, hcode, .inr (by omega)⟩
    rw [decide_eq_false hlate, wpLog_pure, if_neg Bool.false_ne_true]
    refine (wpLog_createRetry hdue).mono ?_
    intro r log x hx
    exact ⟨hx.idle, hx.retried, hx.isDue⟩

end Retry

/-! ## The end of a delivery. -/

section Settle

variable {env : Nat → Input}

variable {w : World} {req : TaskStatusReportRequest}

def loadAfter (released : Bool) (req : TaskStatusReportRequest) (w : World) (id : String) :
    Option Int :=
  (w.workers.get? id).map (fun v =>
    if released = true ∧ id = req.workerID then (Router.released v).currentLoad else v.currentLoad)

/-- What the release of the worker and the retry leave, by what their log shows. -/
structure Settling (env : Nat → Input) (w : World) (req : TaskStatusReportRequest) (due : Prop)
    (r : Except Err Unit) (log : List (Event System)) (x : World × Nat) : Prop where
  idle : did createsInstance log = false → x.1.instances = w.instances ∧ did storesTimes log = false
    ∧ ∀ id, (x.1.workers.get? id).map WorkerNode.currentLoad
        = loadAfter (did storesWorker log) req w id
  retried : did createsInstance log = true →
    RowAt w.instances w.instances.nextID (Sent (NoFaults env) r) x.1
  isDue : NoFaults env → r = .ok () → (did createsInstance log = true ↔ due)
  released : NoFaults env → did createsInstance log = false → did storesWorker log = true
    ∨ req.workerID = "" ∨ w.workers.get? req.workerID = none
  given : did createsInstance log = false → did storesWorker log = true → req.workerID ≠ ""

theorem loadAfter_false (req : TaskStatusReportRequest) (w : World) (id : String) :
    loadAfter false req w id = (w.workers.get? id).map WorkerNode.currentLoad := by
  congr 1

theorem released_id (v : WorkerNode) : (released v).id = v.id := by
  unfold released
  split <;> rfl

theorem load_upsert_released {v : WorkerNode}
    (hv : w.workers.get? req.workerID = some v) (now : Int) (id : String) :
    ((w.workers.upsertWorker w.backend now (released v)).get? id).map WorkerNode.currentLoad
      = loadAfter true req w id := by
  have hid : (released v).id = req.workerID := (released_id v).trans (Table.get?_some hv).2
  rw [WorkerStore.get?_upsertWorker, hid]
  unfold loadAfter
  by_cases h : id = req.workerID
  · rw [if_pos h, h, hv]
    simp
  · rw [if_neg h]
    simp [h]

theorem Retrying.settling {due' : Prop}
    {r : Except Err Unit} {log : List (Event System)} {x : World × Nat}
    (h : Retrying env w due r log x) (hdue : NoFaults env → (due ↔ due'))
    (hnone : NoFaults env → req.workerID = "" ∨ w.workers.get? req.workerID = none) :
    Settling env w req due' r log x := by
  obtain ⟨hidle, hretried, hisDue⟩ := h
  constructor <;> grind [loadAfter_false]

theorem wpLog_settle {url : String} {inst : TaskInstance} {n : Nat} :
    wpLog (execAt env) (settle url inst req)
      (Settling env w req (RetryDue w.backend w.tasks inst req
        (env (n + releaseCalls w req + 1)).now)) (w, n) := by
  unfold settle
  split
  next hnoWorker =>
    refine (wpLog_retryIfNeeded).mono ?_
    intro r log x hx
    refine hx.settling ?_ (fun _ => .inl hnoWorker)
    intro _
    unfold releaseCalls
    rw [if_pos hnoWorker]
  next hworker =>
  -- the worker is not read: nothing is released
  have hunread : ∀ {e : Err}, (NoFaults env → w.workers.get? req.workerID = none) →
      wpLog (execAt env) (retryIfNeeded url inst req)
        (fun r log => Settling env w req (RetryDue w.backend w.tasks inst req
          (env (n + releaseCalls w req + 1)).now) r
          (⟨.worker (.getWorker req.workerID), .error e⟩ :: log)) (w, n + 1) := by
    intro e hnone
    refine (wpLog_retryIfNeeded).mono ?_
    intro r log x hx
    have hset : Settling env w req (RetryDue w.backend w.tasks inst req
        (env (n + releaseCalls w req + 1)).now) r log x := by
      refine hx.settling ?_ (fun hno => .inr (hnone hno))
      intro hno
      unfold releaseCalls
      rw [if_neg hworker, hnone hno]
      exact Iff.rfl
    exact ⟨hset.idle, hset.retried, hset.isDue, hset.released, hset.given⟩
  apply wpLog_worker_bind
  · intro hfault e
    exact hunread (fun hno => absurd (hno n) hfault)
  intro ans s hexec
  have hread : (w.workers.getWorker w.backend req.workerID, w.workers) = (ans, s) := hexec
  obtain ⟨rfl, rfl⟩ := Prod.mk.inj hread
  cases hget : w.workers.getWorker w.backend req.workerID with
  | error e =>
    refine hunread (fun _ => ?_)
    cases hv : w.workers.get? req.workerID with
    | none => rfl
    | some v =>
      rw [WorkerStore.getWorker_of_get? hv] at hget
      cases hget
  | ok v =>
  have hv := WorkerStore.getWorker_ok hget
  apply wpLog_worker_bind
  · intro hfault e
    refine ⟨fun _ => ⟨rfl, rfl, fun id => (loadAfter_false req w id).symm⟩,
      fun h => (by cases h), fun _ h => (by cases h),
      fun hno => absurd (hno (n + 1)) hfault, fun _ _ => hworker⟩
  intro ans s hexec
  have hwrite : ((.ok (), w.workers.upsertWorker w.backend (env (n + 1)).now
      (released v)) : Except Err Unit × WorkerStore) = (ans, s) := hexec
  cases hwrite
  refine (wpLog_retryIfNeeded).mono ?_
  intro r log x hx
  refine ⟨?_, hx.retried, ?_, fun _ _ => .inl rfl, fun _ _ => hworker⟩
  · intro hcreated
    obtain ⟨hinst, hworkers, _, htimes⟩ := hx.idle hcreated
    refine ⟨hinst, htimes, ?_⟩
    intro id
    rw [hworkers]
    exact load_upsert_released hv _ id
  intro hno hr
  have hcalls : releaseCalls w req = 2 := by
    unfold releaseCalls
    rw [if_neg hworker, hv]
    rfl
  rw [hcalls]
  exact hx.isDue hno hr

end Settle

/-! ## The whole delivery. -/

section Stores

variable (b : Backend) (req : TaskStatusReportRequest) (now : Int)

def withStatus (s : InstanceStore) : InstanceStore :=
  s.rewrite (s.addressed b req.scheduleInstanceID)
    (setResult now req.status req.errorCode req.errorMessage) (fun _ => rfl)

def withTimes (s : InstanceStore) : InstanceStore :=
  s.rewrite (s.addressed b req.scheduleInstanceID)
    (setTimestamps b now (req.startedAt.getD 0) (req.finishedAt.getD 0))
    (setTimestamps_id b now _ _)

def reported (timed : Bool) (r : TaskInstance) : TaskInstance :=
  let marked := setResult 0 req.status req.errorCode req.errorMessage r
  if timed = true then
    unstamped (setTimestamps b 0 (req.startedAt.getD 0) (req.finishedAt.getD 0) marked)
  else unstamped marked

def rowAfter (s : InstanceStore) (timed : Bool) (r : TaskInstance) : TaskInstance :=
  if s.addressed b req.scheduleInstanceID r = true then reported b req timed r else unstamped r

theorem reported_status (timed : Bool) (r : TaskInstance) :
    (reported b req timed r).status = req.status := by
  cases timed with
  | false => rfl
  | true => exact setTimestamps_status b 0 _ _ _

theorem setResult_scheduleInstanceID (r : TaskInstance) :
    (setResult now req.status req.errorCode req.errorMessage r).scheduleInstanceID
      = r.scheduleInstanceID := rfl

theorem get?_reported (s : InstanceStore) (now' : Int) (timed : Bool) (id : Int) :
    ((if timed = true then withTimes b req now' (withStatus b req now s)
        else withStatus b req now s).instances.get? id).map unstamped
      = (s.instances.get? id).map (rowAfter b req s timed) := by
  have hmarked : (withStatus b req now s).instances.get? id = (s.instances.get? id).map (fun r =>
          if s.addressed b req.scheduleInstanceID r = true
          then setResult now req.status req.errorCode req.errorMessage r else r) :=
    InstanceStore.get?_rewrite s _ _ _ id
  cases timed with
  | false =>
    rw [if_neg Bool.false_ne_true, hmarked, Option.map_map]
    congr 1
    funext r
    simp only [Function.comp_apply, rowAfter]
    split <;> rfl
  | true =>
  rw [if_pos rfl]
  unfold withTimes
  rw [InstanceStore.get?_rewrite, hmarked, Option.map_map, Option.map_map]
  congr 1
  funext r
  have haddressed : ∀ r' : TaskInstance, r'.id = r.id →
      r'.scheduleInstanceID = r.scheduleInstanceID →
      (withStatus b req now s).addressed b req.scheduleInstanceID r'
        = s.addressed b req.scheduleInstanceID r := by
    intro r' hid hsid
    exact InstanceStore.addressed_rewrite (setResult_scheduleInstanceID req now) b _ hid hsid
  have hself := haddressed r rfl rfl
  have hset := haddressed (setResult now req.status req.errorCode req.errorMessage r) rfl rfl
  simp only [Function.comp_apply, rowAfter]
  cases b <;> grind [reported, unstamped, setTimestamps, setResult]

theorem bySchedule_reported {s : InstanceStore}
    (h : s.bySchedule b req.scheduleInstanceID = some r) (now' : Int) (timed : Bool) :
    ∃ r', (if timed = true then withTimes b req now' (withStatus b req now s)
        else withStatus b req now s).bySchedule b req.scheduleInstanceID = some r'
      ∧ r'.status = req.status := by
  have hmarked : (withStatus b req now s).bySchedule b req.scheduleInstanceID
      = some (setResult now req.status req.errorCode req.errorMessage r) := by
    refine (InstanceStore.bySchedule_rewrite (setResult_scheduleInstanceID req now) b _).trans ?_
    rw [h, Option.map_some, if_pos (InstanceStore.addressed_of_bySchedule h)]
  cases timed with
  | false => exact ⟨_, hmarked, rfl⟩
  | true =>
  refine ⟨setTimestamps b now' (req.startedAt.getD 0) (req.finishedAt.getD 0)
    (setResult now req.status req.errorCode req.errorMessage r), ?_, ?_⟩
  · rw [if_pos rfl]
    refine (InstanceStore.bySchedule_rewrite
      (fun i => setTimestamps_scheduleInstanceID b now' _ _ i) b _).trans ?_
    rw [hmarked, Option.map_some, if_pos (InstanceStore.addressed_of_bySchedule hmarked)]
  · rw [setTimestamps_status]
    rfl

theorem status_reported {s : InstanceStore} {id : Int}
    (hrow : s.instances.get? id = some row) (now' : Int) (timed : Bool) :
    ∃ row', (if timed = true then withTimes b req now' (withStatus b req now s)
        else withStatus b req now s).instances.get? id = some row'
      ∧ (row'.status = row.status ∨ row'.status = req.status) := by
  have h := get?_reported b req now s now' timed id
  rw [hrow, Option.map_some] at h
  obtain ⟨row', hrow', hrow''⟩ := Option.map_eq_some_iff.mp h
  refine ⟨row', hrow', ?_⟩
  have hstatus : row'.status = (rowAfter b req s timed row).status := by
    rw [← hrow'']
    rfl
  have hreported := reported_status b req timed row
  grind [rowAfter, unstamped]

end Stores

section Report

variable {env : Nat → Input}

variable {w : World} {req : TaskStatusReportRequest} {inst : TaskInstance} {url : String}

/-- The instance is known and not finished. -/
structure Open (w : World) (req : TaskStatusReportRequest) (r : TaskInstance) : Prop where
  given : req.scheduleInstanceID ≠ ""
  found : w.instances.bySchedule w.backend req.scheduleInstanceID = some r
  unfinished : isTerminalStatus r.status = false

/-- What storing the times leaves. -/
structure Timing (env : Nat → Input) (w : World) (n : Nat) (req : TaskStatusReportRequest)
    (log : List (Event System)) (x : World × Nat) : Prop where
  world : ∃ now, x.1 = { w with
    instances := if did storesTimes log = true then withTimes w.backend req now w.instances
      else w.instances }
  calls : x.2 = n + (reportsTimes req).toNat
  others : did createsInstance log = false ∧ did storesWorker log = false
  asked : did storesTimes log = true → reportsTimes req = true
  timed : NoFaults env → reportsTimes req = true → did storesTimes log = true

theorem wpLog_reportTimestamps (req : TaskStatusReportRequest)
    (hfound : w.instances.bySchedule w.backend req.scheduleInstanceID = some r) (n : Nat) :
    wpLog (execAt env) (reportTimestamps req) (fun _ => Timing env w n req) (w, n) := by
  have hasked : (req.startedAt.isSome ∨ req.finishedAt.isSome) ↔ reportsTimes req = true := by
    unfold reportsTimes
    rw [Bool.or_eq_true]
  unfold reportTimestamps
  split
  next htimes =>
    have htimes := hasked.mp htimes
    have hcalls : n + 1 = n + (reportsTimes req).toNat := by rw [htimes]; rfl
    apply wpLog_inst_bind
    · intro hfault e
      exact ⟨⟨0, rfl⟩, hcalls, ⟨rfl, rfl⟩, fun _ => htimes, fun hno => absurd (hno n) hfault⟩
    intro ans s hexec
    obtain ⟨hmem, hsid⟩ := InstanceStore.bySchedule_some hfound
    have hwrite : w.instances.updateBySchedule w.backend req.scheduleInstanceID
        (setTimestamps w.backend (env n).now (req.startedAt.getD 0) (req.finishedAt.getD 0))
        (setTimestamps_id _ _ _ _) = (ans, s) := hexec
    rw [← hsid, InstanceStore.updateBySchedule_of_mem hmem, hsid] at hwrite
    cases hwrite
    exact ⟨⟨(env n).now, rfl⟩, hcalls, ⟨rfl, rfl⟩, fun _ => htimes, fun _ _ => rfl⟩
  next htimes =>
    have htimes : reportsTimes req = false := by
      rw [hasked] at htimes
      simpa using htimes
    refine ⟨⟨0, rfl⟩, ?_, ⟨rfl, rfl⟩, fun h => (by cases h), fun _ h => ?_⟩
    · rw [htimes]
      rfl
    · rw [htimes] at h
      cases h

/-- What a delivery leaves once the status is stored, by what its log shows. -/
structure Settled (env : Nat → Input) (w : World) (n : Nat) (req : TaskStatusReportRequest)
    (inst : TaskInstance) (r : Except Err Unit) (log : List (Event System)) (x : World × Nat) :
    Prop where
  idle : did createsInstance log = false → (∃ now, x.1.instances
      = if did storesTimes log = true then withTimes w.backend req now w.instances
        else w.instances)
    ∧ ∀ id, (x.1.workers.get? id).map WorkerNode.currentLoad
        = loadAfter (did storesWorker log) req w id
  retried : did createsInstance log = true → ∃ timed now,
    RowAt (if timed = true then withTimes w.backend req now w.instances else w.instances)
      w.instances.nextID (Sent (NoFaults env) r) x.1
  isDue : NoFaults env → r = .ok () → (did createsInstance log = true
    ↔ RetryDue w.backend w.tasks inst req
        (env (n + (reportsTimes req).toNat + releaseCalls w req + 1)).now)
  released : NoFaults env → did createsInstance log = false → did storesWorker log = true
    ∨ req.workerID = "" ∨ w.workers.get? req.workerID = none
  given : did createsInstance log = false → did storesWorker log = true → req.workerID ≠ ""
  asked : did createsInstance log = false → did storesTimes log = true → reportsTimes req = true
  timed : NoFaults env → reportsTimes req = true → did storesTimes log = true

theorem Timing.settled {w₁ : World} {n₁ : Nat} {log₁ log₂ : List (Event System)}
    {r : Except Err Unit}
    {x : World × Nat} (h₁ : Timing env w n req log₁ (w₁, n₁)) {w₂ : World}
    (hinst : w₂.instances = w₁.instances) (hworkers : w₂.workers = w₁.workers)
    (h₂ : Settling env w₂ req due r log₂ x)
    (hdue : NoFaults env → (due ↔ RetryDue w.backend w.tasks inst req
        (env (n + (reportsTimes req).toNat + releaseCalls w req + 1)).now)) :
    Settled env w n req inst r (log₁ ++ log₂) x := by
  obtain ⟨now, hworld⟩ := h₁.world
  have hworld : w₁ = _ := hworld
  subst hworld
  have hcreated : did createsInstance (log₁ ++ log₂) = did createsInstance log₂ := by
    rw [did_append, h₁.others.1, Bool.false_or]
  have hstored : did storesWorker (log₁ ++ log₂) = did storesWorker log₂ := by
    rw [did_append, h₁.others.2, Bool.false_or]
  have hnext : w₂.instances.nextID = w.instances.nextID := by
    rw [hinst]
    split <;> rfl
  obtain ⟨hidle, hretried, hisDue, hreleased, hgiven⟩ := h₂
  rw [← hcreated] at hidle hretried hisDue hreleased hgiven
  constructor
  · intro h
    obtain ⟨hx, htimes, hloads⟩ := hidle h
    refine ⟨⟨now, by rw [hx, hinst, did_append, htimes, Bool.or_false]⟩, fun id => ?_⟩
    rw [hloads id, hstored]
    unfold loadAfter
    rw [show w₂.workers = w.workers from hworkers]
  · intro h
    have hrow := hretried h
    rw [hnext, hinst] at hrow
    exact ⟨did storesTimes log₁, now, hrow⟩
  · exact fun hno hr => (hisDue hno hr).trans (hdue hno)
  · rw [hstored, show w.workers = w₂.workers from hworkers.symm]
    exact hreleased
  · rw [hstored]
    exact hgiven
  · intro h
    rw [did_append, (hidle h).2.1, Bool.or_false]
    exact h₁.asked
  · intro hno hasked
    rw [did_append, h₁.timed hno hasked, Bool.true_or]

/-- **`ReportStatus` once the status is stored.** -/
theorem wpLog_afterStore (hterm : isTerminalStatus req.status = true)
    (hfound : w.instances.bySchedule w.backend req.scheduleInstanceID = some r)
    {n : Nat} :
    wpLog (execAt env) (afterStore url inst req) (Settled env w n req inst) (w, n) := by
  unfold afterStore
  rw [wpLog_bind]
  refine (wpLog_reportTimestamps req hfound n).mono ?_
  rintro _ log₁ ⟨w₁, n₁⟩ h₁
  obtain ⟨now, hworld⟩ := h₁.world
  have hbackend : w₁.backend = w.backend ∧ w₁.tasks = w.tasks ∧ w₁.workers = w.workers := by
    have hworld : w₁ = _ := hworld
    rw [hworld]
    exact ⟨rfl, rfl, rfl⟩
  have hcalls : releaseCalls w₁ req = releaseCalls w req := by
    unfold releaseCalls
    rw [hbackend.2.2]
  have hn₁ : n₁ = n + (reportsTimes req).toNat := h₁.calls
  split
  next hrunning =>
    rw [hrunning] at hterm
    cases hterm
  split
  next hsuccess =>
    -- a success is never retried, whatever the fired tasks look like
    have hnotDue : ∀ {b : Backend} {tasks : TaskStore} {now : Int},
        ¬ RetryDue b tasks inst req now := by
      intro b tasks now hdue
      have hfailed := hdue.failed
      rw [hsuccess] at hfailed
      cases hfailed
    rw [wpLog_bind]
    refine (wpLog_of_calls
      (I := fun x : World × Nat => x.1.instances = w₁.instances ∧ x.1.workers = w₁.workers)
      (fun op hop x hx => ?_) (calls_fireDownstream inst) ⟨rfl, rfl⟩).mono ?_
    · have hne : (∀ c, op ≠ .inst c) ∧ (∀ c, op ≠ .worker c) := by
        constructor
        · rintro c rfl
          exact hop
        · rintro c rfl
          exact hop
      exact ⟨(exec_instances (env x.2) x.1 hne.1).trans hx.1,
        (exec_workers (env x.2) x.1 hne.2).trans hx.2⟩
    rintro _ log₂ ⟨w₂, n₂⟩ ⟨⟨hinst, hworkers⟩, hlog⟩
    refine (wpLog_settle).mono ?_
    intro r' log₃ x h₃
    have hcreated : did createsInstance (log₂ ++ log₃) = did createsInstance log₃ := by
      rw [did_append, did_of_isTask (fun _ => rfl) rfl hlog, Bool.false_or]
    have hstored : did storesWorker (log₂ ++ log₃) = did storesWorker log₃ := by
      rw [did_append, did_of_isTask (fun _ => rfl) rfl hlog, Bool.false_or]
    have htimes : did storesTimes (log₂ ++ log₃) = did storesTimes log₃ := by
      rw [did_append, did_of_isTask (fun _ => rfl) rfl hlog, Bool.false_or]
    have hset : Settling env w₂ req False r' (log₂ ++ log₃) x := by
      constructor
      · rw [hcreated, hstored, htimes]
        exact h₃.idle
      · rw [hcreated]
        exact h₃.retried
      · rw [hcreated]
        intro hno hr
        exact (h₃.isDue hno hr).trans ⟨hnotDue, False.elim⟩
      · rw [hcreated, hstored]
        exact h₃.released
      · rw [hcreated, hstored]
        exact h₃.given
    exact h₁.settled hinst hworkers hset (fun _ => ⟨False.elim, hnotDue⟩)
  next hsuccess =>
    refine (wpLog_settle).mono ?_
    intro r' log₂ x h₂
    refine h₁.settled rfl rfl h₂ ?_
    intro _
    rw [hbackend.1, hbackend.2.1, hcalls, hn₁]

abbrev marked (w : World) (req : TaskStatusReportRequest) (now : Int) : World :=
  { w with instances := withStatus w.backend req now w.instances }

/-- **`ReportStatus`** of an instance that is known and not finished. -/
theorem wpLog_reportStatus
    (hterm : isTerminalStatus req.status = true) {r₀ : TaskInstance}
    (hopen : Open w req r₀) :
    wpLog (execAt env) (reportStatus url req)
      (fun r log x => (did storesResult log = false ∧ x.1 = w ∧ ¬ NoFaults env)
        ∨ did storesResult log = true ∧ ∃ now, Settled env (marked w req now) 2 req
            (readInstance w.backend r₀) r log x) (w, 0) := by
  unfold reportStatus
  rw [if_neg hopen.given]
  apply wpLog_inst_bind
  · intro hfault e
    exact .inl ⟨rfl, rfl, fun hno => hfault (hno 0)⟩
  intro ans s hexec
  have hread : (w.instances.getInstanceByScheduleID w.backend req.scheduleInstanceID, w.instances)
      = (ans, s) := hexec
  obtain ⟨rfl, rfl⟩ := Prod.mk.inj hread
  have hget : w.instances.getInstanceByScheduleID w.backend req.scheduleInstanceID
      = .ok (readInstance w.backend r₀) := by
    unfold InstanceStore.getInstanceByScheduleID
    rw [hopen.found]
  rw [hget]
  dsimp only
  rw [readInstance_status, hopen.unfinished, if_neg Bool.false_ne_true]
  apply wpLog_inst_bind
  · intro hfault e
    exact .inl ⟨rfl, rfl, fun hno => hfault (hno 1)⟩
  intro ans s hexec
  obtain ⟨hmem, hsid⟩ := InstanceStore.bySchedule_some hopen.found
  have hwrite := InstanceStore.updateBySchedule_of_mem (b := w.backend) hmem
    (setResult (env 1).now req.status req.errorCode req.errorMessage) (fun _ => rfl)
  rw [hsid] at hwrite
  cases hwrite.symm.trans hexec
  obtain ⟨r₁, hfound, _⟩ :=
    bySchedule_reported w.backend req (env 1).now hopen.found 0 false
  refine (wpLog_afterStore hterm hfound).mono ?_
  intro r log x hx
  exact .inr ⟨rfl, (env 1).now, hx.idle, hx.retried, hx.isDue, hx.released, hx.given,
    hx.asked, hx.timed⟩

theorem wpLog_reportStatus_of_not_open (hnot : ∀ r, ¬ Open w req r) :
    wpLog (execAt env) (reportStatus url req)
      (fun _ log x => did storesResult log = false ∧ x.1 = w) (w, 0) := by
  unfold reportStatus
  split
  · exact ⟨rfl, rfl⟩
  next hgiven =>
  apply wpLog_inst_bind
  · intro _ e
    exact ⟨rfl, rfl⟩
  intro ans s hexec
  have hread : (w.instances.getInstanceByScheduleID w.backend req.scheduleInstanceID, w.instances)
      = (ans, s) := hexec
  obtain ⟨rfl, rfl⟩ := Prod.mk.inj hread
  unfold InstanceStore.getInstanceByScheduleID
  cases hfound : w.instances.bySchedule w.backend req.scheduleInstanceID with
  | none => exact ⟨rfl, rfl⟩
  | some r =>
  have hfinished : isTerminalStatus (readInstance w.backend r).status = true := by
    rw [readInstance_status]
    by_contra hne
    exact hnot r ⟨hgiven, hfound, by simpa using hne⟩
  dsimp only
  rw [if_pos hfinished]
  exact ⟨rfl, rfl⟩

end Report

/-! ## Delivered again. -/

section Compare

variable {w : World} {req : TaskStatusReportRequest}

theorem SameOutcome.refl (w : World) : SameOutcome w w := ⟨fun _ => rfl, fun _ => rfl⟩

theorem reported_eq_iff {b : Backend} {r : TaskInstance} :
    reported b req false r = reported b req true r
      ↔ unstamped (setTimestamps b 0 (req.startedAt.getD 0) (req.finishedAt.getD 0) r)
          = unstamped r := by
  cases b <;> grind [reported, unstamped, setTimestamps, setResult]

theorem rows_agree_iff {timed : Bool} (hasked : timed = true → reportsTimes req = true) :
    (∀ id, (w.instances.instances.get? id).map (rowAfter w.backend req w.instances timed)
        = (w.instances.instances.get? id).map
            (rowAfter w.backend req w.instances (reportsTimes req)))
      ↔ timed = true ∨ reportsTimes req = false ∨ ∀ r ∈ w.instances.instances.rows,
            w.instances.addressed w.backend req.scheduleInstanceID r = true →
            unstamped (setTimestamps w.backend 0 (req.startedAt.getD 0) (req.finishedAt.getD 0) r)
              = unstamped r := by
  cases timed with
  | true =>
    rw [hasked rfl]
    simp
  | false =>
  cases htimes : reportsTimes req with
  | false => simp
  | true =>
  simp only [Bool.false_eq_true, false_or, Bool.true_eq_false]
  constructor
  · intro h r hr haddressed
    have hrow := h r.id
    rw [Table.get?_of_mem hr] at hrow
    have hrow := Option.some.inj hrow
    unfold rowAfter at hrow
    rw [if_pos haddressed, if_pos haddressed] at hrow
    exact reported_eq_iff.mp hrow
  · intro h id
    cases hrow : w.instances.instances.get? id with
    | none => rfl
    | some r =>
      have hkept := h r (Table.get?_some hrow).1
      grind [rowAfter, reported_eq_iff]

theorem released_currentLoad (v : WorkerNode) :
    (released v).currentLoad = v.currentLoad ↔ v.currentLoad ≤ 0 := by
  grind [released]

theorem loads_agree_iff {released released' : Bool} (hgiven : released = true → req.workerID ≠ "")
    (hgiven' : released' = true → req.workerID ≠ "")
    (hreleased' : released' = true ∨ req.workerID = "" ∨ w.workers.get? req.workerID = none) :
    (∀ id, loadAfter released req w id = loadAfter released' req w id)
      ↔ released = true ∨ req.workerID = ""
        ∨ ∀ v, w.workers.get? req.workerID = some v → v.currentLoad ≤ 0 := by
  -- only the load of the reporting worker is in question
  unfold loadAfter
  constructor
  · intro h
    have h := h req.workerID
    cases hv : w.workers.get? req.workerID <;> grind [released_currentLoad]
  · intro h id
    cases hv : w.workers.get? id <;> grind [released_currentLoad]

end Compare

section Redelivery

variable (url : String) (env : Nat → Input) {req : TaskStatusReportRequest} {w : World}

theorem deliver_of_not_open (hnot : ∀ r, ¬ Open w req r) :
    did storesResult (deliveryLog url env req w) = false ∧ (deliver url env req w).2 = w :=
  wpLog_reportStatus_of_not_open hnot

theorem deliver_of_open (hterm : isTerminalStatus req.status = true) (hopen : Open w req r) :
    (did storesResult (deliveryLog url env req w) = false
        ∧ (deliver url env req w).2 = w ∧ ¬ NoFaults env)
      ∨ did storesResult (deliveryLog url env req w) = true
        ∧ ∃ now n, Settled env (marked w req now) 2 req (readInstance w.backend r)
            (deliver url env req w).1 (deliveryLog url env req w)
            ((deliver url env req w).2, n) := by
  have hrun : wpLog (execAt env) (reportStatus url req) _ (w, 0) :=
    wpLog_reportStatus hterm hopen
  rcases hrun with h | ⟨hstored, now, h⟩
  · exact .inl h
  · exact .inr ⟨hstored, now, _, h⟩

theorem deliver_backend : (deliver url env req w).2.backend = w.backend :=
  run_invariant (execAt env) (fun x : World × Nat => x.1.backend = w.backend)
    (fun op x hx => (exec_backend (env x.2) x.1 op).trans hx) _ rfl

section Settled

variable {env} {now : Int} {inst : TaskInstance} {res : Except Err Unit}
  {log : List (Event System)} {x : World × Nat}

theorem Settled.rows (h : Settled env (marked w req now) 2 req inst res log x)
    (hcreated : did createsInstance log = false) (id : Int) :
    (x.1.instances.instances.get? id).map unstamped = (w.instances.instances.get? id).map
          (rowAfter w.backend req w.instances (did storesTimes log)) := by
  obtain ⟨⟨now', hinst⟩, _⟩ := h.idle hcreated
  rw [hinst]
  exact get?_reported w.backend req now w.instances now' _ id

theorem Settled.retry_row (h : Settled env (marked w req now) 2 req inst res log x)
    (hcreated : did createsInstance log = true) :
    ∃ row, x.1.instances.instances.get? w.instances.nextID = some row
      ∧ Sent (NoFaults env) res row.status := by
  obtain ⟨_, _, hat⟩ := h.retried hcreated
  exact hat.row

theorem Settled.due_iff (h : Settled env (marked w req now) 2 req inst res log x)
    (hfree : NoFaults env) (hok : res = .ok ()) :
    RetryDue w.backend w.tasks inst req (env (windowCall w req)).now
      ↔ did createsInstance log = true := by
  have hcall : windowCall w req
      = 2 + (reportsTimes req).toNat + releaseCalls (marked w req now) req + 1 := by
    show windowCall w req = 2 + (reportsTimes req).toNat + releaseCalls w req + 1
    unfold windowCall
    omega
  rw [hcall]
  exact (h.isDue hfree hok).symm

theorem Settled.not_open (h : Settled env (marked w req now) 2 req inst res log x)
    (hterm : isTerminalStatus req.status = true) (hcreated : did createsInstance log = false)
    (hbackend : x.1.backend = w.backend) {r₀ : TaskInstance} (hopen : Open w req r₀)
    (r : TaskInstance) : ¬ Open x.1 req r := by
  intro hr
  obtain ⟨⟨now', hinst⟩, _⟩ := h.idle hcreated
  have hreported := bySchedule_reported w.backend req now hopen.found now' (did storesTimes log)
  have hfound := hr.found
  have hunfinished := hr.unfinished
  rw [hbackend, hinst] at hfound
  grind

end Settled

theorem deliver_status (hterm : isTerminalStatus req.status = true) {id : Int}
    (hrow : w.instances.instances.get? id = some row) :
    ∃ row', (deliver url env req w).2.instances.instances.get? id = some row'
      ∧ (row'.status = row.status ∨ row'.status = req.status) := by
  by_cases hopen : ∃ r, Open w req r
  · obtain ⟨r, hopen⟩ := hopen
    rcases deliver_of_open url env hterm hopen with
      ⟨_, hsame, _⟩ | ⟨_, now, n, hset⟩
    · rw [hsame]
      exact ⟨row, hrow, .inl rfl⟩
    cases hcreated : did createsInstance (deliveryLog url env req w) with
    | false =>
      obtain ⟨⟨now', hinst⟩, _⟩ := hset.idle hcreated
      rw [hinst]
      exact status_reported w.backend req now hrow now' _
    | true =>
      obtain ⟨timed, now', hat⟩ := hset.retried hcreated
      have hne : id ≠ w.instances.nextID := Int.ne_of_lt (InstanceStore.lt_nextID hrow)
      rw [hat.others id hne]
      exact status_reported w.backend req now hrow now' timed
  · rw [(deliver_of_not_open url env (fun r hr => hopen ⟨r, hr⟩)).2]
    exact ⟨row, hrow, .inl rfl⟩

theorem not_same_of_pending (hterm : isTerminalStatus req.status = true) {w' : World} {k : Int}
    (hrow : w.instances.instances.get? k = some row)
    (hpending : row.status = .pending)
    (hsent : ∀ row', w'.instances.instances.get? k = some row' →
      row'.status = .retryWaiting ∨ row'.status = .dispatched) :
    ¬ SameOutcome (deliver url env req w).2 w' := by
  intro hsame
  obtain ⟨row₁, hrow₁, hstatus⟩ := deliver_status url env hterm hrow
  have hrows := hsame.rows k
  rw [hrow₁, Option.map_some] at hrows
  obtain ⟨row₂, hrow₂, heq⟩ := Option.map_eq_some_iff.mp hrows.symm
  have heq : row₂.status = row₁.status := (congrArg TaskInstance.status heq :)
  grind [hsent row₂ hrow₂, isTerminalStatus]

end Redelivery

/-- **Two deliveries without a retry** leave the same if the first did all it had to. -/
theorem same_iff_of_idle {env env' : Nat → Input} {w : World} {req : TaskStatusReportRequest}
    {now now' : Int} {inst inst' : TaskInstance} {res res' : Except Err Unit}
    {log log' : List (Event System)} {x x' : World × Nat}
    (h : Settled env (marked w req now) 2 req inst res log x)
    (hcreated : did createsInstance log = false)
    (h' : Settled env' (marked w req now') 2 req inst' res' log' x') (hfree : NoFaults env')
    (hcreated' : did createsInstance log' = false) :
    SameOutcome x.1 x'.1 ↔ TimesKept w req log ∧ WorkerReleased w req log := by
  have htimes : did storesTimes log' = reportsTimes req :=
    Bool.eq_iff_iff.mpr ⟨h'.asked hcreated', h'.timed hfree⟩
  have hrows := h.rows hcreated
  have hrows' := h'.rows hcreated'
  rw [htimes] at hrows'
  have hloads := (h.idle hcreated).2
  have hloads' := (h'.idle hcreated').2
  have hrowsIff := rows_agree_iff (w := w) (h.asked hcreated)
  have hloadsIff := loads_agree_iff (w := w) (h.given hcreated) (h'.given hcreated')
    (h'.released hfree hcreated')
  constructor
  · intro hsame
    refine ⟨hrowsIff.mp (fun id => ?_), hloadsIff.mp (fun id => ?_)⟩
    · rw [← hrows id, ← hrows' id, hsame.rows id]
    · exact (hloads id).symm.trans ((hsame.loads id).trans (hloads' id))
  · rintro ⟨hkept, hreleased⟩
    refine ⟨fun id => ?_, fun id => ?_⟩
    · rw [hrows id, hrows' id, hrowsIff.mpr hkept id]
    · exact (hloads id).trans ((hloadsIff.mpr hreleased id).trans (hloads' id).symm)

/-- **Redelivery after a failure completes the work EXACTLY IF nothing was lost**: the first
delivery, under the faults `env`, failed; the second, and the one compared with, have none. -/
theorem redelivery_completes_iff (url : String) (w : World)
    (req : TaskStatusReportRequest) (hterm : isTerminalStatus req.status = true)
    (env : Nat → Input) (hfailed : (deliver url env req w).1 ≠ .ok ())
    (env' : Nat → Input) (hfree : NoFaults env')
    (hok : (deliver url env' req w).1 = .ok ()) :
    SameOutcome (deliver url env' req (deliver url env req w).2).2
        (deliver url env' req w).2
      ↔ NothingLost w req (deliveryLog url env req w) (env' (windowCall w req)).now := by
  -- a first delivery that stored nothing leaves no trace
  have hunstored : did storesResult (deliveryLog url env req w) = false →
      (deliver url env req w).2 = w → (SameOutcome
        (deliver url env' req (deliver url env req w).2).2
        (deliver url env' req w).2 ↔ NothingLost w req
          (deliveryLog url env req w) (env' (windowCall w req)).now) := by
    intro hno hsame
    rw [hsame]
    exact ⟨fun _ => .inl hno, fun _ => .refl _⟩
  by_cases hopen : ∃ r, Open w req r
  swap
  · obtain ⟨hno, hsame⟩ := deliver_of_not_open url env (fun r hr => hopen ⟨r, hr⟩)
    exact hunstored hno hsame
  obtain ⟨r, hopen⟩ := hopen
  rcases deliver_of_open url env hterm hopen with
    ⟨hno, hsame, _⟩ | ⟨hstored, now₁, n₁, hfirst⟩
  · exact hunstored hno hsame
  rcases deliver_of_open url env' hterm hopen with
    ⟨_, _, hfaults⟩ | ⟨_, now₂, n₂, hwhole⟩
  · exact absurd hfree hfaults
  -- once the status is stored, the rest decides
  have hlost : NothingLost w req (deliveryLog url env req w) (env' (windowCall w req)).now
      ↔ did createsInstance (deliveryLog url env req w) = false
        ∧ TimesKept w req (deliveryLog url env req w)
        ∧ WorkerReleased w req (deliveryLog url env req w)
        ∧ ¬ did createsInstance (deliveryLog url env' req w) = true := by
    rw [← hwhole.due_iff hfree hok]
    unfold NothingLost
    rw [hstored, hopen.found]
    simp
  rw [hlost]
  have hnew : w.instances.instances.get? w.instances.nextID = none := InstanceStore.get?_nextID _
  cases hcreated : did createsInstance (deliveryLog url env req w) with
  | true =>
    refine iff_of_false ?_ (fun h => by cases h.1)
    -- the retry was made and never sent
    obtain ⟨row, hrow, hsent⟩ := hfirst.retry_row hcreated
    refine not_same_of_pending url env' hterm hrow (hsent.1 hfailed) ?_
    intro row' hrow'
    cases hcreated' : did createsInstance (deliveryLog url env' req w) with
    | true =>
      obtain ⟨row'', hrow'', hstatus⟩ := hwhole.retry_row hcreated'
      cases hrow'.symm.trans hrow''
      exact hstatus.2 hok hfree
    | false =>
      have hrow' : (deliver url env' req w).2.instances.instances.get?
          w.instances.nextID = some row' := hrow'
      have hrows := hwhole.rows hcreated' w.instances.nextID
      rw [hnew, hrow'] at hrows
      cases hrows
  | false =>
    have hagain : (deliver url env' req (deliver url env req w).2).2
        = (deliver url env req w).2 :=
      (deliver_of_not_open url env'
        (hfirst.not_open hterm hcreated (deliver_backend url env) hopen)).2
    rw [hagain]
    cases hcreated' : did createsInstance (deliveryLog url env' req w) with
    | true =>
      -- the retry is never made
      refine iff_of_false ?_ (fun h => h.2.2.2 rfl)
      intro hsame
      obtain ⟨row, hrow, _⟩ := hwhole.retry_row hcreated'
      have hrow : (deliver url env' req w).2.instances.instances.get?
          w.instances.nextID = some row := hrow
      have hrows := hsame.rows w.instances.nextID
      rw [hfirst.rows hcreated, hrow, hnew] at hrows
      cases hrows
    | false =>
      rw [same_iff_of_idle hfirst hcreated hwhole hfree hcreated']
      simp

/-- One task with a retry left, and its instance running on a worker. -/
def runningOnce : World :=
  World.ofRows .teststore
    [{ id := 1, maxRetry := 1, retryPolicy := .fixedInterval, retryIntervalSeconds := 60 }] []
    [{ id := 1, taskID := 1, scheduleInstanceID := "task-1-0", status := .running,
       workerID := "w" }]
    [{ id := "w", status := .online, maxConcurrency := 4, currentLoad := 1 }]

def failureReport : TaskStatusReportRequest :=
  { scheduleInstanceID := "task-1-0", workerID := "w", status := .failed }

def downAt (k : Nat) (n : Nat) : Input :=
  if n = k then { fault := some "connection refused" } else {}

/-- **The worker row could not be written**: the second delivery does nothing, the worker stays
loaded and there is no retry. -/
theorem redelivery_loses_release_and_retry :
    (deliver "" (downAt 3) failureReport runningOnce).1 = .error (.text "connection refused")
      ∧ (deliver "" (fun _ => {}) failureReport runningOnce).1 = .ok ()
      ∧ ¬ SameOutcome
          (deliver "" (fun _ => {}) failureReport
            (deliver "" (downAt 3) failureReport runningOnce).2).2
          (deliver "" (fun _ => {}) failureReport runningOnce).2
      ∧ ((deliver "" (fun _ => {}) failureReport
            (deliver "" (downAt 3) failureReport runningOnce).2).2.workers.get? "w").map
          WorkerNode.currentLoad = some 1
      ∧ (deliver "" (fun _ => {}) failureReport
            (deliver "" (downAt 3) failureReport runningOnce).2).2.instances.instances.get? 2 = none
      ∧ ((deliver "" (fun _ => {}) failureReport runningOnce).2.instances.instances.get? 2).map
          TaskInstance.status = some .retryWaiting := by
  refine ⟨by decide, by decide, ?_, by decide, by decide,
    by decide⟩
  intro h
  have hload := h.loads "w"
  revert hload
  decide

/-- A failure of the status write itself is repaired by the second delivery. -/
theorem redelivery_completes_status :
    SameOutcome
      (deliver "" (fun _ => {}) failureReport
        (deliver "" (downAt 1) failureReport runningOnce).2).2
      (deliver "" (fun _ => {}) failureReport runningOnce).2 :=
  (redelivery_completes_iff "" runningOnce failureReport rfl (downAt 1) (by decide)
    (fun _ => {}) (fun _ => rfl) (by decide)).mpr (.inl (by decide))

end AiScheduler.Redelivery
