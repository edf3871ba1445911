/-
  **WHAT A SUCCESS REPORT CHANGES**, and that it changes nothing else.

  The report writes one instance, each enabled task downstream (once per edge), the row of the
  reporting worker, and ends in a retry decision that is always "no".
-/
import AiScheduler.Proofs.Redelivery

namespace AiScheduler.SuccessFrame

open Lib Gate Redelivery AiScheduler.Runtime Prog Router

variable {s : InstanceStore} {req : TaskStatusReportRequest} {b : Backend} {r : TaskInstance}

variable {env : Nat → Input}

variable {inst : TaskInstance} {w : World} {url sid : String}

/-! ## Firing the downstream tasks. -/

/-- `t`, written `times` times by `fireDownstream`, the last time at `now`. -/
def fired (now stamp : Int) (times : Nat) (t : Task) : Task :=
  { t with nextTriggerTime := now, version := t.version + times, updatedAt := stamp }

theorem fired_fired (now now' stamp stamp' : Int) (k k' : Nat) (t : Task) :
    fired now' stamp' k' (fired now stamp k t) = fired now' stamp' (k + k') t := by
  unfold fired
  dsimp only
  rw [Int.add_assoc, Int.natCast_add]

theorem updatedTask_fired (b : Backend) (now stamp : Int) (t : Task) :
    updatedTask b stamp { readTask b t with nextTriggerTime := now } t = fired now stamp 1 t := by
  cases b with
  | mysql | teststore => rfl

/-- `s'` is `s` with the enabled tasks among `ids` fired, as often as listed, by the calls `lo` to
`hi`. -/
structure Fired (env : Nat → Input) (s : TaskStore) (ids : List Int) (lo hi : Nat)
    (s' : TaskStore) : Prop where
  nextID : s'.nextID = s.nextID
  dependencies : s'.dependencies = s.dependencies
  untouched : ∀ id, (id ∈ ids → ∀ t, s.tasks.get? id = some t → t.status ≠ .enabled) →
    s'.tasks.get? id = s.tasks.get? id
  touched : ∀ id ∈ ids, ∀ t, s.tasks.get? id = some t → t.status = .enabled →
    ∃ i j, lo ≤ i ∧ i < hi ∧ lo ≤ j ∧ j < hi
      ∧ s'.tasks.get? id = some (fired (env i).now (env j).now (ids.count id) t)

theorem Fired.refl (s : TaskStore) (lo hi : Nat) : Fired env s [] lo hi s where
  nextID := rfl
  dependencies := rfl
  untouched _ _ := rfl
  touched id hid := absurd hid (by simp)

theorem Fired.append {s s₁ s₂ : TaskStore} {ids ids' : List Int} {lo mid hi : Nat}
    (h₁ : Fired env s ids lo mid s₁) (h₂ : Fired env s₁ ids' mid hi s₂) (hlo : lo ≤ mid)
    (hhi : mid ≤ hi) : Fired env s (ids ++ ids') lo hi s₂ where
  nextID := h₂.nextID.trans h₁.nextID
  dependencies := h₂.dependencies.trans h₁.dependencies
  untouched := by
    intro id hid
    have hfirst := h₁.untouched id
    have hsecond := h₂.untouched id
    grind
  touched := by
    intro id hid t ht henabled
    rw [List.count_append]
    by_cases hin : id ∈ ids
    · obtain ⟨i, j, hi₁, hi₂, hj₁, hj₂, hrow⟩ := h₁.touched id hin t ht henabled
      by_cases hin' : id ∈ ids'
      · -- fired in both parts
        obtain ⟨i', j', hi₃, hi₄, hj₃, hj₄, hrow'⟩ := h₂.touched id hin' _ hrow henabled
        exact ⟨i', j', by omega, by omega, by omega, by omega, by rw [hrow', fired_fired]⟩
      · have hsame := h₂.untouched id (fun h => absurd h hin')
        exact ⟨i, j, by omega, by omega, by omega, by omega, by grind⟩
    · have hsame := h₁.untouched id (fun h => absurd h hin)
      have hin' : id ∈ ids' := (List.mem_append.mp hid).resolve_left hin
      obtain ⟨i, j, hi₁, hi₂, hj₁, hj₂, hrow⟩ := h₂.touched id hin' t (hsame ▸ ht) henabled
      exact ⟨i, j, by omega, by omega, by omega, by omega, by grind⟩

/-- Only the tasks are different, and they are so by firing `ids`. -/
structure OnlyFired (env : Nat → Input) (w : World) (ids : List Int) (n : Nat) (x : World × Nat) :
    Prop where
  others : x.1 = { w with tasks := x.1.tasks }
  later : n ≤ x.2
  tasks : Fired env w.tasks ids n x.2 x.1.tasks

theorem wp_fireTask (hno : NoFaults env) (id : Int) (w : World) (n : Nat) :
    wp (execAt env) (fireTask id) (fun _ => OnlyFired env w [id] n) (w, n) := by
  unfold fireTask
  rw [AiScheduler.getTask, wp_task_bind_of_free (hno n)]
  simp only [TaskCall.exec, TaskStore.getTask]
  -- nothing is written unless the task is there and enabled
  have hidle : (∀ t, w.tasks.tasks.get? id = some t → t.status ≠ .enabled) →
      ∀ m, n ≤ m → OnlyFired env w [id] n (w, m) := by
    intro hnot m hm
    exact ⟨rfl, hm, rfl, rfl, fun _ _ => rfl, by grind⟩
  cases hg : w.tasks.tasks.get? id with
  | none => exact hidle (by grind) (n + 1) (Nat.le_succ n)
  | some t =>
  dsimp only
  split
  next hstatus =>
    rw [readTask_status] at hstatus
    exact hidle (by grind) (n + 1) (Nat.le_succ n)
  next hstatus =>
    rw [readTask_status, Decidable.not_not] at hstatus
    obtain rfl : t.id = id := (Table.get?_some hg).2
    have hwrite := @TaskStore.updateTask_of_same_name w.backend (env (n + 1 + 1)).now w.tasks
      { readTask w.backend t with nextTriggerTime := (env (n + 1)).now } t
      (by rw [show Task.id _ = t.id from readTask_id _ _]; exact hg)
      (readTask_tenantID _ _) (readTask_name _ _)
    rw [wp_timeNow_bind, AiScheduler.updateTask, wp_task_bind_of_free (hno (n + 1 + 1))]
    show OnlyFired env w [t.id] n ({ w with tasks := (w.tasks.updateTask w.backend
      (env (n + 1 + 1)).now { readTask w.backend t with
        nextTriggerTime := (env (n + 1)).now }).2 }, n + 1 + 1 + 1)
    rw [hwrite]
    refine ⟨rfl, by show n ≤ n + 1 + 1 + 1; omega, rfl, rfl, ?_, ?_⟩
    · intro id' hid'
      apply TaskStore.get?_write_of_ne
      show id' ≠ (readTask w.backend t).id
      rw [readTask_id]
      rintro rfl
      exact hid' List.mem_cons_self t hg hstatus
    intro id' hid' t' ht' _
    cases List.mem_singleton.mp hid'
    cases hg.symm.trans ht'
    refine ⟨n + 1, n + 1 + 1, by omega, by show _ < n + 1 + 1 + 1; omega, by omega,
      by show _ < n + 1 + 1 + 1; omega, ?_⟩
    rw [TaskStore.get?_write, hg, Option.map_some, if_pos (readTask_id _ _).symm,
      updatedTask_fired, List.count_singleton_self]

theorem wp_fireTasks (hno : NoFaults env) : ∀ (ids : List Int) (w : World) (n : Nat),
    wp (execAt env) (fireTasks ids) (fun _ => OnlyFired env w ids n) (w, n) := by
  intro ids
  induction ids with
  | nil =>
    intro w n
    exact ⟨rfl, Nat.le_refl n, Fired.refl w.tasks n n⟩
  | cons id ids ih =>
  intro w n
  unfold fireTasks
  rw [wp_bind]
  refine (wp_fireTask hno id w n).mono ?_
  rintro _ ⟨w₁, n₁⟩ h₁
  refine (ih w₁ n₁).mono ?_
  rintro _ ⟨w₂, n₂⟩ h₂
  refine ⟨?_, h₁.later.trans h₂.later, h₁.tasks.append h₂.tasks h₁.later h₂.later⟩
  have hw₁ : w₁ = { w with tasks := w₁.tasks } := h₁.others
  have hw₂ : w₂ = { w₁ with tasks := w₂.tasks } := h₂.others
  show w₂ = { w with tasks := w₂.tasks }
  rw [hw₂, hw₁]

theorem wp_fireDownstream (hno : NoFaults env) {n : Nat} :
    wp (execAt env) (fireDownstream inst)
      (fun _ => OnlyFired env w (w.tasks.listDownstreamTasks inst.taskID) n) (w, n) := by
  unfold fireDownstream
  rw [AiScheduler.listDownstreamTasks, wp_task_bind_of_free (hno n)]
  refine (wp_fireTasks hno ((env n).shuffle (w.tasks.listDownstreamTasks inst.taskID)) w
    (n + 1)).mono ?_
  rintro _ x hx
  have hearlier : ∀ {i : Nat}, n + 1 ≤ i → n ≤ i := by
    intro i hi
    omega
  refine ⟨hx.others, hearlier hx.later, hx.tasks.nextID, hx.tasks.dependencies, ?_, ?_⟩
  · intro id hid
    exact hx.tasks.untouched id (fun h => hid (Input.mem_shuffle.mp h))
  intro id hid t ht henabled
  obtain ⟨i, j, hi, hi', hj, hj', hrow⟩ :=
    hx.tasks.touched id (Input.mem_shuffle.mpr hid) t ht henabled
  -- each is fired as often, in whatever order the edges are answered
  rw [((env n).shuffle_perm _).count_eq] at hrow
  exact ⟨i, j, hearlier hi, hi', hearlier hj, hj', hrow⟩

theorem mem_listDownstreamTasks {s : TaskStore} {taskID id : Int} :
    id ∈ s.listDownstreamTasks taskID
      ↔ ({ taskID := id, dependsOnTaskID := taskID } : TaskDependency) ∈ s.dependencies := by
  unfold TaskStore.listDownstreamTasks
  rw [List.mem_map]
  constructor
  · rintro ⟨d, hd, rfl⟩
    obtain ⟨hd, hup⟩ := List.mem_filter.mp hd
    rw [← of_decide_eq_true hup]
    exact hd
  · intro h
    exact ⟨_, List.mem_filter.mpr ⟨h, decide_eq_true rfl⟩, rfl⟩

/-! ## Releasing the worker. -/

/-- Only the workers differ: the reporting one has lost a unit of load, if it had any. -/
structure OnlyReleased (w : World) (req : TaskStatusReportRequest) (n : Nat) (x : World × Nat) :
    Prop where
  others : x.1 = { w with workers := x.1.workers }
  later : n ≤ x.2
  worker : req.workerID ≠ "" → ∀ v, w.workers.get? req.workerID = some v →
    x.1.workers.get? req.workerID = some (Router.released v)
  otherWorkers : ∀ id, (id = req.workerID → req.workerID = "" ∨ w.workers.get? id = none) →
    x.1.workers.get? id = w.workers.get? id

theorem released_lastHeartbeatAt (v : WorkerNode) :
    (released v).lastHeartbeatAt = v.lastHeartbeatAt := by
  unfold released
  split <;> rfl

theorem wp_settle_of_not_retryable (hno : NoFaults env)
    (hstatus : isRetryableStatus req.status = false)
    (hworkers : w.workers.Built w.backend) {n : Nat} :
    wp (execAt env) (settle url inst req)
      (fun r x => r = .ok () ∧ OnlyReleased w req n x) (w, n) := by
  have hretry : retryIfNeeded url inst req = return .ok () := by
    unfold retryIfNeeded
    rw [if_pos (by simp [hstatus])]
  unfold settle
  rw [hretry]
  split
  next hnone =>
    exact ⟨rfl, rfl, Nat.le_refl n, fun h => absurd hnone h, fun _ _ => rfl⟩
  next hgiven =>
  rw [AiScheduler.getWorker, wp_worker_bind_of_free (hno n)]
  simp only [WorkerCall.exec]
  cases hv : w.workers.get? req.workerID with
  | none =>
    -- an unknown worker has nothing to release
    cases hget : w.workers.getWorker w.backend req.workerID with
    | ok v => exact absurd (WorkerStore.getWorker_ok hget) (by simp [hv])
    | error e => exact ⟨rfl, rfl, Nat.le_succ n, by grind, fun _ _ => rfl⟩
  | some v =>
    rw [WorkerStore.getWorker_of_get? hv]
    dsimp only
    rw [AiScheduler.upsertWorker, wp_worker_bind_of_free (hno (n + 1))]
    obtain ⟨hmem, hid⟩ := Table.get?_some hv
    have hstored : storedWorker w.backend (env (n + 1)).now (released v) = released v := by
      apply storedWorker_of_heartbeat
      rw [released_lastHeartbeatAt]
      exact hworkers.heartbeat v hmem
    have hrows : ∀ id, (w.workers.upsertWorker w.backend (env (n + 1)).now (released v)).get? id
          = if id = req.workerID then some (released v) else w.workers.get? id := by
      intro id
      rw [WorkerStore.get?_upsertWorker, hstored, released_id, hid]
    refine ⟨rfl, rfl, by show n ≤ n + 1 + 1; omega, ?_,
      fun id hother => (hrows id).trans (by grind)⟩
    intro _ v' hv'
    cases hv.symm.trans hv'
    exact (hrows req.workerID).trans (if_pos rfl)

/-! ## The instance. -/

theorem addressed_iff {i : TaskInstance}
    (hunique : b = .mysql → s.SchedulesDistinct) (hr : s.bySchedule b sid = some r)
    (hi : i ∈ s.instances.rows) : s.addressed b sid i = true ↔ i.id = r.id := by
  obtain ⟨hmem, hsid⟩ := InstanceStore.bySchedule_some hr
  have hkey : i.id = r.id → i = r := Table.eq_of_key hi hmem
  cases b with
  | mysql =>
    have hone := hunique rfl i hi r hmem
    grind [InstanceStore.addressed]
  | teststore => grind [InstanceStore.addressed]

theorem get?_rewrite_of_bySchedule (hunique : b = .mysql → s.SchedulesDistinct)
    (hr : s.bySchedule b sid = some r) (f : TaskInstance → TaskInstance)
    (hf : ∀ i, (f i).id = i.id) (id : Int) :
    (s.rewrite (s.addressed b sid) f hf).instances.get? id
      = if id = r.id then some (f r) else s.instances.get? id := by
  have hmem := (InstanceStore.bySchedule_some hr).1
  rw [InstanceStore.get?_rewrite]
  cases hg : s.instances.get? id with
  | none =>
    have hnot := Table.get?_none.mp hg r hmem
    grind
  | some i =>
    obtain ⟨hi, hid⟩ := Table.get?_some hg
    have haddressed := addressed_iff hunique hr hi
    have hkey : i.id = r.id → i = r := Table.eq_of_key hi hmem
    grind

def succeeded (req : TaskStatusReportRequest) (startedAt finishedAt updatedAt : Int)
    (r : TaskInstance) : TaskInstance :=
  { r with
    status := .success, errorCode := req.errorCode, errorMessage := req.errorMessage
    startedAt := startedAt, finishedAt := finishedAt, updatedAt := updatedAt }

theorem get?_withTimes (hsuccess : req.status = .success)
    (hunique : b = .mysql → s.SchedulesDistinct)
    (hr : s.bySchedule b req.scheduleInstanceID = some r) (now now' : Int) (timed : Prop)
    [Decidable timed] :
    ∃ startedAt finishedAt updatedAt, ∀ id,
      (if timed then withTimes b req now' (withStatus b req now s)
        else withStatus b req now s).instances.get? id
        = if id = r.id then some (succeeded req startedAt finishedAt updatedAt r)
          else s.instances.get? id := by
  have hmarked : ∀ id, (withStatus b req now s).instances.get? id
      = if id = r.id then some (setResult now req.status req.errorCode req.errorMessage r)
        else s.instances.get? id :=
    get?_rewrite_of_bySchedule hunique hr _ _
  by_cases htimed : timed
  · rw [if_pos htimed]
    have hunique' : b = .mysql → (withStatus b req now s).SchedulesDistinct := by
      intro hb
      exact (hunique hb).rewrite (setResult_scheduleInstanceID req now)
    have hr' : (withStatus b req now s).bySchedule b req.scheduleInstanceID
        = some (setResult now req.status req.errorCode req.errorMessage r) := by
      refine (InstanceStore.bySchedule_rewrite (setResult_scheduleInstanceID req now) b _).trans ?_
      rw [hr, Option.map_some, if_pos (InstanceStore.addressed_of_bySchedule hr)]
    have htimes := get?_rewrite_of_bySchedule hunique' hr'
      (setTimestamps b now' (req.startedAt.getD 0) (req.finishedAt.getD 0))
      (setTimestamps_id b now' _ _)
    -- both stores set no more than the two times and the stamp
    obtain ⟨started, finished, hrow⟩ : ∃ started finished,
        setTimestamps b now' (req.startedAt.getD 0) (req.finishedAt.getD 0)
            (setResult now req.status req.errorCode req.errorMessage r)
          = succeeded req started finished now' r := by
      rw [hsuccess]
      cases b with
      | mysql | teststore => exact ⟨_, _, rfl⟩
    refine ⟨started, finished, now', ?_⟩
    intro id
    refine (htimes id).trans ?_
    rw [hrow, hmarked]
    show (if id = r.id then _ else _) = _
    by_cases hid : id = r.id
    · rw [if_pos hid, if_pos hid]
    · rw [if_neg hid, if_neg hid, if_neg hid]
  · rw [if_neg htimed]
    refine ⟨r.startedAt, r.finishedAt, now, ?_⟩
    intro id
    rw [hmarked, hsuccess]
    rfl

/-! ## The report. -/

/-- **THE CHANGES OF A SUCCESS REPORT** for the instance `r`, by the calls from `n` on. -/
structure OnlyReported (env : Nat → Input) (w : World) (req : TaskStatusReportRequest)
    (r : TaskInstance) (n : Nat) (x : World × Nat) : Prop where
  instance_ : ∃ startedAt finishedAt updatedAt, x.1.instances.instances.get? r.id
    = some (succeeded req startedAt finishedAt updatedAt r)
  otherInstances : ∀ id, id ≠ r.id → x.1.instances.instances.get? id = w.instances.instances.get? id
  -- set to a reading of the clock during the report
  downstream : ∀ id t, w.tasks.tasks.get? id = some t → t.status = .enabled →
    { taskID := id, dependsOnTaskID := r.taskID } ∈ w.tasks.dependencies →
    ∃ i j, n ≤ i ∧ i < x.2 ∧ n ≤ j ∧ j < x.2 ∧ x.1.tasks.tasks.get? id
      = some (fired (env i).now (env j).now ((w.tasks.listDownstreamTasks r.taskID).count id) t)
  otherTasks : ∀ id, (∀ t, w.tasks.tasks.get? id = some t → t.status = .enabled →
      { taskID := id, dependsOnTaskID := r.taskID } ∉ w.tasks.dependencies) →
    x.1.tasks.tasks.get? id = w.tasks.tasks.get? id
  edges : x.1.tasks.dependencies = w.tasks.dependencies
  worker : req.workerID ≠ "" → ∀ v, w.workers.get? req.workerID = some v →
    x.1.workers.get? req.workerID = some { v with
      currentLoad := if v.currentLoad > 0 then v.currentLoad - 1 else v.currentLoad }
  otherWorkers : ∀ id, (id = req.workerID → req.workerID = "" ∨ w.workers.get? id = none) →
    x.1.workers.get? id = w.workers.get? id
  counters : x.1.instances.nextID = w.instances.nextID ∧ x.1.tasks.nextID = w.tasks.nextID
  memory : x.1.memory = w.memory ∧ x.1.nodes = w.nodes ∧ x.1.backend = w.backend

theorem released_eq (v : WorkerNode) :
    released v = { v with
      currentLoad := if v.currentLoad > 0 then v.currentLoad - 1 else v.currentLoad } := by
  unfold released
  split <;> rfl

theorem wp_afterStore_success (hno : NoFaults env) (hworkers : w.workers.Built w.backend)
    (hunique : w.backend = .mysql → w.instances.SchedulesDistinct) (hopen : Open w req r)
    (hsuccess : req.status = .success) {now : Int} {n₀ n : Nat} (hn : n₀ ≤ n) :
    wp (execAt env) (afterStore url (readInstance w.backend r) req)
      (fun res x => res = .ok () ∧ OnlyReported env w req r n₀ x) (marked w req now, n) := by
  obtain ⟨r₁, hfound, _⟩ := bySchedule_reported w.backend req now hopen.found 0 false
  have htimes : wp (execAt env) (reportTimestamps req)
      (fun _ x => ∃ log, Timing env (marked w req now) n req log x) (marked w req now, n) :=
    ⟨_, wpLog_reportTimestamps req hfound n⟩
  unfold afterStore
  rw [wp_bind]
  refine htimes.mono ?_
  rintro _ ⟨w₁, n₁⟩ ⟨log, htiming⟩
  obtain ⟨now', hw₁⟩ := htiming.world
  have hn₁ : n₁ = n + (reportsTimes req).toNat := htiming.calls
  have hw₁ : w₁ = _ := hw₁
  obtain ⟨startedAt, finishedAt, updatedAt, hrows⟩ :=
    get?_withTimes hsuccess hunique hopen.found now now' (did storesTimes log = true)
  have hnextID : w₁.instances.nextID = w.instances.nextID := by
    rw [hw₁]
    dsimp only
    split <;> rfl
  have hinst : ∀ id, w₁.instances.instances.get? id
      = if id = r.id then some (succeeded req startedAt finishedAt updatedAt r)
        else w.instances.instances.get? id := by
    rw [hw₁]
    exact hrows
  have hframe : w₁ = { w with instances := w₁.instances } := by
    rw [hw₁]
  clear hw₁ hrows
  rw [hsuccess, if_neg (by simp), if_pos rfl, wp_bind]
  refine (wp_fireDownstream hno).mono ?_
  rintro _ ⟨w₂, n₂⟩ h₂
  have hw₂ : w₂ = { w₁ with tasks := w₂.tasks } := h₂.others
  have hbuilt : w₂.workers.Built w₂.backend := by
    rw [hw₂, hframe]
    exact hworkers
  refine (wp_settle_of_not_retryable hno (by rw [hsuccess]; rfl) hbuilt).mono ?_
  rintro res ⟨w₃, n₃⟩ ⟨hres, h₃⟩
  have hw₃ : w₃ = { w₂ with workers := w₃.workers } := h₃.others
  have htasks : w₃.tasks = w₂.tasks := by rw [hw₃]
  have hinstances : w₃.instances = w₁.instances := by rw [hw₃, hw₂]
  have hworkers₂ : w₂.workers = w.workers := by rw [hw₂, hframe]
  have htasks₁ : w₁.tasks = w.tasks := by rw [hframe]
  have hfired := h₂.tasks
  rw [htasks₁, readInstance_taskID] at hfired
  have hlo : n₀ ≤ n₁ := by omega
  have hhi : n₂ ≤ n₃ := h₃.later
  refine ⟨hres, ?_, ?_, ?_, ?_, ?_, ?_, ?_, ?_, ?_⟩
  · refine ⟨startedAt, finishedAt, updatedAt, ?_⟩
    show w₃.instances.instances.get? r.id = _
    rw [hinstances, hinst, if_pos rfl]
  · intro id hid
    show w₃.instances.instances.get? id = _
    rw [hinstances, hinst, if_neg hid]
  · intro id t ht henabled hedge
    obtain ⟨i, j, hi, hi', hj, hj', hrow⟩ :=
      hfired.touched id (mem_listDownstreamTasks.mpr hedge) t ht henabled
    refine ⟨i, j, by omega, lt_of_lt_of_le hi' hhi, by omega, lt_of_lt_of_le hj' hhi, ?_⟩
    show w₃.tasks.tasks.get? id = _
    rw [htasks]
    exact hrow
  · intro id hid
    show w₃.tasks.tasks.get? id = _
    rw [htasks]
    refine hfired.untouched id ?_
    intro hmem t ht henabled
    exact hid t ht henabled (mem_listDownstreamTasks.mp hmem)
  · show w₃.tasks.dependencies = _
    rw [htasks]
    exact hfired.dependencies
  · intro hgiven v hv
    rw [← released_eq]
    exact h₃.worker hgiven v (by rw [hworkers₂]; exact hv)
  · intro id hid
    rw [← hworkers₂] at hid ⊢
    exact h₃.otherWorkers id hid
  · refine ⟨?_, ?_⟩
    · show w₃.instances.nextID = _
      rw [hinstances, hnextID]
    · show w₃.tasks.nextID = _
      rw [htasks]
      exact hfired.nextID
  · show w₃.memory = _ ∧ w₃.nodes = _ ∧ w₃.backend = _
    rw [hw₃, hw₂, hframe]
    exact ⟨rfl, rfl, rfl⟩

/-- **THE FRAME OF A SUCCESS REPORT**: it succeeds, and the listed rows are all it
changes. -/
theorem success_report_frame (hno : NoFaults env) (url : String) {w : World}
    {req : TaskStatusReportRequest} {r : TaskInstance} (hworkers : w.workers.Built w.backend)
    (hunique : w.backend = .mysql → w.instances.SchedulesDistinct) (hopen : Open w req r)
    (hsuccess : req.status = .success) (n : Nat) :
    (Prog.run (execAt env) (reportStatus url req) (w, n)).1 = .ok ()
      ∧ OnlyReported env w req r n
          (Prog.run (execAt env) (reportStatus url req) (w, n)).2 := by
  show Prog.wp (execAt env) (reportStatus url req)
    (fun res x => res = .ok () ∧ OnlyReported env w req r n x) (w, n)
  unfold reportStatus
  rw [if_neg hopen.given, AiScheduler.getInstanceByScheduleID, wp_inst_bind_of_free (hno n)]
  have hget : w.instances.getInstanceByScheduleID w.backend req.scheduleInstanceID
      = .ok (readInstance w.backend r) := by
    unfold InstanceStore.getInstanceByScheduleID
    rw [hopen.found]
  simp only [InstanceCall.exec]
  rw [hget]
  dsimp only
  rw [readInstance_status, hopen.unfinished, if_neg Bool.false_ne_true,
    AiScheduler.updateInstanceResult, wp_inst_bind_of_free (hno (n + 1))]
  obtain ⟨hmem, hsid⟩ := InstanceStore.bySchedule_some hopen.found
  have hwrite := InstanceStore.updateBySchedule_of_mem (b := w.backend) hmem
    (setResult (env (n + 1)).now req.status req.errorCode req.errorMessage) (fun _ => rfl)
  rw [hsid] at hwrite
  rw [show InstanceCall.exec _ _ (.updateInstanceResult _ _ _ _) _ = _ from hwrite]
  exact wp_afterStore_success hno hworkers hunique hopen hsuccess (by omega)

/-- Task 2 has two edges to task 1; task 3, disabled, has one. -/
def loading : World :=
  World.ofRows .teststore
    [{ id := 1, name := "load" }, { id := 2, name := "report", status := .enabled },
     { id := 3, name := "archive", status := .disabled }]
    [{ taskID := 2, dependsOnTaskID := 1 }, { taskID := 3, dependsOnTaskID := 1 },
     { taskID := 2, dependsOnTaskID := 1 }]
    [{ id := 1, taskID := 1, scheduleInstanceID := "load-1", status := .running }]
    [{ id := "w1", status := .online, currentLoad := 2, maxConcurrency := 4,
       lastHeartbeatAt := minute }]

def loaded : TaskStatusReportRequest :=
  { scheduleInstanceID := "load-1", workerID := "w1", status := .success }

theorem load_reported :
    OnlyReported (fun n => { now := (n : Int) * second }) loading loaded
      { id := 1, taskID := 1, scheduleInstanceID := "load-1", status := .running } 0
      (Prog.run (execAt (fun n => { now := (n : Int) * second })) (reportStatus "" loaded)
        (loading, 0)).2 := by
  refine (success_report_frame (fun _ => rfl) "" ?_ (fun h => (by cases h)) ⟨?_, rfl, rfl⟩ rfl 0).2
  · exact WorkerStore.built_of_heartbeat _ _ (by decide)
  · decide

end AiScheduler.SuccessFrame
