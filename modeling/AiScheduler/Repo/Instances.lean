/-
  **THE TASK-INSTANCE REPOSITORY**, MySQL and in-memory.

  MySQL has no shard columns, refuses a second row with one schedule id
  (`uk_schedule_instance_id`) and reports no error when an update matches no
  row.  The in-memory store keeps every field, lets a later instance take over
  a schedule id, and fails on unknown ids.
-/
import AiScheduler.Repo.Tasks

namespace AiScheduler

open Lib Table

variable {id now : Int} {r i : TaskInstance} {p : TaskInstance → Bool}
  {f : TaskInstance → TaskInstance} {b : Backend} {sid : String}

/-! ## Instance rows. -/

/-- `taskInstanceRow`: the columns of table `task_instance`. -/
structure TaskInstanceRow where
  id : Int
  taskID : Int
  scheduleInstanceID : String
  triggerTime : Int
  dispatchTime : Option Int
  startedAt : Option Int
  finishedAt : Option Int
  workerID : String
  status : InstanceStatus
  retryCount : Nat
  errorCode : String
  errorMessage : String
  analysisJSON : String
  traceID : String
  nextRetryTime : Option Int
  createdAt : Int
  updatedAt : Int
  deriving DecidableEq, Repr

def taskInstanceToRow (instance_ : TaskInstance) : TaskInstanceRow where
  id := instance_.id
  taskID := instance_.taskID
  scheduleInstanceID := instance_.scheduleInstanceID
  triggerTime := instance_.triggerTime
  dispatchTime := timeOrNil instance_.dispatchTime
  startedAt := timeOrNil instance_.startedAt
  finishedAt := timeOrNil instance_.finishedAt
  workerID := instance_.workerID
  status := instance_.status
  retryCount := instance_.retryCount
  errorCode := instance_.errorCode
  errorMessage := instance_.errorMessage
  analysisJSON := instance_.analysisJSON
  traceID := instance_.traceID
  nextRetryTime := timeOrNil instance_.nextRetryTime
  createdAt := instance_.createdAt
  updatedAt := instance_.updatedAt

def rowToTaskInstance (row : TaskInstanceRow) : TaskInstance where
  id := row.id
  taskID := row.taskID
  scheduleInstanceID := row.scheduleInstanceID
  triggerTime := row.triggerTime
  dispatchTime := row.dispatchTime.getD 0
  startedAt := row.startedAt.getD 0
  finishedAt := row.finishedAt.getD 0
  workerID := row.workerID
  status := row.status
  retryCount := row.retryCount
  errorCode := row.errorCode
  errorMessage := row.errorMessage
  analysisJSON := row.analysisJSON
  traceID := row.traceID
  nextRetryTime := row.nextRetryTime.getD 0
  createdAt := row.createdAt
  updatedAt := row.updatedAt

/-- What a read of a stored instance shows. -/
def readInstance : Backend → TaskInstance → TaskInstance
  | .mysql, i => rowToTaskInstance (taskInstanceToRow i)
  | .teststore, i => i

section

variable (b : Backend) (i : TaskInstance)

@[simp] theorem readInstance_id :
    (readInstance b i).id = i.id := by
  cases b <;> rfl

@[simp] theorem readInstance_taskID :
    (readInstance b i).taskID = i.taskID := by
  cases b <;> rfl

@[simp] theorem readInstance_scheduleInstanceID :
    (readInstance b i).scheduleInstanceID = i.scheduleInstanceID := by
  cases b <;> rfl

@[simp] theorem readInstance_status :
    (readInstance b i).status = i.status := by
  cases b <;> rfl

@[simp] theorem readInstance_workerID :
    (readInstance b i).workerID = i.workerID := by
  cases b <;> rfl

@[simp] theorem readInstance_retryCount :
    (readInstance b i).retryCount = i.retryCount := by
  cases b <;> rfl

end

/-! ## The store. -/

/-- Instances under distinct ids, all below the next id. -/
structure InstanceStore where
  instances : Table TaskInstance.id
  nextID : Int
  fresh : ∀ i ∈ instances.rows, i.id < nextID

variable {s : InstanceStore}

/-- The error of a lookup or update that finds nothing. -/
def instanceNotFound (b : Backend) (context : String) : Err :=
  match b with
  | .mysql => .wrap context (.text "record not found")
  | .teststore => .text "task instance not found"

/-- The instance a schedule id stands for: MySQL's row, the in-memory store's LAST created one. -/
def InstanceStore.bySchedule (b : Backend) (s : InstanceStore) (scheduleID : String) :
    Option TaskInstance :=
  match b with
  | .mysql => s.instances.rows.find? (fun i => i.scheduleInstanceID = scheduleID)
  | .teststore => s.instances.rows.reverse.find? (fun i => i.scheduleInstanceID = scheduleID)

/-- The row `CreateInstance` inserts. -/
def InstanceStore.newRow (b : Backend) (now : Int) (s : InstanceStore) (i : TaskInstance) :
    TaskInstance :=
  match b with
  | .mysql =>
    { i with
      id := s.nextID
      createdAt := if i.createdAt = 0 then now else i.createdAt
      updatedAt := if i.updatedAt = 0 then now else i.updatedAt }
  | .teststore => { i with id := s.nextID, createdAt := now, updatedAt := now }

section

variable (b : Backend) (now : Int) (s : InstanceStore) (i : TaskInstance)

@[simp] theorem InstanceStore.newRow_id : (s.newRow b now i).id = s.nextID := by
  cases b <;> rfl

@[simp] theorem InstanceStore.newRow_status : (s.newRow b now i).status = i.status := by
  cases b <;> rfl

@[simp] theorem InstanceStore.newRow_scheduleInstanceID :
    (s.newRow b now i).scheduleInstanceID = i.scheduleInstanceID := by
  cases b <;> rfl

@[simp] theorem InstanceStore.newRow_shardTotal : (s.newRow b now i).shardTotal = i.shardTotal := by
  cases b <;> rfl

@[simp] theorem InstanceStore.newRow_taskID : (s.newRow b now i).taskID = i.taskID := by
  cases b <;> rfl

@[simp] theorem InstanceStore.newRow_retryCount : (s.newRow b now i).retryCount = i.retryCount := by
  cases b <;> rfl

end

/-- The store with the new row. -/
def InstanceStore.insert (b : Backend) (now : Int) (s : InstanceStore) (i : TaskInstance) :
    InstanceStore where
  instances := s.instances.insertNew (s.newRow b now i) (fun r hr => by
    have := s.fresh r hr
    rw [InstanceStore.newRow_id]
    omega)
  nextID := s.nextID + 1
  fresh := by
    intro r hr
    rcases Table.mem_insertNew.mp hr with hr | rfl
    · have := s.fresh r hr
      omega
    · rw [InstanceStore.newRow_id]
      omega

/-- `CreateInstance`: the instance as the caller holds it afterwards. -/
def InstanceStore.createInstance (b : Backend) (now : Int) (s : InstanceStore)
    (i : TaskInstance) : Except Err TaskInstance × InstanceStore :=
  if b = .mysql ∧ (s.bySchedule .mysql i.scheduleInstanceID).isSome then
    (.error (.wrap "insert task instance"
      (.text "Error 1062 (23000): Duplicate entry for key 'uk_schedule_instance_id'")), s)
  else (.ok (readInstance b (s.newRow b now i)), s.insert b now i)

def InstanceStore.getInstance (b : Backend) (s : InstanceStore) (id : Int) :
    Except Err TaskInstance :=
  match s.instances.get? id with
  | some i => .ok (readInstance b i)
  | none => .error (instanceNotFound b "get task instance")

def InstanceStore.getInstanceByScheduleID (b : Backend) (s : InstanceStore)
    (scheduleID : String) : Except Err TaskInstance :=
  match s.bySchedule b scheduleID with
  | some i => .ok (readInstance b i)
  | none => .error (instanceNotFound b "get task instance by schedule id")

/-- `WHERE p ORDER BY key`. -/
def InstanceStore.select (s : InstanceStore) (scan : Scan TaskInstance) (p : TaskInstance → Bool)
    (key : TaskInstance → Int) : List TaskInstance :=
  scan.orderBy key (s.instances.rows.filter p)

/-- `ListInstancesByStatus`, by creation time. -/
def InstanceStore.listInstancesByStatus (b : Backend) (scan : Scan TaskInstance)
    (s : InstanceStore) (status : InstanceStatus) (limit : Int) : List TaskInstance :=
  (limited limit (s.select scan (fun i => i.status = status) TaskInstance.createdAt)).map
    (readInstance b)

/-- Waiting for a retry whose time has come (or was never set). -/
def TaskInstance.isRetryDue (i : TaskInstance) (cutoff : Int) : Bool :=
  i.status = .retryWaiting ∧ (i.nextRetryTime = 0 ∨ i.nextRetryTime ≤ cutoff)

/-- `ListDueRetryInstances`, by creation time. -/
def InstanceStore.listDueRetryInstances (b : Backend) (scan : Scan TaskInstance)
    (s : InstanceStore) (cutoff limit : Int) : List TaskInstance :=
  (limited limit (s.select scan (fun i => i.isRetryDue cutoff) TaskInstance.createdAt)).map
    (readInstance b)

def InstanceStore.countInstancesByStatus (s : InstanceStore) (status : InstanceStatus) : Int :=
  (s.instances.rows.countP (fun i => i.status = status) : Nat)

/-- Rewrite the rows that satisfy `p`, keeping ids. -/
def InstanceStore.rewrite (s : InstanceStore) (p : TaskInstance → Bool)
    (f : TaskInstance → TaskInstance) (hf : ∀ i, (f i).id = i.id) : InstanceStore :=
  { s with
    instances := s.instances.modify p f hf
    fresh := by
      intro r hr
      obtain ⟨r₀, hr₀, rfl⟩ := Table.mem_modify.mp hr
      split
      · rw [hf]
        exact s.fresh r₀ hr₀
      · exact s.fresh r₀ hr₀ }

/-- An update addressed by id. -/
def InstanceStore.updateByID (b : Backend) (s : InstanceStore) (id : Int)
    (f : TaskInstance → TaskInstance) (hf : ∀ i, (f i).id = i.id) :
    Except Err Unit × InstanceStore :=
  if b = .teststore ∧ (s.instances.get? id).isNone then
    (.error (instanceNotFound b ""), s)
  else (.ok (), s.rewrite (fun i => i.id = id) f hf)

/-- Which rows an update addressed by schedule id changes. -/
def InstanceStore.addressed (b : Backend) (s : InstanceStore) (scheduleID : String)
    (i : TaskInstance) : Bool :=
  match b with
  | .mysql => i.scheduleInstanceID = scheduleID
  | .teststore => (s.bySchedule .teststore scheduleID).map TaskInstance.id = some i.id

/-- An update addressed by schedule id. -/
def InstanceStore.updateBySchedule (b : Backend) (s : InstanceStore) (scheduleID : String)
    (f : TaskInstance → TaskInstance) (hf : ∀ i, (f i).id = i.id) :
    Except Err Unit × InstanceStore :=
  if b = .teststore ∧ (s.bySchedule b scheduleID).isNone then
    (.error (instanceNotFound b ""), s)
  else (.ok (), s.rewrite (s.addressed b scheduleID) f hf)

/-- The columns `UpdateInstanceStatus` sets. -/
def setStatus (now : Int) (status : InstanceStatus) (i : TaskInstance) : TaskInstance :=
  { i with status := status, updatedAt := now }

/-- The columns `UpdateInstanceDispatch` sets. -/
def setDispatch (now : Int) (workerID : String) (dispatchTime : Int) (i : TaskInstance) :
    TaskInstance :=
  { i with
    workerID := workerID, dispatchTime := dispatchTime, status := .dispatched, updatedAt := now }

/-- The columns `UpdateInstanceResult` sets. -/
def setResult (now : Int) (status : InstanceStatus) (errorCode errorMessage : String)
    (i : TaskInstance) : TaskInstance :=
  { i with
    status := status, errorCode := errorCode, errorMessage := errorMessage, updatedAt := now }

/-- `UpdateInstanceTimestamps`: given a zero time, memory keeps the stored one, MySQL has NULL. -/
def setTimestamps (b : Backend) (now startedAt finishedAt : Int) (i : TaskInstance) :
    TaskInstance :=
  match b with
  | .mysql => { i with startedAt := startedAt, finishedAt := finishedAt, updatedAt := now }
  | .teststore =>
    { i with
      startedAt := if startedAt = 0 then i.startedAt else startedAt
      finishedAt := if finishedAt = 0 then i.finishedAt else finishedAt
      updatedAt := now }

def InstanceStore.updateInstanceStatus (b : Backend) (now : Int) (s : InstanceStore) (id : Int)
    (status : InstanceStatus) : Except Err Unit × InstanceStore :=
  s.updateByID b id (setStatus now status) (fun _ => rfl)

def InstanceStore.updateInstanceDispatch (b : Backend) (now : Int) (s : InstanceStore) (id : Int)
    (workerID : String) (dispatchTime : Int) : Except Err Unit × InstanceStore :=
  s.updateByID b id (setDispatch now workerID dispatchTime) (fun _ => rfl)

def InstanceStore.updateInstanceResult (b : Backend) (now : Int) (s : InstanceStore)
    (scheduleID : String) (status : InstanceStatus) (errorCode errorMessage : String) :
    Except Err Unit × InstanceStore :=
  s.updateBySchedule b scheduleID (setResult now status errorCode errorMessage) (fun _ => rfl)

section

variable (b : Backend) (now startedAt finishedAt : Int) (i : TaskInstance)

@[simp] theorem setTimestamps_id : (setTimestamps b now startedAt finishedAt i).id = i.id := by
  cases b <;> rfl

@[simp] theorem setTimestamps_status :
    (setTimestamps b now startedAt finishedAt i).status = i.status := by
  cases b <;> rfl

@[simp] theorem setTimestamps_shardTotal :
    (setTimestamps b now startedAt finishedAt i).shardTotal = i.shardTotal := by
  cases b <;> rfl

@[simp] theorem setTimestamps_workerID :
    (setTimestamps b now startedAt finishedAt i).workerID = i.workerID := by
  cases b <;> rfl

@[simp] theorem setTimestamps_scheduleInstanceID :
    (setTimestamps b now startedAt finishedAt i).scheduleInstanceID = i.scheduleInstanceID := by
  cases b <;> rfl

end

def InstanceStore.updateInstanceTimestamps (b : Backend) (now : Int) (s : InstanceStore)
    (scheduleID : String) (startedAt finishedAt : Int) : Except Err Unit × InstanceStore :=
  s.updateBySchedule b scheduleID (setTimestamps b now startedAt finishedAt)
    (setTimestamps_id b now startedAt finishedAt)

/-! ## What the operations do to a row. -/

theorem InstanceStore.get?_insert (b : Backend) (now : Int) (s : InstanceStore) (i : TaskInstance)
    (id : Int) :
    (s.insert b now i).instances.get? id
      = if id = s.nextID then some (s.newRow b now i) else s.instances.get? id := by
  unfold InstanceStore.insert
  rw [get?_insertNew, InstanceStore.newRow_id]

theorem InstanceStore.get?_nextID (s : InstanceStore) : s.instances.get? s.nextID = none := by
  rw [get?_none]
  intro r hr
  have := s.fresh r hr
  omega

theorem InstanceStore.lt_nextID (h : s.instances.get? id = some r) : id < s.nextID := by
  obtain ⟨hr, rfl⟩ := get?_some h
  exact s.fresh r hr

theorem InstanceStore.get?_rewrite (s : InstanceStore) (p : TaskInstance → Bool)
    (f : TaskInstance → TaskInstance) (hf : ∀ i, (f i).id = i.id) (id : Int) :
    (s.rewrite p f hf).instances.get? id
      = (s.instances.get? id).map (fun r => if p r then f r else r) := by
  unfold InstanceStore.rewrite
  rw [get?_modify]

theorem InstanceStore.get?_rewrite_of_some {hf : ∀ i, (f i).id = i.id}
    (h : s.instances.get? id = some r) :
    (s.rewrite p f hf).instances.get? id = some (if p r then f r else r) := by
  rw [InstanceStore.get?_rewrite, h]
  rfl

theorem InstanceStore.mem_rewrite {hf : ∀ i, (f i).id = i.id} :
    r ∈ (s.rewrite p f hf).instances.rows
      ↔ ∃ r₀ ∈ s.instances.rows, r = if p r₀ then f r₀ else r₀ := by
  show r ∈ (s.instances.modify p f hf).rows ↔ _
  exact mem_modify

theorem InstanceStore.mem_insert :
    r ∈ (s.insert b now i).instances.rows ↔ r ∈ s.instances.rows ∨ r = s.newRow b now i := by
  unfold InstanceStore.insert
  rw [mem_insertNew]

theorem InstanceStore.updateByID_cases (b : Backend) (s : InstanceStore) (id : Int)
    (f : TaskInstance → TaskInstance) (hf : ∀ i, (f i).id = i.id) :
    (∃ e, s.updateByID b id f hf = (.error e, s))
      ∨ s.updateByID b id f hf = (.ok (), s.rewrite (fun i => i.id = id) f hf) := by
  unfold InstanceStore.updateByID
  split
  · exact .inl ⟨_, rfl⟩
  · exact .inr rfl

theorem InstanceStore.updateByID_of_get? (h : s.instances.get? id = some r)
    (f : TaskInstance → TaskInstance)
    (hf : ∀ i, (f i).id = i.id) :
    s.updateByID b id f hf = (.ok (), s.rewrite (fun i => i.id = id) f hf) := by
  unfold InstanceStore.updateByID
  rw [if_neg]
  rw [h]
  simp

theorem InstanceStore.bySchedule_some (h : s.bySchedule b sid = some r) :
    r ∈ s.instances.rows ∧ r.scheduleInstanceID = sid := by
  cases b with
  | mysql => exact ⟨List.mem_of_find?_eq_some h, by simpa using List.find?_some h⟩
  | teststore =>
    refine ⟨?_, by simpa using List.find?_some h⟩
    exact List.mem_reverse.mp (List.mem_of_find?_eq_some h)

theorem InstanceStore.bySchedule_none
    (h : s.bySchedule b sid = none) : ∀ r ∈ s.instances.rows, r.scheduleInstanceID ≠ sid := by
  intro r hr
  cases b with
  | mysql => simpa using List.find?_eq_none.mp h r hr
  | teststore => simpa using List.find?_eq_none.mp h r (List.mem_reverse.mpr hr)

theorem InstanceStore.updateBySchedule_cases (b : Backend) (s : InstanceStore) (sid : String)
    (f : TaskInstance → TaskInstance) (hf : ∀ i, (f i).id = i.id) :
    (∃ e, s.updateBySchedule b sid f hf = (.error e, s))
      ∨ s.updateBySchedule b sid f hf = (.ok (), s.rewrite (s.addressed b sid) f hf) := by
  unfold InstanceStore.updateBySchedule
  split
  · exact .inl ⟨_, rfl⟩
  · exact .inr rfl

theorem InstanceStore.updateBySchedule_of_mem (hr : r ∈ s.instances.rows)
    (f : TaskInstance → TaskInstance)
    (hf : ∀ i, (f i).id = i.id) :
    s.updateBySchedule b r.scheduleInstanceID f hf
      = (.ok (), s.rewrite (s.addressed b r.scheduleInstanceID) f hf) := by
  unfold InstanceStore.updateBySchedule
  rw [if_neg]
  intro h
  exact InstanceStore.bySchedule_none (Option.isNone_iff_eq_none.mp h.2) r hr rfl

theorem InstanceStore.addressed_of_bySchedule
    (h : s.bySchedule b sid = some r) : s.addressed b sid r = true := by
  cases b with
  | mysql => exact decide_eq_true (InstanceStore.bySchedule_some h).2
  | teststore =>
    apply decide_eq_true
    rw [h]
    rfl

theorem InstanceStore.bySchedule_rewrite {hf : ∀ i, (f i).id = i.id}
    (hsid : ∀ i, (f i).scheduleInstanceID = i.scheduleInstanceID) (b : Backend) (sid : String) :
    (s.rewrite p f hf).bySchedule b sid
      = (s.bySchedule b sid).map (fun r => if p r then f r else r) := by
  have hkeep : (fun i : TaskInstance => decide (i.scheduleInstanceID = sid))
      ∘ (fun r => if p r then f r else r)
        = fun i : TaskInstance => decide (i.scheduleInstanceID = sid) := by
    funext i
    show decide ((if p i then f i else i).scheduleInstanceID = sid) = _
    split
    · rw [hsid]
    · rfl
  have hrows : (s.rewrite p f hf).instances.rows
      = s.instances.rows.map (fun r => if p r then f r else r) := rfl
  cases b with
  | mysql =>
    show (s.rewrite p f hf).instances.rows.find? _ = (s.instances.rows.find? _).map _
    rw [hrows, List.find?_map, hkeep]
  | teststore =>
    show (s.rewrite p f hf).instances.rows.reverse.find? _
      = (s.instances.rows.reverse.find? _).map _
    rw [hrows, ← List.map_reverse, List.find?_map, hkeep]

theorem InstanceStore.addressed_rewrite {hf : ∀ i, (f i).id = i.id}
    (hsid : ∀ i, (f i).scheduleInstanceID = i.scheduleInstanceID) (b : Backend) (sid : String)
    {r' : TaskInstance} (hid : r'.id = r.id) (hr : r'.scheduleInstanceID = r.scheduleInstanceID) :
    (s.rewrite p f hf).addressed b sid r' = s.addressed b sid r := by
  cases b with
  | mysql =>
    show decide (r'.scheduleInstanceID = sid) = decide (r.scheduleInstanceID = sid)
    rw [hr]
  | teststore =>
  unfold InstanceStore.addressed
  rw [InstanceStore.bySchedule_rewrite hsid, Option.map_map, hid]
  have hids : TaskInstance.id ∘ (fun r => if p r then f r else r) = TaskInstance.id := by
    funext i
    show (if p i then f i else i).id = i.id
    split
    · exact hf i
    · rfl
  rw [hids]

theorem InstanceStore.mem_listDueRetryInstances {scan : Scan TaskInstance}
    {cutoff limit : Int} (h : i ∈ s.listDueRetryInstances b scan cutoff limit) :
    ∃ r ∈ s.instances.rows, r.isRetryDue cutoff = true ∧ i = readInstance b r := by
  obtain ⟨r, hr, rfl⟩ := List.mem_map.mp h
  have hr := Scan.mem_orderBy.mp (mem_of_mem_limited hr)
  rw [List.mem_filter] at hr
  exact ⟨r, hr.1, hr.2, rfl⟩

theorem InstanceStore.createInstance_cases (b : Backend) (now : Int) (s : InstanceStore)
    (i : TaskInstance) :
    (∃ e, s.createInstance b now i = (.error e, s))
      ∨ s.createInstance b now i = (.ok (readInstance b (s.newRow b now i)), s.insert b now i) := by
  unfold InstanceStore.createInstance
  split
  · exact .inl ⟨_, rfl⟩
  · exact .inr rfl

/-! ## Distinct schedule ids. -/

/-- No two stored instances share a schedule id: MySQL's unique key. -/
def InstanceStore.SchedulesDistinct (s : InstanceStore) : Prop :=
  ∀ r ∈ s.instances.rows, ∀ r' ∈ s.instances.rows,
    r.scheduleInstanceID = r'.scheduleInstanceID → r = r'

instance (s : InstanceStore) : Decidable s.SchedulesDistinct :=
  inferInstanceAs (Decidable (∀ r ∈ s.instances.rows, ∀ r' ∈ s.instances.rows,
    r.scheduleInstanceID = r'.scheduleInstanceID → r = r'))

theorem InstanceStore.bySchedule_of_mem (hd : s.SchedulesDistinct) (hr : r ∈ s.instances.rows) :
    s.bySchedule b r.scheduleInstanceID = some r := by
  cases h : s.bySchedule b r.scheduleInstanceID with
  | none => exact absurd rfl (InstanceStore.bySchedule_none h r hr)
  | some r' =>
    obtain ⟨hr', hsid⟩ := InstanceStore.bySchedule_some h
    rw [hd r' hr' r hr hsid]

theorem InstanceStore.addressed_of_distinct
    (hd : s.SchedulesDistinct) (hr : r ∈ s.instances.rows) (sid : String) :
    s.addressed b sid r = decide (r.scheduleInstanceID = sid) := by
  cases b with
  | mysql => rfl
  | teststore =>
  show decide ((s.bySchedule .teststore sid).map TaskInstance.id = some r.id) = _
  rw [decide_eq_decide]
  constructor
  · intro h
    obtain ⟨r', hr', hid⟩ := Option.map_eq_some_iff.mp h
    obtain ⟨hmem, hsid⟩ := InstanceStore.bySchedule_some hr'
    rw [← eq_of_key hmem hr hid]
    exact hsid
  · intro h
    rw [← h, InstanceStore.bySchedule_of_mem hd hr]
    rfl

theorem InstanceStore.SchedulesDistinct.rewrite (hd : s.SchedulesDistinct)
    {hf : ∀ i, (f i).id = i.id}
    (hsid : ∀ i, (f i).scheduleInstanceID = i.scheduleInstanceID) :
    (s.rewrite p f hf).SchedulesDistinct := by
  intro r hr r' hr' heq
  obtain ⟨r₀, hr₀, rfl⟩ := InstanceStore.mem_rewrite.mp hr
  obtain ⟨r₁, hr₁, rfl⟩ := InstanceStore.mem_rewrite.mp hr'
  have hkeep : ∀ i, (if p i then f i else i).scheduleInstanceID = i.scheduleInstanceID := by
    intro i
    split
    · exact hsid i
    · rfl
  rw [hkeep, hkeep] at heq
  rw [hd r₀ hr₀ r₁ hr₁ heq]

theorem InstanceStore.SchedulesDistinct.insert (hd : s.SchedulesDistinct)
    (hnew : ∀ r ∈ s.instances.rows, r.scheduleInstanceID ≠ i.scheduleInstanceID) :
    (s.insert b now i).SchedulesDistinct := by
  intro r hr r' hr' heq
  rcases InstanceStore.mem_insert.mp hr with hr | rfl
  · rcases InstanceStore.mem_insert.mp hr' with hr' | rfl
    · exact hd r hr r' hr' heq
    · rw [InstanceStore.newRow_scheduleInstanceID] at heq
      exact absurd heq (hnew r hr)
  rcases InstanceStore.mem_insert.mp hr' with hr' | rfl
  · rw [InstanceStore.newRow_scheduleInstanceID] at heq
    exact absurd heq.symm (hnew r' hr')
  · rfl

theorem InstanceStore.SchedulesDistinct.of_rewrite {hf : ∀ i, (f i).id = i.id}
    (hsid : ∀ i, (f i).scheduleInstanceID = i.scheduleInstanceID)
    (hd : (s.rewrite p f hf).SchedulesDistinct) : s.SchedulesDistinct := by
  intro r hr r' hr' heq
  have hmem : ∀ i ∈ s.instances.rows,
      (if p i then f i else i) ∈ (s.rewrite p f hf).instances.rows :=
    fun i hi => InstanceStore.mem_rewrite.mpr ⟨i, hi, rfl⟩
  have hkeep : ∀ i, (if p i then f i else i).scheduleInstanceID = i.scheduleInstanceID
      ∧ (if p i then f i else i).id = i.id := by
    intro i
    split
    · exact ⟨hsid i, hf i⟩
    · exact ⟨rfl, rfl⟩
  have hsame := hd _ (hmem r hr) _ (hmem r' hr') (by rw [(hkeep r).1, (hkeep r').1, heq])
  apply eq_of_key hr hr'
  rw [← (hkeep r).2, ← (hkeep r').2, hsame]

theorem InstanceStore.SchedulesDistinct.of_insert
    (hd : (s.insert b now i).SchedulesDistinct) : s.SchedulesDistinct :=
  fun r hr r' hr' => hd r (InstanceStore.mem_insert.mpr (.inl hr)) r'
    (InstanceStore.mem_insert.mpr (.inl hr'))

theorem InstanceStore.SchedulesDistinct.new_of_insert (hd : (s.insert b now i).SchedulesDistinct) :
    ∀ r ∈ s.instances.rows, r.scheduleInstanceID ≠ i.scheduleInstanceID := by
  intro r hr hsid
  have hsame := hd r (InstanceStore.mem_insert.mpr (.inl hr)) (s.newRow b now i)
    (InstanceStore.mem_insert.mpr (.inr rfl))
    (by rw [InstanceStore.newRow_scheduleInstanceID, hsid])
  have hlt := s.fresh r hr
  rw [hsame, InstanceStore.newRow_id] at hlt
  omega

/-- An update by schedule id that succeeds: every row with that id is `f`'s. -/
theorem InstanceStore.get?_rewrite_addressed (hd : s.SchedulesDistinct)
    {hf : ∀ i, (f i).id = i.id} (hr : s.instances.get? id = some r) :
    (s.rewrite (s.addressed b sid) f hf).instances.get? id
      = some (if r.scheduleInstanceID = sid then f r else r) := by
  rw [InstanceStore.get?_rewrite, hr]
  show some (if s.addressed b sid r then f r else r) = _
  rw [InstanceStore.addressed_of_distinct hd (get?_some hr).1]
  simp

end AiScheduler
