/-
  **WHAT AN INSTANCE IS BORN WITH STAYS.**

  A call leaves the instances alone, inserts one, or rewrites rows with one of four updates
  (`execCall_instances_cases`). None deletes an instance or changes what it was born with
  (`InstanceStore.Extends`).
-/
import AiScheduler.System.Calls

namespace AiScheduler

open Lib

variable {c : InstanceCall} {id : Int} {f : TaskInstance → TaskInstance} {w : World} {inp : Input}
  {stored : TaskInstance}

/-! ## What a call does to the instances. -/

/-- The rows an update goes to, and what it does to each. -/
inductive InstanceCall.Updates (b : Backend) (now : Int) (s : InstanceStore) :
    InstanceCall → (TaskInstance → Bool) → (TaskInstance → TaskInstance) → Prop where
  | status (id : Int) (status : InstanceStatus) :
      Updates b now s (.updateInstanceStatus id status) (fun i => i.id = id) (setStatus now status)
  | dispatch (id : Int) (workerID : String) (time : Int) :
      Updates b now s (.updateInstanceDispatch id workerID time) (fun i => i.id = id)
        (setDispatch now workerID time)
  | result (sid : String) (status : InstanceStatus) (code msg : String) :
      Updates b now s (.updateInstanceResult sid status code msg) (s.addressed b sid)
        (setResult now status code msg)
  | timestamps (sid : String) (started finished : Int) :
      Updates b now s (.updateInstanceTimestamps sid started finished) (s.addressed b sid)
        (setTimestamps b now started finished)

/-- From `s` to `s'`: nothing, a new row (in MySQL, of a new schedule id), or a rewrite. -/
def InstanceCall.Moves (c : InstanceCall) (b : Backend) (now : Int) (s s' : InstanceStore) : Prop :=
  s' = s ∨ (∃ i, c = .createInstance i ∧ s' = s.insert b now i
        ∧ (b = .mysql → ∀ r ∈ s.instances.rows, r.scheduleInstanceID ≠ i.scheduleInstanceID))
    ∨ ∃ p f hf, c.Updates b now s p f ∧ s' = s.rewrite p f hf

section Moves

variable {b : Backend} {now : Int} {s : InstanceStore}

theorem moves_updateByID
    {hf : ∀ i, (f i).id = i.id} (hc : c.Updates b now s (fun i => i.id = id) f) :
    c.Moves b now s (s.updateByID b id f hf).2 := by
  rcases s.updateByID_cases b id f hf with ⟨e, h⟩ | h
  · rw [h]
    exact .inl rfl
  · rw [h]
    exact .inr (.inr ⟨_, f, hf, hc, rfl⟩)

theorem moves_updateBySchedule {sid : String}
    {hf : ∀ i, (f i).id = i.id} (hc : c.Updates b now s (s.addressed b sid) f) :
    c.Moves b now s (s.updateBySchedule b sid f hf).2 := by
  rcases s.updateBySchedule_cases b sid f hf with ⟨e, h⟩ | h
  · rw [h]
    exact .inl rfl
  · rw [h]
    exact .inr (.inr ⟨_, f, hf, hc, rfl⟩)

theorem moves_createInstance (i : TaskInstance) :
    InstanceCall.Moves (.createInstance i) b now s (s.createInstance b now i).2 := by
  unfold InstanceStore.createInstance
  split
  · exact .inl rfl
  next hnew =>
    refine .inr (.inl ⟨i, rfl, rfl, ?_⟩)
    -- the insert is reached under MySQL only when the unique key is free
    intro hb
    apply InstanceStore.bySchedule_none (b := .mysql)
    rw [← Option.not_isSome_iff_eq_none]
    exact fun hsome => hnew ⟨hb, hsome⟩

/-- **What a call of the instance repository does.** -/
theorem InstanceCall.exec_cases (b : Backend) (inp : Input) (c : InstanceCall)
    (s : InstanceStore) : c.Moves b inp.now s (c.exec b inp s).2 := by
  cases c with
  | createInstance i => exact moves_createInstance i
  | updateInstanceStatus id status => exact moves_updateByID (.status id status)
  | updateInstanceDispatch id workerID time => exact moves_updateByID (.dispatch id workerID time)
  | updateInstanceResult sid status code msg =>
    exact moves_updateBySchedule (.result sid status code msg)
  | updateInstanceTimestamps sid started finished =>
    exact moves_updateBySchedule (.timestamps sid started finished)
  | getInstance id | getInstanceByScheduleID sid | listInstancesByStatus status limit
  | listDueRetryInstances cutoff limit | countInstancesByStatus status => exact .inl rfl

end Moves

/-- **… and what any call does to the instances.** -/
theorem execCall_instances_cases (inp : Input) (op : Call) (w : World) :
    (execCall inp op w).2.instances = w.instances ∨ ∃ c, op = .inst c
          ∧ c.Moves w.backend inp.now w.instances (execCall inp op w).2.instances := by
  by_cases hinst : ∃ c, op = .inst c
  · obtain ⟨c, rfl⟩ := hinst
    rcases exec_inst_cases inp w c with ⟨e, he⟩ | he
    · rw [he]
      exact .inl rfl
    · rw [he]
      exact .inr ⟨c, rfl, c.exec_cases w.backend inp w.instances⟩
  · exact .inl (exec_instances inp w (fun c hc => hinst ⟨c, hc⟩))

/-! ## Births. -/

/-- The columns no call ever changes.  (MySQL does not store the shard.) -/
def TaskInstance.born (i : TaskInstance) : TaskInstance where
  id := i.id
  taskID := i.taskID
  scheduleInstanceID := i.scheduleInstanceID
  triggerTime := i.triggerTime
  retryCount := i.retryCount
  nextRetryTime := i.nextRetryTime
  traceID := i.traceID
  createdAt := i.createdAt

@[simp] theorem born_readInstance (b : Backend) (i : TaskInstance) :
    (readInstance b i).born = i.born := by
  cases b with
  | teststore => rfl
  | mysql =>
    simp only [readInstance, rowToTaskInstance, taskInstanceToRow, getD_timeOrNil,
      TaskInstance.born]

@[simp] theorem born_setTimestamps (b : Backend) (now startedAt finishedAt : Int)
    (i : TaskInstance) : (setTimestamps b now startedAt finishedAt i).born = i.born := by
  cases b <;> rfl

section Columns

variable {i j : TaskInstance} (h : i.born = j.born)

include h

theorem nextRetryTime_of_born : i.nextRetryTime = j.nextRetryTime :=
  (congrArg TaskInstance.nextRetryTime h :)

theorem triggerTime_of_born : i.triggerTime = j.triggerTime :=
  (congrArg TaskInstance.triggerTime h :)

theorem taskID_of_born : i.taskID = j.taskID :=
  (congrArg TaskInstance.taskID h :)

theorem retryCount_of_born : i.retryCount = j.retryCount :=
  (congrArg TaskInstance.retryCount h :)

theorem scheduleInstanceID_of_born : i.scheduleInstanceID = j.scheduleInstanceID :=
  (congrArg TaskInstance.scheduleInstanceID h :)

end Columns

/-- The instances of `s` are still there in `s'`; what came has new ids. -/
structure InstanceStore.Extends (s s' : InstanceStore) : Prop where
  nextID_le : s.nextID ≤ s'.nextID
  born_get? : ∀ id, id < s.nextID →
    (s'.instances.get? id).map TaskInstance.born = (s.instances.get? id).map TaskInstance.born

namespace InstanceStore

variable {s s' : InstanceStore}

theorem Extends.refl (s : InstanceStore) : Extends s s := ⟨Int.le_refl _, fun _ _ => rfl⟩

theorem Extends.trans {s'' : InstanceStore} (h : Extends s s') (h' : Extends s' s'') :
    Extends s s'' := by
  refine ⟨Int.le_trans h.nextID_le h'.nextID_le, ?_⟩
  intro id hid
  rw [h'.born_get? id (Int.lt_of_lt_of_le hid h.nextID_le), h.born_get? id hid]

theorem Extends.before (h : Extends s s') (hid : id < s.nextID) {r' : TaskInstance}
    (hr' : s'.instances.get? id = some r') :
    ∃ r, s.instances.get? id = some r ∧ r'.born = r.born := by
  have hborn := h.born_get? id hid
  rw [hr'] at hborn
  obtain ⟨r, hr, heq⟩ := Option.map_eq_some_iff.mp hborn.symm
  exact ⟨r, hr, heq.symm⟩

theorem Extends.kept (h : Extends s s') {r : TaskInstance} (hr : s.instances.get? id = some r) :
    ∃ r', s'.instances.get? id = some r' ∧ r'.born = r.born := by
  have hborn := h.born_get? id (lt_nextID hr)
  rw [hr] at hborn
  exact Option.map_eq_some_iff.mp hborn

theorem extends_rewrite {p : TaskInstance → Bool}
    {hf : ∀ i, (f i).id = i.id} (hborn : ∀ i, (f i).born = i.born) :
    Extends s (s.rewrite p f hf) := by
  refine ⟨Int.le_refl _, ?_⟩
  intro id _
  rw [get?_rewrite, Option.map_map]
  congr 1
  funext r
  show (if p r then f r else r).born = r.born
  split
  · exact hborn r
  · rfl

theorem extends_insert (b : Backend) (now : Int) (i : TaskInstance) :
    Extends s (s.insert b now i) := by
  refine ⟨?_, ?_⟩
  · show s.nextID ≤ s.nextID + 1
    omega
  · intro id hid
    rw [get?_insert, if_neg (by omega)]

end InstanceStore

/-! ## Calls. -/

theorem InstanceCall.Updates.born {b : Backend} {now : Int} {s : InstanceStore}
    {p : TaskInstance → Bool} (h : c.Updates b now s p f)
    (i : TaskInstance) : (f i).born = i.born := by
  cases h with
  | status id status | dispatch id workerID time | result sid status code msg => rfl
  | timestamps sid started finished => exact born_setTimestamps b now started finished i

/-- **EVERY CALL KEEPS WHAT THE INSTANCES WERE BORN WITH.** -/
theorem extends_execCall (inp : Input) (op : Call) (w : World) :
    w.instances.Extends (execCall inp op w).2.instances := by
  rcases execCall_instances_cases inp op w with h | ⟨c, rfl, h | ⟨i, _, h, _⟩ | ⟨p, f, hf, hupd, h⟩⟩
  · rw [h]
    exact .refl _
  · rw [h]
    exact .refl _
  · rw [h]
    exact InstanceStore.extends_insert w.backend inp.now i
  · rw [h]
    exact InstanceStore.extends_rewrite hupd.born

theorem distinct_execCall (inp : Input) (op : Call) (hb : w.backend = .mysql)
    (hd : w.instances.SchedulesDistinct) :
    (execCall inp op w).2.instances.SchedulesDistinct := by
  rcases execCall_instances_cases inp op w with
    h | ⟨c, rfl, h | ⟨i, _, h, hnew⟩ | ⟨p, f, hf, hupd, h⟩⟩
  · rw [h]
    exact hd
  · rw [h]
    exact hd
  · rw [h]
    exact hd.insert (hnew hb)
  · rw [h]
    exact hd.rewrite (fun i => scheduleInstanceID_of_born (hupd.born i))

theorem createInstance_ok {i : TaskInstance}
    (h : (execCall inp (.inst (.createInstance i)) w).1 = .ok stored) :
    stored = readInstance w.backend (w.instances.newRow w.backend inp.now i)
      ∧ (execCall inp (.inst (.createInstance i)) w).2.instances
          = w.instances.insert w.backend inp.now i := by
  rcases exec_createInstance_cases inp w i with ⟨e, he⟩ | he
  · rw [he] at h
    cases h
  · rw [he] at h ⊢
    exact ⟨(Except.ok.inj h).symm, rfl⟩

theorem get?_of_createInstance_ok {i : TaskInstance}
    (h : (execCall inp (.inst (.createInstance i)) w).1 = .ok stored) :
    ∃ r, (execCall inp (.inst (.createInstance i)) w).2.instances.instances.get? stored.id = some r
      ∧ r.born = stored.born := by
  obtain ⟨hstored, hinsert⟩ := createInstance_ok h
  have hid : stored.id = w.instances.nextID := by
    rw [hstored, readInstance_id, InstanceStore.newRow_id]
  refine ⟨w.instances.newRow w.backend inp.now i, ?_, ?_⟩
  · rw [hinsert, InstanceStore.get?_insert, if_pos hid]
  · rw [hstored, born_readInstance]

theorem born_of_createInstance_ok {i : TaskInstance}
    (h : (execCall inp (.inst (.createInstance i)) w).1 = .ok stored) (hi : i.createdAt = 0) :
    stored.born = { i.born with id := w.instances.nextID, createdAt := inp.now } := by
  obtain ⟨hstored, _⟩ := createInstance_ok h
  rw [hstored, born_readInstance]
  cases w.backend with
  | teststore => rfl
  | mysql =>
    simp only [InstanceStore.newRow, TaskInstance.born]
    rw [if_pos hi]

end AiScheduler
