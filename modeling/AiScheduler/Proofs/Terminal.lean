/-
  **A FINISHED INSTANCE STAYS AS IT FINISHED — as long as no operation writes a status from an
  out-of-date read.**

  The check for a final status and the write of a status are separate calls, and no write compares
  anything. A write is `current` when no OTHER operation has stored a final status of that
  instance since the writer last read (or created) it.
-/
import AiScheduler.Proofs.Lifecycle

namespace AiScheduler.Terminal

open Lib Lifecycle Function Table

variable {e : Event System} {s : InstanceStore} {q q' : Position}
  {f : TaskInstance → TaskInstance} {id : Int} {url : String} {w : World}

/-! ## What a log shows about an instance. -/

def readsInstance (sid : String) : Event System → Bool
  | ⟨.inst (.getInstanceByScheduleID s), .ok _⟩ => s = sid
  | ⟨.inst (.listDueRetryInstances _ _), .ok is⟩ => is.any (fun i => i.scheduleInstanceID = sid)
  | ⟨.inst (.createInstance _), .ok i⟩ => i.scheduleInstanceID = sid
  | _ => false

def storesTerminal (sid : String) : Event System → Bool
  | ⟨.inst (.updateInstanceResult s status _ _), .ok _⟩ => s = sid ∧ isTerminalStatus status
  | _ => false

/-- Thread `t` has read the instance, and no other has stored a final status since. -/
def current (t : Nat) (sid : String) : List (Nat × Event System) → Bool
  | [] => false
  | (u, e) :: log =>
    if u = t then readsInstance sid e || current t sid log
    else !storesTerminal sid e && current t sid log

def currentRow (c : Pool) (t : Nat) (id : Int) : Bool :=
  match c.world.instances.instances.get? id with
  | some r => current t r.scheduleInstanceID c.log
  | none => true

/-- **The condition**: only the four writers run, every status write is of an instance whose read is
current, and a new instance has a new schedule id. -/
def writesCurrent (c : Pool) : PoolStep → Bool
  | .spawn j => isWriter j
  | .step t _ =>
    match c.nextOp t with
    | some (.inst (.updateInstanceResult sid _ _ _)) => current t sid c.log
    | some (.inst (.updateInstanceStatus id _)) => currentRow c t id
    | some (.inst (.updateInstanceDispatch id _ _)) => currentRow c t id
    | some (.inst (.createInstance i)) =>
      c.world.backend = .mysql
        ∨ (c.world.instances.bySchedule c.world.backend i.scheduleInstanceID).isNone
    | _ => true

/-! ## The invariant. -/

/-- Rows and ghost positions agree. -/
structure Inv (c : Pool) (g : Nat → Position) : Prop where
  distinct : c.world.instances.SchedulesDistinct
  /-- A held instance is stored, and unfinished where the read is current. -/
  held : ∀ t, ∀ p ∈ (g t).held, ∃ r, c.world.instances.instances.get? p.1 = some r
    ∧ r.scheduleInstanceID = p.2 ∧ (current t p.2 c.log = true → isTerminalStatus r.status = false)
  /-- A settled instance is stored and finished. -/
  settled : ∀ t, ∀ sid ∈ (g t).settled, ∃ r ∈ c.world.instances.instances.rows,
    r.scheduleInstanceID = sid ∧ isTerminalStatus r.status = true
  /-- One operation settles an instance. -/
  sole : ∀ t u sid, sid ∈ (g t).settled → sid ∈ (g u).settled → t = u

/-- What one call `e` of `t` does: `s` and `q` before, `s'` and `q'` after. -/
structure Effect (e : Event System) (s s' : InstanceStore) (q q' : Position) : Prop where
  distinct : s'.SchedulesDistinct
  /-- A row stays; finished, it keeps its status; only a stored final status finishes it. -/
  row : ∀ id r, s.instances.get? id = some r → ∃ r', s'.instances.get? id = some r'
    ∧ r'.scheduleInstanceID = r.scheduleInstanceID
    ∧ (isTerminalStatus r.status = true → r'.status = r.status)
    ∧ (isTerminalStatus r.status = false → storesTerminal r.scheduleInstanceID e = false →
        isTerminalStatus r'.status = false)
  /-- What is held was held, or is stored unfinished. -/
  held : ∀ p ∈ q'.held, (p ∈ q.held ∧ readsInstance p.2 e = false ∧ storesTerminal p.2 e = false)
      ∨ ∃ r, s'.instances.get? p.1 = some r ∧ r.scheduleInstanceID = p.2
          ∧ isTerminalStatus r.status = false
  /-- What is settled was settled, or has just become finished. -/
  settled : ∀ sid ∈ q'.settled, sid ∈ q.settled
    ∨ ((∃ r ∈ s.instances.rows, r.scheduleInstanceID = sid ∧ isTerminalStatus r.status = false)
        ∧ ∃ r ∈ s'.instances.rows, r.scheduleInstanceID = sid ∧ isTerminalStatus r.status = true)

/-! ## What one call does. -/

theorem effect_same
    (hd : s.SchedulesDistinct) (hheld : q'.held = q.held) (hsettled : q'.settled = q.settled)
    (hread : ∀ p ∈ q.held, readsInstance p.2 e = false)
    (hstore : ∀ sid, storesTerminal sid e = false) : Effect e s s q q' := by
  constructor <;> grind

theorem effect_row_rewrite {p : TaskInstance → Bool} {hf : ∀ i, (f i).id = i.id}
    (hsid : ∀ i, (f i).scheduleInstanceID = i.scheduleInstanceID)
    (hrow : ∀ r ∈ s.instances.rows, p r = true → (f r).status = r.status
      ∨ (isTerminalStatus r.status = false ∧ (storesTerminal r.scheduleInstanceID e = false →
              isTerminalStatus (f r).status = false))) :
    ∀ id r, s.instances.get? id = some r → ∃ r', (s.rewrite p f hf).instances.get? id = some r'
      ∧ r'.scheduleInstanceID = r.scheduleInstanceID
      ∧ (isTerminalStatus r.status = true → r'.status = r.status)
      ∧ (isTerminalStatus r.status = false → storesTerminal r.scheduleInstanceID e = false →
          isTerminalStatus r'.status = false) := by
  intro id r hr
  refine ⟨if p r then f r else r, by rw [InstanceStore.get?_rewrite, hr]; rfl, ?_⟩
  grind [hrow r (get?_some hr).1]

theorem effect_rewrite {p : TaskInstance → Bool} {hf : ∀ i, (f i).id = i.id}
    (hd : s.SchedulesDistinct) (hsid : ∀ i, (f i).scheduleInstanceID = i.scheduleInstanceID)
    (hread : ∀ sid, readsInstance sid e = false) (hstore : ∀ sid, storesTerminal sid e = false)
    (hrow : ∀ r ∈ s.instances.rows, p r = true → (f r).status = r.status
      ∨ (isTerminalStatus r.status = false ∧ isTerminalStatus (f r).status = false)) :
    Effect e s (s.rewrite p f hf) q q where
  distinct := hd.rewrite hsid
  row := effect_row_rewrite hsid (by grind)
  held := fun p hp => .inl ⟨hp, hread p.2, hstore p.2⟩
  settled := fun _ h => .inl h

section Calls

variable {c : Pool} {g : Nat → Position} {t : Nat} (hI : Inv c g) (inp : Input)

include hI

theorem unfinished_of_held {p : Int × String} (hp : p ∈ (g t).held)
    (hcur : current t p.2 c.log = true) {r : TaskInstance}
    (hr : r ∈ c.world.instances.instances.rows) (hsid : r.scheduleInstanceID = p.2) :
    isTerminalStatus r.status = false := by
  obtain ⟨r', hr', hsid', hopen⟩ := hI.held t p hp
  have heq := hI.distinct r hr r' (get?_some hr').1 (hsid.trans hsid'.symm)
  rw [heq]
  exact hopen hcur

theorem unfinished_of_currentRow (hid : id ∈ (g t).held.map Prod.fst)
    (hcur : currentRow c t id = true) {r : TaskInstance}
    (hr : r ∈ c.world.instances.instances.rows) (hrid : r.id = id) :
    isTerminalStatus r.status = false := by
  obtain ⟨p, hp, hpid⟩ := List.mem_map.mp hid
  have hheld := hI.held t p hp
  have hget := get?_of_mem hr
  grind [currentRow]

theorem effect_getInstanceByScheduleID (b : Backend) (sid : String)
    (hq' : (g t).onInstance (.getInstanceByScheduleID sid)
      (c.world.instances.getInstanceByScheduleID b sid) = some q') :
    Effect ⟨.inst (.getInstanceByScheduleID sid), c.world.instances.getInstanceByScheduleID b sid⟩
      c.world.instances c.world.instances (g t) q' := by
  simp only [Position.onInstance, Option.ite_some_none_eq_some] at hq'
  obtain ⟨hnone, rfl⟩ := hq'
  unfold InstanceStore.getInstanceByScheduleID
  split
  next i hi =>
    obtain ⟨hmem, hsid⟩ := InstanceStore.bySchedule_some hi
    have hget := get?_of_mem hmem
    refine ⟨hI.distinct, fun _ r hr => ⟨r, hr, rfl, fun _ => rfl, fun h _ => h⟩, ?_,
      fun _ h => .inl h⟩
    -- held afterwards: the instance just read, if it is unfinished
    grind [Position.afterRead, readInstance_status, readInstance_id]
  next => exact effect_same hI.distinct rfl rfl (by simp [hnone]) (fun _ => rfl)

theorem effect_listDueRetryInstances (b : Backend) (scan : Scan TaskInstance) (cutoff limit : Int)
    (hq' : (g t).onInstance (.listDueRetryInstances cutoff limit)
      (.ok (c.world.instances.listDueRetryInstances b scan cutoff limit)) = some q') :
    Effect ⟨.inst (.listDueRetryInstances cutoff limit),
        .ok (c.world.instances.listDueRetryInstances b scan cutoff limit)⟩
      c.world.instances c.world.instances (g t) q' := by
  simp only [Position.onInstance, Option.ite_some_none_eq_some] at hq'
  obtain ⟨hnone, rfl⟩ := hq'
  refine ⟨hI.distinct, fun _ r hr => ⟨r, hr, rfl, fun _ => rfl, fun h _ => h⟩, ?_,
    fun _ h => .inl h⟩
  intro p hp
  obtain ⟨i, hi, rfl⟩ := List.mem_map.mp hp
  obtain ⟨r, hr, hdue, rfl⟩ := InstanceStore.mem_listDueRetryInstances hi
  have hget := get?_of_mem hr
  refine .inr ⟨r, ?_, ?_, ?_⟩ <;>
    grind [readInstance_id, readInstance_scheduleInstanceID, TaskInstance.isRetryDue,
      isTerminalStatus]

theorem effect_createInstance (b : Backend) (now : Int) (i : TaskInstance)
    (hnew : b = .mysql ∨ c.world.instances.bySchedule b i.scheduleInstanceID = none)
    (hq' : (g t).onInstance (.createInstance i)
      (c.world.instances.createInstance b now i).1 = some q') :
    Effect ⟨.inst (.createInstance i), (c.world.instances.createInstance b now i).1⟩
      c.world.instances (c.world.instances.createInstance b now i).2 (g t) q' := by
  simp only [Position.onInstance, Option.ite_some_none_eq_some] at hq'
  obtain ⟨⟨_, hopen⟩, rfl⟩ := hq'
  unfold InstanceStore.createInstance
  split
  · exact effect_same hI.distinct rfl rfl (fun _ _ => rfl) (fun _ => rfl)
  next hfree =>
    have hfresh : ∀ r ∈ c.world.instances.instances.rows,
        r.scheduleInstanceID ≠ i.scheduleInstanceID := by
      rcases hnew with rfl | hnone
      · apply InstanceStore.bySchedule_none (b := .mysql)
        simpa using hfree
      · exact InstanceStore.bySchedule_none hnone
    have hget : ∀ id r, c.world.instances.instances.get? id = some r →
        (c.world.instances.insert b now i).instances.get? id = some r := by
      intro id r hr
      have hlt := InstanceStore.lt_nextID hr
      rw [InstanceStore.get?_insert, if_neg (by omega), hr]
    refine ⟨hI.distinct.insert hfresh,
      fun id r hr => ⟨r, hget id r hr, rfl, fun _ => rfl, fun h _ => h⟩, ?_, fun _ h => .inl h⟩
    intro p hp
    rcases List.mem_cons.mp hp with rfl | hp
    · right
      grind [InstanceStore.get?_insert, readInstance_id, InstanceStore.newRow_id,
        readInstance_scheduleInstanceID, InstanceStore.newRow_status]
    -- an instance held before has a row, so its schedule id is not the new one
    obtain ⟨r, hr, hsid, _⟩ := hI.held t p hp
    have hne := hfresh r (get?_some hr).1
    refine .inl ⟨hp, ?_, rfl⟩
    grind [readsInstance, readInstance_scheduleInstanceID, InstanceStore.newRow_scheduleInstanceID]

theorem effect_updateByID (b : Backend) {hf : ∀ i, (f i).id = i.id}
    (hsid : ∀ i, (f i).scheduleInstanceID = i.scheduleInstanceID)
    (hstatus : ∀ i, isTerminalStatus (f i).status = false)
    (hread : ∀ sid, readsInstance sid e = false) (hstore : ∀ sid, storesTerminal sid e = false)
    (hid : id ∈ (g t).held.map Prod.fst) (hcur : currentRow c t id = true) :
    Effect e c.world.instances (c.world.instances.updateByID b id f hf).2 (g t) (g t) := by
  rcases InstanceStore.updateByID_cases b c.world.instances id f hf with ⟨err, h⟩ | h
  · rw [h]
    exact effect_same hI.distinct rfl rfl (fun p _ => hread p.2) hstore
  rw [h]
  apply effect_rewrite hI.distinct hsid hread hstore
  intro r hr hrid
  exact .inr ⟨unfinished_of_currentRow hI hid hcur hr (by simpa using hrid), hstatus r⟩

theorem effect_updateInstanceTimestamps (b : Backend) (now : Int) (sid : String)
    (started finished : Int) (ans : Except Err Unit) :
    Effect ⟨.inst (.updateInstanceTimestamps sid started finished), ans⟩ c.world.instances
      (c.world.instances.updateInstanceTimestamps b now sid started finished).2 (g t) (g t) := by
  unfold InstanceStore.updateInstanceTimestamps
  rcases InstanceStore.updateBySchedule_cases b c.world.instances sid
      (setTimestamps b now started finished) (setTimestamps_id b now started finished)
    with ⟨err, h⟩ | h
  · rw [h]
    exact effect_same hI.distinct rfl rfl (fun _ _ => rfl) (fun _ => rfl)
  rw [h]
  apply effect_rewrite hI.distinct
  · exact setTimestamps_scheduleInstanceID b now started finished
  · exact fun _ => rfl
  · exact fun _ => rfl
  · intro r _ _
    exact .inl (setTimestamps_status b now started finished r)

theorem effect_updateInstanceResult (b : Backend) (now : Int) (sid : String)
    (status : InstanceStatus) (code msg : String) (hcur : current t sid c.log = true)
    (hq' : (g t).onInstance (.updateInstanceResult sid status code msg)
      (c.world.instances.updateInstanceResult b now sid status code msg).1 = some q') :
    Effect ⟨.inst (.updateInstanceResult sid status code msg),
        (c.world.instances.updateInstanceResult b now sid status code msg).1⟩
      c.world.instances (c.world.instances.updateInstanceResult b now sid status code msg).2
      (g t) q' := by
  simp only [Position.onInstance, Option.ite_some_none_eq_some] at hq'
  obtain ⟨hheld, rfl⟩ := hq'
  obtain ⟨p, hp, rfl⟩ := List.mem_map.mp hheld
  have hopen : ∀ r ∈ c.world.instances.instances.rows,
      c.world.instances.addressed b p.2 r = true →
        isTerminalStatus r.status = false ∧ r.scheduleInstanceID = p.2 := by
    intro r hr haddr
    rw [InstanceStore.addressed_of_distinct hI.distinct hr, decide_eq_true_iff] at haddr
    exact ⟨unfinished_of_held hI hp hcur hr haddr, haddr⟩
  unfold InstanceStore.updateInstanceResult
  rcases InstanceStore.updateBySchedule_cases b c.world.instances p.2
      (setResult now status code msg) (fun _ => rfl) with ⟨err, h⟩ | h
  · rw [h]
    exact effect_same hI.distinct rfl rfl (fun _ _ => rfl) (fun _ => rfl)
  rw [h]
  by_cases hfin : isTerminalStatus status = true
  · obtain ⟨r, hr, hrsid, hropen⟩ := hI.held t p hp
    refine ⟨hI.distinct.rewrite (fun _ => rfl), effect_row_rewrite (fun _ => rfl) ?_, ?_, ?_⟩
    · grind [storesTerminal]
    · grind [Position.afterResult, Position.settle, readsInstance, storesTerminal]
    · have hget : (c.world.instances.rewrite (c.world.instances.addressed b p.2)
          (setResult now status code msg) (fun _ => rfl)).instances.get? p.1
            = some (if r.scheduleInstanceID = p.2 then setResult now status code msg r else r) :=
        InstanceStore.get?_rewrite_addressed hI.distinct hr
      have hmem := (get?_some hr).1
      have hmem' := (get?_some hget).1
      grind [Position.afterResult, Position.settle, setResult]
  · have hq' : (g t).afterResult p.2 status (.ok ()) = g t := if_neg hfin
    rw [hq']
    refine effect_rewrite hI.distinct (fun _ => rfl) (fun _ => rfl) ?_ ?_
    · grind [storesTerminal]
    · exact fun r hr haddr => .inr ⟨(hopen r hr haddr).1, Bool.eq_false_iff.mpr hfin⟩

end Calls

theorem Effect.of_moved {s' : InstanceStore}
    (h : Effect e s s' q.moved q') : Effect e s s' q q' :=
  ⟨h.distinct, h.row, h.held, h.settled⟩

theorem Inv.moved {c : Pool} {g : Nat → Position} (h : Inv c g) :
    Inv c (fun t => (g t).moved) :=
  ⟨h.distinct, h.held, h.settled, h.sole⟩

theorem onInstance_error {call : InstanceCall} {err : Err}
    (h : q.onInstance call (.error err) = some q') : q' = q := by
  unfold Position.onInstance at h
  grind [Position.afterRead, Position.afterList, Position.afterCreate, Position.afterResult]

theorem readsInstance_error (sid : String) (call : InstanceCall) (err : Err) :
    readsInstance sid ⟨.inst call, .error err⟩ = false := by
  cases call <;> rfl

theorem storesTerminal_error (sid : String) (call : InstanceCall) (err : Err) :
    storesTerminal sid ⟨.inst call, .error err⟩ = false := by
  cases call <;> rfl

theorem onWorker_frame {call : WorkerCall} {ans : Except Err call.Result}
    (h : q.onWorker call ans = some q') : q'.held = q.held ∧ q'.settled = q.settled := by
  unfold Position.onWorker Position.afterGetWorker at h
  grind [Position.moved]

theorem effect_called {c : Pool} {g : Nat → Position} {t : Nat} {j : Job} {op : Call}
    {k : op.Ans → Program (Except Err Unit)} {inp : Input} (hI : Inv c g)
    (hok : writesCurrent c (.step t inp) = true) (hp : c.pool[t]? = some ⟨j, .call op k⟩)
    (hq' : lifecycle.next (g t) op (execCall inp op c.world).1 = some q') :
    Effect ⟨op, (execCall inp op c.world).1⟩ c.world.instances
      (execCall inp op c.world).2.instances (g t) q' := by
  unfold writesCurrent at hok
  simp only [Config.nextOp_of_pool hp] at hok
  cases op with
  | task call =>
    rw [exec_instances inp c.world (by simp)]
    injection hq' with hq'
    subst hq'
    exact effect_same hI.distinct rfl rfl (fun _ _ => rfl) (fun _ => rfl)
  | memory call | node call =>
    injection hq' with hq'
    subst hq'
    exact effect_same hI.distinct rfl rfl (fun _ _ => rfl) (fun _ => rfl)
  | worker call =>
    rw [exec_instances inp c.world (by simp)]
    obtain ⟨hheld, hsettled⟩ := onWorker_frame hq'
    exact effect_same hI.distinct hheld hsettled (fun _ _ => rfl) (fun _ => rfl)
  | inst call =>
    apply Effect.of_moved
    have hM := hI.moved
    replace hq' : (g t).moved.onInstance call (execCall inp (.inst call) c.world).1 = some q' :=
      hq'
    rcases exec_inst_cases inp c.world call with ⟨err, he⟩ | he
    · rw [he] at hq' ⊢
      rw [onInstance_error hq']
      exact effect_same hI.distinct rfl rfl (fun p _ => readsInstance_error p.2 call err)
        (fun sid => storesTerminal_error sid call err)
    rw [he] at hq' ⊢
    cases call with
    | createInstance i =>
      refine effect_createInstance hM _ _ i ?_ hq'
      simpa using hok
    | getInstance id =>
      injection hq' with hq'
      subst hq'
      exact effect_same hI.distinct rfl rfl (fun _ _ => rfl) (fun _ => rfl)
    | getInstanceByScheduleID sid => exact effect_getInstanceByScheduleID hM _ sid hq'
    | listInstancesByStatus status limit =>
      injection hq' with hq'
      subst hq'
      exact effect_same hI.distinct rfl rfl (fun _ _ => rfl) (fun _ => rfl)
    | listDueRetryInstances cutoff limit =>
      exact effect_listDueRetryInstances hM _ _ cutoff limit hq'
    | countInstancesByStatus status =>
      injection hq' with hq'
      subst hq'
      exact effect_same hI.distinct rfl rfl (fun _ _ => rfl) (fun _ => rfl)
    | updateInstanceStatus id status =>
      simp only [Position.onInstance, Option.ite_some_none_eq_some] at hq'
      obtain ⟨⟨hid, hstatus⟩, rfl⟩ := hq'
      exact effect_updateByID hM _ (fun _ => rfl) (fun _ => hstatus) (fun _ => rfl)
        (fun _ => rfl) hid hok
    | updateInstanceDispatch id workerID time =>
      simp only [Position.onInstance, Option.ite_some_none_eq_some] at hq'
      obtain ⟨hid, rfl⟩ := hq'
      exact effect_updateByID hM _ (fun _ => rfl) (fun _ => rfl) (fun _ => rfl)
        (fun _ => rfl) hid hok
    | updateInstanceResult sid status code msg =>
      exact effect_updateInstanceResult hM _ _ sid status code msg hok hq'
    | updateInstanceTimestamps sid started finished =>
      injection hq' with hq'
      subst hq'
      exact effect_updateInstanceTimestamps hM _ _ sid started finished _

/-! ## Steps and runs. -/

theorem inv_of_effect {c c' : Pool} {g : Nat → Position} {t : Nat} (hI : Inv c g)
    (hlog : c'.log = (t, e) :: c.log)
    (h : Effect e c.world.instances c'.world.instances (g t) q') :
    Inv c' (update g t q') := by
  obtain ⟨hdistinct, hrow, hheld, hsettled⟩ := h
  -- a row that is finished stays so
  have hkeep : ∀ r ∈ c.world.instances.instances.rows, isTerminalStatus r.status = true →
      ∃ r' ∈ c'.world.instances.instances.rows,
        r'.scheduleInstanceID = r.scheduleInstanceID ∧ isTerminalStatus r'.status = true := by
    intro r hr hfin
    obtain ⟨r', hr', hsid', hstays, _⟩ := hrow r.id r (get?_of_mem hr)
    exact ⟨r', (get?_some hr').1, hsid', by rw [hstays hfin]; exact hfin⟩
  refine ⟨hdistinct, ?_, ?_, ?_⟩
  · intro u p hp
    have hold := hI.held u p
    have hnew := hheld p
    have hkept := hrow p.1
    rw [hlog]
    unfold current
    grind
  · intro u sid hsid
    have hold := hI.settled u sid
    have hnew := hsettled sid
    grind
  · -- an instance that has just become finished was settled by nobody
    intro u v sid hu hv
    have hsole := hI.sole u v sid
    have hold := fun u => hI.settled u sid
    have hnew := hsettled sid
    have hd := hI.distinct
    grind [InstanceStore.SchedulesDistinct]

theorem inv_spawned {c : Pool} {g : Nat → Position} (hI : Inv c g) (j : Job) :
    Inv (c.spawned (body url) j) (update g c.pool.length (start j)) := by
  obtain ⟨hdistinct, hheld, hsettled, hsole⟩ := hI
  have hempty : (start j).held = [] ∧ (start j).settled = [] := ⟨rfl, rfl⟩
  refine ⟨hdistinct, ?_, ?_, ?_⟩
  · intro t p hp
    show ∃ r, _ ∧ _ ∧ (current t p.2 c.log = true → _)
    grind [Config.spawned]
  · intro t sid hsid
    show ∃ r ∈ c.world.instances.instances.rows, _
    grind
  · grind

theorem inv_init (hw : w.instances.SchedulesDistinct) :
    Inv (Config.init w) (fun _ => start .retryScan) := by
  refine ⟨hw, ?_, ?_, ?_⟩ <;> simp [start]

/-- **The run lemma**: rows and ghost positions agree wherever a run gets. -/
theorem inv_of_runs (hw : w.instances.SchedulesDistinct)
    {c : Pool} (h : Runs url (fun c l => writesCurrent c l = true) w c) :
    ∃ g, Tracks lifecycle post c g ∧ Inv c g := by
  refine Reaches.tracks (P := lifecycle) start Inv ?_ ?_ ?_ ?_ (inv_init hw) h
  · intro c j hj
    exact follows_writer url hj
  · intro c g j _ hI _
    exact inv_spawned hI j
  · intro c g t j op k inp _ _ _ _
    trivial
  · intro c g t j op k inp q' _ hI hok hp _ hq'
    exact inv_of_effect hI rfl (effect_called hI hok hp hq')

/-! ## A finished instance stays as it finished. -/

def statusAt (c : Pool) (id : Int) : Option InstanceStatus :=
  (c.world.instances.instances.get? id).map TaskInstance.status

theorem statusAt_step (hw : w.instances.SchedulesDistinct) {c c' : Pool} {l : PoolStep}
    (h : Runs url (fun c l => writesCurrent c l = true) w c)
    (hok : writesCurrent c l = true) (hs : c.step execCall (body url) l = some c')
    {status : InstanceStatus} (hst : statusAt c id = some status)
    (hfin : isTerminalStatus status = true) : statusAt c' id = some status := by
  obtain ⟨g, htr, hI⟩ := inv_of_runs hw h
  rcases Config.step_cases _ _ hs with ⟨j, rfl, rfl⟩ | ⟨t, inp, j, op, k, rfl, hp, rfl⟩
  · exact hst
  obtain ⟨q', hq', _⟩ := htr.next hp (execCall inp op c.world).1 trivial
  obtain ⟨r, hr, rfl⟩ := Option.map_eq_some_iff.mp hst
  obtain ⟨r', hr', _, hkeep, _⟩ := (effect_called hI hok hp hq').row id r hr
  show ((execCall inp op c.world).2.instances.instances.get? id).map TaskInstance.status = _
  rw [hr']
  exact congrArg some (hkeep hfin)

/-- **A FINISHED INSTANCE STAYS AS IT FINISHED**, if each status write is of an instance whose read
is current. -/
theorem finished_status_kept (url : String) {w : World}
    (hw : w.instances.SchedulesDistinct) {c c' : Pool}
    (h : Runs url (fun c l => writesCurrent c l = true) w c)
    (h' : Reaches execCall (body url) (fun c l => writesCurrent c l = true) c c')
    {id : Int} {status : InstanceStatus} (hst : statusAt c id = some status)
    (hfin : isTerminalStatus status = true) : statusAt c' id = some status := by
  refine Reaches.invariant (fun c => statusAt c id = some status) hst ?_ h'
  intro c₁ c₂ l hr hst₁ hok hs
  exact statusAt_step hw (h.trans hr) hok hs hst₁ hfin

def anyWriters (_ : Pool) : PoolStep → Bool
  | .spawn j => isWriter j
  | .step _ _ => true

def oneTask : World :=
  World.ofRows .mysql
    [{ id := 1, status := .enabled, cronExpr := "* * * * *", nextTriggerTime := 1 }] [] []
    [{ id := "w1", status := .online, maxConcurrency := 2 }]

/-- `handleTask` up to its dispatch, whose acknowledgement is LOST, and the report of success … -/
def lostAcknowledgement : List PoolStep :=
  [.spawn (.handleTask
      { id := 1, status := .enabled, cronExpr := "* * * * *", nextTriggerTime := 1 }),
   .step 0 {}, .step 0 {}, .step 0 {}, .step 0 {}, .step 0 {}, .step 0 {}, .step 0 {},
   .step 0 {}, .step 0 { outcome := fun _ _ => .lost (.text "timeout") },
   .spawn (.reportStatus
      { scheduleInstanceID := TriggerLoop.scheduleInstanceID 1 0, workerID := "w1",
        status := .success }),
   .step 1 {}, .step 1 {}]

/-- … and then `handleTask`'s clean-up: **the success becomes a failure**. -/
theorem success_overwritten :
    ∃ c c' : Pool, Runs "" (fun c l => anyWriters c l = true) oneTask c
      ∧ Reaches execCall (body "") (fun c l => anyWriters c l = true) c c'
      ∧ statusAt c 1 = some .success ∧ statusAt c' 1 = some .failed := by
  have hrun : ((runSteps execCall (body "") anyWriters (Config.init oneTask)
      lostAcknowledgement).bind (fun c₁ =>
        (runSteps execCall (body "") anyWriters c₁ [.step 0 {}]).map (fun c₂ =>
          decide (statusAt c₁ 1 = some .success ∧ statusAt c₂ 1 = some .failed)))) = some true := by
    decide
  obtain ⟨c, c', h, h', hp⟩ := exists_reaches_of_runSteps_bind (fun _ _ h => h) hrun
  obtain ⟨hbefore, hafter⟩ := of_decide_eq_true hp
  exact ⟨c, c', h, h', hbefore, hafter⟩

def oneRunning : World :=
  World.ofRows .mysql [{ id := 1, status := .enabled, cronExpr := "* * * * *", maxRetry := 1 }] []
    [{ id := 1, taskID := 1, scheduleInstanceID := "s", workerID := "w1", status := .running }]
    [{ id := "w1", status := .online, maxConcurrency := 2, currentLoad := 2 }]

/-- A report of success, then a late report of failure that reads the instance finished. -/
theorem finished_status_kept_late_report :
    ∃ c c' : Pool, Runs "" (fun c l => writesCurrent c l = true) oneRunning c
      ∧ Reaches execCall (body "") (fun c l => writesCurrent c l = true) c c'
      ∧ c'.log.length = 3 ∧ statusAt c' 1 = some .success := by
  have hrun : ((runSteps execCall (body "") writesCurrent (Config.init oneRunning)
      [.spawn (.reportStatus { scheduleInstanceID := "s", status := .success }),
       .spawn (.reportStatus { scheduleInstanceID := "s", status := .failed }),
       .step 0 {}, .step 0 {}]).bind (fun c₁ =>
        (runSteps execCall (body "") writesCurrent c₁ [.step 1 {}]).map (fun c₂ =>
          decide (statusAt c₁ 1 = some .success ∧ c₂.log.length = 3)))) = some true := by
    decide
  obtain ⟨c, c', h, h', hp⟩ := exists_reaches_of_runSteps_bind (fun _ _ h => h) hrun
  obtain ⟨hbefore, hlen⟩ := of_decide_eq_true hp
  exact ⟨c, c', h, h', hlen, finished_status_kept "" (by decide) h h' hbefore rfl⟩

end AiScheduler.Terminal
