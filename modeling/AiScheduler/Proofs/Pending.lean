/-
  **NO INSTANCE IS LEFT PENDING — as long as every trigger finds a worker.**

  Every pending row is owed by some thread, and a thread outside its trigger steps owes nothing
  (`Inv`, on `Proofs.Owing`).

  Main results:
    * `no_pending_at_rest` — so while no thread is inside a trigger step, no instance is pending.
    * `pending_without_worker` — where a `Pick` finds nobody, one stays.
-/
import AiScheduler.Proofs.Owing

namespace AiScheduler.Pending

open Lib Prog Function Config

variable {q q' : Position} {f : TaskInstance → TaskInstance}

/-! ## The invariant. -/

/-- **The condition**: no repository call fails, no report says `pending`, a trigger's `Pick` finds
a worker, and `retry_failed_instance` not the task of a failed instance. -/
def triggersFindWorkers (c : Pool) : PoolStep → Bool
  | .spawn (.reportStatus req) => req.status ≠ .pending
  | .spawn _ => true
  | .step t inp => inp.fault.isNone &&
      match (c.jobOf t).map roleOf, c.nextOp t with
      | some .trigger, some (.worker (.listAvailableWorkers opts)) =>
        c.world.workers.rows.any (fun x => Router.Eligible opts x)
      | some .tool, some (.task (.getTask id)) => (c.world.tasks.tasks.get? id).isNone
      | _, _ => true

/-- Every pending row is owed, every debt is of a stored row, and a thread outside its trigger steps
owes nothing. -/
structure Inv (url : String) (c : Pool) (g : Nat → Position) : Prop where
  role : ∀ t j, c.jobOf t = some j → (g t).role = roleOf j
  placed : ∀ t th, c.pool[t]? = some th → Placed owing (fun q => q = start th.job)
    (TriggerStep url (roleOf th.job)) WritesNoPending (g t) th.prog
  stored : ∀ t id, (g t).owes = some id → ∃ r, c.world.instances.instances.get? id = some r
  owed : ∀ r ∈ c.world.instances.instances.rows, r.status = .pending →
    ∃ t < c.pool.length, (g t).owes = some r.id

/-- What one call does: `s` and `q` before, `s'` and `q'` after. -/
structure Effect (s s' : InstanceStore) (q q' : Position) : Prop where
  role : q'.role = q.role
  kept : ∀ id r, s.instances.get? id = some r → ∃ r', s'.instances.get? id = some r'
  stored : ∀ id, q'.owes = some id → q.owes = some id ∨ ∃ r, s'.instances.get? id = some r
  /-- A pending row was pending before, and not paid for, or is owed. -/
  owed : ∀ r' ∈ s'.instances.rows, r'.status = .pending →
    (∃ r ∈ s.instances.rows, r.id = r'.id ∧ r.status = .pending
        ∧ (q.owes = some r.id → q'.owes = some r.id))
      ∨ q'.owes = some r'.id

theorem effect_same (s : InstanceStore) (q : Position) : Effect s s q q where
  role := rfl
  kept := fun _ r hr => ⟨r, hr⟩
  stored := fun _ h => .inl h
  owed := fun r' hr' hp => .inl ⟨r', hr', rfl, hp, fun h => h⟩

theorem effect_rewrite {s : InstanceStore} {p : TaskInstance → Bool} {hf : ∀ i, (f i).id = i.id}
    (hrole : q'.role = q.role)
    (hrow : ∀ r, p r = true → (f r).status = .pending → r.status = .pending ∧ q' = q)
    (howes : ∀ id, q'.owes = some id → q.owes = some id)
    (hpaid : ∀ r, p r = false → q.owes = some r.id → q'.owes = some r.id) :
    Effect s (s.rewrite p f hf) q q' where
  role := hrole
  kept := fun id r hr => by grind [InstanceStore.get?_rewrite]
  stored := fun id h => .inl (howes id h)
  owed := by
    intro r' hr' hpending
    obtain ⟨r, hr, rfl⟩ := InstanceStore.mem_rewrite.mp hr'
    refine .inl ⟨r, hr, ?_⟩
    grind

theorem effect_createInstance (b : Backend) (now : Int) (s : InstanceStore) (i : TaskInstance)
    (hq' : q.next (.inst (.createInstance i)) (s.createInstance b now i).1 = some q') :
    Effect s (s.createInstance b now i).2 q q' := by
  have hnext : (if i.status ≠ .pending then some q
      else if q.owes = none ∧ q.role ≠ .other then
        some (q.afterCreate (s.createInstance b now i).1)
      else none) = some q' := hq'
  rcases InstanceStore.createInstance_cases b now s i with ⟨e, h⟩ | h
  · rw [h] at hnext ⊢
    have heq : q' = q := by grind [Position.afterCreate]
    rw [heq]
    exact effect_same s q
  rw [h] at hnext ⊢
  have hkept : ∀ id r, s.instances.get? id = some r →
      ∃ r', (s.insert b now i).instances.get? id = some r' := by
    intro id r hr
    have hlt := InstanceStore.lt_nextID hr
    exact ⟨r, by rw [InstanceStore.get?_insert, if_neg (by omega), hr]⟩
  have hid : (readInstance b (s.newRow b now i)).id = s.nextID := by
    rw [readInstance_id, InstanceStore.newRow_id]
  split at hnext
  next hopen =>
    -- not pending: nothing is owed for it
    cases hnext
    refine ⟨rfl, hkept, fun id h => .inl h, ?_⟩
    grind [InstanceStore.mem_insert, InstanceStore.newRow_status]
  next =>
    -- pending: the new row is owed, and nothing was owed before
    simp only [Option.ite_some_none_eq_some] at hnext
    obtain ⟨⟨hfree, _⟩, rfl⟩ := hnext
    refine ⟨rfl, hkept, ?_, ?_⟩
    · intro id howes
      exact .inr ⟨s.newRow b now i, by grind [Position.afterCreate, InstanceStore.get?_insert]⟩
    · grind [Position.afterCreate, InstanceStore.mem_insert, InstanceStore.newRow_id]

theorem effect_updateByID (b : Backend) (s : InstanceStore) (id : Int) {hf : ∀ i, (f i).id = i.id}
    (hstatus : ∀ i, (f i).status ≠ .pending)
    (hok : q.owes = some id → (s.updateByID b id f hf).1 = .ok ()) :
    Effect s (s.updateByID b id f hf).2 q (q.paid id) := by
  rcases InstanceStore.updateByID_cases b s id f hf with ⟨e, h⟩ | h
  · -- the update fails only where the row is not the one owed
    rw [h] at hok ⊢
    have hne : q.owes ≠ some id := fun howes => absurd (hok howes) (by simp)
    rw [show q.paid id = q by simp [Position.paid, hne]]
    exact effect_same s q
  rw [h]
  refine effect_rewrite rfl ?_ ?_ ?_ <;> grind [Position.paid]

theorem effect_updateBySchedule (b : Backend) (s : InstanceStore) (sid : String)
    {hf : ∀ i, (f i).id = i.id} (q : Position)
    (hstatus : ∀ i, (f i).status = .pending → i.status = .pending) :
    Effect s (s.updateBySchedule b sid f hf).2 q q := by
  rcases InstanceStore.updateBySchedule_cases b s sid f hf with ⟨e, h⟩ | h
  · rw [h]
    exact effect_same s q
  rw [h]
  refine effect_rewrite rfl ?_ (fun _ h => h) (fun _ _ h => h)
  intro r _ hpending
  exact ⟨hstatus r hpending, rfl⟩

theorem effect_exec (inp : Input) (op : Call) (w : World)
    (hans : owing.admits q op (execCall inp op w).1)
    (hq' : owing.next q op (execCall inp op w).1 = some q') (hfault : inp.fault = none) :
    Effect w.instances (execCall inp op w).2.instances q q' := by
  cases op with
  | task call | worker call =>
    rw [exec_instances inp w (by simp)]
    cases hq'
    exact effect_same _ _
  | memory call | node call =>
    cases hq'
    exact effect_same _ _
  | inst call =>
  rw [exec_inst w hfault] at hans hq' ⊢
  cases call with
  | createInstance i => exact effect_createInstance _ _ _ i hq'
  | updateInstanceStatus id status =>
    obtain ⟨hstatus, rfl⟩ : status ≠ .pending ∧ q.paid id = q' := by
      have hq' : (if status = .pending then none else some (q.paid id)) = some q' := hq'
      grind
    exact effect_updateByID _ _ id (fun _ => hstatus) hans
  | updateInstanceDispatch id workerID time =>
    cases hq'
    exact effect_updateByID _ _ id (fun _ => by simp [setDispatch]) hans
  | updateInstanceResult sid status code msg =>
    obtain ⟨hstatus, rfl⟩ : status ≠ .pending ∧ q = q' := by
      have hq' : (if status = .pending then none else some q) = some q' := hq'
      grind
    exact effect_updateBySchedule _ _ sid q (fun _ h => absurd h hstatus)
  | updateInstanceTimestamps sid started finished =>
    cases hq'
    exact effect_updateBySchedule _ _ sid q (fun i hi => by rwa [setTimestamps_status] at hi)
  | _ =>
    cases hq'
    exact effect_same _ _

/-! ## Steps and runs. -/

section Steps

variable {url : String} {c : Pool} {g : Nat → Position} {t : Nat} {j : Job} {op : Call}
  {k : op.Ans → Program (Except Err Unit)} {inp : Input}

theorem fault_of_ok (hok : triggersFindWorkers c (.step t inp) = true) : inp.fault = none := by
  unfold triggersFindWorkers at hok
  exact Option.isNone_iff_eq_none.mp ((Bool.and_eq_true _ _).mp hok).1

theorem admits_called (hI : Inv url c g) (hok : triggersFindWorkers c (.step t inp) = true)
    (hp : c.pool[t]? = some ⟨j, .call op k⟩) :
    owing.admits (g t) op (execCall inp op c.world).1 := by
  have hfault := fault_of_ok hok
  have hjob := jobOf_of_pool hp
  have hrole := hI.role t j hjob
  simp only [triggersFindWorkers, hjob, nextOp_of_pool hp, Option.map_some, Bool.and_eq_true] at hok
  replace hok := hok.2
  cases op with
  | task call =>
    cases call with
    | getTask id =>
      intro htool
      rw [hrole] at htool
      rw [exec_task c.world hfault]
      simp only [htool] at hok
      have hnone := Option.isNone_iff_eq_none.mp hok
      show ∃ e, c.world.tasks.getTask c.world.backend id = .error e
      unfold TaskStore.getTask
      rw [hnone]
      exact ⟨_, rfl⟩
    | _ => trivial
  | worker call =>
    rw [exec_worker c.world hfault]
    cases call with
    | upsertWorker w => rfl
    | listAvailableWorkers opts =>
      refine ⟨_, rfl, ?_⟩
      intro htrigger
      rw [hrole] at htrigger
      simp only [htrigger] at hok
      obtain ⟨x, hx, hel⟩ := List.any_eq_true.mp hok
      intro hempty
      have hmem : x ∈ Router.eligible inp.workerScan c.world opts :=
        Router.mem_eligible.mpr ⟨hx, of_decide_eq_true hel⟩
      rw [show Router.eligible inp.workerScan c.world opts = [] from hempty] at hmem
      cases hmem
    | _ => trivial
  | inst call =>
    rw [exec_inst c.world hfault]
    cases call with
    | updateInstanceStatus id status | updateInstanceDispatch id workerID time =>
      intro howes
      obtain ⟨r, hr⟩ := hI.stored t id howes
      exact congrArg Prod.fst (InstanceStore.updateByID_of_get? hr _ _)
    | _ => trivial
  | _ => trivial

theorem inv_called (hI : Inv url c g) (hp : c.pool[t]? = some ⟨j, .call op k⟩)
    (hans : owing.admits (g t) op (execCall inp op c.world).1)
    (hq' : owing.next (g t) op (execCall inp op c.world).1 = some q')
    (h : Effect c.world.instances (execCall inp op c.world).2.instances (g t) q') :
    Inv url (c.called execCall t j op k inp) (update g t q') := by
  have hlt : t < c.pool.length := (List.getElem?_eq_some_iff.mp hp).1
  have hlen : (c.called execCall t j op k inp).pool.length = c.pool.length := List.length_set
  obtain ⟨hrole, hkept, hstored, howed⟩ := h
  refine ⟨?_, ?_, ?_, ?_⟩
  · intro u j' hu
    rw [jobOf_called hp] at hu
    grind [hI.role u j' hu]
  · intro u th hu
    unfold called at hu
    by_cases hut : u = t
    · subst hut
      rw [List.getElem?_set_self hlt] at hu
      cases hu
      rw [update_self]
      exact (hI.placed u _ hp).answered next_of_idle (fun _ _ hs => stays_triggerStep hs) hans hq'
    · rw [List.getElem?_set_ne (Ne.symm hut)] at hu
      rw [update_of_ne hut]
      exact hI.placed u th hu
  · intro u id hid
    show ∃ r, (execCall inp op c.world).2.instances.instances.get? id = some r
    have hold := hI.stored u id
    have hnew := hstored id
    have hkeep := hkept id
    grind
  · intro r' hr' hpending
    rw [hlen]
    rcases howed r' hr' hpending with ⟨r, hr, hid, hopen, hstill⟩ | howes
    · -- the row was pending before: its debtor still owes it
      obtain ⟨u, hu, howes⟩ := hI.owed r hr hopen
      exact ⟨u, hu, by grind⟩
    · exact ⟨t, hlt, by grind⟩

end Steps

theorem inv_spawned {url : String} {c : Pool} {g : Nat → Position} (hI : Inv url c g) {j : Job}
    (hj : ∀ req, j = .reportStatus req → req.status ≠ .pending) :
    Inv url (c.spawned (body url) j) (update g c.pool.length (start j)) := by
  have hself : (c.spawned (body url) j).jobOf c.pool.length = some j := jobOf_spawned_self
  have hother : ∀ u, u ≠ c.pool.length → (c.spawned (body url) j).jobOf u = c.jobOf u :=
    fun _ => jobOf_spawned_of_ne
  refine ⟨?_, ?_, ?_, ?_⟩
  · intro u j' hu
    grind [start, hI.role u j']
  · intro u th hu
    unfold spawned at hu
    by_cases hun : u = c.pool.length
    · subst hun
      rw [List.getElem?_concat_length] at hu
      cases hu
      rw [update_self]
      exact .inl ⟨rfl, stepwise_body url hj⟩
    · rw [update_of_ne hun]
      exact hI.placed u th (by grind)
  · intro u id hid
    show ∃ r, c.world.instances.instances.get? id = some r
    have hold := hI.stored u id
    grind [start]
  · intro r hr hpending
    obtain ⟨u, hu, howes⟩ := hI.owed r hr hpending
    refine ⟨u, ?_, ?_⟩
    · show u < (_ ++ [_]).length
      rw [List.length_append]
      exact Nat.lt_add_right _ hu
    · rw [update_of_ne (by omega)]
      exact howes

theorem inv_of_runs {url : String} {w : World}
    (hw : ∀ r ∈ w.instances.instances.rows, r.status ≠ .pending) {c : Pool}
    (h : Runs url (fun c l => triggersFindWorkers c l = true) w c) :
    ∃ g, Tracks owing post c g ∧ Inv url c g := by
  have hinit : Inv url (init w) (fun _ => start .retryScan) := by
    refine ⟨?_, ?_, ?_, ?_⟩
    · intro t j ht
      simp [jobOf, init] at ht
    · intro t th ht
      simp [init] at ht
    · intro t id hid
      simp [start] at hid
    · intro r hr hpending
      exact absurd hpending (hw r hr)
  have hreport : ∀ {c : Pool} {j : Job}, triggersFindWorkers c (.spawn j) = true →
      ∀ req, j = .reportStatus req → req.status ≠ .pending := by
    rintro c j hj req rfl
    exact of_decide_eq_true hj
  refine Reaches.tracks (P := owing) start (Inv url) ?_ ?_ ?_ ?_ hinit h
  · exact fun c j hj => follows_body url (hreport hj)
  · exact fun c g j _ hI hj => inv_spawned hI (hreport hj)
  · intro c g t j op k inp _ hI hok hp
    exact admits_called hI hok hp
  · intro c g t j op k inp q' _ hI hok hp hans hq'
    exact inv_called hI hp hans hq' (effect_exec inp op c.world hans hq' (fault_of_ok hok))

/-! ## Nothing is left pending. -/

/-- No thread is inside a trigger step of its job. -/
def AtRest (url : String) (c : Pool) : Prop :=
  ∀ (t : Nat) (th : Thread System Job (Except Err Unit)), c.pool[t]? = some th →
    ¬ Inside (TriggerStep url (roleOf th.job)) th.prog

/-- **NO INSTANCE IS LEFT PENDING** while no thread is inside `handleTask`, `OnTrigger`, `Publish`,
`retryIfNeeded` or `retry_failed_instance`, if no repository call fails, each `Pick` of a trigger
finds a worker, `retry_failed_instance` is not used on a failed instance of a stored task, and no
report says `pending`. -/
theorem no_pending_at_rest (url : String) {w : World}
    (hw : ∀ r ∈ w.instances.instances.rows, r.status ≠ .pending) {c : Pool}
    (h : Runs url (fun c l => triggersFindWorkers c l = true) w c)
    (hrest : AtRest url c) :
    ∀ r ∈ c.world.instances.instances.rows, r.status ≠ .pending := by
  obtain ⟨g, _, hI⟩ := inv_of_runs hw h
  intro r hr hpending
  obtain ⟨t, hlt, howes⟩ := hI.owed r hr hpending
  obtain ⟨th, hpool⟩ : ∃ th, c.pool[t]? = some th := ⟨_, List.getElem?_eq_getElem hlt⟩
  -- the debtor is outside its trigger steps, and so owes nothing
  have hidle := (hI.placed t th hpool).idle_of_not_inside (hrest t th hpool)
  rw [hidle] at howes
  cases howes

/-- A call that executes no task. -/
def ExecutesNothing : Call → Prop
  | .node (.execute _ _) => False
  | _ => True

theorem executesNothing_of_isRetrying {P : Int → Prop} (op : Call) (h : Parts.IsRetrying P op) :
    ExecutesNothing op := by
  cases h with
  | routing h =>
    exact Parts.forall_isRouting (fun _ => trivial) (fun _ => trivial) trivial op h
  | _ => trivial

theorem calls_retryIfNeeded (url : String) (inst : TaskInstance) (req : TaskStatusReportRequest) :
    Calls ExecutesNothing (Runtime.retryIfNeeded url inst req) := by
  have hretry : ∀ retry task, Calls ExecutesNothing (Runtime.retryNow url task inst retry) := by
    intro retry task
    refine calls_perform_bind trivial fun created => ?_
    cases created with
    | error e => trivial
    | ok stored =>
    refine calls_bind ((Parts.calls_pick _).mono (Parts.forall_isRouting (fun _ => trivial)
      (fun _ => trivial) trivial)) fun picked => ?_
    cases picked with
    | error e =>
      dsimp only
      split
      · exact calls_perform_bind trivial fun _ => trivial
      · trivial
    | ok worker =>
      dsimp only
      rw [Parts.runtime_dispatchRetry]
      exact (Parts.calls_sendRetry (P := fun _ => True) _ trivial worker).mono
        executesNothing_of_isRetrying
  unfold Runtime.retryIfNeeded
  split
  · trivial
  refine calls_perform_bind trivial fun found => ?_
  cases found with
  | error e => trivial
  | ok task =>
  dsimp only
  split
  · trivial
  split
  · trivial
  refine calls_bind ((Parts.calls_retryWindowExceeded inst _).mono
    (Parts.forall_isTask (fun _ => trivial) trivial)) fun exceeded => ?_
  split
  · trivial
  refine calls_perform_bind trivial fun idTime => calls_perform_bind trivial fun triggerTime => ?_
  dsimp only
  split
  · refine calls_perform_bind trivial fun now => calls_perform_bind trivial fun created => ?_
    cases created <;> trivial
  · exact hretry _ task

/-- Every thread has returned or is about to execute a task on its worker. -/
def returnedOrExecuting (c : Pool) : Bool :=
  c.pool.all (fun th =>
    match th.prog with
    | .ret _ => true
    | .call (.node (.execute _ _)) _ => roleOf th.job = .report
    | _ => false)

/-- Neither is inside a trigger step. -/
theorem atRest_of_returnedOrExecuting (url : String) {c : Pool}
    (h : returnedOrExecuting c = true) : AtRest url c := by
  intro t th hth hinside
  have hth := List.all_eq_true.mp h th (List.mem_of_getElem? hth)
  obtain ⟨j, p⟩ := th
  split at hth
  next r hprog =>
    dsimp only at hprog
    subst hprog
    obtain ⟨_, _, _, _, _, _, _, heq⟩ := hinside
    cases heq
  next workerID req k hprog =>
    -- a report's trigger step is `retryIfNeeded`, which executes nothing
    dsimp only at hprog
    subst hprog
    obtain ⟨α, q, hq, hmakes⟩ := hinside.makes
    rw [of_decide_eq_true hth] at hq
    cases hq with
    | retryIfNeeded inst report =>
    exact (calls_retryIfNeeded url inst report).of_makes hmakes
  next => cases hth

/-- One enabled task and one free worker. -/
def oneWorker : World :=
  World.ofRows .mysql
    [{ id := 1, status := .enabled, cronExpr := "* * * * *", nextTriggerTime := 1 }] [] []
    [{ id := "w1", status := .online, maxConcurrency := 1 }]

/-- … and no worker. -/
def noWorker : World :=
  World.ofRows .mysql
    [{ id := 1, status := .enabled, cronExpr := "* * * * *", nextTriggerTime := 1 }] [] [] []

/-- Any interleaving without failing repository calls. -/
def repositoriesWork (_ : Pool) : PoolStep → Bool
  | .spawn _ => true
  | .step _ inp => inp.fault.isNone

/-- **`handleTask` without a worker** puts the task off; its instance stays pending. -/
theorem pending_without_worker :
    ∃ c : Pool, Runs "" (fun c l => repositoriesWork c l = true) noWorker c ∧ AtRest "" c
      ∧ ∃ r ∈ c.world.instances.instances.rows, r.status = .pending := by
  have hrun : (runSteps execCall (body "") repositoriesWork (Config.init noWorker)
      (.spawn (.handleTask
        { id := 1, status := .enabled, cronExpr := "* * * * *", nextTriggerTime := 1 })
        :: List.replicate 7 (.step 0 {}))).map
        (fun c => decide (returnedOrExecuting c = true
          ∧ ∃ r ∈ c.world.instances.instances.rows, r.status = .pending)) = some true := by
    decide
  obtain ⟨c, h, hp⟩ := exists_reaches_of_runSteps (fun _ _ h => h) hrun
  obtain ⟨hrest, hpending⟩ := of_decide_eq_true hp
  exact ⟨c, h, atRest_of_returnedOrExecuting "" hrest, hpending⟩

/-- The condition at work: with a worker, `handleTask` dispatches the instance, and while the worker
executes it nothing is pending. -/
theorem no_pending_at_rest_with_worker :
    ∃ c : Pool, Runs "" (fun c l => triggersFindWorkers c l = true) oneWorker c
      ∧ c.pool.length = 2 ∧ c.resultOf 1 = none
      ∧ c.world.instances.instances.rows.map TaskInstance.status = [.running]
      ∧ ∀ r ∈ c.world.instances.instances.rows, r.status ≠ .pending := by
  have hrun : (runSteps execCall (body "") triggersFindWorkers (Config.init oneWorker)
      (.spawn (.handleTask
        { id := 1, status := .enabled, cronExpr := "* * * * *", nextTriggerTime := 1 })
        :: List.replicate 11 (.step 0 {})
        ++ .spawn
          (.execute "w1" { scheduleInstanceID := TriggerLoop.scheduleInstanceID 1 0, taskID := 1 })
        :: List.replicate 6 (.step 1 {}))).map
        (fun c => decide (returnedOrExecuting c = true ∧ c.pool.length = 2 ∧ c.resultOf 1 = none
          ∧ c.world.instances.instances.rows.map TaskInstance.status = [.running]))
      = some true := by
    decide
  obtain ⟨c, h, hp⟩ := exists_reaches_of_runSteps (fun _ _ h => h) hrun
  obtain ⟨hrest, hlen, hgoing, hrows⟩ := of_decide_eq_true hp
  exact ⟨c, h, hlen, hgoing, hrows,
    no_pending_at_rest "" (by decide) h (atRest_of_returnedOrExecuting "" hrest)⟩

end AiScheduler.Pending
