/-
  **`OnTrigger` AGAINST `handleTask` ON THE SAME STORED TASK**: both run alone from the same
  world, with the same clock readings, order of equal workers and dispatch outcomes, and no
  repository fault; equal instances are answered in any order at each call.

  Past the gate and for an unsharded task they share one body, `attempt`; they differ in what they
  do before it (gate, backpressure) and after it (which outcomes store a next trigger time).

  Main result: `same_effect_iff`, the worlds on which both leave the same stores.
-/
import AiScheduler.Proofs.Gate
import AiScheduler.System.Births

namespace AiScheduler.EngineVsLoop

open Lib TriggerLoop Prog Router

variable {task row : Task} {id shardTotal : Int} {s : InstanceStore} {w : World} {n : Nat}

/-! ## Running alone under a clock. -/

/-- Whether a call reads the clock. -/
def isClock : Call → Bool
  | .memory .now => true
  | _ => false

/-- The world and the number of clock readings made so far. -/
def execClock (inp : Input) (clock : Nat → Int) (op : System.Op) (s : World × Nat) :
    System.Ans op × (World × Nat) :=
  let r := Call.exec { inp with now := clock s.2 } op s.1
  (r.1, (r.2, if isClock op then s.2 + 1 else s.2))

/-- The same, and the number of calls: `ties` is the order in which each call meets the instance
rows. -/
def execTies (inp : Input) (ties : Nat → Scan TaskInstance) (clock : Nat → Int) (op : System.Op)
    (s : (World × Nat) × Nat) : System.Ans op × ((World × Nat) × Nat) :=
  let r := execClock { inp with instanceScan := ties s.2 } clock op s.1
  (r.1, (r.2, s.2 + 1))

/-- What the repositories hold. -/
def stores (w : World) : TaskStore × InstanceStore × WorkerStore :=
  (w.tasks, w.instances, w.workers)

/-- The stores after `handleTask`. -/
def afterLoop (inp : Input) (ties : Nat → Scan TaskInstance) (clock : Nat → Int)
    (url : String) (task : Task) (w : World) : TaskStore × InstanceStore × WorkerStore :=
  stores (Prog.run (execTies inp ties clock) (handleTask url task) ((w, 0), 0)).2.1.1

/-- The stores after `OnTrigger`, which lists no instances. -/
def afterEngine (inp : Input) (clock : Nat → Int) (url : String) (taskID : Int)
    (w : World) : TaskStore × InstanceStore × WorkerStore :=
  stores (Prog.run (execClock inp clock) (Engine.onTrigger url taskID) (w, 0)).2.1

section Alone

variable {inp : Input} {clock : Nat → Int}

@[simp] theorem run_now (w : World) (n : Nat) :
    execClock inp clock (.memory .now) (w, n) = (clock n, (w, n + 1)) := rfl

theorem execClock_task (hf : inp.fault = none) (c : TaskCall) (w : World) (n : Nat) :
    execClock inp clock (.task c) (w, n)
        = ((c.exec w.backend { inp with now := clock n } w.tasks).1,
          ({ w with tasks := (c.exec w.backend { inp with now := clock n } w.tasks).2 }, n)) := by
  simp [execClock, Call.exec, hf, isClock]

theorem execClock_inst (hf : inp.fault = none) (c : InstanceCall) (w : World) (n : Nat) :
    execClock inp clock (.inst c) (w, n)
        = ((c.exec w.backend { inp with now := clock n } w.instances).1,
          ({ w with instances := (c.exec w.backend { inp with now := clock n } w.instances).2 },
            n)) := by
  simp [execClock, Call.exec, hf, isClock]

theorem execClock_worker (hf : inp.fault = none) (c : WorkerCall) (w : World) (n : Nat) :
    execClock inp clock (.worker c) (w, n)
        = ((c.exec w.backend { inp with now := clock n } w.workers).1,
          ({ w with
            workers := (c.exec w.backend { inp with now := clock n } w.workers).2 }, n)) := by
  simp [execClock, Call.exec, hf, isClock]

/-- The order of the instance rows does not matter to a call. -/
def Tieless (op : Call) : Prop :=
  ∀ (inp : Input) (scan : Scan TaskInstance),
    Call.exec { inp with instanceScan := scan } op = Call.exec inp op

theorem execTies_of_tieless {ties : Nat → Scan TaskInstance} {op : Call} (h : Tieless op)
    (s : (World × Nat) × Nat) :
    (execTies inp ties clock op s).1 = (execClock inp clock op s.1).1
      ∧ (execTies inp ties clock op s).2.1 = (execClock inp clock op s.1).2 := by
  have hexec := h { inp with now := clock s.1.2 } (ties s.2)
  unfold execTies execClock
  dsimp only
  rw [hexec]
  exact ⟨rfl, rfl⟩

/-- … nor to a run of such calls. -/
theorem run_execTies {α : Type} {ties : Nat → Scan TaskInstance} {p : Program α}
    (hp : Calls Tieless p) (s : (World × Nat) × Nat) :
    (run (execTies inp ties clock) p s).1 = (run (execClock inp clock) p s.1).1
      ∧ (run (execTies inp ties clock) p s).2.1 = (run (execClock inp clock) p s.1).2 :=
  run_of_view Prod.fst (fun _ h => execTies_of_tieless h) hp s

end Alone

/-! ## The instance rows are listed by the gate only. -/

theorem tieless_of_isTask : ∀ op, Parts.IsTask op → Tieless op :=
  Parts.forall_isTask (fun c _ _ => by cases c <;> rfl) (fun _ _ => rfl)

theorem tieless_of_isRouting : ∀ op, Parts.IsRouting op → Tieless op :=
  Parts.forall_isRouting (fun _ _ _ => rfl) (fun _ _ _ => rfl) (fun _ _ => rfl)

theorem tieless_of_isSending {inst : TaskInstance} (op : Call) (h : Parts.IsSending inst op) :
    Tieless op := by
  cases h with
  | now | mark _ _ | dispatch _ _ | fail _ _ => exact fun _ _ => rfl
  | routing h => exact tieless_of_isRouting op h

theorem tieless_runShard (url : String) (task : Task) (shard : Nat) :
    Calls Tieless (runShard url task shard) := by
  refine calls_perform_bind (fun _ _ => rfl) fun idTime => ?_
  refine calls_perform_bind (fun _ _ => rfl) fun triggerTime => ?_
  refine calls_perform_bind (fun _ _ => rfl) fun created => ?_
  cases created with
  | error e => trivial
  | ok inst =>
  refine calls_bind ((Parts.calls_pick _).mono tieless_of_isRouting) fun picked => ?_
  cases picked with
  | error e =>
    dsimp only
    split
    · exact calls_bind ((Parts.calls_deferTask _ _).mono tieless_of_isTask) (fun _ => trivial)
    · trivial
  | ok worker =>
    exact calls_bind ((Parts.calls_dispatchShard ..).mono tieless_of_isSending) (fun _ => trivial)

theorem tieless_triggerTask (url : String) (task : Task) :
    Calls Tieless (triggerTask url task) := by
  have hloop : ∀ remaining shard, Calls Tieless (runShards url task remaining shard) := by
    intro remaining
    induction remaining with
    | zero => exact fun _ => trivial
    | succ remaining ih =>
      intro shard
      refine calls_bind (tieless_runShard url task shard) fun stopped => ?_
      cases stopped with
      | some r => trivial
      | none => exact ih (shard + 1)
  refine calls_bind (hloop _ _) fun stopped => ?_
  cases stopped with
  | some r => trivial
  | none => exact (Parts.calls_reschedule task).mono tieless_of_isTask

/-! ## The shared body. -/

/-- How an attempt to start one instance ends. -/
inductive Attempt where
  | refused (e : Err)
  | deferred
  | pickFailed (e : Err)
  | sendFailed
  | accepted
  deriving DecidableEq, Repr

def send (url : String) (task : Task) (inst : TaskInstance) (worker : WorkerNode) :
    Program Attempt := do
  let dispatchTime ← timeNow
  let _ ← updateInstanceDispatch inst.id worker.id dispatchTime
  match ← dispatch worker (Engine.triggerRequest url task inst) with
  | .error e => do
    let _ ← updateInstanceResult inst.scheduleInstanceID .failed "dispatch_failed" e.message
    let _ ← Router.release worker
    return .sendFailed
  | .ok () => return .accepted

def place (url : String) (task : Task) (inst : TaskInstance) : Program Attempt := do
  match ← Router.pick (selectOptions task) with
  | .error e =>
    if e = .noAvailableWorker then do
      deferTask task (10 * second)
      return .deferred
    else return .pickFailed e
  | .ok worker => send url task inst worker

def attempt (url : String) (task : Task) : Program Attempt := do
  let idTime ← timeNow
  let triggerTime ← timeNow
  match ← createInstance (Engine.triggerInstance task idTime triggerTime) with
  | .error e => return .refused e
  | .ok inst => place url task inst

def engineAfter (task : Task) : Attempt → Program Unit
  | .accepted => Engine.reschedule task
  | _ => Prog.ret ()

/-- What `handleTask` does after an attempt at its only shard. -/
def loopAfter (task : Task) : Attempt → Program (Except Err Unit)
  | .refused e => Prog.ret (.error (.wrap s!"create task instance shard={(0 : Nat)}" e))
  | .deferred => Prog.ret (.ok ())
  | .pickFailed e => Prog.ret (.error (.wrap s!"pick worker shard={(0 : Nat)}" e))
  | .sendFailed => reschedule task
  | .accepted => reschedule task

theorem triggerEnabled_eq (url : String) (task : Task) :
    Engine.triggerEnabled url task = (attempt url task >>= engineAfter task) := by
  unfold Engine.triggerEnabled attempt
  simp only [ask_bind, call_bind]
  congr 1; funext idTime
  congr 1; funext triggerTime
  congr 1; funext created
  cases created with
  | error e => rfl
  | ok inst =>
  unfold place
  simp only
  rw [bind_assoc]
  congr 1; funext picked
  cases picked with
  | error e =>
    by_cases he : e = .noAvailableWorker
    · subst he
      rfl
    · simp [he, engineAfter]
  | ok worker =>
  unfold Engine.dispatchTrigger send
  simp only [ask_bind, call_bind]
  congr 1; funext dispatchTime
  congr 1; funext marked
  congr 1; funext sent
  cases sent with
  | error e | ok u => rfl

theorem triggerTask_eq (url : String) (hs : task.totalShards = 0) :
    triggerTask url task = (attempt url task >>= loopAfter task) := by
  have hcount : shardCount task = 1 := by
    unfold shardCount
    rw [hs]
    rfl
  have hinst : ∀ a c, shardInstance task 0 a c = Engine.triggerInstance task a c := by
    intro a c
    unfold shardInstance Engine.triggerInstance
    rw [hs]
    rfl
  have hreq : ∀ inst, shardRequest url task 0 inst = Engine.triggerRequest url task inst := by
    intro inst
    unfold shardRequest Engine.triggerRequest
    rw [hs]
    rfl
  unfold triggerTask
  rw [hcount]
  unfold runShards runShards runShard attempt
  simp only [ask_bind, call_bind, hinst]
  congr 1; funext idTime
  congr 1; funext triggerTime
  congr 1; funext created
  cases created with
  | error e => rfl
  | ok inst =>
  unfold place
  simp only [bind_assoc]
  congr 1; funext picked
  cases picked with
  | error e =>
    by_cases he : e = .noAvailableWorker
    · subst he
      rfl
    · simp [he, loopAfter]
  | ok worker =>
  unfold dispatchShard send
  simp only [ask_bind, call_bind, hreq]
  congr 1; funext dispatchTime
  congr 1; funext marked
  congr 1; funext sent
  cases sent with
  | error e | ok u => rfl

/-! ## The first instance stays where it is. -/

/-- The row `id` exists and has this shard total. -/
def HasRow (id shardTotal : Int) (s : InstanceStore) : Prop :=
  ∃ r, s.instances.get? id = some r ∧ r.shardTotal = shardTotal

theorem HasRow.rewrite (h : HasRow id shardTotal s)
    (p : TaskInstance → Bool) (f : TaskInstance → TaskInstance) (hf : ∀ i, (f i).id = i.id)
    (hshard : ∀ i, (f i).shardTotal = i.shardTotal) :
    HasRow id shardTotal (s.rewrite p f hf) := by
  obtain ⟨r, hr, ht⟩ := h
  refine ⟨if p r then f r else r, ?_, ?_⟩
  · rw [InstanceStore.get?_rewrite, hr]
    rfl
  · split
    · rw [hshard, ht]
    · exact ht

theorem HasRow.exec (h : HasRow id shardTotal s)
    (b : Backend) (inp : Input) (c : InstanceCall) : HasRow id shardTotal (c.exec b inp s).2 := by
  rcases c.exec_cases b inp s with hs | ⟨i, _, hs, _⟩ | ⟨p, f, hf, hupd, hs⟩
  · rw [hs]
    exact h
  · rw [hs]
    obtain ⟨r, hr, ht⟩ := h
    have hlt := InstanceStore.lt_nextID hr
    refine ⟨r, ?_, ht⟩
    rw [InstanceStore.get?_insert, if_neg (by omega)]
    exact hr
  rw [hs]
  apply h.rewrite
  intro i
  cases hupd with
  | status id status | dispatch id workerID time | result sid status code msg => rfl
  | timestamps sid started finished => exact setTimestamps_shardTotal b inp.now started finished i

theorem HasRow.run {α : Type} {inp : Input} {clock : Nat → Int} (hf : inp.fault = none)
    (p : Program α) {s : World × Nat}
    (h : HasRow id shardTotal s.1.instances) :
    HasRow id shardTotal (run (execClock inp clock) p s).2.1.instances := by
  refine run_invariant (execClock inp clock) (fun s => HasRow id shardTotal s.1.instances) ?_ p h
  rintro op ⟨w, n⟩ hw
  cases op with
  | task c =>
    rw [execClock_task hf]
    exact hw
  | inst c =>
    rw [execClock_inst hf]
    exact hw.exec w.backend _ c
  | worker c =>
    rw [execClock_worker hf]
    exact hw
  | memory c | node c => exact hw

theorem hasRow_insert {b : Backend} {now : Int} {s : InstanceStore} {i : TaskInstance} :
    HasRow s.nextID i.shardTotal (s.insert b now i) := by
  refine ⟨s.newRow b now i, ?_, by simp⟩
  rw [InstanceStore.get?_insert, if_pos rfl]

theorem ne_of_hasRow {a c : Int} {t : InstanceStore} (hs : HasRow id a s)
    (ht : HasRow id c t) (hne : a ≠ c) : s ≠ t := by
  rintro rfl
  obtain ⟨r, hr, hra⟩ := hs
  obtain ⟨r', hr', hrc⟩ := ht
  rw [hr] at hr'
  injection hr' with hrr
  subst hrr
  exact hne (hra.symm.trans hrc)

theorem ne_of_hasRow_nextID {a : Int} {t : InstanceStore} (ht : HasRow s.nextID a t) : t ≠ s := by
  rintro rfl
  obtain ⟨r, hr, _⟩ := ht
  rw [InstanceStore.get?_nextID] at hr
  cases hr

/-! ## Choosing and sending, run alone. -/

section Steps

variable {inp : Input} {clock : Nat → Int}

/-- The load of `best`, raised by one. -/
def reserved (best : WorkerNode) : WorkerNode := { best with currentLoad := best.currentLoad + 1 }

variable (clock) in
theorem run_pick (hf : inp.fault = none) (opts : SelectOptions) (w : World) (n : Nat) :
    (chosen inp.workerScan w opts = none ∧ run (execClock inp clock) (pick opts) (w, n)
            = (.error .noAvailableWorker, (w, n)))
      ∨ ∃ best w', chosen inp.workerScan w opts = some best
          ∧ run (execClock inp clock) (pick opts) (w, n) = (.ok (reserved best), (w', n))
          ∧ w'.tasks = w.tasks ∧ w'.instances = w.instances ∧ w'.backend = w.backend := by
  unfold pick
  simp only [ask_bind, run_call, execClock_worker hf, WorkerCall.exec]
  cases hlist : filterByLabels (w.workers.listAvailableWorkers w.backend inp.workerScan)
      opts.labels with
  | nil =>
    refine .inl ⟨?_, rfl⟩
    unfold chosen eligible
    rw [hlist]
  | cons first rest =>
  right
  -- choosing changes at most the round-robin counter
  have hchoose : ∃ best m, chosen inp.workerScan w opts = some best
      ∧ run (execClock inp clock) (choose opts.strategy first rest) (w, n)
          = (best, ({ w with memory := m }, n)) := by
    unfold chosen eligible
    rw [hlist]
    cases opts.strategy with
    | roundRobin => exact ⟨_, { w.memory with rrCounter := w.memory.rrCounter + 1 }, rfl, rfl⟩
    | leastLoaded | other text => exact ⟨_, w.memory, rfl, rfl⟩
  obtain ⟨best, m, hbest, hrun⟩ := hchoose
  refine ⟨best, { w with
    memory := m, workers := w.workers.upsertWorker w.backend (clock n) (reserved best) }, hbest,
    ?_, rfl, rfl, rfl⟩
  simp only
  rw [run_bind, hrun]
  unfold reserve
  simp only [ask_bind, run_call, execClock_worker hf, WorkerCall.exec]
  rfl

def Accepts (inp : Input) (worker : WorkerNode) (req : ExecuteTaskRequest) : Prop :=
  inp.outcome worker req = .accepted

variable (inp clock) in
theorem exec_dispatch (worker : WorkerNode) (req : ExecuteTaskRequest) (w : World) (n : Nat) :
    ∃ nodes, (Accepts inp worker req ∧ execClock inp clock (.node (.dispatch worker req)) (w, n)
              = (.ok (), ({ w with nodes := nodes }, n)))
        ∨ (¬ Accepts inp worker req ∧ ∃ e, execClock inp clock (.node (.dispatch worker req)) (w, n)
                = (.error e, ({ w with nodes := nodes }, n))) := by
  unfold Accepts execClock
  simp only [Call.exec, NodeCall.exec, isClock, Bool.false_eq_true, if_false]
  cases inp.outcome worker req with
  | accepted => exact ⟨_, .inl ⟨rfl, rfl⟩⟩
  | refused e => exact ⟨w.nodes, .inr ⟨by simp, e, rfl⟩⟩
  | lost e => exact ⟨_, .inr ⟨by simp, e, rfl⟩⟩

variable (clock) in
theorem run_send (hf : inp.fault = none) (url : String) (task : Task)
    (inst : TaskInstance) (worker : WorkerNode) (w : World) (n : Nat) :
    ∃ w', w'.tasks = w.tasks ∧ w'.backend = w.backend
      ∧ ((Accepts inp worker (Engine.triggerRequest url task inst)
            ∧ run (execClock inp clock) (send url task inst worker) (w, n)
                = (.accepted, (w', n + 1)))
          ∨ (¬ Accepts inp worker (Engine.triggerRequest url task inst)
              ∧ run (execClock inp clock) (send url task inst worker) (w, n)
                  = (.sendFailed, (w', n + 1)))) := by
  unfold send
  simp only [ask_bind, run_call, run_now, execClock_inst hf]
  obtain ⟨nodes, ⟨hacc, hexec⟩ | ⟨hacc, e, hexec⟩⟩ :=
    exec_dispatch inp clock worker (Engine.triggerRequest url task inst)
      { w with instances := ((InstanceCall.updateInstanceDispatch inst.id worker.id (clock n)).exec
          w.backend { inp with now := clock (n + 1) } w.instances).2 } (n + 1)
  · simp only [hexec]
    refine ⟨_, ?_, ?_, .inl ⟨hacc, run_ret _ _ _⟩⟩
    · rfl
    · rfl
  simp only [hexec]
  unfold release
  simp only [ask_bind, run_call, execClock_inst hf, execClock_worker hf]
  refine ⟨_, ?_, ?_, .inr ⟨hacc, run_ret _ _ _⟩⟩
  · rfl
  · rfl

/-- The instance an attempt creates; the first two clock readings name it. -/
def firstInstance (clock : Nat → Int) (task : Task) : TaskInstance :=
  Engine.triggerInstance task (clock 0) (clock 1)

def firstRequest (clock : Nat → Int) (url : String) (task : Task) : ExecuteTaskRequest :=
  Engine.triggerRequest url task (firstInstance clock task)

theorem triggerRequest_stored (clock : Nat → Int) (url : String) (task : Task)
    (b : Backend) (now : Int) (s : InstanceStore) :
    Engine.triggerRequest url task (readInstance b (s.newRow b now (firstInstance clock task)))
      = firstRequest clock url task := by
  cases b <;> rfl

/-- The creation is refused: MySQL has a row with that schedule id already. -/
def Refused (clock : Nat → Int) (task : Task) (w : World) : Prop :=
  w.backend = .mysql
    ∧ (w.instances.bySchedule .mysql (scheduleInstanceID task.id (clock 0))).isSome = true

theorem run_attempt_refused (hf : inp.fault = none) {url : String}
    (hr : Refused clock task w) :
    ∃ e, run (execClock inp clock) (attempt url task) (w, 0) = (.refused e, (w, 2)) := by
  unfold attempt
  simp only [ask_bind, run_call, run_now, execClock_inst hf, InstanceCall.exec]
  have hcreate : ∃ e, w.instances.createInstance w.backend (clock 2)
      (Engine.triggerInstance task (clock 0) (clock 1)) = (.error e, w.instances) := by
    refine ⟨_, if_pos ⟨hr.1, ?_⟩⟩
    exact hr.2
  obtain ⟨e, he⟩ := hcreate
  rw [he]
  exact ⟨e, rfl⟩

def created (clock : Nat → Int) (task : Task) (w : World) : World :=
  { w with instances := w.instances.insert w.backend (clock 2) (firstInstance clock task) }

theorem run_attempt_created (hf : inp.fault = none) {url : String}
    (hr : ¬ Refused clock task w) :
    run (execClock inp clock) (attempt url task) (w, 0) = run (execClock inp clock) (place url task
          (readInstance w.backend
            (w.instances.newRow w.backend (clock 2) (firstInstance clock task))))
          (created clock task w, 2) := by
  unfold attempt
  simp only [ask_bind, run_call, run_now, execClock_inst hf, InstanceCall.exec]
  have hcreate : w.instances.createInstance w.backend (clock 2)
      (Engine.triggerInstance task (clock 0) (clock 1))
      = (.ok (readInstance w.backend (w.instances.newRow w.backend (clock 2)
          (firstInstance clock task))),
        w.instances.insert w.backend (clock 2) (firstInstance clock task)) := by
    refine if_neg ?_
    rintro ⟨hb, hs⟩
    exact hr ⟨hb, hs⟩
  rw [hcreate]
  rfl

theorem hasRow_created (clock : Nat → Int) (task : Task) (w : World) :
    HasRow w.instances.nextID 0 (created clock task w).instances :=
  hasRow_insert

theorem run_place_deferred (hf : inp.fault = none) {url : String} {inst : TaskInstance}
    (hnone : chosen inp.workerScan w (selectOptions task) = none) :
    (run (execClock inp clock) (place url task inst) (w, n)).1 = .deferred := by
  unfold place
  rw [run_bind]
  rcases run_pick clock hf (selectOptions task) w n with ⟨_, hrun⟩ | ⟨best, w', hsome, _⟩
  · rw [hrun]
    rfl
  · rw [hnone] at hsome
    cases hsome

variable (clock) in
theorem run_place_sent (hf : inp.fault = none) (url : String)
    (inst : TaskInstance) {best : WorkerNode}
    (hsome : chosen inp.workerScan w (selectOptions task) = some best) :
    ∃ w', w'.tasks = w.tasks ∧ w'.backend = w.backend
      ∧ ((Accepts inp (reserved best) (Engine.triggerRequest url task inst)
            ∧ run (execClock inp clock) (place url task inst) (w, n) = (.accepted, (w', n + 1)))
          ∨ (¬ Accepts inp (reserved best) (Engine.triggerRequest url task inst)
              ∧ run (execClock inp clock) (place url task inst) (w, n)
                  = (.sendFailed, (w', n + 1)))) := by
  unfold place
  rw [run_bind]
  rcases run_pick clock hf (selectOptions task) w n with
    ⟨hnone, _⟩ | ⟨best', w₁, hbest, hrun, htasks, _, hback⟩
  · rw [hnone] at hsome
    cases hsome
  rw [hsome] at hbest
  cases hbest
  rw [hrun]
  obtain ⟨w', ht', hb', hcases⟩ :=
    run_send clock hf url task inst (reserved best) w₁ n
  exact ⟨w', ht'.trans htasks, hb'.trans hback, hcases⟩

end Steps

/-! ## The next trigger time. -/

section Next

variable {inp : Input} {clock : Nat → Int}

theorem write_ne {b : Backend} {now : Int} {s : TaskStore} (current : Task)
    (hg : s.tasks.get? task.id = some current) : s.write b now task ≠ s := by
  intro heq
  have hget := TaskStore.get?_write b now s task task.id
  rw [heq, hg, Option.map_some, if_pos (Table.get?_some hg).2] at hget
  injection hget with hrow
  have hv : (updatedTask b now task current).version = current.version + 1 := by simp
  rw [← hrow] at hv
  omega

theorem updateTask_readTask {b : Backend} {now next : Int} {s : TaskStore}
    (hg : s.tasks.get? row.id = some row) :
    s.updateTask b now { readTask b row with nextTriggerTime := next }
      = (.ok (readTask b (updatedTask b now { readTask b row with nextTriggerTime := next } row)),
          s.write b now { readTask b row with nextTriggerTime := next }) := by
  have hid : ({ readTask b row with nextTriggerTime := next } : Task).id = row.id := by simp
  apply TaskStore.updateTask_of_same_name
  · rw [hid]
    exact hg
  · cases b <;> rfl
  · cases b <;> rfl

variable (clock) in
theorem run_reschedule (hf : inp.fault = none) (hg : w.tasks.tasks.get? row.id = some row) :
    stores (run (execClock inp clock) (reschedule (readTask w.backend row)) (w, n)).2.1
      = match nextTriggerTime (readTask w.backend row) (clock n) with
        | .error _ => stores w
        | .ok next => (w.tasks.write w.backend (clock (n + 1))
            { readTask w.backend row with nextTriggerTime := next }, w.instances, w.workers) := by
  unfold reschedule
  simp only [ask_bind, run_call, run_now]
  cases hnext : nextTriggerTime (readTask w.backend row) (clock n) with
  | error e => rfl
  | ok next =>
    simp only [run_call, execClock_task hf, TaskCall.exec, updateTask_readTask hg]
    rfl

theorem run_engine_reschedule (hf : inp.fault = none) (hclock : ∀ n, 0 < clock n)
    (hg : w.tasks.tasks.get? row.id = some row) :
    stores (run (execClock inp clock) (Engine.reschedule (readTask w.backend row)) (w, n)).2.1
      = match Cron.nextAfter (clock n) (readTask w.backend row).cronExpr with
        | .error _ => stores w
        | .ok next => (w.tasks.write w.backend (clock (n + 1))
            { readTask w.backend row with nextTriggerTime := next }, w.instances, w.workers) := by
  unfold Engine.reschedule
  simp only [ask_bind, run_call, run_now]
  cases hnext : Cron.nextAfter (clock n) (readTask w.backend row).cronExpr with
  | error e => rfl
  | ok next =>
  have hlt := Cron.lt_of_nextAfter hnext
  have hpos := hclock n
  have hne : next ≠ 0 := by omega
  simp only [if_neg hne, run_call, execClock_task hf, TaskCall.exec, updateTask_readTask hg]
  rfl

end Next

/-! ## The comparison. -/

section Compare

variable {inp : Input} {clock : Nat → Int}

/-- The gate passes, in whatever order the instances are met: the earliest success instances of the
store are all of the one upstream task. -/
def GatePasses (w : World) (task : Task) : Prop :=
  ∀ dep ∈ w.tasks.listUpstreamDeps task.id, Gate.OwnsEarliest w dep

section

variable (ties : Nat → Scan TaskInstance) (clock : Nat → Int)

theorem answers_execTies (hf : inp.fault = none) :
    Gate.Answers (execTies inp ties clock) Prod.fst Prod.fst (fun s => ties s.2) := by
  rintro ⟨⟨w, n⟩, k⟩
  have hf : ({ inp with instanceScan := ties k } : Input).fault = none := hf
  have h : execClock _ clock (.inst (.listInstancesByStatus .success 1)) (w, n) = _ :=
    execClock_inst hf _ w n
  exact ⟨congrArg Prod.fst h, congrArg Prod.snd h⟩

/-- `handleTask` lists the upstream tasks, runs the gate's loop, and goes on by its value. -/
theorem afterLoop_eq (hf : inp.fault = none) (url : String) (task : Task) (w : World) :
    ∃ k, afterLoop inp ties clock url task w
      = if (run (execTies inp ties clock)
            (allSatisfied (inp.shuffle (w.tasks.listUpstreamDeps task.id))) ((w, 0), 1)).1 then
          stores (run (execTies inp ties clock) (triggerTask url task) ((w, 0), k)).2.1.1
        else stores (run (execTies inp ties clock) (deferTask task (5 * second))
          ((w, 0), k)).2.1.1 := by
  have hlist : execTies inp ties clock (.task (.listUpstreamDeps task.id)) ((w, 0), 0)
      = (.ok (inp.shuffle (w.tasks.listUpstreamDeps task.id)), ((w, 0), 1)) := by
    have hf : ({ inp with instanceScan := ties 0 } : Input).fault = none := hf
    unfold execTies
    dsimp only
    rw [show execClock _ clock _ _ = _ from execClock_task hf (.listUpstreamDeps task.id) w 0]
    rfl
  obtain ⟨_, _, hview⟩ := Gate.run_allSatisfied (answers_execTies ties clock hf)
    (inp.shuffle (w.tasks.listUpstreamDeps task.id)) ((w, 0), 1)
  unfold afterLoop handleTask
  simp only [ask_bind, run_call, hlist]
  rw [run_bind]
  generalize run (execTies inp ties clock)
    (allSatisfied (inp.shuffle (w.tasks.listUpstreamDeps task.id))) ((w, 0), 1) = r at hview
  obtain ⟨value, s, k⟩ := r
  obtain rfl : s = (w, 0) := hview
  refine ⟨k, ?_⟩
  cases value with
  | true => rfl
  | false =>
    simp only [Bool.false_eq_true, if_false]
    rw [run_bind]
    rfl

end

variable {ties : Nat → Scan TaskInstance}

theorem afterLoop_pass (hf : inp.fault = none) (url : String) (hpass : GatePasses w task) :
    afterLoop inp ties clock url task w
      = stores (run (execClock inp clock) (triggerTask url task) (w, 0)).2.1 := by
  obtain ⟨k, hk⟩ := afterLoop_eq ties clock hf url task w
  rw [hk, if_pos, (run_execTies (tieless_triggerTask url task) _).2]
  refine (Gate.run_allSatisfied (answers_execTies _ _ hf) _ _).2.1 ?_
  intro dep hdep _
  exact (hpass dep (Input.mem_shuffle.mp hdep)).answered _

/-- A gate that some order stops: in that order the loop puts the task off. -/
theorem afterLoop_stop (clock : Nat → Int) (hf : inp.fault = none) {url : String}
    (hg : w.tasks.tasks.get? row.id = some row) (hstop : ¬ GatePasses w (readTask w.backend row)) :
    ∃ ties, afterLoop inp ties clock url (readTask w.backend row) w
      = (w.tasks.write w.backend (clock 1)
          { readTask w.backend row with nextTriggerTime := clock 0 + 5 * second },
        w.instances, w.workers) := by
  unfold GatePasses at hstop
  simp only [not_forall] at hstop
  obtain ⟨dep, hdep, hnot⟩ := hstop
  obtain ⟨scan, hmissed⟩ := Gate.exists_missed hnot
  refine ⟨fun _ => scan, ?_⟩
  obtain ⟨k, hk⟩ := afterLoop_eq (fun _ => scan) clock hf url
    (readTask w.backend row) w
  rw [hk, if_neg]
  · rw [(run_execTies ((Parts.calls_deferTask _ _).mono tieless_of_isTask) _).2]
    unfold deferTask
    simp only [ask_bind, run_call, run_now, execClock_task hf, TaskCall.exec,
      updateTask_readTask hg]
    rfl
  · intro hrun
    obtain ⟨_, hs⟩ := (Gate.run_allSatisfied (answers_execTies _ _ hf) _ _).1 hrun dep
      (Input.mem_shuffle.mpr hdep)
    exact hmissed hs

theorem afterEngine_red (url : String) (taskID : Int) (hred : w.memory.bp.allowDispatch = false) :
    afterEngine inp clock url taskID w = stores w := by
  unfold afterEngine Engine.onTrigger
  simp only [ask_bind, run_call, execClock, Call.exec, MemoryCall.exec, hred]
  rfl

theorem afterEngine_go (hf : inp.fault = none) (url : String)
    (hgo : w.memory.bp.allowDispatch = true) (hg : w.tasks.tasks.get? row.id = some row)
    (hen : row.status = .enabled) :
    afterEngine inp clock url row.id w = stores (run (execClock inp clock)
          (attempt url (readTask w.backend row) >>= engineAfter (readTask w.backend row))
          (w, 0)).2.1 := by
  have hallow : execClock inp clock (.memory .allowDispatch) (w, 0) = (true, (w, 0)) := by
    simp [execClock, Call.exec, MemoryCall.exec, hgo, isClock]
  have hget : w.tasks.getTask w.backend row.id = .ok (readTask w.backend row) := by
    unfold TaskStore.getTask
    rw [hg]
  unfold afterEngine Engine.onTrigger
  simp only [ask_bind, run_call, hallow, if_true, execClock_task hf, TaskCall.exec, hget]
  rw [if_neg (by simp [hen]), triggerEnabled_eq]

theorem hasRow_afterLoop (hf : inp.fault = none) (url : String)
    (hpass : GatePasses w task) (hr : ¬ Refused clock task w) :
    HasRow w.instances.nextID task.totalShards (afterLoop inp ties clock url task w).2.1 := by
  obtain ⟨k, hk⟩ := shardCount_eq_succ task
  have hcreate : w.instances.createInstance w.backend (clock 2)
      (shardInstance task 0 (clock 0) (clock 1))
      = (.ok (readInstance w.backend (w.instances.newRow w.backend (clock 2)
          (shardInstance task 0 (clock 0) (clock 1)))),
        w.instances.insert w.backend (clock 2) (shardInstance task 0 (clock 0) (clock 1))) := by
    refine if_neg ?_
    rintro ⟨hb, hs⟩
    exact hr ⟨hb, hs⟩
  rw [afterLoop_pass hf url hpass]
  unfold triggerTask
  rw [run_bind]
  apply HasRow.run hf
  rw [hk]
  unfold runShards
  rw [run_bind]
  apply HasRow.run hf
  -- the two clock readings, the creation, and whatever comes after it
  unfold runShard
  simp only [ask_bind, run_call, run_now, execClock_inst hf, InstanceCall.exec, hcreate]
  apply HasRow.run hf
  exact hasRow_insert

theorem afterLoop_refused (hf : inp.fault = none) {url : String}
    (hpass : GatePasses w task) (hr : Refused clock task w) :
    afterLoop inp ties clock url task w = stores w := by
  obtain ⟨k, hk⟩ := shardCount_eq_succ task
  have hcreate : ∃ e, w.instances.createInstance w.backend (clock 2)
      (shardInstance task 0 (clock 0) (clock 1)) = (.error e, w.instances) :=
    ⟨_, if_pos ⟨hr.1, hr.2⟩⟩
  obtain ⟨e, he⟩ := hcreate
  rw [afterLoop_pass hf url hpass]
  unfold triggerTask
  rw [hk]
  unfold runShards
  rw [run_bind, run_bind]
  unfold runShard
  simp only [ask_bind, run_call, run_now, execClock_inst hf, InstanceCall.exec, he]
  rfl

theorem hasRow_afterEngine (hf : inp.fault = none) (url : String)
    (hgo : w.memory.bp.allowDispatch = true) (hg : w.tasks.tasks.get? row.id = some row)
    (hen : row.status = .enabled) (hr : ¬ Refused clock (readTask w.backend row) w) :
    HasRow w.instances.nextID 0 (afterEngine inp clock url row.id w).2.1 := by
  rw [afterEngine_go hf url hgo hg hen]
  rw [run_bind, run_attempt_created hf hr]
  apply HasRow.run hf
  apply HasRow.run hf
  exact hasRow_created clock _ w

theorem afterEngine_refused (hf : inp.fault = none) (url : String)
    (hgo : w.memory.bp.allowDispatch = true) (hg : w.tasks.tasks.get? row.id = some row)
    (hen : row.status = .enabled) (hr : Refused clock (readTask w.backend row) w) :
    afterEngine inp clock url row.id w = stores w := by
  obtain ⟨e, he⟩ := run_attempt_refused hf hr
  rw [afterEngine_go hf url hgo hg hen, run_bind, he]
  rfl

/-- Some eligible worker is chosen and accepts the dispatch. -/
def DispatchAccepted (inp : Input) (clock : Nat → Int) (url : String) (task : Task)
    (w : World) : Prop :=
  ∃ best, Router.chosen inp.workerScan w (selectOptions task) = some best
    ∧ Accepts inp (reserved best) (firstRequest clock url task)

/-- The cron expression has no next time after the fourth clock reading. -/
def NoNextTime (clock : Nat → Int) (task : Task) : Prop :=
  ∃ e, Cron.nextAfter (clock 3) task.cronExpr = .error e

/-- **The unsharded case past the gate**: the rows are the same unless only one of the two stores a
next trigger time. -/
theorem unsharded_iff (hf : inp.fault = none) (hclock : ∀ n, 0 < clock n) (url : String)
    (hg : w.tasks.tasks.get? row.id = some row)
    (hr : ¬ Refused clock (readTask w.backend row) w) :
    stores (run (execClock inp clock)
        (attempt url (readTask w.backend row) >>= engineAfter (readTask w.backend row))
        (w, 0)).2.1
      = stores (run (execClock inp clock)
          (attempt url (readTask w.backend row) >>= loopAfter (readTask w.backend row))
          (w, 0)).2.1
      ↔ chosen inp.workerScan w (selectOptions (readTask w.backend row)) = none
          ∨ (row.cronExpr ≠ "" ∧ (DispatchAccepted inp clock url (readTask w.backend row) w
                  ∨ NoNextTime clock (readTask w.backend row))) := by
  rw [run_bind, run_bind, run_attempt_created hf hr]
  have hchosen : chosen inp.workerScan (created clock (readTask w.backend row) w)
      (selectOptions (readTask w.backend row))
      = chosen inp.workerScan w (selectOptions (readTask w.backend row)) := rfl
  cases hc : chosen inp.workerScan w (selectOptions (readTask w.backend row)) with
  | none =>
    -- ===== nobody eligible: both put the task off, and nothing follows =====
    rw [run_place_deferred hf (hchosen.trans hc)]
    simp only [true_or, iff_true]
    rfl
  | some best =>
  obtain ⟨w', htasks, hback, hcases⟩ := run_place_sent clock (n := 2) hf
    url (readInstance w.backend (w.instances.newRow w.backend (clock 2)
      (firstInstance clock (readTask w.backend row)))) (hchosen.trans hc)
  rw [triggerRequest_stored] at hcases
  have htasks' : w'.tasks = w.tasks := htasks
  have hback' : w'.backend = w.backend := hback
  have hg' : w'.tasks.tasks.get? row.id = some row := by
    rw [htasks']
    exact hg
  have hloop := run_reschedule clock (n := 3) hf hg'
  have hengine := run_engine_reschedule (n := 3) hf hclock hg'
  rw [hback'] at hloop hengine
  have hwrite : ∀ next, ((w'.tasks.write w.backend (clock 4)
      { readTask w.backend row with nextTriggerTime := next }, w'.instances, w'.workers)
        : TaskStore × InstanceStore × WorkerStore) ≠ stores w' := by
    intro next heq
    injection heq with htask _
    refine write_ne row ?_ htask
    rw [readTask_id]
    exact hg'
  simp only [reduceCtorEq, false_or]
  rcases hcases with ⟨hacc, hrun⟩ | ⟨hacc, hrun⟩
  · -- ===== accepted: both store a next time, if there is a cron expression =====
    rw [hrun]
    simp only [engineAfter, loopAfter]
    rw [hloop, hengine]
    have hda : DispatchAccepted inp clock url (readTask w.backend row) w :=
      ⟨best, hc, hacc⟩
    by_cases hcron : row.cronExpr = ""
    · rw [nextTriggerTime_of_empty ((readTask_cronExpr _ _).trans hcron), readTask_cronExpr,
        hcron, Cron.nextAfter_empty]
      simp only [ne_eq, not_true, false_and, iff_false]
      exact fun heq => hwrite _ heq.symm
    · rw [nextTriggerTime_of_cron (by rw [readTask_cronExpr]; exact hcron)]
      exact ⟨fun _ => ⟨hcron, .inl hda⟩, fun _ => rfl⟩
  -- ===== not accepted: only the loop stores a next time =====
  rw [hrun]
  simp only [engineAfter, loopAfter]
  rw [hloop]
  have hda : ¬ DispatchAccepted inp clock url (readTask w.backend row) w := by
    rintro ⟨best', hb', hacc'⟩
    rw [hc] at hb'
    injection hb' with hb'
    subst hb'
    exact hacc hacc'
  by_cases hcron : row.cronExpr = ""
  · rw [nextTriggerTime_of_empty ((readTask_cronExpr _ _).trans hcron)]
    simp only [hcron, ne_eq, not_true, false_and, iff_false]
    exact fun heq => hwrite _ heq.symm
  rw [nextTriggerTime_of_cron (by rw [readTask_cronExpr]; exact hcron)]
  cases hn : Cron.nextAfter (clock 3) (readTask w.backend row).cronExpr with
  | error e => exact ⟨fun _ => ⟨hcron, .inr ⟨e, hn⟩⟩, fun _ => rfl⟩
  | ok next =>
  constructor
  · intro heq
    exact absurd heq.symm (hwrite next)
  · rintro ⟨_, h | ⟨e, he⟩⟩
    · exact absurd h hda
    · rw [hn] at he
      cases he

/-- **WHERE `OnTrigger` AND `handleTask` HAVE THE SAME EFFECT**, in whatever order the store answers
equal instances at each call: the gate passes, and either the store refuses the schedule id, or
backpressure is not red, the task has no shards, and nobody is eligible — or the task has a cron
expression and the chosen worker accepts (or there is no next time at all). -/
theorem same_effect_iff (inp : Input) (clock : Nat → Int) (url : String) (row : Task)
    (w : World) (hf : inp.fault = none) (hclock : ∀ n, 0 < clock n)
    (hg : w.tasks.tasks.get? row.id = some row) (hen : row.status = .enabled) :
    (∀ ties, afterEngine inp clock url row.id w
        = afterLoop inp ties clock url (readTask w.backend row) w)
      ↔ GatePasses w (readTask w.backend row) ∧ (Refused clock (readTask w.backend row) w
          ∨ (w.memory.bp.allowDispatch = true ∧ (readTask w.backend row).totalShards = 0
            ∧ (Router.chosen inp.workerScan w (selectOptions (readTask w.backend row)) = none
              ∨ (row.cronExpr ≠ ""
                ∧ (DispatchAccepted inp clock url (readTask w.backend row) w
                  ∨ NoNextTime clock (readTask w.backend row)))))) := by
  by_cases hpass : GatePasses w (readTask w.backend row)
  · by_cases hr : Refused clock (readTask w.backend row) w
    · -- ===== the schedule id is refused: neither changes anything =====
      have heng : afterEngine inp clock url row.id w = stores w := by
        cases hbp : w.memory.bp.allowDispatch with
        | false => exact afterEngine_red url row.id hbp
        | true => exact afterEngine_refused hf url hbp hg hen hr
      refine ⟨fun _ => ⟨hpass, .inl hr⟩, fun _ ties => ?_⟩
      rw [heng, afterLoop_refused hf hpass hr]
    have hrow : ∀ ties, HasRow _ _ (afterLoop inp ties clock url _ w).2.1 :=
      fun _ => hasRow_afterLoop hf url hpass hr
    cases hbp : w.memory.bp.allowDispatch with
    | false =>
      -- ===== red: the loop's instance is missing =====
      rw [afterEngine_red url row.id hbp]
      constructor
      · intro heq
        have hrow := hrow (fun _ => .stored)
        rw [← heq] at hrow
        exact absurd rfl (ne_of_hasRow_nextID hrow)
      · rintro ⟨_, h | ⟨h, _⟩⟩
        · exact absurd h hr
        · cases h
    | true =>
    have hrow' := hasRow_afterEngine hf url hbp hg hen hr
    by_cases hs : (readTask w.backend row).totalShards = 0
    · simp only [afterEngine_go hf url hbp hg hen, afterLoop_pass hf url hpass,
        triggerTask_eq url hs, unsharded_iff hf hclock url hg hr]
      simp [hpass, hr, hs]
    -- ===== sharded: the two instances differ in their shard total =====
    constructor
    · intro heq
      rw [heq (fun _ => .stored)] at hrow'
      exact absurd rfl (ne_of_hasRow hrow' (hrow _) (fun h => hs h.symm))
    · rintro ⟨_, h | ⟨_, h, _⟩⟩
      · exact absurd h hr
      · exact absurd h hs
  · -- ===== the gate stops the loop, never the engine =====
    obtain ⟨ties, hstop⟩ := afterLoop_stop clock hf hg hpass
    refine ⟨fun heq => ?_, fun h => absurd h.1 hpass⟩
    have heq := heq ties
    rw [hstop] at heq
    exfalso
    have hwrite : w.tasks.write w.backend (clock 1)
        { readTask w.backend row with nextTriggerTime := clock 0 + 5 * second } ≠ w.tasks := by
      refine write_ne row ?_
      rw [readTask_id]
      exact hg
    cases hbp : w.memory.bp.allowDispatch with
    | false =>
      rw [afterEngine_red url row.id hbp] at heq
      injection heq with htask _
      exact hwrite htask.symm
    | true =>
    by_cases hr : Refused clock (readTask w.backend row) w
    · rw [afterEngine_refused hf url hbp hg hen hr] at heq
      injection heq with htask _
      exact hwrite htask.symm
    · have hrow' := hasRow_afterEngine hf url hbp hg hen hr
      rw [heq] at hrow'
      exact absurd rfl (ne_of_hasRow_nextID hrow')

end Compare

/-! ## Two stores. -/

/-- Task 1 runs every minute and depends on task 2, which never succeeded. -/
def blockedTask : World :=
  World.ofRows .mysql
    [{ id := 1, status := .enabled, cronExpr := "* * * * *", nextTriggerTime := 1 },
     { id := 2, status := .enabled }]
    [{ taskID := 1, dependsOnTaskID := 2 }] []
    [{ id := "w1", status := .online, maxConcurrency := 1 }]

/-- **`OnTrigger` starts a task whose upstream never succeeded**, `handleTask`
puts it off. -/
theorem engine_ignores_gate :
    afterEngine {} (fun n => (n : Int) + 1) "" 1 blockedTask
      ≠ afterLoop {} (fun _ => .stored) (fun n => (n : Int) + 1) ""
          { id := 1, status := .enabled, cronExpr := "* * * * *", nextTriggerTime := 1 }
          blockedTask := by
  intro h
  have hrows := congrArg (fun s => s.2.1.instances.rows.length) h
  revert hrows
  decide

def freeTask : World :=
  World.ofRows .mysql
    [{ id := 1, status := .enabled, cronExpr := "* * * * *", nextTriggerTime := 1 }] [] []
    [{ id := "w1", status := .online, maxConcurrency := 1 }]

/-- No gate to pass, no shards, a cron expression and an accepted dispatch. -/
theorem same_effect_freeTask :
    freeTask.memory.bp.allowDispatch = true
      ∧ ∀ ties, afterEngine {} (fun n => (n : Int) + 1) "" 1 freeTask
          = afterLoop {} ties (fun n => (n : Int) + 1) ""
              { id := 1, status := .enabled, cronExpr := "* * * * *", nextTriggerTime := 1 }
              freeTask :=
  ⟨by decide, (same_effect_iff {} (fun n => (n : Int) + 1) ""
    { id := 1, status := .enabled, cronExpr := "* * * * *", nextTriggerTime := 1 } freeTask
    rfl (fun n => by omega) rfl rfl).mpr
    ⟨fun _ hdep => absurd (show _ ∈ ([] : List Int) from hdep) (by simp),
      .inr ⟨by decide, by decide, .inr ⟨by decide, Or.inl
      ⟨{ id := "w1", status := .online, maxConcurrency := 1 }, by decide, rfl⟩⟩⟩⟩⟩

end AiScheduler.EngineVsLoop
