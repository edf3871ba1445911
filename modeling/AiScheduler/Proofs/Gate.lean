/-
  **THE DEPENDENCY GATE OF `handleTask` AGAINST `AllDependenciesSatisfied`.**

  The gate asks, once per upstream task, for ONE success instance out of the whole store, an
  earliest created one, and looks whether it belongs to that upstream task (`passesGate_eq`).  Which
  of several the store answers is open, anew at each call.

  Main result: `gate_agrees_iff`, the stores on which the two checks agree for every order of the
  answers.
-/
import AiScheduler.Proofs.Parts

namespace AiScheduler.Gate

open Lib TriggerLoop Prog

/-! ## What the gate sees. -/

/-- The success instances of the store. -/
def successes (w : World) : List TaskInstance :=
  w.instances.instances.rows.filter (fun i => i.status = .success)

/-- Some stored instance of the task succeeded. -/
def hasSuccess (w : World) (taskID : Int) : Bool :=
  w.instances.instances.rows.any (fun i => i.status = .success ∧ i.taskID = taskID)

/-- No success instance was created before this one; several may have been created with it. -/
def IsEarliest (w : World) (i : TaskInstance) : Prop :=
  i ∈ successes w ∧ ∀ j ∈ successes w, i.createdAt ≤ j.createdAt

/-- There is a success instance, and all the earliest ones are of this task. -/
def OwnsEarliest (w : World) (taskID : Int) : Prop :=
  successes w ≠ [] ∧ ∀ i, IsEarliest w i → i.taskID = taskID

/-- The task of the one success instance a query answers. -/
def answered (scan : Scan TaskInstance) (w : World) : Option Int :=
  (scan.orderBy TaskInstance.createdAt (successes w)).head?.map TaskInstance.taskID

/-- Whether a call creates an instance. -/
def isCreate : Event System → Bool
  | ⟨.inst (.createInstance _), _⟩ => true
  | _ => false

/-- `handleTask`, run alone, goes on to create an instance. -/
def passesGate (env : Nat → Input) (url : String) (task : Task) (w : World) : Bool :=
  (Prog.events (execAt env) (handleTask url task) (w, 0)).any isCreate

/-- No repository call fails. -/
def NoFaults (env : Nat → Input) : Prop := ∀ n, (env n).fault = none

theorem mem_successes {w : World} {i : TaskInstance} :
    i ∈ successes w ↔ i ∈ w.instances.instances.rows ∧ i.status = .success := by
  simp [successes]

theorem hasSuccess_iff {w : World} {taskID : Int} :
    hasSuccess w taskID = true ↔ ∃ i ∈ successes w, i.taskID = taskID := by
  simp [hasSuccess, mem_successes, and_assoc]

/-- What is answered is an earliest success instance. -/
theorem isEarliest_of_head {scan : Scan TaskInstance} {w : World} {i : TaskInstance}
    (h : (scan.orderBy TaskInstance.createdAt (successes w)).head? = some i) : IsEarliest w i := by
  obtain ⟨rest, hrest⟩ := List.head?_eq_some_iff.mp h
  have hsorted := sortBy_pairwise TaskInstance.createdAt (scan.order (successes w))
  rw [show sortBy _ _ = _ from hrest, List.pairwise_cons] at hsorted
  refine ⟨Scan.mem_orderBy.mp (List.mem_of_mem_head? h), ?_⟩
  intro j hj
  rw [← Scan.mem_orderBy, hrest] at hj
  rcases List.mem_cons.mp hj with rfl | hj
  · exact Int.le_refl _
  · exact hsorted.1 j hj

/-- … and any earliest one may be. -/
theorem exists_answered {w : World} {i : TaskInstance} (h : IsEarliest w i) :
    ∃ scan, answered scan w = some i.taskID := by
  have hp : (i :: sortBy TaskInstance.createdAt ((successes w).erase i)).Perm (successes w) :=
    ((sortBy_perm _ _).cons i).trans (List.perm_cons_erase h.1).symm
  obtain ⟨scan, hscan⟩ := exists_scan TaskInstance.createdAt hp (by
    refine List.pairwise_cons.mpr ⟨fun j hj => h.2 j ?_, sortBy_pairwise _ _⟩
    exact List.mem_of_mem_erase (mem_sortBy.mp hj))
  refine ⟨scan, ?_⟩
  unfold answered
  rw [hscan]
  rfl

theorem hasSuccess_of_answered {scan : Scan TaskInstance} {w : World} {taskID : Int}
    (h : answered scan w = some taskID) : hasSuccess w taskID = true := by
  obtain ⟨i, hi, hid⟩ := Option.map_eq_some_iff.mp h
  exact hasSuccess_iff.mpr ⟨i, (isEarliest_of_head hi).1, hid⟩

theorem OwnsEarliest.answered {w : World} {taskID : Int} (h : OwnsEarliest w taskID)
    (scan : Scan TaskInstance) : Gate.answered scan w = some taskID := by
  unfold Gate.answered
  cases hi : (scan.orderBy TaskInstance.createdAt (successes w)).head? with
  | none =>
    rw [List.head?_eq_none_iff] at hi
    have hperm := scan.orderBy_perm TaskInstance.createdAt (successes w)
    rw [hi] at hperm
    exact absurd hperm.nil_eq.symm h.1
  | some i => rw [Option.map_some, h.2 i (isEarliest_of_head hi)]

/-- A task that does not own the earliest successes is missed by some query. -/
theorem exists_missed {w : World} {taskID : Int} (h : ¬ OwnsEarliest w taskID) :
    ∃ scan, Gate.answered scan w ≠ some taskID := by
  by_contra hall
  simp only [not_exists, ne_eq, not_not] at hall
  refine h ⟨?_, ?_⟩
  · intro hnil
    have := hall .stored
    unfold Gate.answered at this
    rw [hnil] at this
    cases this
  · intro i hi
    obtain ⟨scan, hscan⟩ := exists_answered hi
    rw [hall scan] at hscan
    exact (Option.some.inj hscan).symm

/-! ## The gate's loop, run alone. -/

section Loop

variable {σ τ : Type} {exec : (op : System.Op) → σ → System.Ans op × σ} {view : σ → τ}
  {world : τ → World} {scan : σ → Scan TaskInstance}

/-- How a run answers the gate's query: in the order `scan`, and leaving what is seen through
`view`, the world with it, alone. -/
def Answers (exec : (op : System.Op) → σ → System.Ans op × σ) (view : σ → τ) (world : τ → World)
    (scan : σ → Scan TaskInstance) : Prop :=
  ∀ s, (exec (.inst (.listInstancesByStatus .success 1)) s).1
      = .ok ((world (view s)).instances.listInstancesByStatus (world (view s)).backend (scan s)
          .success 1)
    ∧ view (exec (.inst (.listInstancesByStatus .success 1)) s).2 = view s

variable (h : Answers exec view world scan)

include h

theorem run_dependencyFound (depID : Int) (s : σ) :
    (run exec (dependencyFound depID) s).1
        = decide (answered (scan s) (world (view s)) = some depID)
      ∧ view (run exec (dependencyFound depID) s).2 = view s := by
  obtain ⟨hans, hview⟩ := h s
  have hlist : (world (view s)).instances.listInstancesByStatus (world (view s)).backend (scan s)
        .success 1
      = (((scan s).orderBy TaskInstance.createdAt (successes (world (view s)))).take 1).map
          (readInstance (world (view s)).backend) := rfl
  unfold dependencyFound
  simp only [ask_bind, run_call, hans, hlist]
  refine ⟨?_, hview⟩
  unfold answered
  cases (scan s).orderBy TaskInstance.createdAt (successes (world (view s))) with
  | nil | cons i rest => simp [run_ret]

/-- The loop passes only if every upstream task was answered, each time in some order, and it does
pass if every upstream task is answered in every order. -/
theorem run_allSatisfied : ∀ (deps : List Int) (s : σ),
    ((run exec (allSatisfied deps) s).1 = true →
        ∀ d ∈ deps, ∃ s', answered (scan s') (world (view s)) = some d)
      ∧ ((∀ d ∈ deps, ∀ s', answered (scan s') (world (view s)) = some d) →
        (run exec (allSatisfied deps) s).1 = true)
      ∧ view (run exec (allSatisfied deps) s).2 = view s := by
  intro deps
  induction deps with
  | nil => exact fun s => ⟨fun _ d hd => absurd hd (by simp), fun _ => rfl, rfl⟩
  | cons d ds ih =>
  intro s
  obtain ⟨hval, hview⟩ := run_dependencyFound h d s
  obtain ⟨hsome, hall, hkept⟩ := ih (run exec (dependencyFound d) s).2
  rw [hview] at hsome hall hkept
  unfold allSatisfied
  rw [run_bind, hval]
  by_cases hd : answered (scan s) (world (view s)) = some d
  · simp only [hd, decide_true, if_true]
    refine ⟨?_, fun hds => hall (fun d' hd' => hds d' (.tail _ hd')), hkept⟩
    intro hrun d' hd'
    rcases List.mem_cons.mp hd' with rfl | hd'
    · exact ⟨s, hd⟩
    · exact hsome hrun d' hd'
  · simp only [hd, decide_false, Bool.false_eq_true, if_false]
    exact ⟨fun hrun => absurd hrun (by simp [run_ret]),
      fun hds => absurd (hds d List.mem_cons_self s) hd, hview⟩

end Loop

theorem answers_execAt {env : Nat → Input} (hf : NoFaults env) :
    Answers (execAt env) Prod.fst id (fun s => (env s.2).instanceScan) := by
  rintro ⟨w, n⟩
  simp only [execAt, Call.exec, hf n]
  exact ⟨rfl, rfl⟩

/-! ## The gate as a whole. -/

theorem create_mem_triggerTask (env : Nat → Input) (url : String) (task : Task) (s : World × Nat) :
    (events (execAt env) (triggerTask url task) s).any isCreate = true := by
  obtain ⟨k, hk⟩ := shardCount_eq_succ task
  unfold triggerTask
  rw [events_bind, hk]
  unfold runShards
  rw [events_bind]
  -- the clock is read twice, then the shard is created
  unfold runShard
  simp [isCreate]

theorem create_not_mem_deferTask (env : Nat → Input) (task : Task) (delay : Int) (s : World × Nat) :
    (events (execAt env) (deferTask task delay) s).any isCreate = false := by
  simp [deferTask, isCreate]

/-- **The inline check** is the value of its loop over the upstream tasks, in the order in which the
store answers them. -/
theorem passesGate_eq {env : Nat → Input} (hf : NoFaults env) (url : String) (task : Task)
    (w : World) :
    passesGate env url task w
      = (run (execAt env) (allSatisfied ((env 0).shuffle (w.tasks.listUpstreamDeps task.id)))
          (w, 1)).1 := by
  have hexec : Call.exec (env 0) (.task (.listUpstreamDeps task.id)) w
      = (.ok ((env 0).shuffle (w.tasks.listUpstreamDeps task.id)), w) := by
    simp only [Call.exec, hf 0]
    rfl
  -- ===== the first call answers the upstream tasks =====
  unfold passesGate handleTask
  simp only [ask_bind, events_call, execAt, hexec, List.any_cons, isCreate, Bool.false_or]
  -- ===== the loop's calls create nothing; its value decides =====
  rw [events_bind, List.any_append]
  have hloop : (events (execAt env)
      (allSatisfied ((env 0).shuffle (w.tasks.listUpstreamDeps task.id))) (w, 1)).any isCreate
        = false := by
    rw [List.any_eq_false]
    intro e he
    have hquery : ∀ op, Parts.IsQuery op → ∀ ans, isCreate ⟨op, ans⟩ = false :=
      Parts.forall_isQuery (fun _ _ _ => rfl)
    rw [hquery e.1 (Calls.of_mem_events (execAt env) (Parts.calls_allSatisfied _) he) e.2]
    simp
  rw [show (0 + 1 : Nat) = 1 from rfl, hloop, Bool.false_or]
  cases (run (execAt env)
      (allSatisfied ((env 0).shuffle (w.tasks.listUpstreamDeps task.id))) (w, 1)).1 with
  | true => exact create_mem_triggerTask ..
  | false =>
    simp only [Bool.false_eq_true, if_false]
    rw [events_bind, List.any_append, create_not_mem_deferTask]
    rfl

/-- A gate that passes has a success instance of every upstream task. -/
theorem hasSuccess_of_passesGate {env : Nat → Input} (hf : NoFaults env) {url : String}
    {task : Task} {w : World} (h : passesGate env url task w = true) :
    ∀ dep ∈ w.tasks.listUpstreamDeps task.id, hasSuccess w dep = true := by
  intro dep hdep
  rw [passesGate_eq hf] at h
  obtain ⟨_, hs⟩ := (run_allSatisfied (answers_execAt hf) _ _).1 h dep (Input.mem_shuffle.mpr hdep)
  exact hasSuccess_of_answered hs

theorem passesGate_of_ownsEarliest {env : Nat → Input} (hf : NoFaults env) {url : String}
    {task : Task} {w : World}
    (h : ∀ dep ∈ w.tasks.listUpstreamDeps task.id, OwnsEarliest w dep) :
    passesGate env url task w = true := by
  rw [passesGate_eq hf]
  refine (run_allSatisfied (answers_execAt hf) _ _).2.1 ?_
  intro dep hdep _
  exact (h dep (Input.mem_shuffle.mp hdep)).answered _

theorem declared_iff (w : World) (task : Task) :
    allDependenciesSatisfied (graph w.tasks.dependencies) task.id (hasSuccess w) = true
      ↔ ∀ dep ∈ w.tasks.listUpstreamDeps task.id, hasSuccess w dep = true := by
  rw [allDependenciesSatisfied_graph_iff]
  constructor
  · intro h dep hdep
    obtain ⟨e, he, rfl⟩ := List.mem_map.mp hdep
    rw [List.mem_filter] at he
    exact h e he.1 (by simpa using he.2)
  · intro h e he ht
    apply h
    exact List.mem_map.mpr ⟨e, List.mem_filter.mpr ⟨he, by simpa using ht⟩, rfl⟩

/-- **WHERE THE TWO CHECKS AGREE**, whatever orders the store's answers have: some upstream task
has no success instance, or the earliest created success instances of the whole store, of which
there may be several, are all of the one upstream task. -/
theorem gate_agrees_iff (url : String) (task : Task) (w : World) :
    (∀ env, NoFaults env →
        (passesGate env url task w = true
          ↔ allDependenciesSatisfied (graph w.tasks.dependencies) task.id (hasSuccess w) = true))
      ↔ ((∃ dep ∈ w.tasks.listUpstreamDeps task.id, hasSuccess w dep = false)
          ∨ ∀ dep ∈ w.tasks.listUpstreamDeps task.id, OwnsEarliest w dep) := by
  rw [declared_iff]
  constructor
  · intro hagree
    by_cases hall : ∀ dep ∈ w.tasks.listUpstreamDeps task.id, hasSuccess w dep = true
    · -- an upstream task some order misses: with that order at every call the gate fails
      right
      intro dep hdep
      by_contra hnot
      obtain ⟨scan, hmissed⟩ := exists_missed hnot
      have hf : NoFaults (fun _ => { instanceScan := scan }) := fun _ => rfl
      have hpass := (hagree _ hf).mpr hall
      rw [passesGate_eq hf] at hpass
      obtain ⟨_, hs⟩ := (run_allSatisfied (answers_execAt hf) _ _).1 hpass dep hdep
      exact hmissed hs
    · left
      simp only [not_forall] at hall
      obtain ⟨dep, hdep, hne⟩ := hall
      exact ⟨dep, hdep, by simpa using hne⟩
  · rintro (⟨dep, hdep, hno⟩ | hfirst) env hf
    · refine ⟨hasSuccess_of_passesGate hf, ?_⟩
      intro hall
      rw [hall dep hdep] at hno
      exact absurd hno (by simp)
    · exact ⟨hasSuccess_of_passesGate hf, fun _ => passesGate_of_ownsEarliest hf hfirst⟩

/-! ## Two satisfied upstreams. -/

/-- Task 1 depends on tasks 2 and 3; both have succeeded, task 2 first. -/
def twoUpstreams : World :=
  World.ofRows .mysql
    [{ id := 1, status := .enabled, cronExpr := "* * * * *", nextTriggerTime := unixEpoch },
     { id := 2, status := .enabled }, { id := 3, status := .enabled }]
    [{ taskID := 1, dependsOnTaskID := 2 }, { taskID := 1, dependsOnTaskID := 3 }]
    [{ id := 1, taskID := 2, scheduleInstanceID := "task-2-1", status := .success,
       createdAt := 10 },
     { id := 2, taskID := 3, scheduleInstanceID := "task-3-1", status := .success,
       createdAt := 20 }]
    []

def gatedTask : Task := { id := 1, status := .enabled, cronExpr := "* * * * *" }

/-- **Both upstreams have succeeded, and the gate does not pass**: task 3's success is not the
earliest. -/
theorem gate_disagrees :
    ¬ (passesGate (fun _ => {}) "" gatedTask twoUpstreams = true
        ↔ allDependenciesSatisfied (graph twoUpstreams.tasks.dependencies) gatedTask.id
            (hasSuccess twoUpstreams) = true) := by
  decide

/-- Once task 3's only success is gone, both checks refuse. -/
theorem gate_agrees_without_success : ∀ env, NoFaults env →
    (passesGate env "" gatedTask
        { twoUpstreams with instances := (twoUpstreams.instances.updateInstanceStatus
            .mysql 0 2 .failed).2 } = true
      ↔ allDependenciesSatisfied (graph twoUpstreams.tasks.dependencies) gatedTask.id
          (hasSuccess { twoUpstreams with instances :=
            (twoUpstreams.instances.updateInstanceStatus .mysql 0 2 .failed).2 }) = true) :=
  (gate_agrees_iff "" gatedTask
    { twoUpstreams with instances :=
      (twoUpstreams.instances.updateInstanceStatus .mysql 0 2 .failed).2 }).mpr
    (Or.inl ⟨3, by decide, by decide⟩)

end AiScheduler.Gate
