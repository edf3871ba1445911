/-
  **ONE SCAN OF THE RETRY LOOP, and the instance nobody can take.**

  The loop tries the due instances in order. Without an available worker for one of them it does
  not go on to the next: it RETURNS, although "no worker" is about the labels of that one task
  (`scan_attempts_iff`).
-/
import AiScheduler.Lib.Wp
import AiScheduler.Proofs.WorkerRows

namespace AiScheduler.HeadOfLine

open Lib Gate WorkerRows Parts Prog Router

variable {env : Nat → Input} {url : String}

/-! ## One pass of the loop. -/

/-- One pass of the loop, and whether the loop goes on after it. -/
def tryInstance (url : String) (inst : TaskInstance) : Program Bool := do
  match ← getTask inst.taskID with
  | .error _ => return true
  | .ok task =>
    match ← Router.pick (TriggerLoop.selectOptions task) with
    | .error e => return decide (e ≠ .noAvailableWorker)
    | .ok worker => do
      RetryLoop.dispatchRetry url task inst worker
      return true

theorem retryInstances_cons (url : String) (inst : TaskInstance) (insts : List TaskInstance) :
    RetryLoop.retryInstances url (inst :: insts) = tryInstance url inst >>= fun goOn =>
          if goOn then RetryLoop.retryInstances url insts else pure () := by
  refine congrArg (call (S := System) (.task (.getTask inst.taskID))) (funext fun ans => ?_)
  cases ans with
  | error e => rfl
  | ok task =>
  show (pick (TriggerLoop.selectOptions task) >>= _)
    = Prog.bind (pick (TriggerLoop.selectOptions task) >>= _) _
  rw [show ∀ (p : Program Bool) (f : Bool → Program Unit), Prog.bind p f = (p >>= f) from
    fun _ _ => rfl, bind_assoc]
  congr 1
  funext r
  cases r with
  | error e =>
    show (if e = .noAvailableWorker then _ else _)
      = if decide (e ≠ .noAvailableWorker) then _ else _
    by_cases he : e = .noAvailableWorker
    · rw [if_pos he, he]
      rfl
    · rw [if_neg he, if_pos (decide_eq_true he)]
  | ok worker =>
    show (RetryLoop.dispatchRetry url task inst worker >>= _)
      = ((RetryLoop.dispatchRetry url task inst worker >>= _) >>= _)
    rw [bind_assoc]
    rfl

/-- The task of the instance exists and some worker can take it. -/
def CanRun (w : World) (inst : TaskInstance) : Prop :=
  ∃ row, w.tasks.tasks.get? inst.taskID = some row ∧ ∃ x ∈ w.workers.rows,
        Router.Eligible (TriggerLoop.selectOptions (readTask w.backend row)) x

/-- The task of the instance exists and no worker can take it. -/
def NobodyTakes (w : World) (inst : TaskInstance) : Prop :=
  ∃ row, w.tasks.tasks.get? inst.taskID = some row ∧ ∀ x ∈ w.workers.rows,
        ¬ Router.Eligible (TriggerLoop.selectOptions (readTask w.backend row)) x

/-- The instance was marked dispatched on a worker and sent there. -/
def Attempted (url : String) (inst : TaskInstance) (log : List (Event System)) : Prop :=
  ∃ (task : Task) (worker : WorkerNode) (time : Int) (sent : Except Err Unit),
    [⟨.inst (.updateInstanceDispatch inst.id worker.id time), .ok ()⟩,
      ⟨.node (.dispatch worker (RetryLoop.retryRequest url task inst)), sent⟩] <:+: log

theorem chosen_eq_none_iff_nobody {scan : Scan WorkerNode} {w : World} {opts : SelectOptions} :
    chosen scan w opts = none ↔ ∀ x ∈ w.workers.rows, ¬ Eligible opts x := by
  rw [chosen_eq_none_iff, List.eq_nil_iff_forall_not_mem]
  constructor
  · intro h x hx hel
    exact h x (mem_eligible.mpr ⟨hx, hel⟩)
  · intro h x hx
    exact h x (mem_eligible.mp hx).1 (mem_eligible.mp hx).2

theorem Attempted.mono {inst : TaskInstance} {log log' : List (Event System)}
    (h : Attempted url inst log) (hlog : log <:+: log') :
    Attempted url inst log' := by
  obtain ⟨task, worker, time, sent, hin⟩ := h
  exact ⟨task, worker, time, sent, hin.trans hlog⟩

theorem attempted_dispatchRetry (url : String) (hno : NoFaults env) {w : World}
    {inst : TaskInstance}
    (hstored : (w.instances.instances.get? inst.id).isSome) (task : Task) (worker : WorkerNode)
    (n : Nat) :
    Attempted url inst
      (events (execAt env) (RetryLoop.dispatchRetry url task inst worker) (w, n)) := by
  obtain ⟨row, hrow⟩ := Option.isSome_iff_exists.mp hstored
  have hmark : (execAt env (.inst (.updateInstanceDispatch inst.id worker.id (env n).now))
      (w, n + 1)).1 = .ok () := by
    rw [execAt_eq (exec_inst w (hno (n + 1)) _)]
    exact congrArg Prod.fst (InstanceStore.updateByID_of_get? hrow
      (setDispatch (env (n + 1)).now worker.id (env n).now) (fun _ => rfl))
  unfold RetryLoop.dispatchRetry
  simp only [ask_bind, events_call]
  rw [show (execAt env (.memory .now) (w, n)) = ((env n).now, (w, n + 1)) from rfl]
  simp only [hmark]
  exact ⟨task, worker, (env n).now, _, [⟨.memory .now, (env n).now⟩], _, rfl⟩

/-- **One pass**: the task is missing, or nobody can take the instance, or it is sent. -/
theorem run_tryInstance (url : String) (hno : NoFaults env) (w : World)
    (inst : TaskInstance) (n : Nat) :
    ((run (execAt env) (tryInstance url inst) (w, n)).1 = false ↔ NobodyTakes w inst)
      ∧ (CanRun w inst → (w.instances.instances.get? inst.id).isSome → Attempted url inst
            (events (execAt env) (tryInstance url inst) (w, n))) := by
  have hget : execAt env (.task (.getTask inst.taskID)) (w, n)
      = (w.tasks.getTask w.backend inst.taskID, (w, n + 1)) :=
    execAt_eq (exec_task w (hno n) _)
  unfold tryInstance
  simp only [ask_bind, run_call, events_call, hget]
  cases hrow : w.tasks.tasks.get? inst.taskID with
  | none =>
    -- no task: the loop goes on
    have herr : ∃ e, w.tasks.getTask w.backend inst.taskID = .error e := by
      unfold TaskStore.getTask
      rw [hrow]
      cases w.backend with
      | mysql | teststore => exact ⟨_, rfl⟩
    obtain ⟨e, he⟩ := herr
    rw [he]
    refine ⟨⟨fun h => absurd h (by simp), ?_⟩, ?_⟩
    · intro h
      obtain ⟨row, hsome, _⟩ := h
      rw [hrow] at hsome
      cases hsome
    intro h
    obtain ⟨row, hsome, _⟩ := h
    rw [hrow] at hsome
    cases hsome
  | some row =>
    have hok : w.tasks.getTask w.backend inst.taskID = .ok (readTask w.backend row) := by
      unfold TaskStore.getTask
      rw [hrow]
    have honly : ∀ row', w.tasks.tasks.get? inst.taskID = some row' → row' = row := by
      intro row' h
      rw [hrow] at h
      exact (Option.some.inj h).symm
    rw [hok]
    simp only
    rw [run_bind, events_bind]
    rcases run_pick hno (TriggerLoop.selectOptions (readTask w.backend row)) w (n + 1) with
      ⟨hnone, hrun⟩ | ⟨x, m, hsome, hrun⟩
    · -- nobody can take it
      have hnobody := chosen_eq_none_iff_nobody.mp hnone
      rw [hrun]
      refine ⟨⟨fun _ => ⟨row, hrow, hnobody⟩, fun _ => rfl⟩, ?_⟩
      intro h
      obtain ⟨row', hrow', x, hx, hel⟩ := h
      rw [honly row' hrow'] at hel
      exact absurd hel (hnobody x hx)
    rw [hrun]
    simp only
    rw [run_bind, events_bind]
    refine ⟨⟨fun h => absurd h (by simp), ?_⟩, ?_⟩
    · intro h
      obtain ⟨row', hrow', hnobody⟩ := h
      rw [honly row' hrow', ← chosen_eq_none_iff_nobody, hsome] at hnobody
      cases hnobody
    intro _ hstored
    have hsent := attempted_dispatchRetry url hno
      (w := picked (TriggerLoop.selectOptions (readTask w.backend row)) (env m).now w x)
      hstored (readTask w.backend row) (reserved x) (m + 1)
    exact hsent.mono ((List.prefix_append _ _).isInfix.trans
      ((List.suffix_append _ _).isInfix.trans (List.suffix_cons _ _).isInfix))

theorem calls_tryInstance {url : String} {inst : TaskInstance} :
    Calls (IsRetrying (fun id => id = inst.id)) (tryInstance url inst) := by
  refine calls_perform_bind (.getTask inst.taskID) ?_
  intro ans
  cases ans with
  | error e => trivial
  | ok task =>
  refine calls_bind ((calls_pick _).mono (fun _ h => .routing h)) ?_
  intro r
  cases r with
  | error e => trivial
  | ok worker =>
    refine calls_bind ?_ (fun _ => trivial)
    rw [retryLoop_dispatchRetry]
    exact calls_bind (calls_sendRetry (P := fun id => id = inst.id) _ rfl worker) (fun _ => trivial)

theorem stored_of_isRetrying {P : Int → Prop} {op : Call} (hop : IsRetrying P op) {id : Int}
    (s : World × Nat) (hs : (s.1.instances.instances.get? id).isSome) :
    ((execAt env op s).2.1.instances.instances.get? id).isSome := by
  have hrewrite : ∀ (p : TaskInstance → Bool) (f : TaskInstance → TaskInstance)
      (hf : ∀ i, (f i).id = i.id),
      ((s.1.instances.rewrite p f hf).instances.get? id).isSome := by
    intro p f hf
    rw [InstanceStore.get?_rewrite, Option.isSome_map]
    exact hs
  have hframe : (∀ c, op ≠ .inst c) →
      ((execAt env op s).2.1.instances.instances.get? id).isSome := by
    intro h
    rw [show (execAt env op s).2.1.instances = s.1.instances from exec_instances (env s.2) s.1 h]
    exact hs
  -- the two writes rewrite rows
  have hwrite : ∀ c : InstanceCall, (∃ id' f hf, (c.exec s.1.backend (env s.2) s.1.instances).2
          = (s.1.instances.updateByID s.1.backend id' f hf).2) →
      ((execAt env (.inst c) s).2.1.instances.instances.get? id).isSome := by
    intro c h
    obtain ⟨id', f, hf, heq⟩ := h
    rcases exec_inst_cases (env s.2) s.1 c with ⟨e, he⟩ | he
    · rw [show (execAt env (.inst c) s).2.1 = (execCall (env s.2) (.inst c) s.1).2 from rfl, he]
      exact hs
    rw [show (execAt env (.inst c) s).2.1 = (execCall (env s.2) (.inst c) s.1).2 from rfl, he]
    show (((c.exec s.1.backend (env s.2) s.1.instances).2).instances.get? id).isSome
    rw [heq]
    rcases s.1.instances.updateByID_cases s.1.backend id' f hf with ⟨e, hu⟩ | hu
    · rw [hu]
      exact hs
    · rw [hu]
      exact hrewrite _ _ _
  cases hop with
  | now | getTask _ => exact hframe (by simp)
  | routing h =>
    apply hframe
    intro c hc
    subst hc
    exact h.elim
  | updateDispatch _ workerID time => exact hwrite _ ⟨_, _, _, rfl⟩
  | dispatch _ _ => exact hframe (by simp)
  | retryWaiting _ => exact hwrite _ ⟨_, _, _, rfl⟩

theorem stored_tryInstance (url : String) (inst : TaskInstance) {id : Int}
    (s : World × Nat) (hs : (s.1.instances.instances.get? id).isSome) :
    ((run (execAt env) (tryInstance url inst) s).2.1.instances.instances.get? id).isSome := by
  have hkeeps : Keeps (execAt env) (fun s => (s.1.instances.instances.get? id).isSome = true)
      (tryInstance url inst) :=
    keeps_of_calls (fun _ hop s => stored_of_isRetrying hop s) calls_tryInstance
  exact hkeeps s hs

/-! ## The loop. -/

def afterTurns (env : Nat → Input) (url : String) (s : World × Nat) :
    List TaskInstance → World × Nat
  | [] => s
  | inst :: insts =>
    afterTurns env url (Prog.run (execAt env) (tryInstance url inst) s).2 insts

/-- **An instance with nobody stuck before it is attempted.** -/
theorem attempted_of_clear (hno : NoFaults env) : ∀ (insts : List TaskInstance) (s : World × Nat)
    (k : Nat) (inst : TaskInstance), insts[k]? = some inst →
    (∀ i ∈ insts, (s.1.instances.instances.get? i.id).isSome) →
    (∀ j i, j < k → insts[j]? = some i → ¬ NobodyTakes (afterTurns env url s (insts.take j)).1 i) →
    CanRun (afterTurns env url s (insts.take k)).1 inst →
    Attempted url inst (events (execAt env) (RetryLoop.retryInstances url insts) s) := by
  intro insts
  induction insts with
  | nil =>
    intro s k inst hk
    cases hk
  | cons i insts ih =>
  intro s k inst hk hstored hclear hcan
  obtain ⟨w, n⟩ := s
  rw [retryInstances_cons, events_bind]
  obtain ⟨hends, hattempt⟩ := run_tryInstance url hno w i n
  cases k with
  | zero =>
    -- its own turn
    have hi : i = inst := Option.some.inj hk
    subst hi
    exact (hattempt hcan (hstored i List.mem_cons_self)).mono (List.prefix_append _ _).isInfix
  | succ k =>
  have hgo : (run (execAt env) (tryInstance url i) (w, n)).1 = true := by
    rw [← Bool.not_eq_false, hends]
    exact hclear 0 i (Nat.succ_pos k) rfl
  rw [hgo, if_pos rfl]
  refine (ih (run (execAt env) (tryInstance url i) (w, n)).2 k inst hk ?_ ?_
    hcan).mono (List.suffix_append _ _).isInfix
  · intro i' hi'
    exact stored_tryInstance url i (w, n) (hstored i' (.tail _ hi'))
  · intro j i' hj hi'
    exact hclear (j + 1) i' (Nat.succ_lt_succ hj) hi'

/-- **After an instance that nobody can take no other is tried.** -/
theorem marked_before_stuck (hno : NoFaults env) : ∀ (insts : List TaskInstance) (s : World × Nat)
    (j : Nat) (i : TaskInstance), insts[j]? = some i →
    NobodyTakes (afterTurns env url s (insts.take j)).1 i →
    ∀ e ∈ events (execAt env) (RetryLoop.retryInstances url insts) s,
      ∀ id workerID time, e.1 = .inst (.updateInstanceDispatch id workerID time) →
        id ∈ (insts.take (j + 1)).map TaskInstance.id := by
  intro insts
  induction insts with
  | nil =>
    intro s j i hj
    cases hj
  | cons i₀ insts ih =>
  intro s j i hj hstuck e he id workerID time heq
  obtain ⟨w, n⟩ := s
  rw [retryInstances_cons, events_bind, List.mem_append] at he
  rw [List.take_succ_cons, List.map_cons, List.mem_cons]
  rcases he with he | he
  · -- a call of the first pass
    have hop := (calls_tryInstance).of_mem_events _ he
    rw [heq] at hop
    left
    cases hop with
    | routing h => exact h.elim
    | updateDispatch h _ _ => exact h
  right
  cases hgo : (run (execAt env) (tryInstance url i₀) (w, n)).1 with
  | false =>
    rw [hgo] at he
    cases he
  | true =>
  rw [hgo, if_pos rfl] at he
  cases j with
  | zero =>
    -- the first pass itself ends the loop
    have hi : i₀ = i := Option.some.inj hj
    subst hi
    have hends := (run_tryInstance url hno w i₀ n).1.mpr hstuck
    rw [hgo] at hends
    cases hends
  | succ j =>
    exact ih (run (execAt env) (tryInstance url i₀) (w, n)).2 j i hj hstuck
      e he id workerID time heq

/-! ## The scan. -/

theorem nodup_due (w : World) (scan : Scan TaskInstance) (now : Int) :
    ((w.instances.listDueRetryInstances w.backend scan now 100).map TaskInstance.id).Nodup := by
  unfold InstanceStore.listDueRetryInstances
  rw [List.map_map]
  have hids : TaskInstance.id ∘ readInstance w.backend = TaskInstance.id := by
    funext i
    exact readInstance_id w.backend i
  rw [hids]
  have hperm := (scan.orderBy_perm TaskInstance.createdAt
    (w.instances.instances.rows.filter (fun i => i.isRetryDue now))).map TaskInstance.id
  have hrows : ((w.instances.instances.rows.filter (fun i => i.isRetryDue now)).map
      TaskInstance.id).Nodup :=
    w.instances.instances.nodup.sublist (List.filter_sublist.map _)
  exact (hperm.nodup_iff.mpr hrows).sublist ((List.take_sublist _ _).map _)

/-- **ONE SCAN ATTEMPTS EVERY INSTANCE THAT CAN RUN if and only if** no instance that nobody can
take comes before it. -/
theorem scan_attempts_iff (hno : NoFaults env) (url : String) (w : World) :
    let due := w.instances.listDueRetryInstances w.backend (env 1).instanceScan (env 0).now 100
    let atTurn := fun k => (afterTurns env url (w, 2) (due.take k)).1
    let log := Prog.events (execAt env) (RetryLoop.scan url) (w, 0)
    (∀ k inst, due[k]? = some inst → CanRun (atTurn k) inst → Attempted url inst log)
      ↔ ∀ j k i inst, j < k → due[j]? = some i → due[k]? = some inst →
          CanRun (atTurn k) inst → ¬ NobodyTakes (atTurn j) i := by
  intro due atTurn log
  have hlist : execAt env (.inst (.listDueRetryInstances (env 0).now 100)) (w, 1)
      = (.ok due, (w, 2)) := execAt_eq (exec_inst w (hno 1) _)
  have hlog : log = [⟨.memory .now, (env 0).now⟩,
        ⟨.inst (.listDueRetryInstances (env 0).now 100), .ok due⟩]
      ++ Prog.events (execAt env) (RetryLoop.retryInstances url due) (w, 2) := by
    show Prog.events (execAt env) (RetryLoop.scan url) (w, 0) = _
    unfold RetryLoop.scan
    simp only [ask_bind, Prog.events_call]
    rw [show execAt env (.memory .now) (w, 0) = ((env 0).now, (w, 1)) from rfl, hlist]
    rfl
  have hstored : ∀ i ∈ due, (w.instances.instances.get? i.id).isSome := by
    intro i hi
    obtain ⟨r, hr, _, rfl⟩ := InstanceStore.mem_listDueRetryInstances hi
    rw [readInstance_id, Table.get?_of_mem hr]
    rfl
  constructor
  · intro hall j k i inst hjk hj hk hcan hstuck
    obtain ⟨task, worker, time, sent, hin⟩ := hall k inst hk hcan
    -- the mark of `inst` is among the calls of the loop …
    have hmem : (⟨.inst (.updateInstanceDispatch inst.id worker.id time), .ok ()⟩ : Event System)
        ∈ Prog.events (execAt env) (RetryLoop.retryInstances url due) (w, 2) := by
      have h := hin.subset List.mem_cons_self
      rw [hlog, List.mem_append] at h
      rcases h with h | h
      · simp at h
      · exact h
    -- … which ended before its turn
    have hid := marked_before_stuck hno due (w, 2) j i hj hstuck _ hmem _ _ _ rfl
    obtain ⟨i', hi', hsame⟩ := List.mem_map.mp hid
    obtain ⟨m, hm⟩ := List.mem_iff_getElem?.mp hi'
    rw [List.getElem?_take] at hm
    split at hm
    next hlt =>
      have hnodup := nodup_due w (env 1).instanceScan (env 0).now
      have hids : (due.map TaskInstance.id)[m]? = (due.map TaskInstance.id)[k]? := by
        rw [List.getElem?_map, List.getElem?_map, hm, hk, Option.map_some, Option.map_some, hsame]
      obtain ⟨hmlt, _⟩ := List.getElem?_eq_some_iff.mp hm
      have := (List.getElem?_inj (by rwa [List.length_map]) hnodup).mp hids
      omega
    next => cases hm
  · intro hclear k inst hk hcan
    rw [hlog]
    exact (attempted_of_clear hno due (w, 2) k inst hk hstored
      (fun j i hj hi => hclear j k i inst hj hi hk hcan) hcan).mono (List.suffix_append _ _).isInfix

def marks : Event System → Bool
  | ⟨.inst (.updateInstanceDispatch _ _ _), _⟩ => true
  | _ => false

/-- Two instances due for a retry and an idle worker without labels; the first task has these
labels. -/
def twoDue (labels : String) : World :=
  World.ofRows .teststore
    [{ id := 1, status := .enabled, labels := labels }, { id := 2, status := .enabled }] []
    [{ id := 1, taskID := 1, scheduleInstanceID := "a", status := .retryWaiting, createdAt := 1 },
     { id := 2, taskID := 2, scheduleInstanceID := "b", status := .retryWaiting, createdAt := 2 }]
    [{ id := "w", status := .online, maxConcurrency := 5, lastHeartbeatAt := 7 }]

def secondDue : TaskInstance :=
  { id := 2, taskID := 2, scheduleInstanceID := "b", status := .retryWaiting, createdAt := 2 }

def atHundred (_ : Nat) : Input := { now := 100 }

theorem canRun_secondDue : CanRun (afterTurns atHundred "" (twoDue "", 2)
    (((twoDue "").instances.listDueRetryInstances .teststore .stored 100 100).take 1)).1
      secondDue :=
 
  ⟨{ id := 2, status := .enabled }, by decide, by decide⟩

theorem both_attempted :
    Attempted "" secondDue (Prog.events (execAt atHundred) (RetryLoop.scan "") (twoDue "", 0)) := by
  refine (scan_attempts_iff (fun _ => rfl) "" (twoDue "")).mpr ?_ 1 secondDue (by decide)
    canRun_secondDue
  intro j k i inst hjk hj hk _ hnobody
  obtain ⟨hk, _⟩ := List.getElem?_eq_some_iff.mp hk
  have hlen : ((twoDue "").instances.listDueRetryInstances (twoDue "").backend
      (atHundred 1).instanceScan (atHundred 0).now 100).length = 2 := by decide
  -- only the first comes before another, and the worker can take it
  obtain rfl : j = 0 := by omega
  cases hj
  obtain ⟨row, hrow, hnone⟩ := hnobody
  cases hrow
  exact absurd (hnone _ List.mem_cons_self) (by decide)

/-- The first asks for a zone no worker is in: the scan ends there. -/
theorem second_not_tried :
    NobodyTakes (twoDue "\x7b\"zone\":\"far\"\x7d")
        { id := 1, taskID := 1, scheduleInstanceID := "a", status := .retryWaiting, createdAt := 1 }
      ∧ CanRun (afterTurns atHundred "" (twoDue "\x7b\"zone\":\"far\"\x7d", 2)
          (((twoDue "\x7b\"zone\":\"far\"\x7d").instances.listDueRetryInstances .teststore
            .stored 100 100).take 1)).1 secondDue
      ∧ ¬ Attempted "" secondDue (Prog.events (execAt atHundred) (RetryLoop.scan "")
            (twoDue "\x7b\"zone\":\"far\"\x7d", 0)) := by
  refine ⟨⟨{ id := 1, status := .enabled, labels := "\x7b\"zone\":\"far\"\x7d" }, by decide,
      by decide⟩,
    ⟨{ id := 2, status := .enabled }, by decide, by decide⟩, ?_⟩
  -- the scan makes four calls, none of which marks an instance
  have hcalls : ∀ e ∈ Prog.events (execAt atHundred) (RetryLoop.scan "")
      (twoDue "\x7b\"zone\":\"far\"\x7d", 0), marks e = false := by
    decide
  intro h
  obtain ⟨task, worker, time, sent, hin⟩ := h
  exact absurd (hcalls _ (hin.subset List.mem_cons_self)) (by simp [marks])

end AiScheduler.HeadOfLine
