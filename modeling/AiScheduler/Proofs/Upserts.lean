/-
  **WHAT AN UPDATE LEAVES BEHIND**: the trigger time of the row (`trigger_kept_iff`: `buildTask`
  has filled in a NEW one before `UpdateTask` looks for the old one), and exactly the wanted edges
  (`sync_exact`).
-/
import AiScheduler.Proofs.Atomicity

namespace AiScheduler.Upserts

open Lib Gate TaskService Atomicity Prog List

variable {env : Nat → Input} {w : World}

/-! ## The trigger time. -/

def storedTrigger (w : World) (id : Int) : Option Int :=
  (w.tasks.tasks.get? id).map Task.nextTriggerTime

def LeavesTasks (op : Call) : Prop :=
  ∀ (i : Input) (w : World), (Call.exec i op w).2.tasks.tasks = w.tasks.tasks

theorem leavesTasks_task {c : TaskCall}
    (h : ∀ (b : Backend) (inp : Input) (s : TaskStore), (c.exec b inp s).2.tasks = s.tasks) :
    LeavesTasks (.task c) := by
  intro i w
  rcases exec_task_cases i w c with ⟨e, he⟩ | he
  · rw [show Call.exec i (.task c) w = _ from he]
  · rw [show Call.exec i (.task c) w = _ from he]
    exact h w.backend i w.tasks

theorem syncs_leavesTasks : Syncs LeavesTasks where
  list x := leavesTasks_task (fun _ _ _ => rfl)
  range _ _ _ := rfl
  remove x y := leavesTasks_task (fun _ _ _ => rfl)
  add x y := by
    refine leavesTasks_task ?_
    intro b _ s
    rcases s.addDependency_cases b x y with ⟨e, hadd⟩ | ⟨hadd, _⟩ <;>
      rw [show TaskCall.exec _ _ (.addDependency x y) _ = _ from hadd]

theorem wp_syncDependencies_tasks (taskID : Int) (dependsOn : List Int) (w : World) (n : Nat) :
    wp (execAt env) (syncDependencies taskID dependsOn)
      (fun _ x => x.1.tasks.tasks = w.tasks.tasks) (w, n) := by
  refine wp_of_calls ?_ (calls_syncDependencies syncs_leavesTasks taskID dependsOn) rfl
  intro op hop x hx
  exact (hop (env x.2) x.1).trans hx

theorem wp_storeUpdated_row {task current : Task}
    (hstored : w.tasks.tasks.get? task.id = some current) (dependsOn : List Int) (n : Nat) :
    wp (execAt env) (storeUpdated task dependsOn) (fun _ x =>
        ((env n).fault ≠ none ∨ NameClash w task current)
            ∧ x.1.tasks.tasks.get? task.id = some current
        ∨ ((env n).fault = none ∧ ¬ NameClash w task current) ∧ x.1.tasks.tasks.get? task.id
                = some (updatedTask w.backend (env n).now task current)) (w, n) := by
  unfold storeUpdated
  cases hf : (env n).fault with
  | some text =>
    rw [AiScheduler.updateTask, wp_ask_bind]
    simp only [Call.exec, hf]
    exact .inl ⟨.inl (by simp), hstored⟩
  | none =>
  rw [wp_task_bind_of_free hf]
  by_cases hclash : NameClash w task current
  · rw [show TaskCall.exec _ _ (.updateTask task) _ = _ from updateTask_of_clash hstored hclash _]
    exact .inl ⟨.inr hclash, hstored⟩
  rw [show TaskCall.exec _ _ (.updateTask task) _ = _ from updateTask_of_free hstored hclash _]
  dsimp only
  rw [wp_bind]
  refine (wp_syncDependencies_tasks _ dependsOn _ (n + 1)).mono ?_
  intro r x hx
  have hrow : x.1.tasks.tasks.get? task.id
      = some (updatedTask w.backend (env n).now task current) := by
    rw [hx]
    exact get?_write_of_stored hstored (env n).now
  cases r with
  | error e | ok u => exact .inr ⟨⟨rfl, hclash⟩, hrow⟩

/-- `UpdateTask` writes the row: it is not refused, and its first and third call succeed. -/
structure Rewrites (w : World) (tenant id : Int) (req : TaskUpsertRequest) (env : Nat → Input)
    (current : Task) : Prop where
  loads : (env 0).fault = none
  writes : (env 2).fault = none
  updates : Updates w tenant id req env current

theorem wp_updateTask_trigger (tenant id : Int) {req : TaskUpsertRequest} {current : Task}
    (hstored : w.tasks.tasks.get? id = some current) (htime : req.nextTriggerTime = 0)
    (hcron : req.cronExpr = current.cronExpr) :
    wp (execAt env) (TaskService.updateTask tenant id req)
      (fun _ x => storedTrigger x.1 id = some current.nextTriggerTime
        ↔ (Rewrites w tenant id req env current → current.cronExpr ≠ "" →
            ∀ next, Cron.nextAfter (env 1).now current.cronExpr = .ok next →
              next = 0 ∨ next = current.nextTriggerTime)) (w, 0) := by
  have hbefore : storedTrigger w id = some current.nextTriggerTime := by
    unfold storedTrigger
    rw [hstored]
    rfl
  apply wp_updateTask_of_prepared
  · intro hnot _ _
    refine ⟨?_, fun _ => hbefore⟩
    intro _ hrewrites
    obtain ⟨next, time, hprepared⟩ := hrewrites.updates.prepared hrewrites.loads
    exact absurd hprepared (hnot current next time 2)
  intro t built time k h
  have ht : t = current := Option.some.inj (h.stored.symm.trans hstored)
  subst ht
  refine (wp_storeUpdated_row h.stored req.dependsOn k).mono ?_
  rintro r x (⟨hrefused, hrow⟩ | ⟨⟨hfree, hclear⟩, hrow⟩)
  · -- not written: then the request was refused, or there is no expression
    refine iff_of_true
      (by unfold storedTrigger; rw [show x.1.tasks.tasks.get? id = _ from hrow]; rfl) ?_
    intro hrewrites hne next _
    rcases hrefused with hfault | ⟨hmysql, hchanged, t', ht', hother, htaken⟩
    · rw [h.third htime (by rw [hcron]; exact hne) hcron] at hfault
      exact absurd hrewrites.writes hfault
    · exact absurd htaken (hrewrites.updates.free hmysql hchanged t' ht' hother)
  · have hafter : storedTrigger x.1 id = some time := by
      unfold storedTrigger
      rw [show x.1.tasks.tasks.get? id = _ from hrow, Option.map_some, updatedTask_nextTriggerTime]
      rfl
    rw [hafter, Option.some.injEq]
    by_cases hne : t.cronExpr = ""
    · -- without an expression nothing is built, and the old time is kept
      have hzero : built = 0 := (h.valid.given (.inl (hcron.trans hne))).trans htime
      exact iff_of_true (h.kept hzero hcron) (fun _ hcontra => absurd hne hcontra)
    have hcomputed := h.valid.computed (by rw [hcron]; simp [hne, htime])
    rw [hcron] at hcomputed
    have hrewrites : Rewrites w tenant id req env t := by
      have hcall := h.third htime (by rw [hcron]; exact hne) hcron
      rw [hcall] at hfree
      refine ⟨h.loaded, hfree, h.positive, h.stored, h.owned, ⟨built, h.valid, h.computed⟩, ?_⟩
      intro hmysql hchanged t' ht' hother htaken
      exact hclear ⟨hmysql, hchanged, t', ht', hother, htaken⟩
    constructor
    · intro hsame _ _ next hnext
      rw [hcomputed, Except.ok.injEq] at hnext
      rw [← hnext]
      by_cases hz : built = 0
      · exact .inl hz
      · exact .inr ((h.built hz).symm.trans hsame)
    · intro hcond
      by_cases hz : built = 0
      · exact h.kept hz hcron
      · rw [h.built hz]
        exact (hcond hrewrites hne built hcomputed).resolve_left hz

/-- **AN UPDATE KEEPS THE TRIGGER TIME IT DOES NOT SPEAK OF IF AND ONLY IF** it does not write,
there is no cron expression, or the next occurrence is the stored time. -/
theorem trigger_kept_iff (tenant id : Int) {req : TaskUpsertRequest} {current : Task}
    (hstored : w.tasks.tasks.get? id = some current) (htime : req.nextTriggerTime = 0)
    (hcron : req.cronExpr = current.cronExpr) :
    storedTrigger (serve w { tenant, op := .updateTask id req, env }).2 id = storedTrigger w id
      ↔ (Rewrites w tenant id req env current → current.cronExpr ≠ "" →
          ∀ next, Cron.nextAfter (env 1).now current.cronExpr = .ok next →
            next = 0 ∨ next = current.nextTriggerTime) := by
  have hserve : (serve w { tenant, op := .updateTask id req, env }).2
      = (Prog.run (execAt env) (TaskService.updateTask tenant id req) (w, 0)).2.1 := by
    show (Prog.run (execAt env) (reply .task (TaskService.updateTask tenant id req)) (w, 0)).2.1 = _
    unfold reply
    rw [Prog.run_bind]
    rfl
  have hbefore : storedTrigger w id = some current.nextTriggerTime := by
    unfold storedTrigger
    rw [hstored]
    rfl
  rw [hserve, hbefore]
  exact wp_updateTask_trigger tenant id hstored htime hcron

/-- A task that runs every minute, next at `next`. -/
def everyMinute (next : Int) : World :=
  World.ofRows .teststore
    [{ id := 1, name := "poll", type := "shell", status := .enabled, cronExpr := "* * * * *",
       nextTriggerTime := next }] [] [] []

def newPayload : TaskUpsertRequest :=
  { name := "poll", type := "shell", cronExpr := "* * * * *", payload := "v2" }

def atTen (_ : Nat) : Input := { now := 10 * minute }

theorem next_minute_kept :
    storedTrigger (serve (everyMinute (11 * minute))
        { tenant := 0, op := .updateTask 1 newPayload, env := atTen }).2 1
      = storedTrigger (everyMinute (11 * minute)) 1 := by
  refine (trigger_kept_iff 0 1 rfl rfl rfl).mpr ?_
  intro _ _ next hnext
  right
  have hminute : Cron.nextAfter (atTen 1).now "* * * * *" = .ok (11 * minute) := by decide
  exact (Except.ok.inj (hminute.symm.trans hnext)).symm

/-- **Triggered by hand and updated before the next scan**: the run is lost. -/
theorem manual_trigger_lost :
    storedTrigger (serve (everyMinute (11 * minute))
        { tenant := 0, op := .triggerTask 1, env := atTen }).2 1 = some (10 * minute - second)
      ∧ storedTrigger (serve (serve (everyMinute (11 * minute))
          { tenant := 0, op := .triggerTask 1, env := atTen }).2
          { tenant := 0, op := .updateTask 1 newPayload, env := atTen }).2 1
        = some (11 * minute) := by
  decide

/-! ## The edges. -/

def edge (taskID dep : Int) : TaskDependency := { taskID, dependsOnTaskID := dep }

def withEdges (w : World) (edges : List TaskDependency) : World :=
  { w with tasks := { w.tasks with dependencies := edges } }

theorem wp_removeDeps_exact (taskID : Int) : ∀ (ids : List Int) (w : World) (n : Nat),
    wp (execAt env) (removeDeps taskID ids)
      (fun r x => r = .ok () → x.1 = withEdges w (w.tasks.dependencies.filter
        (fun d => ¬ (d.taskID = taskID ∧ d.dependsOnTaskID ∈ ids)))) (w, n) := by
  intro ids
  induction ids with
  | nil =>
    intro w n _
    show w = withEdges w _
    unfold withEdges
    simp
  | cons id ids ih =>
  intro w n
  unfold removeDeps
  rcases exec_task_cases (env n) w (.removeDependency taskID id) with ⟨e, he⟩ | he
  · exact wp_ask_of_exec he (fun h => absurd h (by simp))
  refine wp_ask_of_exec he ((ih _ (n + 1)).mono ?_)
  intro r x hx hr
  rw [hx hr]
  show withEdges w ((w.tasks.dependencies.filter _).filter _) = _
  rw [filter_filter]
  congr 1
  apply filter_congr
  intro d _
  rw [Bool.eq_iff_iff]
  simp only [Bool.and_eq_true, decide_eq_true_eq, mem_cons]
  tauto

theorem wp_addDeps_exact (taskID : Int) : ∀ (ids : List Int) (w : World) (n : Nat),
    wp (execAt env) (addDeps taskID ids) (fun r x => r = .ok () →
        x.1 = withEdges w (w.tasks.dependencies ++ ids.map (edge taskID))) (w, n) := by
  intro ids
  induction ids with
  | nil =>
    intro w n _
    show w = withEdges w _
    unfold withEdges
    simp
  | cons id ids ih =>
  intro w n
  unfold addDeps
  rcases exec_task_cases (env n) w (.addDependency taskID id) with ⟨e, he⟩ | he
  · exact wp_ask_of_exec he (fun h => absurd h (by simp))
  refine wp_ask_of_exec he ?_
  rcases w.tasks.addDependency_cases w.backend taskID id with ⟨e, hadd⟩ | ⟨hadd, _⟩
  · rw [show TaskCall.exec _ _ (.addDependency taskID id) _ = _ from hadd]
    exact fun h => absurd h (by simp)
  rw [show TaskCall.exec _ _ (.addDependency taskID id) _ = _ from hadd]
  refine (ih _ (n + 1)).mono ?_
  intro r x hx hr
  rw [hx hr]
  show withEdges w (w.tasks.dependencies ++ [edge taskID id] ++ ids.map (edge taskID)) = _
  rw [append_assoc]
  rfl

/-- What `syncDependencies` removes and adds, in the orders it meets them. -/
def Synced (s : TaskStore) (taskID : Int) (dependsOn : List Int) (edges : List TaskDependency) :
    Prop :=
  ∃ stale added : List Int,
    edges = s.dependencies.filter (fun d => ¬ (d.taskID = taskID ∧ d.dependsOnTaskID ∈ stale))
        ++ added.map (edge taskID)
      ∧ (∀ dep, dep ∈ stale ↔ dep ∈ s.listUpstreamDeps taskID ∧ dep ∉ dependsOn)
      ∧ added.Nodup ∧ (∀ dep, dep ∈ added ↔ dep ∈ dependsOn ∧ dep ∉ s.listUpstreamDeps taskID)

/-- **`syncDependencies`**, if it succeeds, has removed the edges that are not wanted and added the
missing ones. -/
theorem wp_syncDependencies_exact (taskID : Int) (dependsOn : List Int) (w : World) (n : Nat) :
    wp (execAt env) (syncDependencies taskID dependsOn)
      (fun r x => r = .ok () → ∃ edges, x.1 = withEdges w edges
        ∧ Synced w.tasks taskID dependsOn edges) (w, n) := by
  unfold syncDependencies
  rcases exec_task_cases (env n) w (.listUpstreamDeps taskID) with ⟨e, he⟩ | he
  · exact wp_ask_of_exec he (fun h => absurd h (by simp))
  refine wp_ask_of_exec he ?_
  show wp (execAt env) (rangeOrder ((env n).shuffle (w.tasks.listUpstreamDeps taskID)).dedup >>= _)
    _ (w, n + 1)
  rw [wp_ask_bind, wp_bind]
  refine (wp_removeDeps_exact taskID _ w (n + 1 + 1)).mono ?_
  intro r x hx
  cases r with
  | error e => exact fun h => absurd h (by simp)
  | ok u =>
  obtain ⟨w₁, n₁⟩ := x
  have hw₁ := hx rfl
  dsimp only at hw₁ ⊢
  rw [wp_ask_bind]
  refine (wp_addDeps_exact taskID _ w₁ (n₁ + 1)).mono ?_
  intro r x hx hr
  -- the two maps are ranged over in any order
  have hwanted := (env n₁).shuffle_perm dependsOn.dedup
  refine ⟨_, hx hr |>.trans (by rw [hw₁]; rfl),
    ((env (n + 1)).shuffle ((env n).shuffle (w.tasks.listUpstreamDeps taskID)).dedup).filter
      (fun id => id ∉ dependsOn),
    ((env n₁).shuffle dependsOn.dedup).filter
      (fun id => id ∉ (env n).shuffle (w.tasks.listUpstreamDeps taskID)), rfl, ?_, ?_, ?_⟩
  · intro dep
    rw [mem_filter, decide_eq_true_iff, Input.mem_shuffle, mem_dedup, Input.mem_shuffle]
  · exact (hwanted.nodup_iff.mpr (nodup_dedup _)).filter _
  · intro dep
    rw [mem_filter, decide_eq_true_iff, hwanted.mem_iff, mem_dedup, Input.mem_shuffle]

section Edges

variable {s : TaskStore} {taskID : Int} {dependsOn : List Int} {edges : List TaskDependency}

theorem nodup_upstream {deps : List TaskDependency} (hnodup : deps.Nodup) (taskID : Int) :
    ((deps.filter (fun d => d.taskID = taskID)).map TaskDependency.dependsOnTaskID).Nodup := by
  apply Nodup.map_on _ (hnodup.filter _)
  intro a ha b hb heq
  have ha : a.taskID = taskID := of_decide_eq_true (mem_filter.mp ha).2
  have hb : b.taskID = taskID := of_decide_eq_true (mem_filter.mp hb).2
  cases a
  cases b
  simp_all

theorem Synced.upstream (h : Synced s taskID dependsOn edges) (hnodup : s.dependencies.Nodup) :
    ((edges.filter (fun d => d.taskID = taskID)).map TaskDependency.dependsOnTaskID).Perm
      dependsOn.dedup := by
  obtain ⟨stale, added, rfl, hstale, hadded, hmem⟩ := h
  have hnew : ((added.map (edge taskID)).filter (fun d => d.taskID = taskID)).map
      TaskDependency.dependsOnTaskID = added := by
    rw [filter_eq_self.mpr (by simp [edge]), map_map]
    exact map_id added
  have hin : ∀ dep, dep ∈ ((s.dependencies.filter (fun d =>
        ¬ (d.taskID = taskID ∧ d.dependsOnTaskID ∈ stale))).filter
          (fun d => d.taskID = taskID)).map TaskDependency.dependsOnTaskID
      ↔ dep ∈ s.listUpstreamDeps taskID ∧ dep ∈ dependsOn := by
    intro dep
    rw [TaskStore.mem_listUpstreamDeps, mem_map]
    constructor
    · intro h
      obtain ⟨d, hd, rfl⟩ := h
      obtain ⟨hd, htask⟩ := mem_filter.mp hd
      obtain ⟨hd, hnot⟩ := mem_filter.mp hd
      have htask : d.taskID = taskID := of_decide_eq_true htask
      have hnot := of_decide_eq_true hnot
      have hedge : (⟨taskID, d.dependsOnTaskID⟩ : TaskDependency) ∈ s.dependencies := by
        rw [← htask]
        exact hd
      refine ⟨hedge, ?_⟩
      by_contra hunwanted
      exact hnot ⟨htask, (hstale _).mpr ⟨TaskStore.mem_listUpstreamDeps.mpr hedge, hunwanted⟩⟩
    · intro h
      obtain ⟨hedge, hwanted⟩ := h
      refine ⟨⟨taskID, dep⟩, ?_, rfl⟩
      rw [mem_filter, mem_filter]
      refine ⟨⟨hedge, ?_⟩, decide_eq_true rfl⟩
      rw [decide_eq_true_iff]
      exact fun hstuck => ((hstale dep).mp hstuck.2).2 hwanted
  rw [filter_append, map_append, hnew, perm_ext_iff_of_nodup ?_ (nodup_dedup _)]
  · intro dep
    rw [mem_append, hin, hmem, mem_dedup]
    tauto
  rw [nodup_append]
  refine ⟨nodup_upstream (hnodup.filter _) taskID, hadded, ?_⟩
  intro a ha b hb hab
  rw [hab] at ha
  exact ((hmem b).mp hb).2 ((hin b).mp ha).1

theorem Synced.others (h : Synced s taskID dependsOn edges) :
    edges.filter (fun d => d.taskID ≠ taskID)
      = s.dependencies.filter (fun d => d.taskID ≠ taskID) := by
  obtain ⟨stale, added, rfl, _, _, _⟩ := h
  have hnew : (added.map (edge taskID)).filter (fun d => d.taskID ≠ taskID) = [] := by
    rw [filter_eq_nil_iff]
    simp [edge]
  rw [filter_append, hnew, append_nil, filter_filter]
  apply filter_congr
  intro d _
  rw [Bool.eq_iff_iff]
  simp only [Bool.and_eq_true, decide_eq_true_eq]
  tauto

end Edges

/-- A call that reads the edges of the task, or ranges over a map. -/
def ReadsEdges (taskID : Int) (op : Call) : Prop :=
  op = .task (.listUpstreamDeps taskID) ∨ ∃ keys, op = .memory (.rangeOrder keys)

/-- **When the edges are the wanted ones, `syncDependencies` only reads.** -/
theorem wpLog_sync_settled {taskID : Int} {dependsOn : List Int} {w : World}
    (hsettled : ∀ dep, dep ∈ w.tasks.listUpstreamDeps taskID ↔ dep ∈ dependsOn) (n : Nat) :
    wpLog (execAt env) (syncDependencies taskID dependsOn)
      (fun _ log x => x.1 = w ∧ ∀ e ∈ log, ReadsEdges taskID e.1) (w, n) := by
  unfold syncDependencies
  apply wpLog_task_bind
  · intro _ e
    exact ⟨rfl, by simp [ReadsEdges]⟩
  intro ans s hexec
  have hans : ans = .ok ((env n).shuffle (w.tasks.listUpstreamDeps taskID)) :=
    (congrArg Prod.fst hexec).symm
  have hs : s = w.tasks := (congrArg Prod.snd hexec).symm
  subst hans hs
  -- neither loop has anything to do
  have hstale : ((env (n + 1)).shuffle ((env n).shuffle
      (w.tasks.listUpstreamDeps taskID)).dedup).filter (fun id => id ∉ dependsOn) = [] := by
    rw [filter_eq_nil_iff]
    intro id hid
    rw [Input.mem_shuffle, mem_dedup, Input.mem_shuffle, hsettled] at hid
    simp [hid]
  have hadded : ((env (n + 1 + 1)).shuffle dependsOn.dedup).filter
      (fun id => id ∉ (env n).shuffle (w.tasks.listUpstreamDeps taskID)) = [] := by
    rw [filter_eq_nil_iff]
    intro id hid
    rw [Input.mem_shuffle, mem_dedup, ← hsettled] at hid
    simp [hid]
  refine wpLog_ask_bind (c := .memory (.rangeOrder _)) rfl ?_
  show wpLog (execAt env) (removeDeps taskID (((env (n + 1)).shuffle _).filter _) >>= _) _
    (w, n + 1 + 1)
  rw [hstale]
  show wpLog (execAt env) (rangeOrder dependsOn.dedup >>= _) _ (w, n + 1 + 1)
  refine wpLog_ask_bind (c := .memory (.rangeOrder _)) rfl ?_
  show wpLog (execAt env) (addDeps taskID (((env (n + 1 + 1)).shuffle _).filter _)) _
    (w, n + 1 + 1 + 1)
  rw [hadded]
  refine ⟨rfl, ?_⟩
  intro e he
  simp only [mem_cons] at he
  rcases he with rfl | rfl | rfl | he
  · exact .inl rfl
  · exact .inr ⟨_, rfl⟩
  · exact .inr ⟨_, rfl⟩
  · simp [addDeps] at he

/-- **`syncDependencies`, characterised**: the upstream edges of a stored task become the listed
known ids, each once, all else is as before, and a second call writes nothing. -/
theorem sync_exact {env : Nat → Input} {w : World} (hedges : w.tasks.dependencies.Nodup)
    (taskID : Int) (dependsOn : List Int) (n : Nat) :
    let out := Prog.run (execAt env) (syncDependencies taskID dependsOn) (w, n)
    (NoFaults env → (w.tasks.tasks.get? taskID).isSome →
        (∀ dep ∈ dependsOn, (w.tasks.tasks.get? dep).isSome) → out.1 = .ok ())
      ∧ (out.1 = .ok () → (out.2.1.tasks.listUpstreamDeps taskID).Perm dependsOn.dedup
          ∧ out.2.1.tasks.dependencies.filter (fun d => d.taskID ≠ taskID)
              = w.tasks.dependencies.filter (fun d => d.taskID ≠ taskID)
          ∧ out.2.1.tasks.tasks = w.tasks.tasks
          ∧ out.2.1.instances = w.instances ∧ out.2.1.workers = w.workers
          ∧ ∀ (env' : Nat → Input) (m : Nat),
              (Prog.run (execAt env') (syncDependencies taskID dependsOn) (out.2.1, m)).2.1
                  = out.2.1
              ∧ ∀ e ∈ Prog.events (execAt env') (syncDependencies taskID dependsOn) (out.2.1, m),
                  ReadsEdges taskID e.1) := by
  intro out
  constructor
  · intro hno htask hknown
    obtain ⟨_, hok⟩ := wp_syncDependencies_iff hno dependsOn htask n
    exact hok.mpr (fun dep hdep => .inr (.inr (hknown dep hdep)))
  · intro hok
    obtain ⟨edges, hworld, hsynced⟩ := wp_syncDependencies_exact taskID dependsOn w n hok
    have hout : out.2.1 = withEdges w edges := hworld
    have hperm : ((withEdges w edges).tasks.listUpstreamDeps taskID).Perm dependsOn.dedup :=
      hsynced.upstream hedges
    rw [hout]
    refine ⟨hperm, hsynced.others, rfl, rfl, rfl, ?_⟩
    intro env' m
    refine wpLog_sync_settled ?_ m
    intro dep
    rw [hperm.mem_iff, List.mem_dedup]

/-- Task 1 waits for task 4; so does task 2. -/
def fourTasks : World :=
  World.ofRows .teststore
    [{ id := 1, name := "report" }, { id := 2, name := "clean" }, { id := 3, name := "join" },
     { id := 4, name := "load" }]
    [{ taskID := 1, dependsOnTaskID := 4 }, { taskID := 2, dependsOnTaskID := 4 }] [] []

theorem repeated_ids_synced :
    let out := Prog.run (execAt atTen) (syncDependencies 1 [2, 3, 2]) (fourTasks, 0)
    (out.2.1.tasks.listUpstreamDeps 1).Perm [3, 2]
      ∧ out.2.1.tasks.dependencies.filter (fun d => d.taskID ≠ 1) = [edge 2 4]
      ∧ ∀ e ∈ Prog.events (execAt atTen) (syncDependencies 1 [2, 3, 2]) (out.2.1, 0),
          ReadsEdges 1 e.1 := by
  intro out
  obtain ⟨hsucceeds, hleaves⟩ :=
    @sync_exact atTen fourTasks (by decide) 1 [2, 3, 2] 0
  have hok : out.1 = .ok () := hsucceeds (fun _ => rfl) rfl (by decide)
  obtain ⟨hperm, hothers, _, _, _, hagain⟩ := hleaves hok
  exact ⟨hperm, hothers, (hagain atTen 0).2⟩

end AiScheduler.Upserts
