/-
  **THE AGENT'S TOOLS DO NOT DO WHAT THE MANAGEMENT API DOES.**

  Pausing agrees. `pause_task` with `resume` keeps the stored trigger time, which `ResumeTask`
  computes anew. `trigger_task` sets the trigger time to now, not to a second ago, and triggers a
  task that is NOT ENABLED, which `TriggerTask` refuses.
-/
import AiScheduler.Ai.Tools
import AiScheduler.Proofs.Atomicity

namespace AiScheduler.AgentTools

open Lib Gate TaskService Tools Prog Atomicity

variable {α : Type} {env : Nat → Input} {w : World} {t task : Task} {id : Int} {n : Nat}

def stored (w : World) (id : Int) : Option (TaskStatus × Int) :=
  (w.tasks.tasks.get? id).map (fun t => (t.status, t.nextTriggerTime))

/-- What a call shows: whether it was accepted, and the stored task after it. -/
def effect (env : Nat → Input) (w : World) (id : Int) (p : Program (Except Err α)) :
    Bool × Option (TaskStatus × Int) :=
  ((run (execAt env) p (w, 0)).1.isOk, stored (run (execAt env) p (w, 0)).2.1 id)

def Shows (id : Int) (v : Bool × Option (TaskStatus × Int)) (r : Except Err α) (x : World × Nat) :
    Prop :=
  (r.isOk, stored x.1 id) = v

theorem effect_of_wp {p : Program (Except Err α)} {v : Bool × Option (TaskStatus × Int)}
    (h : wp (execAt env) p (Shows id v) (w, 0)) : effect env w id p = v := h

theorem shows_stored (hstored : w.tasks.tasks.get? id = some t) (r : Except Err α) :
    Shows id (r.isOk, some (t.status, t.nextTriggerTime)) r (w, n) := by
  unfold Shows stored
  rw [hstored]
  rfl

/-! ## Reading and writing the row. -/

section Rows

variable {post : Except Err α → World × Nat → Prop} {f : Except Err Task → Program (Except Err α)}
  (hno : NoFaults env) (hstored : w.tasks.tasks.get? id = some t)

include hno hstored

theorem wp_loadTask (hid : 0 < id)
    (h : wp (execAt env) (f (.ok (readTask w.backend t))) post (w, 1)) :
    wp (execAt env) (loadTask id >>= f) post (w, 0) := by
  unfold loadTask
  rw [if_neg (by omega), wp_bind, wp_task_bind_of_free (hno 0)]
  simp only [TaskCall.exec, TaskStore.getTask, hstored]
  exact h

theorem wp_loadOwned_zero (hid : 0 < id)
    (h : wp (execAt env) (f (.ok (readTask w.backend t))) post (w, 1)) :
    wp (execAt env) (loadOwned 0 id >>= f) post (w, 0) :=
  wp_loadOwned_of_stored (fun hnone => absurd (.inl rfl) (hnone t (hno 0) hid hstored))
    (fun t' _ _ ht' _ => by cases hstored.symm.trans ht'; exact h)

variable {status : TaskStatus} {next : Int}
  (htask : task.id = t.id ∧ task.tenantID = t.tenantID ∧ task.name = t.name
    ∧ task.status = status ∧ task.nextTriggerTime = next)

include htask

theorem wp_updateTask_same :
    wp (execAt env) (updateTask task) (Shows id (true, some (status, next))) (w, n) := by
  obtain ⟨htask, htenant, hname, rfl, rfl⟩ := htask
  have hid := (Table.get?_some hstored).2
  have hrow : w.tasks.tasks.get? task.id = some t := by rwa [htask, hid]
  refine (wp_task_bind_of_free (hno n) (.updateTask task) Prog.ret _ w).mpr ?_
  rw [show TaskCall.exec _ _ (.updateTask task) _ = _ from
    TaskStore.updateTask_of_same_name hrow htenant hname]
  refine congrArg (true, ·) ?_
  unfold stored
  rw [← hid, ← htask]
  simp [get?_write_of_stored hrow]

theorem wp_saveTask (reply : TaskReply) :
    wp (execAt env) (saveTask task reply) (Shows id (true, some (status, next))) (w, n) := by
  unfold saveTask
  rw [wp_bind]
  refine (wp_updateTask_same hno hstored htask).mono ?_
  intro r x h
  cases r with
  | error e => exact absurd (congrArg Prod.fst h) (by simp [Except.isOk, Except.toBool])
  | ok saved => exact h

end Rows

/-! ## What each operation shows. -/

section Effects

variable (hno : NoFaults env) (hstored : w.tasks.tasks.get? id = some t) (hid : 0 < id)

include hno hstored hid

theorem effect_pauseTool :
    effect env w id (pauseTaskTool id "pause") = (true, some (.disabled, t.nextTriggerTime)) := by
  refine effect_of_wp (wp_loadTask hno hstored hid ?_)
  dsimp only
  rw [if_pos rfl]
  split
  next h => exact h.symm.trans (readTask_status _ _) ▸ shows_stored hstored (.ok _)
  next => exact wp_saveTask hno hstored (by simp) _

theorem effect_pauseTask :
    effect env w id (pauseTask 0 id) = (true, some (.disabled, t.nextTriggerTime)) := by
  refine effect_of_wp (wp_loadOwned_zero hno hstored hid ?_)
  exact wp_updateTask_same hno hstored (by simp)

theorem effect_resumeTool :
    effect env w id (pauseTaskTool id "resume") = (true, some (.enabled, t.nextTriggerTime)) := by
  refine effect_of_wp (wp_loadTask hno hstored hid ?_)
  dsimp only
  rw [if_neg (by decide), if_pos rfl]
  split
  next h => exact h.symm.trans (readTask_status _ _) ▸ shows_stored hstored (.ok _)
  next => exact wp_saveTask hno hstored (by simp) _

theorem effect_resumeTask :
    effect env w id (resumeTask 0 id)
      = if t.cronExpr = "" then (true, some (.enabled, t.nextTriggerTime))
        else
          match Cron.nextAfter (env 1).now t.cronExpr with
          | .error _ => (false, some (t.status, t.nextTriggerTime))
          | .ok next => (true, some (.enabled, next)) := by
  refine effect_of_wp (wp_loadOwned_zero hno hstored hid ?_)
  dsimp only
  rw [readTask_cronExpr]
  split
  next => exact wp_updateTask_same hno hstored (by simp)
  next =>
    rw [wp_timeNow_bind]
    cases Cron.nextAfter (env 1).now t.cronExpr with
    | error e => exact shows_stored hstored (.error _)
    | ok next => exact wp_updateTask_same hno hstored (by simp)

theorem effect_triggerTool :
    effect env w id (triggerTaskTool id) = (true, some (t.status, (env 1).now)) := by
  refine effect_of_wp (wp_loadTask hno hstored hid ?_)
  dsimp only
  rw [wp_timeNow_bind]
  exact wp_saveTask hno hstored (by simp) _

theorem effect_triggerTask :
    effect env w id (triggerTask 0 id)
      = if t.status = .enabled then (true, some (t.status, (env 1).now - second))
        else (false, some (t.status, t.nextTriggerTime)) := by
  refine effect_of_wp (wp_loadOwned_zero hno hstored hid ?_)
  dsimp only
  rw [readTask_status]
  by_cases henabled : t.status = .enabled
  · rw [if_pos henabled, if_neg (not_not.mpr henabled), wp_timeNow_bind]
    exact wp_updateTask_same hno hstored (by simp)
  · rw [if_neg henabled, if_pos henabled]
    exact shows_stored hstored (.error _)

end Effects

/-! ## Where they agree. -/

/-- **TOOL AND API AGREE** on pausing always, on resuming exactly if there is no cron expression or
its next time is the stored one, on triggering never: they refuse alike exactly if the task is
enabled, and store different times. -/
theorem tools_agree_iff (hno : NoFaults env) (hstored : w.tasks.tasks.get? id = some t)
    (hid : 0 < id) :
    effect env w id (pauseTaskTool id "pause") = effect env w id (pauseTask 0 id)
      ∧ (effect env w id (pauseTaskTool id "resume") = effect env w id (resumeTask 0 id)
          ↔ t.cronExpr = "" ∨ Cron.nextAfter (env 1).now t.cronExpr = .ok t.nextTriggerTime)
      ∧ ((effect env w id (triggerTaskTool id)).1 = (effect env w id (triggerTask 0 id)).1
          ↔ t.status = .enabled)
      ∧ effect env w id (triggerTaskTool id) ≠ effect env w id (triggerTask 0 id) := by
  rw [effect_pauseTool hno hstored hid, effect_pauseTask hno hstored hid,
    effect_resumeTool hno hstored hid, effect_resumeTask hno hstored hid,
    effect_triggerTool hno hstored hid, effect_triggerTask hno hstored hid]
  refine ⟨rfl, ?_, ?_, ?_⟩
  · by_cases hcron : t.cronExpr = ""
    · simp [hcron]
    · cases Cron.nextAfter (env 1).now t.cronExpr <;> simp [hcron, eq_comm]
  · split <;> simp_all
  · split
    · -- a second apart
      intro h
      have hnow : (env 1).now = (env 1).now - second := by simpa using h
      exact absurd hnow (by unfold second; omega)
    · simp

def oneTask (task : Task) : World := World.ofRows .teststore [task] [] [] []

def noon : Nat → Input := fun _ => { now := 43200 * second }

theorem tools_agree_one_shot :
    effect noon (oneTask { id := 7, status := .disabled }) 7 (pauseTaskTool 7 "resume")
      = effect noon (oneTask { id := 7, status := .disabled }) 7 (resumeTask 0 7) :=
  (tools_agree_iff (fun _ => rfl) rfl (by decide)).2.1.mpr (.inl rfl)

/-- **A PAUSED TASK**: the tool triggers it, `TriggerTask` refuses it. -/
theorem disabled_triggered_by_tool :
    effect noon (oneTask { id := 7, status := .disabled }) 7 (triggerTaskTool 7)
        = (true, some (.disabled, 43200 * second))
      ∧ effect noon (oneTask { id := 7, status := .disabled }) 7 (triggerTask 0 7)
        = (false, some (.disabled, 0)) := by
  decide

end AiScheduler.AgentTools
