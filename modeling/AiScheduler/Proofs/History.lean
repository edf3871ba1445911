/-
  **WHAT TWO LOOKS AT THE STORE HAVE IN COMMON**, whatever ran in between.

  Ids are not given out twice, an instance is never lost and keeps what it was born with, and a
  task whose version is the same is the same.
-/
import AiScheduler.Lib.Rely
import AiScheduler.System.Births
import AiScheduler.System.Jobs

namespace AiScheduler.History

open Lib

/-- From `s` to `s'`: the tasks whose ids were given out in `s` are those of `s`, perhaps written
since. -/
structure Later (s s' : TaskStore) : Prop where
  nextID_le : s.nextID ≤ s'.nextID
  row : ∀ id t', id < s.nextID → s'.tasks.get? id = some t' →
    ∃ t, s.tasks.get? id = some t ∧ t.version ≤ t'.version ∧ (t'.version = t.version → t' = t)

theorem Later.refl (s : TaskStore) : Later s s :=
  ⟨Int.le_refl _, fun _ t' _ h => ⟨t', h, Int.le_refl _, fun _ => rfl⟩⟩

theorem Later.trans {s s' s'' : TaskStore} (h : Later s s') (h' : Later s' s'') : Later s s'' := by
  refine ⟨Int.le_trans h.nextID_le h'.nextID_le, ?_⟩
  intro id t'' hid ht''
  obtain ⟨t', ht', hle', heq'⟩ := h'.row id t'' (Int.lt_of_lt_of_le hid h.nextID_le) ht''
  obtain ⟨t, ht, hle, heq⟩ := h.row id t' hid ht'
  refine ⟨t, ht, Int.le_trans hle hle', ?_⟩
  intro hv
  -- both steps left the version alone
  rw [heq' (by omega), heq (by omega)]

/-- A call that leaves the rows of old ids alone. -/
theorem later_of_rows {s s' : TaskStore} (hnext : s.nextID ≤ s'.nextID)
    (h : ∀ id t', id < s.nextID → s'.tasks.get? id = some t' → s.tasks.get? id = some t') :
    Later s s' :=
  ⟨hnext, fun id t' hid ht' => ⟨t', h id t' hid ht', Int.le_refl _, fun _ => rfl⟩⟩

theorem later_write (b : Backend) (now : Int) (s : TaskStore) (task : Task) :
    Later s (s.write b now task) := by
  refine ⟨Int.le_refl _, ?_⟩
  intro id t' _ ht'
  rw [TaskStore.get?_write] at ht'
  obtain ⟨t, ht, rfl⟩ := Option.map_eq_some_iff.mp ht'
  refine ⟨t, ht, ?_, ?_⟩ <;> split
  · rw [updatedTask_version]
    omega
  · exact Int.le_refl _
  · rw [updatedTask_version]
    omega
  · exact fun _ => rfl

theorem later_execCall (inp : Input) (op : Call) (w : World) :
    Later w.tasks (execCall inp op w).2.tasks := by
  have hnext := nextID_le_execCall inp w op
  cases tasksAfter_execCall inp w op with
  | less hrows _ _ => exact later_of_rows hnext (fun id t' _ => hrows id t')
  | created _ hrows _ _ => exact later_of_rows hnext (fun id t' hid => by grind)
  | written _ hs =>
    rw [hs]
    exact later_write _ _ _ _
  | linked _ _ hs => exact later_of_rows hnext (fun id t' _ => by simp [hs])

section Runs

variable {J R : Type} {body : J → Program R}
  {ok : Config System World J R → Label Input J → Prop} {c₀ c : Config System World J R}

/-- **A TASK OF THE SAME VERSION IS THE SAME TASK**, at any two points of any run. -/
theorem same_of_same_version (h : Reaches execCall body ok c₀ c) {id : Int} {t' : Task}
    (hid : id < c₀.world.tasks.nextID) (ht' : c.world.tasks.tasks.get? id = some t') :
    ∃ t, c₀.world.tasks.tasks.get? id = some t ∧ t.version ≤ t'.version
      ∧ (t'.version = t.version → t' = t) :=
  (h.relates (fun w w' => Later w.tasks w'.tasks) (fun w => .refl w.tasks)
    (fun _ _ _ => Later.trans) later_execCall).row id t' hid ht'

/-- **NO INSTANCE IS LOST, AND EACH KEEPS WHAT IT WAS BORN WITH**, from any point of any run on;
in MySQL no two come to share a schedule id. -/
theorem instances_kept (h : Reaches execCall body ok c₀ c) :
    c₀.world.instances.Extends c.world.instances
      ∧ (c₀.world.backend = .mysql → c₀.world.instances.SchedulesDistinct →
          c.world.instances.SchedulesDistinct) := by
  have hrel := h.relates (fun w w' => w'.backend = w.backend ∧ w.instances.Extends w'.instances
      ∧ (w.backend = .mysql → w.instances.SchedulesDistinct → w'.instances.SchedulesDistinct))
    (fun w => ⟨rfl, .refl _, fun _ hd => hd⟩) ?_ ?_
  · exact hrel.2
  · intro u v w ⟨hb, hext, hd⟩ ⟨hb', hext', hd'⟩
    exact ⟨hb'.trans hb, hext.trans hext', fun hu hdu => hd' (hb.trans hu) (hd hu hdu)⟩
  · exact fun inp op w =>
      ⟨exec_backend inp w op, extends_execCall inp op w,
        fun hb hd => distinct_execCall inp op hb hd⟩

end Runs

/-- A due task, and nobody to run it. -/
def dueTask : World :=
  World.ofRows .mysql [{ id := 1, status := .enabled, nextTriggerTime := 1 }] [] [] []

/-- `OnTrigger` stores an instance and puts the task off. -/
theorem exists_deferred :
    ∃ c : Pool, Runs "" (fun _ _ => True) dueTask c
      ∧ (c.world.tasks.tasks.get? 1).map Task.version = some 1 ∧ c.world.instances.nextID = 2 := by
  have hrun : (runSteps execCall (body "") (fun _ _ => true) (Config.init dueTask)
      (.spawn (.onTrigger 1) :: List.replicate 8 (.step 0 {}))).map
      (fun c => decide ((c.world.tasks.tasks.get? 1).map Task.version = some 1
        ∧ c.world.instances.nextID = 2)) = some true := by
    decide
  obtain ⟨c, h, hp⟩ := exists_reaches_of_runSteps (fun _ _ _ => trivial) hrun
  exact ⟨c, h, of_decide_eq_true hp⟩

/-- Its row was written once. -/
theorem version_of_deferred :
    ∃ (c : Pool) (t t' : Task), Runs "" (fun _ _ => True) dueTask c
      ∧ dueTask.tasks.tasks.get? 1 = some t ∧ c.world.tasks.tasks.get? 1 = some t'
      ∧ t'.version = 1 ∧ (t'.version = t.version → t' = t) := by
  obtain ⟨c, h, hversion, _⟩ := exists_deferred
  obtain ⟨t', ht', hv⟩ := Option.map_eq_some_iff.mp hversion
  obtain ⟨t, ht, _, hsame⟩ := same_of_same_version h (by decide) ht'
  exact ⟨c, t, t', h, ht, ht', hv, hsame⟩

theorem instances_of_deferred :
    ∃ c : Pool, Runs "" (fun _ _ => True) dueTask c ∧ c.world.instances.nextID = 2
      ∧ dueTask.instances.Extends c.world.instances ∧ c.world.instances.SchedulesDistinct := by
  obtain ⟨c, h, _, hnext⟩ := exists_deferred
  obtain ⟨hext, hd⟩ := instances_kept h
  exact ⟨c, h, hnext, hext, hd rfl (by decide)⟩

end AiScheduler.History
