/-
  **WHAT THE TASK TABLE KEEPS OF A TASK.**

  `taskToRow`, `rowToTask` and the column map of `UpdateTask` cover the eighteen
  columns of table `task`.  `model.Task` has SIX MORE fields; a task survives
  being stored and read back exactly when these six are empty.
-/
import AiScheduler.System.Jobs

namespace AiScheduler.Columns

open Lib

def OnlyColumns (t : Task) : Prop :=
  t.retryIntervalSeconds = 0 ∧ t.retryWindowSeconds = 0 ∧ t.totalShards = 0
    ∧ t.idempotencyKey = "" ∧ t.triggerType = .other "" ∧ t.eventName = ""

instance (t : Task) : Decidable (OnlyColumns t) :=
  inferInstanceAs (Decidable (_ ∧ _ ∧ _ ∧ _ ∧ _ ∧ _))

/-- The task with the fields without a column emptied. -/
def stripped (t : Task) : Task :=
  { t with
    retryIntervalSeconds := 0, retryWindowSeconds := 0, totalShards := 0
    idempotencyKey := "", triggerType := .other "", eventName := "" }

/-- Equal but for id, version and timestamps. -/
def SameConfiguration (t' t : Task) : Prop :=
  { t' with id := t.id, version := t.version, createdAt := t.createdAt, updatedAt := t.updatedAt }
    = t

/-! ## The round trip of a row. -/

theorem rowToTask_taskToRow (t : Task) : rowToTask (taskToRow t) = stripped t := by
  show ({ stripped t with nextTriggerTime := (timeOrNil t.nextTriggerTime).getD 0 } : Task)
    = stripped t
  rw [getD_timeOrNil]
  rfl

theorem stripped_eq_iff (t : Task) : stripped t = t ↔ OnlyColumns t := by
  constructor
  · intro h
    exact ⟨(congrArg Task.retryIntervalSeconds h).symm, (congrArg Task.retryWindowSeconds h).symm,
      (congrArg Task.totalShards h).symm, (congrArg Task.idempotencyKey h).symm,
      (congrArg Task.triggerType h).symm, (congrArg Task.eventName h).symm⟩
  · intro h
    obtain ⟨⟩ := t
    obtain ⟨h₁, h₂, h₃, h₄, h₅, h₆⟩ := h
    subst h₁ h₂ h₃ h₄ h₅ h₆
    rfl

/-! ## The round trip of an update. -/

theorem readTask_updatedTask (now : Int) (t current : Task) :
    readTask .mysql (updatedTask .mysql now t current)
      = { stripped t with
          id := current.id, version := current.version + 1
          createdAt := current.createdAt, updatedAt := now } := by
  show rowToTask (taskToRow _) = _
  rw [rowToTask_taskToRow]
  rfl

theorem sameConfiguration_iff (t : Task) (id version createdAt updatedAt : Int) :
    SameConfiguration { stripped t with
        id := id, version := version, createdAt := createdAt, updatedAt := updatedAt } t
      ↔ OnlyColumns t := by
  rw [← stripped_eq_iff]
  exact Iff.rfl

theorem getTask_of_updateTask {s s' : TaskStore} {now : Int} {t stored : Task}
    (h : s.updateTask .mysql now t = (.ok stored, s')) :
    ∃ current, s'.getTask .mysql t.id
      = .ok (readTask .mysql (updatedTask .mysql now t current)) := by
  rcases s.updateTask_cases .mysql now t with ⟨e, he⟩ | ⟨current, hcur, hw⟩
  · rw [he] at h
    exact absurd (congrArg Prod.fst h) (by simp)
  refine ⟨current, ?_⟩
  rw [hw] at h
  have hs : s' = s.write .mysql now t := (congrArg Prod.snd h).symm
  have hid : current.id = t.id := (Table.get?_some hcur).2
  unfold TaskStore.getTask
  rw [hs, TaskStore.get?_write, hcur, Option.map_some, if_pos hid]

/-! ## The result. -/

/-- **A TASK SURVIVES MYSQL exactly when the fields without a column are empty**. -/
theorem round_trip_iff (t : Task) :
    (rowToTask (taskToRow t) = t ↔ OnlyColumns t)
      ∧ ∀ (s s' : TaskStore) (now : Int) (stored : Task),
          s.updateTask .mysql now t = (.ok stored, s') →
          ∃ t', s'.getTask .mysql t.id = .ok t' ∧ (SameConfiguration t' t ↔ OnlyColumns t) := by
  constructor
  · rw [rowToTask_taskToRow]
    exact stripped_eq_iff t
  · intro s s' now stored h
    obtain ⟨current, hget⟩ := getTask_of_updateTask h
    refine ⟨_, hget, ?_⟩
    rw [readTask_updatedTask]
    exact sameConfiguration_iff t current.id (current.version + 1) current.createdAt now

def plainTask : Task := { id := 1, name := "job", type := "shell", status := .enabled }

def plainStore : TaskStore :=
  (World.ofRows .mysql [plainTask] [] [] []).tasks

theorem round_trip_plain :
    ∃ t', ((plainStore.updateTask .mysql 5 plainTask).2).getTask .mysql 1 = .ok t'
      ∧ SameConfiguration t' plainTask := by
  have h : plainStore.updateTask .mysql 5 plainTask
      = (.ok { plainTask with version := 1, updatedAt := 5 },
          (plainStore.updateTask .mysql 5 plainTask).2) := by rfl
  obtain ⟨t', hget, hsame⟩ := (round_trip_iff plainTask).2 plainStore _ 5 _ h
  exact ⟨t', hget, hsame.mpr (by decide)⟩

/-- **A sharded task comes back without its shards.** -/
theorem shards_lost :
    (rowToTask (taskToRow { plainTask with totalShards := 4 })).totalShards = 0
      ∧ rowToTask (taskToRow { plainTask with totalShards := 4 })
          ≠ { plainTask with totalShards := 4 }
      ∧ ((plainStore.updateTask .mysql 5
          { plainTask with totalShards := 4 }).2.getTask .mysql 1).map
          Task.totalShards = .ok 0 := by
  decide

end AiScheduler.Columns
