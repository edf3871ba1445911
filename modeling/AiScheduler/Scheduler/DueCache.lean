/-
  **THE CACHE OF DUE TASKS** (`internal/scheduler/cache/manager.go`,
  `internal/pkg/xredis/redis.go`): a Redis sorted set of task ids, scored by the whole second of
  their trigger time.

  The warm loop replaces the set with the tasks due at that moment; until the next warm nothing
  takes an id out or puts one in. After five minutes it expires.
-/
import AiScheduler.Repo.Tasks

namespace AiScheduler

open Lib

/-- `t.Unix()`: whole seconds since the epoch, rounded down. -/
def unix (t : Int) : Int := (t - unixEpoch) / second

/-- A member of `scheduler:due:zset`: a task id under its score. -/
structure DueEntry where
  taskID : Int
  score : Int
  deriving DecidableEq, Repr

/-- The member in Redis: the decimal text of the id, which `Sscanf` reads back. -/
def DueEntry.member (e : DueEntry) : String := toString e.taskID

/-- The order of a sorted set: by score, members of one score by their text. -/
def DueEntry.lt (a b : DueEntry) : Prop :=
  a.score < b.score ∨ (a.score = b.score ∧ a.member < b.member)

instance : DecidableRel DueEntry.lt :=
  fun _ _ => inferInstanceAs (Decidable (_ ∨ (_ ∧ _)))

/-- `scheduler:due:zset`: a sorted set has each member once. -/
structure DueSet where
  entries : List DueEntry := []
  nodup : (entries.map DueEntry.member).Nodup := by exact List.nodup_nil

/-- `ZADD`: a member that is there gets the new score. -/
def DueSet.zAdd (z : DueSet) (e : DueEntry) : DueSet where
  entries := e :: z.entries.filter (fun e' => e'.member ≠ e.member)
  nodup := by
    rw [List.map_cons, List.nodup_cons]
    refine ⟨?_, z.nodup.sublist (List.filter_sublist.map _)⟩
    intro h
    obtain ⟨e', he', heq⟩ := List.mem_map.mp h
    exact of_decide_eq_true (List.mem_filter.mp he').2 heq

/-- `ZRANGEBYSCORE key min max`. -/
def zRangeByScore (z : DueSet) (min max : Int) : List DueEntry :=
  (z.entries.filter (fun e => min ≤ e.score ∧ e.score ≤ max)).insertionSort (fun a b => ¬ b.lt a)

/-- `warmDueTasks`: the new set. The second assignment of a score repeats the first. -/
def warmDueTasks (b : Backend) (now : Int) (scan : Scan Task) (s : TaskStore) : DueSet :=
  (s.listDueTasks b now scan 500).foldl
    (fun z t => z.zAdd { taskID := t.id, score := unix t.nextTriggerTime }) {}

/-- The ids of the members with a score up to the cutoff. -/
def getDueTaskIDs (z : DueSet) (cutoff : Int) : List Int :=
  (zRangeByScore z 0 cutoff).map DueEntry.taskID

/-- … up to the second of the cutoff. -/
def getCachedDueTaskIDs (z : DueSet) (cutoff : Int) : List Int :=
  getDueTaskIDs z (unix cutoff)

end AiScheduler
