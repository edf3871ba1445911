/-
  **THE WORKER REPOSITORY**, MySQL and in-memory.

  `UpsertWorker` writes a WHOLE row: the load it stores is the one in the
  caller's snapshot, whatever happened to the row since it was read.
-/
import AiScheduler.Repo.Tasks
import Mathlib.Data.List.Induction

namespace AiScheduler

open Lib

variable {b : Backend} {w : WorkerNode}

/-- Workers under distinct ids. -/
abbrev WorkerStore := Table WorkerNode.id

variable {s : WorkerStore}

/-- The row `UpsertWorker` stores: the in-memory store fills in a missing
heartbeat. -/
def storedWorker (b : Backend) (now : Int) (w : WorkerNode) : WorkerNode :=
  match b with
  | .mysql => w
  | .teststore =>
    { w with lastHeartbeatAt := if w.lastHeartbeatAt = 0 then now else w.lastHeartbeatAt }

section

variable (b : Backend) (now : Int) (w : WorkerNode)

@[simp] theorem storedWorker_id :
    (storedWorker b now w).id = w.id := by
  cases b <;> rfl

@[simp] theorem storedWorker_currentLoad :
    (storedWorker b now w).currentLoad = w.currentLoad := by
  cases b <;> rfl

@[simp] theorem storedWorker_maxConcurrency :
    (storedWorker b now w).maxConcurrency = w.maxConcurrency := by
  cases b <;> rfl

end

def WorkerStore.upsertWorker (b : Backend) (now : Int) (s : WorkerStore) (w : WorkerNode) :
    WorkerStore :=
  s.upsert (storedWorker b now w)

def WorkerStore.getWorker (b : Backend) (s : WorkerStore) (id : String) : Except Err WorkerNode :=
  match s.get? id with
  | some w => .ok w
  | none =>
    match b with
    | .mysql => .error (.wrap "get worker" (.text "record not found"))
    | .teststore => .error (.text "worker not found")

/-- Online and below its capacity. -/
def WorkerNode.isAvailable (w : WorkerNode) : Bool :=
  w.status = .online ∧ w.currentLoad < w.maxConcurrency

/-- MySQL orders by load, then latest heartbeat; the in-memory store by id. -/
def workerOrder (b : Backend) (v w : WorkerNode) : Bool :=
  match b with
  | .mysql => v.currentLoad < w.currentLoad
      ∨ (v.currentLoad = w.currentLoad ∧ w.lastHeartbeatAt ≤ v.lastHeartbeatAt)
  | .teststore => ¬ w.id < v.id

def WorkerStore.listAvailableWorkers (b : Backend) (scan : Scan WorkerNode) (s : WorkerStore) :
    List WorkerNode :=
  (scan.order (s.rows.filter WorkerNode.isAvailable)).insertionSort
    (fun v w => workerOrder b v w = true)

/-- `ListStaleWorkers`, by id. -/
def WorkerStore.listStaleWorkers (s : WorkerStore) (cutoff : Int) : List WorkerNode :=
  (s.rows.filter (fun w => w.status = .online ∧ w.lastHeartbeatAt < cutoff)).insertionSort
    (fun v w => ¬ w.id < v.id)

theorem WorkerStore.mem_listAvailableWorkers {scan : Scan WorkerNode} :
    w ∈ s.listAvailableWorkers b scan ↔ w ∈ s.rows ∧ w.isAvailable = true := by
  unfold WorkerStore.listAvailableWorkers
  rw [List.mem_insertionSort, (scan.perm _).mem_iff, List.mem_filter]

theorem WorkerStore.get?_upsertWorker (b : Backend) (now : Int) (s : WorkerStore) (w : WorkerNode)
    (id : String) :
    (s.upsertWorker b now w).get? id
      = if id = w.id then some (storedWorker b now w) else s.get? id := by
  unfold WorkerStore.upsertWorker
  rw [Table.get?_upsert, storedWorker_id]

theorem WorkerStore.getWorker_ok {id : String}
    (h : s.getWorker b id = .ok w) : s.get? id = some w := by
  unfold WorkerStore.getWorker at h
  split at h
  next w' hg =>
    injection h with h
    rw [hg, h]
  next => split at h <;> exact absurd h (by simp)

theorem WorkerStore.getWorker_of_get? {id : String}
    (h : s.get? id = some w) : s.getWorker b id = .ok w := by
  unfold WorkerStore.getWorker
  rw [h]

/-! ## What the store can hold. -/

theorem storedWorker_of_heartbeat
    (h : b = .teststore → w.lastHeartbeatAt ≠ 0) (now : Int) : storedWorker b now w = w := by
  cases b with
  | mysql => rfl
  | teststore =>
    show { w with lastHeartbeatAt := if w.lastHeartbeatAt = 0 then now else w.lastHeartbeatAt } = w
    rw [if_neg (h rfl)]

/-- The stores the repository can hold: only `UpsertWorker` writes, no clock shows the zero time. -/
inductive WorkerStore.Built (b : Backend) : WorkerStore → Prop where
  | empty : WorkerStore.Built b Table.empty
  | upsert {s : WorkerStore} {now : Int} (w : WorkerNode) (hnow : now ≠ 0)
      (hs : WorkerStore.Built b s) : WorkerStore.Built b (s.upsertWorker b now w)

theorem WorkerStore.Built.heartbeat (h : s.Built b) :
    ∀ w ∈ s.rows, b = .teststore → w.lastHeartbeatAt ≠ 0 := by
  induction h with
  | empty =>
    intro w hw
    simp [Table.empty] at hw
  | @upsert s now v hnow hs ih =>
    intro w hw hb
    rcases Table.mem_upsert.mp hw with rfl | ⟨hold, _⟩
    · -- the row just written: stamped if it came without a heartbeat
      subst hb
      show (if v.lastHeartbeatAt = 0 then now else v.lastHeartbeatAt) ≠ 0
      split
      next => exact hnow
      next hz => exact hz
    · exact ih w hold hb

theorem WorkerStore.built_of_heartbeat :
    ∀ (rows : List WorkerNode) (hnodup : (rows.map WorkerNode.id).Nodup),
      (∀ w ∈ rows, b = .teststore → w.lastHeartbeatAt ≠ 0) →
      WorkerStore.Built b ⟨rows, hnodup⟩ := by
  intro rows
  induction rows using List.reverseRecOn with
  | nil =>
    intro _ _
    exact .empty
  | append_singleton rows w ih =>
  intro hnodup hrows
  have hsplit := hnodup
  rw [List.map_append, List.nodup_append] at hsplit
  obtain ⟨hinit, _, hdisj⟩ := hsplit
  have hnew : (⟨rows, hinit⟩ : WorkerStore).get? w.id = none := by
    rw [Table.get?_none]
    intro r hr hid
    exact hdisj r.id (List.mem_map_of_mem hr) w.id (by simp) hid
  -- the last row is the one written last
  have hlast : (⟨rows ++ [w], hnodup⟩ : WorkerStore)
      = WorkerStore.upsertWorker b 1 ⟨rows, hinit⟩ w := by
    apply Table.ext
    unfold WorkerStore.upsertWorker
    rw [storedWorker_of_heartbeat (hrows w (by simp)) 1]
    show rows ++ [w] = if ((⟨rows, hinit⟩ : WorkerStore).get? w.id).isSome then _ else _
    rw [hnew]
    rfl
  rw [hlast]
  refine .upsert w (by decide) (ih hinit ?_)
  intro r hr
  exact hrows r (List.mem_append_left _ hr)

end AiScheduler
