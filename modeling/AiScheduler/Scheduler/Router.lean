/-
  **WORKER SELECTION** (`internal/scheduler/route`): `Pick` reads the available
  workers, chooses one and writes its row back with one more unit of load;
  `Release` writes the caller's SNAPSHOT of the row back with one unit less.
-/
import AiScheduler.System.Calls

namespace AiScheduler.Router

open Lib

variable {x : WorkerNode} {w : World} {opts : SelectOptions} {scan : Scan WorkerNode}

def filterByLabels (workers : List WorkerNode) (selector : Labels) : List WorkerNode :=
  if selector.isEmpty then workers
  else workers.filter (fun w => matchLabels (decodeLabels w.labels) selector)

/-- `pickLeastLoaded` on the non-empty list `first :: rest`. -/
def pickLeastLoaded (first : WorkerNode) (rest : List WorkerNode) : WorkerNode :=
  rest.foldl (fun best w => if w.currentLoad < best.currentLoad then w else best) first

/-- `pickRoundRobin` on the non-empty list `first :: rest`. -/
def pickRoundRobin (first : WorkerNode) (rest : List WorkerNode) : Program WorkerNode := do
  let n ← nextRoundRobin
  return (first :: rest).getD (n % (rest.length + 1)) first

/-- The choice among the eligible workers. -/
def choose (strategy : RouteStrategy) (first : WorkerNode) (rest : List WorkerNode) :
    Program WorkerNode :=
  match strategy with
  | .roundRobin => pickRoundRobin first rest
  | _ => pure (pickLeastLoaded first rest)

/-- One more unit of load, stored. -/
def reserve (best : WorkerNode) : Program (Except Err WorkerNode) := do
  let reserved := { best with currentLoad := best.currentLoad + 1 }
  match ← upsertWorker reserved with
  | .error e => return .error e
  | .ok () => return .ok reserved

def pick (opts : SelectOptions) : Program (Except Err WorkerNode) := do
  match ← listAvailableWorkers opts with
  | .error e => return .error e
  | .ok all =>
    match filterByLabels all opts.labels with
    | [] => return .error .noAvailableWorker
    | first :: rest => do
      let best ← choose opts.strategy first rest
      reserve best

/-- The row `Release` writes. -/
def released (w : WorkerNode) : WorkerNode :=
  if w.currentLoad > 0 then { w with currentLoad := w.currentLoad - 1 } else w

def release (w : WorkerNode) : Program (Except Err Unit) := upsertWorker (released w)

/-! ## What a `Pick` chooses. -/

/-- The workers a `Pick` with these options chooses among. -/
def eligible (scan : Scan WorkerNode) (w : World) (opts : SelectOptions) : List WorkerNode :=
  filterByLabels (w.workers.listAvailableWorkers w.backend scan) opts.labels

/-- The worker a `Pick` chooses, before its load is raised. -/
def chosen (scan : Scan WorkerNode) (w : World) (opts : SelectOptions) : Option WorkerNode :=
  match eligible scan w opts with
  | [] => none
  | first :: rest =>
    match opts.strategy with
    | .roundRobin => some ((first :: rest).getD (w.memory.rrCounter % (rest.length + 1)) first)
    | _ => some (pickLeastLoaded first rest)

/-- A worker a `Pick` may take: online, below its capacity, with the selector's labels. -/
def Eligible (opts : SelectOptions) (x : WorkerNode) : Prop :=
  x.status = .online ∧ x.currentLoad < x.maxConcurrency
    ∧ ∀ kv ∈ opts.labels.rows, kv ∈ (decodeLabels x.labels).rows

instance (opts : SelectOptions) (x : WorkerNode) : Decidable (Eligible opts x) :=
  inferInstanceAs (Decidable (_ ∧ _ ∧ _))

theorem mem_filterByLabels {workers : List WorkerNode} {selector : Labels} :
    x ∈ filterByLabels workers selector
      ↔ x ∈ workers ∧ ∀ kv ∈ selector.rows, kv ∈ (decodeLabels x.labels).rows := by
  unfold filterByLabels
  split
  next hempty =>
    -- the shortcut for an empty selector asks for nothing
    have hrows : selector.rows = [] := List.isEmpty_iff.mp hempty
    rw [hrows]
    simp
  next => rw [List.mem_filter, matchLabels_iff]

theorem mem_eligible :
    x ∈ eligible scan w opts ↔ x ∈ w.workers.rows ∧ Eligible opts x := by
  unfold eligible Eligible
  rw [mem_filterByLabels, WorkerStore.mem_listAvailableWorkers]
  unfold WorkerNode.isAvailable
  rw [decide_eq_true_iff]
  tauto

theorem mem_of_mem_filterByLabels {workers : List WorkerNode} {selector : Labels} {w : WorkerNode}
    (h : w ∈ filterByLabels workers selector) : w ∈ workers := by
  unfold filterByLabels at h
  split at h
  · exact h
  · exact List.mem_of_mem_filter h

section

variable (first : WorkerNode) (rest : List WorkerNode)

theorem pickLeastLoaded_mem :
    pickLeastLoaded first rest ∈ first :: rest := by
  unfold pickLeastLoaded
  induction rest generalizing first with
  | nil => simp
  | cons w ws ih =>
  show List.foldl _ (if w.currentLoad < first.currentLoad then w else first) ws ∈ _
  split
  · exact .tail _ (ih w)
  have h := ih first
  rw [List.mem_cons] at h
  rcases h with h | h
  · rw [h]
    exact .head _
  · exact .tail _ (.tail _ h)

theorem getD_mem_cons (n : Nat) :
    (first :: rest).getD n first ∈ first :: rest := by
  rw [List.getD_eq_getElem?_getD]
  cases h : (first :: rest)[n]? with
  | none => exact .head _
  | some w => exact List.mem_of_getElem? h

theorem pickLeastLoaded_le :
    ∀ y ∈ first :: rest, (pickLeastLoaded first rest).currentLoad ≤ y.currentLoad := by
  unfold pickLeastLoaded
  induction rest generalizing first with
  | nil =>
    intro y hy
    rw [List.mem_singleton.mp hy]
    exact Int.le_refl _
  | cons w ws ih =>
  intro y hy
  show (List.foldl _ (if w.currentLoad < first.currentLoad then w else first) ws).currentLoad
    ≤ y.currentLoad
  -- the better of the first two stands for both
  have hbest := ih (if w.currentLoad < first.currentLoad then w else first)
  have hhead := hbest _ List.mem_cons_self
  rcases List.mem_cons.mp hy with rfl | hy
  · split at hhead
    next hlt => rw [if_pos hlt]; omega
    next hlt => rw [if_neg hlt]; exact hhead
  rcases List.mem_cons.mp hy with rfl | hy
  · split at hhead
    next hlt => rw [if_pos hlt]; exact hhead
    next hlt => rw [if_neg hlt]; omega
  · exact hbest y (.tail _ hy)

end

theorem chosen_eq_none_iff :
    chosen scan w opts = none ↔ eligible scan w opts = [] := by
  unfold chosen
  cases eligible scan w opts with
  | nil => simp
  | cons first rest => cases opts.strategy <;> simp

theorem chosen_mem (h : chosen scan w opts = some x) : x ∈ eligible scan w opts := by
  unfold chosen at h
  cases hl : eligible scan w opts with
  | nil =>
    rw [hl] at h
    cases h
  | cons first rest =>
  rw [hl] at h
  cases hs : opts.strategy with
  | roundRobin =>
    rw [hs] at h
    rw [← Option.some.inj h]
    exact getD_mem_cons first rest _
  | leastLoaded | other text =>
    rw [hs] at h
    rw [← Option.some.inj h]
    exact pickLeastLoaded_mem first rest

theorem chosen_le (h : chosen scan w opts = some x) (hs : opts.strategy ≠ .roundRobin) :
    ∀ y ∈ eligible scan w opts, x.currentLoad ≤ y.currentLoad := by
  unfold chosen at h
  cases hl : eligible scan w opts with
  | nil =>
    intro y hy
    cases hy
  | cons first rest =>
  rw [hl] at h
  have hx : pickLeastLoaded first rest = x := by
    cases hstrategy : opts.strategy with
    | roundRobin => exact absurd hstrategy hs
    | leastLoaded | other text =>
      rw [hstrategy] at h
      exact Option.some.inj h
  rw [← hx]
  exact pickLeastLoaded_le first rest

end AiScheduler.Router
