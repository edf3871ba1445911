/-
  **THE DEPENDENCY GRAPH** (`internal/model/dependency.go`).

  `graph` turns stored edges into an adjacency map, `allDependenciesSatisfied`
  asks whether every upstream task of a task is in a given set of tasks, and
  `detectCycle` searches the graph for a cycle.
-/
import AiScheduler.Lib.Dfs
import AiScheduler.Lib.Table

namespace AiScheduler

open Lib

/-- `model.TaskDependency`: `taskID` depends on `dependsOnTaskID`. -/
structure TaskDependency where
  taskID : Int
  dependsOnTaskID : Int
  deriving DecidableEq, Repr

/-- `map[int64][]int64`. -/
abbrev AdjMap := Table (Prod.fst : Int × List Int → Int)

/-- `graph[node]` (nil where the key is absent). -/
def AdjMap.deps (g : AdjMap) (node : Int) : List Int := ((g.get? node).map Prod.snd).getD []

/-- `graph[e.TaskID] = append(graph[e.TaskID], e.DependsOnTaskID)`. -/
def AdjMap.addEdge (g : AdjMap) (e : TaskDependency) : AdjMap :=
  g.upsert (e.taskID, g.deps e.taskID ++ [e.dependsOnTaskID])

def graph (edges : List TaskDependency) : AdjMap := edges.foldl AdjMap.addEdge Table.empty

/-- The nodes of the graph, each at least once. -/
def AdjMap.nodes (g : AdjMap) : List Int := g.rows.flatMap (fun kv => kv.1 :: kv.2)

/-- `DetectCycle`, the keys ranged over in `order`; never more calls than there are nodes. -/
def detectCycle (g : AdjMap) (order : List Int) : Bool :=
  (Dfs.detect g.deps g.nodes.length order (fun _ => .unvisited)).getD false

def allDependenciesSatisfied (g : AdjMap) (taskID : Int) (successfulInstances : Int → Bool) :
    Bool :=
  let deps := g.deps taskID
  if deps.isEmpty then true else deps.all successfulInstances

theorem deps_addEdge (g : AdjMap) (e : TaskDependency) (node : Int) :
    (g.addEdge e).deps node
      = if e.taskID = node then g.deps node ++ [e.dependsOnTaskID] else g.deps node := by
  unfold AdjMap.addEdge AdjMap.deps
  rw [Table.get?_upsert]
  by_cases h : node = e.taskID
  · subst h
    simp
  · rw [if_neg h, if_neg (Ne.symm h)]

theorem deps_graph (edges : List TaskDependency) (node : Int) :
    (graph edges).deps node
      = (edges.filter (fun e => e.taskID = node)).map TaskDependency.dependsOnTaskID := by
  -- the fold extends what the accumulator already has
  have hfold : ∀ (es : List TaskDependency) (g : AdjMap), (es.foldl AdjMap.addEdge g).deps node
        = g.deps node
          ++ (es.filter (fun e => e.taskID = node)).map TaskDependency.dependsOnTaskID := by
    intro es
    induction es with
    | nil =>
      intro g
      simp
    | cons e es ih =>
      intro g
      show (es.foldl AdjMap.addEdge (g.addEdge e)).deps node = _
      rw [ih, deps_addEdge]
      by_cases h : e.taskID = node <;> simp [h]
  show (edges.foldl AdjMap.addEdge Table.empty).deps node = _
  rw [hfold]
  rfl

/-- The dependency relation of stored edges. -/
def DependsOn (edges : List TaskDependency) (x y : Int) : Prop :=
  ∃ e ∈ edges, e.taskID = x ∧ e.dependsOnTaskID = y

theorem edge_graph_iff (edges : List TaskDependency) (x y : Int) :
    Dfs.Edge (graph edges).deps x y ↔ DependsOn edges x y := by
  unfold Dfs.Edge DependsOn
  rw [deps_graph]
  simp only [List.mem_map, List.mem_filter, decide_eq_true_eq]
  constructor
  · intro h
    obtain ⟨e, ⟨he, hx⟩, hy⟩ := h
    exact ⟨e, he, hx, hy⟩
  · intro h
    obtain ⟨e, he, hx, hy⟩ := h
    exact ⟨e, ⟨he, hx⟩, hy⟩

theorem AdjMap.mem_of_deps_ne_nil {g : AdjMap} {x : Int} (h : g.deps x ≠ []) :
    (x, g.deps x) ∈ g.rows := by
  unfold AdjMap.deps at h ⊢
  cases hg : g.get? x with
  | none =>
    rw [hg] at h
    exact absurd rfl h
  | some kv =>
    obtain ⟨hmem, hkey⟩ := Table.get?_some hg
    rw [← hkey]
    exact hmem

/-- The search of a map, with enough fuel and from every key, ends with the
right answer. -/
theorem detect_adjMap {g : AdjMap} {order : List Int} (horder : order.Perm (g.rows.map Prod.fst))
    {fuel : Nat} (hfuel : g.nodes.length ≤ fuel) :
    ∃ r, Dfs.detect g.deps fuel order (fun _ => .unvisited) = some r
      ∧ (r = true ↔ ∃ x, Relation.TransGen (Dfs.Edge g.deps) x x) := by
  have hsucc : ∀ x ∈ g.nodes, ∀ y ∈ g.deps x, y ∈ g.nodes := by
    intro x _ y hy
    have hrow := AdjMap.mem_of_deps_ne_nil (List.ne_nil_of_mem hy)
    exact List.mem_flatMap.mpr ⟨_, hrow, .tail _ hy⟩
  have hroots : ∀ x ∈ order, x ∈ g.nodes := by
    intro x hx
    obtain ⟨kv, hkv, rfl⟩ := List.mem_map.mp (horder.mem_iff.mp hx)
    exact List.mem_flatMap.mpr ⟨kv, hkv, .head _⟩
  have hall : ∀ x, g.deps x ≠ [] → x ∈ order := by
    intro x hx
    exact horder.mem_iff.mpr (List.mem_map.mpr ⟨_, AdjMap.mem_of_deps_ne_nil hx, rfl⟩)
  exact Dfs.detect_eq_iff hsucc hroots hall hfuel

/-- **`DetectCycle` FINDS A CYCLE EXACTLY WHERE THERE IS ONE**, in any map and whatever order it is
ranged over; and it ENDS: more fuel than there are nodes changes nothing. -/
theorem detectCycle_decides (g : AdjMap) (order : List Int)
    (horder : order.Perm (g.rows.map Prod.fst)) :
    (detectCycle g order = true ↔ ∃ x, Relation.TransGen (Dfs.Edge g.deps) x x)
      ∧ ∀ fuel, g.nodes.length ≤ fuel →
          Dfs.detect g.deps fuel order (fun _ => .unvisited) = some (detectCycle g order) := by
  obtain ⟨r, hr, hiff⟩ := detect_adjMap horder (Nat.le_refl _)
  have hdetect : detectCycle g order = r := by
    unfold detectCycle
    rw [hr]
    rfl
  rw [hdetect]
  refine ⟨hiff, ?_⟩
  intro fuel hfuel
  obtain ⟨r', hr', hiff'⟩ := detect_adjMap horder hfuel
  rw [hr']
  congr 1
  exact Bool.eq_iff_iff.mpr (hiff'.trans hiff.symm)

/-- A node that is no key, a repeated edge and a self-loop, in two orders. -/
theorem detectCycle_decides_both_orders :
    (∃ x, Relation.TransGen (Dfs.Edge (AdjMap.deps ⟨[(1, [2, 2]), (3, [3])], by decide⟩)) x x)
      ∧ detectCycle ⟨[(1, [2, 2]), (3, [3])], by decide⟩ [1, 3] = true
      ∧ detectCycle ⟨[(1, [2, 2]), (3, [3])], by decide⟩ [3, 1] = true :=
  ⟨(detectCycle_decides ⟨[(1, [2, 2]), (3, [3])], by decide⟩ [1, 3] (by decide)).1.mp (by decide),
    by decide, by decide⟩

theorem detectCycle_graph_iff (edges : List TaskDependency) {order : List Int}
    (horder : order.Perm ((graph edges).rows.map Prod.fst)) :
    detectCycle (graph edges) order = true ↔ ∃ x, Relation.TransGen (DependsOn edges) x x := by
  have hedge : Dfs.Edge (graph edges).deps = DependsOn edges := by
    funext x y
    exact propext (edge_graph_iff edges x y)
  obtain ⟨r, hr, hiff⟩ := detect_adjMap horder (Nat.le_refl _)
  rw [hedge] at hiff
  unfold detectCycle
  rw [hr]
  exact hiff

example : detectCycle (graph [⟨1, 2⟩, ⟨2, 3⟩, ⟨3, 1⟩]) [2, 3, 1] = true := by decide

theorem allDependenciesSatisfied_graph_iff (edges : List TaskDependency) (taskID : Int)
    (successful : Int → Bool) :
    allDependenciesSatisfied (graph edges) taskID successful = true
      ↔ ∀ e ∈ edges, e.taskID = taskID → successful e.dependsOnTaskID = true := by
  have hall : allDependenciesSatisfied (graph edges) taskID successful
      = ((graph edges).deps taskID).all successful := by
    show (if ((graph edges).deps taskID).isEmpty then true else _) = _
    cases h : (graph edges).deps taskID with
    | nil | cons d ds => rfl
  rw [hall, deps_graph]
  simp only [List.all_eq_true, List.mem_map, List.mem_filter, decide_eq_true_eq]
  constructor
  · intro h e he ht
    exact h _ ⟨e, ⟨he, ht⟩, rfl⟩
  · rintro h d ⟨e, ⟨he, ht⟩, rfl⟩
    exact h e he ht

end AiScheduler
