/-
  **THE STORED DEPENDENCIES AND CYCLES.**

  `syncDependencies` stores the edges a body asks for and NEVER CALLS `DetectCycle`; an edge from
  a task to itself is accepted too. As long as no request makes a task depend on a task that leads
  back to it, the graph stays acyclic.
-/
import AiScheduler.System.Serving

namespace AiScheduler.Acyclic

open Lib TaskService Relation

variable {env : Nat → Input}

/-! ## What a call does to the edges. -/

theorem edge_of_execCall {inp : Input} {op : Call} {w : World} {e : TaskDependency}
    (h : e ∈ (execCall inp op w).2.tasks.dependencies) :
    e ∈ w.tasks.dependencies ∨ (op = .task (.addDependency e.taskID e.dependsOnTaskID)
          ∧ (w.tasks.tasks.get? e.taskID).isSome
          ∧ (w.tasks.tasks.get? e.dependsOnTaskID).isSome) := by
  cases tasksAfter_execCall inp w op with
  | less _ _ hedges => exact .inl (hedges e h)
  | created _ _ _ hedges => exact .inl (hedges ▸ h)
  | written _ hs =>
    rw [hs] at h
    exact .inl h
  | linked htask hdep hs =>
    rw [hs, List.mem_append, List.mem_singleton] at h
    rcases h with h | rfl
    · exact .inl h
    · exact .inr ⟨rfl, htask, hdep⟩

/-! ## Edges lead between given-out ids. -/

/-- Both ends of every edge are ids that have been given out, perhaps of deleted tasks. -/
def Bounded (w : World) : Prop :=
  ∀ e ∈ w.tasks.dependencies, e.taskID < w.tasks.nextID ∧ e.dependsOnTaskID < w.tasks.nextID

theorem lt_nextID_of_isSome {s : TaskStore} {id : Int} (h : (s.tasks.get? id).isSome) :
    id < s.nextID := by
  obtain ⟨t, ht⟩ := Option.isSome_iff_exists.mp h
  obtain ⟨hmem, hid⟩ := Table.get?_some ht
  rw [← hid]
  exact s.fresh t hmem

theorem bounded_execAt (op : Call) (s : World × Nat) (hs : Bounded s.1) :
    Bounded (execAt env op s).2.1 := by
  intro e he
  have hle := nextID_le_execCall (env s.2) s.1 op
  have hold : e.taskID < s.1.tasks.nextID ∧ e.dependsOnTaskID < s.1.tasks.nextID := by
    rcases edge_of_execCall he with h | ⟨_, hx, hy⟩
    · exact hs e h
    · exact ⟨lt_nextID_of_isSome hx, lt_nextID_of_isSome hy⟩
  show e.taskID < (execCall (env s.2) op s.1).2.tasks.nextID
    ∧ e.dependsOnTaskID < (execCall (env s.2) op s.1).2.tasks.nextID
  omega

theorem bounded_serve (w : World) (r : Request) (hw : Bounded w) : Bounded (serve w r).2 :=
  Prog.run_invariant (execAt r.env) (fun s => Bounded s.1) (fun op s hs => bounded_execAt op s hs)
    _ hw

/-! ## The edges of one request. -/

/-- The edges are among `edges`, but for some from `node` into `ends`. -/
def Within (edges : List TaskDependency) (node : Int) (ends : List Int) (w : World) : Prop :=
  ∀ e ∈ w.tasks.dependencies, e ∈ edges ∨ (e.taskID = node ∧ e.dependsOnTaskID ∈ ends)

/-- Calls that add only such edges. -/
def Adds (node : Int) (ends : List Int) : Call → Prop
  | .task (.addDependency x y) => x = node ∧ y ∈ ends
  | _ => True

theorem within_execAt {edges : List TaskDependency} {node : Int}
    {ends : List Int} (op : Call) (hop : Adds node ends op) (s : World × Nat)
    (hs : Within edges node ends s.1) : Within edges node ends (execAt env op s).2.1 := by
  intro e he
  rcases edge_of_execCall he with h | ⟨rfl, _⟩
  · exact hs e h
  · exact .inr hop

section Step

variable {w : World} {r : Request} {edges : List TaskDependency} {node : Int} {ends : List Int}

theorem within_sync {s : World × Nat} (hs : Within edges node ends s.1) :
    Prog.wp (execAt env) (syncDependencies node ends) (fun _ s' => Within edges node ends s'.1) s :=
  wp_syncDependencies within_execAt trivial (fun _ => trivial) (fun _ _ => trivial)
    (fun _ hy => ⟨rfl, hy⟩) hs

theorem within_storeCreated {task : Task} {n : Nat} :
    Prog.wp (execAt env) (storeCreated task ends)
      (fun _ s' => Within w.tasks.dependencies w.tasks.nextID ends s'.1) (w, n) := by
  unfold storeCreated
  rw [wp_ask_bind]
  rcases exec_createTask_cases (env n) w task with ⟨e, he⟩ | ⟨row, s', he, hid, hdeps⟩
  · rw [he]
    exact fun e he => .inl he
  rw [he]
  dsimp only
  rw [Prog.wp_bind, readTask_id, hid]
  have hcreated : Within w.tasks.dependencies w.tasks.nextID ends { w with tasks := s' } := by
    intro e he
    left
    rw [← hdeps]
    exact he
  refine (within_sync hcreated).mono ?_
  intro res s hs
  cases res with
  | error e | ok u => exact hs

theorem within_storeUpdated {task : Task} {n : Nat} :
    Prog.wp (execAt env) (storeUpdated task ends)
      (fun _ s' => Within w.tasks.dependencies task.id ends s'.1) (w, n) := by
  unfold storeUpdated
  rw [wp_ask_bind]
  rcases exec_updateTask_cases (env n) w task with ⟨e, he⟩ | ⟨current, hcur, he⟩
  · rw [he]
    exact fun e he => .inl he
  rw [he]
  dsimp only
  rw [Prog.wp_bind, readTask_id, updatedTask_id, (Table.get?_some hcur).2]
  refine (within_sync (fun e he => .inl he)).mono ?_
  intro res s hs
  cases res with
  | error e | ok u => exact hs

end Step

/-- Where the new edges of a request go out from, and what they may lead to. -/
def newEdges (w : World) (r : Request) : Int × List Int :=
  match r.op with
  | .createTask req => (w.tasks.nextID, req.dependsOn)
  | .updateTask id req => (id, req.dependsOn)
  | _ => (0, [])

/-- **The edges after a request**: old ones and the ones its body asks for. -/
theorem within_serve (w : World) (r : Request) :
    Within w.tasks.dependencies (newEdges w r).1 (newEdges w r).2 (serve w r).2 := by
  refine serve_keeps within_execAt ⟨trivial, trivial, fun _ => trivial⟩ (fun e he => .inl he)
    ?_ ?_ (fun _ _ => trivial) (fun _ _ _ _ _ _ _ => trivial)
  · intro req hop next n
    unfold newEdges
    rw [hop]
    exact within_storeCreated
  intro id req hop t next n _ _
  unfold newEdges
  rw [hop]
  exact within_storeUpdated

/-! ## The result. -/

def NoCycle (w : World) : Prop := ∀ x, ¬ TransGen (DependsOn w.tasks.dependencies) x x

/-- **What a body may depend on**: a new task not on its own id, an updated one on no task that
leads back to it. -/
def NoWayBack (w : World) (r : Request) : Prop :=
  match r.op with
  | .createTask req => w.tasks.nextID ∉ req.dependsOn
  | .updateTask id req => ∀ d ∈ req.dependsOn, ¬ ReflTransGen (DependsOn w.tasks.dependencies) d id
  | _ => True

theorem not_reflTransGen_nextID {w : World} (hw : Bounded w) {d : Int} (hd : d ≠ w.tasks.nextID) :
    ¬ ReflTransGen (DependsOn w.tasks.dependencies) d w.tasks.nextID := by
  intro h
  rcases ReflTransGen.cases_tail h with h | ⟨x, _, e, he, _, hy⟩
  · exact hd h.symm
  · have := (hw e he).2
    omega

theorem acyclic_serve {w : World} {r : Request} (hr : NoWayBack w r) (hb : Bounded w)
    (hw : NoCycle w) : NoCycle (serve w r).2 := by
  refine Dfs.acyclic_of_new_edges (newEdges w r).1 (fun d => d ∈ (newEdges w r).2) hw ?_ ?_
  · intro x y hxy
    obtain ⟨e, he, rfl, rfl⟩ := hxy
    rcases within_serve w r e he with h | h
    · exact .inl ⟨e, h, rfl, rfl⟩
    · exact .inr h
  intro d hd
  unfold newEdges at hd ⊢
  unfold NoWayBack at hr
  split at hd
  next req hop =>
    rw [hop] at hr
    exact not_reflTransGen_nextID hb (fun heq => hr (heq ▸ hd))
  next id req hop =>
    rw [hop] at hr
    exact hr d hd
  next => cases hd

/-- **THE DEPENDENCY GRAPH STAYS ACYCLIC** in every state reached from a store without dependencies
by requests that lead no task back to itself. -/
theorem dependencies_acyclic (w : World) (hempty : w.tasks.dependencies = []) (rs : List Request)
    (hrs : AllServed NoWayBack w rs) (order : List Int)
    (horder : order.Perm ((graph (serveAll w rs).tasks.dependencies).rows.map Prod.fst)) :
    detectCycle (graph (serveAll w rs).tasks.dependencies) order = false := by
  have hstart : Bounded w ∧ NoCycle w := by
    constructor
    · intro e he
      rw [hempty] at he
      cases he
    · intro x hx
      obtain ⟨y, ⟨e, he, _⟩, _⟩ := TransGen.head'_iff.mp hx
      rw [hempty] at he
      cases he
  have hstep : ∀ w r, NoWayBack w r → Bounded w ∧ NoCycle w →
      Bounded (serve w r).2 ∧ NoCycle (serve w r).2 := by
    intro w r hr hw
    exact ⟨bounded_serve w r hw.1, acyclic_serve hr hw.1 hw.2⟩
  have hinv : Bounded (serveAll w rs) ∧ NoCycle (serveAll w rs) :=
    serveAll_invariant hstep rs w hrs hstart
  rw [Bool.eq_false_iff]
  intro hcycle
  obtain ⟨x, hx⟩ := (detectCycle_graph_iff _ horder).mp hcycle
  exact hinv.2 x hx

def emptyStore : World := World.ofRows .mysql [] [] [] []

def create (name : String) (dependsOn : List Int) : Request :=
  { tenant := 0, op := .createTask { name := name, type := "shell", dependsOn := dependsOn } }

theorem dependencies_acyclic_two :
    detectCycle (graph (serveAll emptyStore
      [create "extract" [], create "load" [1]]).tasks.dependencies) [2] = false :=
  dependencies_acyclic emptyStore rfl [create "extract" [], create "load" [1]]
    ⟨show emptyStore.tasks.nextID ∉ ([] : List Int) by decide,
      show (serve emptyStore (create "extract" [])).2.tasks.nextID ∉ [1] by decide, trivial⟩
    [2] (by decide)

/-- **A task may depend on itself**, and two tasks on each other. -/
theorem cycle_stored :
    detectCycle (graph (serveAll emptyStore [create "extract" [],
          { tenant := 0,
            op := .updateTask 1 { name := "extract", type := "shell", dependsOn := [1] } }]
      ).tasks.dependencies) [1] = true
      ∧ detectCycle (graph (serveAll emptyStore [create "extract" [], create "load" [1],
          { tenant := 0,
            op := .updateTask 1 { name := "extract", type := "shell", dependsOn := [2] } }]
      ).tasks.dependencies) [1, 2] = true := by
  decide

end AiScheduler.Acyclic
