/-
  **THE TASK SERVICE, ONE CALL AFTER THE OTHER.**

  A `Request` is a call of `TaskService` under the tenant of its context; the
  environment supplies clock, map orders and repository faults for each of its
  repository calls.  `serve` runs one request to its end, `serveAll` a sequence.
-/
import AiScheduler.Service.Tasks
import AiScheduler.System.Jobs
import AiScheduler.Lib.Wp
import Mathlib.Data.List.Dedup

namespace AiScheduler

open Lib TaskService Prog

variable {tenant id : Int} {req : TaskUpsertRequest} {task : Task}

/-- The operations of `TaskService`. -/
inductive Operation where
  | createTask (req : TaskUpsertRequest)
  | updateTask (id : Int) (req : TaskUpsertRequest)
  | deleteTask (id : Int)
  | pauseTask (id : Int)
  | resumeTask (id : Int)
  | triggerTask (id : Int)
  | getTask (id : Int)
  | listTasks

/-- The value of a successful operation. -/
inductive Reply where
  | task (t : Task)
  | tasks (ts : List Task)
  | deleted
  deriving DecidableEq

/-- An operation with its reply. -/
def reply {α : Type} (f : α → Reply) (p : Program (Except Err α)) : Program (Except Err Reply) := do
  let r ← p
  return r.map f

/-- The program of an operation under a tenant. -/
def Operation.program (tenant : Int) : Operation → Program (Except Err Reply)
  | createTask req => reply .task (TaskService.createTask tenant req)
  | updateTask id req => reply .task (TaskService.updateTask tenant id req)
  | deleteTask id => reply (fun _ => .deleted) (TaskService.deleteTask tenant id)
  | pauseTask id => reply .task (TaskService.pauseTask tenant id)
  | resumeTask id => reply .task (TaskService.resumeTask tenant id)
  | triggerTask id => reply .task (TaskService.triggerTask tenant id)
  | getTask id => reply .task (TaskService.getTask tenant id)
  | listTasks => reply .tasks (TaskService.listTasks tenant)

/-- The task an operation is about. -/
def Operation.target : Operation → Option Int
  | updateTask id _ | deleteTask id | pauseTask id | resumeTask id | triggerTask id | getTask id =>
    some id
  | createTask _ | listTasks => none

/-- A call of the service. -/
structure Request where
  tenant : Int
  op : Operation
  env : Nat → Input := fun _ => {}

/-- Serve one request: its reply and the world after it. -/
def serve (w : World) (r : Request) : Except Err Reply × World :=
  let res := Prog.run (execAt r.env) (r.op.program r.tenant) (w, 0)
  (res.1, res.2.1)

/-- The world after a sequence of requests. -/
def serveAll (w : World) (rs : List Request) : World := rs.foldl (fun w r => (serve w r).2) w

/-- Every request of the sequence satisfies `ok` in the world it is served in. -/
def AllServed (ok : World → Request → Prop) : World → List Request → Prop
  | _, [] => True
  | w, r :: rs => ok w r ∧ AllServed ok (serve w r).2 rs

/-- **The invariant rule**: what every allowed request keeps, a sequence keeps. -/
theorem serveAll_invariant {ok : World → Request → Prop} {Inv : World → Prop}
    (hstep : ∀ w r, ok w r → Inv w → Inv (serve w r).2) :
    ∀ (rs : List Request) (w : World), AllServed ok w rs → Inv w → Inv (serveAll w rs) := by
  intro rs
  induction rs with
  | nil =>
    intro w _ hw
    exact hw
  | cons r rs ih =>
    intro w hok hw
    exact ih (serve w r).2 hok.2 (hstep w r hok.1 hw)

/-! ## What a request does. -/

section Wp

variable {env : Nat → Input} {β : Type}

theorem wp_ask_bind (c : Call) (f : c.Ans → Program β) (post : β → World × Nat → Prop) (w : World)
    (n : Nat) :
    wp (execAt env) (ask c >>= f) post (w, n) ↔ wp (execAt env) (f (Call.exec (env n) c w).1) post
          ((Call.exec (env n) c w).2, n + 1) := Iff.rfl

theorem wp_task_bind_of_free {n : Nat} (hf : (env n).fault = none) (c : TaskCall)
    (f : Except Err c.Result → Program β) (post : β → World × Nat → Prop) (w : World) :
    wp (execAt env) (ask (.task c) >>= f) post (w, n)
      ↔ wp (execAt env) (f (c.exec w.backend (env n) w.tasks).1) post
          ({ w with tasks := (c.exec w.backend (env n) w.tasks).2 }, n + 1) := by
  rw [wp_ask_bind, show Call.exec (env n) (.task c) w = _ from exec_task w hf c]

theorem wp_inst_bind_of_free {n : Nat} (hf : (env n).fault = none) (c : InstanceCall)
    (f : Except Err c.Result → Program β) (post : β → World × Nat → Prop) (w : World) :
    wp (execAt env) (ask (.inst c) >>= f) post (w, n)
      ↔ wp (execAt env) (f (c.exec w.backend (env n) w.instances).1) post
          ({ w with instances := (c.exec w.backend (env n) w.instances).2 }, n + 1) := by
  rw [wp_ask_bind, show Call.exec (env n) (.inst c) w = _ from exec_inst w hf c]

theorem wp_worker_bind_of_free {n : Nat} (hf : (env n).fault = none) (c : WorkerCall)
    (f : Except Err c.Result → Program β) (post : β → World × Nat → Prop) (w : World) :
    wp (execAt env) (ask (.worker c) >>= f) post (w, n)
      ↔ wp (execAt env) (f (c.exec w.backend (env n) w.workers).1) post
          ({ w with workers := (c.exec w.backend (env n) w.workers).2 }, n + 1) := by
  rw [wp_ask_bind, show Call.exec (env n) (.worker c) w = _ from exec_worker w hf c]

theorem wp_timeNow_bind (f : Int → Program β) (post : β → World × Nat → Prop) (w : World)
    (n : Nat) :
    wp (execAt env) (timeNow >>= f) post (w, n)
      ↔ wp (execAt env) (f (env n).now) post (w, n + 1) := Iff.rfl

section Log

variable {post : β → List (Event System) → World × Nat → Prop} {w : World} {n : Nat}

theorem wpLog_ask_bind {c : Call} {ans : c.Ans} {w' : World} {f : c.Ans → Program β}
    (hexec : Call.exec (env n) c w = (ans, w'))
    (h : wpLog (execAt env) (f ans) (fun r log => post r (⟨c, ans⟩ :: log)) (w', n + 1)) :
    wpLog (execAt env) (ask c >>= f) post (w, n) := by
  show wpLog (execAt env) (f (Call.exec (env n) c w).1)
    (fun r log => post r (⟨c, (Call.exec (env n) c w).1⟩ :: log)) ((Call.exec (env n) c w).2, n + 1)
  rw [hexec]
  exact h

theorem wpLog_task_bind {c : TaskCall} {f : Except Err c.Result → Program β}
    (hfault : (env n).fault ≠ none → ∀ e, wpLog (execAt env) (f (.error e))
      (fun r log => post r (⟨.task c, .error e⟩ :: log)) (w, n + 1))
    (hrun : ∀ ans s, c.exec w.backend (env n) w.tasks = (ans, s) →
      wpLog (execAt env) (f ans) (fun r log => post r (⟨.task c, ans⟩ :: log))
        ({ w with tasks := s }, n + 1)) :
    wpLog (execAt env) (ask (.task c) >>= f) post (w, n) := by
  cases hf : (env n).fault with
  | none => exact wpLog_ask_bind (exec_task w hf c) (hrun _ _ rfl)
  | some text =>
    refine wpLog_ask_bind (by simp only [Call.exec, hf]) (hfault ?_ (.text text))
    rw [hf]
    simp

theorem wpLog_inst_bind {c : InstanceCall} {f : Except Err c.Result → Program β}
    (hfault : (env n).fault ≠ none → ∀ e, wpLog (execAt env) (f (.error e))
      (fun r log => post r (⟨.inst c, .error e⟩ :: log)) (w, n + 1))
    (hrun : ∀ ans s, c.exec w.backend (env n) w.instances = (ans, s) →
      wpLog (execAt env) (f ans) (fun r log => post r (⟨.inst c, ans⟩ :: log))
        ({ w with instances := s }, n + 1)) :
    wpLog (execAt env) (ask (.inst c) >>= f) post (w, n) := by
  cases hf : (env n).fault with
  | none => exact wpLog_ask_bind (exec_inst w hf c) (hrun _ _ rfl)
  | some text =>
    refine wpLog_ask_bind (by simp only [Call.exec, hf]) (hfault ?_ (.text text))
    rw [hf]
    simp

theorem wpLog_worker_bind {c : WorkerCall} {f : Except Err c.Result → Program β}
    (hfault : (env n).fault ≠ none → ∀ e, wpLog (execAt env) (f (.error e))
      (fun r log => post r (⟨.worker c, .error e⟩ :: log)) (w, n + 1))
    (hrun : ∀ ans s, c.exec w.backend (env n) w.workers = (ans, s) →
      wpLog (execAt env) (f ans) (fun r log => post r (⟨.worker c, ans⟩ :: log))
        ({ w with workers := s }, n + 1)) :
    wpLog (execAt env) (ask (.worker c) >>= f) post (w, n) := by
  cases hf : (env n).fault with
  | none => exact wpLog_ask_bind (exec_worker w hf c) (hrun _ _ rfl)
  | some text =>
    refine wpLog_ask_bind (by simp only [Call.exec, hf]) (hfault ?_ (.text text))
    rw [hf]
    simp

theorem wpLog_timeNow_bind (f : Int → Program β) :
    wpLog (execAt env) (timeNow >>= f) post (w, n) ↔ wpLog (execAt env) (f (env n).now)
          (fun r log => post r (⟨.memory .now, (env n).now⟩ :: log)) (w, n + 1) := Iff.rfl

end Log

theorem wp_ask_of_exec {c : Call} {ans : c.Ans} {w w' : World} {n : Nat} {f : c.Ans → Program β}
    {post : β → World × Nat → Prop} (hexec : execCall (env n) c w = (ans, w'))
    (h : wp (execAt env) (f ans) post (w', n + 1)) :
    wp (execAt env) (ask c >>= f) post (w, n) := by
  rw [wp_ask_bind, show Call.exec (env n) c w = _ from hexec]
  exact h

theorem serve_of_wp {r : Request} {w : World} {post : World → Prop}
    (h : wp (execAt r.env) (r.op.program r.tenant) (fun _ s => post s.1) (w, 0)) :
    post (serve w r).2 := h

theorem wp_reply {α : Type} {g : α → Reply} {p : Program (Except Err α)}
    {post : Except Err Reply → World × Nat → Prop} {s : World × Nat} :
    wp (execAt env) (reply g p) post s ↔ wp (execAt env) p (fun r s' => post (r.map g) s') s :=
  wp_bind p _ post s

theorem wp_loadOwned (tenant id : Int) (w : World) (n : Nat) :
    wp (execAt env) (loadOwned tenant id) (fun r s => s.1 = w ∧ ∀ task, r = .ok task →
        ∃ t, w.tasks.tasks.get? id = some t ∧ task = readTask w.backend t
          ∧ (tenant = 0 ∨ task.tenantID = 0 ∨ task.tenantID = tenant)) (w, n) := by
  unfold loadOwned
  split
  · exact ⟨rfl, fun task h => absurd h (by simp)⟩
  rcases exec_getTask_cases (env n) w id with ⟨e, he⟩ | ⟨t, ht, he⟩
  · exact wp_ask_of_exec he ⟨rfl, fun task h => absurd h (by simp)⟩
  refine wp_ask_of_exec he ?_
  dsimp only
  cases hc : checkTenant tenant (readTask w.backend t) with
  | error e => exact ⟨rfl, fun task h => absurd h (by simp)⟩
  | ok u =>
    refine ⟨rfl, ?_⟩
    intro task htask
    cases htask
    exact ⟨t, ht, rfl, (checkTenant_eq_ok_iff _ _).mp hc⟩

theorem wp_loadOwned_bind {f : Except Err Task → Program (Except Err β)}
    {post : Except Err β → World × Nat → Prop} {w : World} {n : Nat}
    (herr : ∀ e n, wp (execAt env) (f (.error e)) post (w, n))
    (hok : ∀ t n, w.tasks.tasks.get? id = some t → (tenant = 0 ∨ (readTask w.backend t).tenantID = 0
        ∨ (readTask w.backend t).tenantID = tenant) →
      wp (execAt env) (f (.ok (readTask w.backend t))) post (w, n)) :
    wp (execAt env) (loadOwned tenant id >>= f) post (w, n) := by
  rw [wp_bind]
  refine (wp_loadOwned tenant id w n).mono ?_
  intro r s hs
  obtain ⟨w', n'⟩ := s
  obtain ⟨hw, hr⟩ := hs
  obtain rfl : w' = w := hw
  cases r with
  | error e => exact herr e n'
  | ok task =>
    obtain ⟨t, hg, rfl, ht⟩ := hr task rfl
    exact hok t n' hg ht

theorem wp_buildTask {post : Except Err Task → World × Nat → Prop} {w : World} {n : Nat}
    (herr : ∀ e n, post (.error e) (w, n))
    (hok : ∀ next n, post (.ok (requestedTask id req next)) (w, n)) :
    wp (execAt env) (buildTask id req) post (w, n) := by
  unfold buildTask
  split
  · exact herr _ n
  split
  · exact herr _ n
  rw [wp_bind]
  unfold requestedTrigger
  split
  · exact hok _ n
  cases Cron.validate req.cronExpr with
  | error e => exact herr _ n
  | ok u =>
  dsimp only
  split
  · exact hok _ n
  rw [wp_timeNow_bind]
  cases Cron.nextAfter (env n).now req.cronExpr with
  | error e => exact herr _ (n + 1)
  | ok next => exact hok next (n + 1)

theorem wp_updatedTrigger {current : Task} {post : Except Err Int → World × Nat → Prop}
    {w : World} {n : Nat} (h : ∀ r n, post r (w, n)) :
    wp (execAt env) (updatedTrigger task current) post (w, n) := by
  unfold updatedTrigger
  split
  · exact h _ n
  split
  · rw [wp_timeNow_bind]
    cases Cron.nextAfter (env n).now task.cronExpr with
    | error e | ok next => exact h _ (n + 1)
  · exact h _ n

theorem wp_createTask {post : Except Err Task → World × Nat → Prop} {w : World} {n : Nat}
    (herr : ∀ e n, post (.error e) (w, n)) (hok : ∀ next n, wp (execAt env)
      (storeCreated { requestedTask 0 req next with
        tenantID := if req.tenantID = 0 then tenant else req.tenantID }
        req.dependsOn) post (w, n)) :
    wp (execAt env) (TaskService.createTask tenant req) post (w, n) := by
  unfold TaskService.createTask
  rw [wp_bind]
  exact wp_buildTask herr hok

theorem wp_updateTask {post : Except Err Task → World × Nat → Prop} {w : World} {n : Nat}
    (herr : ∀ e n, post (.error e) (w, n)) (hok : ∀ t next n, w.tasks.tasks.get? id = some t →
      (tenant = 0 ∨ (readTask w.backend t).tenantID = 0
        ∨ (readTask w.backend t).tenantID = tenant) →
      wp (execAt env)
        (storeUpdated { requestedTask id req next with
          createdAt := (readTask w.backend t).createdAt
          version := (readTask w.backend t).version } req.dependsOn) post (w, n)) :
    wp (execAt env) (TaskService.updateTask tenant id req) post (w, n) := by
  unfold TaskService.updateTask
  apply wp_loadOwned_bind
  · exact herr
  intro t n hg htenant
  dsimp only
  rw [wp_bind]
  refine wp_buildTask herr ?_
  intro built n
  dsimp only
  rw [wp_bind]
  apply wp_updatedTrigger
  intro r n
  cases r with
  | error e => exact herr e n
  | ok next => exact hok t next n hg htenant

end Wp

/-! ## The calls that follow a write. -/

section Calls

variable {φ : Call → Prop}

theorem calls_removeDeps (hφ : ∀ x y, φ (.task (.removeDependency x y))) (taskID : Int) :
    ∀ ids : List Int, Calls (S := System) φ (removeDeps taskID ids) := by
  intro ids
  induction ids with
  | nil => trivial
  | cons id ids ih =>
    refine ⟨hφ taskID id, ?_⟩
    intro ans
    cases ans with
    | error e => trivial
    | ok u => exact ih

theorem calls_addDeps (taskID : Int) :
    ∀ ids : List Int, (∀ y ∈ ids, φ (.task (.addDependency taskID y))) →
      Calls (S := System) φ (addDeps taskID ids) := by
  intro ids
  induction ids with
  | nil =>
    intro _
    trivial
  | cons id ids ih =>
  intro hφ
  refine ⟨hφ id List.mem_cons_self, ?_⟩
  intro ans
  cases ans with
  | error e => trivial
  | ok u => exact ih (fun y hy => hφ y (.tail _ hy))

/-- The calls of `syncDependencies`. -/
structure Syncs (φ : Call → Prop) : Prop where
  list : ∀ x, φ (.task (.listUpstreamDeps x))
  range : ∀ keys, φ (.memory (.rangeOrder keys))
  remove : ∀ x y, φ (.task (.removeDependency x y))
  add : ∀ x y, φ (.task (.addDependency x y))

theorem calls_syncDependencies (hφ : Syncs φ) (taskID : Int) (dependsOn : List Int) :
    Calls (S := System) φ (syncDependencies taskID dependsOn) := by
  refine ⟨hφ.list taskID, ?_⟩
  intro ans
  cases ans with
  | error e => trivial
  | ok existing =>
  refine ⟨hφ.range _, ?_⟩
  intro stale
  apply calls_bind (calls_removeDeps hφ.remove taskID _)
  intro r
  cases r with
  | error e => trivial
  | ok u => exact ⟨hφ.range _, fun wanted => calls_addDeps taskID _ (fun y _ => hφ.add taskID y)⟩

theorem calls_storeCreated (hφ : Syncs φ) (hcreate : φ (.task (.createTask task)))
    (dependsOn : List Int) : Calls (S := System) φ (storeCreated task dependsOn) := by
  refine ⟨hcreate, ?_⟩
  intro ans
  cases ans with
  | error e => trivial
  | ok stored =>
    apply calls_bind (calls_syncDependencies hφ stored.id dependsOn)
    intro r
    cases r with
    | error e | ok u => trivial

theorem calls_storeUpdated (hφ : Syncs φ) (hupdate : φ (.task (.updateTask task)))
    (dependsOn : List Int) : Calls (S := System) φ (storeUpdated task dependsOn) := by
  refine ⟨hupdate, ?_⟩
  intro ans
  cases ans with
  | error e => trivial
  | ok stored =>
    apply calls_bind (calls_syncDependencies hφ stored.id dependsOn)
    intro r
    cases r with
    | error e | ok u => trivial

structure Reads (φ : Call → Prop) : Prop where
  now : φ (.memory .now)
  listTasks : φ (.task .listTasks)
  listTasksByTenant : ∀ tenantID, φ (.task (.listTasksByTenant tenantID))

/-- **The rule for one request**: an invariant of reading calls is kept if the write keeps it.
`PauseTask`, `ResumeTask` and `TriggerTask` keep the task's id and tenant. -/
theorem serve_keeps {Inv : World → Prop} {w : World} {r : Request}
    (hφ : ∀ op, φ op → ∀ s : World × Nat, Inv s.1 → Inv (execAt r.env op s).2.1)
    (hreads : Reads φ) (hw : Inv w) (hcreate : ∀ req, r.op = .createTask req → ∀ next n,
      wp (execAt r.env) (storeCreated { requestedTask 0 req next with
        tenantID := if req.tenantID = 0 then r.tenant else req.tenantID } req.dependsOn)
        (fun _ s => Inv s.1) (w, n))
    (hupdate : ∀ id req, r.op = .updateTask id req → ∀ t next n, w.tasks.tasks.get? id = some t →
      (r.tenant = 0 ∨ (readTask w.backend t).tenantID = 0
        ∨ (readTask w.backend t).tenantID = r.tenant) →
      wp (execAt r.env) (storeUpdated { requestedTask id req next with
          createdAt := (readTask w.backend t).createdAt
          version := (readTask w.backend t).version } req.dependsOn)
        (fun _ s => Inv s.1) (w, n))
    (hdelete : ∀ id, r.op = .deleteTask id → φ (.task (.deleteTask id)))
    (hback : ∀ id t task, r.op.target = some id → w.tasks.tasks.get? id = some t →
      task.id = id → task.tenantID = t.tenantID → φ (.task (.updateTask task))) :
    Inv (serve w r).2 := by
  apply serve_of_wp
  -- a last part whose calls are all allowed
  have hkeeps : ∀ {α : Type} {p : Program α} {n : Nat}, Calls φ p →
      wp (execAt r.env) p (fun _ s => Inv s.1) (w, n) := by
    intro α p n hp
    exact wp_of_calls hφ hp hw
  -- an operation that loads its task and writes it back
  have hload :
      ∀ {β : Type} {g : β → Reply} {id : Int} {f : Except Err Task → Program (Except Err β)},
      (∀ e, f (.error e) = ret (.error e)) →
      (∀ t, w.tasks.tasks.get? id = some t → Calls φ (f (.ok (readTask w.backend t)))) →
      wp (execAt r.env) (reply g (loadOwned r.tenant id >>= f)) (fun _ s => Inv s.1) (w, 0) := by
    intro β g id f herr hok
    apply wp_reply.mpr
    apply wp_loadOwned_bind
    · intro e n
      rw [herr]
      exact hw
    · intro t n hg _
      exact hkeeps (hok t hg)
  have hwrite : ∀ {id : Int} {t task : Task}, r.op.target = some id →
      w.tasks.tasks.get? id = some t → task.id = (readTask w.backend t).id →
      task.tenantID = (readTask w.backend t).tenantID → φ (.task (.updateTask task)) := by
    intro id t task htarget hg hid htenant
    rw [readTask_id, (Table.get?_some hg).2] at hid
    rw [readTask_tenantID] at htenant
    exact hback id t task htarget hg hid htenant
  cases hop : r.op with
  | createTask req =>
    apply wp_reply.mpr
    exact wp_createTask (fun e n => hw) (hcreate req hop)
  | updateTask id req =>
    apply wp_reply.mpr
    exact wp_updateTask (fun e n => hw) (hupdate id req hop)
  | deleteTask id => exact hload (fun e => rfl) (fun t hg => ⟨hdelete id hop, fun _ => trivial⟩)
  | pauseTask id =>
    exact hload (fun e => rfl)
      (fun t hg => ⟨hwrite (by rw [hop]; rfl) hg rfl rfl, fun _ => trivial⟩)
  | resumeTask id =>
    refine hload (fun e => rfl) ?_
    intro t hg
    show Calls (S := System) φ (if (readTask w.backend t).cronExpr = "" then _ else _)
    split
    · exact ⟨hwrite (by rw [hop]; rfl) hg rfl rfl, fun _ => trivial⟩
    refine calls_perform_bind hreads.now ?_
    intro now
    cases Cron.nextAfter now (readTask w.backend t).cronExpr with
    | error e => trivial
    | ok next => exact ⟨hwrite (by rw [hop]; rfl) hg rfl rfl, fun _ => trivial⟩
  | triggerTask id =>
    refine hload (fun e => rfl) ?_
    intro t hg
    show Calls (S := System) φ (if (readTask w.backend t).status ≠ .enabled then _ else _)
    split
    · trivial
    · exact ⟨hreads.now, fun _ => ⟨hwrite (by rw [hop]; rfl) hg rfl rfl, fun _ => trivial⟩⟩
  | getTask id =>
    apply wp_reply.mpr
    refine (wp_loadOwned r.tenant id w 0).mono ?_
    intro res s hs
    rw [hs.1]
    exact hw
  | listTasks =>
    apply wp_reply.mpr
    apply hkeeps
    show Calls (S := System) φ (if r.tenant ≠ 0 then _ else _)
    split
    · exact ⟨hreads.listTasksByTenant _, fun _ => trivial⟩
    · exact ⟨hreads.listTasks, fun _ => trivial⟩

/-- `syncDependencies` adds edges only to the tasks it is given, in any map order. -/
theorem wp_syncDependencies {env : Nat → Input} {Inv : World × Nat → Prop} {taskID : Int}
    {dependsOn : List Int} (hφ : ∀ op, φ op → ∀ s, Inv s → Inv (execAt env op s).2)
    (hlist : φ (.task (.listUpstreamDeps taskID))) (hrange : ∀ keys, φ (.memory (.rangeOrder keys)))
    (hremove : ∀ x y, φ (.task (.removeDependency x y)))
    (hadd : ∀ y ∈ dependsOn, φ (.task (.addDependency taskID y))) {s : World × Nat} (hs : Inv s) :
    wp (execAt env) (syncDependencies taskID dependsOn) (fun _ s' => Inv s') s := by
  have hs₁ := hφ _ hlist s hs
  unfold syncDependencies
  rw [wp_perform_bind]
  generalize execAt env (.task (.listUpstreamDeps taskID)) s = r₁ at hs₁ ⊢
  obtain ⟨ans, s₁⟩ := r₁
  cases ans with
  | error e => exact hs₁
  | ok existing =>
  dsimp only
  rw [wp_perform_bind]
  have hs₂ := hφ _ (hrange existing.dedup) s₁ hs₁
  apply wp_bind_of_calls hφ (calls_removeDeps hremove taskID _) hs₂
  intro r s₃ hs₃
  cases r with
  | error e => exact hs₃
  | ok u =>
  dsimp only
  rw [wp_perform_bind]
  have hs₄ := hφ _ (hrange dependsOn.dedup) s₃ hs₃
  apply wp_of_calls hφ _ hs₄
  apply calls_addDeps
  intro y hy
  -- the answer is a permutation of the wanted ids
  have hperm := (env s₃.2).shuffle_perm dependsOn.dedup
  exact hadd y (List.mem_dedup.mp (hperm.mem_iff.mp (List.mem_of_mem_filter hy)))

end Calls

end AiScheduler
