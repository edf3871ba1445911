/-
  **LOST UPDATES OF A TASK.**

  Seven operations read a task's row, change the copy and write the WHOLE row back; the version
  column is never compared. Two of them on one task are a race on the task store (`Lib.Race`). A
  write is LATE when the other operation has written since the writer read.
-/
import AiScheduler.Lib.Race
import AiScheduler.Proofs.Outlines
import AiScheduler.System.Serving

namespace AiScheduler.LostUpdate

open Lib Prog Outlines TriggerLoop

variable {β : Type} {id tenant : Int} {task : Task} {b : Backend} {s : TaskStore}

variable {q : Race.Phase} {url : String} {s' : TaskStore}

/-! ## The operations. -/

/-- A read-modify-write operation on a task. The trigger loop reads it through the cached ids
(`handleCached`) or among the due tasks (`handleDue`). -/
inductive TaskOp where
  | pause (tenant : Int)
  | resume (tenant : Int)
  | trigger (tenant : Int)
  | update (tenant : Int) (req : TaskService.TaskUpsertRequest)
  | handleCached (url : String)
  | handleDue (url : String)
  | fire

/-- The part of a scan that concerns task `id`, read through the cached ids. -/
def handleCached (url : String) (id : Int) : Program Unit := do
  let tasks ← TriggerLoop.loadCached [id]
  TriggerLoop.handleTasks url tasks

/-- The part of a scan that concerns task `id`, read among the due tasks. -/
def handleDue (url : String) (id : Int) : Program Unit := do
  match ← listDueTasks 100 with
  | .error _ => return ()
  | .ok tasks => TriggerLoop.handleTasks url (tasks.find? (fun t => t.id = id)).toList

def TaskOp.program (id : Int) : TaskOp → Program (Except Err Unit)
  | pause tenant => outcome (TaskService.pauseTask tenant id)
  | resume tenant => outcome (TaskService.resumeTask tenant id)
  | trigger tenant => outcome (TaskService.triggerTask tenant id)
  | update tenant req => outcome (TaskService.updateTask tenant id req)
  | handleCached url => done (LostUpdate.handleCached url id)
  | handleDue url => done (LostUpdate.handleDue url id)
  | fire => done (Runtime.fireTask id)

def isRead : Call → Bool
  | .task (.getTask _) | .task (.listDueTasks _) => true
  | _ => false

def isWrite : Call → Bool
  | .task (.updateTask _) => true
  | _ => false

/-- What one step finds around the rows of the task table. -/
structure Moment where
  inp : Input := {}
  world : World

variable {m : Moment} {is : List Moment}

/-- A call on the task rows `s`; other calls are answered by the world around. -/
def taskExec (b : Backend) (m : Moment) : (op : System.Op) → TaskStore → System.Ans op × TaskStore
  | .task (.getTask id), s =>
    ((Call.exec m.inp (.task (.getTask id)) { m.world with backend := b, tasks := s }).1, s)
  | .task (.listDueTasks limit), s =>
    ((Call.exec m.inp (.task (.listDueTasks limit)) { m.world with backend := b, tasks := s }).1, s)
  | .task (.updateTask task), s =>
    ((Call.exec m.inp (.task (.updateTask task)) { m.world with backend := b, tasks := s }).1,
      (Call.exec m.inp (.task (.updateTask task))
        { m.world with backend := b, tasks := s }).2.tasks)
  | op, s => ((Call.exec m.inp op m.world).1, s)

def race (id : Int) (ops : Bool → TaskOp) (s : TaskStore) :
    Race System TaskStore (Except Err Unit) where
  threads x := (ops x).program id
  store := s
  stale _ := false

def after (b : Backend) (id : Int) (ops : Bool → TaskOp) (s : TaskStore)
    (steps : List (Bool × Moment)) : Race System TaskStore (Except Err Unit) :=
  (race id ops s).run (taskExec b) isRead isWrite steps

/-- **No late write**: an operation writes only if the other has not written since it read. -/
def noLateWrite (b : Backend) (id : Int) (ops : Bool → TaskOp) (s : TaskStore)
    (steps : List (Bool × Moment)) : Bool :=
  (race id ops s).clean (taskExec b) isRead isWrite steps

/-! ## Each operation reads once and then writes at most once. -/

abbrev protocol : Protocol System := Race.rmw isRead isWrite

theorem lawful (b : Backend) : Race.Lawful (taskExec b) isRead isWrite where
  keeps := by
    intro m op s hw
    unfold taskExec
    split
    · rfl
    · rfl
    · simp [isWrite] at hw
    · rfl
  private_ans := by
    intro m op s s' hw hr
    cases op with
    | task c =>
      cases c with
      | getTask id | listDueTasks limit => simp [isRead] at hr
      | updateTask task => simp [isWrite] at hw
      | _ => rfl
    | _ => rfl

def isPrivate (op : Call) : Prop := isWrite op = false ∧ isRead op = false

theorem next_of_isPrivate (q : Race.Phase) (op : Call) (h : isPrivate op) (ans : op.Ans) :
    protocol.next q op ans = some q := by
  show (if isWrite op then _ else if isRead op then _ else some q) = some q
  rw [h.1, h.2]
  rfl

theorem follows_private {α : Type} {post : Race.Phase → β → Prop}
    {p : Program α} {f : α → Program β} (hp : Calls isPrivate p)
    (hf : ∀ a, Follows protocol post q (f a)) : Follows protocol post q (p >>= f) :=
  follows_bind_idle (next_of_isPrivate q) hp hf

theorem follows_getTask {post : Race.Phase → β → Prop}
    {f : Except Err Task → Program β} (hf : ∀ ans, Follows protocol post .held (f ans)) :
    Follows protocol post .fresh (getTask id >>= f) :=
  follows_perform (fun _ => Race.Phase.held) (fun _ => rfl) hf

theorem follows_updateTask {post : Race.Phase → β → Prop}
    {f : Except Err Task → Program β} (hf : ∀ ans, Follows protocol post .written (f ans)) :
    Follows protocol post .held (updateTask task >>= f) :=
  follows_perform (fun _ => Race.Phase.written) (fun _ => rfl) hf

theorem follows_updateTask_last {post : Race.Phase → Except Err Task → Prop}
    (hpost : ∀ ans, post .written ans) : Follows protocol post .held (updateTask task) := by
  rw [← bind_ret (updateTask task)]
  exact follows_updateTask hpost

/-! ### The service's operations. -/

theorem follows_loadOwned (tenant id : Int) :
    Follows protocol (fun q r => ∀ task, r = .ok task → q = .held) .fresh
      (TaskService.loadOwned tenant id) := by
  have hnone : ∀ {q} e, ∀ task, (Except.error e : Except Err Task) = .ok task →
      q = Race.Phase.held :=
    fun _ _ h => nomatch h
  unfold TaskService.loadOwned
  split
  · exact hnone _
  apply follows_getTask
  intro ans
  cases ans with
  | error e => exact hnone e
  | ok task =>
    dsimp only
    cases TaskService.checkTenant tenant task with
    | error e => exact hnone e
    | ok u => exact fun _ _ => rfl

theorem follows_after_load {f : Except Err Task → Program (Except Err Task)}
    (herr : ∀ e, ∃ r, f (.error e) = .ret r)
    (hok : ∀ task, Follows protocol (fun _ _ => True) .held (f (.ok task))) :
    Follows protocol (fun _ _ => True) .fresh (TaskService.loadOwned tenant id >>= f) := by
  apply follows_bind
  refine (follows_loadOwned tenant id).mono ?_
  intro q r hq
  cases r with
  | error e =>
    obtain ⟨r, hr⟩ := herr e
    rw [hr]
    trivial
  | ok task =>
    rw [hq task rfl]
    exact hok task

theorem follows_pauseTask (tenant id : Int) :
    Follows protocol (fun _ _ => True) .fresh (TaskService.pauseTask tenant id) :=
  follows_after_load (fun _ => ⟨_, rfl⟩) (fun _ => follows_updateTask_last (fun _ => trivial))

theorem follows_timeNow {post : Race.Phase → β → Prop}
    {f : Int → Program β} (hf : ∀ now, Follows protocol post q (f now)) :
    Follows protocol post q (timeNow >>= f) :=
  follows_perform_idle (fun _ => rfl) hf

theorem follows_resumeTask (tenant id : Int) :
    Follows protocol (fun _ _ => True) .fresh (TaskService.resumeTask tenant id) := by
  refine follows_after_load (fun _ => ⟨_, rfl⟩) fun task => ?_
  show Follows protocol _ .held (if task.cronExpr = "" then _ else _)
  split
  · exact follows_updateTask_last (fun _ => trivial)
  refine follows_timeNow fun now => ?_
  cases Cron.nextAfter now task.cronExpr with
  | error e => trivial
  | ok next => exact follows_updateTask_last (fun _ => trivial)

theorem follows_triggerTask (tenant id : Int) :
    Follows protocol (fun _ _ => True) .fresh (TaskService.triggerTask tenant id) := by
  refine follows_after_load (fun _ => ⟨_, rfl⟩) fun task => ?_
  show Follows protocol _ .held (if task.status ≠ .enabled then _ else _)
  split
  · trivial
  · exact follows_timeNow fun now => follows_updateTask_last (fun _ => trivial)

theorem calls_buildTask (id : Int) (req : TaskService.TaskUpsertRequest) :
    Calls isPrivate (TaskService.buildTask id req) := by
  have htrigger : Calls isPrivate (TaskService.requestedTrigger req) := by
    unfold TaskService.requestedTrigger
    split
    · trivial
    split
    · trivial
    split
    · trivial
    refine calls_perform_bind ⟨rfl, rfl⟩ fun now => ?_
    cases Cron.nextAfter now req.cronExpr <;> trivial
  unfold TaskService.buildTask
  split
  · trivial
  split
  · trivial
  exact calls_bind htrigger fun r => by cases r <;> trivial

theorem calls_updatedTrigger {task current : Task} :
    Calls isPrivate (TaskService.updatedTrigger task current) := by
  unfold TaskService.updatedTrigger
  split
  · trivial
  split
  · refine calls_perform_bind ⟨rfl, rfl⟩ fun now => ?_
    cases Cron.nextAfter now task.cronExpr <;> trivial
  · trivial

theorem syncs_private : Syncs isPrivate where
  list _ := ⟨rfl, rfl⟩
  range _ := ⟨rfl, rfl⟩
  remove _ _ := ⟨rfl, rfl⟩
  add _ _ := ⟨rfl, rfl⟩

theorem follows_serviceUpdate {tenant id : Int} {req : TaskService.TaskUpsertRequest} :
    Follows protocol (fun _ _ => True) .fresh (TaskService.updateTask tenant id req) := by
  refine follows_after_load (fun _ => ⟨_, rfl⟩) fun current => ?_
  refine follows_private (calls_buildTask id req) fun built => ?_
  cases built with
  | error e => trivial
  | ok task =>
  refine follows_private calls_updatedTrigger fun trigger => ?_
  cases trigger with
  | error e => trivial
  | ok next =>
  refine follows_updateTask fun ans => ?_
  cases ans with
  | error e => trivial
  | ok stored =>
    refine follows_private (calls_syncDependencies syncs_private stored.id req.dependsOn)
      fun r => ?_
    cases r <;> trivial

/-! ### Rescheduling and firing. -/

theorem isPrivate_of_isRouting (op : Call) (h : Parts.IsRouting op) : isPrivate op :=
  Parts.forall_isRouting (fun _ => ⟨rfl, rfl⟩) (fun _ => ⟨rfl, rfl⟩) ⟨rfl, rfl⟩ op h

theorem isPrivate_of_isQuery (op : Call) (h : Parts.IsQuery op) : isPrivate op :=
  Parts.forall_isQuery (fun _ _ => ⟨rfl, rfl⟩) op h

theorem keeps_private (q : Race.Phase) : protocol.Keeps (fun q' => q' = q) isPrivate :=
  Protocol.keeps_eq (next_of_isPrivate q)

theorem leads_deferTask (task : Task) (delay : Int) :
    Leads protocol (fun q => q = .held) (deferTask task delay) (fun _ _ => True) := by
  rintro _ rfl
  exact follows_timeNow fun now => follows_updateTask fun _ => trivial

theorem leads_runShard (url : String) (task : Task) (shard : Nat) :
    Leads protocol (fun q => q = .held) (runShard url task shard)
      (Outlines.Onward (fun q => q = .held) (fun _ => True)) := by
  have hkeeps := keeps_private .held
  refine Outlines.leads_runShard (P := protocol) (I := fun _ q => q = .held)
    (C := fun _ q => q = .held) (D := fun _ q => q = .held) (W := fun _ _ q => q = .held)
    (hkeeps (.memory .now) ⟨rfl, rfl⟩) ?_ ?_ (leads_deferTask task _) (fun _ _ _ _ => trivial) ?_
  · intro idTime triggerTime
    refine (hkeeps (.inst (.createInstance _)) ⟨rfl, rfl⟩).mono (fun _ h => h) ?_
    intro q r h
    cases r with
    | error e => trivial
    | ok inst => exact h
  · intro inst
    exact (hkeeps.leads ((Parts.calls_pick _).mono isPrivate_of_isRouting)).mono (fun _ h => h)
      (fun _ r h => Either.same h r)
  intro inst worker
  refine hkeeps.leads ((Parts.calls_dispatchShard url task shard inst worker).mono ?_)
  intro op hop
  cases hop with
  | routing h => exact isPrivate_of_isRouting op h
  | _ => exact ⟨rfl, rfl⟩

theorem leads_reschedule (task : Task) :
    Leads protocol (fun q => q = .held) (reschedule task) (fun _ _ => True) := by
  rintro _ rfl
  refine follows_timeNow fun now => ?_
  cases nextTriggerTime task now with
  | error e => trivial
  | ok next => exact follows_updateTask fun ans => by cases ans <;> trivial

theorem leads_handleTask (url : String) (task : Task) :
    Leads protocol (fun q => q = .held) (handleTask url task) (fun _ _ => True) := by
  have hkeeps := keeps_private .held
  refine Outlines.leads_handleTask (P := protocol) (I := fun _ q => q = .held) ?_ ?_
    (leads_deferTask task _) (leads_runShard url task) (fun _ _ => leads_reschedule task)
  · exact fun op hop => hkeeps op (isPrivate_of_isQuery op hop)
  refine (hkeeps (.task (.listUpstreamDeps task.id)) ⟨rfl, rfl⟩).mono (fun _ h => h) ?_
  intro q r h
  cases r with
  | error e => trivial
  | ok upstream => exact h

theorem follows_handleTasks (url : String) (task : Option Task) :
    Follows protocol (fun _ _ => True) .held (handleTasks url task.toList) := by
  cases task with
  | none => trivial
  | some task =>
  refine follows_perform_idle (fun _ => rfl) fun allowed => ?_
  cases allowed with
  | false => trivial
  | true => exact follows_bind ((leads_handleTask url task _ rfl).mono fun _ _ _ => trivial)

theorem follows_handleCached {id : Int} :
    Follows protocol (fun _ _ => True) .fresh (handleCached url id) := by
  apply follows_bind
  refine follows_getTask fun ans => ?_
  cases ans with
  | error e => trivial
  | ok t =>
  show Follows protocol _ .held (if t.status = .enabled then _ else _)
  split
  · refine follows_timeNow fun now => ?_
    show Follows protocol _ .held (handleTasks url (if ¬ t.nextTriggerTime > now then [t] else []))
    split
    · exact follows_handleTasks url (some t)
    · exact follows_handleTasks url none
  · trivial

theorem follows_handleDue (url : String) (id : Int) :
    Follows protocol (fun _ _ => True) .fresh (handleDue url id) := by
  refine follows_perform (fun _ => Race.Phase.held) (fun _ => rfl) fun ans => ?_
  cases ans with
  | error e => trivial
  | ok tasks => exact follows_handleTasks url _

theorem follows_fireTask (id : Int) :
    Follows protocol (fun _ _ => True) .fresh (Runtime.fireTask id) := by
  refine follows_getTask fun ans => ?_
  cases ans with
  | error e => trivial
  | ok dt =>
  show Follows protocol _ .held (if dt.status ≠ .enabled then _ else _)
  split
  · trivial
  · exact follows_timeNow fun now => follows_updateTask fun _ => trivial

/-- **Every operation** is a read, then at most one write. -/
theorem follows_program (id : Int) (op : TaskOp) :
    Follows protocol (fun _ _ => True) .fresh (op.program id) := by
  cases op with
  | pause tenant => exact follows_outcome (follows_pauseTask tenant id)
  | resume tenant => exact follows_outcome (follows_resumeTask tenant id)
  | trigger tenant => exact follows_outcome (follows_triggerTask tenant id)
  | update tenant req => exact follows_outcome follows_serviceUpdate
  | handleCached url => exact follows_done follows_handleCached
  | handleDue url => exact follows_done (follows_handleDue url id)
  | fire => exact follows_done (follows_fireTask id)

/-! ## Pausing against rescheduling. -/

/-- Task `id`, if stored, is disabled. -/
def Paused (id : Int) (s : TaskStore) : Prop :=
  ∀ t, s.tasks.get? id = some t → t.status = .disabled

theorem taskExec_getTask {b : Backend} {id : Int} {s : TaskStore} :
    (∃ e, (taskExec b m (.task (.getTask id)) s).1 = .error e) ∨ ∃ t, s.tasks.get? id = some t
          ∧ (taskExec b m (.task (.getTask id)) s).1 = .ok (readTask b t) := by
  show (∃ e, (Call.exec m.inp (.task (.getTask id)) _).1 = .error e)
    ∨ ∃ t, _ ∧ (Call.exec m.inp (.task (.getTask id)) _).1 = _
  simp only [Call.exec, TaskCall.exec, TaskStore.getTask]
  cases m.inp.fault <;> cases s.tasks.get? id <;> simp

theorem status_of_taskExec_updateTask {stored t : Task}
    (hok : (taskExec b m (.task (.updateTask task)) s).1 = .ok stored)
    (ht : (taskExec b m (.task (.updateTask task)) s).2.tasks.get? task.id = some t) :
    t.status = task.status := by
  have hexec : taskExec b m (.task (.updateTask task)) s
      = ((Call.exec m.inp (.task (.updateTask task)) { m.world with backend := b, tasks := s }).1,
          (Call.exec m.inp (.task (.updateTask task))
            { m.world with backend := b, tasks := s }).2.tasks) := rfl
  rw [hexec] at hok ht
  cases hf : m.inp.fault with
  | some text =>
    simp only [Call.exec, hf] at hok
    cases hok
  | none =>
  simp only [Call.exec, hf, TaskCall.exec] at hok ht
  rcases s.updateTask_cases b m.inp.now task with ⟨e, he⟩ | ⟨current, hcur, hw⟩
  · rw [he] at hok
    cases hok
  rw [hw] at ht
  simp only [TaskStore.get?_write, hcur, Option.map_some, Option.some.injEq] at ht
  rw [if_pos (Table.get?_some hcur).2] at ht
  rw [← ht, updatedTask_status]

theorem id_of_loadOwned
    (h : (TaskService.loadOwned tenant id).feed (taskExec b) is s = (.ret (.ok task), s')) :
    task.id = id := by
  unfold TaskService.loadOwned at h
  split at h
  · rw [pure_eq, feed_ret] at h
    cases congrArg Prod.fst h
  obtain ⟨r, is₁, is₂, s₁, hget, hrest⟩ := feed_bind_ret h
  obtain ⟨m, hm⟩ := feed_perform_ret hget
  have hr : (taskExec b m (.task (.getTask id)) s).1 = r := congrArg Prod.fst hm
  rcases taskExec_getTask with ⟨e, he⟩ | ⟨t, ht, hread⟩
  · -- the read fails, and so does the start
    rw [← hr, he] at hrest
    simp at hrest
  rw [← hr, hread] at hrest
  dsimp only at hrest
  cases hcheck : TaskService.checkTenant tenant (readTask b t) with
  | error e => simp [hcheck] at hrest
  | ok u =>
    simp only [hcheck, pure_eq, feed_ret, Prod.mk.injEq, ret.injEq, Except.ok.injEq] at hrest
    rw [← hrest.1, readTask_id]
    exact (Table.get?_some ht).2

/-- **A pause that succeeds** leaves the task disabled, whatever it started from. -/
theorem paused_of_pause
    (h : ((TaskOp.pause tenant).program id).feed (taskExec b) is s = (.ret (.ok ()), s')) :
    Paused id s' := by
  -- the outcome is that of `pauseTask`, which is the load and then the write
  obtain ⟨r, is₁, is₂, s₁, hpause, hout⟩ := feed_bind_ret (p := TaskService.pauseTask tenant id) h
  rw [pure_eq, feed_ret] at hout
  obtain ⟨loaded, is₃, is₄, s₂, hload, hwrite⟩ :=
    feed_bind_ret (p := TaskService.loadOwned tenant id) hpause
  cases loaded with
  | error e =>
    simp only [pure_eq, feed_ret, Prod.mk.injEq, ret.injEq] at hwrite
    rw [← hwrite.1] at hout
    exact absurd (congrArg Prod.fst hout) (by simp [Except.map])
  | ok task =>
  have hcall : (updateTask { task with status := .disabled }).feed (taskExec b) is₄ s₂
      = (.ret r, s₁) := hwrite
  obtain ⟨m, hm⟩ := feed_perform_ret hcall
  cases r with
  | error e => exact absurd (congrArg Prod.fst hout) (by simp [Except.map])
  | ok stored =>
  intro t ht
  have hs : s' = s₁ := (congrArg Prod.snd hout).symm
  have hid : task.id = id := id_of_loadOwned hload
  rw [hs] at ht
  have hans : (taskExec b m (.task (.updateTask { task with status := .disabled })) s₂).1
      = .ok stored := congrArg Prod.fst hm
  have hstore : (taskExec b m (.task (.updateTask { task with status := .disabled })) s₂).2
      = s₁ := congrArg Prod.snd hm
  refine status_of_taskExec_updateTask hans ?_
  rw [hstore]
  show s₁.tasks.get? task.id = some t
  rw [hid]
  exact ht

theorem handleCached_program {id : Int} :
    ∃ k : Except Err Task → Program (Except Err Unit), (TaskOp.handleCached url).program id
          = call (S := System) (.task (.getTask id)) k
        ∧ (∀ e, k (.error e) = .ret (.ok ()))
        ∧ ∀ t : Task, t.status ≠ .enabled → k (.ok t) = .ret (.ok ()) := by
  refine ⟨_, rfl, fun e => rfl, ?_⟩
  intro t ht
  show done (handleTasks url =<< (if t.status = .enabled then _ else loadCached [])) = _
  rw [if_neg ht]
  rfl

theorem handleDue_program {id : Int} :
    ∃ k : Except Err (List Task) → Program (Except Err Unit), (TaskOp.handleDue url).program id
          = call (S := System) (.task (.listDueTasks 100)) k
        ∧ (∀ e, k (.error e) = .ret (.ok ()))
        ∧ ∀ tasks : List Task, (∀ t ∈ tasks, t.id ≠ id) → k (.ok tasks) = .ret (.ok ()) := by
  refine ⟨_, rfl, fun e => rfl, ?_⟩
  intro tasks htasks
  show done (handleTasks url (tasks.find? (fun t => t.id = id)).toList) = _
  rw [List.find?_eq_none.mpr (by simpa using htasks)]
  rfl

theorem taskExec_listDueTasks {limit : Int} (h : Paused id s) {tasks : List Task}
    (ht : (taskExec b m (.task (.listDueTasks limit)) s).1 = .ok tasks) :
    ∀ t ∈ tasks, t.id ≠ id := by
  intro t hmem hid
  have hexec : (Call.exec m.inp (.task (.listDueTasks limit))
      { m.world with backend := b, tasks := s }).1 = .ok tasks := ht
  cases hf : m.inp.fault with
  | some text =>
    simp only [Call.exec, hf] at hexec
    cases hexec
  | none =>
  simp only [Call.exec, hf, TaskCall.exec, Except.ok.injEq] at hexec
  rw [← hexec] at hmem
  obtain ⟨t₀, ht₀, hdue, rfl⟩ := TaskStore.mem_listDueTasks hmem
  rw [readTask_id] at hid
  have hpaused := h t₀ (by rw [← hid]; exact Table.get?_of_mem ht₀)
  simp [Task.isDue, hpaused] at hdue

def TaskOp.isHandle : TaskOp → Bool
  | handleCached _ | handleDue _ => true
  | _ => false

theorem feed_handle_of_paused {op : TaskOp} (hop : op.isHandle = true) (h : Paused id s)
    (is : List Moment) :
    ((op.program id).feed (taskExec b) is s).2 = s := by
  cases is with
  | nil => rw [feed_nil]
  | cons m is =>
  cases op with
  | handleCached url =>
    obtain ⟨k, hk, herr, hok⟩ := handleCached_program
    rw [hk, feed_call]
    have hret : k (taskExec b m (.task (.getTask id)) s).1 = .ret (.ok ()) := by
      rcases taskExec_getTask with ⟨e, he⟩ | ⟨t, ht, hread⟩
      · rw [he, herr]
      · rw [hread, hok]
        rw [readTask_status, h t ht]
        decide
    rw [hret, feed_ret]
    rfl
  | handleDue url =>
    obtain ⟨k, hk, herr, hok⟩ := handleDue_program
    rw [hk, feed_call]
    have hret : k (taskExec b m (.task (.listDueTasks 100)) s).1 = .ret (.ok ()) := by
      cases hans : (taskExec b m (.task (.listDueTasks 100)) s).1 with
      | error e => rw [herr]
      | ok tasks => exact hok tasks (taskExec_listDueTasks h hans)
    rw [hret, feed_ret]
    rfl
  | _ => simp [TaskOp.isHandle] at hop

theorem paused_inOrder {ops : Bool → TaskOp}
    {steps : List (Bool × Moment)} {x y : Bool} (hpause : ops y = .pause tenant)
    (hhandle : (ops (!y)).isHandle = true)
    (hdone : (after b id ops s (Race.inOrder x steps)).threads y = .ret (.ok ())) :
    Paused id (after b id ops s (Race.inOrder x steps)).store := by
  have horder : (after b id ops s (Race.inOrder x steps)).threads x = _
      ∧ (after b id ops s (Race.inOrder x steps)).threads (!x) = _
      ∧ (after b id ops s (Race.inOrder x steps)).store = _ :=
    Race.run_inOrder _ _ _ x steps (race id ops s)
  have hthread : ∀ z, (race id ops s).threads z = (ops z).program id := fun _ => rfl
  have hstart : (race id ops s).store = s := rfl
  rw [hthread, hthread, hstart] at horder
  obtain ⟨hfirst, hsecond, hlast⟩ := horder
  -- the two halves of the serial run
  generalize hs₁ : ((ops x).program id).feed (taskExec b) (Race.inputs x steps) s = r₁
    at hfirst hsecond hlast
  generalize hs₂ : ((ops (!x)).program id).feed (taskExec b) (Race.inputs (!x) steps) r₁.2 = r₂
    at hsecond hlast
  by_cases hxy : x = y
  · -- the pause comes first, and the scan then leaves the task alone
    subst hxy
    rw [hdone] at hfirst
    rw [hpause] at hs₁
    have hpaused : Paused id r₁.2 := paused_of_pause (hs₁.trans (Prod.ext hfirst.symm rfl))
    rw [hlast, ← hs₂, feed_handle_of_paused hhandle hpaused]
    exact hpaused
  -- the pause comes last
  have hy : y = !x := by cases x <;> cases y <;> simp_all
  subst hy
  rw [hdone] at hsecond
  rw [hpause] at hs₂
  rw [hlast]
  exact paused_of_pause (hs₂.trans (Prod.ext hsecond.symm rfl))

/-! ## The results. -/

/-- **NO LOST UPDATE without a late write**: two interleaved operations on one task leave the store,
and themselves, as if one had run before the other; a paused task is disabled. -/
theorem no_lost_update (b : Backend) (id : Int) (ops : Bool → TaskOp) (s : TaskStore)
    (steps : List (Bool × Moment)) (hlate : noLateWrite b id ops s steps = true) :
    (∃ x, (after b id ops s steps).store = (after b id ops s (Race.inOrder x steps)).store
        ∧ (after b id ops s steps).threads = (after b id ops s (Race.inOrder x steps)).threads)
      ∧ ∀ y tenant, ops y = .pause tenant → (ops (!y)).isHandle = true →
          (after b id ops s steps).threads y = .ret (.ok ()) →
          Paused id (after b id ops s steps).store := by
  have hserial := Race.serializable (lawful b) (race id ops s)
    (fun x => follows_program id (ops x)) steps hlate
  refine ⟨hserial, ?_⟩
  intro y tenant hpause hhandle hdone
  obtain ⟨x, hstore, hthreads⟩ := hserial
  have hstore' : (after b id ops s steps).store = _ := hstore
  have hthreads' : (after b id ops s steps).threads = _ := hthreads
  rw [hstore']
  rw [hthreads'] at hdone
  exact paused_inOrder hpause hhandle hdone

/-- A store with one enabled task that is due, and no workers. -/
def demoWorld : World :=
  World.ofRows .mysql
    [{ id := 1, name := "job", type := "http", cronExpr := "* * * * *", status := .enabled,
       nextTriggerTime := unixEpoch + 60 * second }]
    [] [] []

def demoMoment : Moment := { inp := { now := unixEpoch + 120 * second }, world := demoWorld }

def redMoment : Moment :=
  { demoMoment with
    world := { demoWorld with memory := { demoWorld.memory with bp := { state := .red } } } }

/-- A pause (`false`) beside a rescheduling (`true`). -/
def pauseAndHandle : Bool → TaskOp
  | false => .pause 0
  | true => .handleCached ""

def succeeded : Program (Except Err Unit) → Bool
  | .ret (.ok ()) => true
  | _ => false

/-- The scan reads the task and sees red; meanwhile the task is paused. -/
theorem no_lost_update_red :
    let steps := [(false, demoMoment), (true, demoMoment), (true, demoMoment), (false, demoMoment),
      (true, redMoment)]
    noLateWrite .mysql 1 pauseAndHandle demoWorld.tasks steps = true
      ∧ Paused 1 (after .mysql 1 pauseAndHandle demoWorld.tasks steps).store :=
  ⟨by decide,
    (no_lost_update .mysql 1 pauseAndHandle demoWorld.tasks _ (by decide)).2 false 0 rfl rfl rfl⟩

/-- **A LOST PAUSE**: the scan reads the task, the task is paused, the scan writes back the row it
read; the task is enabled, as in NEITHER serial order. -/
theorem pause_lost :
    let steps := [(true, demoMoment), (true, demoMoment), (false, demoMoment), (false, demoMoment)]
      ++ List.replicate 8 (true, demoMoment)
    let final := fun steps => after .mysql 1 pauseAndHandle demoWorld.tasks steps
    succeeded ((final steps).threads false) = true ∧ succeeded ((final steps).threads true) = true
      ∧ ((final steps).store.tasks.get? 1).map Task.status = some .enabled
      ∧ ∀ x, (final steps).store.tasks.get? 1
          ≠ (final (Race.inOrder x steps)).store.tasks.get? 1 := by
  decide

end AiScheduler.LostUpdate
