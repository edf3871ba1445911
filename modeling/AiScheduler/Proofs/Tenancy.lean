/-
  **WHOSE TASK IT IS.**

  `checkTenant` compares the context's tenant with the task's `TenantID`, and zero on either side
  passes. That field comes from the CLIENT: `CreateTask` keeps a tenant the body names,
  `UpdateTask` stores whatever the body says. If no body names another tenant than the task's own,
  the task stays that tenant's alone.
-/
import AiScheduler.System.Serving

namespace AiScheduler.Tenancy

open Lib TaskService Prog

/-! ## What a call does to the row of one task. -/

/-! ## The invariant. -/

/-- The task `id`, if it is stored, carries tenant `a`. -/
def Owned (a id : Int) (w : World) : Prop :=
  ∀ t, w.tasks.tasks.get? id = some t → t.tenantID = a

/-- … and its id has been given out, so that no other task gets it. -/
def Settled (a id : Int) (w : World) : Prop := Owned a id w ∧ id < w.tasks.nextID

/-- Calls that store no other tenant for the task. -/
def Respects (a id : Int) : Call → Prop
  | .task (.updateTask task) => task.id = id → task.tenantID = a
  | _ => True

/-- … and create tasks for `a` only. -/
def RespectsNew (a id : Int) : Call → Prop
  | .task (.createTask task) => task.tenantID = a
  | op => Respects a id op

section Exec

variable {a id : Int} {env : Nat → Input}

theorem owned_exec {inp : Input} {op : Call} {w : World} (hw : Owned a id w)
    (hupdate : ∀ task, op = .task (.updateTask task) → task.id = id → task.tenantID = a)
    (hcreate : ∀ task, op = .task (.createTask task) → id = w.tasks.nextID → task.tenantID = a) :
    Owned a id (execCall inp op w).2 := by
  intro t' ht'
  cases tasksAfter_execCall inp w op with
  | less hrows _ _ => exact hw t' (hrows id t' ht')
  | created htenant hrows _ _ =>
    have hnew := hcreate _ rfl
    have hold := hw t'
    grind
  | @written task current hcur hs =>
    rw [hs] at ht'
    by_cases hid : id = task.id
    · rw [TaskStore.get?_write, hid, hcur, Option.map_some, if_pos (Table.get?_some hcur).2] at ht'
      cases ht'
      exact (updatedTask_tenantID _ _ _ _).trans (hupdate task rfl hid.symm)
    · exact hw t' (TaskStore.get?_write_of_ne hid ▸ ht')
  | linked _ _ hs =>
    rw [hs] at ht'
    exact hw t' ht'

theorem settled_execAt (op : Call) (h : Respects a id op) (s : World × Nat)
    (hs : Settled a id s.1) : Settled a id (execAt env op s).2.1 := by
  obtain ⟨howned, hlt⟩ := hs
  refine ⟨owned_exec howned ?_ ?_, Int.lt_of_lt_of_le hlt (nextID_le_execCall _ s.1 op)⟩
  · intro task hop
    subst hop
    exact h
  · intro task _ hid
    omega

theorem owned_execAt (op : Call) (h : RespectsNew a id op) (s : World × Nat)
    (hs : Owned a id s.1) : Owned a id (execAt env op s).2.1 := by
  refine owned_exec hs ?_ ?_
  · intro task hop
    subst hop
    exact h
  · intro task hop _
    subst hop
    exact h

end Exec

/-! ## One request. -/

/-- **What a body may say about tenants**: `CreateTask` names no other one, an allowed `UpdateTask`
repeats the task's. -/
def Honest (w : World) (r : Request) : Prop :=
  match r.op with
  | .createTask req => r.tenant ≠ 0 → req.tenantID = 0 ∨ req.tenantID = r.tenant
  | .updateTask id req => ∀ t, w.tasks.tasks.get? id = some t → t.tenantID ≠ 0 →
      (r.tenant = 0 ∨ r.tenant = t.tenantID) → req.tenantID = t.tenantID
  | _ => True

theorem respects_sync {a id : Int} : Syncs (Respects a id) :=
  ⟨fun _ => trivial, fun _ => trivial, fun _ _ => trivial, fun _ _ => trivial⟩

/-- **One request** of honest bodies leaves the task its tenant. -/
theorem settled_serve {a id : Int} (ha : a ≠ 0) (w : World) (r : Request) (hr : Honest w r)
    (hw : Settled a id w) : Settled a id (serve w r).2 := by
  have hreads : Reads (Respects a id) := ⟨trivial, trivial, fun _ => trivial⟩
  refine serve_keeps settled_execAt hreads hw ?_ ?_ (fun _ _ => trivial) ?_
  · intro req _ next n
    exact wp_of_calls settled_execAt (calls_storeCreated respects_sync trivial _) hw
  · intro k req hop t next n hg htenant
    refine wp_of_calls settled_execAt (calls_storeUpdated respects_sync ?_ _) hw
    intro hid
    -- the check has been passed, so the body repeats the tenant
    obtain rfl : k = id := hid
    have ht : t.tenantID = a := hw.1 t hg
    unfold Honest at hr
    rw [hop] at hr
    rw [readTask_tenantID, ht] at htenant
    have hsame : req.tenantID = t.tenantID := by
      refine hr t hg (by rw [ht]; exact ha) ?_
      rw [ht]
      rcases htenant with h | h | h
      · exact .inl h
      · exact absurd h ha
      · exact .inr h.symm
    exact hsame.trans ht
  · intro k t task _ hg hid htenant heq
    have hk : k = id := hid.symm.trans heq
    subst hk
    exact htenant.trans (hw.1 t hg)

theorem settled_of_createTask {w : World} {r : Request} {req : TaskUpsertRequest}
    (hop : r.op = .createTask req) (ha : r.tenant ≠ 0) (hr : Honest w r)
    (hborn : ((serve w r).2.tasks.tasks.get? w.tasks.nextID).isSome) :
    Settled r.tenant w.tasks.nextID (serve w r).2 := by
  -- no row has the next id yet
  have hfresh : Owned r.tenant w.tasks.nextID w := by
    intro t ht
    obtain ⟨hmem, hid⟩ := Table.get?_some ht
    have := w.tasks.fresh t hmem
    omega
  have htenant : (if req.tenantID = 0 then r.tenant else req.tenantID) = r.tenant := by
    unfold Honest at hr
    rw [hop] at hr
    split
    · rfl
    · rcases hr ha with h | h
      · contradiction
      · exact h
  have hsync : Syncs (RespectsNew r.tenant w.tasks.nextID) :=
    ⟨fun _ => trivial, fun _ => trivial, fun _ _ => trivial, fun _ _ => trivial⟩
  have howned : Owned r.tenant w.tasks.nextID (serve w r).2 := by
    apply serve_of_wp
    rw [hop]
    apply wp_reply.mpr
    apply wp_createTask
    · intro e n
      exact hfresh
    · intro next n
      refine wp_of_calls owned_execAt (calls_storeCreated hsync ?_ _) hfresh
      exact htenant
  refine ⟨howned, ?_⟩
  obtain ⟨t, ht⟩ := Option.isSome_iff_exists.mp hborn
  obtain ⟨hmem, hid⟩ := Table.get?_some ht
  rw [← hid]
  exact (serve w r).2.tasks.fresh t hmem

/-! ## What other tenants see. -/

theorem serve_error_of_other {a id : Int} (ha : a ≠ 0) {w : World} (hw : Owned a id w)
    {q : Request} (hq : q.tenant ≠ 0) (hne : q.tenant ≠ a) (htarget : q.op.target = some id) :
    ∃ e, (serve w q).1 = .error e := by
  -- the check fails on the stored task
  have hcheck : ∀ t, w.tasks.tasks.get? id = some t →
      ¬ (q.tenant = 0 ∨ (readTask w.backend t).tenantID = 0
        ∨ (readTask w.backend t).tenantID = q.tenant) := by
    intro t hg h
    rw [readTask_tenantID, hw t hg] at h
    rcases h with h | h | h
    · exact hq h
    · exact ha h
    · exact hne h.symm
  have hload : ∀ {β : Type} {g : β → Reply} {f : Except Err Task → Program (Except Err β)},
      (∀ e, f (.error e) = ret (.error e)) →
      wp (execAt q.env) (reply g (loadOwned q.tenant id >>= f))
        (fun r _ => ∃ e, r = .error e) (w, 0) := by
    intro β g f hf
    apply wp_reply.mpr
    apply wp_loadOwned_bind
    · intro e n
      rw [hf]
      exact ⟨e, rfl⟩
    · intro t n hg h
      exact absurd h (hcheck t hg)
  suffices h : wp (execAt q.env) (q.op.program q.tenant) (fun r _ => ∃ e, r = .error e) (w, 0)
    from h
  cases hop : q.op with
  | createTask req | listTasks =>
    rw [hop] at htarget
    simp [Operation.target] at htarget
  | updateTask k req | deleteTask k | pauseTask k | resumeTask k | triggerTask k =>
    rw [hop] at htarget
    cases htarget
    exact hload (fun e => rfl)
  | getTask k =>
    rw [hop] at htarget
    cases htarget
    have h := hload (g := Reply.task) (f := ret) (fun e => rfl)
    rw [bind_ret] at h
    exact h

theorem tenant_of_listed {a id : Int} {w : World} (hw : Owned a id w) {q : Request}
    (hop : q.op = .listTasks) {ts : List Task} (hts : (serve w q).1 = .ok (.tasks ts))
    (hid : id ∈ ts.map Task.id) : q.tenant = a ∨ q.tenant = 0 := by
  by_cases hq : q.tenant = 0
  · exact .inr hq
  left
  have hreply : (serve w q).1
      = (execCall (q.env 0) (.task (.listTasksByTenant q.tenant)) w).1.map Reply.tasks := by
    unfold serve Operation.program
    rw [hop]
    show (run _ (reply Reply.tasks (if q.tenant ≠ 0 then _ else _)) _).1 = _
    rw [if_pos hq]
    rfl
  rw [hreply] at hts
  rcases exec_task_cases (q.env 0) w (.listTasksByTenant q.tenant) with ⟨e, he⟩ | he
  · rw [he] at hts
    simp [Except.map] at hts
  rw [he] at hts
  simp only [TaskCall.exec, Except.map, Except.ok.injEq, Reply.tasks.injEq] at hts
  subst hts
  obtain ⟨t', ht', rfl⟩ := List.mem_map.mp hid
  obtain ⟨t, ht, rfl⟩ := List.mem_map.mp ht'
  rw [mem_sortBy, List.mem_filter, decide_eq_true_iff] at ht
  rw [readTask_id] at hw
  exact ht.2.symm.trans (hw t (Table.get?_of_mem ht.1))

/-! ## The result. -/

/-- **A TASK STAYS WITH ITS TENANT**, after any honest requests: no operation on it succeeds under
another one, and no other tenant has it in its list. -/
theorem task_stays_with_tenant (w : World) (r : Request) (req : TaskUpsertRequest)
    (hop : r.op = .createTask req) (ha : r.tenant ≠ 0) (hr : Honest w r)
    (hborn : ((serve w r).2.tasks.tasks.get? w.tasks.nextID).isSome)
    (rs : List Request) (hrs : AllServed Honest (serve w r).2 rs) :
    (∀ t, (serveAll (serve w r).2 rs).tasks.tasks.get? w.tasks.nextID = some t →
        t.tenantID = r.tenant)
      ∧ (∀ q : Request, q.tenant ≠ 0 → q.tenant ≠ r.tenant → q.op.target = some w.tasks.nextID →
          ∃ e, (serve (serveAll (serve w r).2 rs) q).1 = .error e)
      ∧ (∀ (q : Request) (ts : List Task), q.op = .listTasks →
          (serve (serveAll (serve w r).2 rs) q).1 = .ok (.tasks ts) →
          w.tasks.nextID ∈ ts.map Task.id → q.tenant = r.tenant ∨ q.tenant = 0) := by
  have hborn' := settled_of_createTask hop ha hr hborn
  have hkept := serveAll_invariant (settled_serve ha) rs _ hrs hborn'
  refine ⟨hkept.1, ?_, ?_⟩
  · intro q hq hne htarget
    exact serve_error_of_other ha hkept.1 hq hne htarget
  · intro q ts hq hts hid
    exact tenant_of_listed hkept.1 hq hts hid

def emptyWorld : World := World.ofRows .mysql [] [] [] []

def createReport : Request :=
  { tenant := 7, op := .createTask { name := "report", type := "shell" } }

def renameReport : Request :=
  { tenant := 7, op := .updateTask 1 { name := "daily report", type := "shell", tenantID := 7 } }

theorem report_stays_with_tenant :
    ∃ e, (serve (serveAll (serve emptyWorld createReport).2 [renameReport])
      { tenant := 8, op := .getTask 1 }).1 = .error e :=
  (task_stays_with_tenant emptyWorld createReport _ rfl (by decide) (fun _ => .inl rfl) (by decide)
    [renameReport] ⟨by
      intro t ht _ _
      have h : ∀ t ∈ (serve emptyWorld createReport).2.tasks.tasks.get? 1,
          t.tenantID = 7 := by decide
      exact (h t ht).symm, trivial⟩).2.1 _ (by decide) (by decide) rfl

/-- **An update without a tenant opens the task to everyone**: tenant 8 reads tenant 7's. -/
theorem task_given_away :
    (serve (serveAll emptyWorld
        [createReport,
          { tenant := 7, op := .updateTask 1 { name := "daily report", type := "shell" } }])
      { tenant := 8, op := .getTask 1 }).1.toOption.isSome = true := by
  decide

end AiScheduler.Tenancy
