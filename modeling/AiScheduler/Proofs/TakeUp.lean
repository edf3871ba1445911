/-
  **HOW A SCAN AND A WHEEL TICK TAKE UP A DUE TASK.**

  `Hand`: the due tasks a thread has read and not put back, and how far it is with the one it is
  working on. The protocol `taking`: an instance is created of a task in hand, the shards in
  order; a task is put back with a LATER trigger time.
-/
import AiScheduler.Proofs.Outlines

namespace AiScheduler.TakeUp

open Lib Prog Outlines Parts TriggerLoop List

variable {task : Task} {now : Int} {n : Nat}

/-! ## What a thread has in hand. -/

/-- What a thread has in hand. -/
structure Hand where
  /-- Enabled tasks it has read and found due, and not put back. -/
  tasks : List Task := []
  /-- An enabled task it has read by id and not yet compared with the clock. -/
  candidate : Option Task := none
  /-- The task it has created instances of and not put back, and how many. -/
  progress : Option (Int × Nat) := none

variable {h : Hand}

namespace Hand

def all (h : Hand) : List Task := h.tasks ++ h.candidate.toList

def afterList (h : Hand) : Except Err (List Task) → Hand
  | .ok tasks => { h with tasks := tasks }
  | .error _ => h

def afterGet (h : Hand) : Except Err Task → Hand
  | .ok task => { h with candidate := if task.status = .enabled then some task else none }
  | .error _ => h

/-- After reading the clock: a candidate is due, or dropped. -/
def afterNow (h : Hand) (now : Int) : Hand :=
  match h.candidate with
  | none => h
  | some task =>
    if task.nextTriggerTime ≤ now then { h with tasks := h.tasks ++ [task], candidate := none }
    else { h with candidate := none }

def count (h : Hand) : Nat := h.progress.elim 0 Prod.snd

def afterCreate (h : Hand) (i : TaskInstance) : Except Err TaskInstance → Hand
  | .ok _ => { h with progress := some (i.taskID, h.count + 1) }
  | .error _ => h

def putBack (h : Hand) (id : Int) : Hand :=
  { h with tasks := h.tasks.filter (fun task => task.id ≠ id), progress := none }

def after (h : Hand) : (op : Call) → op.Ans → Hand
  | .task (.listDueTasks _), ans => h.afterList ans
  | .task (.getTask _), ans => h.afterGet ans
  | .task (.updateTask task), _ => h.putBack task.id
  | .inst (.createInstance i), ans => h.afterCreate i ans
  | .memory .now, now => h.afterNow now
  | _, _ => h

theorem afterNow_of_due (hc : h.candidate = some task) (hdue : task.nextTriggerTime ≤ now) :
    h.afterNow now = { h with tasks := h.tasks ++ [task], candidate := none } := by
  unfold afterNow
  rw [hc]
  exact if_pos hdue

theorem mem_all_of_afterNow (ht : task ∈ (h.afterNow now).all) : task ∈ h.all := by
  grind [afterNow, all]

theorem afterNow_progress (h : Hand) (now : Int) : (h.afterNow now).progress = h.progress := by
  grind [afterNow]

theorem mem_tasks_afterNow (ht : task ∈ h.tasks) :
    task ∈ (h.afterNow now).tasks := by
  grind [afterNow]

end Hand

/-! ## The protocol. -/

/-- What a job does with tasks. -/
inductive Role where
  /-- A scan of the trigger loop takes up the due tasks. -/
  | scan
  /-- A wheel tick takes up the tasks of its slot. -/
  | wheel
  /-- A heap tick. -/
  | heap
  | other
  deriving DecidableEq

def Role.takesUp : Role → Bool
  | .scan | .wheel => true
  | .heap | .other => false

/-- The task's expression has a time after `now`; a scan also handles a task without one. -/
def hasNext (role : Role) (task : Task) (now : Int) : Bool :=
  decide (role = .scan ∧ task.cronExpr = "")
    || match Cron.nextAfter now task.cronExpr with
      | .ok next => decide (next ≠ 0)
      | .error _ => false

/-- The ghost position of a thread. -/
structure Position where
  role : Role
  hand : Hand := {}

namespace Position

/-- The next shard of a task in hand, as a first attempt. -/
def mayCreate (q : Position) (i : TaskInstance) : Prop :=
  q.role.takesUp = true ∧ i.retryCount = 0 ∧ i.taskID ∈ q.hand.tasks.map Task.id
    ∧ i.shardNo = q.hand.count ∧ q.hand.progress.all (fun p => p.1 = i.taskID) = true

/-- A task in hand with a later trigger time, the one in progress if any. -/
def mayPutBack (q : Position) (task : Task) : Prop :=
  q.role.takesUp = true ∧ q.hand.candidate = none
    ∧ q.hand.progress.all (fun p => p.1 = task.id) = true
    ∧ ∃ t ∈ q.hand.tasks, task = { t with nextTriggerTime := task.nextTriggerTime }
        ∧ t.nextTriggerTime < task.nextTriggerTime

instance (q : Position) (i : TaskInstance) : Decidable (q.mayCreate i) :=
  inferInstanceAs (Decidable (_ ∧ _ ∧ _ ∧ _ ∧ _))

instance (q : Position) (task : Task) : Decidable (q.mayPutBack task) :=
  inferInstanceAs (Decidable (_ ∧ _ ∧ _ ∧ _))

/-- Nothing is in progress and no candidate is waiting for the clock. -/
def free (q : Position) : Prop := q.hand.progress = none ∧ q.hand.candidate = none

instance (q : Position) : Decidable q.free := inferInstanceAs (Decidable (_ ∧ _))

def allows (q : Position) : Call → Prop
  | .task (.updateTask task) => q.mayPutBack task
  | .task (.getTask _) => q.role.takesUp = true → q.free
  | .task (.listDueTasks _) => q.role.takesUp = true → q.free ∧ q.hand.tasks = []
  | .task (.createTask _) => False
  | .task (.deleteTask _) => False
  | .task (.addDependency _ _) => False
  | .task (.removeDependency _ _) => False
  | .inst (.createInstance i) => q.mayCreate i
  | _ => True

instance (q : Position) (op : Call) : Decidable (q.allows op) := by
  unfold allows
  split <;> infer_instance

def withHand (q : Position) (h : Hand) : Position := { q with hand := h }

def next (q : Position) (op : Call) (ans : op.Ans) : Option Position :=
  if q.allows op then some (q.withHand (q.hand.after op ans)) else none

/-- The clock: what is in hand is due, and the task in progress has a next time. -/
def admitsNow (q : Position) (now : Int) : Prop :=
  (∀ task ∈ q.hand.tasks, task.nextTriggerTime ≤ now)
    ∧ (q.role = .wheel → ∀ task ∈ q.hand.candidate, task.nextTriggerTime ≤ now)
    ∧ ∀ task ∈ q.hand.tasks, (∃ n, q.hand.progress = some (task.id, n)) →
        hasNext q.role task now = true

def admits (q : Position) : (op : Call) → op.Ans → Prop
  | .memory .now, now => q.role.takesUp = true → q.admitsNow now
  | .task (.getTask _), ans => ∀ task, ans = .ok task → task.status = .enabled →
      q.role ≠ .heap ∧ (q.role.takesUp = true → task.id ∉ q.hand.tasks.map Task.id)
  | .task (.listDueTasks _), ans => ∀ tasks, ans = .ok tasks → (tasks.map Task.id).Nodup
  | .task (.updateTask _), ans => q.hand.progress ≠ none → ∃ task, ans = .ok task
  | .inst (.createInstance _), ans => q.hand.progress ≠ none → ∃ i, ans = .ok i
  | .worker (.listAvailableWorkers _), ans => q.hand.progress ≠ none → ∃ all, ans = .ok all
  | .worker (.upsertWorker _), ans => q.hand.progress ≠ none → ans = .ok ()
  | .node (.dispatch _ _), ans => q.role = .wheel → ans = .ok ()
  | _, _ => True

end Position

abbrev taking : Protocol System where
  State := Position
  next := Position.next
  admits := Position.admits

def roleOf : Job → Role
  | .triggerScan => .scan
  | .wheelTick => .wheel
  | .heapTick => .heap
  | _ => .other

def start (j : Job) : Position := { role := roleOf j }

/-- A job that has returned leaves no task half done. -/
def post (_ : Job) (q : Position) (_ : Except Err Unit) : Prop :=
  q.role.takesUp = true → q.hand.progress = none

/-! ## Calls that leave the hand alone. -/

theorem next_of_allows (q : Position) (op : Call) (h : q.allows op) (ans : op.Ans) :
    taking.next q op ans = some (q.withHand (q.hand.after op ans)) := if_pos h

/-- The call neither reads a task, nor puts one back, nor creates an instance. -/
def Quiet : Call → Prop
  | .task (.updateTask _) | .task (.getTask _) | .task (.listDueTasks _)
  | .task (.createTask _) | .task (.deleteTask _) => False
  | .task (.addDependency _ _) | .task (.removeDependency _ _) => False
  | .inst (.createInstance _) => False
  | _ => True

theorem next_of_quiet {q : Position} (hq : q.hand.candidate = none) :
    ∀ op : Call, Quiet op → ∀ ans, taking.next q op ans = some q := by
  intro op hop ans
  show (if q.allows op then _ else none) = _
  have hafter : q.hand.after op ans = q.hand := by
    unfold Hand.after Hand.afterNow
    split <;> grind [Quiet]
  rw [hafter]
  refine if_pos ?_
  unfold Position.allows
  split <;> grind [Quiet]

theorem keeps_quiet {q : Position} (hq : q.hand.candidate = none) :
    taking.Keeps (fun q' => q' = q) Quiet :=
  Protocol.keeps_eq (next_of_quiet hq)

theorem follows_quiet {β : Type} {post : Position → β → Prop} {q : Position}
    (hq : q.hand.candidate = none) {c : System.Op} {f : System.Ans c → Program β} (hc : Quiet c)
    (hf : ∀ ans, q.admits c ans → Follows taking post q (f ans)) :
    Follows taking post q (perform c >>= f) :=
  fun ans hans => ⟨q, next_of_quiet hq c hc ans, hf ans hans⟩

theorem quiet_of_isRouting (op : Call) (h : IsRouting op) : Quiet op :=
  forall_isRouting (fun _ => trivial) (fun _ => trivial) trivial op h

theorem quiet_of_isQuery (op : Call) (h : IsQuery op) : Quiet op :=
  forall_isQuery (fun _ _ => trivial) op h

/-! ## One task. -/

def Position.at (q : Position) (task : Task) (n : Nat) : Position :=
  { q with hand := { q.hand with progress := if n = 0 then none else some (task.id, n) } }

def Position.without (q : Position) (id : Int) : Position := { q with hand := q.hand.putBack id }

theorem at_zero {q : Position} (hq : q.hand.progress = none) (task : Task) : q.at task 0 = q := by
  obtain ⟨role, tasks, candidate, progress⟩ := q
  simp only at hq
  subst hq
  rfl

theorem at_progress {q : Position} (hn : n ≠ 0) :
    (q.at task n).hand.progress = some (task.id, n) := if_neg hn

theorem at_progress_all {q : Position} {task : Task} {n : Nat} :
    (q.at task n).hand.progress.all (fun p => p.1 = task.id) = true := by
  show Option.all _ (if n = 0 then none else some (task.id, n)) = true
  grind

theorem at_count (q : Position) (task : Task) (n : Nat) : (q.at task n).hand.count = n := by
  show Option.elim (if n = 0 then none else some (task.id, n)) 0 Prod.snd = n
  grind

theorem afterCreate_at {q : Position} {task : Task} {n : Nat} {i stored : TaskInstance}
    (hi : i.taskID = task.id) :
    (q.at task n).hand.afterCreate i (.ok stored) = (q.at task (n + 1)).hand := by
  show ({ (q.at task n).hand with
    progress := some (i.taskID, (q.at task n).hand.count + 1) } : Hand)
    = _
  rw [at_count, hi]
  rfl

theorem quiet_dispatchShard (url : String) (task : Task) (shard : Nat)
    (inst : TaskInstance) (worker : WorkerNode) :
    Calls Quiet (dispatchShard url task shard inst worker) := by
  refine (calls_dispatchShard url task shard inst worker).mono ?_
  intro op hop
  cases hop with
  | routing h => exact quiet_of_isRouting op h
  | _ => trivial

section Task

variable {q : Position} (htakes : q.role.takesUp = true)

theorem leads_pick {q : Position} (hq : q.hand.candidate = none)
    (hprogress : q.hand.progress ≠ none)
    (opts : SelectOptions) :
    Leads taking (fun q' => q' = q) (Router.pick opts)
      (Either (fun e q' => q' = q ∧ e = .noAvailableWorker) (fun _ q' => q' = q)) := by
  refine Outlines.leads_pick (P := taking) (L := fun _ q' => q' = q) opts ?_ ?_ ?_
  · rintro _ rfl ans hans
    obtain ⟨all, rfl⟩ := hans hprogress
    exact ⟨_, next_of_quiet hq (.worker (.listAvailableWorkers opts)) trivial _,
      fun _ => ⟨rfl, rfl⟩, fun _ => rfl⟩
  · exact fun _ => keeps_quiet hq (.memory .nextRoundRobin) trivial
  rintro _ best _ _ rfl ans hans
  have hok : ans = .ok () := hans hprogress
  subst hok
  exact ⟨_, next_of_quiet hq (.worker (.upsertWorker _)) trivial _, rfl⟩

include htakes

theorem next_updateTask (hfree : q.free) (hmem : task ∈ q.hand.tasks) (n : Nat)
    {time : Int} (htime : task.nextTriggerTime < time) (ans : Except Err Task) :
    taking.next (q.at task n) (.task (.updateTask { task with nextTriggerTime := time })) ans
      = some (q.without task.id) :=
  if_pos ⟨htakes, hfree.2, at_progress_all, task, hmem, rfl, htime⟩

theorem next_createInstance (hmem : task ∈ q.hand.tasks) {i : TaskInstance}
    (hid : i.taskID = task.id) (hcount : i.retryCount = 0) (hshard : i.shardNo = n)
    (ans : Except Err TaskInstance) :
    taking.next (q.at task n) (.inst (.createInstance i)) ans
      = some (q.withHand ((q.at task n).hand.afterCreate i ans)) := by
  refine next_of_allows (q.at task n) (.inst (.createInstance i)) ⟨htakes, hcount, ?_, ?_, ?_⟩ ans
  · rw [hid]
    exact mem_map_of_mem hmem
  · rw [at_count]
    exact hshard
  · rw [hid]
    exact at_progress_all

variable (hfree : q.free)

include hfree

theorem follows_timeNow {β : Type} {post : Position → β → Prop} {f : Int → Program β}
    (hf : ∀ now, (q.at task n).admitsNow now → Follows taking post (q.at task n) (f now)) :
    Follows taking post (q.at task n) (timeNow >>= f) := by
  have hq : (q.at task n).hand.candidate = none := hfree.2
  refine follows_quiet hq (c := .memory .now) trivial ?_
  intro now hnow
  exact hf now (hnow htakes)

theorem follows_deferTask (hmem : task ∈ q.hand.tasks) (n : Nat) (delay : Int)
    (hdelay : 0 < delay) :
    Follows taking (fun q' _ => q' = q.without task.id) (q.at task n) (deferTask task delay) := by
  apply follows_timeNow htakes hfree
  intro now hnow
  have hdue := hnow.1 task hmem
  refine follows_perform (fun _ => q.without task.id) ?_ ?_
  · intro ans
    exact next_updateTask htakes hfree hmem n (by omega) ans
  · intro ans
    rfl

/-- One shard: the loop goes on, or `handleTask` returns with the task put back or untouched. -/
theorem leads_runShard (url : String) (hmem : task ∈ q.hand.tasks) (shard : Nat) :
    Leads taking (fun q' => q' = q.at task shard) (runShard url task shard)
      (Onward (fun q' => q' = q.at task (shard + 1))
        (fun q' => q' = q ∨ q' = q.without task.id)) := by
  have hq : ∀ n, (q.at task n).hand.candidate = none := fun _ => hfree.2
  have hprogress : (q.at task (shard + 1)).hand.progress ≠ none := by
    rw [at_progress (by omega)]
    simp
  refine Outlines.leads_runShard (P := taking) (I := fun n q' => q' = q.at task n)
    (C := fun _ q' => q' = q.at task (shard + 1))
    (D := fun e q' => q' = q.at task (shard + 1) ∧ e = .noAvailableWorker)
    (W := fun _ _ q' => q' = q.at task (shard + 1)) (keeps_quiet (hq _) (.memory .now) trivial) ?_
    (fun _ => leads_pick (hq _) hprogress _) ?_ (fun e he q' h => absurd h.2 he) ?_
  · rintro idTime triggerTime _ rfl ans hans
    refine ⟨_, next_createInstance htakes hmem rfl rfl rfl ans, ?_⟩
    cases ans with
    | ok inst => exact congrArg q.withHand (afterCreate_at rfl)
    | error e =>
    -- only the first creation can fail: nothing is in progress
    have hzero : shard = 0 := by
      by_contra hne
      have hsome : (q.at task shard).hand.progress ≠ none := by
        rw [at_progress hne]
        simp
      obtain ⟨i, hi⟩ := hans hsome
      cases hi
    subst hzero
    exact .inl (at_zero hfree.1 task)
  · rintro _ ⟨rfl, _⟩
    exact (follows_deferTask htakes hfree hmem _ _ (by decide)).mono (fun _ _ h => .inr h)
  · intro inst worker
    exact (keeps_quiet (hq _)).leads (quiet_dispatchShard url task shard inst worker)

omit htakes hfree in
theorem lt_nextTriggerTime {next : Int}
    (h : nextTriggerTime task now = .ok next) : now < next := by
  by_cases hcron : task.cronExpr = ""
  · rw [nextTriggerTime_of_empty hcron] at h
    injection h with h
    have hpos : (0 : Int) < 24 * hour * 365 := by decide
    omega
  · rw [nextTriggerTime_of_cron hcron] at h
    exact Cron.lt_of_nextAfter h

omit htakes hfree in
theorem exists_nextTriggerTime {role : Role} (h : hasNext role task now = true) :
    ∃ next, nextTriggerTime task now = .ok next := by
  by_cases hcron : task.cronExpr = ""
  · exact ⟨_, nextTriggerTime_of_empty hcron now⟩
  rw [nextTriggerTime_of_cron hcron]
  unfold hasNext at h
  grind

theorem follows_reschedule (hmem : task ∈ q.hand.tasks) (hn : n ≠ 0) :
    Follows taking (fun q' _ => q' = q.without task.id) (q.at task n) (reschedule task) := by
  apply follows_timeNow htakes hfree
  intro now hnow
  obtain ⟨next, hnext⟩ := exists_nextTriggerTime (hnow.2.2 task hmem ⟨n, at_progress hn⟩)
  have hlt := lt_nextTriggerTime hnext
  have hdue := hnow.1 task hmem
  rw [hnext]
  refine follows_perform (fun _ => q.without task.id) ?_ ?_
  · intro ans
    exact next_updateTask htakes hfree hmem n (by omega) ans
  · intro ans
    cases ans with
    | error e | ok t => rfl

/-- **`handleTask`** puts the task back, or has not touched it. -/
theorem follows_handleTask (url : String) (hmem : task ∈ q.hand.tasks) :
    Follows taking (fun q' _ => q' = q ∨ q' = q.without task.id) q (handleTask url task) := by
  have hq : (q.at task 0).hand.candidate = none := hfree.2
  refine leads_handleTask (P := taking) (I := fun n q' => q' = q.at task n)
    (E := fun q' => q' = q ∨ q' = q.without task.id) ?_ ?_ ?_
    (leads_runShard htakes hfree url hmem) ?_ q (at_zero hfree.1 task).symm
  · exact fun op hop => keeps_quiet hq op (quiet_of_isQuery op hop)
  · rintro _ rfl ans _
    refine ⟨_, next_of_quiet hq (.task (.listUpstreamDeps task.id)) trivial ans, ?_⟩
    cases ans with
    | error e => exact .inl (at_zero hfree.1 task)
    | ok upstream => rfl
  · rintro _ rfl
    exact (follows_deferTask htakes hfree hmem 0 _ (by decide)).mono (fun _ _ h => .inr h)
  · rintro n hn _ rfl
    exact (follows_reschedule htakes hfree hmem hn).mono (fun _ _ h => .inr h)

end Task

/-! ## A scan. -/

theorem free_without {q : Position} (hfree : q.free) (id : Int) : (q.without id).free :=
  ⟨rfl, hfree.2⟩

theorem follows_handleTasks {url : String} :
    ∀ (tasks : List Task) (q : Position), q.role.takesUp = true → q.free →
      (∀ task ∈ tasks, task ∈ q.hand.tasks) → (tasks.map Task.id).Nodup →
      Follows taking (fun q' _ => q'.hand.progress = none) q (handleTasks url tasks) := by
  intro tasks
  induction tasks with
  | nil => exact fun q _ hfree _ _ => hfree.1
  | cons task tasks ih =>
  intro q htakes hfree hmem hnodup
  rw [map_cons, nodup_cons] at hnodup
  refine follows_quiet hfree.2 (c := .memory .allowDispatch) trivial ?_
  intro allowed _
  cases allowed with
  | false => exact hfree.1
  | true =>
  show Follows taking _ q (handleTask url task >>= _)
  apply follows_bind
  refine (follows_handleTask htakes hfree url (hmem task mem_cons_self)).mono ?_
  rintro _ _ (rfl | rfl)
  · exact ih _ htakes hfree (fun t ht => hmem t (.tail _ ht)) hnodup.2
  refine ih _ htakes (free_without hfree _) ?_ hnodup.2
  -- the tasks left have other ids than the one put back
  intro t ht
  have hother := mem_map_of_mem (f := Task.id) ht
  exact mem_filter.mpr ⟨hmem t (.tail _ ht), by grind⟩

def Position.holding (q : Position) (tasks : List Task) : Position :=
  { q with hand := { tasks := tasks } }

theorem free_holding (q : Position) (tasks : List Task) : (q.holding tasks).free := ⟨rfl, rfl⟩

theorem follows_loadCached {q : Position} (htakes : q.role.takesUp = true) :
    ∀ (ids : List Int) (held : List Task), (held.map Task.id).Nodup →
      Follows taking (fun q' loaded => q' = q.holding (held ++ loaded)
          ∧ ((held ++ loaded).map Task.id).Nodup) (q.holding held)
        (loadCached ids) := by
  intro ids
  induction ids with
  | nil =>
    intro held hnodup
    show q.holding held = q.holding (held ++ []) ∧ _
    rw [append_nil]
    exact ⟨rfl, hnodup⟩
  | cons id ids ih =>
  intro held hnodup
  refine follows_perform_admitted (fun ans => q.withHand ((q.holding held).hand.afterGet ans))
    (fun ans _ =>
      next_of_allows (q.holding held) (.task (.getTask id)) (fun _ => free_holding q held) ans) ?_
  intro ans hans
  cases ans with
  | error e => exact ih held hnodup
  | ok t =>
  show Follows taking _ _ (if t.status = .enabled then _ else _)
  by_cases henabled : t.status = .enabled
  · rw [if_pos henabled]
    have hnew := (hans t rfl henabled).2 htakes
    have hcand : (q.holding held).hand.afterGet (.ok t)
        = { tasks := held, candidate := some t } := by
      simp only [Hand.afterGet, henabled, if_true]
      rfl
    rw [hcand]
    refine follows_perform
      (fun now => q.withHand (Hand.afterNow { tasks := held, candidate := some t } now))
      (fun now => next_of_allows
        (q.withHand { tasks := held, candidate := some t }) (.memory .now) trivial now) ?_
    intro now
    apply follows_bind
    by_cases hdue : t.nextTriggerTime ≤ now
    · -- due: in hand, at the end of what is loaded so far
      rw [Hand.afterNow_of_due rfl hdue]
      have hnodup' : ((held ++ [t]).map Task.id).Nodup := by
        rw [map_append, map_singleton, ← concat_eq_append, nodup_concat]
        exact ⟨hnew, hnodup⟩
      refine (ih (held ++ [t]) hnodup').mono ?_
      intro q' loaded hloaded
      obtain ⟨rfl, hloaded⟩ := hloaded
      rw [append_assoc] at hloaded ⊢
      show _ = q.holding (held ++ if ¬ t.nextTriggerTime > now then t :: loaded else loaded) ∧ _
      rw [if_pos (by omega)]
      exact ⟨rfl, hloaded⟩
    have hdrop : ({ tasks := held, candidate := some t } : Hand).afterNow now
        = { tasks := held } := by
      unfold Hand.afterNow
      exact if_neg hdue
    rw [hdrop]
    refine (ih held hnodup).mono ?_
    intro q' loaded hloaded
    show q' = q.holding (held ++ if ¬ t.nextTriggerTime > now then t :: loaded else loaded) ∧ _
    rw [if_neg (by omega)]
    exact hloaded
  · rw [if_neg henabled]
    have hcand : (q.holding held).hand.afterGet (.ok t) = { tasks := held } := by
      simp only [Hand.afterGet, henabled, if_false]
      rfl
    rw [hcand]
    exact ih held hnodup

theorem follows_dueTasks {q : Position} (htakes : q.role.takesUp = true) :
    Follows taking (fun q' r => ∃ held, q' = q.holding held
        ∧ ∀ tasks, r = .ok tasks → (∀ task ∈ tasks, task ∈ held) ∧ (tasks.map Task.id).Nodup)
      (q.holding []) dueTasks := by
  refine follows_quiet (free_holding q []).2 (c := .memory .cachedDueTaskIDs) trivial ?_
  intro cached _
  apply follows_bind
  refine (follows_loadCached htakes _ [] nodup_nil).mono ?_
  intro q' loaded hloaded
  obtain ⟨rfl, hnodup⟩ := hloaded
  rw [nil_append] at hnodup ⊢
  show Follows taking _ _ (if (loaded.take 100).isEmpty then _ else _)
  split
  next hempty =>
    have hnil : loaded = [] := by
      simpa using hempty
    subst hnil
    refine follows_perform_admitted (fun ans => q.withHand ((q.holding []).hand.afterList ans))
      (fun ans _ => next_of_allows (q.holding []) (.task (.listDueTasks 100))
        (fun _ => ⟨free_holding q [], rfl⟩) ans) ?_
    intro ans hans
    cases ans with
    | error e => exact ⟨[], rfl, fun tasks h => absurd h (by simp)⟩
    | ok tasks =>
      refine ⟨tasks, rfl, ?_⟩
      intro tasks' h
      cases h
      exact ⟨fun _ h => h, hans tasks rfl⟩
  next =>
    refine ⟨loaded, rfl, ?_⟩
    intro tasks h
    cases h
    exact ⟨fun _ h => mem_of_mem_take h, hnodup.sublist ((take_sublist 100 loaded).map _)⟩

theorem follows_scan (url : String) {q : Position} (htakes : q.role.takesUp = true) :
    Follows taking (fun q' _ => q'.hand.progress = none) (q.holding []) (scan url) := by
  have hcandidate := (free_holding q []).2
  refine follows_quiet hcandidate (c := .inst (.countInstancesByStatus .pending)) trivial ?_
  intro ans _
  cases ans with
  | error e => rfl
  | ok pending =>
  refine follows_quiet hcandidate (c := .memory (.updatePending pending)) trivial ?_
  intro _ _
  refine follows_quiet hcandidate (c := .memory .allowDispatch) trivial ?_
  intro allowed _
  cases allowed with
  | false => rfl
  | true =>
  show Follows taking _ _ (dueTasks >>= _)
  apply follows_bind
  refine (follows_dueTasks htakes).mono ?_
  intro q' r hr
  obtain ⟨held, rfl, hr⟩ := hr
  cases r with
  | error e => rfl
  | ok tasks =>
    obtain ⟨hmem, hnodup⟩ := hr tasks rfl
    exact follows_handleTasks tasks _ htakes (free_holding q held) hmem hnodup

/-! ## A wheel tick. -/

section Wheel

variable {q : Position}

theorem follows_engineReschedule (hrole : q.role = .wheel) (hfree : q.free)
    (hmem : task ∈ q.hand.tasks) (hn : n ≠ 0) :
    Follows taking (fun q' _ => q' = q.without task.id) (q.at task n) (Engine.reschedule task) := by
  have htakes : q.role.takesUp = true := by rw [hrole]; rfl
  apply follows_timeNow htakes hfree
  intro now hnow
  have hnext := hnow.2.2 task hmem ⟨n, at_progress hn⟩
  have hdue := hnow.1 task hmem
  have hwheel : (q.at task n).role = .wheel := hrole
  unfold hasNext at hnext
  rw [hwheel] at hnext
  dsimp only
  cases hcron : Cron.nextAfter now task.cronExpr with
  | error e =>
    rw [hcron] at hnext
    simp at hnext
  | ok next =>
  rw [hcron] at hnext
  have hne : next ≠ 0 := by simpa using hnext
  have hlt := Cron.lt_of_nextAfter hcron
  show Follows taking _ _ (if next = 0 then _ else _)
  rw [if_neg hne]
  refine follows_perform (fun _ => q.without task.id) ?_ ?_
  · intro ans
    exact next_updateTask htakes hfree hmem n (by omega) ans
  intro ans
  refine follows_quiet (free_without hfree _).2 (c := .memory (.addToWheel task.id next)) trivial ?_
  intro _ _
  rfl

theorem follows_dispatchTrigger (hrole : q.role = .wheel) (hfree : q.free)
    {url : String} (hmem : task ∈ q.hand.tasks) {inst : TaskInstance} {worker : WorkerNode} :
    Follows taking (fun q' _ => q' = q.without task.id) (q.at task 1)
      (Engine.dispatchTrigger url task inst worker) := by
  have hq : (q.at task 1).hand.candidate = none := hfree.2
  refine follows_quiet hq (c := .memory .now) trivial ?_
  intro dispatchTime _
  refine follows_quiet hq (c := .inst (.updateInstanceDispatch inst.id worker.id dispatchTime))
    trivial ?_
  intro _ _
  refine follows_quiet hq
    (c := .node (.dispatch worker (Engine.triggerRequest url task inst))) trivial ?_
  intro ans hans
  have hok : ans = .ok () := hans hrole
  subst hok
  exact follows_engineReschedule hrole hfree hmem (by omega)

theorem follows_triggerEnabled (hrole : q.role = .wheel) (hprogress : q.hand.progress = none)
    (url : String) (hcand : q.hand.candidate = some task) :
    Follows taking (fun q' _ => q'.role = .wheel ∧ q'.free) q (Engine.triggerEnabled url task) := by
  have htakes : q.role.takesUp = true := by rw [hrole]; rfl
  refine follows_perform_admitted (fun now => q.withHand (q.hand.afterNow now))
    (fun now _ => next_of_allows q (.memory .now) trivial now) ?_
  intro idTime hnow
  have hdue : task.nextTriggerTime ≤ idTime := (hnow htakes).2.1 hrole task (by rw [hcand]; rfl)
  rw [Hand.afterNow_of_due hcand hdue]
  -- the task is in hand now
  generalize hq₁ : q.withHand
    { q.hand with tasks := q.hand.tasks ++ [task], candidate := none } = q₁
  have hrole₁ : q₁.role = .wheel := by rw [← hq₁]; exact hrole
  have htakes₁ : q₁.role.takesUp = true := by rw [hrole₁]; rfl
  have hfree₁ : q₁.free := by rw [← hq₁]; exact ⟨hprogress, rfl⟩
  have hmem : task ∈ q₁.hand.tasks := by rw [← hq₁]; exact mem_append_right _ (by simp)
  refine follows_quiet hfree₁.2 (c := .memory .now) trivial ?_
  intro triggerTime _
  rw [← at_zero hfree₁.1 task]
  refine follows_perform (fun ans => q₁.withHand ((q₁.at task 0).hand.afterCreate
      (Engine.triggerInstance task idTime triggerTime) ans))
    (fun ans => next_createInstance htakes₁ hmem rfl rfl rfl ans) ?_
  intro ans
  cases ans with
  | error e => exact ⟨hrole₁, by rw [at_zero hfree₁.1 task] at *; exact hfree₁⟩
  | ok inst =>
  dsimp only
  rw [afterCreate_at rfl]
  show Follows taking _ (q₁.at task 1) _
  have hq : (q₁.at task 1).hand.candidate = none := hfree₁.2
  have hput : ∀ q' : Position, q' = q₁.without task.id → q'.role = .wheel ∧ q'.free := by
    intro q' hq'
    rw [hq']
    exact ⟨hrole₁, free_without hfree₁ _⟩
  refine leads_bind (leads_pick hq (by rw [at_progress (by omega)]; simp) _) ?_ _ rfl
  intro r
  cases r with
  | ok worker =>
    rintro _ rfl
    exact (follows_dispatchTrigger hrole₁ hfree₁ hmem).mono (fun q' _ hq' => hput q' hq')
  | error e =>
    rintro _ ⟨rfl, rfl⟩
    show Follows taking _ _ (if Err.noAvailableWorker = .noAvailableWorker then _ else _)
    rw [if_pos rfl]
    exact (follows_deferTask htakes₁ hfree₁ hmem _ _ (by decide)).mono (fun q' _ hq' => hput q' hq')

theorem follows_onTrigger {url : String} {taskID : Int} (hrole : q.role = .wheel)
    (hfree : q.free) :
    Follows taking (fun q' _ => q'.role = .wheel ∧ q'.free) q (Engine.onTrigger url taskID) := by
  refine follows_quiet hfree.2 (c := .memory .allowDispatch) trivial ?_
  intro allowed _
  cases allowed with
  | false => exact ⟨hrole, hfree⟩
  | true =>
  refine follows_perform (fun ans => q.withHand (q.hand.afterGet ans))
    (fun ans => next_of_allows q (.task (.getTask taskID)) (fun _ => hfree) ans) ?_
  intro ans
  cases ans with
  | error e => exact ⟨hrole, hfree⟩
  | ok task =>
  show Follows taking _ _ (if task.status ≠ .enabled then _ else _)
  by_cases henabled : task.status = .enabled
  · rw [if_neg (fun h => h henabled)]
    exact follows_triggerEnabled (q := q.withHand (q.hand.afterGet (.ok task))) hrole
      hfree.1 url (if_pos henabled)
  · rw [if_pos henabled]
    exact ⟨hrole, hfree.1, if_neg henabled⟩

theorem follows_onTriggers (url : String) :
    ∀ (ids : List Int) (q : Position), q.role = .wheel → q.free →
      Follows taking (fun q' _ => q'.role = .wheel ∧ q'.free) q (Engine.onTriggers url ids) := by
  intro ids
  induction ids with
  | nil =>
    intro q hrole hfree
    exact ⟨hrole, hfree⟩
  | cons id ids ih =>
    intro q hrole hfree
    apply follows_bind
    refine (follows_onTrigger hrole hfree).mono ?_
    intro q' _ hq'
    exact ih q' hq'.1 hq'.2

end Wheel

/-! ## The other jobs. -/

/-- The call puts no task back and creates no instance. -/
def Harmless : Call → Prop
  | .task (.updateTask _) | .task (.createTask _) | .task (.deleteTask _) => False
  | .task (.addDependency _ _) | .task (.removeDependency _ _) => False
  | .inst (.createInstance _) => False
  | _ => True

theorem harmless_of_quiet (op : Call) (h : Quiet op) : Harmless op := by
  unfold Harmless
  split <;> grind [Quiet]

theorem allows_of_harmless {q : Position} (htakes : q.role.takesUp = false) (op : Call)
    (h : Harmless op) : q.allows op := by
  unfold Position.allows
  split <;> grind [Harmless]

theorem follows_of_harmless {α : Type} {p : Program α} (hp : Calls Harmless p) :
    ∀ q : Position, q.role.takesUp = false → Follows taking (fun q' _ => q'.role = q.role) q p := by
  induction p with
  | ret a =>
    intro q _
    rfl
  | call op k ih =>
    intro q hq ans _
    have hk := ih ans (hp.2 ans) (q.withHand (q.hand.after op ans)) hq
    exact ⟨_, next_of_allows q op (allows_of_harmless hq op hp.1) ans, hk⟩

theorem harmless_of_isRetrying {P : Int → Prop} (op : Call)
    (h : IsRetrying P op) : Harmless op := by
  cases h with
  | now | getTask id => trivial
  | routing h => exact harmless_of_quiet op (quiet_of_isRouting op h)
  | updateDispatch h workerID time | dispatch worker req | retryWaiting h => trivial

theorem calls_retryScan {url : String} :
    Calls Harmless (RetryLoop.scan url) := by
  refine calls_perform_bind trivial ?_
  intro now
  refine calls_perform_bind trivial ?_
  intro ans
  cases ans with
  | error e => trivial
  | ok insts =>
    exact (calls_retryInstances (P := fun _ => True) url insts
      (fun _ _ => trivial)).mono harmless_of_isRetrying

theorem harmless_of_isWarming (op : Call) (h : IsWarming op) : Harmless op := by
  cases h <;> trivial

theorem follows_heapTriggers {url : String} :
    ∀ (ids : List Int) (q : Position), q.role = .heap →
      Follows taking (fun q' _ => q'.role = .heap) q (Engine.onTriggers url ids) := by
  intro ids
  induction ids with
  | nil =>
    intro q hrole
    exact hrole
  | cons id ids ih =>
  intro q hrole
  have htakes : q.role.takesUp = false := by rw [hrole]; rfl
  apply follows_bind
  refine follows_perform (fun _ => q)
    (fun ans => next_of_allows q (.memory .allowDispatch) trivial ans) ?_
  intro allowed
  cases allowed with
  | false => exact ih q hrole
  | true =>
  refine follows_perform_admitted (fun ans => q.withHand (q.hand.afterGet ans))
    (fun ans _ => next_of_allows q (.task (.getTask id))
      (allows_of_harmless htakes _ trivial) ans) ?_
  intro ans hans
  cases ans with
  | error e => exact ih _ hrole
  | ok task =>
    have hstatus : task.status ≠ .enabled := fun h => (hans task rfl h).1 hrole
    show Follows taking _ _ (if task.status ≠ .enabled then _ else _)
    rw [if_pos hstatus]
    exact ih _ hrole

def isProducer : Job → Bool
  | .warm | .wheelTick | .heapTick | .triggerScan | .retryScan => true
  | _ => false

theorem follows_body (url : String) {j : Job} (hj : isProducer j = true) :
    Follows taking (post j) (start j) (body url j) := by
  have hother : ∀ {q' : Position} {role : Role}, q'.role = role → role.takesUp = false →
      q'.role.takesUp = true → q'.hand.progress = none := by
    intro q' role hq' hrole htakes
    rw [hq', hrole] at htakes
    cases htakes
  cases j with
  | triggerScan =>
    have hscan : Follows taking (fun q' _ => q'.hand.progress = none) (start .triggerScan)
        (scan url) := follows_scan url (q := start .triggerScan) rfl
    refine follows_done (hscan.mono ?_)
    intro _ _ hq' _
    exact hq'
  | wheelTick =>
    refine follows_done (follows_quiet rfl (c := .memory .tickWheel) trivial ?_)
    intro ids _
    exact (follows_onTriggers url ids _ rfl ⟨rfl, rfl⟩).mono (fun _ _ hq' _ => hq'.2.1)
  | heapTick =>
    refine follows_done (follows_quiet rfl (c := .memory .now) trivial ?_)
    intro now _
    refine follows_quiet rfl (c := .memory (.popHeap now)) trivial ?_
    intro items _
    exact (follows_heapTriggers _ _ rfl).mono (fun _ _ hq' => hother hq' rfl)
  | retryScan =>
    exact follows_done ((follows_of_harmless calls_retryScan
      (start .retryScan) rfl).mono (fun _ _ hq' => hother hq' rfl))
  | warm =>
    have hwarm := calls_warm.mono harmless_of_isWarming
    refine (follows_of_harmless hwarm (start .warm) rfl).mono ?_
    intro q' _ hq'
    exact hother hq' rfl
  | _ => simp [isProducer] at hj

end AiScheduler.TakeUp
