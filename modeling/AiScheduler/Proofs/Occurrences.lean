/-
  **ONE FIRST ATTEMPT PER OCCURRENCE AND SHARD — as long as the engine and the trigger loop keep
  out of each other's way.**

  An occurrence of a task is a `NextTriggerTime` it had when a thread took it up; neither producer
  marks a task as taken up. Where every step is `inTurn`, the first attempts of a task are in the
  past, or belong to the one thread that has the task in hand (`Inv`).
-/
import AiScheduler.Proofs.TakeUp

namespace AiScheduler.Occurrences

open Lib TakeUp Function Config List

variable {id : Int} {task : Task} {q : Position} {w : World}

/-! ## What a log shows. -/

def handOf (t : Nat) : List (Nat × Event System) → Hand
  | [] => {}
  | (u, e) :: log => if u = t then (handOf t log).after e.1 e.2 else handOf t log

def reads (id : Int) : Event System → Option Int
  | ⟨.task (.listDueTasks _), .ok tasks⟩ =>
    (tasks.find? (fun task => task.id = id)).map Task.nextTriggerTime
  | ⟨.task (.getTask _), .ok task⟩ => if task.id = id then some task.nextTriggerTime else none
  | _ => none

/-- The trigger time of the task when thread `t` last read it. -/
def lastRead (t : Nat) (id : Int) : List (Nat × Event System) → Option Int
  | [] => none
  | (u, e) :: log => if u = t then (reads id e).or (lastRead t id log) else lastRead t id log

/-- A first attempt: who created it, and its task, occurrence and shard. -/
structure Birth where
  thread : Nat
  task : Int
  time : Option Int
  shard : Int
  deriving DecidableEq

variable {b : Birth}

def birthOf (t : Nat) (log : List (Nat × Event System)) : Event System → List Birth
  | ⟨.inst (.createInstance i), .ok _⟩ =>
    if i.retryCount = 0 then [⟨t, i.taskID, lastRead t i.taskID log, i.shardNo⟩] else []
  | _ => []

def births : List (Nat × Event System) → List Birth
  | [] => []
  | (t, e) :: log => birthOf t log e ++ births log

def Birth.key (b : Birth) : Int × Option Int × Int := (b.task, b.time, b.shard)

/-- The thread is a tick of the heap, which holds waiting retries only. -/
def byHeapTick (c : Pool) (t : Nat) : Bool :=
  match c.jobOf t with
  | some .heapTick => true
  | _ => false

/-- **At most one first attempt** per task, occurrence and shard, and none on
account of a waiting retry. -/
def OnceEach (c : Pool) : Prop :=
  ((births c.log).map Birth.key).Nodup ∧ ∀ b ∈ births c.log, byHeapTick c b.thread = false

instance (c : Pool) : Decidable (OnceEach c) := inferInstanceAs (Decidable (_ ∧ _))

/-! ## The condition. -/

def roleAt (c : Pool) (t : Nat) : Role := ((c.jobOf t).map roleOf).getD .other

def active (c : Pool) (t : Nat) : Bool := (roleAt c t).takesUp && (c.nextOp t).isSome

def taken (c : Pool) (id : Int) : Bool :=
  (List.range c.pool.length).any
    (fun u => active c u && (handOf u c.log).all.any (fun task => task.id = id))

def enabled (c : Pool) (id : Int) : Bool :=
  (c.world.tasks.tasks.get? id).any (fun row => row.status = .enabled)

/-- A clock reading: what the thread has in hand is due by it, and the task in progress has a next
time. -/
def onTime (role : Role) (hand : Hand) (now : Int) : Bool :=
  hand.tasks.all (fun task => task.nextTriggerTime ≤ now)
    && (role ≠ .wheel || hand.candidate.all (fun task => task.nextTriggerTime ≤ now))
    && hand.tasks.all (fun task =>
      hand.progress.all (fun p => p.1 ≠ task.id) || hasNext role task now)

/-- **The condition** on the next call of a thread that has `hand` in hand. -/
def fits (c : Pool) (inp : Input) (role : Role) (hand : Hand) : Call → Bool
  | .memory .now => !role.takesUp || onTime role hand inp.now
  | .task (.getTask id) =>
    match role with
    | .scan | .wheel => !taken c id
    | .heap => !enabled c id
    | .other => true
  | .task (.listDueTasks limit) =>
    !role.takesUp
      || (c.world.tasks.listDueTasks c.world.backend inp.now inp.taskScan limit).all
          (fun task => !taken c task.id)
  | .task (.updateTask _) => hand.progress.isNone || inp.fault.isNone
  | .inst (.createInstance i) =>
    hand.progress.isNone
      || (inp.fault.isNone && (c.world.backend ≠ .mysql
          || (c.world.instances.bySchedule .mysql i.scheduleInstanceID).isNone))
  | .worker _ => hand.progress.isNone || inp.fault.isNone
  | .node (.dispatch w req) =>
    match role, inp.outcome w req with
    | .wheel, .accepted => true
    | .wheel, _ => false
    | _, _ => true
  | _ => true

/-- **The condition**: only the engine and the two loops run, and every call fits. -/
def inTurn (c : Pool) : PoolStep → Bool
  | .spawn j => isProducer j
  | .step t inp =>
    match c.nextOp t with
    | some op => fits c inp (roleAt c t) (handOf t c.log) op
    | none => true

theorem fits_of_inTurn {c : Pool} {t : Nat} {j : Job} {op : Call}
    {k : op.Ans → Program (Except Err Unit)} (hp : c.pool[t]? = some ⟨j, .call op k⟩) {inp : Input}
    (hok : inTurn c (.step t inp) = true) :
    fits c inp (roleAt c t) (handOf t c.log) op = true := by
  unfold inTurn at hok
  simpa only [nextOp_of_pool hp] using hok

/-! ## The invariant. -/

/-- The thread has the task in hand. -/
structure Holds (c : Pool) (t : Nat) (task : Task) : Prop where
  active : active c t = true
  mem : task ∈ (handOf t c.log).all

/-- The stored task reads as `task`. -/
def Stored (w : World) (task : Task) : Prop :=
  ∃ row, w.tasks.tasks.get? task.id = some row ∧ task = readTask w.backend row

/-- The birth is of the occurrence in hand: a thread at work on the task is beyond that shard. -/
def InProgress (c : Pool) (b : Birth) : Prop :=
  ∃ t n, active c t = true ∧ (handOf t c.log).progress = some (b.task, n) ∧ b.shard < (n : Nat)

/-- An occurrence of the past, or the one in progress. -/
def Past (c : Pool) (b : Birth) : Prop :=
  ∃ v, b.time = some v ∧ ∀ row, c.world.tasks.tasks.get? b.task = some row →
    v < row.nextTriggerTime ∨ (v = row.nextTriggerTime ∧ InProgress c b)

/-- Hands, rows and births agree. -/
structure Inv (c : Pool) (g : Nat → Position) : Prop where
  position : ∀ t, g t = { role := roleAt c t, hand := handOf t c.log }
  stored : ∀ t task, Holds c t task → Stored c.world task
  sole : ∀ t u a b, Holds c t a → Holds c u b → a.id = b.id → t = u
  read : ∀ t task, Holds c t task → lastRead t task.id c.log = some task.nextTriggerTime
  working : ∀ t id n, active c t = true → (handOf t c.log).progress = some (id, n) →
    ∃ task ∈ (handOf t c.log).tasks, task.id = id
  past : ∀ b ∈ births c.log, Past c b
  once : OnceEach c

/-! ## What a step leaves alone. -/

section Called

variable {c : Pool} {t : Nat} {j : Job} {op : Call} {k : op.Ans → Program (Except Err Unit)}

theorem handOf_called_self (inp : Input) :
    handOf t (c.called execCall t j op k inp).log
      = (handOf t c.log).after op (execCall inp op c.world).1 := if_pos rfl

theorem handOf_called_of_ne (inp : Input) {u : Nat} (hu : u ≠ t) :
    handOf u (c.called execCall t j op k inp).log = handOf u c.log := if_neg (Ne.symm hu)

theorem lastRead_called_of_ne (inp : Input) {u : Nat} (hu : u ≠ t) (id : Int) :
    lastRead u id (c.called execCall t j op k inp).log = lastRead u id c.log :=
  if_neg (Ne.symm hu)

theorem lastRead_called_self (inp : Input)
    (hreads : reads id ⟨op, (execCall inp op c.world).1⟩ = none) :
    lastRead t id (c.called execCall t j op k inp).log = lastRead t id c.log := by
  show (if t = t then (reads id ⟨op, _⟩).or (lastRead t id c.log) else _) = _
  rw [if_pos rfl, hreads]
  rfl

theorem lastRead_called_read (inp : Input) {v : Int}
    (hreads : reads id ⟨op, (execCall inp op c.world).1⟩ = some v) :
    lastRead t id (c.called execCall t j op k inp).log = some v := by
  show (if t = t then (reads id ⟨op, _⟩).or (lastRead t id c.log) else _) = _
  rw [if_pos rfl, hreads]
  rfl

variable (hp : c.pool[t]? = some ⟨j, .call op k⟩)

include hp

theorem roleAt_called (inp : Input) (u : Nat) :
    roleAt (c.called execCall t j op k inp) u = roleAt c u := by
  unfold roleAt
  rw [jobOf_called hp inp u]

theorem active_called_of_ne (inp : Input) {u : Nat} (hu : u ≠ t) :
    active (c.called execCall t j op k inp) u = active c u := by
  unfold active
  rw [roleAt_called hp, nextOp_called_of_ne inp hu]

theorem active_self (htakes : (roleAt c t).takesUp = true) : active c t = true := by
  unfold active
  rw [htakes, nextOp_of_pool hp]
  rfl

theorem takesUp_of_called (inp : Input) (h : active (c.called execCall t j op k inp) t = true) :
    (roleAt c t).takesUp = true := by
  unfold active at h
  rw [roleAt_called hp, Bool.and_eq_true] at h
  exact h.1

theorem holds_called_of_ne (inp : Input) {u : Nat} (hu : u ≠ t) :
    Holds (c.called execCall t j op k inp) u task ↔ Holds c u task := by
  constructor
  · rintro ⟨hactive, hmem⟩
    exact ⟨active_called_of_ne hp inp hu ▸ hactive, handOf_called_of_ne inp hu ▸ hmem⟩
  · rintro ⟨hactive, hmem⟩
    exact ⟨(active_called_of_ne hp inp hu).symm ▸ hactive, (handOf_called_of_ne inp hu).symm ▸ hmem⟩

theorem active_called_self {g : Nat → Position} (hI : Inv c g) (htr : Tracks taking post c g)
    {inp : Input} (hans : (g t).admits op (execCall inp op c.world).1)
    (htakes : (roleAt c t).takesUp = true)
    (hprogress : ((handOf t c.log).after op (execCall inp op c.world).1).progress ≠ none) :
    active (c.called execCall t j op k inp) t = true := by
  obtain ⟨q', hq', hk⟩ := htr.next hp _ hans
  have hq : q' = (g t).withHand ((g t).hand.after op (execCall inp op c.world).1) := by
    have hnext : (g t).next op _ = some q' := hq'
    unfold Position.next at hnext
    grind
  rw [hI.position t] at hq
  have hlt : t < c.pool.length := (List.getElem?_eq_some_iff.mp hp).1
  unfold active nextOp
  rw [roleAt_called hp, htakes, show (c.called execCall t j op k inp).pool[t]?
    = some ⟨j, k (execCall inp op c.world).1⟩ from getElem?_set_self hlt]
  cases hret : k (execCall inp op c.world).1 with
  | call op' k' => rfl
  | ret r =>
    -- a returned thread would have nothing in progress
    rw [hret, hq] at hk
    exact absurd (hk htakes) hprogress

end Called

theorem get?_exec {op : Call} (hop : q.allows op) (inp : Input) (w : World)
    (hid : ∀ task, op = .task (.updateTask task) → id ≠ task.id) :
    (execCall inp op w).2.tasks.tasks.get? id = w.tasks.tasks.get? id := by
  by_cases htask : ∃ c, op = .task c
  · obtain ⟨c, rfl⟩ := htask
    rcases exec_task_cases inp w c with ⟨e, he⟩ | he
    · rw [he]
    rw [he]
    cases c with
    | updateTask task =>
      grind [TaskCall.exec, w.tasks.updateTask_cases w.backend inp.now task,
        TaskStore.get?_write_of_ne]
    | createTask task | deleteTask id | addDependency id dep
    | removeDependency id dep => exact hop.elim
    | _ => rfl
  · rw [exec_tasks inp w (fun c hc => htask ⟨c, hc⟩)]

theorem Stored.exec {op : Call} (hop : q.allows op) {inp : Input} (h : Stored w task)
    (hid : ∀ x, op = .task (.updateTask x) → task.id ≠ x.id) :
    Stored (execCall inp op w).2 task := by
  obtain ⟨row, hrow, heq⟩ := h
  exact ⟨row, by rw [get?_exec hop inp w hid, hrow], by rw [exec_backend, heq]⟩

theorem Stored.nextTriggerTime {row : Task} (h : Stored w task)
    (hrow : w.tasks.tasks.get? task.id = some row) :
    row.nextTriggerTime = task.nextTriggerTime := by
  obtain ⟨row', hrow', heq⟩ := h
  rw [hrow] at hrow'
  rw [heq, readTask_nextTriggerTime, Option.some.inj hrow']

theorem taken_of_holds {c : Pool} {u : Nat} (h : Holds c u task) :
    taken c task.id = true := by
  have hactive := h.active
  have hmem := h.mem
  grind [taken, active, nextOp]

/-! ## What a step takes up. -/

/-- What a task in hand needs: it is stored as read, and nobody else has it. -/
structure Own (c c' : Pool) (t : Nat) (task : Task) : Prop where
  stored : Stored c'.world task
  read : lastRead t task.id c'.log = some task.nextTriggerTime
  sole : ∀ u a, u ≠ t → Holds c u a → a.id ≠ task.id

section Own

variable {c : Pool} {g : Nat → Position} {t : Nat} {j : Job} {op : Call}
  {k : op.Ans → Program (Except Err Unit)} {inp : Input}

theorem own_of_held (hI : Inv c g) (hop : (g t).allows op) (h : Holds c t task)
    (hreads : reads task.id ⟨op, (execCall inp op c.world).1⟩ = none)
    (hid : ∀ x, op = .task (.updateTask x) → task.id ≠ x.id) :
    Own c (c.called execCall t j op k inp) t task where
  stored := (hI.stored t task h).exec hop hid
  read := by
    rw [lastRead_called_self inp hreads]
    exact hI.read t task h
  sole := by
    intro u a hu ha heq
    exact hu (hI.sole u t a task ha h heq)

theorem own_of_read (hop : (g t).allows op) (hstored : Stored c.world task)
    (hreads : reads task.id ⟨op, (execCall inp op c.world).1⟩ = some task.nextTriggerTime)
    (htaken : taken c task.id = false) (hid : ∀ x, op ≠ .task (.updateTask x)) :
    Own c (c.called execCall t j op k inp) t task where
  stored := hstored.exec hop (fun x hx => absurd hx (hid x))
  read := lastRead_called_read inp hreads
  sole := by
    intro u a _ ha heq
    have hyes := taken_of_holds ha
    rw [heq, htaken] at hyes
    cases hyes

theorem own_getTask (hI : Inv c g) {k : Except Err Task → Program (Except Err Unit)}
    (hp : c.pool[t]? = some ⟨j, .call (.task (.getTask id)) k⟩)
    (hok : inTurn c (.step t inp) = true) (hop : (g t).allows (.task (.getTask id)))
    (htakes : (roleAt c t).takesUp = true) :
    ∀ task ∈ ((handOf t c.log).afterGet (execCall inp (.task (.getTask id)) c.world).1).all,
      Own c (c.called execCall t j (.task (.getTask id)) k inp) t task := by
  have htaken : taken c id = false := by
    have hfits := fits_of_inTurn hp hok
    cases hrole : roleAt c t <;> grind [fits, Role.takesUp]
  have hactive := active_self hp htakes
  intro task htask
  rcases exec_getTask_cases inp c.world id with ⟨e, he⟩ | ⟨row, hrow, he⟩
  · -- the call failed: everything as before
    rw [he] at htask
    exact own_of_held hI hop ⟨hactive, htask⟩ (by rw [he]; rfl) (by simp)
  rw [he] at htask
  have hrowid := (Table.get?_some hrow).2
  have hother : ∀ x ∈ (handOf t c.log).all, x.id ≠ id := by
    intro x hx heq
    have hyes := taken_of_holds (c := c) ⟨hactive, hx⟩
    grind
  have hmem : task ∈ (handOf t c.log).tasks ∨ task = readTask c.world.backend row := by
    grind [Hand.afterGet, Hand.all]
  rcases hmem with hold | rfl
  · have hall : task ∈ (handOf t c.log).all := mem_append_left _ hold
    refine own_of_held hI hop ⟨hactive, hall⟩ ?_ (by simp)
    rw [he]
    exact if_neg (fun heq => hother task hall (by rw [← heq, readTask_id, hrowid]))
  · refine own_of_read hop ⟨row, ?_, rfl⟩ (by rw [he]; exact if_pos rfl) ?_ (by simp)
    · rw [readTask_id, hrowid, hrow]
    · rw [readTask_id, hrowid, htaken]

theorem own_listDueTasks {limit : Int}
    {k : Except Err (List Task) → Program (Except Err Unit)} (hI : Inv c g)
    (hp : c.pool[t]? = some ⟨j, .call (.task (.listDueTasks limit)) k⟩)
    (hok : inTurn c (.step t inp) = true) (hop : (g t).allows (.task (.listDueTasks limit)))
    (htakes : (roleAt c t).takesUp = true) :
    ∀ task ∈ ((handOf t c.log).afterList
        (execCall inp (.task (.listDueTasks limit)) c.world).1).all,
      Own c (c.called execCall t j (.task (.listDueTasks limit)) k inp) t task := by
  have hempty : (handOf t c.log).candidate = none ∧ (handOf t c.log).tasks = [] := by
    have hq := hop
    rw [hI.position t] at hq
    exact ⟨(hq htakes).1.2, (hq htakes).2⟩
  intro task htask
  rcases exec_task_cases inp c.world (.listDueTasks limit) with ⟨e, he⟩ | he
  · rw [he] at htask
    grind [Hand.afterList, Hand.all]
  rw [he] at htask
  have hmem : task ∈ c.world.tasks.listDueTasks c.world.backend inp.now inp.taskScan limit := by
    have hall : task ∈ ((handOf t c.log).afterList (.ok _)).all := htask
    simpa [Hand.afterList, Hand.all, hempty.1] using hall
  obtain ⟨row, hrow, _, rfl⟩ := TaskStore.mem_listDueTasks hmem
  refine own_of_read hop ⟨row, ?_, rfl⟩ ?_ ?_ (by simp)
  · rw [readTask_id]
    exact Table.get?_of_mem hrow
  · -- no other task of the answer has that id
    rw [he]
    have hinj := fun x hx => inj_on_of_nodup_map (TaskStore.nodup_listDueTasks c.world.backend
      inp.now inp.taskScan c.world.tasks limit) (x := x) hx hmem
    show (find? _ (c.world.tasks.listDueTasks c.world.backend inp.now inp.taskScan limit)).map _ = _
    cases hfound : find? _ _ with
    | none => exact absurd (find?_eq_none.mp hfound _ hmem) (by simp)
    | some x =>
      have hx := find?_some hfound
      rw [hinj x (mem_of_find?_eq_some hfound) (by simpa using hx)]
      rfl
  · have hfits := fits_of_inTurn hp hok
    simp only [fits, htakes, Bool.not_true, Bool.false_or, all_eq_true] at hfits
    simpa using hfits _ hmem

/-- **Whatever a thread has in hand after a call is its own.** -/
theorem own_called (hI : Inv c g) (hp : c.pool[t]? = some ⟨j, .call op k⟩)
    (hok : inTurn c (.step t inp) = true) (hop : (g t).allows op)
    (htakes : (roleAt c t).takesUp = true) :
    ∀ task ∈ ((handOf t c.log).after op (execCall inp op c.world).1).all,
      Own c (c.called execCall t j op k inp) t task := by
  intro task htask
  by_cases hread : (∃ id, op = .task (.getTask id)) ∨ ∃ limit, op = .task (.listDueTasks limit)
  · rcases hread with ⟨id, rfl⟩ | ⟨limit, rfl⟩
    · exact own_getTask hI hp hok hop htakes task htask
    · exact own_listDueTasks hI hp hok hop htakes task htask
  have hreads : reads task.id ⟨op, (execCall inp op c.world).1⟩ = none := by
    unfold reads
    split
    next limit _ h => exact absurd (.inr ⟨limit, congrArg Sigma.fst h⟩) hread
    next id _ h => exact absurd (.inl ⟨id, congrArg Sigma.fst h⟩) hread
    next => rfl
  have hold : task ∈ (handOf t c.log).all ∧ ∀ x, op = .task (.updateTask x) → task.id ≠ x.id := by
    by_cases hput : ∃ x, op = .task (.updateTask x)
    · obtain ⟨x, rfl⟩ := hput
      have hq := hop
      rw [hI.position t] at hq
      unfold Position.allows Position.mayPutBack at hq
      grind [Hand.after, Hand.putBack, Hand.all]
    refine ⟨?_, fun x hx => absurd ⟨x, hx⟩ hput⟩
    unfold Hand.after Hand.afterCreate at htask
    split at htask <;> grind [Hand.mem_all_of_afterNow, Hand.all]
  exact own_of_held hI hop ⟨active_self hp htakes, hold.1⟩ hreads hold.2

end Own

/-! ## What a step does to the births. -/

section Births

variable {c : Pool} {g : Nat → Position} {t : Nat} {j : Job} {op : Call}
  {k : op.Ans → Program (Except Err Unit)} {inp : Input}

theorem progress_after (hop : q.allows op) (htakes : q.role.takesUp = true)
    (ans : op.Ans) {n : Nat} (h : q.hand.progress = some (id, n)) :
    (∃ task, op = .task (.updateTask task) ∧ task.id = id)
      ∨ ((∃ m, n ≤ m ∧ (q.hand.after op ans).progress = some (id, m))
          ∧ ∀ task, op ≠ .task (.updateTask task)) := by
  have hcases := hop
  unfold Position.allows at hcases
  unfold Hand.after Hand.afterCreate
  split <;> grind [Position.free, Position.mayPutBack, Position.mayCreate, Hand.afterNow_progress,
    Hand.count]

theorem inProgress_called (hI : Inv c g) (htr : Tracks taking post c g)
    (hp : c.pool[t]? = some ⟨j, .call op k⟩)
    (hans : (g t).admits op (execCall inp op c.world).1) (hop : (g t).allows op)
    (h : InProgress c b) :
    InProgress (c.called execCall t j op k inp) b ∨ ((handOf t c.log).progress ≠ none
          ∧ ∃ task, op = .task (.updateTask task) ∧ task.id = b.task) := by
  obtain ⟨u, n, hactive, hprogress, hshard⟩ := h
  by_cases hu : u = t
  · subst hu
    have htakes : (roleAt c u).takesUp = true := ((Bool.and_eq_true _ _).mp hactive).1
    have hq := hI.position u
    rcases progress_after (n := n) hop (by rw [hq]; exact htakes) (execCall inp op c.world).1
      (by rw [hq]; exact hprogress) with hput | ⟨⟨m, hm, hafter⟩, _⟩
    · exact .inr ⟨by rw [hprogress]; simp, hput⟩
    left
    rw [hq] at hafter
    refine ⟨u, m, active_called_self hp hI htr hans htakes ?_, ?_, by omega⟩
    · rw [show Hand.progress _ = _ from hafter]
      simp
    · rw [handOf_called_self]
      exact hafter
  · left
    exact ⟨u, n, by rw [active_called_of_ne hp inp hu, hactive],
      by rw [handOf_called_of_ne inp hu, hprogress], hshard⟩

theorem put_back (inp : Input) (hI : Inv c g) {x : Task}
    {k : Except Err Task → Program (Except Err Unit)}
    (hp : c.pool[t]? = some ⟨j, .call (.task (.updateTask x)) k⟩)
    (hop : (g t).allows (.task (.updateTask x))) {row : Task}
    (hrow : c.world.tasks.tasks.get? x.id = some row) :
    row.nextTriggerTime < x.nextTriggerTime
      ∧ ((∃ e, execCall inp (.task (.updateTask x)) c.world = (.error e, c.world))
        ∨ ∀ row', (execCall inp (.task (.updateTask x)) c.world).2.tasks.tasks.get? x.id = some row'
            → row'.nextTriggerTime = x.nextTriggerTime) := by
  have hq := hop
  rw [hI.position t] at hq
  obtain ⟨htakes, _, _, task, hmem, heq, hlt⟩ := hq
  have hid : x.id = task.id := by rw [heq]
  have hholds : Holds c t task := ⟨active_self hp htakes, mem_append_left _ hmem⟩
  rw [hid] at hrow
  refine ⟨by rw [(hI.stored t task hholds).nextTriggerTime hrow]; exact hlt, ?_⟩
  rcases exec_updateTask_cases inp c.world x with ⟨e, he⟩ | ⟨current, hcurrent, he⟩
  · exact .inl ⟨e, he⟩
  right
  intro row' hrow'
  rw [show execCall inp (.task (.updateTask x)) c.world = _ from he] at hrow'
  have hwrite : (c.world.tasks.write c.world.backend inp.now x).tasks.get? x.id = some row' :=
    hrow'
  rw [TaskStore.get?_write, hcurrent, Option.map_some, if_pos (Table.get?_some hcurrent).2]
    at hwrite
  rw [← Option.some.inj hwrite, updatedTask_nextTriggerTime]

/-- **A birth stays in the past, or in progress.** -/
theorem past_called (hI : Inv c g) (htr : Tracks taking post c g)
    (hp : c.pool[t]? = some ⟨j, .call op k⟩)
    (hans : (g t).admits op (execCall inp op c.world).1) (hop : (g t).allows op)
    (h : Past c b) : Past (c.called execCall t j op k inp) b := by
  obtain ⟨v, hv, hrows⟩ := h
  refine ⟨v, hv, ?_⟩
  intro row' hrow'
  have hrow' : (execCall inp op c.world).2.tasks.tasks.get? b.task = some row' := hrow'
  -- what was in progress still is, unless this thread puts the task back
  have hstays := inProgress_called (b := b) hI htr hp hans hop
  by_cases hput : ∃ x, op = .task (.updateTask x) ∧ x.id = b.task
  · obtain ⟨x, rfl, hid⟩ := hput
    cases hrow : c.world.tasks.tasks.get? b.task with
    | none =>
      -- there is no row to write
      have hcases := exec_updateTask_cases inp c.world x
      grind
    | some row =>
    have hput := put_back inp hI hp hop (by rw [hid]; exact hrow)
    have hold := hrows row hrow
    rcases hput.2 with ⟨e, he⟩ | hwritten
    · -- the write failed: the thread had nothing in progress
      have hnone : (handOf t c.log).progress = none := by
        by_contra hne
        have hadmits := hans (by rw [hI.position t]; exact hne)
        rw [he] at hadmits
        obtain ⟨y, hy⟩ := hadmits
        cases hy
      grind
    · have hnext := hwritten row' (by rw [hid]; exact hrow')
      grind
  · rw [get?_exec hop inp c.world (by grind)] at hrow'
    grind

theorem creation (hI : Inv c g) {i : TaskInstance}
    {k : Except Err TaskInstance → Program (Except Err Unit)}
    (hp : c.pool[t]? = some ⟨j, .call (.inst (.createInstance i)) k⟩)
    (hop : (g t).allows (.inst (.createInstance i))) :
    ∃ task, Holds c t task ∧ task.id = i.taskID
      ∧ lastRead t i.taskID c.log = some task.nextTriggerTime := by
  have hq := hop
  rw [hI.position t] at hq
  obtain ⟨htakes, _, hmem, _, _⟩ := hq
  obtain ⟨task, htask, hid⟩ := mem_map.mp hmem
  have hholds : Holds c t task := ⟨active_self hp htakes, mem_append_left _ htask⟩
  refine ⟨task, hholds, hid, ?_⟩
  rw [← hid]
  exact hI.read t task hholds

theorem mem_birthOf {log : List (Nat × Event System)} {e : Event System}
    (h : b ∈ birthOf t log e) :
    ∃ i stored, e = ⟨.inst (.createInstance i), .ok stored⟩ ∧ i.retryCount = 0
      ∧ b = ⟨t, i.taskID, lastRead t i.taskID log, i.shardNo⟩ := by
  unfold birthOf at h
  split at h <;> grind

/-- **A new birth** is of the occurrence in progress, and the first of its
shard. -/
theorem birth_called (hI : Inv c g) (htr : Tracks taking post c g)
    (hp : c.pool[t]? = some ⟨j, .call op k⟩)
    (hans : (g t).admits op (execCall inp op c.world).1) (hop : (g t).allows op)
    (hb : b ∈ birthOf t c.log ⟨op, (execCall inp op c.world).1⟩) :
    Past (c.called execCall t j op k inp) b ∧ b.key ∉ (births c.log).map Birth.key
      ∧ byHeapTick c b.thread = false := by
  obtain ⟨i, stored, he, hcount, rfl⟩ := mem_birthOf hb
  obtain rfl : op = .inst (.createInstance i) := congrArg Sigma.fst he
  have hstored : (execCall inp (.inst (.createInstance i)) c.world).1 = .ok stored := by
    injection he
  obtain ⟨task, hholds, hid, hread⟩ := creation hI hp hop
  have hq := hop
  rw [hI.position t] at hq
  obtain ⟨htakes, _, _, hshard, hsame⟩ := hq
  have hafter : (handOf t (c.called execCall t j (.inst (.createInstance i)) k inp).log).progress
      = some (i.taskID, (handOf t c.log).count + 1) := by
    rw [handOf_called_self]
    show ((handOf t c.log).afterCreate i _).progress = _
    rw [hstored]
    rfl
  refine ⟨⟨task.nextTriggerTime, hread, ?_⟩, ?_, ?_⟩
  · intro row hrow
    have hrow' : (execCall inp (.inst (.createInstance i)) c.world).2.tasks.tasks.get? i.taskID
        = some row := hrow
    rw [exec_tasks inp c.world (by simp), ← hid] at hrow'
    refine .inr ⟨((hI.stored t task hholds).nextTriggerTime hrow').symm, t, _, ?_, hafter, ?_⟩
    · refine active_called_self hp hI htr hans htakes ?_
      rw [← handOf_called_self inp, hafter]
      simp
    · have hshard' : i.shardNo = (handOf t c.log).count := hshard
      show i.shardNo < ((handOf t c.log).count + 1 : Nat)
      omega
  · -- an earlier birth of this occurrence is this thread's, of an earlier shard
    intro hmem
    obtain ⟨b, hb, hkey⟩ := mem_map.mp hmem
    obtain ⟨v, hv, hrows⟩ := hI.past b hb
    have htask : b.task = i.taskID := congrArg Prod.fst hkey
    have htime : b.time = lastRead t i.taskID c.log := congrArg (fun p => p.2.1) hkey
    have hbshard : b.shard = i.shardNo := congrArg (fun p => p.2.2) hkey
    rw [hread, hv] at htime
    obtain ⟨row, hrow, _⟩ := hI.stored t task hholds
    have hnext := (hI.stored t task hholds).nextTriggerTime hrow
    rw [hid, ← htask] at hrow
    rcases hrows row hrow with hlt | ⟨_, u, n, hactive, hprogress, hlt⟩
    · have := Option.some.inj htime
      omega
    obtain ⟨task', hmem', hid'⟩ := hI.working u b.task n hactive hprogress
    have hut : u = t := hI.sole u t task' task ⟨hactive, mem_append_left _ hmem'⟩ hholds
      (hid'.trans (htask.trans hid.symm))
    subst hut
    have hn : (handOf u c.log).count = n := by
      unfold Hand.count
      rw [hprogress]
      rfl
    have hshard' : i.shardNo = (handOf u c.log).count := hshard
    omega
  · unfold byHeapTick
    unfold roleAt at htakes
    cases hjob : c.jobOf t with
    | none => rfl
    | some j' =>
      rw [hjob] at htakes
      cases j' with
      | heapTick => simp [roleOf, Role.takesUp] at htakes
      | _ => rfl

theorem birthOf_length (log : List (Nat × Event System)) (e : Event System) :
    birthOf t log e = [] ∨ ∃ b, birthOf t log e = [b] := by
  unfold birthOf
  split <;> grind

theorem byHeapTick_called (hp : c.pool[t]? = some ⟨j, .call op k⟩) (u : Nat) :
    byHeapTick (c.called execCall t j op k inp) u = byHeapTick c u := by
  unfold byHeapTick
  rw [jobOf_called hp inp u]

theorem once_called (hI : Inv c g) (htr : Tracks taking post c g)
    (hp : c.pool[t]? = some ⟨j, .call op k⟩)
    (hans : (g t).admits op (execCall inp op c.world).1) (hop : (g t).allows op) :
    OnceEach (c.called execCall t j op k inp) := by
  have hbirth := fun b => birth_called (b := b) hI htr hp hans hop
  have hlog : births (c.called execCall t j op k inp).log
      = birthOf t c.log ⟨op, (execCall inp op c.world).1⟩ ++ births c.log := rfl
  constructor
  · rw [hlog]
    rcases birthOf_length (t := t) c.log ⟨op, (execCall inp op c.world).1⟩ with hnone | ⟨b, hone⟩
    · rw [hnone]
      exact hI.once.1
    · rw [hone, singleton_append, map_cons, nodup_cons]
      exact ⟨(hbirth b (by rw [hone]; simp)).2.1, hI.once.1⟩
  · intro b hb
    rw [byHeapTick_called hp]
    rw [hlog, mem_append] at hb
    rcases hb with hb | hb
    · exact (hbirth b hb).2.2
    · exact hI.once.2 b hb

theorem working_called (hI : Inv c g) (hp : c.pool[t]? = some ⟨j, .call op k⟩)
    (hop : (g t).allows op) (htakes : (roleAt c t).takesUp = true) {n : Nat}
    (h : ((handOf t c.log).after op (execCall inp op c.world).1).progress = some (id, n)) :
    ∃ task ∈ ((handOf t c.log).after op (execCall inp op c.world).1).tasks, task.id = id := by
  have hq := hop
  rw [hI.position t] at hq
  have hold : (handOf t c.log).progress = some (id, n) →
      ∃ task ∈ (handOf t c.log).tasks, task.id = id :=
    hI.working t id n (active_self hp htakes)
  unfold Position.allows at hq
  unfold Hand.after Hand.afterCreate Hand.afterGet Hand.afterList at h ⊢
  split at h <;> grind [Position.free, Position.mayCreate, Hand.afterNow_progress, Hand.putBack,
    Hand.mem_tasks_afterNow]

end Births

/-! ## The invariant holds. -/

theorem inv_called {c : Pool} {g : Nat → Position} {t : Nat} {j : Job} {op : Call}
    {k : op.Ans → Program (Except Err Unit)} {inp : Input} {q' : Position} (hI : Inv c g)
    (htr : Tracks taking post c g) (hok : inTurn c (.step t inp) = true)
    (hp : c.pool[t]? = some ⟨j, .call op k⟩) (hans : (g t).admits op (execCall inp op c.world).1)
    (hq' : taking.next (g t) op (execCall inp op c.world).1 = some q') :
    Inv (c.called execCall t j op k inp) (update g t q') := by
  have hnext : (g t).next op _ = some q' := hq'
  unfold Position.next at hnext
  have hop : (g t).allows op := by grind
  have hq : q' = (g t).withHand ((g t).hand.after op (execCall inp op c.world).1) := by grind
  have hown : ∀ task, Holds (c.called execCall t j op k inp) t task →
      Own c (c.called execCall t j op k inp) t task := by
    intro task h
    exact own_called hI hp hok hop (takesUp_of_called hp inp h.active) task
      (handOf_called_self (c := c) inp ▸ h.mem)
  have hother : ∀ u, u ≠ t → ∀ task, Holds (c.called execCall t j op k inp) u task →
      Holds c u task := fun u hu task => (holds_called_of_ne hp inp hu).mp
  constructor
  · intro u
    by_cases hu : u = t
    · subst hu
      rw [update_self, hq, hI.position u, roleAt_called hp, handOf_called_self]
      rfl
    · rw [update_of_ne hu, hI.position u, roleAt_called hp, handOf_called_of_ne inp hu]
  · intro u task h
    by_cases hu : u = t
    · subst hu
      exact (hown task h).stored
    have hold := hother u hu task h
    refine (hI.stored u task hold).exec hop ?_
    -- what is put back is in this thread's hand, so in nobody else's
    rintro x rfl heq
    have hpos := hop
    rw [hI.position t] at hpos
    obtain ⟨htakes, _, _, y, hy, hxy, _⟩ := hpos
    refine hu (hI.sole u t task y hold ⟨active_self hp htakes, mem_append_left _ hy⟩ ?_)
    rw [heq, hxy]
  · intro u v a b ha hb heq
    have hsole := hI.sole u v a b
    have howna := fun h => (hown a h).sole v b
    have hownb := fun h => (hown b h).sole u a
    grind
  · intro u task h
    by_cases hu : u = t
    · subst hu
      exact (hown task h).read
    · rw [lastRead_called_of_ne inp hu]
      exact hI.read u task (hother u hu task h)
  · intro u id n hactive hprogress
    by_cases hu : u = t
    · subst hu
      rw [handOf_called_self] at hprogress ⊢
      exact working_called hI hp hop (takesUp_of_called hp inp hactive) hprogress
    · rw [active_called_of_ne hp inp hu] at hactive
      rw [handOf_called_of_ne inp hu] at hprogress ⊢
      exact hI.working u id n hactive hprogress
  · intro b hb
    rcases mem_append.mp (show b ∈ birthOf t c.log _ ++ births c.log from hb) with hnew | hold
    · exact (birth_called hI htr hp hans hop hnew).1
    · exact past_called hI htr hp hans hop (hI.past b hold)
  · exact once_called hI htr hp hans hop

theorem handOf_of_forall_ne {t : Nat} :
    ∀ {log : List (Nat × Event System)}, (∀ e ∈ log, e.1 ≠ t) → handOf t log = {} := by
  intro log
  induction log with
  | nil => exact fun _ => rfl
  | cons e log ih => grind [handOf]

theorem exists_mem_of_birth :
    ∀ {log : List (Nat × Event System)} {b : Birth}, b ∈ births log →
      ∃ e ∈ log, e.1 = b.thread := by
  intro log
  induction log with
  | nil =>
    intro b hb
    simp [births] at hb
  | cons e log ih =>
  intro b hb
  rcases mem_append.mp hb with hb | hb
  · obtain ⟨i, stored, _, _, rfl⟩ := mem_birthOf hb
    exact ⟨e, .head _, rfl⟩
  · obtain ⟨e', he', hthread⟩ := ih hb
    exact ⟨e', .tail _ he', hthread⟩

section Spawned

variable {url : String} {c : Pool} {j : Job} {u : Nat}

theorem roleAt_spawned_of_ne (hu : u ≠ c.pool.length) :
    roleAt (c.spawned (body url) j) u = roleAt c u := by
  unfold roleAt
  rw [jobOf_spawned_of_ne hu]

theorem active_spawned_of_ne (hu : u ≠ c.pool.length) :
    active (c.spawned (body url) j) u = active c u := by
  unfold active
  rw [roleAt_spawned_of_ne hu, nextOp_spawned_of_ne hu]

theorem ne_length_of_active (h : active c u = true) : u ≠ c.pool.length := by
  intro hu
  unfold active nextOp at h
  rw [hu, getElem?_eq_none (Nat.le_refl _)] at h
  simp at h

theorem holds_of_spawned (hlog : ∀ e ∈ c.log, e.1 < c.pool.length)
    (h : Holds (c.spawned (body url) j) u task) : Holds c u task := by
  by_cases hu : u = c.pool.length
  · have hempty : handOf u c.log = {} :=
      handOf_of_forall_ne (fun e he => by have := hlog e he; omega)
    have hmem : task ∈ (handOf u c.log).all := h.mem
    rw [hempty] at hmem
    simp [Hand.all] at hmem
  · exact ⟨by rw [← active_spawned_of_ne hu]; exact h.active, h.mem⟩

end Spawned

theorem inv_spawned {url : String} {c : Pool} {g : Nat → Position} (hI : Inv c g)
    (hlog : ∀ e ∈ c.log, e.1 < c.pool.length) (j : Job) :
    Inv (c.spawned (body url) j) (update g c.pool.length (start j)) := by
  have hempty : handOf c.pool.length c.log = {} :=
    handOf_of_forall_ne (fun e he => by have := hlog e he; omega)
  constructor
  · intro u
    by_cases hu : u = c.pool.length
    · subst hu
      have hrole : roleAt (c.spawned (body url) j) c.pool.length = roleOf j := by
        unfold roleAt
        rw [jobOf_spawned_self]
        rfl
      show _ = Position.mk _ (handOf c.pool.length c.log)
      rw [update_self, hrole, hempty]
      rfl
    · rw [update_of_ne hu, hI.position u, roleAt_spawned_of_ne hu]
      rfl
  · intro u task h
    exact hI.stored u task (holds_of_spawned hlog h)
  · intro u v a b ha hb
    exact hI.sole u v a b (holds_of_spawned hlog ha) (holds_of_spawned hlog hb)
  · intro u task h
    exact hI.read u task (holds_of_spawned hlog h)
  · intro u id n hactive hprogress
    have hprogress' : (handOf u c.log).progress = some (id, n) := hprogress
    by_cases hu : u = c.pool.length
    · rw [hu, hempty] at hprogress'
      exact absurd hprogress' (by simp)
    · rw [active_spawned_of_ne hu] at hactive
      exact hI.working u id n hactive hprogress
  · intro b hb
    obtain ⟨v, hv, hrows⟩ := hI.past b hb
    refine ⟨v, hv, ?_⟩
    intro row hrow
    refine (hrows row hrow).imp_right (fun hnow => ⟨hnow.1, ?_⟩)
    obtain ⟨u, n, hactive, hprogress, hshard⟩ := hnow.2
    refine ⟨u, n, ?_, hprogress, hshard⟩
    rw [active_spawned_of_ne (ne_length_of_active hactive)]
    exact hactive
  · refine ⟨hI.once.1, ?_⟩
    intro b hb
    obtain ⟨e, he, hthread⟩ := exists_mem_of_birth hb
    have hlt := hlog e he
    rw [hthread] at hlt
    unfold byHeapTick
    rw [jobOf_spawned_of_lt hlt]
    exact hI.once.2 b hb

/-! ## The condition leaves only the admitted answers. -/

section Admits

variable {c : Pool} {g : Nat → Position} {t : Nat} {j : Job} {inp : Input}

theorem admitsNow_of_onTime {role : Role} {hand : Hand} {now : Int}
    (h : onTime role hand now = true) : Position.admitsNow { role := role, hand := hand } now := by
  unfold onTime at h
  refine ⟨?_, ?_, ?_⟩ <;> grind [Option.mem_def]

theorem updateTask_ok (hI : Inv c g) {x : Task} {k : Except Err Task → Program (Except Err Unit)}
    (hp : c.pool[t]? = some ⟨j, .call (.task (.updateTask x)) k⟩)
    (hop : (g t).allows (.task (.updateTask x))) (hfault : inp.fault = none) :
    ∃ task, (execCall inp (.task (.updateTask x)) c.world).1 = .ok task := by
  rw [hI.position t] at hop
  obtain ⟨htakes, _, _, task, hmem, heq, _⟩ := hop
  obtain ⟨row, hrow, htask⟩ :=
    hI.stored t task ⟨active_self hp htakes, mem_append_left _ hmem⟩
  rw [show task.id = x.id by rw [heq]] at hrow
  rw [exec_task c.world hfault]
  show ∃ task, (c.world.tasks.updateTask c.world.backend inp.now x).1 = .ok task
  rw [TaskStore.updateTask_of_same_name hrow (by rw [heq, htask, readTask_tenantID])
    (by rw [heq, htask, readTask_name])]
  exact ⟨_, rfl⟩

theorem admits_getTask (hI : Inv c g) {k : Except Err Task → Program (Except Err Unit)}
    (hp : c.pool[t]? = some ⟨j, .call (.task (.getTask id)) k⟩)
    (hok : inTurn c (.step t inp) = true) :
    (g t).admits (.task (.getTask id)) (execCall inp (.task (.getTask id)) c.world).1 := by
  have hfits := fits_of_inTurn hp hok
  intro task htask henabled
  -- the answer is the stored row
  obtain ⟨row, hrow, rfl⟩ : ∃ row, c.world.tasks.tasks.get? id = some row
      ∧ task = readTask c.world.backend row := by
    have hcases := exec_getTask_cases inp c.world id
    grind
  rw [readTask_status] at henabled
  rw [hI.position t, readTask_id, (Table.get?_some hrow).2]
  constructor
  · rintro (hheap : roleAt c t = .heap)
    rw [hheap] at hfits
    simp [fits, enabled, hrow, henabled] at hfits
  · intro (htakes : (roleAt c t).takesUp = true) hmem
    obtain ⟨task, hheld, rfl⟩ := mem_map.mp hmem
    have hyes := taken_of_holds (c := c) ⟨active_self hp htakes, mem_append_left _ hheld⟩
    cases hrole : roleAt c t <;> grind [fits, Role.takesUp]

theorem fault_none {p : Option (Int × Nat)} (h : (p.isNone || inp.fault.isNone) = true)
    (hp : p ≠ none) : inp.fault = none := by
  rw [Bool.or_eq_true, Option.isNone_iff_eq_none, Option.isNone_iff_eq_none] at h
  exact h.resolve_left hp

theorem admits_createInstance (hI : Inv c g) {i : TaskInstance}
    {k : Except Err TaskInstance → Program (Except Err Unit)}
    (hp : c.pool[t]? = some ⟨j, .call (.inst (.createInstance i)) k⟩)
    (hok : inTurn c (.step t inp) = true) :
    (g t).admits (.inst (.createInstance i))
      (execCall inp (.inst (.createInstance i)) c.world).1 := by
  have hfits := fits_of_inTurn hp hok
  intro hprogress
  rw [hI.position t] at hprogress
  have hprogress : (handOf t c.log).progress ≠ none := hprogress
  simp only [fits] at hfits
  rw [exec_inst c.world (by grind [Option.isNone_iff_eq_none])]
  show ∃ row, (c.world.instances.createInstance c.world.backend inp.now i).1 = .ok row
  unfold InstanceStore.createInstance
  rw [if_neg (by grind [Option.isNone_iff_eq_none])]
  exact ⟨_, rfl⟩

theorem admits_worker (hI : Inv c g) {call : WorkerCall}
    {k : Except Err call.Result → Program (Except Err Unit)}
    (hp : c.pool[t]? = some ⟨j, .call (.worker call) k⟩) (hok : inTurn c (.step t inp) = true) :
    (g t).admits (.worker call) (execCall inp (.worker call) c.world).1 := by
  have hfits := fits_of_inTurn hp hok
  have hfault : (g t).hand.progress ≠ none → inp.fault = none := by
    intro hprogress
    rw [hI.position t] at hprogress
    exact fault_none hfits hprogress
  cases call with
  | listAvailableWorkers opts =>
    intro hprogress
    rw [exec_worker c.world (hfault hprogress)]
    exact ⟨_, rfl⟩
  | upsertWorker w =>
    intro hprogress
    rw [exec_worker c.world (hfault hprogress)]
    rfl
  | getWorker id | listStaleWorkers cutoff => trivial

theorem admits_dispatch (hI : Inv c g) {w : WorkerNode} {req : ExecuteTaskRequest}
    {k : Except Err Unit → Program (Except Err Unit)}
    (hp : c.pool[t]? = some ⟨j, .call (.node (.dispatch w req)) k⟩)
    (hok : inTurn c (.step t inp) = true) :
    (g t).admits (.node (.dispatch w req)) (execCall inp (.node (.dispatch w req)) c.world).1 := by
  have hfits := fits_of_inTurn hp hok
  intro hwheel
  rw [hI.position t] at hwheel
  have hrole : roleAt c t = .wheel := hwheel
  rw [hrole] at hfits
  cases hout : inp.outcome w req with
  | accepted => rw [exec_dispatch_accepted c.world hout]
  | refused e | lost e => simp [fits, hout] at hfits

theorem admits_of_inTurn (hI : Inv c g) (htr : Tracks taking post c g) {op : Call}
    {k : op.Ans → Program (Except Err Unit)} (hp : c.pool[t]? = some ⟨j, .call op k⟩)
    (hok : inTurn c (.step t inp) = true) :
    (g t).admits op (execCall inp op c.world).1 := by
  cases op with
  | task call =>
    cases call with
    | getTask id => exact admits_getTask hI hp hok
    | listDueTasks limit =>
      intro tasks htasks
      rcases exec_task_cases inp c.world (.listDueTasks limit) with ⟨e, he⟩ | he
      · rw [he] at htasks
        cases htasks
      rw [he] at htasks
      injection htasks with htasks
      rw [← htasks]
      exact TaskStore.nodup_listDueTasks _ _ _ _ _
    | updateTask x =>
      intro hprogress
      -- the protocol allows the call, whatever it answers
      obtain ⟨q', hq', _⟩ := htr.next hp (.ok x) (fun _ => ⟨x, rfl⟩)
      have hop : (g t).allows (.task (.updateTask x)) := by
        by_contra hno
        have hnone : (if (g t).allows (.task (.updateTask x)) then _ else none) = some q' := hq'
        rw [if_neg hno] at hnone
        cases hnone
      refine updateTask_ok hI hp hop (fault_none (fits_of_inTurn hp hok) ?_)
      rw [hI.position t] at hprogress
      exact hprogress
    | _ => trivial
  | inst call =>
    cases call with
    | createInstance i => exact admits_createInstance hI hp hok
    | _ => trivial
  | worker call => exact admits_worker hI hp hok
  | memory call =>
    cases call with
    | now =>
      intro htakes
      rw [hI.position t] at htakes ⊢
      have htakes' : (roleAt c t).takesUp = true := htakes
      have hfits := fits_of_inTurn hp hok
      simp only [fits, htakes', Bool.not_true, Bool.false_or] at hfits
      exact admitsNow_of_onTime hfits
    | _ => trivial
  | node call =>
    cases call with
    | dispatch w req => exact admits_dispatch hI hp hok
    | _ => trivial

end Admits

/-! ## At most one first attempt. -/

theorem inv_init (w : World) :
    Inv (init w) (fun _ => { role := .other }) := by
  have hactive : ∀ t, active (init w : Pool) t = false := by
    intro t
    unfold active nextOp
    simp [init]
  have hholds : ∀ t task, ¬ Holds (init w : Pool) t task := by
    intro t task h
    have hyes := h.active
    rw [hactive t] at hyes
    cases hyes
  have hno : ∀ b, b ∉ births (init w : Pool).log := fun b hb => absurd hb (by
    simp [init, births])
  constructor
  · intro t
    rfl
  · intro t task h
    exact absurd h (hholds t task)
  · intro t u a b h
    exact absurd h (hholds t a)
  · intro t task h
    exact absurd h (hholds t task)
  · intro t id n h
    rw [hactive t] at h
    cases h
  · intro b hb
    exact absurd hb (hno b)
  · exact ⟨nodup_nil, fun b hb => absurd hb (hno b)⟩

theorem inv_of_runs {url : String} {c : Pool}
    (h : Runs url (fun c l => inTurn c l = true) w c) :
    ∃ g, Tracks taking post c g ∧ Inv c g := by
  refine Reaches.tracks (P := taking) start Inv ?_ ?_ ?_ ?_ (inv_init w) h
  · intro c j hj
    exact follows_body url hj
  · intro c g j hlog hI _
    exact inv_spawned hI hlog j
  · intro c g t j op k inp htr hI hok hp
    exact admits_of_inTurn hI htr hp hok
  · intro c g t j op k inp q' htr hI hok hp hans hq'
    exact inv_called hI htr hok hp hans hq'

/-- **AT MOST ONE FIRST ATTEMPT per task, occurrence and shard, and none for a waiting retry**, if
each call is in turn. -/
theorem once_per_occurrence (url : String) (w : World) (c : Pool)
    (h : Runs url (fun c l => inTurn c l = true) w c) : OnceEach c := by
  obtain ⟨g, _, hI⟩ := inv_of_runs h
  exact hI.once

def oneDueTask : World :=
  World.ofRows .mysql
    [{ id := 1, status := .enabled, cronExpr := "* * * * *",
       nextTriggerTime := unixEpoch + second / 10 }] [] []
    [{ id := "w1", status := .online, maxConcurrency := 4 }]

/-- One enabled task that is not due, and a retry of an instance of it. -/
def oneWaitingRetry : World :=
  World.ofRows .mysql
    [{ id := 1, status := .enabled, cronExpr := "* * * * *", nextTriggerTime := 10 * hour }] []
    [{ id := 7, taskID := 1, scheduleInstanceID := "s", status := .retryWaiting, retryCount := 1,
       nextRetryTime := 1 }]
    []

def producersOnly (_ : Pool) : PoolStep → Bool
  | .spawn j => isProducer j
  | .step _ _ => true

/-- The next `n` calls of a thread, at the first due time plus `delay`. -/
def callsAt (t n : Nat) (delay : Int) : List PoolStep :=
  List.replicate n (.step t { now := unixEpoch + second + delay })

/-- **Warm, a wheel tick and a scan** take up ONE occurrence twice; and a heap
tick makes a FIRST attempt out of a waiting retry. -/
theorem doubled_occurrence :
    (∃ c : Pool, Runs "" (fun c l => producersOnly c l = true) oneDueTask c
        ∧ (births c.log).map Birth.key
            = [(1, some (unixEpoch + second / 10), 0), (1, some (unixEpoch + second / 10), 0)])
      ∧ ∃ c : Pool, Runs "" (fun c l => producersOnly c l = true) oneWaitingRetry c
        ∧ ∃ b ∈ births c.log, byHeapTick c b.thread = true := by
  constructor
  · have hrun : (runSteps execCall (body "") producersOnly (Config.init oneDueTask)
        (.spawn .warm :: callsAt 0 5 0
          -- the wheel tick has read the task when the scan lists it
          ++ .spawn .wheelTick :: callsAt 1 3 1
          ++ .spawn .triggerScan :: callsAt 2 10 2
          ++ callsAt 1 3 3)).map
        (fun c => decide ((births c.log).map Birth.key
          = [(1, some (unixEpoch + second / 10), 0), (1, some (unixEpoch + second / 10), 0)]))
          = some true := by
      decide +kernel
    obtain ⟨c, h, hp⟩ := exists_reaches_of_runSteps (fun _ _ h => h) hrun
    exact ⟨c, h, of_decide_eq_true hp⟩
  · have hrun : (runSteps execCall (body "") producersOnly (Config.init oneWaitingRetry)
        (.spawn .warm :: List.replicate 5 (.step 0 { now := 1 })
          ++ .spawn .heapTick :: List.replicate 7 (.step 1 { now := 1 }))).map
        (fun c : Pool => decide (∃ b ∈ births c.log, byHeapTick c b.thread = true))
          = some true := by
      decide +kernel
    obtain ⟨c, h, hp⟩ := exists_reaches_of_runSteps (fun _ _ h => h) hrun
    exact ⟨c, h, of_decide_eq_true hp⟩

/-- The condition at work: a scan alone, and then the wheel tick. -/
theorem once_per_occurrence_scan_first :
    ∃ c : Pool, Runs "" (fun c l => inTurn c l = true) oneDueTask c
      ∧ (births c.log).length = 1 ∧ OnceEach c := by
  have hrun : (runSteps execCall (body "") inTurn (Config.init oneDueTask)
      (.spawn .triggerScan :: callsAt 0 17 0 ++ .spawn .wheelTick :: callsAt 1 1 0)).map
      (fun c => decide ((births c.log).length = 1)) = some true := by
    decide +kernel
  obtain ⟨c, h, hp⟩ := exists_reaches_of_runSteps (fun _ _ h => h) hrun
  exact ⟨c, h, of_decide_eq_true hp, once_per_occurrence "" oneDueTask c h⟩

end AiScheduler.Occurrences
