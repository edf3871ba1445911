/-
  **WHO BRINGS AN OFFLINE WORKER BACK.**

  `Pick`, `Release` and the end of `ReportStatus` want to change the load only, but write back the
  row they read some calls before, STATUS INCLUDED. As long as nobody writes back a row that was
  taken offline after it was read, none of them turns an offline worker online.
-/
import AiScheduler.Proofs.Readings

namespace AiScheduler.Eviction

open Lib Readings

variable {q : Notes} {id : String} {w : World}

/-! ## The system with evictions. -/

/-- The system's jobs, and the eviction of stale workers. -/
inductive Act where
  | job (j : Job)
  /-- One tick of the health checker. -/
  | evictStaleWorkers (timeout : Int)

def Act.registers : Act → Bool
  | .job (.registerWorker _) | .job (.heartbeat _) => true
  | _ => false

def actBody (url : String) : Act → Program (Except Err Unit)
  | .job j => body url j
  | .evictStaleWorkers timeout => do
    let r ← Workers.evictStaleWorkers timeout
    return r.2.elim (.ok ()) .error

abbrev ActPool := Config System World Act (Except Err Unit)

abbrev ActStep := Label Input Act

abbrev ActRuns (url : String) (ok : ActPool → ActStep → Prop) (w : World) (c : ActPool) :
    Prop :=
  Reaches execCall (actBody url) ok (Config.init w) c

def statusOf (w : World) (id : String) : Option WorkerStatus :=
  (w.workers.get? id).map WorkerNode.status

/-! ## Rows that were overtaken. -/

def readsWorkers : Event System → Bool
  | ⟨.worker (.listAvailableWorkers _), .ok _⟩ | ⟨.worker (.getWorker _), .ok _⟩ => true
  | _ => false

/-- The status a call wrote to the row of worker `id`. -/
def statusWritten (id : String) : Event System → Option WorkerStatus
  | ⟨.worker (.upsertWorker w), .ok _⟩ => if w.id = id then some w.status else none
  | _ => none

/-- The last write to the row since thread `t` was given rows made it other than online. -/
def overtaken (t : Nat) (id : String) : List (Nat × Event System) → Bool
  | [] => false
  | (u, e) :: log =>
    if u = t ∧ readsWorkers e = true then false
    else
      match statusWritten id e with
      | some status => status ≠ .online
      | none => overtaken t id log

/-- An online row is written (but by registrations and heartbeats) only if its worker was not taken
offline since it was read. -/
def writesCurrent (c : ActPool) : ActStep → Bool
  | .spawn _ => true
  | .step t _ =>
    match c.jobOf t, c.nextOp t with
    | some a, some (.worker (.upsertWorker w)) =>
      a.registers || w.status ≠ .online || !overtaken t w.id c.log
    | _, _ => true

/-! ## The notes of an act. -/

def actStart : Act → Notes
  | .job j => start j
  | .evictStaleWorkers _ => { role := .other }

theorem stays_evictWorkers : ∀ (ws : List WorkerNode) (count : Nat),
    Prog.Stays notes (fun _ => True) (Workers.evictWorkers ws count) := by
  intro ws
  induction ws with
  | nil => exact fun _ _ _ => trivial
  | cons w ws ih =>
  intro count
  refine Prog.leads_bind (P := notes) (B := fun _ _ => True)
    (leads_ask (fun _ _ => decide_eq_true (Or.inr (Or.inl rfl))) (fun _ _ h => h)) ?_
  intro ans
  cases ans with
  | error e => exact fun _ _ => trivial
  | ok u => exact ih (count + 1)

theorem follows_actBody (url : String) (a : Act) :
    Prog.Follows notes (fun _ _ => True) (actStart a) (actBody url a) := by
  cases a with
  | job j => exact follows_body url j
  | evictStaleWorkers timeout =>
  apply Prog.follows_bind
  have hfree : notes.Keeps (fun _ => True) IsFree :=
    keeps_free (fun _ _ _ _ => trivial) (fun _ h => h)
  refine Prog.leads_bind (hfree (.memory .now) trivial) ?_ _ trivial
  intro now
  refine Prog.leads_bind
    (hfree (.worker (.listStaleWorkers (Workers.staleCutoff now timeout))) trivial) ?_
  intro ans
  cases ans with
  | error e => exact fun _ _ => trivial
  | ok stale => exact (stays_evictWorkers stale 0).mono (fun _ h => h) (fun _ _ _ => trivial)

theorem role_of_not_registers {a : Act} (h : a.registers = false) :
    (actStart a).role ≠ .registrar := by
  cases a with
  | evictStaleWorkers timeout => simp [actStart]
  | job j => cases j <;> simp_all [Act.registers, actStart, start, roleOf]

theorem role_of_stateOf {c : ActPool} {t : Nat} {a : Act} (ha : c.jobOf t = some a)
    (hq : c.stateOf notes actStart t = some q) : q.role = (actStart a).role := by
  unfold Config.stateOf at hq
  rw [ha] at hq
  injection hq with hq
  rw [← hq]
  refine Protocol.after_invariant (P := notes) (φ := fun q : Notes => q.role = (actStart a).role)
    ?_ rfl t c.log
  intro q op ans q' hrole hnext
  obtain ⟨_, rfl⟩ := next_eq_some.mp hnext
  exact (role_after q op ans).trans hrole

theorem held_after {op : Call} {ans : op.Ans}
    (h : readsWorkers ⟨op, ans⟩ = false) : (q.after op ans).held = q.held := by
  have hnoted := noted_after q op ans
  generalize q.after op ans = q' at hnoted
  cases hnoted with
  | workers opts all | worker id w => cases h
  | now t | task id task | byID id inst | bySchedule sid inst | created i stored hi
  | due cutoff limit insts hc | nothing e he => rfl

/-! ## What calls do to a worker's status. -/

theorem upsert_of_written {op : Call} {ans : op.Ans} {status : WorkerStatus}
    (h : statusWritten id ⟨op, ans⟩ = some status) :
    ∃ v, op = .worker (.upsertWorker v) ∧ v.id = id ∧ v.status = status := by
  unfold statusWritten at h
  split at h
  next v u he =>
    obtain ⟨rfl, _⟩ := Sigma.mk.inj_iff.mp he
    split at h
    next hid => exact ⟨v, rfl, hid, Option.some.inj h⟩
    next => cases h
  next => cases h

theorem statusOf_of_written {inp : Input} {op : Call} {status : WorkerStatus}
    (h : statusWritten id ⟨op, (execCall inp op w).1⟩ = some status) :
    statusOf (execCall inp op w).2 id = some status := by
  unfold statusWritten at h
  split at h
  next v u he =>
    obtain ⟨rfl, hans⟩ := Sigma.mk.inj_iff.mp he
    have hans := eq_of_heq hans
    split at h
    next hid =>
      injection h with h
      rcases exec_worker_cases inp w (.upsertWorker v) with ⟨e, hexec⟩ | hexec
      · rw [hexec] at hans
        cases hans
      rw [hexec]
      unfold statusOf
      show ((w.workers.upsertWorker w.backend inp.now v).get? id).map _ = _
      rw [WorkerStore.get?_upsertWorker, if_pos hid.symm, ← h]
      cases w.backend <;> rfl
    next => cases h
  next => cases h

theorem statusOf_of_not_written {inp : Input} {op : Call}
    (h : statusWritten id ⟨op, (execCall inp op w).1⟩ = none) :
    statusOf (execCall inp op w).2 id = statusOf w id := by
  unfold statusOf
  by_cases hworker : ∃ c, op = .worker c
  · obtain ⟨c, rfl⟩ := hworker
    rcases exec_worker_cases inp w c with ⟨e, hexec⟩ | hexec
    · rw [hexec]
    rw [hexec] at h ⊢
    cases c with
    | upsertWorker v =>
      have hid : v.id ≠ id := by
        intro hid
        have hsome : statusWritten id ⟨.worker (.upsertWorker v), .ok ()⟩ = some v.status :=
          if_pos hid
        exact absurd (hsome.symm.trans h) (by simp)
      show ((w.workers.upsertWorker w.backend inp.now v).get? id).map _ = _
      rw [WorkerStore.get?_upsertWorker, if_neg (Ne.symm hid)]
    | getWorker id' | listAvailableWorkers opts | listStaleWorkers cutoff => rfl
  · rw [exec_workers inp w (fun c hc => hworker ⟨c, hc⟩)]

theorem statusOf_of_read {inp : Input} {op : Call}
    (h : readsWorkers ⟨op, (execCall inp op w).1⟩ = true) {v : WorkerNode}
    (hv : v ∈ (q.after op (execCall inp op w).1).held) :
    statusOf (execCall inp op w).2 v.id = some v.status := by
  unfold readsWorkers at h
  split at h
  next opts all he =>
    obtain ⟨rfl, hans⟩ := Sigma.mk.inj_iff.mp he
    have hans := eq_of_heq hans
    rw [hans] at hv
    have hv : v ∈ all := hv
    rcases exec_worker_cases inp w (.listAvailableWorkers opts) with ⟨e, hexec⟩ | hexec
    · rw [hexec] at hans
      cases hans
    rw [hexec] at hans ⊢
    injection hans with hans
    rw [← hans] at hv
    unfold statusOf
    show (w.workers.get? v.id).map _ = _
    rw [Table.get?_of_mem (WorkerStore.mem_listAvailableWorkers.mp hv).1]
    rfl
  next id worker he =>
    obtain ⟨rfl, hans⟩ := Sigma.mk.inj_iff.mp he
    have hans := eq_of_heq hans
    rw [hans] at hv
    have hv : v = worker := List.mem_singleton.mp hv
    rcases exec_worker_cases inp w (.getWorker id) with ⟨e, hexec⟩ | hexec
    · rw [hexec] at hans
      cases hans
    rw [hexec] at hans ⊢
    have hget : w.workers.get? id = some worker := WorkerStore.getWorker_ok hans
    obtain ⟨hmem, _⟩ := Table.get?_some hget
    unfold statusOf
    show (w.workers.get? v.id).map _ = _
    rw [hv, Table.get?_of_mem hmem]
    rfl
  next => cases h

/-! ## The invariant. -/

/-- **THE INVARIANT**: a worker of which a thread holds an online row IS online, unless it was
overtaken. -/
def Current (c : ActPool) : Prop :=
  ∀ t q, c.stateOf notes actStart t = some q → ∀ v ∈ q.held, v.status = .online →
    overtaken t v.id c.log = false → statusOf c.world v.id = some .online

section Step

variable {c : ActPool} {t : Nat} {a : Act} {op : Call} {k : op.Ans → Program (Except Err Unit)}
  {inp : Input}

/-- A call after which the row is not overtaken, and that is not the thread's own read. -/
theorem statusOf_called {u : Nat}
    (hread : ¬ (t = u ∧ readsWorkers ⟨op, (execCall inp op c.world).1⟩ = true))
    (hbefore : overtaken u id c.log = false → statusOf c.world id = some .online)
    (h : overtaken u id (c.called execCall t a op k inp).log = false) :
    statusOf (execCall inp op c.world).2 id = some .online := by
  have h : (if t = u ∧ readsWorkers ⟨op, (execCall inp op c.world).1⟩ = true then false
      else match statusWritten id ⟨op, (execCall inp op c.world).1⟩ with
        | some status => decide (status ≠ .online)
        | none => overtaken u id c.log) = false := h
  rw [if_neg hread] at h
  cases hw : statusWritten id ⟨op, (execCall inp op c.world).1⟩ with
  | some status =>
    rw [hw] at h
    have honline : status = .online := not_not.mp (of_decide_eq_false h)
    rw [statusOf_of_written hw, honline]
  | none =>
    rw [hw] at h
    rw [statusOf_of_not_written hw]
    exact hbefore h

theorem current_called (hinv : Current c) (hp : c.pool[t]? = some ⟨a, .call op k⟩) {q' : Notes}
    (hq : c.stateOf notes actStart t = some q)
    (hnext : notes.next q op (execCall inp op c.world).1 = some q')
    (hq' : (c.called execCall t a op k inp).stateOf notes actStart t = some q') :
    Current (c.called execCall t a op k inp) := by
  obtain ⟨_, rfl⟩ := next_eq_some.mp hnext
  intro u q₁ hq₁ v hv honline hcurrent
  by_cases hu : u = t
  · subst hu
    rw [hq'] at hq₁
    injection hq₁ with hq₁
    rw [← hq₁] at hv
    cases hread : readsWorkers ⟨op, (execCall inp op c.world).1⟩ with
    | true =>
      show statusOf (execCall inp op c.world).2 v.id = _
      rw [statusOf_of_read hread hv, honline]
    | false =>
      rw [held_after hread] at hv
      refine statusOf_called ?_ (hinv u q hq v hv honline) hcurrent
      rintro ⟨_, hread'⟩
      rw [hread] at hread'
      cases hread'
  · rw [Config.stateOf_called_of_ne hp hu] at hq₁
    exact statusOf_called (fun h => hu h.1.symm) (hinv u q₁ hq₁ v hv honline) hcurrent

end Step

theorem current_spawned {url : String} {ok : ActPool → ActStep → Prop}
    {c : ActPool} (h : ActRuns url ok w c) (hinv : Current c) (a : Act) :
    Current (c.spawned (actBody url) a) := by
  intro u q hq v hv honline hcurrent
  by_cases hu : u = c.pool.length
  · subst hu
    rw [h.stateOf_spawned_self] at hq
    injection hq with hq
    rw [← hq] at hv
    cases a <;> cases hv
  · rw [Config.stateOf_spawned_of_ne hu] at hq
    exact hinv u q hq v hv honline hcurrent

theorem current_of_runs {url : String} {ok : ActPool → ActStep → Prop}
    {c : ActPool} (h : ActRuns url ok w c) : Current c := by
  refine Reaches.watched (P := notes) Current (fun _ _ _ => trivial)
    (fun _ a _ => follows_actBody url a) ?_ ?_ ?_ h
  · intro c a hr hinv _
    exact current_spawned hr hinv a
  · intro c t a op k inp q q' _ hinv _ hp hq hnext hq'
    exact current_called hinv hp hq hnext hq'
  · intro t q hq
    simp [Config.stateOf, Config.jobOf, Config.init] at hq

/-! ## Who brings a worker back. -/

/-- **ONLY REGISTRATIONS AND HEARTBEATS** turn an offline worker online, if no overtaken row is
written back. -/
theorem offline_not_brought_back {url : String} {w : World} {c c' : ActPool}
    (h : ActRuns url (fun c l => writesCurrent c l = true) w c) {t : Nat} {inp : Input}
    (hok : writesCurrent c (.step t inp) = true)
    (hstep : c.step execCall (actBody url) (.step t inp) = some c')
    {a : Act} (ha : c.jobOf t = some a) (hother : a.registers = false) {id : String}
    (hoffline : statusOf c.world id = some .offline) :
    statusOf c'.world id ≠ some .online := by
  intro honline
  rcases Config.step_cases execCall (actBody url) hstep with
    ⟨_, hl, _⟩ | ⟨t', inp', a', op, k, hl, hp, rfl⟩
  · cases hl
  injection hl with ht hinp
  subst ht hinp
  have honline : statusOf (execCall inp op c.world).2 id = some .online := honline
  cases hw : statusWritten id ⟨op, (execCall inp op c.world).1⟩ with
  | none =>
    have hsame := statusOf_of_not_written hw
    rw [honline, hoffline] at hsame
    cases hsame
  | some status =>
  -- the call wrote an online row, which is current …
  have hstatus : status = .online :=
    Option.some.inj ((statusOf_of_written hw).symm.trans honline)
  obtain ⟨v, rfl, hid, hv⟩ := upsert_of_written hw
  rw [hstatus] at hv
  have hcurrent : overtaken t v.id c.log = false := by
    unfold writesCurrent at hok
    simp only [ha, Config.nextOp_of_pool hp, hother, hv] at hok
    simpa using hok
  -- … and the thread was given it, so the worker is online
  obtain ⟨q, hq, hfollows⟩ := h.stands (P := notes) (fun _ _ _ => trivial)
    (fun _ a _ => follows_actBody url a) t a' _ hp
  obtain ⟨q', hnext, _⟩ := hfollows (execCall inp _ c.world).1 trivial
  obtain ⟨hallows, _⟩ := next_eq_some.mp hnext
  rcases of_decide_eq_true hallows with hrole | hoff | ⟨v', hv', hid', hst'⟩
  · rw [role_of_stateOf ha hq] at hrole
    exact role_of_not_registers hother hrole
  · rw [hv] at hoff
    cases hoff
  · have hon := current_of_runs h t q hq v' hv' (hst'.trans hv) (by rw [hid']; exact hcurrent)
    rw [hid', hid, hoffline] at hon
    cases hon

/-- A worker that went silent with an instance running on it, and an enabled task. -/
def silentWorker : World :=
  World.ofRows .mysql [{ id := 1, status := .enabled, cronExpr := "* * * * *" }] []
    [{ id := 1, taskID := 1, scheduleInstanceID := "s", workerID := "w1", status := .running }]
    [{ id := "w1", status := .online, maxConcurrency := 2, currentLoad := 1 }]

def evict (t : Nat) : List ActStep :=
  [.spawn (.evictStaleWorkers minute)] ++ List.replicate 3 (.step t { now := hour })

/-- The worker is evicted; then it reports, and its row is read for the load. -/
def lateReport : List ActStep :=
  evict 0 ++ [.spawn (.job (.reportStatus
      { scheduleInstanceID := "s", workerID := "w1", status := .success }))]
    ++ List.replicate 4 (.step 1 { now := hour })

/-- Is thread `t` another act than a registration or a heartbeat? -/
def isOther (c : ActPool) (t : Nat) : Bool := (c.jobOf t).any (fun a => !a.registers)

theorem offline_not_brought_back_report :
    ∃ c c' : ActPool, ActRuns "" (fun c l => writesCurrent c l = true) silentWorker c
      ∧ c.step execCall (actBody "") (.step 1 {}) = some c'
      ∧ statusOf c.world "w1" = some .offline ∧ statusOf c'.world "w1" ≠ some .online := by
  have hrun : ((runSteps execCall (actBody "") writesCurrent (Config.init silentWorker)
      lateReport).map (fun c : ActPool => isOther c 1 && writesCurrent c (.step 1 {})
        && (c.step execCall (actBody "") (.step 1 {})).isSome
        && statusOf c.world "w1" == some .offline)) = some true := by
    decide
  obtain ⟨c, h, hp⟩ := exists_reaches_of_runSteps (fun _ _ h => h) hrun
  simp only [Bool.and_eq_true, isOther, Option.any_eq_true, Bool.not_eq_true', beq_iff_eq] at hp
  obtain ⟨⟨⟨⟨a, ha, hother⟩, hok⟩, hsome⟩, hoffline⟩ := hp
  obtain ⟨c', hstep⟩ := Option.isSome_iff_exists.mp hsome
  exact ⟨c, c', h, hstep, hoffline, offline_not_brought_back h hok hstep ha hother hoffline⟩

/-- `handleTask` picks the worker; the worker is evicted; the dispatch fails. -/
def evictedInFlight : List ActStep :=
  [.spawn (.job (.handleTask { id := 1, status := .enabled, cronExpr := "* * * * *" }))]
    ++ List.replicate 8 (.step 0 { now := hour })
    ++ evict 1
    ++ [.step 0 { now := hour, outcome := fun _ _ => .refused (.text "connection refused") },
        .step 0 { now := hour }]

/-- **THE RELEASE BRINGS THE WORKER BACK**: it writes the row `Pick` read. -/
theorem brought_back_by_release :
    ∃ c c' : ActPool, ActRuns "" (fun _ _ => True) silentWorker c
      ∧ c.step execCall (actBody "") (.step 0 {}) = some c'
      ∧ isOther c 0 = true ∧ statusOf c.world "w1" = some .offline
      ∧ statusOf c'.world "w1" = some .online := by
  have hrun : ((runSteps execCall (actBody "") (fun _ _ => true) (Config.init silentWorker)
      evictedInFlight).map (fun c : ActPool => isOther c 0
        && (c.step execCall (actBody "") (.step 0 {})).any
            (fun c' => statusOf c'.world "w1" == some .online)
        && statusOf c.world "w1" == some .offline)) = some true := by
    decide
  obtain ⟨c, h, hp⟩ := exists_reaches_of_runSteps (fun _ _ _ => trivial) hrun
  simp only [Bool.and_eq_true, Option.any_eq_true, beq_iff_eq] at hp
  obtain ⟨⟨hother, c', hstep, honline⟩, hoffline⟩ := hp
  exact ⟨c, c', h, hstep, hother, hoffline, honline⟩

end AiScheduler.Eviction
