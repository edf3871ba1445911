/-
  **HOW OFTEN A REPORT TAKES EFFECT.**

  Where every status write is of an instance whose read is current, ONE operation settles an
  instance, and a failure report releases its worker and creates the retry only after settling:
  once over all deliveries, and not at all where a cancel settled.
-/
import AiScheduler.Proofs.Terminal

namespace AiScheduler.Deliveries

open Lib Lifecycle Terminal Function Config

variable {q q' : Position} {op : Call} {t : Nat} {c : Pool} {g : Nat → Position} {sid : String}

variable {log : List (Nat × Event System)} {mark : Position → Bool} {url : String}

/-! ## Counting in a log. -/

/-- The calls of a log that satisfy `φ` (thread, call, log before it). -/
def occurrences (φ : Nat → Event System → List (Nat × Event System) → Bool) :
    List (Nat × Event System) → Nat
  | [] => 0
  | (t, e) :: log => occurrences φ log + if φ t e log then 1 else 0

theorem occurrences_congr {φ ψ : Nat → Event System → List (Nat × Event System) → Bool}
    (h : ∀ entry ∈ log, ∀ before, φ entry.1 entry.2 before = ψ entry.1 entry.2 before) :
    occurrences φ log = occurrences ψ log := by
  induction log with
  | nil => rfl
  | cons entry log ih =>
    obtain ⟨t, e⟩ := entry
    have hhead := h (t, e) List.mem_cons_self log
    have htail := ih (fun entry hmem => h entry (.tail _ hmem))
    simp only [occurrences, htail, hhead]

def lastCall (t : Nat) (log : List (Nat × Event System)) : Option (Event System) :=
  (log.find? (fun entry => entry.1 = t)).map Prod.snd

def createsInstance : Event System → Bool
  | ⟨.inst (.createInstance _), .ok _⟩ => true
  | _ => false

def readsWorker : Event System → Bool
  | ⟨.worker (.getWorker _), .ok _⟩ => true
  | _ => false

def writesWorker : Event System → Bool
  | ⟨.worker (.upsertWorker _), .ok _⟩ => true
  | _ => false

def isReport (c : Pool) (sid : String) (t : Nat) : Bool :=
  match c.jobOf t with
  | some (.reportStatus req) => req.scheduleInstanceID = sid
  | _ => false

/-- Thread `t` processes a failed or timeout report of the instance. -/
def isFailureReport (c : Pool) (sid : String) (t : Nat) : Bool :=
  match c.jobOf t with
  | some (.reportStatus req) => req.scheduleInstanceID = sid ∧ isRetryableStatus req.status
  | _ => false

def retriesCreated (c : Pool) (sid : String) : Nat :=
  occurrences (fun t e _ => isReport c sid t && createsInstance e) c.log

/-- How often the failure reports of `sid` have written back the worker row they had read. -/
def workerReleases (c : Pool) (sid : String) : Nat :=
  occurrences (fun t e log =>
    isFailureReport c sid t && (writesWorker e && (lastCall t log).any readsWorker)) c.log

/-! ## What a call does to a position's flags. -/

/-- The flags of a position over one call. -/
structure Moves (q q' : Position) : Prop where
  role : q'.role = q.role
  settled : ∀ sid ∈ q.settled, sid ∈ q'.settled
  created : q.created = true → q'.created = true
  released : q.released = true → q'.released = true
  newlyCreated : q'.created = true → q.created = true ∨ q.mayCreate = true
  newlyReleased : q'.released = true → q.released = true ∨ q.mayRelease = true

theorem moves_of_onInstance {call : InstanceCall}
    {ans : Except Err call.Result} (h : q.onInstance call ans = some q') : Moves q q' := by
  unfold Position.onInstance Position.afterRead Position.afterList Position.afterCreate
    Position.afterResult at h
  split at h <;> constructor <;> grind [Position.settle]

theorem moves_of_onWorker {call : WorkerCall}
    {ans : Except Err call.Result} (h : q.onWorker call ans = some q') : Moves q q' := by
  unfold Position.onWorker Position.afterGetWorker at h
  constructor <;> grind [Position.moved]

theorem moves_of_next {ans : op.Ans} (h : lifecycle.next q op ans = some q') : Moves q q' := by
  cases op with
  | inst call =>
    have hm := moves_of_onInstance (q := q.moved) h
    exact ⟨hm.role, hm.settled, hm.created, hm.released, hm.newlyCreated, hm.newlyReleased⟩
  | worker call => exact moves_of_onWorker h
  | _ =>
    cases h
    constructor <;> grind [Position.moved]

theorem next_of_createsInstance {ans : op.Ans}
    (h : lifecycle.next q op ans = some q') (he : createsInstance ⟨op, ans⟩ = true) :
    q.mayCreate = true ∧ q'.created = true := by
  unfold createsInstance at he
  split at he
  next i stored heq =>
    cases heq
    have h : q.moved.onInstance (.createInstance i) (.ok stored) = some q' := h
    grind [Position.onInstance, Position.moved, Position.mayCreate, Position.afterCreate]
  next => cases he

theorem next_of_writesWorker {ans : op.Ans}
    (h : lifecycle.next q op ans = some q') (he : writesWorker ⟨op, ans⟩ = true)
    (hq : q.afterGet = true) : q.mayRelease = true ∧ q'.released = true := by
  unfold writesWorker at he
  split at he
  next w u heq =>
    cases heq
    have h : q.onWorker (.upsertWorker w) (.ok u) = some q' := h
    grind [Position.onWorker]
  next => cases he

theorem next_of_readsWorker {ans : op.Ans}
    (h : lifecycle.next q op ans = some q') (he : readsWorker ⟨op, ans⟩ = true) :
    q'.afterGet = true := by
  unfold readsWorker at he
  split at he
  next id w heq =>
    cases heq
    cases h
    rfl
  next => cases he

/-! ## One mark for each instance. -/

/-- A count that is zero, or one with a marked failure report of the instance. -/
def MarkedOnce (c : Pool) (g : Nat → Position) (mark : Position → Bool) (sid : String)
    (n : Nat) : Prop :=
  n = 0 ∨ (n = 1 ∧ ∃ t < c.pool.length, (g t).role = .failureReport sid ∧ mark (g t) = true)

/-- Logs, counts and ghost flags agree. -/
structure Once (c : Pool) (g : Nat → Position) : Prop where
  role : ∀ t j, c.jobOf t = some j → (g t).role = roleOf j
  afterGet : ∀ t, (lastCall t c.log).any readsWorker = true → (g t).afterGet = true
  /-- A failure report settles before it creates or releases. -/
  settledFirst : ∀ t sid, (g t).role = .failureReport sid →
    (g t).created = true ∨ (g t).released = true → sid ∈ (g t).settled
  retries : ∀ sid, MarkedOnce c g Position.created sid (retriesCreated c sid)
  releases : ∀ sid, MarkedOnce c g Position.released sid (workerReleases c sid)

theorem lastCall_cons (t u : Nat) (e : Event System) (log : List (Nat × Event System)) :
    lastCall u ((t, e) :: log) = if t = u then some e else lastCall u log := by
  grind [lastCall]

theorem lastCall_of_forall_ne (h : ∀ entry ∈ log, entry.1 ≠ t) : lastCall t log = none := by
  unfold lastCall
  rw [List.find?_eq_none.mpr (by simpa using h)]
  rfl

theorem MarkedOnce.le_one {n : Nat}
    (h : MarkedOnce c g mark sid n) : n ≤ 1 := by
  rcases h with h | ⟨h, _⟩ <;> omega

theorem MarkedOnce.called {c' : Pool} {n : Nat} {counted : Bool}
    (h : MarkedOnce c g mark sid n) (hI : Inv c g) (hlen : c'.pool.length = c.pool.length)
    (hmove : Moves (g t) q') (hmono : mark (g t) = true → mark q' = true)
    (hfirst : ∀ u, (g u).role = .failureReport sid → mark (g u) = true → sid ∈ (g u).settled)
    (hcounted : counted = true → t < c.pool.length ∧ (g t).role = .failureReport sid
      ∧ sid ∈ (g t).settled ∧ mark (g t) = false ∧ mark q' = true) :
    MarkedOnce c' (update g t q') mark sid (n + if counted then 1 else 0) := by
  have hrole := hmove.role
  cases counted with
  | false =>
    rcases h with h | ⟨h, u, hlt, hu⟩
    · exact .inl h
    · exact .inr ⟨h, u, by omega, by grind⟩
  | true =>
    -- a report that made an earlier mark settled the instance, as did `t`
    have hsole := fun u => hI.sole u t sid
    unfold MarkedOnce at h
    exact .inr ⟨by grind, t, by grind⟩

theorem mayCreate_of_failureReport (hrole : q.role = .failureReport sid) (h : q.mayCreate = true) :
    sid ∈ q.settled ∧ q.created = false := by
  grind [Position.mayCreate]

theorem mayRelease_of_failureReport
    (hrole : q.role = .failureReport sid) (h : q.mayRelease = true) :
    sid ∈ q.settled ∧ q.released = false := by
  grind [Position.mayRelease]

theorem role_of_isReport (hO : Once c g) (h : isReport c sid t = true)
    (hmay : (g t).mayCreate = true) :
    (g t).role = .failureReport sid := by
  have hrole := hO.role t
  grind [isReport, roleOf, Position.mayCreate]

theorem role_of_isFailureReport (hO : Once c g) (h : isFailureReport c sid t = true) :
    (g t).role = .failureReport sid := by
  have hrole := hO.role t
  grind [isFailureReport, roleOf]

/-! ## Steps and runs. -/

theorem once_called {j : Job} {k : op.Ans → Program (Except Err Unit)} {inp : Input}
    (hI : Inv c g) (hO : Once c g) (hp : c.pool[t]? = some ⟨j, .call op k⟩)
    (hq' : lifecycle.next (g t) op (execCall inp op c.world).1 = some q') :
    Once (c.called execCall t j op k inp) (update g t q') := by
  have hmove := moves_of_next hq'
  have hlt : t < c.pool.length := (List.getElem?_eq_some_iff.mp hp).1
  have hlen : (c.called execCall t j op k inp).pool.length = c.pool.length := List.length_set
  have hjob : ∀ u, (c.called execCall t j op k inp).jobOf u = c.jobOf u :=
    jobOf_called hp inp
  refine ⟨?_, ?_, ?_, ?_, ?_⟩
  · intro u j' hu
    rw [hjob] at hu
    grind [hO.role u j' hu, hmove.role]
  · intro u hu
    have hu : (lastCall u ((t, ⟨op, (execCall inp op c.world).1⟩) :: c.log)).any readsWorker
        = true := hu
    have hreads := next_of_readsWorker hq'
    have hold := hO.afterGet u
    rw [lastCall_cons] at hu
    grind
  · intro u sid hrole hdone
    have hold := hO.settledFirst u sid
    by_cases hut : u = t
    · subst hut
      rw [update_self] at hrole hdone ⊢
      rw [hmove.role] at hrole
      apply hmove.settled
      grind [hmove.newlyCreated, hmove.newlyReleased, mayCreate_of_failureReport,
        mayRelease_of_failureReport]
    · rw [update_of_ne hut] at hrole hdone ⊢
      exact hold hrole hdone
  · intro sid
    have hsame : isReport (c.called execCall t j op k inp) sid = isReport c sid := by
      funext u
      unfold isReport
      rw [hjob]
    unfold retriesCreated
    rw [hsame]
    refine (hO.retries sid).called hI hlen hmove hmove.created
      (fun u hr hm => hO.settledFirst u sid hr (.inl hm)) ?_
    intro hcounted
    obtain ⟨hrep, hcreates⟩ := (Bool.and_eq_true _ _).mp hcounted
    obtain ⟨hmay, hmark⟩ := next_of_createsInstance hq' hcreates
    have hrole := role_of_isReport hO hrep hmay
    obtain ⟨hset, hfree⟩ := mayCreate_of_failureReport hrole hmay
    exact ⟨hlt, hrole, hset, hfree, hmark⟩
  · intro sid
    have hsame : isFailureReport (c.called execCall t j op k inp) sid = isFailureReport c sid := by
      funext u
      unfold isFailureReport
      rw [hjob]
    unfold workerReleases
    rw [hsame]
    refine (hO.releases sid).called hI hlen hmove hmove.released
      (fun u hr hm => hO.settledFirst u sid hr (.inr hm)) ?_
    intro hcounted
    obtain ⟨hrep, hwrite⟩ := (Bool.and_eq_true _ _).mp hcounted
    obtain ⟨hwrites, hafter⟩ := (Bool.and_eq_true _ _).mp hwrite
    obtain ⟨hmay, hmark⟩ := next_of_writesWorker hq' hwrites (hO.afterGet t hafter)
    have hrole := role_of_isFailureReport hO hrep
    obtain ⟨hset, hfree⟩ := mayRelease_of_failureReport hrole hmay
    exact ⟨hlt, hrole, hset, hfree, hmark⟩

theorem once_spawned (hO : Once c g) (hlog : ∀ e ∈ c.log, e.1 < c.pool.length) (j : Job) :
    Once (c.spawned (body url) j) (update g c.pool.length (start j)) := by
  have hlen : (c.spawned (body url) j).pool.length = c.pool.length + 1 := by
    simp [spawned]
  have hself : (c.spawned (body url) j).jobOf c.pool.length = some j := jobOf_spawned_self
  have hjob : ∀ u, u ≠ c.pool.length → (c.spawned (body url) j).jobOf u = c.jobOf u :=
    fun _ => jobOf_spawned_of_ne
  have hnone : lastCall c.pool.length c.log = none :=
    lastCall_of_forall_ne (fun entry hentry => (hlog entry hentry).ne)
  -- the new thread has made no call, so nothing counted changes
  have hmarked : ∀ (mark : Position → Bool) (sid : String) (n : Nat), MarkedOnce c g mark sid n →
      MarkedOnce (c.spawned (body url) j) (update g c.pool.length (start j)) mark sid n := by
    intro mark sid n h
    rcases h with h | ⟨h, u, hlt, hu⟩
    · exact .inl h
    · exact .inr ⟨h, u, by omega, by grind⟩
  refine ⟨?_, ?_, ?_, ?_, ?_⟩
  · intro u j' hu
    grind [start, hO.role u j']
  · intro u (hu : (lastCall u c.log).any readsWorker = true)
    grind [hO.afterGet u]
  · intro u sid
    grind [start, hO.settledFirst u sid]
  · intro sid
    have hsame : retriesCreated (c.spawned (body url) j) sid = retriesCreated c sid := by
      apply occurrences_congr
      intro entry hentry _
      unfold isReport
      rw [hjob _ (hlog entry hentry).ne]
    rw [hsame]
    exact hmarked _ sid _ (hO.retries sid)
  · intro sid
    have hsame : workerReleases (c.spawned (body url) j) sid = workerReleases c sid := by
      apply occurrences_congr
      intro entry hentry _
      unfold isFailureReport
      rw [hjob _ (hlog entry hentry).ne]
    rw [hsame]
    exact hmarked _ sid _ (hO.releases sid)

theorem once_of_runs {w : World} (hw : w.instances.SchedulesDistinct)
    (h : Runs url (fun c l => writesCurrent c l = true) w c) :
    ∃ g, Tracks lifecycle post c g ∧ Inv c g ∧ Once c g := by
  have hinit : Inv (init w) (fun _ => start .retryScan)
      ∧ Once (init w) (fun _ => start .retryScan) := by
    refine ⟨inv_init hw, ?_, ?_, ?_, ?_, ?_⟩
    · intro t j ht
      simp [jobOf, init] at ht
    · intro t ht
      simp [lastCall, init] at ht
    · intro t sid _ hdone
      simp [start] at hdone
    · exact fun _ => .inl rfl
    · exact fun _ => .inl rfl
  refine Reaches.tracks (P := lifecycle) start (fun c g => Inv c g ∧ Once c g) ?_ ?_ ?_ ?_ hinit h
  · intro c j hj
    exact follows_writer url hj
  · intro c g j hlog hI _
    exact ⟨inv_spawned hI.1 j, once_spawned hI.2 hlog j⟩
  · intro c g t j op k inp _ _ _ _
    trivial
  · intro c g t j op k inp q' _ hI hok hp _ hq'
    exact ⟨inv_of_effect hI.1 rfl (effect_called hI.1 hok hp hq'), once_called hI.1 hI.2 hp hq'⟩

/-! ## Deliveries and cancels. -/

/-- **ONE RETRY, ONE RELEASE**: however often a failure is reported, if each status write is of an
instance whose read is current. -/
theorem one_retry_one_release (url : String) {w : World}
    (hw : w.instances.SchedulesDistinct) {c : Pool}
    (h : Runs url (fun c l => writesCurrent c l = true) w c) (sid : String) :
    retriesCreated c sid ≤ 1 ∧ workerReleases c sid ≤ 1 := by
  obtain ⟨g, _, _, hO⟩ := once_of_runs hw h
  exact ⟨(hO.retries sid).le_one, (hO.releases sid).le_one⟩

/-- Any interleaving of deliveries of failed and timeout reports of `sid`. -/
def failureDeliveries (sid : String) (_ : Pool) : PoolStep → Bool
  | .spawn (.reportStatus req) => req.scheduleInstanceID = sid ∧ isRetryableStatus req.status
  | .spawn _ => false
  | .step _ _ => true

/-- The failed report that worker `w1` sends of the running instance. -/
def failedReport : Job :=
  .reportStatus { scheduleInstanceID := "s", workerID := "w1", status := .failed }

/-- **Two deliveries that both read before either stores**: two retries, and
the worker's load goes down by two. -/
theorem two_deliveries_two_retries :
    ∃ c : Pool, Runs "" (fun c l => failureDeliveries "s" c l = true) oneRunning c
      ∧ retriesCreated c "s" = 2 ∧ workerReleases c "s" = 2
      ∧ (oneRunning.workers.get? "w1").map WorkerNode.currentLoad = some 2
      ∧ (c.world.workers.get? "w1").map WorkerNode.currentLoad = some 0 := by
  have hrun : (runSteps execCall (body "") (failureDeliveries "s") (Config.init oneRunning)
      [.spawn failedReport, .spawn failedReport,
       -- both read, then both store
       .step 0 {}, .step 1 {}, .step 0 {}, .step 1 {},
       -- both release the worker
       .step 0 {}, .step 0 {}, .step 1 {}, .step 1 {},
       -- both create the retry
       .step 0 {}, .step 0 {}, .step 0 {}, .step 0 {},
       .step 1 {}, .step 1 { now := 1 }, .step 1 {}, .step 1 {}]).map (fun c =>
        decide (retriesCreated c "s" = 2 ∧ workerReleases c "s" = 2
          ∧ (c.world.workers.get? "w1").map WorkerNode.currentLoad = some 0)) = some true := by
    decide
  obtain ⟨c, h, hp⟩ := exists_reaches_of_runSteps (fun _ _ h => h) hrun
  obtain ⟨hretries, hreleases, hload⟩ := of_decide_eq_true hp
  exact ⟨c, h, hretries, hreleases, rfl, hload⟩

/-- The condition at work: the second delivery reads what the first stored. -/
theorem one_retry_one_release_twice_delivered :
    ∃ c : Pool, Runs "" (fun c l => writesCurrent c l = true) oneRunning c
      ∧ c.log.length = 9 ∧ retriesCreated c "s" = 1
      ∧ (retriesCreated c "s" ≤ 1 ∧ workerReleases c "s" ≤ 1) := by
  have hrun : (runSteps execCall (body "") writesCurrent (Config.init oneRunning)
      [.spawn failedReport, .spawn failedReport, .step 0 {}, .step 0 {}, .step 1 {},
       .step 0 {}, .step 0 {}, .step 0 {}, .step 0 {}, .step 0 {}, .step 0 {}]).map (fun c =>
        decide (c.log.length = 9 ∧ retriesCreated c "s" = 1)) = some true := by
    decide
  obtain ⟨c, h, hp⟩ := exists_reaches_of_runSteps (fun _ _ h => h) hrun
  obtain ⟨hlen, hretries⟩ := of_decide_eq_true hp
  exact ⟨c, h, hlen, hretries, one_retry_one_release "" (by decide) h "s"⟩

/-- Thread `t` was a cancel of `sid` and has returned without error. -/
def cancelReturned (c : Pool) (sid : String) (t : Nat) : Bool :=
  match c.pool[t]? with
  | some ⟨.cancelInstance s, .ret (.ok _)⟩ => s = sid
  | _ => false

/-- **A CANCELLED INSTANCE IS NOT RETRIED**: once a cancel of `sid` has returned without error, no
report of `sid` has created an instance, or ever does, if each status write is of an instance whose
read is current. -/
theorem cancelled_not_retried (url : String) {w : World}
    (hw : w.instances.SchedulesDistinct) {c : Pool}
    (h : Runs url (fun c l => writesCurrent c l = true) w c) {sid : String} {t : Nat}
    (hcancel : cancelReturned c sid t = true) : retriesCreated c sid = 0 := by
  obtain ⟨g, htr, hI, hO⟩ := once_of_runs hw h
  unfold cancelReturned at hcancel
  split at hcancel
  next s u hpool =>
    have hsid : s = sid := of_decide_eq_true hcancel
    subst hsid
    have hsettled : s ∈ (g t).settled := htr.returned hpool
    have hrole : (g t).role = .quiet :=
      hO.role t (.cancelInstance s) (Config.jobOf_of_pool hpool)
    rcases hO.retries s with hzero | ⟨_, v, _, hvrole, hvmark⟩
    · exact hzero
    -- the report that created the retry would have settled the instance too
    have hvt := hI.sole v t s (hO.settledFirst v s hvrole (.inl hvmark)) hsettled
    rw [hvt, hrole] at hvrole
    cases hvrole
  next => cases hcancel

def cancelsAndReports (sid : String) (_ : Pool) : PoolStep → Bool
  | .spawn (.reportStatus req) => req.scheduleInstanceID = sid
  | .spawn (.cancelInstance s) => s = sid
  | .spawn _ => false
  | .step _ _ => true

/-- **A retry of a cancelled instance**: its failure is processed before the cancel is stored. -/
theorem cancelled_and_retried :
    ∃ c : Pool, Runs "" (fun c l => cancelsAndReports "s" c l = true) oneRunning c
      ∧ cancelReturned c "s" 0 = true ∧ retriesCreated c "s" = 1 := by
  have hrun : (runSteps execCall (body "") (cancelsAndReports "s") (Config.init oneRunning)
      [.spawn (.cancelInstance "s"), .step 0 {}, .step 0 {}, .step 0 {},
       .spawn failedReport, .step 1 {}, .step 1 {}, .step 1 {}, .step 1 {}, .step 1 {},
       .step 1 {}, .step 1 {}, .step 1 {}, .step 0 {}]).map (fun c =>
        decide (cancelReturned c "s" 0 = true ∧ retriesCreated c "s" = 1)) = some true := by
    decide
  obtain ⟨c, h, hp⟩ := exists_reaches_of_runSteps (fun _ _ h => h) hrun
  exact ⟨c, h, of_decide_eq_true hp⟩

/-- The condition at work: the worker's report reads the stored cancel. -/
theorem cancelled_not_retried_late_report :
    ∃ c : Pool, Runs "" (fun c l => writesCurrent c l = true) oneRunning c
      ∧ c.log.length = 5 ∧ cancelReturned c "s" 0 = true ∧ retriesCreated c "s" = 0 := by
  have hrun : (runSteps execCall (body "") writesCurrent (Config.init oneRunning)
      [.spawn (.cancelInstance "s"), .step 0 {}, .step 0 {}, .step 0 {}, .step 0 {},
       .spawn failedReport, .step 1 {}]).map (fun c =>
        decide (c.log.length = 5 ∧ cancelReturned c "s" 0 = true)) = some true := by
    decide
  obtain ⟨c, h, hp⟩ := exists_reaches_of_runSteps (fun _ _ h => h) hrun
  obtain ⟨hlen, hcancel⟩ := of_decide_eq_true hp
  exact ⟨c, h, hlen, hcancel, cancelled_not_retried "" (by decide) h hcancel⟩

end AiScheduler.Deliveries
