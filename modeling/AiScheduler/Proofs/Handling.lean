/-
  **WHAT ONE `handleTask` DOES**, when its repository calls succeed and the other threads leave the
  task's row alone (`Handled`).  The gate is CLOSED: the task is put off by 5 s.  It RUNS OUT of
  workers at some shard: the shards before it are sent, without a record, and the task is put off by
  10 s.  It is COMPLETE: the next trigger time comes from the cron expression, if `NextAfter` finds
  one (`handled_later_iff`).
-/
import AiScheduler.Proofs.Gate
import AiScheduler.Proofs.LostRetry
import AiScheduler.Proofs.Horizon

namespace AiScheduler.Handling

open Lib TriggerLoop Gate Readings Prog

/-! ## What a log shows. -/

def AllSucceed (log : List (Event System)) : Prop := ∀ e ∈ log, LostRetry.succeeded e = true

instance (log : List (Event System)) : Decidable (AllSucceed log) :=
  inferInstanceAs (Decidable (∀ e ∈ log, _))

/-- A `Pick` was shown no worker with the labels it looks for. -/
def findsNone : Event System → Bool
  | ⟨.worker (.listAvailableWorkers opts), .ok all⟩ =>
    (Router.filterByLabels all opts.labels).isEmpty
  | _ => false

/-- Some `Pick` found no worker. -/
def ranOut (log : List (Event System)) : Bool := log.any findsNone

def created (log : List (Event System)) : Bool := log.any isCreate

/-- The shard of the task that is sent as a first attempt. -/
def sentShard (id : Int) : Event System → Option Int
  | ⟨.node (.dispatch _ req), _⟩ =>
    if req.taskID = id ∧ req.retryCount = 0 then some req.shardNo else none
  | _ => none

def shardsSent (id : Int) (log : List (Event System)) : List Int := log.filterMap (sentShard id)

def lastReading : List (Event System) → Option Int
  | [] => none
  | e :: log => (lastReading log).or (reading e)

/-- What a log shows: whether an instance was created, whether a worker was
missing, and the shards sent. -/
structure Shows (id : Int) (made out : Bool) (sent : List Int) (log : List (Event System)) :
    Prop where
  created : created log = made
  ranOut : ranOut log = out
  sent : shardsSent id log = sent

theorem Shows.snoc {id : Int} {made out : Bool} {sent : List Int} {log : List (Event System)}
    (h : Shows id made out sent log) (e : Event System) :
    Shows id (made || isCreate e) (out || findsNone e) (sent ++ (sentShard id e).toList)
      (log ++ [e]) where
  created := by simp [← h.created, Handling.created]
  ranOut := by simp [← h.ranOut, Handling.ranOut]
  sent := by
    rw [← h.sent]
    cases hsent : sentShard id e <;> simp [shardsSent, hsent]

theorem Shows.silent {id : Int} {made out : Bool} {sent : List Int} {log : List (Event System)}
    (h : Shows id made out sent log) {e : Event System} (hcreate : isCreate e = false)
    (hnone : findsNone e = false) (hsent : sentShard id e = none) :
    Shows id made out sent (log ++ [e]) := by
  have hsnoc := h.snoc e
  rw [hcreate, hnone, hsent, Bool.or_false, Bool.or_false] at hsnoc
  simpa using hsnoc

theorem lastReading_snoc (log : List (Event System)) (e : Event System) :
    lastReading (log ++ [e]) = (reading e).or (lastReading log) := by
  induction log with
  | nil => simp [lastReading]
  | cons e' log ih => simp [lastReading, ih, Option.or_assoc]

/-! ## Among other threads. -/

/-- A call, after whatever the other threads did since the one before. -/
def execAmid (env : Nat → Input) (others : Nat → World → World) (op : System.Op)
    (x : World × Nat) : System.Ans op × (World × Nat) :=
  execAt env op (others x.2 x.1, x.2)

/-- The other threads leave the task's row alone. -/
structure Leaves (id : Int) (others : Nat → World → World) : Prop where
  row : ∀ n w, (others n w).tasks.tasks.get? id = w.tasks.tasks.get? id
  backend : ∀ n w, (others n w).backend = w.backend

/-- The task's row. -/
structure Has (b : Backend) (row : Task) (x : World × Nat) : Prop where
  backend : x.1.backend = b
  row : x.1.tasks.tasks.get? row.id = some row

/-- `row'` is `row` with a new trigger time. -/
structure SetTo (row : Task) (time : Int) (row' : Task) : Prop where
  id : row'.id = row.id
  cron : row'.cronExpr = row.cronExpr
  time : row'.nextTriggerTime = time

/-- Calls that no row of a task changes with. -/
def Spares : Call → Prop
  | .task (.listUpstreamDeps _) => True
  | .task _ => False
  | _ => True

section Steps

variable {env : Nat → Input} {others : Nat → World → World} {b : Backend} {row : Task}
  (hothers : Leaves row.id others) {β : Type}

include hothers

theorem Has.amid {x : World × Nat} (hx : Has b row x) : Has b row (others x.2 x.1, x.2) where
  backend := (hothers.backend _ _).trans hx.backend
  row := (hothers.row _ _).trans hx.row

theorem Has.step (op : Call) (hop : Spares op) {x : World × Nat} (hx : Has b row x) :
    Has b row (execAmid env others op x).2 := by
  have hy := hx.amid hothers
  refine ⟨(exec_backend (env x.2) (others x.2 x.1) op).trans hy.backend, ?_⟩
  have htasks : (execCall (env x.2) op (others x.2 x.1)).2.tasks = (others x.2 x.1).tasks := by
    cases op with
    | task c =>
      cases c with
      | listUpstreamDeps id =>
        rcases exec_task_cases (env x.2) (others x.2 x.1) (.listUpstreamDeps id) with ⟨e, he⟩ | he
        · rw [he]
        · rw [he]
          rfl
      | _ => exact hop.elim
    | _ => exact exec_tasks _ _ (by simp)
  show (execCall (env x.2) op (others x.2 x.1)).2.tasks.tasks.get? row.id = some row
  rw [htasks]
  exact hy.row

theorem Has.putBack {x : World × Nat} (hx : Has b row x) {time : Int} {ans : Except Err Task}
    (hans : ans = (execAmid env others
      (.task (.updateTask { readTask b row with nextTriggerTime := time })) x).1)
    (hok : ans.isOk = true) :
    ∃ row', SetTo row time row' ∧ Has b row' (execAmid env others
      (.task (.updateTask { readTask b row with nextTriggerTime := time })) x).2 := by
  have hy := hx.amid hothers
  let task : Task := { readTask b row with nextTriggerTime := time }
  have hid : task.id = row.id := readTask_id b row
  have hexec : ans = (Call.exec (env x.2) (.task (.updateTask task)) (others x.2 x.1)).1 := hans
  show ∃ row', SetTo row time row'
    ∧ Has b row' ((Call.exec (env x.2) (.task (.updateTask task)) (others x.2 x.1)).2, x.2 + 1)
  rcases exec_updateTask_cases (env x.2) (others x.2 x.1) task with ⟨e, he⟩ | ⟨current, hcur, he⟩
  · rw [hexec, he] at hok
    cases hok
  rw [he]
  rw [hid, hy.row] at hcur
  cases hcur
  refine ⟨updatedTask b (env x.2).now task row, ⟨updatedTask_id _ _ _ _, ?_, ?_⟩, ?_⟩
  · show (updatedTask b _ task row).cronExpr = row.cronExpr
    have hcron : task.cronExpr = row.cronExpr := readTask_cronExpr b row
    cases b with
    | mysql | teststore => exact hcron
  · exact updatedTask_nextTriggerTime b _ task row
  refine ⟨hy.backend, ?_⟩
  show ((others x.2 x.1).tasks.write (others x.2 x.1).backend _ task).tasks.get? _ = _
  rw [updatedTask_id, TaskStore.get?_write, hy.row, Option.map_some, if_pos hid.symm,
    show (others x.2 x.1).backend = b from hy.backend]

end Steps

/-- The protocol of a run among them whose repository calls succeed. -/
abbrev amid (env : Nat → Input) (others : Nat → World → World) : Protocol System :=
  Prog.logged (fun e => LostRetry.succeeded e = true) (execAmid env others)

/-- The task's row is as it was, and this is what the calls since the `n`-th show. -/
structure At (b : Backend) (row : Task) (n : Nat) (made out : Bool) (sent : List Int)
    (q : List (Event System) × (World × Nat)) : Prop where
  has : Has b row q.2
  count : q.2.2 = n + q.1.length
  shows : Shows row.id made out sent q.1

/-- Calls that a part of no interest here makes. -/
def Idle (id : Int) (op : Call) : Prop :=
  Spares op ∧ ∀ ans : op.Ans, findsNone ⟨op, ans⟩ = false ∧ isCreate ⟨op, ans⟩ = false
    ∧ sentShard id ⟨op, ans⟩ = none

/-- Of the first `k` shards some were sent, and no worker was missing. -/
def Sends (b : Backend) (row : Task) (n : Nat) (made : Bool) (k : Nat)
    (q : List (Event System) × (World × Nat)) : Prop :=
  ∃ sent, sent.Sublist ((List.range k).map (fun k : Nat => (k : Int)))
    ∧ At b row n made false sent q

/-! ## One shard. -/

/-- The task was put off: its row, and the reading the delay counts from. -/
def PutOff (b : Backend) (row : Task) (delay : Int) (log : List (Event System))
    (y : World × Nat) : Prop :=
  ∃ last row', lastReading log = some last ∧ SetTo row (last + delay) row' ∧ Has b row' y

section Shard

variable {env : Nat → Input} {others : Nat → World → World} {b : Backend} {row : Task}
  (hothers : Leaves row.id others) {n : Nat} {made out : Bool} {sent : List Int}

include hothers

theorem At.step {made' out' : Bool} {sent' : List Int} {op : Call} {ans : op.Ans}
    {q : List (Event System) × (World × Nat)} (hq : At b row n made out sent q) (hop : Spares op)
    (hshows : Shows row.id made' out' sent' (q.1 ++ [⟨op, ans⟩])) :
    At b row n made' out' sent' (q.1 ++ [⟨op, ans⟩], (execAmid env others op q.2).2) where
  has := hq.has.step hothers op hop
  count := by
    show q.2.2 + 1 = n + (q.1 ++ [_]).length
    rw [hq.count, List.length_append]
    rfl
  shows := hshows

theorem keeps_idle : (amid env others).Keeps (At b row n made out sent) (Idle row.id) := by
  refine fun op hop => leads_logged ?_
  intro q ans hq _ _
  obtain ⟨hnone, hcreate, hsent⟩ := hop.2 ans
  exact hq.step hothers hop.1 (hq.shows.silent hcreate hnone hsent)

theorem keeps_sends {k : Nat} : (amid env others).Keeps (Sends b row n made k) (Idle row.id) := by
  rintro op hop q ⟨sent, hsub, hq⟩
  exact (keeps_idle hothers op hop q hq).mono (fun _ _ h => ⟨sent, hsub, h⟩)

theorem leads_timeNow :
    Leads (amid env others) (At b row n made out sent) timeNow
      (fun q t => At b row n made out sent q ∧ lastReading q.1 = some t) := by
  intro q hq t ht
  have hidle : Idle row.id (.memory .now) := ⟨trivial, fun _ => ⟨rfl, rfl, rfl⟩⟩
  obtain ⟨q', hnext, hq'⟩ := keeps_idle hothers (.memory .now) hidle q hq t ht
  cases hnext
  exact ⟨_, rfl, hq', lastReading_snoc _ _⟩

theorem leads_deferTask (delay : Int) :
    Leads (amid env others) (At b row n made out sent) (deferTask (readTask b row) delay)
      (fun q _ => PutOff b row delay q.1 q.2 ∧ Shows row.id made out sent q.1) := by
  refine leads_bind (leads_timeNow hothers) ?_
  intro now
  refine leads_bind (P := amid env others)
    (B := fun q _ => PutOff b row delay q.1 q.2 ∧ Shows row.id made out sent q.1)
    (leads_logged ?_) (fun _ _ h => h)
  rintro q ans ⟨hq, hlast⟩ hans hgood
  obtain ⟨row', hset, hhas⟩ := hq.has.putBack hothers hans hgood
  exact ⟨⟨now, row', (lastReading_snoc _ _).trans hlast, hset, hhas⟩, hq.shows.silent rfl rfl rfl⟩

/-- **`Pick`** reserves a worker, or is shown none. -/
theorem leads_pick (opts : SelectOptions) :
    Leads (amid env others) (At b row n true false sent) (Router.pick opts)
      (Either (fun e q => e = .noAvailableWorker ∧ At b row n true true sent q)
        (fun _ => At b row n true false sent)) := by
  refine Outlines.leads_pick (P := amid env others) (L := fun _ => At b row n true false sent)
    opts (leads_logged ?_) ?_ ?_
  · intro q ans hq _ hgood
    cases ans with
    | error e => cases hgood
    | ok all =>
      refine ⟨fun hnone => ⟨rfl, hq.step hothers trivial ?_⟩,
        fun hsome => hq.step hothers trivial (hq.shows.silent rfl ?_ rfl)⟩
      · have hshows := hq.shows.snoc ⟨.worker (.listAvailableWorkers opts), .ok all⟩
        simpa [findsNone, hnone, isCreate, sentShard] using hshows
      · simp [findsNone, hsome]
  · exact fun _ => keeps_idle hothers (.memory .nextRoundRobin) ⟨trivial, fun _ => ⟨rfl, rfl, rfl⟩⟩
  intro all best _ q hq ans hans
  obtain ⟨q', hq', hat⟩ := keeps_idle hothers (.worker (.upsertWorker _))
    ⟨trivial, fun _ => ⟨rfl, rfl, rfl⟩⟩ q hq ans hans
  refine ⟨q', hq', ?_⟩
  cases ans with
  | error e => cases hans.2
  | ok u => exact hat

end Shard

/-! ## One task. -/

/-- **How a handling ends** that starts with the `n`-th call. -/
inductive Handled (env : Nat → Input) (b : Backend) (row : Task) (n : Nat)
    (log : List (Event System)) (y : World × Nat) : Prop where
  /-- The gate was closed. -/
  | closed (hcreated : created log = false) (hsent : shardsSent row.id log = [])
      (hput : PutOff b row (5 * second) log y)
  /-- The workers did not last. -/
  | ranOut (hcreated : created log = true) (hout : ranOut log = true)
      (hput : PutOff b row (10 * second) log y)
  /-- Every shard was sent, and after that the clock was read once more. -/
  | complete (before after : List (Event System)) (hlog : log = before ++ after)
      (hcreated : created log = true) (hout : Handling.ranOut log = false)
      (hsent : shardsSent row.id after = []) (hnodup : (shardsSent row.id log).Nodup)
      (hlast : lastReading log = some (env (n + before.length)).now)
      (hfound : ∀ next, nextTriggerTime (readTask b row) (env (n + before.length)).now = .ok next →
          ∃ row', SetTo row next row' ∧ Has b row' y)
      (hlost : ∀ e, nextTriggerTime (readTask b row) (env (n + before.length)).now = .error e →
        Has b row y)

section Task

variable {env : Nat → Input} {others : Nat → World → World} {b : Backend} {row : Task}
  (hothers : Leaves row.id others) {n : Nat}

include hothers

/-- **Dispatching a shard** sends this shard, if it counts, and no other. -/
theorem leads_dispatchShard (url : String) (task : Task) (shard : Nat)
    (inst : TaskInstance) (worker : WorkerNode) :
    Leads (amid env others) (Sends b row n true shard) (dispatchShard url task shard inst worker)
      (fun q _ => Sends b row n true (shard + 1) q) := by
  have hidle : ∀ {c : Call} {k : Nat}, Idle row.id c →
      Stays (amid env others) (Sends b row n true k) (ask c) :=
    fun hc => keeps_sends hothers _ hc
  refine leads_bind (hidle (c := .memory .now) ⟨trivial, fun _ => ⟨rfl, rfl, rfl⟩⟩) ?_
  intro dispatchTime
  refine leads_bind (hidle (c := .inst (.updateInstanceDispatch _ _ _))
    ⟨trivial, fun _ => ⟨rfl, rfl, rfl⟩⟩) ?_
  intro _
  refine leads_bind (P := amid env others) (B := fun q _ => Sends b row n true (shard + 1) q)
    (leads_logged ?_) ?_
  · rintro q ans ⟨sent, hsub, hq⟩ _ _
    have hshows := hq.shows.snoc ⟨.node (.dispatch worker (shardRequest url task shard inst)), ans⟩
    refine ⟨_, ?_, hq.step hothers trivial hshows⟩
    rw [List.range_succ, List.map_append]
    refine hsub.append ?_
    show (if _ then some (shard : Int) else none).toList.Sublist [(shard : Int)]
    split
    · exact List.Sublist.refl _
    · exact List.nil_sublist _
  intro ans
  cases ans with
  | ok u => exact fun _ h => h
  | error e =>
    refine (keeps_sends hothers).leads ?_
    exact ⟨⟨trivial, fun _ => ⟨rfl, rfl, rfl⟩⟩, fun _ =>
      ⟨⟨trivial, fun _ => ⟨rfl, rfl, rfl⟩⟩, fun _ => trivial⟩⟩

/-- **One pass of the shard loop**: the shard is sent, or the task is put off. -/
theorem leads_runShard (url : String) (shard : Nat) :
    Leads (amid env others) (Sends b row n (decide (shard ≠ 0)) shard)
      (runShard url (readTask b row) shard)
      (Outlines.Onward (Sends b row n (decide (shard + 1 ≠ 0)) (shard + 1))
        (fun q => Handled env b row n q.1 q.2)) := by
  refine Outlines.leads_runShard (P := amid env others)
    (I := fun k => Sends b row n (decide (k ≠ 0)) k) (C := fun _ => Sends b row n true shard)
    (D := fun e q => e = .noAvailableWorker ∧ ∃ sent, At b row n true true sent q)
    (W := fun _ _ => Sends b row n true shard) ?_ ?_ ?_ ?_ (fun e he q h => absurd h.1 he) ?_
  · exact keeps_sends hothers (.memory .now) ⟨trivial, fun _ => ⟨rfl, rfl, rfl⟩⟩
  · intro idTime triggerTime
    refine leads_logged ?_
    rintro q ans ⟨sent, hsub, hq⟩ _ hgood
    cases ans with
    | error e => cases hgood
    | ok inst =>
      refine ⟨sent, hsub, hq.step hothers trivial ?_⟩
      simpa [isCreate, findsNone, sentShard] using hq.shows.snoc ⟨.inst (.createInstance
        (shardInstance (readTask b row) shard idTime triggerTime)), .ok inst⟩
  · rintro inst q ⟨sent, hsub, hq⟩
    refine (leads_pick hothers _ q hq).mono ?_
    intro q r h
    cases r with
    | error e => exact ⟨h.1, sent, h.2⟩
    | ok worker => exact ⟨sent, hsub, h⟩
  · rintro q ⟨_, sent, hq⟩
    exact (leads_deferTask hothers _ q hq).mono (fun _ _ h => .ranOut h.2.created h.2.ranOut h.1)
  · exact fun inst worker => leads_dispatchShard hothers url _ shard inst worker

/-- **The end of a handling**: the next trigger time is stored, if there is one. -/
theorem leads_reschedule {k : Nat} :
    Leads (amid env others) (Sends b row n true k) (reschedule (readTask b row))
      (fun q _ => Handled env b row n q.1 q.2) := by
  rintro ⟨log, x⟩ ⟨sent, hsub, hq⟩ now hans
  have hnow : now = (env x.2).now := hans.1
  have hcount : x.2 = n + log.length := hq.count
  have hnodup : sent.Nodup := by
    refine hsub.nodup (List.Nodup.map ?_ List.nodup_range)
    intro i j hij
    exact Int.ofNat_inj.mp hij
  obtain ⟨q', hnext, hq', hlast⟩ := leads_timeNow hothers (log, x) hq now hans
  cases hnext
  refine ⟨_, rfl, ?_⟩
  rw [hcount] at hnow
  subst hnow
  dsimp only [Prog.bind]
  cases hfound : nextTriggerTime (readTask b row) (env (n + log.length)).now with
  | error e =>
    refine .complete log [_] rfl hq'.shows.created hq'.shows.ranOut rfl ?_ hlast ?_
      (fun _ _ => hq'.has)
    · rw [hq'.shows.sent]
      exact hnodup
    · exact fun next h => nomatch hfound.symm.trans h
  | ok next =>
  refine Prog.leads_bind (P := amid env others)
    (B := fun q _ => Handled env b row n q.1 q.2) (leads_logged ?_) ?_ _ rfl
  · rintro q ans rfl hans hgood
    obtain ⟨row', hset, hhas⟩ := hq'.has.putBack hothers hans hgood
    have hshows : Shows row.id true false sent
        ((log ++ [_]) ++ [(⟨.task (.updateTask _), ans⟩ : Event System)]) :=
      hq'.shows.silent rfl rfl rfl
    refine .complete log [_, _] (List.append_assoc _ _ _) hshows.created hshows.ranOut rfl ?_
      ((lastReading_snoc _ _).trans hlast) ?_ (fun e h => nomatch hfound.symm.trans h)
    · rw [hshows.sent]
      exact hnodup
    · intro next' h
      cases hfound.symm.trans h
      exact ⟨row', hset, hhas⟩
  · intro ans
    cases ans with
    | error e | ok t => exact fun _ h => h

/-- **`handleTask`**, for whatever other threads and workers do meanwhile. -/
theorem leads_handleTask (url : String) :
    Leads (amid env others) (Sends b row n false 0)
      (handleTask url (readTask b row)) (fun q _ => Handled env b row n q.1 q.2) := by
  have hidle : ∀ {op : Call}, Parts.IsQuery op → Idle row.id op :=
    fun h => Parts.forall_isQuery (fun _ _ => ⟨trivial, fun _ => ⟨rfl, rfl, rfl⟩⟩) _ h
  refine Outlines.leads_handleTask (P := amid env others)
    (I := fun k => Sends b row n (decide (k ≠ 0)) k) ?_ ?_ ?_
    (leads_runShard hothers url) ?_
  · exact fun op hop => keeps_sends hothers op (hidle hop)
  · intro q hq ans hans
    obtain ⟨q', hq', hat⟩ := keeps_sends hothers (.task (.listUpstreamDeps _))
      ⟨trivial, fun _ => ⟨rfl, rfl, rfl⟩⟩ q hq ans hans
    refine ⟨q', hq', ?_⟩
    cases ans with
    | error e => cases hans.2
    | ok upstream => exact hat
  · rintro q ⟨sent, hsub, hq⟩
    obtain rfl := List.sublist_nil.mp hsub
    exact (leads_deferTask hothers _ q hq).mono (fun _ _ h => .closed h.2.created h.2.sent h.1)
  · intro k hk
    rw [decide_eq_true hk]
    exact leads_reschedule hothers

end Task

/-! ## Later than now. -/

/-- Some minute that the expression matches lies within the search limit. -/
def FindsTime (expr : String) (now : Int) : Prop :=
  ∃ s, Cron.parse expr = .ok s
    ∧ ∃ u ∈ Cron.matching s 0, now < u ∧ u ≤ now + Cron.searchLimitMinutes * minute

theorem nextAfter_ok_iff (now : Int) (expr : String) :
    (∃ t, Cron.nextAfter now expr = .ok t) ↔ FindsTime expr now := by
  constructor
  · rintro ⟨t, ht⟩
    cases hparse : Cron.parse expr with
    | error e =>
      unfold Cron.nextAfter at ht
      rw [hparse] at ht
      cases ht
    | ok s =>
    obtain ⟨d, m, ⟨hm₀, hm⟩, hday, hclock, hlt, hle⟩ := Cron.instant_of_nextAfter hparse ht
    refine ⟨s, hparse, Cron.instant d m, ⟨Cron.wholeMinute_instant d m, ?_⟩, hlt, ?_⟩
    · rw [Int.add_zero, Cron.matches_instant s hm₀ hm, hday, hclock]
      rfl
    · unfold Cron.truncateMinute minute second at hle
      unfold minute second
      omega
  · rintro ⟨s, hparse, u, hu, hlt, hle⟩
    obtain ⟨t, ht⟩ := Cron.exists_nextAfterIn (by decide) hparse hu hlt hle
    exact ⟨t, (Cron.nextAfterIn_zero now expr).symm.trans ht⟩

theorem nextTriggerTime_ok_iff (task : Task) (now : Int) :
    (∃ t, nextTriggerTime task now = .ok t) ↔ task.cronExpr = "" ∨ FindsTime task.cronExpr now := by
  by_cases hcron : task.cronExpr = ""
  · rw [nextTriggerTime_of_empty hcron]
    exact iff_of_true ⟨_, rfl⟩ (.inl hcron)
  · rw [nextTriggerTime_of_cron hcron, nextAfter_ok_iff]
    exact ⟨Or.inr, fun h => h.resolve_left hcron⟩

theorem lt_of_nextTriggerTime {task : Task} {now t : Int} (h : nextTriggerTime task now = .ok t) :
    now < t := by
  by_cases hcron : task.cronExpr = ""
  · rw [nextTriggerTime_of_empty hcron] at h
    cases h
    unfold hour minute second
    omega
  · rw [nextTriggerTime_of_cron hcron] at h
    exact Cron.lt_of_nextAfter h

/-- **One handling** of a stored task whose row other threads leave alone. -/
structure Turn where
  schedulerURL : String := ""
  env : Nat → Input
  others : Nat → World → World := fun _ w => w
  world : World
  /-- The number of its first call. -/
  start : Nat := 0
  row : Task
  stored : world.tasks.tasks.get? row.id = some row
  left : Leaves row.id others

namespace Turn

variable (t : Turn)

def task : Task := readTask t.world.backend t.row

def log : List (Event System) :=
  Prog.events (execAmid t.env t.others) (handleTask t.schedulerURL t.task) (t.world, t.start)

def final : World × Nat :=
  (Prog.run (execAmid t.env t.others) (handleTask t.schedulerURL t.task) (t.world, t.start)).2

theorem handled (h : AllSucceed t.log) :
    Handled t.env t.world.backend t.row t.start t.log t.final :=
  of_follows_logged (leads_handleTask t.left t.schedulerURL ([], (t.world, t.start))
    ⟨[], List.nil_sublist _, ⟨rfl, t.stored⟩, rfl, rfl, rfl, rfl⟩) h

theorem final_count : t.final.2 = t.start + t.log.length := by
  have hrun : wpLog (execAmid t.env t.others) (handleTask t.schedulerURL t.task)
      (fun _ _ _ => True) (t.world, t.start) := trivial
  exact (wpLog_counted (fun _ _ => rfl) hrun).2

end Turn

/-- The stored trigger time of a task is later than `now`. -/
def Later (w : World) (id now : Int) : Prop :=
  ∃ row, w.tasks.tasks.get? id = some row ∧ now < row.nextTriggerTime

theorem Has.later_iff {b : Backend} {row : Task} {y : World × Nat} (h : Has b row y) (now : Int) :
    Later y.1 row.id now ↔ now < row.nextTriggerTime := by
  have hrow := h.row
  grind [Later]

theorem SetTo.later_iff {b : Backend} {row row' : Task} {time : Int} {y : World × Nat}
    (hset : SetTo row time row') (h : Has b row' y) (now : Int) :
    Later y.1 row.id now ↔ now < time := by
  rw [← hset.id, h.later_iff, hset.time]

/-- **A HANDLED OCCURRENCE IS NOT HANDLED AGAIN — EXACTLY IF the expression matches a minute within
the search limit**, or the task has no expression, was put off for want of a worker, or was not due.
`now` is any moment up to the handling's last clock reading. -/
theorem handled_later_iff (t : Turn) (hsucceed : AllSucceed t.log)
    (hcreated : created t.log = true) (now : Int)
    (hnow : ∀ last, lastReading t.log = some last → now ≤ last) :
    Later t.final.1 t.row.id now ↔ t.row.cronExpr = ""
        ∨ (∃ last, lastReading t.log = some last ∧ FindsTime t.row.cronExpr last)
        ∨ ranOut t.log = true
        ∨ now < t.row.nextTriggerTime := by
  cases t.handled hsucceed with
  | closed hnone _ _ => grind
  | ranOut _ hout hput =>
    obtain ⟨last, row', hlast, hset, hy⟩ := hput
    have hle := hnow last hlast
    rw [hset.later_iff hy]
    refine iff_of_true ?_ (.inr (.inr (.inl hout)))
    unfold second
    omega
  | complete before after _ _ hout _ _ hlast hfound hlost =>
  have hle := hnow _ hlast
  have hfinds := nextTriggerTime_ok_iff t.task (t.env (t.start + before.length)).now
  rw [show t.task.cronExpr = t.row.cronExpr from readTask_cronExpr _ _] at hfinds
  cases hnext : nextTriggerTime t.task (t.env (t.start + before.length)).now with
  | ok next =>
    obtain ⟨row', hset, hy⟩ := hfound next hnext
    have hlt := lt_of_nextTriggerTime hnext
    rw [hset.later_iff hy]
    grind
  | error e =>
    rw [(hlost e hnext).later_iff]
    grind

/-! ## February 30. -/

theorem day_le_of_february {r : Int} (h₀ : 0 ≤ r) (h : r ≤ 365) (hmonth : Gregorian.month r = 2) :
    Gregorian.day r ≤ 29 := by
  unfold Gregorian.month at hmonth
  unfold Gregorian.day
  split at hmonth <;> omega

/-- `Validate` accepts February 30, for which `NextAfter` never finds a time. -/
theorem nextAfter_february_thirty (now : Int) :
    Cron.nextAfter now "0 0 30 2 *" = .error (.text ("no matching time found for cron expression "
          ++ Cron.quote "0 0 30 2 *".toList)) := by
  have hparse : Cron.parse "0 0 30 2 *"
      = .ok ⟨⟨[0], false⟩, ⟨[0], false⟩, ⟨[30], false⟩, ⟨[2], false⟩, ⟨[], true⟩⟩ := by
    decide
  cases h : Cron.nextAfter now "0 0 30 2 *" with
  | ok t =>
    obtain ⟨d, m, _, hday, _⟩ := Cron.instant_of_nextAfter hparse h
    obtain ⟨h₀, h₁⟩ := Gregorian.dayOfYear_bounds d
    unfold Cron.Schedule.onDay Cron.Field.contains at hday
    simp at hday
    have := day_le_of_february h₀ h₁ hday.1
    omega
  | error e =>
  unfold Cron.nextAfter at h
  rw [hparse] at h
  dsimp only at h
  split at h
  · cases h
  · exact h.symm

theorem reschedule_of_error {task : Task} {e : Err}
    (h : ∀ now, nextTriggerTime task now = .error e) :
    reschedule task = (do
      let _ ← timeNow
      return .error (.wrap "compute next trigger time" e)) := by
  unfold reschedule
  congr 1
  funext now
  rw [h now]

def oneWorker : World :=
  World.ofRows .mysql [] [] [] [{ id := "w", status := .online, maxConcurrency := 4 }]

/-- A task for February 30 that is to start at a given time. -/
def februaryRequest : Request :=
  { tenant := 0
    op := .createTask
      { name := "report", type := "shell", cronExpr := "0 0 30 2 *",
        nextTriggerTime := 60 * second } }

def februaryRow : Task :=
  { id := 1, name := "report", type := "shell", cronExpr := "0 0 30 2 *", status := .enabled
    timeoutSeconds := 300, retryPolicy := .fixedInterval, routeStrategy := .roundRobin
    labels := encodeLabels Table.empty, nextTriggerTime := 60 * second, version := 1 }

theorem february_stored :
    (serve oneWorker februaryRequest).2.tasks.tasks.get? 1 = some februaryRow := by
  decide

def februaryTurn : Turn where
  env := fun _ => { now := 61 * second }
  world := (serve oneWorker februaryRequest).2
  row := februaryRow
  stored := february_stored
  left := ⟨fun _ _ => rfl, fun _ _ => rfl⟩

/-- **February 30 is accepted and handled, and due again at once**: its row is
the same as before. -/
theorem february_thirty_again :
    (serve oneWorker februaryRequest).1.isOk = true ∧ AllSucceed februaryTurn.log
      ∧ created februaryTurn.log = true
      ∧ shardsSent 1 februaryTurn.log = [0]
      ∧ lastReading februaryTurn.log = some (61 * second)
      ∧ ¬ Later februaryTurn.final.1 1 (61 * second)
      ∧ februaryTurn.final.1.tasks.tasks.get? 1 = some februaryRow := by
  have hnext : ∀ now, nextTriggerTime februaryTurn.task now
      = .error (.text ("no matching time found for cron expression "
          ++ Cron.quote "0 0 30 2 *".toList)) := by
    intro now
    rw [nextTriggerTime_of_cron (by decide)]
    exact nextAfter_february_thirty now
  -- the calls are evaluated, with the search replaced by its result
  have hlog : AllSucceed februaryTurn.log ∧ created februaryTurn.log = true
      ∧ shardsSent 1 februaryTurn.log = [0] ∧ lastReading februaryTurn.log = some (61 * second)
      ∧ ranOut februaryTurn.log = false := by
    unfold Turn.log handleTask triggerTask
    rw [reschedule_of_error hnext]
    decide
  obtain ⟨hsucceed, hcreated, hsent, hlast, hout⟩ := hlog
  have hhas : Has februaryTurn.world.backend februaryRow februaryTurn.final := by
    cases februaryTurn.handled hsucceed with
    | closed hnone => exact nomatch hcreated.symm.trans hnone
    | ranOut _ hout' => exact nomatch hout.symm.trans hout'
    | complete _ _ _ _ _ _ _ _ _ hlost => exact hlost _ (hnext _)
  refine ⟨by decide, hsucceed, hcreated, hsent, hlast, ?_, hhas.row⟩
  intro hlater
  have hlt := (hhas.later_iff (61 * second)).mp hlater
  revert hlt
  decide

/-- The same task with an expression that matches every minute. -/
def minutelyTurn : Turn where
  env := fun _ => { now := 61 * second }
  world := World.ofRows .mysql [{ februaryRow with cronExpr := "* * * * *" }] [] []
    [{ id := "w", status := .online, maxConcurrency := 4 }]
  row := { februaryRow with cronExpr := "* * * * *" }
  stored := rfl
  left := ⟨fun _ _ => rfl, fun _ _ => rfl⟩

/-- It is handled, and not due again. -/
theorem minutely_later : created minutelyTurn.log = true
    ∧ Later minutelyTurn.final.1 1 (61 * second) := by
  refine ⟨by decide, ?_⟩
  refine (handled_later_iff minutelyTurn (by decide) (by decide) (61 * second)
    ?_).mpr (.inr (.inl ?_))
  · have hlast : lastReading minutelyTurn.log = some (61 * second) := by decide
    intro last h
    rw [hlast] at h
    cases h
    exact Int.le_refl _
  have hwhole : Cron.wholeMinute 0 (120 * second) := by
    unfold Cron.wholeMinute
    decide
  exact ⟨61 * second, by decide,
    ⟨⟨[], true⟩, ⟨[], true⟩, ⟨[], true⟩, ⟨[], true⟩, ⟨[], true⟩⟩, by decide, 120 * second,
    ⟨hwhole, by decide⟩, by decide, by decide⟩

end AiScheduler.Handling
