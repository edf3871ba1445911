/-
  **A WORKER IS NEVER GIVEN MORE THAN ITS MAXIMUM — as long as heartbeats and registrations do not
  forget what is on its way.**

  A worker is CHARGED with the places taken on it, the messages on their way to it and the
  executions it has not released. The charge never exceeds the stored load, which a `Pick` raises
  only below the maximum; a heartbeat REPLACES the load.
-/
import AiScheduler.Lib.Tally
import AiScheduler.Proofs.Seats

namespace AiScheduler.Capacity

open Lib Function Config

variable {v : WorkerNode} {W workerID : String}

/-! ## Reserved for a worker, on their way to it, running on it. -/

def inflight (w : World) (workerID : String) : Nat :=
  w.nodes.inbox.countP (fun m => m.1 = workerID)

def dispatchesTo (c : Pool) (workerID : String) (t : Nat) : Bool :=
  match c.nextOp t with
  | some (.node (.dispatch v _)) => v.id = workerID
  | _ => false

/-- Instances picked for a worker and not yet dispatched. -/
def reserved (c : Pool) (workerID : String) : Nat :=
  (List.range c.pool.length).countP (dispatchesTo c workerID)

def hasMade (c : Pool) (t : Nat) (φ : Call → Bool) : Bool :=
  c.log.any (fun entry => entry.1 = t && φ entry.2.1)

def startsOn (workerID : String) : Call → Bool
  | .node (.addRunning W delta) => W = workerID ∧ delta = 1
  | _ => false

def isExecution : Call → Bool
  | .node (.execute _ _) => true
  | _ => false

def runsOn (c : Pool) (workerID : String) (t : Nat) : Bool :=
  hasMade c t (startsOn workerID) && !hasMade c t isExecution

def running (c : Pool) (workerID : String) : Nat :=
  (List.range c.pool.length).countP (runsOn c workerID)

/-! ## What an operation knows. -/

/-- What an open window promises. -/
def Knows (w : World) (q : Position) : Prop :=
  match q.window with
  | .closed => True
  | .listed all => ∀ v ∈ all, w.workers.get? v.id = some v ∧ v.currentLoad < v.maxConcurrency
  | .picked v => q.place = some v.id ∧ ∃ v', w.workers.get? v.id = some v'
      ∧ v'.currentLoad = v.currentLoad ∧ v'.maxConcurrency = v.maxConcurrency
  | .counted workerID n => (q.role = .heartbeat ∧ q.place = none ∧ q.seat = .absent)
      ∧ n = w.nodes.running workerID
  | .beating v n => (q.role = .heartbeat ∧ q.place = none ∧ q.seat = .absent)
      ∧ w.workers.get? v.id = some v ∧ n = w.nodes.running v.id
  | .releasing workerID v => q.seat = .finished workerID ∧ w.workers.get? workerID = some v

theorem knows_of_closed {w : World} {q : Position} (h : q.window = .closed) : Knows w q := by
  unfold Knows
  rw [h]
  trivial

/-- The world as the running operation sees it: what the others have charged to each worker (`A`)
and contribute to its running counter (`B`). -/
structure Local (A B : String → Nat) (w : World) (q : Position) : Prop where
  charged : ∀ v ∈ w.workers.rows,
    ((A v.id + q.charge v.id + inflight w v.id : Nat) : Int) ≤ v.currentLoad
      ∧ ((A v.id + q.charge v.id + inflight w v.id : Nat) : Int) ≤ v.maxConcurrency
  counter : ∀ W, w.nodes.running W = ((B W + q.seat.counted W : Nat) : Int)
  knows : Knows w q

section Steps

variable {A B : String → Nat} {w : World} {q q' : Position}

variable {req : ExecuteTaskRequest} {inp : Input}

theorem Local.move (hL : Local A B w q) (hcharge : ∀ W, q'.charge W ≤ q.charge W)
    (hseat : ∀ W, q'.seat.counted W = q.seat.counted W) (hknows : Knows w q') :
    Local A B w q' where
  charged := by
    intro v hv
    obtain ⟨hload, hmax⟩ := hL.charged v hv
    have := hcharge v.id
    omega
  counter := by
    intro W
    rw [hseat]
    exact hL.counter W
  knows := hknows

theorem Local.frame (hL : Local A B w q) {w' : World} (hwork : w'.workers = w.workers)
    (hnodes : w'.nodes = w.nodes) : Local A B w' q where
  charged := by
    unfold inflight
    rw [hwork, hnodes]
    exact hL.charged
  counter := by
    rw [hnodes]
    exact hL.counter
  knows := by
    have hknows := hL.knows
    unfold Knows at hknows ⊢
    rw [hwork, hnodes]
    exact hknows

theorem Local.write (hL : Local A B w q) (hcharge : ∀ W, W ≠ v.id → q'.charge W ≤ q.charge W)
    (hseat : ∀ W, q'.seat.counted W = q.seat.counted W)
    (hrow : ((A v.id + q'.charge v.id + inflight w v.id : Nat) : Int) ≤ v.currentLoad
      ∧ ((A v.id + q'.charge v.id + inflight w v.id : Nat) : Int) ≤ v.maxConcurrency)
    (b : Backend) (now : Int)
    (hknows : Knows { w with workers := w.workers.upsertWorker b now v } q') :
    Local A B { w with workers := w.workers.upsertWorker b now v } q' where
  charged := by
    intro v' hv'
    rcases Table.mem_upsert.mp hv' with rfl | ⟨hv', hne⟩
    · simp only [storedWorker_id, storedWorker_currentLoad, storedWorker_maxConcurrency]
      exact hrow
    rw [storedWorker_id] at hne
    obtain ⟨hload, hmax⟩ := hL.charged v' hv'
    have := hcharge v'.id hne
    show ((A v'.id + q'.charge v'.id + inflight w v'.id : Nat) : Int) ≤ _
      ∧ ((A v'.id + q'.charge v'.id + inflight w v'.id : Nat) : Int) ≤ _
    omega
  counter := by
    intro W
    rw [hseat]
    exact hL.counter W
  knows := hknows

/-! ## Calls one by one. -/

/-- The row of a worker bounds what is charged to it. -/
theorem Local.row (hL : Local A B w q) (h : w.workers.get? W = some v) :
    v.id = W ∧ ((A W + q.charge W + inflight w W : Nat) : Int) ≤ v.currentLoad
      ∧ ((A W + q.charge W + inflight w W : Nat) : Int) ≤ v.maxConcurrency := by
  obtain ⟨hmem, rfl⟩ := Table.get?_some h
  exact ⟨rfl, hL.charged v hmem⟩

theorem knows_of_isClosed {w : World} {q : Position} (h : q.window.isClosed = true) : Knows w q :=
  knows_of_closed (Window.eq_closed h)

/-- A write that fails gives up what it was about to take. -/
theorem step_upsertFailed (hL : Local A B w q) {e : Err}
    (hq' : q.onWorker (.upsertWorker v) (.error e) = some q') : Local A B w q' := by
  have hknows := hL.knows
  unfold Knows at hknows
  unfold Position.onWorker Position.afterReserve at hq'
  refine hL.move ?_ ?_ (knows_of_isClosed ?_) <;>
    grind [Position.charge, Seat.charge, Seat.counted, Window.isClosed]

/-- **A row is written**: by a pick below its maximum, a release, a heartbeat or a registration. -/
theorem step_upserted (hL : Local A B w q) (b : Backend) (now : Int)
    (hbeat : q.role = .heartbeat → A v.id ≤ B v.id ∧ inflight w v.id = 0)
    (hreg : q.role = .register → A v.id = 0 ∧ inflight w v.id = 0)
    (hq' : q.onWorker (.upsertWorker v) (.ok ()) = some q') :
    Local A B { w with workers := w.workers.upsertWorker b now v } q' := by
  have hknows := hL.knows
  have hcounter := hL.counter
  have hrow := fun W v => hL.row (W := W) (v := v)
  unfold Knows at hknows
  unfold Position.onWorker Position.afterReserve at hq'
  refine hL.write ?_ ?_ ?_ b now ?_
  · grind [Position.charge, Seat.charge]
  · grind [Seat.counted]
  · -- the load counts what is charged, in every window
    cases hwin : q.window <;> simp only [hwin] at hq' hknows <;>
      grind [Position.charge, Seat.charge, Seat.counted, Router.released]
  cases hwin : q.window with
  | listed all =>
    simp only [hwin, Option.ite_none_right_eq_some, Option.some.injEq] at hq'
    rw [← hq'.2]
    refine ⟨rfl, _, (WorkerStore.get?_upsertWorker _ _ _ _ _).trans (if_pos rfl), ?_, ?_⟩
    · rw [storedWorker_currentLoad]
    · rw [storedWorker_maxConcurrency]
  | _ =>
    apply knows_of_closed
    grind

theorem step_upsertWorker (hL : Local A B w q) (inp : Input)
    (hbeat : q.role = .heartbeat → A v.id ≤ B v.id ∧ inflight w v.id = 0)
    (hreg : q.role = .register → A v.id = 0 ∧ inflight w v.id = 0)
    (hq' : q.onWorker (.upsertWorker v) (execCall inp (.worker (.upsertWorker v)) w).1 = some q') :
    Local A B (execCall inp (.worker (.upsertWorker v)) w).2 q' := by
  rcases exec_worker_cases inp w (.upsertWorker v) with ⟨e, h⟩ | h
  · rw [h] at hq' ⊢
    exact step_upsertFailed hL hq'
  · rw [h] at hq' ⊢
    exact step_upserted hL _ _ hbeat hreg hq'

theorem step_listAvailableWorkers (hL : Local A B w q) {opts : SelectOptions} (inp : Input)
    (hq' : q.onWorker (.listAvailableWorkers opts)
      (execCall inp (.worker (.listAvailableWorkers opts)) w).1 = some q') :
    Local A B (execCall inp (.worker (.listAvailableWorkers opts)) w).2 q' := by
  simp only [Position.onWorker, Option.ite_none_right_eq_some, Option.some.injEq] at hq'
  obtain ⟨_, rfl⟩ := hq'
  rcases exec_worker_cases inp w (.listAvailableWorkers opts) with ⟨e, h⟩ | h
  · rw [h]
    exact hL
  rw [h]
  show Local A B w (if _ then _ else _)
  split
  · exact hL
  refine hL.move (fun _ => Nat.le_refl _) (fun _ => rfl) ?_
  intro v hv
  obtain ⟨hmem, hfree⟩ := WorkerStore.mem_listAvailableWorkers.mp hv
  exact ⟨Table.get?_of_mem hmem, (of_decide_eq_true hfree).2⟩

theorem step_getWorker (hL : Local A B w q) {id : String} (inp : Input)
    (hq' : q.onWorker (.getWorker id) (execCall inp (.worker (.getWorker id)) w).1 = some q') :
    Local A B (execCall inp (.worker (.getWorker id)) w).2 q' := by
  have hexec : (execCall inp (.worker (.getWorker id)) w).2 = w
      ∧ ∀ v, (execCall inp (.worker (.getWorker id)) w).1 = .ok v → w.workers.get? id = some v := by
    rcases exec_worker_cases inp w (.getWorker id) with ⟨e, h⟩ | h
    · simp [h]
    · rw [h]
      exact ⟨rfl, fun _ => WorkerStore.getWorker_ok⟩
  rw [hexec.1]
  have hknows := hL.knows
  have hid := fun v => Table.get?_some (T := w.workers) (k := id) (r := v)
  unfold Knows at hknows
  unfold Position.onWorker Position.afterBeat Position.afterFinish at hq'
  refine hL.move ?_ ?_ ?_
  · grind [Position.charge, Seat.charge]
  · grind [Seat.counted]
  · unfold Knows
    grind

theorem step_updateInstanceDispatch (hL : Local A B w q) (id time : Int) {ans : Except Err Unit}
    (hq' : q.next (.inst (.updateInstanceDispatch id workerID time)) ans = some q') :
    Local A B w q' := by
  have hknows := hL.knows
  unfold Knows at hknows
  unfold Position.next Position.afterMark at hq'
  refine hL.move ?_ ?_ ?_
  · grind [Position.charge]
  · grind
  · unfold Knows
    grind

theorem Local.nodes (hL : Local A B w q) {n : Nodes}
    (hcharge : ∀ W, q'.charge W + n.inbox.countP (fun m => m.1 = W)
      ≤ q.charge W + w.nodes.inbox.countP (fun m => m.1 = W))
    (hcount : ∀ W, n.running W - q'.seat.counted W = w.nodes.running W - q.seat.counted W)
    (hclosed : q'.window.isClosed = true) : Local A B { w with nodes := n } q' where
  charged := by
    intro v hv
    obtain ⟨hload, hmax⟩ := hL.charged v hv
    have hle := hcharge v.id
    have hinf : inflight { w with nodes := n } v.id = n.inbox.countP (fun m => m.1 = v.id) := rfl
    have hinf' : inflight w v.id = w.nodes.inbox.countP (fun m => m.1 = v.id) := rfl
    omega
  counter := by
    intro W
    have h := hL.counter W
    have hW := hcount W
    show n.running W = _
    omega
  knows := knows_of_isClosed hclosed

/-- **A message or an execution** moves on: a place becomes a message, a message a seat. -/
theorem step_node (hL : Local A B w q) {call : NodeCall}
    (haccepted : ∀ v req, call = .dispatch v req → inp.outcome v req = .accepted)
    (hq' : q.onNode call (execCall inp (.node call) w).1 = some q') :
    Local A B (execCall inp (.node call) w).2 q' := by
  unfold Position.onNode Position.isFree Position.atRest at hq'
  cases call with
  | dispatch v req =>
    rw [exec_dispatch_accepted w (haccepted v req rfl)]
    refine hL.nodes ?_ ?_ ?_ <;> grind [Position.charge, List.countP_singleton]
  | receive workerID req =>
    by_cases hmem : (workerID, req) ∈ w.nodes.inbox
    · have hexec : execCall inp (.node (.receive workerID req)) w
          = (true, { w with nodes := { w.nodes with
              inbox := w.nodes.inbox.erase (workerID, req) } }) := by
        simp only [execCall, Call.exec, NodeCall.exec, hmem, if_true]
      rw [hexec] at hq' ⊢
      refine hL.nodes (fun W => ?_) ?_ ?_
      · have hcount := (List.perm_cons_erase hmem).countP_eq (fun m => decide (m.1 = W))
        simp only [List.countP_cons] at hcount
        grind [Position.charge, Seat.charge]
      · grind [Seat.counted]
      · grind
    · have hexec : execCall inp (.node (.receive workerID req)) w = (false, w) := by
        simp only [execCall, Call.exec, NodeCall.exec, hmem, if_false]
      rw [hexec] at hq' ⊢
      grind
  | isDuplicate workerID sid =>
    by_cases hmem : (workerID, sid) ∈ w.nodes.seen
    · have hexec : execCall inp (.node (.isDuplicate workerID sid)) w = (true, w) := by
        simp only [execCall, Call.exec, NodeCall.exec, hmem, if_true]
      rw [hexec] at hq' ⊢
      refine hL.nodes (n := w.nodes) ?_ ?_ ?_ <;> grind [Position.charge, Seat.charge, Seat.counted]
    · have hexec : execCall inp (.node (.isDuplicate workerID sid)) w = (false,
          { w with nodes := { w.nodes with seen := (workerID, sid) :: w.nodes.seen } }) := by
        simp only [execCall, Call.exec, NodeCall.exec, hmem, if_false]
      rw [hexec] at hq' ⊢
      refine hL.nodes ?_ ?_ ?_ <;> grind
  | addRunning workerID delta =>
    show Local A B { w with nodes := { w.nodes with
      running := update w.nodes.running workerID (w.nodes.running workerID + delta) } } q'
    refine hL.nodes ?_ ?_ ?_ <;> grind [Position.charge, Seat.charge, Seat.counted]
  | execute workerID req =>
    refine hL.nodes (n := w.nodes) ?_ ?_ ?_ <;> grind [Position.charge, Seat.charge, Seat.counted]
  | runningTasks workerID =>
    have hknows := hL.knows
    show Local A B w q'
    have hq' : (if q.role = .heartbeat ∧ q.isFree ∧ q.seat = .absent then
      some (q.afterCount workerID (w.nodes.running workerID)) else none) = some q' := hq'
    unfold Position.afterCount at hq'
    refine hL.move ?_ ?_ ?_
    · grind [Position.charge]
    · grind
    · unfold Knows at hknows ⊢
      grind [Position.place_of_isFree]
  | cancelDispatch v sid =>
    cases hq'
    exact hL

theorem step_exec (hL : Local A B w q) {op : Call}
    (haccepted : ∀ v req, op = .node (.dispatch v req) → inp.outcome v req = .accepted)
    (hbeat : ∀ v, op = .worker (.upsertWorker v) → q.role = .heartbeat →
      A v.id ≤ B v.id ∧ inflight w v.id = 0)
    (hreg : ∀ v, op = .worker (.upsertWorker v) → q.role = .register →
      A v.id = 0 ∧ inflight w v.id = 0)
    (hq' : seating.next q op (execCall inp op w).1 = some q') :
    Local A B (execCall inp op w).2 q' := by
  have hidle : seating.next q op (execCall inp op w).1 = some q →
      (execCall inp op w).2.workers = w.workers → (execCall inp op w).2.nodes = w.nodes →
      Local A B (execCall inp op w).2 q' := by
    intro hq hwork hnodes
    rw [hq] at hq'
    injection hq' with hq'
    subst hq'
    exact hL.frame hwork hnodes
  cases op with
  | task call =>
    exact hidle rfl (exec_workers inp w (by simp)) (exec_nodes inp w (by simp))
  | memory call => exact hidle rfl rfl rfl
  | inst call =>
    have hwork : (execCall inp (.inst call) w).2.workers = w.workers :=
      exec_workers inp w (by simp)
    have hnodes : (execCall inp (.inst call) w).2.nodes = w.nodes := exec_nodes inp w (by simp)
    cases call with
    | updateInstanceDispatch id workerID time =>
      exact (step_updateInstanceDispatch hL id time hq').frame hwork hnodes
    | getInstanceByScheduleID sid =>
      have hfree : (if q.isFree then some q else none) = some q' := hq'
      simp only [Option.ite_some_none_eq_some] at hfree
      rw [← hfree.2]
      exact hL.frame hwork hnodes
    | _ => exact hidle rfl hwork hnodes
  | worker call =>
    cases call with
    | upsertWorker v => exact step_upsertWorker hL inp (hbeat v rfl) (hreg v rfl) hq'
    | getWorker id => exact step_getWorker hL inp hq'
    | listAvailableWorkers opts => exact step_listAvailableWorkers hL inp hq'
    | listStaleWorkers cutoff =>
      refine hidle rfl ?_ (exec_nodes inp w (by simp))
      rcases exec_worker_cases inp w (.listStaleWorkers cutoff) with ⟨e, h⟩ | h
      · rw [h]
      · rw [h]
        rfl
  | node call =>
    exact step_node hL (fun v req h => haccepted v req (congrArg Call.node h)) hq'

end Steps

/-- **By inspection of every call**: the role stays, and so does a seat that is started, up to its
execution. -/
theorem next_keeps {w : World} {q q' : Position} (hknows : Knows w q) {op : Call} {ans : op.Ans}
    (hq' : q.next op ans = some q') :
    q'.role = q.role
      ∧ ∀ W, q.seat = .started W → isExecution op = false → q'.seat = .started W := by
  unfold Knows at hknows
  unfold Position.next Position.onWorker Position.onNode Position.afterList Position.afterReserve
    Position.afterBeat Position.afterFinish Position.afterCount Position.afterMark at hq'
  split at hq'
  · split at hq' <;> grind
  · split at hq' <;> grind [isExecution]
  all_goals grind

theorem started_of_next {q q' : Position} {op : Call} {ans : op.Ans}
    (hop : startsOn W op = true) (hq' : q.next op ans = some q') : q'.seat = .started W := by
  unfold startsOn at hop
  split at hop
  · simp only [Position.next, Position.onNode] at hq'
    grind
  · cases hop

/-! ## The condition. -/

/-- The operations that pick and the workers' own, one step at a time, dispatched tasks being
delivered. -/
def oneStepAtATime (c : Pool) : PoolStep → Bool
  | .spawn j => takesPlaces j
  | .step t inp => c.othersParked isYield t &&
      match c.nextOp t with
      | some (.node (.dispatch v req)) =>
        match inp.outcome v req with
        | .accepted => true
        | _ => false
      | _ => true

/-- **The condition**: a heartbeat is stored while nothing is reserved for or on its way to its
worker; a registration, while nothing runs there either. -/
def nothingForgotten (c : Pool) (l : PoolStep) : Bool :=
  oneStepAtATime c l &&
    match l with
    | .spawn _ => true
    | .step t _ =>
      match (c.jobOf t).map roleOf, c.nextOp t with
      | some .heartbeat, some (.worker (.upsertWorker v)) =>
        reserved c v.id = 0 && inflight c.world v.id = 0
      | some .register, some (.worker (.upsertWorker v)) =>
        reserved c v.id = 0 && inflight c.world v.id = 0 && decide (c.world.nodes.running v.id = 0)
      | _, _ => true

/-- The invariant, with `t` the operation that moved last. -/
structure Inv (c : Pool) (g : Nat → Position) (t : Nat) : Prop where
  role : ∀ u j, c.jobOf u = some j → (g u).role = roleOf j
  logged : ∀ entry ∈ c.log, entry.1 < c.pool.length
  fresh : ∀ u, (∀ entry ∈ c.log, entry.1 ≠ u) → (g u).place = none
  runs : ∀ u W, runsOn c W u = true → (g u).seat = .started W
  counter : ∀ W, c.world.nodes.running W
    = (tally c.pool.length (fun u => (g u).seat.counted W) : Nat)
  charged : ∀ v ∈ c.world.workers.rows,
    ((tally c.pool.length (fun u => (g u).charge v.id) + inflight c.world v.id : Nat) : Int)
        ≤ v.currentLoad
      ∧ ((tally c.pool.length (fun u => (g u).charge v.id) + inflight c.world v.id : Nat) : Int)
        ≤ v.maxConcurrency
  knows : Knows c.world (g t)

section Pools

variable {c : Pool} {g : Nat → Position} {t : Nat} {j : Job} {op : Call}
  {k : op.Ans → Program (Except Err Unit)} {inp : Input}

theorem Inv.toLocal (hI : Inv c g t) (ht : t < c.pool.length) :
    Local (fun W => tallyExcept c.pool.length t (fun u => (g u).charge W))
      (fun W => tallyExcept c.pool.length t (fun u => (g u).seat.counted W)) c.world (g t) where
  charged := by
    intro v hv
    have h := hI.charged v hv
    rw [tally_eq_add ht] at h
    exact h
  counter := by
    intro W
    rw [hI.counter W, tally_eq_add ht]
  knows := hI.knows

theorem Inv.focus {t' : Nat} (hI : Inv c g t) (ht' : (g t').atRest = true) : Inv c g t' :=
  { hI with knows := knows_of_isClosed ((Bool.and_eq_true _ _).mp ht').1 }

theorem dispatches_of_parked (htr : Tracks seating post c g) (hI : Inv c g t) {u : Nat}
    (hu : u < c.pool.length) (hpark : c.parked isYield u = true)
    (hplace : (g u).place = some W) : dispatchesTo c W u = true := by
  obtain ⟨⟨j, prog⟩, hpool⟩ : ∃ th, c.pool[u]? = some th := ⟨_, List.getElem?_eq_getElem hu⟩
  have hnot : (g u).isFree = true → False := by
    intro hfree
    rw [Position.place_of_isFree hfree] at hplace
    cases hplace
  cases prog with
  | ret r => exact absurd (htr.returned hpool) hnot
  | call op k =>
  unfold parked at hpark
  simp only [nextOp_of_pool hpool, Bool.or_eq_true, Bool.not_eq_true'] at hpark
  rcases hpark with hyield | hnone
  · have hnext : ∀ ans, seating.admits (g u) op ans →
        ∃ q', seating.next (g u) op ans = some q' := by
      intro ans hans
      obtain ⟨q', hq', _⟩ := htr.next hpool ans hans
      exact ⟨q', hq'⟩
    rcases Position.at_yield hyield hnext with hfree | ⟨v, req, rfl, _, hv⟩
    · exact absurd hfree hnot
    unfold dispatchesTo
    rw [nextOp_of_pool hpool]
    rw [hplace] at hv
    injection hv with hv
    simp [hv]
  have hfresh := hI.fresh u (fun entry hentry heq =>
    List.any_eq_false.mp hnone entry hentry (by simpa using heq))
  rw [hfresh] at hplace
  cases hplace

/-- With nothing reserved for `W`, the others have charged it only with executions it counts. -/
theorem charge_le_counted (htr : Tracks seating post c g) (hI : Inv c g t)
    (hrest : ∀ u, u ≠ t → (g u).atRest = true) (hpark : c.othersParked isYield t = true)
    (hres : reserved c W = 0) {u : Nat} (hu : u < c.pool.length) (hne : u ≠ t) :
    (g u).charge W ≤ (g u).seat.counted W := by
  have hplace : (g u).place ≠ some W := by
    intro hplace
    have hdisp := dispatches_of_parked htr hI hu (parked_of_othersParked hpark hu hne) hplace
    exact List.countP_eq_zero.mp hres u (List.mem_range.mpr hu) hdisp
  have hreceived : (g u).seat.isReceived = false := by
    have := ((Bool.and_eq_true _ _).mp (hrest u hne)).2
    simpa using this
  cases hseat : (g u).seat <;>
    grind [Position.charge, Seat.charge, Seat.counted, Seat.isReceived]

theorem of_nothingForgotten (hok : nothingForgotten c (.step t inp) = true)
    (hp : c.pool[t]? = some ⟨j, .call op k⟩) :
    c.othersParked isYield t = true
      ∧ (∀ v req, op = .node (.dispatch v req) → inp.outcome v req = .accepted)
      ∧ ∀ v, op = .worker (.upsertWorker v) →
          (roleOf j = .heartbeat → reserved c v.id = 0 ∧ inflight c.world v.id = 0)
            ∧ (roleOf j = .register → reserved c v.id = 0 ∧ inflight c.world v.id = 0
              ∧ c.world.nodes.running v.id = 0) := by
  simp only [nothingForgotten, oneStepAtATime, jobOf_of_pool hp, nextOp_of_pool hp, Option.map_some,
    Bool.and_eq_true] at hok
  obtain ⟨⟨hpark, hout⟩, hrow⟩ := hok
  refine ⟨hpark, ?_, ?_⟩
  · intro v req heq
    subst heq
    cases h : inp.outcome v req with
    | accepted => rfl
    | _ => simp [h] at hout
  intro v heq
  subst heq
  refine ⟨?_, ?_⟩
  · intro hrole
    simpa [hrole] using hrow
  · intro hrole
    simpa [hrole, and_assoc] using hrow

theorem hasMade_called (u : Nat) (φ : Call → Bool) :
    hasMade (c.called execCall t j op k inp) u φ = ((decide (t = u) && φ op) || hasMade c u φ) :=
  rfl

theorem inv_called (htr : Tracks seating post c g) (hI : Inv c g t)
    (hrest : ∀ u, u ≠ t → (g u).atRest = true) (hok : nothingForgotten c (.step t inp) = true)
    (hp : c.pool[t]? = some ⟨j, .call op k⟩) {q' : Position}
    (hq' : seating.next (g t) op (execCall inp op c.world).1 = some q') :
    Inv (c.called execCall t j op k inp) (update g t q') t := by
  have ht : t < c.pool.length := (List.getElem?_eq_some_iff.mp hp).1
  have hlen : (c.called execCall t j op k inp).pool.length = c.pool.length := List.length_set
  have hself : update g t q' t = q' := update_self t q' g
  have hrole : (g t).role = roleOf j := hI.role t j (jobOf_of_pool hp)
  obtain ⟨hpark, hacc, hrow⟩ := of_nothingForgotten hok hp
  have hL := step_exec (hI.toLocal ht) hacc (by
      intro v hv hheart
      obtain ⟨hres, hflight⟩ := (hrow v hv).1 (hrole.symm.trans hheart)
      refine ⟨tallyExcept_le ?_, hflight⟩
      intro u hu hne
      exact charge_le_counted htr hI hrest hpark hres hu hne)
    (by
      intro v hv hreg
      obtain ⟨hres, hflight, hzero⟩ := (hrow v hv).2 (hrole.symm.trans hreg)
      refine ⟨tallyExcept_eq_zero ?_, hflight⟩
      intro u hu hne
      -- the worker's counter is 0, so nobody has a seat
      have hle := charge_le_counted htr hI hrest hpark hres hu hne
      have hcount := hI.counter v.id
      rw [hzero, tally_eq_add ht] at hcount
      have hone := le_tallyExcept (f := fun u => (g u).seat.counted v.id) hu hne
      omega)
    hq'
  obtain ⟨hkeep, hstarted⟩ := next_keeps hI.knows hq'
  refine ⟨?_, ?_, ?_, ?_, ?_, ?_, ?_⟩
  · intro u j' hu
    rw [jobOf_called hp] at hu
    by_cases hut : u = t
    · subst hut
      rw [hself, hkeep]
      exact hI.role u j' hu
    · rw [update_of_ne hut]
      exact hI.role u j' hu
  · intro entry hentry
    rw [hlen]
    rcases List.mem_cons.mp hentry with rfl | hentry
    · exact ht
    · exact hI.logged entry hentry
  · intro u hu
    have hut : u ≠ t := fun heq => hu _ List.mem_cons_self heq.symm
    rw [update_of_ne hut]
    exact hI.fresh u (fun entry hentry => hu entry (.tail _ hentry))
  · intro u W hruns
    unfold runsOn at hruns
    simp only [hasMade_called, Bool.and_eq_true, Bool.not_eq_true', Bool.or_eq_false_iff] at hruns
    obtain ⟨hstart, hexec, hold⟩ := hruns
    by_cases hut : u = t
    · subst hut
      rw [hself]
      simp only [decide_true, Bool.true_and] at hstart hexec
      rcases (Bool.or_eq_true _ _).mp hstart with hnow | hbefore
      · exact started_of_next hnow hq'
      · refine hstarted W (hI.runs u W ?_) hexec
        simp [runsOn, hbefore, hold]
    rw [update_of_ne hut]
    apply hI.runs
    simp only [decide_eq_false (Ne.symm hut), Bool.false_and, Bool.false_or] at hstart
    simp [runsOn, hstart, hold]
  · intro W
    rw [hlen, tally_update (fun q : Position => q.seat.counted W) ht]
    exact hL.counter W
  · intro v hv
    rw [hlen, tally_update (fun q : Position => q.charge v.id) ht]
    exact hL.charged v hv
  · rw [hself]
    exact hL.knows

theorem inv_spawned {url : String} (hI : Inv c g t) (hne : t ≠ c.pool.length) (j : Job) :
    Inv (c.spawned (body url) j) (update g c.pool.length (start j)) t := by
  have hself : update g c.pool.length (start j) c.pool.length = start j :=
    update_self _ _ g
  have hlen : (c.spawned (body url) j).pool.length = c.pool.length + 1 := by
    simp [spawned]
  refine ⟨?_, ?_, ?_, ?_, ?_, ?_, ?_⟩
  · intro u j' hu
    by_cases hun : u = c.pool.length
    · subst hun
      rw [jobOf_spawned_self] at hu
      injection hu with hu
      rw [hself, ← hu]
      rfl
    · rw [update_of_ne hun]
      rw [jobOf_spawned_of_ne hun] at hu
      exact hI.role u j' hu
  · intro entry hentry
    rw [hlen]
    exact Nat.lt_succ_of_lt (hI.logged entry hentry)
  · intro u hu
    by_cases hun : u = c.pool.length
    · subst hun
      rw [hself]
      rfl
    · rw [update_of_ne hun]
      exact hI.fresh u hu
  · intro u W hruns
    by_cases hun : u = c.pool.length
    · -- the new operation has made no call
      subst hun
      obtain ⟨hstart, _⟩ := (Bool.and_eq_true _ _).mp hruns
      obtain ⟨entry, hentry, hu⟩ := List.any_eq_true.mp hstart
      have := hI.logged entry hentry
      simp only [Bool.and_eq_true, decide_eq_true_eq] at hu
      omega
    · rw [update_of_ne hun]
      exact hI.runs u W hruns
  · intro W
    rw [hlen, tally_succ_update (fun q : Position => q.seat.counted W)]
    exact hI.counter W
  · intro v hv
    rw [hlen, tally_succ_update (fun q : Position => q.charge v.id)]
    exact hI.charged v hv
  · rw [update_of_ne hne]
    exact hI.knows

theorem charged_le (htr : Tracks seating post c g) (hI : Inv c g t) (W : String) :
    reserved c W + inflight c.world W + running c W
      ≤ tally c.pool.length (fun u => (g u).charge W) + inflight c.world W := by
  have hplaces : reserved c W
      ≤ tally c.pool.length (fun u => if (g u).place = some W then 1 else 0) := by
    apply countP_le_tally
    intro u hu hdisp
    obtain ⟨⟨j, prog⟩, hpool⟩ : ∃ th, c.pool[u]? = some th := ⟨_, List.getElem?_eq_getElem hu⟩
    unfold dispatchesTo at hdisp
    cases prog with
    | ret r =>
      simp [nextOp, hpool] at hdisp
    | call op k =>
    rw [nextOp_of_pool hpool] at hdisp
    split at hdisp
    next v req hop =>
      cases hop
      obtain ⟨q', hq', _⟩ := htr.next hpool (.ok ()) rfl
      have hq' : (if (g u).atRest ∧ (g u).place = some v.id then some _ else none) = some q' := hq'
      simp only [Option.ite_none_right_eq_some] at hq'
      rw [if_pos (by rw [hq'.1.2, of_decide_eq_true hdisp])]
    next => cases hdisp
  have hseats : running c W ≤ tally c.pool.length (fun u => (g u).seat.charge W) := by
    apply countP_le_tally
    intro u _ hruns
    rw [hI.runs u W hruns]
    simp [Seat.charge]
  have hsum := tally_add c.pool.length (fun u => if (g u).place = some W then 1 else 0)
    (fun u => (g u).seat.charge W)
  have hcharge : tally c.pool.length (fun u => (g u).charge W) = tally c.pool.length
        (fun u => (if (g u).place = some W then 1 else 0) + (g u).seat.charge W) := rfl
  omega

end Pools

/-! ## The maximum. -/

/-- A world before anything is dispatched: loads and maxima are not negative. -/
structure Quiescent (w : World) : Prop where
  inbox : w.nodes.inbox = []
  running : ∀ W, w.nodes.running W = 0
  loads : ∀ v ∈ w.workers.rows, 0 ≤ v.currentLoad ∧ 0 ≤ v.maxConcurrency

/-- **A WORKER NEVER HAS MORE THAN ITS MAXIMUM** of instances reserved for it, on their way to it or
running on it, if heartbeats and registrations are stored only while nothing is on its way. -/
theorem within_maxConcurrency (url : String) {w : World} (hw : Quiescent w) {c : Pool}
    (h : Runs url (fun c l => nothingForgotten c l = true) w c) :
    ∀ v ∈ c.world.workers.rows,
      ((reserved c v.id + inflight c.world v.id + running c v.id : Nat) : Int)
        ≤ v.maxConcurrency := by
  have hinit : ∀ t, Inv (Config.init w) (fun _ => start .retryScan) t := by
    intro t
    refine ⟨?_, fun _ h => absurd h (by simp [Config.init]), fun _ _ => rfl, ?_, hw.running, ?_,
      trivial⟩
    · intro u j hu
      simp [Config.jobOf, Config.init] at hu
    · intro u W hruns
      simp [runsOn, hasMade, Config.init] at hruns
    intro v hv
    have hzero : tally 0 (fun _ => (start .retryScan).charge v.id) + inflight w v.id = 0 := by
      unfold inflight
      rw [hw.inbox]
      rfl
    show ((tally 0 _ + inflight w v.id : Nat) : Int) ≤ _
      ∧ ((tally 0 _ + inflight w v.id : Nat) : Int) ≤ _
    rw [hzero]
    exact hw.loads v hv
  have hrun : ∃ g, Tracks seating post c g
      ∧ (∀ u, (∀ entry ∈ c.log, entry.1 ≠ u) → (g u).atRest = true)
      ∧ ∃ t, Inv c g t ∧ ∀ u, u ≠ t → (g u).atRest = true := by
    refine Reaches.blocks discipline Inv ?_ ?_ ?_ ?_ ?_ ?_ hinit (fun _ => rfl) h
    · intro c t inp hok
      have hok := ((Bool.and_eq_true _ _).mp hok).1
      exact ((Bool.and_eq_true _ _).mp hok).1
    · intro c j hok
      exact follows_body url ((Bool.and_eq_true _ _).mp hok).1
    · intro c g t t' hI _ ht'
      exact hI.focus ht'
    · intro c g t j hI hne _
      exact inv_spawned hI hne j
    · intro c g t j op k inp _ _ _ hok hp
      obtain ⟨_, hacc, _⟩ := of_nothingForgotten hok hp
      cases op with
      | node call =>
        cases call with
        | dispatch v req =>
          rw [exec_dispatch_accepted c.world (hacc v req rfl)]
          rfl
        | _ => trivial
      | _ => trivial
    · intro c g t j op k inp q' htr hI hrest hok hp _ hq'
      exact inv_called htr hI hrest hok hp hq'
  obtain ⟨g, htr, _, t, hI, _⟩ := hrun
  intro v hv
  have hbound := (hI.charged v hv).2
  have hle := charged_le htr hI v.id
  omega

def dueTask (taskID : Int) : Task :=
  { id := taskID, status := .enabled, cronExpr := "* * * * *", nextTriggerTime := 1 }

/-- Two of them and a worker for one instance at a time. -/
def smallWorker : World :=
  World.ofRows .mysql [dueTask 1, dueTask 2] [] []
    [{ id := "w1", status := .online, maxConcurrency := 1 }]

theorem quiescent_smallWorker : Quiescent smallWorker where
  inbox := rfl
  running := fun _ => rfl
  loads := by decide

/-- `handleTask` of a task at time `taskID`, up to its dispatch. -/
def reserveFor (taskID : Int) (thread : Nat) : List PoolStep :=
  .spawn (.handleTask (dueTask taskID)) :: List.replicate 8 (.step thread { now := taskID })

def requestOf (taskID : Int) : ExecuteTaskRequest :=
  TriggerLoop.shardRequest "" (dueTask taskID) 0
    (TriggerLoop.shardInstance (dueTask taskID) 0 taskID taskID)

/-- **A heartbeat between a `Pick` and the start of the execution** resets the load to 0, and the
next `Pick` takes the only place a second time. -/
theorem overbooked_after_heartbeat :
    ∃ c : Pool, Runs "" (fun c l => oneStepAtATime c l = true) smallWorker c
      ∧ ∃ v ∈ c.world.workers.rows, v.maxConcurrency = 1 ∧ reserved c v.id = 2 := by
  have hrun : (runSteps execCall (body "") oneStepAtATime (Config.init smallWorker)
      (reserveFor 1 0 ++ (.spawn (.heartbeat "w1") :: List.replicate 6 (.step 1 {}))
        ++ reserveFor 2 2)).map
        (fun c => decide (∃ v ∈ c.world.workers.rows,
          v.maxConcurrency = 1 ∧ reserved c v.id = 2)) = some true := by
    decide
  obtain ⟨c, h, hp⟩ := exists_reaches_of_runSteps (fun _ _ h => h) hrun
  exact ⟨c, h, of_decide_eq_true hp⟩

/-- The condition at work: a heartbeat once the execution runs. -/
theorem within_maxConcurrency_running :
    ∃ c : Pool, Runs "" (fun c l => nothingForgotten c l = true) smallWorker c ∧ running c "w1" = 1
      ∧ ∀ v ∈ c.world.workers.rows,
          ((reserved c v.id + inflight c.world v.id + running c v.id : Nat) : Int)
            ≤ v.maxConcurrency := by
  have hrun : (runSteps execCall (body "") nothingForgotten (Config.init smallWorker)
      (reserveFor 1 0 ++ List.replicate 3 (.step 0 {})
        ++ .spawn (.execute "w1" (requestOf 1)) :: List.replicate 6 (.step 1 {})
        ++ .spawn (.heartbeat "w1") :: List.replicate 6 (.step 2 {}))).map
        (fun c => decide (running c "w1" = 1)) = some true := by
    decide
  obtain ⟨c, h, hp⟩ := exists_reaches_of_runSteps (fun _ _ h => h) hrun
  exact ⟨c, h, of_decide_eq_true hp, within_maxConcurrency "" quiescent_smallWorker h⟩

end AiScheduler.Capacity
