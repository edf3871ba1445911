/-
  **WHAT `Pick` AND `EvictStaleWorkers` DO TO THE WORKER ROWS**, each run alone.

  Both write WHOLE rows back.  That nothing but the intended fields changes rests
  on `WorkerStore.Built`: a stored row has a heartbeat, so it is not stamped.
-/
import AiScheduler.Proofs.Gate

namespace AiScheduler.WorkerRows

open Lib Gate Prog Router

variable {env : Nat → Input}

/-! ## `Pick`. -/

def reserved (x : WorkerNode) : WorkerNode := { x with currentLoad := x.currentLoad + 1 }

def counted (strategy : RouteStrategy) (m : Memory) : Memory :=
  match strategy with
  | .roundRobin => { m with rrCounter := m.rrCounter + 1 }
  | _ => m

def picked (opts : SelectOptions) (now : Int) (w : World) (x : WorkerNode) : World :=
  { w with
    memory := counted opts.strategy w.memory
    workers := w.workers.upsertWorker w.backend now (reserved x) }

/-- **`Pick`**, run alone: nobody is eligible, or the chosen worker is reserved. -/
theorem run_pick (hno : NoFaults env) (opts : SelectOptions) (w : World) (n : Nat) :
    (chosen (env n).workerScan w opts = none
        ∧ run (execAt env) (pick opts) (w, n) = (.error .noAvailableWorker, (w, n + 1)))
      ∨ ∃ x m, chosen (env n).workerScan w opts = some x
          ∧ run (execAt env) (pick opts) (w, n)
            = (.ok (reserved x), (picked opts (env m).now w x, m + 1)) := by
  have hlist : execAt env (.worker (.listAvailableWorkers opts)) (w, n)
      = (.ok (w.workers.listAvailableWorkers w.backend (env n).workerScan), (w, n + 1)) :=
    execAt_eq (exec_worker w (hno n) _)
  unfold pick
  simp only [ask_bind, run_call, hlist]
  cases hel : filterByLabels (w.workers.listAvailableWorkers w.backend (env n).workerScan)
      opts.labels with
  | nil =>
    left
    refine ⟨?_, rfl⟩
    rw [chosen_eq_none_iff]
    exact hel
  | cons first rest =>
  right
  -- choosing moves at most the round-robin counter
  have hchoose : ∃ x m, chosen (env n).workerScan w opts = some x
      ∧ run (execAt env) (choose opts.strategy first rest) (w, n + 1)
          = (x, ({ w with memory := counted opts.strategy w.memory }, m)) := by
    unfold chosen eligible
    rw [hel]
    cases opts.strategy with
    | roundRobin | leastLoaded | other text => exact ⟨_, _, rfl, rfl⟩
  obtain ⟨x, m, hx, hrun⟩ := hchoose
  refine ⟨x, m, hx, ?_⟩
  simp only
  rw [run_bind, hrun]
  unfold reserve
  simp only [ask_bind, run_call]
  have hupsert : execAt env (.worker (.upsertWorker (reserved x)))
      ({ w with memory := counted opts.strategy w.memory }, m)
        = (.ok (), (picked opts (env m).now w x, m + 1)) :=
    execAt_eq (exec_worker _ (hno m) _)
  rw [show ({ x with currentLoad := x.currentLoad + 1 } : WorkerNode) = reserved x from rfl,
    hupsert]
  rfl

theorem rows_picked {w : World} (hbuilt : w.workers.Built w.backend) {x : WorkerNode}
    (hx : x ∈ w.workers.rows) (opts : SelectOptions) (now : Int) :
    (picked opts now w x).workers.rows
      = w.workers.rows.map (fun y => if y.id = x.id then reserved x else y) := by
  show (w.workers.upsert (storedWorker w.backend now (reserved x))).rows = _
  -- the row comes from the store, so it has a heartbeat and is not stamped again
  rw [storedWorker_of_heartbeat (w := reserved x) (hbuilt.heartbeat x hx) now]
  exact Table.rows_upsert_of_mem hx rfl

/-- **`Pick`, characterised.** -/
theorem pick_exact (hno : NoFaults env) {w : World} (hbuilt : w.workers.Built w.backend)
    (opts : SelectOptions) (n : Nat) :
    let out := Prog.run (execAt env) (Router.pick opts) (w, n)
    ((∃ v, out.1 = .ok v) ↔ ∃ x ∈ w.workers.rows, Router.Eligible opts x)
      ∧ (∀ v, out.1 = .ok v → ∃ x ∈ w.workers.rows, Router.Eligible opts x
          ∧ (opts.strategy ≠ .roundRobin →
              ∀ y ∈ w.workers.rows, Router.Eligible opts y → x.currentLoad ≤ y.currentLoad)
          ∧ v = { x with currentLoad := x.currentLoad + 1 }
          ∧ v.currentLoad ≤ v.maxConcurrency
          ∧ out.2.1.workers.rows = w.workers.rows.map (fun y => if y.id = x.id then v else y)
          ∧ out.2.1.tasks = w.tasks ∧ out.2.1.instances = w.instances)
      ∧ ∀ e, out.1 = .error e → e = .noAvailableWorker ∧ out.2.1 = w := by
  intro out
  rcases run_pick hno opts w n with ⟨hnone, hrun⟩ | ⟨x, m, hsome, hrun⟩
  · -- nobody is eligible
    have hout : out = (.error .noAvailableWorker, (w, n + 1)) := hrun
    have hempty := Router.chosen_eq_none_iff.mp hnone
    rw [hout]
    refine ⟨⟨fun ⟨v, hv⟩ => (by cases hv), ?_⟩, fun v hv => (by cases hv),
      fun e he => ⟨(Except.error.inj he).symm, rfl⟩⟩
    rintro ⟨x, hx, hxe⟩
    have hmem : x ∈ Router.eligible (env n).workerScan w opts := Router.mem_eligible.mpr ⟨hx, hxe⟩
    rw [hempty] at hmem
    cases hmem
  · -- the chosen one is
    have hout : out = (.ok (reserved x), (picked opts (env m).now w x, m + 1)) := hrun
    obtain ⟨hx, hxe⟩ := Router.mem_eligible.mp (Router.chosen_mem hsome)
    rw [hout]
    refine ⟨⟨fun _ => ⟨x, hx, hxe⟩, fun _ => ⟨reserved x, rfl⟩⟩, ?_, fun e he => (by cases he)⟩
    intro v hv
    obtain rfl : reserved x = v := Except.ok.inj hv
    refine ⟨x, hx, hxe, ?_, rfl, ?_, rows_picked hbuilt hx opts _, rfl, rfl⟩
    · intro hs y hy hye
      exact Router.chosen_le hsome hs y (Router.mem_eligible.mpr ⟨hy, hye⟩)
    -- there was room for one more
    have hroom : x.currentLoad < x.maxConcurrency := hxe.2.1
    show x.currentLoad + 1 ≤ x.maxConcurrency
    omega

/-- Two online workers in different zones, the idle one in the other zone. -/
def twoZones : World :=
  World.ofRows .teststore [] [] []
    [{ id := "near", status := .online, labels := "\x7b\"zone\":\"near\"\x7d", maxConcurrency := 2,
       currentLoad := 1, lastHeartbeatAt := 5 },
     { id := "far", status := .online, labels := "\x7b\"zone\":\"far\"\x7d", maxConcurrency := 2,
       lastHeartbeatAt := 5 }]

def nearZone : SelectOptions :=
  { labels := ⟨[("zone", "near")], by simp⟩, strategy := .leastLoaded }

theorem built_twoZones : twoZones.workers.Built twoZones.backend :=
  WorkerStore.built_of_heartbeat _ _ (by decide)

theorem near_worker_picked :
    (∃ v, (Prog.run (execAt (fun _ => {})) (Router.pick nearZone) (twoZones, 0)).1 = .ok v)
      ∧ twoZones.workers.rows.filter (fun x => Router.Eligible nearZone x)
          = twoZones.workers.rows.take 1 :=
  ⟨(pick_exact (fun _ => rfl) built_twoZones nearZone 0).1.mpr (by decide), by decide⟩

/-! ## `EvictStaleWorkers`. -/

/-- Online, and last heard of before the cutoff. -/
def Stale (now timeout : Int) (x : WorkerNode) : Prop :=
  x.status = .online ∧ x.lastHeartbeatAt < Workers.staleCutoff now timeout

instance (now timeout : Int) (x : WorkerNode) : Decidable (Stale now timeout x) :=
  inferInstanceAs (Decidable (_ ∧ _))

def evicted (x : WorkerNode) : WorkerNode := { x with status := .offline, currentLoad := 0 }

theorem listStaleWorkers_perm (s : WorkerStore) (now timeout : Int) :
    (s.listStaleWorkers (Workers.staleCutoff now timeout)).Perm
      (s.rows.filter (fun x => Stale now timeout x)) :=
  List.perm_insertionSort _ _

theorem rows_evicted {b : Backend} {s : WorkerStore} {x : WorkerNode} (hx : x ∈ s.rows)
    (hbeat : ∀ y ∈ s.rows, b = .teststore → y.lastHeartbeatAt ≠ 0) (now : Int) :
    (s.upsertWorker b now (evicted x)).rows = s.rows.map (fun y => if y = x then evicted y else y)
      ∧ ∀ y ∈ (s.upsertWorker b now (evicted x)).rows, b = .teststore → y.lastHeartbeatAt ≠ 0 := by
  have hrows : (s.upsertWorker b now (evicted x)).rows
      = s.rows.map (fun y => if y = x then evicted y else y) := by
    show (s.upsert (storedWorker b now (evicted x))).rows = _
    rw [storedWorker_of_heartbeat (w := evicted x) (hbeat x hx) now,
      Table.rows_upsert_of_mem hx (show x.id = (evicted x).id from rfl)]
    apply List.map_congr_left
    intro y hy
    by_cases hyx : y = x
    · rw [hyx, if_pos (show x.id = (evicted x).id from rfl), if_pos rfl]
    · have hid : y.id ≠ (evicted x).id := fun h => hyx (Table.eq_of_key hy hx h)
      rw [if_neg hid, if_neg hyx]
  refine ⟨hrows, ?_⟩
  rw [hrows]
  intro y hy
  obtain ⟨z, hz, rfl⟩ := List.mem_map.mp hy
  split <;> exact hbeat z hz

/-- **The loop of `EvictStaleWorkers`** evicts the first `k` workers, up to a failed write. -/
theorem run_evictWorkers : ∀ (ws : List WorkerNode) (w : World) (n count : Nat),
    (∀ x ∈ ws, x ∈ w.workers.rows) → ws.Nodup →
    (∀ y ∈ w.workers.rows, w.backend = .teststore → y.lastHeartbeatAt ≠ 0) →
    ∃ k err s m, run (execAt env) (Workers.evictWorkers ws count) (w, n)
        = ((count + k, err), ({ w with workers := s }, m))
      ∧ s.rows = w.workers.rows.map (fun y => if y ∈ ws.take k then evicted y else y)
      ∧ (∀ j < k, (env (n + j)).fault = none)
      ∧ ((k = ws.length ∧ err = none)
          ∨ k < ws.length ∧ ∃ text, (env (n + k)).fault = some text ∧ err = some (.text text)) := by
  intro ws
  induction ws with
  | nil =>
    intro w n count _ _ _
    exact ⟨0, none, w.workers, n, rfl, by simp, by omega, .inl ⟨rfl, rfl⟩⟩
  | cons x xs ih =>
  intro w n count hmem hnodup hbeat
  obtain ⟨hxs, hnodup⟩ := List.nodup_cons.mp hnodup
  have hx : x ∈ w.workers.rows := hmem x List.mem_cons_self
  unfold Workers.evictWorkers
  simp only [ask_bind, run_call]
  cases hf : (env n).fault with
  | some text =>
    -- this write fails: nothing changes and the loop ends
    have hexec : execAt env (.worker (.upsertWorker
        { x with status := .offline, currentLoad := 0 })) (w, n)
          = (.error (.text text), (w, n + 1)) := by
      simp only [execAt, Call.exec, hf]
    rw [hexec]
    exact ⟨0, some (.text text), w.workers, n + 1, rfl, by simp, by omega,
      .inr ⟨by simp, text, hf, rfl⟩⟩
  | none =>
  obtain ⟨hrows, hbeat'⟩ := rows_evicted (b := w.backend) hx hbeat (env n).now
  have hexec : execAt env (.worker (.upsertWorker
      { x with status := .offline, currentLoad := 0 })) (w, n)
        = (.ok (), ({ w with
            workers := w.workers.upsertWorker w.backend (env n).now (evicted x) }, n + 1)) :=
    execAt_eq (exec_worker w hf _)
  rw [hexec]
  -- the others are still there as they were read
  have hmem' : ∀ y ∈ xs, y ∈ (w.workers.upsertWorker w.backend (env n).now (evicted x)).rows := by
    intro y hy
    have hne : y ≠ x := fun h => hxs (h ▸ hy)
    rw [hrows, List.mem_map]
    exact ⟨y, hmem y (.tail _ hy), if_neg hne⟩
  obtain ⟨k, err, s, m, hrun, hs, hfree, hend⟩ :=
    ih { w with workers := w.workers.upsertWorker w.backend (env n).now (evicted x) }
      (n + 1) (count + 1) hmem' hnodup hbeat'
  refine ⟨k + 1, err, s, m, ?_, ?_, ?_, ?_⟩
  · refine Eq.trans hrun ?_
    rw [show count + 1 + k = count + (k + 1) by omega]
  · rw [hs, hrows, List.map_map]
    apply List.map_congr_left
    intro y _
    show (if (if y = x then evicted y else y) ∈ xs.take k then
        evicted (if y = x then evicted y else y) else (if y = x then evicted y else y))
      = if y ∈ (x :: xs).take (k + 1) then evicted y else y
    rw [List.take_succ_cons]
    -- evicting a row twice is evicting it once
    grind [evicted]
  · intro j hj
    cases j with
    | zero => exact hf
    | succ j =>
      rw [show n + (j + 1) = n + 1 + j by omega]
      exact hfree j (by omega)
  · rw [show n + (k + 1) = n + 1 + k by omega]
    grind

/-- **`EvictStaleWorkers`** evicts some of the stale workers, all if no write fails. -/
theorem run_evictStaleWorkers {w : World} (hbuilt : w.workers.Built w.backend) (timeout : Int)
    {n : Nat} (hquery : (env (n + 1)).fault = none) :
    ∃ (done : List WorkerNode) (k : Nat) (err : Option Err) (s : WorkerStore) (m : Nat),
      run (execAt env) (Workers.evictStaleWorkers timeout) (w, n)
          = ((k, err), ({ w with workers := s }, m))
      ∧ done.Nodup ∧ done.length = k
      ∧ (∀ x ∈ done, x ∈ w.workers.rows ∧ Stale (env n).now timeout x)
      ∧ s.rows = w.workers.rows.map (fun y => if y ∈ done then evicted y else y)
      ∧ (∀ j < k, (env (n + 2 + j)).fault = none)
      ∧ ((k = w.workers.rows.countP (fun x => Stale (env n).now timeout x) ∧ err = none
            ∧ ∀ x ∈ w.workers.rows, Stale (env n).now timeout x → x ∈ done)
          ∨ k < w.workers.rows.countP (fun x => Stale (env n).now timeout x)
            ∧ ∃ text, (env (n + 2 + k)).fault = some text ∧ err = some (.text text)) := by
  have hperm := listStaleWorkers_perm w.workers (env n).now timeout
  have hmem : ∀ x, x ∈ w.workers.listStaleWorkers (Workers.staleCutoff (env n).now timeout)
      ↔ x ∈ w.workers.rows ∧ Stale (env n).now timeout x := by
    intro x
    rw [hperm.mem_iff, List.mem_filter, decide_eq_true_iff]
  have hlen : (w.workers.listStaleWorkers (Workers.staleCutoff (env n).now timeout)).length
      = w.workers.rows.countP (fun x => Stale (env n).now timeout x) := by
    rw [hperm.length_eq, ← List.countP_eq_length_filter]
  have hnodup : (w.workers.listStaleWorkers (Workers.staleCutoff (env n).now timeout)).Nodup :=
    hperm.nodup_iff.mpr ((w.workers.nodup.of_map WorkerNode.id).filter _)
  have hexec : execAt env (.worker (.listStaleWorkers (Workers.staleCutoff (env n).now timeout)))
    (w, n + 1)
      = (.ok (w.workers.listStaleWorkers (Workers.staleCutoff (env n).now timeout)), (w, n + 2)) :=
    execAt_eq (exec_worker w hquery _)
  obtain ⟨k, err, s, m, hrun, hs, hfree, hend⟩ :=
    @run_evictWorkers env (w.workers.listStaleWorkers (Workers.staleCutoff (env n).now timeout)) w
      (n + 2) 0
      (fun x hx => ((hmem x).mp hx).1) hnodup hbuilt.heartbeat
  have hk : k ≤ (w.workers.listStaleWorkers (Workers.staleCutoff (env n).now timeout)).length := by
    rcases hend with ⟨hk, _⟩ | ⟨hk, _⟩
    · exact Nat.le_of_eq hk
    · exact Nat.le_of_lt hk
  refine ⟨(w.workers.listStaleWorkers (Workers.staleCutoff (env n).now timeout)).take k,
    k, err, s, m, ?_,
    hnodup.sublist (List.take_sublist _ _), List.length_take_of_le hk, ?_, hs, hfree, ?_⟩
  · show run (execAt env) _ ((w, n)) = _
    unfold Workers.evictStaleWorkers
    simp only [ask_bind, run_call]
    rw [show execAt env (.memory .now) (w, n) = ((env n).now, (w, n + 1)) from rfl, hexec]
    rw [Nat.zero_add] at hrun
    exact hrun
  · intro x hx
    exact (hmem x).mp (List.mem_of_mem_take hx)
  rcases hend with ⟨hk, herr⟩ | ⟨hk, htext⟩
  · refine .inl ⟨hk.trans hlen, herr, fun x hx hstale => ?_⟩
    rw [hk, List.take_length]
    exact (hmem x).mpr ⟨hx, hstale⟩
  · exact .inr ⟨hlen ▸ hk, htext⟩

theorem run_evictStaleWorkers_of_none (hno : NoFaults env) {w : World}
    (hbuilt : w.workers.Built w.backend) {timeout : Int} {n : Nat}
    (hnone : ∀ x ∈ w.workers.rows, ¬ Stale (env n).now timeout x) :
    (run (execAt env) (Workers.evictStaleWorkers timeout) (w, n)).1 = (0, none)
      ∧ (run (execAt env) (Workers.evictStaleWorkers timeout) (w, n)).2.1 = w := by
  have hcount : w.workers.rows.countP (fun x => Stale (env n).now timeout x) = 0 := by
    rw [List.countP_eq_zero]
    intro x hx
    rw [decide_eq_true_iff]
    exact hnone x hx
  obtain ⟨done, k, err, s, m, hrun, _, hlen, _, hs, _, hend⟩ :=
    run_evictStaleWorkers hbuilt timeout (hno (n + 1))
  rw [hcount] at hend
  rcases hend with ⟨rfl, rfl, _⟩ | ⟨hk, _⟩
  · have hdone : done = [] := List.length_eq_zero_iff.mp hlen
    have hsame : s = w.workers := by
      apply Table.ext
      rw [hs, hdone]
      simp
    rw [hrun, hsame]
    exact ⟨rfl, rfl⟩
  · omega

/-- **`EvictStaleWorkers`, characterised**: without faults exactly the stale workers go offline, and
a second pass finds nobody; if the write after `k` others fails, those `k` are evicted. -/
theorem evict_exact {w : World} (hbuilt : w.workers.Built w.backend) (timeout : Int) (n : Nat) :
    let out := Prog.run (execAt env) (Workers.evictStaleWorkers timeout) (w, n)
    let stale := fun x => Stale (env n).now timeout x
    (NoFaults env → out.1 = (w.workers.rows.countP (fun x => stale x), none)
        ∧ out.2.1.workers.rows = w.workers.rows.map (fun x =>
            if stale x then { x with status := .offline, currentLoad := 0 } else x)
        ∧ out.2.1.tasks = w.tasks ∧ out.2.1.instances = w.instances
        ∧ ∀ (env' : Nat → Input) (m : Nat), NoFaults env' → (env' m).now = (env n).now →
            (Prog.run (execAt env') (Workers.evictStaleWorkers timeout) (out.2.1, m)).1 = (0, none)
            ∧ (Prog.run (execAt env') (Workers.evictStaleWorkers timeout) (out.2.1, m)).2.1
                = out.2.1)
      ∧ ∀ (k : Nat) (text : String), (env (n + 1)).fault = none →
          (∀ j < k, (env (n + 2 + j)).fault = none) → (env (n + 2 + k)).fault = some text →
          k < w.workers.rows.countP (fun x => stale x) →
          out.1 = (k, some (.text text))
          ∧ (∃ done : List WorkerNode, done.Nodup ∧ done.length = k
              ∧ (∀ x ∈ done, x ∈ w.workers.rows ∧ stale x)
              ∧ out.2.1.workers.rows = w.workers.rows.map (fun x =>
                  if x ∈ done then { x with status := .offline, currentLoad := 0 } else x))
          ∧ out.2.1.tasks = w.tasks ∧ out.2.1.instances = w.instances := by
  intro out stale
  constructor
  · intro hno
    obtain ⟨done, k, err, s, m, hrun, _, hlen, hdone, hs, _, hend⟩ :=
      run_evictStaleWorkers hbuilt timeout (hno (n + 1))
    have hout : out = ((k, err), ({ w with workers := s }, m)) := hrun
    rcases hend with ⟨hk, herr, hall⟩ | ⟨_, text, htext, _⟩
    · have hrows : s.rows = w.workers.rows.map (fun x => if stale x then evicted x else x) := by
        rw [hs]
        exact List.map_congr_left (by grind)
      rw [hout]
      refine ⟨by rw [hk, herr], hrows, rfl, rfl, ?_⟩
      intro env' m' hno' hnow
      -- an evicted worker is not online, the others were not stale
      have hnone : ∀ x ∈ s.rows, ¬ Stale (env' m').now timeout x := by
        intro x hx
        rw [hrows] at hx
        obtain ⟨y, hy, rfl⟩ := List.mem_map.mp hx
        rw [hnow]
        split
        next => exact fun h => absurd h.1 (by simp [evicted])
        next hst => exact hst
      have hbuilt' : s.Built w.backend := by
        apply WorkerStore.built_of_heartbeat s.rows s.nodup
        intro x hx
        rw [hrows] at hx
        obtain ⟨y, hy, rfl⟩ := List.mem_map.mp hx
        split <;> exact hbuilt.heartbeat y hy
      exact run_evictStaleWorkers_of_none (w := { w with workers := s }) hno' hbuilt' hnone
    · rw [hno] at htext
      cases htext
  · intro k text hquery hfree hfault hk
    obtain ⟨done, k', err, s, m, hrun, hnodup, hlen, hdone, hs, hfree', hend⟩ :=
      run_evictStaleWorkers hbuilt timeout hquery
    have hout : out = ((k', err), ({ w with workers := s }, m)) := hrun
    -- the loop got as far as the fault and no further
    have hle : ¬ k < k' := fun hlt => nomatch hfault.symm.trans (hfree' k hlt)
    rcases hend with ⟨hk', _⟩ | ⟨_, text', htext', herr⟩
    · exact absurd (Nat.lt_of_lt_of_eq hk hk'.symm) hle
    have hge : ¬ k' < k := fun hlt => nomatch htext'.symm.trans (hfree k' hlt)
    obtain rfl : k' = k := by omega
    rw [hfault] at htext'
    rw [hout, herr, Option.some.inj htext']
    exact ⟨rfl, ⟨done, hnodup, hlen, hdone, hs⟩, rfl, rfl⟩

def twoSilent : World :=
  World.ofRows .teststore [] [] []
    [{ id := "a", status := .online, maxConcurrency := 2, currentLoad := 1, lastHeartbeatAt := 5 },
     { id := "b", status := .online, maxConcurrency := 2, currentLoad := 1, lastHeartbeatAt := 95 },
     { id := "c", status := .online, maxConcurrency := 2, currentLoad := 1, lastHeartbeatAt := 7 }]

theorem built_twoSilent : twoSilent.workers.Built twoSilent.backend :=
  WorkerStore.built_of_heartbeat _ _ (by decide)

/-- At the time 100, with a write that fails on the second eviction. -/
def secondWriteFails (n : Nat) : Input :=
  { now := 100, fault := if n = 3 then some "connection lost" else none }

theorem silent_workers_evicted :
    (Prog.run (execAt (fun _ => { now := 100 })) (Workers.evictStaleWorkers 30) (twoSilent, 0)).1
        = (2, none)
      ∧ (Prog.run (execAt secondWriteFails) (Workers.evictStaleWorkers 30) (twoSilent, 0)).1
        = (1, some (.text "connection lost")) :=
  ⟨((evict_exact built_twoSilent 30 0).1 (fun _ => rfl)).1.trans (by decide),
    ((evict_exact built_twoSilent 30 0).2 1 "connection lost" rfl (by decide) rfl (by decide)).1⟩

end AiScheduler.WorkerRows
