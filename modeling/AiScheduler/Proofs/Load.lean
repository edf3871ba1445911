/-
  **A WORKER'S STORED LOAD IS THE NUMBER OF ITS ACTIVE INSTANCES — as long as loads are released for
  what they were raised for.**

  `Balanced` is the equation, off by one for the worker the running block is indebted to. The block
  rule of `Lib.Blocks` carries it along a run.
-/
import AiScheduler.Proofs.Reserving

namespace AiScheduler.Load

open Lib Function Table

variable {r : TaskInstance} {ph : Phase} {id time : Int} {workerID sid code msg : String}
  {status : InstanceStatus}

/-! ## Active instances. -/

def activeOn (s : InstanceStore) (workerID : String) : Int :=
  (s.instances.rows.countP (fun r => isActive r && r.workerID = workerID) : Nat)

def onWorker (r : TaskInstance) (workerID : String) : Int :=
  if isActive r = true ∧ r.workerID = workerID then 1 else 0

theorem onWorker_of_inactive (h : isActive r = false) (workerID : String) :
    onWorker r workerID = 0 := by
  unfold onWorker
  rw [if_neg (by simp [h])]

theorem onWorker_of_active (h : isActive r = true) (workerID : String) :
    onWorker r workerID = if r.workerID = workerID then 1 else 0 := by
  simp [onWorker, h]

section Counting

variable {s : InstanceStore} {p : TaskInstance → Bool} {f : TaskInstance → TaskInstance}
  {hf : ∀ i, (f i).id = i.id}

theorem activeOn_rewrite_one (hr : r ∈ s.instances.rows)
    (hp : ∀ x ∈ s.instances.rows, p x = true ↔ x = r) (workerID : String) :
    activeOn (s.rewrite p f hf) workerID
      = activeOn s workerID - onWorker r workerID + onWorker (f r) workerID := by
  let φ : TaskInstance → Bool := fun r => isActive r && r.workerID = workerID
  have hcount : (s.instances.modify p f hf).rows.countP φ + (if φ r then 1 else 0)
      = s.instances.rows.countP φ + (if φ (f r) then 1 else 0) :=
    countP_modify_one hr hp φ
  have hind : ∀ x : TaskInstance, onWorker x workerID = ((if φ x then 1 else 0 : Nat) : Int) := by
    intro x
    unfold onWorker
    simp only [φ, Bool.and_eq_true, decide_eq_true_eq]
    split <;> rfl
  rw [hind, hind]
  show (((s.instances.modify p f hf).rows.countP φ : Nat) : Int)
    = ((s.instances.rows.countP φ : Nat) : Int) - _ + _
  omega

theorem activeOn_rewrite_same
    (h : ∀ r ∈ s.instances.rows, p r = true → ∀ workerID, onWorker (f r) workerID
      = onWorker r workerID) (workerID : String) :
    activeOn (s.rewrite p f hf) workerID = activeOn s workerID := by
  have hind : ∀ x : TaskInstance, (isActive x && decide (x.workerID = workerID)) = true
      ↔ onWorker x workerID = 1 := by
    intro x
    unfold onWorker
    simp
  have hcount : (s.instances.modify p f hf).rows.countP
        (fun r => isActive r && r.workerID = workerID)
      = s.instances.rows.countP (fun r => isActive r && r.workerID = workerID) := by
    apply countP_modify_of_same
    intro r hr hpr
    rw [Bool.eq_iff_iff, hind, hind, h r hr hpr]
  exact congrArg Int.ofNat hcount

theorem activeOn_insert {b : Backend} {now : Int} {i : TaskInstance} (hi : isActive i = false)
    (workerID : String) : activeOn (s.insert b now i) workerID = activeOn s workerID := by
  have hnew : isActive (s.newRow b now i) = false := by
    unfold isActive at hi ⊢
    rw [InstanceStore.newRow_status]
    exact hi
  have hcount := countP_insertNew (T := s.instances) (r := s.newRow b now i) (h := fun r hr => by
      have := s.fresh r hr
      rw [InstanceStore.newRow_id]
      omega)
    (fun r => isActive r && r.workerID = workerID)
  simp only [hnew, Bool.false_and, Bool.false_eq_true, if_false, Nat.add_zero] at hcount
  exact congrArg Int.ofNat hcount

end Counting

/-! ## Balanced loads. -/

/-- **Every stored worker's load is the number of its active instances**, plus one if in debt. -/
def Balanced (s : InstanceStore) (ws : WorkerStore) (debt : Option String) : Prop :=
  ∀ w ∈ ws.rows, w.currentLoad = activeOn s w.id + if debt = some w.id then 1 else 0

section Balance

variable {s s' : InstanceStore} {ws : WorkerStore} {debt debt' : Option String}

theorem Balanced.of_activeOn (h : Balanced s ws debt)
    (hsame : ∀ workerID, activeOn s' workerID = activeOn s workerID) : Balanced s' ws debt := by
  intro w hw
  rw [hsame]
  exact h w hw

theorem Balanced.rewrite_one (h : Balanced s ws debt) {p : TaskInstance → Bool}
    {f : TaskInstance → TaskInstance} {hf : ∀ i, (f i).id = i.id}
    (hr : r ∈ s.instances.rows) (hp : ∀ x ∈ s.instances.rows, p x = true ↔ x = r)
    (hdebt : ∀ workerID, (if debt = some workerID then 1 else 0) + onWorker r workerID
      = (if debt' = some workerID then 1 else 0) + onWorker (f r) workerID) :
    Balanced (s.rewrite p f hf) ws debt' := by
  intro w hw
  have hload := h w hw
  have hmoved := hdebt w.id
  rw [activeOn_rewrite_one hr hp]
  omega

theorem Balanced.reserve (h : Balanced s ws none) {best : WorkerNode}
    (hbest : ws.get? best.id = some best) (b : Backend) (now : Int) :
    Balanced s (ws.upsertWorker b now { best with currentLoad := best.currentLoad + 1 })
      (some best.id) := by
  have hload := h best (get?_some hbest).1
  simp only [reduceCtorEq, if_false] at hload
  intro w hw
  rcases mem_upsert.mp hw with rfl | ⟨hw, hne⟩
  · simp only [storedWorker_id, storedWorker_currentLoad, if_true]
    omega
  · rw [storedWorker_id] at hne
    rw [if_neg (by simpa using Ne.symm hne)]
    exact h w hw

/-- A row with `w`'s load is stored under `w`'s id. -/
def Loaded (ws : WorkerStore) (w : WorkerNode) : Prop :=
  ∃ w', ws.get? w.id = some w' ∧ w'.currentLoad = w.currentLoad

theorem Balanced.release {w : WorkerNode} (h : Balanced s ws (some w.id)) (hw : Loaded ws w)
    (b : Backend) (now : Int) :
    Balanced s (ws.upsertWorker b now (Router.released w)) none := by
  obtain ⟨w', hget, hsame⟩ := hw
  obtain ⟨hmem, hid⟩ := get?_some hget
  have hload := h w' hmem
  rw [hid, if_pos rfl, hsame] at hload
  have hcount : 0 ≤ activeOn s w.id := by
    unfold activeOn
    omega
  have hreleased : Router.released w = { w with currentLoad := w.currentLoad - 1 } := by
    unfold Router.released
    rw [if_pos (by omega)]
  rw [hreleased]
  intro v hv
  rcases mem_upsert.mp hv with rfl | ⟨hv, hne⟩
  · simp only [storedWorker_id, storedWorker_currentLoad, reduceCtorEq, if_false]
    omega
  rw [storedWorker_id] at hne
  have hload := h v hv
  rw [if_neg (by simpa using Ne.symm hne)] at hload
  simpa using hload

end Balance

/-! ## What an operation knows. -/

def Stored (s : InstanceStore) (p : Int × String) : Prop :=
  ∃ r, s.instances.get? p.1 = some r ∧ r.scheduleInstanceID = p.2

/-- The instance is stored, not active and not waiting for the retry loop. -/
def Quiet (s : InstanceStore) (id : Int) : Prop :=
  ∃ r, s.instances.get? id = some r ∧ isActive r = false ∧ r.status ≠ .retryWaiting

/-- What the phase of a running block promises. -/
def Knows (s : InstanceStore) (ws : WorkerStore) (q : Position) : Prop :=
  match q.phase with
  | .listed all => ∀ w ∈ all, ws.get? w.id = some w
  | .failed id sid w => (id, sid) ∈ q.held ∧ Loaded ws w
      ∧ ∃ r, s.instances.get? id = some r ∧ r.scheduleInstanceID = sid
          ∧ isActive r = true ∧ r.workerID = w.id
  | .cleaned w => Loaded ws w
  | .read sid i => ∃ r ∈ s.instances.rows, r.scheduleInstanceID = sid ∧ r.workerID = i.workerID
  | .settled workerID => ∃ w, ws.get? workerID = some w
  | .loaded w => ws.get? w.id = some w
  | _ => True

theorem knows_of_rest {s : InstanceStore} {ws : WorkerStore} {q : Position} (h : q.phase.Rest) :
    Knows s ws q := by
  unfold Knows
  unfold Phase.Rest at h
  grind

theorem debt_of_rest (h : ph.Rest) : ph.debt = none := by
  unfold Phase.Rest at h
  grind [Phase.debt]

/-- The stores as the running block sees them. -/
structure Local (s : InstanceStore) (ws : WorkerStore) (q : Position) : Prop where
  distinct : s.SchedulesDistinct
  held : ∀ p ∈ q.held, Stored s p
  own : ∀ id, q.own = some id → Quiet s id ∧ id ∈ q.held.map Prod.fst
  balanced : Balanced s ws q.phase.debt
  knows : Knows s ws q

/-- What one call does to what OTHERS hold. -/
structure Effect (s s' : InstanceStore) (q q' : Position) : Prop where
  role : q'.role = q.role
  kept : ∀ p, Stored s p → Stored s' p
  /-- A quiet row it does not hold stays quiet. -/
  quiet : ∀ id, Quiet s id → id ∉ q.held.map Prod.fst → Quiet s' id
  /-- It takes hold of no quiet row. -/
  held : ∀ p ∈ q'.held, p ∈ q.held ∨ ¬ Quiet s p.1
  own : ∀ id, q'.own = some id → q.own = some id ∨ s.instances.get? id = none

theorem effect_same {s : InstanceStore} {q q' : Position} (hrole : q'.role = q.role)
    (hheld : q'.held = q.held) (hown : q'.own = q.own) : Effect s s q q' where
  role := hrole
  kept := fun _ h => h
  quiet := fun _ h _ => h
  held := fun p hp => .inl (by rw [← hheld]; exact hp)
  own := fun id h => .inl (by rw [← hown]; exact h)

theorem step_phase {s : InstanceStore} {ws ws' : WorkerStore} {q : Position} (hL : Local s ws q)
    (hbal : Balanced s ws' ph.debt) (hknows : Knows s ws' { q with phase := ph }) :
    Local s ws' { q with phase := ph } ∧ Effect s s q { q with phase := ph } :=
  ⟨⟨hL.distinct, hL.held, hL.own, hbal, hknows⟩, effect_same rfl rfl rfl⟩

theorem step_rewrite {s : InstanceStore} {ws : WorkerStore} {q q' : Position} (hL : Local s ws q)
    {p : TaskInstance → Bool} {f : TaskInstance → TaskInstance} {hf : ∀ i, (f i).id = i.id}
    (hsid : ∀ i, (f i).scheduleInstanceID = i.scheduleInstanceID) (hrole : q'.role = q.role)
    (hheld : q'.held = q.held) (hown : ∀ id, q'.own = some id → q.own = some id)
    (hquiet : ∀ r ∈ s.instances.rows, p r = true → isActive r = false → r.status ≠ .retryWaiting →
      (q'.own = some r.id ∨ r.id ∉ q.held.map Prod.fst) →
      isActive (f r) = false ∧ (f r).status ≠ .retryWaiting)
    (hbal : Balanced (s.rewrite p f hf) ws q'.phase.debt)
    (hknows : Knows (s.rewrite p f hf) ws q') :
    Local (s.rewrite p f hf) ws q' ∧ Effect s (s.rewrite p f hf) q q' := by
  have hget : ∀ id r, s.instances.get? id = some r →
      (s.rewrite p f hf).instances.get? id = some (if p r then f r else r) :=
    fun _ _ => InstanceStore.get?_rewrite_of_some
  have hkept : ∀ pair, Stored s pair → Stored (s.rewrite p f hf) pair := by
    grind [Stored]
  have hstays : ∀ id, Quiet s id → (q'.own = some id ∨ id ∉ q.held.map Prod.fst) →
      Quiet (s.rewrite p f hf) id := by
    rintro id ⟨r, hr, hidle, hwait⟩ hid
    obtain ⟨hmem, rfl⟩ := get?_some hr
    refine ⟨_, hget _ r hr, ?_⟩
    grind
  have hlheld := hL.held
  have hlown := hL.own
  refine ⟨⟨hL.distinct.rewrite hsid, ?_, ?_, hbal, hknows⟩, ⟨hrole, hkept, ?_, ?_, ?_⟩⟩ <;> grind

/-! ## Calls one by one. -/

section Calls

variable {s : InstanceStore} {ws : WorkerStore} {q q' : Position} {b : Backend} {now : Int}

variable {i : TaskInstance} {ans : Except Err Unit}

theorem id_iff (hr : s.instances.get? id = some r) :
    ∀ x ∈ s.instances.rows, decide (x.id = id) = true ↔ x = r := by
  obtain ⟨hmem, hid⟩ := get?_some hr
  intro x hx
  rw [decide_eq_true_eq]
  constructor
  · intro h
    exact eq_of_key hx hmem (h.trans hid.symm)
  · intro h
    rw [h]
    exact hid

theorem addressed_iff (hd : s.SchedulesDistinct) (hr : r ∈ s.instances.rows) :
    ∀ x ∈ s.instances.rows, s.addressed b r.scheduleInstanceID x = true ↔ x = r := by
  intro x hx
  rw [InstanceStore.addressed_of_distinct hd hx, decide_eq_true_eq]
  constructor
  · intro h
    exact hd x hx r hr h
  · intro h
    rw [h]

theorem step_createInstance (hL : Local s ws q)
    (hnew : b = .mysql ∨ ∀ r ∈ s.instances.rows, r.scheduleInstanceID ≠ i.scheduleInstanceID)
    (hq' : q.onInstance (.createInstance i) (s.createInstance b now i).1 = some q') :
    Local (s.createInstance b now i).2 ws q' ∧ Effect s (s.createInstance b now i).2 q q' := by
  obtain ⟨hphase, hstatus, rfl⟩ : q.phase = .idle ∧ (i.status = .pending ∨ i.status = .retryWaiting)
      ∧ q.afterCreate i.status (s.createInstance b now i).1 = q' := by
    unfold Position.onInstance at hq'
    grind
  have hidle : isActive i = false := by
    unfold isActive
    rcases hstatus with h | h <;> simp [h]
  by_cases hdup : b = .mysql ∧ (s.bySchedule .mysql i.scheduleInstanceID).isSome
  · have hcreate : s.createInstance b now i = (_, s) := if_pos hdup
    rw [hcreate]
    exact ⟨hL, effect_same rfl rfl rfl⟩
  have hcreate : s.createInstance b now i
      = (.ok (readInstance b (s.newRow b now i)), s.insert b now i) := if_neg hdup
  have hfresh : ∀ r ∈ s.instances.rows, r.scheduleInstanceID ≠ i.scheduleInstanceID := by
    rcases hnew with hb | hall
    · apply InstanceStore.bySchedule_none (b := .mysql)
      exact Option.not_isSome_iff_eq_none.mp (fun h => hdup ⟨hb, h⟩)
    · exact hall
  rw [hcreate]
  have hrow : (s.insert b now i).instances.get? s.nextID = some (s.newRow b now i) := by
    rw [InstanceStore.get?_insert, if_pos rfl]
  have hold : ∀ id r, s.instances.get? id = some r →
      (s.insert b now i).instances.get? id = some r := by
    intro id r hr
    have := InstanceStore.lt_nextID hr
    rw [InstanceStore.get?_insert, if_neg (by omega)]
    exact hr
  have hnone := InstanceStore.get?_nextID s
  have hheld := hL.held
  have hown := hL.own
  refine ⟨⟨hL.distinct.insert hfresh, ?_, ?_, hL.balanced.of_activeOn (activeOn_insert hidle), ?_⟩,
    ⟨rfl, ?_, ?_, ?_, ?_⟩⟩
  · simp only [Position.afterCreate]
    grind [Stored, readInstance_scheduleInstanceID, InstanceStore.newRow_scheduleInstanceID,
      readInstance_id, InstanceStore.newRow_id]
  · simp only [Position.afterCreate]
    grind [Quiet, isActive, InstanceStore.newRow_status, readInstance_id, InstanceStore.newRow_id]
  · apply knows_of_rest
    show q.phase.Rest
    rw [hphase]
    trivial
  · grind [Stored]
  · grind [Quiet]
  · simp only [Position.afterCreate]
    grind [Quiet, readInstance_id, InstanceStore.newRow_id]
  · simp only [Position.afterCreate]
    grind [readInstance_id, InstanceStore.newRow_id]

/-- Marking needs a reserved worker and an instance of one's own, or one that was read. -/
theorem onInstance_dispatch_cases
    (h : q.onInstance (.updateInstanceDispatch id workerID time) ans = some q') :
    ∃ w, q.phase = .reserved w ∧ workerID = w.id
      ∧ q' = { q with phase := .marked id w, own := none }
      ∧ ((q.role = .retryLoop ∧ id ∈ q.held.map Prod.fst) ∨ q.own = some id) := by
  unfold Position.onInstance at h
  grind

/-- An instance that the operation holds is rewritten, and is no longer its own. -/
theorem step_held (hL : Local s ws q) (hr : s.instances.get? id = some r)
    (hheld : id ∈ q.held.map Prod.fst) (ph : Phase) (f : TaskInstance → TaskInstance)
    (hf : ∀ i, (f i).id = i.id) (hsid : ∀ i, (f i).scheduleInstanceID = i.scheduleInstanceID)
    (hdebt : ∀ W, (if q.phase.debt = some W then 1 else 0) + onWorker r W
      = (if ph.debt = some W then 1 else 0) + onWorker (f r) W)
    (hknows : ∀ s', Knows s' ws { q with phase := ph, own := none }) :
    Local (s.updateByID b id f hf).2 ws { q with phase := ph, own := none }
      ∧ Effect s (s.updateByID b id f hf).2 q { q with phase := ph, own := none } := by
  rw [InstanceStore.updateByID_of_get? hr f hf]
  refine step_rewrite hL hsid rfl rfl (by simp) ?_
    (hL.balanced.rewrite_one (get?_some hr).1 (id_iff hr) hdebt) (hknows _)
  grind

theorem step_updateInstanceDispatch (hL : Local s ws q)
    (hinactive : q.role = .retryLoop → ∀ r ∈ s.instances.rows, r.id = id → isActive r = false)
    (hq' : q.onInstance (.updateInstanceDispatch id workerID time)
      (s.updateInstanceDispatch b now id workerID time).1 = some q') :
    Local (s.updateInstanceDispatch b now id workerID time).2 ws q'
      ∧ Effect s (s.updateInstanceDispatch b now id workerID time).2 q q' := by
  obtain ⟨w, hphase, rfl, rfl, hid⟩ := onInstance_dispatch_cases hq'
  obtain ⟨r, hr, hidle, hheld⟩ : ∃ r, s.instances.get? id = some r ∧ isActive r = false
      ∧ id ∈ q.held.map Prod.fst := by
    rcases hid with ⟨hrole, hheld⟩ | hown
    · obtain ⟨pair, hpair, rfl⟩ := List.mem_map.mp hheld
      obtain ⟨r, hr, _⟩ := hL.held pair hpair
      obtain ⟨hmem, hrid⟩ := get?_some hr
      exact ⟨r, hr, hinactive hrole r hmem hrid, hheld⟩
    · obtain ⟨⟨r, hr, hidle, _⟩, hheld⟩ := hL.own id hown
      exact ⟨r, hr, hidle, hheld⟩
  -- the debt is paid by one more active instance
  refine step_held hL hr hheld (.marked id w) (setDispatch now w.id time) (fun _ => rfl)
    (fun _ => rfl) ?_ (fun _ => trivial)
  intro W
  rw [hphase, onWorker_of_inactive hidle, onWorker_of_active (by simp [isActive, setDispatch])]
  grind [Phase.debt, setDispatch]

theorem onInstance_status_cases (h : q.onInstance (.updateInstanceStatus id status) ans = some q') :
    status = .retryWaiting ∧ ((q.phase = .idle ∧ q.own = some id ∧ q' = { q with own := none })
      ∨ ∃ sid w, q.phase = .failed id sid w
          ∧ q' = { q with phase := .cleaned w, own := none }) := by
  unfold Position.onInstance at h
  grind

theorem step_updateInstanceStatus (hL : Local s ws q)
    (hq' : q.onInstance (.updateInstanceStatus id status)
      (s.updateInstanceStatus b now id status).1 = some q') :
    Local (s.updateInstanceStatus b now id status).2 ws q'
      ∧ Effect s (s.updateInstanceStatus b now id status).2 q q' := by
  obtain ⟨rfl, hcases⟩ := onInstance_status_cases hq'
  have hinactive : ∀ x W, onWorker (setStatus now .retryWaiting x) W = 0 :=
    fun x => onWorker_of_inactive (by simp [isActive, setStatus])
  rcases hcases with ⟨hphase, hown, rfl⟩ | ⟨sid, w, hphase, rfl⟩
  · -- it waits, as it has not been active before
    obtain ⟨⟨r, hr, hidle, _⟩, hheld⟩ := hL.own id hown
    refine step_held hL hr hheld q.phase (setStatus now .retryWaiting) (fun _ => rfl) (fun _ => rfl)
      ?_ ?_
    · intro W
      rw [onWorker_of_inactive hidle, hinactive]
    · intro s'
      apply knows_of_rest
      show q.phase.Rest
      rw [hphase]
      trivial
  -- it is taken away from the worker that did not take it
  have hknows := hL.knows
  unfold Knows at hknows
  simp only [hphase] at hknows
  obtain ⟨hpair, hloaded, r, hr, _, hactive, hworker⟩ := hknows
  refine step_held hL hr (List.mem_map_of_mem hpair) (.cleaned w) (setStatus now .retryWaiting)
    (fun _ => rfl) (fun _ => rfl) ?_ (fun _ => hloaded)
  intro W
  rw [hphase, onWorker_of_active hactive, hinactive, hworker]
  simp [Phase.debt]

theorem onInstance_result_cases
    (h : q.onInstance (.updateInstanceResult sid status code msg) ans = some q') :
    (∃ id w, q.phase = .failed id sid w ∧ status = .failed ∧ q' = { q with phase := .cleaned w })
      ∨ ∃ i, q.phase = .read sid i ∧ q.afterResult i status = some q' := by
  unfold Position.onInstance at h
  grind

theorem afterResult_cases (h : q.afterResult i status = some q') :
    (∃ req, q.role = .report req
        ∧ ((status = .running ∧ q' = { q with phase := .idle })
          ∨ (isActive { i with status := status } = false
              ∧ q' = { q with phase := .settled i.workerID })))
      ∨ (q.role = .cancel ∧ status = .cancelled ∧ q' = { q with phase := .idle }) := by
  unfold Position.afterResult at h
  grind [isActive]

theorem step_result (hL : Local s ws q) (hr : r ∈ s.instances.rows)
    (hquiet : isActive r = false → status = .cancelled)
    (hdebt : ∀ W, (if q.phase.debt = some W then 1 else 0) + onWorker r W
      = (if ph.debt = some W then 1 else 0) + onWorker (setResult now status code msg r) W)
    (hknows : ∀ s', Knows s' ws { q with phase := ph }) :
    Local (s.updateInstanceResult b now r.scheduleInstanceID status code msg).2 ws
        { q with phase := ph }
      ∧ Effect s (s.updateInstanceResult b now r.scheduleInstanceID status code msg).2 q
        { q with phase := ph } := by
  have hupd : s.updateInstanceResult b now r.scheduleInstanceID status code msg = _ :=
    InstanceStore.updateBySchedule_of_mem hr (setResult now status code msg) (fun _ => rfl)
  have hone := addressed_iff (b := b) hL.distinct hr
  rw [hupd]
  refine step_rewrite hL (fun _ => rfl) rfl rfl (fun _ h => h) ?_
    (hL.balanced.rewrite_one hr hone hdebt) (hknows _)
  intro x hx hp hidle _ _
  rw [(hone x hx).mp hp] at hidle
  simp [isActive, setResult, hquiet hidle]

theorem step_updateInstanceResult (hL : Local s ws q)
    (hreport : ∀ req, q.role = .report req → (∃ w, ws.get? req.workerID = some w)
      ∧ ∀ r ∈ s.instances.rows, r.scheduleInstanceID = sid →
          isActive r = true ∧ r.workerID = req.workerID)
    (hcancel : q.role = .cancel →
      ∀ r ∈ s.instances.rows, r.scheduleInstanceID = sid → isActive r = false)
    (hq' : q.onInstance (.updateInstanceResult sid status code msg)
      (s.updateInstanceResult b now sid status code msg).1 = some q') :
    Local (s.updateInstanceResult b now sid status code msg).2 ws q'
      ∧ Effect s (s.updateInstanceResult b now sid status code msg).2 q q' := by
  have hknows := hL.knows
  unfold Knows at hknows
  rcases onInstance_result_cases hq' with ⟨id, w, hphase, rfl, rfl⟩ | ⟨i, hphase, hafter⟩
  · simp only [hphase] at hknows
    obtain ⟨_, hloaded, r, hr, rfl, hactive, hworker⟩ := hknows
    refine step_result hL (get?_some hr).1 ?_ ?_ (fun _ => hloaded)
    · intro hidle
      rw [hactive] at hidle
      cases hidle
    intro W
    rw [hphase, onWorker_of_active hactive, onWorker_of_inactive (by simp [isActive, setResult]),
      hworker]
    simp [Phase.debt]
  simp only [hphase] at hknows
  obtain ⟨r, hr, rfl, hsame⟩ := hknows
  rcases afterResult_cases hafter with ⟨req, hrole, hq'⟩ | ⟨hrole, rfl, rfl⟩
  · obtain ⟨hstored, hrow⟩ := hreport req hrole
    obtain ⟨hactive, hworker⟩ := hrow r hr rfl
    have hquiet : isActive r = false → status = .cancelled := by
      intro hidle
      rw [hactive] at hidle
      cases hidle
    rcases hq' with ⟨rfl, rfl⟩ | ⟨hleft, rfl⟩
    · -- still active on its worker
      refine step_result hL hr hquiet ?_ (fun _ => trivial)
      intro W
      rw [hphase, onWorker_of_active hactive, onWorker_of_active (by simp [isActive, setResult])]
      rfl
    -- taken away from its worker
    refine step_result hL hr hquiet ?_ ?_
    · intro W
      rw [hphase, onWorker_of_active hactive, onWorker_of_inactive (by exact hleft), hsame]
      simp [Phase.debt]
    intro s'
    show ∃ w, ws.get? i.workerID = some w
    rw [← hsame, hworker]
    exact hstored
  · refine step_result hL hr (fun _ => rfl) ?_ (fun _ => trivial)
    intro W
    rw [hphase, onWorker_of_inactive (hcancel hrole r hr rfl),
      onWorker_of_inactive (by simp [isActive, setResult])]
    rfl

theorem step_updateInstanceTimestamps (hL : Local s ws q) {started finished : Int} :
    Local (s.updateInstanceTimestamps b now sid started finished).2 ws q
      ∧ Effect s (s.updateInstanceTimestamps b now sid started finished).2 q q := by
  rcases InstanceStore.updateBySchedule_cases b s sid (setTimestamps b now started finished)
      (setTimestamps_id b now started finished) with ⟨e, h⟩ | h
  · have hupd : s.updateInstanceTimestamps b now sid started finished = _ := h
    rw [hupd]
    exact ⟨hL, effect_same rfl rfl rfl⟩
  have hactive : ∀ x, isActive (setTimestamps b now started finished x) = isActive x := by
    intro x
    unfold isActive
    rw [setTimestamps_status]
  have hupd : s.updateInstanceTimestamps b now sid started finished = _ := h
  rw [hupd]
  refine step_rewrite hL (setTimestamps_scheduleInstanceID b now started finished) rfl rfl
    (fun _ h => h) ?_ ?_ ?_
  · intro x _ _ hidle hwait _
    rw [hactive, setTimestamps_status]
    exact ⟨hidle, hwait⟩
  · apply hL.balanced.of_activeOn
    apply activeOn_rewrite_same
    intro x _ _ W
    unfold onWorker
    rw [hactive, setTimestamps_workerID]
  have hknows := hL.knows
  unfold Knows at hknows ⊢
  grind [InstanceStore.get?_rewrite_of_some, InstanceStore.mem_rewrite,
    setTimestamps_scheduleInstanceID, setTimestamps_workerID]

theorem step_getInstanceByScheduleID (hL : Local s ws q)
    (hq' : q.onInstance (.getInstanceByScheduleID sid) (s.getInstanceByScheduleID b sid)
      = some q') : Local s ws q' ∧ Effect s s q q' := by
  obtain ⟨hphase, rfl⟩ : q.phase = .idle
      ∧ q.afterRead sid (s.getInstanceByScheduleID b sid) = q' := by
    unfold Position.onInstance at hq'
    grind
  have hsame : Local s ws q ∧ Effect s s q q := ⟨hL, effect_same rfl rfl rfl⟩
  unfold InstanceStore.getInstanceByScheduleID Position.afterRead
  split
  next r hr =>
    split at hr
    next r' hr' =>
      cases hr
      obtain ⟨hmem, hsid⟩ := InstanceStore.bySchedule_some hr'
      split
      · exact hsame
      have hbal := hL.balanced
      rw [hphase] at hbal
      exact step_phase hL hbal ⟨r', hmem, hsid, (readInstance_workerID b r').symm⟩
    next => cases hr
  next => exact hsame

theorem step_listDueRetryInstances (hL : Local s ws q) {scan : Scan TaskInstance}
    {cutoff limit : Int}
    (hq' : q.onInstance (.listDueRetryInstances cutoff limit)
      (.ok (s.listDueRetryInstances b scan cutoff limit)) = some q') :
    Local s ws q' ∧ Effect s s q q' := by
  obtain ⟨hphase, rfl⟩ : q.phase = .idle
      ∧ q.afterList (.ok (s.listDueRetryInstances b scan cutoff limit)) = q' := by
    unfold Position.onInstance at hq'
    grind
  have hnew : ∀ i ∈ s.listDueRetryInstances b scan cutoff limit,
      ∃ r, s.instances.get? i.id = some r ∧ r.scheduleInstanceID = i.scheduleInstanceID
        ∧ r.status = .retryWaiting := by
    intro i hi
    obtain ⟨r, hr, hdue, rfl⟩ := InstanceStore.mem_listDueRetryInstances hi
    refine ⟨r, ?_, (readInstance_scheduleInstanceID b r).symm, (of_decide_eq_true hdue).1⟩
    rw [readInstance_id]
    exact get?_of_mem hr
  have hheld := hL.held
  have hown := hL.own
  refine ⟨⟨hL.distinct, ?_, ?_, hL.balanced, ?_⟩,
    ⟨rfl, fun _ h => h, fun _ h _ => h, ?_, fun _ h => .inl h⟩⟩
  · simp only [Position.afterList]
    grind [Stored]
  · simp only [Position.afterList]
    grind
  · apply knows_of_rest
    show q.phase.Rest
    rw [hphase]
    trivial
  · simp only [Position.afterList]
    grind [Quiet]

theorem step_worker (hL : Local s ws q) {inp : Input} (call : WorkerCall)
    (hq' : q.onWorker call (call.exec b inp ws).1 = some q') :
    Local s (call.exec b inp ws).2 q' ∧ Effect s s q q' := by
  have hbal := hL.balanced
  have hknows := hL.knows
  have hsame : Local s ws q ∧ Effect s s q q := ⟨hL, effect_same rfl rfl rfl⟩
  unfold Knows at hknows
  unfold Position.onWorker at hq'
  cases call with
  | listStaleWorkers cutoff =>
    cases hq'
    exact hsame
  | listAvailableWorkers opts =>
    cases hphase : q.phase <;>
      simp only [hphase, WorkerCall.exec, Option.some.injEq, reduceCtorEq] at hq' hbal
    subst hq'
    split
    · exact hsame
    refine step_phase hL hbal ?_
    intro w hw
    exact get?_of_mem (WorkerStore.mem_listAvailableWorkers.mp hw).1
  | upsertWorker v =>
    cases hphase : q.phase <;>
      simp only [hphase, Option.ite_none_right_eq_some, Option.some.injEq, reduceCtorEq]
        at hq' hknows hbal
    next all =>
      obtain ⟨hany, rfl⟩ := hq'
      obtain ⟨best, hbest, hv⟩ := List.any_eq_true.mp hany
      obtain rfl := of_decide_eq_true hv
      exact step_phase hL (hbal.reserve (hknows best hbest) b inp.now) trivial
    next w =>
      obtain ⟨rfl, rfl⟩ := hq'
      exact step_phase hL (hbal.release hknows b inp.now) trivial
    next w =>
      obtain ⟨rfl, rfl⟩ := hq'
      exact step_phase hL (hbal.release ⟨w, hknows, rfl⟩ b inp.now) trivial
  | getWorker id =>
    cases hphase : q.phase with
    | settled workerID =>
      simp only [hphase, Option.ite_none_right_eq_some] at hq' hknows hbal
      obtain ⟨rfl, hq'⟩ := hq'
      obtain ⟨w, hw⟩ := hknows
      have hget : (WorkerCall.exec b inp (.getWorker id) ws).1 = .ok w :=
        WorkerStore.getWorker_of_get? hw
      rw [hget] at hq'
      cases hq'
      obtain ⟨_, rfl⟩ := get?_some hw
      exact step_phase hL hbal hw
    | _ =>
      simp only [hphase, Option.some.injEq] at hq'
      subst hq'
      exact hsame

/-- A failed dispatch needs its instance and its worker's load as the `Pick` left them. -/
theorem step_dispatch (hL : Local s ws q) {v : WorkerNode} {req : ExecuteTaskRequest}
    (hfailed : ∀ e, ans = .error e → q.role ≠ .publish → Loaded ws v
      ∧ ∃ r ∈ s.instances.rows, r.scheduleInstanceID = req.scheduleInstanceID
          ∧ isActive r = true ∧ r.workerID = v.id)
    (hq' : q.next (.node (.dispatch v req)) ans = some q') :
    Local s ws q' ∧ Effect s s q q' := by
  obtain ⟨id, hphase, hheld, rfl⟩ : ∃ id, q.phase = .marked id v
      ∧ (id, req.scheduleInstanceID) ∈ q.held
      ∧ q.afterDispatch id req.scheduleInstanceID v ans = q' := by
    unfold Position.next at hq'
    grind
  have hbal := hL.balanced
  rw [hphase] at hbal
  unfold Position.afterDispatch
  split
  · exact step_phase hL hbal trivial
  next e =>
    split
    next => exact step_phase hL hbal trivial
    next hrole =>
      obtain ⟨hloaded, r, hr, hsid, hactive, hworker⟩ := hfailed e rfl hrole
      refine step_phase hL hbal ⟨hheld, hloaded, ?_⟩
      -- the row held under that id is the one with that schedule id
      obtain ⟨r', hr', hsid'⟩ := hL.held _ hheld
      obtain rfl := hL.distinct r' (get?_some hr').1 r hr (hsid'.trans hsid.symm)
      exact ⟨r', hr', hsid, hactive, hworker⟩

end Calls

/-! ## The condition. -/

/-- The instance is still active on `v`, whose stored load is the one in the snapshot. -/
def stillReserved (w : World) (v : WorkerNode) (sid : String) : Bool :=
  w.instances.instances.rows.any
      (fun r => r.scheduleInstanceID = sid && isActive r && r.workerID = v.id)
    && (w.workers.get? v.id).any (fun w' => w'.currentLoad = v.currentLoad)

/-- **The condition on a call**: a new instance gets a new schedule id; the retry loop marks no
active instance; a report is about an active instance of its sender; a cancel, about one that is not
active; a dispatch fails only while its reservation stands, unless the event handler made it. -/
def allowed (w : World) (inp : Input) (role : Role) : Call → Bool
  | .inst (.createInstance i) => w.backend = .mysql
      || w.instances.instances.rows.all (fun r => r.scheduleInstanceID ≠ i.scheduleInstanceID)
  | .inst (.updateInstanceDispatch id _ _) =>
    match role with
    | .retryLoop => w.instances.instances.rows.all (fun r => r.id ≠ id || !isActive r)
    | _ => true
  | .inst (.updateInstanceResult sid _ _ _) =>
    match role with
    | .report req => req.workerID ≠ "" && (w.workers.get? req.workerID).isSome
        && w.instances.instances.rows.all (fun r =>
            r.scheduleInstanceID ≠ sid || (isActive r && r.workerID = req.workerID))
    | .cancel =>
      w.instances.instances.rows.all (fun r => r.scheduleInstanceID ≠ sid || !isActive r)
    | _ => true
  | .node (.dispatch v req) =>
    match role, inp.outcome v req with
    | .publish, _ => true
    | _, .accepted => true
    | _, _ => stillReserved w v req.scheduleInstanceID
  | _ => true

section Allowed

variable {w : World} {inp : Input} {role : Role}

theorem new_of_allowed {i : TaskInstance}
    (h : allowed w inp role (.inst (.createInstance i)) = true) :
    w.backend = .mysql
      ∨ ∀ r ∈ w.instances.instances.rows, r.scheduleInstanceID ≠ i.scheduleInstanceID := by
  simpa [allowed] using h

theorem inactive_of_allowed
    (h : allowed w inp role (.inst (.updateInstanceDispatch id workerID time)) = true)
    (hrole : role = .retryLoop) :
    ∀ r ∈ w.instances.instances.rows, r.id = id → isActive r = false := by
  subst hrole
  intro r hr hid
  have := List.all_eq_true.mp h r hr
  simpa [hid] using this

theorem reported_of_allowed
    (h : allowed w inp role (.inst (.updateInstanceResult sid status code msg)) = true)
    {req : TaskStatusReportRequest} (hrole : role = .report req) :
    req.workerID ≠ "" ∧ (∃ v, w.workers.get? req.workerID = some v)
      ∧ ∀ r ∈ w.instances.instances.rows, r.scheduleInstanceID = sid →
          isActive r = true ∧ r.workerID = req.workerID := by
  subst hrole
  simp only [allowed, Bool.and_eq_true, List.all_eq_true] at h
  obtain ⟨⟨hname, hstored⟩, hrows⟩ := h
  refine ⟨of_decide_eq_true hname, Option.isSome_iff_exists.mp hstored, ?_⟩
  intro r hr hsid
  simpa [hsid] using hrows r hr

theorem cancelled_of_allowed
    (h : allowed w inp role (.inst (.updateInstanceResult sid status code msg)) = true)
    (hrole : role = .cancel) :
    ∀ r ∈ w.instances.instances.rows, r.scheduleInstanceID = sid → isActive r = false := by
  subst hrole
  intro r hr hsid
  have := List.all_eq_true.mp h r hr
  simpa [hsid] using this

theorem reserved_of_allowed {v : WorkerNode} {req : ExecuteTaskRequest}
    (h : allowed w inp role (.node (.dispatch v req)) = true) (hrole : role ≠ .publish) {e : Err}
    (hans : (execCall inp (.node (.dispatch v req)) w).1 = .error e) :
    Loaded w.workers v ∧ ∃ r ∈ w.instances.instances.rows,
      r.scheduleInstanceID = req.scheduleInstanceID ∧ isActive r = true ∧ r.workerID = v.id := by
  have hexec : (NodeCall.exec inp (.dispatch v req) w.nodes).1 = .error e := hans
  have hstill : stillReserved w v req.scheduleInstanceID = true := by
    unfold NodeCall.exec at hexec
    unfold allowed at h
    grind
  unfold stillReserved at hstill
  grind [Loaded, Option.any_eq_true]

end Allowed

/-- **What one allowed call of a running block does.** -/
theorem step_exec {inp : Input} {op : Call} {w : World} {q q' : Position}
    (hL : Local w.instances w.workers q) (hfault : inp.fault = none)
    (hallowed : allowed w inp q.role op = true)
    (hq' : reserving.next q op (execCall inp op w).1 = some q') :
    Local (execCall inp op w).2.instances (execCall inp op w).2.workers q'
      ∧ Effect w.instances (execCall inp op w).2.instances q q' := by
  have hidle : reserving.next q op (execCall inp op w).1 = some q →
      (execCall inp op w).2.instances = w.instances →
      (execCall inp op w).2.workers = w.workers →
      Local (execCall inp op w).2.instances (execCall inp op w).2.workers q'
        ∧ Effect w.instances (execCall inp op w).2.instances q q' := by
    intro hq hinst hwork
    rw [hq] at hq'
    injection hq' with hq'
    subst hq'
    rw [hinst, hwork]
    exact ⟨hL, effect_same rfl rfl rfl⟩
  cases op with
  | task call =>
    exact hidle rfl (exec_instances inp w (by simp)) (exec_workers inp w (by simp))
  | memory call => exact hidle rfl rfl rfl
  | node call =>
    cases call with
    | dispatch v req =>
      have hstep : Local w.instances w.workers q' ∧ Effect w.instances w.instances q q' :=
        step_dispatch hL (fun e he hrole => reserved_of_allowed hallowed hrole he) hq'
      exact hstep
    | _ => exact hidle rfl rfl rfl
  | worker call =>
    rw [exec_worker w hfault] at hq' ⊢
    exact step_worker hL call hq'
  | inst call =>
    rw [exec_inst w hfault] at hq' ⊢
    cases call with
    | createInstance i => exact step_createInstance hL (new_of_allowed hallowed) hq'
    | updateInstanceDispatch id workerID time =>
      exact step_updateInstanceDispatch hL (inactive_of_allowed hallowed) hq'
    | updateInstanceStatus id status => exact step_updateInstanceStatus hL hq'
    | updateInstanceResult sid status code msg =>
      refine step_updateInstanceResult hL ?_ (cancelled_of_allowed hallowed) hq'
      intro req hrole
      exact (reported_of_allowed hallowed hrole).2
    | updateInstanceTimestamps sid started finished =>
      injection hq' with hq'
      subst hq'
      exact step_updateInstanceTimestamps hL
    | getInstanceByScheduleID sid => exact step_getInstanceByScheduleID hL hq'
    | listDueRetryInstances cutoff limit => exact step_listDueRetryInstances hL hq'
    | _ =>
      injection hq' with hq'
      subst hq'
      exact ⟨hL, effect_same rfl rfl rfl⟩

/-! ## Steps and runs. -/

/-- The five operations, one block at a time, no repository call failing. -/
def oneBlockAtATime (c : Pool) : PoolStep → Bool
  | .spawn j => keepsLoad j
  | .step t inp => inp.fault.isNone && c.othersParked isYield t

/-- … in which each call is allowed. -/
def loadsKept (c : Pool) (l : PoolStep) : Bool :=
  oneBlockAtATime c l &&
    match l with
    | .spawn _ => true
    | .step t inp =>
      match (c.jobOf t).map roleOf, c.nextOp t with
      | some role, some op => allowed c.world inp role op
      | _, _ => true

/-- The invariant: what thread `t` knows, and whose instances are whose. -/
structure Inv (c : Pool) (g : Nat → Position) (t : Nat) : Prop where
  role : ∀ u j, c.jobOf u = some j → (g u).role = roleOf j
  held : ∀ u, ∀ p ∈ (g u).held, Stored c.world.instances p
  own : ∀ u id, (g u).own = some id → Quiet c.world.instances id ∧ id ∈ (g u).held.map Prod.fst
      ∧ ∀ v, v ≠ u → id ∉ (g v).held.map Prod.fst
  distinct : c.world.instances.SchedulesDistinct
  balanced : Balanced c.world.instances c.world.workers (g t).phase.debt
  knows : Knows c.world.instances c.world.workers (g t)

section Steps

variable {c : Pool} {g : Nat → Position} {t : Nat} {j : Job} {op : Call}
  {k : op.Ans → Program (Except Err Unit)} {inp : Input}

theorem Inv.toLocal (hI : Inv c g t) : Local c.world.instances c.world.workers (g t) where
  distinct := hI.distinct
  held := hI.held t
  own := fun id h => ⟨(hI.own t id h).1, (hI.own t id h).2.1⟩
  balanced := hI.balanced
  knows := hI.knows

theorem Inv.focus {t' : Nat} (hI : Inv c g t) (ht : (g t).phase.Rest) (ht' : (g t').phase.Rest) :
    Inv c g t' where
  role := hI.role
  held := hI.held
  own := hI.own
  distinct := hI.distinct
  balanced := by
    have hbal := hI.balanced
    rw [debt_of_rest ht] at hbal
    rw [debt_of_rest ht']
    exact hbal
  knows := knows_of_rest ht'

theorem allowed_of_ok (hok : loadsKept c (.step t inp) = true)
    (hp : c.pool[t]? = some ⟨j, .call op k⟩) :
    inp.fault = none ∧ c.othersParked isYield t = true
      ∧ allowed c.world inp (roleOf j) op = true := by
  simp only [loadsKept, oneBlockAtATime, Config.jobOf_of_pool hp, Config.nextOp_of_pool hp,
    Option.map_some, Bool.and_eq_true] at hok
  exact ⟨Option.isNone_iff_eq_none.mp hok.1.1, hok.1.2, hok.2⟩

theorem role_of_pool (hI : Inv c g t) (hp : c.pool[t]? = some ⟨j, .call op k⟩) :
    (g t).role = roleOf j :=
  hI.role t j (Config.jobOf_of_pool hp)

theorem admits_called (hI : Inv c g t) (hfault : inp.fault = none)
    (hallowed : allowed c.world inp (g t).role op = true) :
    reserving.admits (g t) op (execCall inp op c.world).1 := by
  have hknows := hI.knows
  unfold Knows at hknows
  show Position.admits (g t) op (execCall inp op c.world).1
  unfold Position.admits
  split
  · intro hheld
    obtain ⟨pair, hpair, rfl⟩ := List.mem_map.mp hheld
    obtain ⟨r, hr, _⟩ := hI.held t pair hpair
    rw [exec_inst c.world hfault]
    exact congrArg Prod.fst (InstanceStore.updateByID_of_get? hr _ _)
  · split
    next sid i req hphase hrole =>
      rintro rfl
      simp only [hphase] at hknows
      obtain ⟨r, hr, rfl, hsame⟩ := hknows
      obtain ⟨hname, _, hrows⟩ := reported_of_allowed hallowed hrole
      rw [exec_inst c.world hfault, ← hsame]
      exact ⟨congrArg Prod.fst (InstanceStore.updateBySchedule_of_mem hr _ _), (hrows r hr rfl).2,
        hname⟩
    next => trivial
  · rw [exec_worker c.world hfault]
    exact ⟨_, rfl⟩
  · rw [exec_worker c.world hfault]
    rfl
  · split
    next workerID hphase =>
      rintro rfl
      simp only [hphase] at hknows
      obtain ⟨w, hw⟩ := hknows
      rw [exec_worker c.world hfault]
      exact ⟨w, WorkerStore.getWorker_of_get? hw⟩
    next => trivial
  · trivial

theorem inv_called {q' : Position} (hI : Inv c g t) (hp : c.pool[t]? = some ⟨j, .call op k⟩)
    (hL : Local (execCall inp op c.world).2.instances (execCall inp op c.world).2.workers q')
    (h : Effect c.world.instances (execCall inp op c.world).2.instances (g t) q') :
    Inv (c.called execCall t j op k inp) (update g t q') t := by
  refine ⟨?_, ?_, ?_, hL.distinct, ?_, ?_⟩
  · intro u j' hu
    rw [Config.jobOf_called hp] at hu
    have := hI.role u j' hu
    grind [h.role]
  · intro u p hp
    show Stored (execCall inp op c.world).2.instances p
    grind [hI.held u p, hL.held p, h.kept]
  · -- a new row is held by nobody else; a quiet one that others hold stays theirs
    intro u id hid
    show Quiet (execCall inp op c.world).2.instances id ∧ _
    have hown := hI.own u id
    have hnew := hL.own id
    have hheld := hI.held
    have hquiet := h.quiet id
    have htakes := h.held
    have hkeeps := h.own id
    grind [Stored]
  · rw [update_self]
    exact hL.balanced
  · rw [update_self]
    exact hL.knows

theorem inv_spawned {url : String} (hI : Inv c g t) (hne : t ≠ c.pool.length) (j : Job) :
    Inv (c.spawned (body url) j) (update g c.pool.length (start j)) t := by
  have hself : (c.spawned (body url) j).jobOf c.pool.length = some j := Config.jobOf_spawned_self
  have hother : ∀ u, u ≠ c.pool.length → (c.spawned (body url) j).jobOf u = c.jobOf u :=
    fun _ => Config.jobOf_spawned_of_ne
  refine ⟨?_, ?_, ?_, hI.distinct, ?_, ?_⟩
  · intro u j' hu
    grind [start, hI.role u j']
  · intro u p hp
    show Stored c.world.instances p
    grind [start, hI.held u p]
  · intro u id hid
    show Quiet c.world.instances id ∧ _
    grind [start, hI.own u id]
  · rw [update_of_ne hne]
    exact hI.balanced
  · rw [update_of_ne hne]
    exact hI.knows

end Steps

/-! ## Loads and active instances. -/

/-- **EVERY WORKER'S LOAD IS THE NUMBER OF ITS ACTIVE INSTANCES** between two blocks. -/
theorem load_eq_active (url : String) {w : World} (hd : w.instances.SchedulesDistinct)
    (hw : ∀ v ∈ w.workers.rows, v.currentLoad = activeOn w.instances v.id) {c : Pool}
    (h : Runs url (fun c l => loadsKept c l = true) w c)
    (hrest : c.atBoundary isYield = true) :
    ∀ v ∈ c.world.workers.rows, v.currentLoad = activeOn c.world.instances v.id := by
  have hinit : ∀ t, Inv (Config.init w) (fun _ => start .retryScan) t := by
    intro t
    refine ⟨?_, ?_, ?_, hd, ?_, trivial⟩
    · intro u j hu
      simp [Config.jobOf, Config.init] at hu
    · intro u p hp
      simp [start] at hp
    · intro u id hid
      simp [start] at hid
    intro v hv
    have hload := hw v hv
    show v.currentLoad = activeOn w.instances v.id + 0
    omega
  have hrun : ∃ g, Tracks reserving post c g
      ∧ (∀ u, (∀ entry ∈ c.log, entry.1 ≠ u) → (g u).phase.Rest)
      ∧ ∃ t, Inv c g t ∧ ∀ u, u ≠ t → (g u).phase.Rest := by
    refine Reaches.blocks discipline Inv ?_ ?_ ?_ ?_ ?_ ?_ hinit (fun _ => trivial) h
    · intro c t inp hok
      have hok := ((Bool.and_eq_true _ _).mp hok).1
      exact ((Bool.and_eq_true _ _).mp hok).2
    · intro c j hok
      exact follows_body url ((Bool.and_eq_true _ _).mp hok).1
    · intro c g t t' hI ht ht'
      exact hI.focus ht ht'
    · intro c g t j hI hne _
      exact inv_spawned hI hne j
    · intro c g t j op k inp _ hI _ hok hp
      obtain ⟨hfault, _, hallowed⟩ := allowed_of_ok hok hp
      rw [← role_of_pool hI hp] at hallowed
      exact admits_called hI hfault hallowed
    intro c g t j op k inp q' _ hI _ hok hp _ hq'
    obtain ⟨hfault, _, hallowed⟩ := allowed_of_ok hok hp
    rw [← role_of_pool hI hp] at hallowed
    obtain ⟨hL, hE⟩ := step_exec hI.toLocal hfault hallowed hq'
    exact inv_called hI hp hL hE
  obtain ⟨g, htr, hfresh, t, hI, _⟩ := hrun
  have hdebt := debt_of_rest (discipline.rest_of_atBoundary htr hfresh h.log_lt hrest t)
  intro v hv
  have hload := hI.balanced v hv
  rw [hdebt] at hload
  simpa using hload

def dueTask : Task :=
  { id := 1, status := .enabled, cronExpr := "* * * * *", nextTriggerTime := 1 }

def idleWorker : World :=
  World.ofRows .mysql [dueTask] [] [] [{ id := "w1", status := .online, maxConcurrency := 1 }]

/-- The schedule id `handleTask` gives its instance when the clock says 0. -/
def firstScheduleID : String := (TriggerLoop.shardInstance dueTask 0 0 0).scheduleInstanceID

/-- `handleTask` picks the worker, marks the instance, and is accepted. -/
def triggered : List PoolStep :=
  .spawn (.handleTask dueTask) :: List.replicate 11 (.step 0 {})

/-- **Cancelling a dispatched instance** does not lower its worker's load. -/
theorem cancelled_but_loaded :
    ∃ c : Pool, Runs "" (fun c l => oneBlockAtATime c l = true) idleWorker c
      ∧ c.atBoundary isYield = true
      ∧ ∃ v ∈ c.world.workers.rows, v.currentLoad = 1 ∧ activeOn c.world.instances v.id = 0 := by
  have hrun : (runSteps execCall (body "") oneBlockAtATime (Config.init idleWorker)
      (triggered ++ .spawn (.cancelInstance firstScheduleID)
        :: List.replicate 4 (.step 1 {}))).map
        (fun c => decide (c.atBoundary isYield = true ∧ ∃ v ∈ c.world.workers.rows,
          v.currentLoad = 1 ∧ activeOn c.world.instances v.id = 0)) = some true := by
    decide
  obtain ⟨c, h, hp⟩ := exists_reaches_of_runSteps (fun _ _ h => h) hrun
  exact ⟨c, h, of_decide_eq_true hp⟩

/-- The condition at work: the instance is dispatched, runs and reports. -/
theorem load_eq_active_reported :
    ∃ c : Pool, Runs "" (fun c l => loadsKept c l = true) idleWorker c ∧ c.atBoundary isYield = true
      ∧ c.world.instances.instances.rows.map TaskInstance.status = [.success]
      ∧ ∀ v ∈ c.world.workers.rows, v.currentLoad = activeOn c.world.instances v.id := by
  have hrun : (runSteps execCall (body "") loadsKept (Config.init idleWorker)
      (triggered ++ .spawn (.reportStatus
          { scheduleInstanceID := firstScheduleID, workerID := "w1", status := .success })
        :: List.replicate 5 (.step 1 {}))).map
        (fun c => decide (c.atBoundary isYield = true
          ∧ c.world.instances.instances.rows.map TaskInstance.status = [.success]))
            = some true := by
    decide
  obtain ⟨c, h, hp⟩ := exists_reaches_of_runSteps (fun _ _ h => h) hrun
  obtain ⟨hrest, hrows⟩ := of_decide_eq_true hp
  exact ⟨c, h, hrest, hrows, load_eq_active "" (by decide) (by decide) h hrest⟩

end AiScheduler.Load
