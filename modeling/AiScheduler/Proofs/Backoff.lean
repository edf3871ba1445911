/-
  **A DELAYED RETRY IS NOT DISPATCHED BEFORE ITS TIME.**

  A retry with a positive delay is stored as `retry_waiting` with the time it becomes due. Whoever
  marks it dispatched was given it by a query for what is due at the thread's last clock reading,
  and marks it with a LATER reading (`clockForward`).
-/
import AiScheduler.Proofs.Readings
import AiScheduler.System.Births
import Mathlib.Algebra.Order.Ring.Int

namespace AiScheduler.Backoff

open Lib Readings Config

variable {id time : Int} {w : World} {url : String}

/-! ## Clock readings, delays, dispatches. -/

def delayedRetry : Event System → Option TaskInstance
  | ⟨.inst (.createInstance i), .ok stored⟩ =>
    if i.status = .retryWaiting then some stored else none
  | _ => none

/-- The instance a call marks as dispatched, and the time it writes. -/
def dispatchMark : Event System → Option (Int × Int)
  | ⟨.inst (.updateInstanceDispatch id _ time), _⟩ => some (id, time)
  | _ => none

def delays (log : List (Nat × Event System)) : List TaskInstance :=
  log.filterMap (fun e => delayedRetry e.2)

def marks (log : List (Nat × Event System)) : List (Int × Int) :=
  log.filterMap (fun e => dispatchMark e.2)

def clockForward (c : Pool) : PoolStep → Bool
  | .spawn _ => true
  | .step t inp =>
    match c.nextOp t with
    | some (.memory .now) => 0 ≤ inp.now ∧ ∀ e ∈ c.log, ∀ s ∈ reading e.2, s ≤ inp.now
    | _ => true

/-! ## What is due. -/

/-- The instance, if there is one, was born with a due time up to `time`, or
with none. -/
structure DueBy (s : InstanceStore) (id time : Int) : Prop where
  old : id < s.nextID
  due : ∀ r, s.instances.get? id = some r → r.nextRetryTime = 0 ∨ r.nextRetryTime ≤ time

theorem DueBy.mono {s : InstanceStore} {time' : Int} (h : DueBy s id time)
    (hle : time ≤ time') : DueBy s id time' :=
  ⟨h.old, fun r hr => (h.due r hr).imp_right (fun hdue => Int.le_trans hdue hle)⟩

theorem DueBy.extends {s s' : InstanceStore} (h : DueBy s id time)
    (hs : s.Extends s') : DueBy s' id time := by
  refine ⟨Int.lt_of_lt_of_le h.old hs.nextID_le, ?_⟩
  intro r' hr'
  obtain ⟨r, hr, hborn⟩ := hs.before h.old hr'
  rw [nextRetryTime_of_born hborn]
  exact h.due r hr

theorem dueBy_of_listed {inp : Input} {cutoff limit : Int} {insts : List TaskInstance}
    (h : (execCall inp (.inst (.listDueRetryInstances cutoff limit)) w).1 = .ok insts)
    {inst : TaskInstance} (hinst : inst ∈ insts) : DueBy w.instances inst.id cutoff := by
  rcases exec_inst_cases inp w (.listDueRetryInstances cutoff limit) with ⟨e, he⟩ | he
  · rw [he] at h
    cases h
  rw [he] at h
  injection h with h
  rw [← h] at hinst
  obtain ⟨r, hr, hdue, rfl⟩ := InstanceStore.mem_listDueRetryInstances hinst
  rw [readInstance_id]
  refine ⟨w.instances.fresh r hr, ?_⟩
  intro r' hr'
  cases (Table.get?_of_mem hr).symm.trans hr'
  exact (of_decide_eq_true hdue).2

theorem dueBy_of_created {inp : Input} {i stored : TaskInstance}
    (h : (execCall inp (.inst (.createInstance i)) w).1 = .ok stored) (hstamp : i.createdAt = 0)
    (hi : i.nextRetryTime = 0) :
    DueBy (execCall inp (.inst (.createInstance i)) w).2.instances stored.id time := by
  obtain ⟨r, hr, hborn⟩ := get?_of_createInstance_ok h
  refine ⟨InstanceStore.lt_nextID hr, ?_⟩
  intro r' hr'
  cases hr.symm.trans hr'
  left
  calc r.nextRetryTime = stored.nextRetryTime := nextRetryTime_of_born hborn
    _ = i.nextRetryTime :=
      (congrArg TaskInstance.nextRetryTime (born_of_createInstance_ok h hstamp) :)
    _ = 0 := hi

/-! ## The invariant. -/

/-- **THE INVARIANT**: a thread's last reading is one of the clock's; what it may dispatch is due at
it; what was marked dispatched was due; a delayed retry is stored with its due time. -/
structure Timely (c : Pool) : Prop where
  read : ∀ t q, c.stateOf notes start t = some q →
    0 ≤ q.clock ∧ (q.clock = 0 ∨ ∃ e ∈ c.log, reading e.2 = some q.clock)
  ready : ∀ t q, c.stateOf notes start t = some q →
    ∀ id ∈ q.ready, DueBy c.world.instances id q.clock
  marked : ∀ m ∈ marks c.log, DueBy c.world.instances m.1 m.2
  delayed : ∀ i ∈ delays c.log, 0 < i.nextRetryTime
    ∧ ∃ r, c.world.instances.instances.get? i.id = some r ∧ r.nextRetryTime = i.nextRetryTime

theorem clock_of_noted {q q' : Notes} {e : Event System} (h : Noted q e q') :
    q'.clock = (reading e).getD q.clock := by
  cases h with
  | nothing e he =>
    have hnone : reading e = none := by
      unfold reading
      split
      · exact absurd rfl (he _)
      · rfl
    rw [hnone]
    rfl
  | now t | task id task | byID id inst | bySchedule sid inst | created i stored hi
  | due cutoff limit insts hc | workers opts all | worker id w => rfl

section Step

variable {c : Pool} {t : Nat} {j : Job} {op : Call} {k : op.Ans → Program (Except Err Unit)}
  {inp : Input} {q : Notes} (hinv : Timely c)
  (hok : clockForward c (.step t inp) = true) (hp : c.pool[t]? = some ⟨j, .call op k⟩)
  (hq : c.stateOf notes start t = some q)

include hok hp in
theorem le_of_reading {s : Int} (h : reading ⟨op, (execCall inp op c.world).1⟩ = some s) :
    0 ≤ s ∧ ∀ e ∈ c.log, ∀ s' ∈ reading e.2, s' ≤ s := by
  have hop := nextOp_of_pool hp
  unfold reading at h
  split at h
  next t' he =>
    obtain ⟨rfl, hans⟩ := Sigma.mk.inj_iff.mp he
    injection h with h
    have hnow : inp.now = s := (eq_of_heq hans).trans h
    unfold clockForward at hok
    simp only [hop] at hok
    rw [← hnow]
    exact of_decide_eq_true hok
  next => cases h

include hinv hok hp hq in
theorem clock_forward : q.clock ≤ (q.after op (execCall inp op c.world).1).clock := by
  rw [clock_of_noted (noted_after q op _)]
  cases h : reading ⟨op, (execCall inp op c.world).1⟩ with
  | none => exact Int.le_refl _
  | some s =>
    obtain ⟨hpos, hafter⟩ := le_of_reading hok hp h
    show q.clock ≤ s
    rcases (hinv.read t q hq).2 with h0 | ⟨e, he, hr⟩
    · omega
    · exact hafter e he q.clock hr

include hinv hok hp hq in
theorem read_called : 0 ≤ (q.after op (execCall inp op c.world).1).clock
    ∧ ((q.after op (execCall inp op c.world).1).clock = 0
      ∨ ∃ e ∈ (c.called execCall t j op k inp).log,
          reading e.2 = some (q.after op (execCall inp op c.world).1).clock) := by
  obtain ⟨hpos, hread⟩ := hinv.read t q hq
  refine ⟨Int.le_trans hpos (clock_forward hinv hok hp hq), ?_⟩
  rw [clock_of_noted (noted_after q op _)]
  cases h : reading ⟨op, (execCall inp op c.world).1⟩ with
  | some s => exact .inr ⟨_, .head _, h⟩
  | none =>
    rcases hread with h₀ | ⟨e, he, hread⟩
    · exact .inl h₀
    · exact .inr ⟨e, .tail _ he, hread⟩

include hinv hok hp hq in
theorem ready_called (hallows : q.allows op = true) {id : Int}
    (hid : id ∈ (q.after op (execCall inp op c.world).1).ready) :
    DueBy (execCall inp op c.world).2.instances id
      (q.after op (execCall inp op c.world).1).clock := by
  have hforward := clock_forward hinv hok hp hq
  have hext := extends_execCall inp op c.world
  have hold : ∀ id ∈ q.ready, DueBy (execCall inp op c.world).2.instances id
      (q.after op (execCall inp op c.world).1).clock :=
    fun id hid => ((hinv.ready t q hq id hid).extends hext).mono hforward
  have hnoted := noted_after q op (execCall inp op c.world).1
  generalize he : (⟨op, (execCall inp op c.world).1⟩ : Event System) = e at hnoted
  generalize hafter : q.after op (execCall inp op c.world).1 = q' at *
  cases hnoted with
  | created i stored hi =>
    obtain ⟨rfl, hans⟩ := Sigma.mk.inj_iff.mp he
    have hstamp : i.createdAt = 0 := (of_decide_eq_true hallows).1.2
    rcases List.mem_cons.mp hid with rfl | hid
    · exact dueBy_of_created (eq_of_heq hans) hstamp hi
    · exact hold id hid
  | due cutoff limit insts hc =>
    obtain ⟨rfl, hans⟩ := Sigma.mk.inj_iff.mp he
    rcases List.mem_append.mp hid with hid | hid
    · obtain ⟨inst, hinst, rfl⟩ := List.mem_map.mp hid
      exact ((dueBy_of_listed (eq_of_heq hans) hinst).extends hext).mono hc
    · exact hold id hid
  | now s => exact hold id hid
  | task id task | byID id inst => exact hold _ hid
  | bySchedule sid inst | workers opts all | worker wid w | nothing e he => exact hold id hid

include hinv hq in
theorem dueBy_of_mark (hallows : q.allows op = true) {m : Int × Int}
    (hm : dispatchMark ⟨op, (execCall inp op c.world).1⟩ = some m) :
    DueBy c.world.instances m.1 m.2 := by
  unfold dispatchMark at hm
  split at hm
  next id wid time ans he =>
    obtain ⟨rfl, _⟩ := Sigma.mk.inj_iff.mp he
    cases hm
    obtain ⟨hid, htime⟩ := of_decide_eq_true hallows
    show DueBy c.world.instances id time
    rw [htime]
    exact hinv.ready t q hq id hid
  next => cases hm

include hinv hq in
theorem delayed_of_created (hallows : q.allows op = true) {stored : TaskInstance}
    (h : delayedRetry ⟨op, (execCall inp op c.world).1⟩ = some stored) :
    0 < stored.nextRetryTime
      ∧ ∃ r, (execCall inp op c.world).2.instances.instances.get? stored.id = some r
          ∧ r.nextRetryTime = stored.nextRetryTime := by
  unfold delayedRetry at h
  split at h
  next i stored' he =>
    obtain ⟨rfl, hans⟩ := Sigma.mk.inj_iff.mp he
    have hans := eq_of_heq hans
    split at h
    next hwaiting =>
      injection h with h
      rw [h] at hans
      obtain ⟨⟨hlater, hstamp⟩, _⟩ := of_decide_eq_true hallows
      rw [if_pos hwaiting] at hlater
      have htime : stored.nextRetryTime = i.nextRetryTime :=
        (congrArg TaskInstance.nextRetryTime (born_of_createInstance_ok hans hstamp) :)
      obtain ⟨r, hr, hborn⟩ := get?_of_createInstance_ok hans
      have hpos := (hinv.read t q hq).1
      exact ⟨by omega, r, hr, nextRetryTime_of_born hborn⟩
    next => cases h
  next => cases h

include hinv hok hp hq in
theorem timely_called {q' : Notes} (hnext : notes.next q op (execCall inp op c.world).1 = some q')
    (hq' : (c.called execCall t j op k inp).stateOf notes start t = some q') :
    Timely (c.called execCall t j op k inp) := by
  obtain ⟨hallows, rfl⟩ := next_eq_some.mp hnext
  have hext := extends_execCall inp op c.world
  refine ⟨?_, ?_, ?_, ?_⟩
  · intro u q₁ hq₁
    by_cases hu : u = t
    · subst hu
      rw [hq'] at hq₁
      injection hq₁ with hq₁
      rw [← hq₁]
      exact read_called hinv hok hp hq
    rw [stateOf_called_of_ne hp hu] at hq₁
    obtain ⟨hpos, hread⟩ := hinv.read u q₁ hq₁
    refine ⟨hpos, hread.imp id ?_⟩
    rintro ⟨e, he, hread⟩
    exact ⟨e, .tail _ he, hread⟩
  · intro u q₁ hq₁ id hid
    by_cases hu : u = t
    · subst hu
      rw [hq'] at hq₁
      injection hq₁ with hq₁
      rw [← hq₁] at hid ⊢
      exact ready_called hinv hok hp hq hallows hid
    · rw [stateOf_called_of_ne hp hu] at hq₁
      exact (hinv.ready u q₁ hq₁ id hid).extends hext
  · intro m hm
    obtain ⟨e, he, hm⟩ := List.mem_filterMap.mp hm
    rcases List.mem_cons.mp he with rfl | he
    · exact (dueBy_of_mark hinv hq hallows hm).extends hext
    · exact (hinv.marked m (List.mem_filterMap.mpr ⟨e, he, hm⟩)).extends hext
  · intro i hi
    obtain ⟨e, he, hi⟩ := List.mem_filterMap.mp hi
    rcases List.mem_cons.mp he with rfl | he
    · exact delayed_of_created hinv hq hallows hi
    · obtain ⟨hpos, r, hr, htime⟩ := hinv.delayed i (List.mem_filterMap.mpr ⟨e, he, hi⟩)
      obtain ⟨r', hr', hborn⟩ := hext.kept hr
      exact ⟨hpos, r', hr', (nextRetryTime_of_born hborn).trans htime⟩

end Step

/-! ## Whole runs. -/

theorem timely_init (w : World) : Timely (init w) := by
  have hnone : ∀ t q, (init w : Pool).stateOf notes start t ≠ some q := by
    intro t q
    simp [stateOf, jobOf, init]
  refine ⟨fun t q hq => absurd hq (hnone t q), fun t q hq => absurd hq (hnone t q), ?_, ?_⟩ <;>
    simp [init, marks, delays]

theorem timely_spawned {ok : Pool → PoolStep → Prop} {c : Pool}
    (h : Runs url ok w c) (hinv : Timely c) (j : Job) :
    Timely (c.spawned (body url) j) := by
  have hstate : ∀ u q, (c.spawned (body url) j).stateOf notes start u = some q →
      c.stateOf notes start u = some q ∨ q = start j := by
    intro u q hq
    by_cases hu : u = c.pool.length
    · subst hu
      rw [h.stateOf_spawned_self] at hq
      exact .inr (Option.some.inj hq).symm
    · rw [stateOf_spawned_of_ne hu] at hq
      exact .inl hq
  refine ⟨?_, ?_, hinv.marked, hinv.delayed⟩
  · intro u q hq
    rcases hstate u q hq with hq | rfl
    · exact hinv.read u q hq
    · exact ⟨Int.le_refl 0, .inl rfl⟩
  · intro u q hq id hid
    rcases hstate u q hq with hq | rfl
    · exact hinv.ready u q hq id hid
    · cases hid

theorem timely_of_runs {c : Pool}
    (h : Runs url (fun c l => clockForward c l = true) w c) : Timely c := by
  refine Reaches.watched (P := notes) Timely (fun _ _ _ => trivial)
    (fun _ j _ => follows_body url j) ?_ ?_ (timely_init w) h
  · intro c j hr hinv _
    exact timely_spawned hr hinv j
  · intro c t j op k inp q q' hr hinv hok hp hq hnext hq'
    exact timely_called hinv hok hp hq hnext hq'

/-- **BACKOFF IS RESPECTED**: in every run under a clock that does not go back, a retry stored with
a delay is never marked dispatched before its due time. -/
theorem not_dispatched_before_due {url : String} {w : World} {c : Pool}
    (h : Runs url (fun c l => clockForward c l = true) w c) {retry : TaskInstance}
    (hretry : retry ∈ delays c.log) {time : Int} (hmark : (retry.id, time) ∈ marks c.log) :
    retry.nextRetryTime ≤ time := by
  have hinv := timely_of_runs h
  obtain ⟨hpos, r, hr, htime⟩ := hinv.delayed retry hretry
  rcases (hinv.marked _ hmark).due r hr with hdue | hdue
  · omega
  · rw [htime] at hdue
    exact hdue

def failing : World :=
  World.ofRows .mysql
    [{ id := 1, status := .enabled, maxRetry := 3, retryPolicy := .exponentialBackoff }] []
    [{ id := 1, taskID := 1, scheduleInstanceID := "s", status := .running }]
    [{ id := "w1", status := .online, maxConcurrency := 2 }]

/-- A failure is reported; a scan finds the retry due, its dispatch fails; the next scan dispatches
it. -/
def scans : List PoolStep :=
  [.spawn (.reportStatus { scheduleInstanceID := "s", status := .failed })]
    ++ List.replicate 7 (.step 0 { now := 5 * second })
    ++ [.spawn .retryScan] ++ List.replicate 7 (.step 1 { now := 7 * second })
    ++ [.step 1 { now := 7 * second, outcome := fun _ _ => .refused (.text "busy") }]
    ++ List.replicate 2 (.step 1 { now := 7 * second })
    ++ [.spawn .retryScan] ++ List.replicate 7 (.step 2 { now := 8 * second })

theorem not_dispatched_before_due_rescanned :
    ∃ c : Pool, Runs "" (fun c l => clockForward c l = true) failing c
      ∧ ∃ retry ∈ delays c.log, (retry.id, 7 * second) ∈ marks c.log
        ∧ (retry.id, 8 * second) ∈ marks c.log ∧ retry.nextRetryTime ≤ 7 * second := by
  have hrun : ((runSteps execCall (body "") clockForward (Config.init failing) scans).map
      (fun c : Pool => decide (∃ retry ∈ delays c.log, (retry.id, 7 * second) ∈ marks c.log
        ∧ (retry.id, 8 * second) ∈ marks c.log))) = some true := by
    decide
  obtain ⟨c, h, hp⟩ := exists_reaches_of_runSteps (fun _ _ h => h) hrun
  obtain ⟨retry, hretry, hfirst, hsecond⟩ := of_decide_eq_true hp
  exact ⟨c, h, retry, hretry, hfirst, hsecond, not_dispatched_before_due h hretry hfirst⟩

/-! ## How long an exponential delay is. -/

/-- `2 ^ n` seconds, and ten minutes at most. -/
def backoff (n : Nat) : Int := min (2 ^ n) 600 * second

theorem backoff_bounds (n : Nat) : 0 < backoff n ∧ backoff n ≤ 10 * minute := by
  refine ⟨Int.mul_pos (lt_min ?_ (by decide)) (by decide), ?_⟩
  · exact pow_pos (by decide) n
  · exact Int.mul_le_mul_of_nonneg_right (min_le_right _ _) (by decide)

theorem backoff_mono {m n : Nat} (h : m ≤ n) : backoff m ≤ backoff n := by
  refine Int.mul_le_mul_of_nonneg_right (min_le_min ?_ (le_refl _)) (by decide)
  exact pow_le_pow_right₀ (by decide) h

/-- The counts for which `2 ^ n` seconds fit 64 bits, or wrap around to more than ten minutes. -/
def Exact (n : Nat) : Prop := n ≤ 33 ∨ n ∈ [37, 41, 42, 45, 47, 50, 51, 53]

instance (n : Nat) : Decidable (Exact n) := inferInstanceAs (Decidable (_ ∨ _))

theorem retryDelay_of_ge {n : Nat} (h : 64 ≤ n) (intervalSeconds : Int) :
    Runtime.retryDelay .exponentialBackoff n intervalSeconds = 0 := by
  have hshift : wrap64 (2 ^ n) = 0 := by
    obtain ⟨k, rfl⟩ := Nat.exists_eq_add_of_le h
    unfold wrap64
    apply Int.bmod_eq_zero_of_dvd
    rw [pow_add]
    exact Int.dvd_mul_right _ _
  unfold Runtime.retryDelay
  dsimp only
  rw [hshift]
  decide

theorem retryDelay_eq_iff_of_lt (intervalSeconds : Int) : ∀ n < 64,
    (Runtime.retryDelay .exponentialBackoff n intervalSeconds = backoff n ↔ Exact n) := by
  show ∀ n < 64, (Runtime.retryDelay .exponentialBackoff n 0 = backoff n ↔ Exact n)
  decide

theorem retryDelay_eq_iff (n : Nat) (intervalSeconds : Int) :
    Runtime.retryDelay .exponentialBackoff n intervalSeconds = backoff n ↔ Exact n := by
  rcases Nat.lt_or_ge n 64 with hlt | hge
  · exact retryDelay_eq_iff_of_lt intervalSeconds n hlt
  rw [retryDelay_of_ge hge]
  have hpos := (backoff_bounds n).1
  constructor
  · intro h
    omega
  · rintro (h | h)
    · omega
    · simp only [List.mem_cons, List.not_mem_nil, or_false] at h
      omega

/-- **The delay of an exponential backoff** is the formula exactly for the counts of `Exact`; then
it is positive, at most ten minutes and not decreasing. -/
theorem exponential_delay_iff (n : Nat) (intervalSeconds : Int) :
    (Runtime.retryDelay .exponentialBackoff n intervalSeconds = min (2 ^ n) 600 * second ↔ Exact n)
      ∧ (Exact n → 0 < Runtime.retryDelay .exponentialBackoff n intervalSeconds
          ∧ Runtime.retryDelay .exponentialBackoff n intervalSeconds ≤ 10 * minute
          ∧ ∀ m ≤ n, Exact m → Runtime.retryDelay .exponentialBackoff m intervalSeconds
              ≤ Runtime.retryDelay .exponentialBackoff n intervalSeconds) := by
  refine ⟨retryDelay_eq_iff n intervalSeconds, ?_⟩
  intro hn
  rw [(retryDelay_eq_iff n intervalSeconds).mpr hn]
  refine ⟨(backoff_bounds n).1, (backoff_bounds n).2, ?_⟩
  intro m hm hexact
  rw [(retryDelay_eq_iff m intervalSeconds).mpr hexact]
  exact backoff_mono hm

/-- The first and the twelfth retry. -/
theorem exponential_delay_first :
    Runtime.retryDelay .exponentialBackoff 1 0 = 2 * second
      ∧ Runtime.retryDelay .exponentialBackoff 12 0 = 10 * minute
      ∧ Runtime.retryDelay .exponentialBackoff 1 0 ≤ Runtime.retryDelay .exponentialBackoff 12 0 :=
  ⟨((exponential_delay_iff 1 0).1.mpr (by decide)).trans (by decide),
    ((exponential_delay_iff 12 0).1.mpr (by decide)).trans (by decide),
    ((exponential_delay_iff 12 0).2 (by decide)).2.2 1 (by decide) (by decide)⟩

/-- The thirty-fourth retry has a negative delay, from the fifty-fifth on there is none. -/
theorem exponential_delay_wraps :
    Runtime.retryDelay .exponentialBackoff 34 0 = -1266874889709551616
      ∧ Runtime.retryDelay .exponentialBackoff 55 0 = 0
      ∧ Runtime.retryDelay .exponentialBackoff 34 0 ≠ min (2 ^ 34) 600 * second
      ∧ Runtime.retryDelay .exponentialBackoff 34 0
          < Runtime.retryDelay .exponentialBackoff 33 0 := by
  decide

end AiScheduler.Backoff
