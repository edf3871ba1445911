/-
  **ONE EXECUTION PER SCHEDULE INSTANCE — as long as no entry is evicted under a running one.**

  A request passes the duplicate check when `dedupMap` has no entry for its schedule instance, and
  leaves one. While it stands, no other request of the instance passes (`Guarded`); only an
  eviction tick takes it away, by its age alone.
-/
import AiScheduler.Lib.Watch
import AiScheduler.Worker.Process

namespace AiScheduler.Worker

open Lib Prog Config

namespace Executions

/-! ## The phases of a request. -/

/-- How far the goroutine of a request is. -/
inductive Phase where
  /-- Before the duplicate check. -/
  | outside
  /-- Past the duplicate check, the execution not begun. -/
  | admitted (scheduleID : String)
  | executing (scheduleID : String)
  /-- Refused, or the execution is over; also all other goroutines. -/
  | ended
  deriving DecidableEq

/-- Calls that are neither part of the duplicate check nor of an execution. -/
def quiet : Act → Bool
  | .loadOrStore _ _ | .dedupDelete _ | .execute _ _ | .await _ _ => false
  | _ => true

def next : Phase → (a : Act) → Act.Ans a → Option Phase
  | .outside, .loadOrStore id _, loaded => some (if loaded then .ended else .admitted id)
  | .admitted id, .execute _ req, _ =>
    if req.scheduleInstanceID = id then some (.executing id) else none
  | .executing _, .await _ _, _ => some .ended
  | .ended, .dedupDelete _, _ => some .ended
  | p, a, _ => if quiet a then some p else none

abbrev phases : Protocol Process where
  State := Phase
  next := next

def start : Job → Phase
  | .run _ => .outside
  | _ => .ended

theorem next_of_quiet {a : Act} (h : quiet a = true) (p : Phase) (ans : Act.Ans a) :
    next p a ans = some p := by
  cases a with
  | loadOrStore _ _ | dedupDelete _ | execute _ _ | await _ _ => simp [quiet] at h
  | _ => cases p <;> rfl

/-- Evictions are allowed where no execution is at stake. -/
def idle (a : Act) : Prop := quiet a = true ∨ ∃ key, a = .dedupDelete key

theorem next_over_of_idle {a : Act} (h : idle a) (ans : Act.Ans a) :
    next .ended a ans = some .ended := by
  rcases h with h | ⟨key, rfl⟩
  · exact next_of_quiet h _ ans
  · rfl

theorem calls_flushEntries : ∀ (entries : List (String × Bool)) (remaining : Int),
    Calls (S := Process) idle (flushEntries entries remaining) := by
  intro entries
  induction entries with
  | nil =>
    intro remaining
    trivial
  | cons entry entries ih =>
  intro remaining
  obtain ⟨name, isDir⟩ := entry
  unfold flushEntries
  split
  · exact ih remaining
  refine ⟨.inl rfl, ?_⟩
  intro content
  cases content with
  | none => exact ih _
  | some content =>
  cases content with
  | other => exact ⟨.inl rfl, fun _ => ih _⟩
  | report sr =>
    refine ⟨.inl rfl, ?_⟩
    intro delivered
    cases delivered with
    | false => exact ih _
    | true => exact ⟨.inl rfl, fun _ => ih _⟩

theorem calls_reportFinal (h : Handler) (req : ExecuteTaskRequest)
    (report : TaskStatusReportRequest) :
    Calls (S := Process) idle (reportFinal h req report) := by
  refine ⟨.inl rfl, ?_⟩
  intro delivered
  cases delivered with
  | true =>
    show Calls (S := Process) idle (if h.localStore then _ else _)
    split
    · exact ⟨.inl rfl, fun _ => trivial⟩
    · trivial
  | false =>
    show Calls (S := Process) idle (if h.localStore then _ else _)
    split
    · exact ⟨.inl rfl, fun _ => ⟨.inl rfl, fun _ => trivial⟩⟩
    · trivial

theorem follows_over {α : Type} {p : Proc α} (hp : Calls (S := Process) idle p) :
    Follows phases (fun _ _ => True) Phase.ended p :=
  (follows_of_calls (fun _ h ans => next_over_of_idle h ans) hp).mono (fun _ _ _ => trivial)

theorem follows_quiet {α : Type} {p : Phase} {a : Act} {f : Act.Ans a → Proc α}
    (ha : quiet a = true) (hf : ∀ ans, Follows phases (fun _ _ => True) p (f ans)) :
    Follows phases (fun _ _ => True) p (act a >>= f) :=
  follows_perform_idle (fun ans => next_of_quiet ha p ans) hf

/-- **An admitted run executes its own schedule instance, once.** -/
theorem follows_runAdmitted (h : Handler) (req : ExecuteTaskRequest) :
    Follows phases (fun _ _ => True) (Phase.admitted req.scheduleInstanceID)
      (runAdmitted h req) := by
  unfold runAdmitted
  refine follows_quiet rfl (fun _ => follows_quiet rfl (fun _ => follows_quiet rfl (fun _ =>
    follows_quiet rfl (fun ctx => follows_quiet rfl (fun _ => follows_quiet rfl (fun _ => ?_))))))
  refine follows_perform (fun _ => Phase.executing req.scheduleInstanceID)
    (fun _ => if_pos rfl) (fun _ => ?_)
  refine follows_perform (fun _ => Phase.ended) (fun _ => rfl) (fun outcome => ?_)
  refine follows_quiet rfl (fun finishedAt => follows_over ?_)
  exact calls_bind (calls_reportFinal h req _) (fun _ =>
    ⟨.inl rfl, fun _ => ⟨.inl rfl, fun _ => ⟨.inl rfl, fun _ => trivial⟩⟩⟩)

theorem follows_body (h : Handler) (j : Job) :
    Follows phases (fun _ _ => True) (start j) (Job.body h j) := by
  cases j with
  | run req =>
    show Follows phases _ Phase.outside (run h req)
    refine follows_quiet rfl (fun now => ?_)
    refine follows_perform
      (fun loaded => if loaded then Phase.ended else Phase.admitted req.scheduleInstanceID)
      (fun _ => rfl) ?_
    intro loaded
    cases loaded with
    | true => trivial
    | false => exact follows_runAdmitted h req
  | flush =>
    refine follows_over (calls_bind ?_ (fun _ => trivial))
    refine ⟨.inl rfl, ?_⟩
    intro entries
    cases entries with
    | none => trivial
    | some entries => exact calls_flushEntries entries 0
  | evictTick =>
    exact follows_over ⟨.inl rfl, fun _ => ⟨.inl rfl,
      calls_evictKeys (fun _ => .inl rfl) (fun key => .inr ⟨key, rfl⟩) _⟩⟩
  | cancel id =>
    refine follows_over (calls_bind ⟨.inl rfl, ?_⟩ (fun _ => trivial))
    intro ctx
    cases ctx with
    | none => trivial
    | some ctx => exact ⟨.inl rfl, fun _ => trivial⟩

/-! ## The entry of a running execution. -/

def phase (c : Pool) (t : Nat) : Option Phase := c.stateOf phases start t

/-- The schedule instance a goroutine has passed the duplicate check for and is not done with. -/
def Phase.held : Phase → Option String
  | .admitted id | .executing id => some id
  | _ => none

/-- An execution of `id` is in progress on goroutine `t`. -/
def Executing (c : Pool) (t : Nat) (id : String) : Prop := phase c t = some (.executing id)

/-- Goroutine `t` has passed the duplicate check for `id` and is not done. -/
def Holds (c : Pool) (t : Nat) (id : String) : Prop := (phase c t).bind Phase.held = some id

instance (c : Pool) (t : Nat) (id : String) : Decidable (Executing c t id) :=
  inferInstanceAs (Decidable (_ = _))

instance (c : Pool) (t : Nat) (id : String) : Decidable (Holds c t id) :=
  inferInstanceAs (Decidable (_ = _))

/-- **The condition**: an entry is evicted only after its execution is over. -/
def evictsFinished (c : Pool) : Step → Bool
  | .spawn _ => true
  | .step t _ =>
    match c.nextOp t with
    | some (.dedupDelete id) => (List.range c.pool.length).all (fun u => ¬Holds c u id)
    | _ => true

/-- Every execution at stake has its entry, and no two have the same. -/
def Guarded (c : Pool) : Prop :=
  ∀ t id, Holds c t id → c.world.dedup.get? id ≠ none ∧ ∀ u, Holds c u id → u = t

/-- The schedule instance that an event admits. -/
def admission : Event Process → Option String
  | ⟨.loadOrStore id _, loaded⟩ => if loaded then none else some id
  | _ => none

/-- What a call does to the entries. -/
theorem exec_dedup (env : Env) (a : Act) (s : State) :
    ((exec env a s).2.dedup = s.dedup ∧ admission ⟨a, (exec env a s).1⟩ = none)
      ∨ (∃ key, a = .dedupDelete key ∧ (exec env a s).2.dedup = s.dedup.remove key)
      ∨ ∃ id seen, admission ⟨a, (exec env a s).1⟩ = some id ∧ s.dedup.get? id = none
          ∧ (exec env a s).2.dedup = s.dedup.upsert (id, seen) := by
  cases a with
  | loadOrStore id seen =>
    cases hget : s.dedup.get? id with
    | some entry => exact .inl (by simp [exec, hget, admission])
    | none => exact .inr (.inr ⟨id, seen, by simp [exec, hget, admission]⟩)
  | dedupDelete key => exact .inr (.inl ⟨key, rfl, rfl⟩)
  | readDir | readFile _ | writeFile _ _ | removeFile _ =>
    refine .inl ⟨?_, rfl⟩
    unfold exec
    split <;> rfl
  | _ => exact .inl ⟨rfl, rfl⟩

/-- A goroutine comes to hold an instance by being admitted only. -/
theorem held_of_next {q q' : Phase} {e : Event Process} (h : next q e.1 e.2 = some q') :
    (∃ id, admission e = some id ∧ q'.held = some id)
      ∨ (admission e = none ∧ (q'.held = q.held ∨ q'.held = none)) := by
  obtain ⟨a, ans⟩ := e
  by_cases hquiet : quiet a = true
  · rw [next_of_quiet hquiet] at h
    cases h
    refine .inr ⟨?_, .inl rfl⟩
    cases a with
    | loadOrStore id seen => simp [quiet] at hquiet
    | _ => rfl
  · dsimp only at h
    unfold next at h
    split at h <;> simp only [Option.ite_none_right_eq_some, Option.some.injEq, hquiet] at h
    case h_1 id _ loaded =>
      cases loaded with
      | true => exact .inr ⟨rfl, .inr (h ▸ rfl)⟩
      | false => exact .inl ⟨id, rfl, h ▸ rfl⟩
    case h_2 => exact .inr ⟨rfl, .inl (h.2 ▸ h.1 ▸ rfl)⟩
    case h_3 => exact .inr ⟨rfl, .inr (h ▸ rfl)⟩
    case h_4 => exact .inr ⟨rfl, .inr (h ▸ rfl)⟩
    case h_5 => exact absurd h.1 (by simp)

theorem lt_of_holds {c : Pool} {t : Nat} {id : String} (h : Holds c t id) : t < c.pool.length := by
  by_contra hge
  simp [Holds, phase, stateOf, jobOf, List.getElem?_eq_none (Nat.le_of_not_lt hge)] at h

theorem guarded_called {c : Pool} {t : Nat} {j : Job} {a : Act}
    {k : Act.Ans a → Proc Unit} {env : Env} {q q' : Phase} (hinv : Guarded c)
    (hok : evictsFinished c (.step t env) = true) (hp : c.pool[t]? = some ⟨j, .call a k⟩)
    (hq : phase c t = some q) (hnext : next q a (exec env a c.world).1 = some q')
    (hq' : phase (c.called exec t j a k env) t = some q') :
    Guarded (c.called exec t j a k env) := by
  have hothers : ∀ u id, u ≠ t → Holds (c.called exec t j a k env) u id → Holds c u id := by
    intro u id hu h
    unfold Holds phase at h ⊢
    rwa [stateOf_called_of_ne hp hu] at h
  have hown : ∀ id, Holds (c.called exec t j a k env) t id → q'.held = some id := by
    intro id h
    unfold Holds at h
    rwa [hq'] at h
  rcases held_of_next (e := ⟨a, (exec env a c.world).1⟩) hnext with
    ⟨id₀, hadmission, hheld⟩ | ⟨hnone, hheld⟩
  · -- admitted: there was no entry, so nobody else holds the instance
    rcases exec_dedup env a c.world with
      ⟨_, hnone⟩ | ⟨key, rfl, _⟩ | ⟨id₁, seen, hsome, hget, hdedup⟩
    · rw [hadmission] at hnone
      cases hnone
    · cases hadmission
    obtain rfl : id₀ = id₁ := Option.some.inj (hadmission.symm.trans hsome)
    have hfree : ∀ u, ¬Holds c u id₀ := fun u hu => (hinv u id₀ hu).1 hget
    intro u id hu
    show (exec env a c.world).2.dedup.get? id ≠ none ∧ _
    rw [hdedup, Table.get?_upsert]
    by_cases hid : id = id₀
    · subst hid
      have hself : ∀ v, Holds (c.called exec t j a k env) v id → v = t := by
        intro v hv
        by_contra hne
        exact hfree v (hothers v id hne hv)
      exact ⟨by simp, fun v hv => (hself v hv).trans (hself u hu).symm⟩
    have hne : ∀ v, Holds (c.called exec t j a k env) v id → v ≠ t := by
      rintro v hv rfl
      exact hid (Option.some.inj ((hown id hv).symm.trans hheld))
    obtain ⟨hentry, honly⟩ := hinv u id (hothers u id (hne u hu) hu)
    exact ⟨by rwa [if_neg hid], fun v hv => honly v (hothers v id (hne v hv) hv)⟩
  -- nobody holds more than before
  have hback : ∀ u id, Holds (c.called exec t j a k env) u id → Holds c u id := by
    intro u id hu
    by_cases hut : u = t
    · subst hut
      unfold Holds
      rw [hq, Option.bind_some]
      rcases hheld with hsame | hgone
      · rw [← hsame, hown id hu]
      · rw [hown id hu] at hgone
        cases hgone
    · exact hothers u id hut hu
  intro u id hu
  obtain ⟨hentry, honly⟩ := hinv u id (hback u id hu)
  refine ⟨?_, fun v hv => honly v (hback v id hv)⟩
  show (exec env a c.world).2.dedup.get? id ≠ none
  rcases exec_dedup env a c.world with ⟨hsame, _⟩ | ⟨key, rfl, hdedup⟩ | ⟨id₁, seen, hsome, _⟩
  · rwa [hsame]
  · -- the evicted entry stands for no execution
    simp only [evictsFinished, nextOp_of_pool hp, List.all_eq_true, List.mem_range] at hok
    have hne : id ≠ key := by
      rintro rfl
      have hfree := hok u (lt_of_holds (hback u id hu))
      simp [hback u id hu] at hfree
    rwa [hdedup, Table.get?_remove, if_neg hne]
  · rw [hnone] at hsome
    cases hsome

theorem guarded_of_runs {h : Handler} {s : State} {c : Pool}
    (hr : Runs h (fun c l => evictsFinished c l = true) s c) : Guarded c := by
  refine Reaches.watched (P := phases) Guarded
    (fun _ _ _ => trivial) (fun _ j _ => follows_body h j) ?_ ?_ ?_ hr
  · intro c j hreach hinv _
    have hback : ∀ u id, Holds (c.spawned (Job.body h) j) u id → Holds c u id := by
      intro u id hu
      unfold Holds phase at hu ⊢
      by_cases hlen : u = c.pool.length
      · subst hlen
        rw [hreach.stateOf_spawned_self] at hu
        cases j <;> cases hu
      · rwa [stateOf_spawned_of_ne hlen] at hu
    intro u id hu
    obtain ⟨hentry, honly⟩ := hinv u id (hback u id hu)
    exact ⟨hentry, fun v hv => honly v (hback v id hv)⟩
  · intro c t j a k env q q' _ hinv hok hp hq hnext hq'
    exact guarded_called hinv hok hp hq hnext hq'
  · intro t id ht
    simp [Holds, phase, stateOf, jobOf, init] at ht

/-! ## One execution at a time. -/

theorem Executing.holds {c : Pool} {t : Nat} {id : String} (h : Executing c t id) :
    Holds c t id := by
  unfold Executing at h
  unfold Holds
  rw [h]
  rfl

/-- **AT MOST ONE EXECUTION of a schedule instance is in progress**, if an entry is evicted only
after its execution. -/
theorem one_execution {h : Handler} {s : State} {c : Pool}
    (hr : Runs h (fun c l => evictsFinished c l = true) s c) (id : String) (t u : Nat)
    (ht : Executing c t id) (hu : Executing c u id) : t = u :=
  (guarded_of_runs hr u id hu.holds).2 t ht.holds

def longRequest : ExecuteTaskRequest :=
  { scheduleInstanceID := "task-1-1", taskType := "shell", payload := "sleep 3000",
    timeoutSeconds := 3600, schedulerURL := "http://scheduler" }

/-- The request runs for `n` calls; a tick six minutes later evicts; it is delivered again. -/
def redelivered (n : Nat) : List Step :=
  [.spawn (.run longRequest)] ++ List.replicate n (.step 0 {})
    ++ [.spawn .evictTick] ++ List.replicate 4 (.step 1 { now := 6 * minute })
    ++ [.spawn (.run longRequest)] ++ List.replicate 9 (.step 2 { now := 7 * minute })

/-- A late delivery of a request that has run to its end executes, alone. -/
theorem one_execution_again :
    ∃ c, Runs { workerID := "worker-1" } (fun c l => evictsFinished c l = true) {} c
      ∧ Executing c 2 "task-1-1" ∧ ∀ t, Executing c t "task-1-1" → t = 2 := by
  have hrun : ((runSteps exec (Job.body { workerID := "worker-1" }) evictsFinished
      (Config.init {}) (redelivered 14)).map
        (fun c : Pool => decide (Executing c 2 "task-1-1"))) = some true := by decide
  obtain ⟨c, hr, hexec⟩ := exists_reaches_of_runSteps (fun _ _ h => h) hrun
  have hexec := of_decide_eq_true hexec
  exact ⟨c, hr, hexec, fun t ht => one_execution hr "task-1-1" t 2 ht hexec⟩

/-- **TWO EXECUTIONS**: the entry of a running one is evicted, and the request delivered again. -/
theorem executed_twice :
    ∃ c, Runs { workerID := "worker-1" } (fun _ _ => True) {} c
      ∧ Executing c 0 "task-1-1" ∧ Executing c 2 "task-1-1" := by
  have hrun : ((runSteps exec (Job.body { workerID := "worker-1" }) (fun _ _ => true)
      (Config.init {}) (redelivered 9)).map (fun c : Pool =>
        decide (Executing c 0 "task-1-1" ∧ Executing c 2 "task-1-1"))) = some true := by
    decide
  obtain ⟨c, hr, hexec⟩ := exists_reaches_of_runSteps (fun _ _ _ => trivial) hrun
  exact ⟨c, hr, of_decide_eq_true hexec⟩

end Executions

end AiScheduler.Worker
