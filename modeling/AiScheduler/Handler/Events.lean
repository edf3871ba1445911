/-
  **PUBLISHED EVENTS** (`internal/api/handler/event_handler.go`): an event creates and dispatches
  one instance per shard of every enabled task that waits for it. No branch cleans up after
  itself: without a worker the instance stays pending, after a failed dispatch it stays dispatched
  and the worker reserved.
-/
import AiScheduler.Scheduler.TriggerLoop

namespace AiScheduler.Events

open Lib List

/-- `publishEventRequest`; the payload in iteration order, with the texts `%v` prints. -/
structure PublishEventRequest where
  eventName : String
  payload : List (String × String) := []
  deriving DecidableEq, Repr

/-- `strings.ReplaceAll` for a non-empty `old`, within `fuel` characters. -/
def replaceAll (old new : List Char) : Nat → List Char → List Char
  | 0, cs => cs
  | _ + 1, [] => []
  | fuel + 1, c :: cs =>
    if old.isPrefixOf (c :: cs) then new ++ replaceAll old new fuel ((c :: cs).drop old.length)
    else c :: replaceAll old new fuel cs

/-- `strings.ReplaceAll` on strings. -/
def replaceString (s old new : String) : String :=
  String.ofList (replaceAll old.toList new.toList s.toList.length s.toList)

def renderEventPayload (template : String) (req : PublishEventRequest) : String :=
  req.payload.foldl (fun result kv =>
      replaceString result ("\x7b\x7b.event.payload." ++ kv.1 ++ "\x7d\x7d") kv.2)
    (replaceString template "\x7b\x7b.event.name\x7d\x7d" req.eventName)

/-- The request `Publish` sends: no image, retry count or scheduler URL. -/
def eventRequest (task : Task) (shard : Nat) (inst : TaskInstance) (req : PublishEventRequest) :
    ExecuteTaskRequest where
  scheduleInstanceID := inst.scheduleInstanceID
  taskID := task.id
  taskType := task.type
  payload := renderEventPayload task.payload req
  timeoutSeconds := task.timeoutSeconds
  shardNo := shard
  shardTotal := task.totalShards
  idempotencyKey := task.idempotencyKey

/-- One pass of the shard loop; the answer counts an accepted dispatch. -/
def publishShard (task : Task) (req : PublishEventRequest) (shard : Nat) : Program Nat := do
  let idTime ← timeNow
  let triggerTime ← timeNow
  match ← createInstance (TriggerLoop.shardInstance task shard idTime triggerTime) with
  | .error _ => return 0
  | .ok inst =>
    match ← Router.pick (TriggerLoop.selectOptions task) with
    | .error _ => return 0
    | .ok worker => do
      let dispatchTime ← timeNow
      let _ ← updateInstanceDispatch inst.id worker.id dispatchTime
      match ← dispatch worker (eventRequest task shard inst req) with
      | .error _ => return 0
      | .ok () => return 1

/-- The shard loop. -/
def publishShards (task : Task) (req : PublishEventRequest) :
    (remaining shard : Nat) → Program Nat
  | 0, _ => pure 0
  | remaining + 1, shard => do
    let n ← publishShard task req shard
    let m ← publishShards task req remaining (shard + 1)
    return n + m

/-- Waiting for this event, and enabled. -/
def matchesEvent (task : Task) (req : PublishEventRequest) : Bool :=
  task.triggerType = .event ∧ task.eventName = req.eventName ∧ task.status = .enabled

/-- The loop over all tasks. -/
def publishTasks (req : PublishEventRequest) : List Task → Program Nat
  | [] => pure 0
  | task :: tasks => do
    if matchesEvent task req then do
      let n ← publishShards task req (TriggerLoop.shardCount task) 0
      let m ← publishTasks req tasks
      return n + m
    else publishTasks req tasks

/-- `Publish`: the number of dispatched instances. -/
def publish (req : PublishEventRequest) : Program (Except Err Nat) :=
  if req.eventName = "" then return .error (.text "event_name is required")
  else do
    match ← listTasks with
    | .error e => return .error e
    | .ok tasks => do
      let triggered ← publishTasks req tasks
      return .ok triggered

/-! ## What rendering leaves alone. -/

section Replace

variable {old new : List Char}

theorem replaceAll_of_not_infix (fuel : Nat) :
    ∀ cs : List Char, ¬ old <:+: cs → replaceAll old new fuel cs = cs := by
  induction fuel with
  | zero =>
    intro cs _
    rfl
  | succ fuel ih =>
  intro cs h
  cases cs with
  | nil => rfl
  | cons c cs =>
  have hhead : ¬ old.isPrefixOf (c :: cs) = true := by
    intro hp
    have hp' : old <+: c :: cs := isPrefixOf_iff_prefix.mp hp
    exact h hp'.isInfix
  have htail : ¬ old <:+: cs := fun hi => h (infix_cons hi)
  show (if old.isPrefixOf (c :: cs) then _ else c :: replaceAll old new fuel cs) = _
  rw [if_neg hhead, ih cs htail]

theorem replaceAll_self (old : List Char) (fuel : Nat) :
    ∀ cs : List Char, replaceAll old old fuel cs = cs := by
  induction fuel with
  | zero =>
    intro cs
    rfl
  | succ fuel ih =>
  intro cs
  cases cs with
  | nil => rfl
  | cons c cs =>
  show (if old.isPrefixOf (c :: cs)
    then old ++ replaceAll old old fuel ((c :: cs).drop old.length)
    else c :: replaceAll old old fuel cs) = _
  split
  next hp =>
    rw [ih]
    have hp' : old <+: c :: cs := isPrefixOf_iff_prefix.mp hp
    exact prefix_iff_eq_append.mp hp'
  next => rw [ih]

/-- The length after `n` replacements, and `n` is not 0 where `old` occurs. -/
theorem length_replaceAll (new : List Char) (hold : old ≠ []) (fuel : Nat) :
    ∀ cs : List Char, cs.length ≤ fuel →
      ∃ n : Nat, (replaceAll old new fuel cs).length + n * old.length
          = cs.length + n * new.length ∧ (old <:+: cs → 0 < n) := by
  have hpos : 0 < old.length := length_pos_of_ne_nil hold
  induction fuel with
  | zero =>
    intro cs hle
    refine ⟨0, by simp [replaceAll], ?_⟩
    intro h
    have := h.length_le
    omega
  | succ fuel ih =>
  intro cs hle
  cases cs with
  | nil =>
    refine ⟨0, by simp [replaceAll], ?_⟩
    intro h
    have := h.length_le
    rw [length_nil] at this
    omega
  | cons c cs =>
  rw [length_cons] at hle
  by_cases hp : old.isPrefixOf (c :: cs) = true
  · have hp' : old <+: c :: cs := isPrefixOf_iff_prefix.mp hp
    have hlen := hp'.length_le
    rw [length_cons] at hlen
    obtain ⟨n, hn, _⟩ := ih ((c :: cs).drop old.length) (by
      rw [length_drop, length_cons]
      omega)
    refine ⟨n + 1, ?_, fun _ => Nat.succ_pos n⟩
    rw [length_drop, length_cons] at hn
    simp only [replaceAll, hp, if_true, length_append, length_cons, Nat.add_mul, Nat.one_mul]
    omega
  obtain ⟨n, hn, hocc⟩ := ih cs (by omega)
  refine ⟨n, ?_, ?_⟩
  · simp only [replaceAll, hp, Bool.false_eq_true, if_false, length_cons]
    omega
  intro h
  rcases infix_cons_iff.mp h with h | h
  · rw [← isPrefixOf_iff_prefix] at h
    exact absurd h hp
  · exact hocc h

theorem eq_of_replaceAll_eq (hlen : new.length = old.length) (fuel : Nat) :
    ∀ cs : List Char, cs.length ≤ fuel → old ≠ [] → old <:+: cs →
      replaceAll old new fuel cs = cs → new = old := by
  induction fuel with
  | zero =>
    intro cs hle hold hocc _
    have := hocc.length_le
    have := length_pos_of_ne_nil hold
    omega
  | succ fuel ih =>
  intro cs hle hold hocc heq
  cases cs with
  | nil => exact absurd (infix_nil.mp hocc) hold
  | cons c cs =>
  rw [length_cons] at hle
  by_cases hp : old.isPrefixOf (c :: cs) = true
  · simp only [replaceAll, hp, if_true] at heq
    have hp' : old <+: c :: cs := isPrefixOf_iff_prefix.mp hp
    rw [← prefix_iff_eq_append.mp hp'] at heq
    exact (append_inj heq hlen).1
  simp only [replaceAll, hp, Bool.false_eq_true, if_false, cons.injEq, true_and] at heq
  rcases infix_cons_iff.mp hocc with h | h
  · rw [← isPrefixOf_iff_prefix] at h
    exact absurd h hp
  · exact ih cs (by omega) hold h heq

end Replace

/-- **A replacement leaves a text alone** if there is nothing to replace, or the texts are equal. -/
theorem replaceString_eq_iff {s old new : String} (hold : old ≠ "") :
    replaceString s old new = s ↔ ¬ old.toList <:+: s.toList ∨ new = old := by
  have hne : old.toList ≠ [] := by
    intro h
    exact hold (String.toList_inj.mp (by rw [h]; rfl))
  have hlists : replaceString s old new = s
      ↔ replaceAll old.toList new.toList s.toList.length s.toList = s.toList := by
    unfold replaceString
    rw [← String.toList_inj, String.toList_ofList]
  rw [hlists]
  constructor
  · intro h
    by_cases hocc : old.toList <:+: s.toList
    · obtain ⟨n, hn, hpos⟩ := length_replaceAll new.toList hne s.toList.length s.toList
        (Nat.le_refl _)
      rw [h] at hn
      have hlen : new.toList.length = old.toList.length :=
        Nat.eq_of_mul_eq_mul_left (hpos hocc) (by omega)
      exact Or.inr (String.toList_inj.mp
        (eq_of_replaceAll_eq hlen s.toList.length s.toList (Nat.le_refl _) hne hocc h))
    · exact Or.inl hocc
  · intro h
    rcases h with h | h
    · exact replaceAll_of_not_infix s.toList.length s.toList h
    · rw [h]
      exact replaceAll_self old.toList s.toList.length s.toList

end AiScheduler.Events
