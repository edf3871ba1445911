/-
  **WHAT ONE OPERATION, RUN ALONE, DOES TO THE ATTEMPTS.**

  Nothing changes the id, task, schedule id or `RetryCount` of a stored instance, and no operation
  gives a FINISHED instance another status (`Grown`). A trigger scan adds first attempts, a report
  at most the one retry of the instance it finished, a retry scan and a cancel nothing.
-/
import AiScheduler.Proofs.Outlines
import AiScheduler.System.Births
import AiScheduler.System.Serving

namespace AiScheduler.Attempts

open Lib Prog Parts

variable {r inst : TaskInstance} {b : Backend} {now : Int} {op : Call} {w : World}
  {x : World × Nat} {maxRetry : Int → Int}

/-! ## One repository call. -/

/-- One attempt, before and after: what no update of its row changes. -/
@[grind cases]
structure SameAttempt (r r' : TaskInstance) : Prop where
  id : r'.id = r.id
  taskID : r'.taskID = r.taskID
  scheduleInstanceID : r'.scheduleInstanceID = r.scheduleInstanceID
  retryCount : r'.retryCount = r.retryCount

theorem SameAttempt.refl (r : TaskInstance) : SameAttempt r r := ⟨rfl, rfl, rfl, rfl⟩

theorem SameAttempt.trans {r' r'' : TaskInstance} (h : SameAttempt r r')
    (h' : SameAttempt r' r'') : SameAttempt r r'' where
  id := h'.id.trans h.id
  taskID := h'.taskID.trans h.taskID
  scheduleInstanceID := h'.scheduleInstanceID.trans h.scheduleInstanceID
  retryCount := h'.retryCount.trans h.retryCount

/-- The call is a status write to this row. -/
def Names : InstanceCall → TaskInstance → Prop
  | .updateInstanceStatus id _, r => r.id = id
  | .updateInstanceDispatch id _ _, r => r.id = id
  | .updateInstanceResult sid _ _ _, r => r.scheduleInstanceID = sid
  | _, _ => False

/-- Rewriting rows without touching what makes them an attempt. -/
def Rewrites (c : InstanceCall) (s s' : InstanceStore) : Prop :=
  ∃ p f hf, s' = s.rewrite p f hf ∧ (∀ i, SameAttempt i (f i))
    ∧ (s.SchedulesDistinct → ∀ r ∈ s.instances.rows, p r = true →
        Names c r ∨ (f r).status = r.status)

theorem sameAttempt_of_born {i j : TaskInstance} (h : j.born = i.born) : SameAttempt i j where
  id := (congrArg TaskInstance.id h :)
  taskID := taskID_of_born h
  scheduleInstanceID := scheduleInstanceID_of_born h
  retryCount := retryCount_of_born h

theorem names_of_updates {c : InstanceCall} {s : InstanceStore}
    {p : TaskInstance → Bool} {f : TaskInstance → TaskInstance} (h : c.Updates b now s p f)
    (hd : s.SchedulesDistinct) (hr : r ∈ s.instances.rows) (hp : p r = true) :
    Names c r ∨ (f r).status = r.status := by
  cases h with
  | status id status
  | dispatch id workerID time => exact .inl (show r.id = id from of_decide_eq_true hp)
  | result sid status code msg =>
    rw [InstanceStore.addressed_of_distinct hd hr] at hp
    exact .inl (show r.scheduleInstanceID = sid by simpa using hp)
  | timestamps sid started finished => exact .inr (by simp)

/-- **What a call of the instance repository does**: nothing, a new row, or a
rewrite of the rows it names. -/
theorem exec_cases (b : Backend) (inp : Input) (c : InstanceCall) (s : InstanceStore) :
    (c.exec b inp s).2 = s
      ∨ (∃ i, c = .createInstance i ∧ (c.exec b inp s).2 = s.insert b inp.now i)
      ∨ Rewrites c s (c.exec b inp s).2 := by
  rcases c.exec_cases b inp s with h | ⟨i, hc, h, _⟩ | ⟨p, f, hf, hupd, h⟩
  · exact .inl h
  · exact .inr (.inl ⟨i, hc, h⟩)
  · refine .inr (.inr ⟨p, f, hf, h, fun i => sameAttempt_of_born (hupd.born i), ?_⟩)
    intro hd r hr hp
    exact names_of_updates hupd hd hr hp

theorem distinct_of_exec {inp : Input}
    (hd : (execCall inp op w).2.instances.SchedulesDistinct) : w.instances.SchedulesDistinct := by
  rcases execCall_instances_cases inp op w with
    h | ⟨c, rfl, h | ⟨i, _, h, _⟩ | ⟨p, f, hf, hupd, h⟩⟩
  · rw [h] at hd
    exact hd
  · rw [h] at hd
    exact hd
  · rw [h] at hd
    exact hd.of_insert
  · rw [h] at hd
    exact hd.of_rewrite (fun i => scheduleInstanceID_of_born (hupd.born i))

/-! ## How the attempts grow. -/

/-- From `s` to `s'`: attempts stay, finished ones with their status; new ones have task and
`RetryCount` in `New`. -/
structure Grown (New : Int → Nat → Prop) (s s' : InstanceStore) : Prop where
  next : s.nextID ≤ s'.nextID
  old : ∀ r ∈ s.instances.rows, ∃ r' ∈ s'.instances.rows,
    SameAttempt r r' ∧ (isTerminalStatus r.status = true → r'.status = r.status)
  origin : ∀ r' ∈ s'.instances.rows, (∃ r ∈ s.instances.rows, SameAttempt r r')
    ∨ (s.nextID ≤ r'.id ∧ New r'.taskID r'.retryCount)
  full : ∀ id, s.nextID ≤ id → id < s'.nextID → ∃ r' ∈ s'.instances.rows, r'.id = id

abbrev NoNew : Int → Nat → Prop := fun _ _ => False

section Grown

variable {New : Int → Nat → Prop} {s s' s'' : InstanceStore}

theorem Grown.refl (s : InstanceStore) : Grown New s s where
  next := Int.le_refl _
  old := fun r hr => ⟨r, hr, SameAttempt.refl r, fun _ => rfl⟩
  origin := fun r hr => .inl ⟨r, hr, SameAttempt.refl r⟩
  full := by
    intro id hle hlt
    omega

theorem Grown.mono {New' : Int → Nat → Prop} (hnew : ∀ t n, New t n → New' t n)
    (h : Grown New s s') : Grown New' s s' where
  next := h.next
  old := h.old
  origin := fun r hr => (h.origin r hr).imp_right (fun hr => ⟨hr.1, hnew _ _ hr.2⟩)
  full := h.full

theorem Grown.trans (h : Grown New s s') (h' : Grown New s' s'') : Grown New s s'' := by
  obtain ⟨hnext, hold, horigin, hfull⟩ := h
  obtain ⟨hnext', hold', horigin', hfull'⟩ := h'
  refine ⟨Int.le_trans hnext hnext', ?_, ?_, ?_⟩
  · intro r hr
    obtain ⟨r', hr', hsame, hstatus⟩ := hold r hr
    obtain ⟨r'', hr'', hsame', hstatus'⟩ := hold' r' hr'
    exact ⟨r'', hr'', hsame.trans hsame', by grind⟩
  · intro r'' hr''
    rcases horigin' r'' hr'' with ⟨r', hr', hsame'⟩ | ⟨hle, hnew⟩
    · rcases horigin r' hr' with ⟨r, hr, hsame⟩ | hnew
      · exact .inl ⟨r, hr, hsame.trans hsame'⟩
      · rw [← hsame'.id, ← hsame'.taskID, ← hsame'.retryCount] at hnew
        exact .inr hnew
    · exact .inr ⟨Int.le_trans hnext hle, hnew⟩
  · intro id hle hlt
    by_cases hid : id < s'.nextID
    · obtain ⟨r', hr', hid'⟩ := hfull id hle hid
      obtain ⟨r'', hr'', hsame, _⟩ := hold' r' hr'
      exact ⟨r'', hr'', hsame.id.trans hid'⟩
    · exact hfull' id (by omega) hlt

theorem Grown.nextID_eq (h : Grown NoNew s s') : s'.nextID = s.nextID := by
  have hle := h.next
  by_contra hne
  obtain ⟨r', hr', hid⟩ := h.full s.nextID (Int.le_refl _) (by omega)
  rcases h.origin r' hr' with ⟨r, hr, hsame⟩ | ⟨_, hnew⟩
  · have := s.fresh r hr
    have := hsame.id
    omega
  · exact hnew

theorem Grown.distinct (h : Grown New s s') (hd : s'.SchedulesDistinct) :
    s.SchedulesDistinct := by
  intro r hr r₁ hr₁ hsid
  obtain ⟨r', hr', hsame, _⟩ := h.old r hr
  obtain ⟨r₁', hr₁', hsame₁, _⟩ := h.old r₁ hr₁
  have heq := hd r' hr' r₁' hr₁' (by rw [hsame.scheduleInstanceID, hsame₁.scheduleInstanceID, hsid])
  apply Table.eq_of_key hr hr₁
  rw [← hsame.id, ← hsame₁.id, heq]

theorem grown_insert {i : TaskInstance} (hi : New i.taskID i.retryCount) :
    Grown New s (s.insert b now i) where
  next := Int.le_add_one (Int.le_refl _)
  old := fun r hr =>
    ⟨r, InstanceStore.mem_insert.mpr (.inl hr), SameAttempt.refl r, fun _ => rfl⟩
  origin := by
    intro r hr
    rcases InstanceStore.mem_insert.mp hr with hr | rfl
    · exact .inl ⟨r, hr, SameAttempt.refl r⟩
    · right
      rw [InstanceStore.newRow_id, InstanceStore.newRow_taskID, InstanceStore.newRow_retryCount]
      exact ⟨Int.le_refl _, hi⟩
  full := by
    intro id hle (hlt : id < s.nextID + 1)
    refine ⟨s.newRow b now i, InstanceStore.mem_insert.mpr (.inr rfl), ?_⟩
    rw [InstanceStore.newRow_id]
    omega

theorem Grown.rewrite (h : Grown New s s') {p : TaskInstance → Bool}
    {f : TaskInstance → TaskInstance} {hf : ∀ i, (f i).id = i.id}
    (hsame : ∀ i, SameAttempt i (f i))
    (hopen : ∀ r ∈ s.instances.rows, isTerminalStatus r.status = true →
      ∀ r' ∈ s'.instances.rows, SameAttempt r r' → p r' = true → (f r').status = r'.status) :
    Grown New s (s'.rewrite p f hf) := by
  have hkeep : ∀ i, SameAttempt i (if p i then f i else i) := by
    intro i
    split
    · exact hsame i
    · exact SameAttempt.refl i
  constructor
  · exact h.next
  · intro r hr
    obtain ⟨r', hr', hrr', hstatus⟩ := h.old r hr
    exact ⟨_, InstanceStore.mem_rewrite.mpr ⟨r', hr', rfl⟩, hrr'.trans (hkeep r'), by grind⟩
  · intro r'' hr''
    obtain ⟨r', hr', rfl⟩ := InstanceStore.mem_rewrite.mp hr''
    rw [(hkeep r').id, (hkeep r').taskID, (hkeep r').retryCount]
    exact (h.origin r' hr').imp_left fun ⟨r, hr, hrr'⟩ => ⟨r, hr, hrr'.trans (hkeep r')⟩
  · intro id hle hlt
    obtain ⟨r', hr', hid⟩ := h.full id hle hlt
    exact ⟨_, InstanceStore.mem_rewrite.mpr ⟨r', hr', rfl⟩, (hkeep r').id.trans hid⟩

end Grown

/-! ## Calls that leave what is finished alone. -/

/-- The call creates nothing and writes the status of no finished instance. -/
def Allowed (s : InstanceStore) : Call → Prop
  | .inst (.createInstance _) => False
  | .inst c => ∀ r ∈ s.instances.rows, Names c r → isTerminalStatus r.status = false
  | _ => True

theorem allowed_of_isRouting (s : InstanceStore) (op : Call) (h : IsRouting op) :
    Allowed s op :=
  forall_isRouting (fun _ => trivial) (fun _ => trivial) trivial op h

theorem allowed_of_isTask (s : InstanceStore) (op : Call) (h : IsTask op) :
    Allowed s op :=
  forall_isTask (fun _ => trivial) trivial op h

theorem Grown.exec {New : Int → Nat → Prop} {s s' : InstanceStore} (h : Grown New s s')
    {c : InstanceCall} (hc : Allowed s (.inst c)) {inp : Input}
    (hd : s'.SchedulesDistinct) : Grown New s (c.exec b inp s').2 := by
  rcases exec_cases b inp c s' with hs | ⟨i, rfl, _⟩ | ⟨p, f, hf, hs, hsame, hnames⟩
  · rw [hs]
    exact h
  · exact hc.elim
  rw [hs]
  apply h.rewrite hsame
  intro r hr hterm r' hr' ⟨hid, _, hsid, _⟩ hp
  refine (hnames hd r' hr' hp).resolve_left ?_
  -- the call would name a row that was finished in `s`
  intro hname
  unfold Allowed at hc
  cases c <;> grind [Names]

/-- With distinct schedule ids now, the attempts have grown from those of `s`. -/
def Since (New : Int → Nat → Prop) (s : InstanceStore) (x : World × Nat) : Prop :=
  x.1.instances.SchedulesDistinct → Grown New s x.1.instances

section Programs

variable {env : Nat → Input} {New : Int → Nat → Prop} {s : InstanceStore} {α β : Type}

theorem since_refl (w : World) (n : Nat) : Since New w.instances (w, n) :=
  fun _ => Grown.refl _

theorem since_exec (hop : Allowed s op) (hx : Since New s x) :
    Since New s (execAt env op x).2 := by
  intro hd
  have hgrown := hx (distinct_of_exec hd)
  show Grown New s (execCall (env x.2) op x.1).2.instances
  by_cases hinst : ∃ c, op = .inst c
  · obtain ⟨c, rfl⟩ := hinst
    rcases exec_inst_cases (env x.2) x.1 c with ⟨e, he⟩ | he
    · rwa [he]
    · rw [he]
      exact hgrown.exec hop (distinct_of_exec hd)
  · rwa [exec_instances (env x.2) x.1 (fun c hc => hinst ⟨c, hc⟩)]

theorem keeps_of_allowed {p : Program α} (hp : Calls (S := System) (Allowed s) p) :
    Keeps (execAt env) (Since New s) p :=
  keeps_of_calls (S := System) (fun _ hop _ hx => since_exec hop hx) hp

theorem wp_of_allowed {p : Program α} {n : Nat}
    (hp : Calls (S := System) (Allowed w.instances) p) :
    wp (execAt env) p (fun _ x => Since NoNew w.instances x) (w, n) :=
  keeps_of_allowed hp _ (since_refl w n)

theorem wp_of_not_distinct (p : Program α) (hx : ¬ x.1.instances.SchedulesDistinct) :
    wp (execAt env) p (fun _ x' => ¬ x'.1.instances.SchedulesDistinct) x := by
  induction p generalizing x with
  | ret a => exact hx
  | call op k ih => exact ih _ (fun hd => hx (distinct_of_exec hd))

theorem wp_since_of_not_distinct (p : Program α) (hx : ¬ x.1.instances.SchedulesDistinct) :
    wp (execAt env) p (fun _ x' => Since New s x') x :=
  (wp_of_not_distinct p hx).mono (fun _ _ hx' hd => absurd hd hx')

/-! ## A trigger scan. -/

abbrev First : Int → Nat → Prop := fun _ n => n = 0

/-- No instance of `s` has this id or this schedule id. -/
def FreshIn (s : InstanceStore) (i : TaskInstance) : Prop :=
  ∀ r ∈ s.instances.rows, r.id ≠ i.id ∧ r.scheduleInstanceID ≠ i.scheduleInstanceID

/-- `Since`, with an instance that was not there. -/
def Own (s : InstanceStore) (i : TaskInstance) (x : World × Nat) : Prop :=
  x.1.instances.SchedulesDistinct → Grown First s x.1.instances ∧ FreshIn s i

theorem Own.since {i : TaskInstance} (h : Own s i x) : Since First s x :=
  fun hd => (h hd).1

theorem own_exec {i : TaskInstance} (hop : FreshIn s i → Allowed s op) (hx : Own s i x) : Own s i
    (execAt env op x).2 := by
  intro hd
  obtain ⟨hgrown, hfresh⟩ := hx (distinct_of_exec hd)
  exact ⟨since_exec (hop hfresh) (fun _ => hgrown) hd, hfresh⟩

theorem freshIn_newRow {s' : InstanceStore} (hgrown : Grown New s s')
    {i : TaskInstance} (hd : (s'.insert b now i).SchedulesDistinct) :
    FreshIn s (readInstance b (s'.newRow b now i)) := by
  intro r hr
  obtain ⟨r', hr', hsame, _⟩ := hgrown.old r hr
  rw [readInstance_id, InstanceStore.newRow_id, readInstance_scheduleInstanceID,
    InstanceStore.newRow_scheduleInstanceID, ← hsame.scheduleInstanceID]
  refine ⟨?_, hd.new_of_insert r' hr'⟩
  have := s.fresh r hr
  have := hgrown.next
  omega

theorem leads_createInstance {i : TaskInstance} (hi : i.retryCount = 0) :
    Leads (alone (execAt env)) (Since First s) (createInstance i)
      (Either (fun _ => Since First s) (Own s)) := by
  rintro ⟨w, n⟩ hx ans rfl
  refine ⟨_, rfl, ?_⟩
  rcases exec_createInstance_cases (env n) w i with ⟨e, he⟩ | he
  · rw [execAt_eq he]
    exact hx
  rw [execAt_eq he]
  intro hd
  have hgrown : Grown First s w.instances := hx hd.of_insert
  exact ⟨hgrown.trans (grown_insert hi), freshIn_newRow hgrown hd⟩

theorem keeps_since {φ : Call → Prop} (hφ : ∀ op, φ op → Allowed s op) :
    (alone (execAt env)).Keeps (Since New s) φ := by
  rintro op hop x hx ans rfl
  exact ⟨_, rfl, since_exec (hφ op hop) hx⟩

theorem keeps_own {i : TaskInstance} {φ : Call → Prop}
    (hφ : FreshIn s i → ∀ op, φ op → Allowed s op) :
    (alone (execAt env)).Keeps (Own s i) φ := by
  rintro op hop x hx ans rfl
  exact ⟨_, rfl, own_exec (fun hfresh => hφ hfresh op hop) hx⟩

/-- The course of a first attempt: only what is new is written to. -/
def course (env : Nat → Input) (s : InstanceStore) :
    Outlines.Course (Prog.alone (execAt env)) where
  rest := Since First s
  created i := Own s i
  declined i _ := Own s i
  picked i _ := Own s i
  timed i _ _ := Own s i
  marked i _ := Own s i
  failed i _ := Own s i
  cleaned _ := Since First s

theorem allowed_of_isAside (op : Call) (h : Outlines.IsAside op) : Allowed s op := by
  unfold Outlines.IsAside at h
  split at h
  · trivial
  · trivial
  · exact fun _ _ hname => hname.elim
  · exact fun _ _ hname => hname.elim
  · exact h.elim

theorem triggers_course : (course env s).Triggers where
  aside := keeps_since allowed_of_isAside
  pick := fun i opts => ((keeps_own (fun _ => allowed_of_isRouting s)).leads
    (calls_pick opts)).mono (fun _ h => h) (fun _ r h => Either.same h r)
  now := fun _ _ => keeps_own (fun _ => allowed_of_isTask s) (.memory .now) trivial
  send := by
    rintro i w req _ x hx ans rfl
    have hallowed : Allowed s (.node (.dispatch w req)) := trivial
    have hx' : Own s i (execAt env (.node (.dispatch w req)) x).2 :=
      own_exec (fun _ => hallowed) hx
    refine ⟨_, rfl, ?_⟩
    cases (execAt env (.node (.dispatch w req)) x).1 with
    | error e => exact hx'
    | ok u => exact hx'.since
  release := fun w => (keeps_since (allowed_of_isRouting s)).leads (calls_release w)
  create := fun i hi => leads_createInstance hi.retryCount
  drop := fun _ _ _ h => h.since
  mark := by
    rintro i w time x hx ans rfl
    refine ⟨_, rfl, own_exec ?_ hx⟩
    exact fun hfresh r hr hname => absurd hname (hfresh r hr).1

theorem fails_course : (course env s).Fails := by
  rintro i w code msg x hx ans rfl
  refine ⟨_, rfl, (own_exec ?_ hx).since⟩
  exact fun hfresh r hr hname => absurd hname (hfresh r hr).2

theorem keeps_scan (url : String) :
    Keeps (execAt env) (Since First s) (TriggerLoop.scan url) :=
  fun x hx => follows_alone.mp (triggers_course.scan fails_course url x hx)

/-! ## A retry scan and a cancel. -/

/-- A row of `s` with this id is not finished. -/
def IsOpen (s : InstanceStore) (id : Int) : Prop :=
  ∀ r ∈ s.instances.rows, r.id = id → isTerminalStatus r.status = false

theorem allowed_of_isRetrying (op : Call) (h : IsRetrying (IsOpen s) op) : Allowed s op := by
  cases h with
  | now | getTask id => trivial
  | routing h => exact allowed_of_isRouting s op h
  | updateDispatch h workerID time => exact h
  | dispatch worker req => trivial
  | retryWaiting h => exact h

/-- **A retry scan** writes to instances that wait for their retry. -/
theorem wp_retryScan (url : String) (w : World) (n : Nat) :
    wp (execAt env) (RetryLoop.scan url) (fun _ x => Since NoNew w.instances x) (w, n) := by
  unfold RetryLoop.scan
  rw [wp_timeNow_bind]
  rcases exec_inst_cases (env (n + 1)) w (.listDueRetryInstances (env n).now 100) with
    ⟨e, he⟩ | he
  · exact wp_ask_of_exec he (since_refl w _)
  refine wp_ask_of_exec he
    (wp_of_allowed ((calls_retryInstances url _ ?_).mono allowed_of_isRetrying))
  intro inst hinst r hr hid
  obtain ⟨r₀, hr₀, hdue, rfl⟩ := InstanceStore.mem_listDueRetryInstances hinst
  rw [readInstance_id] at hid
  obtain rfl : r = r₀ := Table.eq_of_key hr hr₀ hid
  unfold TaskInstance.isRetryDue at hdue
  rw [decide_eq_true_eq] at hdue
  rw [hdue.1]
  rfl

theorem open_of_bySchedule {sid : String}
    (hd : s.SchedulesDistinct) (hr : s.bySchedule b sid = some r)
    (hopen : isTerminalStatus r.status = false) :
    ∀ r' ∈ s.instances.rows, r'.scheduleInstanceID = sid → isTerminalStatus r'.status = false := by
  intro r' hr' hsid
  obtain ⟨hmem, hrsid⟩ := InstanceStore.bySchedule_some hr
  rw [hd r' hr' r hmem (hsid.trans hrsid.symm)]
  exact hopen

/-- **A cancel** finishes an instance that is not finished. -/
theorem wp_cancelInstance (sid : String) (w : World) (n : Nat) :
    wp (execAt env) (Runtime.cancelInstance sid) (fun _ x => Since NoNew w.instances x) (w, n) := by
  rcases exec_getInstanceByScheduleID_cases (env n) w sid with ⟨e, he⟩ | ⟨r, hr, he⟩
  · exact wp_ask_of_exec he (since_refl w _)
  refine wp_ask_of_exec he ?_
  show wp _ (if isTerminalStatus (readInstance w.backend r).status then _ else _) _ _
  rw [readInstance_status]
  split
  next => exact since_refl w _
  next hopen =>
    by_cases hd : w.instances.SchedulesDistinct
    · apply wp_of_allowed
      refine calls_bind ((calls_cancelOnWorker _ sid).mono ?_) ?_
      · intro op hop
        cases hop <;> trivial
      · intro _
        exact ⟨open_of_bySchedule hd hr (by simpa using hopen), fun _ => trivial⟩
    · exact wp_since_of_not_distinct _ hd

/-! ## A report. -/

/-- One instance more: of this task and with this `RetryCount`. -/
structure OneMore (taskID : Int) (retryCount : Nat) (s s' : InstanceStore) : Prop where
  nextID : s'.nextID = s.nextID + 1
  grown : Grown (fun t n => t = taskID ∧ n = retryCount) s s'

theorem OneMore.before {taskID : Int} {retryCount : Nat} {s s' s'' : InstanceStore}
    (h : Grown NoNew s s') (h' : OneMore taskID retryCount s' s'') :
    OneMore taskID retryCount s s'' where
  nextID := by rw [h'.nextID, h.nextID_eq]
  grown := (h.mono (fun _ _ hf => hf.elim)).trans h'.grown

theorem oneMore_insert (i : TaskInstance) :
    OneMore i.taskID i.retryCount s (s.insert b now i) where
  nextID := rfl
  grown := grown_insert ⟨rfl, rfl⟩

/-- Nothing new, or one attempt more. -/
def AtMostOne (taskID : Int) (retryCount : Nat) (s : InstanceStore) (x : World × Nat) : Prop :=
  x.1.instances.SchedulesDistinct →
    Grown NoNew s x.1.instances ∨ OneMore taskID retryCount s x.1.instances

/-- One attempt more, with an instance that was not there. -/
def OwnRetry (taskID : Int) (retryCount : Nat) (s : InstanceStore) (i : TaskInstance)
    (x : World × Nat) : Prop :=
  x.1.instances.SchedulesDistinct → OneMore taskID retryCount s x.1.instances ∧ FreshIn s i

section Retry

variable {taskID : Int} {retryCount : Nat} {i : TaskInstance} {φ : Call → Prop}

theorem OwnRetry.atMostOne (h : OwnRetry taskID retryCount s i x) :
    AtMostOne taskID retryCount s x :=
  fun hd => .inr (h hd).1

theorem oneMore_exec (hop : Allowed s op) (h : OneMore taskID retryCount s x.1.instances)
    (hd : (execAt env op x).2.1.instances.SchedulesDistinct) :
    OneMore taskID retryCount s (execAt env op x).2.1.instances where
  nextID := by
    rw [← h.nextID]
    show (execCall (env x.2) op x.1).2.instances.nextID = _
    rcases execCall_instances_cases (env x.2) op x.1 with
      hs | ⟨c, rfl, hs | ⟨i, rfl, hs, _⟩ | ⟨p, f, hf, _, hs⟩⟩
    · rw [hs]
    · rw [hs]
    · exact hop.elim
    · rw [hs]
      rfl
  grown := since_exec hop (fun _ => h.grown) hd

theorem ownRetry_exec (hop : FreshIn s i → Allowed s op) (hx : OwnRetry taskID retryCount s i x) :
    OwnRetry taskID retryCount s i (execAt env op x).2 := by
  intro hd
  obtain ⟨hmore, hfresh⟩ := hx (distinct_of_exec hd)
  exact ⟨oneMore_exec (hop hfresh) hmore hd, hfresh⟩

theorem keeps_ownRetry (hφ : FreshIn s i → ∀ op, φ op → Allowed s op) :
    (alone (execAt env)).Keeps (OwnRetry taskID retryCount s i) φ := by
  rintro op hop x hx ans rfl
  exact ⟨_, rfl, ownRetry_exec (fun hfresh => hφ hfresh op hop) hx⟩

theorem keeps_atMostOne (hφ : ∀ op, φ op → Allowed s op) :
    (alone (execAt env)).Keeps (AtMostOne taskID retryCount s) φ := by
  rintro op hop x hx ans rfl
  refine ⟨_, rfl, ?_⟩
  intro hd
  rcases hx (distinct_of_exec hd) with hgrown | hmore
  · exact .inl (since_exec (hφ op hop) (fun _ => hgrown) hd)
  · exact .inr (oneMore_exec (hφ op hop) hmore hd)

/-- The course of a retry: once it is created, only it is written to. -/
def retryCourse (env : Nat → Input) (s : InstanceStore) (taskID : Int) (retryCount : Nat) :
    Outlines.Course (Prog.alone (execAt env)) where
  rest := AtMostOne taskID retryCount s
  created i := OwnRetry taskID retryCount s i
  declined i _ := OwnRetry taskID retryCount s i
  picked i _ := OwnRetry taskID retryCount s i
  timed i _ _ := OwnRetry taskID retryCount s i
  marked i _ := OwnRetry taskID retryCount s i
  failed i _ := OwnRetry taskID retryCount s i
  cleaned _ := AtMostOne taskID retryCount s

theorem leads_ownRetry (hop : FreshIn s i → Allowed s op) :
    Leads (alone (execAt env)) (OwnRetry taskID retryCount s i) (perform op)
      (fun x _ => OwnRetry taskID retryCount s i x) := by
  rintro x hx ans rfl
  exact ⟨_, rfl, ownRetry_exec hop hx⟩

theorem retries_retryCourse : (retryCourse env s taskID retryCount).Retries where
  aside := keeps_atMostOne allowed_of_isAside
  pick := fun i opts => ((keeps_ownRetry (fun _ => allowed_of_isRouting s)).leads
    (calls_pick opts)).mono (fun _ h => h) (fun _ r h => Either.same h r)
  now := fun _ _ => keeps_ownRetry (fun _ => allowed_of_isTask s) (.memory .now) trivial
  send := by
    intro i w req _
    have hallowed : Allowed s (.node (.dispatch w req)) := trivial
    refine (leads_ownRetry (fun _ => hallowed)).mono (fun _ h => h) ?_
    intro x ans hx
    cases ans with
    | error e => exact hx
    | ok u => exact hx.atMostOne
  release := fun w => (keeps_atMostOne (allowed_of_isRouting s)).leads (calls_release w)
  mark := by
    intro i w time
    have hallowed : FreshIn s i → Allowed s (.inst (.updateInstanceDispatch i.id w.id time)) :=
      fun hfresh r hr hname => absurd hname (hfresh r hr).1
    refine (leads_ownRetry hallowed).mono (fun _ h => h) ?_
    intro x ans hx
    cases ans with
    | error e => exact hx.atMostOne
    | ok u => exact hx
  wait := by
    intro i w
    have hallowed : FreshIn s i → Allowed s (.inst (.updateInstanceStatus i.id .retryWaiting)) :=
      fun hfresh r hr hname => absurd hname (hfresh r hr).1
    exact (leads_ownRetry hallowed).mono (fun _ h => h) (fun _ _ hx => hx.atMostOne)

theorem leads_createInstance_retry (htask : i.taskID = taskID)
    (hcount : i.retryCount = retryCount) :
    Leads (alone (execAt env)) (Since NoNew s) (createInstance i)
      (Either (fun _ => AtMostOne taskID retryCount s) (OwnRetry taskID retryCount s)) := by
  subst htask hcount
  rintro ⟨w, n⟩ hx ans rfl
  refine ⟨_, rfl, ?_⟩
  rcases exec_createInstance_cases (env n) w i with ⟨e, he⟩ | he
  · rw [execAt_eq he]
    exact fun hd => .inl (hx hd)
  rw [execAt_eq he]
  intro hd
  have hgrown : Grown NoNew s w.instances := hx hd.of_insert
  exact ⟨(oneMore_insert i).before hgrown, freshIn_newRow hgrown hd⟩

end Retry

theorem leads_createRetry (url : String) {task : Task} (htask : task.id = inst.taskID) :
    Leads (alone (execAt env)) (Since NoNew s) (Runtime.createRetry url task inst)
      (fun x _ => AtMostOne inst.taskID (inst.retryCount + 1) s x) := by
  have hnow : Stays (alone (execAt env)) (Since NoNew s) timeNow :=
    keeps_since (allowed_of_isTask s) (.memory .now) trivial
  have hretries : (retryCourse env s inst.taskID (inst.retryCount + 1)).Retries :=
    retries_retryCourse
  refine Outlines.leads_createRetry (P := alone (execAt env)) hnow ?_ ?_
  · intro retry delay hretry _
    refine Outlines.leads_retryLater (N := fun _ => Since NoNew s) hnow ?_
    intro now
    refine (leads_createInstance_retry
      (i := { retry with status := .retryWaiting, nextRetryTime := now + delay })
      (hretry.taskID.trans htask) hretry.retryCount).mono (fun _ h => h) ?_
    intro x ans hx
    cases ans with
    | error e => exact hx
    | ok stored => exact hx.atMostOne
  intro retry hretry
  refine hretries.retryNow url
    (leads_createInstance_retry (hretry.taskID.trans htask) hretry.retryCount) ?_
    (fun _ _ _ _ h => h.atMostOne)
  exact fun i => hretries.wait i {}

/-- Every stored task has the `MaxRetry` that `maxRetry` gives for its id. -/
def Fixed (maxRetry : Int → Int) (tasks : TaskStore) : Prop :=
  ∀ t ∈ tasks.tasks.rows, t.maxRetry = maxRetry t.id

instance (maxRetry : Int → Int) (tasks : TaskStore) : Decidable (Fixed maxRetry tasks) :=
  inferInstanceAs (Decidable (∀ t ∈ tasks.tasks.rows, t.maxRetry = maxRetry t.id))

/-- The retry of a report: of a failure, within `MaxRetry`. -/
structure RetriesWithin (maxRetry : Int → Int) (status : InstanceStatus) (inst : TaskInstance)
    (s s' : InstanceStore) : Prop where
  retryable : isRetryableStatus status = true
  within : (inst.retryCount : Int) < maxRetry inst.taskID
  more : OneMore inst.taskID (inst.retryCount + 1) s s'

/-- What `retryIfNeeded` and everything before it leaves behind. -/
def Settles (maxRetry : Int → Int) (status : InstanceStatus) (inst : TaskInstance)
    (s : InstanceStore) (x : World × Nat) : Prop :=
  x.1.instances.SchedulesDistinct →
    Grown NoNew s x.1.instances ∨ RetriesWithin maxRetry status inst s x.1.instances

theorem Settles.of_since {status : InstanceStatus}
    (h : Since NoNew s x) : Settles maxRetry status inst s x :=
  fun hd => .inl (h hd)

/-- … and the tasks have their `MaxRetry` as long as a retry can come. -/
structure Settling (maxRetry : Int → Int) (status : InstanceStatus) (s : InstanceStore)
    (x : World × Nat) : Prop where
  since : Since NoNew s x
  fixed : isRetryableStatus status = true → Fixed maxRetry x.1.tasks

theorem Settling.exec {status : InstanceStatus}
    (h : Settling maxRetry status s x) (hop : Allowed s op)
    (htask : ∀ c, op ≠ .task c) : Settling maxRetry status s (execAt env op x).2 where
  since := since_exec hop h.since
  fixed := fun hstatus => by
    show Fixed maxRetry (execCall (env x.2) op x.1).2.tasks
    rw [exec_tasks (env x.2) x.1 htask]
    exact h.fixed hstatus

/-- **`retryIfNeeded`** creates at most the next attempt, and that only below
`MaxRetry`. -/
theorem leads_retryIfNeeded (url : String) (inst : TaskInstance) (req : TaskStatusReportRequest) :
    Leads (alone (execAt env)) (Settling maxRetry req.status s) (Runtime.retryIfNeeded url inst req)
      (fun x _ => Settles maxRetry req.status inst s x) := by
  refine Outlines.leads_retryIfNeeded (P := alone (execAt env))
    (G := fun task x => Since NoNew s x ∧ task.id = inst.taskID
      ∧ task.maxRetry = maxRetry inst.taskID)
    (H := fun task x => Since NoNew s x ∧ task.id = inst.taskID
      ∧ task.maxRetry = maxRetry inst.taskID)
    (fun _ _ h => .of_since h.since) (fun _ _ _ h => .of_since h.1) ?_ ?_ ?_
  · rintro hstatus ⟨w, n⟩ hx ans rfl
    refine ⟨_, rfl, ?_⟩
    rcases exec_getTask_cases (env n) w inst.taskID with ⟨e, he⟩ | ⟨t, ht, he⟩
    · rw [execAt_eq he]
      exact .of_since hx.since
    rw [execAt_eq he]
    obtain ⟨hmem, hid⟩ := Table.get?_some ht
    refine ⟨hx.since, ?_, ?_⟩
    · rw [readTask_id, hid]
    · rw [readTask_maxRetry, hx.fixed hstatus t hmem, hid]
  · rintro task x ⟨hx, htask⟩
    exact ((keeps_since (allowed_of_isTask s)).leads (calls_retryWindowExceeded inst _) x hx).mono
      (fun _ _ hx' => ⟨fun _ => .of_since hx', fun _ => ⟨hx', htask⟩⟩)
  · rintro task hstatus hleft x ⟨hx, hid, hmax⟩
    rw [hmax] at hleft
    exact (leads_createRetry url hid x hx).mono
      (fun _ _ h hd => (h hd).imp_right (fun hmore => ⟨hstatus, hleft, hmore⟩))

theorem leads_settle (url : String) (inst : TaskInstance) (req : TaskStatusReportRequest) :
    Leads (alone (execAt env)) (Settling maxRetry req.status s) (Runtime.settle url inst req)
      (fun x _ => Settles maxRetry req.status inst s x) := by
  have hworker : ∀ c : WorkerCall, Allowed s (.worker c) := fun _ => trivial
  refine Outlines.leads_settle (P := alone (execAt env))
    (L := fun _ => Settling maxRetry req.status s) (fun _ _ h => h) ?_ ?_
    (leads_retryIfNeeded url inst req)
  · rintro _ x hx ans rfl
    exact ⟨_, rfl, Either.same (hx.exec (hworker _) (by simp)) _⟩
  rintro w x hx ans rfl
  refine ⟨_, rfl, ?_⟩
  have hnext : Settling maxRetry req.status s
      (execAt env (.worker (.upsertWorker (Router.released w))) x).2 :=
    hx.exec (hworker _) (by simp)
  cases (execAt env (.worker (.upsertWorker (Router.released w))) x).1 with
  | error e => exact .of_since hnext.since
  | ok u => exact hnext

/-- What a report leaves: nothing new, or the next attempt of the unfinished instance it found,
which is finished then. -/
def Reports (maxRetry : Int → Int) (b : Backend) (sid : String) (s s' : InstanceStore) : Prop :=
  Grown NoNew s s' ∨ ∃ r, s.bySchedule b sid = some r ∧ isTerminalStatus r.status = false
        ∧ (r.retryCount : Int) < maxRetry r.taskID ∧ OneMore r.taskID (r.retryCount + 1) s s'
        ∧ ∃ r' ∈ s'.instances.rows, r'.id = r.id ∧ isTerminalStatus r'.status = true

/-- `s` is the store of `w` with the status of the unfinished `inst` written. -/
structure Wrote (w : World) (req : TaskStatusReportRequest) (inst : TaskInstance)
    (s : InstanceStore) : Prop where
  grown : Grown NoNew w.instances s
  row : ∃ r, w.instances.bySchedule w.backend req.scheduleInstanceID = some r
    ∧ isTerminalStatus r.status = false ∧ inst = readInstance w.backend r
    ∧ ∃ r₁ ∈ s.instances.rows, r₁.id = r.id ∧ r₁.status = req.status

theorem wrote_rewrite {req : TaskStatusReportRequest} (hd : w.instances.SchedulesDistinct)
    (hr : w.instances.bySchedule w.backend req.scheduleInstanceID = some r)
    (hopen : isTerminalStatus r.status = false) (now : Int) :
    Wrote w req (readInstance w.backend r) (w.instances.rewrite
      (w.instances.addressed w.backend req.scheduleInstanceID)
      (setResult now req.status req.errorCode req.errorMessage) (fun _ => rfl)) := by
  obtain ⟨hmem, hsid⟩ := InstanceStore.bySchedule_some hr
  constructor
  · -- nothing that was finished is written
    refine (Grown.refl w.instances).rewrite (fun _ => ⟨rfl, rfl, rfl, rfl⟩) ?_
    intro r₀ hr₀ hterm r₁ hr₁ hsame hp
    rw [InstanceStore.addressed_of_distinct hd hr₁] at hp
    have hfalse := open_of_bySchedule hd hr hopen r₀ hr₀
      (hsame.scheduleInstanceID.symm.trans (by simpa using hp))
    rw [hterm] at hfalse
    cases hfalse
  · refine ⟨r, hr, hopen, rfl, setResult now req.status req.errorCode req.errorMessage r,
      InstanceStore.mem_rewrite.mpr ⟨r, hmem, ?_⟩, rfl, rfl⟩
    rw [if_pos]
    rw [InstanceStore.addressed_of_distinct hd hmem]
    simpa using hsid

theorem Wrote.reports {req : TaskStatusReportRequest}
    (hwrote : s.SchedulesDistinct → Wrote w req inst s)
    (h : Settles maxRetry req.status inst s x) (hd : x.1.instances.SchedulesDistinct) :
    Reports maxRetry w.backend req.scheduleInstanceID w.instances x.1.instances := by
  rcases h hd with hgrown | hmore
  · exact .inl ((hwrote (hgrown.distinct hd)).grown.trans hgrown)
  obtain ⟨hwrite, r, hr, hopen, rfl, r₁, hrow, hid, hstored⟩ :=
    hwrote (hmore.more.grown.distinct hd)
  -- the reported status is final, so nothing after its storing changes it
  have hterm : isTerminalStatus r₁.status = true := by
    rw [hstored]
    exact isTerminalStatus_of_isRetryableStatus hmore.retryable
  obtain ⟨r', hr', hsame, hstatus⟩ := hmore.more.grown.old r₁ hrow
  have hwithin := hmore.within
  have hone := hmore.more
  rw [readInstance_retryCount, readInstance_taskID] at hwithin hone
  right
  refine ⟨r, hr, hopen, hwithin, hone.before hwrite, r', hr', hsame.id.trans hid, ?_⟩
  rw [hstatus hterm]
  exact hterm

theorem wp_reportStatus (url : String)
    (req : TaskStatusReportRequest) (hfixed : Fixed maxRetry w.tasks) (n : Nat) :
    wp (execAt env) (Runtime.reportStatus url req) (fun _ x => x.1.instances.SchedulesDistinct →
        Reports maxRetry w.backend req.scheduleInstanceID w.instances x.1.instances) (w, n) := by
  refine follows_alone.mp (Outlines.leads_reportStatus (P := alone (execAt env))
    (A := fun x => x.1 = w)
    (R := fun inst x => x.1 = w ∧ ∃ r,
      w.instances.bySchedule w.backend req.scheduleInstanceID = some r
        ∧ isTerminalStatus r.status = false ∧ inst = readInstance w.backend r)
    (T := fun inst x => ∃ s, (s.SchedulesDistinct → Wrote w req inst s)
      ∧ Settling maxRetry req.status s x) ?_ ?_ ?_ ?_ ?_ ?_ ?_ (w, n) rfl)
  · rintro x rfl _
    exact .inl (Grown.refl _)
  · rintro ⟨w, n⟩ rfl ans rfl
    refine ⟨_, rfl, ?_⟩
    rcases exec_getInstanceByScheduleID_cases (env n) w req.scheduleInstanceID with
      ⟨e, he⟩ | ⟨r, hr, he⟩
    · rw [execAt_eq he]
      exact fun _ => .inl (Grown.refl _)
    rw [execAt_eq he]
    refine ⟨fun _ _ => .inl (Grown.refl _), fun hopen => ⟨rfl, r, hr, ?_, rfl⟩⟩
    rw [readInstance_status] at hopen
    exact hopen
  · rintro inst ⟨w, n⟩ ⟨rfl, r, hr, hopen, rfl⟩ ans rfl
    refine ⟨_, rfl, ?_⟩
    rcases exec_updateInstanceResult_cases (env n) w req.scheduleInstanceID req.status
      req.errorCode req.errorMessage with ⟨e, he⟩ | he
    · rw [execAt_eq he]
      exact fun _ => .inl (Grown.refl _)
    rw [execAt_eq he]
    refine ⟨_, ?_, fun _ => Grown.refl _, fun _ => hfixed⟩
    intro hd
    exact wrote_rewrite (InstanceStore.SchedulesDistinct.of_rewrite
      (f := setResult (env n).now req.status req.errorCode req.errorMessage) (fun _ => rfl) hd)
      hr hopen (env n).now
  · rintro inst started finished x ⟨s, hwrote, hx⟩ ans rfl
    have hallowed : Allowed s (.inst (.updateInstanceTimestamps req.scheduleInstanceID started
        finished)) := fun _ _ hname => hname.elim
    exact ⟨_, rfl, s, hwrote, hx.exec hallowed (by simp)⟩
  · rintro inst hsuccess op hop x ⟨s, hwrote, hx⟩ ans rfl
    refine ⟨_, rfl, s, hwrote, since_exec (allowed_of_isTask s op hop) hx.since, ?_⟩
    intro hstatus
    rw [hsuccess] at hstatus
    cases hstatus
  · rintro inst x _ ⟨s, hwrote, hx⟩
    exact Wrote.reports hwrote (.of_since hx.since)
  · rintro inst _ x ⟨s, hwrote, hx⟩
    exact (leads_settle url inst req x hx).mono (fun _ _ h => Wrote.reports hwrote h)

end Programs

end AiScheduler.Attempts
