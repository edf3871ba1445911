/-
  **THE EXECUTION REQUEST AT FIVE SITES.**

  All sites take type, timeout and idempotency key from the task.  The two retry sites and
  `Publish` leave the image out, `OnTrigger` the shard, `Publish` the scheduler URL; the retry sites
  send the task's payload, not the one `Publish` rendered.
-/
import AiScheduler.Proofs.Parts

namespace AiScheduler.Requests

open Lib Prog Parts TriggerLoop

variable {req : ExecuteTaskRequest} {shard : Nat} {inst : TaskInstance}
  {ev : Events.PublishEventRequest}

/-! ## Attempts and what is sent for them. -/

/-- What a first attempt goes back to: a trigger time, or an event. -/
inductive Origin where
  | scheduled
  | event (ev : Events.PublishEventRequest)
  deriving DecidableEq

variable {o : Origin}

/-- The task is enabled and waits for this event. -/
def Awaits (task : Task) (ev : Events.PublishEventRequest) : Prop :=
  ev.eventName ≠ "" ∧ Events.matchesEvent task ev = true

def SameShard (i j : TaskInstance) : Prop := i.shardNo = j.shardNo ∧ i.shardTotal = j.shardTotal

section Sites

variable (b : Backend) (url : String) (task : Task)

/-- `inst` is an attempt of this shard: a first one, or the retry of one. -/
inductive Attempt : Origin → Nat → TaskInstance → Prop
  | handled {shard : Nat} (idTime triggerTime : Int) {inst : TaskInstance}
      (hshard : shard < TriggerLoop.shardCount task)
      (hinst : SameShard inst
        (readInstance b (TriggerLoop.shardInstance task shard idTime triggerTime))) :
      Attempt .scheduled shard inst
  | triggered (idTime triggerTime : Int) {inst : TaskInstance}
      (hinst : SameShard inst (readInstance b (Engine.triggerInstance task idTime triggerTime))) :
      Attempt .scheduled 0 inst
  | published {ev : Events.PublishEventRequest} {shard : Nat} (idTime triggerTime : Int)
      {inst : TaskInstance} (hev : Awaits task ev) (hshard : shard < TriggerLoop.shardCount task)
      (hinst : SameShard inst
        (readInstance b (TriggerLoop.shardInstance task shard idTime triggerTime))) :
      Attempt (.event ev) shard inst
  | retried {o : Origin} {shard : Nat} (idTime triggerTime : Int) {inst retry : TaskInstance}
      (h : Attempt o shard inst)
      (hretry : SameShard retry
        (readInstance b (Runtime.retryInstance task inst idTime triggerTime))) :
      Attempt o shard retry

/-- The program dispatches `req` to some worker. -/
def Dispatches {α : Type} (req : ExecuteTaskRequest) (p : Program α) : Prop :=
  ∃ worker, Prog.Makes (S := System) (.node (.dispatch worker req)) p

/-- `req` is sent for an attempt of this shard, by one of the five sites. -/
inductive Sent : Origin → Nat → ExecuteTaskRequest → Prop
  | handleTask {shard : Nat} {req : ExecuteTaskRequest}
      (hshard : shard < TriggerLoop.shardCount task)
      (h : Dispatches req (TriggerLoop.runShard url task shard)) :
      Sent .scheduled shard req
  | onTrigger {req : ExecuteTaskRequest}
      (h : Dispatches req (Engine.triggerEnabled url task)) :
      Sent .scheduled 0 req
  | publish {ev : Events.PublishEventRequest} {shard : Nat} {req : ExecuteTaskRequest}
      (hev : Awaits task ev) (hshard : shard < TriggerLoop.shardCount task)
      (h : Dispatches req (Events.publishShard task ev shard)) :
      Sent (.event ev) shard req
  | retryIfNeeded {o : Origin} {shard : Nat} {inst : TaskInstance} {req : ExecuteTaskRequest}
      (hinst : Attempt b task o shard inst)
      (h : Dispatches req (Runtime.createRetry url task inst)) :
      Sent o shard req
  | retryLoop {o : Origin} {shard : Nat} {inst : TaskInstance} (worker : WorkerNode)
      {req : ExecuteTaskRequest} (hinst : Attempt b task o shard inst)
      (h : Dispatches req (RetryLoop.dispatchRetry url task inst worker)) :
      Sent o shard req

end Sites

/-- Equal but for schedule id and retry count, and the payload of different events. -/
structure SameWork (o o' : Origin) (r r' : ExecuteTaskRequest) : Prop where
  taskID : r.taskID = r'.taskID
  taskType : r.taskType = r'.taskType
  payload : o = o' → r.payload = r'.payload
  image : r.image = r'.image
  timeoutSeconds : r.timeoutSeconds = r'.timeoutSeconds
  shardNo : r.shardNo = r'.shardNo
  shardTotal : r.shardTotal = r'.shardTotal
  idempotencyKey : r.idempotencyKey = r'.idempotencyKey
  schedulerURL : r.schedulerURL = r'.schedulerURL

/-! ## Each site's request. -/

/-- A program whose dispatches all carry requests with `φ`. -/
def Sends (φ : ExecuteTaskRequest → Prop) : Call → Prop
  | .node (.dispatch _ req) => φ req
  | _ => True

theorem sends_of_isRouting {φ : ExecuteTaskRequest → Prop} {op : Call} (h : IsRouting op) :
    Sends φ op :=
  forall_isRouting (fun _ => trivial) (fun _ => trivial) trivial op h

theorem sends_of_isTask {φ : ExecuteTaskRequest → Prop} {op : Call} (h : IsTask op) :
    Sends φ op :=
  forall_isTask (fun _ => trivial) trivial op h

theorem Dispatches.of_calls {α : Type} {φ : ExecuteTaskRequest → Prop}
    {p : Program α} (h : Dispatches req p) (hp : Calls (Sends φ) p) : φ req := by
  obtain ⟨worker, hmakes⟩ := h
  exact hp.of_makes hmakes

section Calls

variable {φ : ExecuteTaskRequest → Prop} {url : String} {task : Task}

theorem sends_pick {β : Type} {opts : SelectOptions} {f : Except Err WorkerNode → Program β}
    (hf : ∀ r, Calls (Sends φ) (f r)) : Calls (Sends φ) (Router.pick opts >>= f) :=
  calls_bind ((calls_pick opts).mono (fun _ => sends_of_isRouting)) hf

theorem sends_dispatchShard (worker : WorkerNode)
    (h : φ (shardRequest url task shard inst)) :
    Calls (Sends φ) (dispatchShard url task shard inst worker) := by
  refine ⟨trivial, fun time => ⟨trivial, fun _ => ⟨h, ?_⟩⟩⟩
  intro ans
  cases ans with
  | error e => exact ⟨trivial, fun _ => ⟨trivial, fun _ => trivial⟩⟩
  | ok u => trivial

theorem sends_runShard (h : ∀ inst, φ (shardRequest url task shard inst)) :
    Calls (Sends φ) (runShard url task shard) := by
  refine ⟨trivial, fun idTime => ⟨trivial, fun triggerTime => ⟨trivial, ?_⟩⟩⟩
  intro ans
  cases ans with
  | error e => trivial
  | ok inst =>
  apply sends_pick
  intro r
  cases r with
  | ok worker => exact calls_bind (sends_dispatchShard worker (h inst)) (fun _ => trivial)
  | error e =>
    show Calls (S := System) _ (if e = .noAvailableWorker then _ else _)
    split
    · exact calls_bind ((calls_deferTask task _).mono (fun _ => sends_of_isTask)) (fun _ => trivial)
    · trivial

theorem sends_of_isRescheduling (op : Call) (h : IsRescheduling op) : Sends φ op := by
  cases h <;> trivial

theorem sends_triggerEnabled (h : ∀ inst, φ (Engine.triggerRequest url task inst)) :
    Calls (Sends φ) (Engine.triggerEnabled url task) := by
  refine ⟨trivial, fun idTime => ⟨trivial, fun triggerTime => ⟨trivial, ?_⟩⟩⟩
  intro ans
  cases ans with
  | error e => trivial
  | ok inst =>
  apply sends_pick
  intro r
  cases r with
  | error e =>
    show Calls (S := System) _ (if e = .noAvailableWorker then _ else _)
    split
    · exact (calls_deferTask task _).mono (fun _ => sends_of_isTask)
    · trivial
  | ok worker =>
    refine ⟨trivial, fun time => ⟨trivial, fun _ => ⟨h inst, ?_⟩⟩⟩
    intro ans
    cases ans with
    | error e => exact ⟨trivial, fun _ => ⟨trivial, fun _ => trivial⟩⟩
    | ok u => exact (calls_engineReschedule task).mono sends_of_isRescheduling

theorem sends_publishShard (h : ∀ inst, φ (Events.eventRequest task shard inst ev)) :
    Calls (Sends φ) (Events.publishShard task ev shard) := by
  refine ⟨trivial, fun idTime => ⟨trivial, fun triggerTime => ⟨trivial, ?_⟩⟩⟩
  intro ans
  cases ans with
  | error e => trivial
  | ok inst =>
  apply sends_pick
  intro r
  cases r with
  | error e => trivial
  | ok worker =>
    refine ⟨trivial, fun time => ⟨trivial, fun _ => ⟨h inst, ?_⟩⟩⟩
    intro ans
    cases ans with
    | error e | ok u => trivial

theorem sends_sendRetry (h : φ req) (retryID : Int)
    (worker : WorkerNode) : Calls (Sends φ) (sendRetry req retryID worker) := by
  refine ⟨trivial, fun time => ⟨trivial, ?_⟩⟩
  intro ans
  cases ans with
  | error e => exact ⟨trivial, fun _ => trivial⟩
  | ok u =>
    refine ⟨h, ?_⟩
    intro ans
    cases ans with
    | error e => exact ⟨trivial, fun _ => ⟨trivial, fun _ => trivial⟩⟩
    | ok u => trivial

theorem sends_createRetry (h : ∀ retry, φ (Runtime.retryRequest url task inst retry)) :
    Calls (Sends φ) (Runtime.createRetry url task inst) := by
  refine ⟨trivial, fun idTime => ⟨trivial, ?_⟩⟩
  intro triggerTime
  show Calls (S := System) _ (if _ > 0 then Runtime.retryLater _ _ else _)
  split
  · refine ⟨trivial, fun now => ⟨trivial, ?_⟩⟩
    intro ans
    cases ans with
    | error e | ok stored => trivial
  refine ⟨trivial, ?_⟩
  intro ans
  cases ans with
  | error e => trivial
  | ok stored =>
  apply sends_pick
  intro r
  cases r with
  | ok worker => exact sends_sendRetry (h stored) stored.id worker
  | error e =>
    show Calls (S := System) _ (if e = .noAvailableWorker then _ else _)
    split
    · exact ⟨trivial, fun _ => trivial⟩
    · trivial

theorem sends_retryLoop (worker : WorkerNode)
    (h : φ (RetryLoop.retryRequest url task inst)) :
    Calls (Sends φ) (RetryLoop.dispatchRetry url task inst worker) := by
  rw [retryLoop_dispatchRetry]
  exact calls_bind (sends_sendRetry h inst.id worker) (fun _ => trivial)

end Calls

/-! ## Where the sites agree. -/

/-- What every site sends for a task without image and shards. -/
structure PlainWork (url : String) (task : Task) (req : ExecuteTaskRequest) : Prop where
  taskID : req.taskID = task.id
  taskType : req.taskType = task.type
  payload : req.payload = task.payload
  image : req.image = ""
  timeoutSeconds : req.timeoutSeconds = task.timeoutSeconds
  shardNo : req.shardNo = 0
  shardTotal : req.shardTotal = 0
  idempotencyKey : req.idempotencyKey = task.idempotencyKey
  schedulerURL : req.schedulerURL = url

theorem PlainWork.sameWork {url : String} {task : Task} {r r' : ExecuteTaskRequest}
    (h : PlainWork url task r) (h' : PlainWork url task r') (o o' : Origin) :
    SameWork o o' r r' where
  taskID := h.taskID.trans h'.taskID.symm
  taskType := h.taskType.trans h'.taskType.symm
  payload := fun _ => h.payload.trans h'.payload.symm
  image := h.image.trans h'.image.symm
  timeoutSeconds := h.timeoutSeconds.trans h'.timeoutSeconds.symm
  shardNo := h.shardNo.trans h'.shardNo.symm
  shardTotal := h.shardTotal.trans h'.shardTotal.symm
  idempotencyKey := h.idempotencyKey.trans h'.idempotencyKey.symm
  schedulerURL := h.schedulerURL.trans h'.schedulerURL.symm

def namePlaceholder : String := "\x7b\x7b.event.name\x7d\x7d"

def keyPlaceholder (key : String) : String := "\x7b\x7b.event.payload." ++ key ++ "\x7d\x7d"

/-- The payload has no placeholder to fill in, but for an event named like its own. -/
def Literal (task : Task) : Prop :=
  (¬ namePlaceholder.toList <:+: task.payload.toList ∨ task.eventName = namePlaceholder)
    ∧ ∀ key, ¬ (keyPlaceholder key).toList <:+: task.payload.toList

/-- **WHERE ALL SITES AGREE**: no image, no shards, and with an event type a literal payload and no
scheduler URL. -/
structure Uniform (url : String) (task : Task) : Prop where
  image : task.image = ""
  totalShards : task.totalShards = 0
  event : task.triggerType = .event → task.status = .enabled → task.eventName ≠ "" →
    url = "" ∧ Literal task

theorem awaits_iff {task : Task} :
    Awaits task ev ↔ ev.eventName = task.eventName ∧ task.triggerType = .event
      ∧ task.status = .enabled ∧ task.eventName ≠ "" := by
  unfold Awaits Events.matchesEvent
  rw [decide_eq_true_iff]
  constructor
  · intro h
    exact ⟨h.2.2.1.symm, h.2.1, h.2.2.2, fun hempty => h.1 (h.2.2.1.symm.trans hempty)⟩
  · intro h
    exact ⟨fun hempty => h.2.2.2 (h.1.symm.trans hempty), h.2.1, h.1.symm, h.2.2.1⟩

theorem keyPlaceholder_ne (key : String) : keyPlaceholder key ≠ "" := by
  intro h
  unfold keyPlaceholder at h
  rw [String.append_eq_empty_iff] at h
  exact absurd h.2 (by decide)

theorem foldl_replace_of_literal {s : String}
    (hs : ∀ key, ¬ (keyPlaceholder key).toList <:+: s.toList) :
    ∀ kvs : List (String × String),
      kvs.foldl (fun result kv => Events.replaceString result (keyPlaceholder kv.1) kv.2) s
          = s := by
  intro kvs
  induction kvs with
  | nil => rfl
  | cons kv kvs ih =>
    have hkv : Events.replaceString s (keyPlaceholder kv.1) kv.2 = s :=
      (Events.replaceString_eq_iff (keyPlaceholder_ne kv.1)).mpr (.inl (hs kv.1))
    show kvs.foldl _ (Events.replaceString s (keyPlaceholder kv.1) kv.2) = s
    rw [hkv]
    exact ih

/-- Rendering leaves the payload alone, for every event of that name, if it is literal. -/
theorem render_eq_iff (task : Task) :
    (∀ ev : Events.PublishEventRequest, ev.eventName = task.eventName →
        Events.renderEventPayload task.payload ev = task.payload) ↔ Literal task := by
  have hname : namePlaceholder ≠ "" := by decide
  constructor
  · intro h
    have hfirst : Events.replaceString task.payload namePlaceholder task.eventName = task.payload :=
      h { eventName := task.eventName } rfl
    refine ⟨(Events.replaceString_eq_iff hname).mp hfirst, ?_⟩
    intro key hocc
    -- an event that gives the key a value other than the placeholder
    have hkey : Events.replaceString
        (Events.replaceString task.payload namePlaceholder task.eventName)
        (keyPlaceholder key) "" = task.payload :=
      h { eventName := task.eventName, payload := [(key, "")] } rfl
    rw [hfirst] at hkey
    rcases (Events.replaceString_eq_iff (keyPlaceholder_ne key)).mp hkey with hno | hsame
    · exact hno hocc
    · exact keyPlaceholder_ne key hsame.symm
  · intro h ev hev
    have hfirst : Events.replaceString task.payload namePlaceholder ev.eventName
      = task.payload := by
      rw [hev]
      exact (Events.replaceString_eq_iff hname).mpr h.1
    show ev.payload.foldl _ (Events.replaceString task.payload namePlaceholder ev.eventName) = _
    rw [hfirst]
    exact foldl_replace_of_literal h.2 ev.payload

section Agree

variable {b : Backend} {url : String} {task : Task}

theorem shardCount_of_uniform (h : Uniform url task) : shardCount task = 1 := by
  unfold shardCount
  rw [if_pos (by rw [h.totalShards])]

theorem Attempt.unsharded (hu : Uniform url task) (h : Attempt b task o shard inst) :
    inst.shardNo = 0 ∧ inst.shardTotal = 0 := by
  -- MySQL has no columns for the shard, the in-memory store keeps it
  have hread : ∀ {i j : TaskInstance}, SameShard i (readInstance b j) →
      j.shardNo = 0 → j.shardTotal = 0 → i.shardNo = 0 ∧ i.shardTotal = 0 := by
    intro i j hsame hno htotal
    cases b with
    | mysql => exact hsame
    | teststore => exact ⟨hsame.1.trans hno, hsame.2.trans htotal⟩
  induction h with
  | @handled shard idTime triggerTime _ hshard hinst =>
    rw [shardCount_of_uniform hu] at hshard
    exact hread hinst (show (shard : Int) = 0 by omega) hu.totalShards
  | triggered _ _ hinst => exact hread hinst rfl rfl
  | @published _ shard idTime triggerTime _ _ hshard hinst =>
    rw [shardCount_of_uniform hu] at hshard
    exact hread hinst (show (shard : Int) = 0 by omega) hu.totalShards
  | retried _ _ _ hretry ih => exact hread hretry ih.1 ih.2

theorem Sent.plainWork (hu : Uniform url task) (h : Sent b url task o shard req) :
    PlainWork url task req := by
  cases h with
  | handleTask hshard h =>
    rw [shardCount_of_uniform hu] at hshard
    refine h.of_calls (sends_runShard ?_)
    intro inst
    exact ⟨rfl, rfl, rfl, hu.image, rfl, show (shard : Int) = 0 by omega, hu.totalShards, rfl, rfl⟩
  | onTrigger h =>
    refine h.of_calls (sends_triggerEnabled ?_)
    intro inst
    exact ⟨rfl, rfl, rfl, hu.image, rfl, rfl, rfl, rfl, rfl⟩
  | @publish ev _ _ hev hshard h =>
    rw [shardCount_of_uniform hu] at hshard
    obtain ⟨hname, htype, hstatus, hne⟩ := awaits_iff.mp hev
    obtain ⟨hurl, hliteral⟩ := hu.event htype hstatus hne
    refine h.of_calls (sends_publishShard ?_)
    intro inst
    exact ⟨rfl, rfl, (render_eq_iff task).mpr hliteral ev hname, rfl, rfl,
      show (shard : Int) = 0 by omega, hu.totalShards, rfl, hurl.symm⟩
  | retryIfNeeded hinst h =>
    obtain ⟨hno, htotal⟩ := hinst.unsharded hu
    refine h.of_calls (sends_createRetry ?_)
    intro retry
    exact ⟨rfl, rfl, rfl, rfl, rfl, hno, htotal, rfl, rfl⟩
  | retryLoop worker hinst h =>
    obtain ⟨hno, htotal⟩ := hinst.unsharded hu
    refine h.of_calls (sends_retryLoop worker ?_)
    exact ⟨rfl, rfl, rfl, rfl, rfl, hno, htotal, rfl, rfl⟩

end Agree

/-! ## Where they do not. -/

section Differ

variable (b : Backend) (url : String) (task : Task)

def picked : WorkerNode := { id := "w", labels := task.labels, currentLoad := 1 }

theorem matchLabels_self (labels : Labels) : matchLabels labels labels = true := by
  unfold matchLabels
  rw [List.all_eq_true]
  intro kv hkv
  have hget : labels.get? kv.1 = some kv := Table.get?_of_mem hkv
  rw [hget]
  simp

theorem returns_pick : Returns (S := System)
    (Except.ok (picked task)) (Router.pick (selectOptions task)) := by
  let free : WorkerNode := { picked task with currentLoad := 0 }
  have hfilter : Router.filterByLabels [free] (selectOptions task).labels = [free] := by
    unfold Router.filterByLabels
    split
    · rfl
    have hself : matchLabels (decodeLabels free.labels) (selectOptions task).labels
        = true := matchLabels_self (decodeLabels task.labels)
    rw [List.filter_cons, if_pos hself]
    rfl
  refine ⟨.ok [free], ?_⟩
  dsimp only [Prog.bind]
  rw [hfilter]
  show Prog.Returns (S := System) _ (Router.choose task.routeStrategy free [] >>= Router.reserve)
  cases task.routeStrategy with
  | roundRobin => exact ⟨0, .ok (), rfl⟩
  | leastLoaded | other text => exact ⟨.ok (), rfl⟩

theorem sent_handleTask : Sent b url task .scheduled 0
    (shardRequest url task 0 {}) := by
  obtain ⟨k, hk⟩ := shardCount_eq_succ task
  refine Sent.handleTask (by rw [hk]; exact Nat.succ_pos k) ⟨picked task, ?_⟩
  refine .inr ⟨0, .inr ⟨0, .inr ⟨.ok {}, ?_⟩⟩⟩
  apply makes_bind (returns_pick task)
  exact .inr ⟨0, .inr ⟨.ok (), .inl rfl⟩⟩

theorem sent_onTrigger : Sent b url task .scheduled 0
    (Engine.triggerRequest url task {}) := by
  refine Sent.onTrigger ⟨picked task, ?_⟩
  refine .inr ⟨0, .inr ⟨0, .inr ⟨.ok {}, ?_⟩⟩⟩
  apply makes_bind (returns_pick task)
  exact .inr ⟨0, .inr ⟨.ok (), .inl rfl⟩⟩

theorem sent_publish (hev : Awaits task ev) :
    Sent b url task (.event ev) 0 (Events.eventRequest task 0 {} ev) := by
  obtain ⟨k, hk⟩ := shardCount_eq_succ task
  refine Sent.publish hev (by rw [hk]; exact Nat.succ_pos k) ⟨picked task, ?_⟩
  refine .inr ⟨0, .inr ⟨0, .inr ⟨.ok {}, ?_⟩⟩⟩
  apply makes_bind (returns_pick task)
  exact .inr ⟨0, .inr ⟨.ok (), .inl rfl⟩⟩

variable {b url task} in
theorem sent_retryLoop (h : Attempt b task o shard inst) :
    Sent b url task o shard (RetryLoop.retryRequest url task inst) :=
  Sent.retryLoop (picked task) h ⟨picked task, .inr ⟨0, .inr ⟨.ok (), .inl rfl⟩⟩⟩

end Differ

/-! ## The result. -/

/-- **THE SITES AGREE, for every pair of requests for one shard, exactly when the task is
`Uniform`.** -/
theorem requests_agree_iff (b : Backend) (url : String) (t : Task) :
    (∀ o o' shard r r', Sent b url (readTask b t) o shard r →
        Sent b url (readTask b t) o' shard r' → SameWork o o' r r')
      ↔ Uniform url (readTask b t) := by
  generalize readTask b t = task
  constructor
  · intro h
    obtain ⟨k, hk⟩ := TriggerLoop.shardCount_eq_succ task
    have hpos : 0 < TriggerLoop.shardCount task := by omega
    have hloop := sent_handleTask b url task
    -- the image: trigger loop against retry loop
    have hretry : Sent b url task .scheduled 0 _ :=
      sent_retryLoop (Attempt.handled 0 0 hpos ⟨rfl, rfl⟩)
    have himage := (h _ _ _ _ _ hloop hretry).image
    -- the shard: trigger loop against engine
    have htotal := (h _ _ _ _ _ hloop (sent_onTrigger b url task)).shardTotal
    refine ⟨himage, htotal, ?_⟩
    intro htype hstatus hne
    -- the URL: trigger loop against event; the payload: event against its retry
    constructor
    · have hev : Awaits task { eventName := task.eventName } :=
        awaits_iff.mpr ⟨rfl, htype, hstatus, hne⟩
      exact (h _ _ _ _ _ hloop (sent_publish b url task hev)).schedulerURL
    · apply (render_eq_iff task).mp
      intro ev hname
      have hev : Awaits task ev := awaits_iff.mpr ⟨hname, htype, hstatus, hne⟩
      have hagain : Sent b url task (.event ev) 0 _ :=
        sent_retryLoop (Attempt.published 0 0 hev hpos ⟨rfl, rfl⟩)
      exact (h _ _ _ _ _ (sent_publish b url task hev) hagain).payload rfl
  · intro hu o o' shard r r' hr hr'
    exact (hr.plainWork hu).sameWork (hr'.plainWork hu) o o'

def shellTask : Task := { id := 1, type := "shell", payload := "date", status := .enabled }

theorem requests_agree_shell :
    SameWork .scheduled .scheduled
      (TriggerLoop.shardRequest "http://scheduler" (readTask .mysql shellTask) 0 {})
      (RetryLoop.retryRequest "http://scheduler" (readTask .mysql shellTask) {}) :=
  (requests_agree_iff .mysql "http://scheduler" shellTask).mpr
    ⟨rfl, rfl, fun h => absurd h (by decide)⟩ _ _ _ _ _ (sent_handleTask _ _ _)
    (sent_retryLoop (Attempt.handled 0 0 (by decide) ⟨rfl, rfl⟩))

def containerTask : Task := { shellTask with type := "container", image := "busybox" }

/-- **A container is retried without its image.** -/
theorem image_left_out :
    Sent .mysql "http://scheduler" (readTask .mysql containerTask) .scheduled 0
        (TriggerLoop.shardRequest "http://scheduler" (readTask .mysql containerTask) 0 {})
      ∧ Sent .mysql "http://scheduler" (readTask .mysql containerTask) .scheduled 0
        (RetryLoop.retryRequest "http://scheduler" (readTask .mysql containerTask) {})
      ∧ ¬ SameWork .scheduled .scheduled
        (TriggerLoop.shardRequest "http://scheduler" (readTask .mysql containerTask) 0 {})
        (RetryLoop.retryRequest "http://scheduler" (readTask .mysql containerTask) {}) :=
  ⟨sent_handleTask _ _ _, sent_retryLoop (Attempt.handled 0 0 (by decide) ⟨rfl, rfl⟩),
    fun h => absurd h.image (by decide)⟩

end AiScheduler.Requests
