/-
  **THE WORKER PROCESS** (`internal/worker`): the execution of a request with its duplicate check,
  the store of undelivered reports, and the loops that flush it and evict old duplicate entries.

  One call is one access to what the goroutines share, one message to the scheduler, or the start
  or end of an execution. `Store.Buffer`, `Store.Remove` and the directory listing are one call
  each, under the store's lock; `Store.Flush` reads, delivers and deletes OUTSIDE it.
-/
import AiScheduler.Service.Workers

namespace AiScheduler.Worker

open Lib

/-! ## Calls. -/

structure StoredReport where
  schedulerURL : String
  report : TaskStatusReportRequest
  storedAt : Int
  deriving DecidableEq, Repr

/-- What a file of the store's directory holds: a stored report, or bytes that
`json.Unmarshal` refuses. -/
inductive Content where
  | report (sr : StoredReport)
  | other
  deriving DecidableEq, Repr

/-- The calls of the process. -/
inductive Act where
  | timeNow
  /-- `dedupMap`. -/
  | loadOrStore (scheduleID : String) (seen : Int)
  | dedupRange
  | dedupLoad (key : String)
  | dedupDelete (key : String)
  /-- `running.Add`. -/
  | addRunning (delta : Int)
  /-- Messages to the scheduler. -/
  | ack (schedulerURL scheduleInstanceID workerID : String)
  | report (schedulerURL : String) (req : TaskStatusReportRequest)
  /-- Contexts, and the map `cancels` of their cancel functions. -/
  | withTimeout (timeout : Int)
  | cancelContext (ctx : Nat)
  | storeCancel (scheduleID : String) (ctx : Nat)
  | loadCancel (scheduleID : String)
  | deleteCancel (scheduleID : String)
  /-- An execution begins, and is over. -/
  | execute (ctx : Nat) (req : ExecuteTaskRequest)
  | await (ctx : Nat) (req : ExecuteTaskRequest)
  /-- The store's directory. -/
  | readDir
  | readFile (name : String)
  | writeFile (name : String) (sr : StoredReport)
  | removeFile (name : String)

abbrev Act.Ans : Act → Type
  | timeNow => Int
  | loadOrStore _ _ => Bool
  | dedupRange => List String
  | dedupLoad _ => Option Int
  | dedupDelete _ => Unit
  | addRunning _ => Unit
  | ack _ _ _ | report _ _ => Bool
  | withTimeout _ => Nat
  | cancelContext _ => Unit
  | storeCancel _ _ => Unit
  | loadCancel _ => Option Nat
  | deleteCancel _ => Unit
  | execute _ _ => Unit
  | await _ _ => ExecutionOutcome
  | readDir => Option (List (String × Bool))
  | readFile _ => Option Content
  | writeFile _ _ | removeFile _ => Bool

/-- The signature of the process. -/
abbrev Process : Sig := ⟨Act, Act.Ans⟩

abbrev Proc (α : Type) := Prog Process α

/-- A `sync.Map`, or a directory: values under names. -/
abbrev Entries (α : Type) := Table (Prod.fst : String × α → String)

/-- The state the goroutines share. -/
structure State where
  dedup : Entries Int := Table.empty
  running : Int := 0
  cancels : Entries Nat := Table.empty
  /-- Contexts made so far, numbered from 0, and those cancelled. -/
  contexts : Nat := 0
  cancelled : List Nat := []
  files : Entries Content := Table.empty
  dirs : List String := []

/-- The environment's contribution to one call. -/
structure Env where
  now : Int := 0
  /-- The scheduler answers a message without an error. -/
  delivered : Bool := true
  outcome : ExecutionOutcome := .succeeded ""
  /-- A file operation fails. -/
  fault : Bool := false
  /-- The order in which `Range` visits a map. -/
  shuffle : List String → List String := id
  shuffle_perm : ∀ l, (shuffle l).Perm l := by exact fun l => List.Perm.refl l

def exec (env : Env) : (a : Act) → State → Act.Ans a × State
  | .timeNow, s => (env.now, s)
  | .loadOrStore id seen, s =>
    match s.dedup.get? id with
    | some _ => (true, s)
    | none => (false, { s with dedup := s.dedup.upsert (id, seen) })
  | .dedupRange, s => (env.shuffle (s.dedup.rows.map Prod.fst), s)
  | .dedupLoad key, s => ((s.dedup.get? key).map Prod.snd, s)
  | .dedupDelete key, s => ((), { s with dedup := s.dedup.remove key })
  | .addRunning delta, s => ((), { s with running := s.running + delta })
  | .ack _ _ _, s => (env.delivered, s)
  | .report _ _, s => (env.delivered, s)
  | .withTimeout _, s => (s.contexts, { s with contexts := s.contexts + 1 })
  | .cancelContext ctx, s => ((), { s with cancelled := ctx :: s.cancelled })
  | .storeCancel id ctx, s => ((), { s with cancels := s.cancels.upsert (id, ctx) })
  | .loadCancel id, s => ((s.cancels.get? id).map Prod.snd, s)
  | .deleteCancel id, s => ((), { s with cancels := s.cancels.remove id })
  | .execute _ _, s => ((), s)
  | .await _ _, s => (env.outcome, s)
  | .readDir, s =>
    if env.fault then (none, s)
    else (some (s.files.rows.map (fun f => (f.1, false)) ++ s.dirs.map (fun d => (d, true))), s)
  | .readFile name, s =>
    if env.fault then (none, s) else ((s.files.get? name).map Prod.snd, s)
  | .writeFile name sr, s =>
    if env.fault then (false, s)
    else (true, { s with files := s.files.upsert (name, .report sr) })
  | .removeFile name, s =>
    if env.fault then (false, s) else (true, { s with files := s.files.remove name })

theorem exec_readFile (env : Env) (name : String) (s : State) :
    exec env (.readFile name) s
      = (if env.fault then none else (s.files.get? name).map Prod.snd, s) := by
  unfold exec
  split <;> rfl

theorem exec_writeFile (env : Env) (name : String) (sr : StoredReport) (s : State) :
    exec env (.writeFile name sr) s = if env.fault then (false, s)
        else (true, { s with files := s.files.upsert (name, .report sr) }) := rfl

theorem exec_removeFile (env : Env) (name : String) (s : State) :
    exec env (.removeFile name) s
      = if env.fault then (false, s) else (true, { s with files := s.files.remove name }) := rfl

abbrev act (a : Act) : Proc (Act.Ans a) := Prog.perform (S := Process) a

/-! ## The store. -/

/-- The file of a schedule instance. -/
def fileName (scheduleInstanceID : String) : String := scheduleInstanceID ++ ".json"

def unix (t : Int) : Int := (t - unixEpoch) / second

def buffer (schedulerURL : String) (report : TaskStatusReportRequest) : Proc Unit := do
  let now ← act .timeNow
  let _ ← act (.writeFile (fileName report.scheduleInstanceID)
    { schedulerURL, report, storedAt := unix now })
  return ()

def remove (scheduleInstanceID : String) : Proc Unit := do
  let _ ← act (.removeFile (fileName scheduleInstanceID))
  return ()

/-- The loop of `Store.Flush`: how many reports remain. -/
def flushEntries : List (String × Bool) → Int → Proc Int
  | [], remaining => return remaining
  | (name, isDir) :: entries, remaining =>
    if isDir then flushEntries entries remaining
    else do
      match ← act (.readFile name) with
      | none => flushEntries entries (remaining + 1)
      | some .other => do
        let _ ← act (.removeFile name)
        flushEntries entries remaining
      | some (.report sr) => do
        if ← act (.report sr.schedulerURL sr.report) then do
          let _ ← act (.removeFile name)
          flushEntries entries remaining
        else flushEntries entries (remaining + 1)

def flush : Proc Int := do
  match ← act .readDir with
  | none => return -1
  | some entries => flushEntries entries 0

/-! ## Executions. -/

/-- `Handler`: the worker's id, and whether the local store could be opened. -/
structure Handler where
  workerID : String
  localStore : Bool := true

def isDuplicate (scheduleID : String) : Proc Bool := do
  let now ← act .timeNow
  act (.loadOrStore scheduleID now)

/-- The timeout of an execution. -/
def executionTimeout (req : ExecuteTaskRequest) : Int :=
  let timeout := wrap64 (req.timeoutSeconds * second)
  if timeout ≤ 0 then 300 * second else timeout

/-- The end of `Handler.run`: the final report, kept on disk if it fails. -/
def reportFinal (h : Handler) (req : ExecuteTaskRequest) (report : TaskStatusReportRequest) :
    Proc Unit := do
  if ← act (.report req.schedulerURL report) then
    if h.localStore then remove req.scheduleInstanceID else return ()
  else
    if h.localStore then buffer req.schedulerURL report else return ()

/-- `Handler.run` past the duplicate check, with its deferred calls at the end. -/
def runAdmitted (h : Handler) (req : ExecuteTaskRequest) : Proc Unit := do
  act (.addRunning 1)
  let _ ← act (.ack req.schedulerURL req.scheduleInstanceID h.workerID)
  let _ ← act (.report req.schedulerURL
    { scheduleInstanceID := req.scheduleInstanceID, workerID := h.workerID, status := .running })
  let ctx ← act (.withTimeout (executionTimeout req))
  act (.storeCancel req.scheduleInstanceID ctx)
  let startedAt ← act .timeNow
  act (.execute ctx req)
  let outcome ← act (.await ctx req)
  let finishedAt ← act .timeNow
  reportFinal h req (Workers.finalReport h.workerID req outcome startedAt finishedAt)
  act (.deleteCancel req.scheduleInstanceID)
  act (.cancelContext ctx)
  act (.addRunning (-1))

def run (h : Handler) (req : ExecuteTaskRequest) : Proc Unit := do
  if ← isDuplicate req.scheduleInstanceID then return ()
  else runAdmitted h req

/-- `Handler.Cancel`; `false` for a task that is not found. -/
def cancel (scheduleID : String) : Proc Bool := do
  match ← act (.loadCancel scheduleID) with
  | some ctx => do
    act (.cancelContext ctx)
    return true
  | none => return false

/-! ## Eviction. -/

/-- The loop of an eviction tick over the keys of `dedupMap`. -/
def evictKeys (cutoff : Int) : List String → Proc Unit
  | [] => return ()
  | key :: keys => do
    match ← act (.dedupLoad key) with
    | none => evictKeys cutoff keys
    | some seen =>
      if seen < cutoff then do
        act (.dedupDelete key)
        evictKeys cutoff keys
      else evictKeys cutoff keys

theorem calls_evictKeys {φ : Act → Prop} (hload : ∀ key, φ (.dedupLoad key))
    (hdelete : ∀ key, φ (.dedupDelete key)) (cutoff : Int) :
    ∀ keys : List String, Prog.Calls (S := Process) φ (evictKeys cutoff keys) := by
  intro keys
  induction keys with
  | nil => trivial
  | cons key keys ih =>
  refine ⟨hload key, ?_⟩
  intro seen
  cases seen with
  | none => exact ih
  | some seen =>
    show Prog.Calls (S := Process) φ (if seen < cutoff then _ else _)
    split
    · exact ⟨hdelete key, fun _ => ih⟩
    · exact ih

/-- One tick of `StartDedupEviction`. -/
def evictTick (ttl : Int) : Proc Unit := do
  let now ← act .timeNow
  let keys ← act .dedupRange
  evictKeys (now - (if ttl ≤ 0 then 5 * minute else ttl)) keys

/-! ## Goroutines. -/

/-- What the process starts: a request, a flush, an eviction tick, a cancel request. -/
inductive Job where
  | run (req : ExecuteTaskRequest)
  | flush
  | evictTick
  | cancel (scheduleID : String)

/-- The program of a goroutine; `main` evicts after five minutes. -/
def Job.body (h : Handler) : Job → Proc Unit
  | .run req => Worker.run h req
  | .flush => do
    let _ ← Worker.flush
    return ()
  | .evictTick => Worker.evictTick (5 * minute)
  | .cancel scheduleID => do
    let _ ← Worker.cancel scheduleID
    return ()

abbrev Pool := Config Process State Job Unit

abbrev Step := Label Env Job

/-- **A run of the worker process**: goroutines interleaved call by call, from any disk. -/
def Runs (h : Handler) (ok : Pool → Step → Prop) (s : State) (c : Pool) : Prop :=
  Reaches exec (Job.body h) ok (Config.init s) c

end AiScheduler.Worker
