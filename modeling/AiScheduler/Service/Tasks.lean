/-
  **THE TASK SERVICE** (`internal/api/service/task_service.go`): every
  operation reads the task, changes the copy and writes the whole row back.

  `tenant` is the tenant in the request's context, 0 for none.  Audit records
  and metrics are left out.
-/
import AiScheduler.Cron.Expr
import AiScheduler.System.Calls

namespace AiScheduler.TaskService

open Lib

structure TaskUpsertRequest where
  name : String := ""
  type : String := ""
  cronExpr : String := ""
  payload : String := ""
  image : String := ""
  status : TaskStatus := .other ""
  timeoutSeconds : Int := 0
  maxRetry : Int := 0
  retryPolicy : RetryPolicy := .other ""
  retryOnErrors : String := ""
  routeStrategy : RouteStrategy := .other ""
  labels : Labels := Table.empty
  nextTriggerTime : Int := 0
  tenantID : Int := 0
  dependsOn : List Int := []

def checkTenant (tenant : Int) (task : Task) : Except Err Unit :=
  if tenant = 0 ∨ task.tenantID = 0 then .ok ()
  else if task.tenantID ≠ tenant then .error .taskNotOwned
  else .ok ()

theorem checkTenant_eq_ok_iff (tenant : Int) (task : Task) :
    checkTenant tenant task = .ok () ↔ tenant = 0 ∨ task.tenantID = 0 ∨ task.tenantID = tenant := by
  unfold checkTenant
  split
  next h =>
    rcases h with h | h <;> simp [h]
  next h =>
    rw [not_or] at h
    split
    next hne => simp [h.1, h.2, hne]
    next heq => simp [Decidable.not_not.mp heq]

/-! ## Building a task from a request. -/

/-- The trigger time of the built task; the clock is read only when it has to
be computed. -/
def requestedTrigger (req : TaskUpsertRequest) : Program (Except Err Int) :=
  if req.cronExpr = "" then return .ok req.nextTriggerTime
  else
    match Cron.validate req.cronExpr with
    | .error _ => return .error .invalidCronExpr
    | .ok () =>
      if req.nextTriggerTime ≠ 0 then return .ok req.nextTriggerTime
      else do
        let now ← timeNow
        match Cron.nextAfter now req.cronExpr with
        | .error _ => return .error .invalidCronExpr
        | .ok next => return .ok next

/-- The task of a request, defaults filled in. -/
def requestedTask (id : Int) (req : TaskUpsertRequest) (nextTriggerTime : Int) : Task where
  id := id
  name := req.name
  type := req.type
  cronExpr := req.cronExpr
  payload := req.payload
  image := req.image
  status := if req.status = .other "" then .enabled else req.status
  timeoutSeconds := if req.timeoutSeconds ≤ 0 then 300 else req.timeoutSeconds
  maxRetry := if req.maxRetry < 0 then 0 else req.maxRetry
  retryPolicy := if req.retryPolicy = .other "" then .fixedInterval else req.retryPolicy
  retryOnErrors := req.retryOnErrors
  routeStrategy := if req.routeStrategy = .other "" then .roundRobin else req.routeStrategy
  labels := encodeLabels req.labels
  nextTriggerTime := nextTriggerTime
  tenantID := req.tenantID

def buildTask (id : Int) (req : TaskUpsertRequest) : Program (Except Err Task) :=
  if (Cron.trimSpace req.name.toList).isEmpty then return .error .taskNameRequired
  else if (Cron.trimSpace req.type.toList).isEmpty then return .error .taskTypeRequired
  else do
    match ← requestedTrigger req with
    | .error e => return .error e
    | .ok next => return .ok (requestedTask id req next)

/-! ## Dependencies. -/

/-- Remove the edges to these tasks. -/
def removeDeps (taskID : Int) : List Int → Program (Except Err Unit)
  | [] => return .ok ()
  | id :: ids => do
    match ← removeDependency taskID id with
    | .error e => return .error e
    | .ok () => removeDeps taskID ids

/-- Add edges to these tasks. -/
def addDeps (taskID : Int) : List Int → Program (Except Err Unit)
  | [] => return .ok ()
  | id :: ids => do
    match ← addDependency taskID id with
    | .error e => return .error e
    | .ok () => addDeps taskID ids

/-- `syncDependencies`; both loops run over Go maps. -/
def syncDependencies (taskID : Int) (dependsOn : List Int) : Program (Except Err Unit) := do
  match ← listUpstreamDeps taskID with
  | .error e => return .error e
  | .ok existing => do
    let stale ← rangeOrder existing.dedup
    match ← removeDeps taskID (stale.filter (fun id => id ∉ dependsOn)) with
    | .error e => return .error e
    | .ok () => do
      let wanted ← rangeOrder dependsOn.dedup
      addDeps taskID (wanted.filter (fun id => id ∉ existing))

/-! ## The operations. -/

/-- The common start: load the task and check its tenant. -/
def loadOwned (tenant id : Int) : Program (Except Err Task) :=
  if id ≤ 0 then return .error .taskIDRequired
  else do
    match ← getTask id with
    | .error e => return .error e
    | .ok task =>
      match checkTenant tenant task with
      | .error e => return .error e
      | .ok () => return .ok task

def pauseTask (tenant id : Int) : Program (Except Err Task) := do
  match ← loadOwned tenant id with
  | .error e => return .error e
  | .ok task => updateTask { task with status := .disabled }

def resumeTask (tenant id : Int) : Program (Except Err Task) := do
  match ← loadOwned tenant id with
  | .error e => return .error e
  | .ok task =>
    if task.cronExpr = "" then updateTask { task with status := .enabled }
    else do
      let now ← timeNow
      match Cron.nextAfter now task.cronExpr with
      | .error _ => return .error .invalidCronExpr
      | .ok next => updateTask { task with status := .enabled, nextTriggerTime := next }

def triggerTask (tenant id : Int) : Program (Except Err Task) := do
  match ← loadOwned tenant id with
  | .error e => return .error e
  | .ok task =>
    if task.status ≠ .enabled then return .error .taskNotEnabled
    else do
      let now ← timeNow
      updateTask { task with nextTriggerTime := now - second }

/-- The time `UpdateTask` stores: the built one, else the current one, recomputed for a new
expression. -/
def updatedTrigger (task current : Task) : Program (Except Err Int) :=
  if task.nextTriggerTime ≠ 0 then return .ok task.nextTriggerTime
  else if task.cronExpr ≠ current.cronExpr ∧ task.cronExpr ≠ "" then do
    let now ← timeNow
    match Cron.nextAfter now task.cronExpr with
    | .error _ => return .error .invalidCronExpr
    | .ok next => return .ok next
  else return .ok current.nextTriggerTime

/-- The write of `UpdateTask` and what follows it. -/
def storeUpdated (task : Task) (dependsOn : List Int) : Program (Except Err Task) := do
  match ← updateTask task with
  | .error e => return .error e
  | .ok stored =>
    match ← syncDependencies stored.id dependsOn with
    | .error e => return .error e
    | .ok () => return .ok stored

def updateTask (tenant id : Int) (req : TaskUpsertRequest) : Program (Except Err Task) := do
  match ← loadOwned tenant id with
  | .error e => return .error e
  | .ok current =>
    match ← buildTask id req with
    | .error e => return .error e
    | .ok task =>
      match ← updatedTrigger task current with
      | .error e => return .error e
      | .ok next =>
        storeUpdated
          { task with
            createdAt := current.createdAt, version := current.version
            nextTriggerTime := next }
          req.dependsOn

/-- The write of `CreateTask` and what follows it. -/
def storeCreated (task : Task) (dependsOn : List Int) : Program (Except Err Task) := do
  match ← createTask task with
  | .error e => return .error e
  | .ok stored =>
    match ← syncDependencies stored.id dependsOn with
    | .error e => return .error e
    | .ok () => return .ok stored

/-- `CreateTask`: the tenant of the body, else the one of the context. -/
def createTask (tenant : Int) (req : TaskUpsertRequest) : Program (Except Err Task) := do
  match ← buildTask 0 req with
  | .error e => return .error e
  | .ok task =>
    storeCreated { task with tenantID := if task.tenantID = 0 then tenant else task.tenantID }
      req.dependsOn

def deleteTask (tenant id : Int) : Program (Except Err Unit) := do
  match ← loadOwned tenant id with
  | .error e => return .error e
  | .ok _ => AiScheduler.deleteTask id

def getTask (tenant id : Int) : Program (Except Err Task) := loadOwned tenant id

def listTasks (tenant : Int) : Program (Except Err (List Task)) :=
  if tenant ≠ 0 then listTasksByTenant tenant else AiScheduler.listTasks

end AiScheduler.TaskService
