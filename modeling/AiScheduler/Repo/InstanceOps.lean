/-
  **THE CALLS OF THE TASK-INSTANCE REPOSITORY**, each as both stores answer it.

  Each call carries the order in which it meets its rows (`Scan`), so that rows that compare equal
  come out as either store may give them.
-/
import AiScheduler.Repo.Instances

namespace AiScheduler

open Lib

/-! ## The dispatch time as a text. -/

/-- The `dispatchTime` of `UpdateInstanceDispatch`, by what `time.Parse` makes of it. -/
inductive TimeText where
  | empty
  | malformed (cause : Err)
  | time (t : Int)
  deriving DecidableEq, Repr

/-- `parseDispatchTime`; NULL is the zero time. -/
def parseDispatchTime : TimeText → Except Err Int
  | .empty => .ok 0
  | .malformed cause => .error (.wrap "parse dispatch time" cause)
  | .time t => .ok t

/-- The time the in-memory store keeps: the given one, else the one it has. -/
def TimeText.orElse : TimeText → Int → Int
  | .time t, _ => t
  | _, stored => stored

/-- `UpdateInstanceDispatch` on the text. -/
def InstanceStore.updateDispatchText (b : Backend) (now : Int) (s : InstanceStore) (id : Int)
    (workerID : String) (dispatchTime : TimeText) : Except Err Unit × InstanceStore :=
  match b with
  | .mysql =>
    -- the text is parsed before any statement is sent
    match parseDispatchTime dispatchTime with
    | .error e => (.error e, s)
    | .ok t => s.updateInstanceDispatch .mysql now id workerID t
  | .teststore =>
    -- a text that does not parse is dropped, the row is assigned all the same
    s.updateByID .teststore id
      (fun i => setDispatch now workerID (dispatchTime.orElse i.dispatchTime) i) (fun _ => rfl)

/-! ## Queries. -/

def InstanceStore.listInstances (b : Backend) (scan : Scan TaskInstance) (s : InstanceStore) :
    List TaskInstance :=
  (s.select scan (fun _ => true) TaskInstance.id).map (readInstance b)

def InstanceStore.listInstancesByTaskID (b : Backend) (scan : Scan TaskInstance) (s : InstanceStore)
    (taskID : Int) : List TaskInstance :=
  (s.select scan (fun i => i.taskID = taskID) TaskInstance.createdAt).map (readInstance b)

/-- `created_at >= from AND created_at <= to`. -/
def TaskInstance.createdWithin (i : TaskInstance) (since till : Int) : Bool :=
  since ≤ i.createdAt ∧ i.createdAt ≤ till

/-- MySQL has `LIMIT limit OFFSET offset`, which it refuses without a limit; the in-memory store
cuts off `offset` rows only if some remain. -/
def page (b : Backend) (limit offset : Int) (rows : List TaskInstance) :
    Except Err (List TaskInstance) :=
  match b with
  | .mysql =>
    if 0 < offset ∧ ¬ 0 < limit then
      .error (.wrap "list instances by time range"
        (.text "Error 1064 (42000): You have an error in your SQL syntax"))
    else .ok (limited limit (rows.drop offset.toNat))
  | .teststore =>
    .ok (limited limit (if 0 < offset ∧ offset < rows.length then rows.drop offset.toNat else rows))

/-- `ListInstancesByTimeRange`, latest first. -/
def InstanceStore.listInstancesByTimeRange (b : Backend) (scan : Scan TaskInstance)
    (s : InstanceStore)
    (since till limit offset : Int) : Except Err (List TaskInstance) :=
  (page b limit offset
    (s.select scan (fun i => i.createdWithin since till) (fun i => - i.createdAt))).map
      (List.map (readInstance b))

/-! ## The calls. -/

inductive InstanceOp where
  | createInstance (i : TaskInstance)
  | getInstance (id : Int)
  | getInstanceByScheduleID (scheduleID : String)
  | listInstances
  | listInstancesByTaskID (taskID : Int)
  | listInstancesByTimeRange (since till limit offset : Int)
  | listInstancesByStatus (status : InstanceStatus) (limit : Int)
  | listDueRetryInstances (cutoff limit : Int)
  | countInstancesByStatus (status : InstanceStatus)
  | updateInstanceStatus (id : Int) (status : InstanceStatus)
  | updateInstanceDispatch (id : Int) (workerID : String) (dispatchTime : TimeText)
  | updateInstanceResult (scheduleID : String) (status : InstanceStatus)
      (errorCode errorMessage : String)
  | updateInstanceTimestamps (scheduleID : String) (startedAt finishedAt : Int)

/-- What a call that does not fail returns. -/
inductive InstanceReply where
  | done
  | one (i : TaskInstance)
  | many (is : List TaskInstance)
  | count (n : Int)
  deriving DecidableEq, Repr

/-- One call at the clock reading `now`. -/
def InstanceOp.exec (b : Backend) (now : Int) (scan : Scan TaskInstance) (s : InstanceStore) :
    InstanceOp → Except Err InstanceReply × InstanceStore
  | .createInstance i => ((s.createInstance b now i).1.map .one, (s.createInstance b now i).2)
  | .getInstance id => ((s.getInstance b id).map .one, s)
  | .getInstanceByScheduleID sid => ((s.getInstanceByScheduleID b sid).map .one, s)
  | .listInstances => (.ok (.many (s.listInstances b scan)), s)
  | .listInstancesByTaskID taskID => (.ok (.many (s.listInstancesByTaskID b scan taskID)), s)
  | .listInstancesByTimeRange since till limit offset =>
    ((s.listInstancesByTimeRange b scan since till limit offset).map .many, s)
  | .listInstancesByStatus status limit =>
    (.ok (.many (s.listInstancesByStatus b scan status limit)), s)
  | .listDueRetryInstances cutoff limit =>
    (.ok (.many (s.listDueRetryInstances b scan cutoff limit)), s)
  | .countInstancesByStatus status => (.ok (.count (s.countInstancesByStatus status)), s)
  | .updateInstanceStatus id status =>
    ((s.updateInstanceStatus b now id status).1.map (fun _ => .done),
      (s.updateInstanceStatus b now id status).2)
  | .updateInstanceDispatch id workerID dispatchTime =>
    ((s.updateDispatchText b now id workerID dispatchTime).1.map (fun _ => .done),
      (s.updateDispatchText b now id workerID dispatchTime).2)
  | .updateInstanceResult sid status errorCode errorMessage =>
    ((s.updateInstanceResult b now sid status errorCode errorMessage).1.map (fun _ => .done),
      (s.updateInstanceResult b now sid status errorCode errorMessage).2)
  | .updateInstanceTimestamps sid startedAt finishedAt =>
    ((s.updateInstanceTimestamps b now sid startedAt finishedAt).1.map (fun _ => .done),
      (s.updateInstanceTimestamps b now sid startedAt finishedAt).2)

/-- The instance without its creation and update stamps. -/
def TaskInstance.unstamped (i : TaskInstance) : TaskInstance :=
  { i with createdAt := 0, updatedAt := 0 }

/-- The reply without stamps. -/
def InstanceReply.unstamped : InstanceReply → InstanceReply
  | .done => .done
  | .one i => .one i.unstamped
  | .many is => .many (is.map TaskInstance.unstamped)
  | .count n => .count n

/-- The store before the first call; `AUTO_INCREMENT` and `nextID` start at 1. -/
def InstanceStore.empty : InstanceStore where
  instances := Table.empty
  nextID := 1
  fresh := by
    intro i hi
    simp [Table.empty] at hi

/-- A call on both stores at one clock reading, with each one's row order. -/
structure PairedCall where
  op : InstanceOp
  now : Int
  scan : Backend → Scan TaskInstance

/-- The store after a call. -/
def PairedCall.next (b : Backend) (s : InstanceStore) (c : PairedCall) : InstanceStore :=
  (c.op.exec b c.now (c.scan b) s).2

end AiScheduler
