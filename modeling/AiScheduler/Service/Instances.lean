/-
  **`TaskInstanceService.ListInstancesWithParams`**: the instances behind
  `GET /api/v1/instances`, filtered by task and status and cut into pages.
-/
import AiScheduler.Repo.InstanceOps

namespace AiScheduler.TaskInstanceService

open Lib

/-- `ListInstancesParams`; the empty status, and a task id not above 0, filter nothing. -/
structure ListInstancesParams where
  status : InstanceStatus
  taskID : Int
  limit : Int
  offset : Int

structure InstanceListResult where
  instances : List TaskInstance
  total : Nat
  deriving DecidableEq

/-- `paginateInstances`.  Ids are distinct, so the sort has one outcome. -/
def paginateInstances (instances : List TaskInstance) (limit offset : Int) : List TaskInstance :=
  let sorted := sortBy (fun i => - i.id) instances
  let rest := if 0 < offset ∧ offset < sorted.length then sorted.drop offset.toNat else sorted
  if 0 < limit ∧ limit < rest.length then rest.take limit.toNat else rest

/-- `ListInstancesWithParams`: every branch makes one repository call. -/
def listInstancesWithParams (b : Backend) (scan : Scan TaskInstance) (fault : Option Err)
    (s : InstanceStore) (params : ListInstancesParams) : Except Err InstanceListResult :=
  match fault with
  | some e => .error e
  | none =>
    if params.taskID > 0 then
      let instances := s.listInstancesByTaskID b scan params.taskID
      let instances := if params.status ≠ .other ""
        then instances.filter (fun i => i.status = params.status) else instances
      .ok ⟨paginateInstances instances params.limit params.offset, instances.length⟩
    else if params.status ≠ .other "" then
      -- the limit is the repository's, the offset is not read, and what is counted is the page
      let instances := s.listInstancesByStatus b scan params.status params.limit
      .ok ⟨instances, instances.length⟩
    else
      let all := s.listInstances b scan
      .ok ⟨paginateInstances all params.limit params.offset, all.length⟩

end AiScheduler.TaskInstanceService
