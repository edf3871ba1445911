/-
  **WHAT ARRIVES OVER HTTP AND OVER gRPC.**

  HTTP delivers both messages whole.  gRPC narrows timeout and retry count to 32 bits and has no
  field for shard and idempotency key; the scheduler's server does not copy the execution times out
  of a report.
-/
import AiScheduler.Transport.Delivery

namespace AiScheduler.Transport

/-! ## Execution requests. -/

theorem execute_dispatchHTTP (req : ExecuteTaskRequest) : execute (dispatchHTTP req) = .ok req := by
  simp only [execute, dispatchHTTP, Json.text, Json.number, List.lookup_cons, List.lookup_nil]
  rfl

theorem executeTask_dispatchGRPC (req : ExecuteTaskRequest) :
    executeTask (dispatchGRPC req)
      = { req with
          timeoutSeconds := (Int32.ofInt req.timeoutSeconds).toInt
          retryCount := (Int32.ofInt req.retryCount).toInt
          shardNo := 0, shardTotal := 0, idempotencyKey := "" } := rfl

def Fits32 (n : Int) : Prop := -2 ^ 31 ≤ n ∧ n < 2 ^ 31

instance (n : Int) : Decidable (Fits32 n) := inferInstanceAs (Decidable (_ ∧ _))

theorem narrow_eq_iff (n : Int) : (Int32.ofInt n).toInt = n ↔ Fits32 n := by
  constructor
  · intro h
    rw [← h]
    exact ⟨Int32.le_toInt _, Int32.toInt_lt _⟩
  · intro h
    exact Int32.toInt_ofInt_of_le h.1 h.2

/-- What a gRPC worker receives of a request is all of it. -/
structure Carried (req : ExecuteTaskRequest) : Prop where
  timeoutSeconds : Fits32 req.timeoutSeconds
  retryCount : Fits32 req.retryCount
  shardNo : req.shardNo = 0
  shardTotal : req.shardTotal = 0
  idempotencyKey : req.idempotencyKey = ""

theorem executeTask_eq_iff (req : ExecuteTaskRequest) :
    executeTask (dispatchGRPC req) = req ↔ Carried req := by
  rw [executeTask_dispatchGRPC]
  constructor
  · intro h
    exact ⟨(narrow_eq_iff _).mp (congrArg ExecuteTaskRequest.timeoutSeconds h),
      (narrow_eq_iff _).mp (congrArg ExecuteTaskRequest.retryCount h),
      (congrArg ExecuteTaskRequest.shardNo h).symm,
      (congrArg ExecuteTaskRequest.shardTotal h).symm,
      (congrArg ExecuteTaskRequest.idempotencyKey h).symm⟩
  · intro h
    rw [(narrow_eq_iff _).mpr h.timeoutSeconds, (narrow_eq_iff _).mpr h.retryCount]
    obtain ⟨⟩ := req
    obtain ⟨_, _, hno, htotal, hkey⟩ := h
    subst hno htotal hkey
    rfl

/-! ## Reports. -/

theorem report_reportHTTP (req : TaskStatusReportRequest) : report (reportHTTP req) = .ok req := by
  obtain ⟨sid, worker, status, code, message, startedAt, finishedAt⟩ := req
  cases startedAt with
  | none | some started =>
    cases finishedAt with
    | none | some finished => rfl

theorem reportTaskStatus_eq_iff (req : TaskStatusReportRequest) :
    reportTaskStatus (reportGRPC req) = req ↔ req.startedAt = none ∧ req.finishedAt = none := by
  constructor
  · intro h
    exact ⟨(congrArg TaskStatusReportRequest.startedAt h).symm,
      (congrArg TaskStatusReportRequest.finishedAt h).symm⟩
  · intro h
    obtain ⟨⟩ := req
    obtain ⟨hstarted, hfinished⟩ := h
    subst hstarted hfinished
    rfl

/-! ## The result. -/

/-- Every choice between two deliveries is the same exactly when the first is faithful too. -/
theorem same_iff {α : Type} (isGRPC : String → Prop) [DecidablePred isGRPC]
    {grpc : α} {http : Except Err α} {req : α} (hgrpc : isGRPC "grpc") (hhttp : ¬ isGRPC "http")
    (h : http = .ok req) :
    (∀ p p', (if isGRPC p then .ok grpc else http) = if isGRPC p' then .ok grpc else http)
      ↔ grpc = req := by
  subst h
  constructor
  · intro hall
    have heq := hall "grpc" "http"
    rw [if_pos hgrpc, if_neg hhttp] at heq
    exact Except.ok.inj heq
  · intro heq p p'
    rw [heq, ite_self, ite_self]

/-- **WHEN THE TRANSPORTS DELIVER THE SAME**: an execution request, exactly when gRPC can carry it;
a report, exactly when it names no execution times. -/
theorem transports_agree_iff (req : ExecuteTaskRequest) (rep : TaskStatusReportRequest) :
    ((∀ p p', dispatched p req = dispatched p' req) ↔ Carried req)
      ∧ ((∀ p p', reported p rep = reported p' rep)
          ↔ rep.startedAt = none ∧ rep.finishedAt = none) := by
  constructor
  · rw [← executeTask_eq_iff]
    exact same_iff (fun p => equalFoldGRPC p = true) (by decide) (by decide)
      (execute_dispatchHTTP req)
  · rw [← reportTaskStatus_eq_iff]
    exact same_iff (fun p => (Cron.trimSpace p.toList).map Workers.lower = "grpc".toList)
      (by decide) (by decide) (report_reportHTTP rep)

theorem transports_agree_plain :
    dispatched "grpc" { scheduleInstanceID := "s", taskID := 1, timeoutSeconds := 300 }
        = dispatched "http" { scheduleInstanceID := "s", taskID := 1, timeoutSeconds := 300 }
      ∧ reported "grpc" { scheduleInstanceID := "s", status := .running }
        = reported "http" { scheduleInstanceID := "s", status := .running } :=
  have h := transports_agree_iff { scheduleInstanceID := "s", taskID := 1, timeoutSeconds := 300 }
    { scheduleInstanceID := "s", status := .running }
  ⟨h.1.mpr ⟨by decide, by decide, rfl, rfl, rfl⟩ _ _, h.2.mpr ⟨rfl, rfl⟩ _ _⟩

/-- **A shard sent to a gRPC worker arrives as no shard**, a long timeout as a negative one. -/
theorem shard_dropped :
    dispatched "http" { scheduleInstanceID := "s", shardNo := 1, shardTotal := 4 }
        = .ok { scheduleInstanceID := "s", shardNo := 1, shardTotal := 4 }
      ∧ dispatched "grpc" { scheduleInstanceID := "s", shardNo := 1, shardTotal := 4 }
        = .ok { scheduleInstanceID := "s" }
      ∧ dispatched "grpc" { timeoutSeconds := 2147483648 }
        = .ok { timeoutSeconds := -2147483648 }
      ∧ reported "http" { scheduleInstanceID := "s", startedAt := some 5 }
        = .ok { scheduleInstanceID := "s", startedAt := some 5 }
      ∧ reported "grpc" { scheduleInstanceID := "s", startedAt := some 5 }
        = .ok { scheduleInstanceID := "s" } := by
  decide

end AiScheduler.Transport
