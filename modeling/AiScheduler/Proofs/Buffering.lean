/-
  **NO BUFFERED REPORT IS LOST — as long as no report is stored under a flush that has read the
  file, or under a removal that is on its way.**

  A file is deleted by the goroutine that delivered what it held. Between the two steps it can be
  written anew, and then another report is deleted than was delivered. Moments are lengths of the
  log.
-/
import AiScheduler.Lib.Watch
import AiScheduler.Worker.Process

namespace AiScheduler.Worker

open Lib Prog Config

variable {m : Nat} {φ : Nat → String → TaskStatusReportRequest → Prop} {n : String}
  {sr : StoredReport}

namespace Buffering

/-! ## Reports in the log. -/

abbrev Log := List (Nat × Event Process)

/-- The moment of goroutine `t`'s latest report. -/
def sentAt (t : Nat) : Log → Nat
  | [] => 0
  | (u, ⟨.report _ _, _⟩) :: log => if u = t then log.length + 1 else sentAt t log
  | _ :: log => sentAt t log

/-- A stored report, when it was sent in vain and when it was stored. -/
structure Buffered where
  report : StoredReport
  sent : Nat
  stored : Nat
  deriving DecidableEq

/-- The report that an event stores in a file. -/
def storedIn (name : String) : Event Process → Option StoredReport
  | ⟨.writeFile n sr, stored⟩ => if n = name ∧ stored = true then some sr else none
  | _ => none

/-- **The most recently buffered report of a file**, perhaps from before the process started. -/
def lastBuffered (s : State) (name : String) : Log → Option Buffered
  | [] =>
    match s.files.get? name with
    | some (_, .report sr) => some ⟨sr, 0, 0⟩
    | _ => none
  | (t, e) :: log =>
    match storedIn name e with
    | some sr => some ⟨sr, sentAt t log, log.length + 1⟩
    | none => lastBuffered s name log

/-- The report that an event delivers, and where to. -/
def delivery : Event Process → Option (String × TaskStatusReportRequest)
  | ⟨.report url r, delivered⟩ => if delivered then some (url, r) else none
  | _ => none

/-- After moment `m` a report with property `φ` was delivered. -/
def DeliveredAfter (m : Nat) (φ : Nat → String → TaskStatusReportRequest → Prop) : Log → Prop
  | [] => False
  | (t, e) :: log =>
    (m ≤ log.length ∧ ∃ d ∈ delivery e, φ t d.1 d.2) ∨ DeliveredAfter m φ log

instance decDeliveredAfter [∀ t url r, Decidable (φ t url r)] :
    ∀ log : Log, Decidable (DeliveredAfter m φ log)
  | [] => inferInstanceAs (Decidable False)
  | (t, e) :: log =>
    have := decDeliveredAfter log
    inferInstanceAs (Decidable ((m ≤ log.length ∧ ∃ d ∈ delivery e, φ t d.1 d.2) ∨ _))

/-- Does the event read the file? -/
def readsFile (name : String) : Event Process → Bool
  | ⟨.readFile n, _⟩ => n = name
  | _ => false

/-- Since goroutine `t` read the file, no report was stored in it. -/
def untouched (t : Nat) (name : String) : Log → Bool
  | [] => false
  | (u, e) :: log =>
    (u = t && readsFile name e) || ((storedIn name e).isNone && untouched t name log)

/-- Calls that neither report nor touch a file. -/
def plain : Act → Bool
  | .report _ _ | .readFile _ | .writeFile _ _ | .removeFile _ => false
  | _ => true

section Log

variable {t u : Nat} {a : Act} {ans : Act.Ans a} {log : Log} {name : String} {s : State}

theorem lastBuffered_of_none {e : Event Process} (h : storedIn name e = none) :
    lastBuffered s name ((u, e) :: log) = lastBuffered s name log := by
  rw [lastBuffered, h]

theorem lastBuffered_of_some {e : Event Process} (h : storedIn name e = some sr) :
    lastBuffered s name ((u, e) :: log) = some ⟨sr, sentAt u log, log.length + 1⟩ := by
  rw [lastBuffered, h]

theorem sentAt_of_ne (hu : u ≠ t) : sentAt t ((u, ⟨a, ans⟩) :: log) = sentAt t log := by
  cases a with
  | report url r => exact if_neg hu
  | _ => rfl

theorem sentAt_report_self {url : String} {r : TaskStatusReportRequest} {delivered : Bool} :
    sentAt t ((t, ⟨.report url r, delivered⟩) :: log) = log.length + 1 := if_pos rfl

theorem DeliveredAfter.mono {m' : Nat} {ψ : Nat → String → TaskStatusReportRequest → Prop}
    (hm : m' ≤ m) (hφ : ∀ t url r, φ t url r → ψ t url r) :
    ∀ {log : Log}, DeliveredAfter m φ log → DeliveredAfter m' ψ log
  | _ :: _, .inl ⟨hlen, d, hd, h⟩ => .inl ⟨Nat.le_trans hm hlen, d, hd, hφ _ _ _ h⟩
  | _ :: _, .inr h => .inr (DeliveredAfter.mono hm hφ h)

/-- What another goroutine relies on, it relied on before. -/
theorem untouched_of_cons {e : Event Process} (hu : u ≠ t)
    (h : untouched t name ((u, e) :: log) = true) :
    storedIn name e = none ∧ untouched t name log = true := by
  simpa [untouched, hu] using h

theorem sentAt_le (t : Nat) (log : Log) : sentAt t log ≤ log.length := by
  fun_induction sentAt t log with
  | case1 => exact Nat.le_refl 0
  | case2 => exact Nat.le_refl _
  | case3 _ _ _ _ _ _ ih => exact Nat.le_succ_of_le ih
  | case4 _ _ _ ih => exact Nat.le_succ_of_le ih

theorem lastBuffered_le {b : Buffered} (h : lastBuffered s name log = some b) :
    b.sent ≤ log.length ∧ b.stored ≤ log.length := by
  induction log with
  | nil =>
    unfold lastBuffered at h
    split at h
    · cases h
      exact ⟨Nat.le_refl 0, Nat.le_refl 0⟩
    · cases h
  | cons e log ih =>
    unfold lastBuffered at h
    split at h
    · cases h
      exact ⟨Nat.le_succ_of_le (sentAt_le _ log), Nat.le_refl _⟩
    · have := ih h
      exact ⟨Nat.le_succ_of_le this.1, Nat.le_succ_of_le this.2⟩

end Log

/-! ## What a goroutine has in hand. -/

/-- The state of a goroutine towards the store. -/
inductive Hand where
  /-- A request's goroutine, with nothing due. -/
  | handler
  /-- Its final report was delivered: `Remove` is due. -/
  | sent (r : TaskStatusReportRequest)
  /-- Its final report was not delivered: `Buffer` is due. -/
  | unsent (url : String) (r : TaskStatusReportRequest)
  /-- Any other goroutine, with no file in hand. -/
  | other
  /-- `Flush` has read a stored report … -/
  | holding (name : String) (sr : StoredReport)
  /-- … and delivered it. -/
  | delivered (name : String) (sr : StoredReport)
  /-- `Flush` has read a file that holds no report. -/
  | unreadable (name : String)
  deriving DecidableEq

/-- What `Flush` has in hand after reading a file. -/
def afterRead (name : String) : Option Content → Hand
  | some (.report sr) => .holding name sr
  | some .other => .unreadable name
  | none => .other

/-- What a request's goroutine has in hand after a report. -/
def afterReport (url : String) (r : TaskStatusReportRequest) (delivered : Bool) : Hand :=
  if r.status = .running then .handler
  else if delivered then .sent r
  else .unsent url r

def next : Hand → (a : Act) → Act.Ans a → Option Hand
  | .handler, .report url r, delivered => some (afterReport url r delivered)
  | .handler, a, _ => if plain a then some .handler else none
  | .sent r, .removeFile name, _ =>
    if name = fileName r.scheduleInstanceID then some .handler else none
  | .sent _, .deleteCancel _, _ => some .handler
  | .unsent url r, .timeNow, _ => some (.unsent url r)
  | .unsent url r, .writeFile name sr, _ =>
    if name = fileName r.scheduleInstanceID ∧ sr.schedulerURL = url ∧ sr.report = r then
      some .handler
    else none
  | .unsent _ _, .deleteCancel _, _ => some .handler
  | .other, .readFile name, content => some (afterRead name content)
  | .other, a, _ => if plain a then some .other else none
  | .holding name sr, .report url r, delivered =>
    if url = sr.schedulerURL ∧ r = sr.report then
      some (if delivered then .delivered name sr else .other)
    else none
  | .delivered name _, .removeFile n, _ => if n = name then some .other else none
  | .unreadable name, .removeFile n, _ => if n = name then some .other else none
  | _, _, _ => none

abbrev hands : Protocol Process where
  State := Hand
  next := next

def start : Job → Hand
  | .run _ => .handler
  | _ => .other

theorem next_of_plain {q : Hand} {a : Act} (hq : q = .handler ∨ q = .other) (h : plain a = true)
    (ans : Act.Ans a) : next q a ans = some q := by
  rcases hq with rfl | rfl <;>
  cases a with
  | report _ _ | readFile _ | writeFile _ _ | removeFile _ => simp [plain] at h
  | _ => rfl

theorem finalReport_spec (workerID : String) (req : ExecuteTaskRequest) (outcome : ExecutionOutcome)
    (startedAt finishedAt : Int) :
    (Workers.finalReport workerID req outcome startedAt finishedAt).scheduleInstanceID
        = req.scheduleInstanceID
      ∧ (Workers.finalReport workerID req outcome startedAt finishedAt).status ≠ .running := by
  cases outcome with
  | succeeded output | deadlineExceeded message
  | failed message => exact ⟨rfl, by simp [Workers.finalReport]⟩

/-- After the final report nothing is due, unless there is no store. -/
def Settled : Hand → Prop
  | .handler | .sent _ | .unsent _ _ => True
  | _ => False

theorem follows_reportFinal (h : Handler) (req : ExecuteTaskRequest)
    {report : TaskStatusReportRequest} (hid : report.scheduleInstanceID = req.scheduleInstanceID)
    (hstatus : report.status ≠ .running) :
    Follows hands (fun q _ => Settled q) Hand.handler (reportFinal h req report) := by
  refine follows_perform (afterReport req.schedulerURL report) (fun _ => rfl) ?_
  intro delivered
  unfold afterReport
  rw [if_neg hstatus]
  cases delivered with
  | true =>
    rw [if_pos rfl]
    show Follows hands _ _ (if h.localStore then _ else _)
    split
    · refine follows_perform (fun _ => Hand.handler) (fun _ => ?_) (fun _ => trivial)
      exact if_pos (by rw [hid])
    · trivial
  | false =>
  rw [if_neg (by simp)]
  show Follows hands _ _ (if h.localStore then _ else _)
  split
  · refine follows_perform (fun _ => Hand.unsent req.schedulerURL report)
      (fun _ => rfl) (fun now => ?_)
    refine follows_perform (fun _ => Hand.handler) (fun _ => ?_) (fun _ => trivial)
    exact if_pos ⟨rfl, rfl, rfl⟩
  · trivial

theorem follows_handler {α : Type} {a : Act} {f : Act.Ans a → Proc α} (ha : plain a = true)
    (hf : ∀ ans, Follows hands (fun _ _ => True) Hand.handler (f ans)) :
    Follows hands (fun _ _ => True) Hand.handler (act a >>= f) :=
  follows_perform_idle (fun ans => next_of_plain (.inl rfl) ha ans) hf

theorem follows_runAdmitted (h : Handler) (req : ExecuteTaskRequest) :
    Follows hands (fun _ _ => True) Hand.handler (runAdmitted h req) := by
  unfold runAdmitted
  refine follows_handler rfl (fun _ => follows_handler rfl (fun _ => ?_))
  -- the report that the execution is running
  refine follows_perform (fun _ => Hand.handler) (fun _ => rfl) (fun _ => ?_)
  refine follows_handler rfl (fun ctx => follows_handler rfl (fun _ => follows_handler rfl
    (fun startedAt => follows_handler rfl (fun _ => follows_handler rfl (fun outcome =>
      follows_handler rfl (fun finishedAt => ?_))))))
  obtain ⟨hid, hstatus⟩ := finalReport_spec h.workerID req outcome startedAt finishedAt
  apply follows_bind
  refine (follows_reportFinal h req hid hstatus).mono ?_
  intro q _ hq
  refine follows_perform (fun _ => Hand.handler) (fun _ => ?_) (fun _ =>
    follows_handler rfl (fun _ => follows_handler rfl (fun _ => trivial)))
  cases q with
  | handler | sent _ | unsent _ _ => rfl
  | _ => exact hq.elim

/-- **`Flush` deletes only what it has delivered, or cannot read.** -/
theorem follows_flushEntries : ∀ (entries : List (String × Bool)) (remaining : Int),
    Follows hands (fun _ _ => True) Hand.other (flushEntries entries remaining) := by
  intro entries
  induction entries with
  | nil =>
    intro remaining
    trivial
  | cons entry entries ih =>
  intro remaining
  obtain ⟨name, isDir⟩ := entry
  unfold flushEntries
  split
  · exact ih remaining
  refine follows_perform (afterRead name) (fun _ => rfl) ?_
  intro content
  cases content with
  | none => exact ih _
  | some content =>
  cases content with
  | other =>
    exact follows_perform (fun _ => Hand.other) (fun _ => if_pos rfl) (fun _ => ih _)
  | report sr =>
  refine follows_perform (fun delivered => if delivered then Hand.delivered name sr else Hand.other)
    (fun _ => if_pos ⟨rfl, rfl⟩) ?_
  intro delivered
  cases delivered with
  | false => exact ih _
  | true =>
    exact follows_perform (fun _ => Hand.other) (fun _ => if_pos rfl) (fun _ => ih _)

theorem follows_other {α : Type} {p : Proc α}
    (hp : Calls (S := Process) (fun a => plain a = true) p) :
    Follows hands (fun _ _ => True) Hand.other p :=
  (follows_of_calls (fun _ h ans => next_of_plain (.inr rfl) h ans) hp).mono (fun _ _ _ => trivial)

theorem follows_body (h : Handler) (j : Job) :
    Follows hands (fun _ _ => True) (start j) (Job.body h j) := by
  cases j with
  | run req =>
    show Follows hands _ Hand.handler (run h req)
    refine follows_handler rfl (fun now => follows_handler rfl (fun loaded => ?_))
    cases loaded with
    | true => trivial
    | false => exact follows_runAdmitted h req
  | flush =>
    apply follows_bind
    refine follows_perform_idle (fun _ => rfl) ?_
    intro entries
    cases entries with
    | none => trivial
    | some entries => exact (follows_flushEntries entries 0).mono (fun _ _ _ => trivial)
  | evictTick =>
    exact follows_other ⟨rfl, fun _ => ⟨rfl, calls_evictKeys (fun _ => rfl) (fun _ => rfl) _⟩⟩
  | cancel id =>
    refine follows_other (calls_bind ⟨rfl, ?_⟩ (fun _ => trivial))
    intro ctx
    cases ctx with
    | none => trivial
    | some ctx => exact ⟨rfl, fun _ => trivial⟩

/-! ## What it says about the file. -/

def hand (c : Pool) (t : Nat) : Option Hand := c.stateOf hands start t

/-- What the hand `q` of goroutine `t` says about the files and the log. -/
def Fits (s : State) (log : Log) (t : Nat) : Hand → Prop
  | .sent r =>
    r.status ≠ .running ∧ 0 < sentAt t log
      ∧ DeliveredAfter (sentAt t log - 1) (fun u _ r' => u = t ∧ r' = r) log
      ∧ ∀ b, lastBuffered s (fileName r.scheduleInstanceID) log = some b → b.sent < sentAt t log
  | .holding name sr =>
    untouched t name log = true → ∀ b, lastBuffered s name log = some b → b.report = sr
  | .delivered name sr =>
    untouched t name log = true → ∀ b, lastBuffered s name log = some b → b.report = sr
      ∧ DeliveredAfter b.stored (fun _ url r => url = sr.schedulerURL ∧ r = sr.report) log
  | .unreadable name => untouched t name log = true → lastBuffered s name log = none
  | _ => True

def FilesFit (s : State) (files : Entries Content) (log : Log) : Prop :=
  ∀ name n content, files.get? name = some (n, content) →
    match content with
    | .report sr => ∃ b, lastBuffered s name log = some b ∧ b.report = sr
    | .other => lastBuffered s name log = none

/-- **Another goroutine's call** keeps what a goroutine relies on, unless it stores a report in the
file of a removal on its way. -/
theorem Fits.cons {s : State} {log : Log} {t u : Nat} {q : Hand} {a : Act} {ans : Act.Ans a}
    (h : Fits s log t q) (hu : u ≠ t)
    (hlater : ∀ r sr, q = .sent r → storedIn (fileName r.scheduleInstanceID) ⟨a, ans⟩ = some sr →
      sentAt u log < sentAt t log) :
    Fits s ((u, ⟨a, ans⟩) :: log) t q := by
  have hsent : sentAt t ((u, ⟨a, ans⟩) :: log) = sentAt t log := sentAt_of_ne hu
  cases q with
  | sent r =>
    obtain ⟨hstatus, hpos, hdelivered, hb⟩ := h
    unfold Fits
    rw [hsent]
    refine ⟨hstatus, hpos, .inr hdelivered, ?_⟩
    intro b hlast
    cases hstored : storedIn (fileName r.scheduleInstanceID) ⟨a, ans⟩ with
    | none =>
      rw [lastBuffered_of_none hstored] at hlast
      exact hb b hlast
    | some sr =>
      rw [lastBuffered_of_some hstored] at hlast
      cases hlast
      exact hlater r sr rfl hstored
  | holding name sr =>
    intro huntouched b hb
    obtain ⟨hstored, huntouched⟩ := untouched_of_cons hu huntouched
    rw [lastBuffered_of_none hstored] at hb
    exact h huntouched b hb
  | delivered name sr =>
    intro huntouched b hb
    obtain ⟨hstored, huntouched⟩ := untouched_of_cons hu huntouched
    rw [lastBuffered_of_none hstored] at hb
    obtain ⟨heq, hdelivered⟩ := h huntouched b hb
    exact ⟨heq, .inr hdelivered⟩
  | unreadable name =>
    intro huntouched
    obtain ⟨hstored, huntouched⟩ := untouched_of_cons hu huntouched
    rw [lastBuffered_of_none hstored]
    exact h huntouched
  | _ => trivial

/-! ## The invariant. -/

/-- The direct report whose `Remove` is due. -/
def removalOf : Option Hand → Option TaskStatusReportRequest
  | some (.sent r) => some r
  | _ => none

/-- **The condition on a step**: `Flush` deletes a file only if nothing was stored in it since it
was read; a report is stored only while nobody is about to `Remove` the file for an earlier one. -/
def keepsApart (c : Pool) : Step → Bool
  | .spawn _ => true
  | .step t _ =>
    match c.nextOp t with
    | some (.removeFile name) => (removalOf (hand c t)).isSome || untouched t name c.log
    | some (.writeFile name _) =>
      (List.range c.pool.length).all (fun v => (removalOf (hand c v)).all (fun r =>
        fileName r.scheduleInstanceID ≠ name || sentAt t c.log < sentAt v c.log))
    | _ => true

structure Inv (s : State) (c : Pool) : Prop where
  files : FilesFit s c.world.files c.log
  fits : ∀ t q, hand c t = some q → Fits s c.log t q
  direct : ∀ t q, hand c t = some q → Settled q → ∃ req, c.jobOf t = some (.run req)

theorem not_settled_afterRead (name : String) (content : Option Content) :
    ¬Settled (afterRead name content) := by
  rcases content with _ | _ | _ <;> exact id

theorem settled_of_next {q q' : Hand} {a : Act} {ans : Act.Ans a} (h : next q a ans = some q')
    (hq' : Settled q') : Settled q := by
  unfold next at h
  split at h <;> grind [Settled, not_settled_afterRead]

theorem lt_of_hand {c : Pool} {t : Nat} {q : Hand} (h : hand c t = some q) : t < c.pool.length := by
  by_contra hge
  simp [hand, stateOf, jobOf, List.getElem?_eq_none (Nat.le_of_not_lt hge)] at h

/-- What a call does to the files. -/
theorem exec_files (env : Env) (a : Act) (s : State) :
    ((exec env a s).2.files = s.files ∧ ∀ n, storedIn n ⟨a, (exec env a s).1⟩ = none)
      ∨ (∃ name, a = .removeFile name ∧ (exec env a s).2.files = s.files.remove name)
      ∨ ∃ name sr, a = .writeFile name sr
          ∧ (exec env a s).2.files = s.files.upsert (name, .report sr)
          ∧ ∀ n, storedIn n ⟨a, (exec env a s).1⟩ = if name = n then some sr else none := by
  cases a with
  | writeFile name sr =>
    by_cases hfault : env.fault = true
    · exact .inl (by simp [exec_writeFile, hfault, storedIn])
    · exact .inr (.inr ⟨name, sr, rfl, by simp [exec_writeFile, hfault, storedIn]⟩)
  | removeFile name =>
    by_cases hfault : env.fault = true
    · exact .inl (by simp [exec_removeFile, hfault, storedIn])
    · exact .inr (.inl ⟨name, rfl, by simp [exec_removeFile, hfault]⟩)
  | loadOrStore id seen | readDir | readFile name =>
    refine .inl ⟨?_, fun _ => rfl⟩
    simp only [exec]
    split <;> rfl
  | _ => exact .inl ⟨rfl, fun _ => rfl⟩

section Step

variable {s : State} {c : Pool} {t : Nat} {j : Job} {a : Act} {k : Act.Ans a → Proc Unit}
  {env : Env} {q q' : Hand}

theorem filesFit_called {w : State} {log : Log} (h : FilesFit s w.files log) :
    FilesFit s (exec env a w).2.files ((t, ⟨a, (exec env a w).1⟩) :: log) := by
  intro name n content hget
  rcases exec_files env a w with
    ⟨hfiles, hnone⟩ | ⟨name', rfl, hfiles⟩ | ⟨name', sr, rfl, hfiles, hstored⟩
  · rw [hfiles] at hget
    rw [lastBuffered_of_none (hnone name)]
    exact h name n content hget
  · rw [hfiles, Table.get?_remove] at hget
    split at hget
    · cases hget
    · exact h name n content hget
  rw [hfiles, Table.get?_upsert] at hget
  split at hget
  next heq =>
    cases hget
    rw [lastBuffered_of_some ((hstored name).trans (if_pos heq.symm))]
    exact ⟨_, rfl, rfl⟩
  next hne =>
    rw [lastBuffered_of_none ((hstored name).trans (if_neg (Ne.symm hne)))]
    exact h name n content hget

/-- How a goroutine comes to rely on something. -/
theorem next_cases {e : Event Process} (h : next q e.1 e.2 = some q') :
    (∃ url r, q = .handler ∧ e = ⟨.report url r, true⟩ ∧ q' = .sent r ∧ r.status ≠ .running)
      ∨ (∃ name content, q = .other ∧ e = ⟨.readFile name, content⟩ ∧ q' = afterRead name content)
      ∨ (∃ name sr, q = .holding name sr ∧ e = ⟨.report sr.schedulerURL sr.report, true⟩
          ∧ q' = .delivered name sr)
      ∨ q' = .handler ∨ q' = .other ∨ ∃ url r, q' = .unsent url r := by
  obtain ⟨a, ans⟩ := e
  dsimp only at h
  unfold next at h
  split at h <;> simp only [Option.ite_none_right_eq_some, Option.some.injEq, reduceCtorEq] at h
  case h_1 url r delivered =>
    unfold afterReport at h
    split at h
    · exact .inr (.inr (.inr (.inl h.symm)))
    cases delivered with
    | true => exact .inl ⟨url, r, rfl, rfl, h.symm, ‹_›⟩
    | false => exact .inr (.inr (.inr (.inr (.inr ⟨url, r, h.symm⟩))))
  case h_8 name content => exact .inr (.inl ⟨name, content, rfl, rfl, h.symm⟩)
  case h_10 name sr url r delivered =>
    obtain ⟨⟨rfl, rfl⟩, h⟩ := h
    cases delivered with
    | true => exact .inr (.inr (.inl ⟨name, sr, rfl, rfl, h.symm⟩))
    | false => exact .inr (.inr (.inr (.inr (.inl h.symm))))
  all_goals grind

/-- **The goroutine's own call**: what it then relies on holds. -/
theorem fits_self (hfiles : FilesFit s c.world.files c.log) (hfits : Fits s c.log t q)
    (hnext : next q a (exec env a c.world).1 = some q') :
    Fits s ((t, ⟨a, (exec env a c.world).1⟩) :: c.log) t q' := by
  have hcases := next_cases (e := ⟨a, (exec env a c.world).1⟩) hnext
  generalize hans : (exec env a c.world).1 = ans at hcases ⊢
  rcases hcases with ⟨url, r, rfl, he, rfl, hstatus⟩ | ⟨name, content, rfl, he, rfl⟩
    | ⟨name, sr, rfl, he, rfl⟩ | rfl | rfl | ⟨url, r, rfl⟩
  · cases he
    unfold Fits
    rw [sentAt_report_self]
    refine ⟨hstatus, Nat.succ_pos _, .inl ⟨Nat.le_refl _, _, rfl, rfl, rfl⟩, ?_⟩
    intro b (hb : lastBuffered s _ c.log = some b)
    exact Nat.lt_succ_of_le (lastBuffered_le hb).1
  · -- what `Flush` reads is what was stored last
    cases he
    rw [exec_readFile] at hans
    cases hget : c.world.files.get? name with
    | none =>
      have hnone : content = none := by
        rw [← hans, hget]
        split <;> rfl
      rw [hnone]
      trivial
    | some entry =>
    by_cases hfault : env.fault = true
    · rw [← hans, if_pos hfault]
      trivial
    rw [if_neg hfault, hget] at hans
    have hfit := hfiles name entry.1 entry.2 hget
    subst hans
    obtain ⟨n, content⟩ := entry
    cases content with
    | other =>
      intro _
      exact hfit
    | report sr =>
      intro _ b hb
      obtain ⟨b', hb', heq⟩ := hfit
      cases hb'.symm.trans hb
      exact heq
  · cases he
    intro huntouched b (hb : lastBuffered s name c.log = some b)
    have huntouched : untouched t name c.log = true := by
      simpa [untouched, readsFile, storedIn] using huntouched
    exact ⟨hfits huntouched b hb, .inl ⟨(lastBuffered_le hb).2, _, rfl, rfl, rfl⟩⟩
  all_goals trivial

theorem inv_called (hinv : Inv s c) (hok : keepsApart c (.step t env) = true)
    (hp : c.pool[t]? = some ⟨j, .call a k⟩) (hq : hand c t = some q)
    (hnext : next q a (exec env a c.world).1 = some q')
    (hq' : hand (c.called exec t j a k env) t = some q') :
    Inv s (c.called exec t j a k env) where
  files := filesFit_called hinv.files
  fits := by
    intro u p hu
    by_cases hut : u = t
    · subst hut
      rw [hq'] at hu
      cases hu
      exact fits_self hinv.files (hinv.fits u q hq) hnext
    have hcu : hand c u = some p := (stateOf_called_of_ne hp hut).symm.trans hu
    refine (hinv.fits u p hcu).cons (Ne.symm hut) ?_
    -- a report is stored only while no earlier removal of the file is due
    rintro r sr rfl hstored
    rcases exec_files env a c.world with ⟨_, hnone⟩ | ⟨name, rfl, _⟩ | ⟨name, sr', rfl, _, hif⟩
    · rw [hnone] at hstored
      cases hstored
    · cases hstored
    have hlater := hok
    simp only [keepsApart, nextOp_of_pool hp, List.all_eq_true, List.mem_range] at hlater
    have hthis := hlater u (lt_of_hand hcu)
    rw [hif, Option.ite_none_right_eq_some] at hstored
    rw [hcu] at hthis
    simpa [removalOf, hstored.1] using hthis
  direct := by
    intro u p hu hsettled
    rw [jobOf_called hp]
    by_cases hut : u = t
    · subst hut
      rw [hq'] at hu
      cases hu
      exact hinv.direct u q hq (settled_of_next hnext hsettled)
    · exact hinv.direct u p ((stateOf_called_of_ne hp hut).symm.trans hu) hsettled

end Step

theorem inv_of_runs {h : Handler} {s : State} {c : Pool}
    (hr : Runs h (fun c l => keepsApart c l = true) s c) : Inv s c := by
  refine Reaches.watched (P := hands) (Inv s) (fun _ _ _ => trivial)
    (fun _ j _ => follows_body h j) ?_ ?_ ?_ hr
  · intro c j hreach hinv _
    have hstart : hand (c.spawned (Job.body h) j) c.pool.length = some (start j) :=
      hreach.stateOf_spawned_self
    refine ⟨hinv.files, ?_, ?_⟩
    · intro u p hu
      by_cases hlen : u = c.pool.length
      · subst hlen
        rw [hstart] at hu
        cases hu
        cases j <;> trivial
      · exact hinv.fits u p ((stateOf_spawned_of_ne hlen).symm.trans hu)
    intro u p hu hsettled
    by_cases hlen : u = c.pool.length
    · subst hlen
      rw [hstart] at hu
      cases hu
      cases j with
      | run req => exact ⟨req, jobOf_spawned_self⟩
      | _ => exact hsettled.elim
    rw [jobOf_spawned_of_ne hlen]
    exact hinv.direct u p ((stateOf_spawned_of_ne hlen).symm.trans hu) hsettled
  · intro c t j a k env q q' _ hinv hok hp hq hnext hq'
    exact inv_called hinv hok hp hq hnext hq'
  · refine ⟨?_, ?_, ?_⟩
    · intro name n content hget
      have hget : s.files.get? name = some (n, content) := hget
      cases content with
      | report sr =>
        have hlast : lastBuffered s name [] = some ⟨sr, 0, 0⟩ := by
          simp only [lastBuffered, hget]
        exact ⟨_, hlast, rfl⟩
      | other =>
        show lastBuffered s name [] = none
        simp only [lastBuffered, hget]
    · intro t p ht
      simp [hand, stateOf, jobOf, init] at ht
    · intro t p ht
      simp [hand, stateOf, jobOf, init] at ht

/-! ## No report is lost. -/

/-- **The most recently buffered report was delivered** since it was stored, or a later direct final
report of the same instance was. -/
def Accounted (s : State) (c : Pool) (name : String) : Prop :=
  ∀ b, lastBuffered s name c.log = some b → DeliveredAfter b.stored
        (fun _ url r => url = b.report.schedulerURL ∧ r = b.report.report) c.log
      ∨ DeliveredAfter b.sent (fun t _ r => (∃ req, c.jobOf t = some (.run req))
          ∧ r.status ≠ .running ∧ fileName r.scheduleInstanceID = name) c.log

theorem removeFile_of_gone {env : Env} {a : Act} {w : State} {name : String}
    (hfile : w.files.get? name ≠ none) (hgone : (exec env a w).2.files.get? name = none) :
    a = .removeFile name := by
  rcases exec_files env a w with ⟨hfiles, _⟩ | ⟨name', rfl, hfiles⟩ | ⟨name', sr, rfl, hfiles, _⟩
  · rw [hfiles] at hgone
    exact absurd hgone hfile
  · rw [hfiles, Table.get?_remove] at hgone
    split at hgone
    next heq => rw [heq]
    next => exact absurd hgone hfile
  · rw [hfiles, Table.get?_upsert] at hgone
    split at hgone
    · cases hgone
    · exact absurd hgone hfile

/-- Who deletes a file. -/
theorem hand_of_remove {q q' : Hand} {name : String} {removed : Bool}
    (h : next q (.removeFile name) removed = some q') :
    (∃ r, q = .sent r ∧ name = fileName r.scheduleInstanceID)
      ∨ (∃ sr, q = .delivered name sr) ∨ q = .unreadable name := by
  cases q with
  | sent r | delivered n sr | unreadable n =>
    simp only [next, Option.ite_none_right_eq_some] at h
    simp [h.1]
  | _ => simp [next, plain] at h

/-- **A FILE IS DELETED ONLY AFTER its most recently buffered report is accounted for**. -/
theorem buffered_report_kept {h : Handler} {s : State} {c c' : Pool} {l : Step} {name : String}
    (hr : Runs h (fun c l => keepsApart c l = true) s c) (hok : keepsApart c l = true)
    (hstep : c.step exec (Job.body h) l = some c')
    (hfile : c.world.files.get? name ≠ none) (hgone : c'.world.files.get? name = none) :
    Accounted s c name := by
  have hinv := inv_of_runs hr
  rcases Config.step_cases exec (Job.body h) hstep with
    ⟨j, rfl, rfl⟩ | ⟨t, env, j, a, k, rfl, hp, rfl⟩
  · exact absurd hgone hfile
  obtain rfl := removeFile_of_gone hfile hgone
  obtain ⟨q, hq, hfollows⟩ := hr.stands (P := hands) (fun _ _ _ => trivial)
    (fun _ j _ => follows_body h j) t j _ hp
  obtain ⟨q', hnext, _⟩ := hfollows (exec env (.removeFile name) c.world).1 trivial
  have hfits := hinv.fits t q hq
  have hq : hand c t = some q := hq
  simp only [keepsApart, nextOp_of_pool hp, hq] at hok
  intro b hb
  rcases hand_of_remove hnext with ⟨r, rfl, rfl⟩ | ⟨sr, rfl⟩ | rfl
  · -- `Remove`, after a direct report
    obtain ⟨hstatus, hpos, hdelivered, hlast⟩ := hfits
    have hlater := hlast b hb
    right
    refine hdelivered.mono (by omega) ?_
    rintro u url r' ⟨rfl, rfl⟩
    exact ⟨hinv.direct u _ hq trivial, hstatus, rfl⟩
  · -- `Flush`, after delivering what it read
    obtain ⟨heq, hdelivered⟩ := hfits (by simpa [removalOf] using hok) b hb
    left
    rw [heq]
    exact hdelivered
  · rw [hfits (by simpa [removalOf] using hok)] at hb
    cases hb

/-! ## Runs. -/

def request : ExecuteTaskRequest :=
  { scheduleInstanceID := "task-1-1", taskType := "shell", payload := "make",
    schedulerURL := "http://scheduler" }

/-- The request runs at `now`; its final report, with `outcome`, is buffered. -/
def failsToReport (t : Nat) (now : Int) (outcome : ExecutionOutcome) : List Step :=
  [.spawn (.run request)] ++ List.replicate 11 (.step t { now, outcome })
    ++ List.replicate 3 (.step t { now, delivered := false })

/-- `Flush` reads the file and delivers what it held. -/
def flushes (t : Nat) : List Step := [.spawn .flush] ++ List.replicate 3 (.step t {})

def deletes (c : Pool) : Bool :=
  (c.world.files.get? "task-1-1.json").isSome
    && match c.step exec (Job.body { workerID := "worker-1" }) (.step 1 {}) with
      | some c' => (c'.world.files.get? "task-1-1.json").isNone
      | none => false

theorem step_of_deletes {c : Pool} (h : deletes c = true) :
    ∃ c', c.step exec (Job.body { workerID := "worker-1" }) (.step 1 {}) = some c'
      ∧ c.world.files.get? "task-1-1.json" ≠ none
      ∧ c'.world.files.get? "task-1-1.json" = none := by
  obtain ⟨hfile, hstep⟩ := Bool.and_eq_true_iff.mp h
  split at hstep
  next c' hc' =>
    refine ⟨c', hc', ?_, by simpa using hstep⟩
    intro hnone
    rw [hnone] at hfile
    cases hfile
  next => cases hstep

/-- A buffered report is flushed. -/
theorem buffered_report_kept_flush :
    ∃ c c', Runs { workerID := "worker-1" } (fun c l => keepsApart c l = true) {} c
      ∧ c.step exec (Job.body { workerID := "worker-1" }) (.step 1 {}) = some c'
      ∧ c.world.files.get? "task-1-1.json" ≠ none
      ∧ c'.world.files.get? "task-1-1.json" = none
      ∧ Accounted {} c "task-1-1.json" := by
  have hrun : ((runSteps exec (Job.body { workerID := "worker-1" }) keepsApart (Config.init {})
      (failsToReport 0 0 (.succeeded "done") ++ flushes 1)).map
        (fun c : Pool => keepsApart c (.step 1 {}) && deletes c)) = some true := by
    decide
  obtain ⟨c, hr, htest⟩ := exists_reaches_of_runSteps (fun _ _ h => h) hrun
  obtain ⟨hok, hdeletes⟩ := Bool.and_eq_true_iff.mp htest
  obtain ⟨c', hstep, hfile, hgone⟩ := step_of_deletes hdeletes
  exact ⟨c, c', hr, hstep, hfile, hgone,
    buffered_report_kept hr hok hstep hfile hgone⟩

/-- **A LOST REPORT**: `Flush` delivers the report of the first execution; the instance runs again
and its failure is buffered; then `Flush` deletes the file. -/
theorem report_lost :
    ∃ c c' b, Runs { workerID := "worker-1" } (fun _ _ => True) {} c
      ∧ c.step exec (Job.body { workerID := "worker-1" }) (.step 1 {}) = some c'
      ∧ c.world.files.get? "task-1-1.json" ≠ none
      ∧ c'.world.files.get? "task-1-1.json" = none
      ∧ lastBuffered {} "task-1-1.json" c.log = some b
      ∧ b.report.report.status = .failed
      ∧ ¬DeliveredAfter b.sent (fun _ _ _ => True) c.log := by
  have hrun : ((runSteps exec (Job.body { workerID := "worker-1" }) (fun _ _ => true)
      (Config.init {})
      (failsToReport 0 0 (.succeeded "done") ++ flushes 1
        ++ [.spawn .evictTick] ++ List.replicate 4 (.step 2 { now := 6 * minute })
        ++ failsToReport 3 (7 * minute) (.failed "exit status 1"))).map
        (fun c : Pool => deletes c && match lastBuffered {} "task-1-1.json" c.log with
          | some b => decide (b.report.report.status = .failed
              ∧ ¬DeliveredAfter b.sent (fun _ _ _ => True) c.log)
          | none => false)) = some true := by
    decide
  obtain ⟨c, hr, htest⟩ := exists_reaches_of_runSteps (fun _ _ _ => trivial) hrun
  obtain ⟨hdeletes, hlast⟩ := Bool.and_eq_true_iff.mp htest
  obtain ⟨c', hstep, hfile, hgone⟩ := step_of_deletes hdeletes
  split at hlast
  next b hb =>
    exact ⟨c, c', b, hr, hstep, hfile, hgone, hb, of_decide_eq_true hlast⟩
  next => cases hlast

end Buffering

end AiScheduler.Worker
