/-
  **THE RETRIES OF AN INSTANCE FORM ONE CHAIN.**

  Trigger scans, retry scans, cancels and reports run ONE AT A TIME; in between everything but the
  instances and every task's `MaxRetry` may change. A report that retries finishes its instance,
  and no report gets past a finished one.
-/
import AiScheduler.Lib.Succession
import AiScheduler.Repo.InstanceOps
import AiScheduler.Proofs.Attempts

namespace AiScheduler.Chains

open Lib Attempts

variable {s s' : InstanceStore}

/-! ## Calls one at a time. -/

/-- The operations on instances. -/
inductive ServiceCall where
  | triggerScan
  | retryScan
  | cancelInstance (scheduleID : String)
  | reportStatus (req : TaskStatusReportRequest)

def ServiceCall.job : ServiceCall → Job
  | triggerScan => .triggerScan
  | retryScan => .retryScan
  | cancelInstance scheduleID => .cancelInstance scheduleID
  | reportStatus req => .reportStatus req

/-- One call: what it finds around the instances, and the answers while it runs. -/
structure Turn where
  call : ServiceCall
  around : World
  env : Nat → Input := fun _ => {}

def Turn.start (t : Turn) (s : InstanceStore) : World := { t.around with instances := s }

def Turn.finish (url : String) (t : Turn) (s : InstanceStore) : InstanceStore :=
  (Prog.run (execAt t.env) (body url t.call.job) (t.start s, 0)).2.1.instances

/-- The instance that `retryIfNeeded` is called for: the one the report is about. -/
def Turn.parent (t : Turn) (s : InstanceStore) : Option Int :=
  match t.call with
  | .reportStatus req =>
    (s.bySchedule t.around.backend req.scheduleInstanceID).map TaskInstance.id
  | _ => none

/-- An instance was created: as a first attempt, or as the retry of `parent`. -/
structure Birth where
  child : Int
  parent : Option Int

/-- The stored instances, and where each came from. -/
structure History where
  store : InstanceStore
  births : List Birth

def History.empty : History := ⟨InstanceStore.empty, []⟩

/-- One call: whatever instance is new was created by it. -/
def History.turn (url : String) (h : History) (t : Turn) : History where
  store := t.finish url h.store
  births := h.births ++
    ((t.finish url h.store).instances.rows.filter (fun r => h.store.nextID ≤ r.id)).map
      (fun r => ⟨r.id, t.parent h.store⟩)

def History.run (url : String) (turns : List Turn) : History :=
  turns.foldl (History.turn url) History.empty

def History.FirstAttempt (h : History) (i : TaskInstance) : Prop :=
  i ∈ h.store.instances.rows ∧ ⟨i.id, none⟩ ∈ h.births

def History.RetriedAs (h : History) (i j : TaskInstance) : Prop :=
  i ∈ h.store.instances.rows ∧ j ∈ h.store.instances.rows ∧ ⟨j.id, some i.id⟩ ∈ h.births

theorem mem_births_turn {url : String} {h : History} {t : Turn} {b : Birth} :
    b ∈ (h.turn url t).births ↔ b ∈ h.births ∨ ∃ r ∈ (t.finish url h.store).instances.rows,
          h.store.nextID ≤ r.id ∧ b = ⟨r.id, t.parent h.store⟩ := by
  show b ∈ h.births ++ _ ↔ _
  simp only [List.mem_append, List.mem_map, List.mem_filter, decide_eq_true_eq, and_assoc,
    eq_comm (b := b)]

/-! ## What one call does. -/

/-- A new instance: a first attempt, or the next attempt of one that the call finished. -/
def Born (maxRetry : Int → Int) (parent : Option Int) (s s' : InstanceStore) (r : TaskInstance) :
    Prop :=
  (parent = none ∧ r.retryCount = 0)
    ∨ ∃ p ∈ s.instances.rows, parent = some p.id ∧ isTerminalStatus p.status = false
        ∧ (p.retryCount : Int) < maxRetry p.taskID
        ∧ r.id = s.nextID ∧ r.taskID = p.taskID ∧ r.retryCount = p.retryCount + 1
        ∧ ∃ p' ∈ s'.instances.rows, p'.id = p.id ∧ isTerminalStatus p'.status = true

abbrev AnyNew : Int → Nat → Prop := fun _ _ => True

/-- What a call does to the instances. -/
structure Advances (maxRetry : Int → Int) (parent : Option Int) (s s' : InstanceStore) : Prop where
  grown : Grown AnyNew s s'
  born : ∀ r ∈ s'.instances.rows, s.nextID ≤ r.id → Born maxRetry parent s s' r

theorem new_of_le {New : Int → Nat → Prop} (h : Grown New s s')
    {r : TaskInstance} (hr : r ∈ s'.instances.rows) (hle : s.nextID ≤ r.id) :
    New r.taskID r.retryCount := by
  have horigin := h.origin r hr
  have hfresh := s.fresh
  grind

theorem advances_of_noNew {maxRetry : Int → Int} {parent : Option Int}
    (h : Grown NoNew s s') : Advances maxRetry parent s s' where
  grown := h.mono (fun _ _ hf => hf.elim)
  born := fun _ hr hle => (new_of_le h hr hle).elim

theorem advances_of_first {maxRetry : Int → Int}
    (h : Grown First s s') : Advances maxRetry none s s' where
  grown := h.mono (fun _ _ _ => trivial)
  born := fun _ hr hle => .inl ⟨rfl, new_of_le h hr hle⟩

theorem advances_of_reports {maxRetry : Int → Int} {b : Backend} {sid : String}
    (h : Reports maxRetry b sid s s') :
    Advances maxRetry ((s.bySchedule b sid).map TaskInstance.id) s s' := by
  rcases h with h | ⟨p, hp, hopen, hwithin, hone, hfinished⟩
  · exact advances_of_noNew h
  refine ⟨hone.grown.mono (fun _ _ _ => trivial), ?_⟩
  intro r hr hle
  obtain ⟨htask, hcount⟩ := new_of_le hone.grown hr hle
  have hid : r.id = s.nextID := by
    have := s'.fresh r hr
    have := hone.nextID
    omega
  rw [hp]
  exact .inr ⟨p, (InstanceStore.bySchedule_some hp).1, rfl, hopen, hwithin, hid, htask, hcount,
    hfinished⟩

theorem wp_done {env : Nat → Input} {p : Program Unit} {P : World × Nat → Prop} {x : World × Nat}
    (h : Prog.wp (execAt env) p (fun _ x' => P x') x) :
    Prog.wp (execAt env) (done p) (fun _ x' => P x') x :=
  (Prog.wp_bind p _ _ x).mpr h

/-- **One call**, with distinct schedule ids after it. -/
theorem advances_finish (url : String) {maxRetry : Int → Int} {t : Turn}
    (hfixed : Fixed maxRetry t.around.tasks) (hd : (t.finish url s).SchedulesDistinct) :
    Advances maxRetry (t.parent s) s (t.finish url s) := by
  obtain ⟨call, around, env⟩ := t
  cases call with
  | triggerScan =>
    have hscan : Prog.wp (execAt env) (done (TriggerLoop.scan url))
        (fun _ x => Since First s x) ({ around with instances := s }, 0) :=
      wp_done (keeps_scan url _ (since_refl { around with instances := s } 0))
    exact advances_of_first (hscan hd)
  | retryScan =>
    have hscan : Prog.wp (execAt env) (done (RetryLoop.scan url))
        (fun _ x => Since NoNew s x) ({ around with instances := s }, 0) :=
      wp_done (wp_retryScan url { around with instances := s } 0)
    exact advances_of_noNew (hscan hd)
  | cancelInstance sid =>
    have hcancel : Prog.wp (execAt env) (Runtime.cancelInstance sid)
        (fun _ x => Since NoNew s x) ({ around with instances := s }, 0) :=
      wp_cancelInstance sid { around with instances := s } 0
    exact advances_of_noNew (hcancel hd)
  | reportStatus req =>
    have hreport : Prog.wp (execAt env) (Runtime.reportStatus url req)
        (fun _ x => x.1.instances.SchedulesDistinct →
          Reports maxRetry around.backend req.scheduleInstanceID s x.1.instances)
        ({ around with instances := s }, 0) :=
      wp_reportStatus url req (w := { around with instances := s }) hfixed 0
    exact advances_of_reports (hreport hd)

/-! ## The invariant of a run. -/

/-- Every instance has its birth on record; a retry is one above a finished instance of the same
task that has no other retry. -/
structure Sound (maxRetry : Int → Int) (h : History) : Prop where
  bounded : ∀ r ∈ h.store.instances.rows, r.retryCount ≤ (maxRetry r.taskID).toNat
  born : ∀ r ∈ h.store.instances.rows, ∃ parent, ⟨r.id, parent⟩ ∈ h.births
  known : ∀ b ∈ h.births, ∃ r ∈ h.store.instances.rows, r.id = b.child
  first : ∀ r, h.FirstAttempt r → r.retryCount = 0
  retried : ∀ c p, ⟨c, some p⟩ ∈ h.births → ∃ i ∈ h.store.instances.rows, i.id = p
    ∧ isTerminalStatus i.status = true ∧ ∀ j ∈ h.store.instances.rows, j.id = c →
      j.taskID = i.taskID ∧ j.retryCount = i.retryCount + 1
  unique : ∀ c c' p, ⟨c, some p⟩ ∈ h.births → ⟨c', some p⟩ ∈ h.births → c = c'

theorem sound_empty (maxRetry : Int → Int) : Sound maxRetry History.empty := by
  constructor <;> simp [History.FirstAttempt, History.empty, InstanceStore.empty, Table.empty]

section Step

variable {url : String} {maxRetry : Int → Int} {h : History} {t : Turn}

theorem old_of_lt (hadv : Advances maxRetry (t.parent h.store) h.store (h.turn url t).store)
    {r : TaskInstance} (hr : r ∈ (h.turn url t).store.instances.rows)
    (hlt : r.id < h.store.nextID) : ∃ r₀ ∈ h.store.instances.rows, SameAttempt r₀ r := by
  grind [hadv.grown.origin r hr]

theorem child_lt (hs : Sound maxRetry h) {b : Birth} (hb : b ∈ h.births) :
    b.child < h.store.nextID := by
  have hfresh := h.store.fresh
  grind [hs.known b hb]

theorem bounded_turn (hs : Sound maxRetry h)
    (hadv : Advances maxRetry (t.parent h.store) h.store (h.turn url t).store) :
    ∀ r ∈ (h.turn url t).store.instances.rows, r.retryCount ≤ (maxRetry r.taskID).toNat := by
  intro r hr
  by_cases hlt : r.id < h.store.nextID
  · obtain ⟨r₀, hr₀, hsame⟩ := old_of_lt hadv hr hlt
    rw [hsame.retryCount, hsame.taskID]
    exact hs.bounded r₀ hr₀
  · grind [hadv.born r hr (by omega), Born]

theorem born_turn (hs : Sound maxRetry h)
    (hadv : Advances maxRetry (t.parent h.store) h.store (h.turn url t).store) :
    ∀ r ∈ (h.turn url t).store.instances.rows,
      ∃ parent, ⟨r.id, parent⟩ ∈ (h.turn url t).births := by
  intro r hr
  by_cases hlt : r.id < h.store.nextID
  · obtain ⟨r₀, hr₀, hsame⟩ := old_of_lt hadv hr hlt
    obtain ⟨parent, hb⟩ := hs.born r₀ hr₀
    rw [hsame.id]
    exact ⟨parent, mem_births_turn.mpr (.inl hb)⟩
  · exact ⟨t.parent h.store, mem_births_turn.mpr (.inr ⟨r, hr, by omega, rfl⟩)⟩

theorem known_turn (hs : Sound maxRetry h)
    (hadv : Advances maxRetry (t.parent h.store) h.store (h.turn url t).store) :
    ∀ b ∈ (h.turn url t).births, ∃ r ∈ (h.turn url t).store.instances.rows, r.id = b.child := by
  intro b hb
  rcases mem_births_turn.mp hb with hb | ⟨r, hr, _, rfl⟩
  · obtain ⟨r, hr, hid⟩ := hs.known b hb
    obtain ⟨r', hr', hsame, _⟩ := hadv.grown.old r hr
    exact ⟨r', hr', hsame.id.trans hid⟩
  · exact ⟨r, hr, rfl⟩

theorem first_turn (hs : Sound maxRetry h)
    (hadv : Advances maxRetry (t.parent h.store) h.store (h.turn url t).store) :
    ∀ r, (h.turn url t).FirstAttempt r → r.retryCount = 0 := by
  rintro r ⟨hr, hb⟩
  rcases mem_births_turn.mp hb with hb | ⟨r', _, hle, heq⟩
  · obtain ⟨r₀, hr₀, hsame⟩ := old_of_lt hadv hr (child_lt hs hb)
    rw [hsame.id] at hb
    rw [hsame.retryCount]
    exact hs.first r₀ ⟨hr₀, hb⟩
  · injection heq with hid hparent
    have hborn := hadv.born r hr (by omega)
    grind [Born]

theorem retried_turn (hs : Sound maxRetry h)
    (hadv : Advances maxRetry (t.parent h.store) h.store (h.turn url t).store) :
    ∀ c p, ⟨c, some p⟩ ∈ (h.turn url t).births → ∃ i ∈ (h.turn url t).store.instances.rows, i.id = p
        ∧ isTerminalStatus i.status = true
        ∧ ∀ j ∈ (h.turn url t).store.instances.rows, j.id = c →
          j.taskID = i.taskID ∧ j.retryCount = i.retryCount + 1 := by
  intro c p hb
  rcases mem_births_turn.mp hb with hb | ⟨r, hr, hle, heq⟩
  · -- an earlier retry: the retried instance is finished and stays as it is
    obtain ⟨i, hi, hid, hterm, hchild⟩ := hs.retried c p hb
    obtain ⟨i', hi', hsame, hstatus⟩ := hadv.grown.old i hi
    refine ⟨i', hi', hsame.id.trans hid, by rw [hstatus hterm]; exact hterm, ?_⟩
    intro j hj hjc
    have hlt : c < h.store.nextID := child_lt hs hb
    obtain ⟨j₀, hj₀, hsame₀⟩ := old_of_lt hadv hj (by omega)
    grind
  -- the retry of this call
  injection heq with hc hparent
  obtain ⟨i, hi, hp, htask, hcount, i', hi', hid', hterm⟩ : ∃ i ∈ h.store.instances.rows,
      p = i.id ∧ r.taskID = i.taskID ∧ r.retryCount = i.retryCount + 1
        ∧ ∃ i' ∈ (h.turn url t).store.instances.rows, i'.id = i.id
          ∧ isTerminalStatus i'.status = true := by
    grind [hadv.born r hr hle, Born]
  obtain ⟨i'', hi'', hsame, _⟩ := hadv.grown.old i hi
  obtain rfl : i'' = i' := Table.eq_of_key hi'' hi' (hsame.id.trans hid'.symm)
  refine ⟨i'', hi'', hid'.trans hp.symm, hterm, ?_⟩
  intro j hj hjc
  obtain rfl : j = r := Table.eq_of_key hj hr (hjc.trans hc)
  rw [hsame.taskID, hsame.retryCount]
  exact ⟨htask, hcount⟩

theorem unique_turn (hs : Sound maxRetry h)
    (hadv : Advances maxRetry (t.parent h.store) h.store (h.turn url t).store) :
    ∀ c c' p, ⟨c, some p⟩ ∈ (h.turn url t).births →
      ⟨c', some p⟩ ∈ (h.turn url t).births → c = c' := by
  -- what a retry of this call is, and that nobody retried before is its parent
  have hnew : ∀ c p, (∃ r ∈ (h.turn url t).store.instances.rows,
      h.store.nextID ≤ r.id ∧ (⟨c, some p⟩ : Birth) = ⟨r.id, t.parent h.store⟩) →
      c = h.store.nextID ∧ ∀ c', ⟨c', some p⟩ ∉ h.births := by
    rintro c p ⟨r, hr, hle, heq⟩
    injection heq with hc hparent
    rcases hadv.born r hr hle with ⟨hnone, _⟩ | ⟨i, hi, hp, hopen, _, hid, _⟩
    · grind
    refine ⟨hc.trans hid, ?_⟩
    intro c' hb
    obtain ⟨i₀, hi₀, hid₀, hterm, _⟩ := hs.retried c' p hb
    have heq : i₀ = i := Table.eq_of_key hi₀ hi (by grind)
    grind
  intro c c' p hb hb'
  rcases mem_births_turn.mp hb with hb | hb <;> rcases mem_births_turn.mp hb' with hb' | hb'
  · exact hs.unique c c' p hb hb'
  · exact absurd hb ((hnew c' p hb').2 c)
  · exact absurd hb' ((hnew c p hb).2 c')
  · rw [(hnew c p hb).1, (hnew c' p hb').1]

theorem sound_turn (hs : Sound maxRetry h)
    (hadv : Advances maxRetry (t.parent h.store) h.store (h.turn url t).store) :
    Sound maxRetry (h.turn url t) where
  bounded := bounded_turn hs hadv
  born := born_turn hs hadv
  known := known_turn hs hadv
  first := first_turn hs hadv
  retried := retried_turn hs hadv
  unique := unique_turn hs hadv

end Step

/-- **So does a run** that ends with distinct schedule ids. -/
theorem sound_foldl (url : String) {maxRetry : Int → Int} :
    ∀ (turns : List Turn) (h : History), (∀ t ∈ turns, Fixed maxRetry t.around.tasks) →
      (h.store.SchedulesDistinct → Sound maxRetry h) →
      (turns.foldl (History.turn url) h).store.SchedulesDistinct →
      Sound maxRetry (turns.foldl (History.turn url) h) := by
  intro turns
  induction turns with
  | nil =>
    intro h _ hs hd
    exact hs hd
  | cons t turns ih =>
    intro h hfixed hs hd
    refine ih (h.turn url t) (fun t' ht' => hfixed t' (.tail _ ht')) ?_ hd
    intro hd'
    have hadv := advances_finish url (hfixed t List.mem_cons_self) hd'
    exact sound_turn (hs (hadv.grown.distinct hd')) hadv

theorem sound_run (url : String) {maxRetry : Int → Int} {turns : List Turn}
    (hfixed : ∀ t ∈ turns, Fixed maxRetry t.around.tasks)
    (hd : (History.run url turns).store.SchedulesDistinct) :
    Sound maxRetry (History.run url turns) :=
  sound_foldl url turns History.empty hfixed (fun _ => sound_empty maxRetry) hd

/-! ## Chains. -/

section Chain

variable {maxRetry : Int → Int} {h : History}

theorem succession (hs : Sound maxRetry h) : Succession h.RetriedAs TaskInstance.retryCount where
  unique := by
    intro i j k hij hik
    exact Table.eq_of_key hij.2.1 hik.2.1 (hs.unique j.id k.id i.id hij.2.2 hik.2.2)
  rank_succ := by
    intro i j hij
    obtain ⟨i', hi', hid, _, hchild⟩ := hs.retried j.id i.id hij.2.2
    obtain rfl : i' = i := Table.eq_of_key hi' hij.1 hid
    exact (hchild j hij.2.1 rfl).2

theorem task_of_reachable (hs : Sound maxRetry h) {i j : TaskInstance}
    (hi : i ∈ h.store.instances.rows) (hij : Relation.ReflTransGen h.RetriedAs i j) :
    j ∈ h.store.instances.rows ∧ j.taskID = i.taskID := by
  induction hij with
  | refl => exact ⟨hi, rfl⟩
  | @tail j k _ hjk ih =>
    refine ⟨hjk.2.1, ?_⟩
    obtain ⟨j', hj', hid, _, hchild⟩ := hs.retried k.id j.id hjk.2.2
    obtain rfl : j' = j := Table.eq_of_key hj' hjk.1 hid
    rw [(hchild k hjk.2.1 rfl).1]
    exact ih.2

theorem retryCount_of_reachable (hs : Sound maxRetry h) {i j : TaskInstance}
    (hi : i ∈ h.store.instances.rows) (hij : Relation.ReflTransGen h.RetriedAs i j) :
    j.retryCount ≤ (maxRetry i.taskID).toNat := by
  obtain ⟨hj, htask⟩ := task_of_reachable hs hi hij
  rw [← htask]
  exact hs.bounded j hj

theorem exists_firstAttempt (hs : Sound maxRetry h) :
    ∀ (n : Nat) (j : TaskInstance), j ∈ h.store.instances.rows → j.retryCount = n →
      ∃ i, h.FirstAttempt i ∧ Relation.ReflTransGen h.RetriedAs i j := by
  intro n
  induction n with
  | zero =>
    intro j hj hzero
    obtain ⟨parent, hb⟩ := hs.born j hj
    cases parent with
    | none => exact ⟨j, ⟨hj, hb⟩, Relation.ReflTransGen.refl⟩
    | some p => grind [hs.retried j.id p hb]
  | succ n ih =>
  intro j hj hcount
  obtain ⟨parent, hb⟩ := hs.born j hj
  cases parent with
  | none =>
    have := hs.first j ⟨hj, hb⟩
    omega
  | some p =>
    obtain ⟨i, hi, rfl, _, hchild⟩ := hs.retried j.id p hb
    have := (hchild j hj rfl).2
    obtain ⟨first, hfirst, hreach⟩ := ih i hi (by omega)
    exact ⟨first, hfirst, hreach.tail ⟨hi, hj, hb⟩⟩

end Chain

/-- **In every run of single calls with distinct schedule ids and fixed `MaxRetry`**, `RetryCount`
stays within `MaxRetry`, and the instances from a first attempt are ONE chain, with `RetryCount` 0,
1, 2, … along it. (A negative `MaxRetry` counts as 0; the task service stores none.) -/
theorem retries_form_chains (url : String) (maxRetry : Int → Int) (turns : List Turn)
    (hfixed : ∀ t ∈ turns, Fixed maxRetry t.around.tasks)
    (hd : (History.run url turns).store.SchedulesDistinct) :
    (∀ i ∈ (History.run url turns).store.instances.rows,
        i.retryCount ≤ (maxRetry i.taskID).toNat
          ∧ ∃ first, (History.run url turns).FirstAttempt first
              ∧ Relation.ReflTransGen (History.run url turns).RetriedAs first i)
      ∧ ∀ first, (History.run url turns).FirstAttempt first → ∃ chain : List TaskInstance,
            Line (History.run url turns).RetriedAs first chain
              ∧ chain.map TaskInstance.retryCount = List.range chain.length
              ∧ chain.length ≤ (maxRetry first.taskID).toNat + 1 := by
  have hs := sound_run url hfixed hd
  constructor
  · intro i hi
    exact ⟨hs.bounded i hi, exists_firstAttempt hs i.retryCount i hi rfl⟩
  · intro first hfirst
    have hzero := hs.first first hfirst
    have hbound : ∀ j, Relation.ReflTransGen (History.run url turns).RetriedAs first j →
        j.retryCount ≤ (maxRetry first.taskID).toNat :=
      fun j hj => retryCount_of_reachable hs hfirst.1 hj
    obtain ⟨chain, hline⟩ := (succession hs).exists_line
      ((maxRetry first.taskID).toNat + 1) first hbound (by omega)
    have hranks := (succession hs).ranks hline
    have hlength := (succession hs).length_le hline hbound
    rw [hzero, ← List.range_eq_range'] at hranks
    exact ⟨chain, hline, hranks, by omega⟩

def retriedOnce : World :=
  World.ofRows .mysql [{ id := 1, status := .enabled, nextTriggerTime := 1, maxRetry := 1 }] [] []
    [{ id := "w1", status := .online, maxConcurrency := 2 }]

/-- The instance fails, and so does its retry; each failure is reported twice. -/
def failingTwice : List Turn :=
  let reported (scheduleID : String) : Turn :=
    { call := .reportStatus { scheduleInstanceID := scheduleID, status := .failed }
      around := retriedOnce }
  [{ call := .triggerScan, around := retriedOnce, env := fun _ => { now := 1 } },
    reported (TriggerLoop.scheduleInstanceID 1 1), reported (TriggerLoop.scheduleInstanceID 1 1),
    reported (Runtime.retryScheduleInstanceID 1 1 0),
      reported (Runtime.retryScheduleInstanceID 1 1 0)]

/-- Two attempts, whatever is reported again, and a chain of at most two. -/
theorem retries_form_chains_failing :
    (History.run "" failingTwice).store.instances.rows.map TaskInstance.retryCount = [0, 1]
      ∧ ∀ first, (History.run "" failingTwice).FirstAttempt first →
          ∃ chain : List TaskInstance, Line (History.run "" failingTwice).RetriedAs first chain
            ∧ chain.map TaskInstance.retryCount = List.range chain.length ∧ chain.length ≤ 2 :=
  ⟨by decide +kernel,
    (retries_form_chains "" (fun _ => 1) failingTwice (by decide) (by decide +kernel)).2⟩

end AiScheduler.Chains
