/-
  **WHAT `Warm` PUTS ON THE WHEEL AND THE HEAP.**

  The due tasks before the cutoff go onto the wheel until one of them has a time outside the slots;
  only if none has do the waiting retries before the cutoff go onto the heap. Every `Warm` pushes
  every waiting retry again, and asks for 500 tasks anew, equal times in any order.

  Main results:
    * `warm_in_slots_iff` — when `Warm` panics.
    * `warm_idempotent_iff` — when repeated `Warm`s leave the triggers of one.
-/
import AiScheduler.Lib.Ranking
import AiScheduler.Proofs.HeapOrder
import AiScheduler.Proofs.Wheel
import AiScheduler.System.Serving

namespace AiScheduler.Engine

open Lib List

/-! ## One `Warm`. -/

/-- Put tasks onto the wheel up to the first outside the slots; `false` if there is one. -/
def addTasks : TimingWheel → List Task → Bool × TimingWheel
  | tw, [] => (true, tw)
  | tw, t :: ts =>
    match tw.add t.id t.nextTriggerTime with
    | none => (false, tw)
    | some tw' => addTasks tw' ts

/-- Push retries onto the heap. -/
def pushRetries : List HeapItem → List TaskInstance → List HeapItem
  | h, [] => h
  | h, inst :: insts =>
    pushRetries (heapPush h { taskID := inst.taskID, triggerTime := inst.nextRetryTime }) insts

/-- The cutoff of a `Warm`: its clock reading plus the span of the wheel. -/
def cutoff (w : World) (env : Nat → Input) : Int := (env 1).now + w.memory.wheel.slotSpan

/-- The due tasks a `Warm` takes up. -/
def warmTasks (w : World) (env : Nat → Input) : List Task :=
  (w.tasks.listDueTasks w.backend (env 2).now (env 2).taskScan 500).filter
    (fun t => t.nextTriggerTime < cutoff w env)

/-- The waiting retries it takes up, met in this order. -/
def warmRetries (w : World) (env : Nat → Input) (scan : Scan TaskInstance) : List TaskInstance :=
  (w.instances.listDueRetryInstances w.backend scan (cutoff w env) 500).filter
    (fun inst => inst.nextRetryTime ≠ 0 ∧ inst.nextRetryTime < cutoff w env)

/-- The wheel after a `Warm`, and whether it got that far. -/
def warmedWheel (w : World) (env : Nat → Input) : Bool × TimingWheel :=
  addTasks w.memory.wheel (warmTasks w env)

/-- The heap after a `Warm`. -/
def warmedHeap (w : World) (env : Nat → Input) (scan : Scan TaskInstance) : List HeapItem :=
  if (warmedWheel w env).1 then pushRetries w.memory.heap (warmRetries w env scan)
  else w.memory.heap

/-- The world with this wheel and heap. -/
def withTriggers (w : World) (wheel : TimingWheel) (heap : List HeapItem) : World :=
  { w with memory := { w.memory with wheel, heap } }

section Wp

variable {env : Nat → Input}

theorem wp_warmWheel (bound : Int) (ts : List Task) (w : World) (n : Nat) :
    Prog.wp (execAt env) (warmWheel bound ts) (fun ok s =>
        ok = (addTasks w.memory.wheel (ts.filter (fun t => t.nextTriggerTime < bound))).1
          ∧ s.1 = withTriggers w
              (addTasks w.memory.wheel (ts.filter (fun t => t.nextTriggerTime < bound))).2
              w.memory.heap) (w, n) := by
  induction ts generalizing w n with
  | nil => exact ⟨rfl, rfl⟩
  | cons t ts ih =>
  unfold warmWheel
  by_cases hlt : t.nextTriggerTime < bound
  · rw [if_pos hlt, filter_cons_of_pos (by simpa using hlt), wp_ask_bind]
    unfold addTasks
    -- an `Add` that panics ends the loop
    cases hadd : w.memory.wheel.add t.id t.nextTriggerTime with
    | none =>
      simp only [Call.exec, MemoryCall.exec, hadd]
      exact ⟨rfl, rfl⟩
    | some tw' =>
      simp only [Call.exec, MemoryCall.exec, hadd]
      exact ih _ _
  · rw [if_neg hlt, filter_cons_of_neg (by simpa using hlt)]
    exact ih w n

theorem wp_warmHeap (bound : Int) (insts : List TaskInstance) (w : World) (n : Nat) :
    Prog.wp (execAt env) (warmHeap bound insts) (fun _ s => s.1 = withTriggers w w.memory.wheel
        (pushRetries w.memory.heap
          (insts.filter (fun inst => inst.nextRetryTime ≠ 0 ∧ inst.nextRetryTime < bound))))
      (w, n) := by
  induction insts generalizing w n with
  | nil => rfl
  | cons inst insts ih =>
  unfold warmHeap
  by_cases hdue : inst.nextRetryTime ≠ 0 ∧ inst.nextRetryTime < bound
  · rw [if_pos hdue, filter_cons_of_pos (by simpa using hdue), wp_ask_bind]
    exact ih _ _
  · rw [if_neg hdue, filter_cons_of_neg (by simpa using hdue)]
    exact ih w n

/-- **One `Warm` without a fault, in closed form.** -/
theorem wp_warm (hfault : ∀ n, (env n).fault = none) (w : World) :
    Prog.wp (execAt env) warm (fun r s =>
        r = (if (warmedWheel w env).1 then .ok () else .error indexPanic)
          ∧ ∃ m, s.1 = withTriggers w (warmedWheel w env).2
              (warmedHeap w env (env m).instanceScan)) (w, 0) := by
  unfold warm
  -- the span, the clock, the due tasks
  rw [wp_ask_bind,
    show Call.exec (env 0) (.memory .wheelSpan) w = (w.memory.wheel.slotSpan, w) from rfl,
    wp_timeNow_bind]
  refine (wp_task_bind_of_free (hfault 2) (.listDueTasks 500) _ _ w).mpr ?_
  dsimp only [TaskCall.exec, Nat.zero_add]
  rw [Prog.wp_bind]
  refine (wp_warmWheel _ _ _ _).mono ?_
  rintro ok ⟨w', n'⟩ ⟨rfl, rfl⟩
  have hwheel : addTasks w.memory.wheel
        ((w.tasks.listDueTasks w.backend (env 2).now (env 2).taskScan 500).filter
          (fun t => t.nextTriggerTime < (env 1).now + w.memory.wheel.slotSpan))
      = warmedWheel w env := rfl
  dsimp only
  rw [hwheel]
  unfold warmedHeap
  -- the heap is filled only when every `Add` went through
  cases hok : (warmedWheel w env).1 with
  | false => exact ⟨rfl, 0, rfl⟩
  | true =>
  rw [if_pos rfl, if_pos rfl]
  refine (wp_inst_bind_of_free (hfault _) _ _ _ _).mpr ?_
  dsimp only [InstanceCall.exec]
  rw [Prog.wp_bind]
  refine (wp_warmHeap _ _ _ _).mono ?_
  rintro _ ⟨w'', n''⟩ rfl
  exact ⟨rfl, n', rfl⟩

end Wp

/-- One call of `Warm` without faults: its clock, and the orders in which it meets the rows. -/
structure WarmCall where
  clock : Nat → Int
  taskScan : Scan Task := .stored
  instanceScan : Scan TaskInstance := .stored

/-- The surroundings of the call. -/
def WarmCall.env (call : WarmCall) : Nat → Input :=
  fun n =>
    { now := call.clock n, taskScan := call.taskScan, instanceScan := call.instanceScan }

/-- The world after one `Warm`. -/
def warmOnce (w : World) (call : WarmCall) : World :=
  (Prog.run (execAt call.env) warm (w, 0)).2.1

theorem warmOnce_eq (w : World) (call : WarmCall) :
    warmOnce w call = withTriggers w (warmedWheel w call.env).2
      (warmedHeap w call.env call.instanceScan) := by
  obtain ⟨_, hw⟩ := (wp_warm (fun _ => rfl : ∀ n, (call.env n).fault = none) w).2
  exact hw

/-! ## Times outside the slots. -/

theorem addTasks_sizes (tw : TimingWheel) (ts : List Task) :
    (addTasks tw ts).2.slots.length = tw.slots.length
      ∧ (addTasks tw ts).2.tickDuration = tw.tickDuration := by
  induction ts generalizing tw with
  | nil => exact ⟨rfl, rfl⟩
  | cons t ts ih => grind [addTasks, TimingWheel.length_add, TimingWheel.add_eq_some]

theorem addTasks_fst_iff {tw : TimingWheel} (hd : 0 < tw.tickDuration) (hn : 0 < tw.slots.length)
    (ts : List Task) : (addTasks tw ts).1 = true ↔ ∀ t ∈ ts, tw.Indexable t.nextTriggerTime := by
  induction ts generalizing tw with
  | nil => simp [addTasks]
  | cons t ts ih =>
  have hadd := TimingWheel.isSome_add_iff hd hn t.id t.nextTriggerTime
  unfold addTasks
  cases htw : tw.add t.id t.nextTriggerTime with
  | none => grind
  | some tw' =>
    -- the wheel has the same size and tick as before
    have hlen := TimingWheel.length_add htw
    have htick := (TimingWheel.add_eq_some htw).2.1
    have hrest := @ih tw' (by omega) (by omega)
    simp only [TimingWheel.indexable_iff_of_sizes hlen htick] at hrest
    grind

/-- **`Add` indexes inside the slots exactly for `Indexable` times, and `Warm` panics exactly on
another.** -/
theorem warm_in_slots_iff (w : World) (env : Nat → Input) (hd : 0 < w.memory.wheel.tickDuration)
    (hn : 0 < w.memory.wheel.slots.length) (hfault : ∀ n, (env n).fault = none) :
    (∀ triggerTime, (0 ≤ w.memory.wheel.position triggerTime
          ∧ w.memory.wheel.position triggerTime < w.memory.wheel.slots.length)
        ↔ w.memory.wheel.Indexable triggerTime)
      ∧ ((Prog.run (execAt env) warm (w, 0)).1 ≠ .error indexPanic
        ↔ ∀ t ∈ w.tasks.listDueTasks w.backend (env 2).now (env 2).taskScan 500,
            t.nextTriggerTime < cutoff w env → w.memory.wheel.Indexable t.nextTriggerTime) := by
  refine ⟨?_, ?_⟩
  · intro triggerTime
    rw [← TimingWheel.position_nonneg_iff hd]
    constructor
    · exact And.left
    · intro hpos
      exact ⟨hpos, TimingWheel.position_lt hn triggerTime⟩
  have hres := (wp_warm hfault w).1
  have hall := addTasks_fst_iff hd hn (warmTasks w env)
  rw [hres, show (addTasks w.memory.wheel (warmTasks w env)).1 = (warmedWheel w env).1 from rfl]
    at *
  unfold warmTasks at hall
  simp only [List.mem_filter, decide_eq_true_eq, and_imp] at hall
  rw [← hall]
  cases (warmedWheel w env).1 with
  | false | true => simp

/-- A store with one enabled task, due since noon of 2026-01-01. -/
theorem warm_in_slots_noon :
    (Prog.run (execAt fun _ => { now := 63902865600 * second + hour }) warm
        (World.ofRows .mysql
          [{ id := 1, status := .enabled, nextTriggerTime := 63902865600 * second }] [] [] [], 0)).1
      ≠ .error indexPanic := by
  refine (warm_in_slots_iff _ _ (by decide) (by decide +kernel) (fun _ => rfl)).2.mpr ?_
  decide +kernel

/-- `next_trigger_time` 1969-12-31T23:59:59Z is accepted; its slot index is -10: `Warm` panics. -/
theorem warm_panics_before_epoch :
    let served := serve (World.ofRows .mysql [] [] [] [])
      { tenant := 0
        op := .createTask
          { name := "report", type := "shell", nextTriggerTime := unixEpoch - second } }
    served.1.isOk = true
      ∧ (served.2.tasks.listDueTasks .mysql (63902865600 * second) .stored 500).map
          Task.nextTriggerTime = [unixEpoch - second]
      ∧ served.2.memory.wheel.position (unixEpoch - second) = -10
      ∧ (Prog.run (execAt fun _ => { now := 63902865600 * second }) warm (served.2, 0)).1
          = .error indexPanic := by
  refine ⟨?_, ?_, ?_, ?_⟩
  · decide
  · decide
  · decide +kernel
  · decide +kernel

/-! ## What `Warm` adds. -/

/-- The tasks in front of the first one with a time outside the slots. -/
def taken (tw : TimingWheel) (ts : List Task) : List Task :=
  ts.takeWhile (fun t => tw.Indexable t.nextTriggerTime)

/-- The id comes into the slot with these tasks. -/
def Brings (tw : TimingWheel) (ts : List Task) (i : Nat) (id : Int) : Prop :=
  ∃ t ∈ taken tw ts, t.id = id ∧ tw.position t.nextTriggerTime = i

theorem mem_slot_addTasks {tw : TimingWheel} (hd : 0 < tw.tickDuration)
    (hn : 0 < tw.slots.length) (ts : List Task) (i : Nat) (id : Int) :
    id ∈ (addTasks tw ts).2.slot i ↔ id ∈ tw.slot i ∨ Brings tw ts i id := by
  induction ts generalizing tw with
  | nil => simp [addTasks, Brings, taken]
  | cons t ts ih =>
  have hindex := TimingWheel.isSome_add_iff hd hn t.id t.nextTriggerTime
  unfold addTasks
  cases hadd : tw.add t.id t.nextTriggerTime with
  | none =>
    -- the loop ends here, and nothing more is taken
    have hout : ¬ tw.Indexable t.nextTriggerTime := by simpa [hadd] using hindex
    simp [Brings, taken, hout]
  | some tw' =>
  have hin : tw.Indexable t.nextTriggerTime := hindex.mp (by rw [hadd]; rfl)
  have hlen := TimingWheel.length_add hadd
  have htick := (TimingWheel.add_eq_some hadd).2.1
  have hpos : tw'.position = tw.position := by
    funext triggerTime
    unfold TimingWheel.position
    rw [hlen, htick]
  -- this task is taken, and the rest goes onto the new wheel
  have htaken : taken tw (t :: ts) = t :: taken tw' ts := by
    unfold taken
    rw [takeWhile_cons_of_pos (by simpa using hin)]
    simp only [TimingWheel.indexable_iff_of_sizes hlen htick]
  dsimp only
  rw [ih (by omega) (by omega), TimingWheel.mem_slot_add hadd]
  unfold Brings
  rw [htaken, hpos]
  grind

/-- The heap item of a retry. -/
def retryItem (inst : TaskInstance) : HeapItem :=
  { taskID := inst.taskID, triggerTime := inst.nextRetryTime }

theorem pushRetries_perm (h : List HeapItem) (insts : List TaskInstance) :
    (pushRetries h insts).Perm (insts.map retryItem ++ h) := by
  induction insts generalizing h with
  | nil => exact Perm.refl _
  | cons inst insts ih =>
  have hpush : (heapPush h (retryItem inst)).Perm (retryItem inst :: h) := by
    rw [heapPush_eq]
    exact push_perm h _
  calc pushRetries h (inst :: insts) = pushRetries (heapPush h (retryItem inst)) insts := rfl
    _ |>.Perm (insts.map retryItem ++ heapPush h (retryItem inst)) := ih _
    _ |>.Perm (insts.map retryItem ++ retryItem inst :: h) := hpush.append_left _
    _ |>.Perm (retryItem inst :: (insts.map retryItem ++ h)) := perm_middle

/-- What a call pushes onto the heap. -/
def pushed (w : World) (call : WarmCall) : List HeapItem :=
  if (warmedWheel w call.env).1 then (warmRetries w call.env call.instanceScan).map retryItem
  else []

theorem warmedHeap_perm (w : World) (call : WarmCall) :
    (warmedHeap w call.env call.instanceScan).Perm (pushed w call ++ w.memory.heap) := by
  unfold warmedHeap pushed
  split
  · exact pushRetries_perm _ _
  · exact Perm.refl _

/-! ## Several `Warm`s. -/

/-- The world after these calls of `Warm`, without a tick in between. -/
def warmAll (w : World) (calls : List WarmCall) : World := calls.foldl warmOnce w

/-- The same ids in each slot, and the same heap items as often. -/
def SameTriggers (m m' : Memory) : Prop :=
  (∀ i id, id ∈ m.wheel.slot i ↔ id ∈ m'.wheel.slot i) ∧ m.heap.Perm m'.heap

section Several

variable {w : World} (hd : 0 < w.memory.wheel.tickDuration) (hn : 0 < w.memory.wheel.slots.length)

theorem warm_withTriggers {wheel : TimingWheel} (heap : List HeapItem)
    (hlen : wheel.slots.length = w.memory.wheel.slots.length)
    (htick : wheel.tickDuration = w.memory.wheel.tickDuration) (env : Nat → Input) :
    warmTasks (withTriggers w wheel heap) env = warmTasks w env
      ∧ warmRetries (withTriggers w wheel heap) env = warmRetries w env := by
  have hcut : cutoff (withTriggers w wheel heap) env = cutoff w env := by
    unfold cutoff TimingWheel.slotSpan
    show (env 1).now + wrap64 (wheel.tickDuration * wheel.slots.length) = _
    rw [hlen, htick]
  refine ⟨?_, funext fun scan => ?_⟩
  · unfold warmTasks
    rw [hcut]
    rfl
  · unfold warmRetries
    rw [hcut]
    rfl

include hd hn

theorem brings_withTriggers {wheel : TimingWheel} (heap : List HeapItem)
    (hlen : wheel.slots.length = w.memory.wheel.slots.length)
    (htick : wheel.tickDuration = w.memory.wheel.tickDuration) (call : WarmCall) :
    (∀ i id, Brings wheel (warmTasks (withTriggers w wheel heap) call.env) i id
        ↔ Brings w.memory.wheel (warmTasks w call.env) i id)
      ∧ pushed (withTriggers w wheel heap) call = pushed w call := by
  obtain ⟨htasks, hretries⟩ := warm_withTriggers heap hlen htick call.env
  refine ⟨?_, ?_⟩
  · intro i id
    unfold Brings taken TimingWheel.position
    simp only [htasks, TimingWheel.indexable_iff_of_sizes hlen htick, hlen, htick]
  have hok : (warmedWheel (withTriggers w wheel heap) call.env).1 = (warmedWheel w call.env).1 := by
    apply Bool.eq_iff_iff.mpr
    unfold warmedWheel
    rw [htasks, show (withTriggers w wheel heap).memory.wheel = wheel from rfl,
      addTasks_fst_iff (by rw [htick]; exact hd) (by rw [hlen]; exact hn),
      addTasks_fst_iff hd hn]
    simp only [TimingWheel.indexable_iff_of_sizes hlen htick]
  unfold pushed
  rw [hok, hretries]

/-- **The triggers after any number of `Warm`s.** -/
theorem triggers_warmAll (calls : List WarmCall) :
    (∀ i id, id ∈ (warmAll w calls).memory.wheel.slot i ↔ id ∈ w.memory.wheel.slot i
          ∨ ∃ call ∈ calls, Brings w.memory.wheel (warmTasks w call.env) i id)
      ∧ (warmAll w calls).memory.heap.Perm (calls.flatMap (pushed w) ++ w.memory.heap) := by
  -- a `Warm` changes wheel and heap only, and reads of them size and tick only; so
  -- every later one takes up what it would take up from `w`
  induction calls generalizing w with
  | nil =>
    refine ⟨?_, Perm.refl _⟩
    intro i id
    simp [warmAll]
  | cons call calls ih =>
  have hlen : (warmedWheel w call.env).2.slots.length = w.memory.wheel.slots.length :=
    (addTasks_sizes _ _).1
  have htick : (warmedWheel w call.env).2.tickDuration = w.memory.wheel.tickDuration :=
    (addTasks_sizes _ _).2
  have hall : warmAll w (call :: calls) = warmAll (withTriggers w (warmedWheel w call.env).2
      (warmedHeap w call.env call.instanceScan)) calls := by
    rw [← warmOnce_eq]
    rfl
  obtain ⟨hslots, hheap⟩ := ih (w := withTriggers w (warmedWheel w call.env).2
    (warmedHeap w call.env call.instanceScan)) (htick.symm ▸ hd) (hlen.symm ▸ hn)
  have hsame := brings_withTriggers hd hn (warmedHeap w call.env call.instanceScan) hlen htick
  rw [hall]
  refine ⟨?_, ?_⟩
  · intro i id
    rw [hslots]
    simp only [mem_cons, exists_eq_or_imp]
    rw [← or_assoc, ← mem_slot_addTasks hd hn]
    apply or_congr Iff.rfl
    apply exists_congr
    intro call'
    rw [and_congr_right_iff]
    intro _
    exact (hsame call').1 i id
  rw [show pushed (withTriggers w _ _) = pushed w from funext (fun call' => (hsame call').2)]
    at hheap
  rw [flatMap_cons]
  calc (warmAll (withTriggers w (warmedWheel w call.env).2
        (warmedHeap w call.env call.instanceScan)) calls).memory.heap
      |>.Perm (calls.flatMap (pushed w) ++ warmedHeap w call.env call.instanceScan) := hheap
    _ |>.Perm (calls.flatMap (pushed w) ++ (pushed w call ++ w.memory.heap)) :=
        (warmedHeap_perm w call).append_left _
    _ |>.Perm (pushed w call ++ calls.flatMap (pushed w) ++ w.memory.heap) := by
        rw [← append_assoc]
        exact (perm_append_comm).append_right _

end Several

/-! ## Which tasks a `Warm` may take up. -/

/-- The rows of the tasks due at `now`. -/
def dueRows (w : World) (now : Int) : List Task :=
  w.tasks.tasks.rows.filter (fun t => t.isDue now)

/-- No tie at the 500th place: the due tasks of one trigger time are listed all or none. -/
def NoTieAt500 (w : World) (now : Int) : Prop :=
  ∀ t ∈ dueRows w now,
    (dueRows w now).countP (fun u => u.nextTriggerTime < t.nextTriggerTime) < 500 →
    (dueRows w now).countP (fun u => u.nextTriggerTime ≤ t.nextTriggerTime) ≤ 500

/-- A due task before the cutoff that no time outside the slots, its own or an earlier one, keeps
off the wheel. -/
def Addable (w : World) (env : Nat → Input) (t : Task) : Prop :=
  t ∈ dueRows w (env 2).now ∧ t.nextTriggerTime < cutoff w env
    ∧ ∀ u ∈ dueRows w (env 2).now, u.nextTriggerTime ≤ t.nextTriggerTime →
        w.memory.wheel.Indexable u.nextTriggerTime

section Rows

variable {w : World} {env env' : Nat → Input} {call : WarmCall} {t : Task}

theorem mem_dueRows_of_le {u : Task} {now now' : Int} (hu : u ∈ dueRows w now')
    (hle : u.nextTriggerTime ≤ now) : u ∈ dueRows w now := by
  grind [dueRows, Task.isDue]

theorem le_of_mem_dueRows {now : Int} (ht : t ∈ dueRows w now) : t.nextTriggerTime ≤ now :=
  (of_decide_eq_true (mem_filter.mp ht).2).2.2

/-- The tasks listed, before they are read. -/
def listedRows (w : World) (now : Int) (scan : Scan Task) : List Task :=
  (scan.orderBy Task.nextTriggerTime (dueRows w now)).take 500

theorem listDueTasks_eq (w : World) (now : Int) (scan : Scan Task) :
    w.tasks.listDueTasks w.backend now scan 500
      = (listedRows w now scan).map (readTask w.backend) := rfl

theorem listedRows_spec (w : World) (now : Int) (scan : Scan Task) :
    (listedRows w now scan).Pairwise (fun a b => a.nextTriggerTime ≤ b.nextTriggerTime)
      ∧ (∀ t ∈ listedRows w now scan, t ∈ dueRows w now)
      ∧ ∀ t ∈ dueRows w now, t ∈ listedRows w now scan ∨ ((listedRows w now scan).length = 500
          ∧ ∀ u ∈ listedRows w now scan, u.nextTriggerTime ≤ t.nextTriggerTime) := by
  obtain ⟨hsorted, hfrom, hrest⟩ := take_sorted (sortBy_pairwise Task.nextTriggerTime
    (scan.order (dueRows w now)) : (scan.orderBy _ (dueRows w now)).Pairwise _) 500
  exact ⟨hsorted, fun t ht => Scan.mem_orderBy.mp (hfrom t ht),
    fun t ht => hrest t (Scan.mem_orderBy.mpr ht)⟩

/-- **What a `Warm` brings**: the addable tasks among those listed. -/
theorem brings_iff (w : World) (env : Nat → Input) (i : Nat) (id : Int) :
    Brings w.memory.wheel (warmTasks w env) i id
      ↔ ∃ t ∈ listedRows w (env 2).now (env 2).taskScan, Addable w env t ∧ t.id = id
          ∧ w.memory.wheel.position t.nextTriggerTime = i := by
  obtain ⟨hsorted, hfrom, hrest⟩ := listedRows_spec w (env 2).now (env 2).taskScan
  have hwarm : warmTasks w env = ((listedRows w (env 2).now (env 2).taskScan).filter
      (fun t => t.nextTriggerTime < cutoff w env)).map (readTask w.backend) := by
    unfold warmTasks
    rw [listDueTasks_eq, filter_map]
    congr 2
    funext t
    simp
  have htaken : taken w.memory.wheel (warmTasks w env)
      = (((listedRows w (env 2).now (env 2).taskScan).filter
          (fun t => t.nextTriggerTime < cutoff w env)).takeWhile
            (fun t => w.memory.wheel.Indexable t.nextTriggerTime)).map (readTask w.backend) := by
    unfold taken
    rw [hwarm, takeWhile_map]
    congr 2
    funext t
    simp
  have hmem : ∀ t, t ∈ ((listedRows w (env 2).now (env 2).taskScan).filter
          (fun t => t.nextTriggerTime < cutoff w env)).takeWhile
            (fun t => w.memory.wheel.Indexable t.nextTriggerTime)
      ↔ t ∈ listedRows w (env 2).now (env 2).taskScan ∧ Addable w env t := by
    intro t
    rw [mem_takeWhile_iff (p := fun time => w.memory.wheel.Indexable time) (hsorted.filter _)]
    simp only [mem_filter, decide_eq_true_eq, and_imp]
    constructor
    · rintro ⟨⟨ht, hcut⟩, hall⟩
      refine ⟨ht, hfrom t ht, hcut, ?_⟩
      intro u hu hut
      -- a due task that is not listed and not later has the same time
      grind
    · rintro ⟨ht, _, hcut, hall⟩
      exact ⟨⟨ht, hcut⟩, fun u hu _ hut => hall u (hfrom u hu) hut⟩
  unfold Brings
  rw [htaken]
  simp only [mem_map, hmem]
  constructor
  · rintro ⟨_, ⟨t, ⟨ht, hadd⟩, rfl⟩, h⟩
    exact ⟨t, ht, hadd, by simpa using h⟩
  · rintro ⟨t, ht, hadd, h⟩
    exact ⟨readTask w.backend t, ⟨t, ⟨ht, hadd⟩, rfl⟩, by simpa using h⟩

/-- An addable task stays so at a later `Warm`. -/
theorem Addable.later (h : Addable w env t) (hnow : (env 1).now ≤ (env' 1).now)
    (hdue : (env 2).now ≤ (env' 2).now) : Addable w env' t := by
  obtain ⟨ht, hcut, hall⟩ := h
  have hle := le_of_mem_dueRows ht
  exact ⟨mem_dueRows_of_le ht (by omega), by unfold cutoff at *; omega,
    fun u hu hut => hall u (mem_dueRows_of_le hu (by omega)) hut⟩

/-- What is due up to a time is due at every later reading. -/
theorem countP_dueRows {now now' time : Int} (hle : time ≤ now) (hnow : now ≤ now') :
    (dueRows w now').countP (fun u => u.nextTriggerTime ≤ time)
      = (dueRows w now).countP (fun u => u.nextTriggerTime ≤ time) := by
  unfold dueRows
  rw [countP_filter, countP_filter]
  apply countP_congr
  grind [Task.isDue]

/-- **Where no tie is at the 500th place, a later `Warm` brings what an earlier one brought**, in
whatever orders they meet the tasks. -/
theorem brings_later (hties : NoTieAt500 w (env 2).now) (hnow : ∀ n, (env n).now ≤ (env' n).now)
    {i : Nat} {id : Int} (h : Brings w.memory.wheel (warmTasks w env) i id) :
    Brings w.memory.wheel (warmTasks w env') i id := by
  obtain ⟨t, ht, hadd, rfl, hi⟩ := (brings_iff _ _ _ _).mp h
  have hlater := hadd.later (hnow 1) (hnow 2)
  have hfew := hties t hadd.1 (countP_lt_of_mem_take ht)
  rw [← countP_dueRows (le_of_mem_dueRows hadd.1) (hnow 2)] at hfew
  exact (brings_iff _ _ _ _).mpr
    ⟨t, mem_take_of_countP_le (env' 2).taskScan hlater.1 hfew, hlater, rfl, hi⟩

end Rows

/-! ## Idempotence. -/

/-- The call panics before it gets to the heap, or finds no waiting retry before its cutoff. -/
def PushesNothing (w : World) (call : WarmCall) : Prop :=
  (∃ t ∈ w.tasks.listDueTasks w.backend (call.clock 2) call.taskScan 500,
      t.nextTriggerTime < cutoff w call.env ∧ ¬ w.memory.wheel.Indexable t.nextTriggerTime)
    ∨ ∀ inst ∈ w.instances.listDueRetryInstances w.backend call.instanceScan
        (cutoff w call.env) 500,
        inst.nextRetryTime ≠ 0 → ¬ inst.nextRetryTime < cutoff w call.env

theorem pushed_eq_nil_iff {w : World} (hd : 0 < w.memory.wheel.tickDuration)
    (hn : 0 < w.memory.wheel.slots.length) (call : WarmCall) :
    pushed w call = [] ↔ PushesNothing w call := by
  have hok : (warmedWheel w call.env).1 = true ↔ ¬ ∃ t ∈ w.tasks.listDueTasks w.backend
      (call.clock 2) call.taskScan 500, t.nextTriggerTime < cutoff w call.env
        ∧ ¬ w.memory.wheel.Indexable t.nextTriggerTime := by
    unfold warmedWheel
    rw [addTasks_fst_iff hd hn]
    unfold warmTasks
    simp only [mem_filter, decide_eq_true_eq, and_imp, not_exists, not_and, not_not]
    rfl
  have hnone : warmRetries w call.env call.instanceScan = []
      ↔ ∀ inst ∈ w.instances.listDueRetryInstances w.backend call.instanceScan
          (cutoff w call.env) 500,
          inst.nextRetryTime ≠ 0 → ¬ inst.nextRetryTime < cutoff w call.env := by
    unfold warmRetries
    rw [filter_eq_nil_iff]
    simp
  unfold pushed PushesNothing
  rw [← hnone]
  split
  next hwheel => rw [map_eq_nil_iff, or_iff_right (hok.mp hwheel)]
  next hwheel => exact iff_of_true rfl (.inl (not_not.mp (fun h => hwheel (hok.mpr h))))

/-- **`Warm` repeated leaves the triggers of the last call alone**, in whatever orders the calls
meet the rows, exactly when the calls before it push nothing — with no tie at the 500th place. -/
theorem warm_idempotent_iff (w : World) (hd : 0 < w.memory.wheel.tickDuration)
    (hn : 0 < w.memory.wheel.slots.length) (earlier : List WarmCall) (last : WarmCall)
    (hclock : ∀ call ∈ earlier, ∀ n, call.clock n ≤ last.clock n)
    (hties : ∀ call ∈ earlier, NoTieAt500 w (call.clock 2)) :
    SameTriggers (warmAll w (earlier ++ [last])).memory (warmOnce w last).memory
      ↔ ∀ call ∈ earlier, PushesNothing w call := by
  obtain ⟨hslots, hheap⟩ := triggers_warmAll hd hn (earlier ++ [last])
  obtain ⟨hslots₁, hheap₁⟩ := triggers_warmAll hd hn [last]
  rw [show warmAll w [last] = warmOnce w last from rfl] at hslots₁ hheap₁
  rw [flatMap_append, flatMap_singleton, append_assoc] at hheap
  rw [flatMap_singleton] at hheap₁
  -- what an earlier call brings, the last one brings as well
  have hwheel : ∀ i id, id ∈ (warmAll w (earlier ++ [last])).memory.wheel.slot i
      ↔ id ∈ (warmOnce w last).memory.wheel.slot i := by
    intro i id
    rw [hslots, hslots₁]
    apply or_congr Iff.rfl
    simp only [mem_append, mem_singleton, exists_eq_left]
    constructor
    · rintro ⟨call, hcall | rfl, hbrings⟩
      · exact brings_later (hties call hcall) (hclock call hcall) hbrings
      · exact hbrings
    · exact fun hbrings => ⟨last, .inr rfl, hbrings⟩
  simp only [← pushed_eq_nil_iff hd hn, ← flatMap_eq_nil_iff]
  constructor
  · rintro ⟨_, hperm⟩
    have hlen := ((hheap.symm.trans hperm).trans hheap₁).length_eq
    rw [length_append] at hlen
    exact eq_nil_of_length_eq_zero (by omega)
  · intro hnil
    rw [hnil, nil_append] at hheap
    exact ⟨hwheel, hheap.trans hheap₁.symm⟩

/-- One due task and no waiting retry, warmed twice, ten seconds apart, in any orders. -/
theorem warm_idempotent_noon :
    let w := World.ofRows .mysql
      [{ id := 1, status := .enabled, nextTriggerTime := 63902865600 * second }] [] [] []
    ∀ (tasks tasks' : Scan Task) (insts insts' : Scan TaskInstance),
      SameTriggers (warmAll w [⟨fun _ => 63902865601 * second, tasks, insts⟩,
          ⟨fun _ => 63902865611 * second, tasks', insts'⟩]).memory
        (warmOnce w ⟨fun _ => 63902865611 * second, tasks', insts'⟩).memory := by
  intro w tasks tasks' insts insts'
  refine (warm_idempotent_iff w (by decide) (by decide +kernel)
    [⟨fun _ => 63902865601 * second, tasks, insts⟩] _ ?_ ?_).mpr ?_
  · simp only [mem_singleton, forall_eq]
    intro _
    decide
  · simp only [mem_singleton, forall_eq]
    unfold NoTieAt500
    decide
  · simp only [mem_singleton, forall_eq]
    refine .inr (fun inst hinst => ?_)
    obtain ⟨r, hr, _⟩ := InstanceStore.mem_listDueRetryInstances hinst
    cases hr

/-- One retry instance, due in a second: two `Warm`s leave it on the heap twice. -/
theorem warm_twice_doubles_retry :
    let w := World.ofRows .mysql [] []
      [{ id := 1, taskID := 7, status := .retryWaiting
         nextRetryTime := 63902865601 * second }] []
    let call : WarmCall := { clock := fun _ => 63902865600 * second }
    (warmOnce w call).memory.heap = [⟨7, 63902865601 * second⟩]
      ∧ (warmAll w [call, call]).memory.heap
          = [⟨7, 63902865601 * second⟩, ⟨7, 63902865601 * second⟩]
      ∧ ¬ SameTriggers (warmAll w [call, call]).memory (warmOnce w call).memory := by
  intro w call
  have hone : (warmOnce w call).memory.heap = [⟨7, 63902865601 * second⟩] := by decide +kernel
  have htwo : (warmAll w [call, call]).memory.heap
      = [⟨7, 63902865601 * second⟩, ⟨7, 63902865601 * second⟩] := by decide +kernel
  refine ⟨hone, htwo, ?_⟩
  rintro ⟨_, hperm⟩
  rw [hone, htwo] at hperm
  exact absurd hperm.length_eq (by decide)

end AiScheduler.Engine
