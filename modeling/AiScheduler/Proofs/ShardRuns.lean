/-
  **EACH SHARD ONCE BETWEEN TWO OCCURRENCES — as long as a handling that sends a shard sends them
  all.**

  `handleTask` keeps no record of the shards it has sent. A COMPLETE handling stores the next
  occurrence; one that runs out of workers half-way stores "in ten seconds" instead, and the next
  one starts again with shard 0.
-/
import AiScheduler.Proofs.Handling
import AiScheduler.Proofs.Redelivery
import Mathlib.Data.Int.ConditionallyCompleteOrder
import Mathlib.Data.List.Chain

namespace AiScheduler.ShardRuns

open Lib TriggerLoop Handling List

/-! ## When a shard was sent. -/

/-- The first attempts in a log that starts with call `n`: when, and which shard. -/
def sentAt (env : Nat → Input) (id : Int) : Nat → List (Event System) → List (Int × Int)
  | _, [] => []
  | n, e :: log => ((sentShard id e).map (fun shard => ((env n).now, shard))).toList
      ++ sentAt env id (n + 1) log

section Sent

variable {env : Nat → Input} {id : Int}

theorem map_snd_sentAt : ∀ (log : List (Event System)) (n : Nat),
    (sentAt env id n log).map Prod.snd = shardsSent id log := by
  intro log
  induction log with
  | nil =>
    intro n
    rfl
  | cons e log ih =>
    intro n
    unfold sentAt shardsSent
    rw [map_append, ih, filterMap_cons]
    cases sentShard id e with
    | none | some shard => rfl

theorem sentAt_append : ∀ (log log' : List (Event System)) (n : Nat),
    sentAt env id n (log ++ log') = sentAt env id n log ++ sentAt env id (n + log.length) log' := by
  intro log log'
  induction log with
  | nil =>
    intro n
    rfl
  | cons e log ih =>
    intro n
    show _ ++ sentAt env id (n + 1) (log ++ log') = (_ ++ sentAt env id (n + 1) log) ++ _
    rw [ih, append_assoc, length_cons, Nat.add_comm log.length, Nat.add_assoc]

theorem exists_of_mem_sentAt : ∀ {log : List (Event System)} {n : Nat} {x : Int × Int},
    x ∈ sentAt env id n log → ∃ m, n ≤ m ∧ m < n + log.length ∧ x.1 = (env m).now := by
  intro log
  induction log with
  | nil =>
    intro n x hx
    cases hx
  | cons e log ih =>
  intro n x hx
  rw [length_cons]
  rcases mem_append.mp hx with hx | hx
  · rw [Option.mem_toList, Option.map_eq_some_iff] at hx
    obtain ⟨shard, _, rfl⟩ := hx
    exact ⟨n, Nat.le_refl n, by omega, rfl⟩
  · obtain ⟨m, hle, hlt, htime⟩ := ih hx
    exact ⟨m, by omega, by omega, htime⟩

end Sent

/-! ## One turn. -/

def sent (t : Turn) : List (Int × Int) := sentAt t.env t.row.id t.start t.log

def begins (t : Turn) : Int := (t.env t.start).now

def ends (t : Turn) : Int := (t.env t.final.2).now

/-- A turn as a scan takes it: the task is due, and the clock does not go back. -/
structure Taken (expr : String) (t : Turn) : Prop where
  cron : t.row.cronExpr = expr
  due : t.row.nextTriggerTime ≤ begins t
  clock : Monotone (fun n => (t.env n).now)
  succeed : AllSucceed t.log

/-- A turn that sends has workers for all shards, and a next minute within the search limit. -/
structure Unbroken (t : Turn) : Prop where
  workers : sent t ≠ [] → ranOut t.log = false
  finds : sent t ≠ [] → ∃ last, lastReading t.log = some last ∧ FindsTime t.row.cronExpr last

section Turn

variable {expr : String} {t : Turn} (h : Taken expr t)

include h

theorem begins_le_ends : begins t ≤ ends t := by
  refine h.clock ?_
  rw [t.final_count]
  exact Nat.le_add_right _ _

theorem begins_le_of_sent {x : Int × Int} (hx : x ∈ sent t) : begins t ≤ x.1 := by
  obtain ⟨m, hle, _, htime⟩ := exists_of_mem_sentAt hx
  rw [htime]
  exact h.clock hle

variable (hunbroken : Unbroken t)

include hunbroken

theorem nodup_sent : ((sent t).map Prod.snd).Nodup := by
  by_cases hsent : sent t = []
  · rw [hsent]
    exact nodup_nil
  unfold sent
  rw [map_snd_sentAt]
  cases t.handled h.succeed with
  | closed _ hnone _ =>
    rw [hnone]
    exact nodup_nil
  | ranOut _ hout _ =>
    rw [hunbroken.workers hsent] at hout
    cases hout
  | complete _ _ _ _ _ _ hnodup => exact hnodup

/-- **A turn that sends stores the next occurrence** after any of its sendings. -/
theorem next_le_of_sent {s : Cron.Schedule} (hparse : Cron.parse expr = .ok s) {x : Int × Int}
    (hx : x ∈ sent t) :
    ∃ row', t.final.1.tasks.tasks.get? t.row.id = some row'
      ∧ ∀ b, Next (Cron.matching s 0) x.1 b → b ≤ row'.nextTriggerTime := by
  have hsent : sent t ≠ [] := ne_nil_of_mem hx
  cases t.handled h.succeed with
  | closed _ hnone _ =>
    rw [← map_snd_sentAt t.log t.start] at hnone
    exact absurd (map_eq_nil_iff.mp hnone) hsent
  | ranOut _ hout _ =>
    rw [hunbroken.workers hsent] at hout
    cases hout
  | complete before after hlog _ _ hafter _ hlast hfound _ =>
  obtain ⟨last, hlast', hfinds⟩ := hunbroken.finds hsent
  rw [hlast] at hlast'
  cases hlast'
  have hcron : t.task.cronExpr = expr := (readTask_cronExpr _ _).trans h.cron
  have hne : t.task.cronExpr ≠ "" := by
    rw [hcron]
    rintro rfl
    rw [show Cron.parse "" = .error (.text "cron expression must contain 5 fields") by decide]
      at hparse
    cases hparse
  -- the sending came before the last reading
  have hbefore : x.1 ≤ (t.env (t.start + before.length)).now := by
    have hmem : x ∈ sentAt t.env t.row.id t.start before := by
      have hnone : sentAt t.env t.row.id (t.start + before.length) after = [] := by
        rw [← map_eq_nil_iff, map_snd_sentAt]
        exact hafter
      have hx : x ∈ sentAt t.env t.row.id t.start t.log := hx
      rw [hlog, sentAt_append, hnone, append_nil] at hx
      exact hx
    obtain ⟨m, _, hlt, htime⟩ := exists_of_mem_sentAt hmem
    rw [htime]
    exact h.clock (Nat.le_of_lt hlt)
  rw [h.cron, ← nextAfter_ok_iff] at hfinds
  obtain ⟨next, hnext⟩ := hfinds
  have htrigger : nextTriggerTime t.task (t.env (t.start + before.length)).now = .ok next := by
    rw [nextTriggerTime_of_cron hne, hcron]
    exact hnext
  obtain ⟨row', hset, hhas⟩ := hfound next htrigger
  refine ⟨row', hset.id ▸ hhas.row, ?_⟩
  intro b hb
  rw [hset.time]
  rw [← Cron.nextAfterIn_zero] at hnext
  exact hb.mono (Cron.next_of_nextAfterIn (by decide) hparse hnext) hbefore

end Turn

/-! ## Turn after turn. -/

/-- `t'` comes after `t`, and nothing else wrote the task's row in between. -/
structure Then (t t' : Turn) : Prop where
  row : t.final.1.tasks.tasks.get? t.row.id = some t'.row
  clock : ends t ≤ begins t'

def sends (turns : List Turn) : List (Int × Int) := turns.flatMap sent

theorem begins_le_of_mem_sends {expr : String} : ∀ {turns : List Turn} {t : Turn},
    (t :: turns).IsChain Then → (∀ t' ∈ t :: turns, Taken expr t') →
    ∀ x ∈ sends (t :: turns), begins t ≤ x.1 := by
  intro turns
  induction turns with
  | nil =>
    intro t _ htaken x hx
    have hx : x ∈ sent t ++ sends [] := hx
    rw [show sends [] = [] from rfl, append_nil] at hx
    exact begins_le_of_sent (htaken t mem_cons_self) hx
  | cons t' turns ih =>
  intro t hchain htaken x hx
  obtain ⟨hthen, hrest⟩ := isChain_cons_cons.mp hchain
  have ht := htaken t mem_cons_self
  rcases mem_append.mp (show x ∈ sent t ++ sends (t' :: turns) from hx) with hx | hx
  · exact begins_le_of_sent ht hx
  · calc begins t ≤ ends t := begins_le_ends ht
      _ ≤ begins t' := hthen.clock
      _ ≤ x.1 := ih hrest (fun u hu => htaken u (.tail _ hu)) x hx

theorem pairwise_sends {expr : String} {s : Cron.Schedule} (hparse : Cron.parse expr = .ok s) :
    ∀ {turns : List Turn}, turns.IsChain Then → (∀ t ∈ turns, Taken expr t) →
      (∀ t ∈ turns, Unbroken t) →
      (sends turns).Pairwise
        (fun x y => x.2 ≠ y.2 ∨ ∀ b, Next (Cron.matching s 0) x.1 b → b ≤ y.1) := by
  intro turns
  induction turns with
  | nil =>
    intro _ _ _
    exact Pairwise.nil
  | cons t turns ih =>
  intro hchain htaken hunbroken
  have ht := htaken t mem_cons_self
  have hu := hunbroken t mem_cons_self
  have htaken' := fun u hu => htaken u (mem_cons_of_mem t hu)
  show (sent t ++ sends turns).Pairwise _
  rw [pairwise_append]
  refine ⟨?_, ih hchain.tail htaken' (fun u hu => hunbroken u (mem_cons_of_mem t hu)), ?_⟩
  · exact (pairwise_map.mp (nodup_sent ht hu)).imp Or.inl
  intro x hx y hy
  right
  intro b hb
  obtain ⟨row', hrow', hnext⟩ := next_le_of_sent ht hu hparse hx
  cases turns with
  | nil => cases hy
  | cons t' turns =>
  obtain ⟨hthen, hrest⟩ := isChain_cons_cons.mp hchain
  rw [hthen.row] at hrow'
  cases hrow'
  calc b ≤ t'.row.nextTriggerTime := hnext b hb
    _ ≤ begins t' := (htaken' t' mem_cons_self).due
    _ ≤ y.1 := begins_le_of_mem_sends hrest htaken' y hy

/-- **EACH SHARD AT MOST ONCE** between two consecutive occurrences `a` and `b`. -/
theorem each_shard_once (expr : String) (s : Cron.Schedule) (hparse : Cron.parse expr = .ok s)
    (turns : List Turn) (hchain : turns.IsChain Then) (htaken : ∀ t ∈ turns, Taken expr t)
    (hunbroken : ∀ t ∈ turns, Unbroken t) (a b : Int) (hab : Next (Cron.matching s 0) a b) :
    (((sends turns).filter (fun x => a ≤ x.1 ∧ x.1 < b)).map Prod.snd).Nodup := by
  unfold List.Nodup
  rw [List.pairwise_map]
  have hpairs := (pairwise_sends hparse hchain htaken hunbroken).filter (fun x => a ≤ x.1 ∧ x.1 < b)
  refine hpairs.imp_of_mem ?_
  intro x y hx hy hxy
  have hx := of_decide_eq_true (List.mem_filter.mp hx).2
  have hy := of_decide_eq_true (List.mem_filter.mp hy).2
  rcases hxy with hne | hlater
  · exact hne
  · have := hlater b (hab.of_between hx.1 hx.2)
    omega

/-! ## One worker for two shards. -/

def hourly : Cron.Schedule := ⟨⟨[0], false⟩, ⟨[], true⟩, ⟨[], true⟩, ⟨[], true⟩, ⟨[], true⟩⟩

theorem parse_hourly : Cron.parse "0 * * * *" = .ok hourly := by decide

theorem next_hour :
    Next (Cron.matching hourly 0) (unixEpoch + hour) (unixEpoch + 2 * hour) :=
  Cron.next_of_nextAfterIn (by decide) parse_hourly (by decide)

/-- A task with two shards, due at one o'clock, and one worker. -/
def twoShards (maxConcurrency : Int) : World :=
  World.ofRows .teststore
    [{ id := 1, cronExpr := "0 * * * *", status := .enabled, totalShards := 2
       nextTriggerTime := unixEpoch + hour }] [] []
    [{ id := "w", status := .online, maxConcurrency }]

/-- A clock that starts at `now` and moves on with every call. -/
def clockFrom (now : Int) (n : Nat) : Input := { now := now + n }

/-- A scan: its first attempts of task 1, whether its calls succeeded, and the world after it. -/
def scanned (now : Int) (w : World) : List (Int × Int) × Bool × World :=
  let log := Prog.events (execAt (clockFrom now)) (scan "") (w, 0)
  (sentAt (clockFrom now) 1 0 log, decide (AllSucceed log),
    (Prog.run (execAt (clockFrom now)) (scan "") (w, 0)).2.1)

def firstScan : List (Int × Int) × Bool × World := scanned (unixEpoch + hour) (twoShards 1)

def afterReport : World :=
  (Redelivery.deliver "" (clockFrom (unixEpoch + hour + 5 * second))
    { scheduleInstanceID := "task-1-3600000000007", workerID := "w", status := .success }
    firstScan.2.2).2

/-- The second scan, a little more than ten seconds after the first. -/
def secondScan : List (Int × Int) × Bool × World :=
  scanned (unixEpoch + hour + 11 * second) afterReport

/-- **Shard 0 is sent twice, shard 1 never**: the worker has room for one shard at a time. -/
theorem first_shard_sent_twice :
    Next (Cron.matching hourly 0) (unixEpoch + hour) (unixEpoch + 2 * hour)
      ∧ firstScan.2.1 = true ∧ secondScan.2.1 = true
      ∧ ((firstScan.1 ++ secondScan.1).filter
          (fun x => unixEpoch + hour ≤ x.1 ∧ x.1 < unixEpoch + 2 * hour)).map Prod.snd = [0, 0]
      ∧ ¬ (((firstScan.1 ++ secondScan.1).filter
          (fun x => unixEpoch + hour ≤ x.1 ∧ x.1 < unixEpoch + 2 * hour)).map Prod.snd).Nodup := by
  refine ⟨next_hour, by decide +kernel, by decide +kernel, by decide +kernel, by decide +kernel⟩

/-- With room for both shards: the handling at one o'clock … -/
def oneOClock : Turn where
  env := clockFrom (unixEpoch + hour)
  world := twoShards 4
  row := { id := 1, cronExpr := "0 * * * *", status := .enabled, totalShards := 2
           nextTriggerTime := unixEpoch + hour }
  stored := rfl
  left := ⟨fun _ _ => rfl, fun _ _ => rfl⟩

/-- … leaves the task for two o'clock … -/
def nextRow : Task :=
  { oneOClock.row with
    nextTriggerTime := unixEpoch + 2 * hour, version := 1, updatedAt := unixEpoch + hour + 18 }

theorem nextRow_stored : oneOClock.final.1.tasks.tasks.get? 1 = some nextRow := by
  decide

/-- … when it is handled again. -/
def twoOClock : Turn where
  env := clockFrom (unixEpoch + 2 * hour)
  world := oneOClock.final.1
  row := nextRow
  stored := nextRow_stored
  left := ⟨fun _ _ => rfl, fun _ _ => rfl⟩

theorem clockFrom_mono (now : Int) : Monotone (fun n => (clockFrom now n).now) := by
  intro i j hij
  show now + i ≤ now + j
  omega

/-- Four first attempts, and both shards once from one o'clock to two. -/
theorem both_shards_once :
    (sends [oneOClock, twoOClock]).map Prod.snd = [0, 1, 0, 1]
      ∧ (((sends [oneOClock, twoOClock]).filter
          (fun x => unixEpoch + hour ≤ x.1 ∧ x.1 < unixEpoch + 2 * hour)).map Prod.snd).Nodup := by
  refine ⟨by decide, ?_⟩
  refine each_shard_once "0 * * * *" hourly parse_hourly [oneOClock, twoOClock]
    ?_ ?_ ?_ _ _ next_hour
  · exact List.isChain_pair.mpr ⟨nextRow_stored, by decide⟩
  · intro t ht
    rcases List.mem_pair.mp ht with rfl | rfl <;>
      exact ⟨rfl, by decide, clockFrom_mono _, by decide⟩
  intro t ht
  rcases List.mem_pair.mp ht with rfl | rfl
  · refine ⟨fun _ => by decide, fun _ => ⟨unixEpoch + hour + 17, by decide, ?_⟩⟩
    exact (nextAfter_ok_iff _ _).mp ⟨unixEpoch + 2 * hour, by decide⟩
  · refine ⟨fun _ => by decide, fun _ => ⟨unixEpoch + 2 * hour + 17, by decide, ?_⟩⟩
    exact (nextAfter_ok_iff _ _).mp ⟨unixEpoch + 3 * hour, by decide⟩

end AiScheduler.ShardRuns
