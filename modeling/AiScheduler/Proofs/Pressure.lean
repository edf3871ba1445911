/-
  **WHICH MEASUREMENTS THE BACKPRESSURE STATE REMEMBERS.**

  `UpdatePending` overwrites the state and `UpdateWorkerLoad` only raises it, so
  the state is the worst of the last pending count and ALL the loads measured
  since it (`state_run`).
-/
import AiScheduler.Scheduler.RateLimit
import Mathlib.Order.Lattice
import Mathlib.Tactic.Positivity

namespace AiScheduler.Pressure

open Lib

/-! ## Levels. -/

theorem severity_injective : Function.Injective PressureState.severity := by
  intro a b h
  cases a <;> cases b <;> simp_all [PressureState.severity]

/-- Green is below yellow, and yellow below red. -/
instance : LinearOrder PressureState := LinearOrder.lift' PressureState.severity severity_injective

theorem green_le (s : PressureState) : PressureState.green ≤ s := Nat.zero_le s.severity

theorem le_red (s : PressureState) : s ≤ PressureState.red := by
  cases s <;> decide

def pendingLevel (bp : Backpressure) (count : Int) : PressureState :=
  let ratio : ℚ := (count : ℚ) / (bp.maxPending : ℚ)
  if bp.redRatio ≤ ratio then .red else if bp.yellowRatio ≤ ratio then .yellow else .green

/-- Worker loads as they are measured, with the concurrency of a worker. -/
structure Loads where
  loads : WorkerLoads := Table.empty
  maxConcurrency : Int := 0

/-- The average load of a worker, as a fraction of its concurrency. -/
def Loads.ratio (l : Loads) : ℚ :=
  (l.loads.rows.map (fun w => (w.2 : ℚ))).sum / (l.loads.rows.length : ℚ) / (l.maxConcurrency : ℚ)

/-- The level of worker loads: green without a worker, or a concurrency. -/
def loadLevel (bp : Backpressure) (l : Loads) : PressureState :=
  if l.maxConcurrency ≤ 0 ∨ l.loads.rows.length = 0 then .green
  else if bp.maxWorkerLoad ≤ l.ratio then .red
  else if bp.maxWorkerLoad * (8 / 10) ≤ l.ratio then .yellow
  else .green

/-! ## The two updates. -/

theorem updatePending_eq (bp : Backpressure) (count : Int) :
    bp.updatePending count = { bp with state := pendingLevel bp count } := rfl

theorem updateWorkerLoad_eq (bp : Backpressure) (l : Loads) :
    bp.updateWorkerLoad l.loads l.maxConcurrency
      = { bp with state := max bp.state (loadLevel bp l) } := by
  have hsame : ({ bp with state := max bp.state .green } : Backpressure) = bp := by
    rw [max_eq_left (green_le bp.state)]
  unfold Backpressure.updateWorkerLoad loadLevel
  by_cases hmax : l.maxConcurrency ≤ 0
  · rw [if_pos hmax, if_pos (Or.inl hmax), hsame]
  rw [if_neg hmax]
  dsimp only
  by_cases hnone : l.loads.rows.length = 0
  · rw [if_pos hnone, if_pos (Or.inr hnone), hsame]
  rw [if_neg hnone, if_neg (not_or.mpr ⟨hmax, hnone⟩)]
  show (if bp.maxWorkerLoad ≤ l.ratio then { bp with state := .red }
    else if bp.maxWorkerLoad * (8 / 10) ≤ l.ratio then _ else bp) = _
  by_cases hred : bp.maxWorkerLoad ≤ l.ratio
  · rw [if_pos hred, if_pos hred, max_eq_right (le_red bp.state)]
  rw [if_neg hred, if_neg hred]
  by_cases hyellow : bp.maxWorkerLoad * (8 / 10) ≤ l.ratio
  · rw [if_pos hyellow, if_pos hyellow]
    -- below yellow the state is raised, from yellow on it stays
    by_cases hlt : bp.state.severity < PressureState.yellow.severity
    · rw [if_pos hlt, max_eq_right (show bp.state ≤ .yellow from hlt.le)]
    · rw [if_neg hlt, max_eq_left (show PressureState.yellow ≤ bp.state from not_lt.mp hlt)]
  · rw [if_neg hyellow, if_neg hyellow, hsame]

/-! ## Sequences of measurements. -/

inductive Measurement where
  | pending (count : Int)
  | loads (l : Loads)

def step (bp : Backpressure) : Measurement → Backpressure
  | .pending count => bp.updatePending count
  | .loads l => bp.updateWorkerLoad l.loads l.maxConcurrency

def run (bp : Backpressure) (ms : List Measurement) : Backpressure := ms.foldl step bp

/-- What was measured: the last count, the last loads, and the loads since the last count. -/
structure Latest where
  pending : Int := 0
  loads : Loads := {}
  since : List Loads := []

def Latest.add (s : Latest) : Measurement → Latest
  | .pending count => { s with pending := count, since := [] }
  | .loads l => { s with loads := l, since := l :: s.since }

def latest (ms : List Measurement) : Latest := ms.foldl Latest.add {}

/-- The more severe of the levels of the two latest measurements. -/
def latestLevel (bp : Backpressure) (s : Latest) : PressureState :=
  max (pendingLevel bp s.pending) (loadLevel bp s.loads)

def worst (bp : Backpressure) (base : PressureState) (ls : List Loads) : PressureState :=
  ls.foldr (fun l level => max level (loadLevel bp l)) base

theorem worst_le_iff (bp : Backpressure) (base x : PressureState) (ls : List Loads) :
    worst bp base ls ≤ x ↔ base ≤ x ∧ ∀ l ∈ ls, loadLevel bp l ≤ x := by
  induction ls with
  | nil => simp [worst]
  | cons l ls ih =>
    have hcons : worst bp base (l :: ls) = max (worst bp base ls) (loadLevel bp l) := rfl
    rw [hcons, max_le_iff, ih, List.forall_mem_cons, and_assoc, and_comm (a := loadLevel bp l ≤ x)]

/-- The thresholds are the given ones, the state is the worst since the last count, and the last
loads come first among the loads since. -/
structure Tracks (bp₀ bp : Backpressure) (s : Latest) : Prop where
  thresholds : bp = { bp₀ with state := bp.state }
  state : bp.state = worst bp₀ (pendingLevel bp₀ s.pending) s.since
  head : ∀ l ls, s.since = l :: ls → l = s.loads

theorem Tracks.step {bp₀ bp : Backpressure} {s : Latest} (h : Tracks bp₀ bp s) (m : Measurement) :
    Tracks bp₀ (Pressure.step bp m) (s.add m) := by
  have hload : ∀ l, loadLevel bp l = loadLevel bp₀ l := by
    intro l
    rw [h.thresholds]
    rfl
  cases m with
  | pending count =>
    have hlevel : pendingLevel bp count = pendingLevel bp₀ count := by
      rw [h.thresholds]
      rfl
    show Tracks bp₀ (bp.updatePending count) _
    rw [updatePending_eq, hlevel, h.thresholds]
    exact ⟨rfl, rfl, fun l ls hl => absurd hl (by simp [Latest.add])⟩
  | loads l =>
    show Tracks bp₀ (bp.updateWorkerLoad l.loads l.maxConcurrency) _
    rw [updateWorkerLoad_eq, hload, h.state, h.thresholds]
    refine ⟨rfl, rfl, ?_⟩
    intro l' ls hl
    exact (List.cons.inj hl).1.symm

/-- **The state is the worst of the last count and all the loads since.** -/
theorem Tracks.run {bp₀ : Backpressure} (ms : List Measurement) :
    ∀ {bp : Backpressure} {s : Latest}, Tracks bp₀ bp s →
      Tracks bp₀ (Pressure.run bp ms) (ms.foldl Latest.add s) := by
  induction ms with
  | nil =>
    intro bp s h
    exact h
  | cons m ms ih =>
    intro bp s h
    exact ih (h.step m)

theorem tracks_new (cfg : BackpressureConfig) :
    Tracks (Backpressure.new cfg) (Backpressure.new cfg) {} := by
  have hpos : ∀ (x d : ℚ), 0 < d → ¬ (if x ≤ 0 then d else x) ≤ 0 := by
    intro x d hd
    split
    · exact not_le.mpr hd
    next hx => exact hx
  have hred : ¬ (Backpressure.new cfg).redRatio ≤ 0 := hpos cfg.redRatio (9 / 10) (by norm_num)
  have hyellow : ¬ (Backpressure.new cfg).yellowRatio ≤ 0 :=
    hpos cfg.yellowRatio (7 / 10) (by norm_num)
  refine ⟨rfl, ?_, fun l ls hl => absurd hl (by simp)⟩
  show PressureState.green = pendingLevel (Backpressure.new cfg) 0
  unfold pendingLevel
  rw [Int.cast_zero, zero_div]
  dsimp only
  rw [if_neg hred, if_neg hyellow]

theorem state_run (cfg : BackpressureConfig) (ms : List Measurement) :
    Tracks (Backpressure.new cfg) (run (Backpressure.new cfg) ms) (latest ms) :=
  (tracks_new cfg).run ms

/-! ## The latest measurements. -/

/-- No load since the last count was worse than the latest measurements, and older loads are no
worse than the count. -/
def Settled (bp : Backpressure) (s : Latest) : Prop :=
  (∀ l ∈ s.since, loadLevel bp l ≤ latestLevel bp s)
    ∧ (s.since = [] → loadLevel bp s.loads ≤ pendingLevel bp s.pending)

instance (bp : Backpressure) (s : Latest) : Decidable (Settled bp s) :=
  inferInstanceAs (Decidable (_ ∧ _))

section Level

variable (cfg : BackpressureConfig) (ms : List Measurement)

theorem state_of_settled (h : Settled (Backpressure.new cfg) (latest ms)) :
    (run (Backpressure.new cfg) ms).state = latestLevel (Backpressure.new cfg) (latest ms) := by
  have htracks := state_run cfg ms
  have hle := worst_le_iff (Backpressure.new cfg)
    (pendingLevel (Backpressure.new cfg) (latest ms).pending)
  obtain ⟨hbase, hall⟩ := (hle _ (latest ms).since).mp (le_refl _)
  rw [htracks.state]
  apply le_antisymm
  · exact (hle _ _).mpr ⟨le_max_left _ _, h.1⟩
  refine max_le hbase ?_
  cases hlist : (latest ms).since with
  | nil =>
    rw [← hlist]
    exact (h.2 hlist).trans hbase
  | cons l ls =>
    -- the last loads are among those since the last count
    rw [← htracks.head l ls hlist, ← hlist]
    apply hall
    rw [hlist]
    exact .head _

/-- **THE STATE IS THE LEVEL OF THE LATEST MEASUREMENTS** exactly where no older
one was worse. -/
theorem pressure_latest_iff :
    (run (Backpressure.new cfg) ms).state = latestLevel (Backpressure.new cfg) (latest ms)
      ↔ Settled (Backpressure.new cfg) (latest ms) := by
  constructor
  · intro heq
    rw [(state_run cfg ms).state] at heq
    refine ⟨((worst_le_iff _ _ _ _).mp heq.le).2, ?_⟩
    intro hnone
    rw [hnone] at heq
    exact max_eq_left_iff.mp heq.symm
  · exact state_of_settled cfg ms

end Level

def oneWorker (load : Int) : Loads where
  loads := ⟨[("w1", load)], List.nodup_singleton _⟩
  maxConcurrency := 10

/-- The queue fills up while the workers are half busy. -/
theorem queue_filled :
    (run (Backpressure.new {}) [.loads (oneWorker 5), .pending 950]).state
      = latestLevel (Backpressure.new {}) (latest [.loads (oneWorker 5), .pending 950]) :=
  (pressure_latest_iff {} [.loads (oneWorker 5), .pending 950]).mpr (by decide +kernel)

/-- **A full worker becomes idle**: the state stays red, and is green after one more count. -/
theorem idle_but_red :
    latestLevel (Backpressure.new {})
        (latest [.pending 0, .loads (oneWorker 10), .loads (oneWorker 0)]) = .green
      ∧ (run (Backpressure.new {})
          [.pending 0, .loads (oneWorker 10), .loads (oneWorker 0)]).state = .red
      ∧ (run (Backpressure.new {})
          [.loads (oneWorker 10), .pending 0, .loads (oneWorker 0)]).state = .green := by
  decide +kernel

end AiScheduler.Pressure
