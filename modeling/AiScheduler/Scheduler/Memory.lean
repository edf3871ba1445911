/-
  **THE SCHEDULER'S IN-MEMORY STATE**: the backpressure controller
  (`internal/scheduler/ratelimit`), the timing wheel and the min-heap
  (`internal/scheduler/engine`).

  None of it is in the database: a restart loses it, and the trigger loop does
  not look at the wheel or the heap.
-/
import AiScheduler.Model.Types
import Mathlib.Data.Rat.Defs
import Mathlib.Data.List.Basic

namespace AiScheduler

/-! ## Backpressure. -/

inductive PressureState where
  | green
  | yellow
  | red
  deriving DecidableEq, Repr

/-- `BackpressureController`: thresholds as exact fractions, and the level. -/
structure Backpressure where
  maxPending : Int := 1000
  yellowRatio : ℚ := 7 / 10
  redRatio : ℚ := 9 / 10
  maxWorkerLoad : ℚ := 85 / 100
  state : PressureState := .green

def Backpressure.updatePending (bp : Backpressure) (count : Int) : Backpressure :=
  let ratio : ℚ := (count : ℚ) / (bp.maxPending : ℚ)
  { bp with
    state :=
      if bp.redRatio ≤ ratio then .red
      else if bp.yellowRatio ≤ ratio then .yellow
      else .green }

def Backpressure.allowDispatch (bp : Backpressure) : Bool := bp.state ≠ .red

/-! ## The timing wheel. -/

/-- `TimingWheel`: per slot the set of task ids in it. -/
structure TimingWheel where
  slots : List (List Int)
  tickDuration : Int
  currentPos : Nat
  deriving DecidableEq, Repr

/-- `NewTimingWheel`. -/
def TimingWheel.new (tickDuration : Int) (wheelSize : Int) : TimingWheel :=
  let tick := if tickDuration ≤ 0 then second / 10 else tickDuration
  let size := if wheelSize ≤ 0 then 600 else wheelSize.toNat
  { slots := List.replicate size [], tickDuration := tick, currentPos := 0 }

/-- `SlotSpan`, a 64-bit duration. -/
def TimingWheel.slotSpan (tw : TimingWheel) : Int := wrap64 (tw.tickDuration * tw.slots.length)

/-- The slot index `Add` computes; Go's `/` and `%` truncate toward zero. -/
def TimingWheel.position (tw : TimingWheel) (triggerTime : Int) : Int :=
  ((unixNano triggerTime).tdiv tw.tickDuration).tmod tw.slots.length

/-- `Add`; `none` is the run-time panic of an index outside the slots. -/
def TimingWheel.add (tw : TimingWheel) (taskID : Int) (triggerTime : Int) : Option TimingWheel :=
  let pos := tw.position triggerTime
  if 0 ≤ pos ∧ pos < tw.slots.length then
    some { tw with
      slots := tw.slots.modify pos.toNat
        (fun ids => if taskID ∈ ids then ids else ids ++ [taskID]) }
  else none

/-- `Remove`: the id goes from all slots. -/
def TimingWheel.remove (tw : TimingWheel) (taskID : Int) : TimingWheel :=
  { tw with slots := tw.slots.map (fun ids => ids.filter (fun id => id ≠ taskID)) }

/-- `Tick`: the ids of the next slot (in SOME order), and the wheel without them. -/
def TimingWheel.tick (tw : TimingWheel) : List Int × TimingWheel :=
  let pos := (tw.currentPos + 1) % tw.slots.length
  (tw.slots.getD pos [], { tw with currentPos := pos, slots := tw.slots.set pos [] })

/-! ## The min-heap. -/

structure HeapItem where
  taskID : Int
  triggerTime : Int
  deriving DecidableEq, Repr

/-- `container/heap`'s sift-up from index `j`. -/
def siftUp : Nat → List HeapItem → Nat → List HeapItem
  | 0, h, _ => h
  | fuel + 1, h, j =>
    let i := (j - 1) / 2
    match h[i]?, h[j]? with
    | some a, some b =>
      if i = j ∨ ¬ b.triggerTime < a.triggerTime then h
      else siftUp fuel ((h.set i b).set j a) i
    | _, _ => h

/-- `heap.Push`. -/
def heapPush (h : List HeapItem) (x : HeapItem) : List HeapItem :=
  siftUp (h.length + 1) (h ++ [x]) h.length

/-- `Peek`; `none` on an empty heap. -/
def peek (h : List HeapItem) : Option HeapItem := h.head?

/-- `PopUntil`: the items at or before the cutoff, and the others. -/
def popUntil (h : List HeapItem) (cutoff : Int) : List HeapItem × List HeapItem :=
  (h.filter (fun item => ¬ item.triggerTime > cutoff),
    h.filter (fun item => item.triggerTime > cutoff))

end AiScheduler
