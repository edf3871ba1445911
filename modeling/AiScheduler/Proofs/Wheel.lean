/-
  **THE TIMING WHEEL OVER ITS RUNS**: any sequence of `Add`, `Remove` and `Tick`.

  A task id that is in one slot only comes out at the tick that visits this slot (`run_pending`),
  and not again. Go's remainder follows the sign: a NEGATIVE time is outside the slots.
-/
import AiScheduler.Scheduler.Memory
import Mathlib.Data.List.GetD
import Mathlib.Data.List.Induction
import Mathlib.Data.List.Nodup
import Mathlib.Data.Int.ModEq

namespace AiScheduler

open List

/-! ## Wheels and their slots. -/

namespace TimingWheel

def slot (tw : TimingWheel) (i : Nat) : List Int := tw.slots.getD i []

def Pending (tw : TimingWheel) (id : Int) : Prop := ∃ i, id ∈ tw.slot i

/-- A wheel as `NewTimingWheel` makes it and every operation keeps it. -/
structure WellFormed (tw : TimingWheel) : Prop where
  tick_pos : 0 < tw.tickDuration
  size_pos : 0 < tw.slots.length
  slot_nodup : ∀ i, (tw.slot i).Nodup

def nextPos (tw : TimingWheel) : Nat := (tw.currentPos + 1) % tw.slots.length

theorem slot_new (tickDuration wheelSize : Int) (i : Nat) :
    (new tickDuration wheelSize).slot i = [] := by
  simp only [new, slot, getD_eq_getElem?_getD, getElem?_replicate]
  grind

theorem not_pending_new (tickDuration wheelSize id : Int) :
    ¬ (new tickDuration wheelSize).Pending id := by
  rintro ⟨i, hi⟩
  rw [slot_new] at hi
  cases hi

theorem wellFormed_new (tickDuration wheelSize : Int) :
    (new tickDuration wheelSize).WellFormed := by
  refine ⟨?_, ?_, fun i => by rw [slot_new]; exact nodup_nil⟩ <;> grind [new, second]

/-! ## The index `Add` computes. -/

/-- The times whose tick number is not negative, or a multiple of the wheel size. -/
def Indexable (tw : TimingWheel) (triggerTime : Int) : Prop :=
  0 ≤ unixNano triggerTime ∨ (tw.slots.length : Int) ∣ (unixNano triggerTime).tdiv tw.tickDuration

instance (tw : TimingWheel) (triggerTime : Int) : Decidable (tw.Indexable triggerTime) :=
  inferInstanceAs (Decidable (_ ∨ _))

/-- **The index is negative exactly for the times that are not `Indexable`.** -/
theorem position_nonneg_iff {tw : TimingWheel} (hd : 0 < tw.tickDuration) (triggerTime : Int) :
    0 ≤ tw.position triggerTime ↔ tw.Indexable triggerTime := by
  unfold position Indexable
  constructor
  · intro hpos
    rcases Int.lt_or_le (unixNano triggerTime) 0 with hneg | hnonneg
    · -- a remainder of a negative tick number is not positive, so it is zero here
      refine .inr (Int.dvd_of_tmod_eq_zero ?_)
      have hticks := Int.tdiv_nonneg (a := -unixNano triggerTime) (by omega) (Int.le_of_lt hd)
      have hrem := Int.tmod_nonneg (tw.slots.length : Int) hticks
      rw [Int.neg_tdiv, Int.neg_tmod] at hrem
      omega
    · exact .inl hnonneg
  · rintro (hnonneg | hdvd)
    · exact Int.tmod_nonneg _ (Int.tdiv_nonneg hnonneg (Int.le_of_lt hd))
    · rw [Int.tmod_eq_zero_of_dvd hdvd]

theorem position_lt {tw : TimingWheel} (hn : 0 < tw.slots.length) (triggerTime : Int) :
    tw.position triggerTime < tw.slots.length :=
  Int.tmod_lt_of_pos _ (by omega)

theorem position_modEq (tw : TimingWheel) (triggerTime : Int) :
    tw.position triggerTime
      ≡ (unixNano triggerTime).tdiv tw.tickDuration [ZMOD (tw.slots.length : Int)] := by
  unfold position
  rw [Int.modEq_iff_dvd]
  refine ⟨((unixNano triggerTime).tdiv tw.tickDuration).tdiv tw.slots.length, ?_⟩
  have h := Int.mul_tdiv_add_tmod ((unixNano triggerTime).tdiv tw.tickDuration) tw.slots.length
  omega

/-- **`Add` panics exactly on the times that are not `Indexable`.** -/
theorem isSome_add_iff {tw : TimingWheel} (hd : 0 < tw.tickDuration) (hn : 0 < tw.slots.length)
    (taskID triggerTime : Int) :
    (tw.add taskID triggerTime).isSome ↔ tw.Indexable triggerTime := by
  have hlt := position_lt hn triggerTime
  rw [← position_nonneg_iff hd]
  grind [add]

/-! ## What one operation does to the slots. -/

variable {tw tw' : TimingWheel} {id x : Int} {triggerTime : Int}

theorem add_eq_some (h : tw.add id triggerTime = some tw') :
    (∃ p : Nat, (p : Int) = tw.position triggerTime ∧ p < tw.slots.length
        ∧ tw'.slots = tw.slots.modify p (fun ids => if id ∈ ids then ids else ids ++ [id]))
      ∧ tw'.tickDuration = tw.tickDuration ∧ tw'.currentPos = tw.currentPos := by
  unfold add at h
  dsimp only at h
  split at h
  next hin =>
    cases h
    exact ⟨⟨(tw.position triggerTime).toNat, Int.toNat_of_nonneg hin.1, by omega, rfl⟩, rfl, rfl⟩
  next => cases h

theorem length_add (h : tw.add id triggerTime = some tw') : tw'.slots.length = tw.slots.length := by
  obtain ⟨⟨p, _, _, hs⟩, _⟩ := add_eq_some h
  rw [hs, length_modify]

theorem slot_add (h : tw.add id triggerTime = some tw') (i : Nat) :
    tw'.slot i = if (i : Int) = tw.position triggerTime ∧ id ∉ tw.slot i then tw.slot i ++ [id]
        else tw.slot i := by
  obtain ⟨⟨p, hp, hlt, hs⟩, _⟩ := add_eq_some h
  unfold slot
  rw [hs, getD_eq_getElem?_getD, getD_eq_getElem?_getD, getElem?_modify]
  by_cases hip : p = i
  · subst hip
    rw [getElem?_eq_getElem hlt]
    by_cases hmem : id ∈ tw.slots[p]
    · simp [hmem]
    · simp [hmem, hp]
  · have hne : ¬ (i : Int) = tw.position triggerTime := by omega
    cases tw.slots[i]? <;> simp [hip, hne]

theorem mem_slot_add (h : tw.add id triggerTime = some tw') (i : Nat) :
    x ∈ tw'.slot i ↔ x ∈ tw.slot i ∨ (x = id ∧ (i : Int) = tw.position triggerTime) := by
  rw [slot_add h]
  grind

section

variable (tw : TimingWheel)

theorem slot_remove (id : Int) (i : Nat) :
    (tw.remove id).slot i = (tw.slot i).filter (fun x => x ≠ id) := by
  unfold remove slot
  dsimp only
  rw [getD_eq_getElem?_getD, getD_eq_getElem?_getD, getElem?_map]
  cases tw.slots[i]? with
  | none | some ids => rfl

theorem mem_slot_remove (id x : Int) (i : Nat) :
    x ∈ (tw.remove id).slot i ↔ x ∈ tw.slot i ∧ x ≠ id := by
  rw [slot_remove]
  simp

theorem length_remove (id : Int) :
    (tw.remove id).slots.length = tw.slots.length :=
  length_map _

theorem tick_fst : tw.tick.1 = tw.slot tw.nextPos := rfl

theorem length_tick : tw.tick.2.slots.length = tw.slots.length :=
  length_set

theorem slot_tick (i : Nat) :
    tw.tick.2.slot i = if i = tw.nextPos then [] else tw.slot i := by
  unfold tick slot nextPos
  grind

end

/-! ## Runs. -/

end TimingWheel

/-- The operations of the wheel. -/
inductive WheelOp where
  | add (taskID triggerTime : Int)
  | remove (taskID : Int)
  | tick
  deriving DecidableEq

def WheelOp.touches (id : Int) : WheelOp → Prop
  | add taskID _ => taskID = id
  | remove taskID => taskID = id
  | tick => False

def WheelOp.adds (id : Int) : WheelOp → Prop
  | add taskID _ => taskID = id
  | remove _ => False
  | tick => False

def ticks : List WheelOp → Nat
  | [] => 0
  | .tick :: ops => ticks ops + 1
  | .add _ _ :: ops => ticks ops
  | .remove _ :: ops => ticks ops

theorem ticks_append (ops ops' : List WheelOp) : ticks (ops ++ ops') = ticks ops + ticks ops' := by
  induction ops with
  | nil => simp [ticks]
  | cons op ops ih => cases op <;> grind [ticks]

theorem ticks_replicate (n : Nat) : ticks (replicate n .tick) = n := by
  induction n with
  | zero => rfl
  | succ n ih => exact congrArg (· + 1) ih

/-- What the ticks of a sequence return, and the wheel after it; `none` on a panic. -/
def wheelRun : TimingWheel → List WheelOp → Option (List (List Int) × TimingWheel)
  | tw, [] => some ([], tw)
  | tw, .add id t :: ops =>
    match tw.add id t with
    | none => none
    | some tw' => wheelRun tw' ops
  | tw, .remove id :: ops => wheelRun (tw.remove id) ops
  | tw, .tick :: ops =>
    match wheelRun tw.tick.2 ops with
    | none => none
    | some (outs, tw') => some (tw.tick.1 :: outs, tw')

theorem wheelRun_tick {tw tw' : TimingWheel} {ops : List WheelOp} {outs : List (List Int)}
    (h : wheelRun tw (.tick :: ops) = some (outs, tw')) :
    ∃ outs', outs = tw.tick.1 :: outs' ∧ wheelRun tw.tick.2 ops = some (outs', tw') := by
  grind [wheelRun]

theorem wheelRun_add {tw tw' : TimingWheel} {ops : List WheelOp} {outs : List (List Int)}
    {id triggerTime : Int} (h : wheelRun tw (.add id triggerTime :: ops) = some (outs, tw')) :
    ∃ tw₁, tw.add id triggerTime = some tw₁ ∧ wheelRun tw₁ ops = some (outs, tw') := by
  grind [wheelRun]

theorem wheelRun_append {tw tw' : TimingWheel} {ops ops' : List WheelOp} {outs : List (List Int)}
    (h : wheelRun tw (ops ++ ops') = some (outs, tw')) :
    ∃ outs₁ outs₂ tw₁, wheelRun tw ops = some (outs₁, tw₁)
      ∧ wheelRun tw₁ ops' = some (outs₂, tw') ∧ outs = outs₁ ++ outs₂ := by
  induction ops generalizing tw outs with
  | nil => exact ⟨[], outs, tw, rfl, h, rfl⟩
  | cons op ops ih =>
  cases op with
  | add id t =>
    obtain ⟨tw₂, hadd, hrun⟩ := wheelRun_add h
    obtain ⟨outs₁, outs₂, tw₁, h₁, h₂, houts⟩ := ih hrun
    exact ⟨outs₁, outs₂, tw₁, by rw [wheelRun, hadd]; exact h₁, h₂, houts⟩
  | remove id => exact ih h
  | tick =>
    obtain ⟨outs', rfl, hrun⟩ := wheelRun_tick h
    obtain ⟨outs₁, outs₂, tw₁, h₁, h₂, rfl⟩ := ih hrun
    exact ⟨tw.tick.1 :: outs₁, outs₂, tw₁, by rw [wheelRun, h₁], h₂, rfl⟩

theorem length_outs {tw tw' : TimingWheel} {ops : List WheelOp} {outs : List (List Int)}
    (h : wheelRun tw ops = some (outs, tw')) : outs.length = ticks ops := by
  induction ops generalizing tw outs with
  | nil =>
    cases h
    rfl
  | cons op ops ih =>
  cases op with
  | add id t =>
    obtain ⟨tw₁, _, hrun⟩ := wheelRun_add h
    exact ih hrun
  | remove id => exact ih h
  | tick =>
    obtain ⟨outs', rfl, hrun⟩ := wheelRun_tick h
    exact congrArg (· + 1) (ih hrun)

/-- **The run rule**: what every operation of the wheel keeps holds after a run. -/
theorem wheelRun_invariant {I : TimingWheel → Prop}
    (hadd : ∀ tw tw' id t, tw.add id t = some tw' → I tw → I tw')
    (hremove : ∀ tw id, I tw → I (tw.remove id)) (htick : ∀ tw, I tw → I tw.tick.2)
    {tw tw' : TimingWheel} {ops : List WheelOp} {outs : List (List Int)}
    (h : wheelRun tw ops = some (outs, tw')) (hinv : I tw) : I tw' := by
  induction ops generalizing tw outs with
  | nil =>
    cases h
    exact hinv
  | cons op ops ih =>
  cases op with
  | add id t =>
    obtain ⟨tw₁, hadd₁, hrun⟩ := wheelRun_add h
    exact ih hrun (hadd tw tw₁ id t hadd₁ hinv)
  | remove id => exact ih h (hremove tw id hinv)
  | tick =>
    obtain ⟨outs', _, hrun⟩ := wheelRun_tick h
    exact ih hrun (htick tw hinv)

namespace TimingWheel

variable {tw tw' : TimingWheel} {ops : List WheelOp} {outs : List (List Int)} {id : Int}

theorem WellFormed.add {triggerTime : Int} (h : tw.WellFormed)
    (hadd : tw.add id triggerTime = some tw') : tw'.WellFormed := by
  refine ⟨(add_eq_some hadd).2.1 ▸ h.tick_pos, length_add hadd ▸ h.size_pos, ?_⟩
  intro i
  -- the id is appended only where it is not yet
  have hold := h.slot_nodup i
  rw [slot_add hadd]
  grind

theorem WellFormed.remove (h : tw.WellFormed) (id : Int) : (tw.remove id).WellFormed := by
  refine ⟨h.tick_pos, length_remove tw id ▸ h.size_pos, ?_⟩
  intro i
  rw [slot_remove]
  exact (h.slot_nodup i).filter _

theorem WellFormed.tick (h : tw.WellFormed) : tw.tick.2.WellFormed := by
  refine ⟨h.tick_pos, length_tick tw ▸ h.size_pos, ?_⟩
  intro i
  have hold := h.slot_nodup i
  rw [slot_tick]
  grind

theorem WellFormed.run (h : tw.WellFormed) (hrun : wheelRun tw ops = some (outs, tw')) :
    tw'.WellFormed :=
  wheelRun_invariant (fun _ _ _ _ hadd hw => hw.add hadd) (fun _ id hw => hw.remove id)
    (fun _ hw => hw.tick) hrun h

theorem sizes_run (hrun : wheelRun tw ops = some (outs, tw')) :
    tw'.slots.length = tw.slots.length ∧ tw'.tickDuration = tw.tickDuration := by
  refine wheelRun_invariant (I := fun w => w.slots.length = tw.slots.length
    ∧ w.tickDuration = tw.tickDuration) ?_ ?_ ?_ hrun ⟨rfl, rfl⟩
  · intro w w' id t hadd hw
    exact ⟨(length_add hadd).trans hw.1, (add_eq_some hadd).2.1.trans hw.2⟩
  · intro w id hw
    exact ⟨(length_remove w id).trans hw.1, hw.2⟩
  · intro w hw
    exact ⟨(length_tick w).trans hw.1, hw.2⟩

theorem position_run (hrun : wheelRun tw ops = some (outs, tw')) (triggerTime : Int) :
    tw'.position triggerTime = tw.position triggerTime := by
  unfold position
  rw [(sizes_run hrun).1, (sizes_run hrun).2]

theorem currentPos_run (hrun : wheelRun tw ops = some (outs, tw'))
    (hpos : tw.currentPos < tw.slots.length) :
    tw'.currentPos = (tw.currentPos + ticks ops) % tw.slots.length := by
  induction ops generalizing tw outs with
  | nil =>
    cases hrun
    exact (Nat.mod_eq_of_lt hpos).symm
  | cons op ops ih =>
  cases op with
  | add id t =>
    obtain ⟨tw₁, hadd, hrest⟩ := wheelRun_add hrun
    have hlen := length_add hadd
    have hcur := (add_eq_some hadd).2.2
    rw [ih hrest (by omega), hlen, hcur]
    rfl
  | remove id =>
    have hlen := length_remove tw id
    rw [ih hrun (by rw [hlen]; exact hpos), hlen]
    rfl
  | tick =>
  obtain ⟨outs', _, hrest⟩ := wheelRun_tick hrun
  have hlt : tw.nextPos < tw.slots.length := Nat.mod_lt _ (by omega)
  rw [ih hrest (by rw [length_tick]; exact hlt), length_tick]
  -- one slot further, and the remaining ticks from there
  show ((tw.currentPos + 1) % tw.slots.length + ticks ops) % tw.slots.length
    = (tw.currentPos + (ticks ops + 1)) % tw.slots.length
  rw [Nat.mod_add_mod]
  congr 1
  omega

theorem indexable_iff_of_sizes (hlen : tw'.slots.length = tw.slots.length)
    (htick : tw'.tickDuration = tw.tickDuration) (triggerTime : Int) :
    tw'.Indexable triggerTime ↔ tw.Indexable triggerTime := by
  unfold Indexable
  rw [hlen, htick]

theorem run_isSome (h : tw.WellFormed)
    (hops : ∀ id triggerTime, .add id triggerTime ∈ ops → tw.Indexable triggerTime) :
    ∃ outs tw', wheelRun tw ops = some (outs, tw') := by
  induction ops generalizing tw with
  | nil => exact ⟨[], tw, rfl⟩
  | cons op ops ih =>
  cases op with
  | add id t =>
    -- size and tick stay the same, so the later times are still indexable
    have hsome := (isSome_add_iff h.tick_pos h.size_pos id t).mpr (hops id t (.head _))
    obtain ⟨tw₁, hadd⟩ := Option.isSome_iff_exists.mp hsome
    obtain ⟨outs, tw', hrun⟩ := ih (h.add hadd) (by
      intro id' t' hmem
      rw [indexable_iff_of_sizes (length_add hadd) (add_eq_some hadd).2.1]
      exact hops id' t' (.tail _ hmem))
    exact ⟨outs, tw', by rw [wheelRun, hadd]; exact hrun⟩
  | remove id =>
    obtain ⟨outs, tw', hrun⟩ := ih (h.remove id) (by
      intro id' t' hmem
      rw [indexable_iff_of_sizes (length_remove tw id) rfl]
      exact hops id' t' (.tail _ hmem))
    exact ⟨outs, tw', hrun⟩
  | tick =>
    obtain ⟨outs, tw', hrun⟩ := ih h.tick (by
      intro id' t' hmem
      rw [indexable_iff_of_sizes (length_tick tw) rfl]
      exact hops id' t' (.tail _ hmem))
    exact ⟨tw.tick.1 :: outs, tw', by rw [wheelRun, hrun]⟩

/-! ## When an id comes out. -/

/-- **An id in no slot is returned by no tick until it is added.** -/
theorem run_absent (hrun : wheelRun tw ops = some (outs, tw')) (habsent : ¬ tw.Pending id)
    (hops : ∀ op ∈ ops, ¬ op.adds id) : (∀ k, id ∉ outs.getD k []) ∧ ¬ tw'.Pending id := by
  induction ops generalizing tw outs with
  | nil =>
    cases hrun
    exact ⟨fun k => by simp, habsent⟩
  | cons op ops ih =>
  have hrest : ∀ op ∈ ops, ¬ op.adds id := fun op hop => hops op (.tail _ hop)
  cases op with
  | add id' t =>
    obtain ⟨tw₁, hadd, hrun₁⟩ := wheelRun_add hrun
    have hne : id' ≠ id := hops _ mem_cons_self
    refine ih hrun₁ ?_ hrest
    grind [Pending, mem_slot_add hadd]
  | remove id' =>
    refine ih hrun ?_ hrest
    grind [Pending, mem_slot_remove]
  | tick =>
    obtain ⟨outs', rfl, hrun₁⟩ := wheelRun_tick hrun
    -- a tick only empties a slot
    obtain ⟨houts, hend⟩ := ih hrun₁ (by grind [Pending, slot_tick]) hrest
    refine ⟨?_, hend⟩
    intro k
    cases k with
    | zero => exact fun hmem => habsent ⟨tw.nextPos, hmem⟩
    | succ k => exact houts k

/-- The id is in slot `p` only, and the `m`-th tick from now visits that slot. -/
structure DueIn (tw : TimingWheel) (id : Int) (p m : Nat) : Prop where
  only : ∀ i, id ∈ tw.slot i ↔ i = p
  pos : 0 < m
  turn : m ≤ tw.slots.length
  visits : (tw.currentPos + m) % tw.slots.length = p

/-- A tick before the `m`-th leaves the id where it is, one tick nearer. -/
theorem DueIn.tick {p m : Nat} (h : tw.DueIn id p (m + 1)) (hm : 0 < m) :
    tw.nextPos ≠ p ∧ tw.tick.2.DueIn id p m := by
  have hturn := h.turn
  have hne : tw.nextPos ≠ p := by
    intro heq
    -- two ticks less than a turn apart visit different slots
    have hmod : tw.currentPos + 1 ≡ tw.currentPos + 1 + m [MOD tw.slots.length] := by
      show (tw.currentPos + 1) % _ = (tw.currentPos + 1 + m) % _
      rw [show tw.currentPos + 1 + m = tw.currentPos + (m + 1) by omega, h.visits]
      exact heq
    have hdvd : tw.slots.length ∣ m := by
      have := (Nat.modEq_iff_dvd' (by omega)).mp hmod
      rwa [Nat.add_sub_cancel_left] at this
    exact absurd (Nat.le_of_dvd hm hdvd) (by omega)
  refine ⟨hne, ?_, hm, by rw [length_tick]; omega, ?_⟩
  · intro i
    have hold := h.only i
    grind [slot_tick]
  rw [length_tick]
  show ((tw.currentPos + 1) % tw.slots.length + m) % tw.slots.length = p
  rw [Nat.mod_add_mod, ← h.visits]
  congr 1
  omega

/-- **The id comes out at the tick that visits its slot, and at no other.** -/
theorem run_pending {p m : Nat} (hrun : wheelRun tw ops = some (outs, tw')) (hdue : tw.DueIn id p m)
    (hops : ∀ op ∈ ops, ¬ op.touches id) (k : Nat) :
    id ∈ outs.getD k [] ↔ k + 1 = m ∧ k < outs.length := by
  -- `DueIn` is the invariant: operations on other ids keep it, and a tick brings
  -- the id one tick nearer
  induction ops generalizing tw outs m k with
  | nil =>
    cases hrun
    simp
  | cons op ops ih =>
  have hrest : ∀ op ∈ ops, ¬ op.touches id := fun op hop => hops op (.tail _ hop)
  have htouch := hops op mem_cons_self
  obtain ⟨honly, hpos, hturn, hvisits⟩ := hdue
  cases op with
  | add id' t =>
    obtain ⟨tw₁, hadd, hrun₁⟩ := wheelRun_add hrun
    have hne : id' ≠ id := htouch
    have hlen := length_add hadd
    have hcur := (add_eq_some hadd).2.2
    refine ih hrun₁ ⟨?_, hpos, by omega, by rw [hlen, hcur, hvisits]⟩ hrest k
    grind [mem_slot_add hadd]
  | remove id' =>
    have hne : id' ≠ id := htouch
    refine ih hrun ⟨?_, hpos, ?_, ?_⟩ hrest k
    · grind [mem_slot_remove]
    · rwa [length_remove]
    · rwa [length_remove]
  | tick =>
    obtain ⟨outs', rfl, hrun₁⟩ := wheelRun_tick hrun
    obtain ⟨m, rfl⟩ : ∃ m', m = m' + 1 := ⟨m - 1, by omega⟩
    rcases Nat.eq_zero_or_pos m with rfl | hm
    · -- this tick visits the slot and empties it
      have hmem : id ∈ tw.tick.1 := (honly _).mpr hvisits
      have hafter : ¬ tw.tick.2.Pending id := by
        have hnext : tw.nextPos = p := hvisits
        grind [Pending, slot_tick]
      have hadds : ∀ op ∈ ops, ¬ op.adds id := by
        intro op hop
        have hold := hrest op hop
        cases op <;> grind [WheelOp.adds, WheelOp.touches]
      cases k with
      | zero => simpa using hmem
      | succ k =>
        have hno := (run_absent hrun₁ hafter hadds).1 k
        exact ⟨fun hin => absurd hin hno, by omega⟩
    · obtain ⟨hne, hdue'⟩ := DueIn.tick ⟨honly, hpos, hturn, hvisits⟩ hm
      -- this tick visits another slot
      cases k with
      | zero =>
        have hno : id ∉ tw.tick.1 := fun hmem => hne ((honly _).mp hmem)
        exact ⟨fun hin => absurd hin hno, by omega⟩
      | succ k =>
        rw [getD_cons_succ, ih hrun₁ hdue' hrest k, length_cons]
        omega

theorem exists_visit {n : Nat} (hn : 0 < n) (c : Nat) {p : Nat} (hp : p < n) :
    ∃ m, 0 < m ∧ m ≤ n ∧ (c + m) % n = p := by
  have hc := Nat.mod_lt c hn
  -- the slot is ahead of the cursor, or lies a turn less the distance behind it
  by_cases hlt : c % n < p
  · refine ⟨p - c % n, by omega, by omega, ?_⟩
    rw [← Nat.mod_add_mod, show c % n + (p - c % n) = p by omega]
    exact Nat.mod_eq_of_lt hp
  · refine ⟨n - (c % n - p), by omega, by omega, ?_⟩
    rw [← Nat.mod_add_mod, show c % n + (n - (c % n - p)) = p + n by omega, Nat.add_mod_right]
    exact Nat.mod_eq_of_lt hp

theorem dueIn_of_add {triggerTime : Int} (h : tw.WellFormed) (habsent : ¬ tw.Pending id)
    (hadd : tw.add id triggerTime = some tw') :
    ∃ p m : Nat, (p : Int) = tw.position triggerTime ∧ tw'.DueIn id p m := by
  obtain ⟨⟨p, hp, hlt, _⟩, _, hcur⟩ := add_eq_some hadd
  obtain ⟨m, hm, hmn, hvisit⟩ := exists_visit h.size_pos tw.currentPos hlt
  have hlen := length_add hadd
  refine ⟨p, m, hp, ?_, hm, by omega, by rw [hlen, hcur, hvisit]⟩
  intro i
  have hnot : id ∉ tw.slot i := fun hi => habsent ⟨i, hi⟩
  grind [mem_slot_add hadd]

/-! ## Sequences of operations on a new wheel. -/

theorem getD_append_ticks {outs₁ outs₂ : List (List Int)} {k j : Nat} (hlen : outs₁.length = j) :
    (outs₁ ++ outs₂).getD (j + k) [] = outs₂.getD k [] := by
  rw [getD_append_right _ _ _ _ (by omega), hlen, Nat.add_sub_cancel_left]

section

variable {tickDuration wheelSize : Int} {ops : List WheelOp} {outs : List (List Int)}
  {tw : TimingWheel}

theorem nextPos_run (hrun : wheelRun (new tickDuration wheelSize) ops = some (outs, tw)) :
    tw.nextPos = (ticks ops + 1) % (new tickDuration wheelSize).slots.length := by
  unfold nextPos
  rw [(sizes_run hrun).1, currentPos_run hrun (wellFormed_new tickDuration wheelSize).size_pos,
    Nat.mod_add_mod]
  congr 1
  show 0 + ticks ops + 1 = ticks ops + 1
  omega

/-- **Where the ids of a slot come from**: an `Add` of that slot after its last visit. -/
theorem slot_origin (hrun : wheelRun (new tickDuration wheelSize) ops = some (outs, tw))
    {i : Nat} {x : Int} (hx : x ∈ tw.slot i) :
    ∃ pre triggerTime post, ops = pre ++ .add x triggerTime :: post
      ∧ (new tickDuration wheelSize).position triggerTime = i
      ∧ ∀ k, ticks pre < k → k ≤ ticks ops → k % (new tickDuration wheelSize).slots.length ≠ i := by
  -- by the last operation: only an `Add` of the id puts it there, and only a tick
  -- of this slot takes it out
  induction ops using reverseRecOn generalizing outs tw with
  | nil =>
    cases hrun
    rw [slot_new] at hx
    cases hx
  | append_singleton ops op ih =>
  obtain ⟨outs₁, outs₂, tw₁, h₁, h₂, _⟩ := wheelRun_append hrun
  -- an id that was in the slot before the operation keeps its origin
  have hkeep : x ∈ tw₁.slot i → (op = .tick → (ticks ops + 1)
      % (new tickDuration wheelSize).slots.length ≠ i) → ∃ pre triggerTime post,
      ops ++ [op] = pre ++ .add x triggerTime :: post
        ∧ (new tickDuration wheelSize).position triggerTime = i
        ∧ ∀ k, ticks pre < k → k ≤ ticks (ops ++ [op]) →
            k % (new tickDuration wheelSize).slots.length ≠ i := by
    intro hold hvisit
    obtain ⟨pre, t, post, rfl, hpos, hsince⟩ := ih h₁ hold
    refine ⟨pre, t, post ++ [op], by simp, hpos, ?_⟩
    intro k hk hle
    rw [ticks_append] at hle
    by_cases hk' : k ≤ ticks (pre ++ .add x t :: post)
    · exact hsince k hk hk'
    cases op with
    | add id' t' | remove id' => exact absurd hle (by simp [ticks]; omega)
    | tick =>
      have hlast : k = ticks (pre ++ .add x t :: post) + 1 := by
        simp only [ticks] at hle
        omega
      rw [hlast]
      exact hvisit rfl
  cases op with
  | add id' t' =>
    obtain ⟨tw₂, hadd, hrest⟩ := wheelRun_add h₂
    cases hrest
    rcases (mem_slot_add hadd i).mp hx with hold | ⟨rfl, hpos⟩
    · exact hkeep hold (by intro h; cases h)
    refine ⟨ops, t', [], rfl, ?_, ?_⟩
    · rw [← position_run h₁, hpos]
    intro k hk hle
    rw [ticks_append] at hle
    simp only [ticks] at hle
    omega
  | remove id' =>
    cases h₂
    exact hkeep ((mem_slot_remove tw₁ id' x i).mp hx).1 (by intro h; cases h)
  | tick =>
    obtain ⟨outs', _, hrest⟩ := wheelRun_tick h₂
    cases hrest
    -- the visited slot is empty now, every other one keeps its ids
    rw [slot_tick] at hx
    split at hx
    · cases hx
    next hne =>
      refine hkeep hx (fun _ hvisit => hne ?_)
      rw [nextPos_run h₁, hvisit]

end

/-- An id that comes new onto the wheel is returned by exactly one of the next `n` ticks and by none
later. -/
def ReturnedOnce (tw : TimingWheel) (ops : List WheelOp) (outs : List (List Int)) : Prop :=
  ∀ pre id triggerTime post outs₁ tw₁, ops = pre ++ .add id triggerTime :: post →
    wheelRun tw pre = some (outs₁, tw₁) → ¬ tw₁.Pending id → (∀ op ∈ post, ¬ op.touches id) →
    tw.slots.length ≤ ticks post →
    ∃ k < tw.slots.length, id ∈ outs.getD (ticks pre + k) []
      ∧ ∀ k', id ∈ outs.getD (ticks pre + k') [] → k' = k

/-- After `Remove` no tick returns the id until it is added again. -/
def RemovedStaysOut (ops : List WheelOp) (outs : List (List Int)) : Prop :=
  ∀ pre id mid post, ops = pre ++ .remove id :: (mid ++ post) → (∀ op ∈ mid, ¬ op.adds id) →
    ∀ k < ticks mid, id ∉ outs.getD (ticks pre + k) []

/-- A tick returns no id twice, and only ids added to its slot since its last visit. -/
def ReturnsAddedSince (tw : TimingWheel) (ops : List WheelOp) (outs : List (List Int)) : Prop :=
  ∀ pre post, ops = pre ++ .tick :: post → (outs.getD (ticks pre) []).Nodup
      ∧ ∀ id ∈ outs.getD (ticks pre) [], ∃ pre₁ triggerTime pre₂,
          pre = pre₁ ++ .add id triggerTime :: pre₂
            ∧ tw.position triggerTime = ((ticks pre + 1) % tw.slots.length : Nat)
            ∧ ∀ k, ticks pre₁ < k → k ≤ ticks pre →
                k % tw.slots.length ≠ (ticks pre + 1) % tw.slots.length

section Sequences

variable {tickDuration wheelSize : Int} {tw : TimingWheel} {ops : List WheelOp}
  {outs : List (List Int)}

theorem returnedOnce_of_run (hrun : wheelRun (new tickDuration wheelSize) ops = some (outs, tw)) :
    ReturnedOnce (new tickDuration wheelSize) ops outs := by
  rintro pre id t post outs₀ tw₀ rfl hpre habsent hpost hturn
  obtain ⟨outs₁, outs₂, tw₁, h₁, h₂, rfl⟩ := wheelRun_append hrun
  rw [hpre] at h₁
  cases h₁
  obtain ⟨tw₂, hadd, h₃⟩ := wheelRun_add h₂
  obtain ⟨p, m, _, hdue⟩ := dueIn_of_add ((wellFormed_new _ _).run hpre) habsent hadd
  -- from here on the id is due in `m` ticks, at most a turn
  have hout := run_pending h₃ hdue hpost
  have hlen := length_outs h₃
  have hm := hdue.pos
  have hmn := hdue.turn
  rw [length_add hadd, (sizes_run hpre).1] at hmn
  refine ⟨m - 1, by omega, ?_, ?_⟩
  · rw [getD_append_ticks (length_outs hpre)]
    exact (hout (m - 1)).mpr ⟨by omega, by omega⟩
  intro k' hk'
  rw [getD_append_ticks (length_outs hpre)] at hk'
  have := ((hout k').mp hk').1
  omega

theorem removedStaysOut_of_run
    (hrun : wheelRun (new tickDuration wheelSize) ops = some (outs, tw)) :
    RemovedStaysOut ops outs := by
  rintro pre id mid post rfl hmid k hk
  obtain ⟨outs₁, outs₂, tw₁, h₁, h₂, rfl⟩ := wheelRun_append hrun
  obtain ⟨outs₃, outs₄, tw₃, h₃, _, rfl⟩ :=
    wheelRun_append (show wheelRun (tw₁.remove id) (mid ++ post) = some (outs₂, tw) from h₂)
  -- `Remove` looks into every slot
  have habsent : ¬ (tw₁.remove id).Pending id := by
    rintro ⟨i, hi⟩
    exact ((mem_slot_remove tw₁ id id i).mp hi).2 rfl
  rw [getD_append_ticks (length_outs h₁), getD_append _ _ _ _ (by rw [length_outs h₃]; exact hk)]
  exact (run_absent h₃ habsent hmid).1 k

theorem returnsAddedSince_of_run
    (hrun : wheelRun (new tickDuration wheelSize) ops = some (outs, tw)) :
    ReturnsAddedSince (new tickDuration wheelSize) ops outs := by
  rintro pre post rfl
  obtain ⟨outs₁, outs₂, tw₁, h₁, h₂, rfl⟩ := wheelRun_append hrun
  obtain ⟨outs', rfl, _⟩ := wheelRun_tick h₂
  have hget : (outs₁ ++ tw₁.tick.1 :: outs').getD (ticks pre + 0) [] = _ :=
    getD_append_ticks (length_outs h₁)
  rw [Nat.add_zero, getD_cons_zero] at hget
  rw [hget, tick_fst, nextPos_run h₁]
  refine ⟨((wellFormed_new _ _).run h₁).slot_nodup _, ?_⟩
  intro id hid
  exact slot_origin h₁ hid

end Sequences

/-- **For every sequence of operations with `Indexable` times on a new wheel** none panics, and the
three properties hold. -/
theorem wheel_sequences (tickDuration wheelSize : Int) (ops : List WheelOp)
    (hops : ∀ id triggerTime, .add id triggerTime ∈ ops →
      (new tickDuration wheelSize).Indexable triggerTime) :
    ∃ outs tw, wheelRun (new tickDuration wheelSize) ops = some (outs, tw)
      ∧ ReturnedOnce (new tickDuration wheelSize) ops outs
      ∧ RemovedStaysOut ops outs
      ∧ ReturnsAddedSince (new tickDuration wheelSize) ops outs := by
  obtain ⟨outs, tw, hrun⟩ := run_isSome (wellFormed_new tickDuration wheelSize) hops
  exact ⟨outs, tw, hrun, returnedOnce_of_run hrun, removedStaysOut_of_run hrun,
    returnsAddedSince_of_run hrun⟩

/-- Task 7 comes new, task 8 is removed, task 9 stays. -/
def eightOps : List WheelOp :=
  [.add 7 (unixEpoch + 5 * second), .tick, .add 8 (unixEpoch + 4 * second), .tick, .remove 8, .tick,
    .add 9 (unixEpoch + 9 * second), .tick]

/-- Three slots of a second. -/
theorem wheel_sequences_seconds :
    ∃ outs tw, wheelRun (new second 3) eightOps = some (outs, tw)
      ∧ ReturnedOnce (new second 3) eightOps outs
      ∧ RemovedStaysOut eightOps outs
      ∧ ReturnsAddedSince (new second 3) eightOps outs := by
  refine wheel_sequences second 3 _ ?_
  intro id t hmem
  simp only [eightOps, List.mem_cons, WheelOp.add.injEq, reduceCtorEq, false_or, List.not_mem_nil,
    or_false] at hmem
  rcases hmem with ⟨_, rfl⟩ | ⟨_, rfl⟩ | ⟨_, rfl⟩ <;> decide

/-- From 2262-04-11T23:47:16.854775808Z on the nanosecond count is negative: `Add` panics. -/
theorem add_panics_after_2262 :
    unixEpoch ≤ unixEpoch + 9223372036854775808 ∧ ¬ (new second 60).Pending 1
      ∧ (new second 60).position (unixEpoch + 9223372036854775808) = -16
      ∧ wheelRun (new second 60)
          (.add 1 (unixEpoch + 9223372036854775808) :: List.replicate 60 .tick) = none := by
  exact ⟨by decide, not_pending_new second 60 1, by decide, by decide⟩

end TimingWheel

end AiScheduler
