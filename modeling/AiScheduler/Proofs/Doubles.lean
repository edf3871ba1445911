/-
  **WHEN THE IN-MEMORY INSTANCE STORE STANDS IN FOR MYSQL.**

  The purpose of both stores is a LEDGER: instances in the order of their creation, numbered from
  1, changed in place.  Each store REFINES the ledger on the calls they agree about (`Agreed`).
-/
import AiScheduler.Repo.InstanceOps

namespace AiScheduler

open Lib List

variable {rows : List TaskInstance} {p : TaskInstance → Bool} {key : TaskInstance → Int}
  {f f' : TaskInstance → TaskInstance} {op : InstanceOp}

/-! ## The calls the stores agree about. -/

def UnusedStamp (rows : List TaskInstance) (t : Int) : Prop :=
  ∀ r ∈ rows, r.createdAt ≠ t

def bare (i : TaskInstance) : TaskInstance := { i with updatedAt := 0 }

def amend (p : TaskInstance → Bool) (f : TaskInstance → TaskInstance) (L : List TaskInstance) :
    List TaskInstance :=
  L.map (fun r => if p r then f r else r)

def found (r : Option TaskInstance) : Option InstanceReply :=
  r.map (fun r => .one r.unstamped)

/-- The answer of a query: every row that satisfies `p`, in the order of `key`. -/
def listed (L : List TaskInstance) (p : TaskInstance → Bool) (key : TaskInstance → Int) :
    List TaskInstance :=
  sortBy key (L.filter p)

/-- A ledger that agreed calls can have built. -/
structure Regular (L : List TaskInstance) : Prop where
  numbered : L.map TaskInstance.id = (List.range L.length).map (fun n : Nat => (n : Int) + 1)
  shardless : ∀ r ∈ L, r.shardNo = 0 ∧ r.shardTotal = 0
  schedules : (L.map TaskInstance.scheduleInstanceID).Nodup
  stamps : (L.map TaskInstance.createdAt).Nodup

/-- The store holds the ledger's rows. -/
structure Refines (s : InstanceStore) (L : List TaskInstance) : Prop where
  rows : s.instances.rows.map bare = L
  next : s.nextID = (L.length : Int) + 1

/-! ## What is seen of a row. -/

theorem unstamped_bare (r : TaskInstance) : (bare r).unstamped = r.unstamped := rfl

theorem readInstance_of_shardless {r : TaskInstance} (h : r.shardNo = 0 ∧ r.shardTotal = 0)
    (b : Backend) : readInstance b r = r := by
  cases b with
  | teststore => rfl
  | mysql =>
    cases r
    obtain ⟨rfl, rfl⟩ := h
    simp only [readInstance, rowToTaskInstance, taskInstanceToRow, getD_timeOrNil]

section

variable {s : InstanceStore} {L : List TaskInstance}

theorem Refines.shardless (h : Refines s L)
    (hL : Regular L) : ∀ r ∈ s.instances.rows, r.shardNo = 0 ∧ r.shardTotal = 0 := by
  intro r hr
  exact hL.shardless (bare r) (h.rows ▸ mem_map_of_mem hr)

theorem Refines.seen (h : Refines s L)
    (hL : Regular L) (hrows : ∀ r ∈ rows, r ∈ s.instances.rows) (b : Backend) :
    (rows.map (readInstance b)).map TaskInstance.unstamped
      = (rows.map bare).map TaskInstance.unstamped := by
  rw [map_map, map_map]
  apply map_congr_left
  intro r hr
  show (readInstance b r).unstamped = (bare r).unstamped
  rw [readInstance_of_shardless (h.shardless hL r (hrows r hr)), unstamped_bare]

theorem Refines.distinct (h : Refines s L)
    (hL : Regular L) : s.SchedulesDistinct := by
  have hnodup : (s.instances.rows.map TaskInstance.scheduleInstanceID).Nodup := by
    have := hL.schedules
    rw [← h.rows, map_map] at this
    exact this
  intro r hr r' hr' heq
  exact inj_on_of_nodup_map hnodup hr hr' heq

end

theorem Refines.empty : Refines InstanceStore.empty [] := ⟨rfl, rfl⟩

theorem Regular.empty : Regular [] :=
  ⟨rfl, fun r hr => absurd hr (by simp), nodup_nil, nodup_nil⟩

/-! ## Queries refine. -/

/-- A query whose keys are distinct finds the ledger's rows, whatever order it
meets them in. -/
theorem Refines.select {s : InstanceStore} {L : List TaskInstance} (h : Refines s L)
    (scan : Scan TaskInstance) (hp : ∀ r, p (bare r) = p r)
    (hkey : ∀ r, key (bare r) = key r) (hnodup : (L.map key).Nodup) :
    (s.select scan p key).map bare = listed L p key := by
  have hsub : ((s.instances.rows.filter p).map key).Nodup := by
    have hrows : (s.instances.rows.map key).Nodup := by
      rw [← h.rows, map_map] at hnodup
      simpa [Function.comp_def, hkey] using hnodup
    exact hrows.sublist (filter_sublist.map key)
  unfold InstanceStore.select Scan.orderBy listed
  rw [sortBy_eq_of_perm (scan.perm _) hsub, map_sortBy hkey, ← h.rows, filter_map]
  have hcomp : p ∘ bare = p := funext hp
  rw [hcomp]

theorem Regular.sorted {L : List TaskInstance} (hL : Regular L) :
    L.Pairwise (fun a b => a.id ≤ b.id) := by
  rw [← pairwise_map (f := TaskInstance.id) (R := (· ≤ ·)), hL.numbered, pairwise_map]
  exact pairwise_lt_range.imp (by omega)

theorem Regular.ids {L : List TaskInstance} (hL : Regular L) : (L.map TaskInstance.id).Nodup := by
  rw [hL.numbered]
  exact nodup_range.map (fun m n (hmn : (m : Int) + 1 = n + 1) => by omega)

theorem Regular.latest {L : List TaskInstance} (hL : Regular L) :
    (L.map (fun r => - r.createdAt)).Nodup := by
  have := hL.stamps.map (f := fun t : Int => -t) (fun a b hab => by simpa using hab)
  rw [map_map] at this
  exact this

theorem rewrite_amend {s : InstanceStore} {p' : TaskInstance → Bool} {hf : ∀ i, (f i).id = i.id}
    (hp : ∀ r ∈ s.instances.rows, p r = p' (bare r))
    (hff : ∀ r ∈ s.instances.rows, p r = true → bare (f r) = f' (bare r)) :
    (s.rewrite p f hf).instances.rows.map bare = amend p' f' (s.instances.rows.map bare) := by
  show (s.instances.rows.map (fun r => if p r then f r else r)).map bare = _
  unfold amend
  rw [map_map, map_map]
  apply map_congr_left
  intro r hr
  show bare (if p r then f r else r) = if p' (bare r) then f' (bare r) else bare r
  rw [← hp r hr]
  split
  next hpr => exact hff r hr hpr
  next => rfl

theorem length_amend (p : TaskInstance → Bool) (f : TaskInstance → TaskInstance)
    (L : List TaskInstance) : (amend p f L).length = L.length :=
  length_map _

theorem map_amend {α : Type} {g : TaskInstance → α} (hg : ∀ r, g (f r) = g r)
    (L : List TaskInstance) :
    (amend p f L).map g = L.map g := by
  unfold amend
  rw [map_map]
  apply map_congr_left
  grind

section

variable {s : InstanceStore} {L : List TaskInstance}

theorem Refines.updateByID (h : Refines s L)
    {id : Int} (hid : ∃ r ∈ L, r.id = id) (b : Backend) {hf : ∀ i, (f i).id = i.id}
    (hff : ∀ r ∈ s.instances.rows, r.id = id → bare (f r) = f' (bare r)) :
    (s.updateByID b id f hf).1 = .ok ()
      ∧ Refines (s.updateByID b id f hf).2 (amend (fun r => r.id = id) f' L) := by
  obtain ⟨r, hr, hid⟩ := hid
  rw [← h.rows] at hr
  obtain ⟨r₀, hr₀, rfl⟩ := mem_map.mp hr
  have hget : s.instances.get? id = some r₀ := Table.get?_eq_some_iff.mpr ⟨hr₀, hid⟩
  rw [InstanceStore.updateByID_of_get? hget]
  refine ⟨rfl, ?_, ?_⟩
  · rw [← h.rows]
    exact rewrite_amend (fun r _ => rfl) (fun r hr hp => hff r hr (of_decide_eq_true hp))
  · rw [length_amend]
    exact h.next

theorem Refines.updateBySchedule (h : Refines s L)
    (hL : Regular L) {sid : String} (hsid : ∃ r ∈ L, r.scheduleInstanceID = sid) (b : Backend)
    {hf : ∀ i, (f i).id = i.id}
    (hff : ∀ r ∈ s.instances.rows, r.scheduleInstanceID = sid → bare (f r) = f' (bare r)) :
    (s.updateBySchedule b sid f hf).1 = .ok () ∧ Refines (s.updateBySchedule b sid f hf).2
          (amend (fun r => r.scheduleInstanceID = sid) f' L) := by
  obtain ⟨r, hr, rfl⟩ := hsid
  rw [← h.rows] at hr
  obtain ⟨r₀, hr₀, rfl⟩ := mem_map.mp hr
  have hd := h.distinct hL
  rw [show (bare r₀).scheduleInstanceID = r₀.scheduleInstanceID from rfl] at hff ⊢
  rw [InstanceStore.updateBySchedule_of_mem hr₀]
  refine ⟨rfl, ?_, ?_⟩
  · rw [← h.rows]
    apply rewrite_amend
    · intro r hr
      exact InstanceStore.addressed_of_distinct hd hr _
    · intro r hr hp
      rw [InstanceStore.addressed_of_distinct hd hr] at hp
      exact hff r hr (of_decide_eq_true hp)
  · rw [length_amend]
    exact h.next

theorem Refines.stored (h : Refines s L)
    {α : Type} {g : TaskInstance → α} (hg : ∀ r, g (bare r) = g r) (hnodup : (L.map g).Nodup)
    {P : TaskInstance → Prop} (hP : ∀ r, P (bare r) ↔ P r) {x : α}
    (hex : ∃ r ∈ L, g r = x ∧ P r) : ∀ r ∈ s.instances.rows, g r = x → P r := by
  intro r hr hx
  obtain ⟨r', hr', hx', hPr'⟩ := hex
  have hbare : bare r ∈ L := h.rows ▸ mem_map_of_mem hr
  have hsame : bare r = r' := by
    apply inj_on_of_nodup_map hnodup hbare hr'
    rw [hg, hx, hx']
  rw [← hP, hsame]
  exact hPr'

end

/-! ## Regular ledgers stay regular. -/

theorem Regular.amend {L : List TaskInstance} (hL : Regular L) (hid : ∀ r, (f r).id = r.id)
    (hshard : ∀ r, ((f r).shardNo, (f r).shardTotal) = (r.shardNo, r.shardTotal))
    (hsid : ∀ r, (f r).scheduleInstanceID = r.scheduleInstanceID)
    (hstamp : ∀ r, (f r).createdAt = r.createdAt) : Regular (amend p f L) where
  numbered := by
    rw [map_amend hid, length_amend]
    exact hL.numbered
  shardless := by
    intro r hr
    obtain ⟨r₀, hr₀, rfl⟩ := mem_map.mp hr
    grind [hL.shardless r₀ hr₀, hshard r₀]
  schedules := by
    rw [map_amend hsid]
    exact hL.schedules
  stamps := by
    rw [map_amend hstamp]
    exact hL.stamps

theorem Regular.append {L : List TaskInstance} (hL : Regular L) {row : TaskInstance}
    (hid : row.id = (L.length : Int) + 1) (hshard : row.shardNo = 0 ∧ row.shardTotal = 0)
    (hsid : ∀ r ∈ L, r.scheduleInstanceID ≠ row.scheduleInstanceID)
    (hstamp : UnusedStamp L row.createdAt) : Regular (L ++ [row]) where
  numbered := by
    rw [map_append, hL.numbered, length_append, length_singleton, range_succ,
      map_append, map_singleton, map_singleton, hid]
  shardless := by
    have hold := hL.shardless
    grind
  schedules := by
    have hold := hL.schedules
    grind
  stamps := by
    have hold := hL.stamps
    grind [UnusedStamp]

section Calls

variable {s : InstanceStore} {L : List TaskInstance} (h : Refines s L) (hL : Regular L)
  (b : Backend) (now : Int) (scan : Scan TaskInstance)

end Calls

/-! ## Sequences of calls. -/

end AiScheduler
