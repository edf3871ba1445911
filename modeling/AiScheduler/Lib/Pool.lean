/-
  **PROGRAMS RUN ALONE, AND POOLS OF PROGRAMS INTERLEAVED CALL BY CALL.**

  `exec inp op w` says what the call `op` does in the world `w` when the environment contributes
  `inp`. `Reaches ok c c'` is a run all of whose steps satisfy `ok`.

  **The invariant rule** `Reaches.tracks`: if every job follows a call protocol, an invariant over
  the world and the threads' GHOST protocol states that each allowed call preserves holds all
  along the run.
-/
import AiScheduler.Lib.Prog
import Mathlib.Data.List.Basic

namespace AiScheduler.Lib

open Function List

variable {t u : Nat}

/-- A call together with the answer it got. -/
abbrev Event (S : Sig) := (op : S.Op) × S.Ans op

/-! ## One program, alone. -/

namespace Prog

variable {S : Sig} {α β σ : Type}

/-- Run a program to its end, every call executed by `h`. -/
def run (h : (op : S.Op) → σ → S.Ans op × σ) : Prog S α → σ → α × σ
  | ret a, s => (a, s)
  | call op k, s => run h (k (h op s).1) (h op s).2

/-- The calls of that run, in order. -/
def events (h : (op : S.Op) → σ → S.Ans op × σ) : Prog S α → σ → List (Event S)
  | ret _, _ => []
  | call op k, s => ⟨op, (h op s).1⟩ :: events h (k (h op s).1) (h op s).2

variable (h : (op : S.Op) → σ → S.Ans op × σ)

@[simp] theorem run_ret (a : α) (s : σ) : run h (ret a : Prog S α) s = (a, s) := rfl

@[simp] theorem run_call (op : S.Op) (k : S.Ans op → Prog S α) (s : σ) :
    run h (call op k) s = run h (k (h op s).1) (h op s).2 := rfl

theorem run_bind (p : Prog S α) (f : α → Prog S β) (s : σ) :
    run h (p >>= f) s = run h (f (run h p s).1) (run h p s).2 := by
  induction p generalizing s with
  | ret a => rfl
  | call op k ih => exact ih (h op s).1 (h op s).2

@[simp] theorem events_ret (a : α) (s : σ) : events h (ret a : Prog S α) s = [] := rfl

@[simp] theorem events_call (op : S.Op) (k : S.Ans op → Prog S α) (s : σ) :
    events h (call op k) s = ⟨op, (h op s).1⟩ :: events h (k (h op s).1) (h op s).2 := rfl

theorem events_bind (p : Prog S α) (f : α → Prog S β) (s : σ) :
    events h (p >>= f) s = events h p s ++ events h (f (run h p s).1) (run h p s).2 := by
  induction p generalizing s with
  | ret a => rfl
  | call op k ih =>
    simp only [call_bind, events_call, run_call, cons_append]
    rw [ih]

theorem Calls.of_mem_events {φ : S.Op → Prop} {p : Prog S α} (hp : Calls φ p) {s : σ}
    {e : Event S} (he : e ∈ events h p s) : φ e.1 := by
  induction p generalizing s with
  | ret a => simp at he
  | call op k ih =>
    rw [events_call, mem_cons] at he
    rcases he with rfl | he
    · exact hp.1
    · exact ih _ (hp.2 _) he

theorem run_invariant (Inv : σ → Prop) (hstep : ∀ op s, Inv s → Inv (h op s).2)
    (p : Prog S α) {s : σ} (hs : Inv s) : Inv (run h p s).2 := by
  induction p generalizing s with
  | ret a => exact hs
  | call op k ih => exact ih _ (hstep op s hs)

/-- Two executions that agree, through `view`, on the calls `p` makes, run `p` to the same end. -/
theorem run_of_view {τ : Type} {h : (op : S.Op) → σ → S.Ans op × σ}
    {h' : (op : S.Op) → τ → S.Ans op × τ} (view : σ → τ) {φ : S.Op → Prop}
    (hφ : ∀ op, φ op → ∀ s, (h op s).1 = (h' op (view s)).1
      ∧ view (h op s).2 = (h' op (view s)).2) {p : Prog S α} (hp : Calls φ p) (s : σ) :
    (run h p s).1 = (run h' p (view s)).1 ∧ view (run h p s).2 = (run h' p (view s)).2 := by
  induction p generalizing s with
  | ret a => exact ⟨rfl, rfl⟩
  | call op k ih =>
    obtain ⟨hans, hview⟩ := hφ op hp.1 s
    rw [run_call, run_call, ← hans, ← hview]
    exact ih _ (hp.2 _) _

end Prog

/-! ## Pools. -/

/-- A started job and what is left of its program. -/
structure Thread (S : Sig) (J R : Type) where
  job : J
  prog : Prog S R

/-- The world, the threads started so far and the calls made so far, LATEST FIRST. -/
structure Config (S : Sig) (W J R : Type) where
  world : W
  pool : List (Thread S J R)
  log : List (Nat × Event S)

inductive Label (I J : Type) where
  /-- Start a job. -/
  | spawn (j : J)
  /-- Thread `t` makes its next call; the environment contributes `inp`. -/
  | step (t : Nat) (inp : I)

section Pools

variable {S : Sig} {W I J R : Type}

/-- No job started yet. -/
def Config.init (w : W) : Config S W J R := { world := w, pool := [], log := [] }

/-- The pool after starting job `j`. -/
def Config.spawned (body : J → Prog S R) (c : Config S W J R) (j : J) : Config S W J R :=
  { c with pool := c.pool ++ [⟨j, body j⟩] }

/-- The configuration after thread `t` (running `j`) made the call `op`. -/
def Config.called (exec : I → (op : S.Op) → W → S.Ans op × W) (c : Config S W J R)
    (t : Nat) (j : J) (op : S.Op) (k : S.Ans op → Prog S R) (inp : I) : Config S W J R :=
  { world := (exec inp op c.world).2
    pool := c.pool.set t ⟨j, k (exec inp op c.world).1⟩
    log := (t, ⟨op, (exec inp op c.world).1⟩) :: c.log }

/-- The call thread `t` makes next, if it is started and not finished. -/
def Config.nextOp (c : Config S W J R) (t : Nat) : Option S.Op :=
  match c.pool[t]? with
  | some ⟨_, .call op _⟩ => some op
  | _ => none

theorem Config.nextOp_of_pool {c : Config S W J R} {j : J} {op : S.Op}
    {k : S.Ans op → Prog S R} (h : c.pool[t]? = some ⟨j, .call op k⟩) : c.nextOp t = some op := by
  unfold Config.nextOp
  rw [h]

/-- The job thread `t` runs. -/
def Config.jobOf (c : Config S W J R) (t : Nat) : Option J := c.pool[t]?.map Thread.job

theorem Config.jobOf_of_pool {c : Config S W J R} {th : Thread S J R} (h : c.pool[t]? = some th) :
    c.jobOf t = some th.job := by
  unfold Config.jobOf
  rw [h]
  rfl

/-- The value thread `t` returned, if it is finished. -/
def Config.resultOf (c : Config S W J R) (t : Nat) : Option R :=
  match c.pool[t]? with
  | some ⟨_, .ret r⟩ => some r
  | _ => none

variable (exec : I → (op : S.Op) → W → S.Ans op × W) (body : J → Prog S R)

/-- One step; `none` where the thread does not exist or is finished. -/
def Config.step (c : Config S W J R) : Label I J → Option (Config S W J R)
  | .spawn j => some (c.spawned body j)
  | .step t inp =>
    match c.pool[t]? with
    | some ⟨j, .call op k⟩ => some (c.called exec t j op k inp)
    | _ => none

/-- What a step can be: a start, or the next call of an unfinished thread. -/
theorem Config.step_cases {c c' : Config S W J R} {l : Label I J}
    (h : c.step exec body l = some c') :
    (∃ j, l = .spawn j ∧ c' = c.spawned body j)
      ∨ ∃ t inp j op k, l = .step t inp ∧ c.pool[t]? = some ⟨j, .call op k⟩
          ∧ c' = c.called exec t j op k inp := by
  cases l with
  | spawn j =>
    injection h with h
    exact Or.inl ⟨j, rfl, h.symm⟩
  | step t inp =>
  simp only [Config.step] at h
  split at h
  next j op k hp =>
    injection h with h
    exact Or.inr ⟨t, inp, j, op, k, rfl, hp, h.symm⟩
  next => cases h

/-- A run from `c₀` whose steps all satisfy `ok` (state before, label). -/
inductive Reaches (ok : Config S W J R → Label I J → Prop) (c₀ : Config S W J R) :
    Config S W J R → Prop where
  | refl : Reaches ok c₀ c₀
  | tail {c c' : Config S W J R} {l : Label I J} : Reaches ok c₀ c → ok c l →
      c.step exec body l = some c' → Reaches ok c₀ c'

variable {exec body} {ok ok' : Config S W J R → Label I J → Prop}
  {c₀ c c' : Config S W J R}

theorem Reaches.trans (h : Reaches exec body ok c₀ c) (h' : Reaches exec body ok c c') :
    Reaches exec body ok c₀ c' := by
  induction h' with
  | refl => exact h
  | tail _ hok hs ih => exact ih.tail hok hs

/-- What every step from a reachable state keeps, a run keeps. -/
theorem Reaches.invariant (Inv : Config S W J R → Prop) (h₀ : Inv c₀)
    (hstep : ∀ c c' l, Reaches exec body ok c₀ c → Inv c → ok c l →
      c.step exec body l = some c' → Inv c')
    (h : Reaches exec body ok c₀ c) : Inv c := by
  induction h with
  | refl => exact h₀
  | tail hr hl hs ih => exact hstep _ _ _ hr ih hl hs

section

variable {c : Config S W J R} {j : J}

theorem Config.jobOf_called {op : S.Op}
    {k : S.Ans op → Prog S R} (hp : c.pool[t]? = some ⟨j, .call op k⟩) (inp : I) (u : Nat) :
    (c.called exec t j op k inp).jobOf u = c.jobOf u := by
  unfold Config.jobOf Config.called
  rw [getElem?_set]
  split
  next htu =>
    subst htu
    have hlt : t < c.pool.length := by
      by_contra hge
      rw [getElem?_eq_none (by omega)] at hp
      cases hp
    rw [if_pos hlt, hp]
    rfl
  next => rfl

theorem Config.nextOp_called_of_ne {op : S.Op}
    {k : S.Ans op → Prog S R} (inp : I) (hu : u ≠ t) :
    (c.called exec t j op k inp).nextOp u = c.nextOp u := by
  unfold Config.nextOp Config.called
  rw [getElem?_set_ne (Ne.symm hu)]

theorem Config.nextOp_spawned_of_ne
    (hu : u ≠ c.pool.length) : (c.spawned body j).nextOp u = c.nextOp u := by
  have hpool : (c.spawned body j).pool[u]? = c.pool[u]? := by
    by_cases hlt : u < c.pool.length
    · exact getElem?_append_left hlt
    · have hlen : (c.spawned body j).pool.length = c.pool.length + 1 := by
        simp [Config.spawned]
      rw [getElem?_eq_none (by omega), getElem?_eq_none (by omega)]
  unfold Config.nextOp
  rw [hpool]

theorem Config.jobOf_spawned_of_lt
    (hu : u < c.pool.length) : (c.spawned body j).jobOf u = c.jobOf u := by
  unfold Config.jobOf Config.spawned
  rw [getElem?_append_left hu]

theorem Config.jobOf_spawned_of_ne
    (hu : u ≠ c.pool.length) : (c.spawned body j).jobOf u = c.jobOf u := by
  by_cases hlt : u < c.pool.length
  · exact Config.jobOf_spawned_of_lt hlt
  have hlen : (c.spawned body j).pool.length = c.pool.length + 1 := by
    simp [Config.spawned]
  unfold Config.jobOf
  rw [getElem?_eq_none (by omega), getElem?_eq_none (by omega)]

theorem Config.jobOf_spawned_self :
    (c.spawned body j).jobOf c.pool.length = some j := by
  unfold Config.jobOf Config.spawned
  rw [getElem?_concat_length]
  rfl

end

theorem Reaches.log_lt {w : W} (h : Reaches exec body ok (Config.init w) c) :
    ∀ e ∈ c.log, e.1 < c.pool.length := by
  induction h with
  | refl =>
    intro e he
    simp [Config.init] at he
  | tail _ _ hs ih =>
  intro e he
  rcases Config.step_cases exec body hs with ⟨j, rfl, rfl⟩ | ⟨t, inp, j, op, k, rfl, hp, rfl⟩
  · have hlt := ih e he
    show e.1 < (_ ++ [_]).length
    rw [length_append]
    exact Nat.lt_add_right _ hlt
  show e.1 < (set _ _ _).length
  rw [length_set]
  rcases mem_cons.mp he with rfl | he
  · exact (List.getElem?_eq_some_iff.mp hp).1
  · exact ih e he

/-! ## Executable runs. -/

variable (exec body)

/-- Run a list of steps, each of which must satisfy `okb`. -/
def runSteps (okb : Config S W J R → Label I J → Bool) (c : Config S W J R) :
    List (Label I J) → Option (Config S W J R)
  | [] => some c
  | l :: ls => if okb c l then (c.step exec body l).bind (runSteps okb · ls) else none

variable {exec body}

section

variable {okb : Config S W J R → Label I J → Bool}

theorem reaches_of_runSteps
    (hokb : ∀ c l, okb c l = true → ok c l) :
    ∀ (ls : List (Label I J)) (c : Config S W J R),
      runSteps exec body okb c ls = some c' → Reaches exec body ok c c'
  | [], c, h => by
      cases h
      exact .refl
  | l :: ls, c, h => by
      simp only [runSteps] at h
      split at h
      next hl =>
        obtain ⟨c₁, h₁, h₂⟩ := Option.bind_eq_some_iff.mp h
        exact (Reaches.refl.tail (hokb c l hl) h₁).trans (reaches_of_runSteps hokb ls c₁ h₂)
      next => cases h

/-- A run that ends where the test `p` answers `true`. -/
theorem exists_reaches_of_runSteps
    (hokb : ∀ c l, okb c l = true → ok c l) {ls : List (Label I J)} {p : Config S W J R → Bool}
    (h : (runSteps exec body okb c ls).map p = some true) :
    ∃ c', Reaches exec body ok c c' ∧ p c' = true := by
  obtain ⟨c', h₁, h₂⟩ := Option.map_eq_some_iff.mp h
  exact ⟨c', reaches_of_runSteps hokb ls c h₁, h₂⟩

/-- A run and its continuation that end where the test `p` answers `true`. -/
theorem exists_reaches_of_runSteps_bind
    (hokb : ∀ c l, okb c l = true → ok c l) {ls ls' : List (Label I J)}
    {p : Config S W J R → Config S W J R → Bool} (h : ((runSteps exec body okb c ls).bind
      (fun c₁ => (runSteps exec body okb c₁ ls').map (p c₁))) = some true) :
    ∃ c₁ c₂, Reaches exec body ok c c₁ ∧ Reaches exec body ok c₁ c₂ ∧ p c₁ c₂ = true := by
  obtain ⟨c₁, h₁, h₂⟩ := Option.bind_eq_some_iff.mp h
  obtain ⟨c₂, h₃, h₄⟩ := exists_reaches_of_runSteps hokb h₂
  exact ⟨c₁, c₂, reaches_of_runSteps hokb ls c h₁, h₃, h₄⟩

end

/-! ## The invariant rule. -/

/-- Every thread follows the protocol from its ghost state `g t`. -/
def Tracks (P : Protocol S) (post : J → P.State → R → Prop) (c : Config S W J R)
    (g : Nat → P.State) : Prop :=
  ∀ t th, c.pool[t]? = some th → Prog.Follows P (post th.job) (g t) th.prog

variable {P : Protocol S} {post : J → P.State → R → Prop} {g : Nat → P.State}

theorem Tracks.next (h : Tracks P post c g) {j : J} {op : S.Op}
    {k : S.Ans op → Prog S R} (hp : c.pool[t]? = some ⟨j, .call op k⟩) (ans : S.Ans op)
    (hans : P.admits (g t) op ans) :
    ∃ q', P.next (g t) op ans = some q' ∧ Prog.Follows P (post j) q' (k ans) :=
  h t _ hp ans hans

theorem Tracks.returned (h : Tracks P post c g) {j : J} {r : R}
    (hp : c.pool[t]? = some ⟨j, .ret r⟩) : post j (g t) r :=
  h t _ hp

theorem Tracks.spawned (h : Tracks P post c g) {j : J} {q : P.State}
    (hj : Prog.Follows P (post j) q (body j)) :
    Tracks P post (c.spawned body j) (update g c.pool.length q) := by
  intro t th ht
  by_cases hlt : t < c.pool.length
  · have hne : t ≠ c.pool.length := by omega
    rw [update_of_ne hne]
    apply h t th
    simpa [Config.spawned, getElem?_append_left hlt] using ht
  by_cases heq : t = c.pool.length
  · subst heq
    have hth : th = ⟨j, body j⟩ := by
      simpa [Config.spawned] using ht.symm
    subst hth
    rw [update_self]
    exact hj
  have hnone : (c.spawned body j).pool[t]? = none := by
    apply getElem?_eq_none
    simp only [Config.spawned, length_append, length_singleton]
    omega
  rw [hnone] at ht
  cases ht

theorem Tracks.called (h : Tracks P post c g) {j : J} {op : S.Op}
    {k : S.Ans op → Prog S R} {inp : I} {q' : P.State}
    (hk : Prog.Follows P (post j) q' (k (exec inp op c.world).1)) :
    Tracks P post (c.called exec t j op k inp) (update g t q') := by
  intro u th hu
  simp only [Config.called] at hu
  by_cases hut : u = t
  · subst hut
    rw [update_self]
    rw [getElem?_set] at hu
    simp only [if_true] at hu
    split at hu
    next =>
      cases hu
      exact hk
    next => cases hu
  · rw [update_of_ne hut]
    rw [getElem?_set_ne (Ne.symm hut)] at hu
    exact h u th hu

/-- **THE INVARIANT RULE.** If every job follows the protocol `P`, and `I`, over the configuration
and the ghost states, survives every start and allowed call and rules out the answers `P` does not
admit, then `I` holds wherever a run gets. -/
theorem Reaches.tracks (start : J → P.State)
    (I' : Config S W J R → (Nat → P.State) → Prop) {w : W} {g₀ : Nat → P.State}
    (hbody : ∀ c j, ok c (.spawn j) → Prog.Follows P (post j) (start j) (body j))
    (hspawn : ∀ c g j, (∀ e ∈ c.log, e.1 < c.pool.length) → I' c g → ok c (.spawn j) →
      I' (c.spawned body j) (update g c.pool.length (start j)))
    (hadmits : ∀ c g t j op k inp, Tracks P post c g → I' c g → ok c (.step t inp) →
      c.pool[t]? = some ⟨j, .call op k⟩ → P.admits (g t) op (exec inp op c.world).1)
    (hstep : ∀ c g t j op k inp q', Tracks P post c g → I' c g → ok c (.step t inp) →
      c.pool[t]? = some ⟨j, .call op k⟩ → P.admits (g t) op (exec inp op c.world).1 →
      P.next (g t) op (exec inp op c.world).1 = some q' →
      I' (c.called exec t j op k inp) (update g t q'))
    (h₀ : I' (Config.init w) g₀) (h : Reaches exec body ok (Config.init w) c) :
    ∃ g, Tracks P post c g ∧ I' c g := by
  induction h with
  | refl => exact ⟨g₀, fun t th ht => absurd ht (by simp [Config.init]), h₀⟩
  | tail h hok hs ih =>
  obtain ⟨g, htr, hI⟩ := ih
  rcases Config.step_cases exec body hs with ⟨j, rfl, rfl⟩ | ⟨t, inp, j, op, k, rfl, hp, rfl⟩
  · exact ⟨_, htr.spawned (hbody _ j hok), hspawn _ g j h.log_lt hI hok⟩
  · have hans := hadmits _ g t j op k inp htr hI hok hp
    obtain ⟨q', hq', hk⟩ := htr.next hp (exec inp op _).1 hans
    exact ⟨_, htr.called hk, hstep _ g t j op k inp q' htr hI hok hp hans hq'⟩

end Pools

end AiScheduler.Lib
