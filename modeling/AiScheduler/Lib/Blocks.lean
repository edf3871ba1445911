/-
  **ATOMIC BLOCKS: an invariant rule for pools that switch threads only at yield calls.**

  A thread is PARKED when it has returned, has not begun, or stands at a yield call. Where a thread
  steps only while all others are parked, the calls from one yield to the next form one block,
  inside which it may break the invariant.
-/
import AiScheduler.Lib.Pool

namespace AiScheduler.Lib

open Function Config

section Parked

variable {S : Sig} {W J R : Type} (isYield : S.Op → Bool)

/-- Thread `u` is between two blocks. -/
def Config.parked (c : Config S W J R) (u : Nat) : Bool :=
  match c.nextOp u with
  | none => true
  | some op => isYield op || !c.log.any (fun entry => entry.1 = u)

/-- All started threads but `t` are. -/
def Config.othersParked (c : Config S W J R) (t : Nat) : Bool :=
  (List.range c.pool.length).all (fun u => u = t || c.parked isYield u)

/-- The pool is between two blocks. -/
def Config.atBoundary (c : Config S W J R) : Bool :=
  (List.range c.pool.length).all (c.parked isYield)

variable {isYield}

theorem Config.parked_of_othersParked {c : Config S W J R} {t u : Nat}
    (h : c.othersParked isYield t = true) (hlt : u < c.pool.length) (hne : u ≠ t) :
    c.parked isYield u = true := by
  have hu := List.all_eq_true.mp h u (List.mem_range.mpr hlt)
  simpa [hne] using hu

theorem Config.parked_of_atBoundary {c : Config S W J R} {u : Nat}
    (h : c.atBoundary isYield = true) (hlt : u < c.pool.length) : c.parked isYield u = true :=
  List.all_eq_true.mp h u (List.mem_range.mpr hlt)

end Parked

section Rule

variable {S : Sig} {W I J R : Type}

/-- What the rule asks: jobs start and return at rest, and yield only there. -/
structure Discipline (P : Protocol S) (post : J → P.State → R → Prop) (start : J → P.State)
    (isYield : S.Op → Bool) (rest : P.State → Prop) : Prop where
  start : ∀ j, rest (start j)
  post : ∀ j q r, post j q r → rest q
  yields : ∀ q op, isYield op = true →
    (∀ ans, P.admits q op ans → ∃ q', P.next q op ans = some q') → rest q

variable {exec : I → (op : S.Op) → W → S.Ans op × W} {body : J → Prog S R}
  {ok : Config S W J R → Label I J → Prop} {P : Protocol S} {post : J → P.State → R → Prop}
  {start : J → P.State} {isYield : S.Op → Bool} {rest : P.State → Prop}
  {c : Config S W J R} {g : Nat → P.State}

theorem Discipline.rest_of_parked (hD : Discipline P post start isYield rest)
    (htr : Tracks P post c g)
    (hfresh : ∀ u, (∀ entry ∈ c.log, entry.1 ≠ u) → rest (g u)) {u : Nat}
    (hlt : u < c.pool.length) (hu : c.parked isYield u = true) : rest (g u) := by
  obtain ⟨⟨j, prog⟩, hpool⟩ : ∃ th, c.pool[u]? = some th := ⟨_, List.getElem?_eq_getElem hlt⟩
  cases prog with
  | ret r => exact hD.post j (g u) r (htr.returned hpool)
  | call op k =>
  unfold parked at hu
  simp only [nextOp_of_pool hpool, Bool.or_eq_true, Bool.not_eq_true'] at hu
  rcases hu with hyield | hnone
  · apply hD.yields (g u) op hyield
    intro ans hans
    obtain ⟨q', hq', _⟩ := htr.next hpool ans hans
    exact ⟨q', hq'⟩
  apply hfresh
  intro entry hentry heq
  have := List.any_eq_false.mp hnone entry hentry
  exact this (by simpa using heq)

/-- **THE BLOCK RULE.** `K c g t`, `t` the thread that moved last, holds wherever a run gets in
which a thread steps only while all others are parked — if starts and `t`'s calls keep it, and at
rest it is the same for all threads. -/
theorem Reaches.blocks (hD : Discipline P post start isYield rest)
    (K : Config S W J R → (Nat → P.State) → Nat → Prop) {w : W} {g₀ : Nat → P.State}
    (hparked : ∀ c t inp, ok c (.step t inp) → c.othersParked isYield t = true)
    (hbody : ∀ c j, ok c (.spawn j) → Prog.Follows P (post j) (start j) (body j))
    (hfocus : ∀ c g t t', K c g t → rest (g t) → rest (g t') → K c g t')
    (hspawn : ∀ c g t j, K c g t → t ≠ c.pool.length → ok c (.spawn j) →
      K (c.spawned body j) (update g c.pool.length (start j)) t)
    (hadmits : ∀ c g t j op k inp, Tracks P post c g → K c g t →
      (∀ u, u ≠ t → rest (g u)) → ok c (.step t inp) → c.pool[t]? = some ⟨j, .call op k⟩ →
      P.admits (g t) op (exec inp op c.world).1)
    (hstep : ∀ c g t j op k inp q', Tracks P post c g → K c g t →
      (∀ u, u ≠ t → rest (g u)) → ok c (.step t inp) → c.pool[t]? = some ⟨j, .call op k⟩ →
      P.admits (g t) op (exec inp op c.world).1 →
      P.next (g t) op (exec inp op c.world).1 = some q' →
      K (c.called exec t j op k inp) (update g t q') t)
    (h₀ : ∀ t, K (init w) g₀ t) (hrest₀ : ∀ u, rest (g₀ u))
    (h : Reaches exec body ok (init w) c) :
    ∃ g, Tracks P post c g ∧ (∀ u, (∀ entry ∈ c.log, entry.1 ≠ u) → rest (g u))
      ∧ ∃ t, K c g t ∧ ∀ u, u ≠ t → rest (g u) := by
  induction h with
  | refl =>
    exact ⟨g₀, fun t th ht => absurd ht (by simp [init]), fun u _ => hrest₀ u, 0, h₀ 0,
      fun u _ => hrest₀ u⟩
  | tail hr hok hs ih =>
  obtain ⟨g, htr, hfresh, t₀, hK, hothers⟩ := ih
  have hlog := hr.log_lt
  rcases step_cases exec body hs with ⟨j, rfl, rfl⟩ | ⟨t, inp, j, op, k, rfl, hp, rfl⟩
  · -- ===== a start =====
    rename_i c
    have hnew : rest (g c.pool.length) := by
      apply hfresh
      intro entry hentry heq
      have := hlog entry hentry
      omega
    -- the focus must not be the slot the new thread takes
    obtain ⟨t₁, hne, hK₁, hothers₁⟩ : ∃ t₁, t₁ ≠ c.pool.length ∧ K c g t₁
        ∧ ∀ u, u ≠ t₁ → rest (g u) := by
      by_cases heq : t₀ = c.pool.length
      · subst heq
        have hnext : rest (g (c.pool.length + 1)) := hothers _ (by omega)
        refine ⟨c.pool.length + 1, by omega, hfocus c g _ _ hK hnew hnext, ?_⟩
        intro u _
        by_cases hu : u = c.pool.length
        · subst hu
          exact hnew
        · exact hothers u hu
      · exact ⟨t₀, heq, hK, hothers⟩
    have hall : ∀ u, rest (g u) → rest (update g c.pool.length (start j) u) := by
      intro u hu
      by_cases heq : u = c.pool.length
      · subst heq
        rw [update_self]
        exact hD.start j
      · rw [update_of_ne heq]
        exact hu
    exact ⟨_, htr.spawned (hbody _ j hok), fun u hu => hall u (hfresh u hu), t₁,
      hspawn _ g t₁ j hK₁ hne hok, fun u hu => hall u (hothers₁ u hu)⟩
  · -- ===== a call: bring the focus to the calling thread =====
    rename_i c
    have hlt : t < c.pool.length := (List.getElem?_eq_some_iff.mp hp).1
    have hpark : ∀ u, u ≠ t → rest (g u) := by
      intro u hu
      by_cases hult : u < c.pool.length
      · exact hD.rest_of_parked htr hfresh hult
          (parked_of_othersParked (hparked c t inp hok) hult hu)
      apply hfresh
      intro entry hentry heq
      have := hlog entry hentry
      omega
    have hKt : K c g t := by
      by_cases heq : t = t₀
      · subst heq
        exact hK
      · exact hfocus c g t₀ t hK (hpark t₀ (Ne.symm heq)) (hothers t heq)
    have hans := hadmits _ g t j op k inp htr hKt hpark hok hp
    obtain ⟨q', hq', hk⟩ := htr.next hp (exec inp op _).1 hans
    refine ⟨_, htr.called hk, ?_, t, hstep _ g t j op k inp q' htr hKt hpark hok hp hans hq', ?_⟩
    · intro u hu
      have hut : u ≠ t := by
        intro heq
        exact hu _ List.mem_cons_self heq.symm
      rw [update_of_ne hut]
      exact hpark u hut
    · intro u hut
      rw [update_of_ne hut]
      exact hpark u hut

/-- At a boundary every thread is at rest, so the invariant holds for any. -/
theorem Discipline.rest_of_atBoundary (hD : Discipline P post start isYield rest)
    (htr : Tracks P post c g) (hfresh : ∀ u, (∀ entry ∈ c.log, entry.1 ≠ u) → rest (g u))
    (hlog : ∀ entry ∈ c.log, entry.1 < c.pool.length) (hb : c.atBoundary isYield = true)
    (u : Nat) : rest (g u) := by
  by_cases hlt : u < c.pool.length
  · exact hD.rest_of_parked htr hfresh hlt (parked_of_atBoundary hb hlt)
  apply hfresh
  intro entry hentry heq
  have := hlog entry hentry
  omega

end Rule

end AiScheduler.Lib
