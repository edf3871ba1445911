/-
  **CYCLE DETECTION BY DEPTH-FIRST SEARCH WITH THREE MARKS.**

  A node is unvisited, in progress, or done.  In-progress nodes all lead to the node the search is
  at, so an edge back to one of them closes a cycle; done nodes have only done successors, and no
  cycle goes through them.  A unit of FUEL for each node is enough (`detect_eq_iff`).
-/
import Mathlib.Logic.Relation
import Mathlib.Data.List.Basic

namespace AiScheduler.Lib.Dfs

open Relation Function

/-! ## The search. -/

/-- What the search knows of a node. -/
inductive Mark where
  | unvisited
  | inProgress
  | done
  deriving DecidableEq, Repr

variable {α : Type} [DecidableEq α]

/-- The marks of all nodes. -/
abbrev Marks (α : Type) := α → Mark

/-- The loop over the successors of a node: was a cycle met, and the marks. -/
def scan (dfs : α → Marks α → Option (Bool × Marks α)) :
    List α → Marks α → Option (Bool × Marks α)
  | [], m => some (false, m)
  | dep :: deps, m =>
    match m dep with
    | .inProgress => some (true, m)
    | .done => scan dfs deps m
    | .unvisited =>
      match dfs dep m with
      | none => none
      | some (true, m') => some (true, m')
      | some (false, m') => scan dfs deps m'

/-- The search from one node; `none` is out of fuel. -/
def dfs (succ : α → List α) : Nat → α → Marks α → Option (Bool × Marks α)
  | 0, _, _ => none
  | fuel + 1, node, m =>
    match scan (dfs succ fuel) (succ node) (Function.update m node .inProgress) with
    | none => none
    | some (true, m') => some (true, m')
    | some (false, m') => some (false, Function.update m' node .done)

/-- The search from each of these nodes in turn. -/
def detect (succ : α → List α) (fuel : Nat) : List α → Marks α → Option Bool
  | [], _ => some false
  | node :: nodes, m =>
    if m node = .unvisited then
      match dfs succ fuel node m with
      | none => none
      | some (true, _) => some true
      | some (false, m') => detect succ fuel nodes m'
    else detect succ fuel nodes m

/-! ## What the search finds. -/

section Sound

variable {succ : α → List α}

/-- There is an edge from `x` to `y`. -/
def Edge (succ : α → List α) (x y : α) : Prop := y ∈ succ x

/-- Done nodes have only done successors, and no cycle goes through them. -/
structure Inv (succ : α → List α) (m : Marks α) : Prop where
  closed : ∀ x, m x = .done → ∀ y, Edge succ x y → m y = .done
  acyclic : ∀ x, m x = .done → ¬ TransGen (Edge succ) x x

omit [DecidableEq α] in
theorem Inv.done_of_reflTransGen {m : Marks α} (h : Inv succ m) {x y : α} (hx : m x = .done)
    (hxy : ReflTransGen (Edge succ) x y) : m y = .done := by
  induction hxy with
  | refl => exact hx
  | tail _ hbc ih => exact h.closed _ ih _ hbc

/-- A node in progress whose successors are all done may be marked done. -/
theorem Inv.finish {m : Marks α} (h : Inv succ m) {node : α} (hnode : m node = .inProgress)
    (hsucc : ∀ y, Edge succ node y → m y = .done) : Inv succ (update m node .done) := by
  have hne : ∀ {x : α}, m x = .done → x ≠ node := by
    intro x hx heq
    rw [heq, hnode] at hx
    cases hx
  have hold : ∀ {x : α}, m x = .done → update m node .done x = .done := by
    intro x hx
    rw [update_of_ne (hne hx)]
    exact hx
  constructor
  · intro x hx y hxy
    by_cases hxn : x = node
    · subst hxn
      exact hold (hsucc y hxy)
    · rw [update_of_ne hxn] at hx
      exact hold (h.closed x hx y hxy)
  · intro x hx hcycle
    by_cases hxn : x = node
    · -- the first edge leads to a done node, from which `node` is not reached
      subst hxn
      obtain ⟨y, hxy, hyx⟩ := TransGen.head'_iff.mp hcycle
      exact hne (h.done_of_reflTransGen (hsucc y hxy) hyx) rfl
    · rw [update_of_ne hxn] at hx
      exact h.acyclic x hx hcycle

/-- What a search leaves behind that met no cycle. -/
structure Clean (succ : α → List α) (m m' : Marks α) : Prop where
  inv : Inv succ m'
  keeps : ∀ x, m x ≠ .unvisited → m' x = m x
  progress : ∀ x, m' x = .inProgress → m x = .inProgress

omit [DecidableEq α] in
/-- **The loop over successors**, given what the search from each of them does. -/
theorem scan_spec {search : α → Marks α → Option (Bool × Marks α)} {node : α}
    (hsearch : ∀ (dep : α) (m : Marks α), m dep = .unvisited → Inv succ m →
      (∀ x, m x = .inProgress → TransGen (Edge succ) x dep) →
      ∀ r m', search dep m = some (r, m') → (r = true → ∃ x, TransGen (Edge succ) x x)
          ∧ (r = false → Clean succ m m' ∧ m' dep = .done)) :
    ∀ (deps : List α) (m : Marks α), (∀ d ∈ deps, Edge succ node d) → Inv succ m →
      (∀ x, m x = .inProgress → ReflTransGen (Edge succ) x node) →
      ∀ r m', scan search deps m = some (r, m') → (r = true → ∃ x, TransGen (Edge succ) x x)
          ∧ (r = false → Clean succ m m' ∧ ∀ d ∈ deps, m' d = .done) := by
  intro deps
  induction deps with
  | nil =>
    intro m _ hinv _ r m' h
    simp only [scan, Option.some.injEq, Prod.mk.injEq] at h
    obtain ⟨rfl, rfl⟩ := h
    refine ⟨fun h => absurd h (by simp), fun _ => ⟨⟨hinv, fun _ _ => rfl, fun _ h => h⟩, ?_⟩⟩
    intro d hd
    cases hd
  | cons dep deps ih =>
  intro m hedges hinv hpath r m' h
  have hdep : Edge succ node dep := hedges dep List.mem_cons_self
  have hrest : ∀ d ∈ deps, Edge succ node d := fun d hd => hedges d (.tail _ hd)
  unfold scan at h
  cases hm : m dep with
  | inProgress =>
    -- an edge back to a node in progress
    rw [hm] at h
    simp only [Option.some.injEq, Prod.mk.injEq] at h
    refine ⟨fun _ => ⟨dep, TransGen.tail' (hpath dep hm) hdep⟩, ?_⟩
    intro hr
    rw [← h.1] at hr
    cases hr
  | done =>
    rw [hm] at h
    obtain ⟨htrue, hfalse⟩ := ih m hrest hinv hpath r m' h
    refine ⟨htrue, ?_⟩
    intro hr
    obtain ⟨hclean, hdone⟩ := hfalse hr
    refine ⟨hclean, ?_⟩
    intro d hd
    rcases List.mem_cons.mp hd with rfl | hd
    · rw [hclean.keeps d (by rw [hm]; simp), hm]
    · exact hdone d hd
  | unvisited =>
    rw [hm] at h
    have hto : ∀ x, m x = .inProgress → TransGen (Edge succ) x dep :=
      fun x hx => TransGen.tail' (hpath x hx) hdep
    cases hs : search dep m with
    | none =>
      rw [hs] at h
      cases h
    | some res =>
    obtain ⟨found, m₁⟩ := res
    have hspec := hsearch dep m hm hinv hto found m₁ hs
    rw [hs] at h
    cases found with
    | true =>
      simp only [Option.some.injEq, Prod.mk.injEq] at h
      refine ⟨fun _ => hspec.1 rfl, ?_⟩
      intro hr
      rw [← h.1] at hr
      cases hr
    | false =>
    obtain ⟨hclean₁, hdone₁⟩ := hspec.2 rfl
    have hpath₁ : ∀ x, m₁ x = .inProgress → ReflTransGen (Edge succ) x node :=
      fun x hx => hpath x (hclean₁.progress x hx)
    obtain ⟨htrue, hfalse⟩ := ih m₁ hrest hclean₁.inv hpath₁ r m' h
    refine ⟨htrue, ?_⟩
    intro hr
    obtain ⟨hclean₂, hdone₂⟩ := hfalse hr
    refine ⟨⟨hclean₂.inv, ?_, ?_⟩, ?_⟩
    · intro x hx
      have hx₁ : m₁ x = m x := hclean₁.keeps x hx
      rw [hclean₂.keeps x (by rw [hx₁]; exact hx), hx₁]
    · intro x hx
      exact hclean₁.progress x (hclean₂.progress x hx)
    intro d hd
    rcases List.mem_cons.mp hd with rfl | hd
    · rw [hclean₂.keeps d (by rw [hdone₁]; simp), hdone₁]
    · exact hdone₂ d hd

/-- **The search from one node**: what it reports is there, what it leaves done has no cycle. -/
theorem dfs_spec (fuel : Nat) :
    ∀ (node : α) (m : Marks α), m node = .unvisited → Inv succ m →
      (∀ x, m x = .inProgress → TransGen (Edge succ) x node) →
      ∀ r m', dfs succ fuel node m = some (r, m') → (r = true → ∃ x, TransGen (Edge succ) x x)
          ∧ (r = false → Clean succ m m' ∧ m' node = .done) := by
  induction fuel with
  | zero =>
    intro node m _ _ _ r m' h
    simp [dfs] at h
  | succ fuel ih =>
  intro node m hnode hinv hpath r m' h
  have hother : ∀ {x : α}, x ≠ node → update m node Mark.inProgress x = m x :=
    fun hx => update_of_ne hx _ _
  have hself : update m node Mark.inProgress node = .inProgress :=
    update_self ..
  -- marking the node keeps the invariant: no done node is touched
  have hinv₁ : Inv succ (update m node .inProgress) := by
    have hdone : ∀ {x : α}, update m node Mark.inProgress x = .done → m x = .done := by
      intro x hx
      by_cases hxn : x = node
      · rw [hxn, hself] at hx
        cases hx
      · rw [hother hxn] at hx
        exact hx
    constructor
    · intro x hx y hxy
      have hy := hinv.closed x (hdone hx) y hxy
      have hyn : y ≠ node := by
        intro heq
        rw [heq, hnode] at hy
        cases hy
      rw [hother hyn]
      exact hy
    · intro x hx
      exact hinv.acyclic x (hdone hx)
  have hpath₁ : ∀ x, update m node Mark.inProgress x = .inProgress →
      ReflTransGen (Edge succ) x node := by
    intro x hx
    by_cases hxn : x = node
    · rw [hxn]
    · rw [hother hxn] at hx
      exact (hpath x hx).to_reflTransGen
  unfold dfs at h
  cases hs : scan (dfs succ fuel) (succ node) (update m node .inProgress) with
  | none =>
    rw [hs] at h
    cases h
  | some res =>
  obtain ⟨found, m₁⟩ := res
  obtain ⟨htrue, hfalse⟩ := scan_spec ih (succ node) _ (fun d hd => hd) hinv₁ hpath₁ found m₁ hs
  rw [hs] at h
  cases found with
  | true =>
    simp only [Option.some.injEq, Prod.mk.injEq] at h
    refine ⟨fun _ => htrue rfl, ?_⟩
    intro hr
    rw [← h.1] at hr
    cases hr
  | false =>
  obtain ⟨hclean, hdone⟩ := hfalse rfl
  simp only [Option.some.injEq, Prod.mk.injEq] at h
  obtain ⟨rfl, rfl⟩ := h
  have hgrey : m₁ node = .inProgress := by
    rw [hclean.keeps node (by rw [hself]; simp), hself]
  refine ⟨fun h => absurd h (by simp), fun _ => ⟨⟨?_, ?_, ?_⟩, update_self ..⟩⟩
  · exact hclean.inv.finish hgrey hdone
  · intro x hx
    have hxn : x ≠ node := by
      intro heq
      rw [heq] at hx
      exact hx hnode
    rw [update_of_ne hxn, hclean.keeps x (by rw [hother hxn]; exact hx), hother hxn]
  intro x hx
  have hxn : x ≠ node := by
    intro heq
    rw [heq, update_self] at hx
    cases hx
  rw [update_of_ne hxn] at hx
  have := hclean.progress x hx
  rw [hother hxn] at this
  exact this

end Sound

/-! ## Enough fuel. -/

section Fuel

variable {succ : α → List α} {nodes : List α}

/-- How many entries of `nodes` are unvisited. -/
def unvisited (nodes : List α) (m : Marks α) : Nat := nodes.countP (fun x => m x = .unvisited)

omit [DecidableEq α] in
theorem unvisited_le {m m' : Marks α} (h : ∀ x, m' x = .unvisited → m x = .unvisited) :
    unvisited nodes m' ≤ unvisited nodes m := by
  apply List.countP_mono_left
  intro x _ hx
  rw [decide_eq_true_iff] at hx ⊢
  exact h x hx

theorem unvisited_update_lt {m : Marks α} {node : α} (hmem : node ∈ nodes)
    (hm : m node = .unvisited) {mark : Mark} (hmark : mark ≠ .unvisited) :
    unvisited nodes (update m node mark) < unvisited nodes m := by
  have hle : ∀ l : List α, unvisited l (update m node mark) ≤ unvisited l m := by
    intro l
    apply unvisited_le
    intro x hx
    by_cases hxn : x = node
    · rw [hxn]
      exact hm
    · rw [update_of_ne hxn] at hx
      exact hx
  induction nodes with
  | nil => cases hmem
  | cons x xs ih =>
  have hcons : ∀ m' : Marks α,
      unvisited (x :: xs) m' = unvisited xs m' + if m' x = .unvisited then 1 else 0 := by
    intro m'
    simp only [unvisited, List.countP_cons, decide_eq_true_eq]
  rw [hcons, hcons]
  by_cases hxn : x = node
  · subst hxn
    rw [update_self, if_neg hmark, if_pos hm]
    have := hle xs
    omega
  rw [update_of_ne hxn]
  have := ih (by
    rcases List.mem_cons.mp hmem with h | h
    · exact absurd h.symm hxn
    · exact h)
  omega

omit [DecidableEq α] in
theorem scan_isSome {search : α → Marks α → Option (Bool × Marks α)} {bound : Nat}
    (hsearch : ∀ (dep : α) (m : Marks α), dep ∈ nodes → m dep = .unvisited →
      unvisited nodes m ≤ bound →
      ∃ r m', search dep m = some (r, m') ∧ unvisited nodes m' ≤ unvisited nodes m) :
    ∀ (deps : List α) (m : Marks α), (∀ d ∈ deps, d ∈ nodes) → unvisited nodes m ≤ bound →
      ∃ r m', scan search deps m = some (r, m') ∧ unvisited nodes m' ≤ unvisited nodes m := by
  intro deps
  induction deps with
  | nil =>
    intro m _ _
    exact ⟨false, m, rfl, Nat.le_refl _⟩
  | cons dep deps ih =>
  intro m hdeps hbound
  have hrest : ∀ d ∈ deps, d ∈ nodes := fun d hd => hdeps d (.tail _ hd)
  unfold scan
  cases hm : m dep with
  | inProgress => exact ⟨true, m, rfl, Nat.le_refl _⟩
  | done => exact ih m hrest hbound
  | unvisited =>
  obtain ⟨found, m₁, hs, hle⟩ := hsearch dep m (hdeps dep List.mem_cons_self) hm hbound
  rw [hs]
  cases found with
  | true => exact ⟨true, m₁, rfl, hle⟩
  | false =>
    obtain ⟨r, m', hr, hle'⟩ := ih m₁ hrest (by omega)
    exact ⟨r, m', hr, by omega⟩

/-- A search has fuel enough if there is a unit for every unvisited node. -/
theorem dfs_isSome (hsucc : ∀ x ∈ nodes, ∀ y ∈ succ x, y ∈ nodes) (fuel : Nat) :
    ∀ (node : α) (m : Marks α), node ∈ nodes → m node = .unvisited → unvisited nodes m ≤ fuel →
      ∃ r m', dfs succ fuel node m = some (r, m') ∧ unvisited nodes m' ≤ unvisited nodes m := by
  induction fuel with
  | zero =>
    intro node m hnode hm hfuel
    have : unvisited nodes (update m node .done) < unvisited nodes m :=
      unvisited_update_lt hnode hm (by simp)
    omega
  | succ fuel ih =>
  intro node m hnode hm hfuel
  have hlt : unvisited nodes (update m node .inProgress) < unvisited nodes m :=
    unvisited_update_lt hnode hm (by simp)
  obtain ⟨r, m₁, hs, hle⟩ := scan_isSome ih (succ node) (update m node .inProgress)
    (hsucc node hnode) (by omega)
  unfold dfs
  rw [hs]
  cases r with
  | true => exact ⟨true, m₁, rfl, by omega⟩
  | false =>
  refine ⟨false, _, rfl, ?_⟩
  have : unvisited nodes (update m₁ node .done) ≤ unvisited nodes m₁ := by
    apply unvisited_le
    intro x hx
    by_cases hxn : x = node
    · rw [hxn, update_self] at hx
      cases hx
    · rw [update_of_ne hxn] at hx
      exact hx
  omega

end Fuel

/-! ## The answer. -/

section Answer

variable {succ : α → List α}

/-- The loop over the nodes: it ends, and is right about the nodes it has searched. -/
theorem detect_spec {nodes : List α} (hsucc : ∀ x ∈ nodes, ∀ y ∈ succ x, y ∈ nodes) {fuel : Nat} :
    ∀ (roots : List α) (m : Marks α), (∀ x ∈ roots, x ∈ nodes) → unvisited nodes m ≤ fuel →
      Inv succ m → (∀ x, m x ≠ .inProgress) →
      ∃ r, detect succ fuel roots m = some r ∧ (r = true → ∃ x, TransGen (Edge succ) x x)
        ∧ (r = false → ∀ x ∈ roots, ¬ TransGen (Edge succ) x x) := by
  intro roots
  induction roots with
  | nil =>
    intro m _ _ _ _
    refine ⟨false, rfl, fun h => absurd h (by simp), ?_⟩
    intro _ x hx
    cases hx
  | cons node roots ih =>
  intro m hroots hfuel hinv hidle
  have hrest : ∀ x ∈ roots, x ∈ nodes := fun x hx => hroots x (.tail _ hx)
  by_cases hm : m node = .unvisited
  · obtain ⟨found, m₁, hs, hle⟩ := dfs_isSome hsucc fuel node m
      (hroots node List.mem_cons_self) hm hfuel
    have hspec := dfs_spec fuel node m hm hinv (fun x hx => absurd hx (hidle x)) found m₁ hs
    have hdetect : detect succ fuel (node :: roots) m
        = match (some (found, m₁) : Option (Bool × Marks α)) with
          | none => none
          | some (true, _) => some true
          | some (false, m') => detect succ fuel roots m' := by
      rw [detect, if_pos hm, hs]
    rw [hdetect]
    cases found with
    | true => exact ⟨true, rfl, fun _ => hspec.1 rfl, fun h => absurd h (by simp)⟩
    | false =>
    obtain ⟨hclean, hdone⟩ := hspec.2 rfl
    obtain ⟨r, hr, htrue, hfalse⟩ := ih m₁ hrest (by omega) hclean.inv
      (fun x hx => hidle x (hclean.progress x hx))
    refine ⟨r, hr, htrue, ?_⟩
    intro hr' x hx
    rcases List.mem_cons.mp hx with rfl | hx
    · exact hclean.inv.acyclic x hdone
    · exact hfalse hr' x hx
  · -- already done
    have hdone : m node = .done := by
      cases h : m node with
      | unvisited => exact absurd h hm
      | inProgress => exact absurd h (hidle node)
      | done => rfl
    rw [detect, if_neg hm]
    obtain ⟨r, hr, htrue, hfalse⟩ := ih m hrest hfuel hinv hidle
    refine ⟨r, hr, htrue, ?_⟩
    intro hr' x hx
    rcases List.mem_cons.mp hx with rfl | hx
    · exact hinv.acyclic x hdone
    · exact hfalse hr' x hx

/-- **THE SEARCH DECIDES WHETHER THERE IS A CYCLE**, with a unit of fuel for each node. -/
theorem detect_eq_iff {nodes roots : List α} (hsucc : ∀ x ∈ nodes, ∀ y ∈ succ x, y ∈ nodes)
    (hroots : ∀ x ∈ roots, x ∈ nodes) (hall : ∀ x, succ x ≠ [] → x ∈ roots) {fuel : Nat}
    (hfuel : nodes.length ≤ fuel) :
    ∃ r, detect succ fuel roots (fun _ => .unvisited) = some r
      ∧ (r = true ↔ ∃ x, TransGen (Edge succ) x x) := by
  have hinv : Inv succ (fun _ => Mark.unvisited) :=
    ⟨fun x hx => absurd hx (by simp), fun x hx => absurd hx (by simp)⟩
  have hcount : unvisited nodes (fun _ => Mark.unvisited) ≤ nodes.length := List.countP_le_length
  obtain ⟨r, hr, htrue, hfalse⟩ := detect_spec hsucc roots (fun _ => .unvisited) hroots
    (Nat.le_trans hcount hfuel) hinv (fun x => by simp)
  refine ⟨r, hr, htrue, ?_⟩
  intro hcycle
  obtain ⟨x, hx⟩ := hcycle
  cases r with
  | true => rfl
  | false =>
    -- a node on a cycle has a successor, so it was searched
    obtain ⟨y, hxy, _⟩ := TransGen.head'_iff.mp hx
    have hmem : x ∈ roots := hall x (List.ne_nil_of_mem hxy)
    exact absurd hx (hfalse rfl x hmem)

end Answer

/-! ## Adding edges. -/

omit [DecidableEq α] in
/-- New edges out of one node close no cycle if none of their ends leads back
to it. -/
theorem acyclic_of_new_edges {r r' : α → α → Prop} (node : α) (ends : α → Prop)
    (hr : ∀ x, ¬ TransGen r x x) (hnew : ∀ x y, r' x y → r x y ∨ (x = node ∧ ends y))
    (hends : ∀ d, ends d → ¬ ReflTransGen r d node) : ∀ x, ¬ TransGen r' x x := by
  -- a path is an old one, or leads to `node` and goes on from a new end
  have hpath : ∀ x y, TransGen r' x y →
      TransGen r x y ∨ (ReflTransGen r x node ∧ ∃ d, ends d ∧ ReflTransGen r d y) := by
    intro x y h
    induction h with
    | single hxy =>
      rcases hnew _ _ hxy with h | ⟨rfl, hd⟩
      · exact .inl (TransGen.single h)
      · exact .inr ⟨ReflTransGen.refl, _, hd, ReflTransGen.refl⟩
    | tail _ hbc ih =>
    rcases hnew _ _ hbc with h | ⟨rfl, hd⟩
    · rcases ih with ih | ⟨hx, d, hd, hdb⟩
      · exact .inl (ih.tail h)
      · exact .inr ⟨hx, d, hd, hdb.tail h⟩
    · rcases ih with ih | ⟨hx, _⟩
      · exact .inr ⟨ih.to_reflTransGen, _, hd, ReflTransGen.refl⟩
      · exact .inr ⟨hx, _, hd, ReflTransGen.refl⟩
  intro x hx
  rcases hpath x x hx with h | ⟨hxn, d, hd, hdx⟩
  · exact hr x h
  · exact hends d hd (hdx.trans hxn)

end AiScheduler.Lib.Dfs
