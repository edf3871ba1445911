/-
  **TWO READ-MODIFY-WRITE PROGRAMS ON ONE STORE.**

  Each program reads the store at most once and writes it at most once, after
  its read; the calls it makes besides are PRIVATE.  A program is STALE when the
  other has written since it last read.  If no stale program writes, the
  interleaving is SERIALIZABLE (`Race.serializable`).
-/
import AiScheduler.Lib.Prog
import Mathlib.Data.Bool.Basic

namespace AiScheduler.Lib

open Prog Function

variable {S : Sig} {I σ R : Type}

/-! ## One program, step by step. -/

/-- The program after one call under each input, and the store. -/
def Prog.feed (exec : I → (op : S.Op) → σ → S.Ans op × σ) :
    Prog S R → List I → σ → Prog S R × σ
  | p, [], s => (p, s)
  | .ret a, _ :: _, s => (.ret a, s)
  | .call op k, i :: is, s => feed exec (k (exec i op s).1) is (exec i op s).2

section Feed

variable {exec : I → (op : S.Op) → σ → S.Ans op × σ}

@[simp] theorem Prog.feed_nil (p : Prog S R) (s : σ) : p.feed exec [] s = (p, s) := by
  cases p <;> rfl

@[simp] theorem Prog.feed_call (op : S.Op) (k : S.Ans op → Prog S R) (i : I) (is : List I) (s : σ) :
    (call op k).feed exec (i :: is) s = (k (exec i op s).1).feed exec is (exec i op s).2 := rfl

@[simp] theorem Prog.feed_ret (a : R) (is : List I) (s : σ) :
    (ret a : Prog S R).feed exec is s = (.ret a, s) := by
  cases is <;> rfl

theorem Prog.feed_append (p : Prog S R) (is is' : List I) (s : σ) :
    p.feed exec (is ++ is') s = (p.feed exec is s).1.feed exec is' (p.feed exec is s).2 := by
  induction is generalizing p s with
  | nil => simp
  | cons i is ih =>
    cases p with
    | ret a => simp
    | call op k =>
      rw [List.cons_append, feed_call, feed_call]
      exact ih _ _

theorem Prog.feed_bind_ret {α : Type} {p : Prog S α} {f : α → Prog S R} {is : List I} {s s' : σ}
    {r : R} (h : (p >>= f).feed exec is s = (.ret r, s')) :
    ∃ a is₁ is₂ s₁, p.feed exec is₁ s = (.ret a, s₁) ∧ (f a).feed exec is₂ s₁ = (.ret r, s') := by
  induction p generalizing is s with
  | ret a => exact ⟨a, [], is, s, feed_nil _ _, h⟩
  | call op k ih =>
  rw [call_bind] at h
  cases is with
  | nil =>
    rw [feed_nil] at h
    exact absurd (congrArg Prod.fst h) (by simp)
  | cons i is =>
    rw [feed_call] at h
    obtain ⟨a, is₁, is₂, s₁, hp, hf⟩ := ih _ h
    exact ⟨a, i :: is₁, is₂, s₁, hp, hf⟩

theorem Prog.feed_perform_ret {op : S.Op} {is : List I} {s s' : σ} {a : S.Ans op}
    (h : (perform op).feed exec is s = (.ret a, s')) : ∃ i, exec i op s = (a, s') := by
  cases is with
  | nil =>
    rw [feed_nil] at h
    exact absurd (congrArg Prod.fst h) (by simp [perform])
  | cons i is =>
  refine ⟨i, ?_⟩
  have hret : (ret (exec i op s).1 : Prog S (S.Ans op)).feed exec is (exec i op s).2
      = (.ret a, s') := h
  rw [feed_ret] at hret
  injection hret with hans hstore
  injection hans with hans
  rw [← hans, ← hstore]

end Feed

/-! ## Races. -/

/-- Two programs and their store; `stale x`: the other has written since `x`
last read. -/
structure Race (S : Sig) (σ R : Type) where
  threads : Bool → Prog S R
  store : σ
  stale : Bool → Bool

namespace Race

section Steps

variable (exec : I → (op : S.Op) → σ → S.Ans op × σ) (isRead isWrite : S.Op → Bool)

/-- Who is stale after program `x` has made the call `op`. -/
def marks (stale : Bool → Bool) (x : Bool) (op : S.Op) : Bool → Bool :=
  if isWrite op then Function.update stale (!x) true
  else if isRead op then Function.update stale x false
  else stale

/-- Program `x` makes its next call under input `i`. -/
def step (c : Race S σ R) (x : Bool) (i : I) : Race S σ R :=
  match c.threads x with
  | .ret _ => c
  | .call op k =>
    { threads := Function.update c.threads x (k (exec i op c.store).1)
      store := (exec i op c.store).2
      stale := marks isRead isWrite c.stale x op }

/-- The race after these steps. -/
def run (c : Race S σ R) : List (Bool × I) → Race S σ R
  | [] => c
  | (x, i) :: steps => run (c.step exec isRead isWrite x i) steps

/-- Does `x` not overwrite what it has not seen? -/
def upToDate (c : Race S σ R) (x : Bool) : Bool :=
  match c.threads x with
  | .ret _ => true
  | .call op _ => !isWrite op || !c.stale x

/-- **No stale program writes** along these steps. -/
def clean (c : Race S σ R) : List (Bool × I) → Bool
  | [] => true
  | (x, i) :: steps => c.upToDate isWrite x && clean (c.step exec isRead isWrite x i) steps

end Steps

/-- The steps of program `x`, then those of the other. -/
def inOrder (x : Bool) (steps : List (Bool × I)) : List (Bool × I) :=
  steps.filter (fun st => st.1 = x) ++ steps.filter (fun st => st.1 = !x)

/-- The inputs of program `x`. -/
def inputs (x : Bool) (steps : List (Bool × I)) : List I :=
  (steps.filter (fun st => st.1 = x)).map Prod.snd

theorem inputs_append_self (x : Bool) (steps : List (Bool × I)) (i : I) :
    inputs x (steps ++ [(x, i)]) = inputs x steps ++ [i] := by
  simp [inputs, List.filter_append]

theorem inputs_append_of_ne {x y : Bool} (h : x ≠ y) (steps : List (Bool × I)) (i : I) :
    inputs x (steps ++ [(y, i)]) = inputs x steps := by
  simp [inputs, List.filter_append, Ne.symm h]

section Alone

variable {exec : I → (op : S.Op) → σ → S.Ans op × σ} {isRead isWrite : S.Op → Bool}

theorem run_append (c : Race S σ R) (steps steps' : List (Bool × I)) :
    c.run exec isRead isWrite (steps ++ steps')
      = (c.run exec isRead isWrite steps).run exec isRead isWrite steps' := by
  induction steps generalizing c with
  | nil => rfl
  | cons st steps ih => exact ih _

theorem step_of_ret {c : Race S σ R} {x : Bool} {a : R} (hx : c.threads x = .ret a) (i : I) :
    c.step exec isRead isWrite x i = c := by
  unfold step
  rw [hx]

theorem step_of_call {c : Race S σ R} {x : Bool} {op : S.Op} {k : S.Ans op → Prog S R}
    (hx : c.threads x = .call op k) (i : I) :
    c.step exec isRead isWrite x i
      = { threads := update c.threads x (k (exec i op c.store).1)
          store := (exec i op c.store).2
          stale := marks isRead isWrite c.stale x op } := by
  unfold step
  rw [hx]

variable (exec isRead isWrite) in
theorem run_alone (x : Bool) (is : List I) (c : Race S σ R) :
    ∃ stale, c.run exec isRead isWrite (is.map (fun i => (x, i)))
      = ⟨update c.threads x ((c.threads x).feed exec is c.store).1,
          ((c.threads x).feed exec is c.store).2, stale⟩ := by
  induction is generalizing c with
  | nil =>
    refine ⟨c.stale, ?_⟩
    simp [run]
  | cons i is ih =>
  rw [List.map_cons, run]
  cases hx : c.threads x with
  | ret a =>
    rw [step_of_ret hx, feed_ret]
    simpa [hx] using ih c
  | call op k =>
    rw [step_of_call hx, feed_call]
    simpa using ih ⟨update c.threads x (k (exec i op c.store).1), (exec i op c.store).2,
      marks isRead isWrite c.stale x op⟩

theorem filter_eq_map_inputs (y : Bool) (steps : List (Bool × I)) :
    steps.filter (fun st => st.1 = y) = (inputs y steps).map (fun i => (y, i)) := by
  induction steps with
  | nil => rfl
  | cons st steps ih =>
    unfold inputs at ih ⊢
    by_cases hy : st.1 = y
    · rw [List.filter_cons_of_pos (by simpa using hy), List.map_cons, List.map_cons, ← ih, ← hy]
    · rw [List.filter_cons_of_neg (by simpa using hy), ← ih]

variable (exec isRead isWrite) in
theorem run_inOrder (x : Bool) (steps : List (Bool × I)) (c : Race S σ R) :
    (c.run exec isRead isWrite (inOrder x steps)).threads x
        = ((c.threads x).feed exec (inputs x steps) c.store).1
      ∧ (c.run exec isRead isWrite (inOrder x steps)).threads (!x)
        = ((c.threads (!x)).feed exec (inputs (!x) steps)
            ((c.threads x).feed exec (inputs x steps) c.store).2).1
      ∧ (c.run exec isRead isWrite (inOrder x steps)).store
        = ((c.threads (!x)).feed exec (inputs (!x) steps)
            ((c.threads x).feed exec (inputs x steps) c.store).2).2 := by
  obtain ⟨_, hfirst⟩ := run_alone exec isRead isWrite x (inputs x steps) c
  rw [inOrder, run_append, filter_eq_map_inputs x, filter_eq_map_inputs (!x), hfirst]
  obtain ⟨_, hsecond⟩ := run_alone exec isRead isWrite (!x) (inputs (!x) steps) ⟨_, _, _⟩
  rw [hsecond]
  simp

end Alone

/-! ## Read-modify-write programs. -/

/-- Where a program stands: before its read, between read and write, after its
write. -/
inductive Phase where
  | fresh
  | held
  | written
  deriving DecidableEq

/-- At most one read, then at most one write; the other calls are free. -/
def rmw (isRead isWrite : S.Op → Bool) : Protocol S where
  State := Phase
  next q op _ :=
    if isWrite op then (if q = .held then some .written else none)
    else if isRead op then (if q = .fresh then some .held else none)
    else some q

/-- What a read-modify-write program may do next. -/
theorem follows_rmw_call {isRead isWrite : S.Op → Bool} {q : Phase} {op : S.Op}
    {k : S.Ans op → Prog S R}
    (h : Follows (rmw isRead isWrite) (fun _ _ => True) q (.call op k)) (ans : S.Ans op) :
    ∃ q' : Phase, Follows (rmw isRead isWrite) (fun _ _ => True) q' (k ans)
      ∧ (if isWrite op then q = .held ∧ q' = .written
          else if isRead op then q = .fresh ∧ q' = .held else q' = q) := by
  obtain ⟨q', hnext, hk⟩ := h ans trivial
  refine ⟨q', hk, ?_⟩
  have hnext : (if isWrite op then (if q = .held then some .written else none)
    else if isRead op then (if q = .fresh then some .held else none)
    else some q) = some (q' : Phase) := hnext
  grind

/-- Reads keep the store; private calls keep it and do not look at it. -/
structure Lawful (exec : I → (op : S.Op) → σ → S.Ans op × σ) (isRead isWrite : S.Op → Bool) :
    Prop where
  keeps : ∀ i op s, isWrite op = false → (exec i op s).2 = s
  private_ans : ∀ i op s s', isWrite op = false → isRead op = false →
    (exec i op s).1 = (exec i op s').1

/-! ## Serializability. -/

section Serializable

variable (exec : I → (op : S.Op) → σ → S.Ans op × σ) (isRead isWrite : S.Op → Bool)

/-- As if the steps of `x` had come before those of `y`. -/
def Serial (p₀ : Bool → Prog S R) (s₀ : σ) (done : List (Bool × I)) (c : Race S σ R) (x y : Bool) :
    Prop :=
  ∃ mid, (p₀ x).feed exec (inputs x done) s₀ = (c.threads x, mid)
    ∧ (p₀ y).feed exec (inputs y done) mid = (c.threads y, c.store)

/-- The invariant, by the phases of the programs. -/
structure Inv (p₀ : Bool → Prog S R) (s₀ : σ) (done : List (Bool × I)) (c : Race S σ R)
    (phase : Bool → Phase) : Prop where
  follows : ∀ x, Prog.Follows (rmw isRead isWrite) (fun _ _ => True) (phase x) (c.threads x)
  /-- A fresh program has come this far whatever the store. -/
  fresh : ∀ x, phase x = .fresh → ∀ s, (p₀ x).feed exec (inputs x done) s = (c.threads x, s)
  unwritten : (∀ x, phase x ≠ .written) → c.store = s₀
  serial : ∃ x, Serial exec p₀ s₀ done c x (!x)
  /-- A program that may still write may come last. -/
  last : ∀ x, phase x = .fresh ∨ phase x = .held ∧ c.stale x = false →
    Serial exec p₀ s₀ done c (!x) x

variable {exec isRead isWrite} {p₀ : Bool → Prog S R} {s₀ : σ} {done : List (Bool × I)}
  {c : Race S σ R} {phase : Bool → Phase} {x y : Bool} {op : S.Op} {k : S.Ans op → Prog S R} {i : I}

/-- A program that may come this far from any store may come last as well as first. -/
theorem Serial.swap (h : Serial exec p₀ s₀ done c x y)
    (hx : ∀ s, (p₀ x).feed exec (inputs x done) s = (c.threads x, s)) :
    Serial exec p₀ s₀ done c y x := by
  obtain ⟨mid, hfirst, hsecond⟩ := h
  rw [hx] at hfirst
  cases hfirst
  exact ⟨c.store, hsecond, hx _⟩

/-- The program that comes last makes a call. -/
theorem Serial.call_last (h : Serial exec p₀ s₀ done c x y) (hxy : x ≠ y)
    (hy : c.threads y = .call op k) :
    Serial exec p₀ s₀ (done ++ [(y, i)]) (c.step exec isRead isWrite y i) x y := by
  obtain ⟨mid, hfirst, hsecond⟩ := h
  rw [step_of_call hy]
  refine ⟨mid, ?_, ?_⟩
  · simpa [inputs_append_of_ne hxy, update_of_ne hxy] using hfirst
  · rw [inputs_append_self, feed_append, hsecond, hy]
    simp

/-- The program that comes first makes a call that keeps the store and is answered as it would have
been in its place. -/
theorem Serial.call_first (laws : Lawful exec isRead isWrite)
    (h : Serial exec p₀ s₀ done c y x) (hxy : x ≠ y) (hy : c.threads y = .call op k)
    (hw : isWrite op = false)
    (hans : ∀ mid, (p₀ y).feed exec (inputs y done) s₀ = (c.threads y, mid) →
      (exec i op mid).1 = (exec i op c.store).1) :
    Serial exec p₀ s₀ (done ++ [(y, i)]) (c.step exec isRead isWrite y i) y x := by
  obtain ⟨mid, hfirst, hsecond⟩ := h
  rw [step_of_call hy]
  refine ⟨mid, ?_, ?_⟩
  · rw [inputs_append_self, feed_append, hfirst, hy]
    simp [hans mid hfirst, laws.keeps i op mid hw]
  · rw [inputs_append_of_ne hxy, hsecond, laws.keeps i op c.store hw]
    simp [update_of_ne hxy]

/-- A program that has returned makes no more calls. -/
theorem feed_append_of_ret {p : Prog S R} {is : List I} {a : R} {s s' : σ}
    (h : p.feed exec is s = (.ret a, s')) : p.feed exec (is ++ [i]) s = (.ret a, s') := by
  rw [feed_append, h, feed_ret]

theorem Inv.ret (h : Inv exec isRead isWrite p₀ s₀ done c phase) {a : R}
    (hy : c.threads y = .ret a) (i : I) :
    Inv exec isRead isWrite p₀ s₀ (done ++ [(y, i)]) c phase := by
  have hfeed : ∀ {x s s'}, (p₀ x).feed exec (inputs x done) s = (c.threads x, s') →
      (p₀ x).feed exec (inputs x (done ++ [(y, i)])) s = (c.threads x, s') := by
    intro x s s' hx
    by_cases hxy : x = y
    · subst hxy
      rw [hy] at hx ⊢
      rw [inputs_append_self, feed_append_of_ret hx]
    · rw [inputs_append_of_ne hxy, hx]
  have hserial : ∀ {x z}, Serial exec p₀ s₀ done c x z →
      Serial exec p₀ s₀ (done ++ [(y, i)]) c x z := by
    rintro x z ⟨mid, hfirst, hsecond⟩
    exact ⟨mid, hfeed hfirst, hfeed hsecond⟩
  obtain ⟨x, hx⟩ := h.serial
  exact ⟨h.follows, fun x hx s => hfeed (h.fresh x hx s), h.unwritten, ⟨x, hserial hx⟩,
    fun x hx => hserial (h.last x hx)⟩

/-- The invariant after a call of program `y`, from what it says about `y`. -/
theorem Inv.called (h : Inv exec isRead isWrite p₀ s₀ done c phase) (hy : c.threads y = .call op k)
    {ph : Phase}
    (hfollows : Follows (rmw isRead isWrite) (fun _ _ => True) ph (k (exec i op c.store).1))
    (hfresh : ph = .fresh → ∀ s, (call op k).feed exec [i] s = (k (exec i op c.store).1, s)
      ∧ phase y = .fresh)
    (hunwritten : (∀ x, update phase y ph x ≠ .written) → (exec i op c.store).2 = s₀)
    (hserial : ∃ x, Serial exec p₀ s₀ (done ++ [(y, i)]) (c.step exec isRead isWrite y i) x (!x))
    (hself : ph = .fresh ∨ ph = .held ∧ marks isRead isWrite c.stale y op y = false →
      Serial exec p₀ s₀ done c (!y) y)
    (hother : phase (!y) = .fresh ∨ phase (!y) = .held
        ∧ marks isRead isWrite c.stale y op (!y) = false →
      Serial exec p₀ s₀ (done ++ [(y, i)]) (c.step exec isRead isWrite y i) y (!y)) :
    Inv exec isRead isWrite p₀ s₀ (done ++ [(y, i)]) (c.step exec isRead isWrite y i)
      (update phase y ph) := by
  refine ⟨?_, ?_, ?_, hserial, ?_⟩
  · rw [step_of_call hy]
    intro x
    by_cases hx : x = y
    · subst hx
      simpa using hfollows
    · simpa [update_of_ne hx] using h.follows x
  · rw [step_of_call hy]
    intro x hx s
    by_cases hxy : x = y
    · subst hxy
      rw [update_self] at hx
      obtain ⟨hcall, hold⟩ := hfresh hx s
      rw [inputs_append_self, feed_append, h.fresh x hold, hy, hcall]
      simp
    · rw [update_of_ne hxy] at hx
      simpa [inputs_append_of_ne hxy, update_of_ne hxy] using h.fresh x hx s
  · rw [step_of_call hy]
    exact hunwritten
  · intro x hx
    rw [step_of_call hy] at hx
    by_cases hxy : x = y
    · subst hxy
      rw [update_self] at hx
      exact (hself hx).call_last (Bool.not_ne_self x) hy
    · rw [Bool.eq_not_iff.mpr hxy, Bool.not_not]
      rw [Bool.eq_not_iff.mpr hxy, update_of_ne (Bool.not_ne_self y)] at hx
      exact hother hx

/-- **One step** of a clean race keeps the invariant. -/
theorem Inv.step (laws : Lawful exec isRead isWrite)
    (h : Inv exec isRead isWrite p₀ s₀ done c phase) (hup : c.upToDate isWrite y = true) (i : I) :
    ∃ phase', Inv exec isRead isWrite p₀ s₀ (done ++ [(y, i)])
      (c.step exec isRead isWrite y i) phase' := by
  have hny := Bool.not_ne_self y
  cases hy : c.threads y with
  | ret a =>
    rw [step_of_ret hy]
    exact ⟨phase, h.ret hy i⟩
  | call op k =>
  have hfollows := h.follows y
  rw [hy] at hfollows
  obtain ⟨ph, hk, hnext⟩ := follows_rmw_call hfollows (exec i op c.store).1
  -- the program that comes last goes on
  have hlast : Serial exec p₀ s₀ done c (!y) y →
      ∃ x, Serial exec p₀ s₀ (done ++ [(y, i)]) (c.step exec isRead isWrite y i) x (!x) := by
    intro hs
    refine ⟨!y, ?_⟩
    rw [Bool.not_not]
    exact hs.call_last hny hy
  cases hw : isWrite op with
  | true =>
    rw [hw, if_pos rfl] at hnext
    obtain ⟨hheld, rfl⟩ := hnext
    have hstale : c.stale y = false := by
      unfold Race.upToDate at hup
      rw [hy] at hup
      simpa [hw] using hup
    have hs := h.last y (.inr ⟨hheld, hstale⟩)
    refine ⟨_, h.called hy hk (by simp) (fun hno => absurd (update_self y _ _) (hno y)) (hlast hs)
      (fun _ => hs) ?_⟩
    -- the other is stale now; a fresh one may come last all the same
    rintro (hfresh | ⟨_, hseen⟩)
    · refine (hs.call_last hny hy).swap (fun s => ?_)
      rw [step_of_call hy]
      simpa [inputs_append_of_ne hny, update_of_ne hny] using h.fresh _ hfresh s
    · simp [marks, hw] at hseen
  | false =>
  have hkeeps := laws.keeps i op c.store hw
  cases hr : isRead op with
  | true =>
    simp only [hw, hr, Bool.false_eq_true, if_false, if_true] at hnext
    obtain ⟨hfresh, rfl⟩ := hnext
    have hs := h.last y (.inl hfresh)
    -- as long as the other has not written, the read sees the first store
    have hstore : phase (!y) ≠ .written → c.store = s₀ := by
      intro hother
      refine h.unwritten (fun x => ?_)
      by_cases hx : x = y
      · rw [hx, hfresh]
        simp
      · rw [Bool.eq_not_iff.mpr hx]
        exact hother
    refine ⟨_, h.called hy hk (by simp) ?_ (hlast hs) (fun _ => hs) ?_⟩
    · intro hno
      have hother := hno (!y)
      rw [update_of_ne hny] at hother
      rw [hkeeps, hstore hother]
    intro hother
    have hstore := hstore (by rcases hother with h | ⟨h, _⟩ <;> rw [h] <;> simp)
    rw [show marks isRead isWrite c.stale y op (!y) = c.stale (!y) by
      simp [marks, hw, hr]] at hother
    have hserial := h.last (!y) hother
    rw [Bool.not_not] at hserial
    refine hserial.call_first laws hny hy hw (fun mid hmid => ?_)
    rw [h.fresh y hfresh] at hmid
    cases hmid
    rw [hstore]
  | false =>
    simp only [hw, hr, Bool.false_eq_true, if_false] at hnext
    subst hnext
    have hmarks : marks isRead isWrite c.stale y op = c.stale := by simp [marks, hw, hr]
    have hans := fun s s' => laws.private_ans i op s s' hw hr
    -- a private call may be made at any time
    have hfirst : Serial exec p₀ s₀ done c y (!y) →
        Serial exec p₀ s₀ (done ++ [(y, i)]) (c.step exec isRead isWrite y i) y (!y) :=
      fun hs => hs.call_first laws hny hy hw (fun _ _ => hans _ _)
    refine ⟨_, h.called hy hk ?_ ?_ ?_ ?_ ?_⟩
    · intro hfresh s
      rw [feed_call, feed_nil, hans s c.store, laws.keeps i op s hw]
      exact ⟨rfl, hfresh⟩
    · intro hno
      rw [update_eq_self] at hno
      rw [hkeeps, h.unwritten hno]
    · obtain ⟨x, hx⟩ := h.serial
      by_cases hxy : x = y
      · subst hxy
        exact ⟨x, hfirst hx⟩
      · rw [Bool.eq_not_iff.mpr hxy, Bool.not_not] at hx
        exact hlast hx
    · rw [hmarks]
      exact h.last y
    · rw [hmarks]
      intro hother
      have hs := h.last (!y) hother
      rw [Bool.not_not] at hs
      exact hfirst hs

/-- **A clean run** keeps the invariant. -/
theorem Inv.run (laws : Lawful exec isRead isWrite) (steps : List (Bool × I)) :
    ∀ {done : List (Bool × I)} {c : Race S σ R} {phase : Bool → Phase},
      Inv exec isRead isWrite p₀ s₀ done c phase → c.clean exec isRead isWrite steps = true →
      ∃ phase', Inv exec isRead isWrite p₀ s₀ (done ++ steps)
        (c.run exec isRead isWrite steps) phase' := by
  induction steps with
  | nil =>
    intro done c phase h _
    rw [List.append_nil]
    exact ⟨phase, h⟩
  | cons st steps ih =>
  intro done c phase h hclean
  obtain ⟨y, i⟩ := st
  simp only [clean, Bool.and_eq_true] at hclean
  obtain ⟨phase₁, h₁⟩ := h.step laws hclean.1 i
  obtain ⟨phase', h'⟩ := ih h₁ hclean.2
  refine ⟨phase', ?_⟩
  rw [List.append_assoc] at h'
  exact h'

/-- **CLEAN RACES ARE SERIALIZABLE**: if no stale program writes, one program's steps before the
other's give the same store and leave both programs at the same place. -/
theorem serializable (laws : Lawful exec isRead isWrite) (c : Race S σ R)
    (hprog : ∀ x, Follows (rmw isRead isWrite) (fun _ _ => True) .fresh (c.threads x))
    (steps : List (Bool × I)) (hclean : c.clean exec isRead isWrite steps = true) :
    ∃ x, (c.run exec isRead isWrite steps).store
          = (c.run exec isRead isWrite (inOrder x steps)).store
      ∧ (c.run exec isRead isWrite steps).threads
          = (c.run exec isRead isWrite (inOrder x steps)).threads := by
  have hnil : ∀ x y, Serial exec c.threads c.store [] c x y :=
    fun _ _ => ⟨c.store, feed_nil _ _, feed_nil _ _⟩
  have hinit : Inv exec isRead isWrite c.threads c.store [] c (fun _ => .fresh) :=
    ⟨hprog, fun _ _ _ => feed_nil _ _, fun _ => rfl, ⟨true, hnil _ _⟩, fun _ _ => hnil _ _⟩
  obtain ⟨_, hinv⟩ := hinit.run laws steps hclean
  obtain ⟨x, mid, hfirst, hsecond⟩ := hinv.serial
  rw [List.nil_append] at hfirst hsecond
  obtain ⟨hthread, hthread', hstore⟩ := run_inOrder exec isRead isWrite x steps c
  rw [hfirst] at hthread hthread' hstore
  rw [hsecond] at hthread' hstore
  refine ⟨x, hstore.symm, funext fun y => ?_⟩
  by_cases hy : y = x
  · rw [hy, hthread]
  · rw [Bool.eq_not_iff.mpr hy, hthread']

end Serializable

end Race

end AiScheduler.Lib
