/-
  **WEAKEST PRECONDITIONS of programs run alone.**

  `Prog.wp h p post s`: run from `s`, every call executed by `h`, the program `p` returns with a
  value and in a state that satisfy `post`.  `wp_of_calls` passes over a part that only makes calls
  which keep an invariant.

  The `post` of `Prog.wpLog h p post s` also speaks of the calls the run made and their answers.
-/
import AiScheduler.Lib.Pool

namespace AiScheduler.Lib.Prog

variable {S : Sig} {α β σ : Type} {h : (op : S.Op) → σ → S.Ans op × σ}

/-- The weakest precondition of `p` for `post`. -/
def wp (h : (op : S.Op) → σ → S.Ans op × σ) (p : Prog S α) (post : α → σ → Prop) (s : σ) : Prop :=
  post (run h p s).1 (run h p s).2

@[simp] theorem wp_ret (a : α) (post : α → σ → Prop) (s : σ) :
    wp h (ret a : Prog S α) post s ↔ post a s := Iff.rfl

theorem wp_bind (p : Prog S α) (f : α → Prog S β) (post : β → σ → Prop) (s : σ) :
    wp h (p >>= f) post s ↔ wp h p (fun a s' => wp h (f a) post s') s := by
  unfold wp
  rw [run_bind]

theorem wp_perform_bind (op : S.Op) (f : S.Ans op → Prog S β) (post : β → σ → Prop) (s : σ) :
    wp h (perform op >>= f) post s ↔ wp h (f (h op s).1) post (h op s).2 := Iff.rfl

theorem wp.mono {p : Prog S α} {post post' : α → σ → Prop} {s : σ} (hp : wp h p post s)
    (himp : ∀ a s', post a s' → post' a s') : wp h p post' s :=
  himp _ _ hp

/-- **The invariant rule**: a program whose calls all keep `Inv` keeps it. -/
theorem wp_of_calls {φ : S.Op → Prop} {Inv : σ → Prop}
    (hφ : ∀ op, φ op → ∀ s, Inv s → Inv (h op s).2) {p : Prog S α} (hp : Calls φ p) {s : σ}
    (hs : Inv s) : wp h p (fun _ s' => Inv s') s := by
  induction p generalizing s with
  | ret a => exact hs
  | call op k ih => exact ih (h op s).1 (hp.2 _) (hφ op hp.1 s hs)

/-- A first part that keeps an invariant, in front of a program that needs it. -/
theorem wp_bind_of_calls {φ : S.Op → Prop} {Inv : σ → Prop}
    (hφ : ∀ op, φ op → ∀ s, Inv s → Inv (h op s).2) {p : Prog S α} (hp : Calls φ p)
    {f : α → Prog S β} {post : β → σ → Prop} {s : σ} (hs : Inv s)
    (hf : ∀ a s', Inv s' → wp h (f a) post s') : wp h (p >>= f) post s := by
  rw [wp_bind]
  exact (wp_of_calls hφ hp hs).mono hf

/-- Run from any state that satisfies `Inv`, `p` ends in one. -/
def Keeps (h : (op : S.Op) → σ → S.Ans op × σ) (Inv : σ → Prop) (p : Prog S α) : Prop :=
  ∀ s, Inv s → wp h p (fun _ s' => Inv s') s

theorem keeps_of_calls {φ : S.Op → Prop} {Inv : σ → Prop}
    (hφ : ∀ op, φ op → ∀ s, Inv s → Inv (h op s).2) {p : Prog S α} (hp : Calls φ p) :
    Keeps h Inv p :=
  fun _ hs => wp_of_calls hφ hp hs

/-! ## As a protocol. -/

/-- The protocol of a program run alone: its positions are the states, and a
call is answered by `h`. -/
abbrev alone (h : (op : S.Op) → σ → S.Ans op × σ) : Protocol S where
  State := σ
  next s op _ := some (h op s).2
  admits s op ans := ans = (h op s).1

theorem follows_alone {post : σ → α → Prop} {p : Prog S α} {s : σ} :
    Follows (alone h) post s p ↔ wp h p (fun a s' => post s' a) s := by
  induction p generalizing s with
  | ret a => exact Iff.rfl
  | call op k ih =>
  refine Iff.trans ?_ (ih (h op s).1)
  constructor
  · intro hp
    obtain ⟨s', hs', hk⟩ := hp (h op s).1 rfl
    cases hs'
    exact hk
  · rintro hk ans rfl
    exact ⟨_, rfl, hk⟩

/-- … of a run in which every answer is good: its positions are the calls so far
and the state. -/
abbrev logged (good : Event S → Prop) (h : (op : S.Op) → σ → S.Ans op × σ) : Protocol S where
  State := List (Event S) × σ
  next q op ans := some (q.1 ++ [⟨op, ans⟩], (h op q.2).2)
  admits q op ans := ans = (h op q.2).1 ∧ good ⟨op, ans⟩

theorem leads_logged {good : Event S → Prop} {A : List (Event S) × σ → Prop} {op : S.Op}
    {B : List (Event S) × σ → S.Ans op → Prop}
    (hop : ∀ q ans, A q → ans = (h op q.2).1 → good ⟨op, ans⟩ →
      B (q.1 ++ [⟨op, ans⟩], (h op q.2).2) ans) : Leads (logged good h) A (perform op) B :=
  fun q hq ans hans => ⟨_, rfl, hop q ans hq hans.1 hans.2⟩

/-- What a run that follows the protocol ends with. -/
theorem of_follows_logged {good : Event S → Prop} {post : List (Event S) × σ → α → Prop}
    {p : Prog S α} {log : List (Event S)} {s : σ}
    (hp : Follows (logged good h) post (log, s) p) (hgood : ∀ e ∈ events h p s, good e) :
    post (log ++ events h p s, (run h p s).2) (run h p s).1 := by
  induction p generalizing log s with
  | ret a =>
    rw [events_ret, List.append_nil]
    exact hp
  | call op k ih =>
    rw [events_call, List.forall_mem_cons] at hgood
    obtain ⟨q, hq, hk⟩ := hp (h op s).1 ⟨rfl, hgood.1⟩
    cases hq
    rw [events_call, run_call, List.append_cons]
    exact ih _ hk hgood.2

/-! ## With the calls of the run. -/

section Log

variable {p : Prog S α} {post : α → List (Event S) → σ → Prop} {s : σ}

/-- The weakest precondition of `p` for a `post` about value, calls and state. -/
def wpLog (h : (op : S.Op) → σ → S.Ans op × σ) (p : Prog S α)
    (post : α → List (Event S) → σ → Prop) (s : σ) : Prop :=
  post (run h p s).1 (events h p s) (run h p s).2

@[simp] theorem wpLog_ret (a : α) (post : α → List (Event S) → σ → Prop) (s : σ) :
    wpLog h (ret a : Prog S α) post s ↔ post a [] s := Iff.rfl

@[simp] theorem wpLog_pure (a : α) (post : α → List (Event S) → σ → Prop) (s : σ) :
    wpLog h (pure a : Prog S α) post s ↔ post a [] s := Iff.rfl

theorem wpLog_bind (p : Prog S α) (f : α → Prog S β) (post : β → List (Event S) → σ → Prop)
    (s : σ) :
    wpLog h (p >>= f) post s
      ↔ wpLog h p (fun a log s' => wpLog h (f a) (fun b log' => post b (log ++ log')) s') s := by
  unfold wpLog
  rw [run_bind, events_bind]

theorem wpLog.mono {post' : α → List (Event S) → σ → Prop} (hp : wpLog h p post s)
    (himp : ∀ a log s', post a log s' → post' a log s') : wpLog h p post' s :=
  himp _ _ _ hp

/-- **The invariant rule**, and which calls there were. -/
theorem wpLog_of_calls {φ : S.Op → Prop} {I : σ → Prop}
    (hφ : ∀ op, φ op → ∀ s, I s → I (h op s).2) (hp : Calls φ p) (hs : I s) :
    wpLog h p (fun _ log s' => I s' ∧ ∀ e ∈ log, φ e.1) s :=
  ⟨wp_of_calls hφ hp hs, fun _ he => hp.of_mem_events h he⟩

/-- A counter that every call moves by one counts the calls. -/
theorem wpLog_counted {h : (op : S.Op) → σ × Nat → S.Ans op × (σ × Nat)}
    (hh : ∀ op x, (h op x).2.2 = x.2 + 1) {p : Prog S α}
    {post : α → List (Event S) → σ × Nat → Prop} {x : σ × Nat} (hp : wpLog h p post x) :
    wpLog h p (fun a log y => post a log y ∧ y.2 = x.2 + log.length) x := by
  refine ⟨hp, ?_⟩
  clear hp
  induction p generalizing x with
  | ret a => rfl
  | call op k ih =>
    rw [run_call, events_call, List.length_cons, ih, hh]
    omega

end Log

end AiScheduler.Lib.Prog
