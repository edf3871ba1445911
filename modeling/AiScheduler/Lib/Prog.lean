/-
  **PROGRAMS THAT CALL THEIR ENVIRONMENT, one answer at a time.**

  A `Prog S α` returns a value or makes ONE call and continues with the answer.  `Prog.Calls φ p`:
  every call satisfies `φ`.  `Prog.Follows P post q p`: from state `q` of the call protocol `P`,
  every call is allowed, whatever answers `P` admits, and `p` returns only where `post` holds.
  `Prog.Leads` is the triple.  A protocol state is the GHOST POSITION of a program: what it has been
  told and what it still owes.
-/
import Mathlib.Logic.Function.Basic

namespace AiScheduler.Lib

/-! ## Signatures and programs. -/

/-- A call signature: the calls, and the type of the answer to each. -/
structure Sig where
  Op : Type
  Ans : Op → Type

/-- A program over `S` that returns an `α`. -/
inductive Prog (S : Sig) (α : Type) : Type where
  | ret (a : α) : Prog S α
  | call (op : S.Op) (k : S.Ans op → Prog S α) : Prog S α

namespace Prog

variable {S : Sig} {α β γ : Type}

def bind : Prog S α → (α → Prog S β) → Prog S β
  | ret a, f => f a
  | call op k, f => call op (fun ans => bind (k ans) f)

/-- Make one call and return its answer. -/
def perform (op : S.Op) : Prog S (S.Ans op) := call op ret

instance : Monad (Prog S) where
  pure := ret
  bind := bind

@[simp] theorem pure_eq (a : α) : (pure a : Prog S α) = ret a := rfl

@[simp] theorem ret_bind (a : α) (f : α → Prog S β) : (ret a >>= f) = f a := rfl

@[simp] theorem call_bind (op : S.Op) (k : S.Ans op → Prog S α) (f : α → Prog S β) :
    (call op k >>= f) = call op (fun ans => k ans >>= f) := rfl

@[simp] theorem perform_bind (op : S.Op) (f : S.Ans op → Prog S β) :
    (perform op >>= f) = call op f := rfl

theorem bind_assoc (p : Prog S α) (f : α → Prog S β) (g : β → Prog S γ) :
    ((p >>= f) >>= g) = (p >>= fun a => f a >>= g) := by
  induction p with
  | ret a => rfl
  | call op k ih =>
    simp only [call_bind]
    congr 1
    funext ans
    exact ih ans

theorem bind_ret (p : Prog S α) : (p >>= ret) = p := by
  induction p with
  | ret a => rfl
  | call op k ih =>
    simp only [call_bind]
    congr 1
    funext ans
    exact ih ans

/-! ## Which calls a program can make. -/

/-- Every call `p` can make, on any answers, satisfies `φ`. -/
def Calls (φ : S.Op → Prop) : Prog S α → Prop
  | ret _ => True
  | call op k => φ op ∧ ∀ ans, Calls φ (k ans)

@[simp] theorem calls_ret (φ : S.Op → Prop) (a : α) : Calls φ (ret a : Prog S α) := trivial

@[simp] theorem calls_call (φ : S.Op → Prop) (op : S.Op) (k : S.Ans op → Prog S α) :
    Calls φ (call op k) ↔ φ op ∧ ∀ ans, Calls φ (k ans) := Iff.rfl

theorem calls_bind {φ : S.Op → Prop} {p : Prog S α} {f : α → Prog S β}
    (hp : Calls φ p) (hf : ∀ a, Calls φ (f a)) : Calls φ (p >>= f) := by
  induction p with
  | ret a => exact hf a
  | call op k ih => exact ⟨hp.1, fun ans => ih ans (hp.2 ans)⟩

theorem calls_perform_bind {φ : S.Op → Prop} {op : S.Op} {f : S.Ans op → Prog S β}
    (hop : φ op) (hf : ∀ ans, Calls φ (f ans)) : Calls φ (perform op >>= f) :=
  ⟨hop, hf⟩

theorem Calls.mono {φ ψ : S.Op → Prop} (h : ∀ op, φ op → ψ op) {p : Prog S α}
    (hp : Calls φ p) : Calls ψ p := by
  induction p with
  | ret a => trivial
  | call op k ih => exact ⟨h op hp.1, fun ans => ih ans (hp.2 ans)⟩

/-- On some answers `p` makes the call `op`. -/
def Makes (op : S.Op) : Prog S α → Prop
  | ret _ => False
  | call op' k => op = op' ∨ ∃ ans, Makes op (k ans)

/-- On some answers `p` returns `a`. -/
def Returns (a : α) : Prog S α → Prop
  | ret a' => a = a'
  | call _ k => ∃ ans, Returns a (k ans)

theorem Calls.of_makes {φ : S.Op → Prop} {p : Prog S α} (hp : Calls φ p) {op : S.Op}
    (hop : Makes op p) : φ op := by
  induction p with
  | ret a => exact hop.elim
  | call op' k ih =>
    rcases hop with rfl | ⟨ans, hk⟩
    · exact hp.1
    · exact ih ans (hp.2 ans) hk

theorem makes_bind {op : S.Op} {p : Prog S α} {f : α → Prog S β} {a : α} (hp : Returns a p)
    (hf : Makes op (f a)) : Makes op (p >>= f) := by
  induction p with
  | ret a' =>
    have ha : a = a' := hp
    subst ha
    exact hf
  | call op' k ih =>
    obtain ⟨ans, hk⟩ := hp
    exact Or.inr ⟨ans, ih ans hk⟩

end Prog

/-! ## Call protocols. -/

/-- A call protocol: in state `q` the call `op` answered by `ans` leads to `next q op ans`; it is
NOT ALLOWED where that is `none`, and only the answers `admits q op` count. -/
structure Protocol (S : Sig) where
  State : Type
  next : State → (op : S.Op) → S.Ans op → Option State
  admits : State → (op : S.Op) → S.Ans op → Prop := fun _ _ _ => True

namespace Prog

variable {S : Sig} {α β : Type} {P : Protocol S}

/-- From `q`, the program makes only allowed calls, on EVERY admitted answer, and returns as `post`
says. -/
def Follows (P : Protocol S) (post : P.State → α → Prop) : P.State → Prog S α → Prop
  | q, ret a => post q a
  | q, call op k =>
    ∀ ans, P.admits q op ans → ∃ q', P.next q op ans = some q' ∧ Follows P post q' (k ans)

@[simp] theorem follows_ret (post : P.State → α → Prop) (q : P.State) (a : α) :
    Follows P post q (ret a) ↔ post q a := Iff.rfl

section

variable {post : P.State → β → Prop} {q : P.State} {op : S.Op} {f : S.Ans op → Prog S β}

/-- A call whose successor state is known for each admitted answer. -/
theorem follows_perform_admitted (δ : S.Ans op → P.State)
    (hδ : ∀ ans, P.admits q op ans → P.next q op ans = some (δ ans))
    (hf : ∀ ans, P.admits q op ans → Follows P post (δ ans) (f ans)) :
    Follows P post q (perform op >>= f) :=
  fun ans hans => ⟨δ ans, hδ ans hans, hf ans hans⟩

/-- … for each answer. -/
theorem follows_perform (δ : S.Ans op → P.State)
    (hδ : ∀ ans, P.next q op ans = some (δ ans))
    (hf : ∀ ans, Follows P post (δ ans) (f ans)) : Follows P post q (perform op >>= f) :=
  follows_perform_admitted δ (fun ans _ => hδ ans) (fun ans _ => hf ans)

theorem follows_perform_idle (hq : ∀ ans, P.next q op ans = some q)
    (hf : ∀ ans, Follows P post q (f ans)) : Follows P post q (perform op >>= f) :=
  follows_perform (fun _ => q) hq hf

end

/-- **Sequencing**: the first part hands over in a state the second starts from. -/
theorem follows_bind {post : P.State → β → Prop} {q : P.State} {p : Prog S α} {f : α → Prog S β}
    (h : Follows P (fun q' a => Follows P post q' (f a)) q p) :
    Follows P post q (p >>= f) := by
  induction p generalizing q with
  | ret a => exact h
  | call op k ih =>
    intro ans hans
    obtain ⟨q', hq', hk⟩ := h ans hans
    exact ⟨q', hq', ih ans hk⟩

theorem Follows.mono {post post' : P.State → α → Prop}
    (hpost : ∀ q a, post q a → post' q a) {q : P.State} {p : Prog S α}
    (h : Follows P post q p) : Follows P post' q p := by
  induction p generalizing q with
  | ret a => exact hpost q a h
  | call op k ih =>
    intro ans hans
    obtain ⟨q', hq', hk⟩ := h ans hans
    exact ⟨q', hq', ih ans hk⟩

/-- A program that only makes calls which leave `q` alone stays in `q`. -/
theorem follows_of_calls {φ : S.Op → Prop} {q : P.State} {p : Prog S α}
    (hφ : ∀ op, φ op → ∀ ans, P.next q op ans = some q) (hp : Calls φ p) :
    Follows P (fun q' _ => q' = q) q p := by
  induction p with
  | ret a => rfl
  | call op k ih => exact fun ans _ => ⟨q, hφ op hp.1 ans, ih ans (hp.2 ans)⟩

theorem follows_bind_idle {φ : S.Op → Prop} {post : P.State → β → Prop} {q : P.State}
    {p : Prog S α} {f : α → Prog S β}
    (hφ : ∀ op, φ op → ∀ ans, P.next q op ans = some q) (hp : Calls φ p)
    (hf : ∀ a, Follows P post q (f a)) : Follows P post q (p >>= f) := by
  apply follows_bind
  refine (follows_of_calls hφ hp).mono ?_
  intro q' a hq'
  subst hq'
  exact hf a

/-! ## Triples. -/

/-- **From states with `A` the program leads to states and values with `B`.** -/
def Leads (P : Protocol S) (A : P.State → Prop) (p : Prog S α) (B : P.State → α → Prop) : Prop :=
  ∀ q, A q → Follows P B q p

/-- … and where it started. -/
abbrev Stays (P : Protocol S) (A : P.State → Prop) (p : Prog S α) : Prop :=
  Leads P A p (fun q _ => A q)

variable {A : P.State → Prop}

theorem leads_bind {B : P.State → α → Prop} {C : P.State → β → Prop} {p : Prog S α}
    {f : α → Prog S β} (hp : Leads P A p B) (hf : ∀ a, Leads P (fun q => B q a) (f a) C) :
    Leads P A (p >>= f) C := by
  intro q hq
  apply follows_bind
  refine (hp q hq).mono ?_
  intro q' a h
  exact hf a q' h

/-- The consequence rule. -/
theorem Leads.mono {A' : P.State → Prop} {B B' : P.State → α → Prop} {p : Prog S α}
    (h : Leads P A p B) (hA : ∀ q, A' q → A q) (hB : ∀ q a, B q a → B' q a) :
    Leads P A' p B' := by
  intro q hq
  exact (h q (hA q hq)).mono hB

end Prog

/-- Each of the calls keeps the assertion. -/
def Protocol.Keeps {S : Sig} (P : Protocol S) (A : P.State → Prop) (φ : S.Op → Prop) : Prop :=
  ∀ op, φ op → Prog.Stays P A (Prog.perform op)

/-- … and so does a program that makes no others. -/
theorem Protocol.Keeps.leads {S : Sig} {P : Protocol S} {A : P.State → Prop} {φ : S.Op → Prop}
    {α : Type} (h : P.Keeps A φ) {p : Prog S α} (hp : Prog.Calls φ p) :
    Prog.Stays P A p := by
  induction p with
  | ret a => exact fun q hq => hq
  | call op k ih =>
    intro q hq ans hans
    obtain ⟨q', hnext, hq'⟩ := h op hp.1 q hq ans hans
    exact ⟨q', hnext, ih ans (hp.2 ans) q' hq'⟩

theorem Protocol.keeps_of_idle {S : Sig} {P : Protocol S} {φ : S.Op → Prop}
    (h : ∀ q op, φ op → ∀ ans, P.next q op ans = some q) (A : P.State → Prop) : P.Keeps A φ :=
  fun op hop q hq ans _ => ⟨q, h q op hop ans, hq⟩

theorem Protocol.keeps_eq {S : Sig} {P : Protocol S} {φ : S.Op → Prop} {q : P.State}
    (h : ∀ op, φ op → ∀ ans, P.next q op ans = some q) : P.Keeps (fun q' => q' = q) φ := by
  rintro op hop q' rfl ans _
  exact ⟨q', h op hop ans, rfl⟩

/-- One assertion about an error, one about a value. -/
def Either {ε α σ : Type} (E : ε → σ → Prop) (V : α → σ → Prop) (q : σ) : Except ε α → Prop
  | .error e => E e q
  | .ok a => V a q

theorem Either.same {ε α σ : Type} {A : σ → Prop} {q : σ} (h : A q) (r : Except ε α) :
    Either (fun _ => A) (fun _ => A) q r := by
  cases r with
  | error e | ok a => exact h

end AiScheduler.Lib
