/-
  **BEING INSIDE A PART OF A PROGRAM.**

  A program is made of plain calls and of whole PARTS (`Parted`).  Between two of its calls it is
  inside a part when the part is begun and not finished (`Inside`).

  Main results:
    * `Placed.answered` — a program that follows a protocol is, after each answer, between its parts
      in an idle state or inside one of them.
    * `Placed.idle_of_not_inside` — outside its parts it is idle.
-/
import AiScheduler.Lib.Prog

namespace AiScheduler.Lib.Prog

variable {S : Sig} {α β γ : Type} {P : Protocol S}

/-- What is left of a program after one or more calls were answered. -/
inductive Left : Prog S α → Prog S α → Prop where
  | answered (op : S.Op) (k : S.Ans op → Prog S α) (ans : S.Ans op) : Left (call op k) (k ans)
  | more {p : Prog S α} {op : S.Op} {k : S.Ans op → Prog S α} (h : Left p (call op k))
      (ans : S.Ans op) : Left p (k ans)

/-- The program is inside a part: it has begun one and has a call of it before it. -/
def Inside (part : (α : Type) → Prog S α → Prop) (p : Prog S β) : Prop :=
  ∃ (α : Type) (q : Prog S α) (op : S.Op) (k : S.Ans op → Prog S α) (f : α → Prog S β),
    part α q ∧ Left q (call op k) ∧ p = (call op k >>= f)

/-- A program of plain calls, which satisfy `φ`, and whole parts. -/
inductive Parted (part : (α : Type) → Prog S α → Prop) (φ : S.Op → Prop) : Prog S β → Prop where
  | ret (b : β) : Parted part φ (ret b)
  | call {op : S.Op} {k : S.Ans op → Prog S β} (hop : φ op) (hk : ∀ ans, Parted part φ (k ans)) :
      Parted part φ (call op k)
  | part {α : Type} {q : Prog S α} {f : α → Prog S β} (hq : part α q)
      (hf : ∀ a, Parted part φ (f a)) : Parted part φ (q >>= f)

section Parted

variable {part : (α : Type) → Prog S α → Prop} {φ : S.Op → Prop}

theorem Parted.of_calls {p : Prog S β} (h : Calls φ p) : Parted part φ p := by
  induction p with
  | ret b => exact .ret b
  | call op k ih => exact .call h.1 (fun ans => ih ans (h.2 ans))

theorem Parted.bind {p : Prog S α} {f : α → Prog S β} (hp : Parted part φ p)
    (hf : ∀ a, Parted part φ (f a)) : Parted part φ (p >>= f) := by
  induction hp with
  | ret a => exact hf a
  | call hop _ ih => exact .call hop ih
  | part hq _ ih =>
    rw [bind_assoc]
    exact .part hq ih

/-- A plain call, then the rest. -/
theorem Parted.perform_bind {op : S.Op} {f : S.Ans op → Prog S β} (hop : φ op)
    (hf : ∀ ans, Parted part φ (f ans)) : Parted part φ (perform op >>= f) :=
  .call hop hf

theorem Parted.of_part {p : Prog S β} (h : part β p) : Parted part φ p := by
  have hp := Parted.part (φ := φ) (f := Prog.ret) h .ret
  rwa [bind_ret] at hp

/-- A call before a program inside a part is one of the part's. -/
theorem Inside.makes {op : S.Op} {k : S.Ans op → Prog S β} (h : Inside part (.call op k)) :
    ∃ (α : Type) (q : Prog S α), part α q ∧ Makes op q := by
  obtain ⟨α, q, op', k', f, hq, hleft, heq⟩ := h
  obtain rfl : op = op' := by
    rw [call_bind] at heq
    exact (call.inj heq).1
  have hmakes : ∀ {p r : Prog S α}, Left p r → Makes op r → Makes op p := by
    intro p r hleft
    induction hleft with
    | answered _ _ ans => exact fun h => .inr ⟨ans, h⟩
    | more _ ans ih => exact fun h => ih (.inr ⟨ans, h⟩)
  exact ⟨α, q, hq, hmakes hleft (.inl rfl)⟩

end Parted

/-! ## Programs that follow a protocol. -/

section Placed

variable {part : (α : Type) → Prog S α → Prop} {φ : S.Op → Prop} {idle : P.State → Prop}

/-- The program is between its parts, in an idle state, or inside one that ends in an idle state. -/
def Placed (P : Protocol S) (idle : P.State → Prop) (part : (α : Type) → Prog S α → Prop)
    (φ : S.Op → Prop) (q : P.State) (p : Prog S β) : Prop :=
  (idle q ∧ Parted part φ p)
    ∨ ∃ (α : Type) (s r : Prog S α) (f : α → Prog S β), part α s ∧ Left s r
        ∧ Follows P (fun q' _ => idle q') q r ∧ (∀ a, Parted part φ (f a)) ∧ p = (r >>= f)

variable (hφ : ∀ q op, idle q → φ op → ∀ ans, P.next q op ans = some q)
  (hpart : ∀ (α : Type) (p : Prog S α), part α p → Stays P idle p)

include hφ hpart

/-- A program of plain calls and parts follows the protocol from idle to idle. -/
theorem Parted.stays {p : Prog S β} (h : Parted part φ p) : Stays P idle p := by
  induction h with
  | ret b => exact fun _ hq => hq
  | call hop _ ih => exact fun q hq ans _ => ⟨q, hφ q _ hq hop ans, ih ans q hq⟩
  | part hs _ ih => exact leads_bind (hpart _ _ hs) ih

/-- **The step**: an admitted answer leaves the program placed. -/
theorem Placed.answered {q q' : P.State} {op : S.Op} {k : S.Ans op → Prog S β} {ans : S.Ans op}
    (h : Placed P idle part φ q (.call op k)) (hans : P.admits q op ans)
    (hq' : P.next q op ans = some q') : Placed P idle part φ q' (k ans) := by
  -- from a place between the parts the call is a plain one or the first of a part
  have hbetween : ∀ p : Prog S β, Parted part φ p → idle q → p = .call op k →
      Placed P idle part φ q' (k ans) := by
    intro p hp hq
    induction hp with
    | ret b => exact fun h => absurd h (by simp)
    | call hop hk _ =>
      intro heq
      obtain ⟨rfl, heq⟩ := call.inj heq
      obtain rfl := eq_of_heq heq
      rw [hφ q _ hq hop ans] at hq'
      cases hq'
      exact .inl ⟨hq, hk ans⟩
    | @part α s f hs hf ih =>
      intro heq
      cases s with
      | ret a => exact ih a heq
      | call op' k' =>
        rw [call_bind] at heq
        obtain ⟨rfl, heq⟩ := call.inj heq
        obtain rfl := eq_of_heq heq
        obtain ⟨q'', hnext, hrest⟩ := hpart _ _ hs q hq ans hans
        rw [hq'] at hnext
        cases hnext
        exact .inr ⟨α, _, k' ans, f, hs, .answered op' k' ans, hrest, hf, rfl⟩
  rcases h with ⟨hq, hp⟩ | ⟨α, s, r, f, hs, hleft, hfollows, hf, heq⟩
  · exact hbetween _ hp hq rfl
  cases r with
  | ret a => exact hbetween (f a) (hf a) hfollows heq.symm
  | call op' k' =>
    rw [call_bind] at heq
    obtain ⟨rfl, heq⟩ := call.inj heq
    obtain rfl := eq_of_heq heq
    obtain ⟨q'', hnext, hrest⟩ := hfollows ans hans
    rw [hq'] at hnext
    cases hnext
    exact .inr ⟨α, s, k' ans, f, hs, hleft.more ans, hrest, hf, rfl⟩

omit hφ hpart

/-- **Outside its parts a program is idle.** -/
theorem Placed.idle_of_not_inside {q : P.State} {p : Prog S β} (h : Placed P idle part φ q p)
    (hnot : ¬ Inside part p) : idle q := by
  rcases h with ⟨hq, _⟩ | ⟨α, s, r, f, hs, hleft, hfollows, _, rfl⟩
  · exact hq
  cases r with
  | ret a => exact hfollows
  | call op k => exact absurd ⟨α, s, op, k, f, hs, hleft, rfl⟩ hnot

end Placed

end AiScheduler.Lib.Prog
