/-
  **RELY AND GUARANTEE.**

  Each job makes only calls that `G` allows, as long as the answers are such as `A` says.  If
  `G`'s calls keep an invariant and the invariant implies `A`, it holds all along a run.
-/
import AiScheduler.Lib.Pool

namespace AiScheduler.Lib

open Prog

variable {S : Sig} {W I J R : Type} {A : (op : S.Op) → S.Ans op → Prop} {G : S.Op → Prop}

open Classical in
/-- The protocol without states: what is guaranteed, given what is relied on. -/
noncomputable def relying (A : (op : S.Op) → S.Ans op → Prop) (G : S.Op → Prop) : Protocol S where
  State := Unit
  next _ op _ := if G op then some () else none
  admits _ := A

theorem leads_relying {op : S.Op} {Q : (relying A G).State → Prop}
    {B : (relying A G).State → S.Ans op → Prop} (hG : ∀ q, Q q → G op)
    (hB : ∀ ans q, Q q → A op ans → B q ans) : Leads (relying A G) Q (perform op) B := by
  intro q hq ans hans
  exact ⟨q, if_pos (hG q hq), hB ans q hq hans⟩

/-- **The rule.** -/
theorem Reaches.relies {exec : I → (op : S.Op) → W → S.Ans op × W} {body : J → Prog S R}
    {ok : Config S W J R → Label I J → Prop} {w : W} {c : Config S W J R} (Inv : W → Prop)
    (hbody : ∀ c j, ok c (.spawn j) → Follows (relying A G) (fun _ _ => True) () (body j))
    (hA : ∀ inp op w, Inv w → A op (exec inp op w).1)
    (hG : ∀ inp op w, Inv w → G op → Inv (exec inp op w).2) (h₀ : Inv w)
    (h : Reaches exec body ok (Config.init w) c) : Inv c.world := by
  have hnext : ∀ q op ans q', (relying A G).next q op ans = some q' → G op := by
    intro q op ans q' h
    by_contra hn
    rw [show (relying A G).next q op ans = none from if_neg hn] at h
    cases h
  obtain ⟨_, _, hI⟩ := @Reaches.tracks S W I J R exec body ok c (relying A G) (fun _ _ _ => True)
    (fun _ => ()) (fun c _ => Inv c.world) w (fun _ => ()) hbody (fun _ _ _ _ hI _ => hI)
    (fun c _ _ _ op _ inp _ hI _ _ => hA inp op c.world hI)
    (fun c _ _ _ op _ inp _ _ hI _ _ _ hq' => hG inp op c.world hI (hnext _ _ _ _ hq')) h₀ h
  exact hI

/-- What every call relates, a run relates, from any configuration on. -/
theorem Reaches.relates {exec : I → (op : S.Op) → W → S.Ans op × W} {body : J → Prog S R}
    {ok : Config S W J R → Label I J → Prop} {c₀ c : Config S W J R} (Rel : W → W → Prop)
    (hrefl : ∀ w, Rel w w) (htrans : ∀ u v w, Rel u v → Rel v w → Rel u w)
    (hcall : ∀ inp op w, Rel w (exec inp op w).2) (h : Reaches exec body ok c₀ c) :
    Rel c₀.world c.world := by
  induction h with
  | refl => exact hrefl _
  | tail _ _ hs ih =>
    apply htrans _ _ _ ih
    rcases Config.step_cases exec body hs with ⟨j, _, rfl⟩ | ⟨t, inp, j, op, k, _, _, rfl⟩
    · exact hrefl _
    · exact hcall inp op _

end AiScheduler.Lib
