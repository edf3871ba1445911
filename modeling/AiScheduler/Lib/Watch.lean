/-
  **WHERE A THREAD STANDS IN A PROTOCOL, READ OFF THE LOG.**

  A thread's state is a FUNCTION OF THE CALLS IT HAS MADE (`Protocol.after`), so side conditions
  on steps can speak of it (`Config.stateOf`). `Reaches.watched` is the invariant rule with that
  state.
-/
import AiScheduler.Lib.Pool

namespace AiScheduler.Lib

open Config

variable {S : Sig} {W I J R : Type}

/-- The state after the calls of thread `t`, from `q`. -/
def Protocol.after (P : Protocol S) (q : P.State) (t : Nat) : List (Nat × Event S) → P.State
  | [] => q
  | (u, e) :: log =>
    if u = t then (P.next (P.after q t log) e.1 e.2).getD (P.after q t log)
    else P.after q t log

/-- Where thread `t` stands, if it is started. -/
def Config.stateOf (P : Protocol S) (start : J → P.State) (c : Config S W J R) (t : Nat) :
    Option P.State :=
  (c.jobOf t).map (fun j => P.after (start j) t c.log)

section Lemmas

variable {exec : I → (op : S.Op) → W → S.Ans op × W} {body : J → Prog S R}
  {ok : Config S W J R → Label I J → Prop} {c : Config S W J R} {w : W}
  {P : Protocol S} {start : J → P.State} {post : J → P.State → R → Prop}

theorem Protocol.after_of_not_mem {q : P.State} {t : Nat} :
    ∀ {log : List (Nat × Event S)}, (∀ e ∈ log, e.1 ≠ t) → P.after q t log = q := by
  intro log
  induction log with
  | nil =>
    intro _
    rfl
  | cons e log ih =>
    intro h
    show (if e.1 = t then _ else P.after q t log) = q
    rw [if_neg (h e List.mem_cons_self)]
    exact ih (fun e' he' => h e' (.tail _ he'))

/-- What every call of the protocol keeps, a thread has kept so far. -/
theorem Protocol.after_invariant {φ : P.State → Prop}
    (hstep : ∀ q op ans q', φ q → P.next q op ans = some q' → φ q') {q : P.State} (hq : φ q)
    (t : Nat) (log : List (Nat × Event S)) : φ (P.after q t log) := by
  induction log with
  | nil => exact hq
  | cons e log ih =>
  show φ (if e.1 = t then (P.next (P.after q t log) e.2.1 e.2.2).getD (P.after q t log)
    else P.after q t log)
  split
  · cases hnext : P.next (P.after q t log) e.2.1 e.2.2 with
    | none => exact ih
    | some q' => exact hstep _ _ _ q' ih hnext
  · exact ih

theorem Config.stateOf_called_self {t : Nat} {j : J} {op : S.Op} {k : S.Ans op → Prog S R}
    {inp : I} (hp : c.pool[t]? = some ⟨j, .call op k⟩) {q q' : P.State}
    (hq : c.stateOf P start t = some q) (hnext : P.next q op (exec inp op c.world).1 = some q') :
    (c.called exec t j op k inp).stateOf P start t = some q' := by
  have hjob : c.jobOf t = some j := by
    unfold jobOf
    rw [hp]
    rfl
  unfold stateOf at hq ⊢
  rw [hjob] at hq
  have hq : P.after (start j) t c.log = q := Option.some.inj hq
  rw [jobOf_called hp, hjob]
  show some (if t = t then _ else _) = some q'
  rw [if_pos rfl, hq, hnext]
  rfl

theorem Config.stateOf_called_of_ne {t : Nat} {j : J} {op : S.Op} {k : S.Ans op → Prog S R}
    {inp : I} (hp : c.pool[t]? = some ⟨j, .call op k⟩) {u : Nat} (hu : u ≠ t) :
    (c.called exec t j op k inp).stateOf P start u = c.stateOf P start u := by
  unfold stateOf
  rw [jobOf_called hp]
  congr 1
  funext j'
  show (if t = u then _ else P.after (start j') u c.log) = _
  rw [if_neg (Ne.symm hu)]

theorem Config.stateOf_spawned_of_ne {j : J} {u : Nat} (hu : u ≠ c.pool.length) :
    (c.spawned body j).stateOf P start u = c.stateOf P start u := by
  unfold stateOf
  rw [jobOf_spawned_of_ne hu]
  rfl

theorem Reaches.stateOf_spawned_self (h : Reaches exec body ok (init w) c) {j : J} :
    (c.spawned body j).stateOf P start c.pool.length = some (start j) := by
  unfold stateOf
  rw [jobOf_spawned_self]
  show some (P.after (start j) c.pool.length c.log) = some (start j)
  rw [Protocol.after_of_not_mem]
  intro e he
  exact Nat.ne_of_lt (h.log_lt e he)

/-- **Every thread follows the protocol from where it stands.** -/
theorem Reaches.stands (hadmits : ∀ q op ans, P.admits q op ans)
    (hbody : ∀ c j, ok c (.spawn j) → Prog.Follows P (post j) (start j) (body j))
    (h : Reaches exec body ok (init w) c) :
    ∀ t j p, c.pool[t]? = some ⟨j, p⟩ →
      ∃ q, c.stateOf P start t = some q ∧ Prog.Follows P (post j) q p := by
  induction h with
  | refl =>
    intro t j p hp
    simp [init] at hp
  | @tail c c' l hr hok hs ih =>
    intro u j' p hp
    rcases step_cases exec body hs with ⟨j, rfl, rfl⟩ | ⟨t, inp, j, op, k, rfl, hpt, rfl⟩
    · by_cases hu : u = c.pool.length
      · -- the new thread
        subst hu
        have heq : (c.spawned body j).pool[c.pool.length]? = some ⟨j, body j⟩ := by
          simp [spawned]
        rw [heq] at hp
        injection hp with hp
        injection hp with hj hprog
        subst hj hprog
        exact ⟨start j, hr.stateOf_spawned_self, hbody c j hok⟩
      rw [stateOf_spawned_of_ne hu]
      apply ih u j' p
      have hlt : u < c.pool.length := by
        have hlt' := (List.getElem?_eq_some_iff.mp hp).1
        have hlen : (c.spawned body j).pool.length = c.pool.length + 1 := by
          simp [spawned]
        omega
      rw [← hp]
      exact (List.getElem?_append_left hlt).symm
    · by_cases hu : u = t
      · -- the thread that made the call
        subst hu
        obtain ⟨q, hq, hfollows⟩ := ih u j _ hpt
        obtain ⟨q', hq', hk⟩ := hfollows (exec inp op c.world).1 (hadmits _ _ _)
        have hlt := (List.getElem?_eq_some_iff.mp hpt).1
        have heq : (c.called exec u j op k inp).pool[u]? = some ⟨j, k (exec inp op c.world).1⟩ := by
          show (c.pool.set u _)[u]? = _
          rw [List.getElem?_set_self hlt]
        rw [heq] at hp
        injection hp with hp
        injection hp with hj hprog
        subst hj hprog
        exact ⟨q', stateOf_called_self hpt hq hq', hk⟩
      rw [stateOf_called_of_ne hpt hu]
      apply ih u j' p
      rw [← hp]
      exact (List.getElem?_set_ne (Ne.symm hu)).symm

/-- **THE INVARIANT RULE**: what starts and calls keep, a run keeps. -/
theorem Reaches.watched (Inv : Config S W J R → Prop) (hadmits : ∀ q op ans, P.admits q op ans)
    (hbody : ∀ c j, ok c (.spawn j) → Prog.Follows P (post j) (start j) (body j))
    (hspawn : ∀ c j, Reaches exec body ok (init w) c → Inv c → ok c (.spawn j) →
      Inv (c.spawned body j))
    (hcall : ∀ c t j op k inp q q', Reaches exec body ok (init w) c → Inv c →
      ok c (.step t inp) → c.pool[t]? = some ⟨j, .call op k⟩ → c.stateOf P start t = some q →
      P.next q op (exec inp op c.world).1 = some q' →
      (c.called exec t j op k inp).stateOf P start t = some q' →
      Inv (c.called exec t j op k inp))
    (h₀ : Inv (init w)) (h : Reaches exec body ok (init w) c) : Inv c := by
  refine h.invariant Inv h₀ ?_
  intro c c' l hr hinv hok hs
  rcases step_cases exec body hs with ⟨j, rfl, rfl⟩ | ⟨t, inp, j, op, k, rfl, hp, rfl⟩
  · exact hspawn c j hr hinv hok
  · obtain ⟨q, hq, hfollows⟩ := hr.stands hadmits hbody t j _ hp
    obtain ⟨q', hq', _⟩ := hfollows (exec inp op c.world).1 (hadmits _ _ _)
    exact hcall c t j op k inp q q' hr hinv hok hp hq hq' (stateOf_called_self hp hq hq')

end Lemmas

end AiScheduler.Lib
