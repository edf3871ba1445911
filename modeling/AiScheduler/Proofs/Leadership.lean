/-
  **WHEN AT MOST ONE PROCESS LEADS.**

  A process that leads by the lock leads alone for as long as its session holds the lock. Two
  things break that in the code: an elector that falls back to leading WITHOUT the lock, and a
  session that ends under a process that goes on leading.
-/
import AiScheduler.Scheduler.Leader

namespace AiScheduler.Leader

open Lib

variable {P : Type} [DecidableEq P]

/-! ## The events that keep one leader. -/

/-- No fallback to leading without the lock; no session ends under a leader. -/
def Sound (cfg : Settings) (s : State P) : Event P → Prop
  | .start _ client => if cfg.etcdAddrs = [] then cfg.hasDB = true else client = .ok ()
  | .openSession p answer => answer = .ok () ∨ (s.process p).elector = .mysqlElector
  | .failed p _ => (s.process p).elector = .mysqlElector
  | .expire n => ∀ p, s.Leads p → (s.process p).session ≠ some n
  | .granted _ | .contended _ | .retry _ | .die _ => True

/-- Every event of the run is sound in the state it happens in. -/
def AllSound (cfg : Settings) : State P → List (Event P) → Prop
  | _, [] => True
  | s, ev :: evs => Sound cfg s ev ∧ ∀ s', s.step cfg ev = some s' → AllSound cfg s' evs

/-! ## The invariant. -/

/-- Who leads holds the lock, through a session of its own. -/
structure Inv (s : State P) : Prop where
  holds : ∀ p, s.Leads p → ∃ n, (s.process p).session = some n ∧ s.lease.Holds n
  own : ∀ p q n, (s.process p).session = some n → (s.process q).session = some n → p = q
  known : ∀ p n, (s.process p).session = some n → n < s.lease.next

omit [DecidableEq P] in
theorem Inv.init : Inv (State.init P) where
  holds p hp := absurd hp (by simp [State.Leads, State.init])
  own p q n hp := absurd hp (by simp [State.init])
  known p n hp := absurd hp (by simp [State.init])

omit [DecidableEq P] in
theorem Inv.unique {s : State P} (h : Inv s) {p q : P} (hp : s.Leads p) (hq : s.Leads q) :
    p = q := by
  obtain ⟨n, hn, hholds⟩ := h.holds p hp
  obtain ⟨m, hm, hholds'⟩ := h.holds q hq
  rw [hholds'.unique hholds] at hm
  exact h.own p q n hn hm

theorem State.set_self (s : State P) (p : P) (proc : Process) (lease : Lease) :
    (s.set p proc lease).process p = proc := by
  show Function.update s.process p proc p = proc
  rw [Function.update_self]

theorem State.set_of_ne (s : State P) {p q : P} (hne : q ≠ p) (proc : Process) (lease : Lease) :
    (s.set p proc lease).process q = s.process q := by
  show Function.update s.process p proc q = s.process q
  rw [Function.update_of_ne hne]

theorem Inv.set {s : State P} (h : Inv s) {p : P} {proc : Process} {lease : Lease}
    (hleads : proc.point = .leading → ∃ n, proc.session = some n ∧ lease.Holds n)
    (hown : ∀ n, proc.session = some n →
      n < lease.next ∧ ∀ q, q ≠ p → (s.process q).session ≠ some n)
    (hothers : ∀ q n, q ≠ p → s.Leads q → (s.process q).session = some n → s.lease.Holds n →
      lease.Holds n)
    (hnext : s.lease.next ≤ lease.next) : Inv (s.set p proc lease) where
  holds q hq := by
    by_cases hqp : q = p
    · subst hqp
      unfold State.Leads at hq
      rw [State.set_self] at hq ⊢
      exact hleads hq
    unfold State.Leads at hq
    rw [State.set_of_ne s hqp] at hq ⊢
    obtain ⟨n, hn, hholds⟩ := h.holds q hq
    exact ⟨n, hn, hothers q n hqp hq hn hholds⟩
  own q r n hq hr := by
    by_cases hqp : q = p
    · by_cases hrp : r = p
      · rw [hqp, hrp]
      subst hqp
      rw [State.set_self] at hq
      rw [State.set_of_ne s hrp] at hr
      exact absurd hr ((hown n hq).2 r hrp)
    rw [State.set_of_ne s hqp] at hq
    by_cases hrp : r = p
    · subst hrp
      rw [State.set_self] at hr
      exact absurd hq ((hown n hr).2 q hqp)
    · rw [State.set_of_ne s hrp] at hr
      exact h.own q r n hq hr
  known q n hq := by
    by_cases hqp : q = p
    · subst hqp
      rw [State.set_self] at hq
      exact (hown n hq).1
    · rw [State.set_of_ne s hqp] at hq
      exact Nat.lt_of_lt_of_le (h.known q n hq) hnext

theorem Inv.move {s : State P} (h : Inv s) {p : P} {proc : Process}
    (hpoint : proc.point ≠ .leading)
    (hsession : proc.session = (s.process p).session ∨ proc.session = none) :
    Inv (s.set p proc s.lease) := by
  apply h.set
  · exact fun hl => absurd hl hpoint
  · intro n hn
    rcases hsession with hs | hs
    · rw [hs] at hn
      exact ⟨h.known p n hn, fun q hq hqn => hq (h.own q p n hqn hn)⟩
    · rw [hs] at hn
      cases hn
  · exact fun q n _ _ _ hholds => hholds
  · exact Nat.le_refl _

theorem Inv.close {s : State P} (h : Inv s) {p : P} {proc : Process}
    (hpoint : proc.point ≠ .leading) (hsession : proc.session = none) :
    Inv (s.set p proc (s.closed p)) := by
  apply h.set
  · exact fun hl => absurd hl hpoint
  · intro n hn
    rw [hsession] at hn
    cases hn
  · -- the others' sessions are not this one
    intro q n hqp _ hn hholds
    unfold State.closed
    cases hs : (s.process p).session with
    | none => exact hholds
    | some m =>
      apply hholds.close
      intro hnm
      rw [← hnm] at hs
      exact hqp (h.own q p n hn hs)
  · unfold State.closed
    cases (s.process p).session with
    | none | some m => exact Nat.le_refl _

/-! ## One step, and whole runs. -/

theorem newElector_ne_local {cfg : Settings} {client : Except Err Unit}
    (h : if cfg.etcdAddrs = [] then cfg.hasDB = true else client = .ok ()) :
    acquire (newElector cfg client) = .opening := by
  unfold newElector
  cases haddrs : cfg.etcdAddrs with
  | nil =>
    rw [if_pos haddrs] at h
    simp [h, acquire]
  | cons a as =>
    rw [if_neg (by simp [haddrs])] at h
    simp [h, acquire, newEtcdElector]

theorem of_ite_eq_some {α : Type} {c : Prop} [Decidable c] {x : Option α} {y : α}
    (h : (if c then x else none) = some y) : c ∧ x = some y := by
  by_cases hc : c
  · rw [if_pos hc] at h
    exact ⟨hc, h⟩
  · rw [if_neg hc] at h
    cases h

theorem inv_step {cfg : Settings} {s s' : State P} {ev : Event P} (h : Inv s)
    (hsound : Sound cfg s ev) (hstep : s.step cfg ev = some s') : Inv s' := by
  cases ev with
  | start p client =>
    obtain ⟨_, hs⟩ := of_ite_eq_some hstep
    rw [← Option.some.inj hs]
    apply h.move
    · show acquire (newElector cfg client) ≠ .leading
      rw [newElector_ne_local hsound]
      decide
    · exact .inr rfl
  | openSession p answer =>
    cases answer with
    | ok _ =>
      obtain ⟨_, hs⟩ := of_ite_eq_some hstep
      rw [← Option.some.inj hs]
      apply h.set
      · intro hl
        simp [afterOpen] at hl
      · -- the number is new
        intro n hn
        have hn : s.lease.next = n := Option.some.inj hn
        rw [← hn]
        refine ⟨Nat.lt_succ_self _, ?_⟩
        intro q _ hq
        exact Nat.lt_irrefl _ (h.known q _ hq)
      · exact fun q n _ _ _ hholds => hholds.openSession
      · exact Nat.le_succ _
    | error e =>
      obtain ⟨_, hs⟩ := of_ite_eq_some hstep
      rw [← Option.some.inj hs]
      have hmysql : (s.process p).elector = .mysqlElector := hsound.resolve_left (by simp)
      apply h.move
      · show afterOpen (s.process p).elector (.error e) ≠ .leading
        rw [hmysql]
        simp [afterOpen]
      · exact .inl rfl
  | granted p =>
    obtain ⟨_, hs⟩ := of_ite_eq_some hstep
    obtain ⟨lease, hlease, rfl⟩ := Option.map_eq_some_iff.mp hs
    obtain ⟨n, hn, hgrant⟩ := Option.bind_eq_some_iff.mp hlease
    obtain ⟨hfree, hholds, hnext⟩ := Lease.grant_eq_some hgrant
    apply h.set
    · exact fun _ => ⟨n, hn, hholds⟩
    · intro m hm
      rw [hnext]
      exact ⟨h.known p m hm, fun q hq hqm => hq (h.own q p m hqm hm)⟩
    · -- the lock was free, so nobody leads
      intro q m _ _ _ hm
      exact absurd hm (hfree m)
    · exact Nat.le_of_eq hnext.symm
  | contended p =>
    obtain ⟨_, hs⟩ := of_ite_eq_some hstep
    rw [← Option.some.inj hs]
    exact h.close (by simp) rfl
  | failed p e =>
    obtain ⟨_, hs⟩ := of_ite_eq_some hstep
    rw [← Option.some.inj hs]
    have hmysql : (s.process p).elector = .mysqlElector := hsound
    apply h.close
    · show afterError (s.process p).elector e ≠ .leading
      rw [hmysql]
      simp [afterError]
    · rfl
  | retry p =>
    obtain ⟨_, hs⟩ := of_ite_eq_some hstep
    rw [← Option.some.inj hs]
    exact h.move (by simp) (.inl rfl)
  | expire n =>
    rw [← Option.some.inj hstep]
    refine ⟨?_, h.own, h.known⟩
    intro p hp
    obtain ⟨m, hm, hholds⟩ := h.holds p hp
    refine ⟨m, hm, hholds.close ?_⟩
    intro hmn
    rw [hmn] at hm
    exact hsound p hp hm
  | die p =>
    rw [← Option.some.inj hstep]
    exact h.move (by simp) (.inr rfl)

theorem inv_run {cfg : Settings} :
    ∀ (evs : List (Event P)) {s s' : State P}, Inv s → AllSound cfg s evs →
      s.run cfg evs = some s' → Inv s' := by
  intro evs
  induction evs with
  | nil =>
    intro s s' h _ hrun
    rw [← Option.some.inj hrun]
    exact h
  | cons ev evs ih =>
    intro s s' h hsound hrun
    obtain ⟨s₁, hstep, hrest⟩ := Option.bind_eq_some_iff.mp hrun
    exact ih (inv_step h hsound.1 hstep) (hsound.2 s₁ hstep) hrest

/-- **AT MOST ONE PROCESS LEADS** in every run without the fallback and in which no session ends
under a leader. -/
theorem at_most_one_leader (cfg : Settings) (evs : List (Event P)) (s : State P)
    (hsound : AllSound cfg (State.init P) evs) (hrun : (State.init P).run cfg evs = some s)
    (p q : P) (hp : s.Leads p) (hq : s.Leads q) : p = q :=
  (inv_run evs Inv.init hsound hrun).unique hp hq

/-- Two processes, one lock of MySQL: the second waits. -/
theorem at_most_one_leader_mysql :
    ∃ s : State Bool,
      (State.init Bool).run {} [.start true (.ok ()), .start false (.ok ()),
          .openSession true (.ok ()), .granted true, .openSession false (.ok ()),
          .contended false] = some s
        ∧ ∀ p q, s.Leads p → s.Leads q → p = q := by
  refine ⟨_, rfl, ?_⟩
  intro p q hp hq
  refine at_most_one_leader (P := Bool) {} [.start true (.ok ()), .start false (.ok ()),
    .openSession true (.ok ()), .granted true, .openSession false (.ok ()), .contended false] _ ?_
    rfl p q hp hq
  refine ⟨rfl, fun _ _ => ⟨rfl, fun _ _ => ⟨.inl rfl, fun _ _ => ⟨trivial, fun _ _ =>
    ⟨.inl rfl, fun _ _ => ⟨trivial, fun _ _ => trivial⟩⟩⟩⟩⟩⟩

/-- **TWO LEADERS.** With etcd, two processes that are refused the lease of a session; with MySQL,
one whose connection broke and the one that is given the lock next. -/
theorem two_leaders :
    (∃ s : State Bool,
      (State.init Bool).run { etcdAddrs := ["etcd:2379"] }
          [.start true (.ok ()), .start false (.ok ()),
            .openSession true (.error (.text "etcdserver: mvcc: database space exceeded")),
            .openSession false (.error (.text "etcdserver: mvcc: database space exceeded"))]
                = some s
        ∧ s.Leads true ∧ s.Leads false)
      ∧ ∃ s : State Bool,
        (State.init Bool).run {}
            [.start true (.ok ()), .openSession true (.ok ()), .granted true, .expire 0,
              .start false (.ok ()), .openSession false (.ok ()), .granted false] = some s
          ∧ s.Leads true ∧ s.Leads false :=
  ⟨⟨_, rfl, rfl, rfl⟩, ⟨_, rfl, rfl, rfl⟩⟩

end AiScheduler.Leader
