/-
  **A LOCK HELD BY SESSIONS THAT MAY END.**

  A lock service opens sessions and gives its lock to at most one LIVE session
  at a time.  A session ends by being closed or by expiring; if it held the lock
  the lock is free again.  Session numbers are never used twice.
-/
import Mathlib.Data.List.Basic

namespace AiScheduler.Lib

/-- The lock service: its live sessions, who was given the lock last, and the next
session number. -/
structure Lease where
  live : List Nat
  holder : Option Nat
  next : Nat
  fresh : ∀ n ∈ live, n < next

namespace Lease

def start : Lease := ⟨[], none, 0, by simp⟩

/-- The session has the lock: it was given the lock last and is alive. -/
def Holds (l : Lease) (n : Nat) : Prop := l.holder = some n ∧ n ∈ l.live

instance (l : Lease) (n : Nat) : Decidable (l.Holds n) := inferInstanceAs (Decidable (_ ∧ _))

/-- **AT MOST ONE SESSION HAS THE LOCK.** -/
theorem Holds.unique {l : Lease} {n m : Nat} (hn : l.Holds n) (hm : l.Holds m) : n = m :=
  Option.some.inj (hn.1.symm.trans hm.1)

/-- Open a session, numbered `l.next`. -/
def openSession (l : Lease) : Lease where
  live := l.next :: l.live
  holder := l.holder
  next := l.next + 1
  fresh := by
    intro n hn
    rcases List.mem_cons.mp hn with rfl | hn
    · omega
    · have := l.fresh n hn
      omega

/-- The session ends, closed or expired. -/
def close (l : Lease) (n : Nat) : Lease where
  live := l.live.filter (fun m => m ≠ n)
  holder := l.holder
  next := l.next
  fresh := fun m hm => l.fresh m (List.mem_of_mem_filter hm)

/-- Give the lock to a live session, if no live session has it. -/
def grant (l : Lease) (n : Nat) : Option Lease :=
  if n ∈ l.live ∧ ∀ m ∈ l.live, ¬ l.Holds m then some { l with holder := some n } else none

theorem Holds.openSession {l : Lease} {n : Nat} (h : l.Holds n) : l.openSession.Holds n :=
  ⟨h.1, .tail _ h.2⟩

theorem Holds.close {l : Lease} {n m : Nat} (h : l.Holds n) (hne : n ≠ m) : (l.close m).Holds n :=
  ⟨h.1, List.mem_filter.mpr ⟨h.2, by simpa using hne⟩⟩

/-- The lock is given when nobody has it, and then the session has it. -/
theorem grant_eq_some {l l' : Lease} {n : Nat} (h : l.grant n = some l') :
    (∀ m, ¬ l.Holds m) ∧ l'.Holds n ∧ l'.next = l.next := by
  unfold grant at h
  split at h
  next hfree =>
    cases h
    exact ⟨fun m hm => hfree.2 m hm.2 hm, ⟨rfl, hfree.1⟩, rfl⟩
  next => exact absurd h (by simp)

end Lease

end AiScheduler.Lib
