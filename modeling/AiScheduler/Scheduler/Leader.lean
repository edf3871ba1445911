/-
  **LEADER ELECTION** (`internal/scheduler/leader/elector.go`) and the part of
  `cmd/scheduler/main.go` that waits for it.

  `main` calls `leader.New`, then `Acquire`, exits when that fails and runs the leader-only loops
  when it returns. Every call of the election backend is one step of a process; a session may end
  at any moment. `leaderCtx` is `context.Background()`: nothing ever tells a process that leads to
  stop.
-/
import AiScheduler.Lib.Lease
import AiScheduler.Model.Types

namespace AiScheduler.Leader

open Lib

/-! ## The electors. -/

/-- The implementations of `Elector`. -/
inductive Elector where
  | localElector
  | mysqlElector
  | etcdElector
  deriving DecidableEq, Repr

/-- What the scheduler processes are configured with. -/
structure Settings where
  etcdAddrs : List String := []
  hasDB : Bool := true

/-- `newEtcdElector`, by the answer of `clientv3.New`. -/
def newEtcdElector : Except Err Unit → Elector
  | .ok () => .etcdElector
  | .error _ => .localElector

/-- `New`. -/
def newElector (cfg : Settings) (client : Except Err Unit) : Elector :=
  if cfg.etcdAddrs.length > 0 then newEtcdElector client
  else if !cfg.hasDB then .localElector
  else .mysqlElector

/-- Where a process is. -/
inductive Point where
  /-- Before `leader.New`. -/
  | starting
  /-- In `Acquire`, about to open a session (`NewSession`, `db.Conn`). -/
  | opening
  /-- In `Acquire`, with an open session, in `Campaign` or `GET_LOCK`. -/
  | asking
  /-- In `mysqlElector.Acquire`, in the two seconds before the next attempt. -/
  | waiting
  /-- `Acquire` returned nil: the leader-only loops run. -/
  | leading
  /-- `Acquire` returned the error and `main` exited, or the process died. -/
  | exited (e : Option Err)
  deriving DecidableEq, Repr

/-- `localElector.Acquire`: it returns nil at once. -/
def localAcquire : Point := .leading

/-- `Acquire` is entered. -/
def acquire : Elector → Point
  | .localElector => localAcquire
  | .mysqlElector | .etcdElector => .opening

/-- After `NewSession` or `db.Conn`. -/
def afterOpen (e : Elector) (answer : Except Err Unit) : Point :=
  match e, answer with
  | _, .ok () => .asking
  | .mysqlElector, .error e => .exited (some (.wrap "open leader election connection" e))
  -- "etcd session creation failed, falling back to local"
  | _, .error _ => localAcquire

/-- After `Campaign` or `GET_LOCK` failed; the session is closed. -/
def afterError (e : Elector) (err : Err) : Point :=
  match e with
  | .mysqlElector => .exited (some (.wrap "acquire mysql leader lock" err))
  -- "etcd campaign failed, falling back to local"
  | _ => localAcquire

/-! ## Processes and backend. -/

/-- A process: where it is, its elector, its open session. -/
structure Process where
  point : Point := .starting
  elector : Elector := .localElector
  session : Option Nat := none

/-- The processes `P` and the election backend. -/
structure State (P : Type) where
  process : P → Process
  lease : Lease

/-- Nothing has started. -/
def State.init (P : Type) : State P := ⟨fun _ => {}, Lease.start⟩

/-- What can happen. -/
inductive Event (P : Type) where
  /-- `main` calls `leader.New`, for which `clientv3.New` answers `client`, and enters `Acquire`. -/
  | start (p : P) (client : Except Err Unit)
  /-- The session or connection is opened, or that fails. -/
  | openSession (p : P) (answer : Except Err Unit)
  /-- The session gets the lock: `Campaign` returns nil, `GET_LOCK` returns 1. -/
  | granted (p : P)
  /-- `GET_LOCK` returns something else than 1. -/
  | contended (p : P)
  /-- `Campaign` or `GET_LOCK` fails. -/
  | failed (p : P) (e : Err)
  /-- The two seconds are over. -/
  | retry (p : P)
  /-- A session ends without its process: its lease expires, its connection breaks. -/
  | expire (session : Nat)
  /-- A process dies; its session stays until it expires. -/
  | die (p : P)

section Step

variable {P : Type} [DecidableEq P]

/-- Process `p` becomes `proc`. -/
def State.set (s : State P) (p : P) (proc : Process) (lease : Lease) : State P where
  process := Function.update s.process p proc
  lease := lease

/-- The backend after `p`'s session is closed. -/
def State.closed (s : State P) (p : P) : Lease :=
  match (s.process p).session with
  | some n => s.lease.close n
  | none => s.lease

/-- **ONE STEP**; `none` where the event cannot happen. -/
def State.step (cfg : Settings) (s : State P) : Event P → Option (State P)
  | .start p client =>
    if (s.process p).point = .starting then
      some (s.set p
        { point := acquire (newElector cfg client), elector := newElector cfg client } s.lease)
    else none
  | .openSession p (.ok ()) =>
    if (s.process p).point = .opening then
      some (s.set p
        { s.process p with
          point := afterOpen (s.process p).elector (.ok ()), session := some s.lease.next }
        s.lease.openSession)
    else none
  | .openSession p (.error e) =>
    if (s.process p).point = .opening then
      some (s.set p
        { s.process p with point := afterOpen (s.process p).elector (.error e) } s.lease)
    else none
  | .granted p =>
    if (s.process p).point = .asking then
      ((s.process p).session.bind s.lease.grant).map (fun lease =>
        s.set p { s.process p with point := .leading } lease)
    else none
  | .contended p =>
    if (s.process p).point = .asking ∧ (s.process p).elector = .mysqlElector then
      some (s.set p { s.process p with point := .waiting, session := none } (s.closed p))
    else none
  | .failed p e =>
    if (s.process p).point = .asking then
      some (s.set p
        { s.process p with point := afterError (s.process p).elector e, session := none }
        (s.closed p))
    else none
  | .retry p =>
    if (s.process p).point = .waiting then
      some (s.set p { s.process p with point := .opening } s.lease)
    else none
  | .expire n => some { s with lease := s.lease.close n }
  | .die p => some (s.set p { s.process p with point := .exited none, session := none } s.lease)

/-- The state after a sequence of events, if they can happen. -/
def State.run (cfg : Settings) : State P → List (Event P) → Option (State P)
  | s, [] => some s
  | s, ev :: evs => (s.step cfg ev).bind (fun s' => s'.run cfg evs)

/-- `Acquire` has returned successfully and the leader-only loops run. -/
def State.Leads (s : State P) (p : P) : Prop := (s.process p).point = .leading

end Step

end AiScheduler.Leader
