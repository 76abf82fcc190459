import LoomHost.Core.System

/-!
# The Daemon

The accept loop of `loomd/src/endpoint.rs` and the tasks of `handle` in
`loomd/src/conn.rs`, one for each connection that comes in. The tasks share a
semaphore with a single permit, their slot: a task that gets the permit drives a
session and joins its media threads before it drops the permit, and one that
does not tells its client that the host is busy.

An action is one step of one party: the accept loop takes a connection or finds
the endpoint closed, or a task takes a step. Within a session the parties are
those of `System`.

What the process does when the accept loop has ended is left out: the tasks are
cancelled with the runtime then.

## Main definitions

* `Task`, `State`: The parties.
* `Action`, `Event`: What they do and what is seen of it.
* `step`: One step.
-/

namespace LoomHost

namespace Daemon

open Session Conn Media

/-- Where the task of a connection is. -/
inductive Task (E P : Type*) where
  | handshaking
  /-- The handshake has failed. -/
  | failed
  /-- The handshake is done, and the permit is not asked for yet. -/
  | connected
  /-- With the permit, the control stream is waited for. -/
  | accepting
  /-- With the permit, a session is driven and its media threads are joined. -/
  | serving (σ : System.State E P)
  /-- The permit has been dropped. -/
  | served
  /-- There was no permit. -/
  | rejecting
  | rejected (d : Driver)

/-- Whether a task has the permit. -/
def Task.holds {E P : Type*} : Task E P → Bool
  | .accepting | .serving _ => true
  | _ => false

/-- The state of the daemon. -/
structure State (E P : Type*) where
  /-- The accept loop is running. -/
  listening : Bool := true
  /-- The permits left in the slot. -/
  slot : ℕ := 1
  /-- The tasks, in the order in which their connections came. -/
  tasks : List (Task E P) := []

/-- One step of one party. -/
inductive Action (P : Type*) where
  | incoming
  /-- The endpoint is closed. -/
  | shut
  | handshake (i : ℕ) (ok : Bool)
  | tryAcquire (i : ℕ)
  | acceptBi (i : ℕ)
  /-- A step within a session. -/
  | session (i : ℕ) (a : System.Action P)
  /-- The media threads are joined and the permit is dropped. -/
  | finish (i : ℕ)
  | reject (i : ℕ)

/-- What is seen of a step. -/
inductive Event where
  | acquired (i : ℕ)
  | released (i : ℕ)
  | busy (i : ℕ)
  | rejected (i : ℕ) (d : Driver)
  | session (i : ℕ) (e : System.Event)

variable {E P : Type*}

/-- A task asks for the permit, and goes on with it or without it. -/
def tryAcquire (δ : State E P) (i : ℕ) : State E P × List Event :=
  match δ.slot with
  | slot + 1 => ({ δ with slot, tasks := δ.tasks.set i .accepting }, [.acquired i])
  | 0 => ({ δ with tasks := δ.tasks.set i .rejecting }, [.busy i])

/-- A task drops its permit. -/
def release (δ : State E P) (i : ℕ) : State E P × List Event :=
  ({ δ with slot := δ.slot + 1, tasks := δ.tasks.set i .served }, [.released i])

variable (envs : ℕ → Env) (cfg : HostCfg) (dropPercent : UInt32)
  (worlds : ℕ → ℕ → Backend E P)

/-- The beginning of the session of a connection. -/
def first (i : ℕ) : System.State E P := System.start cfg (envs i).sessionId

/-- One step, or `none` if it cannot be taken. -/
def step (δ : State E P) (a : Action P) : Option (State E P × List Event) :=
  match a with
  | .incoming =>
    if δ.listening then some ({ δ with tasks := δ.tasks ++ [.handshaking] }, []) else none
  | .shut => if δ.listening then some ({ δ with listening := false }, []) else none
  | .handshake i ok =>
    match δ.tasks[i]? with
    | some .handshaking =>
      some ({ δ with tasks := δ.tasks.set i (if ok then .connected else .failed) }, [])
    | _ => none
  | .tryAcquire i =>
    match δ.tasks[i]? with
    | some .connected => some (tryAcquire δ i)
    | _ => none
  | .acceptBi i =>
    match δ.tasks[i]? with
    | some .accepting =>
      match (envs i).acceptBi with
      | some _ => some ({ δ with tasks := δ.tasks.set i (.serving (first envs cfg i)) }, [])
      -- There is no media thread to join.
      | none => some (release δ i)
    | _ => none
  | .session i a =>
    match δ.tasks[i]? with
    | some (.serving σ) =>
      match System.step (envs i) cfg dropPercent (worlds i) σ a with
      | some (σ, events) =>
        some ({ δ with tasks := δ.tasks.set i (.serving σ) }, events.map (.session i))
      | none => none
    | _ => none
  | .finish i =>
    match δ.tasks[i]? with
    | some (.serving σ) => if σ.returned && σ.joined then some (release δ i) else none
    | _ => none
  | .reject i =>
    match δ.tasks[i]? with
    | some .rejecting =>
      let d := rejectBusy (envs i)
      some ({ δ with tasks := δ.tasks.set i (.rejected d) }, [.rejected i d])
    | _ => none

end Daemon

end LoomHost
