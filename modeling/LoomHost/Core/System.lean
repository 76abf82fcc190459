import LoomHost.Core.Conn
import LoomHost.Core.Media
import LoomHost.Lib.Machine

/-!
# The Host as One System

One connection of the host: the control task of `loomd/src/conn.rs` and the
media threads of `loomd/src/media/mod.rs`, one for each stream it has started,
with the channels between them. What the driver told a thread is in its handle,
oldest first; the thread remembers how much of it it has taken.

An action is one step of one party: the control task receives a frame, applies
one output of the session, or finds the stream at its end; a media thread opens
its encoder and source, or takes one turn of its loop; or the connection is
lost. A turn looks at its two channels one after the other while the control
task may be sending, so it takes any part of what is there, oldest first.

Encoders and sources differ from step to step: `world` has a backend for each.

## Main definitions

* `Phase`, `Pipeline`, `State`: The parties.
* `Action`, `Event`: What they do and what is seen of it.
* `step`: One step.
* `start`: The beginning of a connection.
-/

namespace LoomHost

namespace System

open Control Session Conn Media

/-- Where a media thread is. -/
inductive Phase (E P : Type*) where
  | spawned
  /-- The encoder or the source did not open. -/
  | failed
  | running (m : Thread E P)
  /-- The loop has ended. -/
  | stopped

/-- Whether a media thread has ended. -/
def Phase.ended {E P : Type*} : Phase E P → Bool
  | .failed | .stopped => true
  | .spawned | .running _ => false

/-- A media thread, with how much it has taken off its channels. -/
structure Pipeline (E P : Type*) where
  idrTaken : ℕ := 0
  reconfigTaken : ℕ := 0
  phase : Phase E P := .spawned

/-- The state of a connection. -/
structure State (E P : Type*) where
  session : HostSession
  /-- The outputs for the last frame that are still to be applied. -/
  outputs : List Output := []
  driver : Driver := {}
  /-- The session loop has returned. -/
  returned : Bool := false
  /-- The connection is lost. -/
  lost : Bool := false
  /-- The media threads, in the order of the driver's handles. -/
  pipelines : List (Pipeline E P) := []
  /-- The number of steps taken. -/
  steps : ℕ := 0

/-- One step of one party. -/
inductive Action (P : Type*) where
  /-- A frame of the control stream, decoded. -/
  | receive (frame : Decoded)
  /-- The next output is applied. -/
  | apply
  /-- A frame that does not decode. -/
  | badFrame
  | eof
  | readError
  | lose
  | openMedia (i : ℕ)
  | turn (i : ℕ) (t : Tick P)

/-- What is seen of a step. -/
inductive Event where
  | received (frame : Decoded)
  | applied (output : Output)
  /-- The encoder of a media thread has returned an access unit, which is sent. -/
  | frame (i : ℕ) (f : Frame)

variable {E P : Type*}

namespace State

/-- The connection has a close reason. -/
def closed (σ : State E P) : Bool := σ.driver.closed.isSome || σ.lost

/-- The session loop waits for a frame. -/
def reading (σ : State E P) : Bool :=
  !σ.returned && σ.outputs.isEmpty && σ.session.state != .Closed

/-- `join` returns for every media thread: each has ended. -/
def joined (σ : State E P) : Bool := σ.pipelines.all fun p => p.phase.ended

end State

/-- The beginning of a connection. -/
def start (cfg : HostCfg) (sessionId : Vector UInt8 16) : State E P :=
  { session := HostSession.new cfg.name sessionId cfg.primary.params cfg.extraStreamConfigs }

variable (env : Env) (cfg : HostCfg) (dropPercent : UInt32) (world : ℕ → Backend E P)

/-- The control task applies an output. New handles come with their threads. -/
def applyOutput (σ : State E P) (o : Output) (rest : List Output) : State E P × List Event :=
  match drive env cfg σ.driver [o] with
  | (.ok done, driver) =>
    ({ σ with
        outputs := rest
        driver
        returned := done
        pipelines := σ.pipelines ++
          List.replicate (driver.media.length - σ.pipelines.length) {} }, [.applied o])
  | (.error _, driver) => ({ σ with driver, returned := true }, [])

/-- A frame that does not decode is answered, and the connection closed. -/
def reportBadFrame (σ : State E P) : State E P :=
  match sendFrame env σ.driver ERROR (errorBody Errors.PROTOCOL_VIOLATION) with
  | (.ok (), d) =>
    { σ with driver := d.finish.close Errors.PROTOCOL_VIOLATION "bad frame", returned := true }
  | (.error _, driver) => { σ with driver, returned := true }

/-- A media thread opens its encoder and its source. -/
def openPipeline (backend : Backend E P) (h : MediaHandle) : Phase E P :=
  match backend.openBoth h.params with
  | some (source, encoder) =>
    .running
      { encoder, source, params := h.params, dropGen := DropInjector.new dropPercent,
        frameSeq := 0, idrWaiting := 0, opened := 1 }
  | none => .failed

/-- What a turn takes off the channels is there, oldest first, and the thread
    sees whether the connection is closed. -/
def offered (σ : State E P) (p : Pipeline E P) (h : MediaHandle) (t : Tick P) : Bool :=
  t.closed == σ.closed && t.reconfig.isPrefixOf (h.reconfig.drop p.reconfigTaken) &&
    decide (t.idr ≤ h.idr - p.idrTaken)

/-- A media thread takes one turn of its loop. A closed connection ends it
    before it looks at its channels. -/
def turnPipeline (backend : Backend E P) (i : ℕ) (p : Pipeline E P) (h : MediaHandle)
    (m : Thread E P) (t : Tick P) : Pipeline E P × List Event :=
  let r := tick backend h.streamId m t
  ({ idrTaken := if t.closed then p.idrTaken else p.idrTaken + t.idr
     reconfigTaken :=
       if t.closed then p.reconfigTaken else p.reconfigTaken + t.reconfig.length
     phase := match r.1 with
       | some m => .running m
       | none => .stopped },
    r.2.toList.map (.frame i))

/-- One step, or `none` if it cannot be taken. -/
def step (σ : State E P) (a : Action P) : Option (State E P × List Event) :=
  let σ' : State E P := { σ with steps := σ.steps + 1 }
  match a with
  | .receive frame =>
    if σ.reading then
      let (session, outputs) := σ.session.onFrame frame
      some ({ σ' with session, outputs }, [.received frame])
    else none
  | .apply =>
    -- The outputs of a frame are applied in order, before the next is read.
    match σ.outputs with
    | o :: rest => if σ.returned then none else some (applyOutput env cfg σ' o rest)
    | [] => none
  | .badFrame => if σ.reading then some (reportBadFrame env σ', []) else none
  | .eof =>
    if σ.reading then
      some ({ σ' with driver := σ.driver.close Errors.NONE "eof", returned := true }, [])
    else none
  | .readError => if σ.reading then some ({ σ' with returned := true }, []) else none
  | .lose => some ({ σ' with lost := true }, [])
  | .openMedia i =>
    match σ.pipelines[i]?, σ.driver.media[i]? with
    | some p, some h =>
      match p.phase with
      | .spawned =>
        let phase := openPipeline dropPercent (world σ.steps) h
        some ({ σ' with pipelines := σ.pipelines.set i { p with phase } }, [])
      | _ => none
    | _, _ => none
  | .turn i t =>
    match σ.pipelines[i]?, σ.driver.media[i]? with
    | some p, some h =>
      match p.phase with
      | .running m =>
        if offered σ p h t then
          let (p, events) := turnPipeline (world σ.steps) i p h m t
          some ({ σ' with pipelines := σ.pipelines.set i p }, events)
        else none
      | _ => none
    | _, _ => none

end System

end LoomHost
