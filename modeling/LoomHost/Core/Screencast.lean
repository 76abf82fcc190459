import LoomHost.Core.Capture

/-!
# A Screen Cast From Start to Drop

The two threads of a PipeWire capture. The caller is the media thread, which runs
`PortalCapture::start`, `fill` and `drop` of `loom-capture/src/lib.rs` and, within
the start, `open_screencast` of `portal.rs`. The capture thread is `run` of
`stream.rs`: it sets the stream up, reports once over `ready`, and runs the main
loop of PipeWire until that is told to quit.

A step is one of either thread. The capture thread sets up with one call after the
other, and then the library calls back, in any order and at any time. After `quit`
the loop finishes what it has at hand before it returns, so that callbacks may still
come. The stream is connected with `RT_PROCESS`, so `process` comes from PipeWire's
data thread and the other callbacks from the main loop; here each callback is one
step, and no two of them overlap.

What the calls to the portal and to PipeWire return is given. A call of the set-up
may panic, by its `expect`: that ends the capture thread, and the sender of `ready`
goes with it. A tick of the timer that does not find `stop` set does nothing and is
no step; nor is what the library calls back while it connects, which is no error.
`none` is a step that cannot be taken, or a panic in a callback, which aborts the
process.

## Main definitions

* `StartError`: The errors of a start.
* `Portal`, `openScreencast`: The handshake with the portal.
* `ShmFormat`, `buildShmFormat`: The format on offer.
* `Env`, `SetupCall`, `setupCalls`, `openCapture`: What a start calls.
* `Caller`, `CaptureThread`, `State`, `report`: The two threads.
* `Action`, `step`: One step of one of them.
-/

namespace LoomHost

namespace Screencast

open Capture Stream

/-- What `start` returns on failure. -/
inductive StartError where
  | Portal (what : String)
  /-- The errors of the capture thread. -/
  | Stream (e : CaptureError)
  | StartupAborted
  deriving Repr, DecidableEq

/-- What the calls to the portal return. -/
structure Portal where
  proxy : Except String Unit
  createSession : Except String Unit
  selectSources : Except String Unit
  selectResponse : Except String Unit
  start : Except String Unit
  /-- The PipeWire nodes of the streams. -/
  startResponse : Except String (List UInt32)
  openPipeWireRemote : Except String Int32

/-- `CaptureError::portal`. -/
def portal {α : Type} (x : Except String α) : Except StartError α := x.mapError .Portal

/-- Open a session for one monitor, with the descriptor and the node of its stream. -/
def openScreencast (p : Portal) : Except StartError (Int32 × UInt32) := do
  portal p.proxy
  portal p.createSession
  portal p.selectSources
  portal p.selectResponse
  portal p.start
  let streams ← portal p.startResponse
  match streams with
  | [] => .error (.Portal "portal returned no streams")
  | nodeId :: _ => do
    let fd ← portal p.openPipeWireRemote
    .ok (fd, nodeId)

/-- A raw video format on offer. There is no modifier among its properties. -/
structure ShmFormat where
  format : VideoFormat
  formats : List VideoFormat
  size : UInt32 × UInt32
  minSize : UInt32 × UInt32
  maxSize : UInt32 × UInt32
  /-- Frames a second, as a fraction. -/
  framerate : UInt32 × UInt32
  minFramerate : UInt32 × UInt32
  maxFramerate : UInt32 × UInt32
  deriving Repr, DecidableEq

def shmFormat (expected : UInt32 × UInt32) (refresh : UInt32) : ShmFormat :=
  { format := .BGRA, formats := [.BGRA, .RGBA, .BGRx, .RGBx], size := expected,
    minSize := (1, 1), maxSize := (8192, 8192), framerate := (max refresh 1, 1),
    minFramerate := (0, 1), maxFramerate := (1000, 1) }

/-- A call of the library that fails is a failure of the stream. -/
def pipewire {α : Type} (what : String) (x : Except String α) : Except CaptureError α :=
  x.mapError fun e => .Pipewire (what ++ ": " ++ e)

/-- What the calls of a start return, and what it is asked for. -/
structure Env where
  expected : UInt32 × UInt32
  refresh : UInt32
  runtime : Except String Unit
  portal : Portal
  spawn : Except String Unit
  mainLoop : Except String Unit
  context : Except String Unit
  connectFd : Int32 → Except String Unit
  stream : Except String Unit
  listener : Except String Unit
  serialize : ShmFormat → Except String (List UInt8)
  /-- Whether `Pod::from_bytes` finds a pod in the bytes. -/
  podFromBytes : List UInt8 → Bool
  connect : UInt32 → List UInt8 → Except String Unit
  /-- Whether arithmetic overflow panics. -/
  overflowChecks : Bool

def buildShmFormat (env : Env) : Except CaptureError (List UInt8) :=
  pipewire "serialize format" (env.serialize (shmFormat env.expected env.refresh))

/-- What a call of the set-up returns, with `none` for a panic. -/
abbrev SetupCall := Option (Except CaptureError Unit)

/-- `Pod::from_bytes(&pod).expect("serialized pod is valid")`. -/
def expectPod (env : Env) : SetupCall :=
  match buildShmFormat env with
  | .error e => some (.error e)
  | .ok pod => if env.podFromBytes pod then some (.ok ()) else none

/-- The calls the capture thread sets up with. -/
def setupCalls (env : Env) (fd : Int32) (nodeId : UInt32) : List SetupCall :=
  [some (pipewire "main loop" env.mainLoop),
    some (pipewire "context" env.context),
    some (pipewire "connect_fd" (env.connectFd fd)),
    some (pipewire "stream" env.stream),
    some (pipewire "listener" env.listener),
    some ((buildShmFormat env).map fun _ => ()),
    expectPod env,
    some do
      let pod ← buildShmFormat env
      pipewire "connect" (env.connect nodeId pod)]

/-- What `start` does before there is a second thread, and what that will call. -/
def openCapture (env : Env) : Except StartError (List SetupCall) := do
  env.runtime.mapError fun e => .Portal ("tokio runtime: " ++ e)
  let (fd, nodeId) ← openScreencast env.portal
  (pipewire "spawn" env.spawn).mapError .Stream
  .ok (setupCalls env fd nodeId)

inductive Caller where
  | starting
  /-- It receives from `ready`. -/
  | waiting
  /-- The start has failed, and the capture thread is joined. -/
  | joining (e : StartError)
  | failed (e : StartError)
  | capturing
  /-- `stop` is set, and the capture thread is joined. -/
  | dropping
  | dropped
  deriving Repr, DecidableEq

inductive CaptureThread where
  | absent
  | settingUp (calls : List SetupCall)
  | looping
  | ended

/-- The two threads and what they share. -/
structure State where
  caller : Caller := .starting
  thread : CaptureThread := .absent
  ud : StreamData
  /-- Nothing has been sent over `ready`: the sender is still there. -/
  ready : Bool := true
  /-- What has been sent over `ready` and not received. -/
  channel : List (Except CaptureError Unit) := []
  stop : Bool := false
  /-- The main loop has been told to quit. -/
  quit : Bool := false

def start (env : Env) : State := { ud := StreamData.new env.expected }

namespace State

/-- The first result is sent, and the sender dropped. -/
def report (σ : State) (result : Except CaptureError Unit) : State :=
  if σ.ready then { σ with ready := false, channel := σ.channel ++ [result] } else σ

/-- Whether there is a sender: the thread drops it when it ends. -/
def connected (σ : State) : Bool :=
  match σ.thread with
  | .ended => false
  | _ => σ.ready

end State

/-- What the library calls back. -/
inductive Callback where
  /-- The stream changes its state, to an error or not. -/
  | stateChanged (error : Option String)
  /-- A parameter changes, the format or another, and it may be unset. -/
  | paramChanged (isFormat : Bool) (param : Option Param)
  | process (buffer : Option (List BufferData))

def callBack (env : Env) (σ : State) : Callback → Option State
  | .stateChanged (some msg) =>
    some { σ.report (.error (.Pipewire ("stream error: " ++ msg))) with quit := true }
  | .stateChanged none => some σ
  | .paramChanged true (some param) =>
    match onFormat σ.ud param with
    | .error e => some { σ.report (.error e) with quit := true }
    | .ok ud =>
      match param with
      | .video _ _ => some { (σ.report (.ok ())) with ud }
      -- Another kind of media is left alone.
      | _ => some σ
  | .paramChanged _ _ => some σ
  | .process buffer => (onProcess env.overflowChecks buffer σ.ud).map fun ud => { σ with ud }

inductive Action where
  /-- The caller asks the portal and spawns the thread. -/
  | start
  | recv
  | join
  | fill (dst : I420Buffer)
  | drop
  /-- The capture thread makes its next call, or enters the main loop. -/
  | setup
  | callback (c : Callback)
  /-- The timer finds `stop` set. -/
  | timer
  /-- The main loop returns. -/
  | leave

/-- What is seen of the caller. -/
inductive Event where
  | returned (r : Except StartError Unit)
  | filled (got : Bool) (dst : I420Buffer)
  | dropped

variable (env : Env)

/-- One step of the capture thread. -/
def threadStep (σ : State) : Action → Option State
  | .setup =>
    match σ.thread with
    | .settingUp (some (.ok ()) :: calls) => some { σ with thread := .settingUp calls }
    | .settingUp (some (.error e) :: _) => some { σ.report (.error e) with thread := .ended }
    -- A panic ends the thread without a report.
    | .settingUp (none :: _) => some { σ with thread := .ended }
    | .settingUp [] => some { σ with thread := .looping }
    | _ => none
  | .callback c =>
    match σ.thread with
    | .looping => callBack env σ c
    | _ => none
  | .timer =>
    match σ.thread with
    | .looping => if σ.stop && !σ.quit then some { σ with quit := true } else none
    | _ => none
  | .leave =>
    match σ.thread with
    | .looping => if σ.quit then some { σ with thread := .ended } else none
    | _ => none
  | _ => none

/-- One step of the caller, with what is seen of it. -/
def callerStep (σ : State) : Action → Option (State × List Event)
  | .start =>
    match σ.caller with
    | .starting =>
      match openCapture env with
      | .ok calls => some ({ σ with caller := .waiting, thread := .settingUp calls }, [])
      | .error e => some ({ σ with caller := .failed e }, [.returned (.error e)])
    | _ => none
  | .recv =>
    match σ.caller, σ.channel with
    | .waiting, .ok () :: channel =>
      some ({ σ with caller := .capturing, channel }, [.returned (.ok ())])
    | .waiting, .error e :: channel => some ({ σ with caller := .joining (.Stream e), channel }, [])
    | .waiting, [] =>
      if σ.connected then none else some ({ σ with caller := .joining .StartupAborted }, [])
    | _, _ => none
  | .join =>
    match σ.caller, σ.thread with
    | .joining e, .ended => some ({ σ with caller := .failed e }, [.returned (.error e)])
    | .dropping, .ended => some ({ σ with caller := .dropped }, [.dropped])
    | _, _ => none
  | .fill dst =>
    match σ.caller with
    | .capturing => (fill σ.ud.slot dst).map fun r => (σ, [.filled r.1 r.2])
    | _ => none
  | .drop =>
    match σ.caller with
    | .capturing => some ({ σ with caller := .dropping, stop := true }, [])
    | _ => none
  | _ => none

/-- One step of one of the threads. -/
def step (σ : State) : Action → Option (State × List Event)
  | .start => callerStep env σ .start
  | .recv => callerStep env σ .recv
  | .join => callerStep env σ .join
  | .fill dst => callerStep env σ (.fill dst)
  | .drop => callerStep env σ .drop
  | a => (threadStep env σ a).map fun σ => (σ, [])

end Screencast

end LoomHost
