import LoomHost.Core.Media
import LoomHost.Core.Transport

/-!
# The Connection Driver

The driver of one connection, `loomd/src/conn.rs`: it reads frames off the
control stream, hands them to the session, and applies the session's outputs to
the wire.

What the transport does is an environment: the control stream that arrives, or
none; the outcome of each write; and whether the connection is lost by itself
before the session loop returns. A driver records what it has written, the media
threads it has started with what it told each of them, and the close it made.

The source and the display of a stream are handed on to its media thread unread.
So are the encoder and the injected loss of the host, which are left out.

## Main definitions

* `StreamSpec`, `HostCfg`: The settings.
* `Env`: What the transport does.
* `MediaHandle`, `Driver`: What the driver does.
* `drive`: Apply outputs.
* `rejectBusy`: The answer to a surplus connection.
* `sessionLoop`, `runSession`: The driver.
* `closeReason`: What the media threads see of the connection.
-/

namespace LoomHost

namespace Conn

open Cbor Control Session

/-- One video stream the host serves. -/
structure StreamSpec where
  streamId : UInt16
  params : MediaParams
  /-- What the media thread encodes. -/
  source : Media.CaptureSource
  /-- The display to capture, `none` for the default of the source. -/
  display : Option UInt32
  /-- Position in the host's global layout. -/
  x : Int32
  y : Int32
  deriving Repr, DecidableEq

/-- Per-daemon settings. Element 0 of the streams is the primary, always
    present. -/
structure HostCfg where
  name : String
  streams : List StreamSpec
  nonempty : streams ≠ []

namespace HostCfg

variable (cfg : HostCfg)

/-- The primary stream. -/
def primary : StreamSpec := cfg.streams.head cfg.nonempty

/-- The session's view of the extra streams. -/
def extraStreamConfigs : List StreamConfig :=
  cfg.streams.tail.map fun s => { streamId := s.streamId, params := s.params, x := s.x, y := s.y }

end HostCfg

/-- What the transport does in one session. -/
structure Env where
  /-- The control stream, or `none` if the connection goes before it comes. -/
  acceptBi : Option RecvStream
  /-- The outcome of writing the `n`-th frame. -/
  writes : ℕ → Except WriteError Unit
  /-- The clock when the `n`-th frame is made up. -/
  clock : ℕ → UInt64
  sessionId : Vector UInt8 16
  /-- The connection is lost by itself before the session loop returns. -/
  lost : Bool

/-- A handle to a media thread, with what it was told. -/
structure MediaHandle where
  streamId : UInt16
  params : MediaParams
  /-- Requests for an IDR. -/
  idr : ℕ := 0
  /-- Resolution changes, in order. -/
  reconfig : List MediaParams := []
  deriving Repr, DecidableEq

namespace MediaHandle

/-- Start a media thread for one stream. -/
def spawn (spec : StreamSpec) : MediaHandle :=
  { streamId := spec.streamId, params := spec.params }

def requestIdr (m : MediaHandle) : MediaHandle := { m with idr := m.idr + 1 }

def reconfigure (params : MediaParams) (m : MediaHandle) : MediaHandle :=
  { m with reconfig := m.reconfig ++ [params] }

end MediaHandle

/-- Why a connection is closed. -/
inductive CloseReason where
  | LocallyClosed (code : UInt32) (reason : String)
  | ConnectionLost
  deriving Repr, DecidableEq

/-- What a driver has done. -/
structure Driver where
  /-- The frames written to the control stream. -/
  sent : List (List UInt8) := []
  /-- The host has finished the control stream. -/
  finished : Bool := false
  media : List MediaHandle := []
  /-- The close the driver made. -/
  closed : Option CloseReason := none

namespace Driver

variable (d : Driver)

def finish : Driver := { d with finished := true }

/-- Close the connection. The first close counts. -/
def close (code : UInt64) (reason : String) : Driver :=
  { d with closed := d.closed <|> some (.LocallyClosed code.toUInt32 reason) }

/-- Tell the first media thread of a stream. -/
def tell (streamId : UInt16) (f : MediaHandle → MediaHandle) : Driver :=
  { d with
    media :=
      match d.media.findIdx? fun m => m.streamId = streamId with
      | some i => d.media.modify i f
      | none => d.media }

end Driver

/-- The body of an ERROR the driver sends itself. -/
def errorBody (code : UInt64) : List (Value × Value) :=
  [(.Int 0, .Int code.toNat), (.Int 1, .Text (Errors.name code))]

variable (env : Env) (cfg : HostCfg)

/-- Encode a message and write it to the control stream. -/
def sendFrame (d : Driver) (msgType : UInt64) (body : List (Value × Value)) :
    Except IoError Unit × Driver :=
  match env.writes d.sent.length with
  | .ok () => (.ok (), { d with sent := d.sent ++ [encodeFrame msgType body] })
  | .error e => (.error (.Write e), d)

/-- Apply session outputs to the wire. Returns `true` when the connection is
    done. -/
def drive (d : Driver) : List Output → Except IoError Bool × Driver
  | [] => (.ok false, d)
  | .Send msgType body :: outputs =>
    match sendFrame env d msgType body with
    | (.ok (), d) => drive d outputs
    | (.error e, d) => (.error e, d)
  | .StartMedia multi :: outputs =>
    let specs := if multi then cfg.streams else [cfg.primary]
    drive { d with media := d.media ++ specs.map MediaHandle.spawn } outputs
  | .RequestIdr streamId :: outputs => drive (d.tell streamId MediaHandle.requestIdr) outputs
  | .Reconfigure params :: outputs => drive (d.tell 0 (MediaHandle.reconfigure params)) outputs
  | .ClockPong t0 :: outputs =>
    let now : ℤ := (env.clock d.sent.length).toNat
    match sendFrame env d CLOCK_PONG
        [(.Int 0, .Int t0.toInt), (.Int 1, .Int now), (.Int 2, .Int now)] with
    | (.ok (), d) => drive d outputs
    | (.error e, d) => (.error e, d)
  | .Stats _ :: outputs => drive d outputs
  | .Close code :: _ => (.ok true, d.finish.close code (Errors.name code))

/-- Tell a surplus connection that it is busy, on its own control stream, and close
    it. Whether the write succeeds makes no difference. -/
def rejectBusy : Driver :=
  let d : Driver :=
    match env.acceptBi with
    | some _ => (sendFrame env {} ERROR (errorBody Errors.BUSY)).2.finish
    | none => {}
  d.close Errors.BUSY "busy"

variable (fromReader : List UInt8 → Option Rfc8949.Item)

/-- The loop of `sessionLoop`, on the control stream as far as it is read. -/
def sessionFrames (s : HostSession) (recv : RecvStream) (d : Driver) :
    Except IoError Unit × Driver :=
  match h : readFrame recv with
  | (.ok (.Frame bytes), recv') =>
    have := length_readFrame recv recv' bytes h
    match decodeFrame fromReader bytes with
    | .ok decoded =>
      let (s, outputs) := s.onFrame decoded
      match drive env cfg d outputs with
      | (.ok done, d) =>
        if done then (.ok (), d)
        else if s.state = .Closed then (.ok (), d)
        else sessionFrames s recv' d
      | (.error e, d) => (.error e, d)
    | .error _ =>
      -- Malformed framing or CBOR the session never sees.
      match sendFrame env d ERROR (errorBody Errors.PROTOCOL_VIOLATION) with
      | (.ok (), d) => (.ok (), d.finish.close Errors.PROTOCOL_VIOLATION "bad frame")
      | (.error e, d) => (.error e, d)
  -- The peer finished the stream without BYE: a clean close.
  | (.ok .Eof, _) => (.ok (), d.close Errors.NONE "eof")
  | (.error e, _) => (.error e, d)
termination_by recv.data.length

/-- Drive the session over the control stream, which the client opens. -/
def sessionLoop : Except IoError Unit × Driver :=
  match env.acceptBi with
  | some recv =>
    sessionFrames env cfg fromReader
      (HostSession.new cfg.name env.sessionId cfg.primary.params cfg.extraStreamConfigs) recv {}
  | none => (.error .AcceptBi, {})

/-- An error the transport reports only once the connection is lost. -/
def IoError.isLost : IoError → Bool
  | .AcceptBi => true
  | .ReadLen (.ReadError .ConnectionLost) => true
  | .ReadBody (.ReadError .ConnectionLost) => true
  | .Write .ConnectionLost => true
  | _ => false

/-- The close reason of the connection when the session loop has returned. -/
def closeReason (r : Except IoError Unit × Driver) : Option CloseReason :=
  let reported := match r.1 with
    | .ok () => false
    | .error e => e.isLost
  r.2.closed <|> if env.lost || reported then some .ConnectionLost else none

/-- Drive the session and join the media threads: the result, and the threads
    that `join` waits for on an open connection. A thread that sees a close
    reason stops. -/
def runSession : Except IoError Unit × List MediaHandle :=
  let r := sessionLoop env cfg fromReader
  (r.1, if (closeReason env r).isSome then [] else r.2.media)

end Conn

end LoomHost
