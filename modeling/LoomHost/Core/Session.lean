import LoomHost.Core.Control

/-!
# The Host Session

The session state machine of `loomd/src/session.rs`: decoded control frames go
in, outputs come out. It assembles message bodies and reads decoded ones, and
knows nothing of sockets or bytes.

The integers of a body are `i128` in the source and integers here; they are
cast to the width the source casts them to, where it does. The generation is a
`u64` and wraps.

## Main definitions

* `MediaParams`, `StreamConfig`, `Output`, `StatsReport`, `State`,
  `HostSession`: The data.
* `intKey`, `pairElem`, `floatKey`, `offersCodec`: Reading a body.
* `clampViewport?`, `onViewport?`: What may panic, and does not.
* `onHello`, `onConfigAck`, `onStreaming`, `onViewport`,
  `onReconfigAck`: The handlers.
* `onFrame`: One decoded frame.
* `run`: A sequence of them.
-/

namespace LoomHost

namespace Errors

/-- Clean close, after BYE. -/
def NONE : UInt64 := 0x00

/-- HELLO `protocol_version` not acceptable. -/
def VERSION_UNSUPPORTED : UInt64 := 0x01

/-- Host already has an active session. -/
def BUSY : UInt64 := 0x02

/-- Client offered no codec the host can encode. -/
def NO_COMMON_CODEC : UInt64 := 0x03

/-- Framing or state-machine violation. -/
def PROTOCOL_VIOLATION : UInt64 := 0x04

/-- Peer lacks QUIC datagram support. -/
def DATAGRAM_UNSUPPORTED : UInt64 := 0x05

/-- Certificate not pinned, or pairing required. -/
def AUTH_FAILED : UInt64 := 0x06

/-- The stable name for a code. Unknown codes read as `INTERNAL`. -/
def name (code : UInt64) : String :=
  if code = NONE then "NONE"
  else if code = VERSION_UNSUPPORTED then "VERSION_UNSUPPORTED"
  else if code = BUSY then "BUSY"
  else if code = NO_COMMON_CODEC then "NO_COMMON_CODEC"
  else if code = PROTOCOL_VIOLATION then "PROTOCOL_VIOLATION"
  else if code = DATAGRAM_UNSUPPORTED then "DATAGRAM_UNSUPPORTED"
  else if code = AUTH_FAILED then "AUTH_FAILED"
  else "INTERNAL"

end Errors

namespace Session

open Cbor Control

/-- The protocol version, HELLO key 0. -/
def PROTOCOL_VERSION : UInt64 := 1

/-- The one codec the host can encode. -/
def CODEC_HEVC : UInt64 := 1

/-- Host encode ceiling for a VIEWPORT request. -/
def HOST_MAX_WIDTH : UInt64 := 3840

def HOST_MAX_HEIGHT : UInt64 := 2160

/-- Floor for a clamped VIEWPORT dimension. -/
def MIN_DIM : UInt64 := 640

/-- HELLO key 5 feature bit 1: the client can fan in concurrent streams. -/
def FEATURE_MULTI_DISPLAY : UInt64 := 0b10

/-- The media parameters the host advertises in CONFIG. -/
structure MediaParams where
  codec : UInt64 := CODEC_HEVC
  width : UInt64 := 2560
  height : UInt64 := 1440
  /-- Refresh rate in Hz. -/
  refresh : UInt64 := 72
  /-- Audio mode. -/
  audio : UInt64 := 0
  bitrateKbps : UInt64 := 60000
  deriving Repr, DecidableEq

/-- One additional video stream the host offers beyond the primary. -/
structure StreamConfig where
  streamId : UInt16
  params : MediaParams
  /-- Position in the host's global layout. -/
  x : Int32
  y : Int32
  deriving Repr, DecidableEq

/-- A parsed client STATS report. -/
structure StatsReport where
  framesReceived : Int64
  framesDropped : Int64
  datagrams : Int64
  jitterMs : Float
  decodeUs : Int64
  rttUs : Int64
  e2eUs : Option Int64
  streamId : UInt16

/-- An instruction from the state machine to its driver, in order. -/
inductive Output where
  /-- Encode and send this control message. -/
  | Send (msgType : UInt64) (body : List (Value × Value))
  /-- START has been emitted; media may begin. -/
  | StartMedia (multi : Bool)
  /-- The client asked for a fresh IDR on a video stream. -/
  | RequestIdr (streamId : UInt16)
  /-- A resolution change was acknowledged. -/
  | Reconfigure (params : MediaParams)
  /-- Reply to a CLOCK_PING. -/
  | ClockPong (t0 : Int64)
  /-- A client STATS report for the log. -/
  | Stats (r : StatsReport)
  /-- Flush pending sends, then close the connection with `code`. -/
  | Close (code : UInt64)

/-- Session phase. -/
inductive State where
  | WaitHello
  | WaitConfigAck
  | Streaming
  /-- Terminal, no further frames are processed. -/
  | Closed
  deriving Repr, DecidableEq

/-- The host side of one session. -/
structure HostSession where
  state : State
  hostName : String
  sessionId : Vector UInt8 16
  params : MediaParams
  /-- CONFIG generation, increments per CONFIG. -/
  generation : UInt64
  /-- Client's max decodable size, the ceiling for a VIEWPORT clamp. -/
  clientMaxWidth : UInt64
  clientMaxHeight : UInt64
  /-- The generation of a reconfiguration whose CONFIG_ACK is awaited. -/
  pendingGeneration : Option UInt64
  extraStreams : List StreamConfig
  /-- Whether multi-display was negotiated. -/
  multiActive : Bool

section Body

variable (body : List (Value × Value))

/-- Look up an integer body value by key. -/
def intKey (key : ℤ) : Option ℤ :=
  body.findSome? fun
    | (.Int ki, .Int vi) => if ki = key then some vi else none
    | _ => none

/-- Element `idx` of an array body value, if it is an integer. -/
def pairElem (key : ℤ) (idx : ℕ) : Option ℤ :=
  body.findSome? fun
    | (.Int ki, .Array items) =>
      if ki = key then
        match items[idx]? with
        | some (.Int vi) => some vi
        | _ => none
      else none
    | _ => none

/-- Look up a floating-point body value by key. -/
def floatKey (key : ℤ) : Option Float :=
  body.findSome? fun
    | (.Int ki, .Float f) => if ki = key then some f else none
    | _ => none

/-- Whether HELLO key 2, the codec list, contains `codec`. -/
def offersCodec (codec : UInt64) : Bool :=
  body.any fun
    | (.Int 2, .Array items) => items.any fun
      | .Int i => i = codec.toNat
      | _ => false
    | _ => false

/-- The report of a STATS body, with the defaults of absent keys. -/
def StatsReport.fromBody : StatsReport :=
  { framesReceived := Int64.ofInt ((intKey body 0).getD 0)
    framesDropped := Int64.ofInt ((intKey body 1).getD 0)
    datagrams := Int64.ofInt ((intKey body 2).getD 0)
    jitterMs := (floatKey body 3).getD 0
    decodeUs := Int64.ofInt ((intKey body 4).getD 0)
    rttUs := Int64.ofInt ((intKey body 5).getD 0)
    e2eUs := (intKey body 6).map Int64.ofInt
    streamId := UInt16.ofInt ((intKey body 7).getD 0) }

end Body

/-- `u64::clamp`, which panics unless its bounds are in order. -/
def clamp (x lo hi : UInt64) : Option UInt64 :=
  if lo ≤ hi then some (if x < lo then lo else if x > hi then hi else x) else none

theorem clamp_isSome (x : UInt64) {lo hi : UInt64} (h : lo ≤ hi) : (clamp x lo hi).isSome := by
  rw [clamp, if_pos h, Option.isSome_some]

/-- The bounds of a clamp to a maximum are in order if the floor is one of the two that
    make the maximum. -/
theorem min_dim_le (maxX : UInt64) : MIN_DIM ≤ max maxX MIN_DIM := by
  rw [UInt64.le_iff_toNat_le, UInt64.toNat_max]
  exact le_max_right _ _

namespace HostSession

/-- A fresh session awaiting HELLO. -/
def new (hostName : String) (sessionId : Vector UInt8 16) (params : MediaParams)
    (extraStreams : List StreamConfig) : HostSession :=
  { state := .WaitHello, hostName, sessionId, params, generation := 0,
    clientMaxWidth := params.width, clientMaxHeight := params.height,
    pendingGeneration := none, extraStreams, multiActive := false }

variable (s : HostSession)

/-- The body of WELCOME; key 3 only when a feature is active. -/
def welcomeBody : List (Value × Value) :=
  [(.Int 0, .Int PROTOCOL_VERSION.toNat), (.Int 1, .Text s.hostName),
    (.Int 2, .Bytes s.sessionId.toList)] ++
    if s.multiActive then [(.Int 3, .Int FEATURE_MULTI_DISPLAY.toNat)] else []

/-- An entry of CONFIG key 6. -/
def extraEntry (c : StreamConfig) : Value :=
  .Map [(.Int 0, .Int c.streamId.toNat),
    (.Int 1, .Array [.Int c.params.width.toNat, .Int c.params.height.toNat]),
    (.Int 2, .Int c.params.refresh.toNat), (.Int 3, .Int c.params.bitrateKbps.toNat),
    (.Int 4, .Array [.Int c.x.toInt, .Int c.y.toInt])]

/-- The body of CONFIG; key 6 only when multi-display is active. -/
def configBody : List (Value × Value) :=
  [(.Int 0, .Int s.generation.toNat), (.Int 1, .Int s.params.codec.toNat),
    (.Int 2, .Array [.Int s.params.width.toNat, .Int s.params.height.toNat]),
    (.Int 3, .Int s.params.refresh.toNat), (.Int 4, .Int s.params.audio.toNat),
    (.Int 5, .Int s.params.bitrateKbps.toNat)] ++
    if s.multiActive then [(.Int 6, .Array (s.extraStreams.map extraEntry))] else []

/-- ERROR and a matching close, and the session is closed. -/
def fatal (code : UInt64) (detail : String) : HostSession × List Output :=
  ({ s with state := .Closed },
    [.Send ERROR [(.Int 0, .Int code.toNat), (.Int 1, .Text detail)], .Close code])

/-- ERROR and close for a framing or ordering violation. -/
def protocolViolation : HostSession × List Output :=
  s.fatal Errors.PROTOCOL_VIOLATION "unexpected message for state"

/-- Clamp a requested size to the host ceiling and the client's maximum, with
    the floor `MIN_DIM`, and force even dimensions. `none` is a panic. -/
def clampViewport? (w h : UInt64) : Option (UInt64 × UInt64) := do
  let maxW := min HOST_MAX_WIDTH s.clientMaxWidth
  let maxH := min HOST_MAX_HEIGHT s.clientMaxHeight
  let cw ← clamp w MIN_DIM (max maxW MIN_DIM)
  let ch ← clamp h MIN_DIM (max maxH MIN_DIM)
  some (cw &&& ~~~1, ch &&& ~~~1)

/-- Neither clamp panics, whatever the client's maximum. -/
theorem clampViewport?_isSome (w h : UInt64) : (s.clampViewport? w h).isSome := by
  unfold clampViewport?
  rcases Option.isSome_iff_exists.mp
    (clamp_isSome w (min_dim_le (min HOST_MAX_WIDTH s.clientMaxWidth))) with ⟨cw, hcw⟩
  rcases Option.isSome_iff_exists.mp
    (clamp_isSome h (min_dim_le (min HOST_MAX_HEIGHT s.clientMaxHeight))) with ⟨ch, hch⟩
  simp only [hcw, hch, Option.bind_eq_bind, Option.bind_some, Option.isSome_some]

def clampViewport (w h : UInt64) : UInt64 × UInt64 :=
  (s.clampViewport? w h).get (s.clampViewport?_isSome w h)

/-- A new size is announced, unless it is the present one or another is pending. -/
def announceSize (size : UInt64 × UInt64) : HostSession × List Output :=
  if s.pendingGeneration.isSome ∨ (size.1 = s.params.width ∧ size.2 = s.params.height) then (s, [])
  else
    let s :=
      { s with
        params := { s.params with width := size.1, height := size.2 }
        generation := s.generation + 1
        pendingGeneration := some (s.generation + 1) }
    (s, [.Send CONFIG s.configBody])

/-- A best-effort request to stream at the client's window size. `none` is a panic of
    the clamp. -/
def onViewport? (body : List (Value × Value)) : Option (HostSession × List Output) :=
  match pairElem body 0 0, pairElem body 0 1 with
  | some rw, some rh =>
    (s.clampViewport? (UInt64.ofInt rw) (UInt64.ofInt rh)).map s.announceSize
  -- A malformed request is ignored.
  | _, _ => some (s, [])

/-- What a VIEWPORT does: never a panic. -/
theorem onViewport?_cases (body : List (Value × Value)) :
    (∃ rw rh, pairElem body 0 0 = some rw ∧ pairElem body 0 1 = some rh ∧
      s.onViewport? body =
        some (s.announceSize (s.clampViewport (UInt64.ofInt rw) (UInt64.ofInt rh)))) ∨
    (pairElem body 0 0 = none ∨ pairElem body 0 1 = none) ∧
      s.onViewport? body = some (s, []) := by
  unfold onViewport?
  cases hwidth : pairElem body 0 0 with
  | none => exact Or.inr ⟨Or.inl rfl, rfl⟩
  | some rw =>
      cases hheight : pairElem body 0 1 with
      | none => exact Or.inr ⟨Or.inr rfl, rfl⟩
      | some rh =>
          refine Or.inl ⟨rw, rh, rfl, rfl, ?_⟩
          exact congrArg (Option.map s.announceSize) (Option.some_get _).symm

theorem onViewport?_isSome (body : List (Value × Value)) : (s.onViewport? body).isSome := by
  rcases s.onViewport?_cases body with ⟨rw, rh, -, -, heq⟩ | ⟨-, heq⟩
  · rw [heq, Option.isSome_some]
  · rw [heq, Option.isSome_some]

def onViewport (body : List (Value × Value)) : HostSession × List Output :=
  (s.onViewport? body).get (s.onViewport?_isSome body)

theorem onViewport_cases (body : List (Value × Value)) :
    (∃ rw rh, pairElem body 0 0 = some rw ∧ pairElem body 0 1 = some rh ∧
      s.onViewport body =
        s.announceSize (s.clampViewport (UInt64.ofInt rw) (UInt64.ofInt rh))) ∨
    (pairElem body 0 0 = none ∨ pairElem body 0 1 = none) ∧ s.onViewport body = (s, []) := by
  have hget : s.onViewport? body = some (s.onViewport body) := (Option.some_get _).symm
  rcases s.onViewport?_cases body with ⟨rw, rh, hwidth, hheight, heq⟩ | ⟨hnone, heq⟩
  · rw [hget, Option.some.injEq] at heq
    exact Or.inl ⟨rw, rh, hwidth, hheight, heq⟩
  · rw [hget, Option.some.injEq] at heq
    exact Or.inr ⟨hnone, heq⟩

/-- CONFIG_ACK while streaming completes a pending reconfiguration. -/
def onReconfigAck (body : List (Value × Value)) : HostSession × List Output :=
  match intKey body 0, s.pendingGeneration with
  | some g, some pending =>
    if g = pending.toNat then
      ({ s with pendingGeneration := none }, [.Reconfigure s.params])
    else s.protocolViolation
  | _, _ => s.protocolViolation

/-- HELLO; anything else here is a violation. -/
def onHello (msgType : UInt64) (body : List (Value × Value)) : HostSession × List Output :=
  if msgType ≠ HELLO then s.protocolViolation
  else if intKey body 0 ≠ some (PROTOCOL_VERSION.toNat : ℤ) then
    s.fatal Errors.VERSION_UNSUPPORTED "unsupported protocol_version"
  else if ¬ offersCodec body CODEC_HEVC then
    s.fatal Errors.NO_COMMON_CODEC "no common codec (host: HEVC)"
  else
    let s :=
      match pairElem body 3 0, pairElem body 3 1 with
      | some w, some h =>
        { s with clientMaxWidth := UInt64.ofInt w, clientMaxHeight := UInt64.ofInt h }
      | _, _ => s
    let clientFeatures := UInt64.ofInt ((intKey body 5).getD 0)
    let clientMulti := clientFeatures &&& FEATURE_MULTI_DISPLAY != 0
    let s :=
      { s with
        multiActive := clientMulti && !s.extraStreams.isEmpty
        generation := 1
        state := .WaitConfigAck }
    (s, [.Send WELCOME s.welcomeBody, .Send CONFIG s.configBody])

/-- CONFIG_ACK of the first CONFIG; it must carry the current generation. -/
def onConfigAck (msgType : UInt64) (body : List (Value × Value)) :
    HostSession × List Output :=
  if msgType ≠ CONFIG_ACK then s.protocolViolation
  else if intKey body 0 ≠ some (s.generation.toNat : ℤ) then s.protocolViolation
  else ({ s with state := .Streaming }, [.Send START [], .StartMedia s.multiActive])

/-- Streaming-phase client messages. -/
def onStreaming (msgType : UInt64) (body : List (Value × Value)) : HostSession × List Output :=
  if msgType = IDR_REQUEST then
    (s, [.RequestIdr (UInt16.ofInt ((intKey body 1).getD 0))])
  else if msgType = STATS then (s, [.Stats (StatsReport.fromBody body)])
  else if msgType = VIEWPORT then s.onViewport body
  else if msgType = CONFIG_ACK then s.onReconfigAck body
  else if msgType = INPUT then (s, [])
  else s.protocolViolation

/-- Feed one decoded control frame: the outputs it triggers, in order. -/
def onFrame : Decoded → HostSession × List Output
  | .Ignored => (s, [])
  | .Message msgType body =>
    if s.state = .Closed then (s, [])
    else if msgType = BYE then ({ s with state := .Closed }, [.Close Errors.NONE])
    else if msgType = CLOCK_PING then (s, [.ClockPong (Int64.ofInt ((intKey body 0).getD 0))])
    else
      match s.state with
      | .WaitHello => s.onHello msgType body
      | .WaitConfigAck => s.onConfigAck msgType body
      | .Streaming => s.onStreaming msgType body
      | .Closed => (s, [])

/-- Feed a sequence of decoded frames. -/
def run (frames : List Decoded) : HostSession :=
  frames.foldl (fun s frame => (s.onFrame frame).1) s

end HostSession

end Session

end LoomHost
