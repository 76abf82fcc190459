import LoomHost.Core.Datagram
import LoomHost.Core.Reassembly
import LoomHost.Core.Session

/-!
# The Media Loop

The media loop of one stream, `run` of `loomd/src/media/mod.rs`: each tick it
takes in the reconfigurations and IDR requests that have come, gets a picture,
has it encoded, and sends the fragments of the access unit the encoder returns.

The encoder and the frame source are a `Backend`; what else a tick meets is a
`Tick`. The frame counter wraps at 32 bits. An encoder may hold back a picture
and return nothing, and then the counter stays.

The loop keeps no number for its encoders. Here they are numbered as they are
opened, and every access unit is recorded with the number of the encoder that
returned it.

Every turn that does not stop the loop ends with a call of `pace`. Time there is
in nanoseconds, and what the clock and the scheduler do between two calls is a
`Lag`.

The receiving side is that of `loomd/tests/recovery.rs`: a datagram that decodes
and belongs to the stream is a fragment for the reassembler.

## Main definitions

* `encoderConfig`: The encoder's configuration.
* `DropInjector`: Injected loss.
* `CaptureSource`, `Backend`, `Source`, `Tick`: What the loop meets.
* `Thread`: Its state.
* `tick`, `frames`, `run`: The loop.
* `pace`, `calls`: Its pace.
* `receive`: The receiving side.
-/

namespace LoomHost

namespace Media

open Session Reassembly Datagram

section Constraints

/-- Max consecutive B-frames. -/
def BFRAMES : UInt32 := 0

/-- Max reference frames. -/
def MAX_REF : UInt32 := 1

/-- Intra period; the largest one is none. -/
def KEYINT_MAX : Int32 := Int32.maxValue

/-- Repeat the parameter sets with every IDR. -/
def REPEAT_HEADERS : Bool := true

/-- Scene-cut-triggered I-frames. -/
def SCENECUT : Bool := false

structure EncoderConfig where
  width : UInt32
  height : UInt32
  fpsNum : UInt32
  fpsDen : UInt32
  bitrateKbps : UInt32
  bframes : UInt32
  maxRef : UInt32
  keyintMax : Int32
  repeatHeaders : Bool
  scenecut : Bool
  deriving Repr, DecidableEq

/-- The encoder configuration for stream parameters. -/
def encoderConfig (width height fps bitrateKbps : UInt32) : EncoderConfig :=
  { width, height, fpsNum := fps, fpsDen := 1, bitrateKbps, bframes := BFRAMES,
    maxRef := MAX_REF, keyintMax := KEYINT_MAX, repeatHeaders := REPEAT_HEADERS,
    scenecut := SCENECUT }

end Constraints

/-- One encoded access unit. -/
structure AccessUnit where
  /-- This is an IDR, which resets the reference chain. -/
  keyframe : Bool
  data : List UInt8
  deriving Repr, DecidableEq

/-- Deterministic loss of a percentage of the datagrams. -/
structure DropInjector where
  state : UInt64
  percent : UInt32
  deriving Repr, DecidableEq

namespace DropInjector

def new (percent : UInt32) : DropInjector := { state := 0x9E3779B97F4A7C15, percent }

/-- Whether to drop the next datagram: one step of xorshift64. -/
def shouldDrop (g : DropInjector) : Bool × DropInjector :=
  if g.percent = 0 then (false, g)
  else
    let x := g.state
    let x := x ^^^ (x <<< 13)
    let x := x ^^^ (x >>> 7)
    let x := x ^^^ (x <<< 17)
    (x % 100 < g.percent.toUInt64, { g with state := x })

end DropInjector

/-- What the frames of a stream are captured from, `--source`. -/
inductive CaptureSource where
  | Synthetic
  | Portal
  | Sck
  deriving Repr, DecidableEq

/-- The live frame source: the test pattern, which renders a picture by its
    number unless that panics, or a capture with the picture it holds, none before
    the first. -/
inductive Source (P : Type*) where
  | Synthetic (render : UInt32 → Option P)
  | Captured (frame : Option P)

/-- The picture of a tick, if there is one: a capture takes a new one if it has
    come, and repeats the one it holds otherwise. `none` is a panic. -/
def Source.picture {P : Type*} (source : Source P) (frameSeq : UInt32) (fill : Option P) :
    Option (Option P × Source P) :=
  match source with
  | .Synthetic render => (render frameSeq).map fun planes => (some planes, source)
  | .Captured frame => some (fill <|> frame, .Captured (fill <|> frame))

/-- The encoder, with states `E`, and the frame source, with pictures `P`.
    `none` is an error or a panic: the thread ends with either. -/
structure Backend (E P : Type*) where
  openEncoder : EncoderConfig → Option E
  openSource : MediaParams → Option (Source P)
  /-- An access unit or nothing, for a picture, its time stamp, and whether to
      force an IDR. -/
  encodeI420 : E → P → Int64 → Bool → Option (Option AccessUnit × E)

/-- What a tick of the loop meets. -/
structure Tick (P : Type*) where
  /-- The connection has a close reason. -/
  closed : Bool
  /-- The reconfigurations that have come since the last tick, oldest first. -/
  reconfig : List MediaParams
  /-- The IDR requests that have come since the last tick. -/
  idr : ℕ
  /-- A new picture from the capture. -/
  fill : Option P
  captureTs : UInt64
  /-- Sending the `n`-th datagram of the tick succeeds. -/
  sendDatagram : ℕ → Bool

/-- The state of the loop. -/
structure Thread (E P : Type*) where
  encoder : E
  source : Source P
  params : MediaParams
  dropGen : DropInjector
  frameSeq : UInt32
  /-- IDR requests not taken in yet. -/
  idrWaiting : ℕ
  /-- The number of encoders opened so far. -/
  opened : ℕ

/-- An access unit the encoder has returned, and what became of it. -/
structure Frame where
  /-- The number of its encoder. -/
  encoder : ℕ
  frameSeq : UInt32
  au : AccessUnit
  /-- The frame body: the capture time stamp and the access unit. -/
  body : List UInt8
  /-- The datagrams that were sent. -/
  sent : List (List UInt8)
  deriving Repr, DecidableEq

/-- Send datagrams, those that are not dropped, until sending fails. -/
def sendDatagrams (sendDatagram : ℕ → Bool) :
    DropInjector → ℕ → List (List UInt8) → List (List UInt8) × DropInjector
  | dropGen, _, [] => ([], dropGen)
  | dropGen, sent, dg :: frags =>
    let (drop, dropGen) := dropGen.shouldDrop
    if drop then sendDatagrams sendDatagram dropGen sent frags
    else if sendDatagram sent then
      let (rest, dropGen) := sendDatagrams sendDatagram dropGen (sent + 1) frags
      (dg :: rest, dropGen)
    else ([], dropGen)

section Loop

variable {E P : Type*} (backend : Backend E P) (streamId : UInt16)

/-- The encoder and the source for stream parameters. -/
def Backend.openBoth (params : MediaParams) : Option (Source P × E) :=
  match backend.openEncoder (encoderConfig params.width.toUInt32 params.height.toUInt32
      params.refresh.toUInt32 params.bitrateKbps.toUInt32) with
  | some encoder =>
    match backend.openSource params with
    | some source => some (source, encoder)
    | none => none
  | none => none

/-- Mid-session reconfiguration: the newest of the parameters that have come.
    Returns whether there was one; `none` if it fails. -/
def reconfigure (m : Thread E P) (reconfig : List MediaParams) : Option (Thread E P × Bool) :=
  match reconfig.getLast? with
  | some params =>
    match backend.openBoth params with
    | some (source, encoder) =>
      some ({ m with source, encoder, params, opened := m.opened + 1 }, true)
    | none => none
  | none => some (m, false)

/-- The access unit an encoder returns, sent under the current number. -/
def sendFrame (m : Thread E P) (t : Tick P) (au : AccessUnit) : Thread E P × Frame :=
  let body := BigEndian.toBE 8 t.captureTs.toNat ++ au.data
  let frags := fragment streamId m.frameSeq au.keyframe body
  let (sent, dropGen) := sendDatagrams t.sendDatagram m.dropGen 0 frags
  ({ m with dropGen, frameSeq := m.frameSeq + 1 },
    { encoder := m.opened, frameSeq := m.frameSeq, au, body, sent })

/-- One turn of the loop: the state it goes on with, unless it stops, and the
    access unit the encoder returned, if any. -/
def tick (m : Thread E P) (t : Tick P) : Option (Thread E P) × Option Frame :=
  if t.closed then (none, none)
  else
    match reconfigure backend m t.reconfig with
    | none => (none, none)
    | some (m, reconfigured) =>
      -- A reconfiguration forces an IDR, and leaves the requests waiting.
      let requests := m.idrWaiting + t.idr
      let forceIdr := reconfigured || requests > 0
      let m := { m with idrWaiting := if reconfigured then requests else 0 }
      match m.source.picture m.frameSeq t.fill with
      -- The thread ends with the panic.
      | none => (none, none)
      | some (none, source) => (some { m with source }, none)
      | some (some planes, source) =>
        let m := { m with source }
        match backend.encodeI420 m.encoder planes (Int64.ofNat m.frameSeq.toNat) forceIdr with
        | some (some au, encoder) =>
          let (m, f) := sendFrame streamId { m with encoder } t au
          (some m, some f)
        | some (none, encoder) => (some { m with encoder }, none)
        | none => (none, none)

/-- The access units of a loop, over the ticks it meets. -/
def frames (m : Thread E P) : List (Tick P) → List Frame
  | [] => []
  | t :: ticks =>
    match tick backend streamId m t with
    | (some m, f) => f.toList ++ frames m ticks
    | (none, f) => f.toList

/-- The access units of a media thread. -/
def run (params : MediaParams) (dropPercent : UInt32) (ticks : List (Tick P)) : List Frame :=
  match backend.openBoth params with
  | some (source, encoder) =>
    frames backend streamId
      { encoder, source, params, dropGen := DropInjector.new dropPercent, frameSeq := 0,
        idrWaiting := 0, opened := 1 } ticks
  | none => []

end Loop

section Pacing

/-- The deadline of the next frame, and the sleep until then, if there is time
    left. Debt is dropped: a deadline that has passed becomes the present. -/
def pace (next interval now : ℕ) : ℕ × Option ℕ :=
  let next := next + interval
  if next > now then (next, some (next - now)) else (now, none)

/-- What the environment does to a turn of the loop. -/
structure Lag where
  /-- From the last return of `pace` to the reading of the clock in this one. -/
  work : ℕ
  /-- By how much `pace` returns after the reading and the sleep asked for: a
      sleep may last too long, never too short. -/
  late : ℕ
  deriving Repr, DecidableEq

/-- A call of `pace`. -/
structure Call where
  /-- The reading of the clock. -/
  now : ℕ
  /-- The deadline it leaves. -/
  next : ℕ
  /-- The sleep it asks for. -/
  sleep : Option ℕ
  /-- The time at which it returns. -/
  ret : ℕ
  deriving Repr, DecidableEq

/-- One call of `pace`, with the deadline and the time at the end of the last
    one. -/
def call (interval next clock : ℕ) (lag : Lag) : Call :=
  let now := clock + lag.work
  let (next, sleep) := pace next interval now
  { now, next, sleep, ret := now + sleep.getD 0 + lag.late }

/-- Successive calls of `pace`. -/
def calls (interval : ℕ) : ℕ → ℕ → List Lag → List Call
  | _, _, [] => []
  | next, clock, lag :: lags =>
    let c := call interval next clock lag
    c :: calls interval c.next c.ret lags

/-- The calls of a media thread, whose first deadline is the time of its start. -/
def runCalls (interval start : ℕ) (lags : List Lag) : List Call :=
  calls interval start start lags

end Pacing

/-- The fragment a datagram of the stream is to the reassembler. -/
def received (extraVideoStreams : List UInt16) (streamId : UInt16)
    (x : Int64 × List UInt8) : Option (Int64 × Fragment) :=
  match decodeWithStreams x.2 extraVideoStreams with
  | .ok d =>
    if d.header.streamId = streamId then
      some (x.1,
        { frameSeq := d.header.frameSeq, fragIndex := d.header.fragIndex,
          fragCount := d.header.fragCount, keyframe := d.header.keyframe })
    else none
  | .error _ => none

/-- Feed the datagrams of a stream, with their times of arrival, into a fresh
    reassembler. -/
def receive (extraVideoStreams : List UInt16) (streamId : UInt16)
    (arrivals : List (Int64 × List UInt8)) : Reassembler :=
  Reassembler.new.pushAll (arrivals.filterMap (received extraVideoStreams streamId))

end Media

end LoomHost
