import LoomHost.Core.System

/-!
# A Client of the Host

The client of `loomd/tests/recovery.rs` together with the host it talks to. It
greets, waits for WELCOME and CONFIG, acknowledges, waits for START, and then
pushes the video datagrams of stream 0 into a reassembler, sending every request
the reassembler raises. `handshake.rs` and `multi_display.rs` greet in the same
way, each with its own name, codecs and features.

The control stream is a queue of frames in either direction: what the client has
written and the host has not read, and what the host has written, of which the
client has read some. Datagrams may be lost, repeated, reordered or made up: any
may arrive at any time. The client never finishes its stream, so the host does
not find it at its end; a failed read needs a lost connection.

How the tests time a recovery, and when they stop, is left out, as are the codes
they wait for in the tests of a rejected client.

## Main definitions

* `Greeting`, `helloBody`: What the client says of itself.
* `Stage`: Where the client is.
* `readMsg`, `pushDatagram`: What it reads.
* `State`, `Action`, `step`: The two parties together.
-/

namespace LoomHost

namespace Client

open Cbor Control Conn Reassembly

/-- What differs between the greetings of the tests. -/
structure Greeting where
  name : String
  codecs : List ℤ
  /-- The feature bits, key 5. -/
  features : ℤ

/-- The body of HELLO. -/
def helloBody (g : Greeting) : List (Value × Value) :=
  [(.Int 0, .Int 1), (.Int 1, .Text g.name), (.Int 2, .Array (g.codecs.map .Int)),
    (.Int 3, .Array [.Int 2560, .Int 1440]), (.Int 4, .Int 72), (.Int 5, .Int g.features)]

/-- The body of the CONFIG_ACK of the handshake. -/
def ackBody : List (Value × Value) := [(.Int 0, .Int 1)]

/-- The body of an IDR_REQUEST. -/
def idrBody (lastGood : UInt32) : List (Value × Value) := [(.Int 0, .Int lastGood.toNat)]

/-- Where the client is. -/
inductive Stage where
  | greet
  | awaitWelcome
  | awaitConfig
  | acknowledge
  | awaitStart
  /-- It drives the reassembler over the datagrams. -/
  | receiving (reasm : Reassembler)
  /-- An assertion has failed. -/
  | failed

variable (fromReader : List UInt8 → Option Rfc8949.Item) (g : Greeting)

/-- Read one frame: the type of its message, 0 if it is ignored. The tests unwrap
    the result, and `none` is the panic. -/
def readMsg (frame : List UInt8) : Option UInt64 :=
  match decodeFrame fromReader frame with
  | .ok (.Message msgType _) => some msgType
  | .ok .Ignored => some 0
  | .error _ => none

namespace Stage

/-- What the client sends next, if it is to send. -/
def sends : Stage → Option (Stage × UInt64 × List (Value × Value))
  | .greet => some (.awaitWelcome, HELLO, helloBody g)
  | .acknowledge => some (.awaitStart, CONFIG_ACK, ackBody)
  | _ => none

/-- The message the client waits for, and where it goes from there. -/
def expects : Stage → Option (UInt64 × Stage)
  | .awaitWelcome => some (WELCOME, .awaitConfig)
  | .awaitConfig => some (CONFIG, .acknowledge)
  | .awaitStart => some (START, .receiving Reassembler.new)
  | _ => none

end Stage

/-- The frame that the last request among the events names. -/
def idrLastGood (events : List Event) : Option UInt32 :=
  events.foldl (fun last ev =>
    match ev with
    | .IdrRequest _ lastGood => some lastGood
    | .Deliver _ _ _ => last) none

/-- A datagram arrives: the reassembler takes it if it is of stream 0, and the request
    this raises is to be sent. -/
def pushDatagram (reasm : Reassembler) (tMs : Int64) (dg : List UInt8) :
    Reassembler × Option UInt32 :=
  match Media.received [] 0 (tMs, dg) with
  | some x =>
    let before := reasm.events.length
    let reasm := reasm.push x.1 x.2
    (reasm, idrLastGood (reasm.events.drop before))
  | none => (reasm, none)

/-- The client and the host. -/
structure State (E P : Type*) where
  stage : Stage := .greet
  /-- The frames the client has written and the host has not read. -/
  toHost : List (List UInt8) := []
  /-- How many of the host's frames the client has read. -/
  heard : ℕ := 0
  host : System.State E P

/-- One step of one of them. -/
inductive Action (P : Type*) where
  /-- The client writes the next message of the handshake. -/
  | write
  /-- The client reads a frame of the handshake. -/
  | read
  | datagram (tMs : Int64) (dg : List UInt8)
  /-- The host reads a frame. -/
  | deliver
  /-- The host applies an output, a media thread takes a step, the connection is
      lost, or the host finds it lost. -/
  | host (a : System.Action P)

variable {E P : Type*}

/-- A connection and a client that has not greeted. -/
def start (cfg : HostCfg) (sessionId : Vector UInt8 16) : State E P :=
  { host := System.start cfg sessionId }

variable (env : Env) (cfg : HostCfg) (dropPercent : UInt32) (world : ℕ → Media.Backend E P)

/-- A step of the host that needs nothing of the client. -/
def alone (σ : System.State E P) : System.Action P → Bool
  | .apply | .openMedia _ | .turn _ _ | .lose => true
  | .readError => σ.lost
  | .receive _ | .badFrame | .eof => false

/-- The frame at the head of the control stream, as the host takes it. -/
def taken (frame : List UInt8) : System.Action P :=
  match decodeFrame fromReader frame with
  | .ok decoded => .receive decoded
  | .error _ => .badFrame

/-- One step, or `none` if it cannot be taken, with what is seen of the host. The
    client does nothing more once the connection is closed. -/
def step (σ : State E P) (a : Action P) : Option (State E P × List System.Event) :=
  match a with
  | .write =>
    if σ.host.closed then none
    else (σ.stage.sends g).map fun x =>
      ({ σ with stage := x.1, toHost := σ.toHost ++ [encodeFrame x.2.1 x.2.2] }, [])
  | .read =>
    if σ.host.closed then none
    else
      match σ.stage.expects, σ.host.driver.sent[σ.heard]? with
      | some (msgType, next), some frame =>
        let stage := if readMsg fromReader frame = some msgType then next else .failed
        some ({ σ with stage, heard := σ.heard + 1 }, [])
      | _, _ => none
  | .datagram tMs dg =>
    if σ.host.closed then none
    else
      match σ.stage with
      | .receiving reasm =>
        let (reasm, request) := pushDatagram reasm tMs dg
        let frames := request.toList.map fun lastGood =>
          encodeFrame IDR_REQUEST (idrBody lastGood)
        some ({ σ with stage := .receiving reasm, toHost := σ.toHost ++ frames }, [])
      | _ => none
  | .deliver =>
    match σ.toHost with
    | frame :: rest =>
      (System.step env cfg dropPercent world σ.host (taken fromReader frame)).map fun r =>
        ({ σ with toHost := rest, host := r.1 }, r.2)
    | [] => none
  | .host a =>
    if alone σ.host a then
      (System.step env cfg dropPercent world σ.host a).map fun r => ({ σ with host := r.1 }, r.2)
    else none

end Client

end LoomHost
