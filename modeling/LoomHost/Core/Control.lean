import LoomHost.Core.Cbor

/-!
# Control Frames

The control-stream framing and messages of `loom-proto/src/control.rs`: a
big-endian `u32` body length, then a canonical CBOR `[msg_type, body]`, with
the registry of message types and the keys each one knows.

The CBOR reader is a third-party one. `fromReader` is the item it decodes off
the front of a byte slice, or `none` for its error.

## Main definitions

* `knownKeys`: The registry.
* `Decoded`: The outcome of decoding a frame.
* `encodeFrame`, `decodeFrame`: The codec.
-/

namespace LoomHost

namespace Control

open Cbor

/-- Maximum control frame body length. -/
def MAX_FRAME_BODY : ℕ := 65536

/-- HELLO, client to host, setup. -/
@[match_pattern] def HELLO : UInt64 := 0x01

/-- WELCOME, host to client, setup. -/
@[match_pattern] def WELCOME : UInt64 := 0x02

/-- CONFIG, host to client, setup and any. -/
@[match_pattern] def CONFIG : UInt64 := 0x03

/-- CONFIG_ACK, client to host, setup and any. -/
@[match_pattern] def CONFIG_ACK : UInt64 := 0x04

/-- START, host to client, setup. -/
@[match_pattern] def START : UInt64 := 0x05

/-- INPUT, client to host, streaming. -/
@[match_pattern] def INPUT : UInt64 := 0x10

/-- IDR_REQUEST, client to host, streaming. -/
@[match_pattern] def IDR_REQUEST : UInt64 := 0x20

/-- STATS, client to host, streaming. -/
@[match_pattern] def STATS : UInt64 := 0x21

/-- VIEWPORT, client to host, streaming. -/
@[match_pattern] def VIEWPORT : UInt64 := 0x22

/-- CLOCK_PING, client to host, any. -/
@[match_pattern] def CLOCK_PING : UInt64 := 0x30

/-- CLOCK_PONG, host to client, any. -/
@[match_pattern] def CLOCK_PONG : UInt64 := 0x31

/-- ERROR, either direction, any. -/
@[match_pattern] def ERROR : UInt64 := 0x40

/-- BYE, either direction, any. -/
@[match_pattern] def BYE : UInt64 := 0x41

/-- PAIR_A, client to host, pairing. -/
@[match_pattern] def PAIR_A : UInt64 := 0x50

/-- PAIR_B, host to client, pairing. -/
@[match_pattern] def PAIR_B : UInt64 := 0x51

/-- PAIR_C, client to host, pairing. -/
@[match_pattern] def PAIR_C : UInt64 := 0x52

/-- PAIR_RESULT, host to client, pairing. -/
@[match_pattern] def PAIR_RESULT : UInt64 := 0x53

/-- The body keys defined for a message type, or `none` if the type is
    unregistered. Keys not among them are dropped on decode. -/
def knownKeys (msgType : UInt64) : Option (List ℤ) :=
  match msgType with
  | HELLO => some [0, 1, 2, 3, 4, 5]
  | WELCOME => some [0, 1, 2, 3]
  | CONFIG => some [0, 1, 2, 3, 4, 5, 6]
  | CONFIG_ACK => some [0]
  | START => some []
  | INPUT => some [0, 1]
  | IDR_REQUEST => some [0, 1]
  | STATS => some [0, 1, 2, 3, 4, 5, 6, 7]
  | VIEWPORT => some [0]
  | CLOCK_PING => some [0]
  | CLOCK_PONG => some [0, 1, 2]
  | ERROR => some [0, 1]
  | BYE => some [0]
  | PAIR_A => some [0]
  | PAIR_B => some [0, 1]
  | PAIR_C => some [0]
  | PAIR_RESULT => some [0, 1]
  | _ => none

/-- The one error of the control-stream path. -/
inductive Error where
  | ProtocolViolation
  deriving Repr, DecidableEq

/-- The outcome of decoding one control frame. -/
inductive Decoded where
  /-- A registered message; `body` has unknown keys stripped. -/
  | Message (msgType : UInt64) (body : List (Value × Value))
  /-- A well-formed frame of an unregistered type. -/
  | Ignored

/-- The envelope of a message. -/
def envelope (msgType : UInt64) (body : List (Value × Value)) : Value :=
  .Array [.Int msgType.toNat, .Map body]

/-- A control frame: the canonical encoding of the envelope, prefixed with its
    big-endian `u32` length. -/
def encodeFrame (msgType : UInt64) (body : List (Value × Value)) : List UInt8 :=
  let cbor := (envelope msgType body).toCanonical
  BigEndian.toBE 4 (UInt32.ofNat cbor.length).toNat ++ cbor

/-- The key is one the message type knows. -/
def isKnown (allowed : List ℤ) (entry : Value × Value) : Bool :=
  match entry.1.asInt with
  | some ki => allowed.contains ki
  | none => false

variable (fromReader : List UInt8 → Option Rfc8949.Item)

/-- Decode any valid CBOR into a `Value`. -/
def decode (bytes : List UInt8) : Except Error Value :=
  match fromReader bytes with
  | some val => .ok (fromCiborium val)
  | none => .error .ProtocolViolation

/-- The message of a decoded envelope. -/
def decodeEnvelope (value : Value) : Except Error Decoded :=
  match value.asArray with
  | some [msgType, body] =>
    match msgType.asInt with
    | some i =>
      if i ≥ 0 then
        match body.asMap with
        | some map =>
          let msgType := UInt64.ofInt i
          match knownKeys msgType with
          | some allowed => .ok (.Message msgType (map.filter (isKnown allowed)))
          | none => .ok .Ignored
        | none => .error .ProtocolViolation
      else .error .ProtocolViolation
    | none => .error .ProtocolViolation
  | _ => .error .ProtocolViolation

/-- Decode one length-prefixed control frame. -/
def decodeFrame (bytes : List UInt8) : Except Error Decoded :=
  if bytes.length < 4 then .error .ProtocolViolation
  else
    let len := BigEndian.ofBE (bytes.take 4)
    -- The length field alone is sufficient to reject an over-limit frame.
    if len > MAX_FRAME_BODY then .error .ProtocolViolation
    else if bytes.length < 4 + len then .error .ProtocolViolation
    else do
      let value ← decode fromReader ((bytes.drop 4).take len)
      decodeEnvelope value

end Control

end LoomHost
