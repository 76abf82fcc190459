import LoomHost.Lib.BigEndian
import LoomHost.Lib.Pieces

/-!
# Media Datagrams

The framing of `loom-proto/src/datagram.rs`: the 12-byte header, the
fragmentation of a frame body into datagrams, and the decoder with its
validation steps in the source's order.

A byte slice is a list of bytes. The length test of the decoder stands before
every index into the datagram, so the default of an index is never read.

## Main definitions

* `DatagramHeader`: The header, with `new`, `flags`, `toBytes` and `encode`.
* `fragment`: A frame body, cut into datagrams.
* `decodeWithStreams`: The validating decoder.
* `placement`, `reassemble`: The payloads of received datagrams, written to
  their places.
-/

namespace LoomHost

namespace Datagram

/-- Header magic byte: ASCII `'L'`. -/
def MAGIC : UInt8 := 0x4C

/-- `flags` bit 0, set on all fragments of a keyframe. -/
def FLAG_KEYFRAME : UInt8 := 0x01

/-- `flags` bit 1, set iff `fragIndex == fragCount - 1`. -/
def FLAG_LAST_FRAGMENT : UInt8 := 0x02

/-- Fixed header length in bytes. -/
def HEADER_LEN : ℕ := 12

/-- Maximum total datagram size, header and payload. -/
def MAX_DATAGRAM_LEN : ℕ := 1350

/-- Maximum payload bytes per datagram. -/
def MAX_PAYLOAD : ℕ := MAX_DATAGRAM_LEN - HEADER_LEN

/-- A datagram header. -/
structure DatagramHeader where
  keyframe : Bool
  lastFragment : Bool
  /-- 0 = video, 1 = audio. -/
  streamId : UInt16
  /-- Per-stream frame counter. -/
  frameSeq : UInt32
  /-- 0-based fragment index within the frame. -/
  fragIndex : UInt16
  /-- Total fragment count for this frame. -/
  fragCount : UInt16
  deriving Repr, DecidableEq

namespace DatagramHeader

/-- A header for a fragment, with `lastFragment` from its position. -/
def new (keyframe : Bool) (streamId : UInt16) (frameSeq : UInt32)
    (fragIndex fragCount : UInt16) : DatagramHeader :=
  { keyframe, lastFragment := fragCount > 0 && fragIndex == fragCount - 1, streamId,
    frameSeq, fragIndex, fragCount }

/-- The `flags` byte; reserved bits are zero. -/
def flags (h : DatagramHeader) : UInt8 :=
  let f := if h.keyframe then 0 ||| FLAG_KEYFRAME else 0
  if h.lastFragment then f ||| FLAG_LAST_FRAGMENT else f

/-- The 12-byte big-endian header. -/
def toBytes (h : DatagramHeader) : List UInt8 :=
  [MAGIC, h.flags] ++ BigEndian.toBE 2 h.streamId.toNat ++ BigEndian.toBE 4 h.frameSeq.toNat ++
    BigEndian.toBE 2 h.fragIndex.toNat ++ BigEndian.toBE 2 h.fragCount.toNat

/-- Header and payload in one datagram. -/
def encode (h : DatagramHeader) (payload : List UInt8) : List UInt8 :=
  h.toBytes ++ payload

end DatagramHeader

/-- Integer division, rounded up. -/
def divCeil (a b : ℕ) : ℕ :=
  if a % b > 0 then a / b + 1 else a / b

/-- The slice's chunks of `size` elements; the last may be shorter, and an
    empty slice has none. -/
def chunks {α : Type*} (size : ℕ) (xs : List α) : List (List α) :=
  (List.range (divCeil xs.length size)).map fun i => (xs.drop (i * size)).take size

/-- Cut a frame body into ordered datagrams. There is at least one, and a
    fragment past the last chunk carries no payload. -/
def fragment (streamId : UInt16) (frameSeq : UInt32) (keyframe : Bool) (body : List UInt8) :
    List (List UInt8) :=
  let fragCount := max (divCeil body.length MAX_PAYLOAD) 1
  (List.range fragCount).map fun idx =>
    let chunk := (chunks MAX_PAYLOAD body)[idx]?.getD []
    (DatagramHeader.new keyframe streamId frameSeq (UInt16.ofNat idx)
      (UInt16.ofNat fragCount)).encode chunk

/-- Why a datagram was dropped on decode. -/
inductive DropReason where
  /-- Fewer than 12 bytes, no room for a header. -/
  | TooShort
  /-- More than 1350 bytes total. -/
  | Oversize
  /-- First byte is not `0x4C`. -/
  | BadMagic
  /-- `fragCount` is zero. -/
  | FragCountZero
  /-- `fragIndex >= fragCount`. -/
  | FragIndexRange
  /-- The flag disagrees with `fragIndex == fragCount - 1`. -/
  | LastFragmentMismatch
  /-- `streamId` is neither 0 nor 1 nor a negotiated video stream. -/
  | UnknownStream
  deriving Repr, DecidableEq

/-- A successfully decoded datagram: its header and the payload length. -/
structure DecodedDatagram where
  header : DatagramHeader
  payloadLen : ℕ
  deriving Repr, DecidableEq

/-- The number in the `width` bytes from position `i` on. -/
def beField (bytes : List UInt8) (i width : ℕ) : ℕ :=
  BigEndian.ofBE ((bytes.drop i).take width)

/-- Decode and validate a datagram header, accepting the streams 0 and 1 and
    the negotiated video streams. -/
def decodeWithStreams (bytes : List UInt8) (extraVideoStreams : List UInt16) :
    Except DropReason DecodedDatagram :=
  if bytes.length < HEADER_LEN then .error .TooShort
  else if bytes.length > MAX_DATAGRAM_LEN then .error .Oversize
  else if bytes.getD 0 0 ≠ MAGIC then .error .BadMagic
  else
    let flags := bytes.getD 1 0
    let streamId := UInt16.ofNat (beField bytes 2 2)
    let frameSeq := UInt32.ofNat (beField bytes 4 4)
    let fragIndex := UInt16.ofNat (beField bytes 8 2)
    let fragCount := UInt16.ofNat (beField bytes 10 2)
    if fragCount < 1 then .error .FragCountZero
    else if fragIndex ≥ fragCount then .error .FragIndexRange
    else
      let last := flags &&& FLAG_LAST_FRAGMENT != 0
      if last != (fragIndex == fragCount - 1) then .error .LastFragmentMismatch
      else if streamId ≠ 0 ∧ streamId ≠ 1 ∧ streamId ∉ extraVideoStreams then
        .error .UnknownStream
      else
        .ok
          { header :=
              { keyframe := flags &&& FLAG_KEYFRAME != 0, lastFragment := last, streamId,
                frameSeq, fragIndex, fragCount }
            payloadLen := bytes.length - HEADER_LEN }

/-- The payload of a datagram. -/
def payload (dg : List UInt8) : List UInt8 :=
  dg.drop HEADER_LEN

/-- The write a received datagram stands for: its payload, at its fragment's
    place in the body. -/
def placement (extraVideoStreams : List UInt16) (dg : List UInt8) : Option (ℕ × List UInt8) :=
  match decodeWithStreams dg extraVideoStreams with
  | .ok d => some (d.header.fragIndex.toNat * MAX_PAYLOAD, payload dg)
  | .error _ => none

/-- Write the payloads of the datagrams that decode into `buf`, in the order of
    arrival. -/
def reassemble (extraVideoStreams : List UInt16) (buf : List UInt8) (dgs : List (List UInt8)) :
    List UInt8 :=
  Pieces.writeAll 0 buf (dgs.filterMap (placement extraVideoStreams))

end Datagram

end LoomHost
