import Mathlib.Data.List.Basic
import Mathlib.Data.UInt

/-!
# NAL Units: Length Prefixes to Start Codes

The bitstream conversion of `loom-encode/src/annexb.rs`, and the scan for start
codes by which `loomd/tests/bitstream_conformance.rs` reads a stream back.

A byte slice is a list of bytes and an index a natural number. A prefix of up to
eight bytes fits into `usize`, and no slice is long enough for `offset + length`
to leave it, so that the `checked_add` of the source fails where its filter does.
`append` returns what it has written to `out` in every case, as the source leaves
it behind on an error as well.

`startCodes` is the scan of `nalTypes` without what it reads from the bytes,
and `split` is the cutting at the codes it finds.

## Main definitions

* `append`: Length-prefixed NAL units, appended as Annex-B.
* `nalTypes`: The types of the NAL units of an Annex-B stream.
* `startCodes`: The start codes the scan of `nalTypes` stops at.
* `split`: The NAL units between them.
-/

namespace LoomHost

/-- Errors from the encoder. -/
inductive EncodeError where
  /-- The encoder produced a bitstream that could not be interpreted. -/
  | Bitstream (what : String)
  /-- A VideoToolbox call failed with the given `OSStatus`. -/
  | VideoToolbox (status : Int32)
  deriving Repr, DecidableEq

namespace AnnexB

/-- The 4-byte Annex-B start code prefixed to every emitted NAL. -/
def START_CODE : List UInt8 := [0, 0, 0, 1]

/-- HEVC NAL types for IDR access units. -/
def NAL_IDR_W_RADL : UInt8 := 19
def NAL_IDR_N_LP : UInt8 := 20

/-- The type of a NAL unit, from its first byte. -/
def nalType (header : UInt8) : UInt8 := (header >>> 1) &&& 0x3f

/-- Whether a NAL type is that of an IDR slice. -/
def isIdr (nalType : UInt8) : Bool := nalType == NAL_IDR_W_RADL || nalType == NAL_IDR_N_LP

/-- `src[start..stop]`. -/
def slice (src : List UInt8) (start stop : ℕ) : List UInt8 := (src.drop start).take (stop - start)

/-- The big-endian prefix, `(length << 8) | byte` for each of its bytes. -/
def prefixLength (bytes : List UInt8) : ℕ :=
  bytes.foldl (fun length byte => (length <<< 8 % 2 ^ 64) ||| byte.toNat) 0

/-- The loop of `append`, from `offset` on. -/
def appendFrom (src : List UInt8) (nalLengthSize offset : ℕ) (keyframe : Bool)
    (out : List UInt8) : Except EncodeError Bool × List UInt8 :=
  if hmore : offset < src.length then
    if src.length < offset + nalLengthSize then
      (.error (.Bitstream "truncated NAL length prefix"), out)
    else
      let length := prefixLength (slice src offset (offset + nalLengthSize))
      let start := offset + nalLengthSize
      let stop := start + length
      if hstop : src.length < stop then
        (.error (.Bitstream "NAL length exceeds the access unit"), out)
      else if hlength : length = 0 then
        (.error (.Bitstream "zero-length NAL"), out)
      else
        -- A unit of at least one byte ends inside the slice, so its header is there.
        have hstart : start < src.length := by omega
        appendFrom src nalLengthSize stop (keyframe || isIdr (nalType src[start]))
          (out ++ START_CODE ++ slice src start stop)
  else (.ok keyframe, out)
termination_by src.length - offset
decreasing_by omega

/-- Append `src`'s length-prefixed NALs to `out` as Annex-B. -/
def append (src : List UInt8) (nalLengthSize : ℕ) (out : List UInt8) :
    Except EncodeError Bool × List UInt8 :=
  appendFrom src nalLengthSize 0 false out

section Scan

variable (stream : List UInt8) (i : ℕ) (h : i + 3 < stream.length)

/-- A 3-byte start code at `i`. -/
def sc3 : Bool := stream[i] == 0 && stream[i + 1] == 0 && stream[i + 2] == 1

/-- A 4-byte start code at `i`. -/
def sc4 : Bool :=
  stream[i] == 0 && stream[i + 1] == 0 && stream[i + 2] == 0 && stream[i + 3] == 1

/-- Where the NAL unit behind the start code at `i` begins. -/
def nalStart : ℕ := i + if sc4 stream i h then 4 else 3

theorem lt_nalStart : i < nalStart stream i h := by
  unfold nalStart
  split <;> omega

end Scan

/-- The loop of `nalTypes`, from `i` on. -/
def nalTypesFrom (stream : List UInt8) (i : ℕ) (types : List UInt8) : List UInt8 :=
  if h : i + 3 < stream.length then
    if sc3 stream i h || sc4 stream i h then
      have _ := lt_nalStart stream i h
      if hnal : nalStart stream i h < stream.length then
        nalTypesFrom stream (nalStart stream i h)
          (types ++ [nalType stream[nalStart stream i h]])
      else nalTypesFrom stream (nalStart stream i h) types
    else nalTypesFrom stream (i + 1) types
  else types
termination_by stream.length - i

/-- The NAL types of an Annex-B byte stream, by its start codes. -/
def nalTypes (stream : List UInt8) : List UInt8 := nalTypesFrom stream 0 []

/-- The start codes the same scan stops at: where each begins, and where the NAL
    unit behind it does. -/
def startCodesFrom (stream : List UInt8) (i : ℕ) : List (ℕ × ℕ) :=
  if h : i + 3 < stream.length then
    if sc3 stream i h || sc4 stream i h then
      have _ := lt_nalStart stream i h
      (i, nalStart stream i h) :: startCodesFrom stream (nalStart stream i h)
    else startCodesFrom stream (i + 1)
  else []
termination_by stream.length - i

def startCodes (stream : List UInt8) : List (ℕ × ℕ) := startCodesFrom stream 0

/-- What stands between one start code and the next, or the end. -/
def cut (stream : List UInt8) : List (ℕ × ℕ) → List (List UInt8)
  | [] => []
  | [(_, start)] => [stream.drop start]
  | (_, start) :: (code, start') :: rest =>
      slice stream start code :: cut stream ((code, start') :: rest)

/-- The NAL units of an Annex-B stream. -/
def split (stream : List UInt8) : List (List UInt8) := cut stream (startCodes stream)

end AnnexB

end LoomHost
