import LoomHost.Core.AnnexB
import LoomHost.Core.Frame
import LoomHost.Lib.Checked

/-!
# NV12 to I420 and Back

The two ends of the macOS pixel path: the splitting of an NV12 frame in
`loom-capture/src/nv12.rs`, and the interleaving into the encoder's pixel buffer
in `fill_pixel_buffer` of `loom-encode/src/videotoolbox.rs`.

The pixel buffer belongs to the system. What its calls return is given with the
session: whether there is a pool, what creating a buffer gave, and what locking it
returned. A plane of the buffer is the memory behind its base address, which the
source writes through a raw pointer; `none` is a panic, and a write outside that
memory.

## Main definitions

* `toI420`: An NV12 frame, split into the three planes.
* `PlaneMemory`, `PixelBuffer`: The destination of the encoder.
* `writePlanes`: The copying loops of `fillPixelBuffer`.
* `fillPixelBuffer`: All of it, with its error paths.

## Theorems

* `toI420_dimensions`: The split keeps the dimensions of its frame.
-/

namespace LoomHost

namespace Capture

namespace Nv12

open Checked

/-- `&plane[start..][..len]`. -/
def row? (plane : List UInt8) (start len : ℕ) : Option (List UInt8) := do
  let tail ← tail? plane start
  slice? tail 0 len

section Split

/-- One row of the luma loop. -/
def lumaRow (y : List UInt8) (yStride row : ℕ) (f : I420Buffer) : Option I420Buffer := do
  let src ← row? y (row * yStride) f.w
  f.copyRow .Y (row * f.w) src

/-- One turn of the chroma loop: Cb is U, Cr is V. -/
def chromaPixel (src : List UInt8) (row i : ℕ) (f : I420Buffer) : Option I420Buffer := do
  let cb ← src[2 * i]?
  let f ← f.set .U (row * (f.w / 2) + i) cb
  let cr ← src[2 * i + 1]?
  f.set .V (row * (f.w / 2) + i) cr

/-- One interleaved CbCr row. -/
def chromaRow (uv : List UInt8) (uvStride row : ℕ) (f : I420Buffer) : Option I420Buffer := do
  let src ← row? uv (row * uvStride) (f.w / 2 * 2)
  forRange (f.w / 2) (chromaPixel src row) f

/-- Split an NV12 frame into `dst`. -/
def toI420 (y : List UInt8) (yStride : ℕ) (uv : List UInt8) (uvStride : ℕ) (dst : I420Buffer) :
    Option I420Buffer := do
  let f ← forRange dst.h (lumaRow y yStride) dst
  forRange (dst.h / 2) (chromaRow uv uvStride) f

theorem lumaRow_dimensions {y : List UInt8} {yStride row : ℕ} {f g : I420Buffer}
    (h : lumaRow y yStride row f = some g) : g.dimensions = f.dimensions := by
  rcases Option.bind_eq_some_iff.mp h with ⟨src, _, hcopy⟩
  exact f.copyRow_dimensions hcopy

theorem chromaRow_dimensions {uv : List UInt8} {uvStride row : ℕ} {f g : I420Buffer}
    (h : chromaRow uv uvStride row f = some g) : g.dimensions = f.dimensions := by
  rcases Option.bind_eq_some_iff.mp h with ⟨src, _, hcols⟩
  refine forRange_keeps I420Buffer.dimensions (fun i e e' hpixel => ?_) hcols
  rcases Option.bind_eq_some_iff.mp hpixel with ⟨cb, _, hrest⟩
  rcases Option.bind_eq_some_iff.mp hrest with ⟨e1, hset, hrest'⟩
  rcases Option.bind_eq_some_iff.mp hrest' with ⟨cr, _, hset'⟩
  exact (e1.set_dimensions hset').trans (e.set_dimensions hset)

/-- The split keeps the dimensions of its frame. -/
theorem toI420_dimensions {y uv : List UInt8} {yStride uvStride : ℕ} {dst f : I420Buffer}
    (h : toI420 y yStride uv uvStride dst = some f) : f.dimensions = dst.dimensions := by
  rcases Option.bind_eq_some_iff.mp h with ⟨g, hg, hf⟩
  have hluma : g.dimensions = dst.dimensions :=
    forRange_keeps I420Buffer.dimensions (fun row c c' => lumaRow_dimensions) hg
  have hchroma : f.dimensions = g.dimensions :=
    forRange_keeps I420Buffer.dimensions (fun row c c' => chromaRow_dimensions) hf
  exact hchroma.trans hluma

end Split

/-- A plane of a pixel buffer: the memory at its base address and its stride. -/
structure PlaneMemory where
  bytes : List UInt8
  bytesPerRow : ℕ
  deriving Repr, DecidableEq

/-- An NV12 pixel buffer. -/
structure PixelBuffer where
  luma : PlaneMemory
  chroma : PlaneMemory
  deriving Repr, DecidableEq

/-- What the session's calls return: the pool, if there is one, as the status and
    the buffer of creating one from it, and the status of locking that buffer. -/
structure Session where
  pixelBufferPool : Option (Int32 × Option PixelBuffer)
  lockStatus : Int32
  deriving Repr, DecidableEq

/-- `copy_nonoverlapping` of a row to an offset of a plane. -/
def copyTo (mem : List UInt8) (offset : ℕ) (bs : List UInt8) : Option (List UInt8) :=
  if offset + bs.length ≤ mem.length then some (Pieces.write 0 mem offset bs) else none

/-- `*plane.add(offset) = b`. -/
def store (mem : List UInt8) (offset : ℕ) (b : UInt8) : Option (List UInt8) :=
  if offset < mem.length then some (mem.set offset b) else none

section Interleave

variable (planes : Plane → List UInt8) (luma_stride chroma_stride dstStride : ℕ)

/-- One row of the luma loop. -/
def writeLumaRow (row : ℕ) (mem : List UInt8) : Option (List UInt8) := do
  let src ← row? (planes .Y) (row * luma_stride) luma_stride
  copyTo mem (row * dstStride) src

/-- One turn of the chroma loop. -/
def writeChromaPixel (uRow vRow : List UInt8) (row i : ℕ) (mem : List UInt8) :
    Option (List UInt8) := do
  let u ← uRow[i]?
  let mem ← store mem (row * dstStride + 2 * i) u
  let v ← vRow[i]?
  store mem (row * dstStride + (2 * i + 1)) v

/-- One row of the chroma loop. -/
def writeChromaRow (row : ℕ) (mem : List UInt8) : Option (List UInt8) := do
  let uRow ← tail? (planes .U) (row * chroma_stride)
  let vRow ← tail? (planes .V) (row * chroma_stride)
  forRange chroma_stride (writeChromaPixel dstStride uRow vRow row) mem

end Interleave

/-- The copying loops: the rows of a plane are counted by its length. -/
def writePlanes (planes : Plane → List UInt8) (strides : Plane → Int32) (pixels : PixelBuffer) :
    Option PixelBuffer := do
  let luma_stride := asUsize (strides .Y)
  let chroma_stride := asUsize (strides .U)
  let luma ← forRange ((planes .Y).length / max luma_stride 1)
    (writeLumaRow planes luma_stride pixels.luma.bytesPerRow) pixels.luma.bytes
  let chroma ← forRange ((planes .U).length / max chroma_stride 1)
    (writeChromaRow planes chroma_stride pixels.chroma.bytesPerRow) pixels.chroma.bytes
  some
    { luma := { pixels.luma with bytes := luma }
      chroma := { pixels.chroma with bytes := chroma } }

/-- Copy the I420 planes into an NV12 pixel buffer from the session's pool,
    interleaving the chroma on the way in. -/
def fillPixelBuffer (session : Session) (planes : Plane → List UInt8)
    (strides : Plane → Int32) : Option (Except EncodeError PixelBuffer) :=
  match session.pixelBufferPool with
  | none => some (.error (.Bitstream "no source pixel-buffer pool"))
  | some (status, raw) =>
      match raw with
      | none => some (.error (.VideoToolbox status))
      | some pixels =>
          if status ≠ 0 then some (.error (.VideoToolbox status))
          else if session.lockStatus ≠ 0 then
            some (.error (.VideoToolbox session.lockStatus))
          else (writePlanes planes strides pixels).map .ok

end Nv12

end Capture

end LoomHost
