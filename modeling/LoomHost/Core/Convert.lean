import LoomHost.Core.Frame
import LoomHost.Lib.Checked

/-!
# Packed RGB to I420

The conversion of `loom-capture/src/convert.rs`. Its loops index the source
buffer with bounds checks, and `none` is the panic of one that fails.

An index product such as `row * srcStride` is a natural number here. Where it
leaves `usize` it is beyond the end of every slice, so that it is `none` here
where a build with overflow checks panics. The `i32` sums of the pixel arithmetic
are integers: no weight is above 129 and no channel above 255, and `>>` is the
shift that keeps the sign.

## Main definitions

* `PixelFormat`: Where R, G and B stand in a pixel.
* `readPixel`: The channels of a pixel of a row.
* `luma`, `chromaU`, `chromaV`: The BT.601 weights.
* `toI420`: A packed frame, converted.

## Theorems

* `toI420_dimensions`: The conversion keeps the dimensions of its frame.
-/

namespace LoomHost

namespace Capture

namespace Convert

open Checked

/-- A packed 32-bit pixel layout, identified by the byte offsets of R, G, B. The
    offsets are private to the module, which makes the two layouts below. -/
structure PixelFormat where
  r : ℕ
  g : ℕ
  b : ℕ
  known : (r, g, b) = (2, 1, 0) ∨ (r, g, b) = (0, 1, 2)

/-- B, G, R, (A/x) memory order. -/
def PixelFormat.BGRX : PixelFormat := { r := 2, g := 1, b := 0, known := Or.inl rfl }

/-- R, G, B, (A/x) memory order. -/
def PixelFormat.RGBX : PixelFormat := { r := 0, g := 1, b := 2, known := Or.inr rfl }

/-- The offsets are within a pixel. -/
theorem PixelFormat.lt (fmt : PixelFormat) : fmt.r < 4 ∧ fmt.g < 4 ∧ fmt.b < 4 := by
  rcases fmt.known with h | h <;> simp only [Prod.mk.injEq] at h <;> omega

/-- Three `i32` channels. -/
structure Rgb where
  r : ℤ
  g : ℤ
  b : ℤ
  deriving Repr, DecidableEq

def Rgb.add (c d : Rgb) : Rgb := { r := c.r + d.r, g := c.g + d.g, b := c.b + d.b }

/-- `c / 4` in each channel, as `i32` divides. -/
def Rgb.quarter (c : Rgb) : Rgb := { r := c.r.tdiv 4, g := c.g.tdiv 4, b := c.b.tdiv 4 }

/-- The channels of the pixel at `x` of a row. -/
def readPixel (fmt : PixelFormat) (srcRow : List UInt8) (x : ℕ) : Option Rgb := do
  let px ← slice? srcRow (x * 4) (x * 4 + 4)
  let r ← px[fmt.r]?
  let g ← px[fmt.g]?
  let b ← px[fmt.b]?
  some { r := r.toNat, g := g.toNat, b := b.toNat }

def luma (c : Rgb) : UInt8 :=
  UInt8.ofInt (((66 * c.r + 129 * c.g + 25 * c.b + 128) >>> (8 : ℕ)) + 16)

def chromaU (c : Rgb) : UInt8 :=
  UInt8.ofInt (((-38 * c.r - 74 * c.g + 112 * c.b + 128) >>> (8 : ℕ)) + 128)

def chromaV (c : Rgb) : UInt8 :=
  UInt8.ofInt (((112 * c.r - 94 * c.g - 18 * c.b + 128) >>> (8 : ℕ)) + 128)

variable (src : List UInt8) (srcStride : ℕ) (fmt : PixelFormat)

/-- One pixel of the luma loop. -/
def lumaPixel (srcRow : List UInt8) (row col : ℕ) (f : I420Buffer) : Option I420Buffer := do
  let c ← readPixel fmt srcRow col
  f.set .Y (row * f.w + col) (luma c)

/-- One row of the luma loop: one output sample per source pixel. -/
def lumaRow (row : ℕ) (f : I420Buffer) : Option I420Buffer := do
  let srcRow ← tail? src (row * srcStride)
  forRange f.w (lumaPixel fmt srcRow row) f

theorem lumaRow_dimensions {row : ℕ} {f g : I420Buffer}
    (h : lumaRow src srcStride fmt row f = some g) : g.dimensions = f.dimensions := by
  rcases Option.bind_eq_some_iff.mp h with ⟨srcRow, _, hcols⟩
  refine forRange_keeps I420Buffer.dimensions (fun col e e' hpixel => ?_) hcols
  rcases Option.bind_eq_some_iff.mp hpixel with ⟨rgb, _, hset⟩
  exact e.set_dimensions hset

/-- The sum of a 2×2 block. -/
def block (cy cx : ℕ) : Option Rgb :=
  forRange 2 (fun dy sum => do
    let srcRow ← tail? src ((cy * 2 + dy) * srcStride)
    forRange 2 (fun dx sum => do
      let c ← readPixel fmt srcRow (cx * 2 + dx)
      some (sum.add c)) sum) { r := 0, g := 0, b := 0 }

/-- One block of the chroma loop. -/
def chromaBlock (cy cx : ℕ) (f : I420Buffer) : Option I420Buffer := do
  let sum ← block src srcStride fmt cy cx
  let f ← f.set .U (cy * (f.w / 2) + cx) (chromaU sum.quarter)
  f.set .V (cy * (f.w / 2) + cx) (chromaV sum.quarter)

/-- One row of blocks of the chroma loop. -/
def chromaRow (cy : ℕ) (f : I420Buffer) : Option I420Buffer :=
  forRange (f.w / 2) (chromaBlock src srcStride fmt cy) f

/-- Convert one packed frame into `dst`. -/
def toI420 (dst : I420Buffer) : Option I420Buffer := do
  let f ← forRange dst.h (lumaRow src srcStride fmt) dst
  forRange (dst.h / 2) (chromaRow src srcStride fmt) f

/-- The loops keep the dimensions of their frame. -/
theorem toI420_dimensions {dst f : I420Buffer} (h : toI420 src srcStride fmt dst = some f) :
    f.dimensions = dst.dimensions := by
  rcases Option.bind_eq_some_iff.mp h with ⟨g, hg, hf⟩
  have hluma : g.dimensions = dst.dimensions :=
    forRange_keeps I420Buffer.dimensions
      (fun row c c' => lumaRow_dimensions src srcStride fmt) hg
  have hchroma : f.dimensions = g.dimensions := by
    refine forRange_keeps I420Buffer.dimensions (fun cy c c' hrow => ?_) hf
    refine forRange_keeps I420Buffer.dimensions (fun cx e e' hblock => ?_) hrow
    rcases Option.bind_eq_some_iff.mp hblock with ⟨sum, _, hrest⟩
    rcases Option.bind_eq_some_iff.mp hrest with ⟨e1, hset, hset'⟩
    exact (e1.set_dimensions hset').trans (e.set_dimensions hset)
  exact hchroma.trans hluma

end Convert

end Capture

end LoomHost
