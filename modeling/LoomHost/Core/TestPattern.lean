import LoomHost.Core.Frame
import LoomHost.Lib.Checked

/-!
# The Test Pattern

The synthetic frame source of `loomd/src/media/testpattern.rs`: a moving gradient,
the frame number in digits, and a border that is white in even frames and black in
odd ones.

Writes are checked: `none` is the panic of an index out of bounds. So is the
addition of `u32`s in a build that checks overflow; in one that does not, it wraps.
Indices are `usize` and of planes that exist, so their arithmetic does not leave
it.

## Main definitions

* `TestPattern`: The planes, as long as the dimensions say.
* `TestPattern.set`: Writing into a plane.
* `luma`, `chromaU`, `chromaV`: The gradients.
* `TestPattern.drawCounter`, `TestPattern.drawGlyph`: The digits.
* `TestPattern.drawParityBorder`: The border.
* `TestPattern.render`: A frame.
-/

namespace LoomHost

namespace Media

open Capture Checked

/-- 3x5 bitfont for digits 0-9. Each row's low 3 bits are pixels. -/
def FONT : List (List UInt8) :=
  [[0b111, 0b101, 0b101, 0b101, 0b111],
    [0b010, 0b110, 0b010, 0b010, 0b111],
    [0b111, 0b001, 0b111, 0b100, 0b111],
    [0b111, 0b001, 0b111, 0b001, 0b111],
    [0b101, 0b101, 0b111, 0b001, 0b001],
    [0b111, 0b100, 0b111, 0b001, 0b111],
    [0b111, 0b100, 0b111, 0b101, 0b111],
    [0b111, 0b001, 0b001, 0b001, 0b001],
    [0b111, 0b101, 0b111, 0b101, 0b111],
    [0b111, 0b101, 0b111, 0b001, 0b111]]

/-- Each font pixel is a block of this many luma bytes a side. -/
def GLYPH_SCALE : ℕ := 8

def MARGIN : ℕ := 8

/-- A frame that the test pattern is rendered into. -/
structure TestPattern where
  width : ℕ
  height : ℕ
  y : List UInt8
  u : List UInt8
  v : List UInt8
  y_length : y.length = width * height
  u_length : u.length = width / 2 * (height / 2)
  v_length : v.length = width / 2 * (height / 2)

/-- `a + b` in `u32`: a panic where overflow is checked, and wrapping where not. -/
def u32Add (overflowChecks : Bool) (a b : UInt32) : Option UInt32 :=
  if a.toNat + b.toNat < 4294967296 then some (a + b)
  else if overflowChecks then none
  else some (a + b)

section Gradient

variable (overflowChecks : Bool) (shift : UInt32)

/-- The luma ramp: `(xx as u32 + yy as u32 + shift) as u8`. -/
def luma (xx yy : ℕ) : Option UInt8 := do
  let ramp ← u32Add overflowChecks (UInt32.ofNat xx) (UInt32.ofNat yy)
  let value ← u32Add overflowChecks ramp shift
  some value.toUInt8

/-- The chroma drift: `128 + (cx as u32).wrapping_add(shift) / 4`. -/
def chromaU (cx : ℕ) : Option UInt8 :=
  (u32Add overflowChecks 128 ((UInt32.ofNat cx + shift) / 4)).map UInt32.toUInt8

/-- `128 + (cy as u32).wrapping_sub(shift) / 4`. -/
def chromaV (cy : ℕ) : Option UInt8 :=
  (u32Add overflowChecks 128 ((UInt32.ofNat cy - shift) / 4)).map UInt32.toUInt8

end Gradient

/-- The digits of `n.to_string()`. -/
def digits (n : UInt32) : List ℕ :=
  (Nat.toDigits 10 n.toNat).map fun b => b.toNat - '0'.toNat

namespace TestPattern

/-- Allocate planes for a frame. -/
def new (width height : ℕ) : TestPattern :=
  { width
    height
    y := List.replicate (width * height) 0
    u := List.replicate (width / 2 * (height / 2)) 128
    v := List.replicate (width / 2 * (height / 2)) 128
    y_length := List.length_replicate
    u_length := List.length_replicate
    v_length := List.length_replicate }

variable (t : TestPattern)

/-- The dimensions. -/
def size : ℕ × ℕ := (t.width, t.height)

/-- The Y, U and V plane slices. -/
def planes : Plane → List UInt8
  | .Y => t.y
  | .U => t.u
  | .V => t.v

/-- `plane[k] = b`. -/
def set (p : Plane) (k : ℕ) (b : UInt8) : Option TestPattern :=
  match p with
  | .Y => (set? t.y k b).map fun ys => { t with y := ys.1, y_length := ys.2.trans t.y_length }
  | .U => (set? t.u k b).map fun us => { t with u := us.1, u_length := us.2.trans t.u_length }
  | .V => (set? t.v k b).map fun vs => { t with v := vs.1, v_length := vs.2.trans t.v_length }

/-- A font pixel: a block whose corner is at `x0`, `y0`, clipped to the frame. -/
def drawBlock (val : UInt8) (x0 y0 : ℕ) : Option TestPattern :=
  forRange GLYPH_SCALE (fun dy => forRange GLYPH_SCALE fun dx t =>
    let x := x0 + dx
    let y := y0 + dy
    if x < t.width ∧ y < t.height then t.set .Y (y * t.width + x) val else some t) t

/-- A digit, white on black. -/
def drawGlyph (digit ox oy : ℕ) : Option TestPattern := do
  let rows ← FONT[digit]?
  forEach rows (fun ry bits => forRange 3 fun rx t =>
    let lit := (bits >>> (2 - UInt8.ofNat rx)) &&& 1 == 1
    let val : UInt8 := if lit then 235 else 16
    t.drawBlock val (ox + rx * GLYPH_SCALE) (oy + ry * GLYPH_SCALE)) t

/-- The frame number in the top left corner. -/
def drawCounter (n : UInt32) : Option TestPattern :=
  let glyphW := 3 * GLYPH_SCALE + GLYPH_SCALE
  forEach (digits n) (fun i d t => t.drawGlyph d (MARGIN + i * glyphW) MARGIN) t

/-- The colour of the border. -/
def parity (n : UInt32) : UInt8 := if n % 2 = 0 then 235 else 16

/-- A pixel of the top row and of the bottom row. -/
def borderRow (w h : ℕ) (c : UInt8) (x : ℕ) (t : TestPattern) : Option TestPattern := do
  let t ← t.set .Y x c
  t.set .Y ((h - 1) * w + x) c

/-- A pixel of the left column and of the right column. -/
def borderCol (w : ℕ) (c : UInt8) (y : ℕ) (t : TestPattern) : Option TestPattern := do
  let t ← t.set .Y (y * w) c
  t.set .Y (y * w + (w - 1)) c

/-- The border, one pixel wide. -/
def drawParityBorder (n : UInt32) : Option TestPattern := do
  let w := t.width
  let h := t.height
  let c := parity n
  let t ← forRange w (borderRow w h c) t
  forRange h (borderCol w c) t

/-- The luma of one row. -/
def lumaRow (overflowChecks : Bool) (shift : UInt32) (w yy : ℕ) (t : TestPattern) :
    Option TestPattern :=
  forRange w (fun xx t => do
    let b ← luma overflowChecks shift xx yy
    t.set .Y (yy * w + xx) b) t

/-- The chroma of one row. -/
def chromaRow (overflowChecks : Bool) (shift : UInt32) (cw cy : ℕ) (t : TestPattern) :
    Option TestPattern :=
  forRange cw (fun cx t => do
    let bu ← chromaU overflowChecks shift cx
    let t ← t.set .U (cy * cw + cx) bu
    let bv ← chromaV overflowChecks shift cy
    t.set .V (cy * cw + cx) bv) t

/-- Render frame `n`: gradient, counter and parity border. -/
def render (overflowChecks : Bool) (n : UInt32) : Option TestPattern := do
  let w := t.width
  let h := t.height
  let shift := n * 3
  let t ← forRange h (lumaRow overflowChecks shift w) t
  let t ← forRange (h / 2) (chromaRow overflowChecks shift (w / 2)) t
  let t ← t.drawCounter n
  t.drawParityBorder n

end TestPattern

end Media

end LoomHost
