import LoomHost.Core.Convert

/-!
# The Conversion of RGB Frames

The conversion fills a frame with the BT.601 luma of every pixel and with the
chroma of the mean of every 2×2 block, and no cast drops a bit. What comes out is
a function of the grid of pixels alone: the stride, the padding, the fourth bytes
and the order of the channels are all read away, and so is what the frame held.

It succeeds exactly if the last row it reads is in the buffer.

## Main definitions

* `Pixel`: A visible pixel.
* `Holds`: A buffer holds a grid of pixels.
* `Fits`: The rows of a frame are in a buffer.
* `exactLuma`, `exactU`, `exactV`: The conversion in exact integers.
* `Bt601`: A frame is the conversion of a grid.

## Theorems

* `luma_exact`, `chromaU_exact`, `chromaV_exact`: The casts keep the values.
* `toI420_bytes`: Every byte of the frame that comes out.
* `ChromaUpTo.unique`: A grid has one conversion of given dimensions.
* `toI420_exact`: A buffer that holds a grid becomes its conversion.
* `toI420_isSome_iff`: When the conversion does not panic.
* `toI420_congr`: What the frame held before does not matter.
-/

namespace LoomHost

namespace Capture

namespace Convert

open Checked

/-- A visible pixel. -/
structure Pixel where
  r : UInt8
  g : UInt8
  b : UInt8
  deriving Repr, DecidableEq

def Pixel.rgb (p : Pixel) : Rgb := { r := p.r.toNat, g := p.g.toNat, b := p.b.toNat }

/-- The channels of a pixel, or of the mean of some. -/
structure Channels (c : Rgb) : Prop where
  r_nonneg : 0 ≤ c.r
  r_le : c.r ≤ 255
  g_nonneg : 0 ≤ c.g
  g_le : c.g ≤ 255
  b_nonneg : 0 ≤ c.b
  b_le : c.b ≤ 255

theorem Pixel.channels (p : Pixel) : Channels p.rgb := by
  have hr := p.r.toNat_lt
  have hg := p.g.toNat_lt
  have hb := p.b.toNat_lt
  refine ⟨?_, ?_, ?_, ?_, ?_, ?_⟩ <;> simp only [Pixel.rgb] <;> omega

/-- BT.601 limited range in exact integers, rounded down. -/
def exactLuma (c : Rgb) : ℤ := (66 * c.r + 129 * c.g + 25 * c.b + 128) / 256 + 16
def exactU (c : Rgb) : ℤ := (-38 * c.r - 74 * c.g + 112 * c.b + 128) / 256 + 128
def exactV (c : Rgb) : ℤ := (112 * c.r - 94 * c.g - 18 * c.b + 128) / 256 + 128

/-- An arithmetic shift divides and rounds down. -/
theorem shift_eight (x : ℤ) : x >>> (8 : ℕ) = x / 256 := Int.shiftRight_eq_div_pow x 8

/-- A value of the limited range survives the cast. -/
theorem cast_exact {x : ℤ} (hlo : 0 ≤ x) (hhi : x ≤ 255) : ((UInt8.ofInt x).toNat : ℤ) = x := by
  rw [WordCast.uint8_exact]
  unfold WordCast.Unsigned
  omega

section Exact

variable {c : Rgb} (h : Channels c)
include h

theorem exactLuma_mem : 16 ≤ exactLuma c ∧ exactLuma c ≤ 235 := by
  rcases h with ⟨h1, h2, h3, h4, h5, h6⟩
  unfold exactLuma
  omega

theorem exactU_mem : 16 ≤ exactU c ∧ exactU c ≤ 240 := by
  rcases h with ⟨h1, h2, h3, h4, h5, h6⟩
  unfold exactU
  omega

theorem exactV_mem : 16 ≤ exactV c ∧ exactV c ≤ 240 := by
  rcases h with ⟨h1, h2, h3, h4, h5, h6⟩
  unfold exactV
  omega

/-- The cast to `u8` keeps the luma. -/
theorem luma_exact : ((luma c).toNat : ℤ) = exactLuma c := by
  have hmem := exactLuma_mem h
  rw [luma, shift_eight, ← exactLuma]
  exact cast_exact (by omega) (by omega)

theorem chromaU_exact : ((chromaU c).toNat : ℤ) = exactU c := by
  have hmem := exactU_mem h
  rw [chromaU, shift_eight, ← exactU]
  exact cast_exact (by omega) (by omega)

theorem chromaV_exact : ((chromaV c).toNat : ℤ) = exactV c := by
  have hmem := exactV_mem h
  rw [chromaV, shift_eight, ← exactV]
  exact cast_exact (by omega) (by omega)

end Exact

/-- The sum of a 2×2 block of a grid. -/
def sum (grid : ℕ → ℕ → Pixel) (cy cx : ℕ) : Rgb :=
  (((grid (cy * 2) (cx * 2)).rgb.add (grid (cy * 2) (cx * 2 + 1)).rgb).add
    (grid (cy * 2 + 1) (cx * 2)).rgb).add (grid (cy * 2 + 1) (cx * 2 + 1)).rgb

/-- The mean of a 2×2 block of a grid, rounded down. -/
def mean (grid : ℕ → ℕ → Pixel) (cy cx : ℕ) : Rgb :=
  { r := (sum grid cy cx).r / 4, g := (sum grid cy cx).g / 4, b := (sum grid cy cx).b / 4 }

theorem sum_nonneg (grid : ℕ → ℕ → Pixel) (cy cx : ℕ) :
    (0 ≤ (sum grid cy cx).r ∧ (sum grid cy cx).r ≤ 4 * 255) ∧
      (0 ≤ (sum grid cy cx).g ∧ (sum grid cy cx).g ≤ 4 * 255) ∧
      (0 ≤ (sum grid cy cx).b ∧ (sum grid cy cx).b ≤ 4 * 255) := by
  have h1 := (grid (cy * 2) (cx * 2)).channels
  have h2 := (grid (cy * 2) (cx * 2 + 1)).channels
  have h3 := (grid (cy * 2 + 1) (cx * 2)).channels
  have h4 := (grid (cy * 2 + 1) (cx * 2 + 1)).channels
  rcases h1 with ⟨_, _, _, _, _, _⟩
  rcases h2 with ⟨_, _, _, _, _, _⟩
  rcases h3 with ⟨_, _, _, _, _, _⟩
  rcases h4 with ⟨_, _, _, _, _, _⟩
  simp only [sum, Rgb.add]
  omega

theorem mean_channels (grid : ℕ → ℕ → Pixel) (cy cx : ℕ) : Channels (mean grid cy cx) := by
  have hsum := sum_nonneg grid cy cx
  refine ⟨?_, ?_, ?_, ?_, ?_, ?_⟩ <;> simp only [mean] <;> omega

/-- A sum of channels is divided by four as integers are. -/
theorem quarter_sum (grid : ℕ → ℕ → Pixel) (cy cx : ℕ) :
    (sum grid cy cx).quarter = mean grid cy cx := by
  rcases sum_nonneg grid cy cx with ⟨hr, hg, hb⟩
  rw [Rgb.quarter, mean, Int.tdiv_eq_ediv_of_nonneg hr.1, Int.tdiv_eq_ediv_of_nonneg hg.1,
    Int.tdiv_eq_ediv_of_nonneg hb.1]

/-- A buffer holds a grid of pixels of `w` columns and `h` rows. -/
def Holds (grid : ℕ → ℕ → Pixel) (fmt : PixelFormat) (src : List UInt8) (srcStride w h : ℕ) :
    Prop :=
  ∀ row, row < h → ∀ col, col < w →
    src[row * srcStride + (col * 4 + fmt.r)]? = some (grid row col).r ∧
      src[row * srcStride + (col * 4 + fmt.g)]? = some (grid row col).g ∧
      src[row * srcStride + (col * 4 + fmt.b)]? = some (grid row col).b

/-- The rows of a frame of `w` columns and `h` rows are in a buffer. -/
def Fits (src : List UInt8) (srcStride w h : ℕ) : Prop :=
  RowsFit src.length srcStride (4 * w) h

section Read

variable {grid : ℕ → ℕ → Pixel} {fmt : PixelFormat} {src : List UInt8} {srcStride w h : ℕ}

/-- Reading a pixel of a row gives the pixel of the grid. -/
theorem readPixel_holds (hfits : Fits src srcStride w h)
    (hholds : Holds grid fmt src srcStride w h) (row col : ℕ) (hrow : row < h) (hcol : col < w) :
    readPixel fmt (src.drop (row * srcStride)) col = some (grid row col).rgb := by
  have hlen := RowsFit.row hfits row hrow
  have hslice := slice?_eq_some (src.drop (row * srcStride)) (col * 4) (col * 4 + 4)
    (by omega) (by rw [List.length_drop]; omega)
  have hbyte : ∀ k, k < 4 →
      (((src.drop (row * srcStride)).drop (col * 4)).take (col * 4 + 4 - col * 4))[k]? =
        src[row * srcStride + (col * 4 + k)]? := by
    intro k hk
    rw [List.getElem?_take_of_lt (by omega), List.getElem?_drop, List.getElem?_drop]
  rcases fmt.lt with ⟨hr, hg, hb⟩
  rcases hholds row hrow col hcol with ⟨hgr, hgg, hgb⟩
  rw [readPixel, hslice]
  simp only [Option.bind_eq_bind, Option.bind_some, hbyte _ hr, hbyte _ hg, hbyte _ hb, hgr, hgg,
    hgb, Pixel.rgb]

/-- A block is read as its four pixels. -/
theorem block_holds (hfits : Fits src srcStride w h)
    (hholds : Holds grid fmt src srcStride w h) {cy cx : ℕ} (hcy : cy * 2 + 1 < h)
    (hcx : cx * 2 + 1 < w) : block src srcStride fmt cy cx = some (sum grid cy cx) := by
  have hrow0 := RowsFit.row hfits (cy * 2) (by omega)
  have hrow1 := RowsFit.row hfits _ hcy
  have htail0 := tail?_eq_some src (cy * 2 * srcStride) (by omega)
  have htail1 := tail?_eq_some src ((cy * 2 + 1) * srcStride) (by omega)
  have h00 := readPixel_holds hfits hholds (cy * 2) (cx * 2) (by omega) (by omega)
  have h01 := readPixel_holds hfits hholds (cy * 2) _ (by omega) hcx
  have h10 := readPixel_holds hfits hholds _ (cx * 2) hcy (by omega)
  have h11 := readPixel_holds hfits hholds _ _ hcy hcx
  have hzero : ∀ c : Rgb, Rgb.add { r := 0, g := 0, b := 0 } c = c := by
    intro c
    simp only [Rgb.add, Int.zero_add]
  simp only [block, forRange, Option.bind_eq_bind, Option.bind_some, Nat.add_zero, htail0, htail1,
    h00, h01, h10, h11, hzero, sum]

end Read

section Passes

variable {grid : ℕ → ℕ → Pixel} {fmt : PixelFormat} {src : List UInt8} {srcStride : ℕ}
  {dst : I420Buffer} (hfits : Fits src srcStride dst.w dst.h)
  (hholds : Holds grid fmt src srcStride dst.w dst.h)

/-- The first `n` luma bytes are those of the grid. -/
def LumaUpTo (grid : ℕ → ℕ → Pixel) (dst : I420Buffer) (n : ℕ) (f : I420Buffer) : Prop :=
  f.dimensions = dst.dimensions ∧
    ∀ k, k < n → f.byteAt .Y k = some (luma (grid (k / dst.w) (k % dst.w)).rgb)

/-- The luma is that of the grid, and so are the first `n` bytes of both chroma
    planes. -/
def ChromaUpTo (grid : ℕ → ℕ → Pixel) (dst : I420Buffer) (n : ℕ) (f : I420Buffer) : Prop :=
  LumaUpTo grid dst dst.yLen f ∧ ∀ k, k < n →
    f.byteAt .U k = some (chromaU (mean grid (k / (dst.w / 2)) (k % (dst.w / 2)))) ∧
      f.byteAt .V k = some (chromaV (mean grid (k / (dst.w / 2)) (k % (dst.w / 2))))

include hfits hholds

/-- One turn of the luma loop adds one byte. -/
theorem lumaPixel_step {row col : ℕ} (hrow : row < dst.h) (hcol : col < dst.w) {f : I420Buffer}
    (hf : LumaUpTo grid dst (row * dst.w + col) f) :
    ∃ g, lumaPixel fmt (src.drop (row * srcStride)) row col f = some g ∧
      LumaUpTo grid dst (row * dst.w + col + 1) g := by
  have hw : f.w = dst.w := I420Buffer.w_congr hf.1
  have hin : row * f.w + col < f.planeLen .Y := by
    rw [I420Buffer.planeLen_congr hf.1, hw]
    exact (raster_lt hrow hcol).trans_eq (Nat.mul_comm _ _)
  rcases f.set_spec .Y _ (luma (grid row col).rgb) hin with ⟨g, hset, hdim, hbytes⟩
  refine ⟨g, ?_, hdim.trans hf.1, fun k hk => ?_⟩
  · rw [lumaPixel, readPixel_holds hfits hholds row col hrow hcol]
    exact hset
  · rw [hbytes]
    by_cases hlast : k = row * dst.w + col
    · rw [if_pos ⟨rfl, by rw [hlast, hw]⟩, hlast, raster_div _ _ _ hcol, raster_mod _ _ _ hcol]
    · rw [if_neg fun hk' => hlast (by rw [hk'.2, hw])]
      exact hf.2 k (by omega)

/-- The luma loop fills the first plane. -/
theorem luma_pass {f : I420Buffer} (hf : f.dimensions = dst.dimensions) :
    ∃ g, forRange dst.h (lumaRow src srcStride fmt) f = some g ∧
      LumaUpTo grid dst dst.yLen g := by
  rw [I420Buffer.yLen, Nat.mul_comm]
  refine for_rows_rule dst.w dst.h _
    (fun row => lumaPixel fmt (src.drop (row * srcStride)) row)
    (LumaUpTo grid dst) ⟨hf, fun k hk => absurd hk (Nat.not_lt_zero k)⟩ ?_ ?_
  · intro row hrow a ha
    have hlen := RowsFit.row hfits row hrow
    have hw : a.w = dst.w := I420Buffer.w_congr ha.1
    rw [lumaRow, tail?_eq_some _ _ (by omega), hw]
    rfl
  · intro row hrow col hcol a ha
    exact lumaPixel_step hfits hholds hrow hcol ha

/-- One turn of the chroma loop adds one byte to either plane. -/
theorem chromaBlock_step {cy cx : ℕ} (hcy : cy < dst.h / 2) (hcx : cx < dst.w / 2)
    {f : I420Buffer} (hf : ChromaUpTo grid dst (cy * (dst.w / 2) + cx) f) :
    ∃ g, chromaBlock src srcStride fmt cy cx f = some g ∧
      ChromaUpTo grid dst (cy * (dst.w / 2) + cx + 1) g := by
  have hw : f.w = dst.w := I420Buffer.w_congr hf.1.1
  have hlen : cy * (dst.w / 2) + cx < dst.uvLen :=
    (raster_lt hcy hcx).trans_eq (Nat.mul_comm _ _)
  have hin : cy * (f.w / 2) + cx < f.planeLen .U := by
    rw [I420Buffer.planeLen_congr hf.1.1, hw]
    exact hlen
  rcases f.set_spec .U _ (chromaU (mean grid cy cx)) hin with ⟨g, hset, hdim, hbytes⟩
  have hgw : g.w = dst.w := I420Buffer.w_congr (hdim.trans hf.1.1)
  have hin' : cy * (g.w / 2) + cx < g.planeLen .V := by
    rw [I420Buffer.planeLen_congr (hdim.trans hf.1.1), hgw]
    exact hlen
  rcases g.set_spec .V _ (chromaV (mean grid cy cx)) hin' with ⟨g', hset', hdim', hbytes'⟩
  refine ⟨g', ?_, ⟨hdim'.trans (hdim.trans hf.1.1), fun k hk => ?_⟩, fun k hk => ?_⟩
  · rw [chromaBlock, block_holds hfits hholds (by omega) (by omega)]
    simp only [Option.bind_eq_bind, Option.bind_some, quarter_sum, hset, hset']
  · -- The luma stays.
    rw [hbytes', if_neg fun h => Plane.noConfusion h.1, hbytes,
      if_neg fun h => Plane.noConfusion h.1]
    exact hf.1.2 k hk
  · rw [hbytes', hbytes, hbytes', hbytes, hw, hgw]
    by_cases hlast : k = cy * (dst.w / 2) + cx
    · rw [if_neg fun h => Plane.noConfusion h.1, if_pos ⟨rfl, hlast⟩, if_pos ⟨rfl, hlast⟩, hlast,
        raster_div _ _ _ hcx, raster_mod _ _ _ hcx]
      exact ⟨rfl, rfl⟩
    · rw [if_neg fun h => Plane.noConfusion h.1, if_neg fun h => hlast h.2,
        if_neg fun h => hlast h.2, if_neg fun h => Plane.noConfusion h.1]
      exact hf.2 k (by omega)

/-- The conversion succeeds and decides every byte. -/
theorem toI420_bytes :
    ∃ f, toI420 src srcStride fmt dst = some f ∧ ChromaUpTo grid dst dst.uvLen f := by
  rcases luma_pass hfits hholds rfl with ⟨f, hf, hluma⟩
  have hchroma : ∃ g, forRange (dst.h / 2) (chromaRow src srcStride fmt) f = some g ∧
      ChromaUpTo grid dst (dst.h / 2 * (dst.w / 2)) g := by
    refine for_rows_rule (dst.w / 2) (dst.h / 2) _ (chromaBlock src srcStride fmt)
      (ChromaUpTo grid dst) ⟨hluma, fun k hk => absurd hk (Nat.not_lt_zero k)⟩ ?_ ?_
    · intro cy _ a ha
      have hw : a.w = dst.w := I420Buffer.w_congr ha.1.1
      rw [chromaRow, hw]
    · intro cy hcy cx hcx a ha
      exact chromaBlock_step hfits hholds hcy hcx ha
  rw [Nat.mul_comm] at hchroma
  rcases hchroma with ⟨g, hg, hup⟩
  refine ⟨g, ?_, hup⟩
  rw [toI420, hf]
  exact hg

end Passes

/-- A frame is the conversion of a grid: every byte of its planes is the value in
    exact integers, within the limited range. -/
structure Bt601 (grid : ℕ → ℕ → Pixel) (f : I420Buffer) : Prop where
  luma : ∀ row, row < f.h → ∀ col, col < f.w → ∃ y, (f.plane .Y)[row * f.w + col]? = some y ∧
    (y.toNat : ℤ) = exactLuma (grid row col).rgb ∧ 16 ≤ y.toNat ∧ y.toNat ≤ 235
  u : ∀ cy, cy < f.h / 2 → ∀ cx, cx < f.w / 2 →
    ∃ u, (f.plane .U)[cy * (f.w / 2) + cx]? = some u ∧
      (u.toNat : ℤ) = exactU (mean grid cy cx) ∧ 16 ≤ u.toNat ∧ u.toNat ≤ 240
  v : ∀ cy, cy < f.h / 2 → ∀ cx, cx < f.w / 2 →
    ∃ v, (f.plane .V)[cy * (f.w / 2) + cx]? = some v ∧
      (v.toNat : ℤ) = exactV (mean grid cy cx) ∧ 16 ≤ v.toNat ∧ v.toNat ≤ 240

/-- What the two loops write is the conversion of the grid. -/
theorem ChromaUpTo.bt601 {grid : ℕ → ℕ → Pixel} {dst f : I420Buffer}
    (h : ChromaUpTo grid dst dst.uvLen f) : Bt601 grid f := by
  have hw : f.w = dst.w := I420Buffer.w_congr h.1.1
  have hh : f.h = dst.h := I420Buffer.h_congr h.1.1
  refine ⟨fun row hrow col hcol => ?_, fun cy hcy cx hcx => ?_, fun cy hcy cx hcx => ?_⟩
  · -- Byte `row * w + col` of the luma plane is that of the pixel at `(row, col)`.
    rw [hw] at hcol ⊢
    rw [hh] at hrow
    have hrange := exactLuma_mem (grid row col).channels
    have hexact := luma_exact (grid row col).channels
    have hbyte := h.1.2 _ ((raster_lt hrow hcol).trans_eq (Nat.mul_comm _ _))
    rw [raster_div _ _ _ hcol, raster_mod _ _ _ hcol, ← I420Buffer.plane_getElem?] at hbyte
    exact ⟨_, hbyte, hexact, by omega, by omega⟩
  · -- The chroma planes are half as wide and high, and hold the means of the blocks.
    rw [hw] at hcx ⊢
    rw [hh] at hcy
    have hrange := exactU_mem (mean_channels grid cy cx)
    have hexact := chromaU_exact (mean_channels grid cy cx)
    have hbyte := (h.2 _ ((raster_lt hcy hcx).trans_eq (Nat.mul_comm _ _))).1
    rw [raster_div _ _ _ hcx, raster_mod _ _ _ hcx, ← I420Buffer.plane_getElem?] at hbyte
    exact ⟨_, hbyte, hexact, by omega, by omega⟩
  · rw [hw] at hcx ⊢
    rw [hh] at hcy
    have hrange := exactV_mem (mean_channels grid cy cx)
    have hexact := chromaV_exact (mean_channels grid cy cx)
    have hbyte := (h.2 _ ((raster_lt hcy hcx).trans_eq (Nat.mul_comm _ _))).2
    rw [raster_div _ _ _ hcx, raster_mod _ _ _ hcx, ← I420Buffer.plane_getElem?] at hbyte
    exact ⟨_, hbyte, hexact, by omega, by omega⟩

/-- Two frames that the loops have filled from one grid are the same. -/
theorem ChromaUpTo.unique {grid : ℕ → ℕ → Pixel} {dst dst' f g : I420Buffer}
    (hdim : dst'.dimensions = dst.dimensions) (hf : ChromaUpTo grid dst dst.uvLen f)
    (hg : ChromaUpTo grid dst' dst'.uvLen g) : g = f := by
  have hw : dst'.w = dst.w := I420Buffer.w_congr hdim
  have hy : dst'.yLen = dst.yLen := I420Buffer.planeLen_congr hdim .Y
  have huv : dst'.uvLen = dst.uvLen := I420Buffer.planeLen_congr hdim .U
  refine I420Buffer.ext_byteAt (hg.1.1.trans (hdim.trans hf.1.1.symm)) fun p k hk => ?_
  rw [I420Buffer.planeLen_congr hf.1.1] at hk
  cases p with
  | Y => rw [hf.1.2 k hk, hg.1.2 k (by rw [hy]; exact hk), hw]
  | U => rw [(hf.2 k hk).1, (hg.2 k (by rw [huv]; exact hk)).1, hw]
  | V => rw [(hf.2 k hk).2, (hg.2 k (by rw [huv]; exact hk)).2, hw]

/-- A buffer that holds a grid becomes its conversion, and so does every other
    buffer that holds it, into whatever frame of these dimensions. -/
theorem toI420_exact (grid : ℕ → ℕ → Pixel) (src : List UInt8) (srcStride : ℕ)
    (fmt : PixelFormat) (dst : I420Buffer) (hfits : Fits src srcStride dst.w dst.h)
    (hholds : Holds grid fmt src srcStride dst.w dst.h) :
    ∃ f, toI420 src srcStride fmt dst = some f ∧ f.dimensions = dst.dimensions ∧ Bt601 grid f ∧
      ∀ src' srcStride' fmt' dst', dst'.dimensions = dst.dimensions →
        Fits src' srcStride' dst.w dst.h → Holds grid fmt' src' srcStride' dst.w dst.h →
        toI420 src' srcStride' fmt' dst' = some f := by
  rcases toI420_bytes hfits hholds with ⟨f, hf, hup⟩
  refine ⟨f, hf, hup.1.1, hup.bt601, ?_⟩
  intro src' srcStride' fmt' dst' hdim hfits' hholds'
  have hw : dst'.w = dst.w := I420Buffer.w_congr hdim
  have hh : dst'.h = dst.h := I420Buffer.h_congr hdim
  rw [← hw, ← hh] at hfits' hholds'
  rcases toI420_bytes hfits' hholds' with ⟨g, hg, hup'⟩
  rw [hg, hup.unique hdim hup']

/-- A 2×2 frame of one colour, in rows of twelve bytes. -/
theorem toI420_exact_padded :
    ∃ f, toI420 [1, 2, 3, 9, 1, 2, 3, 9, 7, 7, 7, 7, 1, 2, 3, 9, 1, 2, 3, 9] 12 .BGRX
        { width := 2, height := 2, data := [0, 0, 0, 0, 0, 0], width_even := rfl,
          height_even := rfl, data_length := rfl } = some f ∧
      Bt601 (fun _ _ => { r := 3, g := 2, b := 1 }) f := by
  rcases toI420_exact (fun _ _ => { r := 3, g := 2, b := 1 })
    [1, 2, 3, 9, 1, 2, 3, 9, 7, 7, 7, 7, 1, 2, 3, 9, 1, 2, 3, 9] 12 .BGRX
    { width := 2, height := 2, data := [0, 0, 0, 0, 0, 0], width_even := rfl,
      height_even := rfl, data_length := rfl }
    (by unfold Fits RowsFit; decide)
    (by unfold Holds; decide) with ⟨f, hf, _, hbt, _⟩
  exact ⟨f, hf, hbt⟩

/-- A buffer that is long enough holds some grid. -/
theorem holds_of_fits {src : List UInt8} {srcStride w h : ℕ} {fmt : PixelFormat}
    (hfits : Fits src srcStride w h) :
    ∃ grid, Holds grid fmt src srcStride w h := by
  refine ⟨fun row col =>
    { r := src.getD (row * srcStride + (col * 4 + fmt.r)) 0
      g := src.getD (row * srcStride + (col * 4 + fmt.g)) 0
      b := src.getD (row * srcStride + (col * 4 + fmt.b)) 0 }, ?_⟩
  intro row hrow col hcol
  have hlen := RowsFit.row hfits row hrow
  have hat : ∀ k, k < 4 → src[row * srcStride + (col * 4 + k)]? =
      some (src.getD (row * srcStride + (col * 4 + k)) 0) := by
    intro k hk
    rw [List.getD_eq_getElem?_getD, List.getElem?_eq_getElem (by omega), Option.getD_some]
  rcases fmt.lt with ⟨hr, hg, hb⟩
  exact ⟨hat _ hr, hat _ hg, hat _ hb⟩

/-- The conversion reads every row, so that it panics where one is not there. -/
theorem fits_of_toI420 {src : List UInt8} {srcStride : ℕ} {fmt : PixelFormat}
    {dst f : I420Buffer} (h : toI420 src srcStride fmt dst = some f) :
    Fits src srcStride dst.w dst.h := by
  rw [toI420] at h
  rcases Option.bind_eq_some_iff.mp h with ⟨g, hg, _⟩
  refine rowsFit_of_forRange I420Buffer.dimensions
    (fun row c c' => lumaRow_dimensions src srcStride fmt) (fun row a b hdim hrow => ?_) hg
  have hw : a.w = dst.w := I420Buffer.w_congr hdim
  rcases Option.bind_eq_some_iff.mp hrow with ⟨srcRow, htail, hcols⟩
  rcases le_of_tail? htail with ⟨hstart, rfl⟩
  -- The last pixel of the row has been read, if the row has a pixel.
  by_cases hwzero : dst.w = 0
  · omega
  · rw [hw] at hcols
    rcases forRange_reached dst.w hcols (dst.w - 1) (by omega) with ⟨c, c', _, hpixel⟩
    rcases Option.bind_eq_some_iff.mp hpixel with ⟨rgb, hread, _⟩
    rcases Option.bind_eq_some_iff.mp hread with ⟨px, hslice, _⟩
    have hend := (le_of_slice? hslice).2
    rw [List.length_drop] at hend
    omega

/-- When the conversion does not panic. -/
theorem toI420_isSome_iff {src : List UInt8} {srcStride : ℕ} {fmt : PixelFormat}
    {dst : I420Buffer} :
    (toI420 src srcStride fmt dst).isSome ↔ Fits src srcStride dst.w dst.h := by
  rw [Option.isSome_iff_exists]
  refine ⟨?_, fun hfits => ?_⟩
  · rintro ⟨f, hf⟩
    exact fits_of_toI420 hf
  · rcases holds_of_fits hfits with ⟨grid, hholds⟩
    rcases toI420_bytes hfits hholds with ⟨f, hf, _⟩
    exact ⟨f, hf⟩

/-- What comes out does not depend on what the frame held. -/
theorem toI420_congr {src : List UInt8} {srcStride : ℕ} {fmt : PixelFormat}
    {dst dst' f : I420Buffer} (hdim : dst'.dimensions = dst.dimensions)
    (h : toI420 src srcStride fmt dst = some f) : toI420 src srcStride fmt dst' = some f := by
  have hw : dst'.w = dst.w := I420Buffer.w_congr hdim
  have hh : dst'.h = dst.h := I420Buffer.h_congr hdim
  have hfits := fits_of_toI420 h
  rcases holds_of_fits hfits with ⟨grid, hholds⟩
  rcases toI420_bytes hfits hholds with ⟨g, hg, hup⟩
  rw [← hw, ← hh] at hfits hholds
  rcases toI420_bytes hfits hholds with ⟨g', hg', hup'⟩
  rw [hg', hup.unique hdim hup', ← hg, h]

end Convert

end Capture

end LoomHost
