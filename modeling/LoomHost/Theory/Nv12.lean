import LoomHost.Core.Nv12

/-!
# The macOS Pixel Path

Splitting an NV12 frame and interleaving the planes again are inverse to each
other. Each side honors its own strides, and the encoder's side infers the rows
of a plane from its length, which is right as the planes are packed.

The one loss is in between: the strides are handed over as `i32`. A width from
`2^31` on comes out as a negative stride, the encoder finds no rows in the luma
plane, and leaves that of the pixel buffer as it was.

## Main definitions

* `SplitLuma`, `SplitChroma`: How far the planes are those of the NV12 frame.
* `Copied`: A destination up to a position, the padding of its rows untouched.
* `Room`: A pixel buffer with rows for a frame.
* `Lossless`: Every visible byte at its place, and no other byte changed.

## Theorems

* `toI420_bytes`: Every byte of the planes.
* `rows_of_toI420`, `toI420_congr`: A split that succeeds had all its rows, and what
  the frame held before does not matter.
* `writePlanes_spec`: Every byte of the pixel buffer, for a width below `2^31`.
* `writePlanes_wide`: From there on the luma is not written.
* `pixel_path_lossless_iff`: The path is lossless for a frame exactly up to that width.
-/

namespace LoomHost

namespace Capture

namespace Nv12

open Checked

/-- A row is there if its end is. -/
theorem row?_spec {plane : List UInt8} {start len : ℕ} (h : start + len ≤ plane.length) :
    ∃ src, row? plane start len = some src ∧ src.length = len ∧
      ∀ k, k < len → src[k]? = plane[start + k]? := by
  have hlen : len ≤ (plane.drop start).length := by rw [List.length_drop]; omega
  refine ⟨(plane.drop start).take len, ?_, ?_, fun k hk => ?_⟩
  · rw [row?, tail?_eq_some _ _ (by omega)]
    exact slice?_eq_some _ _ _ (Nat.zero_le len) hlen
  · rw [List.length_take]
    omega
  · rw [List.getElem?_take_of_lt hk, List.getElem?_drop]

section Split

variable {y uv : List UInt8} {yStride uvStride : ℕ} {dst : I420Buffer}

/-- The first `n` luma bytes are those of the rows of `y`. -/
def SplitLuma (y : List UInt8) (yStride : ℕ) (dst : I420Buffer) (n : ℕ) (f : I420Buffer) :
    Prop :=
  f.dimensions = dst.dimensions ∧
    ∀ k, k < n → f.byteAt .Y k = y[k / dst.w * yStride + k % dst.w]?

/-- The luma is that of `y`, and the first `n` bytes of the chroma planes are the
    Cb and Cr bytes of the rows of `uv`. -/
def SplitChroma (y : List UInt8) (yStride : ℕ) (uv : List UInt8) (uvStride : ℕ)
    (dst : I420Buffer) (n : ℕ) (f : I420Buffer) : Prop :=
  SplitLuma y yStride dst dst.yLen f ∧ ∀ k, k < n →
    f.byteAt .U k = uv[k / (dst.w / 2) * uvStride + 2 * (k % (dst.w / 2))]? ∧
      f.byteAt .V k = uv[k / (dst.w / 2) * uvStride + (2 * (k % (dst.w / 2)) + 1)]?

/-- A row of the luma loop copies a row. -/
theorem lumaRow_step (hy : RowsFit y.length yStride dst.w dst.h) {row : ℕ} (hrow : row < dst.h)
    {f : I420Buffer} (hf : SplitLuma y yStride dst (row * dst.w) f) :
    ∃ g, lumaRow y yStride row f = some g ∧ SplitLuma y yStride dst ((row + 1) * dst.w) g := by
  have hw : f.w = dst.w := I420Buffer.w_congr hf.1
  rcases row?_spec (hy.row row hrow) with ⟨src, hsrc, hlen, hbytes⟩
  have hin : row * f.w + src.length ≤ f.planeLen .Y := by
    rw [I420Buffer.planeLen_congr hf.1, hw, hlen]
    calc row * dst.w + dst.w = (row + 1) * dst.w := (Nat.succ_mul row dst.w).symm
      _ ≤ dst.h * dst.w := Nat.mul_le_mul_right _ hrow
      _ = dst.planeLen .Y := Nat.mul_comm _ _
  rcases f.copyRow_spec .Y _ src hin with ⟨g, hcopy, hdim, hg⟩
  refine ⟨g, ?_, hdim.trans hf.1, fun k hk => ?_⟩
  · rw [lumaRow, hw, hsrc, Option.bind_eq_bind, Option.bind_some, ← hw, hcopy]
  · rw [Nat.succ_mul] at hk
    rw [hg, hw, hlen]
    by_cases hold : k < row * dst.w
    · rw [if_neg (by omega)]
      exact hf.2 k hold
    · -- A position of this row.
      have hcol : k - row * dst.w < dst.w := by omega
      have hsplit : k = row * dst.w + (k - row * dst.w) := by omega
      rw [if_pos ⟨rfl, by omega, hk⟩, hbytes _ hcol]
      rw [hsplit, raster_div _ _ _ hcol, raster_mod _ _ _ hcol, Nat.add_sub_cancel_left]

/-- A turn of the chroma loop adds one byte to either plane. -/
theorem chromaPixel_step {src : List UInt8} {row i : ℕ} (hrow : row < dst.h / 2)
    (hi : i < dst.w / 2)
    (hu : src[2 * i]? = uv[row * uvStride + 2 * i]?)
    (hv : src[2 * i + 1]? = uv[row * uvStride + (2 * i + 1)]?) (hlen : src.length = dst.w / 2 * 2)
    {f : I420Buffer} (hf : SplitChroma y yStride uv uvStride dst (row * (dst.w / 2) + i) f) :
    ∃ g, chromaPixel src row i f = some g ∧
      SplitChroma y yStride uv uvStride dst (row * (dst.w / 2) + i + 1) g := by
  have hw : f.w = dst.w := I420Buffer.w_congr hf.1.1
  have hpos : row * (dst.w / 2) + i < dst.uvLen :=
    (raster_lt hrow hi).trans_eq (Nat.mul_comm _ _)
  have hin : row * (f.w / 2) + i < f.planeLen .U := by
    rw [I420Buffer.planeLen_congr hf.1.1, hw]
    exact hpos
  have hcb : src[2 * i]? = some src[2 * i] := List.getElem?_eq_getElem (by omega)
  have hcr : src[2 * i + 1]? = some src[2 * i + 1] := List.getElem?_eq_getElem (by omega)
  rcases f.set_spec .U _ src[2 * i] hin with ⟨g, hset, hdim, hbytes⟩
  have hgw : g.w = dst.w := I420Buffer.w_congr (hdim.trans hf.1.1)
  have hin' : row * (g.w / 2) + i < g.planeLen .V := by
    rw [I420Buffer.planeLen_congr (hdim.trans hf.1.1), hgw]
    exact hpos
  rcases g.set_spec .V _ src[2 * i + 1] hin' with ⟨g', hset', hdim', hbytes'⟩
  refine ⟨g', ?_, ⟨hdim'.trans (hdim.trans hf.1.1), fun k hk => ?_⟩, fun k hk => ?_⟩
  · simp only [chromaPixel, hcb, hcr, Option.bind_eq_bind, Option.bind_some, hset, hset']
  · -- The luma stays.
    rw [hbytes', if_neg fun h => Plane.noConfusion h.1, hbytes,
      if_neg fun h => Plane.noConfusion h.1]
    exact hf.1.2 k hk
  · rw [hbytes', hbytes, hbytes', hbytes, hw, hgw, if_neg fun h => Plane.noConfusion h.1,
      if_neg (c := Plane.V = Plane.U ∧ _) fun h => Plane.noConfusion h.1]
    by_cases hlast : k = row * (dst.w / 2) + i
    · rw [if_pos ⟨rfl, hlast⟩, if_pos ⟨rfl, hlast⟩, hlast, raster_div _ _ _ hi, raster_mod _ _ _ hi,
        ← hu, ← hv]
      exact ⟨hcb.symm, hcr.symm⟩
    · rw [if_neg fun h => hlast h.2, if_neg fun h => hlast h.2]
      exact hf.2 k (by omega)

/-- The split succeeds and decides every byte. -/
theorem toI420_bytes (hy : RowsFit y.length yStride dst.w dst.h)
    (huv : RowsFit uv.length uvStride (dst.w / 2 * 2) (dst.h / 2)) :
    ∃ f, toI420 y yStride uv uvStride dst = some f ∧
      SplitChroma y yStride uv uvStride dst dst.uvLen f := by
  -- The luma loop copies row by row.
  have hluma : ∃ f, forRange dst.h (lumaRow y yStride) dst = some f ∧
      SplitLuma y yStride dst (dst.h * dst.w) f := by
    refine forRange_rule _ _ (fun row => SplitLuma y yStride dst (row * dst.w)) ?_ ?_
    · exact ⟨rfl, fun k hk => by omega⟩
    · intro row hrow a ha
      exact lumaRow_step hy hrow ha
  rcases hluma with ⟨f, hf, hup⟩
  rw [Nat.mul_comm] at hup
  -- The chroma loop splits row by row, and in a row pixel by pixel.
  have hchroma : ∃ g, forRange (dst.h / 2) (chromaRow uv uvStride) f = some g ∧
      SplitChroma y yStride uv uvStride dst (dst.h / 2 * (dst.w / 2)) g := by
    refine forRange_rule _ _
      (fun row => SplitChroma y yStride uv uvStride dst (row * (dst.w / 2))) ?_ ?_
    · exact ⟨hup, fun k hk => by omega⟩
    · intro row hrow a ha
      have hw : a.w = dst.w := I420Buffer.w_congr ha.1.1
      -- The source row is there, as the plane has room for it.
      rcases row?_spec (huv.row row hrow) with ⟨src, hsrc, hlen, hbytes⟩
      have hcols := forRange_rule (dst.w / 2) (chromaPixel src row)
        (fun i => SplitChroma y yStride uv uvStride dst (row * (dst.w / 2) + i)) ha
        fun i hi b hb => chromaPixel_step hrow hi (hbytes _ (by omega)) (hbytes _ (by omega))
          hlen hb
      rw [chromaRow, hw, hsrc, Nat.succ_mul]
      exact hcols
  rcases hchroma with ⟨g, hg, hdone⟩
  rw [Nat.mul_comm] at hdone
  refine ⟨g, ?_, hdone⟩
  rw [toI420, hf]
  exact hg

/-- A row that is read is there. -/
theorem le_of_row? {plane src : List UInt8} {start len : ℕ} (h : row? plane start len = some src) :
    start + len ≤ plane.length := by
  rcases Option.bind_eq_some_iff.mp h with ⟨tail, htail, hslice⟩
  rcases le_of_tail? htail with ⟨hstart, rfl⟩
  have hend := (le_of_slice? hslice).2
  rw [List.length_drop] at hend
  omega

/-- The split reads every row, so that it panics where one is not there. -/
theorem rows_of_toI420 {f : I420Buffer} (h : toI420 y yStride uv uvStride dst = some f) :
    RowsFit y.length yStride dst.w dst.h ∧
      RowsFit uv.length uvStride (dst.w / 2 * 2) (dst.h / 2) := by
  rcases Option.bind_eq_some_iff.mp h with ⟨g, hg, hf⟩
  have hgdim : g.dimensions = dst.dimensions :=
    forRange_keeps I420Buffer.dimensions (fun row c c' => lumaRow_dimensions) hg
  refine ⟨?_, ?_⟩
  · refine rowsFit_of_forRange I420Buffer.dimensions (fun row c c' => lumaRow_dimensions)
      (fun row a b hdim hrow => ?_) hg
    rcases Option.bind_eq_some_iff.mp hrow with ⟨src, hsrc, _⟩
    have hend := le_of_row? hsrc
    rwa [I420Buffer.w_congr hdim] at hend
  · refine rowsFit_of_forRange I420Buffer.dimensions (fun row c c' => chromaRow_dimensions)
      (fun row a b hdim hrow => ?_) hf
    rcases Option.bind_eq_some_iff.mp hrow with ⟨src, hsrc, _⟩
    have hend := le_of_row? hsrc
    rwa [I420Buffer.w_congr (hdim.trans hgdim)] at hend

/-- Two frames that the loops have filled from the same planes are the same. -/
theorem SplitChroma.unique {dst' f g : I420Buffer} (hdim : dst'.dimensions = dst.dimensions)
    (hf : SplitChroma y yStride uv uvStride dst dst.uvLen f)
    (hg : SplitChroma y yStride uv uvStride dst' dst'.uvLen g) : g = f := by
  have hw : dst'.w = dst.w := I420Buffer.w_congr hdim
  have hylen : dst'.yLen = dst.yLen := I420Buffer.planeLen_congr hdim .Y
  have huvlen : dst'.uvLen = dst.uvLen := I420Buffer.planeLen_congr hdim .U
  refine I420Buffer.ext_byteAt (hg.1.1.trans (hdim.trans hf.1.1.symm)) fun p k hk => ?_
  rw [I420Buffer.planeLen_congr hf.1.1] at hk
  cases p with
  | Y => rw [hf.1.2 k hk, hg.1.2 k (by rw [hylen]; exact hk), hw]
  | U => rw [(hf.2 k hk).1, (hg.2 k (by rw [huvlen]; exact hk)).1, hw]
  | V => rw [(hf.2 k hk).2, (hg.2 k (by rw [huvlen]; exact hk)).2, hw]

/-- What comes out does not depend on what the frame held. -/
theorem toI420_congr {dst' f : I420Buffer} (hdim : dst'.dimensions = dst.dimensions)
    (h : toI420 y yStride uv uvStride dst = some f) :
    toI420 y yStride uv uvStride dst' = some f := by
  have hw : dst'.w = dst.w := I420Buffer.w_congr hdim
  have hh : dst'.h = dst.h := I420Buffer.h_congr hdim
  rcases rows_of_toI420 h with ⟨hy, huv⟩
  rcases toI420_bytes hy huv with ⟨g, hg, hup⟩
  rw [← hw, ← hh] at hy huv
  rcases toI420_bytes hy huv with ⟨g', hg', hup'⟩
  rw [hg', hup.unique hdim hup', ← hg, h]

end Split

section Strided

variable {S w : ℕ} {val : ℕ → ℕ → Option UInt8} {old mem : List UInt8}

/-- Rows of `w` bytes, `S` apart, written up to a position; everything else as it was. -/
def Copied (S w : ℕ) (val : ℕ → ℕ → Option UInt8) (old : List UInt8) (n : ℕ)
    (mem : List UInt8) : Prop :=
  mem.length = old.length ∧
    ∀ k, mem[k]? = if k < n ∧ k % S < w then val (k / S) (k % S) else old[k]?

theorem Copied.start : Copied S w val old 0 old :=
  ⟨rfl, fun k => by rw [if_neg fun h => Nat.not_lt_zero k h.1]⟩

/-- Rows of no bytes are written wherever the loop stops. -/
theorem Copied.zero_width (n : ℕ) : Copied S 0 val old n old :=
  ⟨rfl, fun k => by rw [if_neg fun h => Nat.not_lt_zero _ h.2]⟩

/-- Between the end of a row and the start of the next there is nothing to write. -/
theorem Copied.next_row {row : ℕ} (hS : w ≤ S) (h : Copied S w val old (row * S + w) mem) :
    Copied S w val old ((row + 1) * S) mem := by
  refine ⟨h.1, fun k => ?_⟩
  rw [h.2 k, Nat.succ_mul]
  by_cases hcol : k % S < w
  · have hiff : k < row * S + w ↔ k < row * S + S := by
      refine ⟨fun hk => by omega, fun hk => ?_⟩
      by_cases hrow : k < row * S
      · omega
      · have hsub : k - row * S < S := by omega
        have hk' : k = row * S + (k - row * S) := by omega
        rw [hk', raster_mod _ _ _ hsub] at hcol
        omega
    by_cases hk : k < row * S + w
    · rw [if_pos ⟨hk, hcol⟩, if_pos ⟨hiff.mp hk, hcol⟩]
    · rw [if_neg fun hand => hk hand.1, if_neg fun hand => hk (hiff.mpr hand.1)]
  · rw [if_neg fun hand => hcol hand.2, if_neg fun hand => hcol hand.2]

/-- A whole row at once. -/
theorem Copied.row {row : ℕ} {bs : List UInt8} (hS : w ≤ S)
    (h : Copied S w val old (row * S) mem) (hlen : bs.length = w)
    (hfit : row * S + w ≤ old.length) (hbs : ∀ c, c < w → bs[c]? = val row c) :
    ∃ mem', copyTo mem (row * S) bs = some mem' ∧ Copied S w val old (row * S + w) mem' := by
  have hsame := h.1
  have hroom : row * S + bs.length ≤ mem.length := by omega
  refine ⟨_, if_pos hroom, ?_, fun k => ?_⟩
  · rw [Pieces.length_write, ← h.1]
    omega
  · by_cases hin : row * S ≤ k ∧ k < row * S + bs.length
    · -- A byte of the row.
      have hcol : k - row * S < w := by omega
      have hk : k = row * S + (k - row * S) := by omega
      have hmod : k % S = k - row * S := by
        rw [hk, raster_mod _ _ _ (by omega)]
        omega
      have hdiv : k / S = row := by rw [hk, raster_div _ _ _ (by omega)]
      rw [Pieces.getElem?_write_of_mem 0 mem _ bs k hin.1 hin.2, hbs _ hcol,
        if_pos ⟨by omega, by omega⟩, hdiv, hmod]
    · by_cases hend : k < mem.length
      · rw [Pieces.getElem?_write_of_not_mem 0 mem _ bs k hend (by omega), h.2 k]
        by_cases hold : k < row * S ∧ k % S < w
        · rw [if_pos hold, if_pos ⟨by omega, hold.2⟩]
        · rw [if_neg hold, if_neg fun hand => hold ⟨by omega, hand.2⟩]
      · rw [List.getElem?_eq_none (by rw [Pieces.length_write]; omega),
          if_neg fun hand => hend (by omega), List.getElem?_eq_none (by omega)]

/-- One byte of a row. -/
theorem Copied.cell {row c : ℕ} {b : UInt8} (hS : w ≤ S) (hc : c < w)
    (h : Copied S w val old (row * S + c) mem) (hfit : row * S + c < old.length)
    (hb : some b = val row c) :
    ∃ mem', store mem (row * S + c) b = some mem' ∧ Copied S w val old (row * S + c + 1) mem' := by
  have hroom : row * S + c < mem.length := by rw [h.1]; exact hfit
  refine ⟨_, if_pos hroom, ?_, fun k => ?_⟩
  · rw [List.length_set, h.1]
  · by_cases hk : k = row * S + c
    · rw [hk, List.getElem?_set_self hroom, hb,
        raster_div _ _ _ (Nat.lt_of_lt_of_le hc hS), raster_mod _ _ _ (Nat.lt_of_lt_of_le hc hS),
        if_pos ⟨by omega, hc⟩]
    · rw [List.getElem?_set_ne (Ne.symm hk), h.2 k]
      by_cases hold : k < row * S + c ∧ k % S < w
      · rw [if_pos hold, if_pos ⟨by omega, hold.2⟩]
      · rw [if_neg hold, if_neg fun hand => hold ⟨by omega, hand.2⟩]

end Strided

section Stride

/-- A stride below `2^31` is handed over as it is. -/
theorem asUsize_of_lt (x : UInt32) (h : x.toNat < 2147483648) : asUsize x.toInt32 = x.toNat := by
  have hint : x.toInt32.toInt = x.toNat := BitVec.toInt_eq_toNat_of_lt (by
    change 2 * x.toNat < 2 ^ 32
    omega)
  rw [asUsize, hint]
  omega

/-- From there on it is negative, and the cast to `usize` makes it huge. -/
theorem asUsize_of_le (x : UInt32) (h : 2147483648 ≤ x.toNat) :
    asUsize x.toInt32 = 18446744073709551616 - 4294967296 + x.toNat := by
  have hx := x.toNat_lt
  have hint : x.toInt32.toInt = (x.toNat : ℤ) - 4294967296 := by
    have hcond := BitVec.toInt_eq_toNat_cond x.toBitVec
    rw [if_neg (by change ¬ 2 * x.toNat < 2 ^ 32; omega)] at hcond
    exact hcond
  rw [asUsize, hint]
  omega

theorem half_toNat (x : UInt32) : (x / 2).toNat = x.toNat / 2 := UInt32.toNat_div x 2

end Stride

/-- The row of a plane's bytes, and the column. -/
def lumaVal (f : I420Buffer) (row col : ℕ) : Option UInt8 := f.byteAt .Y (row * f.w + col)

/-- The chroma bytes of a row, U and V by turns. -/
def chromaVal (f : I420Buffer) (row col : ℕ) : Option UInt8 :=
  if col % 2 = 0 then f.byteAt .U (row * (f.w / 2) + col / 2)
  else f.byteAt .V (row * (f.w / 2) + col / 2)

/-- A pixel buffer has rows for a frame of `w` columns and `h` rows, none shorter
    than the frame is wide. -/
structure Room (w h : ℕ) (pixels : PixelBuffer) : Prop where
  luma_stride : w ≤ pixels.luma.bytesPerRow
  luma_rows : RowsFit pixels.luma.bytes.length pixels.luma.bytesPerRow w h
  chroma_stride : w ≤ pixels.chroma.bytesPerRow
  chroma_rows : RowsFit pixels.chroma.bytes.length pixels.chroma.bytesPerRow w (h / 2)

section Write

variable (f : I420Buffer) (pixels : PixelBuffer)

/-- The rows of a packed plane, counted by its length. -/
theorem rows_of_len (len w h : ℕ) (hlen : len = w * h) (hw : 0 < w) : len / max w 1 = h := by
  rw [Nat.max_eq_left hw, hlen, Nat.mul_comm, Nat.mul_div_cancel h hw]

/-- A row of the luma loop. -/
theorem writeLumaRow_step (hroom : Room f.w f.h pixels) {row : ℕ} (hrow : row < f.h)
    {mem : List UInt8} (hmem : Copied pixels.luma.bytesPerRow f.w (lumaVal f) pixels.luma.bytes
      (row * pixels.luma.bytesPerRow) mem) :
    ∃ mem', writeLumaRow f.plane f.w pixels.luma.bytesPerRow row mem = some mem' ∧
      Copied pixels.luma.bytesPerRow f.w (lumaVal f) pixels.luma.bytes
        ((row + 1) * pixels.luma.bytesPerRow) mem' := by
  -- The row lies within the plane, so reading it does not panic.
  have hin : row * f.w + f.w ≤ (f.plane .Y).length := by
    rw [I420Buffer.length_plane]
    calc row * f.w + f.w = (row + 1) * f.w := (Nat.succ_mul row f.w).symm
      _ ≤ f.h * f.w := Nat.mul_le_mul_right _ hrow
      _ = f.planeLen .Y := Nat.mul_comm _ _
  rcases row?_spec hin with ⟨src, hsrc, hlen, hbytes⟩
  have hval : ∀ c, c < f.w → src[c]? = lumaVal f row c := by
    intro c hc
    rw [hbytes c hc, I420Buffer.plane_getElem?, lumaVal]
  rcases hmem.row hroom.luma_stride hlen (hroom.luma_rows.row row hrow) hval with
    ⟨mem', hcopy, hnew⟩
  refine ⟨mem', ?_, hnew.next_row hroom.luma_stride⟩
  rw [writeLumaRow, hsrc]
  exact hcopy

/-- A turn of the chroma loop writes two bytes. -/
theorem writeChromaPixel_step (hroom : Room f.w f.h pixels) {row i : ℕ} (hrow : row < f.h / 2)
    (hi : i < f.w / 2) {mem : List UInt8}
    (hmem : Copied pixels.chroma.bytesPerRow f.w (chromaVal f) pixels.chroma.bytes
      (row * pixels.chroma.bytesPerRow + 2 * i) mem) :
    ∃ mem', writeChromaPixel pixels.chroma.bytesPerRow
        ((f.plane .U).drop (row * (f.w / 2))) ((f.plane .V).drop (row * (f.w / 2))) row i mem =
          some mem' ∧
      Copied pixels.chroma.bytesPerRow f.w (chromaVal f) pixels.chroma.bytes
        (row * pixels.chroma.bytesPerRow + 2 * (i + 1)) mem' := by
  have hend := hroom.chroma_rows.row row hrow
  have hpos : row * (f.w / 2) + i < f.uvLen := (raster_lt hrow hi).trans_eq (Nat.mul_comm _ _)
  have hulen := I420Buffer.length_plane (f := f) .U
  have hvlen := I420Buffer.length_plane (f := f) .V
  -- The even columns have the Cb bytes, the odd ones the Cr bytes.
  have huget : ((f.plane .U).drop (row * (f.w / 2)))[i]? = chromaVal f row (2 * i) := by
    rw [List.getElem?_drop, I420Buffer.plane_getElem?, chromaVal, if_pos (by omega),
      Nat.mul_div_cancel_left i (by omega)]
  have hvget : ((f.plane .V).drop (row * (f.w / 2)))[i]? = chromaVal f row (2 * i + 1) := by
    have hhalf : (2 * i + 1) / 2 = i := by omega
    rw [List.getElem?_drop, I420Buffer.plane_getElem?, chromaVal, if_neg (by omega), hhalf]
  have husome : ∃ u, ((f.plane .U).drop (row * (f.w / 2)))[i]? = some u := by
    rw [List.getElem?_drop]
    exact ⟨_, List.getElem?_eq_getElem (by rw [hulen]; exact hpos)⟩
  have hvsome : ∃ v, ((f.plane .V).drop (row * (f.w / 2)))[i]? = some v := by
    rw [List.getElem?_drop]
    exact ⟨_, List.getElem?_eq_getElem (by rw [hvlen]; exact hpos)⟩
  rcases husome with ⟨u, hu⟩
  rcases hvsome with ⟨v, hv⟩
  rcases hmem.cell hroom.chroma_stride (by omega) (by omega) (hu.symm.trans huget) with
    ⟨mem1, hstore1, hmem1⟩
  rcases hmem1.cell (c := 2 * i + 1) hroom.chroma_stride (by omega) (by omega)
    (hv.symm.trans hvget) with ⟨mem2, hstore2, hmem2⟩
  refine ⟨mem2, ?_, hmem2⟩
  simp only [writeChromaPixel, hu, hv, Option.bind_eq_bind, Option.bind_some, hstore1, hstore2]

/-- A row of the chroma loop. -/
theorem writeChromaRow_step (hroom : Room f.w f.h pixels) {row : ℕ} (hrow : row < f.h / 2)
    {mem : List UInt8}
    (hmem : Copied pixels.chroma.bytesPerRow f.w (chromaVal f) pixels.chroma.bytes
      (row * pixels.chroma.bytesPerRow) mem) :
    ∃ mem', writeChromaRow f.plane (f.w / 2) pixels.chroma.bytesPerRow row mem = some mem' ∧
      Copied pixels.chroma.bytesPerRow f.w (chromaVal f) pixels.chroma.bytes
        ((row + 1) * pixels.chroma.bytesPerRow) mem' := by
  have heven : 2 * (f.w / 2) = f.w := by
    have hwidth : f.w % 2 = 0 := f.width_even
    omega
  have hin : row * (f.w / 2) ≤ f.uvLen :=
    (Nat.mul_le_mul_right _ (Nat.le_of_lt hrow)).trans_eq (Nat.mul_comm _ _)
  -- The rows of both planes are there to be read.
  have hu := tail?_eq_some (f.plane .U) (row * (f.w / 2))
    (by rw [I420Buffer.length_plane]; exact hin)
  have hv := tail?_eq_some (f.plane .V) (row * (f.w / 2))
    (by rw [I420Buffer.length_plane]; exact hin)
  -- Each pair of bytes written moves the invariant on by two.
  have hcols := forRange_rule (f.w / 2)
    (writeChromaPixel pixels.chroma.bytesPerRow ((f.plane .U).drop (row * (f.w / 2)))
      ((f.plane .V).drop (row * (f.w / 2))) row)
    (fun i => Copied pixels.chroma.bytesPerRow f.w (chromaVal f) pixels.chroma.bytes
      (row * pixels.chroma.bytesPerRow + 2 * i)) hmem
    fun i hi a ha => writeChromaPixel_step f pixels hroom hrow hi ha
  rcases hcols with ⟨mem', hloop, hnew⟩
  rw [heven] at hnew
  refine ⟨mem', ?_, hnew.next_row hroom.chroma_stride⟩
  rw [writeChromaRow, hu, hv]
  exact hloop

/-- The luma loop, over the rows that the length of the plane makes. -/
theorem write_luma (hroom : Room f.w f.h pixels) :
    ∃ luma, forRange ((f.plane .Y).length / max f.w 1)
        (writeLumaRow f.plane f.w pixels.luma.bytesPerRow) pixels.luma.bytes = some luma ∧
      Copied pixels.luma.bytesPerRow f.w (lumaVal f) pixels.luma.bytes
        (f.h * pixels.luma.bytesPerRow) luma := by
  have hlen : (f.plane .Y).length = f.w * f.h := I420Buffer.length_plane .Y
  -- A frame without width has no rows to copy, whatever its height.
  by_cases hzero : f.w = 0
  · refine ⟨pixels.luma.bytes, ?_, ?_⟩
    · rw [hlen, hzero, Nat.zero_mul, Nat.zero_div]
      rfl
    · rw [hzero]
      exact Copied.zero_width _
  · rw [rows_of_len _ f.w f.h hlen (by omega)]
    refine forRange_rule _ _ (fun row => Copied pixels.luma.bytesPerRow f.w (lumaVal f)
      pixels.luma.bytes (row * pixels.luma.bytesPerRow)) ?_ ?_
    · rw [Nat.zero_mul]
      exact Copied.start
    · intro row hrow a ha
      exact writeLumaRow_step f pixels hroom hrow ha

/-- The chroma loop, over the rows that the length of the plane makes. -/
theorem write_chroma (hroom : Room f.w f.h pixels) :
    ∃ chroma, forRange ((f.plane .U).length / max (f.w / 2) 1)
        (writeChromaRow f.plane (f.w / 2) pixels.chroma.bytesPerRow) pixels.chroma.bytes =
          some chroma ∧
      Copied pixels.chroma.bytesPerRow f.w (chromaVal f) pixels.chroma.bytes
        (f.h / 2 * pixels.chroma.bytesPerRow) chroma := by
  have hlen : (f.plane .U).length = f.w / 2 * (f.h / 2) := I420Buffer.length_plane .U
  have heven : f.w % 2 = 0 := f.width_even
  -- Half a width may be zero only if the whole is, which is even.
  by_cases hzero : f.w / 2 = 0
  · refine ⟨pixels.chroma.bytes, ?_, ?_⟩
    · rw [hlen, hzero, Nat.zero_mul, Nat.zero_div]
      rfl
    · rw [show f.w = 0 by omega]
      exact Copied.zero_width _
  · rw [rows_of_len _ (f.w / 2) (f.h / 2) hlen (by omega)]
    refine forRange_rule _ _ (fun row => Copied pixels.chroma.bytesPerRow f.w (chromaVal f)
      pixels.chroma.bytes (row * pixels.chroma.bytesPerRow)) ?_ ?_
    · rw [Nat.zero_mul]
      exact Copied.start
    · intro row hrow a ha
      exact writeChromaRow_step f pixels hroom hrow ha

/-- The chroma stride is never too wide for an `i32`. -/
theorem chroma_stride_eq : asUsize (f.strides .U) = f.w / 2 := by
  have hlt := f.width.toNat_lt
  have hhalf := half_toNat f.width
  exact (asUsize_of_lt _ (by omega)).trans hhalf

/-- The luma loop with the stride it is handed: right for a width below `2^31`, and
    without any turn for a frame of no rows. -/
theorem write_luma_handed (hw : f.w < 2147483648 ∨ f.h = 0) (hroom : Room f.w f.h pixels) :
    ∃ luma, forRange ((f.plane .Y).length / max (asUsize (f.strides .Y)) 1)
        (writeLumaRow f.plane (asUsize (f.strides .Y)) pixels.luma.bytesPerRow)
          pixels.luma.bytes = some luma ∧
      Copied pixels.luma.bytesPerRow f.w (lumaVal f) pixels.luma.bytes
        (f.h * pixels.luma.bytesPerRow) luma := by
  rcases hw with hw | hh
  · rw [show asUsize (f.strides .Y) = f.w from asUsize_of_lt f.width hw]
    exact write_luma f pixels hroom
  · have hlen : (f.plane .Y).length = f.w * f.h := I420Buffer.length_plane .Y
    refine ⟨pixels.luma.bytes, ?_, ?_⟩
    · rw [hlen, hh, Nat.mul_zero, Nat.zero_div]
      rfl
    · rw [hh, Nat.zero_mul]
      exact Copied.start

/-- The pixel buffer is written, byte for byte. -/
theorem writePlanes_spec (hw : f.w < 2147483648 ∨ f.h = 0) (hroom : Room f.w f.h pixels) :
    ∃ luma chroma, writePlanes f.plane f.strides pixels = some
        { luma := { pixels.luma with bytes := luma }
          chroma := { pixels.chroma with bytes := chroma } } ∧
      Copied pixels.luma.bytesPerRow f.w (lumaVal f) pixels.luma.bytes
        (f.h * pixels.luma.bytesPerRow) luma ∧
      Copied pixels.chroma.bytesPerRow f.w (chromaVal f) pixels.chroma.bytes
        (f.h / 2 * pixels.chroma.bytesPerRow) chroma := by
  rcases write_luma_handed f pixels hw hroom with ⟨luma, hluma, hcopied⟩
  rcases write_chroma f pixels hroom with ⟨chroma, hchroma, hcopied'⟩
  refine ⟨luma, chroma, ?_, hcopied, hcopied'⟩
  simp only [writePlanes, chroma_stride_eq, hluma, hchroma, Option.bind_eq_bind,
    Option.bind_some]

/-- From a width of `2^31` on the luma of the pixel buffer stays as it was. -/
theorem writePlanes_wide (hw : 2147483648 ≤ f.w) {out : PixelBuffer}
    (h : writePlanes f.plane f.strides pixels = some out) : out.luma = pixels.luma := by
  have hlen : (f.plane .Y).length = f.w * f.h := I420Buffer.length_plane .Y
  have hstride : asUsize (f.strides .Y) = 18446744073709551616 - 4294967296 + f.w :=
    asUsize_of_le f.width hw
  have hwidth : f.w < 4294967296 := f.width.toNat_lt
  have hheight : f.h < 4294967296 := f.height.toNat_lt
  -- The whole plane is shorter than the row it would take.
  have hshort : f.w * f.h < 18446744073709551616 - 4294967296 + f.w := by
    have hmul : f.w * f.h ≤ f.w * 4294967295 := Nat.mul_le_mul_left _ (by omega)
    omega
  have hnone : (f.plane .Y).length / max (asUsize (f.strides .Y)) 1 = 0 := by
    rw [hlen, hstride]
    exact Nat.div_eq_of_lt (by omega)
  rw [writePlanes] at h
  simp only [hnone, forRange, Option.bind_eq_bind, Option.bind_some] at h
  rcases Option.bind_eq_some_iff.mp h with ⟨chroma, _, hout⟩
  cases hout
  rfl

end Write

/-- Every visible byte of the NV12 frame stands at its place in the pixel buffer, and
    no other byte of it has changed. -/
structure Lossless (y : List UInt8) (yStride : ℕ) (uv : List UInt8) (uvStride w h : ℕ)
    (pixels out : PixelBuffer) : Prop where
  luma_stride : out.luma.bytesPerRow = pixels.luma.bytesPerRow
  luma : ∀ row, row < h → ∀ col, col < w →
    out.luma.bytes[row * pixels.luma.bytesPerRow + col]? = y[row * yStride + col]?
  luma_else : ∀ k,
    ¬ (k / pixels.luma.bytesPerRow < h ∧ k % pixels.luma.bytesPerRow < w) →
      out.luma.bytes[k]? = pixels.luma.bytes[k]?
  chroma_stride : out.chroma.bytesPerRow = pixels.chroma.bytesPerRow
  chroma : ∀ row, row < h / 2 → ∀ col, col < w →
    out.chroma.bytes[row * pixels.chroma.bytesPerRow + col]? = uv[row * uvStride + col]?
  chroma_else : ∀ k,
    ¬ (k / pixels.chroma.bytesPerRow < h / 2 ∧ k % pixels.chroma.bytesPerRow < w) →
      out.chroma.bytes[k]? = pixels.chroma.bytes[k]?

/-- The bytes of a buffer that was written up to the end of `rows` rows. -/
theorem Copied.visible {S w rows : ℕ} {val : ℕ → ℕ → Option UInt8} {old mem : List UInt8}
    (hS : w ≤ S) (h : Copied S w val old (rows * S) mem) {row col : ℕ} (hrow : row < rows)
    (hcol : col < w) : mem[row * S + col]? = val row col := by
  have hlt : col < S := Nat.lt_of_lt_of_le hcol hS
  rw [h.2, raster_mod _ _ _ hlt, raster_div _ _ _ hlt, if_pos ⟨raster_lt hrow hlt, hcol⟩]

theorem Copied.other {S w rows : ℕ} {val : ℕ → ℕ → Option UInt8} {old mem : List UInt8}
    (h : Copied S w val old (rows * S) mem) {k : ℕ} (hk : ¬ (k / S < rows ∧ k % S < w)) :
    mem[k]? = old[k]? := by
  rw [h.2, if_neg]
  rintro ⟨hlt, hcol⟩
  exact hk ⟨(raster_split hlt).1, hcol⟩

/-- For the frame's dimensions, the path from an NV12 frame through the planes into a
    pixel buffer is lossless: for all contents, strides and padding. -/
def PixelPath (frame : I420Buffer) : Prop :=
  ∀ y yStride uv uvStride pixels,
    frame.w ≤ yStride → RowsFit y.length yStride frame.w frame.h →
    frame.w ≤ uvStride → RowsFit uv.length uvStride frame.w (frame.h / 2) →
    Room frame.w frame.h pixels →
    ∃ f out, toI420 y yStride uv uvStride frame = some f ∧
      fillPixelBuffer { pixelBufferPool := some (0, some pixels), lockStatus := 0 }
        f.plane f.strides = some (.ok out) ∧
      Lossless y yStride uv uvStride frame.w frame.h pixels out

/-- With a buffer from the pool and the lock on it, the loops are all there is. -/
theorem fillPixelBuffer_locked (planes : Plane → List UInt8) (strides : Plane → Int32)
    (pixels : PixelBuffer) :
    fillPixelBuffer { pixelBufferPool := some (0, some pixels), lockStatus := 0 } planes
      strides = (writePlanes planes strides pixels).map .ok := rfl

/-- The path is lossless for a frame below a width of `2^31`. -/
theorem pixel_path_lossless (frame : I420Buffer) (hw : frame.w < 2147483648 ∨ frame.h = 0) :
    PixelPath frame := by
  intro y yStride uv uvStride pixels _ hy _ huv hroom
  have heven : frame.w % 2 = 0 := frame.width_even
  rw [show frame.w = frame.w / 2 * 2 by omega] at huv
  rcases toI420_bytes hy huv with ⟨f, hf, hsplit⟩
  have hfw : f.w = frame.w := I420Buffer.w_congr hsplit.1.1
  have hfh : f.h = frame.h := I420Buffer.h_congr hsplit.1.1
  rw [← hfw, ← hfh] at hw hroom
  rcases writePlanes_spec f pixels hw hroom with ⟨luma, chroma, hout, hluma, hchroma⟩
  rw [hfw, hfh] at hluma hchroma hroom
  refine ⟨f,
    { luma := { pixels.luma with bytes := luma }
      chroma := { pixels.chroma with bytes := chroma } }, hf, ?_,
    ⟨rfl, ?_, fun k hk => hluma.other hk, rfl, ?_, fun k hk => hchroma.other hk⟩⟩
  · rw [fillPixelBuffer_locked, hout, Option.map_some]
  · intro row hrow col hcol
    rw [hluma.visible hroom.luma_stride hrow hcol, lumaVal, hfw,
      hsplit.1.2 _ ((raster_lt hrow hcol).trans_eq (Nat.mul_comm _ _)), raster_div _ _ _ hcol,
      raster_mod _ _ _ hcol]
  · intro row hrow col hcol
    have hhalf : col / 2 < frame.w / 2 := by omega
    have hbyte := hsplit.2 _ ((raster_lt hrow hhalf).trans_eq (Nat.mul_comm _ _))
    rw [raster_div _ _ _ hhalf, raster_mod _ _ _ hhalf] at hbyte
    rw [hchroma.visible hroom.chroma_stride hrow hcol, chromaVal, hfw]
    -- An even column is a Cb byte, an odd one a Cr byte.
    by_cases hcb : col % 2 = 0
    · rw [if_pos hcb, hbyte.1]
      congr 2
      omega
    · rw [if_neg hcb, hbyte.2]
      congr 2
      omega

/-- From there on the luma of a frame that has any is lost. -/
theorem pixel_path_lossy (frame : I420Buffer) (hw : 2147483648 ≤ frame.w) (hh : frame.h ≠ 0) :
    ¬ PixelPath frame := by
  intro hpath
  -- White rows, into a black buffer.
  have hrows : ∀ h (b : UInt8),
      RowsFit (List.replicate (frame.w * h) b).length frame.w frame.w h := by
    intro h b
    by_cases hzero : h = 0
    · exact Or.inl hzero
    · right
      rw [List.length_replicate, ← Nat.succ_mul, Nat.succ_eq_add_one,
        Nat.sub_add_cancel (by omega), Nat.mul_comm]
  rcases hpath (List.replicate (frame.w * frame.h) 1) frame.w
    (List.replicate (frame.w * (frame.h / 2)) 1) frame.w
    { luma := { bytes := List.replicate (frame.w * frame.h) 0, bytesPerRow := frame.w }
      chroma := { bytes := List.replicate (frame.w * (frame.h / 2)) 0, bytesPerRow := frame.w } }
    (Nat.le_refl _) (hrows _ _) (Nat.le_refl _) (hrows _ _)
    ⟨Nat.le_refl _, hrows _ _, Nat.le_refl _, hrows _ _⟩ with ⟨f, out, hf, hout, hlossless⟩
  rw [fillPixelBuffer_locked, Option.map_eq_some_iff] at hout
  rcases hout with ⟨out', hwrite, hok⟩
  cases hok
  have hdim := toI420_dimensions hf
  have hfw : f.w = frame.w := I420Buffer.w_congr hdim
  have hsame := writePlanes_wide f _ (by rw [hfw]; exact hw) hwrite
  have hfirst := hlossless.luma 0 (by omega) 0 (by omega)
  have hpos : 0 < frame.w * frame.h := Nat.mul_pos (by omega) (by omega)
  rw [hsame] at hfirst
  simp only [Nat.zero_mul, Nat.add_zero, List.getElem?_replicate, if_pos hpos,
    Option.some.injEq] at hfirst
  exact absurd hfirst (by decide)

/-- The path is lossless for a frame exactly up to the width that an `i32` holds. -/
theorem pixel_path_lossless_iff (frame : I420Buffer) :
    PixelPath frame ↔ frame.width.toNat < 2147483648 ∨ frame.height.toNat = 0 := by
  refine ⟨fun hpath => ?_, fun hw => pixel_path_lossless frame hw⟩
  by_contra hnot
  rw [not_or] at hnot
  exact pixel_path_lossy frame (Nat.not_lt.mp hnot.1) hnot.2 hpath

/-- Two rows of `2^31` pixels lose their luma. -/
theorem widest_frames_lose_luma :
    ∃ frame : I420Buffer, frame.width = 2147483648 ∧ frame.height = 2 ∧ ¬ PixelPath frame := by
  refine ⟨{ width := 2147483648
            height := 2
            data := List.replicate (frameBytes (2147483648 : UInt32).toNat (2 : UInt32).toNat) 0
            width_even := by decide
            height_even := by decide
            data_length := List.length_replicate },
    rfl, rfl, pixel_path_lossy _ ?_ ?_⟩
  · simp only [I420Buffer.w, UInt32.reduceToNat, Std.le_refl]
  · simp only [I420Buffer.h, UInt32.reduceToNat, ne_eq, OfNat.ofNat_ne_zero, not_false_eq_true]

end Nv12

end Capture

end LoomHost
