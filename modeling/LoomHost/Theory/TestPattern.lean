import LoomHost.Core.TestPattern
import LoomHost.Theory.Turns

/-!
# Rendering the Test Pattern

Rendering is a sequence of loops that write into the planes. None of them changes
the dimensions, so the index of every write is in bounds if it was for the frame
the rendering began with: the gradients walk over their planes, the digits are
clipped, and the border is inside any frame that has a pixel. The border is drawn
last, and nothing is written to it but its colour.

The one addition that can overflow is that of the luma ramp. Its sum is largest in
the last column of the last row, so that pixel decides. As the source of a media loop,
the pattern ends a turn by a panic where overflow is checked and the ramp of the
turn's frame number does not fit.

## Main definitions

* `Rendered`: What a frame is after rendering.
* `RampFits`: The luma ramp does not overflow.
* `TestPattern.source`: The pattern as the source of a media loop.

## Theorems

* `set_spec`: What a write does.
* `digit_lt`: A digit has a glyph.
* `luma_isSome_iff`: When the ramp of a pixel overflows.
* `drawCounter_spec`: The digits stay inside the frame.
* `paint_loop`: What has the colour of the border keeps it.
* `drawParityBorder_spec`: The border has its colour.
* `render_spec`: Rendering, if no ramp overflows.
* `luma_of_render`: A rendering has been through every ramp.
* `panics_iff`: When a turn on the pattern panics.
* `render_total_iff`: When rendering does not panic.
* `counter_overflows`: A frame number at which it does.
-/

namespace LoomHost

namespace Media

open Capture Checked

/-- The largest `i as u32` of an index below `n`. -/
def lastU32 (n : ℕ) : ℕ := min n 4294967296 - 1

/-- The luma ramp of frame `n` does not overflow at any pixel. -/
def RampFits (width height : ℕ) (n : UInt32) : Prop :=
  lastU32 width + lastU32 height + 3 * n.toNat % 4294967296 < 4294967296

/-- What frame `n` is after rendering into `t`. -/
structure Rendered (t : TestPattern) (n : UInt32) (r : TestPattern) : Prop where
  size : r.size = t.size
  planes : ∀ p, (r.planes p).length = (t.planes p).length
  border : ∀ x y, x < t.width → y < t.height →
    x = 0 ∨ y = 0 ∨ x + 1 = t.width ∨ y + 1 = t.height →
      (r.planes .Y)[y * t.width + x]? = some (if n.toNat % 2 = 0 then 235 else 16)

section Arithmetic

theorem u32Add_unchecked (a b : UInt32) : u32Add false a b = some (a + b) := by
  unfold u32Add
  split <;> rfl

theorem u32Add_of_lt (overflowChecks : Bool) {a b : UInt32}
    (h : a.toNat + b.toNat < 4294967296) : u32Add overflowChecks a b = some (a + b) := if_pos h

theorem u32Add_of_le {a b : UInt32} (h : 4294967296 ≤ a.toNat + b.toNat) :
    u32Add true a b = none := by
  rw [u32Add, if_neg (not_lt_of_ge h), if_pos rfl]

theorem toNat_add_of_lt {a b : UInt32} (h : a.toNat + b.toNat < 4294967296) :
    (a + b).toNat = a.toNat + b.toNat := by
  rw [UInt32.toNat_add, Nat.mod_eq_of_lt h]

theorem luma_unchecked (shift : UInt32) (xx yy : ℕ) : (luma false shift xx yy).isSome := by
  simp only [luma, u32Add_unchecked, Option.bind_eq_bind, Option.bind_some, Option.isSome_some]

/-- The ramp of a pixel is a sum of three numbers. -/
theorem luma_isSome_iff (shift : UInt32) (xx yy : ℕ) : (luma true shift xx yy).isSome ↔
    xx % 4294967296 + yy % 4294967296 + shift.toNat < 4294967296 := by
  have hx : (UInt32.ofNat xx).toNat = xx % 4294967296 := UInt32.toNat_ofNat'
  have hy : (UInt32.ofNat yy).toNat = yy % 4294967296 := UInt32.toNat_ofNat'
  by_cases hramp : xx % 4294967296 + yy % 4294967296 < 4294967296
  · have hsum : (UInt32.ofNat xx + UInt32.ofNat yy).toNat =
        xx % 4294967296 + yy % 4294967296 := by
      rw [toNat_add_of_lt (by omega), hx, hy]
    rw [luma, u32Add_of_lt true (by omega)]
    by_cases htotal : xx % 4294967296 + yy % 4294967296 + shift.toNat < 4294967296
    · simp only [u32Add_of_lt true (hsum ▸ htotal), Option.bind_eq_bind, Option.bind_some,
        Option.isSome_some, htotal]
    · simp only [u32Add_of_le (hsum ▸ Nat.le_of_not_lt htotal), Option.bind_eq_bind,
        Option.bind_some, Option.bind_none, Option.isSome_none, Bool.false_eq_true, htotal]
  · -- The first sum overflows, so the whole does.
    rw [luma, u32Add_of_le (by omega)]
    simp only [Option.bind_eq_bind, Option.bind_none, Option.isSome_none, Bool.false_eq_true,
      false_iff]
    omega

/-- A quarter of a number leaves room for 128. -/
theorem chroma_isSome (overflowChecks : Bool) (x : UInt32) :
    ((u32Add overflowChecks 128 (x / 4)).map UInt32.toUInt8).isSome := by
  have hx := x.toNat_lt
  have hquarter : (x / 4).toNat = x.toNat / 4 := UInt32.toNat_div x 4
  have hbase : (128 : UInt32).toNat = 128 := rfl
  rw [u32Add_of_lt overflowChecks (by omega)]
  rfl

/-- The ramp is largest in the last column of the last row. -/
theorem ramp_fits_iff {width height : ℕ} (n : UInt32) (hw : 0 < width) (hh : 0 < height) :
    RampFits width height n ↔
      ∀ yy < height, ∀ xx < width, (luma true (n * 3) xx yy).isSome := by
  have hshift : (n * 3).toNat = 3 * n.toNat % 4294967296 := by
    rw [UInt32.toNat_mul, Nat.mul_comm]
    rfl
  simp only [luma_isSome_iff, hshift, RampFits, lastU32]
  constructor
  · intro hlast yy hyy xx hxx
    have := Nat.mod_le xx 4294967296
    have := Nat.mod_le yy 4294967296
    omega
  · intro hall
    have hlast := hall (min height 4294967296 - 1) (by omega) (min width 4294967296 - 1) (by omega)
    rwa [Nat.mod_eq_of_lt (by omega), Nat.mod_eq_of_lt (by omega)] at hlast

end Arithmetic

section Writes

variable (t : TestPattern)

/-- The number of bytes of a plane. -/
def TestPattern.planeLen (t : TestPattern) : Plane → ℕ
  | .Y => t.width * t.height
  | .U => t.width / 2 * (t.height / 2)
  | .V => t.width / 2 * (t.height / 2)

theorem length_planes (p : Plane) : (t.planes p).length = t.planeLen p := by
  cases p with
  | Y => exact t.y_length
  | U => exact t.u_length
  | V => exact t.v_length

theorem planeLen_congr {t r : TestPattern} (h : r.size = t.size) (p : Plane) :
    r.planeLen p = t.planeLen p := by
  have hw : r.width = t.width := congrArg Prod.fst h
  have hh : r.height = t.height := congrArg Prod.snd h
  cases p <;> simp only [TestPattern.planeLen, hw, hh]

/-- A write sets one byte of one plane. -/
theorem set_spec (p : Plane) (k : ℕ) (b : UInt8) (hk : k < t.planeLen p) :
    ∃ r, t.set p k b = some r ∧ r.size = t.size ∧
      ∀ q, r.planes q = if q = p then (t.planes p).set k b else t.planes q := by
  cases p with
  | Y =>
      have hset := set?_eq_some t.y k b (by rw [t.y_length]; exact hk)
      refine ⟨_, congrArg (Option.map _) hset, rfl, fun q => ?_⟩
      cases q <;> rfl
  | U =>
      have hset := set?_eq_some t.u k b (by rw [t.u_length]; exact hk)
      refine ⟨_, congrArg (Option.map _) hset, rfl, fun q => ?_⟩
      cases q <;> rfl
  | V =>
      have hset := set?_eq_some t.v k b (by rw [t.v_length]; exact hk)
      refine ⟨_, congrArg (Option.map _) hset, rfl, fun q => ?_⟩
      cases q <;> rfl

/-- A write into a frame of the same size as another, in bounds of that. -/
theorem set_in_bounds {r : TestPattern} (hr : r.size = t.size) (p : Plane) (k : ℕ) (b : UInt8)
    (hk : k < t.planeLen p) : ∃ r', r.set p k b = some r' ∧ r'.size = t.size := by
  rcases set_spec r p k b (planeLen_congr hr p ▸ hk) with ⟨r', hset, hsize, -⟩
  exact ⟨r', hset, hsize.trans hr⟩

end Writes

section Counter

theorem digit_lt (n : UInt32) (d : ℕ) (hd : d ∈ digits n) : d < FONT.length := by
  rcases List.mem_map.mp hd with ⟨c, hc, rfl⟩
  have hdigit := Char.isDigit_iff_toNat.mp (Nat.isDigit_of_mem_toDigits (by decide) (by decide) hc)
  have hlow : '0'.toNat = 48 := rfl
  have hhigh : '9'.toNat = 57 := rfl
  have hfont : FONT.length = 10 := rfl
  omega

/-- A block is clipped to the frame. -/
theorem drawBlock_spec (t : TestPattern) (val : UInt8) (x0 y0 : ℕ) :
    ∃ r, t.drawBlock val x0 y0 = some r ∧ r.size = t.size := by
  refine forRange_rule _ _ (fun _ (a : TestPattern) => a.size = t.size) rfl fun dy _ a ha => ?_
  refine forRange_rule _ _ (fun _ (b : TestPattern) => b.size = t.size) ha fun dx _ b hb => ?_
  dsimp only
  split
  · next hin =>
      have hw : b.width = t.width := congrArg Prod.fst hb
      have hh : b.height = t.height := congrArg Prod.snd hb
      refine set_in_bounds t hb .Y _ val ?_
      rw [hw, hh] at hin
      rw [hw, TestPattern.planeLen, Nat.mul_comm t.width]
      exact raster_lt hin.2 hin.1
  · exact ⟨b, rfl, hb⟩

theorem drawGlyph_spec (t : TestPattern) (digit ox oy : ℕ) (hdigit : digit < FONT.length) :
    ∃ r, t.drawGlyph digit ox oy = some r ∧ r.size = t.size := by
  unfold TestPattern.drawGlyph
  rw [List.getElem?_eq_getElem hdigit]
  refine forEach_rule _ _ (fun _ (a : TestPattern) => a.size = t.size) rfl fun ry bits _ a ha => ?_
  refine forRange_rule _ _ (fun _ (b : TestPattern) => b.size = t.size) ha fun rx _ b hb => ?_
  rcases drawBlock_spec b _ (ox + rx * GLYPH_SCALE) (oy + ry * GLYPH_SCALE) with ⟨r, hr, hsize⟩
  exact ⟨r, hr, hsize.trans hb⟩

/-- The digits stay inside the frame, however many there are. -/
theorem drawCounter_spec (t : TestPattern) (n : UInt32) :
    ∃ r, t.drawCounter n = some r ∧ r.size = t.size := by
  refine forEach_rule (digits n) _ (fun _ (a : TestPattern) => a.size = t.size) rfl
    fun i d hd a ha => ?_
  rcases drawGlyph_spec a d _ MARGIN (digit_lt n d (List.mem_of_getElem? hd)) with ⟨r, hr, hsize⟩
  exact ⟨r, hr, hsize.trans ha⟩

end Counter

section Gradients

variable (t : TestPattern) (overflowChecks : Bool) (shift : UInt32)

/-- The luma gradient, if no ramp overflows. -/
theorem luma_rows_spec
    (hluma : ∀ yy < t.height, ∀ xx < t.width, (luma overflowChecks shift xx yy).isSome) :
    ∃ r, forRange t.height (TestPattern.lumaRow overflowChecks shift t.width) t = some r ∧
      r.size = t.size := by
  refine forRange_rule _ _ (fun _ (a : TestPattern) => a.size = t.size) rfl fun yy hyy a ha => ?_
  refine forRange_rule _ _ (fun _ (b : TestPattern) => b.size = t.size) ha fun xx hxx b hb => ?_
  rcases Option.isSome_iff_exists.mp (hluma yy hyy xx hxx) with ⟨value, hvalue⟩
  rw [hvalue]
  refine set_in_bounds t hb .Y _ value ?_
  rw [TestPattern.planeLen, Nat.mul_comm t.width]
  exact raster_lt hyy hxx

theorem chroma_rows_spec :
    ∃ r, forRange (t.height / 2)
        (TestPattern.chromaRow overflowChecks shift (t.width / 2)) t = some r ∧
      r.size = t.size := by
  refine forRange_rule _ _ (fun _ (a : TestPattern) => a.size = t.size) rfl fun cy hcy a ha => ?_
  refine forRange_rule _ _ (fun _ (b : TestPattern) => b.size = t.size) ha fun cx hcx b hb => ?_
  have hk : cy * (t.width / 2) + cx < t.width / 2 * (t.height / 2) := by
    rw [Nat.mul_comm (t.width / 2)]
    exact raster_lt hcy hcx
  rcases Option.isSome_iff_exists.mp (chroma_isSome overflowChecks (UInt32.ofNat cx + shift))
    with ⟨bu, hbu⟩
  rcases Option.isSome_iff_exists.mp (chroma_isSome overflowChecks (UInt32.ofNat cy - shift))
    with ⟨bv, hbv⟩
  rcases set_in_bounds t hb .U _ bu hk with ⟨r, hr, hsize⟩
  rw [chromaU, hbu, Option.bind_eq_bind, Option.bind_some, hr, Option.bind_eq_bind,
    Option.bind_some, chromaV, hbv]
  exact set_in_bounds t hsize .V _ bv hk

end Gradients

section Border

variable (t : TestPattern) (n : UInt32)

/-- The luma at an index. -/
def TestPattern.lumaAt (t : TestPattern) (k : ℕ) : Option UInt8 := (t.planes .Y)[k]?

/-- A write of the border's colour: its position has the colour, and what had it
    before still does. -/
theorem paint_spec {a : TestPattern} (ha : a.size = t.size) (k : ℕ) (c : UInt8)
    (hk : k < t.planeLen .Y) :
    ∃ b, a.set .Y k c = some b ∧ b.size = t.size ∧ b.lumaAt k = some c ∧
      ∀ j, a.lumaAt j = some c → b.lumaAt j = some c := by
  rcases set_spec a .Y k c (planeLen_congr ha .Y ▸ hk) with ⟨b, hset, hsize, hplanes⟩
  have hluma : ∀ j, b.lumaAt j = ((a.planes .Y).set k c)[j]? := by
    intro j
    rw [TestPattern.lumaAt, hplanes .Y, if_pos rfl]
  have hlen : k < (a.planes .Y).length := by
    rw [length_planes, planeLen_congr ha]
    exact hk
  refine ⟨b, hset, hsize.trans ha, ?_, fun j hj => ?_⟩
  · rw [hluma, List.getElem?_set_self hlen]
  · rw [hluma]
    by_cases hjk : k = j
    · rw [← hjk, List.getElem?_set_self hlen]
    · rw [List.getElem?_set_ne hjk]
      exact hj

/-- Two writes of the colour, one after the other. -/
theorem paint_two {a : TestPattern} (ha : a.size = t.size) (j k : ℕ) (c : UInt8)
    (hj : j < t.planeLen .Y) (hk : k < t.planeLen .Y) :
    ∃ b, (a.set .Y j c).bind (fun a => a.set .Y k c) = some b ∧ b.size = t.size ∧
      b.lumaAt j = some c ∧ b.lumaAt k = some c ∧
      ∀ i, a.lumaAt i = some c → b.lumaAt i = some c := by
  rcases paint_spec t ha j c hj with ⟨a', hset, hsize, hat, hkeeps⟩
  rcases paint_spec t hsize k c hk with ⟨b, hset', hsize', hat', hkeeps'⟩
  refine ⟨b, ?_, hsize', hkeeps' j hat, hat', fun i hi => hkeeps' i (hkeeps i hi)⟩
  rw [hset, Option.bind_some, hset']

/-- A loop that writes the colour to two positions in each turn. -/
theorem paint_loop {a : TestPattern} (ha : a.size = t.size) (m : ℕ) (f g : ℕ → ℕ) (c : UInt8)
    (hf : ∀ i < m, f i < t.planeLen .Y) (hg : ∀ i < m, g i < t.planeLen .Y) :
    ∃ r, forRange m (fun i b => (b.set .Y (f i) c).bind fun b => b.set .Y (g i) c) a = some r ∧
      r.size = t.size ∧ (∀ j, a.lumaAt j = some c → r.lumaAt j = some c) ∧
      ∀ i < m, r.lumaAt (f i) = some c ∧ r.lumaAt (g i) = some c := by
  refine forRange_rule m _ (fun k (b : TestPattern) => b.size = t.size ∧
    (∀ j, a.lumaAt j = some c → b.lumaAt j = some c) ∧
    ∀ i < k, b.lumaAt (f i) = some c ∧ b.lumaAt (g i) = some c) ⟨ha, fun _ h => h, ?_⟩ ?_
  · intro i hi
    omega
  · intro k hk b hb
    rcases hb with ⟨hsize, hold, hdone⟩
    rcases paint_two t hsize (f k) (g k) c (hf k hk) (hg k hk) with
      ⟨b', hset, hsize', hat, hat', hkeeps⟩
    refine ⟨b', hset, hsize', fun j hj => hkeeps j (hold j hj), fun i hi => ?_⟩
    -- The two positions of this round, and those of the rounds before.
    by_cases hlast : i = k
    · rw [hlast]
      exact ⟨hat, hat'⟩
    · have hbefore := hdone i (by omega)
      exact ⟨hkeeps _ hbefore.1, hkeeps _ hbefore.2⟩

/-- The rows and then the columns of the border get its colour. -/
theorem drawParityBorder_spec (hw : 0 < t.width) (hh : 0 < t.height) :
    ∃ r, t.drawParityBorder n = some r ∧ r.size = t.size ∧
      ∀ x y, x < t.width → y < t.height →
        x = 0 ∨ y = 0 ∨ x + 1 = t.width ∨ y + 1 = t.height →
          r.lumaAt (y * t.width + x) = some (TestPattern.parity n) := by
  have hbounds : ∀ x < t.width, ∀ y < t.height, y * t.width + x < t.planeLen .Y := by
    intro x hx y hy
    rw [TestPattern.planeLen, Nat.mul_comm t.width]
    exact raster_lt hy hx
  rcases paint_loop t (a := t) rfl t.width (fun x => x) (fun x => (t.height - 1) * t.width + x)
      (TestPattern.parity n)
      (fun x hx => by have := hbounds x hx 0 hh; omega)
      (fun x hx => hbounds x hx (t.height - 1) (by omega)) with ⟨a, ha, hsize, -, hrows⟩
  rcases paint_loop t hsize t.height (fun y => y * t.width)
      (fun y => y * t.width + (t.width - 1)) (TestPattern.parity n)
      (fun y hy => hbounds 0 hw y hy)
      (fun y hy => hbounds (t.width - 1) (by omega) y hy) with ⟨r, hr, hsize', hkeeps, hcols⟩
  refine ⟨r, ?_, hsize', fun x y hx hy hborder => ?_⟩
  · have hrowLoop : forRange t.width
        (TestPattern.borderRow t.width t.height (TestPattern.parity n)) t = some a := ha
    rw [TestPattern.drawParityBorder, hrowLoop]
    exact hr
  · -- The corners are in a row and in a column.
    rcases hborder with rfl | rfl | hright | hbottom
    · exact (hcols y hy).1
    · rw [Nat.zero_mul, Nat.zero_add]
      exact hkeeps x (hrows x hx).1
    · have hlast : x = t.width - 1 := by omega
      rw [hlast]
      exact (hcols y hy).2
    · have hlast : y = t.height - 1 := by omega
      rw [hlast]
      exact hkeeps _ (hrows x hx).2

end Border

section Render

variable (t : TestPattern) (n : UInt32)

theorem parity_eq : TestPattern.parity n = if n.toNat % 2 = 0 then 235 else 16 := by
  have hmod : n % 2 = 0 ↔ n.toNat % 2 = 0 := by
    rw [← UInt32.toNat_inj, UInt32.toNat_mod]
    rfl
  simp only [TestPattern.parity, hmod]

/-- Rendering, if no ramp overflows. -/
theorem render_spec (overflowChecks : Bool) (hw : 0 < t.width) (hh : 0 < t.height)
    (hluma : ∀ yy < t.height, ∀ xx < t.width, (luma overflowChecks (n * 3) xx yy).isSome) :
    ∃ r, t.render overflowChecks n = some r ∧ Rendered t n r := by
  -- The four stages, of which none changes the size.
  rcases luma_rows_spec t overflowChecks (n * 3) hluma with ⟨a, ha, hasize⟩
  rcases chroma_rows_spec a overflowChecks (n * 3) with ⟨b, hb, hbsize⟩
  rcases drawCounter_spec b n with ⟨c, hc, hcsize⟩
  have hsize : c.size = t.size := hcsize.trans (hbsize.trans hasize)
  have hcw : c.width = t.width := congrArg Prod.fst hsize
  have hch : c.height = t.height := congrArg Prod.snd hsize
  rcases drawParityBorder_spec c n (hcw ▸ hw) (hch ▸ hh) with ⟨r, hr, hrsize, hborder⟩
  have haw : a.width = t.width := congrArg Prod.fst hasize
  have hah : a.height = t.height := congrArg Prod.snd hasize
  rw [haw, hah] at hb
  refine ⟨r, ?_, hrsize.trans hsize, fun p => ?_, fun x y hx hy hat => ?_⟩
  · rw [TestPattern.render, ha]
    simp only [Option.bind_eq_bind, Option.bind_some, hb, hc, hr]
  · rw [length_planes, length_planes, planeLen_congr (hrsize.trans hsize)]
  · have hcolour := hborder x y (hcw ▸ hx) (hch ▸ hy) (by rw [hcw, hch]; exact hat)
    rwa [hcw, parity_eq] at hcolour

/-- The ramps of a rendering that succeeds have not overflowed. -/
theorem luma_of_render (overflowChecks : Bool) {r : TestPattern}
    (h : t.render overflowChecks n = some r) :
    ∀ yy < t.height, ∀ xx < t.width, (luma overflowChecks (n * 3) xx yy).isSome := by
  intro yy hyy xx hxx
  rcases Option.bind_eq_some_iff.mp h with ⟨a, ha, -⟩
  rcases forRange_reached t.height ha yy hyy with ⟨b, b', -, hrow⟩
  rcases forRange_reached t.width hrow xx hxx with ⟨c, c', -, hpixel⟩
  rcases Option.bind_eq_some_iff.mp hpixel with ⟨value, hvalue, -⟩
  exact Option.isSome_of_eq_some hvalue

/-- Where overflow is checked, exactly the frames whose ramp fits are rendered. -/
theorem render_isSome_iff (hw : 0 < t.width) (hh : 0 < t.height) :
    (t.render true n).isSome = true ↔ RampFits t.width t.height n := by
  refine ⟨fun h => ?_, fun hfits => ?_⟩
  · rcases Option.isSome_iff_exists.mp h with ⟨r, hr⟩
    exact (ramp_fits_iff n hw hh).mpr (luma_of_render t n true hr)
  · rcases render_spec t n true hw hh ((ramp_fits_iff n hw hh).mp hfits) with ⟨r, hr, -⟩
    exact Option.isSome_of_eq_some hr

/-- The test pattern as the source of a media loop. -/
def TestPattern.source (overflowChecks : Bool) : Source TestPattern :=
  .Synthetic (t.render overflowChecks)

/-- A turn on the test pattern panics where overflow is checked and the ramp of
    its frame number does not fit. -/
theorem panics_iff {E : Type*} (m : Thread E TestPattern) (k : Tick TestPattern)
    (overflowChecks : Bool) (hsource : m.source = t.source overflowChecks) (hw : 0 < t.width)
    (hh : 0 < t.height) :
    Panics m k ↔ overflowChecks = true ∧ ¬ RampFits t.width t.height m.frameSeq := by
  have hpicture : Panics m k ↔ t.render overflowChecks m.frameSeq = none := by
    rw [Panics, hsource, TestPattern.source, Source.picture, Option.map_eq_none_iff]
  rw [hpicture]
  cases overflowChecks with
  | true =>
      rw [← render_isSome_iff t m.frameSeq hw hh, Option.not_isSome_iff_eq_none]
      exact (and_iff_right rfl).symm
  | false =>
      -- A build that does not check overflow renders every frame.
      rcases render_spec t m.frameSeq false hw hh
        (fun yy _ xx _ => luma_unchecked (m.frameSeq * 3) xx yy) with ⟨r, hr, -⟩
      rw [hr]
      exact ⟨fun h => absurd h (Option.some_ne_none r), fun h => absurd h.1 Bool.false_ne_true⟩

/-- Rendering with checked overflow is total, and leaves the border in its colour
    and the planes as long as they were, exactly if the luma ramp fits 32 bits. A
    build that does not check overflow renders every frame. -/
theorem render_total_iff (hw : 0 < t.width) (hh : 0 < t.height) :
    ((∃ r, t.render true n = some r ∧ Rendered t n r) ↔ RampFits t.width t.height n) ∧
      ∃ r, t.render false n = some r ∧ Rendered t n r := by
  refine ⟨⟨?_, fun hfits => ?_⟩, ?_⟩
  · rintro ⟨r, hr, -⟩
    exact (ramp_fits_iff n hw hh).mpr (luma_of_render t n true hr)
  · exact render_spec t n true hw hh ((ramp_fits_iff n hw hh).mp hfits)
  · exact render_spec t n false hw hh fun yy _ xx _ => luma_unchecked (n * 3) xx yy

theorem render_total_iff_small :
    ((∃ r, (TestPattern.new 64 48).render true 1 = some r ∧
        Rendered (TestPattern.new 64 48) 1 r) ↔ RampFits 64 48 1) ∧
      ∃ r, (TestPattern.new 64 48).render false 1 = some r ∧
        Rendered (TestPattern.new 64 48) 1 r :=
  render_total_iff (TestPattern.new 64 48) 1 (by decide) (by decide)

/-- The smallest frame, at the number whose shift is the largest: the ramp of the
    second pixel overflows. -/
theorem counter_overflows :
    (1431655765 : UInt32) * 3 = 4294967295 ∧ luma true 4294967295 1 0 = none ∧
      ∀ r, (TestPattern.new 2 2).render true 1431655765 ≠ some r := by
  refine ⟨by decide, by decide, fun r hr => ?_⟩
  have hpixel := luma_of_render (TestPattern.new 2 2) 1431655765 true hr 0 (by decide) 1 (by decide)
  exact absurd hpixel (by decide)

end Render

end Media

end LoomHost
