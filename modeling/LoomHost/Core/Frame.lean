import Mathlib.Data.UInt
import LoomHost.Lib.Pieces
import LoomHost.Lib.WordCast

/-!
# The I420 Frame Buffer

The frame buffer of `loom-capture/src/frame.rs`: one contiguous list of bytes,
Y then U then V, and the even dimensions that divide it. A plane is written
through its own indices, and `none` is the panic of an index past its end.

The products of the source are of `u32` dimensions in `usize`. Where they leave
it, no buffer of that size exists, and the allocation in `new` is where a frame
that large panics.

## Main definitions

* `I420Buffer`: A frame whose bytes match its dimensions.
* `I420Buffer.zeroed`, `I420Buffer.new`: A fresh frame, and its allocation.
* `I420Buffer.plane`, `I420Buffer.strides`: What the encoder is handed.
* `I420Buffer.set`, `I420Buffer.copyRow`: Writing into a plane.
* `I420Buffer.copyInto`: Copying a whole frame.
* `I420Buffer.byteAt`: A byte of a plane.

## Theorems

* `I420Buffer.plane_getElem?`: The bytes of a plane.
* `I420Buffer.set_spec`, `I420Buffer.copyRow_spec`: What a write does, and all it does.
* `I420Buffer.ext_byteAt`: A frame is its dimensions and the bytes of its planes.
-/

namespace LoomHost

namespace Capture

/-- The three planes of a frame, in the order they are stored. -/
inductive Plane where
  | Y
  | U
  | V
  deriving Repr, DecidableEq

/-- `x & !1`. -/
def even (x : UInt32) : UInt32 := x &&& ~~~1

theorem toNat_even (x : UInt32) : (even x).toNat = x.toNat / 2 * 2 := by
  have hmask : (~~~1 : UInt32).toNat = 2 ^ 32 - 2 := rfl
  have hx := x.toNat_lt
  -- The mask has every bit but the lowest: halved, it is all ones.
  have hhalf : (x.toNat &&& (2 ^ 32 - 2)) / 2 = x.toNat / 2 := by
    rw [Nat.and_div_two, show (2 ^ 32 - 2) / 2 = 2 ^ 31 - 1 from rfl,
      Nat.and_two_pow_sub_one_eq_mod, Nat.mod_eq_of_lt (by omega)]
  have heven := WordCast.and_even x.toNat (2 ^ 32 - 2) rfl
  rw [even, UInt32.toNat_and, hmask]
  omega

/-- `x as usize`: negative values wrap. -/
def asUsize (x : Int32) : ℕ := (x.toInt % 18446744073709551616).toNat

/-- The largest size of an allocation, `isize::MAX`. -/
def ISIZE_MAX : ℕ := 9223372036854775807

/-- The bytes of a frame. -/
def frameBytes (width height : ℕ) : ℕ := width * height + 2 * (width / 2 * (height / 2))

/-- A tightly-packed I420 frame: even dimensions and as many bytes as they take. -/
structure I420Buffer where
  width : UInt32
  height : UInt32
  data : List UInt8
  width_even : width.toNat % 2 = 0
  height_even : height.toNat % 2 = 0
  data_length : data.length = frameBytes width.toNat height.toNat

namespace I420Buffer

/-- A zeroed frame, both dimensions rounded down to even. -/
def zeroed (width height : UInt32) : I420Buffer :=
  { width := even width
    height := even height
    data := List.replicate (frameBytes (even width).toNat (even height).toNat) 0
    width_even := by rw [toNat_even]; omega
    height_even := by rw [toNat_even]; omega
    data_length := List.length_replicate }

/-- Allocate a frame; `none` is the panic of an allocation that is too large. -/
def new (width height : UInt32) : Option I420Buffer :=
  if frameBytes (even width).toNat (even height).toNat ≤ ISIZE_MAX then
    some (zeroed width height)
  else none

theorem new_isSome_iff {width height : UInt32} :
    (new width height).isSome ↔ frameBytes (even width).toNat (even height).toNat ≤ ISIZE_MAX := by
  unfold new
  split
  · next hle => exact ⟨fun _ => hle, fun _ => rfl⟩
  · next hle =>
      refine ⟨fun h => ?_, fun h => absurd h hle⟩
      cases h

variable (f : I420Buffer)

/-- Frame dimensions in pixels. -/
def dimensions : UInt32 × UInt32 := (f.width, f.height)

theorem new_dimensions {width height : UInt32} {f : I420Buffer} (h : new width height = some f) :
    f.dimensions = (even width, even height) := by
  unfold new at h
  split at h
  · cases h
    rfl
  · cases h

/-- The dimensions as indices. -/
abbrev w : ℕ := f.width.toNat
abbrev h : ℕ := f.height.toNat

def yLen : ℕ := f.w * f.h
def uvLen : ℕ := f.w / 2 * (f.h / 2)

/-- The Y, U and V plane slices. -/
def plane : Plane → List UInt8
  | .Y => f.data.take f.yLen
  | .U => (f.data.drop f.yLen).take f.uvLen
  | .V => (f.data.drop f.yLen).drop f.uvLen

/-- Luma and chroma strides, `width as i32`. -/
def strides : Plane → Int32
  | .Y => f.width.toInt32
  | .U => (f.width / 2).toInt32
  | .V => (f.width / 2).toInt32

/-- Where a plane begins, and how long it is. -/
def planeStart : Plane → ℕ
  | .Y => 0
  | .U => f.yLen
  | .V => f.yLen + f.uvLen

def planeLen : Plane → ℕ
  | .Y => f.yLen
  | .U => f.uvLen
  | .V => f.uvLen

/-- The planes fill the data. -/
theorem data_length_eq : f.data.length = f.yLen + 2 * f.uvLen := f.data_length

theorem plane_end_le (p : Plane) : f.planeStart p + f.planeLen p ≤ f.data.length := by
  have hlen := f.data_length_eq
  cases p <;> simp only [planeStart, planeLen] <;> omega

/-- `plane[k] = b`. -/
def set (p : Plane) (k : ℕ) (b : UInt8) : Option I420Buffer :=
  if k < f.planeLen p then
    some
      { f with
        data := f.data.set (f.planeStart p + k) b
        data_length := by rw [List.length_set, f.data_length] }
  else none

/-- `plane[k..][..bs.len()].copy_from_slice(bs)`. -/
def copyRow (p : Plane) (k : ℕ) (bs : List UInt8) : Option I420Buffer :=
  if hfit : k + bs.length ≤ f.planeLen p then
    some
      { f with
        data := Pieces.write 0 f.data (f.planeStart p + k) bs
        data_length := by
          have hend := f.plane_end_le p
          rw [← f.data_length, Pieces.length_write]
          omega }
  else none

/-- Copy this frame's pixels into `dst`; `none` where the lengths differ. -/
def copyInto (dst : I420Buffer) : Option I420Buffer :=
  if hlen : f.data.length = dst.data.length then
    some { dst with data := f.data, data_length := by rw [hlen, dst.data_length] }
  else none

/-- The byte at index `k` of a plane. -/
def byteAt (p : Plane) (k : ℕ) : Option UInt8 :=
  if k < f.planeLen p then f.data[f.planeStart p + k]? else none

section Bytes

variable {f}

theorem byteAt_of_lt {p : Plane} {k : ℕ} (h : k < f.planeLen p) :
    f.byteAt p k = f.data[f.planeStart p + k]? := if_pos h

theorem byteAt_of_le {p : Plane} {k : ℕ} (h : f.planeLen p ≤ k) : f.byteAt p k = none :=
  if_neg (Nat.not_lt.mpr h)

/-- The bytes of a plane. -/
theorem plane_getElem? (p : Plane) (k : ℕ) : (f.plane p)[k]? = f.byteAt p k := by
  have hlen := f.data_length_eq
  by_cases hk : k < f.planeLen p
  · rw [byteAt_of_lt hk]
    cases p with
    | Y =>
        have hy : k < f.yLen := hk
        rw [plane, planeStart, List.getElem?_take_of_lt hy, Nat.zero_add]
    | U =>
        have hu : k < f.uvLen := hk
        rw [plane, planeStart, List.getElem?_take_of_lt hu, List.getElem?_drop]
    | V => rw [plane, planeStart, List.getElem?_drop, List.getElem?_drop, Nat.add_assoc]
  · rw [byteAt_of_le (Nat.not_lt.mp hk)]
    refine List.getElem?_eq_none ?_
    cases p <;> simp only [plane, planeLen, List.length_take, List.length_drop] at hk ⊢ <;> omega

theorem length_plane (p : Plane) : (f.plane p).length = f.planeLen p := by
  have hlen := f.data_length_eq
  cases p <;> simp only [plane, planeLen, List.length_take, List.length_drop] <;> omega

/-- Two frames of the same dimensions have the same layout. -/
theorem w_congr {g : I420Buffer} (hdim : g.dimensions = f.dimensions) : g.w = f.w :=
  congrArg UInt32.toNat (congrArg Prod.fst hdim)

theorem h_congr {g : I420Buffer} (hdim : g.dimensions = f.dimensions) : g.h = f.h :=
  congrArg UInt32.toNat (congrArg Prod.snd hdim)

theorem planeStart_congr {g : I420Buffer} (hdim : g.dimensions = f.dimensions) (p : Plane) :
    g.planeStart p = f.planeStart p := by
  cases p <;> simp only [planeStart, yLen, uvLen, w_congr hdim, h_congr hdim]

theorem planeLen_congr {g : I420Buffer} (hdim : g.dimensions = f.dimensions) (p : Plane) :
    g.planeLen p = f.planeLen p := by
  cases p <;> simp only [planeLen, yLen, uvLen, w_congr hdim, h_congr hdim]

/-- The planes do not overlap. -/
theorem start_add_inj {p q : Plane} {k j : ℕ} (hk : k < f.planeLen p) (hj : j < f.planeLen q)
    (heq : f.planeStart q + j = f.planeStart p + k) : q = p ∧ j = k := by
  cases p <;> cases q <;> simp only [planeStart, planeLen] at hk hj heq <;>
    first | exact ⟨rfl, by omega⟩ | omega

end Bytes

/-- A write sets one byte. -/
theorem set_spec (p : Plane) (k : ℕ) (b : UInt8) (hk : k < f.planeLen p) :
    ∃ g, f.set p k b = some g ∧ g.dimensions = f.dimensions ∧
      ∀ q j, g.byteAt q j = if q = p ∧ j = k then some b else f.byteAt q j := by
  refine ⟨_, if_pos hk, rfl, fun q j => ?_⟩
  have hend := f.plane_end_le p
  by_cases hj : j < f.planeLen q
  · rw [byteAt_of_lt (f := f) hj, byteAt_of_lt (by exact hj)]
    by_cases hat : f.planeStart q + j = f.planeStart p + k
    · rcases start_add_inj hk hj hat with ⟨rfl, rfl⟩
      rw [if_pos ⟨rfl, rfl⟩]
      exact List.getElem?_set_self (by omega)
    · have hne : ¬ (q = p ∧ j = k) := by
        rintro ⟨rfl, rfl⟩
        exact hat rfl
      rw [if_neg hne]
      exact List.getElem?_set_ne (Ne.symm hat)
  · have hne : ¬ (q = p ∧ j = k) := by
      rintro ⟨rfl, rfl⟩
      exact hj hk
    rw [if_neg hne, byteAt_of_le (f := f) (Nat.not_lt.mp hj),
      byteAt_of_le (by exact Nat.not_lt.mp hj)]

theorem set_dimensions {g : I420Buffer} {p : Plane} {k : ℕ} {b : UInt8}
    (hset : f.set p k b = some g) : g.dimensions = f.dimensions := by
  unfold set at hset
  split at hset
  · cases hset
    rfl
  · cases hset

/-- A row that is copied sets its range. -/
theorem copyRow_spec (p : Plane) (k : ℕ) (bs : List UInt8) (hk : k + bs.length ≤ f.planeLen p) :
    ∃ g, f.copyRow p k bs = some g ∧ g.dimensions = f.dimensions ∧
      ∀ q j, g.byteAt q j =
        if q = p ∧ k ≤ j ∧ j < k + bs.length then bs[j - k]? else f.byteAt q j := by
  refine ⟨_, dif_pos hk, rfl, fun q j => ?_⟩
  have hend := f.plane_end_le p
  by_cases hj : j < f.planeLen q
  · have hendq := f.plane_end_le q
    rw [byteAt_of_lt (f := f) hj, byteAt_of_lt (by exact hj)]
    by_cases hin : f.planeStart p + k ≤ f.planeStart q + j ∧
        f.planeStart q + j < f.planeStart p + k + bs.length
    · -- A position of the row is one of this plane.
      have hsame := start_add_inj (k := f.planeStart q + j - f.planeStart p) (p := p)
        (by omega) hj (by omega)
      rcases hsame with ⟨rfl, hjk⟩
      rw [if_pos ⟨rfl, by omega, by omega⟩]
      refine (Pieces.getElem?_write_of_mem 0 f.data _ bs _ hin.1 hin.2).trans ?_
      congr 1
      omega
    · have hne : ¬ (q = p ∧ k ≤ j ∧ j < k + bs.length) := by
        rintro ⟨rfl, hlo, hhi⟩
        omega
      rw [if_neg hne]
      exact Pieces.getElem?_write_of_not_mem 0 f.data (f.planeStart p + k) bs
        (f.planeStart q + j) (by omega) (by omega)
  · have hne : ¬ (q = p ∧ k ≤ j ∧ j < k + bs.length) := by
      rintro ⟨rfl, hlo, hhi⟩
      omega
    rw [if_neg hne, byteAt_of_le (f := f) (Nat.not_lt.mp hj),
      byteAt_of_le (by exact Nat.not_lt.mp hj)]

theorem copyRow_dimensions {g : I420Buffer} {p : Plane} {k : ℕ} {bs : List UInt8}
    (hcopy : f.copyRow p k bs = some g) : g.dimensions = f.dimensions := by
  unfold copyRow at hcopy
  split at hcopy
  · cases hcopy
    rfl
  · cases hcopy

/-- A frame is its dimensions and the bytes of its planes. -/
theorem ext_byteAt {f g : I420Buffer} (hdim : g.dimensions = f.dimensions)
    (hbytes : ∀ p k, k < f.planeLen p → g.byteAt p k = f.byteAt p k) : g = f := by
  have hw : g.width = f.width := congrArg Prod.fst hdim
  have hh : g.height = f.height := congrArg Prod.snd hdim
  have hlen : g.data.length = f.data.length := by rw [g.data_length, f.data_length, hw, hh]
  -- Every position of the data is one of a plane.
  have hplane : ∀ p k, k < f.planeLen p →
      g.data[f.planeStart p + k]? = f.data[f.planeStart p + k]? := by
    intro p k hk
    have hbyte := hbytes p k hk
    rwa [byteAt_of_lt hk, byteAt_of_lt (by rwa [planeLen_congr hdim]),
      planeStart_congr hdim] at hbyte
  have hdata : g.data = f.data := by
    refine List.ext_getElem? fun i => ?_
    have htotal := f.data_length_eq
    by_cases hy : i < f.yLen
    · simpa only [planeStart, Nat.zero_add] using hplane .Y i hy
    · by_cases hu : i < f.yLen + f.uvLen
      · have hU := hplane .U (i - f.yLen) (by simp only [planeLen]; omega)
        rwa [planeStart, Nat.add_sub_of_le (by omega)] at hU
      · by_cases hv : i < f.data.length
        · have hV := hplane .V (i - (f.yLen + f.uvLen)) (by simp only [planeLen]; omega)
          rwa [planeStart, Nat.add_sub_of_le (by omega)] at hV
        · rw [List.getElem?_eq_none (by omega), List.getElem?_eq_none (by omega)]
  cases f
  cases g
  simp only at hw hh hdata
  subst hw hh hdata
  rfl

end I420Buffer

end Capture

end LoomHost
