import Mathlib.Data.List.Sort
import LoomHost.Lib.Rfc8949

/-!
# Canonical CBOR

The value model of `loom-proto/src/cbor.rs`, its canonical encoder, and the
lowering of decoded items. The decoder itself is a third-party one, so it is a
parameter wherever it is used; its items are those of `Lib.Rfc8949`.

Writing into the output buffer is returning the bytes to append. The casts of
the source are the casts here: `as u64` keeps the low 64 bits of an `i128`.

## Main definitions

* `Value`: The shapes the control protocol uses.
* `encodeHead`, `encodeInt`, `encodeMap`, `encodeFloat`: The encoder's
  parts.
* `toCanonical`: The canonical encoding.
* `fromCiborium`: The value of a decoded item.

## Theorems

* `Value.induct`: Induction over nested values.
* `encodeElems_eq`, `encodeItems_eq`: The encoder's loops as list functions.
-/

namespace LoomHost

namespace Cbor

/-- A CBOR value restricted to the shapes the control protocol uses. -/
inductive Value where
  /-- Major types 0 (unsigned) and 1 (negative) unified. -/
  | Int (i : ℤ)
  /-- Major type 2, a byte string. -/
  | Bytes (b : List UInt8)
  /-- Major type 3, a UTF-8 text string. -/
  | Text (s : String)
  /-- Major type 4, an array. -/
  | Array (a : List Value)
  /-- Major type 5, a map. The encoder sorts keys. -/
  | Map (m : List (Value × Value))
  /-- A boolean. -/
  | Bool (b : Bool)
  /-- A floating-point number, encoded in shortest lossless form. -/
  | Float (f : Float)
  | Null

namespace Value

/-- The integer of an `Int`. -/
def asInt : Value → Option ℤ
  | .Int i => some i
  | _ => none

/-- The entries of a `Map`. -/
def asMap : Value → Option (List (Value × Value))
  | .Map m => some m
  | _ => none

/-- The items of an `Array`. -/
def asArray : Value → Option (List Value)
  | .Array a => some a
  | _ => none

end Value

/-- A head: major type in the top 3 bits, argument in shortest form. -/
def encodeHead (major : UInt8) (arg : UInt64) : List UInt8 :=
  let mt := major <<< 5
  if arg < 24 then [mt ||| arg.toUInt8]
  else if arg ≤ 0xff then [mt ||| 24, arg.toUInt8]
  else if arg ≤ 0xffff then (mt ||| 25) :: BigEndian.toBE 2 arg.toUInt16.toNat
  else if arg ≤ 0xffffffff then (mt ||| 26) :: BigEndian.toBE 4 arg.toUInt32.toNat
  else (mt ||| 27) :: BigEndian.toBE 8 arg.toNat

/-- A negative `n` encodes with major type 1 and argument `-1 - n`. -/
def encodeInt (i : ℤ) : List UInt8 :=
  if i ≥ 0 then encodeHead 0 (UInt64.ofInt i) else encodeHead 1 (UInt64.ofInt (-1 - i))

/-- Shortest float serialization: a half if it round-trips exactly, else a
    single if it does, else a double. -/
def encodeFloat (v : Float) : List UInt8 :=
  let bits := v.toBits.toBitVec
  if v.isNaN then [0xf9, 0x7e, 0x00]
  else
    let asF32 := FloatCast.cast .binary64 .binary32 bits
    if FloatCast.eq .binary64 (FloatCast.cast .binary32 .binary64 asF32) bits then
      let h := FloatCast.cast .binary32 FloatCast.binary16 asF32
      if FloatCast.eq .binary32 (FloatCast.cast FloatCast.binary16 .binary32 h) asF32 then
        0xf9 :: BigEndian.toBE 2 h.toNat
      else 0xfa :: BigEndian.toBE 4 asF32.toNat
    else 0xfb :: BigEndian.toBE 8 bits.toNat

/-- Bytewise order of the encoded keys. -/
def keyLe {α : Type*} (a b : List UInt8 × α) : Prop :=
  (compare a.1 b.1).isLE = true

instance {α : Type*} : DecidableRel (keyLe (α := α)) :=
  fun a b => inferInstanceAs (Decidable ((compare a.1 b.1).isLE = true))

/-- Entries that are already encoded, sorted by the encoding of their keys and
    emitted. -/
def encodeMap (items : List (List UInt8 × List UInt8)) : List UInt8 :=
  let items := items.insertionSort keyLe
  encodeHead 5 (UInt64.ofNat items.length) ++ items.flatMap fun x => x.1 ++ x.2

mutual

/-- The encoding of a value. -/
def Value.encodeInto : Value → List UInt8
  | .Int i => encodeInt i
  | .Bytes b => encodeHead 2 (UInt64.ofNat b.length) ++ b
  | .Text s => encodeHead 3 (UInt64.ofNat s.utf8ByteSize) ++ s.toUTF8.data.toList
  | .Array a => encodeHead 4 (UInt64.ofNat a.length) ++ encodeElems a
  | .Map pairs => encodeMap (encodeItems pairs)
  | .Bool b => [if b then 0xf5 else 0xf4]
  | .Float f => encodeFloat f
  | .Null => [0xf6]

/-- The loop over the items of an array. -/
def encodeElems : List Value → List UInt8
  | [] => []
  | v :: a => v.encodeInto ++ encodeElems a

/-- The encoded keys and values of a map, in the map's order. -/
def encodeItems : List (Value × Value) → List (List UInt8 × List UInt8)
  | [] => []
  | (k, v) :: pairs => (k.encodeInto, v.encodeInto) :: encodeItems pairs

end

/-- The canonical encoding. -/
def Value.toCanonical (v : Value) : List UInt8 :=
  v.encodeInto

mutual

/-- The value of a decoded item. Tags are unwrapped; `undefined` and the other
    simple values are `Null`. -/
def fromCiborium : Rfc8949.Item → Value
  | .int i => .Int i
  | .bytes b => .Bytes b
  | .float f => .Float f
  | .text s => .Text s
  | .bool b => .Bool b
  | .null => .Null
  | .array a => .Array (fromCiboriumAll a)
  | .map m => .Map (fromCiboriumPairs m)
  | .tag _ inner => fromCiborium inner
  | .simple _ => .Null

def fromCiboriumAll : List Rfc8949.Item → List Value
  | [] => []
  | v :: a => fromCiborium v :: fromCiboriumAll a

def fromCiboriumPairs : List (Rfc8949.Item × Rfc8949.Item) → List (Value × Value)
  | [] => []
  | (k, v) :: m => (fromCiborium k, fromCiborium v) :: fromCiboriumPairs m

end

/-- Induction over nested values: a property of an array or a map may use it of
    every item, key and value inside. -/
@[elab_as_elim]
theorem Value.induct {P : Value → Prop} (hint : ∀ i, P (.Int i)) (hbytes : ∀ b, P (.Bytes b))
    (htext : ∀ s, P (.Text s)) (harray : ∀ a, (∀ v ∈ a, P v) → P (.Array a))
    (hmap : ∀ m, (∀ p ∈ m, P p.1 ∧ P p.2) → P (.Map m)) (hbool : ∀ b, P (.Bool b))
    (hfloat : ∀ f, P (.Float f)) (hnull : P .Null) (v : Value) : P v := by
  refine Value.rec (motive_1 := P) (motive_2 := fun a => ∀ v ∈ a, P v)
    (motive_3 := fun m => ∀ p ∈ m, P p.1 ∧ P p.2) (motive_4 := fun p => P p.1 ∧ P p.2)
    hint hbytes htext harray hmap hbool hfloat hnull ?_ ?_ ?_ ?_ (fun _ _ hk hv => ⟨hk, hv⟩) v
  · exact fun v hv => absurd hv List.not_mem_nil
  · exact fun head tail hhead htail => List.forall_mem_cons.mpr ⟨hhead, htail⟩
  · exact fun p hp => absurd hp List.not_mem_nil
  · exact fun head tail hhead htail => List.forall_mem_cons.mpr ⟨hhead, htail⟩

/-- The loop over an array concatenates the encodings of its items. -/
theorem encodeElems_eq (a : List Value) : encodeElems a = a.flatMap Value.encodeInto := by
  induction a with
  | nil => rw [encodeElems, List.flatMap_nil]
  | cons v a ih => rw [encodeElems, ih, List.flatMap_cons]

/-- The loop over a map encodes its keys and values. -/
theorem encodeItems_eq (m : List (Value × Value)) :
    encodeItems m = m.map fun p => (p.1.encodeInto, p.2.encodeInto) := by
  induction m with
  | nil => rw [encodeItems, List.map_nil]
  | cons p m ih => rw [encodeItems, ih, List.map_cons]

end Cbor

end LoomHost
