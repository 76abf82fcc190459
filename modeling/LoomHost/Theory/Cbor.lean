import LoomHost.Core.Cbor
import LoomHost.Lib.WordCast

/-!
# The Encoder Is Lossless

What `toCanonical` writes, a decoder of RFC 8949 reads back: the same value,
with the entries of every map in the order of their encoded keys, and nothing
more of the input than was written. So the encoding delimits itself, and two
values with the same encoding differ in the order of map entries only.

The order the encoder chooses is part of what is read back, so the value that
comes out is the normal form `sorted`. It is a reordering of the value that
went in, in maps at any depth, inside keys as well.

## Main definitions

* `Value.Encodable`: No floats, integers in range, lengths of 64 bits.
* `Value.depth`: How deep arrays and maps are nested.
* `Value.sorted`: Every map in the order of its encoded keys.
* `Value.item`: The data item of a value.
* `Reorders`: Equal up to the order of map entries.

## Theorems

* `readHead_encodeHead`: Every head is read back, whatever its width.
* `decodeItem_encode`: Every encoding is read back.
* `depth_le_length`: Nesting costs bytes.
* `reorders_sorted`: The normal form is a reordering.
* `toCanonical_lossless`: The encoder is self-delimiting and lossless.
-/

namespace LoomHost

namespace Cbor

open Rfc8949 WordCast

mutual

/-- Values the encoder is meant for: no floats, integers that fit a CBOR head,
    and lengths that fit a `usize`, as those of every vector and string do. -/
def Value.Encodable : Value → Prop
  | .Int i => -2 ^ 64 ≤ i ∧ i < 2 ^ 64
  | .Bytes b => b.length < 2 ^ 64
  | .Text s => s.utf8ByteSize < 2 ^ 64
  | .Array a => a.length < 2 ^ 64 ∧ EncodableAll a
  | .Map m => m.length < 2 ^ 64 ∧ EncodablePairs m
  | .Float _ => False
  | .Bool _ => True
  | .Null => True

def EncodableAll : List Value → Prop
  | [] => True
  | v :: a => v.Encodable ∧ EncodableAll a

def EncodablePairs : List (Value × Value) → Prop
  | [] => True
  | (k, v) :: m => (k.Encodable ∧ v.Encodable) ∧ EncodablePairs m

end

mutual

/-- How deep arrays and maps are nested. -/
def Value.depth : Value → ℕ
  | .Array a => depthAll a + 1
  | .Map m => depthPairs m + 1
  | _ => 0

def depthAll : List Value → ℕ
  | [] => 0
  | v :: a => max v.depth (depthAll a)

def depthPairs : List (Value × Value) → ℕ
  | [] => 0
  | (k, v) :: m => max (max k.depth v.depth) (depthPairs m)

end

mutual

/-- The value with the entries of every map in the order of their encoded
    keys. -/
def Value.sorted : Value → Value
  | .Array a => .Array (sortedAll a)
  | .Map m => .Map (((sortedPairs m).insertionSort keyLe).map Prod.snd)
  | .Int i => .Int i
  | .Bytes b => .Bytes b
  | .Text s => .Text s
  | .Bool b => .Bool b
  | .Float f => .Float f
  | .Null => .Null

def sortedAll : List Value → List Value
  | [] => []
  | v :: a => v.sorted :: sortedAll a

/-- The sorted entries of a map, each under its encoded key. -/
def sortedPairs : List (Value × Value) → List (List UInt8 × (Value × Value))
  | [] => []
  | (k, v) :: m => (k.encodeInto, (k.sorted, v.sorted)) :: sortedPairs m

end

mutual

/-- The data item of a value. -/
def Value.item : Value → Item
  | .Int i => .int i
  | .Bytes b => .bytes b
  | .Text s => .text s
  | .Array a => .array (itemAll a)
  | .Map m => .map (itemPairs m)
  | .Bool b => .bool b
  | .Float f => .float f
  | .Null => .null

def itemAll : List Value → List Item
  | [] => []
  | v :: a => v.item :: itemAll a

def itemPairs : List (Value × Value) → List (Item × Item)
  | [] => []
  | (k, v) :: m => (k.item, v.item) :: itemPairs m

end

/-- Equal up to the order of the entries of maps, at any depth. -/
inductive Reorders : Value → Value → Prop
  | refl (v : Value) : Reorders v v
  | array {a b : List Value} (h : List.Forall₂ Reorders a b) : Reorders (.Array a) (.Array b)
  | map {m m' m'' : List (Value × Value)}
      (hkeys : List.Forall₂ Reorders (m.map Prod.fst) (m'.map Prod.fst))
      (hvalues : List.Forall₂ Reorders (m.map Prod.snd) (m'.map Prod.snd))
      (hperm : m'.Perm m'') : Reorders (.Map m) (.Map m'')

section Loops

theorem encodableAll_iff (a : List Value) : EncodableAll a ↔ ∀ v ∈ a, v.Encodable := by
  induction a with
  | nil => simp only [EncodableAll, List.not_mem_nil, false_implies, implies_true]
  | cons v a ih => rw [EncodableAll, ih, List.forall_mem_cons]

theorem encodablePairs_iff (m : List (Value × Value)) :
    EncodablePairs m ↔ ∀ p ∈ m, p.1.Encodable ∧ p.2.Encodable := by
  induction m with
  | nil => simp only [EncodablePairs, List.not_mem_nil, false_implies, implies_true]
  | cons p m ih => rw [EncodablePairs, ih, List.forall_mem_cons]

theorem depthAll_le_iff (a : List Value) (n : ℕ) : depthAll a ≤ n ↔ ∀ v ∈ a, v.depth ≤ n := by
  induction a with
  | nil => simp only [depthAll, Nat.zero_le, List.not_mem_nil, false_implies, implies_true]
  | cons v a ih => rw [depthAll, max_le_iff, ih, List.forall_mem_cons]

theorem depthPairs_le_iff (m : List (Value × Value)) (n : ℕ) :
    depthPairs m ≤ n ↔ ∀ p ∈ m, p.1.depth ≤ n ∧ p.2.depth ≤ n := by
  induction m with
  | nil => simp only [depthPairs, Nat.zero_le, List.not_mem_nil, false_implies, implies_true]
  | cons p m ih => rw [depthPairs, max_le_iff, max_le_iff, ih, List.forall_mem_cons]

theorem sortedAll_eq (a : List Value) : sortedAll a = a.map Value.sorted := by
  induction a with
  | nil => rw [sortedAll, List.map_nil]
  | cons v a ih => rw [sortedAll, ih, List.map_cons]

theorem sortedPairs_eq (m : List (Value × Value)) :
    sortedPairs m = m.map fun p => (p.1.encodeInto, (p.1.sorted, p.2.sorted)) := by
  induction m with
  | nil => rw [sortedPairs, List.map_nil]
  | cons p m ih => rw [sortedPairs, ih, List.map_cons]

theorem itemAll_eq (a : List Value) : itemAll a = a.map Value.item := by
  induction a with
  | nil => rw [itemAll, List.map_nil]
  | cons v a ih => rw [itemAll, ih, List.map_cons]

theorem itemPairs_eq (m : List (Value × Value)) :
    itemPairs m = m.map fun p => (p.1.item, p.2.item) := by
  induction m with
  | nil => rw [itemPairs, List.map_nil]
  | cons p m ih => rw [itemPairs, ih, List.map_cons]

theorem fromCiboriumAll_eq (a : List Item) : fromCiboriumAll a = a.map fromCiborium := by
  induction a with
  | nil => rw [fromCiboriumAll, List.map_nil]
  | cons v a ih => rw [fromCiboriumAll, ih, List.map_cons]

theorem fromCiboriumPairs_eq (m : List (Item × Item)) :
    fromCiboriumPairs m = m.map fun p => (fromCiborium p.1, fromCiborium p.2) := by
  induction m with
  | nil => rw [fromCiboriumPairs, List.map_nil]
  | cons p m ih => rw [fromCiboriumPairs, ih, List.map_cons]

/-- The entries of a map, by the bytewise order of their encoded keys. -/
def byKey (m : List (Value × Value)) : List (Value × Value) :=
  m.insertionSort fun p q => (compare p.1.encodeInto q.1.encodeInto).isLE = true

/-- Sorting encoded entries is encoding sorted ones. -/
theorem insertionSort_map {α : Type*} (m : List (Value × Value))
    (f : Value × Value → List UInt8 × α) (hf : ∀ p, (f p).1 = p.1.encodeInto) :
    (m.map f).insertionSort keyLe = (byKey m).map f := by
  refine (List.map_insertionSort _ _ f m (fun p _ q _ => ?_)).symm
  rw [keyLe, hf, hf]

theorem byKey_perm (m : List (Value × Value)) : (byKey m).Perm m :=
  List.perm_insertionSort _ m

theorem mem_byKey (m : List (Value × Value)) (p : Value × Value) : p ∈ byKey m ↔ p ∈ m :=
  (byKey_perm m).mem_iff

theorem length_byKey (m : List (Value × Value)) : (byKey m).length = m.length :=
  (byKey_perm m).length_eq

theorem sorted_map (m : List (Value × Value)) :
    (Value.Map m).sorted = .Map ((byKey m).map fun p => (p.1.sorted, p.2.sorted)) := by
  rw [Value.sorted, sortedPairs_eq, insertionSort_map m _ (fun _ => rfl), List.map_map]
  rfl

theorem encodeMap_eq (m : List (Value × Value)) : (Value.Map m).encodeInto =
    encodeHead 5 (UInt64.ofNat m.length) ++
      (byKey m).flatMap fun p => p.1.encodeInto ++ p.2.encodeInto := by
  rw [Value.encodeInto, encodeMap, encodeItems_eq, insertionSort_map m _ (fun _ => rfl),
    List.length_map, length_byKey, List.flatMap_map]

end Loops

section Heads

/-- The two fields of an initial byte. -/
theorem initial_byte (major info : UInt8) (hm : major.toNat < 8) (hi : info.toNat < 32) :
    (major <<< 5 ||| info).toNat / 32 = major.toNat ∧
      (major <<< 5 ||| info).toNat % 32 = info.toNat := by
  have hshift : (major <<< 5).toNat = major.toNat <<< 5 := by
    rw [UInt8.toNat_shiftLeft, show (5 : UInt8).toNat % 8 = 5 from rfl, Nat.shiftLeft_eq]
    omega
  have hbyte : (major <<< 5 ||| info).toNat = major.toNat * 32 + info.toNat := by
    rw [UInt8.toNat_or, hshift, ← Nat.shiftLeft_add_eq_or_of_lt hi, Nat.shiftLeft_eq]
  omega

/-- A head whose argument is in the initial byte. -/
theorem readHead_short (major info : UInt8) (rest : List UInt8) (hm : major.toNat < 8)
    (hi : info.toNat < 24) :
    readHead ((major <<< 5 ||| info) :: rest) =
      some ({ major := major.toNat, info := info.toNat, arg := info.toNat }, rest) := by
  rcases initial_byte major info hm (by omega) with ⟨hmajor, hinfo⟩
  simp only [readHead, hmajor, hinfo, hi, if_true]

/-- A head whose argument is in the bytes after it. -/
theorem readHead_long (major info : UInt8) (n : ℕ) (rest : List UInt8) (hm : major.toNat < 8)
    (hlo : 24 ≤ info.toNat) (hhi : info.toNat ≤ 27) (hn : n < 256 ^ 2 ^ (info.toNat - 24)) :
    readHead ((major <<< 5 ||| info) :: (BigEndian.toBE (2 ^ (info.toNat - 24)) n ++ rest)) =
      some ({ major := major.toNat, info := info.toNat, arg := n }, rest) := by
  rcases initial_byte major info hm (by omega) with ⟨hmajor, hinfo⟩
  have hfield := takeBytes_append (BigEndian.toBE (2 ^ (info.toNat - 24)) n) rest
  rw [BigEndian.length_toBE] at hfield
  simp only [readHead, hmajor, hinfo, hhi, if_true, hfield, Option.bind_eq_bind, Option.bind_some,
    BigEndian.ofBE_toBE_of_lt _ n hn]
  rw [if_neg (by omega)]

/-- Every head is read back, whatever its width. -/
theorem readHead_encodeHead (major : UInt8) (arg : UInt64) (rest : List UInt8)
    (hm : major.toNat < 8) :
    ∃ info, readHead (encodeHead major arg ++ rest) =
      some ({ major := major.toNat, info := info, arg := arg.toNat }, rest) := by
  have harg := arg.toNat_lt
  unfold encodeHead
  split_ifs with h24 h8 h16 h32
  · -- The argument is in the initial byte.
    have hlt : arg.toNat < 24 := UInt64.lt_iff_toNat_lt.mp h24
    have hbyte : arg.toUInt8.toNat = arg.toNat := by
      rw [UInt64.toNat_toUInt8]
      omega
    rw [← hbyte]
    exact ⟨_, readHead_short major arg.toUInt8 rest hm (by omega)⟩
  · -- One byte after it, and then two, four and eight.
    have hle : arg.toNat ≤ 0xff := UInt64.le_iff_toNat_le.mp h8
    have hbyte : [arg.toUInt8] = BigEndian.toBE 1 arg.toNat := by
      rw [BigEndian.toBE, BigEndian.toBE, List.nil_append, List.cons.injEq]
      exact ⟨rfl, rfl⟩
    have hsplit : [major <<< 5 ||| 24, arg.toUInt8] ++ rest =
        (major <<< 5 ||| 24) :: (BigEndian.toBE 1 arg.toNat ++ rest) := by
      rw [← hbyte]
      rfl
    rw [hsplit]
    have hfits : arg.toNat < 256 ^ 2 ^ ((24 : UInt8).toNat - 24) := Nat.lt_succ_of_le hle
    exact ⟨_, readHead_long major 24 arg.toNat rest hm (by decide) (by decide) hfits⟩
  · have hle : arg.toNat ≤ 0xffff := UInt64.le_iff_toNat_le.mp h16
    have hcast : arg.toUInt16.toNat = arg.toNat := by
      rw [UInt64.toNat_toUInt16]
      omega
    rw [hcast]
    have hfits : arg.toNat < 256 ^ 2 ^ ((25 : UInt8).toNat - 24) := Nat.lt_succ_of_le hle
    exact ⟨_, readHead_long major 25 arg.toNat rest hm (by decide) (by decide) hfits⟩
  · have hle : arg.toNat ≤ 0xffffffff := UInt64.le_iff_toNat_le.mp h32
    have hcast : arg.toUInt32.toNat = arg.toNat := by
      rw [UInt64.toNat_toUInt32]
      omega
    rw [hcast]
    have hfits : arg.toNat < 256 ^ 2 ^ ((26 : UInt8).toNat - 24) := Nat.lt_succ_of_le hle
    exact ⟨_, readHead_long major 26 arg.toNat rest hm (by decide) (by decide) hfits⟩
  · have hfits : arg.toNat < 256 ^ 2 ^ ((27 : UInt8).toNat - 24) := arg.toNat_lt
    exact ⟨_, readHead_long major 27 arg.toNat rest hm (by decide) (by decide) hfits⟩

theorem length_encodeHead_pos (major : UInt8) (arg : UInt64) :
    1 ≤ (encodeHead major arg).length := by
  unfold encodeHead
  split_ifs <;> simp only [List.length_cons, List.length_nil] <;> omega

/-- A length that fits a `usize` is cast without loss. -/
theorem toNat_length (n : ℕ) (h : n < 2 ^ 64) : (UInt64.ofNat n).toNat = n :=
  UInt64.toNat_ofNat_of_lt h

end Heads

section RoundTrip

variable (inner : Option (List UInt8 → Option (Item × List UInt8)))

theorem decodeOne_int (i : ℤ) (rest : List UInt8) (hi : -2 ^ 64 ≤ i ∧ i < 2 ^ 64) :
    decodeOne inner (encodeInt i ++ rest) = some (.int i, rest) := by
  unfold encodeInt
  split_ifs with hpos
  · rcases readHead_encodeHead 0 (UInt64.ofInt i) rest (by decide) with ⟨info, hhead⟩
    have harg := (uint64_exact i).mpr ⟨by omega, by omega⟩
    rw [decodeOne, hhead]
    change some (Item.int (UInt64.ofInt i).toNat, rest) = _
    rw [harg]
  · -- A negative integer is written as `-1 - i`.
    rcases readHead_encodeHead 1 (UInt64.ofInt (-1 - i)) rest (by decide) with ⟨info, hhead⟩
    have harg := (uint64_exact (-1 - i)).mpr ⟨by omega, by omega⟩
    rw [decodeOne, hhead]
    change some (Item.int (-1 - (UInt64.ofInt (-1 - i)).toNat), rest) = _
    rw [harg, Int.sub_sub_self]

theorem decodeOne_bytes (b rest : List UInt8) (hb : b.length < 2 ^ 64) :
    decodeOne inner (encodeHead 2 (UInt64.ofNat b.length) ++ b ++ rest) =
      some (.bytes b, rest) := by
  rcases readHead_encodeHead 2 (UInt64.ofNat b.length) (b ++ rest) (by decide) with ⟨info, hhead⟩
  rw [toNat_length b.length hb] at hhead
  rw [decodeOne, List.append_assoc, hhead]
  change (takeBytes b.length (b ++ rest)).bind _ = _
  rw [takeBytes_append, Option.bind_some]

/-- The bytes of a string decode to it. -/
theorem fromUTF8?_toUTF8 (s : String) :
    String.fromUTF8? ⟨s.toUTF8.data.toList.toArray⟩ = some s := by
  rw [Array.toArray_toList]
  exact dif_pos s.isValidUTF8

theorem length_toUTF8 (s : String) : s.toUTF8.data.toList.length = s.utf8ByteSize := by
  rw [Array.length_toList]
  rfl

theorem decodeOne_text (s : String) (rest : List UInt8) (hs : s.utf8ByteSize < 2 ^ 64) :
    decodeOne inner (encodeHead 3 (UInt64.ofNat s.utf8ByteSize) ++ s.toUTF8.data.toList ++ rest) =
      some (.text s, rest) := by
  rcases readHead_encodeHead 3 (UInt64.ofNat s.utf8ByteSize) (s.toUTF8.data.toList ++ rest)
    (by decide) with ⟨info, hhead⟩
  rw [toNat_length _ hs, ← length_toUTF8] at hhead
  rw [decodeOne, List.append_assoc, ← length_toUTF8, hhead]
  change (takeBytes s.toUTF8.data.toList.length (s.toUTF8.data.toList ++ rest)).bind _ = _
  rw [takeBytes_append, Option.bind_some]
  change (String.fromUTF8? ⟨s.toUTF8.data.toList.toArray⟩).bind _ = _
  rw [fromUTF8?_toUTF8, Option.bind_some]

/-- The contents of an array are read one by one. -/
theorem decodeOne_array (f : List UInt8 → Option (Item × List UInt8)) (a : List Value)
    (rest : List UInt8) (ha : a.length < 2 ^ 64)
    (hf : ∀ v ∈ a, ∀ tail, f (v.encodeInto ++ tail) = some (v.sorted.item, tail)) :
    decodeOne (some f) ((Value.Array a).encodeInto ++ rest) =
      some ((Value.Array a).sorted.item, rest) := by
  rcases readHead_encodeHead 4 (UInt64.ofNat a.length) (a.flatMap Value.encodeInto ++ rest)
    (by decide) with ⟨info, hhead⟩
  rw [toNat_length a.length ha] at hhead
  rw [Value.encodeInto, encodeElems_eq, List.append_assoc, decodeOne, hhead]
  change (many f a.length (a.flatMap Value.encodeInto ++ rest)).bind _ = _
  rw [many_append f Value.encodeInto (fun v => v.sorted.item) a rest hf, Option.bind_some,
    Value.sorted, Value.item, sortedAll_eq, itemAll_eq, List.map_map]
  rfl

/-- The entries of a map are read in the order of their encoded keys. -/
theorem decodeOne_map (f : List UInt8 → Option (Item × List UInt8)) (m : List (Value × Value))
    (rest : List UInt8) (hm : m.length < 2 ^ 64)
    (hf : ∀ p ∈ m, (∀ tail, f (p.1.encodeInto ++ tail) = some (p.1.sorted.item, tail)) ∧
      ∀ tail, f (p.2.encodeInto ++ tail) = some (p.2.sorted.item, tail)) :
    decodeOne (some f) ((Value.Map m).encodeInto ++ rest) =
      some ((Value.Map m).sorted.item, rest) := by
  let enc : Value × Value → List UInt8 := fun p => p.1.encodeInto ++ p.2.encodeInto
  rcases readHead_encodeHead 5 (UInt64.ofNat m.length) ((byKey m).flatMap enc ++ rest)
    (by decide) with ⟨info, hhead⟩
  rw [toNat_length m.length hm, ← length_byKey] at hhead
  -- The entries are read in the order written, each key before its value.
  have hpairs : ∀ p ∈ byKey m, ∀ tail,
      pair f (enc p ++ tail) = some ((p.1.sorted.item, p.2.sorted.item), tail) := by
    intro p hp tail
    rcases hf p ((mem_byKey m p).mp hp) with ⟨hk, hv⟩
    exact pair_append f _ _ tail _ _ hk hv
  rw [encodeMap_eq, List.append_assoc, decodeOne, ← length_byKey, hhead]
  change (many (pair f) (byKey m).length ((byKey m).flatMap enc ++ rest)).bind _ = _
  rw [many_append (pair f) enc (fun p => (p.1.sorted.item, p.2.sorted.item)) (byKey m) rest hpairs,
    Option.bind_some, sorted_map, Value.item, itemPairs_eq, List.map_map]
  rfl

/-- What the encoder writes is read back in front of anything, by a decoder
    that allows the nesting. -/
theorem decodeItem_encode (v : Value) : v.Encodable → ∀ limit, v.depth ≤ limit →
    ∀ rest, decodeItem limit (v.encodeInto ++ rest) = some (v.sorted.item, rest) := by
  -- Scalars are read at any limit.
  have hscalar : ∀ w : Value, (∀ inner rest, decodeOne inner (w.encodeInto ++ rest) =
      some (w.sorted.item, rest)) → ∀ limit rest,
      decodeItem limit (w.encodeInto ++ rest) = some (w.sorted.item, rest) := by
    intro w hw limit rest
    cases limit with
    | zero => exact hw none rest
    | succ limit => exact hw (some (decodeItem limit)) rest
  induction v using Value.induct with
  | hint i =>
      exact fun hi limit _ => hscalar (.Int i)
        (fun inner rest => decodeOne_int inner i rest hi) limit
  | hbytes b =>
      exact fun hb limit _ => hscalar (.Bytes b)
        (fun inner rest => decodeOne_bytes inner b rest hb) limit
  | htext s =>
      exact fun hs limit _ => hscalar (.Text s)
        (fun inner rest => decodeOne_text inner s rest hs) limit
  | harray a ih =>
      intro ⟨hlen, hall⟩ limit hdepth rest
      cases limit with
      | zero => exact absurd hdepth (Nat.not_succ_le_zero _)
      | succ limit =>
          -- The elements are read with one level of nesting less.
          have hd := (depthAll_le_iff a limit).mp (Nat.le_of_succ_le_succ hdepth)
          exact decodeOne_array (decodeItem limit) a rest hlen (fun v hv =>
            ih v hv ((encodableAll_iff a).mp hall v hv) limit (hd v hv))
  | hmap m ih =>
      intro ⟨hlen, hall⟩ limit hdepth rest
      cases limit with
      | zero => exact absurd hdepth (Nat.not_succ_le_zero _)
      | succ limit =>
          have hd := (depthPairs_le_iff m limit).mp (Nat.le_of_succ_le_succ hdepth)
          have he := (encodablePairs_iff m).mp hall
          exact decodeOne_map (decodeItem limit) m rest hlen (fun p hp =>
            ⟨(ih p hp).1 (he p hp).1 limit (hd p hp).1, (ih p hp).2 (he p hp).2 limit (hd p hp).2⟩)
  | hbool b =>
      refine fun _ limit _ => hscalar _ (fun inner rest => ?_) limit
      cases b <;> rfl
  | hfloat f => exact fun hf => absurd hf id
  | hnull => exact fun _ limit _ => hscalar _ (fun inner rest => rfl) limit

end RoundTrip

section Lossless

/-- A part of a concatenation is no longer than it. -/
theorem length_le_flatMap {α β : Type*} (f : α → List β) (l : List α) (x : α) (hx : x ∈ l) :
    (f x).length ≤ (l.flatMap f).length := by
  rcases List.append_of_mem hx with ⟨before, after, rfl⟩
  rw [List.flatMap_append, List.flatMap_cons, List.length_append, List.length_append]
  omega

/-- Every level of nesting costs a byte, so the number of bytes is no limit. -/
theorem depth_le_length (v : Value) : v.depth ≤ v.encodeInto.length := by
  induction v using Value.induct with
  | harray a ih =>
      -- The head is the byte this level costs.
      have hhead := length_encodeHead_pos 4 (UInt64.ofNat a.length)
      have hall : depthAll a ≤ (a.flatMap Value.encodeInto).length :=
        (depthAll_le_iff a _).mpr (fun v hv => (ih v hv).trans (length_le_flatMap _ a v hv))
      rw [Value.depth, Value.encodeInto, encodeElems_eq, List.length_append]
      omega
  | hmap m ih =>
      have hhead := length_encodeHead_pos 5 (UInt64.ofNat m.length)
      have hall : depthPairs m ≤
          ((byKey m).flatMap fun p => p.1.encodeInto ++ p.2.encodeInto).length := by
        refine (depthPairs_le_iff m _).mpr (fun p hp => ?_)
        have hle := length_le_flatMap (fun p : Value × Value => p.1.encodeInto ++ p.2.encodeInto)
          (byKey m) p ((mem_byKey m p).mpr hp)
        have hk := (ih p hp).1
        have hv := (ih p hp).2
        rw [List.length_append] at hle
        omega
      rw [Value.depth, encodeMap_eq, List.length_append]
      omega
  | hint i => exact Nat.zero_le _
  | hbytes b => exact Nat.zero_le _
  | htext s => exact Nat.zero_le _
  | hbool b => exact Nat.zero_le _
  | hfloat f => exact Nat.zero_le _
  | hnull => exact Nat.zero_le _

/-- Lowering the item of a value gives it back. -/
theorem fromCiborium_item (v : Value) : fromCiborium v.item = v := by
  induction v using Value.induct with
  | harray a ih =>
      rw [Value.item, fromCiborium, fromCiboriumAll_eq, itemAll_eq, List.map_map]
      exact congrArg Value.Array ((List.map_congr_left ih).trans (List.map_id a))
  | hmap m ih =>
      rw [Value.item, fromCiborium, fromCiboriumPairs_eq, itemPairs_eq, List.map_map]
      refine congrArg Value.Map ((List.map_congr_left (fun p hp => ?_)).trans (List.map_id m))
      exact Prod.ext (ih p hp).1 (ih p hp).2
  | hint i => rfl
  | hbytes b => rfl
  | htext s => rfl
  | hbool b => rfl
  | hfloat f => rfl
  | hnull => rfl

/-- The normal form is a reordering of the value. -/
theorem reorders_sorted (v : Value) : Reorders v v.sorted := by
  induction v using Value.induct with
  | harray a ih =>
      rw [Value.sorted, sortedAll_eq]
      exact Reorders.array (List.forall₂_map_right_iff.mpr (List.forall₂_same.mpr ih))
  | hmap m ih =>
      rw [sorted_map]
      have hperm := (byKey_perm m).symm.map fun p => (p.1.sorted, p.2.sorted)
      -- The entries are reordered inside first, and then among each other.
      refine Reorders.map ?_ ?_ hperm
      · rw [List.map_map, List.forall₂_map_left_iff, List.forall₂_map_right_iff]
        exact List.forall₂_same.mpr (fun p hp => (ih p hp).1)
      · rw [List.map_map, List.forall₂_map_left_iff, List.forall₂_map_right_iff]
        exact List.forall₂_same.mpr (fun p hp => (ih p hp).2)
  | hint i => exact Reorders.refl _
  | hbytes b => exact Reorders.refl _
  | htext s => exact Reorders.refl _
  | hbool b => exact Reorders.refl _
  | hfloat f => exact Reorders.refl _
  | hnull => exact Reorders.refl _

/-- The decoder of RFC 8949 reads an encoding off the front of whatever follows
    it. -/
theorem decode_encode (v : Value) (hv : v.Encodable) (rest : List UInt8) :
    decode (v.toCanonical ++ rest) = some (v.sorted.item, rest) := by
  refine decodeItem_encode v hv _ ?_ rest
  have hdepth := depth_le_length v
  rw [Value.toCanonical, List.length_append]
  omega

/-- The encoder is self-delimiting and lossless. Decoding an encoding followed
    by any bytes gives the value, with the entries of every map in the order of
    their encoded keys, and leaves exactly those bytes. Two values with the
    same encoding have the same normal form, so they are equal up to the order
    of map entries. -/
theorem toCanonical_lossless (v : Value) (hv : v.Encodable) :
    (∀ rest, decode (v.toCanonical ++ rest) = some (v.sorted.item, rest)) ∧
    Reorders v v.sorted ∧
    ∀ w : Value, w.Encodable → w.toCanonical = v.toCanonical → w.sorted = v.sorted := by
  refine ⟨decode_encode v hv, reorders_sorted v, fun w hw heq => ?_⟩
  -- Both are read back from the same bytes, with nothing after them.
  have hitem := decode_encode w hw []
  rw [heq, decode_encode v hv [], Option.some.injEq, Prod.mk.injEq] at hitem
  rw [← fromCiborium_item w.sorted, ← fromCiborium_item v.sorted, hitem.1]

/-- A map with a map for a key, out of order at both levels, and the ends of
    the integer range. -/
theorem toCanonical_lossless_nested :
    decode ((Value.Map [(.Map [(.Int 2, .Null), (.Int 1, .Bool true)], .Int (-2 ^ 64)),
        (.Int 24, .Text "hi")]).toCanonical ++ [0xff]) =
      some (.map [(.int 24, .text "hi"),
        (.map [(.int 1, .bool true), (.int 2, .null)], .int (-2 ^ 64))], [0xff]) := by
  refine ((toCanonical_lossless _ ?_).1 [0xff]).trans ?_
  · simp only [Value.Encodable, EncodablePairs]
    decide
  · rfl

end Lossless

end Cbor

end LoomHost
