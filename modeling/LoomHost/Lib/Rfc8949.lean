import LoomHost.Lib.BigEndian
import LoomHost.Lib.FloatCast

/-!
# Definite-Length CBOR

A reference decoder of the data items of RFC 8949, definite lengths only. It
reads one item off the front of a byte string and returns what it left unread.

The nesting of arrays, maps and tags is bounded by a limit, as it is in every
decoder that works through a byte stream. A limit of the number of bytes is
no limit: every level of nesting costs one.

## Main definitions

* `Item`: The data items; `Basic` those without tags, floats and unassigned
  simple values.
* `readHead`: An initial byte and its argument.
* `many`, `pair`: The contents of arrays and maps.
* `decodeItem`: One item, nested at most so deep.
* `decode`: One item.

## Theorems

* `takeBytes_append`: A byte string is read off the front.
* `many_append`: Consecutive items, if each is read off the front.
* `pair_append`: A key and its value.
-/

namespace LoomHost

namespace Rfc8949

/-- A data item. Floats of every width are widened to binary64. -/
inductive Item where
  | int (i : ℤ)
  | bytes (b : List UInt8)
  | text (s : String)
  | array (items : List Item)
  | map (entries : List (Item × Item))
  | tag (number : ℕ) (item : Item)
  | bool (b : Bool)
  | null
  /-- `undefined` and the unassigned simple values. -/
  | simple (n : ℕ)
  | float (f : Float)

mutual

/-- Items without tags, floats and unassigned simple values. -/
def Item.Basic : Item → Prop
  | .array items => BasicAll items
  | .map entries => BasicPairs entries
  | .tag _ _ => False
  | .simple _ => False
  | .float _ => False
  | _ => True

def BasicAll : List Item → Prop
  | [] => True
  | x :: items => x.Basic ∧ BasicAll items

def BasicPairs : List (Item × Item) → Prop
  | [] => True
  | (k, v) :: entries => (k.Basic ∧ v.Basic) ∧ BasicPairs entries

end

/-- An initial byte: the major type, the additional information and the
    argument it stands for. -/
structure Head where
  major : ℕ
  info : ℕ
  arg : ℕ
  deriving Repr, DecidableEq

/-- The first `n` bytes, if there are so many. -/
def takeBytes (n : ℕ) (bytes : List UInt8) : Option (List UInt8 × List UInt8) :=
  if n ≤ bytes.length then some (bytes.take n, bytes.drop n) else none

/-- The initial byte of an item and its argument: in the byte itself, or in the
    1, 2, 4 or 8 bytes after it. -/
def readHead : List UInt8 → Option (Head × List UInt8)
  | [] => none
  | b :: bytes =>
    let major := b.toNat / 32
    let info := b.toNat % 32
    if info < 24 then some ({ major, info, arg := info }, bytes)
    else if info ≤ 27 then do
      let (field, rest) ← takeBytes (2 ^ (info - 24)) bytes
      some ({ major, info, arg := BigEndian.ofBE field }, rest)
    else none

section Contents

variable {α β : Type*}

/-- `n` items, one after the other. -/
def many (f : List UInt8 → Option (α × List UInt8)) :
    ℕ → List UInt8 → Option (List α × List UInt8)
  | 0, bytes => some ([], bytes)
  | n + 1, bytes => do
    let (x, rest) ← f bytes
    let (xs, rest) ← many f n rest
    some (x :: xs, rest)

/-- A key and its value. -/
def pair (f : List UInt8 → Option (α × List UInt8)) (bytes : List UInt8) :
    Option ((α × α) × List UInt8) := do
  let (k, rest) ← f bytes
  let (v, rest) ← f rest
  some ((k, v), rest)

end Contents

/-- The items of major type 7: simple values and floats. -/
def special (info arg : ℕ) : Option Item :=
  let float (src : Float.Model.Format) : Item :=
    .float (Float.ofBits (UInt64.ofBitVec (FloatCast.cast src .binary64 (BitVec.ofNat _ arg))))
  match info with
  | 20 => some (.bool false)
  | 21 => some (.bool true)
  | 22 => some .null
  | 24 => if arg < 32 then none else some (.simple arg)
  | 25 => some (float FloatCast.binary16)
  | 26 => some (float .binary32)
  | 27 => some (float .binary64)
  | n => some (.simple n)

/-- One item whose contents are read by `inner`, or that has none. -/
def decodeOne (inner : Option (List UInt8 → Option (Item × List UInt8))) (bytes : List UInt8) :
    Option (Item × List UInt8) := do
  let (head, rest) ← readHead bytes
  match head.major with
  | 0 => some (.int head.arg, rest)
  | 1 => some (.int (-1 - head.arg), rest)
  | 2 =>
    let (b, rest) ← takeBytes head.arg rest
    some (.bytes b, rest)
  | 3 =>
    let (b, rest) ← takeBytes head.arg rest
    let s ← String.fromUTF8? ⟨b.toArray⟩
    some (.text s, rest)
  | 4 =>
    let f ← inner
    let (items, rest) ← many f head.arg rest
    some (.array items, rest)
  | 5 =>
    let f ← inner
    let (entries, rest) ← many (pair f) head.arg rest
    some (.map entries, rest)
  | 6 =>
    let f ← inner
    let (item, rest) ← f rest
    some (.tag head.arg item, rest)
  | _ =>
    let item ← special head.info head.arg
    some (item, rest)

/-- One item, with arrays, maps and tags nested at most `limit` deep. -/
def decodeItem : ℕ → List UInt8 → Option (Item × List UInt8)
  | 0 => decodeOne none
  | limit + 1 => decodeOne (some (decodeItem limit))

/-- One item off the front of a byte string, and what is left of it. -/
def decode (bytes : List UInt8) : Option (Item × List UInt8) :=
  decodeItem bytes.length bytes

theorem basicAll_iff (items : List Item) : BasicAll items ↔ ∀ x ∈ items, x.Basic := by
  induction items with
  | nil => simp only [BasicAll, List.not_mem_nil, false_implies, implies_true]
  | cons x items ih => rw [BasicAll, ih, List.forall_mem_cons]

theorem basicPairs_iff (entries : List (Item × Item)) :
    BasicPairs entries ↔ ∀ p ∈ entries, p.1.Basic ∧ p.2.Basic := by
  induction entries with
  | nil => simp only [BasicPairs, List.not_mem_nil, false_implies, implies_true]
  | cons p entries ih => rw [BasicPairs, ih, List.forall_mem_cons]

section Rules

variable {α β : Type*} (f : List UInt8 → Option (α × List UInt8))

theorem takeBytes_append (b rest : List UInt8) :
    takeBytes b.length (b ++ rest) = some (b, rest) := by
  rw [takeBytes, if_pos, List.take_left, List.drop_left]
  rw [List.length_append]
  omega

/-- Consecutive items are read one by one, if each is read off the front of
    whatever follows it. -/
theorem many_append (encode : β → List UInt8) (g : β → α) :
    ∀ (xs : List β) (rest : List UInt8),
      (∀ x ∈ xs, ∀ tail, f (encode x ++ tail) = some (g x, tail)) →
      many f xs.length (xs.flatMap encode ++ rest) = some (xs.map g, rest) := by
  intro xs
  induction xs with
  | nil => exact fun rest _ => rfl
  | cons x xs ih =>
      intro rest hf
      have hx := hf x List.mem_cons_self (xs.flatMap encode ++ rest)
      have hxs := ih rest (fun y hy => hf y (List.mem_cons_of_mem _ hy))
      simp only [List.length_cons, List.flatMap_cons, List.append_assoc, many, hx,
        Option.bind_eq_bind, Option.bind_some, hxs, List.map_cons]

theorem pair_append (k v rest : List UInt8) (x y : α) (hk : ∀ tail, f (k ++ tail) = some (x, tail))
    (hv : ∀ tail, f (v ++ tail) = some (y, tail)) :
    pair f (k ++ v ++ rest) = some ((x, y), rest) := by
  simp only [pair, List.append_assoc, hk, hv, Option.bind_eq_bind, Option.bind_some]

end Rules

end Rfc8949

end LoomHost
