import LoomHost.Lib.Rfc8949

/-!
# Canonical CBOR Items

The deterministic encoding of RFC 8949 as a grammar of byte strings, without
floats and tags: lengths are definite, every head is the shortest one with its
major type and argument, and the keys of every map ascend in the bytewise order
of their encodings.

What a head says is what the reference decoder reads, so `ShortestHead` is a
statement about every head there is; `headLength` is how long the shortest one
is.

## Main definitions

* `ShortestHead`: A head that no shorter one could replace.
* `Canonical`: The grammar.
* `headLength`: The length of a shortest head.

## Theorems

* `headLength_le`: No head is shorter.
* `shortestHead_of_length`: A head of that length is a shortest one.
* `compare_eq_lt_iff`: The bytewise order.
-/

namespace LoomHost

namespace Rfc8949

/-- The bytes are a head with this major type and argument, and no fewer bytes
    are one. -/
def ShortestHead (major arg : ℕ) (bytes : List UInt8) : Prop :=
  (∃ info, readHead bytes = some ({ major, info, arg }, [])) ∧
    ∀ other info, readHead other = some ({ major, info, arg }, []) → bytes.length ≤ other.length

/-- Byte strings that are one canonical item. -/
inductive Canonical : List UInt8 → Prop
  | unsigned {n : ℕ} {head : List UInt8} (hhead : ShortestHead 0 n head) : Canonical head
  | negative {n : ℕ} {head : List UInt8} (hhead : ShortestHead 1 n head) : Canonical head
  | bytes {b head : List UInt8} (hhead : ShortestHead 2 b.length head) : Canonical (head ++ b)
  | text {s : String} {head : List UInt8} (hhead : ShortestHead 3 s.utf8ByteSize head) :
      Canonical (head ++ s.toUTF8.data.toList)
  | array {items : List (List UInt8)} {head : List UInt8}
      (hhead : ShortestHead 4 items.length head) (hitems : ∀ x ∈ items, Canonical x) :
      Canonical (head ++ items.flatten)
  | map {entries : List (List UInt8 × List UInt8)} {head : List UInt8}
      (hhead : ShortestHead 5 entries.length head)
      (hkeys : ∀ e ∈ entries, Canonical e.1) (hvalues : ∀ e ∈ entries, Canonical e.2)
      (hsorted : (entries.map Prod.fst).Pairwise (· < ·)) :
      Canonical (head ++ entries.flatMap fun e => e.1 ++ e.2)
  | simple {n : ℕ} {head : List UInt8} (hn : n < 24) (hhead : ShortestHead 7 n head) :
      Canonical head

/-- The length of a shortest head with this argument. -/
def headLength (arg : ℕ) : ℕ :=
  if arg < 24 then 1 else if arg ≤ 0xff then 2 else if arg ≤ 0xffff then 3
  else if arg ≤ 0xffffffff then 5 else 9

/-- No head is shorter. -/
theorem headLength_le (bytes : List UInt8) (head : Head)
    (h : readHead bytes = some (head, [])) : headLength head.arg ≤ bytes.length := by
  cases bytes with
  | nil => simp only [readHead, reduceCtorEq] at h
  | cons b bytes =>
      rw [readHead] at h
      dsimp only at h
      split_ifs at h with hshort hlong
      · -- The argument is in the initial byte.
        rw [Option.some.injEq, Prod.mk.injEq] at h
        rw [← h.1, headLength, if_pos hshort, List.length_cons]
        omega
      · -- The argument fills the bytes after it, and is bounded by them.
        unfold takeBytes at h
        split_ifs at h with hlen
        · simp only [Option.bind_eq_bind, Option.bind_some, Option.some.injEq, Prod.mk.injEq] at h
          have hbound := BigEndian.ofBE_lt (bytes.take (2 ^ (b.toNat % 32 - 24)))
          rw [List.length_take, min_eq_left hlen] at hbound
          rw [← h.1, List.length_cons, headLength]
          dsimp only
          have hcases : b.toNat % 32 - 24 = 0 ∨ b.toNat % 32 - 24 = 1 ∨ b.toNat % 32 - 24 = 2 ∨
              b.toNat % 32 - 24 = 3 := by omega
          generalize BigEndian.ofBE (bytes.take (2 ^ (b.toNat % 32 - 24))) = arg at hbound
          rcases hcases with hw | hw | hw | hw <;> rw [hw] at hlen hbound <;> split_ifs <;> omega
        · simp only [Option.bind_eq_bind, Option.bind_none, reduceCtorEq] at h

/-- A head of that length is a shortest one. -/
theorem shortestHead_of_length (major info arg : ℕ) (bytes : List UInt8)
    (h : readHead bytes = some ({ major, info, arg }, []))
    (hlen : bytes.length = headLength arg) : ShortestHead major arg bytes :=
  ⟨⟨info, h⟩, fun other _ hother => hlen ▸ headLength_le other _ hother⟩

/-- The bytewise order, as it is computed. -/
theorem compare_eq_lt_iff (a b : List UInt8) : compare a b = .lt ↔ a < b := by
  induction a generalizing b with
  | nil =>
      cases b with
      | nil => decide
      | cons y b => simp only [compare, List.compareLex, List.nil_lt_cons]
  | cons x a ih =>
      cases b with
      | nil => simp only [compare, List.compareLex, reduceCtorEq, List.not_lt_nil]
      | cons y b =>
          have hcons : compare (x :: a) (y :: b) = (compare x y).then (compare a b) :=
            List.compareLex_cons_cons
          rw [hcons, List.cons_lt_cons_iff, ← ih, Ordering.then_eq_lt, Std.compare_eq_lt,
            Std.compare_eq_iff_eq]

end Rfc8949

end LoomHost
