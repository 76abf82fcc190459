import Mathlib.Data.UInt
import Mathlib.Tactic.Ring

/-!
# Big-Endian Byte Fields

A natural number as a field of `w` bytes, most significant first, and a field
back as a number. Every fixed-width integer on the wire is one of these.

The field drops what does not fit, as a cast to a narrower integer does, so
writing and reading back is the remainder modulo `256 ^ w` and exact below it.

## Main definitions

* `toBE`: The `w` big-endian bytes of a number.
* `ofBE`: The number a field of bytes stands for.

## Theorems

* `ofBE_concat`: The last byte is the least significant one.
* `ofBE_toBE`: Writing a field and reading it back.
* `ofBE_toBE_of_lt`: A number that fits survives.
* `toBE_ofBE`: Reading a field and writing it back.
* `ofBE_lt`: A field bounds its number.
-/

namespace LoomHost

namespace BigEndian

/-- The `w` big-endian bytes of `n`. -/
def toBE : ℕ → ℕ → List UInt8
  | 0, _ => []
  | w + 1, n => toBE w (n / 256) ++ [UInt8.ofNat n]

/-- The number a field of big-endian bytes stands for. -/
def ofBE (bs : List UInt8) : ℕ :=
  bs.foldl (fun n b => 256 * n + b.toNat) 0

@[simp] theorem length_toBE (w : ℕ) : ∀ n, (toBE w n).length = w := by
  induction w with
  | zero => exact fun _ => rfl
  | succ w ih =>
      intro n
      simp only [toBE, List.length_append, ih, List.length_singleton]

@[simp] theorem ofBE_nil : ofBE [] = 0 := rfl

theorem ofBE_concat (bs : List UInt8) (b : UInt8) : ofBE (bs ++ [b]) = 256 * ofBE bs + b.toNat := by
  simp only [ofBE, List.foldl_append, List.foldl_cons, List.foldl_nil]

/-- Writing a field and reading it back keeps what fits into it. -/
theorem ofBE_toBE (w : ℕ) : ∀ n, ofBE (toBE w n) = n % 256 ^ w := by
  induction w with
  | zero =>
      intro n
      rw [toBE, ofBE_nil, pow_zero, Nat.mod_one]
  | succ w ih =>
      intro n
      have hmod : n % 256 ^ (w + 1) = n % 256 + 256 * (n / 256 % 256 ^ w) := by
        rw [pow_succ', Nat.mod_mul]
      rw [toBE, ofBE_concat, ih, UInt8.toNat_ofNat', hmod]
      omega

theorem ofBE_toBE_of_lt (w n : ℕ) (h : n < 256 ^ w) : ofBE (toBE w n) = n := by
  rw [ofBE_toBE, Nat.mod_eq_of_lt h]

/-- Reading a field and writing it back, at its own width. -/
theorem toBE_ofBE (bs : List UInt8) : toBE bs.length (ofBE bs) = bs := by
  induction bs using List.reverseRecOn with
  | nil => rfl
  | append_singleton bs b ih =>
      have hb := b.toNat_lt
      have hhigh : (256 * ofBE bs + b.toNat) / 256 = ofBE bs := by omega
      have hlow : UInt8.ofNat (256 * ofBE bs + b.toNat) = b := by
        rw [← UInt8.toNat_inj, UInt8.toNat_ofNat']
        omega
      rw [List.length_append, List.length_singleton, toBE, ofBE_concat, hhigh, hlow, ih]

/-- A field bounds its number. -/
theorem ofBE_lt (bs : List UInt8) : ofBE bs < 256 ^ bs.length := by
  induction bs using List.reverseRecOn with
  | nil => rw [ofBE_nil, List.length_nil, pow_zero]; omega
  | append_singleton bs b ih =>
      have hb := b.toNat_lt
      rw [List.length_append, List.length_singleton, ofBE_concat, pow_succ']
      omega

end BigEndian

end LoomHost
