import Mathlib.Data.Int.Basic
import Mathlib.Data.List.Basic
import Mathlib.Order.Basic

/-!
# Decimal Numbers With a Bound

A reader of decimal digits that gives up as soon as the number reaches a bound, as
the parsers of fixed-width integers do, and the numerals with a sign in front. The
digits of a number and the number of some digits are those of the core library,
`Nat.toDigits` and `Nat.ofDigitChars`.

## Main definitions

* `read`: Digits, read on after a number.
* `Numeral`: A number with or without a sign.
* `print`: The shortest numeral of an integer.

## Theorems

* `read_eq_some_iff`: What is read is the number of the digits.
* `numeral_print`: What is printed is a numeral of the number.
-/

namespace LoomHost

namespace Decimal

/-- Decimal digits, read on after `n`, as long as the number is below the bound. -/
def read (bound n : ℕ) : List Char → Option ℕ
  | [] => some n
  | c :: digits =>
    if c.isDigit then
      let n := n * 10 + (c.toNat - 48)
      if n < bound then read bound n digits else none
    else none

/-- Reading on makes a number no smaller. -/
theorem le_ofDigitChars (digits : List Char) : ∀ n : ℕ, n ≤ Nat.ofDigitChars 10 digits n := by
  induction digits with
  | nil =>
    intro n
    rw [Nat.ofDigitChars_nil]
  | cons c digits ih =>
    intro n
    rw [Nat.ofDigitChars_cons]
    refine le_trans ?_ (ih _)
    omega

/-- What is read is the number of the digits, if that is below the bound. -/
theorem read_eq_some_iff {bound v : ℕ} (digits : List Char) : ∀ {n : ℕ}, n < bound →
    (read bound n digits = some v ↔
      (∀ c ∈ digits, c.isDigit = true) ∧ Nat.ofDigitChars 10 digits n = v ∧ v < bound) := by
  induction digits with
  | nil =>
    intro n hn
    rw [read, Nat.ofDigitChars_nil, Option.some.injEq]
    constructor
    · intro h
      exact ⟨by simp only [List.not_mem_nil, IsEmpty.forall_iff, implies_true], h, h ▸ hn⟩
    · exact fun h => h.2.1
  | cons c digits ih =>
    intro n hn
    have hten : n * 10 + (c.toNat - 48) = 10 * n + (c.toNat - '0'.toNat) := by
      rw [Nat.mul_comm]
      rfl
    rw [read, Nat.ofDigitChars_cons, List.forall_mem_cons]
    by_cases hdigit : c.isDigit = true
    · rw [if_pos hdigit]
      dsimp only
      by_cases hbound : n * 10 + (c.toNat - 48) < bound
      · rw [if_pos hbound, ih hbound, hten]
        simp only [hdigit, true_and]
      · -- The number is over the bound, and stays there.
        rw [if_neg hbound]
        rw [hten] at hbound
        have hmore := le_ofDigitChars digits (10 * n + (c.toNat - '0'.toNat))
        constructor
        · intro h
          cases h
        · intro h
          omega
    · rw [if_neg hdigit]
      simp only [reduceCtorEq, hdigit, Bool.false_eq_true, false_and, ↓Char.isValue,
        Char.reduceToNat]

/-- A number in decimal digits, with or without a sign. -/
inductive Numeral : List Char → ℤ → Prop
  | plain {digits : List Char} (hne : digits ≠ []) (hdigits : ∀ c ∈ digits, c.isDigit = true) :
      Numeral digits (Nat.ofDigitChars 10 digits 0)
  | plus {digits : List Char} (hne : digits ≠ []) (hdigits : ∀ c ∈ digits, c.isDigit = true) :
      Numeral ('+' :: digits) (Nat.ofDigitChars 10 digits 0)
  | minus {digits : List Char} (hne : digits ≠ []) (hdigits : ∀ c ∈ digits, c.isDigit = true) :
      Numeral ('-' :: digits) (-(Nat.ofDigitChars 10 digits 0))

/-- A numeral has digits and signs only. -/
theorem Numeral.chars {tok : List Char} {n : ℤ} (h : Numeral tok n) :
    tok ≠ [] ∧ ∀ c ∈ tok, c.isDigit = true ∨ c = '+' ∨ c = '-' := by
  cases h with
  | plain hne hdigits => exact ⟨hne, fun c hc => Or.inl (hdigits c hc)⟩
  | plus hne hdigits =>
    refine ⟨List.cons_ne_nil _ _, fun c hc => ?_⟩
    rcases List.mem_cons.mp hc with rfl | hc
    · exact Or.inr (Or.inl rfl)
    · exact Or.inl (hdigits c hc)
  | minus hne hdigits =>
    refine ⟨List.cons_ne_nil _ _, fun c hc => ?_⟩
    rcases List.mem_cons.mp hc with rfl | hc
    · exact Or.inr (Or.inr rfl)
    · exact Or.inl (hdigits c hc)

/-- The numeral of an integer without a needless sign or zero. -/
def print (n : ℤ) : List Char :=
  if n < 0 then '-' :: Nat.toDigits 10 n.natAbs else Nat.toDigits 10 n.natAbs

theorem numeral_print (n : ℤ) : Numeral (print n) n := by
  have hdigits : ∀ c ∈ Nat.toDigits 10 n.natAbs, c.isDigit = true := fun c hc =>
    Nat.isDigit_of_mem_toDigits (by decide) le_rfl hc
  have hvalue : Nat.ofDigitChars 10 (Nat.toDigits 10 n.natAbs) 0 = n.natAbs :=
    Nat.ofDigitChars_ten_toDigits
  unfold print
  by_cases hneg : n < 0
  · rw [if_pos hneg]
    have h := Numeral.minus Nat.toDigits_ne_nil hdigits
    rw [hvalue] at h
    rwa [show -((n.natAbs : ℕ) : ℤ) = n by omega] at h
  · rw [if_neg hneg]
    have h := Numeral.plain Nat.toDigits_ne_nil hdigits
    rw [hvalue] at h
    rwa [show ((n.natAbs : ℕ) : ℤ) = n by omega] at h

end Decimal

end LoomHost
