import Mathlib.Data.List.Forall2

/-!
# Going Through a List Until Something Fails

A function that may fail is applied to the elements of a list, each with its place, and
the first failure is the failure of the whole. If the function succeeds exactly on
what a relation allows, the whole succeeds exactly on the lists it allows element by
element; and if not, the failure is that of the first element it does not allow.

## Main definitions

* `traverse`: The results for the elements, or the first failure.

## Theorems

* `traverse_ok_iff`, `traverse_error_iff`: What is returned.
-/

namespace LoomHost

namespace Traverse

variable {α β ε : Type*}

/-- The results for the elements from place `n` on, or the first failure. -/
def traverse (f : ℕ → α → Except ε β) (n : ℕ) : List α → Except ε (List β)
  | [] => .ok []
  | a :: rest =>
    match f n a with
    | .error e => .error e
    | .ok b =>
      match traverse f (n + 1) rest with
      | .error e => .error e
      | .ok bs => .ok (b :: bs)

variable {f : ℕ → α → Except ε β} {R : α → β → Prop}

/-- A list goes through if every element does. -/
theorem traverse_ok_iff (hf : ∀ n a b, f n a = .ok b ↔ R a b) (l : List α) :
    ∀ {n : ℕ} {bs : List β}, traverse f n l = .ok bs ↔ List.Forall₂ R l bs := by
  induction l with
  | nil =>
    intro n bs
    rw [traverse, Except.ok.injEq, List.forall₂_nil_left_iff, eq_comm]
  | cons a rest ih =>
    intro n bs
    rw [traverse]
    constructor
    · intro h
      cases ha : f n a with
      | error e =>
        rw [ha] at h
        cases h
      | ok b =>
        -- The head goes through, and the others decide.
        rw [ha] at h
        cases hrest : traverse f (n + 1) rest with
        | error e =>
          rw [hrest] at h
          cases h
        | ok bs' =>
          rw [hrest] at h
          cases h
          exact .cons ((hf n a b).mp ha) (ih.mp hrest)
    · intro h
      cases h with
      | cons ha hrest => rw [(hf n a _).mpr ha, ih.mpr hrest]

/-- The failure is that of the first element that does not go through. -/
theorem traverse_error_iff (hf : ∀ n a b, f n a = .ok b ↔ R a b) (l : List α) {e : ε} :
    ∀ {n : ℕ}, traverse f n l = .error e ↔
      ∃ before a after bs, l = before ++ a :: after ∧ List.Forall₂ R before bs ∧
        f (n + before.length) a = .error e := by
  induction l with
  | nil =>
    intro n
    rw [traverse]
    simp only [reduceCtorEq, List.nil_eq, List.append_eq_nil_iff, and_false, false_and,
      exists_const, exists_false]
  | cons a rest ih =>
    intro n
    rw [traverse]
    constructor
    · intro h
      cases ha : f n a with
      | error e' =>
        rw [ha] at h
        cases h
        exact ⟨[], a, rest, [], rfl, .nil, ha⟩
      | ok b =>
        rw [ha] at h
        cases hrest : traverse f (n + 1) rest with
        | error e' =>
          rw [hrest] at h
          cases h
          rcases ih.mp hrest with ⟨before, x, after, bs, rfl, hbefore, hx⟩
          refine ⟨a :: before, x, after, b :: bs, rfl, .cons ((hf n a b).mp ha) hbefore, ?_⟩
          rwa [List.length_cons, Nat.add_comm before.length, ← Nat.add_assoc]
        | ok bs =>
          rw [hrest] at h
          cases h
    · intro h
      rcases h with ⟨before, x, after, bs, hsplit, hbefore, hx⟩
      cases hbefore with
      | nil =>
        cases hsplit
        rw [List.length_nil, Nat.add_zero] at hx
        rw [hx]
      | cons ha hbefore =>
        cases hsplit
        -- The failure is among the rest.
        rw [List.length_cons, Nat.add_comm _ 1, ← Nat.add_assoc] at hx
        rw [(hf n _ _).mpr ha, ih.mpr ⟨_, x, after, _, rfl, hbefore, hx⟩]

end Traverse

end LoomHost
