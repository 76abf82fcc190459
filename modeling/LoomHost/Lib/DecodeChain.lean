import Mathlib.Data.List.Basic
import Mathlib.Order.Nat

/-!
# Decodable Sequences of Frames

A predictive decoder keeps one picture. A keyframe it can always decode;
any other frame only if the picture it keeps is the frame numbered just below.
`Decodable` is the property of a sequence that such a decoder never fails on
it: numbers rise, and every frame that is not a keyframe directly follows its
predecessor. That the first frame is a keyframe is a consequence, since it
follows nothing.

The numbering and the keyframe flag are parameters, so a sequence of anything
that carries them can be asked the question.

## Main definitions

* `Decodable`: Numbers rise and every other frame follows its predecessor.

## Theorems

* `Decodable.snoc`: One more frame keeps the property.
* `Decodable.head_key`: The first frame is a keyframe.
-/

namespace LoomHost

namespace DecodeChain

variable {α : Type*}

/-- Numbers rise, and every frame that is not a keyframe directly follows the
    frame numbered just below it. -/
structure Decodable (num : α → ℕ) (key : α → Bool) (l : List α) : Prop where
  increasing : l.Pairwise (fun a b => num a < num b)
  linked : ∀ pre f post, l = pre ++ f :: post → key f = false →
    ∃ p, pre.getLast? = some p ∧ num p + 1 = num f

variable {num : α → ℕ} {key : α → Bool} {l : List α}

theorem Decodable.nil : Decodable num key [] :=
  ⟨List.Pairwise.nil, fun pre f post h _ =>
    absurd h.symm (List.append_ne_nil_of_right_ne_nil pre (List.cons_ne_nil f post))⟩

/-- In a rising list the last number bounds every other. -/
theorem le_last_of_increasing (h : l.Pairwise (fun a b => num a < num b)) (p : α)
    (hp : l.getLast? = some p) : ∀ a ∈ l, num a ≤ num p := by
  rcases List.getLast?_eq_some_iff.mp hp with ⟨pre, rfl⟩
  intro a ha
  rcases List.mem_append.mp ha with ha | ha
  · exact le_of_lt ((List.pairwise_append.mp h).2.2 a ha p List.mem_cons_self)
  · rw [List.mem_singleton.mp ha]

/-- One more frame keeps the property, if its number is above the last one's
    and, unless it is a keyframe, next to it. -/
theorem Decodable.snoc (hl : Decodable num key l) (f : α)
    (hnum : ∀ p, l.getLast? = some p → num p < num f)
    (hlink : key f = false → ∃ p, l.getLast? = some p ∧ num p + 1 = num f) :
    Decodable num key (l ++ [f]) := by
  refine ⟨List.pairwise_append.mpr ⟨hl.increasing, List.pairwise_singleton _ _, ?_⟩, ?_⟩
  · intro a ha b hb
    rw [List.mem_singleton.mp hb]
    rcases hlast : l.getLast? with _ | p
    · rw [List.getLast?_eq_none_iff.mp hlast] at ha
      exact absurd ha List.not_mem_nil
    · exact lt_of_le_of_lt (le_last_of_increasing hl.increasing p hlast a ha) (hnum p hlast)
  · intro pre g post heq hg
    rcases List.eq_nil_or_concat post with rfl | ⟨init, z, rfl⟩
    · -- The frame asked about is the new one.
      rcases List.append_inj' heq rfl with ⟨rfl, hfg⟩
      rw [← (List.cons.inj hfg).1] at hg ⊢
      exact hlink hg
    · -- It is an older one, and the new frame is the last of `post`.
      rw [List.concat_eq_append, ← List.cons_append, ← List.append_assoc] at heq
      exact hl.linked pre g init (List.append_inj' heq rfl).1 hg

/-- The first frame of a decodable sequence is a keyframe. -/
theorem Decodable.head_key (hl : Decodable num key l) (f : α) (hf : l.head? = some f) :
    key f = true := by
  rcases List.head?_eq_some_iff.mp hf with ⟨post, heq⟩
  by_contra hkey
  rcases hl.linked [] f post heq (Bool.eq_false_iff.mpr hkey) with ⟨p, hp, _⟩
  exact absurd hp (by simp only [List.getLast?_nil, reduceCtorEq, not_false_eq_true])

end DecodeChain

end LoomHost
