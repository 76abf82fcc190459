import Mathlib.Data.List.DropRight

/-!
# Fields of a Line

A line is split at a separator into fields, and what is padding at the ends of a
field is stripped. If the separator is no padding, it makes no difference to the
fields whether the line is stripped as a whole before.

## Main definitions

* `strip`: Without the padding at both ends.

## Theorems

* `exists_padding`: What is stripped is padding.
* `strip_padded`: Padding is stripped.
* `map_strip_splitOn`: Stripping a line, then its fields.
-/

namespace LoomHost

namespace Fields

variable {α : Type*} (p : α → Bool)

/-- Without the elements at both ends that are padding. -/
def strip (l : List α) : List α := (l.dropWhile p).rdropWhile p

variable {p}

/-- What is stripped is padding. -/
theorem exists_padding (l : List α) : ∃ before after : List α,
    (∀ a ∈ before, p a = true) ∧ (∀ a ∈ after, p a = true) ∧
      l = before ++ strip p l ++ after := by
  refine ⟨l.takeWhile p, (l.dropWhile p).rtakeWhile p, fun a => List.mem_takeWhile_imp,
    fun a => List.mem_rtakeWhile_imp, ?_⟩
  rw [strip, List.append_assoc, List.rdropWhile_append_rtakeWhile, List.takeWhile_append_dropWhile]

/-- Padding is stripped off what has none. -/
theorem strip_padded {before l after : List α} (hbefore : ∀ a ∈ before, p a = true)
    (hl : ∀ a ∈ l, p a = false) (hafter : ∀ a ∈ after, p a = true) :
    strip p (before ++ l ++ after) = l := by
  have hright : (l ++ after).rdropWhile p = l := by
    rw [List.rdropWhile, List.reverse_append,
      List.dropWhile_append_of_pos (fun a ha => hafter a (List.mem_reverse.mp ha))]
    cases hrev : l.reverse with
    | nil => exact (List.reverse_eq_nil_iff.mp hrev).symm
    | cons a rest =>
      have ha : p a = false := hl a (List.mem_reverse.mp (hrev ▸ List.mem_cons_self))
      rw [List.dropWhile_cons_of_neg (Bool.not_eq_true _ ▸ ha), ← hrev, List.reverse_reverse]
  rw [strip, List.append_assoc, List.dropWhile_append_of_pos hbefore]
  cases l with
  | nil =>
    have hnone : after.dropWhile p = [] := List.dropWhile_eq_nil_iff.mpr hafter
    rw [List.nil_append, hnone]
    rfl
  | cons a rest =>
    have ha : p a = false := hl a List.mem_cons_self
    rw [List.cons_append, List.dropWhile_cons_of_neg (ne_true_of_eq_false ha)]
    exact hright

theorem strip_eq_nil_iff {l : List α} : strip p l = [] ↔ ∀ a ∈ l, p a = true := by
  constructor
  · intro h
    rcases exists_padding l with ⟨before, after, hbefore, hafter, hl⟩
    intro a ha
    rw [hl, h, List.append_nil] at ha
    exact (List.mem_append.mp ha).elim (hbefore a) (hafter a)
  · intro h
    rw [strip, List.dropWhile_eq_nil_iff.mpr h]
    rfl

section Separator

variable {x : α}

/-- Padding before a separator. -/
theorem dropWhile_append_cons (hx : p x = false) (l rest : List α) :
    (l ++ x :: rest).dropWhile p = l.dropWhile p ++ x :: rest := by
  rw [List.dropWhile_append]
  split
  · rename_i hnil
    rw [List.isEmpty_iff.mp hnil, List.dropWhile_cons_of_neg (ne_true_of_eq_false hx),
      List.nil_append]
  · rfl

/-- Padding after a separator. -/
theorem rdropWhile_append_cons (hx : p x = false) (l rest : List α) :
    (l ++ x :: rest).rdropWhile p = l ++ x :: rest.rdropWhile p := by
  unfold List.rdropWhile
  rw [List.reverse_append, List.reverse_cons, List.append_assoc, List.singleton_append,
    dropWhile_append_cons hx, List.reverse_append, List.reverse_cons, List.reverse_reverse,
    List.append_assoc, List.singleton_append]

theorem strip_append_cons (hx : p x = false) (l rest : List α) :
    strip p (l ++ x :: rest) = l.dropWhile p ++ x :: rest.rdropWhile p := by
  rw [strip, dropWhile_append_cons hx, rdropWhile_append_cons hx]

theorem strip_dropWhile (l : List α) : strip p (l.dropWhile p) = strip p l := by
  rw [strip, List.dropWhile_idempotent, strip]

theorem strip_rdropWhile (l : List α) : strip p (l.rdropWhile p) = strip p l := by
  by_cases hall : ∀ a ∈ l, p a = true
  · rw [List.rdropWhile_eq_nil_iff.mpr hall, strip_eq_nil_iff.mpr hall]
    rfl
  · -- Some element is no padding, and the two ends are on either side of it.
    push Not at hall
    rcases hall with ⟨a, ha, hpa⟩
    rcases List.append_of_mem ha with ⟨s, t, rfl⟩
    have hpa : p a = false := eq_false_of_ne_true hpa
    rw [rdropWhile_append_cons hpa, strip_append_cons hpa, strip_append_cons hpa,
      List.rdropWhile_idempotent]

theorem strip_strip (l : List α) : strip p (strip p l) = strip p l := by
  have h := strip_rdropWhile (p := p) (l.dropWhile p)
  rwa [strip_dropWhile] at h

variable [BEq α] [LawfulBEq α]

/-- The fields of a line whose end has been stripped. -/
theorem map_strip_splitOn_right (hx : p x = false) (n : ℕ) : ∀ l : List α, l.length = n →
    ((l.rdropWhile p).splitOn x).map (strip p) = (l.splitOn x).map (strip p) := by
  induction n using Nat.strong_induction_on with
  | _ n ih =>
    intro l hlength
    by_cases hmem : x ∈ l
    · -- The first field is as before.
      rcases List.eq_append_cons_of_mem hmem with ⟨field, rest, rfl, hfield⟩
      have hless : rest.length < n := by
        rw [← hlength, List.length_append, List.length_cons]
        omega
      rw [rdropWhile_append_cons hx, List.splitOn_append_cons_self_of_not_mem hfield,
        List.splitOn_append_cons_self_of_not_mem hfield, List.map_cons, List.map_cons,
        ih _ hless rest rfl]
    · have hmem' : x ∉ l.rdropWhile p := fun h => hmem ((List.rdropWhile_prefix p l).mem h)
      rw [List.splitOn_eq_singleton hmem, List.splitOn_eq_singleton hmem', List.map_singleton,
        List.map_singleton, strip_rdropWhile]

/-- The fields of a line that has been stripped. -/
theorem map_strip_splitOn (hx : p x = false) (l : List α) :
    ((strip p l).splitOn x).map (strip p) = (l.splitOn x).map (strip p) := by
  by_cases hmem : x ∈ l
  · rcases List.eq_append_cons_of_mem hmem with ⟨field, rest, rfl, hfield⟩
    have hfield' : x ∉ field.dropWhile p := fun h => hfield ((List.dropWhile_suffix p).mem h)
    rw [strip_append_cons hx, List.splitOn_append_cons_self_of_not_mem hfield',
      List.splitOn_append_cons_self_of_not_mem hfield, List.map_cons, List.map_cons,
      strip_dropWhile, map_strip_splitOn_right hx _ rest rfl]
  · have hmem' : x ∉ strip p l := fun h =>
      hmem ((List.dropWhile_suffix p).mem ((List.rdropWhile_prefix p _).mem h))
    rw [List.splitOn_eq_singleton hmem, List.splitOn_eq_singleton hmem', List.map_singleton,
      List.map_singleton, strip_strip]

end Separator

end Fields

end LoomHost
