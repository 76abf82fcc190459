import Mathlib.Data.List.Basic

/-!
# Length-Prefixed Units

A string of units, each a field of fixed width that says how many symbols
follow it, and then that many. No unit is empty. The field is read by any
function of its symbols, so the alphabet and the byte order are open.

Such a string has one reading: every unit ends where its field says, and the
next begins there.

## Main definitions

* `Units`: A string and the bodies of its units.

## Theorems

* `Units.cases_of_ne_nil`: The first unit of a string that is not empty.
* `Units.unique`: A string is read in one way only.
* `units_of_fields`: Bodies behind fields that hold their lengths are units.
-/

namespace LoomHost

namespace LengthPrefixed

variable {α : Type*} (width : ℕ) (value : List α → ℕ)

/-- A string of units: a field of `width` symbols, and then as many symbols as
    the field says, at least one. -/
inductive Units : List α → List (List α) → Prop
  | nil : Units [] []
  | cons (field body rest : List α) (bodies : List (List α)) (hfield : field.length = width)
      (hvalue : value field = body.length) (hbody : 0 < body.length) (hrest : Units rest bodies) :
      Units (field ++ (body ++ rest)) (body :: bodies)

variable {width value}

/-- A string that is not empty starts with a unit. -/
theorem Units.cases_of_ne_nil {src : List α} {bodies : List (List α)}
    (h : Units width value src bodies) (hne : src ≠ []) :
    ∃ field body rest tail, src = field ++ (body ++ rest) ∧ bodies = body :: tail ∧
      field.length = width ∧ value field = body.length ∧ 0 < body.length ∧
      Units width value rest tail := by
  cases h with
  | nil => exact absurd rfl hne
  | cons field body rest tail hfield hvalue hbody hrest =>
      exact ⟨field, body, rest, tail, rfl, rfl, hfield, hvalue, hbody, hrest⟩

theorem Units.eq_nil {bodies : List (List α)} (h : Units width value [] bodies) : bodies = [] := by
  generalize hsrc : ([] : List α) = src at h
  cases h with
  | nil => rfl
  | cons field body rest tail hfield hvalue hbody hrest =>
      have hlen := congrArg List.length hsrc
      simp only [List.length_nil, List.length_append] at hlen
      omega

/-- A string is read in one way only. -/
theorem Units.unique {src : List α} {bodies : List (List α)} (h : Units width value src bodies) :
    ∀ bodies', Units width value src bodies' → bodies' = bodies := by
  induction h with
  | nil => exact fun bodies' h' => h'.eq_nil
  | cons field body rest bodies hfield hvalue hbody hrest ih =>
      intro bodies' h'
      have hne : field ++ (body ++ rest) ≠ [] := by
        intro hnil
        have hlen := congrArg List.length hnil
        simp only [List.length_nil, List.length_append] at hlen
        omega
      rcases h'.cases_of_ne_nil hne with
        ⟨field', body', rest', tail', hsrc, rfl, hfield', hvalue', _, hrest'⟩
      -- The fields have one width, so they agree, and so do the lengths they hold.
      rcases List.append_inj hsrc (hfield.trans hfield'.symm) with ⟨rfl, hbodies⟩
      rcases List.append_inj hbodies (hvalue.symm.trans hvalue') with ⟨rfl, rfl⟩
      rw [ih tail' hrest']

/-- Bodies behind fields that hold their lengths are units. -/
theorem units_of_fields (field : ℕ → List α) :
    ∀ bodies : List (List α), (∀ body ∈ bodies, (field body.length).length = width ∧
        value (field body.length) = body.length ∧ 0 < body.length) →
      Units width value (bodies.flatMap fun body => field body.length ++ body) bodies := by
  intro bodies
  induction bodies with
  | nil => exact fun _ => Units.nil
  | cons body rest ih =>
      intro hall
      rcases hall body List.mem_cons_self with ⟨hfield, hvalue, hbody⟩
      rw [List.flatMap_cons, List.append_assoc]
      exact Units.cons _ _ _ _ hfield hvalue hbody
        (ih fun body' hmem => hall body' (List.mem_cons_of_mem _ hmem))

end LengthPrefixed

end LoomHost
