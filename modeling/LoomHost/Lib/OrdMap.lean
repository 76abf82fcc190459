import Std.Data.ExtTreeMap
import Mathlib.Data.Finset.Card

/-!
# Ordered Maps

Lookup and membership of the standard library's ordered map, with key
equality in place of the comparison, and the one operation it does not have:
a program that removes a list of keys does it key by key, and `eraseAll` is
that sweep, with the lookup and size of the map it leaves. The
keys of a map are also read as a finite set.

## Main definitions

* `eraseAll`: Remove the keys of a list, one after the other.
* `keySet`: The keys of a map as a finite set.

## Theorems

* `lookup_insert`, `lookup_erase`: Lookup after an insertion and an erasure.
* `mem_insert_iff`, `mem_erase_iff`: Membership after either.
* `getElem?_eraseAll`: Lookup after a sweep.
* `size_eraseAll`: A sweep of distinct keys of the map shrinks it by their
  number.
* `mem_keySet`, `card_keySet`: The key set has the map's members and size.
-/

namespace LoomHost

namespace OrdMap

variable {α β : Type*} [Ord α] [Std.TransOrd α] [Std.LawfulEqOrd α]

theorem lookup_insert [DecidableEq α] (m : Std.ExtTreeMap α β) (k x : α) (v : β) :
    (m.insert k v)[x]? = if x = k then some v else m[x]? := by
  rw [Std.ExtTreeMap.getElem?_insert]
  simp only [Std.LawfulEqOrd.compare_eq_iff_eq, @eq_comm _ k x]

theorem lookup_erase [DecidableEq α] (m : Std.ExtTreeMap α β) (k x : α) :
    (m.erase k)[x]? = if x = k then none else m[x]? := by
  rw [Std.ExtTreeMap.getElem?_erase]
  simp only [Std.LawfulEqOrd.compare_eq_iff_eq, @eq_comm _ k x]

theorem mem_insert_iff (m : Std.ExtTreeMap α β) (k x : α) (v : β) :
    x ∈ m.insert k v ↔ x = k ∨ x ∈ m := by
  rw [Std.ExtTreeMap.mem_insert, Std.LawfulEqOrd.compare_eq_iff_eq, eq_comm]

theorem mem_erase_iff (m : Std.ExtTreeMap α β) (k x : α) : x ∈ m.erase k ↔ x ≠ k ∧ x ∈ m := by
  rw [Std.ExtTreeMap.mem_erase, ne_eq, Std.LawfulEqOrd.compare_eq_iff_eq, ne_eq, eq_comm]

/-- Remove the keys of a list, one after the other. -/
def eraseAll (m : Std.ExtTreeMap α β) (ks : List α) : Std.ExtTreeMap α β :=
  ks.foldl (fun m k => m.erase k) m

theorem getElem?_eraseAll [DecidableEq α] (ks : List α) :
    ∀ (m : Std.ExtTreeMap α β) (k : α),
      (eraseAll m ks)[k]? = if k ∈ ks then none else m[k]? := by
  induction ks with
  | nil =>
      intro m k
      rw [if_neg (List.not_mem_nil)]
      rfl
  | cons j js ih =>
      intro m k
      have hfold : eraseAll m (j :: js) = eraseAll (m.erase j) js := rfl
      rw [hfold, ih, lookup_erase]
      by_cases hkj : k = j
      · simp only [hkj, List.mem_cons_self, if_true, ite_self]
      · simp only [List.mem_cons, hkj, false_or, if_false]

theorem size_eraseAll (ks : List α) :
    ∀ (m : Std.ExtTreeMap α β), ks.Nodup → (∀ k ∈ ks, k ∈ m) →
      (eraseAll m ks).size + ks.length = m.size := by
  induction ks with
  | nil => intro m _ _; rfl
  | cons j js ih =>
      intro m hnodup hmem
      rcases List.nodup_cons.mp hnodup with ⟨hj, hjs⟩
      have hfold : eraseAll m (j :: js) = eraseAll (m.erase j) js := rfl
      -- The keys are distinct, so the others are still there.
      have hmem' : ∀ k ∈ js, k ∈ m.erase j := by
        intro k hk
        rw [mem_erase_iff]
        refine ⟨?_, hmem k (List.mem_cons_of_mem _ hk)⟩
        rintro rfl
        exact hj hk
      have hjm : j ∈ m := hmem j List.mem_cons_self
      have hsize : (m.erase j).size = m.size - 1 := by
        rw [Std.ExtTreeMap.size_erase, if_pos (Std.ExtTreeMap.contains_iff_mem.mpr hjm)]
      have hpos : 0 < m.size := by
        rw [← Std.ExtTreeMap.length_keys]
        exact List.length_pos_of_mem (Std.ExtTreeMap.mem_keys.mpr hjm)
      have hrest := ih (m.erase j) hjs hmem'
      rw [hfold, List.length_cons]
      omega

theorem nodup_keys (m : Std.ExtTreeMap α β) : m.keys.Nodup := by
  refine Std.ExtTreeMap.distinct_keys.imp ?_
  rintro a b hab rfl
  exact hab Std.compare_self

/-- The keys of a map as a finite set. -/
def keySet [DecidableEq α] (m : Std.ExtTreeMap α β) : Finset α := m.keys.toFinset

theorem mem_keySet [DecidableEq α] (m : Std.ExtTreeMap α β) (k : α) : k ∈ keySet m ↔ k ∈ m := by
  rw [keySet, List.mem_toFinset, Std.ExtTreeMap.mem_keys]

theorem card_keySet [DecidableEq α] (m : Std.ExtTreeMap α β) : (keySet m).card = m.size := by
  rw [keySet, List.toFinset_card_of_nodup (nodup_keys m), Std.ExtTreeMap.length_keys]

end OrdMap

end LoomHost
