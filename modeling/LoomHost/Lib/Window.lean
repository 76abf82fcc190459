import Mathlib.Data.Finset.Card
import Mathlib.Logic.Relation
import Mathlib.Order.UpperLower.Principal

/-!
# Bounded In-Flight Windows

A window over a linear order holds at most `cap` keys in flight and a lower
set of keys that are done. A new key enters if there is room, or takes the
place of the oldest one if it is newer; completing a key makes everything at
or below it done. This is how a receiver that must not hold unbounded state
forgets old work.

Nothing in the transitions says that a key which was pushed out of the window
stays out: there may be room again when it returns. What keeps it out is
`Shut`. A key is shut when it is done, or when the window is full of newer
keys, and no transition opens a shut key again: a full window only ever
exchanges its oldest key for a newer one, and it gets room only by completing
a key above the shut one. `Step.shut` is that argument and `Step.shut_of_left`
says that leaving the window is being shut.

## Main definitions

* `Slots`: The keys in flight and the keys done.
* `Step`: Admission, replacement of the oldest, completion.
* `Shut`: The keys no later step admits.
* `Wf`: The window is within its capacity and holds no key that is done.
* `Settled`: A key in flight or shut.

## Theorems

* `Step.wf`: A step keeps the window well formed.
* `Step.shut`: A shut key stays shut.
* `Step.shut_of_left`: A key that leaves the window is shut.
* `settled_of_reaches`: A settled key stays settled along a path.
* `shut_of_reaches`: A shut key stays shut along a path.
* `shut_of_reaches_left`: A key in flight at one end of a path and not at the
  other is shut.
-/

namespace LoomHost

namespace Window

variable {κ : Type*} [LinearOrder κ]

/-- The keys in flight, and the keys that are done. -/
@[ext]
structure Slots (κ : Type*) [LinearOrder κ] where
  live : Finset κ
  done : LowerSet κ

/-- What may happen to a window of capacity `cap`. -/
inductive Step (cap : ℕ) : Slots κ → Slots κ → Prop
  | enter (w : Slots κ) (k : κ) (hlive : k ∉ w.live) (hdone : k ∉ w.done)
      (hroom : w.live.card < cap) :
      Step cap w { w with live := insert k w.live }
  | replace (w : Slots κ) (old k : κ) (hlive : k ∉ w.live) (hdone : k ∉ w.done)
      (hold : old ∈ w.live) (hmin : ∀ x ∈ w.live, old ≤ x) (hfull : cap ≤ w.live.card)
      (hlt : old < k) :
      Step cap w { w with live := insert k (w.live.erase old) }
  | complete (w : Slots κ) (k : κ) (hlive : k ∈ w.live) :
      Step cap w { live := w.live.filter (k < ·), done := w.done ⊔ LowerSet.Iic k }

/-- A path of steps. -/
abbrev Reaches (cap : ℕ) : Slots κ → Slots κ → Prop :=
  Relation.ReflTransGen (Step cap)

/-- A key that is done, or older than everything in a full window. -/
def Shut (cap : ℕ) (w : Slots κ) (k : κ) : Prop :=
  k ∈ w.done ∨ (cap ≤ w.live.card ∧ ∀ x ∈ w.live, k < x)

/-- A key in flight or shut: one the window will never enter as new. -/
def Settled (cap : ℕ) (w : Slots κ) (k : κ) : Prop :=
  k ∈ w.live ∨ Shut cap w k

/-- The window is within its capacity and holds no key that is done. -/
structure Wf (cap : ℕ) (w : Slots κ) : Prop where
  bounded : w.live.card ≤ cap
  fresh : ∀ x ∈ w.live, x ∉ w.done

theorem Shut.not_live {cap : ℕ} {w : Slots κ} {k : κ} (hw : Wf cap w) (hs : Shut cap w k) :
    k ∉ w.live := by
  intro hk
  rcases hs with hdone | ⟨_, hold⟩
  · exact hw.fresh k hk hdone
  · exact lt_irrefl k (hold k hk)

theorem Step.wf {cap : ℕ} {w w' : Slots κ} (h : Step cap w w') (hw : Wf cap w) : Wf cap w' := by
  cases h with
  | enter k hlive hdone hroom =>
      refine ⟨?_, fun x hx => ?_⟩
      · -- There was room for one more.
        rw [Finset.card_insert_of_notMem hlive]
        exact hroom
      · rcases Finset.mem_insert.mp hx with rfl | hx
        · exact hdone
        · exact hw.fresh x hx
  | replace old k hlive hdone hold hmin hfull hlt =>
      refine ⟨?_, fun x hx => ?_⟩
      · -- One left for the one that came.
        have hcard := Finset.card_insert_le k (w.live.erase old)
        rw [Finset.card_erase_add_one hold] at hcard
        exact le_trans hcard hw.bounded
      · rcases Finset.mem_insert.mp hx with rfl | hx
        · exact hdone
        · exact hw.fresh x (Finset.mem_of_mem_erase hx)
  | complete k hlive =>
      refine ⟨le_trans (Finset.card_filter_le _ _) hw.bounded, fun x hx => ?_⟩
      rcases Finset.mem_filter.mp hx with ⟨hx, hkx⟩
      rintro (hdone | hle)
      · exact hw.fresh x hx hdone
      · exact absurd hkx (not_lt_of_ge hle)

/-- No step opens a shut key: a full window of newer keys stays full of newer
    keys until one of them completes, and that puts the key below the done
    set. -/
theorem Step.shut {cap : ℕ} {w w' : Slots κ} (h : Step cap w w') {k : κ} (hs : Shut cap w k) :
    Shut cap w' k := by
  cases h with
  | enter j hlive hdone hroom =>
      rcases hs with hk | ⟨hfull, _⟩
      · exact Or.inl hk
      · -- A full window has no room.
        exact absurd hroom (not_lt_of_ge hfull)
  | replace old j hlive hdone hold hmin hfull hlt =>
      rcases hs with hk | ⟨hfull', hnewer⟩
      · exact Or.inl hk
      · refine Or.inr ⟨?_, fun x hx => ?_⟩
        · have hj : j ∉ w.live.erase old := fun hj => hlive (Finset.mem_of_mem_erase hj)
          rw [Finset.card_insert_of_notMem hj, Finset.card_erase_add_one hold]
          exact hfull'
        · rcases Finset.mem_insert.mp hx with rfl | hx
          · exact lt_trans (hnewer old hold) hlt
          · exact hnewer x (Finset.mem_of_mem_erase hx)
  | complete j hlive =>
      rcases hs with hk | ⟨_, hnewer⟩
      · exact Or.inl (Or.inl hk)
      · exact Or.inl (Or.inr (le_of_lt (hnewer j hlive)))

/-- A key leaves the window by completing, by being swept at or below a
    completed one, or by making way as the oldest of a full window. Each of
    the three shuts it. -/
theorem Step.shut_of_left {cap : ℕ} {w w' : Slots κ} (h : Step cap w w') {k : κ}
    (hk : k ∈ w.live) (hk' : k ∉ w'.live) : Shut cap w' k := by
  cases h with
  | enter j hlive hdone hroom =>
      exact absurd (Finset.mem_insert_of_mem hk) hk'
  | replace old j hlive hdone hold hmin hfull hlt =>
      -- Only the oldest left, and all that stay are newer.
      have hkold : k = old := by
        by_contra hne
        exact hk' (Finset.mem_insert_of_mem (Finset.mem_erase.mpr ⟨hne, hk⟩))
      subst hkold
      refine Or.inr ⟨?_, fun x hx => ?_⟩
      · have hj : j ∉ w.live.erase k := fun hj => hlive (Finset.mem_of_mem_erase hj)
        rw [Finset.card_insert_of_notMem hj, Finset.card_erase_add_one hold]
        exact hfull
      · rcases Finset.mem_insert.mp hx with rfl | hx
        · exact hlt
        · rcases Finset.mem_erase.mp hx with ⟨hne, hx⟩
          exact lt_of_le_of_ne (hmin x hx) (Ne.symm hne)
  | complete j hlive =>
      refine Or.inl (Or.inr ?_)
      by_contra hle
      exact hk' (Finset.mem_filter.mpr ⟨hk, lt_of_not_ge hle⟩)

theorem wf_of_reaches {cap : ℕ} {w w' : Slots κ} (h : Reaches cap w w') (hw : Wf cap w) :
    Wf cap w' := by
  induction h with
  | refl => exact hw
  | tail _ hstep ih => exact hstep.wf ih

theorem shut_of_reaches {cap : ℕ} {w w' : Slots κ} (h : Reaches cap w w') {k : κ}
    (hs : Shut cap w k) : Shut cap w' k := by
  induction h with
  | refl => exact hs
  | tail _ hstep ih => exact hstep.shut ih

theorem settled_of_reaches {cap : ℕ} {w w' : Slots κ} (h : Reaches cap w w') {k : κ}
    (hs : Settled cap w k) : Settled cap w' k := by
  induction h with
  | refl => exact hs
  | @tail b c _ hstep ih =>
      rcases ih with hk | hshut
      · by_cases hk' : k ∈ c.live
        · exact Or.inl hk'
        · exact Or.inr (hstep.shut_of_left hk hk')
      · exact Or.inr (hstep.shut hshut)

/-- A key in flight at the start of a path and not at its end left somewhere
    on the way, and has been shut since. -/
theorem shut_of_reaches_left {cap : ℕ} {w w' : Slots κ} (h : Reaches cap w w') {k : κ}
    (hk : k ∈ w.live) (hk' : k ∉ w'.live) : Shut cap w' k := by
  rcases settled_of_reaches h (Or.inl hk) with hlive | hshut
  · exact absurd hlive hk'
  · exact hshut

end Window

end LoomHost
