import Mathlib.Data.List.Forall2
import LoomHost.Lib.Machine

/-!
# Devices That Hold Back

A device takes one item with each action and gives back what it makes of its
items, in the order it has taken them. It may hold items back for as long as it
likes. What it holds is a ghost: a list of items for each of its states.

The law of one step is a balance: what the device held, and the item it has
taken, are what it has worked off and what it holds then. The same balance holds
over a run, so what comes out is made of the first items that went in, one of
each.

## Main definitions

* `taken`: The items of a run.
* `Delays`: The balance of one step.

## Theorems

* `Delays.exec`: The balance of a run.
* `Delays.outputs`: Out of an empty device, the first items come first.
* `Delays.prompt`: A device that never holds anything answers every item.
-/

namespace LoomHost

namespace Delay

variable {σ α ε ι : Type*} (step : σ → α → Option (σ × List ε)) (item : σ → α → ι)

/-- The items a device takes in a run. -/
def taken : σ → List α → List ι
  | _, [] => []
  | s, a :: actions =>
    item s a ::
      match step s a with
      | some (s', _) => taken s' actions
      | none => []

/-- What a device held, and the item it takes, are what it works off and what it
    holds then. -/
def Delays (held : σ → List ι) (makes : ι → ε → Prop) : Prop :=
  ∀ s a s' events, step s a = some (s', events) →
    ∃ done, held s ++ [item s a] = done ++ held s' ∧ List.Forall₂ makes done events

variable {step item} {held : σ → List ι} {makes : ι → ε → Prop}

/-- The balance of a run. -/
theorem Delays.exec (h : Delays step item held makes) (actions : List α) :
    ∀ {s s' : σ} {trace : List ε}, Machine.exec step s actions = some (s', trace) →
      ∃ done, held s ++ taken step item s actions = done ++ held s' ∧
        List.Forall₂ makes done trace := by
  induction actions with
  | nil =>
      intro s s' trace hrun
      cases hrun
      exact ⟨[], by rw [taken, List.append_nil, List.nil_append], List.Forall₂.nil⟩
  | cons a actions ih =>
      intro s s' trace hrun
      rcases Machine.exec_cons.mp hrun with ⟨s₁, events, rest, hstep, hrest, rfl⟩
      rcases h s a s₁ events hstep with ⟨first, hfirst, hmade⟩
      rcases ih hrest with ⟨later, hlater, hmade'⟩
      refine ⟨first ++ later, ?_, List.rel_append hmade hmade'⟩
      calc held s ++ taken step item s (a :: actions)
          = held s ++ [item s a] ++ taken step item s₁ actions := by
            rw [taken, hstep, List.append_assoc, List.singleton_append]
        _ = first ++ (held s₁ ++ taken step item s₁ actions) := by
            rw [hfirst, List.append_assoc]
        _ = first ++ later ++ held s' := by
            rw [hlater, List.append_assoc]

/-- What comes out of a device that was empty is made of the items that went in
    first, and the others are held. -/
theorem Delays.outputs (h : Delays step item held makes) {s s' : σ} {actions : List α}
    {trace : List ε} (hempty : held s = [])
    (hrun : Machine.exec step s actions = some (s', trace)) :
    List.Forall₂ makes ((taken step item s actions).take trace.length) trace ∧
      held s' = (taken step item s actions).drop trace.length ∧
      trace.length + (held s').length = (taken step item s actions).length := by
  rcases h.exec actions hrun with ⟨done, hbalance, hmade⟩
  rw [hempty, List.nil_append] at hbalance
  rw [hbalance, ← hmade.length_eq, List.take_left, List.drop_left, List.length_append]
  exact ⟨hmade, rfl, rfl⟩

/-- A device that never holds anything makes one thing of every item. -/
theorem Delays.prompt (h : Delays step item held makes) (hnever : ∀ s, held s = []) {s s' : σ}
    {a : α} {events : List ε} (hstep : step s a = some (s', events)) :
    ∃ e, events = [e] ∧ makes (item s a) e := by
  rcases h s a s' events hstep with ⟨done, hbalance, hmade⟩
  rw [hnever, hnever, List.nil_append, List.append_nil] at hbalance
  rw [← hbalance] at hmade
  rcases List.forall₂_cons_left_iff.mp hmade with ⟨e, rest, hmakes, hrest, rfl⟩
  rw [List.forall₂_nil_left_iff.mp hrest]
  exact ⟨e, rfl, hmakes⟩

end Delay

end LoomHost
