import Mathlib.Data.List.Basic

/-!
# Machines With a Trace

A machine is a step function on its states: an action is refused, or leads to a
state and leaves some events behind. A run is a list of actions, none of them
refused; its trace is what they leave behind, in order.

An invariant is about a state and the trace that led to it. It holds of the
first state with the empty trace, and every step keeps it.

## Main definitions

* `exec`: The state and the trace of a run.

## Theorems

* `exec_append`: A run in two parts.
* `exec_invariant`, `exec_tracks`: What every step keeps, every run keeps.
* `countP_concat`: The actions of a kind, counted along a run.
* `exec_map`: A machine that is another one, as far as it is in view.
-/

namespace LoomHost

namespace Machine

variable {σ α ε : Type*} (step : σ → α → Option (σ × List ε))

/-- The state and the trace of a run, or `none` if an action is refused. -/
def exec : σ → List α → Option (σ × List ε)
  | s, [] => some (s, [])
  | s, a :: actions =>
    match step s a with
    | some (s', events) =>
      match exec s' actions with
      | some (s'', trace) => some (s'', events ++ trace)
      | none => none
    | none => none

variable {step}

theorem exec_cons {s s'' : σ} {a : α} {actions : List α} {trace : List ε} :
    exec step s (a :: actions) = some (s'', trace) ↔
      ∃ s' events rest, step s a = some (s', events) ∧ exec step s' actions = some (s'', rest) ∧
        trace = events ++ rest := by
  rw [exec]
  constructor
  · intro h
    split at h
    · rename_i s' events hstep
      split at h
      · rename_i t rest hrest
        rw [Option.some.injEq, Prod.mk.injEq] at h
        exact ⟨s', events, rest, hstep, h.1 ▸ hrest, h.2.symm⟩
      · exact absurd h (by simp only [reduceCtorEq, not_false_eq_true])
    · exact absurd h (by simp only [reduceCtorEq, not_false_eq_true])
  · rintro ⟨s', events, rest, hstep, hrest, rfl⟩
    rw [hstep]
    dsimp only
    rw [hrest]

/-- A run in two parts. -/
theorem exec_append {p q : List α} : ∀ {s s'' : σ} {trace : List ε},
    exec step s (p ++ q) = some (s'', trace) ↔
      ∃ s' u v, exec step s p = some (s', u) ∧ exec step s' q = some (s'', v) ∧
        trace = u ++ v := by
  induction p with
  | nil =>
      intro s s'' trace
      constructor
      · exact fun h => ⟨s, [], trace, rfl, h, rfl⟩
      · rintro ⟨s', u, v, hp, hq, rfl⟩
        rw [exec, Option.some.injEq, Prod.mk.injEq] at hp
        rcases hp with ⟨rfl, rfl⟩
        exact hq
  | cons a p ih =>
      intro s s'' trace
      rw [List.cons_append, exec_cons]
      constructor
      · rintro ⟨s', events, rest, hstep, hrest, rfl⟩
        -- The first step belongs to the first part.
        rcases ih.mp hrest with ⟨t, u, v, hp, hq, rfl⟩
        exact ⟨t, events ++ u, v, exec_cons.mpr ⟨s', events, u, hstep, hp, rfl⟩, hq,
          (List.append_assoc _ _ _).symm⟩
      · rintro ⟨t, u, v, hp, hq, rfl⟩
        rcases exec_cons.mp hp with ⟨s', events, rest, hstep, hrest, rfl⟩
        exact ⟨s', events, rest ++ v, hstep, ih.mpr ⟨t, rest, v, hrest, hq, rfl⟩,
          List.append_assoc _ _ _⟩

/-- What every step keeps, every run keeps. -/
theorem exec_keeps (Inv : σ → List ε → Prop)
    (hstep : ∀ s trace a s' events, Inv s trace → step s a = some (s', events) →
      Inv s' (trace ++ events)) (actions : List α) :
    ∀ {s s' : σ} {before trace : List ε}, Inv s before → exec step s actions = some (s', trace) →
      Inv s' (before ++ trace) := by
  induction actions with
  | nil =>
      intro s s' before trace hinv h
      rw [exec, Option.some.injEq, Prod.mk.injEq] at h
      rcases h with ⟨rfl, rfl⟩
      rwa [List.append_nil]
  | cons a actions ih =>
      intro s s' before trace hinv h
      rcases exec_cons.mp h with ⟨t, events, rest, ha, hrest, rfl⟩
      have hrun := ih (hstep s before a t events hinv ha) hrest
      rwa [List.append_assoc] at hrun

/-- What holds of the first state and is kept by every step holds of every state
    reached. -/
theorem exec_invariant (Inv : σ → List ε → Prop) {s s' : σ} {actions : List α} {trace : List ε}
    (hinit : Inv s [])
    (hstep : ∀ s trace a s' events, Inv s trace → step s a = some (s', events) →
      Inv s' (trace ++ events)) (h : exec step s actions = some (s', trace)) : Inv s' trace :=
  exec_keeps Inv hstep actions hinit h

/-- The same with the actions taken so far. -/
theorem exec_tracks (Inv : List α → σ → List ε → Prop)
    (hstep : ∀ taken s trace a s' events, Inv taken s trace → step s a = some (s', events) →
      Inv (taken ++ [a]) s' (trace ++ events)) (actions : List α) :
    ∀ {taken : List α} {s s' : σ} {before trace : List ε}, Inv taken s before →
      exec step s actions = some (s', trace) → Inv (taken ++ actions) s' (before ++ trace) := by
  induction actions with
  | nil =>
      intro taken s s' before trace hinv h
      rw [exec, Option.some.injEq, Prod.mk.injEq] at h
      rcases h with ⟨rfl, rfl⟩
      rwa [List.append_nil, List.append_nil]
  | cons a actions ih =>
      intro taken s s' before trace hinv h
      rcases exec_cons.mp h with ⟨t, events, rest, ha, hrest, rfl⟩
      have hrun := ih (hstep taken s before a t events hinv ha) hrest
      rwa [List.append_assoc, List.append_assoc] at hrun

/-- The actions of a kind, one action later. -/
theorem countP_concat (p : α → Bool) (actions : List α) (a : α) :
    (actions ++ [a]).countP p = actions.countP p + (p a).toNat := by
  rw [List.countP_append, List.countP_singleton]
  cases p a <;> rfl

/-- A machine and a view of its states: if each step is one of another machine on what
    is in view, so is each run. -/
theorem exec_map {τ : Type*} {step' : τ → α → Option (τ × List ε)} (view : σ → τ) (Inv : σ → Prop)
    (hstep : ∀ s a, Inv s → (step s a).map (fun r => (view r.1, r.2)) = step' (view s) a)
    (hkeep : ∀ s a s' events, Inv s → step s a = some (s', events) → Inv s')
    (actions : List α) : ∀ {s : σ}, Inv s →
      (exec step s actions).map (fun r => (view r.1, r.2)) = exec step' (view s) actions := by
  induction actions with
  | nil => exact fun _ => rfl
  | cons a actions ih =>
      intro s hinv
      -- The view of a step is the step of the view, on states where the invariant holds.
      have hview := hstep s a hinv
      rw [exec, exec, ← hview]
      cases ha : step s a with
      | none => rfl
      | some r =>
          have hrest := ih (hkeep s a r.1 r.2 hinv ha)
          rw [Option.map_some]
          dsimp only
          rw [← hrest]
          cases exec step r.1 actions <;> rfl

end Machine

end LoomHost
