import LoomHost.Lib.Machine

/-!
# A Slot That Shows the Latest Value

Values are written to a place and shown from it. The history of such a place is
fresh if whatever is shown is what was written last: then nothing is shown that was
not written, and no value comes back after a later one.

A machine has a fresh history if what it would show changes with a write, to the
value that is written, and with nothing else.

## Main definitions

* `Event`: A value is written, or shown.
* `last`: The value written last.
* `Fresh`: What is shown was written last.
* `Honest`: A step that writes what it says, and shows what there is.

## Theorems

* `fresh_concat`: One more event.
* `Honest.keeps`: An honest step keeps what is in view what was written last.
* `exec_fresh`: A run of honest steps has a fresh history.
-/

namespace LoomHost

namespace LatestValue

variable {V : Type*}

/-- An event of a history. A place without a value shows none. -/
inductive Event (V : Type*) where
  | wrote (v : V)
  | shown (v : Option V)

/-- The value in the place after one more event. -/
def put (held : Option V) : Event V → Option V
  | .wrote v => some v
  | .shown _ => held

/-- The value written last. -/
def last (history : List (Event V)) : Option V := history.foldl put none

theorem last_concat (history : List (Event V)) (e : Event V) :
    last (history ++ [e]) = put (last history) e :=
  List.foldl_concat _ _ _ _

/-- Whatever is shown was written, and nothing after it. -/
def Fresh (history : List (Event V)) : Prop :=
  ∀ before v after, history = before ++ .shown (some v) :: after → last before = some v

theorem fresh_nil : Fresh ([] : List (Event V)) := by
  intro before v after h
  exact absurd h.symm (List.append_ne_nil_of_right_ne_nil _ (List.cons_ne_nil _ _))

/-- One more event keeps a history fresh if it shows nothing, or what is there. -/
theorem fresh_concat {history : List (Event V)} {e : Event V} (h : Fresh history)
    (hshown : ∀ v, e = .shown (some v) → last history = some v) : Fresh (history ++ [e]) := by
  intro before v after hsplit
  rcases List.eq_nil_or_concat after with rfl | ⟨rest, e', rfl⟩
  · -- The event shown is the new one.
    rcases List.append_inj' hsplit rfl with ⟨rfl, he⟩
    exact hshown v (List.cons.inj he).1
  · refine h before v rest ?_
    have hcons : before ++ .shown (some v) :: (rest ++ [e']) =
        (before ++ .shown (some v) :: rest) ++ [e'] := by
      rw [List.append_assoc, List.cons_append]
    rw [List.concat_eq_append, hcons] at hsplit
    exact (List.append_inj' hsplit rfl).1

section Machine

variable {σ α : Type*} (view : σ → Option V)

/-- A step does nothing that shows, or writes a value that then is the one in view,
    or shows what is in view. -/
inductive Honest (s s' : σ) : List (Event V) → Prop
  | silent (hview : view s' = view s) : Honest s s' []
  | wrote (v : V) (hview : view s' = some v) : Honest s s' [.wrote v]
  | shown (hview : view s' = view s) : Honest s s' [.shown (view s)]

variable {view}

/-- What is in view stays what was written last. -/
theorem Honest.keeps {s s' : σ} {events history : List (Event V)} (h : Honest view s s' events)
    (hinv : view s = last history ∧ Fresh history) :
    view s' = last (history ++ events) ∧ Fresh (history ++ events) := by
  cases h with
  | silent hview => rw [List.append_nil, hview]; exact hinv
  | wrote v hview =>
      refine ⟨by rw [hview, last_concat]; rfl, fresh_concat hinv.2 ?_⟩
      intro v' hv'
      cases hv'
  | shown hview =>
      refine ⟨by rw [hview, last_concat]; exact hinv.1, fresh_concat hinv.2 ?_⟩
      intro v hv
      rw [← hinv.1]
      exact Event.shown.inj hv

/-- A run of honest steps keeps what is in view what was written last. -/
theorem exec_honest {step : σ → α → Option (σ × List (Event V))} (actions : List α) :
    ∀ {s s' : σ} {before history : List (Event V)},
      (∀ a ∈ actions, ∀ s s' events, step s a = some (s', events) → Honest view s s' events) →
      view s = last before ∧ Fresh before →
      Machine.exec step s actions = some (s', history) →
      view s' = last (before ++ history) ∧ Fresh (before ++ history) := by
  induction actions with
  | nil =>
      intro s s' before history _ hinv h
      rw [Machine.exec, Option.some.injEq, Prod.mk.injEq] at h
      rcases h with ⟨rfl, rfl⟩
      rwa [List.append_nil]
  | cons a actions ih =>
      intro s s' before history hhonest hinv h
      rcases Machine.exec_cons.mp h with ⟨t, events, rest, ha, hrest, rfl⟩
      -- What one step keeps, and then the rest of the run.
      have hstep := (hhonest a List.mem_cons_self s t events ha).keeps hinv
      have hrun := ih (fun a' hmem => hhonest a' (List.mem_cons_of_mem _ hmem)) hstep hrest
      rwa [List.append_assoc] at hrun

/-- A machine that starts with nothing in view has a fresh history in every run of
    honest steps. -/
theorem exec_fresh (view : σ → Option V) {step : σ → α → Option (σ × List (Event V))} {s s' : σ}
    {actions : List α} {history : List (Event V)} (hinit : view s = none)
    (hhonest : ∀ a ∈ actions, ∀ s s' events, step s a = some (s', events) →
      Honest view s s' events)
    (h : Machine.exec step s actions = some (s', history)) : Fresh history :=
  (exec_honest actions hhonest ⟨hinit, fresh_nil⟩ h).2

end Machine

end LatestValue

end LoomHost
