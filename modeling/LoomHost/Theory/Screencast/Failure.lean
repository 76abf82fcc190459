import LoomHost.Theory.Screencast.Start

/-!
# What a Start Cannot Know

A failure after a format that fits is reported to nobody. It ends the capture thread
all the same, and the caller goes on with the frame it finds in the slot.

## Theorems

* `frozen`: What the caller finds when the capture thread has ended.
* `failure_untold`: A failure after the start.
-/

namespace LoomHost

namespace Screencast

open Capture Stream

section Results

variable {env : Env} {σ : State} {actions : List Action} {trace : List Event}

/-- When the capture thread has ended, the caller finds the same frame every time. -/
theorem frozen {σ' : State} {more : List Action} {later : List Event}
    (hended : σ.thread = .ended) (hreturned : σ.caller.returned = some (.ok ()))
    (hrun : Machine.exec (step env) σ more = some (σ', later)) :
    callbacks more = [] ∧ ∀ event ∈ later,
      event = .dropped ∨ ∃ dst r, fill σ.ud.slot dst = some r ∧ event = .filled r.1 r.2 := by
  have hkept := @Machine.exec_tracks _ _ _ _ (fun taken σ' later =>
    (σ'.thread = .ended ∧ σ'.ud = σ.ud ∧ σ'.caller.returned = some (.ok ())) ∧
      callbacks taken = [] ∧ ∀ event ∈ later,
        event = .dropped ∨ ∃ dst r, fill σ.ud.slot dst = some r ∧ event = .filled r.1 r.2)
    ?_ more [] _ _ [] _ ⟨⟨hended, rfl, hreturned⟩, rfl, by simp only [List.not_mem_nil, Prod.exists,
      Bool.exists_bool, IsEmpty.forall_iff, implies_true]⟩ hrun
  · exact hkept.2
  · intro taken τ trace a τ' events h hstep
    rcases h with ⟨⟨hended, hud, hreturned⟩, hcalled, hseen⟩
    rcases step_cases hstep with ⟨hmove, hquiet⟩ | ⟨hthread, -⟩
    · have hcallbacks : callbacks (taken ++ [a]) = [] := by
        unfold callbacks at hcalled ⊢
        rw [List.filterMap_append, hcalled]
        simp only [hquiet, List.filterMap_cons_none, List.filterMap_nil, List.append_nil]
      have hmore {event : Event} (hevent : event = .dropped ∨
          ∃ dst r, fill σ.ud.slot dst = some r ∧ event = .filled r.1 r.2) :
          ∀ e ∈ trace ++ [event],
            e = .dropped ∨ ∃ dst r, fill σ.ud.slot dst = some r ∧ e = .filled r.1 r.2 := by
        intro e hmem
        rcases List.mem_append.mp hmem with hmem | hmem
        · exact hseen e hmem
        · exact List.mem_singleton.mp hmem ▸ hevent
      cases caller_moves hmove with
      | dropped hcaller => exact ⟨⟨hended, hud, rfl⟩, hcallbacks, hmore (Or.inl rfl)⟩
      | filled hcaller hfill =>
        rw [hud] at hfill
        exact ⟨⟨hended, hud, hreturned⟩, hcallbacks, hmore (Or.inr ⟨_, _, hfill, rfl⟩)⟩
      | dropping hcaller =>
        refine ⟨⟨hended, hud, rfl⟩, hcallbacks, ?_⟩
        rwa [List.append_nil]
      | opened hcaller => rw [hcaller] at hreturned; cases hreturned
      | refused hcaller => rw [hcaller] at hreturned; cases hreturned
      | started hcaller => rw [hcaller] at hreturned; cases hreturned
      | told hcaller => rw [hcaller] at hreturned; cases hreturned
      | failed hcaller => rw [hcaller] at hreturned; cases hreturned
    · -- A thread that has ended takes no step.
      exfalso
      cases a <;> simp only [threadStep, reduceCtorEq, hended] at hthread

/-- A failure after the start is told to nobody. While the capture goes on, the main
    loop has been told to quit exactly if there was one; then it can return, and after
    that the library calls back no more and every `fill` gives the frame left in the
    slot, until the drop. -/
theorem failure_untold
    (hrun : Machine.exec (step env) (start env) actions = some (σ, trace))
    (hcapturing : σ.caller = .capturing) :
    (σ.quit = true ↔ Failed env.expected (callbacks actions)) ∧
      (σ.quit = true → σ.thread = .ended ∨ (step env σ .leave).isSome = true) ∧
      (σ.thread = .ended → ∀ more σ' later,
        Machine.exec (step env) σ more = some (σ', later) →
        callbacks more = [] ∧ ∀ event ∈ later,
          event = .dropped ∨ ∃ dst r, fill σ.ud.slot dst = some r ∧ event = .filled r.1 r.2) := by
  have hsnapshot := (snapshot_exec hrun).1
  generalize callbacks actions = called at hsnapshot ⊢
  refine ⟨?_, ?_, fun hended more σ' later hmore => ?_⟩
  · cases hsnapshot with
    | decided hud hopen hcalls hcalled htold hthread hfailed hquit =>
      -- The caller has been told of the success, and has not dropped the capture.
      cases htold <;> cases hcapturing
      exact ⟨fun h => (hquit h).resolve_right (by simp only [Bool.false_eq_true,
        not_false_eq_true]), hfailed⟩
    | aborted _ _ htold => cases htold <;> cases hcapturing
    | panicked _ _ hcaller => rcases hcaller with rfl | rfl | rfl <;> cases hcapturing
    | _ => cases hcapturing
  · intro hset
    cases hsnapshot with
    | decided hud hopen hcalls hcalled htold hthread =>
      -- The thread may still be in the loop, which then returns.
      rcases hthread with ⟨rfl, -⟩ | ⟨hended, -⟩
      · dsimp only at hset
        exact Or.inr (by simp only [step, threadStep, hset, ↓reduceIte, Option.map_some,
          Option.isSome_some])
      · exact Or.inl hended
    | _ => cases hset
  · exact frozen hended (by rw [hcapturing]; rfl) hmore

/-- A frame is captured, and then the stream fails. -/
def failing : List Action :=
  negotiated (2, 2) ++
    [.callback (.process (some [⟨8, 0, some (List.replicate 16 128)⟩])),
      .callback (.stateChanged (some "removed")), .leave]

theorem failure_untold_removed : ∃ σ trace,
    Machine.exec (step sampleEnv) (start sampleEnv) failing = some (σ, trace) ∧
    σ.caller = .capturing ∧ Failed sampleEnv.expected (callbacks failing) ∧
    ∀ more σ' later, Machine.exec (step sampleEnv) σ more = some (σ', later) →
      callbacks more = [] ∧ ∀ event ∈ later,
        event = .dropped ∨ ∃ dst r, fill σ.ud.slot dst = some r ∧ event = .filled r.1 r.2 := by
  have hrun : ∃ σ trace,
      Machine.exec (step sampleEnv) (start sampleEnv) failing = some (σ, trace) ∧
      σ.caller = .capturing ∧ σ.quit = true ∧ σ.thread = .ended :=
    ⟨_, _, rfl, rfl, rfl, rfl⟩
  rcases hrun with ⟨σ, trace, hrun, hcapturing, hquit, hended⟩
  have huntold := failure_untold hrun hcapturing
  exact ⟨σ, trace, hrun, hcapturing, huntold.1.mp hquit, huntold.2.2 hended⟩

end Results

end Screencast

end LoomHost
