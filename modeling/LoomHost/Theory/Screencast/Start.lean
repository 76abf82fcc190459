import LoomHost.Theory.Screencast.Snapshot

/-!
# What a Start Returns

The result of a start is a function of the calls it makes and of what PipeWire calls
back. Whatever comes after the first report changes nothing about it, and while
nothing of the kind comes the start waits.

## Main definitions

* `CallerMoves`: The steps of the caller.
* `ahead`: The steps that the two threads have before them.

## Theorems

* `outcome_ne_aborted`, `outcome_ok`: The results that are possible.
* `caller_moves`: What a step of the caller does.
* `Snapshot.goes_on`, `Snapshot.ahead_step`: A step can be taken, and there are not many.
* `snapshot_exec`: The states of every run.
* `start_decided`: The result of a start, and when it comes.
-/

namespace LoomHost

namespace Screencast

open Capture Stream

section Runs

variable {env : Env} {called : List Callback} {σ σ' : State} {a : Action}

/-- The result that has been returned is the one that is decided. -/
theorem Snapshot.outcome_eq {r : Except StartError Unit} (h : Snapshot env called σ)
    (hreturned : σ.caller.returned = some r) : outcome env called = some r := by
  cases h with
  | starting => cases hreturned
  | settingUp => cases hreturned
  | undecided => cases hreturned
  | refused hopen =>
    -- The capture was refused before a thread was there.
    rw [outcome, hopen]
    exact hreturned
  | aborted hopen hcalls htold =>
    rw [outcome, hopen]
    -- A call has failed, and the caller has been told so.
    simp only [hcalls]
    cases htold with
    | pending => cases hreturned
    | joining => cases hreturned
    | failed => exact hreturned
  | panicked hopen hcalls hcaller =>
    rw [outcome, hopen]
    -- A call has panicked, and the caller finds the sender gone.
    simp only [hcalls]
    rcases hcaller with rfl | rfl | rfl
    · cases hreturned
    · cases hreturned
    · exact hreturned
  | decided hud hopen hcalls hcalled htold =>
    rw [outcome, hopen]
    -- The first report decides, whatever has become of the capture.
    simp only [hcalls, hcalled]
    cases htold with
    | pending => cases hreturned
    | joining => cases hreturned
    | failed => exact hreturned
    | capturing => exact hreturned
    | dropping => exact hreturned
    | dropped => exact hreturned

theorem mapError_ne_aborted {ε α : Type} (x : Except ε α) {f : ε → StartError}
    (h : ∀ e, f e ≠ .StartupAborted) : x.mapError f ≠ .error .StartupAborted := by
  cases x with
  | error e =>
    intro hx
    exact h e (Except.error.inj hx)
  | ok a =>
    intro hx
    cases hx

theorem bind_ne_aborted {α β : Type} {x : Except StartError α} {f : α → Except StartError β}
    (hx : x ≠ .error .StartupAborted) (hf : ∀ a, f a ≠ .error .StartupAborted) :
    (x >>= f) ≠ .error .StartupAborted := by
  cases x with
  | error e =>
    intro h
    exact hx (congrArg Except.error (Except.error.inj h))
  | ok a => exact hf a

/-- Nothing before the capture thread fails in that way. -/
theorem openCapture_ne_aborted : openCapture env ≠ .error .StartupAborted := by
  have hportal {α : Type} (x : Except String α) : portal x ≠ .error .StartupAborted :=
    mapError_ne_aborted x nofun
  refine bind_ne_aborted (mapError_ne_aborted _ nofun) fun _ => ?_
  refine bind_ne_aborted ?_ fun node => ?_
  · -- The calls to the portal.
    unfold openScreencast
    refine bind_ne_aborted (hportal _) fun _ => bind_ne_aborted (hportal _) fun _ =>
      bind_ne_aborted (hportal _) fun _ => bind_ne_aborted (hportal _) fun _ =>
      bind_ne_aborted (hportal _) fun _ => bind_ne_aborted (hportal _) fun streams => ?_
    cases streams with
    | nil => exact nofun
    | cons nodeId _ => exact bind_ne_aborted (hportal _) fun _ => nofun
  · exact bind_ne_aborted (mapError_ne_aborted _ nofun) fun _ => nofun

/-- What the capture thread will call, if it is spawned. -/
theorem calls_of_open {calls : List SetupCall} (h : openCapture env = .ok calls) :
    ∃ fd nodeId, calls = setupCalls env fd nodeId := by
  have hbind {α β : Type} {x : Except StartError α} {f : α → Except StartError β} {b : β}
      (hx : (x >>= f) = .ok b) : ∃ a, f a = .ok b := by
    cases x with
    | error e => cases hx
    | ok a => exact ⟨a, hx⟩
  rcases hbind h with ⟨-, h⟩
  rcases hbind h with ⟨node, h⟩
  rcases hbind h with ⟨-, h⟩
  exact ⟨node.1, node.2, (Except.ok.inj h).symm⟩

/-- A set-up in which no call panics reports. -/
theorem setupError_ne_aborted {calls : List SetupCall} (h : none ∉ calls) :
    setupError calls ≠ some .StartupAborted := by
  induction calls with
  | nil => exact (Option.some_ne_none _).symm
  | cons call calls ih =>
    rcases call with - | ⟨e⟩ | ⟨⟨⟩⟩
    · exact absurd List.mem_cons_self h
    · intro hreported
      cases hreported
    · exact ih fun hmem => h (List.mem_cons_of_mem _ hmem)

/-- The `expect` holds of a pod that has been serialized. -/
theorem expectPod_isSome (hvalid : PodsValid env) : expectPod env ≠ none := by
  unfold expectPod
  split
  · exact Option.some_ne_none _
  · rename_i pod hpod
    -- The bytes are those of a serialization that succeeded.
    have hserialize : ∃ format, env.serialize format = .ok pod := by
      unfold buildShmFormat pipewire at hpod
      refine ⟨shmFormat env.expected env.refresh, ?_⟩
      cases hbytes : env.serialize (shmFormat env.expected env.refresh) with
      | error e =>
        rw [hbytes] at hpod
        cases hpod
      | ok bytes =>
        rw [hbytes] at hpod
        rw [Except.ok.inj hpod]
    rcases hserialize with ⟨format, hserialize⟩
    rw [if_pos (hvalid format pod hserialize)]
    exact Option.some_ne_none _

/-- If what is serialized is a pod, no call of the set-up panics. -/
theorem none_not_mem_setupCalls (hvalid : PodsValid env) (fd : Int32) (nodeId : UInt32) :
    none ∉ setupCalls env fd nodeId := by
  intro hmem
  unfold setupCalls at hmem
  simp only [List.mem_cons, List.not_mem_nil, or_false, reduceCtorEq, false_or] at hmem
  exact expectPod_isSome hvalid hmem.symm

/-- Then no start is given up for want of a report. -/
theorem outcome_ne_aborted (hvalid : PodsValid env) :
    outcome env called ≠ some (.error .StartupAborted) := by
  intro h
  unfold outcome at h
  split at h
  · rename_i e hopen
    rw [Option.some.injEq, Except.error.injEq] at h
    exact openCapture_ne_aborted (h ▸ hopen)
  · rename_i calls hopen
    rcases calls_of_open hopen with ⟨fd, nodeId, rfl⟩
    split at h
    · rename_i e hcalls
      rw [Option.some.injEq, Except.error.injEq] at h
      exact setupError_ne_aborted (none_not_mem_setupCalls hvalid fd nodeId) (h ▸ hcalls)
    · rcases Option.map_eq_some_iff.mp h with ⟨r, -, hr⟩
      cases r <;> cases hr

/-- What is accepted is what was on offer. -/
theorem verdict_ok {expected : UInt32 × UInt32} {param : Param} (refresh : UInt32)
    (h : verdict expected param = some (.ok ())) :
    ∃ f ∈ (shmFormat expected refresh).formats, param = .video f expected := by
  cases param with
  | video format size =>
    simp only [verdict] at h
    split at h
    · cases h
    · rename_i fmt hlayout
      split at h
      · rename_i hsize
        refine ⟨format, ?_, hsize ▸ rfl⟩
        -- The formats with a layout are those that are offered.
        cases format with
        | other name => cases hlayout
        | _ =>
          simp only [shmFormat, List.mem_cons, reduceCtorEq, List.not_mem_nil, or_self, or_false,
            or_true]
      · cases h
  | _ => cases h

/-- A start that succeeds has been given a format that was on offer, at its size. -/
theorem outcome_ok (h : outcome env called = some (.ok ())) :
    ∃ f ∈ (shmFormat env.expected env.refresh).formats,
      .paramChanged true (some (.video f env.expected)) ∈ called := by
  unfold outcome at h
  split at h
  · cases h
  · split at h
    · cases h
    · rcases Option.map_eq_some_iff.mp h with ⟨r, hfirst, hr⟩
      cases r with
      | error e => cases hr
      | ok =>
        -- The first report is a success, so it is that of a format.
        rcases List.exists_of_findSome?_eq_some hfirst with ⟨c, hmem, hc⟩
        cases c with
        | paramChanged isFormat param =>
          cases isFormat with
          | false => cases hc
          | true =>
            cases param with
            | none => cases hc
            | some param =>
              rcases verdict_ok env.refresh hc with ⟨f, hf, rfl⟩
              exact ⟨f, hf, hmem⟩
        | stateChanged error => cases error <;> cases hc
        | process buffer => cases hc

/-- A start that is decided and has not returned goes on, and so does a drop. -/
theorem Snapshot.goes_on (h : Snapshot env called σ)
    (hbusy : σ.caller = .dropping ∨
      σ.caller.returned = none ∧ (outcome env called).isSome = true) :
    ∃ a : Action, a.own = true ∧ (Screencast.step env σ a).isSome = true := by
  cases h with
  | starting =>
    refine ⟨.start, rfl, ?_⟩
    simp only [Screencast.step, callerStep]
    cases openCapture env <;> rfl
  | refused => rcases hbusy with hbusy | ⟨hbusy, -⟩ <;> cases hbusy
  | settingUp =>
    rename_i calls _ _ _
    refine ⟨.setup, rfl, ?_⟩
    rcases calls with - | ⟨- | ⟨⟨e⟩ | ⟨⟨⟩⟩⟩, calls⟩ <;> rfl
  | undecided hud hopen hcalls hcalled =>
    rcases hbusy with hbusy | ⟨-, hsome⟩
    · cases hbusy
    · simp only [outcome, hopen, hcalls, hcalled, Option.map_none, Option.isSome_none,
        Bool.false_eq_true] at hsome
  | aborted hopen hcalls htold =>
    cases htold with
    | pending => exact ⟨.recv, rfl, rfl⟩
    | joining => exact ⟨.join, rfl, rfl⟩
    | failed => rcases hbusy with hbusy | ⟨hbusy, -⟩ <;> cases hbusy
  | panicked hopen hcalls hcaller =>
    rcases hcaller with rfl | rfl | rfl
    · exact ⟨.recv, rfl, rfl⟩
    · exact ⟨.join, rfl, rfl⟩
    · rcases hbusy with hbusy | ⟨hbusy, -⟩ <;> cases hbusy
  | decided hud hopen hcalls hcalled htold hthread hfailed hquit =>
    cases htold with
    | pending =>
      rename_i r _ _
      refine ⟨.recv, rfl, ?_⟩
      cases r <;> rfl
    | joining e =>
      rcases hthread with ⟨rfl, -⟩ | ⟨rfl, -⟩
      · -- The failure has told the loop to quit.
        refine ⟨.leave, rfl, ?_⟩
        rw [hfailed (failed_of_first hcalled)]
        rfl
      · exact ⟨.join, rfl, rfl⟩
    | failed => rcases hbusy with hbusy | ⟨hbusy, -⟩ <;> cases hbusy
    | capturing => rcases hbusy with hbusy | ⟨hbusy, -⟩ <;> cases hbusy
    | dropping =>
      rename_i quit
      rcases hthread with ⟨rfl, -⟩ | ⟨rfl, -⟩
      · cases quit with
        | true => exact ⟨.leave, rfl, rfl⟩
        | false => exact ⟨.timer, rfl, rfl⟩
      · exact ⟨.join, rfl, rfl⟩
    | dropped => rcases hbusy with hbusy | ⟨hbusy, -⟩ <;> cases hbusy

theorem callBack_caller {c : Callback} (h : callBack env σ c = some σ') :
    σ'.caller = σ.caller := by
  have hreport (r : Except CaptureError Unit) : (σ.report r).caller = σ.caller := by
    unfold State.report
    split <;> rfl
  rcases callBack_spec h with ⟨ud, -, rfl⟩
  rcases reported σ.ud.expected c with - | e | ⟨⟩
  · rfl
  · exact hreport _
  · exact hreport _

/-- The capture thread leaves the caller where it is. -/
theorem threadStep_caller (h : threadStep env σ a = some σ') : σ'.caller = σ.caller := by
  unfold threadStep at h
  split at h
  · split at h
    · rw [← Option.some.inj h]
    · rw [← Option.some.inj h]
      -- A call that fails is reported, through the channel.
      unfold State.report
      split <;> rfl
    · rw [← Option.some.inj h]
    · rw [← Option.some.inj h]
    · cases h
  · split at h
    · exact callBack_caller h
    · cases h
  · split at h
    · split at h
      · rw [← Option.some.inj h]
      · cases h
    · cases h
  · split at h
    · split at h
      · rw [← Option.some.inj h]
      · cases h
    · cases h
  · cases h

/-- The steps of the caller. -/
inductive CallerMoves (env : Env) (σ : State) : Action → State → List Event → Prop
  | opened {calls : List SetupCall} (hcaller : σ.caller = .starting)
      (hopen : openCapture env = .ok calls) :
      CallerMoves env σ .start { σ with caller := .waiting, thread := .settingUp calls } []
  | refused {e : StartError} (hcaller : σ.caller = .starting) :
      CallerMoves env σ .start { σ with caller := .failed e } [.returned (.error e)]
  | started {channel : List (Except CaptureError Unit)} (hcaller : σ.caller = .waiting) :
      CallerMoves env σ .recv { σ with caller := .capturing, channel } [.returned (.ok ())]
  | told {e : StartError} {channel : List (Except CaptureError Unit)}
      (hcaller : σ.caller = .waiting) :
      CallerMoves env σ .recv { σ with caller := .joining e, channel } []
  | failed {e : StartError} (hcaller : σ.caller = .joining e) :
      CallerMoves env σ .join { σ with caller := .failed e } [.returned (.error e)]
  | dropped (hcaller : σ.caller = .dropping) :
      CallerMoves env σ .join { σ with caller := .dropped } [.dropped]
  | filled {dst : I420Buffer} {r : Bool × I420Buffer} (hcaller : σ.caller = .capturing)
      (hfill : fill σ.ud.slot dst = some r) :
      CallerMoves env σ (.fill dst) σ [.filled r.1 r.2]
  | dropping (hcaller : σ.caller = .capturing) :
      CallerMoves env σ .drop { σ with caller := .dropping, stop := true } []

theorem caller_moves {events : List Event} (h : callerStep env σ a = some (σ', events)) :
    CallerMoves env σ a σ' events := by
  unfold callerStep at h
  split at h
  · split at h
    · rename_i hcaller
      split at h
      · rename_i hopen
        cases h
        -- The portal is asked, and the thread is spawned or the start refused.
        exact .opened hcaller hopen
      · cases h
        exact .refused hcaller
    · cases h
  · split at h
    · rename_i hcaller _
      cases h
      -- A report, or the end of the channel.
      exact .started hcaller
    · rename_i hcaller _
      cases h
      exact .told hcaller
    · rename_i hcaller _
      split at h
      · cases h
      · cases h
        exact .told hcaller
    · cases h
  · split at h
    · rename_i hcaller _
      cases h
      -- The thread has ended, and is joined.
      exact .failed hcaller
    · rename_i hcaller _
      cases h
      exact .dropped hcaller
    · cases h
  · split at h
    · rename_i hcaller
      rcases Option.map_eq_some_iff.mp h with ⟨r, hfill, hr⟩
      cases hr
      -- Only a capture that goes on is asked for pictures, or dropped.
      exact .filled hcaller hfill
    · cases h
  · split at h
    · rename_i hcaller
      cases h
      exact .dropping hcaller
    · cases h
  · cases h

/-- What the start returns is seen when it does. -/
theorem returned_step {events : List Event} (h : Screencast.step env σ a = some (σ', events)) :
    σ'.caller.returned.toList = σ.caller.returned.toList ++ events.filterMap Event.result := by
  rcases step_cases h with ⟨hmove, -⟩ | ⟨hthread, rfl⟩
  · cases caller_moves hmove with
    | filled => exact (List.append_nil _).symm
    | opened hcaller => rw [hcaller]; rfl
    | refused hcaller => rw [hcaller]; rfl
    | started hcaller => rw [hcaller]; rfl
    | told hcaller => rw [hcaller]; rfl
    | failed hcaller => rw [hcaller]; rfl
    | dropped hcaller => rw [hcaller]; rfl
    | dropping hcaller => rw [hcaller]; rfl
  · rw [threadStep_caller hthread]
    exact (List.append_nil _).symm

/-- The steps of its own that the caller has before it. -/
def Caller.ahead : Caller → ℕ
  | .starting => 3
  | .waiting => 2
  | .joining _ | .capturing | .dropping => 1
  | .failed _ | .dropped => 0

/-- Those of the capture thread: of eight calls, the way into the loop, the timer and
    the way out. -/
def CaptureThread.ahead (quit : Bool) : CaptureThread → ℕ
  | .absent => 11
  | .settingUp calls => calls.length + 3
  | .looping => 1 + (!quit).toNat
  | .ended => 0

def State.ahead (σ : State) : ℕ := σ.caller.ahead + σ.thread.ahead σ.quit

/-- There are eight calls. -/
theorem length_of_open {calls : List SetupCall}
    (h : openCapture env = .ok calls) : calls.length = 8 := by
  rcases calls_of_open h with ⟨fd, nodeId, rfl⟩
  rfl

theorem callBack_ahead {c : Callback} (hthread : σ.thread = .looping)
    (h : callBack env σ c = some σ') : σ'.thread.ahead σ'.quit ≤ σ.thread.ahead σ.quit := by
  rcases callBack_spec h with ⟨ud, -, rfl⟩
  have hreport (r : Except CaptureError Unit) :
      (σ.report r).thread = σ.thread ∧ (σ.report r).quit = σ.quit := by
    unfold State.report
    split <;> exact ⟨rfl, rfl⟩
  rcases reported σ.ud.expected c with - | e | ⟨⟩
  · exact le_rfl
  · simp only [CaptureThread.ahead, settle, (hreport _).1, hthread, Bool.not_true, Bool.toNat_false,
      add_zero, le_add_iff_nonneg_right, zero_le]
  · simp only [settle, (hreport _).2, (hreport _).1, Std.le_refl]

/-- A step of the capture thread leaves fewer before it. -/
theorem threadStep_ahead (h : threadStep env σ a = some σ') :
    σ'.thread.ahead σ'.quit + a.own.toNat ≤ σ.thread.ahead σ.quit := by
  unfold threadStep at h
  split at h
  · split at h
    · -- A call is made: it panics, fails or succeeds.
      rename_i hthread
      rw [← Option.some.inj h, hthread]
      simp only [CaptureThread.ahead, Action.own, Bool.toNat_true, List.length_cons]
      omega
    · rename_i hthread
      rw [← Option.some.inj h, hthread]
      simp only [CaptureThread.ahead, Action.own, Bool.toNat_true, List.length_cons]
      omega
    · rename_i hthread
      rw [← Option.some.inj h, hthread]
      simp only [CaptureThread.ahead, Action.own, Bool.toNat_true, List.length_cons]
      omega
    · rename_i hthread
      rw [← Option.some.inj h, hthread]
      -- After the last call the thread enters the loop.
      have := Bool.toNat_le (!σ.quit)
      simp only [CaptureThread.ahead, Action.own, Bool.toNat_true, List.length_nil]
      omega
    · cases h
  · split at h
    · rename_i hthread
      -- A callback is not a step of its own.
      exact callBack_ahead hthread h
    · cases h
  · split at h
    · rename_i hthread
      split at h
      · -- The timer finds `stop` set for the first time.
        rename_i hset
        rw [← Option.some.inj h]
        simp only [Bool.and_eq_true, Bool.not_eq_true'] at hset
        simp only [CaptureThread.ahead, hthread, Bool.not_true, Bool.toNat_false, add_zero,
          Action.own, Bool.toNat_true, Nat.reduceAdd, hset.2, Bool.not_false, Std.le_refl]
      · cases h
    · cases h
  · split at h
    · rename_i hthread
      split at h
      · rw [← Option.some.inj h]
        -- The loop was told to quit, and returns.
        simp only [CaptureThread.ahead, Action.own, Bool.toNat_true, zero_add, hthread,
          le_add_iff_nonneg_right, zero_le]
      · cases h
    · cases h
  · cases h

theorem Snapshot.absent (h : Snapshot env called σ) (hcaller : σ.caller = .starting) :
    σ.thread = .absent := by
  cases h with
  | starting => rfl
  | aborted _ _ htold => cases htold <;> cases hcaller
  | panicked _ _ hwhere => rcases hwhere with rfl | rfl | rfl <;> cases hcaller
  | decided _ _ _ _ htold => cases htold <;> cases hcaller
  | _ => cases hcaller

/-- A caller that is done has no second thread beside it. -/
theorem Snapshot.alone (h : Snapshot env called σ) (hdone : σ.caller.done = true) :
    σ.thread = .absent ∨ σ.thread = .ended := by
  cases h with
  | refused => exact Or.inl rfl
  | aborted => exact Or.inr rfl
  | panicked => exact Or.inr rfl
  | decided _ _ _ _ _ hthread =>
    rcases hthread with ⟨-, hgoing⟩ | ⟨hended, -⟩
    · exact absurd (hdone.symm.trans hgoing) (by simp only [Bool.true_eq_false, not_false_eq_true])
    · exact Or.inr hended
  | _ => cases hdone

/-- Every step of its own brings a thread closer to its end. -/
theorem Snapshot.ahead_step {events : List Event} (h : Snapshot env called σ)
    (hstep : Screencast.step env σ a = some (σ', events)) :
    σ'.ahead + a.own.toNat ≤ σ.ahead := by
  unfold State.ahead
  rcases step_cases hstep with ⟨hmove, -⟩ | ⟨hthread, -⟩
  · cases caller_moves hmove with
    | opened hcaller hopen =>
      -- Before the start there is no second thread.
      rw [hcaller, h.absent hcaller]
      simp only [Caller.ahead, CaptureThread.ahead, length_of_open hopen, Nat.reduceAdd, Action.own,
        Bool.toNat_true, Std.le_refl]
    | refused hcaller => simp only [hcaller, Caller.ahead, Action.own, Bool.toNat_true]; omega
    | started hcaller => simp only [hcaller, Caller.ahead, Action.own, Bool.toNat_true]; omega
    | told hcaller => simp only [hcaller, Caller.ahead, Action.own, Bool.toNat_true]; omega
    | failed hcaller => simp only [hcaller, Caller.ahead, Action.own, Bool.toNat_true]; omega
    | dropped hcaller => simp only [hcaller, Caller.ahead, Action.own, Bool.toNat_true]; omega
    | filled hcaller => exact le_rfl
    | dropping hcaller =>
      simp only [Caller.ahead, Action.own, Bool.toNat_false, add_zero, hcaller, Std.le_refl]
  · rw [threadStep_caller hthread]
    have := threadStep_ahead hthread
    omega

/-- The state a run leads to, what has been returned on the way, and the steps it took. -/
theorem snapshot_exec {actions : List Action} {trace : List Event}
    (hrun : Machine.exec (Screencast.step env) (start env) actions = some (σ, trace)) :
    Snapshot env (callbacks actions) σ ∧
      trace.filterMap Event.result = σ.caller.returned.toList ∧
      σ.ahead + actions.countP Action.own ≤ 14 := by
  refine @Machine.exec_tracks _ _ _ _ (fun taken σ trace =>
    Snapshot env (callbacks taken) σ ∧
      trace.filterMap Event.result = σ.caller.returned.toList ∧
      σ.ahead + taken.countP Action.own ≤ 14) ?_ actions [] _ _ [] _
    ⟨.starting rfl, rfl, le_rfl⟩ hrun
  intro taken σ trace a σ' events h hstep
  rcases h with ⟨hsnapshot, hreturned, hahead⟩
  refine ⟨?_, ?_, ?_⟩
  · -- The callbacks are those so far, and the one of this step if it is one.
    have hcalled : callbacks (taken ++ [a]) = callbacks taken ++ a.called.toList := by
      rw [callbacks, List.filterMap_append, List.filterMap_cons, List.filterMap_nil]
      cases a.called <;> rfl
    rw [hcalled]
    exact hsnapshot.step hstep
  · rw [List.filterMap_append, hreturned]
    exact (returned_step hstep).symm
  · have hless := hsnapshot.ahead_step hstep
    rw [Machine.countP_concat]
    omega

end Runs

section Results

variable {env : Env} {σ : State} {actions : List Action} {trace : List Event}

/-- A system on which every call succeeds, and a monitor of two pixels a side. -/
def sampleEnv : Env :=
  { expected := (2, 2), refresh := 72, runtime := .ok (), spawn := .ok ()
    portal :=
      { proxy := .ok (), createSession := .ok (), selectSources := .ok ()
        selectResponse := .ok (), start := .ok (), startResponse := .ok [41]
        openPipeWireRemote := .ok 9 }
    mainLoop := .ok (), context := .ok (), connectFd := fun _ => .ok (), stream := .ok ()
    listener := .ok (), serialize := fun _ => .ok [], podFromBytes := fun _ => true
    connect := fun _ _ => .ok (), overflowChecks := true }

/-- The stream is set up, and the format that is negotiated has the given size. -/
def negotiated (size : UInt32 × UInt32) : List Action :=
  .start :: List.replicate 9 .setup ++
    [.callback (.stateChanged none), .callback (.paramChanged true (some .otherMedia)),
      .callback (.paramChanged true (some (.video .BGRx size))), .recv]

end Results

end Screencast

end LoomHost
