import LoomHost.Core.Screencast
import LoomHost.Lib.Machine

/-!
# The States of a Screen Cast

What the two threads of a capture know of each other, at any moment of any run. The
sender of `ready` goes with the first report, so what the caller knows of the capture
thread is settled by the first call that fails, or else by the first callback that is
a failure or a format that fits. Which of the states a run is in is known from the
callbacks so far.

## Main definitions

* `reported`: What a callback reports.
* `outcome`, `PodsValid`: What a start returns, and when it is not aborted.
* `Told`, `Snapshot`: What the caller knows, and the states of a run.

## Theorems

* `callBack_spec`: What a callback does.
* `step_cases`: A step is one of the caller or of the capture thread.
* `Snapshot.step`: Every step leads from one of these states to another.
-/

namespace LoomHost

namespace Screencast

open Capture Stream

/-- What a format parameter is worth to a capture of a size. -/
def verdict (expected : UInt32 × UInt32) : Param → Option (Except CaptureError Unit)
  | .unparsed => some (.error (.Pipewire "parse_format"))
  | .otherMedia => none
  | .badVideo e => some (.error (.Pipewire ("parse video format: " ++ e)))
  | .video format size =>
    match layout format with
    | .error e => some (.error e)
    | .ok _ =>
      if size = expected then some (.ok ()) else some (.error (.SizeMismatch size expected))

/-- What a callback reports, if anything. -/
def reported (expected : UInt32 × UInt32) : Callback → Option (Except CaptureError Unit)
  | .stateChanged (some msg) => some (.error (.Pipewire ("stream error: " ++ msg)))
  | .stateChanged none => none
  | .paramChanged true (some param) => verdict expected param
  | .paramChanged _ _ => none
  | .process _ => none

/-- What the set-up comes to, if not to the main loop: the first call that fails is
    reported, and one that panics leaves the start without a report. -/
def setupError : List SetupCall → Option StartError
  | [] => none
  | some (.ok ()) :: calls => setupError calls
  | some (.error e) :: _ => some (.Stream e)
  | none :: _ => some .StartupAborted

/-- What a start returns when the library has called back so far, if it is decided. -/
def outcome (env : Env) (called : List Callback) : Option (Except StartError Unit) :=
  match openCapture env with
  | .error e => some (.error e)
  | .ok calls =>
    match setupError calls with
    | some e => some (.error e)
    | none => (called.findSome? (reported env.expected)).map (Except.mapError .Stream)

/-- What has been serialized is a pod, as the `expect` of the set-up has it. -/
def PodsValid (env : Env) : Prop :=
  ∀ format pod, env.serialize format = .ok pod → env.podFromBytes pod = true

def Action.called : Action → Option Callback
  | .callback c => some c
  | _ => none

/-- The callbacks of a run. -/
def callbacks (actions : List Action) : List Callback := actions.filterMap Action.called

/-- The steps the two threads take of themselves. -/
def Action.own : Action → Bool
  | .start | .recv | .join | .setup | .timer | .leave => true
  | .fill _ | .drop | .callback _ => false

/-- What the start has returned, if it has. -/
def Caller.returned : Caller → Option (Except StartError Unit)
  | .starting | .waiting | .joining _ => none
  | .failed e => some (.error e)
  | .capturing | .dropping | .dropped => some (.ok ())

def Event.result : Event → Option (Except StartError Unit)
  | .returned r => some r
  | .filled _ _ | .dropped => none

/-- Raw video whose properties parse. -/
def isVideo : Param → Bool
  | .video _ _ => true
  | _ => false

section Callbacks

variable {env : Env} {σ σ' : State}

/-- What a report does, beside the pixel layout and the frames. -/
def settle (σ : State) : Option (Except CaptureError Unit) → State
  | none => σ
  | some (.ok ()) => σ.report (.ok ())
  | some (.error e) => { σ.report (.error e) with quit := true }

theorem ud_report (r : Except CaptureError Unit) : (σ.report r).ud = σ.ud := by
  unfold State.report
  split <;> rfl

theorem onProcess_expected {overflowChecks : Bool} {buffer : Option (List BufferData)}
    {s s' : StreamData} (h : onProcess overflowChecks buffer s = some s') :
    s'.expected = s.expected := by
  unfold onProcess at h
  split at h
  · rw [← Option.some.inj h]
  · rw [← Option.some.inj h]
  · split at h
    · rw [← Option.some.inj h]
    · simp only [Option.bind_eq_bind, Option.bind_eq_some_iff] at h
      rcases h with ⟨through, -, h⟩
      split at h
      · rw [← Option.some.inj h]
      · split at h
        · rw [← Option.some.inj h]
        · unfold Stream.publish at h
          simp only [Option.bind_eq_bind, Option.bind_eq_some_iff] at h
          rcases h with ⟨_, -, _, -, _, -, h⟩
          rw [← Option.some.inj h]

/-- What a callback for a format does is what `verdict` has of it. -/
theorem format_changed (ud : StreamData) (param : Param) :
    (∃ e, onFormat ud param = .error e ∧ verdict ud.expected param = some (.error e)) ∨
      ∃ ud', onFormat ud param = .ok ud' ∧ ud'.expected = ud.expected ∧
        (isVideo param = true ∧ verdict ud.expected param = some (.ok ()) ∨
          isVideo param = false ∧ ud' = ud ∧ verdict ud.expected param = none) := by
  cases param with
  | unparsed => exact Or.inl ⟨_, rfl, rfl⟩
  | otherMedia => exact Or.inr ⟨ud, rfl, rfl, Or.inr ⟨rfl, rfl, rfl⟩⟩
  | badVideo e => exact Or.inl ⟨_, rfl, rfl⟩
  | video format size =>
    simp only [onFormat, verdict]
    cases layout format with
    | error e => exact Or.inl ⟨e, rfl, rfl⟩
    | ok fmt =>
      dsimp only
      -- A size other than the expected one is refused, whatever the format.
      by_cases hsize : size = ud.expected
      · refine Or.inr ⟨{ ud with fmt := some fmt }, ?_, rfl, Or.inl ⟨rfl, ?_⟩⟩
        · rw [if_neg (not_not_intro hsize)]
        · rw [if_pos hsize]
      · refine Or.inl ⟨.SizeMismatch size ud.expected, ?_, ?_⟩
        · rw [if_pos hsize]
        · rw [if_neg hsize]

/-- A callback settles what it reports, and may change the layout and the frames. -/
theorem callBack_spec {c : Callback} (h : callBack env σ c = some σ') :
    ∃ ud, ud.expected = σ.ud.expected ∧
      σ' = { settle σ (reported σ.ud.expected c) with ud } := by
  cases c with
  | stateChanged error =>
    cases error with
    | none => exact ⟨σ.ud, rfl, (Option.some.inj h).symm⟩
    | some msg =>
      -- An error of the stream is reported, and nothing else changes.
      refine ⟨σ.ud, rfl, ?_⟩
      rw [← Option.some.inj h]
      simp only [reported, settle, ud_report]
  | paramChanged isFormat param =>
    cases isFormat with
    | false => exact ⟨σ.ud, rfl, (Option.some.inj h).symm⟩
    | true =>
      cases param with
      | none => exact ⟨σ.ud, rfl, (Option.some.inj h).symm⟩
      | some param =>
        simp only [callBack] at h
        -- A format that does not fit is reported as an error, and one that does as the success;
        -- what is no video format is passed over.
        rcases format_changed σ.ud param with ⟨e, hformat, hverdict⟩ | ⟨ud, hformat, hud, hkind⟩
        · rw [hformat] at h
          refine ⟨σ.ud, rfl, ?_⟩
          rw [← Option.some.inj h]
          simp only [reported, hverdict, settle, ud_report]
        · rw [hformat] at h
          refine ⟨ud, hud, ?_⟩
          rcases hkind with ⟨hvideo, hverdict⟩ | ⟨hother, rfl, hverdict⟩
          · cases param <;> simp only [isVideo, Bool.false_eq_true] at hvideo
            rw [← Option.some.inj h]
            simp only [reported, hverdict, settle]
          · simp only [reported, hverdict, settle]
            cases param <;> simp only [isVideo, Bool.true_eq_false] at hother <;>
              exact (Option.some.inj h).symm
  | process buffer =>
    -- A buffer is converted, and reports nothing.
    simp only [callBack, Option.map_eq_some_iff] at h
    rcases h with ⟨ud, hud, rfl⟩
    exact ⟨ud, onProcess_expected hud, rfl⟩

end Callbacks

section Runs

variable {env : Env} {called : List Callback} {σ σ' : State} {a : Action}

/-- The start or the end of a capture is over. -/
def Caller.done : Caller → Bool
  | .failed _ | .dropped => true
  | _ => false

/-- What the caller knows of the report, with what is in the channel and the flag: it
    is yet to be received, or has been acted on. -/
inductive Told : Except CaptureError Unit → Caller → List (Except CaptureError Unit) → Bool → Prop
  | pending (r : Except CaptureError Unit) : Told r .waiting [r] false
  | joining (e : CaptureError) : Told (.error e) (.joining (.Stream e)) [] false
  | failed (e : CaptureError) : Told (.error e) (.failed (.Stream e)) [] false
  | capturing : Told (.ok ()) .capturing [] false
  | dropping : Told (.ok ()) .dropping [] true
  | dropped : Told (.ok ()) .dropped [] true

/-- Some callback was a failure, be it reported or not. -/
def Failed (expected : UInt32 × UInt32) (called : List Callback) : Prop :=
  ∃ c ∈ called, ∃ e, reported expected c = some (.error e)

/-- The states of a run, with the callbacks so far. -/
inductive Snapshot (env : Env) : List Callback → State → Prop
  | starting {ud : StreamData} (hud : ud.expected = env.expected) : Snapshot env [] { ud }
  | refused {ud : StreamData} {e : StartError} (hopen : openCapture env = .error e) :
      Snapshot env [] { ud, caller := .failed e }
  | settingUp {ud : StreamData} {all calls : List SetupCall}
      (hud : ud.expected = env.expected) (hopen : openCapture env = .ok all)
      (hcalls : setupError all = setupError calls) :
      Snapshot env [] { ud, caller := .waiting, thread := .settingUp calls }
  /-- A call has failed. -/
  | aborted {ud : StreamData} {all : List SetupCall} {channel : List (Except CaptureError Unit)}
      {e : CaptureError} {caller : Caller} {stop : Bool} (hopen : openCapture env = .ok all)
      (hcalls : setupError all = some (.Stream e)) (htold : Told (.error e) caller channel stop) :
      Snapshot env [] { ud, caller, thread := .ended, ready := false, channel, stop }
  /-- A call has panicked, and there is no sender any more. -/
  | panicked {ud : StreamData} {all : List SetupCall} {caller : Caller}
      (hopen : openCapture env = .ok all) (hcalls : setupError all = some .StartupAborted)
      (hcaller : caller = .waiting ∨ caller = .joining .StartupAborted ∨
        caller = .failed .StartupAborted) :
      Snapshot env [] { ud, caller, thread := .ended }
  | undecided {called : List Callback} {ud : StreamData} {all : List SetupCall}
      (hud : ud.expected = env.expected) (hopen : openCapture env = .ok all)
      (hcalls : setupError all = none)
      (hcalled : called.findSome? (reported env.expected) = none) :
      Snapshot env called { ud, caller := .waiting, thread := .looping }
  | decided {called : List Callback} {ud : StreamData} {all : List SetupCall}
      {channel : List (Except CaptureError Unit)} {r : Except CaptureError Unit}
      {caller : Caller} {thread : CaptureThread} {stop quit : Bool}
      (hud : ud.expected = env.expected) (hopen : openCapture env = .ok all)
      (hcalls : setupError all = none)
      (hcalled : called.findSome? (reported env.expected) = some r)
      (htold : Told r caller channel stop)
      (hthread : thread = .looping ∧ caller.done = false ∨ thread = .ended ∧ quit = true)
      (hfailed : Failed env.expected called → quit = true)
      (hquit : quit = true → Failed env.expected called ∨ stop = true) :
      Snapshot env called { ud, caller, thread, ready := false, channel, stop, quit }

/-- One more callback. -/
theorem failed_concat {expected : UInt32 × UInt32} {c : Callback} :
    Failed expected (called ++ [c]) ↔
      Failed expected called ∨ ∃ e, reported expected c = some (.error e) := by
  unfold Failed
  constructor
  · intro h
    rcases h with ⟨c', hmem, h⟩
    rcases List.mem_append.mp hmem with hmem | hmem
    · exact Or.inl ⟨c', hmem, h⟩
    · exact Or.inr (List.mem_singleton.mp hmem ▸ h)
  · intro h
    rcases h with ⟨c', hmem, h⟩ | h
    · exact ⟨c', List.mem_append_left _ hmem, h⟩
    · exact ⟨c, List.mem_append_right _ (List.mem_singleton_self c), h⟩

/-- A first failure is a failure. -/
theorem failed_of_first {expected : UInt32 × UInt32} {e : CaptureError}
    (h : called.findSome? (reported expected) = some (.error e)) : Failed expected called := by
  rcases List.exists_of_findSome?_eq_some h with ⟨c, hmem, hc⟩
  exact ⟨c, hmem, e, hc⟩

theorem not_failed_of_none {expected : UInt32 × UInt32}
    (h : called.findSome? (reported expected) = none) : ¬ Failed expected called := by
  intro hfailed
  rcases hfailed with ⟨c, hmem, e, hc⟩
  rw [List.findSome?_eq_none_iff.mp h c hmem] at hc
  cases hc

/-- A callback before anything has been reported: the report, if any, is sent. -/
theorem Snapshot.first_callback {ud ud' : StreamData} {all : List SetupCall}
    {c : Callback} (hud : ud'.expected = env.expected) (hopen : openCapture env = .ok all)
    (hcalls : setupError all = none)
    (hcalled : called.findSome? (reported env.expected) = none) :
    Snapshot env (called ++ [c]) { settle { ud, caller := .waiting, thread := .looping }
      (reported env.expected c) with ud := ud' } := by
  have hconcat : (called ++ [c]).findSome? (reported env.expected) = reported env.expected c := by
    rw [List.findSome?_append, hcalled, Option.none_or]
    simp only [List.findSome?_singleton]
  cases hc : reported env.expected c with
  | none =>
      -- Nothing is reported, so nothing is decided yet.
      exact .undecided hud hopen hcalls (hconcat.trans hc)
  | some r =>
    cases r with
    | ok =>
      -- The format fits: the caller is told so, and the loop goes on.
      refine .decided hud hopen hcalls (hconcat.trans hc) (.pending _) (Or.inl ⟨rfl, rfl⟩) ?_ ?_
      · intro hfailed
        rcases failed_concat.mp hfailed with hfailed | ⟨e, he⟩
        · exact absurd hfailed (not_failed_of_none hcalled)
        · rw [hc] at he
          cases he
      · intro hquit
        cases hquit
    | error e =>
      -- A failure is told to the caller, and ends the loop.
      exact .decided hud hopen hcalls (hconcat.trans hc) (.pending _) (Or.inl ⟨rfl, rfl⟩)
        (fun _ => rfl) fun _ => Or.inl (failed_of_first (hconcat.trans hc))

/-- A callback after the report: a failure ends the loop, and nobody is told. -/
theorem Snapshot.later_callback {ud ud' : StreamData} {all : List SetupCall}
    {channel : List (Except CaptureError Unit)} {r : Except CaptureError Unit}
    {caller : Caller} {stop quit : Bool} {c : Callback} (hud : ud'.expected = env.expected)
    (hopen : openCapture env = .ok all) (hcalls : setupError all = none)
    (hcalled : called.findSome? (reported env.expected) = some r)
    (htold : Told r caller channel stop) (hgoing : caller.done = false)
    (hfailed : Failed env.expected called → quit = true)
    (hquit : quit = true → Failed env.expected called ∨ stop = true) :
    Snapshot env (called ++ [c])
      { settle { ud, caller, thread := .looping, ready := false, channel, stop, quit }
          (reported env.expected c) with ud := ud' } := by
  -- The first report stays the first.
  have hconcat : (called ++ [c]).findSome? (reported env.expected) = some r := by
    rw [List.findSome?_append, hcalled, Option.some_or]
  have hmore : Failed env.expected (called ++ [c]) ↔
      Failed env.expected called ∨ ∃ e, reported env.expected c = some (.error e) := failed_concat
  cases hc : reported env.expected c with
  | none =>
    refine .decided hud hopen hcalls hconcat htold (Or.inl ⟨rfl, hgoing⟩) ?_ ?_
    · exact fun h => (hmore.mp h).elim hfailed fun ⟨e, he⟩ => nomatch hc.symm.trans he
    · exact fun h => (hquit h).imp_left fun h => hmore.mpr (Or.inl h)
  | some result =>
    cases result with
    | ok =>
      refine .decided hud hopen hcalls hconcat htold (Or.inl ⟨rfl, hgoing⟩) ?_ ?_
      · exact fun h => (hmore.mp h).elim hfailed fun ⟨e, he⟩ => nomatch hc.symm.trans he
      · exact fun h => (hquit h).imp_left fun h => hmore.mpr (Or.inl h)
    | error e =>
      -- The sender is gone, so the failure only ends the loop.
      exact .decided hud hopen hcalls hconcat htold (Or.inl ⟨rfl, hgoing⟩) (fun _ => rfl)
        fun _ => Or.inl (hmore.mpr (Or.inr ⟨e, hc⟩))

/-- The capture thread sets up. -/
theorem Snapshot.setup (h : Snapshot env called σ)
    (hstep : threadStep env σ .setup = some σ') : Snapshot env called σ' := by
  cases h with
  | settingUp hud hopen hcalls =>
    rename_i ud all calls
    -- No call is left, or the next one panics, fails or succeeds.
    rcases calls with - | ⟨- | ⟨⟨e⟩ | ⟨⟨⟩⟩⟩, calls⟩
    · rw [← Option.some.inj hstep]
      exact .undecided hud hopen hcalls rfl
    · rw [← Option.some.inj hstep]
      exact .panicked hopen hcalls (Or.inl rfl)
    · rw [← Option.some.inj hstep]
      exact .aborted hopen hcalls (.pending _)
    · rw [← Option.some.inj hstep]
      exact .settingUp hud hopen hcalls
  | decided hud hopen hcalls hcalled htold hthread =>
    rcases hthread with ⟨rfl, -⟩ | ⟨rfl, -⟩ <;> cases hstep
  | starting => cases hstep
  | refused => cases hstep
  | aborted => cases hstep
  | panicked => cases hstep
  | undecided => cases hstep

/-- The library calls back. -/
theorem Snapshot.callback {c : Callback} (h : Snapshot env called σ)
    (hstep : threadStep env σ (.callback c) = some σ') : Snapshot env (called ++ [c]) σ' := by
  cases h with
  | undecided hud hopen hcalls hcalled =>
    rcases callBack_spec hstep with ⟨ud', hud', rfl⟩
    -- The callback may be the one that decides.
    rw [hud]
    exact first_callback (hud'.trans hud) hopen hcalls hcalled
  | decided hud hopen hcalls hcalled htold hthread hfailed hquit =>
    rcases hthread with ⟨rfl, hgoing⟩ | ⟨rfl, -⟩
    · rcases callBack_spec hstep with ⟨ud', hud', rfl⟩
      rw [hud]
      exact later_callback (hud'.trans hud) hopen hcalls hcalled htold hgoing hfailed hquit
    · cases hstep
  | starting => cases hstep
  | refused => cases hstep
  | settingUp => cases hstep
  | aborted => cases hstep
  | panicked => cases hstep

/-- The timer finds the flag. -/
theorem Snapshot.timer (h : Snapshot env called σ)
    (hstep : threadStep env σ .timer = some σ') : Snapshot env called σ' := by
  cases h with
  | decided hud hopen hcalls hcalled htold hthread hfailed hquit =>
    rename_i stop quit
    rcases hthread with ⟨rfl, hgoing⟩ | ⟨rfl, -⟩
    · simp only [threadStep] at hstep
      split at hstep
      · -- The timer quits the loop only if the caller has asked for it.
        rename_i hset
        rw [← Option.some.inj hstep]
        exact .decided hud hopen hcalls hcalled htold (Or.inl ⟨rfl, hgoing⟩) (fun _ => rfl)
          fun _ => Or.inr (Bool.and_eq_true_iff.mp hset).1
      · cases hstep
    · cases hstep
  | starting => cases hstep
  | refused => cases hstep
  | settingUp => cases hstep
  | aborted => cases hstep
  | panicked => cases hstep
  | undecided => cases hstep

/-- The main loop returns, which takes a report. -/
theorem Snapshot.leave (h : Snapshot env called σ)
    (hstep : threadStep env σ .leave = some σ') : Snapshot env called σ' := by
  cases h with
  | decided hud hopen hcalls hcalled htold hthread hfailed hquit =>
    rename_i stop quit
    rcases hthread with ⟨rfl, hgoing⟩ | ⟨rfl, -⟩
    · simp only [threadStep] at hstep
      split at hstep
      · rename_i hset
        rw [← Option.some.inj hstep]
        exact .decided hud hopen hcalls hcalled htold (Or.inr ⟨rfl, hset⟩) hfailed hquit
      · cases hstep
    · cases hstep
  | starting => cases hstep
  | refused => cases hstep
  | settingUp => cases hstep
  | aborted => cases hstep
  | panicked => cases hstep
  | undecided => cases hstep

/-- The caller takes a step. -/
theorem Snapshot.caller {events : List Event} (h : Snapshot env called σ)
    (hstep : callerStep env σ a = some (σ', events)) : Snapshot env called σ' := by
  cases h with
  | starting hud =>
    cases a <;> simp only [callerStep, reduceCtorEq] at hstep
    cases hopen : openCapture env with
    | ok all =>
      rw [hopen] at hstep
      cases hstep
      exact .settingUp hud hopen rfl
    | error e =>
      rw [hopen] at hstep
      cases hstep
      exact .refused hopen
  | refused hopen => cases a <;> simp only [callerStep, reduceCtorEq] at hstep
  | settingUp hud hopen hcalls =>
    cases a <;> simp only [callerStep, reduceCtorEq, State.connected] at hstep
    exact absurd hstep (by simp only [↓reduceIte, reduceCtorEq, not_false_eq_true])
  | undecided hud hopen hcalls hcalled =>
    cases a <;> simp only [callerStep, reduceCtorEq, State.connected] at hstep
    exact absurd hstep (by simp only [↓reduceIte, reduceCtorEq, not_false_eq_true])
  | aborted hopen hcalls htold =>
    cases htold with
    | pending =>
      cases a <;> simp only [callerStep, reduceCtorEq] at hstep
      cases hstep
      exact .aborted hopen hcalls (.joining _)
    | joining =>
      cases a <;> simp only [callerStep, reduceCtorEq] at hstep
      cases hstep
      exact .aborted hopen hcalls (.failed _)
    | failed => cases a <;> simp only [callerStep, reduceCtorEq] at hstep
  | panicked hopen hcalls hcaller =>
    -- Nothing is in the channel, and the sender is gone.
    rcases hcaller with rfl | rfl | rfl
    · cases a <;> simp only [callerStep, reduceCtorEq, State.connected] at hstep
      cases hstep
      exact .panicked hopen hcalls (Or.inr (Or.inl rfl))
    · cases a <;> simp only [callerStep, reduceCtorEq] at hstep
      cases hstep
      exact .panicked hopen hcalls (Or.inr (Or.inr rfl))
    · cases a <;> simp only [callerStep, reduceCtorEq] at hstep
  | decided hud hopen hcalls hcalled htold hthread hfailed hquit =>
    cases htold with
    | pending =>
      rename_i r _ _
      cases a <;> simp only [callerStep, reduceCtorEq] at hstep
      cases r with
      | ok =>
        cases hstep
        exact .decided hud hopen hcalls hcalled .capturing hthread hfailed hquit
      | error e =>
        cases hstep
        exact .decided hud hopen hcalls hcalled (.joining e) hthread hfailed hquit
    | joining e =>
      rcases hthread with ⟨rfl, -⟩ | ⟨rfl, hset⟩ <;> cases a <;>
        simp only [callerStep, reduceCtorEq] at hstep
      cases hstep
      exact .decided hud hopen hcalls hcalled (.failed e) (Or.inr ⟨rfl, hset⟩) hfailed hquit
    | failed => cases a <;> simp only [callerStep, reduceCtorEq] at hstep
    | capturing =>
      cases a <;> simp only [callerStep, reduceCtorEq] at hstep
      · -- A frame is copied, and the state stays.
        rw [Option.map_eq_some_iff] at hstep
        rcases hstep with ⟨r, -, hr⟩
        cases hr
        exact .decided hud hopen hcalls hcalled .capturing hthread hfailed hquit
      · cases hstep
        exact .decided hud hopen hcalls hcalled .dropping hthread hfailed
          fun h => (hquit h).imp_right fun _ => rfl
    | dropping =>
      rcases hthread with ⟨rfl, -⟩ | ⟨rfl, hset⟩ <;> cases a <;>
        simp only [callerStep, reduceCtorEq] at hstep
      cases hstep
      exact .decided hud hopen hcalls hcalled .dropped (Or.inr ⟨rfl, hset⟩) hfailed hquit
    | dropped => cases a <;> simp only [callerStep, reduceCtorEq] at hstep

/-- A step is one of the caller, or one of the capture thread, of which nothing is seen. -/
theorem step_cases {events : List Event} (h : Screencast.step env σ a = some (σ', events)) :
    callerStep env σ a = some (σ', events) ∧ a.called = none ∨
      threadStep env σ a = some σ' ∧ events = [] := by
  have hthread : ∀ {x : Option State}, x.map (fun σ => (σ, ([] : List Event))) = some (σ', events) →
      x = some σ' ∧ events = [] := by
    intro x hx
    rcases Option.map_eq_some_iff.mp hx with ⟨τ, rfl, hpair⟩
    cases hpair
    exact ⟨rfl, rfl⟩
  cases a with
  | start => exact Or.inl ⟨h, rfl⟩
  | recv => exact Or.inl ⟨h, rfl⟩
  | join => exact Or.inl ⟨h, rfl⟩
  | fill dst => exact Or.inl ⟨h, rfl⟩
  | drop => exact Or.inl ⟨h, rfl⟩
  | setup => exact Or.inr (hthread h)
  | callback c => exact Or.inr (hthread h)
  | timer => exact Or.inr (hthread h)
  | leave => exact Or.inr (hthread h)

/-- Every step leads from one of these states to another. -/
theorem Snapshot.step {events : List Event} (h : Snapshot env called σ)
    (hstep : Screencast.step env σ a = some (σ', events)) :
    Snapshot env (called ++ a.called.toList) σ' := by
  have hsame (h : Snapshot env called σ') :
      Snapshot env (called ++ (none : Option Callback).toList) σ' := by
    rwa [Option.toList_none, List.append_nil]
  rcases step_cases hstep with ⟨hcaller, hcalled⟩ | ⟨hthread, -⟩
  · rw [hcalled]
    exact hsame (h.caller hcaller)
  · cases a with
    | setup => exact hsame (h.setup hthread)
    | callback c => exact h.callback hthread
    | timer => exact hsame (h.timer hthread)
    | leave => exact hsame (h.leave hthread)
    | _ => cases hthread

end Runs

end Screencast

end LoomHost
