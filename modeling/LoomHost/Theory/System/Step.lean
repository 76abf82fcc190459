import LoomHost.Core.System
import LoomHost.Theory.Conn
import LoomHost.Theory.Session.Switches

/-!
# The Steps of the System

What one step of the host does, party by party. The control task changes the
session, the outputs still to be applied and the driver; a media thread changes
itself. What the control task has received and applied is the log of the
session, but for the outputs still to be applied.

## Main definitions

* `entries`, `framesOf`: The two parts of a trace.
* `handles`: What an output does to the handles of the media threads.
* `Stepped`: What a step does.
* `Controlled`: The session and its log.

## Theorems

* `drive_cons`: Outputs are applied one by one.
* `openPipeline_cases`, `turn_phase_cases`: What becomes of a thread.
* `step_stepped`: The steps are those of `step`.
* `controlled_exec`: The log of every run is that of its session.
-/

namespace LoomHost

namespace System

open Control Session Conn Media

/-- The entry of the session's log behind an event. -/
def Event.entry : Event → Option Entry
  | .received decoded => some (.recv decoded)
  | .applied o => some (.out o)
  | .frame _ _ => none

/-- What the control task has received and applied. -/
def entries (trace : List Event) : List Entry := trace.filterMap Event.entry

/-- The frames of one media thread. -/
def framesOf (i : ℕ) (trace : List Event) : List Frame :=
  trace.filterMap fun
    | Event.frame j f => if j = i then some f else none
    | _ => none

/-- An entry of a list and one more is in the list, or is the last one. -/
theorem concat_eq_append_cons {α : Type*} {l u w : List α} {x y : α}
    (h : l ++ [y] = u ++ x :: w) : (∃ w', l = u ++ x :: w') ∨ (l = u ∧ y = x) := by
  rcases List.eq_nil_or_concat w with rfl | ⟨w', z, rfl⟩
  · rcases List.append_inj' h rfl with ⟨hl, hy⟩
    exact Or.inr ⟨hl, List.singleton_inj.mp hy⟩
  · rw [List.concat_eq_append, ← List.cons_append, ← List.append_assoc] at h
    exact Or.inl ⟨w', List.append_inj_left' h rfl⟩

/-- What is put in a place is found there. -/
theorem getElem?_set_self {α : Type*} {l : List α} {i : ℕ} {x y : α} (h : l[i]? = some x) :
    (l.set i y)[i]? = some y := by
  rcases List.getElem?_eq_some_iff.mp h with ⟨hlt, -⟩
  exact List.getElem?_set_self hlt

theorem entries_append (u v : List Event) : entries (u ++ v) = entries u ++ entries v :=
  List.filterMap_append

theorem framesOf_append (i : ℕ) (u v : List Event) :
    framesOf i (u ++ v) = framesOf i u ++ framesOf i v :=
  List.filterMap_append

theorem framesOf_eq_nil {i : ℕ} {events : List Event} (h : ∀ f, .frame i f ∉ events) :
    framesOf i events = [] := by
  rw [framesOf, List.filterMap_eq_nil_iff]
  intro e he
  cases e with
  | frame j f =>
      by_cases hj : j = i
      · exact absurd (hj ▸ he) (h f)
      · exact if_neg hj
  | _ => rfl

theorem framesOf_frames (i : ℕ) (f : Option Frame) :
    framesOf i (f.toList.map (.frame i)) = f.toList := by
  cases f with
  | none => rfl
  | some f => exact List.filterMap_cons_some (if_pos rfl)

/-- Frames are no entries of the session's log. -/
theorem entries_frames (i : ℕ) (f : Option Frame) : entries (f.toList.map (.frame i)) = [] := by
  cases f <;> rfl

section Drive

variable (env : Env) (cfg : HostCfg)

/-- Outputs are applied one by one. -/
theorem drive_cons (d : Driver) (o : Output) (outputs : List Output) :
    drive env cfg d (o :: outputs) =
      match drive env cfg d [o] with
      | (.ok false, d) => drive env cfg d outputs
      | r => r := by
  cases o with
  | Send msgType body =>
      rw [drive, drive]
      generalize Conn.sendFrame env d msgType body = r
      rcases r with ⟨r, d'⟩
      cases r <;> rfl
  | ClockPong t0 =>
      rw [drive, drive]
      generalize Conn.sendFrame env d CLOCK_PONG _ = r
      rcases r with ⟨r, d'⟩
      cases r <;> rfl
  | _ => rfl

/-- What an output does to the handles of the media threads. -/
def handles (media : List MediaHandle) : Output → List MediaHandle
  | .StartMedia multi =>
    media ++ (if multi then cfg.streams else [cfg.primary]).map MediaHandle.spawn
  | .RequestIdr streamId =>
    (Driver.tell { media } streamId MediaHandle.requestIdr).media
  | .Reconfigure params => (Driver.tell { media } 0 (MediaHandle.reconfigure params)).media
  | _ => media

/-- Telling a stream something tells one of the threads, or none. -/
theorem tell_cases (media : List MediaHandle) (streamId : UInt16) (f : MediaHandle → MediaHandle) :
    (Driver.tell { media } streamId f).media = media ∨
      ∃ i, (Driver.tell { media } streamId f).media = media.modify i f := by
  unfold Driver.tell
  dsimp only
  split
  · rename_i i _
    exact Or.inr ⟨i, rfl⟩
  · exact Or.inl rfl

/-- A thread is told something, or is left alone. -/
theorem getElem?_tell (media : List MediaHandle) (streamId : UInt16)
    (f : MediaHandle → MediaHandle) (j : ℕ) (h : MediaHandle) (hh : media[j]? = some h) :
    (Driver.tell { media } streamId f).media[j]? = some h ∨
      (Driver.tell { media } streamId f).media[j]? = some (f h) := by
  rcases tell_cases media streamId f with heq | ⟨i, heq⟩
  · rw [heq]
    exact Or.inl hh
  · rw [heq]
    by_cases hi : i = j
    · rw [hi, List.getElem?_modify_eq, hh]
      exact Or.inr rfl
    · rw [List.getElem?_modify_ne f media hi]
      exact Or.inl hh

theorem length_tell (media : List MediaHandle) (streamId : UInt16)
    (f : MediaHandle → MediaHandle) :
    (Driver.tell { media } streamId f).media.length = media.length := by
  rcases tell_cases media streamId f with heq | ⟨i, heq⟩
  · rw [heq]
  · rw [heq, List.length_modify]

/-- What a thread is told does not touch the rest of its handle. -/
theorem map_tell {α : Type*} (media : List MediaHandle) (streamId : UInt16)
    (f : MediaHandle → MediaHandle) (g : MediaHandle → α) (hg : ∀ h, g (f h) = g h) :
    (Driver.tell { media } streamId f).media.map g = media.map g := by
  refine List.ext_getElem? (fun j => ?_)
  rw [List.getElem?_map, List.getElem?_map]
  cases hh : media[j]? with
  | none =>
      rw [List.getElem?_eq_none_iff] at hh
      rw [List.getElem?_eq_none ((length_tell media streamId f).trans_le hh)]
  | some h =>
      rcases getElem?_tell media streamId f j h hh with htell | htell
      · rw [htell]
      · rw [htell, Option.map_some, Option.map_some, hg]

/-- No handle is taken away. -/
theorem length_handles (media : List MediaHandle) (o : Output) :
    media.length ≤ (handles cfg media o).length := by
  cases o with
  | StartMedia multi =>
      rw [handles, List.length_append]
      exact Nat.le_add_right _ _
  | RequestIdr streamId => exact (length_tell media streamId _).ge
  | Reconfigure params => exact (length_tell media 0 _).ge
  | _ => exact le_rfl

/-- The primary stream is the first one started. -/
theorem handles_nil_start_media (multi : Bool) :
    (handles cfg [] (.StartMedia multi))[0]? = some (MediaHandle.spawn cfg.primary) := by
  cases multi with
  | false => rfl
  | true =>
      change (cfg.streams.map MediaHandle.spawn)[0]? = _
      rw [List.getElem?_map, ← List.head?_eq_getElem?, List.head?_eq_some_head cfg.nonempty]
      rfl

/-- Writing a frame changes only what has been written. -/
theorem sendFrame_keeps (d : Driver) (msgType : UInt64)
    (body : List (Cbor.Value × Cbor.Value)) :
    (Conn.sendFrame env d msgType body).2.media = d.media ∧
      (Conn.sendFrame env d msgType body).2.closed = d.closed := by
  unfold Conn.sendFrame
  split <;> exact ⟨rfl, rfl⟩

/-- Applying an output that is written writes one frame. -/
theorem drive_written (d : Driver) (o : Output) (h : handles cfg d.media o = d.media)
    (msgType : UInt64) (body : List (Cbor.Value × Cbor.Value))
    (hdrive : drive env cfg d [o] =
      ((Conn.sendFrame env d msgType body).1.map fun _ => false,
        (Conn.sendFrame env d msgType body).2)) :
    (∀ done, (drive env cfg d [o]).1 = .ok done →
      (drive env cfg d [o]).2.media = handles cfg d.media o) ∧
    (∀ e, (drive env cfg d [o]).1 = .error e → (drive env cfg d [o]).2.media = d.media) ∧
    (d.closed.isSome = true → (drive env cfg d [o]).2.closed.isSome = true) := by
  rcases sendFrame_keeps env d msgType body with ⟨hmedia, hclosed⟩
  rw [hdrive, h, hmedia, hclosed]
  exact ⟨fun _ _ => rfl, fun _ _ => rfl, id⟩

/-- Applying an output moves the handles, or fails and leaves them. A close that
    has been made stays. -/
theorem drive_one (d : Driver) (o : Output) :
    (∀ done, (drive env cfg d [o]).1 = .ok done →
      (drive env cfg d [o]).2.media = handles cfg d.media o) ∧
    (∀ e, (drive env cfg d [o]).1 = .error e → (drive env cfg d [o]).2.media = d.media) ∧
    (d.closed.isSome = true → (drive env cfg d [o]).2.closed.isSome = true) := by
  cases o with
  | Send msgType body =>
      refine drive_written env cfg d (.Send msgType body) rfl msgType body ?_
      rw [drive]
      -- Whether it is written or not, no thread is told.
      generalize Conn.sendFrame env d msgType body = r
      rcases r with ⟨r, d'⟩
      cases r <;> rfl
  | ClockPong t0 =>
      -- The clock is read once, for both times.
      let now : ℤ := (env.clock d.sent.length).toNat
      refine drive_written env cfg d (.ClockPong t0) rfl CLOCK_PONG
        [(.Int 0, .Int t0.toInt), (.Int 1, .Int now), (.Int 2, .Int now)] ?_
      rw [drive]
      generalize Conn.sendFrame env d CLOCK_PONG _ = r
      rcases r with ⟨r, d'⟩
      cases r <;> rfl
  | Close code =>
      refine ⟨fun _ _ => rfl, fun e h => ?_, fun _ => ?_⟩
      · simp only [drive, reduceCtorEq] at h
      · -- A first close is kept, and this is one otherwise.
        exact isSome_close d.finish code (Errors.name code)
  | _ =>
      refine ⟨fun _ _ => rfl, fun e h => ?_, id⟩
      simp only [drive, reduceCtorEq] at h

end Drive

variable {E P : Type*} (env : Env) (cfg : HostCfg) (dropPercent : UInt32)
  (world : ℕ → Backend E P)

/-- A thread that opens its media runs with what it has opened, or has failed. -/
theorem openPipeline_cases (backend : Backend E P) (h : MediaHandle) :
    (∃ source encoder, backend.openBoth h.params = some (source, encoder) ∧
      openPipeline dropPercent backend h = .running
        { encoder, source, params := h.params, dropGen := DropInjector.new dropPercent,
          frameSeq := 0, idrWaiting := 0, opened := 1 }) ∨
      openPipeline dropPercent backend h = .failed := by
  unfold openPipeline
  cases hopen : backend.openBoth h.params with
  | none => exact Or.inr rfl
  | some opened => exact Or.inl ⟨opened.1, opened.2, rfl, rfl⟩

/-- A thread goes on from a turn, or has stopped. -/
theorem turn_phase_cases (backend : Backend E P) (i : ℕ) (p : Pipeline E P) (h : MediaHandle)
    (m : Thread E P) (t : Tick P) :
    (∃ m', (tick backend h.streamId m t).1 = some m' ∧
      (turnPipeline backend i p h m t).1.phase = .running m') ∨
    (tick backend h.streamId m t).1 = none ∧
      (turnPipeline backend i p h m t).1.phase = .stopped := by
  unfold turnPipeline
  dsimp only
  cases (tick backend h.streamId m t).1 with
  | none => exact Or.inr ⟨rfl, rfl⟩
  | some m' => exact Or.inl ⟨m', rfl, rfl⟩

/-- On a closed connection a turn ends the thread, before it looks at its
    channels. -/
theorem turnPipeline_closed (backend : Backend E P) (i : ℕ) (p : Pipeline E P) (h : MediaHandle)
    (m : Thread E P) {t : Tick P} (hclosed : t.closed = true) :
    turnPipeline backend i p h m t = ({ p with phase := .stopped }, []) := by
  have hnone : tick backend h.streamId m t = (none, none) := if_pos hclosed
  simp only [turnPipeline, hnone, if_pos hclosed]
  rfl

/-- What a step does to the state, and what is seen of it. A close is for good. -/
inductive Stepped (σ : State E P) : Action P → State E P → List Event → Prop
  | received (frame : Decoded) (houtputs : σ.outputs = []) :
      Stepped σ (.receive frame)
        { σ with
          steps := σ.steps + 1
          session := (σ.session.onFrame frame).1
          outputs := (σ.session.onFrame frame).2 } [.received frame]
  | applied (o : Output) (rest : List Output) (driver : Driver) (returned : Bool)
      (houtputs : σ.outputs = o :: rest) (hmedia : driver.media = handles cfg σ.driver.media o)
      (hclosed : σ.driver.closed.isSome = true → driver.closed.isSome = true) :
      Stepped σ .apply
        { σ with
          steps := σ.steps + 1
          outputs := rest
          driver
          returned
          pipelines := σ.pipelines ++
            List.replicate (driver.media.length - σ.pipelines.length) {} } [.applied o]
  /-- The session loop ends, or the connection is lost. -/
  | ended (a : Action P) (driver : Driver) (returned lost : Bool)
      (hcontrol : ∀ i t, a ≠ .turn i t) (hmedia : driver.media = σ.driver.media)
      (hclosed : σ.driver.closed.isSome = true → driver.closed.isSome = true)
      (hlost : σ.lost = true → lost = true) :
      Stepped σ a { σ with steps := σ.steps + 1, driver, returned, lost } []
  | opened (i : ℕ) (p : Pipeline E P) (h : MediaHandle) (hp : σ.pipelines[i]? = some p)
      (hh : σ.driver.media[i]? = some h) (hphase : p.phase = .spawned) :
      Stepped σ (.openMedia i)
        { σ with
          steps := σ.steps + 1
          pipelines := σ.pipelines.set i
            { p with phase := openPipeline dropPercent (world σ.steps) h } } []
  | turned (i : ℕ) (p : Pipeline E P) (h : MediaHandle) (m : Thread E P) (t : Tick P)
      (hp : σ.pipelines[i]? = some p) (hh : σ.driver.media[i]? = some h)
      (hphase : p.phase = .running m) (hclosed : t.closed = σ.closed)
      (hreconfig : t.reconfig <+: h.reconfig.drop p.reconfigTaken) :
      Stepped σ (.turn i t)
        { σ with
          steps := σ.steps + 1
          pipelines := σ.pipelines.set i (turnPipeline (world σ.steps) i p h m t).1 }
        (turnPipeline (world σ.steps) i p h m t).2

section Step

/-- A frame that does not decode ends the session loop. -/
theorem reportBadFrame_stepped (σ : State E P) :
    Stepped cfg dropPercent world σ .badFrame
      (reportBadFrame env { σ with steps := σ.steps + 1 }) [] := by
  have hkeeps := sendFrame_keeps env σ.driver ERROR (errorBody Errors.PROTOCOL_VIOLATION)
  unfold reportBadFrame
  split
  · rename_i d heq
    rw [heq] at hkeeps
    refine Stepped.ended _ _ true σ.lost (fun _ _ h => by cases h) hkeeps.1 (fun _ => ?_) id
    exact isSome_close d.finish Errors.PROTOCOL_VIOLATION "bad frame"
  · rename_i e d heq
    rw [heq] at hkeeps
    exact Stepped.ended _ d true σ.lost (fun _ _ h => by cases h) hkeeps.1
      (fun h => hkeeps.2 ▸ h) id

/-- An output is applied, or its write fails. -/
theorem applyOutput_stepped (σ : State E P) (o : Output) (rest : List Output)
    (houtputs : σ.outputs = o :: rest) :
    Stepped cfg dropPercent world σ .apply
      (applyOutput env cfg { σ with steps := σ.steps + 1 } o rest).1
      (applyOutput env cfg { σ with steps := σ.steps + 1 } o rest).2 := by
  rcases drive_one env cfg σ.driver o with ⟨hok, herror, hclosed⟩
  unfold applyOutput
  dsimp only
  split
  · rename_i done d heq
    rw [heq] at hok hclosed
    exact Stepped.applied o rest d done houtputs (hok done rfl) hclosed
  · rename_i e d heq
    rw [heq] at herror hclosed
    exact Stepped.ended _ d true σ.lost (fun _ _ h => by cases h) (herror e rfl) hclosed id

/-- The steps are those of `step`. -/
theorem step_stepped {σ σ' : State E P} {a : Action P} {events : List Event}
    (h : step env cfg dropPercent world σ a = some (σ', events)) :
    Stepped cfg dropPercent world σ a σ' events := by
  cases a with
  | receive frame =>
      simp only [step, State.reading, Option.ite_none_right_eq_some, Bool.and_eq_true] at h
      -- A frame is read only when no output is left.
      rcases h with ⟨⟨⟨-, houtputs⟩, -⟩, heq⟩
      cases heq
      exact Stepped.received frame (List.isEmpty_iff.mp houtputs)
  | apply =>
      simp only [step] at h
      split at h
      · rename_i o rest houtputs
        split at h
        · cases h
        · -- The next output is applied, unless the loop has returned.
          have hstepped := applyOutput_stepped env cfg dropPercent world σ o rest houtputs
          rwa [Option.some.inj h] at hstepped
      · cases h
  | badFrame =>
      simp only [step, Option.ite_none_right_eq_some] at h
      cases h.2
      -- The frame is reported, and the connection closed.
      exact reportBadFrame_stepped env cfg dropPercent world σ
  | eof =>
      simp only [step, Option.ite_none_right_eq_some] at h
      cases h.2
      -- The end of the stream closes the connection as well.
      exact Stepped.ended _ _ true σ.lost (fun _ _ h => by cases h) rfl
        (fun _ => isSome_close σ.driver Errors.NONE "eof") id
  | readError =>
      simp only [step, Option.ite_none_right_eq_some] at h
      cases h.2
      -- A read error ends the loop with the connection as it is.
      exact Stepped.ended _ σ.driver true σ.lost (fun _ _ h => by cases h) rfl id id
  | lose =>
      cases h
      exact Stepped.ended _ σ.driver σ.returned true (fun _ _ h => by cases h) rfl id (fun _ => rfl)
  | openMedia i =>
      simp only [step] at h
      split at h
      · rename_i p handle hp hh
        split at h
        · -- The thread has been spawned and has not opened anything yet.
          rename_i hphase
          cases h
          exact Stepped.opened i p handle hp hh hphase
        · cases h
      · cases h
  | turn i t =>
      simp only [step] at h
      split at h
      · rename_i p handle hp hh
        split at h
        · rename_i m hphase
          split at h
          · -- The tick sees the connection as it is, and drains what is there.
            rename_i hoffered
            cases h
            simp only [offered, Bool.and_eq_true, beq_iff_eq,
              List.isPrefixOf_iff_prefix] at hoffered
            exact Stepped.turned i p handle m t hp hh hphase hoffered.1.1 hoffered.1.2
          · cases h
        · cases h
      · cases h

end Step

section Thread

/-- What a step does to one thread, and the frames it sends. -/
inductive Moves (σ : State E P) (a : Action P) (i : ℕ) :
    Option (Pipeline E P) → List Frame → Prop
  | kept : Moves σ a i σ.pipelines[i]? []
  | spawned (p : Pipeline E P) (hnone : σ.pipelines[i]? = none) (hphase : p.phase = .spawned) :
      Moves σ a i (some p) []
  | opened (p : Pipeline E P) (h : MediaHandle) (hp : σ.pipelines[i]? = some p)
      (hphase : p.phase = .spawned) :
      Moves σ a i (some { p with phase := openPipeline dropPercent (world σ.steps) h }) []
  | turned (p : Pipeline E P) (h : MediaHandle) (m : Thread E P) (t : Tick P) (ha : a = .turn i t)
      (hp : σ.pipelines[i]? = some p) (hphase : p.phase = .running m) :
      Moves σ a i (some (turnPipeline (world σ.steps) i p h m t).1)
        (tick (world σ.steps) h.streamId m t).2.toList

/-- A thread that is left alone. -/
theorem moves_of_eq {σ : State E P} {a : Action P} {i : ℕ} {p : Option (Pipeline E P)}
    {sent : List Frame} (hp : p = σ.pipelines[i]?) (hsent : sent = []) :
    Moves dropPercent world σ a i p sent := by
  rw [hp, hsent]
  exact Moves.kept

/-- A step moves one thread at most, but for those it starts. -/
theorem Stepped.moves {σ σ' : State E P} {a : Action P} {events : List Event}
    (hs : Stepped cfg dropPercent world σ a σ' events) (i : ℕ) :
    Moves dropPercent world σ a i σ'.pipelines[i]? (framesOf i events) := by
  cases hs with
  | received frame _ => exact Moves.kept
  | applied o rest driver returned _ _ _ =>
      rcases lt_or_ge i σ.pipelines.length with hlt | hge
      · exact moves_of_eq dropPercent world (List.getElem?_append_left hlt) rfl
      · -- The threads that an output starts come after those there are.
        have hnone : σ.pipelines[i]? = none := List.getElem?_eq_none hge
        dsimp only
        rw [List.getElem?_append_right hge, List.getElem?_replicate]
        split
        · exact Moves.spawned _ hnone rfl
        · exact moves_of_eq dropPercent world hnone.symm rfl
  | ended a driver returned lost _ _ _ _ => exact Moves.kept
  | opened j p handle hp _ hphase =>
      by_cases hj : j = i
      · rw [hj] at hp ⊢
        rw [getElem?_set_self hp]
        exact Moves.opened p handle hp hphase
      · exact moves_of_eq dropPercent world (List.getElem?_set_ne hj) rfl
  | turned j p handle m t hp _ hphase _ _ =>
      by_cases hj : j = i
      · rw [hj] at hp ⊢
        rw [getElem?_set_self hp, turnPipeline, framesOf_frames]
        exact Moves.turned p handle m t rfl hp hphase
      · -- Another thread: the frames carry its index.
        refine moves_of_eq dropPercent world (List.getElem?_set_ne hj)
          (framesOf_eq_nil (fun f hf => ?_))
        rcases List.mem_map.mp hf with ⟨g, -, hg⟩
        exact hj (Event.frame.inj hg).1

end Thread

section Control

/-- The log of the session is what the control task has received and applied,
    and the outputs it is still to apply. -/
def Controlled (sessionId : Vector UInt8 16) (σ : State E P) (trace : List Event) : Prop :=
  ∃ frames,
    σ.session = (HostSession.new cfg.name sessionId cfg.primary.params
      cfg.extraStreamConfigs).run frames ∧
    log (HostSession.new cfg.name sessionId cfg.primary.params cfg.extraStreamConfigs) frames =
      entries trace ++ σ.outputs.map .out

theorem Stepped.controlled {sessionId : Vector UInt8 16} {σ σ' : State E P}
    {a : Action P} {trace events : List Event} (hs : Stepped cfg dropPercent world σ a σ' events)
    (h : Controlled cfg sessionId σ trace) : Controlled cfg sessionId σ' (trace ++ events) := by
  rcases h with ⟨frames, hsession, hlog⟩
  -- A step of a media thread leaves the session and its outputs alone.
  have hmedia (hnone : entries events = []) (hsame : σ'.session = σ.session)
      (hout : σ'.outputs = σ.outputs) : Controlled cfg sessionId σ' (trace ++ events) := by
    refine ⟨frames, hsame.trans hsession, ?_⟩
    rw [entries_append, hnone, List.append_nil, hout]
    exact hlog
  cases hs with
  | received frame houtputs =>
      refine ⟨frames ++ [frame], ?_, ?_⟩
      · rw [run_append, ← hsession]
        rfl
      · rw [log_append, hlog, houtputs, ← hsession, entries_append]
        simp only [entries, Event.entry, List.map_nil, List.append_nil, log, Option.some.injEq,
          List.filterMap_cons_some, List.filterMap_nil, List.append_assoc, List.cons_append,
          List.nil_append]
  | applied o rest driver returned houtputs _ _ =>
      refine ⟨frames, hsession, ?_⟩
      rw [hlog, houtputs, entries_append]
      simp only [entries, Event.entry, List.map_cons, Option.some.injEq, List.filterMap_cons_some,
        List.filterMap_nil, List.append_assoc, List.cons_append, List.nil_append]
  | ended a driver returned lost _ _ _ _ => exact hmedia rfl rfl rfl
  | opened i p h _ _ _ => exact hmedia rfl rfl rfl
  | turned i p h m t _ _ _ _ _ => exact hmedia (entries_frames i _) rfl rfl

/-- The log of every run is that of its session. -/
theorem controlled_exec {sessionId : Vector UInt8 16} {σ : State E P} {trace : List Event}
    {actions : List (Action P)}
    (h : Machine.exec (step env cfg dropPercent world) (start cfg sessionId) actions =
      some (σ, trace)) : Controlled cfg sessionId σ trace := by
  refine Machine.exec_invariant (Controlled cfg sessionId) ⟨[], rfl, rfl⟩
    (fun σ trace a σ' events hinv hstep => ?_) h
  exact (step_stepped env cfg dropPercent world hstep).controlled cfg dropPercent world hinv

end Control

end System

end LoomHost
