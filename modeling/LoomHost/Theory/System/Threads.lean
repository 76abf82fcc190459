import LoomHost.Theory.System.Advertised

/-!
# The Threads of a Connection

A media thread of the host is the media loop of its stream, whatever the control
task and the other threads do in between: the frames of the thread are those of
the loop for the turns it has taken. What holds of every run of the loop holds of
every thread of every connection.

The streams share one connection, so their datagrams reach the client mixed. A
datagram carries the id of its stream, and a receiver takes those of its own, so
that each stream is decoded as if it were alone.

## Main definitions

* `ticksOf`: The turns of one thread.
* `loopState`, `openedThread`: The loop, from its beginning.
* `Looped`: The threads, as loops.
* `Logged`: The threads, with the numbers of their frames.

## Theorems

* `looped_exec`, `frames_eq_run`: A thread is a loop.
* `logged_exec`: The logs of the threads are numbered.
* `received_other`: A datagram of another stream is not taken.
* `received_of_other`: A receiver takes nothing of another thread.
* `streams_decodable`: Each stream is decoded without a reference missing.
-/

namespace LoomHost

namespace System

open Control Session Conn Media Datagram Reassembly

section Loop

variable {E P : Type*} (backend : Backend E P) (streamId : UInt16)

/-- The turns of one thread. -/
def ticksOf (i : ℕ) (actions : List (Action P)) : List (Tick P) :=
  actions.filterMap fun
    | .turn j t => if j = i then some t else none
    | _ => none

/-- The state of a loop after these ticks, unless it has stopped. -/
def loopState (m : Thread E P) : List (Tick P) → Option (Thread E P)
  | [] => some m
  | t :: ticks =>
    match (tick backend streamId m t).1 with
    | some m => loopState m ticks
    | none => none

/-- A thread that has opened its encoder and its source. -/
def openedThread (params : MediaParams) (dropPercent : UInt32) : Option (Thread E P) :=
  (backend.openBoth params).map fun r =>
    { encoder := r.2, source := r.1, params, dropGen := DropInjector.new dropPercent,
      frameSeq := 0, idrWaiting := 0, opened := 1 }

theorem mem_framesOf {i : ℕ} {trace : List Event} {f : Frame} :
    f ∈ framesOf i trace ↔ .frame i f ∈ trace := by
  rw [framesOf, List.mem_filterMap]
  constructor
  · rintro ⟨e, he, hf⟩
    cases e with
    | frame j g =>
        dsimp only at hf
        split at hf
        · rename_i hj
          rw [← Option.some.inj hf, ← hj]
          exact he
        · cases hf
    | _ => cases hf
  · exact fun h => ⟨.frame i f, h, if_pos rfl⟩

variable {backend streamId}

/-- One tick more. -/
theorem loopState_concat (t : Tick P) (ticks : List (Tick P)) : ∀ m : Thread E P,
    loopState backend streamId m (ticks ++ [t]) =
      (loopState backend streamId m ticks).bind fun m => (tick backend streamId m t).1 := by
  induction ticks with
  | nil =>
      intro m
      rw [List.nil_append, loopState, loopState, Option.bind_some]
      cases (tick backend streamId m t).1 <;> rfl
  | cons s ticks ih =>
      intro m
      rw [List.cons_append, loopState, loopState]
      cases (tick backend streamId m s).1 with
      | none => rfl
      | some m' => exact ih m'

/-- The access units of one tick more. -/
theorem frames_concat (t : Tick P) (ticks : List (Tick P)) : ∀ m : Thread E P,
    frames backend streamId m (ticks ++ [t]) = frames backend streamId m ticks ++
      match loopState backend streamId m ticks with
      | some m => (tick backend streamId m t).2.toList
      | none => [] := by
  induction ticks with
  | nil =>
      intro m
      rw [List.nil_append, frames, frames, loopState, List.nil_append]
      dsimp only
      split
      · rename_i heq
        rw [heq, frames, List.append_nil]
      · rename_i heq
        rw [heq]
  | cons s ticks ih =>
      intro m
      rw [List.cons_append, frames, frames, loopState]
      split
      · -- The loop goes on, and meets the last tick later.
        rename_i m' f heq
        rw [heq]
        dsimp only
        rw [ih m', List.append_assoc]
      · -- It has stopped before the last tick.
        rename_i f heq
        rw [heq]
        exact (List.append_nil _).symm

theorem ticksOf_append (i : ℕ) (u v : List (Action P)) :
    ticksOf i (u ++ v) = ticksOf i u ++ ticksOf i v :=
  List.filterMap_append

/-- An action that is no turn of a thread. -/
theorem ticksOf_other {i : ℕ} {a : Action P} (h : ∀ t, a ≠ .turn i t) : ticksOf i [a] = [] := by
  cases a with
  | turn j t =>
      have hji : j ≠ i := fun hji => h t (hji ▸ rfl)
      exact List.filterMap_cons_none (if_neg hji)
  | _ => rfl

end Loop

section Looped

variable {E P : Type*} (backend : Backend E P) (dropPercent : UInt32)

/-- What a thread has done is what the loop of its stream does. -/
def RanPhase (streamId : UInt16) (params : MediaParams) (ticks : List (Tick P))
    (sent : List Frame) : Phase E P → Prop
  | .spawned => ticks = [] ∧ sent = []
  | .failed => openedThread backend params dropPercent = none ∧ ticks = [] ∧ sent = []
  | .running m => ∃ first, openedThread backend params dropPercent = some first ∧
      loopState backend streamId first ticks = some m ∧
      frames backend streamId first ticks = sent
  | .stopped => ∃ first, openedThread backend params dropPercent = some first ∧
      frames backend streamId first ticks = sent

/-- The threads, each with its handle. -/
structure Looped (taken : List (Action P)) (σ : State E P) (trace : List Event) : Prop where
  lengths : σ.pipelines.length = σ.driver.media.length
  absent : ∀ i, σ.pipelines[i]? = none → ticksOf i taken = [] ∧ framesOf i trace = []
  ran : ∀ (i : ℕ) (p : Pipeline E P) (h : MediaHandle), σ.pipelines[i]? = some p →
    σ.driver.media[i]? = some h →
    RanPhase backend dropPercent h.streamId h.params (ticksOf i taken) (framesOf i trace)
      p.phase

variable {backend dropPercent} {cfg : HostCfg} {σ σ' : State E P} {a : Action P}
  {taken : List (Action P)} {trace events : List Event}

/-- A step in which no thread takes a turn, and the threads that are there are left
    as they are. -/
theorem Looped.quiet (h : Looped backend dropPercent taken σ trace)
    (ha : ∀ i t, a ≠ .turn i t) (hquiet : ∀ i, framesOf i events = [])
    (hpipelines : σ'.pipelines = σ.pipelines) (hmedia : σ'.driver.media = σ.driver.media) :
    Looped backend dropPercent (taken ++ [a]) σ' (trace ++ events) := by
  refine ⟨by rw [hpipelines, hmedia]; exact h.lengths, fun i hi => ?_, fun i p handle hp hh => ?_⟩
  · rw [ticksOf_append, ticksOf_other (ha i), framesOf_append, hquiet i, List.append_nil,
      List.append_nil]
    exact h.absent i (hpipelines ▸ hi)
  · rw [ticksOf_append, ticksOf_other (ha i), framesOf_append, hquiet i, List.append_nil,
      List.append_nil]
    exact h.ran i p handle (hpipelines ▸ hp) (hmedia ▸ hh)

/-- What is said of a thread that was there, when another one moves. -/
theorem Looped.others (h : Looped backend dropPercent taken σ trace) {j : ℕ} {p : Pipeline E P}
    (hj : ∀ i t, a = .turn i t → i = j) (hquiet : ∀ i, i ≠ j → framesOf i events = [])
    {q : Pipeline E P} {handle : MediaHandle} (hp : σ.pipelines[j]? = some p)
    (hh : σ.driver.media[j]? = some handle)
    (hran : RanPhase backend dropPercent handle.streamId handle.params
      (ticksOf j (taken ++ [a])) (framesOf j (trace ++ events)) q.phase) :
    Looped backend dropPercent (taken ++ [a])
      { σ with steps := σ.steps + 1, pipelines := σ.pipelines.set j q } (trace ++ events) := by
  -- Another thread took no turn and sent nothing.
  have hkept {i : ℕ} (hij : i ≠ j) : ticksOf i (taken ++ [a]) = ticksOf i taken ∧
      framesOf i (trace ++ events) = framesOf i trace := by
    have hother : ∀ t, a ≠ .turn i t := fun t ha => hij (hj i t ha)
    rw [ticksOf_append, ticksOf_other hother, framesOf_append, hquiet i hij, List.append_nil,
      List.append_nil]
    exact ⟨rfl, rfl⟩
  refine ⟨(List.length_set ..).trans h.lengths, fun i hi => ?_, fun i r handle' hr hh' => ?_⟩
  · -- The thread of the step is there, so it is not the absent one.
    have hij : i ≠ j := by
      rintro rfl
      dsimp only at hi
      rw [getElem?_set_self hp] at hi
      cases hi
    dsimp only at hi
    rw [List.getElem?_set_ne (Ne.symm hij)] at hi
    rw [(hkept hij).1, (hkept hij).2]
    exact h.absent i hi
  · dsimp only at hr hh'
    by_cases hij : i = j
    · rw [hij] at hr hh' ⊢
      -- The thread of the step: what it ran is given.
      rw [getElem?_set_self hp, Option.some.injEq] at hr
      rw [hh, Option.some.injEq] at hh'
      rw [← hr, ← hh']
      exact hran
    · rw [List.getElem?_set_ne (Ne.symm hij)] at hr
      rw [(hkept hij).1, (hkept hij).2]
      exact h.ran i r handle' hr hh'

/-- A thread opens its encoder and its source. -/
theorem ran_opened {streamId : UInt16} (h : MediaHandle) :
    RanPhase backend dropPercent streamId h.params [] []
      (openPipeline dropPercent backend h) := by
  rcases openPipeline_cases dropPercent backend h with ⟨source, encoder, hopen, hphase⟩ | hphase
  · rw [hphase]
    exact ⟨_, by rw [openedThread, hopen]; rfl, rfl, rfl⟩
  · have hnone : backend.openBoth h.params = none := by
      unfold openPipeline at hphase
      split at hphase
      · cases hphase
      · assumption
    rw [hphase]
    exact ⟨by rw [openedThread, hnone]; rfl, rfl, rfl⟩

/-- A thread takes a turn. -/
theorem ran_turned {i : ℕ} {p : Pipeline E P} {h : MediaHandle} {m : Thread E P} {t : Tick P}
    {ticks : List (Tick P)} {sent : List Frame}
    (hran : RanPhase backend dropPercent h.streamId h.params ticks sent (.running m)) :
    RanPhase backend dropPercent h.streamId h.params (ticks ++ [t])
      (sent ++ (tick backend h.streamId m t).2.toList)
      (turnPipeline backend i p h m t).1.phase := by
  rcases hran with ⟨first, hfirst, hstate, rfl⟩
  have hframes : frames backend h.streamId first (ticks ++ [t]) = _ :=
    frames_concat t ticks first
  rw [hstate] at hframes
  rcases turn_phase_cases backend i p h m t with ⟨m', hm', hphase⟩ | ⟨-, hphase⟩
  · rw [hphase]
    refine ⟨first, hfirst, ?_, hframes⟩
    rw [loopState_concat, hstate]
    exact hm'
  · rw [hphase]
    exact ⟨first, hfirst, hframes⟩

/-- The handle of a thread that was there before an output was applied. -/
theorem told_handle (cfg : HostCfg) {media : List MediaHandle} {o : Output} {i : ℕ}
    {h : MediaHandle} (hh : (handles cfg media o)[i]? = some h) (hi : i < media.length) :
    ∃ old, media[i]? = some old ∧ h.streamId = old.streamId ∧ h.params = old.params := by
  have hold := List.getElem?_eq_getElem hi
  have hsame := congrArg (fun l => l[i]?) (map_handles cfg media o)
  rw [List.getElem?_map, hh, List.getElem?_append_left ((List.length_map _).symm ▸ hi),
    List.getElem?_map, hold, Option.map_some, Option.map_some, Option.some.injEq, spawnedAs,
    spawnedAs, Prod.mk.injEq] at hsame
  exact ⟨media[i], hold, hsame⟩

/-- What a step keeps, when the encoders and sources are the same throughout. -/
theorem Stepped.looped (hs : Stepped cfg dropPercent (fun _ => backend) σ a σ' events)
    (h : Looped backend dropPercent taken σ trace) :
    Looped backend dropPercent (taken ++ [a]) σ' (trace ++ events) := by
  cases hs with
  | received frame _ => exact h.quiet nofun (fun _ => rfl) rfl rfl
  | ended a driver returned lost hcontrol hmedia _ _ =>
      exact h.quiet hcontrol (fun _ => rfl) rfl hmedia
  | opened j p handle hp hh hphase =>
      have hran := h.ran j p handle hp hh
      rw [hphase] at hran
      have hother (k : ℕ) (t : Tick P) : (.openMedia j : Action P) ≠ .turn k t :=
        fun h => by cases h
      refine h.others (fun k t ht => absurd ht (hother k t)) (fun _ _ => rfl) hp hh ?_
      rw [ticksOf_append, ticksOf_other (hother j), framesOf_append, hran.1, hran.2]
      exact ran_opened handle
  | turned j p handle m t hp hh hphase _ _ =>
      have hran := h.ran j p handle hp hh
      rw [hphase] at hran
      refine h.others (fun i t' ha => (Action.turn.inj ha).1.symm) (fun i hij => ?_) hp hh ?_
      · refine framesOf_eq_nil (fun f hf => ?_)
        rcases List.mem_map.mp hf with ⟨g, -, hg⟩
        exact hij (Event.frame.inj hg).1.symm
      · have hticks : ticksOf j [(.turn j t : Action P)] = [t] := by
          simp only [ticksOf, ↓reduceIte, Option.some.injEq, List.filterMap_cons_some,
            List.filterMap_nil]
        rw [ticksOf_append, hticks, framesOf_append]
        change RanPhase backend dropPercent handle.streamId handle.params _
          (framesOf j trace ++ framesOf j
            ((tick backend handle.streamId m t).2.toList.map (.frame j))) _
        rw [framesOf_frames]
        exact ran_turned hran
  | applied o rest driver returned _ hmedia _ =>
      have hmore := length_handles cfg σ.driver.media o
      have hlengths := h.lengths
      have hkept (i : ℕ) : ticksOf i (taken ++ [(.apply : Action P)]) = ticksOf i taken ∧
          framesOf i (trace ++ [.applied o]) = framesOf i trace := by
        have hother (t : Tick P) : (.apply : Action P) ≠ .turn i t := fun h => by cases h
        rw [ticksOf_append, ticksOf_other hother, framesOf_append, List.append_nil]
        exact ⟨rfl, List.append_nil _⟩
      refine ⟨?_, fun i hi => ?_, fun i p handle hp hh => ?_⟩
      · dsimp only
        rw [List.length_append, List.length_replicate, hmedia]
        omega
      · rw [(hkept i).1, (hkept i).2]
        refine h.absent i ?_
        rw [List.getElem?_eq_none_iff, List.length_append] at hi
        exact List.getElem?_eq_none (by omega)
      · rw [(hkept i).1, (hkept i).2]
        dsimp only at hp hh
        rw [List.getElem?_append] at hp
        split at hp
        · -- A thread that was there, and is perhaps told something.
          rename_i hlt
          rcases told_handle cfg (hmedia ▸ hh) (hlengths ▸ hlt) with ⟨old, hold, hid, hparams⟩
          rw [hid, hparams]
          exact h.ran i p old hp hold
        · rename_i hge
          rw [List.getElem?_replicate] at hp
          split at hp
          · rw [← Option.some.inj hp]
            exact h.absent i (List.getElem?_eq_none (Nat.not_lt.mp hge))
          · cases hp

variable (env : Env) (cfg) (dropPercent) (backend)

/-- The threads of every run are loops. -/
theorem looped_exec {sessionId : Vector UInt8 16} {actions : List (Action P)}
    (h : Machine.exec (step env cfg dropPercent fun _ => backend) (start cfg sessionId) actions =
      some (σ, trace)) : Looped backend dropPercent actions σ trace := by
  have hstart : Looped backend dropPercent [] (start (E := E) cfg sessionId) [] :=
    ⟨rfl, fun _ _ => ⟨rfl, rfl⟩, fun i p handle hp => absurd hp (by simp only [start,
      List.length_nil, not_lt_zero, not_false_eq_true, getElem?_neg, reduceCtorEq])⟩
  refine Machine.exec_tracks (Looped backend dropPercent)
    (fun taken σ trace a σ' events hinv hstep => ?_) actions hstart h
  exact (step_stepped env cfg dropPercent _ hstep).looped hinv

/-- A media thread refines the media loop. In every run of a connection, whatever
    the control task and the other threads do in between, the frames of a thread
    are those of the loop of its stream for the turns it has taken. -/
theorem frames_eq_run {sessionId : Vector UInt8 16} {actions : List (Action P)}
    (h : Machine.exec (step env cfg dropPercent fun _ => backend) (start cfg sessionId) actions =
      some (σ, trace)) {i : ℕ} {handle : MediaHandle} (hi : σ.driver.media[i]? = some handle) :
    framesOf i trace =
      run backend handle.streamId handle.params dropPercent (ticksOf i actions) := by
  have hlooped := looped_exec backend dropPercent cfg env h
  have hlt := (List.getElem?_eq_some_iff.mp hi).1
  have hthere : ∃ p, σ.pipelines[i]? = some p :=
    ⟨_, List.getElem?_eq_getElem (hlooped.lengths ▸ hlt)⟩
  rcases hthere with ⟨p, hp⟩
  have hran := hlooped.ran i p handle hp hi
  have hrun : run backend handle.streamId handle.params dropPercent (ticksOf i actions) =
      match openedThread backend handle.params dropPercent with
      | some first => frames backend handle.streamId first (ticksOf i actions)
      | none => [] := by
    unfold run openedThread
    cases backend.openBoth handle.params <;> rfl
  rw [hrun]
  cases hphase : p.phase with
  | spawned =>
      -- It has taken no turn, and a loop without ticks sends nothing.
      rw [hphase] at hran
      rw [hran.1, hran.2]
      cases openedThread backend handle.params dropPercent <;> rfl
  | failed =>
      rw [hphase] at hran
      rw [hran.1, hran.2.2]
  | running m =>
      rw [hphase] at hran
      rcases hran with ⟨first, hfirst, -, hsent⟩
      rw [hfirst, ← hsent]
  | stopped =>
      rw [hphase] at hran
      rcases hran with ⟨first, hfirst, hsent⟩
      rw [hfirst, ← hsent]

/-- Two frames of a connection, the second at a new size, are those of the loop. -/
theorem frames_eq_run_resized : ∃ σ trace, resizedRun = some (σ, trace) ∧
    (framesOf 0 trace).length = 2 ∧
    framesOf 0 trace = run sampleEncoder 0 {} 0
      [tickTaking [], tickTaking [{ width := 1280, height := 720 }]] := by
  have hrun : ∃ σ trace handle, resizedRun = some (σ, trace) ∧
      σ.driver.media[0]? = some handle ∧ (framesOf 0 trace).length = 2 ∧
      handle.streamId = 0 ∧ handle.params = ({} : MediaParams) :=
    ⟨_, _, _, rfl, rfl, rfl, rfl, rfl⟩
  rcases hrun with ⟨σ, trace, handle, hrun, hi, htwo, hid, hparams⟩
  have hframes := frames_eq_run sampleEncoder 0 oneStream sampleEnv hrun hi
  rw [hid, hparams] at hframes
  exact ⟨σ, trace, hrun, htwo, hframes⟩

end Looped

section Counted

variable {E P : Type*}

/-- Frames numbered from 0 on, of encoders that never come back. -/
structure Counted (sent : List Frame) : Prop where
  numbers : ∀ k f, sent[k]? = some f → f.frameSeq = UInt32.ofNat k
  encoders : sent.Pairwise fun f g => f.encoder ≤ g.encoder

/-- A thread that has sent these frames goes on from the next number. -/
def CountedPhase (sent : List Frame) : Phase E P → Prop
  | .spawned => sent = []
  | .running m => m.frameSeq = UInt32.ofNat sent.length ∧ ∀ g ∈ sent, g.encoder ≤ m.opened
  | _ => True

/-- The logs of the threads. -/
def Logged (σ : State E P) (trace : List Event) : Prop :=
  ∀ i, Counted (framesOf i trace) ∧ (σ.pipelines[i]? = none → framesOf i trace = []) ∧
    ∀ p, σ.pipelines[i]? = some p → CountedPhase (framesOf i trace) p.phase

variable {cfg : HostCfg} {dropPercent : UInt32} {world : ℕ → Backend E P} {σ σ' : State E P}
  {a : Action P} {trace events : List Event}

theorem counted_nil : Counted [] := ⟨fun k f h => absurd h (by simp only [List.length_nil,
  not_lt_zero, not_false_eq_true, getElem?_neg, reduceCtorEq]), List.Pairwise.nil⟩

/-- One frame more, with the next number. -/
theorem Counted.concat {sent : List Frame} {f : Frame} (h : Counted sent)
    (hnum : f.frameSeq = UInt32.ofNat sent.length) (hle : ∀ g ∈ sent, g.encoder ≤ f.encoder) :
    Counted (sent ++ [f]) := by
  refine ⟨fun k g hg => ?_, ?_⟩
  · rw [List.getElem?_append] at hg
    split at hg
    · exact h.numbers k g hg
    · rename_i hge
      rw [List.getElem?_singleton] at hg
      split at hg
      · rename_i hk
        rw [← Option.some.inj hg, hnum]
        congr 1
        omega
      · cases hg
  · refine List.pairwise_append.mpr ⟨h.encoders, List.pairwise_singleton _ f, fun g hg g' hg' => ?_⟩
    rw [List.mem_singleton.mp hg']
    exact hle g hg

/-- What a turn keeps. -/
theorem counted_turn (backend : Backend E P) (streamId : UInt16) {sent : List Frame}
    {m : Thread E P} (t : Tick P) (h : Counted sent)
    (hm : m.frameSeq = UInt32.ofNat sent.length) (hle : ∀ g ∈ sent, g.encoder ≤ m.opened) :
    Counted (sent ++ (tick backend streamId m t).2.toList) ∧
      ∀ m', (tick backend streamId m t).1 = some m' →
        CountedPhase (sent ++ (tick backend streamId m t).2.toList) (.running m' : Phase E P) := by
  have hcases := tick_cases backend streamId m t
  generalize tick backend streamId m t = r at hcases ⊢
  cases hcases with
  | stopped =>
      rw [Option.toList_none, List.append_nil]
      exact ⟨h, fun m' hm' => by cases hm'⟩
  | silent m' hseq hopened =>
      rw [Option.toList_none, List.append_nil]
      -- Nothing sent, so the number stays, and encoders are only ever reopened.
      refine ⟨h, fun m₁ hm₁ => ?_⟩
      rw [← Option.some.inj hm₁]
      exact ⟨hseq.trans hm, fun g hg => (hle g hg).trans hopened⟩
  | returned m' f hseq hopened hnum hencoder _ =>
      rw [Option.toList_some]
      -- The frame has the next number, and an encoder no older than the others.
      have hbelow : ∀ g ∈ sent, g.encoder ≤ f.encoder := fun g hg =>
        hencoder ▸ (hle g hg).trans hopened
      refine ⟨h.concat (hnum.trans hm) hbelow, fun m₁ hm₁ => ?_⟩
      rw [← Option.some.inj hm₁]
      refine ⟨?_, fun g hg => ?_⟩
      · -- The counter wraps with the count.
        rw [hseq, hm, List.length_append, UInt32.ofNat_add]
        rfl
      · rcases List.mem_append.mp hg with hg | hg
        · exact (hle g hg).trans hopened
        · rw [List.mem_singleton.mp hg, hencoder]

/-- What a step keeps. -/
theorem Stepped.logged (hs : Stepped cfg dropPercent world σ a σ' events)
    (h : Logged σ trace) : Logged σ' (trace ++ events) := by
  intro i
  rcases h i with ⟨hcounted, hnone, hsome⟩
  have hmoves := hs.moves cfg dropPercent world i
  rw [framesOf_append]
  generalize σ'.pipelines[i]? = p' at hmoves ⊢
  generalize framesOf i events = sent at hmoves ⊢
  cases hmoves with
  | kept =>
      rw [List.append_nil]
      exact ⟨hcounted, hnone, hsome⟩
  | spawned p hp hphase =>
      rw [List.append_nil]
      refine ⟨hcounted, fun hp' => absurd hp' (by simp only [reduceCtorEq, not_false_eq_true]),
        fun q hq => ?_⟩
      rw [← Option.some.inj hq, hphase]
      -- A thread that was not there has sent nothing.
      exact hnone hp
  | opened p handle hp hphase =>
      rw [List.append_nil]
      refine ⟨hcounted, fun hp' => absurd hp' (by simp only [reduceCtorEq, not_false_eq_true]),
        fun q hq => ?_⟩
      have hsent := hsome p hp
      rw [hphase] at hsent
      rw [← Option.some.inj hq, hsent]
      rcases openPipeline_cases dropPercent (world σ.steps) handle with
        ⟨source, encoder, -, hphase'⟩ | hphase'
      · rw [hphase']
        -- Before it opened its encoder it had sent nothing, so it starts at zero.
        exact ⟨rfl, fun g hg => absurd hg List.not_mem_nil⟩
      · rw [hphase']
        trivial
  | turned p handle m t _ hp hphase =>
      have hrunning := hsome p hp
      rw [hphase] at hrunning
      -- A turn numbers its frame behind those sent so far.
      have hturn := counted_turn (world σ.steps) handle.streamId t hcounted hrunning.1 hrunning.2
      rcases hturn with ⟨hcounted', hgoes⟩
      refine ⟨hcounted', fun hp' => absurd hp' (by simp only [reduceCtorEq, not_false_eq_true]),
        fun q hq => ?_⟩
      rw [← Option.some.inj hq]
      rcases turn_phase_cases (world σ.steps) i p handle m t with ⟨m', hm', hphase'⟩ | ⟨-, hphase'⟩
      · rw [hphase']
        exact hgoes m' hm'
      · rw [hphase']
        trivial

variable (env : Env) (cfg) (dropPercent) (world)

/-- The logs of the threads of every run are numbered. -/
theorem logged_exec {sessionId : Vector UInt8 16} {actions : List (Action P)}
    (h : Machine.exec (step env cfg dropPercent world) (start cfg sessionId) actions =
      some (σ, trace)) {i : ℕ} {handle : MediaHandle} (hi : σ.driver.media[i]? = some handle) :
    Numbered handle.streamId 0 0 (framesOf i trace) := by
  have hlogged : Logged σ trace := by
    refine Machine.exec_invariant Logged
      (fun i => ⟨counted_nil, fun _ => rfl, fun p hp => absurd hp (by simp only [start,
        List.length_nil, not_lt_zero, not_false_eq_true, getElem?_neg, reduceCtorEq])⟩)
      (fun σ trace a σ' events hinv hstep => ?_) h
    exact (step_stepped env cfg dropPercent world hstep).logged hinv
  have hstreamed := streamed_exec env h
  refine ⟨fun k f hf => ?_, fun f _ => Nat.zero_le _, (hlogged i).1.encoders, fun f hf => ?_⟩
  · rw [UInt32.zero_add]
    exact (hlogged i).1.numbers k f hf
  · rcases hstreamed.frames i f (mem_framesOf.mp hf) with ⟨s, hs, hcut⟩
    -- The handle carries the identifier its stream was started with.
    have hsame := congrArg (fun l => l[i]?) hstreamed.media
    rw [List.getElem?_map, hi, List.getElem?_map, hs, Option.map_some, Option.map_some,
      Option.some.injEq, spawnedAs, Prod.mk.injEq] at hsame
    rw [hsame.1]
    exact hcut.sent

end Counted

section Streams

/-- A datagram of another stream is not taken. -/
theorem received_other {streamId other : UInt16} (hother : other ≠ streamId) {f : Frame}
    (hcut : CutFrom other f) (hsmall : f.body.length ≤ 65535 * MAX_PAYLOAD) {dg : List UInt8}
    (hdg : dg ∈ f.sent) (extra : List UInt16) (tMs : Int64) :
    received extra streamId (tMs, dg) = none := by
  rcases (mem_fragment other f.frameSeq f.au.keyframe f.body dg).mp (hcut.sent dg hdg) with
    ⟨i, hi, rfl⟩
  have hid : (header other f.frameSeq f.au.keyframe f.body i).streamId = other := rfl
  rw [received, decode_fragment other f.frameSeq f.au.keyframe f.body extra i hsmall hi]
  split_ifs
  · dsimp only
    rw [hid, if_neg hother]
  · rfl

/-- What a receiver gets of a log is decoded without a reference missing. -/
theorem references_of_numbered {streamId : UInt16} {l : List Frame}
    (h : Numbered streamId 0 0 l) (hfew : l.length < 2 ^ 32)
    (hsmall : ∀ f ∈ l, f.body.length ≤ 65535 * MAX_PAYLOAD) {references : ℕ → ℕ → Prop}
    (hencoder : EncoderContract l references) {extra : List UInt16}
    {arrivals : List (Int64 × List UInt8)} (harrive : ∀ a ∈ arrivals, ∃ f ∈ l, a.2 ∈ f.sent)
    (before : List (UInt32 × Bool)) (d : UInt32 × Bool) (after : List (UInt32 × Bool))
    (heq : deliveries (Media.receive extra streamId arrivals).events = before ++ d :: after) :
    ∃ f, l[d.1.toNat]? = some f ∧ d.2 = f.au.keyframe ∧
      (f.au.keyframe = false → ∃ j, (∀ i, references d.1.toNat i ↔ i = j) ∧
        ∃ p, before.getLast? = some p ∧ p.1.toNat = j) := by
  have hd : d ∈ deliveries (Media.receive extra streamId arrivals).events :=
    heq ▸ List.mem_append_right _ List.mem_cons_self
  rcases delivered_of_sent h hfew hsmall extra arrivals harrive d hd with ⟨f, hf, hflag⟩
  refine ⟨f, hf, hflag, fun hkey => ?_⟩
  -- It is let through only right after the one numbered just below it.
  rcases (Reassembler.deliveries_decodable _).linked before d after heq (hflag.trans hkey) with
    ⟨p, hp, hnum⟩
  refine ⟨frameNum p, fun i => ?_, p, hp, rfl⟩
  rw [hencoder.references_iff h.encoders d.1.toNat f hf hkey i]
  simp only [frameNum] at hnum ⊢
  omega

variable {E P : Type*} (env : Env) (cfg : HostCfg) (dropPercent : UInt32)
  (world : ℕ → Backend E P) {σ : State E P} {trace : List Event}

/-- The streams that are started are some of those configured, in their order. -/
theorem started_sublist {sessionId : Vector UInt8 16} {actions : List (Action P)}
    (h : Machine.exec (step env cfg dropPercent world) (start cfg sessionId) actions =
      some (σ, trace)) : (startedStreams cfg (entries trace)).Sublist cfg.streams := by
  by_cases hstarted : ∃ multi, .out (.StartMedia multi) ∈ entries trace
  · rcases hstarted with ⟨multi, hmem⟩
    rcases List.append_of_mem hmem with ⟨u, w, hsplit⟩
    rcases controlled_exec env cfg dropPercent world h with ⟨frames, -, hlog⟩
    rw [hsplit, List.append_assoc, List.cons_append] at hlog
    -- The media are started once.
    rcases (spoken_of_new _ _ _ _ frames).start_media hlog with
      ⟨p, a, b, ack, -, -, -, -, -, -, hbefore, hafter⟩
    rw [hsplit, startedStreams_once hbefore
      (fun m hmem => hafter m (List.mem_append_left _ hmem))]
    cases multi with
    | false => exact List.singleton_sublist.mpr (List.head_mem cfg.nonempty)
    | true => exact List.Sublist.refl _
  · rw [startedStreams_of_unstarted (fun multi hmem => hstarted ⟨multi, hmem⟩)]
    exact List.nil_sublist _

/-- The datagrams that one thread has sent. -/
def datagramsOf (i : ℕ) (trace : List Event) : List (List UInt8) :=
  (framesOf i trace).flatMap Frame.sent

/-- A receiver takes nothing of another thread. -/
theorem received_of_other {sessionId : Vector UInt8 16} {actions : List (Action P)}
    (h : Machine.exec (step env cfg dropPercent world) (start cfg sessionId) actions =
      some (σ, trace)) (hdistinct : (cfg.streams.map StreamSpec.streamId).Nodup)
    (hsmall : ∀ j f, .frame j f ∈ trace → f.body.length ≤ 65535 * MAX_PAYLOAD) {i : ℕ}
    {handle : MediaHandle} (hi : σ.driver.media[i]? = some handle) (extra : List UInt16)
    {tMs : Int64} {j : ℕ} (hij : j ≠ i) {dg : List UInt8} (hdg : dg ∈ datagramsOf j trace) :
    received extra handle.streamId (tMs, dg) = none := by
  rcases List.mem_flatMap.mp hdg with ⟨f, hf, hsent⟩
  have hframe := mem_framesOf.mp hf
  have hstreamed := streamed_exec env h
  rcases hstreamed.frames j f hframe with ⟨s, hs, hcut⟩
  refine received_other (fun hsame => hij ?_) hcut (hsmall j f hframe) hsent extra tMs
  -- Both threads would be of one stream.
  have hids : (startedStreams cfg (entries trace)).map StreamSpec.streamId =
      σ.driver.media.map MediaHandle.streamId := by
    have hmedia := congrArg (List.map Prod.fst) hstreamed.media
    rw [List.map_map, List.map_map] at hmedia
    exact hmedia.symm
  have hnodup := hdistinct.sublist ((started_sublist env cfg dropPercent world h).map _)
  have hj : ((startedStreams cfg (entries trace)).map StreamSpec.streamId)[j]? =
      some handle.streamId := by
    rw [List.getElem?_map, hs, Option.map_some, hsame]
  have hi' : ((startedStreams cfg (entries trace)).map StreamSpec.streamId)[i]? =
      some handle.streamId := by
    rw [hids, List.getElem?_map, hi, Option.map_some]
  rcases List.getElem?_eq_some_iff.mp hj with ⟨hltj, hgetj⟩
  rcases List.getElem?_eq_some_iff.mp hi' with ⟨hlti, hgeti⟩
  exact (List.Nodup.getElem_inj_iff hnodup).mp (hgetj.trans hgeti.symm)

/-- Each stream of a connection is decoded as if it were alone. In every run, for
    every order in which any datagrams of all streams arrive, any number of times
    each: a receiver of one stream does what it does on the datagrams of that
    stream alone, and a frame it delivers is an access unit of its thread; if that
    is not a keyframe, the one access unit it references is the one delivered
    immediately before it. -/
theorem streams_decodable {sessionId : Vector UInt8 16} {actions : List (Action P)}
    (h : Machine.exec (step env cfg dropPercent world) (start cfg sessionId) actions =
      some (σ, trace)) (hdistinct : (cfg.streams.map StreamSpec.streamId).Nodup)
    (hsmall : ∀ j f, .frame j f ∈ trace → f.body.length ≤ 65535 * MAX_PAYLOAD) {i : ℕ}
    {handle : MediaHandle} (hi : σ.driver.media[i]? = some handle)
    (hfew : (framesOf i trace).length < 2 ^ 32) {references : ℕ → ℕ → Prop}
    (hencoder : EncoderContract (framesOf i trace) references) (extra : List UInt16)
    (arrivals : List (Int64 × List UInt8))
    (harrive : ∀ a ∈ arrivals, ∃ j, a.2 ∈ datagramsOf j trace) :
    Media.receive extra handle.streamId arrivals =
      Media.receive extra handle.streamId (arrivals.filter fun a => a.2 ∈ datagramsOf i trace) ∧
    ∀ before d after,
      deliveries (Media.receive extra handle.streamId arrivals).events = before ++ d :: after →
      ∃ f, (framesOf i trace)[d.1.toNat]? = some f ∧ d.2 = f.au.keyframe ∧
        (f.au.keyframe = false → ∃ j, (∀ r, references d.1.toNat r ↔ r = j) ∧
          ∃ p, before.getLast? = some p ∧ p.1.toNat = j) := by
  -- A datagram of another stream is not taken, as its stream id is another.
  have happart : Media.receive extra handle.streamId arrivals =
      Media.receive extra handle.streamId
        (arrivals.filter fun a => a.2 ∈ datagramsOf i trace) := by
    unfold Media.receive
    congr 1
    rw [List.filterMap_filter]
    refine List.filterMap_congr (fun a ha => ?_)
    split
    · rfl
    · rename_i hnot
      by_contra htaken
      refine hnot (decide_eq_true ?_)
      rcases harrive a ha with ⟨j, hdg⟩
      by_cases hij : j = i
      · exact hij ▸ hdg
      · exact absurd (received_of_other env cfg dropPercent world h hdistinct hsmall hi extra hij
          hdg) htaken
  -- What is left comes from frames of this stream, which are numbered.
  refine ⟨happart, fun before d after heq => ?_⟩
  rw [happart] at heq
  refine references_of_numbered (logged_exec cfg dropPercent world env h hi) hfew
    (fun f hf => hsmall i f (mem_framesOf.mp hf)) hencoder (fun a ha => ?_) before d after heq
  rcases List.mem_flatMap.mp (of_decide_eq_true (List.mem_filter.mp ha).2) with ⟨f, hf, hdg⟩
  exact ⟨f, hf, hdg⟩

/-- Whether the body of a frame has this length. -/
def Event.hasLength (n : ℕ) : Event → Bool
  | .frame _ f => f.body.length == n
  | .received _ => true
  | .applied _ => true

lemma length_of_hasLength {n : ℕ} {trace : List Event}
    (hall : trace.all (Event.hasLength n) = true) {i : ℕ} {f : Frame}
    (hf : Event.frame i f ∈ trace) : f.body.length = n :=
  beq_iff_eq.mp (List.all_eq_true.mp hall _ hf)

/-- Two displays, with two frames of each. -/
def mixedActions : List (Action Unit) :=
  multiActions ++ [.turn 0 (tickTaking []), .turn 1 (tickTaking [])]

def mixedRun : Option (State (EncoderConfig × Bool) Unit × List Event) :=
  Machine.exec (step sampleEnv twoStreams 0 fun _ => sampleEncoder)
    (start twoStreams (Vector.replicate 16 0)) mixedActions

/-- The datagrams of both streams in turn. -/
def mixedArrivals (trace : List Event) : List (Int64 × List UInt8) :=
  ((datagramsOf 0 trace).zip (datagramsOf 1 trace)).flatMap fun x => [(0, x.1), (1, x.2)]

/-- The second frame of the second display references its first one. -/
theorem streams_decodable_mixed : ∃ σ trace handle f,
    mixedRun = some (σ, trace) ∧ σ.driver.media[1]? = some handle ∧
    (framesOf 1 trace)[1]? = some f ∧ f.au.keyframe = false ∧
    (f.au.keyframe = false → ∃ j, (∀ r, Previous (framesOf 1 trace) 1 r ↔ r = j) ∧
      ∃ p, [((0 : UInt32), true)].getLast? = some p ∧ p.1.toNat = j) := by
  have hrun : ∃ σ trace handle f g, mixedRun = some (σ, trace) ∧
      σ.driver.media[1]? = some handle ∧ handle.streamId = 2 ∧ framesOf 1 trace = [f, g] ∧
      f.encoder = g.encoder ∧ f.au.keyframe = true ∧ g.au.keyframe = false ∧
      trace.all (Event.hasLength 8) = true ∧
      deliveries (Media.receive [2] 2 (mixedArrivals trace)).events = [(0, true), (1, false)] :=
    ⟨_, _, _, _, _, rfl, rfl, rfl, rfl, rfl, rfl, rfl, rfl, rfl⟩
  rcases hrun with ⟨σ, trace, handle, f, g, hrun, hi, hid, hframes, hsame, hfirst, hsecond, hshort,
    hevents⟩
  have hcontract : EncoderContract (framesOf 1 trace) (Previous (framesOf 1 trace)) := by
    rw [hframes]
    refine ⟨fun k x hk hnone => ?_, fun _ _ _ _ _ => Iff.rfl⟩
    rcases k with - | - | k
    · rwa [← Option.some.inj hk]
    · -- The second frame is not the first of its encoder.
      rw [← Option.some.inj hk] at hnone
      exact absurd hsame (hnone 0 f Nat.one_pos rfl)
    · simp only [List.length_cons, List.length_nil, zero_add, Nat.reduceAdd, not_lt,
        le_add_iff_nonneg_left, zero_le, getElem?_neg, reduceCtorEq] at hk
  have hsmall : ∀ j x, Event.frame j x ∈ trace → x.body.length ≤ 65535 * MAX_PAYLOAD := by
    intro j x hx
    rw [length_of_hasLength hshort hx]
    decide
  have harrive : ∀ a ∈ mixedArrivals trace, ∃ j, a.2 ∈ datagramsOf j trace := by
    intro a ha
    rcases List.mem_flatMap.mp ha with ⟨x, hx, ha⟩
    have hmem := List.of_mem_zip hx
    simp only [List.mem_cons, List.not_mem_nil, or_false] at ha
    rcases ha with rfl | rfl
    · exact ⟨0, hmem.1⟩
    · exact ⟨1, hmem.2⟩
  have hfew : (framesOf 1 trace).length < 2 ^ 32 := by
    rw [hframes]
    exact (by decide : 2 < 2 ^ 32)
  rcases (streams_decodable sampleEnv twoStreams 0 _ hrun (by decide) hsmall hi hfew hcontract [2]
    (mixedArrivals trace) harrive).2 [(0, true)] (1, false) [] (hid ▸ hevents) with
    ⟨x, hx, hkey, href⟩
  exact ⟨σ, trace, handle, x, hrun, hi, hx, hkey.symm, href⟩

end Streams

end System

end LoomHost
