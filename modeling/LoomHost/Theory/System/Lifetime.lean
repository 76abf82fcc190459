import LoomHost.Theory.System.Acknowledged

/-!
# The Life of a Media Thread

A media thread is to stop when the connection closes. Its loop ends at a failure
too: at a reopen that fails, at a picture the encoder fails on, and at one whose
rendering panics. The control task does not hear of it, so the session goes on
streaming over an open connection without the thread.

A run is free of this exactly when no thread meets such a failure while the
connection is open and the session streams.

## Main definitions

* `Survives`: A turn meets no failure.
* `Alive`: No thread has stopped under a streaming session.

## Theorems

* `goes_on_iff`: When a loop goes on.
* `stays_alive_iff`: When the threads last as long as the session.
* `dead_under_session`: A reopen that fails, and the session after it.
-/

namespace LoomHost

namespace System

open Control Session Conn Media

section Survives

variable {E P : Type*} (backend : Backend E P) (streamId : UInt16) (m : Thread E P) (t : Tick P)

/-- A turn meets no failure: the newest reconfiguration is opened, if any has
    come, the picture is rendered, and the encoder takes it, if there is one. -/
structure Survives : Prop where
  opens : ∀ params, t.reconfig.getLast? = some params → backend.openBoth params ≠ none
  renders : ∀ m₁ b, Takes backend m t m₁ b → ¬ Panics m₁ t
  encodes : ∀ m₁ b planes, Takes backend m t m₁ b → picture m₁ t = some planes →
    backend.encodeI420 m₁.encoder planes (Int64.ofNat m₁.frameSeq.toNat) (forces m₁ t b) ≠ none

variable {backend m t}

theorem openBoth_of {params : MediaParams} {source : Source P} {encoder : E}
    (hencoder : backend.openEncoder (configOf params) = some encoder)
    (hsource : backend.openSource params = some source) :
    backend.openBoth params = some (source, encoder) := by
  unfold configOf at hencoder
  simp only [Backend.openBoth, hencoder, hsource]

/-- What a turn takes is what `reconfigure` gives. -/
theorem reconfigure_of_takes {m₁ : Thread E P} {b : Bool} (h : Takes backend m t m₁ b) :
    reconfigure backend m t.reconfig = some (m₁, b) := by
  cases h with
  | nothing hnone =>
      rw [hnone]
      rfl
  | reopened params source encoder hlast hencoder hsource =>
      simp only [reconfigure, hlast, openBoth_of hencoder hsource]

/-- A turn takes its reconfigurations in one way. -/
theorem takes_unique {m₁ m₂ : Thread E P} {b₁ b₂ : Bool} (h₁ : Takes backend m t m₁ b₁)
    (h₂ : Takes backend m t m₂ b₂) : m₁ = m₂ ∧ b₁ = b₂ := by
  have hsame := (reconfigure_of_takes h₁).symm.trans (reconfigure_of_takes h₂)
  rw [Option.some.injEq, Prod.mk.injEq] at hsame
  exact hsame

/-- A reconfiguration that is taken has been opened. -/
theorem opened_of_takes {m₁ : Thread E P} {b : Bool} (h : Takes backend m t m₁ b)
    (params : MediaParams) (hlast : t.reconfig.getLast? = some params) :
    backend.openBoth params ≠ none := by
  cases h with
  | nothing hnone => simp only [hnone, List.getLast?_nil, reduceCtorEq] at hlast
  | reopened newest source encoder hnewest hencoder hsource =>
      rw [hnewest, Option.some.injEq] at hlast
      rw [← hlast, openBoth_of hencoder hsource]
      exact Option.some_ne_none _

/-- On an open connection a loop goes on exactly if its turn meets no failure. -/
theorem goes_on_iff (hclosed : t.closed = false) :
    (tick backend streamId m t).1 ≠ none ↔ Survives backend m t := by
  have hturn := tick_turn backend streamId m t
  -- The encoder is asked once, with what the turn has taken.
  have hsurvives {m₁ : Thread E P} {b : Bool} (htakes : Takes backend m t m₁ b)
      (hrender : ¬ Panics m₁ t)
      (hencode : ∀ planes, picture m₁ t = some planes →
        backend.encodeI420 m₁.encoder planes (Int64.ofNat m₁.frameSeq.toNat)
          (forces m₁ t b) ≠ none) : Survives backend m t := by
    refine ⟨opened_of_takes htakes, fun m₂ b₂ htakes₂ => ?_,
      fun m₂ b₂ planes htakes₂ hpicture => ?_⟩
    · rcases takes_unique htakes htakes₂ with ⟨rfl, rfl⟩
      exact hrender
    · rcases takes_unique htakes htakes₂ with ⟨rfl, rfl⟩
      exact hencode planes hpicture
  -- A picture that is there has been rendered.
  have hrendered {m₁ : Thread E P} {planes : P} (hpicture : picture m₁ t = some planes) :
      ¬ Panics m₁ t := by
    intro hpanics
    rw [picture, show m₁.source.picture m₁.frameSeq t.fill = none from hpanics,
      Option.bind_none] at hpicture
    cases hpicture
  generalize tick backend streamId m t = r at hturn
  cases hturn with
  | closed hclosed' => exact absurd hclosed' (ne_true_of_eq_false hclosed)
  | reopenFailed params _ hlast hfail =>
      exact ⟨fun h => absurd rfl h, fun h => absurd hfail (h.opens params hlast)⟩
  | panicked m₁ b _ htakes hpanics =>
      exact ⟨fun h => absurd rfl h, fun h => absurd hpanics (h.renders m₁ b htakes)⟩
  | waits m₁ b _ htakes hgoes hpicture =>
      refine ⟨fun _ => hsurvives htakes hgoes (fun planes h => ?_), fun _ => Option.some_ne_none _⟩
      exact absurd (hpicture.symm.trans h) (Option.some_ne_none planes).symm
  | held m₁ b planes encoder _ htakes hpicture hencode =>
      refine ⟨fun _ => hsurvives htakes (hrendered hpicture) (fun planes' h => ?_),
        fun _ => Option.some_ne_none _⟩
      rw [hpicture, Option.some.injEq] at h
      rw [← h, hencode]
      exact Option.some_ne_none _
  | sent m₁ b planes au encoder _ htakes hpicture hencode =>
      refine ⟨fun _ => hsurvives htakes (hrendered hpicture) (fun planes' h => ?_),
        fun _ => Option.some_ne_none _⟩
      rw [hpicture, Option.some.injEq] at h
      rw [← h, hencode]
      exact Option.some_ne_none _
  | encodeFailed m₁ b planes _ htakes hpicture hencode =>
      exact ⟨fun h => absurd rfl h,
        fun h => absurd hencode (h.encodes m₁ b planes htakes hpicture)⟩

end Survives

section Session

/-- The session has come to the start of the media. -/
def Live (s : HostSession) : Prop := s.state = .Streaming ∨ s.state = .Closed

theorem live_of_reacts {s s' : HostSession} {frame : Decoded} {outputs : List Output}
    (hr : Reacts s frame s' outputs) :
    (Live s → Live s') ∧ ∀ multi, .StartMedia multi ∈ outputs → Live s' := by
  cases hr with
  | bye body _ => exact ⟨fun _ => Or.inr rfl, by simp only [List.mem_cons, reduceCtorEq,
    List.not_mem_nil, or_self, IsEmpty.forall_iff, implies_true]⟩
  | fatal msgType body code detail _ _ =>
      exact ⟨fun _ => Or.inr rfl, by simp only [HostSession.fatal, List.mem_cons, reduceCtorEq,
        List.not_mem_nil, or_self, IsEmpty.forall_iff, implies_true]⟩
  | hello body w h s' hs _ _ _ _ =>
      -- The session is still before the start of the media.
      refine ⟨fun hlive => ?_, by simp only [List.mem_cons, reduceCtorEq, List.not_mem_nil, or_self,
        IsEmpty.forall_iff, implies_true]⟩
      rcases hlive with hstate | hstate
      · simp only [hs, reduceCtorEq] at hstate
      · simp only [hs, reduceCtorEq] at hstate
  | configAck body _ _ => exact ⟨fun _ => Or.inl rfl, fun _ _ => Or.inl rfl⟩
  | viewport body rw rh w h s' hs _ _ _ _ _ heq =>
      rw [heq]
      exact ⟨fun _ => Or.inl hs, by simp only [List.mem_cons, reduceCtorEq, List.not_mem_nil,
        or_self, IsEmpty.forall_iff, implies_true]⟩
  | _ => exact ⟨id, by simp only [List.not_mem_nil, IsEmpty.forall_iff, implies_true, List.mem_cons,
    reduceCtorEq, or_self]⟩

/-- A session that has started the media streams or is closed. -/
theorem live_of_started (frames : List Decoded) : ∀ s : HostSession,
    (Live s ∨ ∃ multi, .out (.StartMedia multi) ∈ log s frames) → Live (s.run frames) := by
  induction frames with
  | nil =>
      intro s h
      rcases h with hlive | ⟨multi, hmem⟩
      · exact hlive
      · exact absurd hmem List.not_mem_nil
  | cons frame frames ih =>
      intro s h
      rcases live_of_reacts (onFrame_reacts s frame) with ⟨hkeeps, hstarts⟩
      refine ih _ ?_
      rcases h with hlive | ⟨multi, hmem⟩
      · exact Or.inl (hkeeps hlive)
      · rw [log, List.mem_append, List.mem_cons] at hmem
        rcases hmem with (hrecv | hout) | hrest
        · exact absurd hrecv Entry.noConfusion
        · rcases List.mem_map.mp hout with ⟨o, ho, heq⟩
          rw [Entry.out.inj heq] at ho
          exact Or.inl (hstarts multi ho)
        · exact Or.inr ⟨multi, hrest⟩

end Session

section Step

variable {E P : Type*}

/-- No thread has stopped while the connection is open and the session streams. -/
def Alive (σ : State E P) : Prop :=
  σ.closed = false → σ.session.state = .Streaming → ∀ p ∈ σ.pipelines, p.phase ≠ .stopped

/-- The threads that have stopped have outlived the connection or the session. -/
def Outlived (σ : State E P) : Prop :=
  ∀ p ∈ σ.pipelines, p.phase = .stopped → σ.closed = true ∨ σ.session.state = .Closed

variable {cfg : HostCfg} {dropPercent : UInt32} {world : ℕ → Backend E P} {σ σ' : State E P}
  {a : Action P} {events : List Event}

/-- A turn that its loop does not survive stops the thread. -/
theorem stopped_iff {backend : Backend E P} {i : ℕ} {p : Pipeline E P} {h : MediaHandle}
    {m : Thread E P} {t : Tick P} :
    (turnPipeline backend i p h m t).1.phase = .stopped ↔
      (tick backend h.streamId m t).1 = none := by
  rcases turn_phase_cases backend i p h m t with ⟨m', hm', hgoes⟩ | ⟨hnone, hstops⟩
  · simp only [hgoes, reduceCtorEq, hm']
  · simp only [hstops, hnone]

theorem Outlived.alive (h : Outlived σ) : Alive σ := by
  intro hopen hstreaming p hp hstopped
  rcases h p hp hstopped with hclosed | hclosed
  · simp only [hopen, Bool.false_eq_true] at hclosed
  · simp only [hstreaming, reduceCtorEq] at hclosed

/-- What a step keeps, if a turn that it takes under a streaming session meets no
    failure. -/
theorem Stepped.outlived (hs : Stepped cfg dropPercent world σ a σ' events)
    (hlive : σ.pipelines ≠ [] → Live σ.session)
    (hsurvives : ∀ i t p m, a = .turn i t → σ.closed = false → σ.session.state = .Streaming →
      σ.pipelines[i]? = some p → p.phase = .running m → Survives (world σ.steps) m t)
    (h : Outlived σ) : Outlived σ' := by
  have hclose {driver : Driver} {lost : Bool}
      (hclosed : σ.driver.closed.isSome = true → driver.closed.isSome = true)
      (hlost : σ.lost = true → lost = true) (hσ : σ.closed = true) :
      (driver.closed.isSome || lost) = true := by
    rw [State.closed, Bool.or_eq_true] at hσ
    rw [Bool.or_eq_true]
    exact hσ.imp hclosed hlost
  cases hs with
  | received frame _ =>
      intro p hp hstopped
      rcases h p hp hstopped with hclosed | hclosed
      · exact Or.inl hclosed
      · -- A closed session stays closed.
        right
        rw [onFrame_closed σ.session hclosed frame]
        exact hclosed
  | applied o rest driver returned _ _ hclosed =>
      intro p hp hstopped
      rcases List.mem_append.mp hp with hp | hp
      · exact (h p hp hstopped).imp (hclose hclosed id) id
      · -- The threads added here have not begun.
        rw [List.eq_of_mem_replicate hp] at hstopped
        cases hstopped
  | ended a driver returned lost _ _ hclosed hlost =>
      intro p hp hstopped
      exact (h p hp hstopped).imp (hclose hclosed hlost) id
  | opened i p handle _ _ _ =>
      intro q hq hstopped
      rcases List.mem_or_eq_of_mem_set hq with hq | rfl
      · exact h q hq hstopped
      · -- A thread that could not open its media has failed, and never started.
        rcases openPipeline_cases dropPercent (world σ.steps) handle with
          ⟨source, encoder, -, hphase⟩ | hphase
        · simp only [hphase, reduceCtorEq] at hstopped
        · simp only [hphase, reduceCtorEq] at hstopped
  | turned i p handle m t hp hh hphase htick _ =>
      intro q hq hstopped
      rcases List.mem_or_eq_of_mem_set hq with hq | rfl
      · exact h q hq hstopped
      by_cases hclosed : σ.closed = true
      · exact Or.inl hclosed
      right
      rcases hlive (List.ne_nil_of_mem (List.mem_of_getElem? hp)) with hstreaming | hdone
      · -- The turn has met no failure, so its thread goes on.
        rw [Bool.not_eq_true] at hclosed
        have hgoes := (goes_on_iff handle.streamId (htick.trans hclosed)).mpr
          (hsurvives i t p m rfl hclosed hstreaming hp hphase)
        exact absurd (stopped_iff.mp hstopped) hgoes
      · exact hdone

end Step

section Run

variable {E P : Type*} (env : Env) (cfg : HostCfg) (dropPercent : UInt32)
  (world : ℕ → Backend E P) (sessionId : Vector UInt8 16)

/-- At every point of a run, no thread has stopped under a streaming session. -/
def StaysAlive (actions : List (Action P)) : Prop :=
  ∀ before after σ u, actions = before ++ after →
    Machine.exec (step env cfg dropPercent world) (start cfg sessionId) before = some (σ, u) →
    Alive σ

/-- Every turn of a run that is taken on an open connection, while the session
    streams, meets no failure. -/
def MeetsNoFailure (actions : List (Action P)) : Prop :=
  ∀ before i t after σ u p m, actions = before ++ .turn i t :: after →
    Machine.exec (step env cfg dropPercent world) (start cfg sessionId) before = some (σ, u) →
    σ.closed = false → σ.session.state = .Streaming → σ.pipelines[i]? = some p →
    p.phase = .running m → Survives (world σ.steps) m t

variable {env cfg dropPercent world sessionId}

/-- Media threads are there only once the session has started them. -/
theorem live_of_exec {actions : List (Action P)} {σ : State E P} {u : List Event}
    (h : Machine.exec (step env cfg dropPercent world) (start cfg sessionId) actions =
      some (σ, u)) (hp : σ.pipelines ≠ []) : Live σ.session := by
  rcases controlled_exec env cfg dropPercent world h with ⟨frames, hsession, hlog⟩
  rcases agrees_exec env cfg dropPercent world h with ⟨sizes, queue, hagrees⟩
  have hfed := hagrees.fed
  generalize σ.driver.media[0]? = handle at hfed
  cases hpipelines : σ.pipelines with
  | nil => exact absurd hpipelines hp
  | cons p pipelines =>
      rw [hpipelines] at hfed
      cases hfed with
      | started _ h hstarted _ _ _ _ =>
          -- The start is in the log, so the session has come past it.
          rcases hstarted with ⟨multi, hmem⟩
          rw [hsession]
          refine live_of_started frames _ (Or.inr ⟨multi, ?_⟩)
          rw [hlog]
          exact List.mem_append_left _ hmem

/-- What every turn survives, the threads of a run survive. -/
theorem outlived_of_survives (actions : List (Action P))
    (hsurvives : MeetsNoFailure env cfg dropPercent world sessionId actions) :
    ∀ before after σ u, actions = before ++ after →
      Machine.exec (step env cfg dropPercent world) (start cfg sessionId) before = some (σ, u) →
      Outlived σ := by
  intro before
  -- One step more each time, from the first state on.
  induction before using List.reverseRecOn with
  | nil =>
      intro after σ u _ h
      cases h
      exact fun p hp => absurd hp List.not_mem_nil
  | append_singleton before a ih =>
      intro after σ u hactions h
      rcases Machine.exec_append.mp h with ⟨σ₁, u₁, v, hbefore, hlast, -⟩
      rcases Machine.exec_cons.mp hlast with ⟨σ₂, events, rest, hstep, hend, -⟩
      cases hend
      rw [List.append_assoc] at hactions
      refine (step_stepped env cfg dropPercent world hstep).outlived (live_of_exec hbefore)
        (fun i t p m ha hopen hstreaming hp hphase => ?_)
        (ih (a :: after) σ₁ u₁ hactions hbefore)
      rw [ha] at hactions
      exact hsurvives before i t after σ₁ u₁ p m hactions hbefore hopen hstreaming hp hphase

/-- The threads of a run last as long as the session exactly if no turn taken
    under a streaming session meets a failure. -/
theorem stays_alive_iff (actions : List (Action P)) {σ : State E P} {trace : List Event}
    (h : Machine.exec (step env cfg dropPercent world) (start cfg sessionId) actions =
      some (σ, trace)) :
    StaysAlive env cfg dropPercent world sessionId actions ↔
      MeetsNoFailure env cfg dropPercent world sessionId actions := by
  constructor
  · intro halive before i t after σ₁ u p m hactions hbefore hopen hstreaming hp hphase
    -- The thread of the turn is alive after it.
    rw [hactions] at h
    rcases Machine.exec_append.mp h with ⟨σ₁', u', v, hbefore', hrest, -⟩
    rw [hbefore, Option.some.injEq, Prod.mk.injEq] at hbefore'
    rcases hbefore' with ⟨rfl, rfl⟩
    rcases Machine.exec_cons.mp hrest with ⟨σ₂, events, rest, hstep, -, -⟩
    have hturn : Machine.exec (step env cfg dropPercent world) (start cfg sessionId)
        (before ++ [.turn i t]) = some (σ₂, u ++ events) :=
      Machine.exec_append.mpr ⟨σ₁, u, events, hbefore,
        Machine.exec_cons.mpr ⟨σ₂, events, [], hstep, rfl, (List.append_nil _).symm⟩, rfl⟩
    have halive₂ := halive (before ++ [.turn i t]) after σ₂ _
      (by rw [hactions, List.append_assoc]; rfl) hturn
    cases step_stepped env cfg dropPercent world hstep with
    | ended _ driver returned lost hcontrol _ _ _ => exact absurd rfl (hcontrol i t)
    | turned _ p' handle m' _ hp' hh hphase' htick _ =>
        rw [hp, Option.some.injEq] at hp'
        rw [← hp', hphase, Phase.running.injEq] at hphase'
        rw [← hphase', ← hp'] at halive₂
        refine (goes_on_iff handle.streamId (htick.trans hopen)).mp ?_
        intro hstop
        refine halive₂ hopen hstreaming (turnPipeline (world σ₁.steps) i p handle m t).1 ?_
          (stopped_iff.mpr hstop)
        exact List.mem_of_getElem? (getElem?_set_self hp)
  · intro hsurvives before after σ₁ u hactions hbefore
    exact (outlived_of_survives actions hsurvives before after σ₁ u hactions hbefore).alive

theorem stays_alive_iff_resized :
    ∃ σ trace, resizedRun = some (σ, trace) ∧
      (StaysAlive sampleEnv oneStream 0 (fun _ => sampleEncoder) (Vector.replicate 16 0)
          resizedActions ↔
        MeetsNoFailure sampleEnv oneStream 0 (fun _ => sampleEncoder) (Vector.replicate 16 0)
          resizedActions) := by
  have hsome : resizedRun.isSome = true := by decide
  rcases Option.isSome_iff_exists.mp hsome with ⟨⟨σ, trace⟩, hrun⟩
  exact ⟨σ, trace, hrun, stays_alive_iff resizedActions hrun⟩

/-- A source that takes no size but that of its monitor. -/
def monitorEncoder : Backend (EncoderConfig × Bool) Unit :=
  { sampleEncoder with
    openSource := fun params =>
      if params.width = 2560 ∧ params.height = 1440 then some (.Synthetic fun _ => some ())
      else none }

/-- The client asks for another size, and goes on after the reopen has failed. -/
def deadRun : Option (State (EncoderConfig × Bool) Unit × List Event) :=
  Machine.exec (step sampleEnv oneStream 0 fun _ => monitorEncoder)
    (start oneStream (Vector.replicate 16 0)) (resizedActions ++
      [.receive (.Message IDR_REQUEST []), .apply])

/-- The session streams on an open connection, with no thread left. -/
theorem dead_under_session : ∃ σ trace, deadRun = some (σ, trace) ∧ ¬ Alive σ := by
  have hdead : deadRun.map (fun r => (r.1.closed, r.1.session.state,
      r.1.pipelines.map fun p => match p.phase with | .stopped => true | _ => false)) =
      some (false, .Streaming, [true]) := by
    decide
  rcases Option.map_eq_some_iff.mp hdead with ⟨⟨σ, trace⟩, hrun, hdead⟩
  rw [Prod.mk.injEq, Prod.mk.injEq] at hdead
  rcases hdead with ⟨hopen, hstreaming, hpipelines⟩
  refine ⟨σ, trace, hrun, fun halive => ?_⟩
  -- The only thread of the host has stopped.
  rcases List.map_eq_singleton_iff.mp hpipelines with ⟨p, hp, hstopped⟩
  refine halive hopen hstreaming p (hp ▸ List.mem_cons_self) ?_
  split at hstopped
  · assumption
  · cases hstopped

end Run

end System

end LoomHost
