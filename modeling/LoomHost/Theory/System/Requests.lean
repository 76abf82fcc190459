import LoomHost.Theory.Media
import LoomHost.Theory.System.Acknowledged

/-!
# IDR Requests

What becomes of a request for an IDR. A turn of the media loop takes all the
requests that are waiting, and has its picture coded as an IDR, if there is one.
If the capture has no picture yet, or the encoder returns nothing, the loop does
not remember that it took them.

A capture without a picture has never given its encoder one, so the first access
unit to come is a keyframe all the same. An encoder that has returned an access
unit and then drops the picture of a request loses the request.

## Main definitions

* `ForcedKey`: What is assumed of the encoders, with `FirstKey`.
* `Drains`, `Drops`: A turn that takes requests, and one whose picture is dropped.
* `Tracked`: Every thread with its frames.
* `Owes`: The next frame of a thread is a keyframe.

## Theorems

* `requests_wait`: Requests wait until a turn takes them.
* `drain_turn`, `fresh_turn`: The turn that takes a request, and those after it.
* `tracked_exec`: The threads of every run.
* `request_served`: The first frame after a request.
* `request_lost`: A request whose picture is dropped.
-/

namespace LoomHost

namespace System

open Control Session Conn Media

section Turn

variable {E P : Type*} (world : ℕ → Backend E P)

/-- An access unit for a picture with an IDR forced is a keyframe. -/
def ForcedKey : Prop :=
  ∀ n e planes ts au e',
    (world n).encodeI420 e planes ts true = some (some au, e') → au.keyframe = true

/-- A turn takes the requests that are waiting. A reconfiguration would leave them
    waiting. -/
def Drains (m : Thread E P) (t : Tick P) : Prop :=
  t.closed = false ∧ t.reconfig = [] ∧ 0 < m.idrWaiting + t.idr

/-- The encoder returns nothing for a picture with an IDR forced. -/
def Drops (backend : Backend E P) (m : Thread E P) (t : Tick P) : Prop :=
  ∃ planes e', picture m t = some planes ∧
    backend.encodeI420 m.encoder planes (Int64.ofNat m.frameSeq.toNat) true = some (none, e')

variable {world} {sent : List Frame} {m m₁ : Thread E P} {t : Tick P} {n : ℕ}

/-- Requests wait until a turn takes them. -/
theorem requests_wait {backend : Backend E P} {streamId : UInt16}
    {r : Option (Thread E P) × Option Frame} (ht : Turn backend streamId m t r)
    (hdrains : ¬ Drains m t) :
    ∀ m', r.1 = some m' → m'.idrWaiting = m.idrWaiting + t.idr := by
  intro m' hm'
  have hkept {m₁ : Thread E P} {b : Bool} (hclosed : t.closed = false)
      (htakes : Takes backend m t m₁ b) :
      (drained m₁ t b).idrWaiting = m.idrWaiting + t.idr := by
    cases htakes with
    | nothing hnone =>
        -- Without a reconfiguration the turn would take them, so there are none.
        have hzero : ¬ 0 < m.idrWaiting + t.idr := fun hpos => hdrains ⟨hclosed, hnone, hpos⟩
        exact (Nat.eq_zero_of_not_pos hzero).symm
    | reopened params source encoder _ _ _ => rfl
  cases ht with
  | waits m₁ b hclosed htakes _ =>
      rw [← Option.some.inj hm']
      exact hkept hclosed htakes
  | held m₁ b planes encoder hclosed htakes _ _ =>
      have hwaiting := hkept hclosed htakes
      rw [← Option.some.inj hm']
      exact hwaiting
  | sent m₁ b planes au encoder hclosed htakes _ _ =>
      have hwaiting := hkept hclosed htakes
      rcases sendFrame_eq streamId { drained m₁ t b with encoder } t au with
        ⟨dropGen, body, datagrams, heq⟩
      rw [heq] at hm'
      rw [← Option.some.inj hm']
      exact hwaiting
  | _ => cases hm'

/-- With a fresh encoder the next frame is a keyframe, and until it comes the
    encoder stays fresh, or is opened again. -/
theorem fresh_turn {streamId : UInt16} {r : Option (Thread E P) × Option Frame}
    (hfirst : FirstKey world) (ht : Turn (world n) streamId m t r)
    (h : Fresh world (configOf m.params) m.encoder) :
    (∀ f, r.2 = some f → f.au.keyframe = true) ∧
      ∀ m', r.1 = some m' → r.2 = none → Fresh world (configOf m'.params) m'.encoder := by
  have hnone {f : Frame} {Q : Prop} (hf : none = some f) : Q := nomatch hf
  have htaken {m₁ : Thread E P} {b : Bool} (htakes : Takes (world n) m t m₁ b) :
      Fresh world (configOf m₁.params) m₁.encoder := by
    -- The encoder is the one from before, or has just been opened.
    cases htakes with
    | nothing _ => exact h
    | reopened params source encoder _ hencoder _ => exact Fresh.opened n encoder hencoder
  cases ht with
  | waits m₁ b _ htakes _ =>
      have hfresh := htaken htakes
      refine ⟨fun f hf => hnone hf, fun m' hm' _ => ?_⟩
      rw [← Option.some.inj hm']
      exact hfresh
  | held m₁ b planes encoder _ htakes _ hencode =>
      have hfresh := Fresh.held n _ _ _ _ _ (htaken htakes) hencode
      refine ⟨fun f hf => hnone hf, fun m' hm' _ => ?_⟩
      rw [← Option.some.inj hm']
      exact hfresh
  | sent m₁ b planes au encoder _ htakes _ hencode =>
      rcases sendFrame_eq streamId { drained m₁ t b with encoder } t au with
        ⟨dropGen, body, datagrams, heq⟩
      rw [heq]
      refine ⟨fun f hf => ?_, fun m' _ hf => nomatch hf⟩
      rw [← Option.some.inj hf]
      exact hfirst _ n _ planes _ _ au encoder (htaken htakes) hencode
  | _ => exact ⟨fun f hf => hnone hf, fun m' hm' => by cases hm'⟩

/-- The turn that takes a request sends a keyframe, or leaves the next frame to
    be one, unless the encoder drops the picture after its first access unit. -/
theorem drain_turn {streamId : UInt16} {r : Option (Thread E P) × Option Frame}
    (hforced : ForcedKey world) (ht : Turn (world n) streamId m t r)
    (h : Sourced world sent m) (hdrains : Drains m t)
    (hkept : Drops (world n) m t → ∀ g ∈ sent, g.encoder ≠ m.opened) :
    (∀ f, r.2 = some f → f.au.keyframe = true) ∧
      ∀ m', r.1 = some m' → r.2 = none → Fresh world (configOf m'.params) m'.encoder := by
  have hnone {f : Frame} {Q : Prop} (hf : none = some f) : Q := nomatch hf
  rcases hdrains with ⟨-, hreconfig, hrequests⟩
  -- Without a reconfiguration the thread is as it was, and an IDR is forced.
  have hsame {m₁ : Thread E P} {b : Bool} (htakes : Takes (world n) m t m₁ b) :
      m₁ = m ∧ forces m t b = true := by
    cases htakes with
    | nothing _ => exact ⟨rfl, decide_eq_true hrequests⟩
    | reopened params source encoder hlast _ _ =>
        simp only [hreconfig, List.getLast?_nil, reduceCtorEq] at hlast
  cases ht with
  | waits m₁ b _ htakes hgoes hpicture =>
      refine ⟨fun f hf => hnone hf, fun m' hm' _ => ?_⟩
      rcases hsame htakes with ⟨rfl, -⟩
      rw [← Option.some.inj hm']
      -- A capture without a picture has given this encoder none.
      exact h.fresh (h.waiting (captured_of_picture hgoes hpicture))
  | held m₁ b planes encoder _ htakes hpicture hencode =>
      refine ⟨fun f hf => hnone hf, fun m' hm' _ => ?_⟩
      rcases hsame htakes with ⟨rfl, hforces⟩
      -- The picture is dropped, which is harmless before the first access unit.
      have hfresh := h.fresh (hkept ⟨planes, encoder, hpicture, hforces ▸ hencode⟩)
      have hheld := Fresh.held n _ _ _ _ _ hfresh hencode
      rw [← Option.some.inj hm']
      exact hheld
  | sent m₁ b planes au encoder _ htakes _ hencode =>
      rcases hsame htakes with ⟨rfl, hforces⟩
      rw [hforces] at hencode
      rcases sendFrame_eq streamId { drained m₁ t b with encoder } t au with
        ⟨dropGen, body, datagrams, heq⟩
      rw [heq]
      refine ⟨fun f hf => ?_, fun m' _ hf => nomatch hf⟩
      rw [← Option.some.inj hf]
      exact hforced n _ planes _ au encoder hencode
  | _ => exact ⟨fun f hf => hnone hf, fun m' hm' => by cases hm'⟩

end Turn

section Step

variable {E P : Type*} (world : ℕ → Backend E P)

/-- A thread that has sent these frames, by where it is. -/
def TrackedPhase (sent : List Frame) : Phase E P → Prop
  | .spawned => sent = []
  | .running m => Sourced world sent m
  | _ => True

/-- Every thread with its frames; a thread that is not there has sent none. -/
def Tracked (σ : State E P) (trace : List Event) : Prop :=
  ∀ i, (σ.pipelines[i]? = none → framesOf i trace = []) ∧
    ∀ p, σ.pipelines[i]? = some p → TrackedPhase world (framesOf i trace) p.phase

/-- The next frame of a thread is a keyframe: its encoder, if there is one, is
    fresh. -/
def Owes (i : ℕ) (σ : State E P) : Prop :=
  ∀ p m, σ.pipelines[i]? = some p → p.phase = .running m →
    Fresh world (configOf m.params) m.encoder

variable {cfg : HostCfg} {dropPercent : UInt32} {world} {σ σ' : State E P} {a : Action P}
  {trace events : List Event}

/-- What a step keeps. -/
theorem Stepped.tracked (hs : Stepped cfg dropPercent world σ a σ' events)
    (h : Tracked world σ trace) : Tracked world σ' (trace ++ events) := by
  intro i
  rcases h i with ⟨hnone, hsome⟩
  have hmoves := hs.moves cfg dropPercent world i
  rw [framesOf_append]
  generalize σ'.pipelines[i]? = p' at hmoves ⊢
  generalize framesOf i events = sent at hmoves ⊢
  cases hmoves with
  | kept =>
      rw [List.append_nil]
      exact ⟨hnone, hsome⟩
  | spawned p hp hphase =>
      -- A thread that was not there has sent nothing.
      rw [List.append_nil]
      refine ⟨fun hp' => absurd hp' (by simp only [reduceCtorEq, not_false_eq_true]),
        fun q hq => ?_⟩
      rw [← Option.some.inj hq, hphase]
      exact hnone hp
  | opened p handle hp hphase =>
      rw [List.append_nil]
      refine ⟨fun hp' => absurd hp' (by simp only [reduceCtorEq, not_false_eq_true]),
        fun q hq => ?_⟩
      have hsent := hsome p hp
      rw [hphase] at hsent
      rw [← Option.some.inj hq, hsent]
      rcases openPipeline_cases dropPercent (world σ.steps) handle with
        ⟨source, encoder, hopen, hphase'⟩ | hphase'
      · rw [hphase']
        exact sourced_opened (Fresh.opened σ.steps encoder (openBoth_some _ hopen).1)
      · rw [hphase']
        trivial
  | turned p handle m t _ hp hphase =>
      refine ⟨fun hp' => absurd hp' (by simp only [reduceCtorEq, not_false_eq_true]),
        fun q hq => ?_⟩
      have hsourced := hsome p hp
      rw [hphase] at hsourced
      have hturn := sourced_turn (tick_turn (world σ.steps) handle.streamId m t) hsourced
      rw [← Option.some.inj hq]
      rcases turn_phase_cases (world σ.steps) i p handle m t with ⟨m', hm', hgoes⟩ | ⟨-, hstops⟩
      · rw [hgoes]
        exact hturn m' hm'
      · -- Of a thread that has stopped nothing is said.
        rw [hstops]
        trivial

/-- A thread that goes on from a turn. -/
theorem running_of_turn {backend : Backend E P} {i : ℕ} {p q : Pipeline E P} {h : MediaHandle}
    {m m' : Thread E P} {t : Tick P} (hq : some (turnPipeline backend i p h m t).1 = some q)
    (hrunning : q.phase = .running m') : (tick backend h.streamId m t).1 = some m' := by
  rw [← Option.some.inj hq] at hrunning
  rcases turn_phase_cases backend i p h m t with ⟨m₁, hm₁, hgoes⟩ | ⟨-, hstops⟩
  · rw [hgoes, Phase.running.injEq] at hrunning
    rw [hm₁, hrunning]
  · rw [hstops] at hrunning
    cases hrunning

/-- A keyframe that is owed is sent, or still owed. -/
theorem Stepped.owes {i : ℕ} (hfirst : FirstKey world)
    (hs : Stepped cfg dropPercent world σ a σ' events) (h : Owes world i σ) :
    (∀ f ∈ framesOf i events, f.au.keyframe = true) ∧
      (framesOf i events = [] → Owes world i σ') := by
  have hmoves := hs.moves cfg dropPercent world i
  unfold Owes
  generalize σ'.pipelines[i]? = p' at hmoves ⊢
  generalize framesOf i events = sent at hmoves ⊢
  cases hmoves with
  | kept => exact ⟨fun f hf => absurd hf List.not_mem_nil, fun _ => h⟩
  | spawned p _ hphase =>
      refine ⟨fun f hf => absurd hf List.not_mem_nil, fun _ q m hq hrunning => ?_⟩
      -- A spawned thread does not run yet.
      rw [← Option.some.inj hq, hphase] at hrunning
      cases hrunning
  | opened p handle _ _ =>
      refine ⟨fun f hf => absurd hf List.not_mem_nil, fun _ q m hq hrunning => ?_⟩
      rw [← Option.some.inj hq] at hrunning
      rcases openPipeline_cases dropPercent (world σ.steps) handle with
        ⟨source, encoder, hopen, hphase⟩ | hphase
      · rw [hphase] at hrunning
        cases hrunning
        -- An encoder just opened has not sent anything.
        exact Fresh.opened σ.steps encoder (openBoth_some _ hopen).1
      · rw [hphase] at hrunning
        cases hrunning
  | turned p handle m t _ hp hphase =>
      -- What the turn sends is a keyframe, or it is still owed.
      have hturn := tick_turn (world σ.steps) handle.streamId m t
      rcases fresh_turn hfirst hturn (h p m hp hphase) with ⟨hkey, hstays⟩
      exact ⟨fun f hf => hkey f (Option.mem_toList.mp hf), fun hnone q m' hq hrunning =>
        hstays m' (running_of_turn hq hrunning) (Option.toList_eq_nil_iff.mp hnone)⟩

/-- The turn that takes a request sends a keyframe, or leaves it owed. -/
theorem Stepped.drains {i : ℕ} {t : Tick P} {p : Pipeline E P} {m : Thread E P}
    {sent : List Frame} (hforced : ForcedKey world)
    (hs : Stepped cfg dropPercent world σ (.turn i t) σ' events) (hp : σ.pipelines[i]? = some p)
    (hphase : p.phase = .running m) (hsourced : Sourced world sent m) (hdrains : Drains m t)
    (hkept : Drops (world σ.steps) m t → ∀ g ∈ sent, g.encoder ≠ m.opened) :
    (∀ f ∈ framesOf i events, f.au.keyframe = true) ∧
      (framesOf i events = [] → Owes world i σ') := by
  cases hs with
  | ended _ driver returned lost hcontrol _ _ _ => exact absurd rfl (hcontrol i t)
  | turned _ p' handle m' _ hp' _ hphase' _ _ =>
      rw [hp, Option.some.injEq] at hp'
      rw [← hp', hphase, Phase.running.injEq] at hphase'
      have hturn := tick_turn (world σ.steps) handle.streamId m t
      -- The frame of this turn is a keyframe, or the request is still owed.
      rcases drain_turn hforced hturn hsourced hdrains hkept with ⟨hkey, hstays⟩
      rw [← hphase', turnPipeline, framesOf_frames]
      refine ⟨fun f hf => hkey f (Option.mem_toList.mp hf), fun hnone q m₁ hq hrunning => ?_⟩
      rw [getElem?_set_self hp] at hq
      exact hstays m₁ (running_of_turn hq hrunning) (Option.toList_eq_nil_iff.mp hnone)

end Step

section Run

variable {E P : Type*} (env : Env) (cfg : HostCfg) (dropPercent : UInt32)
  (world : ℕ → Backend E P)

/-- The threads of every run, with their frames. -/
theorem tracked_exec {sessionId : Vector UInt8 16} {σ : State E P} {trace : List Event}
    {actions : List (Action P)}
    (h : Machine.exec (step env cfg dropPercent world) (start cfg sessionId) actions =
      some (σ, trace)) : Tracked world σ trace := by
  refine Machine.exec_invariant (Tracked world)
    (fun i => ⟨fun _ => rfl, fun p hp => absurd hp (by simp only [start, List.length_nil,
      not_lt_zero, not_false_eq_true, getElem?_neg, reduceCtorEq])⟩)
    (fun σ trace a σ' events hinv hstep => ?_) h
  exact (step_stepped env cfg dropPercent world hstep).tracked hinv

/-- The first frame of a thread is a keyframe, or is owed as one. -/
def ServedFirst (i : ℕ) (σ : State E P) (trace : List Event) : Prop :=
  (framesOf i trace = [] ∧ Owes world i σ) ∨
    ∃ f, (framesOf i trace).head? = some f ∧ f.au.keyframe = true

variable {world}

/-- Frames that are keyframes, or none and a keyframe owed. -/
theorem served_of_frames {i : ℕ} {σ : State E P} {trace : List Event}
    (hkey : ∀ f ∈ framesOf i trace, f.au.keyframe = true)
    (howes : framesOf i trace = [] → Owes world i σ) : ServedFirst world i σ trace := by
  cases hframes : framesOf i trace with
  | nil => exact Or.inl ⟨hframes, howes hframes⟩
  | cons f sent =>
      refine Or.inr ⟨f, by rw [hframes]; rfl, hkey f ?_⟩
      rw [hframes]
      exact List.mem_cons_self

/-- What a step keeps. -/
theorem ServedFirst.step {i : ℕ} {σ σ' : State E P} {a : Action P} {trace events : List Event}
    (hfirst : FirstKey world) (h : ServedFirst world i σ trace)
    (hs : Stepped cfg dropPercent world σ a σ' events) :
    ServedFirst world i σ' (trace ++ events) := by
  rcases h with ⟨hnone, howes⟩ | ⟨f, hf, hkey⟩
  · -- Nothing has been sent so far, so the frames are those of this step.
    rcases hs.owes hfirst howes with ⟨hkey, hstays⟩
    have hsame : framesOf i (trace ++ events) = framesOf i events := by
      rw [framesOf_append, hnone, List.nil_append]
    refine served_of_frames ?_ ?_
    · rw [hsame]
      exact hkey
    · rw [hsame]
      exact hstays
  · refine Or.inr ⟨f, ?_, hkey⟩
    rw [framesOf_append, List.head?_append, hf]
    rfl

/-- In every run the first frame of a thread at or after a turn that takes a
    request is a keyframe, unless the encoder drops the picture of the turn after
    it has returned an access unit. -/
theorem request_served (hforced : ForcedKey world) (hfirst : FirstKey world)
    (sessionId : Vector UInt8 16) (before after : List (Action P)) (i : ℕ) (t : Tick P)
    {σ₁ σ : State E P} {u v : List Event} {p : Pipeline E P} {m : Thread E P}
    (hbefore : Machine.exec (step env cfg dropPercent world) (start cfg sessionId) before =
      some (σ₁, u))
    (hafter : Machine.exec (step env cfg dropPercent world) σ₁ (.turn i t :: after) =
      some (σ, v))
    (hp : σ₁.pipelines[i]? = some p) (hphase : p.phase = .running m) (hdrains : Drains m t)
    (hkept : Drops (world σ₁.steps) m t → ∀ g ∈ framesOf i u, g.encoder ≠ m.opened) :
    ∀ f, (framesOf i v).head? = some f → f.au.keyframe = true := by
  have hsourced := (tracked_exec env cfg dropPercent world hbefore i).2 p hp
  rw [hphase] at hsourced
  rcases Machine.exec_cons.mp hafter with ⟨σ₂, events, rest, hturn, hrest, rfl⟩
  have hs := step_stepped env cfg dropPercent world hturn
  -- The turn sends a keyframe or leaves it owed, and the steps after it keep that.
  rcases hs.drains hforced hp hphase hsourced hdrains hkept with ⟨hkey, howes⟩
  have hserved := Machine.exec_keeps (ServedFirst world i)
    (fun σ trace a σ' events h hstep =>
      h.step cfg dropPercent hfirst (step_stepped env cfg dropPercent world hstep))
    after (served_of_frames hkey howes) hrest
  intro f hf
  rcases hserved with ⟨hnone, -⟩ | ⟨g, hg, hgkey⟩
  · simp only [hnone, List.head?_nil, reduceCtorEq] at hf
  · rw [hg, Option.some.injEq] at hf
    exact hf ▸ hgkey

/-- A client that asks for an IDR after some ticks. -/
def requestActions (ticks : ℕ) : List (Action Unit) :=
  startActions ++ List.replicate ticks (.turn 0 sampleTick) ++
    [.receive (.Message IDR_REQUEST []), .apply]

/-- A tick that takes the request. -/
def requestTick : Tick Unit := { sampleTick with idr := 1 }

/-- The sample encoder keeps to what is assumed. -/
theorem sampleBackend_keys :
    ForcedKey (fun _ => sampleBackend) ∧ FirstKey (fun _ => sampleBackend) := by
  have hfresh {config : EncoderConfig} {e : ℕ} (h : Fresh (fun _ => sampleBackend) config e) :
      e = 0 := by
    induction h with
    | opened n e h => exact (Option.some.inj h).symm
    | held n e e' planes ts forceIdr _ h ih =>
        rw [ih] at h
        cases h
  constructor
  · intro n e planes ts au e' h
    simp only [sampleBackend] at h
    split at h
    · cases h
    · cases h
      exact Bool.or_true _
  · intro config n e planes ts forceIdr au e' he h
    rw [hfresh he] at h
    cases h
    rfl

theorem request_served_third : ∃ σ₁ u σ v f,
    Machine.exec (step sampleEnv oneStream 0 fun _ => sampleBackend)
      (start oneStream (Vector.replicate 16 0)) (requestActions 2) = some (σ₁, u) ∧
    Machine.exec (step sampleEnv oneStream 0 fun _ => sampleBackend) σ₁ [.turn 0 requestTick] =
      some (σ, v) ∧
    (framesOf 0 v).head? = some f ∧ f.au.keyframe = true := by
  have hrun : ∃ σ₁ u σ v f p m,
      Machine.exec (step sampleEnv oneStream 0 fun _ => sampleBackend)
        (start oneStream (Vector.replicate 16 0)) (requestActions 2) = some (σ₁, u) ∧
      Machine.exec (step sampleEnv oneStream 0 fun _ => sampleBackend) σ₁ [.turn 0 requestTick] =
        some (σ, v) ∧
      (framesOf 0 v).head? = some f ∧ σ₁.pipelines[0]? = some p ∧ p.phase = .running m ∧
      m.idrWaiting = 0 ∧ m.encoder = 2 :=
    ⟨_, _, _, _, _, _, _, rfl, rfl, rfl, rfl, rfl, rfl, rfl⟩
  rcases hrun with ⟨σ₁, u, σ, v, f, p, m, hbefore, hafter, hf, hp, hphase, hwaiting, hencoder⟩
  refine ⟨σ₁, u, σ, v, f, hbefore, hafter, hf, ?_⟩
  refine request_served sampleEnv oneStream 0 sampleBackend_keys.1 sampleBackend_keys.2 _
    (requestActions 2) [] 0 requestTick hbefore hafter hp hphase ⟨rfl, rfl, ?_⟩ ?_ f hf
  · rw [hwaiting]
    decide
  · rintro ⟨planes, e', -, hencode⟩
    rw [hencoder] at hencode
    cases hencode

/-- The encoder drops the picture of the request, and the next frame is not a
    keyframe. -/
theorem request_lost :
    ForcedKey (fun _ => sampleBackend) ∧ FirstKey (fun _ => sampleBackend) ∧
    ∃ σ₁ u σ v p m f,
      Machine.exec (step sampleEnv oneStream 0 fun _ => sampleBackend)
        (start oneStream (Vector.replicate 16 0)) (requestActions 1) = some (σ₁, u) ∧
      Machine.exec (step sampleEnv oneStream 0 fun _ => sampleBackend) σ₁
        [.turn 0 requestTick, .turn 0 sampleTick] = some (σ, v) ∧
      σ₁.pipelines[0]? = some p ∧ p.phase = .running m ∧ Drains m requestTick ∧
      (framesOf 0 v).head? = some f ∧ f.au.keyframe = false :=
  ⟨sampleBackend_keys.1, sampleBackend_keys.2, _, _, _, _, _, _, _, rfl, rfl, rfl, rfl,
    ⟨rfl, rfl, by decide⟩, rfl, rfl⟩

end Run

end System

end LoomHost
