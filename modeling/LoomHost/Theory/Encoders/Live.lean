import LoomHost.Theory.Encoders.X265

/-!
# The Software Encoder in the Media Loop

With libx265 tuned for zero latency no picture is held back, and then no request for
an IDR is lost. The loop of `dumpHevc` makes the calls of the media loop with the
test pattern, so it writes the access units that the media loop sends.

## Theorems

* `dump_eq_live`: What `dumpHevc` writes is what the media loop sends.
* `first_key`, `forced_key`: What the software encoder promises the media loop.
* `no_request_lost`: With it, every request is served.
-/

namespace LoomHost

namespace Encoders

open Media Delay

section Dump

variable {X P : Type*} (lib : X265 X P) (render : UInt32 → Option P)

/-- The software encoder and the test pattern. -/
def patternBackend : Backend (HevcEncoder X) P :=
  hevcBackend lib fun _ => some (.Synthetic render)

/-- A tick in which nothing but the time passes. -/
def Quiet (t : Tick P) : Prop := t.closed = false ∧ t.reconfig = [] ∧ t.idr = 0

variable {lib render} {streamId : UInt16} {m : Thread (HevcEncoder X) P} {t : Tick P}

/-- The first picture is coded as an IDR in any case. -/
theorem encode_unstarted {e : HevcEncoder X} (hstarted : e.started = false) (planes : P)
    (pts : Int64) (forceIdr : Bool) :
    (patternBackend lib render).encodeI420 e planes pts forceIdr =
      (patternBackend lib render).encodeI420 e planes pts false := by
  simp only [patternBackend, hevcBackend, HevcEncoder.encodeI420, Bool.or_eq_true,
    Bool.not_eq_eq_eq_not, Bool.not_true, List.length_eq_zero_iff, hstarted, or_true, ↓reduceIte,
    Bool.false_eq_true]

/-- A quiet turn of a loop with the test pattern. -/
theorem quiet_tick (hquiet : Quiet t) (hsource : m.source = .Synthetic render)
    (hwaiting : m.idrWaiting = 0) :
    tick (patternBackend lib render) streamId m t =
      match render m.frameSeq with
      | none => (none, none)
      | some planes =>
        match (patternBackend lib render).encodeI420 m.encoder planes
          (Int64.ofNat m.frameSeq.toNat) false with
        | some (some au, encoder) =>
          (some (sendFrame streamId { m with encoder } t au).1,
            some (sendFrame streamId { m with encoder } t au).2)
        | some (none, encoder) => (some { m with encoder }, none)
        | none => (none, none) := by
  rcases hquiet with ⟨hclosed, hreconfig, hidr⟩
  rcases m with ⟨encoder, source, params, dropGen, frameSeq, idrWaiting, opened⟩
  dsimp only at hsource hwaiting
  rw [hsource, hwaiting]
  -- Nothing is asked for, so neither the encoder nor the force flag changes.
  simp only [tick, hclosed, hreconfig, hidr, reconfigure, Source.picture, List.getLast?_nil,
    Bool.false_eq_true, if_false, Nat.add_zero, gt_iff_lt, lt_self_iff_false, decide_false,
    Bool.or_self]
  rcases render frameSeq with _ | planes
  · rfl
  · -- The encoder fails, or drops the picture, or hands the access unit out.
    simp only [Option.map_some]
    rcases (patternBackend lib render).encodeI420 encoder planes
      (Int64.ofNat frameSeq.toNat) false with _ | ⟨_ | au, encoder'⟩ <;> rfl

/-- A tick gives one frame at most. -/
theorem length_frames_le {E : Type*} (backend : Backend E P) (streamId : UInt16)
    (ticks : List (Tick P)) :
    ∀ m : Thread E P, (frames backend streamId m ticks).length ≤ ticks.length := by
  induction ticks with
  | nil => exact fun m => le_refl _
  | cons t ticks ih =>
      intro m
      rw [frames, List.length_cons]
      split
      · rename_i m' f _
        have hrest := ih m'
        have hone := Option.length_toList_le (o := f)
        rw [List.length_append]
        omega
      · rename_i f _
        have hone := Option.length_toList_le (o := f)
        omega

/-- The loop of `dumpHevc` and the media loop, from the same encoder on. -/
theorem dumpFrames_eq (ticks : List (Tick P)) : ∀ (m : Thread (HevcEncoder X) P),
    (∀ t ∈ ticks, Quiet t) → m.source = .Synthetic render → m.idrWaiting = 0 →
    m.frameSeq.toNat + ticks.length < 2 ^ 32 →
    (m.frameSeq = 0 → m.encoder.started = false) →
    (frames (patternBackend lib render) streamId m ticks).length = ticks.length →
    dumpFrames (patternBackend lib render) render m.frameSeq ticks.length m.encoder =
      some ((frames (patternBackend lib render) streamId m ticks).flatMap
        fun f => f.au.data) := by
  induction ticks with
  | nil => exact fun _ _ _ _ _ _ _ => rfl
  | cons t ticks ih =>
      intro m hquiet hsource hwaiting hfew hfirst hall
      have htick : tick (patternBackend lib render) streamId m t = _ :=
        quiet_tick (hquiet t List.mem_cons_self) hsource hwaiting
      have hle := length_frames_le (patternBackend lib render) streamId ticks
      rw [List.length_cons] at hfew hall ⊢
      rw [dumpFrames]
      rcases hrender : render m.frameSeq with _ | planes
      · -- Without a picture a frame is missing.
        rw [hrender] at htick
        rw [frames, htick] at hall
        simp only [Option.toList_none, List.length_nil, Nat.right_eq_add, Nat.add_eq_zero_iff,
          List.length_eq_zero_iff, one_ne_zero, and_false] at hall
      -- The dump forces its first picture, which makes no difference.
      have hsame : (patternBackend lib render).encodeI420 m.encoder planes
            (Int64.ofNat m.frameSeq.toNat) (m.frameSeq == 0) =
          (patternBackend lib render).encodeI420 m.encoder planes
            (Int64.ofNat m.frameSeq.toNat) false := by
        by_cases hzero : m.frameSeq = 0
        · exact encode_unstarted (hfirst hzero) _ _ _
        · rw [beq_eq_false_iff_ne.mpr hzero]
      dsimp only
      rw [hsame]
      rw [hrender] at htick
      dsimp only at htick
      rcases hencode : (patternBackend lib render).encodeI420 m.encoder planes
        (Int64.ofNat m.frameSeq.toNat) false with _ | ⟨_ | au, e'⟩
      · -- So it is without an access unit.
        rw [hencode] at htick
        rw [frames, htick] at hall
        simp only [Option.toList_none, List.length_nil, Nat.right_eq_add, Nat.add_eq_zero_iff,
          List.length_eq_zero_iff, one_ne_zero, and_false] at hall
      · rw [hencode] at htick
        rw [frames, htick] at hall
        have hrest := hle { m with encoder := e' }
        simp only [Option.toList_none, List.nil_append] at hall
        omega
      · rw [hencode] at htick
        rcases sendFrame_eq streamId { m with encoder := e' } t au with
          ⟨dropGen, body, datagrams, hsend⟩
        dsimp only at htick
        rw [hsend] at htick
        rw [frames, htick] at hall ⊢
        dsimp only at hall ⊢
        rw [Option.toList_some, List.singleton_append, List.length_cons] at hall
        have hnext : (m.frameSeq + 1).toNat = m.frameSeq.toNat + 1 := by
          rw [UInt32.toNat_add]
          exact Nat.mod_eq_of_lt (by simp only [UInt32.reduceToNat, Nat.reducePow]; omega)
        have hrest := ih { m with encoder := e', dropGen, frameSeq := m.frameSeq + 1 }
          (fun t ht => hquiet t (List.mem_cons_of_mem _ ht)) hsource hwaiting
          (by dsimp only; omega) (fun hzero => ?_) (Nat.succ.inj hall)
        · dsimp only at hrest
          rw [hrest]
          rfl
        · -- The number has not come round to zero.
          dsimp only at hzero
          rw [hzero] at hnext
          simp only [UInt32.toNat_zero, Nat.right_eq_add, Nat.add_eq_zero_iff, one_ne_zero,
            and_false] at hnext

/-- What `dumpHevc` writes is what the media loop sends: if every tick of a loop with
    the test pattern gives a frame, and nothing is asked of the loop, then the file
    holds the access units of those frames. -/
theorem dump_eq_live (streamId : UInt16) (params : Session.MediaParams) (dropPercent : UInt32)
    (count : UInt32) (hpos : 0 < count.toNat) (ticks : List (Tick P))
    (hlength : ticks.length = count.toNat) (hquiet : ∀ t ∈ ticks, Quiet t)
    (hall : (run (patternBackend lib render) streamId params dropPercent ticks).length =
      count.toNat) :
    dumpHevc (patternBackend lib render) render params count =
      some ((run (patternBackend lib render) streamId params dropPercent ticks).flatMap
        fun f => f.au.data) := by
  have hsource : (patternBackend lib render).openSource params = some (.Synthetic render) := rfl
  unfold run Backend.openBoth at hall ⊢
  unfold dumpHevc
  rw [hsource] at hall ⊢
  rcases hopen : (patternBackend lib render).openEncoder (encoderConfig params.width.toUInt32
    params.height.toUInt32 params.refresh.toUInt32 params.bitrateKbps.toUInt32) with _ | e
  · -- Without an encoder no frame is sent, though one is expected.
    rw [hopen] at hall
    dsimp only at hall
    rw [List.length_nil] at hall
    omega
  · rw [hopen] at hall
    dsimp only at hall ⊢
    -- Both loops start with the same encoder, at picture 0.
    have hstarted := (hevc_started hopen).1
    rw [← hlength] at hall ⊢
    refine dumpFrames_eq ticks _ hquiet rfl rfl ?_ (fun _ => hstarted) hall
    rw [hlength]
    have hlt := count.toNat_lt
    dsimp only
    simp only [UInt32.toNat_zero]
    omega

/-- Two frames of a test pattern. -/
theorem dump_eq_live_two :
    dumpHevc (patternBackend promptX265 fun _ => some ()) (fun _ => some ()) {} 2 =
      some ((run (patternBackend promptX265 fun _ => some ()) 0 {} 0
        [sampleTick, sampleTick]).flatMap fun f => f.au.data) :=
  dump_eq_live 0 {} 0 2 (by decide) [sampleTick, sampleTick] rfl
    (by simp only [sampleTick, List.mem_cons, List.not_mem_nil, or_false, or_self, Quiet, forall_eq,
      and_self]) rfl

end Dump

end Encoders

namespace System

open Conn Media Delay Encoders

section Promises

variable {X P : Type*} {lib : X265 X P} {held : X → List (X265Picture P)}
  {coding : X265Picture P → List X265Nal → Prop}
  (sources : ℕ → Session.MediaParams → Option (Source P))

/-- The first access unit of a software encoder is a keyframe, however many pictures
    it holds back. -/
theorem first_key (h : lib.Codes held coding) :
    FirstKey fun n => hevcBackend lib (sources n) := by
  -- A fresh encoder is to be given its first picture, or holds it.
  have hfresh {config : EncoderConfig} {e : HevcEncoder X}
      (he : Fresh (fun n => hevcBackend lib (sources n)) config e) :
      e.started = false ∧ held e.enc = [] ∨
        ∃ p rest, held e.enc = p :: rest ∧ p.sliceType = .IDR := by
    induction he with
    | opened n e hopen => exact Or.inl (hevc_opened h hopen)
    | held n e e' planes ts forceIdr _ hencode ih =>
        right
        rcases hevc_step hencode with
          ⟨ret, nals, -, hneg, hanswer, ⟨hnone, -⟩ | ⟨-, u, hu, -⟩⟩
        · rw [h.kept _ _ ret nals _ hanswer hneg hnone]
          rcases ih with ⟨hstarted, hempty⟩ | ⟨p, rest, hheld, hidr⟩
          · rw [hempty, hstarted]
            exact ⟨_, [], rfl, by simp only [x265Picture, Bool.not_false, Bool.or_true, ↓reduceIte]⟩
          · rw [hheld]
            exact ⟨p, _, rfl, hidr⟩
        · cases hu
  intro config n e planes ts forceIdr au e' he hencode
  rcases hevc_step hencode with ⟨ret, nals, -, hneg, hanswer, ⟨-, hu⟩ | ⟨hsome, u, hu, hunit⟩⟩
  · cases hu
  · rcases h.returned _ _ ret nals _ hanswer hneg hsome with ⟨p, hbalance, hcoding⟩
    rw [Option.some.inj hu, hunit.keyframe, ← h.idr p nals hcoding]
    rcases hfresh he with ⟨hstarted, hempty⟩ | ⟨q, rest, hheld, hidr⟩
    · rw [hempty, hstarted, List.nil_append, List.cons.injEq] at hbalance
      rw [← hbalance.1]
      simp only [x265Picture, Bool.not_false, Bool.or_true, ↓reduceIte]
    · rw [hheld, List.cons_append, List.cons.injEq] at hbalance
      rw [← hbalance.1]
      exact hidr

/-- With zero latency a call gives an access unit of its own picture. -/
theorem prompt_unit (h : lib.Codes held coding) (hnever : ∀ x, held x = [])
    {openSource : Session.MediaParams → Option (Source P)} {e e' : HevcEncoder X} {planes : P}
    {ts : Int64} {forceIdr : Bool} {au : Option AccessUnit}
    (hencode : (hevcBackend lib openSource).encodeI420 e planes ts forceIdr = some (au, e')) :
    ∃ u, au = some u ∧ (forceIdr = true → u.keyframe = true) := by
  have hstep : callStep (hevcBackend lib openSource) e ⟨planes, ts, forceIdr⟩ =
      some (e', au.toList) := callStep_eq.mpr ⟨au, hencode, rfl⟩
  rcases (hevc_delays h).prompt (fun e => hnever e.enc) hstep with ⟨u, hu, nals, hcoding, hunit⟩
  refine ⟨u, Option.toList_eq_singleton_iff.mp hu, fun hforced => ?_⟩
  rw [hunit.keyframe, ← h.idr _ nals hcoding, hforced]
  rfl

theorem forced_key (h : lib.Codes held coding) (hnever : ∀ x, held x = []) :
    ForcedKey fun n => hevcBackend lib (sources n) := by
  intro n e planes ts au e' hencode
  rcases prompt_unit h hnever hencode with ⟨u, hu, hkey⟩
  rw [Option.some.inj hu]
  exact hkey rfl

/-- A turn without a reconfiguration, with a picture, sends a frame, or is the last
    one. -/
theorem prompt_turn (h : lib.Codes held coding) (hnever : ∀ x, held x = []) {n : ℕ}
    {streamId : UInt16} {m : Thread (HevcEncoder X) P} {t : Tick P}
    {r : Option (Thread (HevcEncoder X) P) × Option Frame}
    (ht : Turn (hevcBackend lib (sources n)) streamId m t r) (hreconfig : t.reconfig = [])
    (hpicture : picture m t ≠ none) (hsilent : r.2 = none) : r.1 = none := by
  have hsame {m₁ : Thread (HevcEncoder X) P} {b : Bool}
      (htakes : Takes (hevcBackend lib (sources n)) m t m₁ b) : m₁ = m := by
    cases htakes with
    | nothing _ => rfl
    | reopened params source encoder hlast _ _ =>
        simp only [hreconfig, List.getLast?_nil, reduceCtorEq] at hlast
  cases ht with
  | waits m₁ b _ htakes _ hnone => exact absurd (hsame htakes ▸ hnone) hpicture
  | held m₁ b planes encoder _ _ _ hencode =>
      -- Nothing is held back.
      rcases prompt_unit h hnever hencode with ⟨u, hu, -⟩
      cases hu
  | sent m₁ b planes au encoder _ _ _ _ => cases hsilent
  | _ => rfl

variable (env : Env) (cfg : HostCfg) (dropPercent : UInt32)

/-- A thread that has stopped. -/
def Stopped {E : Type*} (i : ℕ) (σ : State E P) : Prop :=
  ∃ p, σ.pipelines[i]? = some p ∧ p.phase = .stopped

theorem Stepped.stopped {E : Type*} {world : ℕ → Backend E P} {σ σ' : State E P} {a : Action P}
    {events : List Event} {i : ℕ} (hs : Stepped cfg dropPercent world σ a σ' events)
    (h : Stopped i σ) : Stopped i σ' := by
  rcases h with ⟨p, hp, hstopped⟩
  have hmoves := hs.moves cfg dropPercent world i
  unfold Stopped
  generalize σ'.pipelines[i]? = p' at hmoves ⊢
  generalize framesOf i events = sent at hmoves
  -- A pipeline is opened only once, and only a running one takes turns.
  cases hmoves with
  | kept => exact ⟨p, hp, hstopped⟩
  | spawned q hnone _ =>
      rw [hp] at hnone
      cases hnone
  | opened q handle hq hphase =>
      rw [hp, Option.some.injEq] at hq
      rw [← hq, hstopped] at hphase
      cases hphase
  | turned q handle m t _ hq hphase =>
      rw [hp, Option.some.injEq] at hq
      rw [← hq, hstopped] at hphase
      cases hphase

/-- With software encoders of zero latency no request for an IDR is lost. In every
    run, the first frame of a thread at or after a turn that takes a request is a
    keyframe, and if the turn had a picture and nothing has been sent since, the
    thread has stopped. -/
theorem no_request_lost (h : lib.Codes held coding) (hnever : ∀ x, held x = [])
    {sessionId : Vector UInt8 16} {before after : List (Action P)} {i : ℕ} {t : Tick P}
    {σ₁ σ : State (HevcEncoder X) P} {u v : List Event} {p : Pipeline (HevcEncoder X) P}
    {m : Thread (HevcEncoder X) P}
    (hbefore : Machine.exec (step env cfg dropPercent fun n => hevcBackend lib (sources n))
      (start cfg sessionId) before = some (σ₁, u))
    (hafter : Machine.exec (step env cfg dropPercent fun n => hevcBackend lib (sources n)) σ₁
      (.turn i t :: after) = some (σ, v))
    (hp : σ₁.pipelines[i]? = some p) (hphase : p.phase = .running m) (hdrains : Drains m t) :
    (∀ f, (framesOf i v).head? = some f → f.au.keyframe = true) ∧
    (picture m t ≠ none → framesOf i v = [] → Stopped i σ) := by
  constructor
  · refine keyframe_after env cfg dropPercent (forced_key sources h hnever) (first_key sources h)
      hbefore hafter hp hphase hdrains fun hdrops => ?_
    -- The encoder returns something for every picture.
    rcases hdrops with ⟨planes, e', -, hencode⟩
    rcases prompt_unit h hnever hencode with ⟨u, hu, -⟩
    cases hu
  · intro hpicture hsilent
    rcases Machine.exec_cons.mp hafter with ⟨σ₂, events, rest, hturn, hrest, rfl⟩
    rw [framesOf_append, List.append_eq_nil_iff] at hsilent
    have hstopped : Stopped i σ₂ := by
      cases step_stepped env cfg dropPercent _ hturn with
      | ended _ driver returned lost hcontrol _ _ _ => exact absurd rfl (hcontrol i t)
      | turned _ q handle m' _ hq _ hrunning _ _ =>
          rw [hp, Option.some.injEq] at hq
          rw [← hq, hphase, Phase.running.injEq] at hrunning
          rw [← hrunning] at hsilent ⊢
          have hnone := hsilent.1
          rw [turnPipeline, framesOf_frames, Option.toList_eq_nil_iff] at hnone
          have hends := prompt_turn sources h hnever (tick_turn _ handle.streamId m t) hdrains.2.1
            hpicture hnone
          refine ⟨_, getElem?_set_self hp, ?_⟩
          rcases turn_phase_cases (hevcBackend lib (sources σ₁.steps)) i q handle m t with
            ⟨m₁, hm₁, -⟩ | ⟨-, hstops⟩
          · rw [hends] at hm₁
            cases hm₁
          · exact hstops
    exact @Machine.exec_keeps _ _ _ _ (fun σ _ => Stopped i σ)
      (fun σ trace a σ' events h hstep =>
        (step_stepped env cfg dropPercent _ hstep).stopped cfg dropPercent h)
      after σ₂ σ events rest hstopped hrest

/-- A host with that encoder and a capture. -/
def promptHost : State (HevcEncoder Unit) Unit → Action Unit →
    Option (State (HevcEncoder Unit) Unit × List Event) :=
  step sampleEnv oneStream 0 fun _ => hevcBackend promptX265 fun _ => some (.Captured none)

/-- The second picture is requested, and is a keyframe. -/
theorem no_request_lost_second : ∃ σ₁ u σ v f,
    Machine.exec promptHost (start oneStream (Vector.replicate 16 0)) (requestActions 1) =
      some (σ₁, u) ∧
    Machine.exec promptHost σ₁ [.turn 0 requestTick] = some (σ, v) ∧
    (framesOf 0 v).head? = some f ∧ f.au.keyframe = true := by
  have hrun : ∃ σ₁ u σ v f p m,
      Machine.exec promptHost (start oneStream (Vector.replicate 16 0)) (requestActions 1) =
        some (σ₁, u) ∧
      Machine.exec promptHost σ₁ [.turn 0 requestTick] = some (σ, v) ∧
      (framesOf 0 v).head? = some f ∧ σ₁.pipelines[0]? = some p ∧ p.phase = .running m ∧
      m.idrWaiting = 0 :=
    ⟨_, _, _, _, _, _, _, rfl, rfl, rfl, rfl, rfl, rfl⟩
  rcases hrun with ⟨σ₁, u, σ, v, f, p, m, hbefore, hafter, hf, hp, hphase, hwaiting⟩
  have hdrains : Drains m requestTick := by
    refine ⟨rfl, rfl, ?_⟩
    rw [hwaiting]
    decide
  exact ⟨σ₁, u, σ, v, f, hbefore, hafter, hf,
    (no_request_lost (fun _ _ => some (.Captured none)) sampleEnv oneStream 0 promptX265_codes
      (fun _ => rfl) hbefore hafter hp hphase hdrains).1 f hf⟩

end Promises

end System

end LoomHost
