import LoomHost.Theory.Streams
import LoomHost.Theory.System.Step
import LoomHost.Theory.Turns

/-!
# No Frame Before Its Size Is Acknowledged

The sizes of the primary stream on their way from the session to the encoder.
The session announces a size, and tells the media thread once it is
acknowledged; the thread takes the newest size it was told and opens an encoder
for it. What the thread has opened, with what is still queued for it, is a
sublist of the sizes in force, so that every frame is encoded at a size the
client has acknowledged, and the sizes never go back.

The primary stream is the first of the configured ones, and its thread the first
one started.

## Main definitions

* `EncodedAt`: A frame is an access unit of an encoder for a size.
* `FirstKey`: What is assumed of the encoders.
* `Sized`, `Fits`: A thread and its frames, with the sizes of its encoders.
* `Fed`: A thread and its queue.
* `Agrees`: The thread of the primary stream and the session.

## Theorems

* `sized_turn`: What a turn keeps.
* `Agrees.applied`, `Agrees.opened`, `Agrees.turned`: What each kind of step keeps.
* `Stepped.agrees`: What a step keeps.
* `frames_acknowledged`: The frames of every run.
-/

namespace LoomHost

namespace System

open Control Session Conn Media

section Turn

variable {E P : Type*} (world : ℕ → Backend E P)

/-- A frame is an access unit of an encoder opened for a size. The states are any,
    so an encoder may keep its size in them. -/
def EncodedAt (width height : ℕ) (f : Frame) : Prop :=
  ∃ config n e planes ts forceIdr e', Encodes world config e ∧
    (world n).encodeI420 e planes ts forceIdr = some (some f.au, e') ∧
    config.width.toNat = width ∧ config.height.toNat = height

/-- The first access unit of every encoder is a keyframe. -/
def FirstKey : Prop :=
  ∀ config n e planes ts forceIdr au e', Fresh world config e →
    (world n).encodeI420 e planes ts forceIdr = some (some au, e') → au.keyframe = true

/-- The number of the frame after these. -/
def nextSeq (sent : List Frame) : UInt32 :=
  match sent.getLast? with
  | some g => g.frameSeq + 1
  | none => 0

/-- A thread has opened an encoder for each of these sizes, and has sent these
    frames. -/
structure Sized (sizes : List (ℕ × MediaParams)) (sent : List Frame) (m : Thread E P) : Prop where
  opened : sizes.length = m.opened
  last : ∃ k, sizes.getLast? = some (k, m.params)
  encodes : Encodes world (configOf m.params) m.encoder
  frameSeq : m.frameSeq = nextSeq sent
  sourced : Sourced world sent m

/-- A frame that comes after those sent, from the encoder of one of the sizes. -/
structure Fits (sizes : List (ℕ × MediaParams)) (sent : List Frame) (f : Frame)
    (x : ℕ × MediaParams) : Prop where
  encoder : f.encoder ≠ 0 ∧ sizes[f.encoder - 1]? = some x
  encoded : ∃ n e planes ts forceIdr e', Encodes world (configOf x.2) e ∧
    (world n).encodeI420 e planes ts forceIdr = some (some f.au, e') ∧
    ((∀ g ∈ sent, g.encoder ≠ f.encoder) → Fresh world (configOf x.2) e)
  frameSeq : f.frameSeq = nextSeq sent
  encoder_le : ∀ g ∈ sent, g.encoder ≤ f.encoder

variable {world} {sizes taken : List (ℕ × MediaParams)} {sent : List Frame} {m m₁ : Thread E P}
  {t : Tick P} {n : ℕ}

/-- More encoders change nothing for the frames of the first ones. -/
theorem Fits.append {f : Frame} {x : ℕ × MediaParams} (h : Fits world sizes sent f x)
    (more : List (ℕ × MediaParams)) : Fits world (sizes ++ more) sent f x := by
  rcases List.getElem?_eq_some_iff.mp h.encoder.2 with ⟨hlt, -⟩
  refine ⟨⟨h.encoder.1, ?_⟩, h.encoded, h.frameSeq, h.encoder_le⟩
  rw [List.getElem?_append_left hlt]
  exact h.encoder.2

/-- A thread that takes its reconfigurations opens an encoder for the newest. -/
theorem sized_takes {b : Bool} (ht : Takes (world n) m t m₁ b) (h : Sized world sizes sent m)
    (htaken : taken.map Prod.snd = t.reconfig) :
    Sized world (sizes ++ taken.getLast?.toList) sent m₁ := by
  have hsourced := sourced_takes ht h.sourced
  cases ht with
  | nothing hnone =>
      rw [hnone, List.map_eq_nil_iff] at htaken
      rw [htaken, List.getLast?_nil, Option.toList_none, List.append_nil]
      exact h
  | reopened params source encoder hlast hencoder hsource =>
      rw [← htaken, List.getLast?_map, Option.map_eq_some_iff] at hlast
      rcases hlast with ⟨x, hx, rfl⟩
      -- One encoder more, for the newest of the sizes taken.
      rw [hx]
      refine ⟨?_, ⟨x.1, ?_⟩, Encodes.opened n encoder hencoder, h.frameSeq, hsourced⟩
      · rw [List.length_append, h.opened]
        rfl
      · exact List.getLast?_append_of_ne_nil sizes (by simp only [Option.toList_some, ne_eq,
          List.cons_ne_self, not_false_eq_true])

/-- An access unit the thread has encoded fits its newest size. -/
theorem Sized.fits (h : Sized world sizes sent m) {f : Frame} {planes : P} {ts : Int64}
    {forceIdr : Bool} {e' : E}
    (hencode : (world n).encodeI420 m.encoder planes ts forceIdr = some (some f.au, e'))
    (hencoder : f.encoder = m.opened) (hseq : f.frameSeq = m.frameSeq) :
    ∃ x, Fits world sizes sent f x := by
  rcases h.last with ⟨k, hk⟩
  have hne : m.opened ≠ 0 := by
    rw [← h.opened]
    intro hzero
    simp only [List.eq_nil_of_length_eq_zero hzero, List.getLast?_nil, reduceCtorEq] at hk
  refine ⟨(k, m.params), ⟨hencoder ▸ hne, ?_⟩, ?_, hseq.trans h.frameSeq, ?_⟩
  · rw [hencoder, ← h.opened, ← List.getLast?_eq_getElem?]
    exact hk
  · refine ⟨n, m.encoder, planes, ts, forceIdr, e', h.encodes, hencode, fun hnew => ?_⟩
    exact h.sourced.fresh (hencoder ▸ hnew)
  · rw [hencoder]
    exact h.sourced.encoder_le

/-- What a turn keeps of a thread that goes on. -/
theorem sized_turn {streamId : UInt16} {r : Option (Thread E P) × Option Frame}
    (ht : Turn (world n) streamId m t r) (h : Sized world sizes sent m)
    (htaken : taken.map Prod.snd = t.reconfig) :
    (∀ m', r.1 = some m' → Sized world (sizes ++ taken.getLast?.toList) (sent ++ r.2.toList) m') ∧
      ∀ f, r.2 = some f → ∃ x, Fits world (sizes ++ taken.getLast?.toList) sent f x := by
  have hsourced := sourced_turn ht h.sourced
  have hnone {f : Frame} {Q : Prop} (hf : none = some f) : Q := nomatch hf
  cases ht with
  | waits m₁ b _ htakes _ =>
      have h₁ := sized_takes htakes h htaken
      refine ⟨fun m' hm' => ?_, fun f hf => hnone hf⟩
      have hs := hsourced m' hm'
      rw [Option.toList_none, List.append_nil] at hs ⊢
      rw [← Option.some.inj hm'] at hs ⊢
      exact ⟨h₁.opened, h₁.last, h₁.encodes, h₁.frameSeq, hs⟩
  | held m₁ b planes encoder _ htakes _ hencode =>
      have h₁ := sized_takes htakes h htaken
      refine ⟨fun m' hm' => ?_, fun f hf => hnone hf⟩
      have hs := hsourced m' hm'
      rw [Option.toList_none, List.append_nil] at hs ⊢
      rw [← Option.some.inj hm'] at hs ⊢
      -- The encoder has had one call more, and has returned nothing.
      refine ⟨h₁.opened, h₁.last, ?_, h₁.frameSeq, hs⟩
      exact Encodes.encoded n _ _ _ _ _ _ h₁.encodes hencode
  | sent m₁ b planes au encoder _ htakes _ hencode =>
      have h₁ := sized_takes htakes h htaken
      rcases sendFrame_eq streamId { drained m₁ t b with encoder } t au with
        ⟨dropGen, body, datagrams, heq⟩
      rw [heq] at hsourced ⊢
      refine ⟨fun m' hm' => ?_, fun f hf => ?_⟩
      · have hs := hsourced m' hm'
        rw [← Option.some.inj hm'] at hs ⊢
        refine ⟨h₁.opened, h₁.last, ?_, ?_, hs⟩
        · exact Encodes.encoded n _ _ _ _ _ _ h₁.encodes hencode
        · rw [Option.toList_some, nextSeq, List.getLast?_concat]
      · rw [← Option.some.inj hf]
        exact h₁.fits hencode rfl rfl
  | _ =>
      exact ⟨fun m' hm' => absurd hm' (by simp only [reduceCtorEq, not_false_eq_true]),
        fun f hf => hnone hf⟩

end Turn

section Queue

variable {E P : Type*} (cfg : HostCfg) (world : ℕ → Backend E P)

/-- The sizes in force: the first one, and those of the Reconfigures applied. -/
def inForce (trace : List Event) : List (ℕ × MediaParams) :=
  (0, cfg.primary.params) :: switches 0 (entries trace)

/-- The media have started. -/
def Started (trace : List Event) : Prop := ∃ multi, .out (.StartMedia multi) ∈ entries trace

/-- How far a thread is, with the sizes of its encoders and its frames. A thread
    that has not opened its encoder yet will do so for the first size. -/
def Phased (sizes : List (ℕ × MediaParams)) (sent : List Frame) : Phase E P → Prop
  | .spawned => sizes = [(0, cfg.primary.params)] ∧ sent = []
  | .running m => Sized world sizes sent m
  | _ => True

/-- The thread of the primary stream, if it is started, and its handle: what it
    was told and has not taken yet is queued. -/
inductive Fed (trace : List Event) (sizes queue : List (ℕ × MediaParams)) :
    Option (Pipeline E P) → Option MediaHandle → Prop
  | waiting (hsizes : sizes = [(0, cfg.primary.params)]) (hqueue : queue = [])
      (hsent : framesOf 0 trace = []) : Fed trace sizes queue none none
  | started (p : Pipeline E P) (h : MediaHandle) (hstarted : Started trace)
      (hparams : h.params = cfg.primary.params)
      (htaken : p.reconfigTaken ≤ h.reconfig.length)
      (hqueue : queue.map Prod.snd = h.reconfig.drop p.reconfigTaken)
      (hphase : Phased cfg world sizes (framesOf 0 trace) p.phase) :
      Fed trace sizes queue (some p) (some h)

/-- The thread of the primary stream agrees with the session: what it has opened,
    and what is queued for it, is in force, and so was the size of every frame. -/
structure Agrees (sizes queue : List (ℕ × MediaParams)) (σ : State E P) (trace : List Event) :
    Prop where
  lengths : σ.pipelines.length = σ.driver.media.length
  in_order : (sizes ++ queue).Sublist (inForce cfg trace)
  fed : Fed cfg world trace sizes queue σ.pipelines[0]? σ.driver.media[0]?
  frames : ∀ u f w, trace = u ++ .frame 0 f :: w →
    ∃ x, Fits world sizes (framesOf 0 u) f x ∧ Acked (entries u) x.1 x.2

variable {cfg world} {trace events : List Event} {sizes queue : List (ℕ × MediaParams)}

/-- More may come in force, and what is in force stays. -/
theorem inForce_append : (inForce cfg trace).Sublist (inForce cfg (trace ++ events)) := by
  rw [inForce, inForce, entries_append, switches_append]
  exact (List.sublist_append_left _ _).cons_cons _

theorem Started.append (h : Started trace) : Started (trace ++ events) := by
  rcases h with ⟨multi, h⟩
  rw [Started, entries_append]
  exact ⟨multi, List.mem_append_left _ h⟩

/-- A size in force is acknowledged once the media have started. -/
theorem acked_of_inForce {sessionId : Vector UInt8 16} {σ : State E P}
    (hcontrolled : Controlled cfg sessionId σ trace) (hstarted : Started trace)
    {x : ℕ × MediaParams} (hx : x ∈ inForce cfg trace) : Acked (entries trace) x.1 x.2 := by
  rcases hcontrolled with ⟨frames, -, hlog⟩
  have hcut {u w : List Entry} {e : Entry} (h : entries trace = u ++ e :: w) :
      log (HostSession.new cfg.name sessionId cfg.primary.params cfg.extraStreamConfigs)
        frames = u ++ e :: (w ++ σ.outputs.map .out) := by
    rw [hlog, h, List.append_assoc, List.cons_append]
  rw [inForce, List.mem_cons] at hx
  rcases hx with rfl | hx
  · -- The first size is that of the first CONFIG.
    rcases hstarted with ⟨multi, hmulti⟩
    rcases List.append_of_mem hmulti with ⟨u, w, h⟩
    rw [h]
    exact (acked_of_started _ _ _ _ _ (hcut h)).append _
  · rcases mem_switches _ 0 x hx with ⟨u, w, h, hnum⟩
    rw [h, hnum, Nat.zero_add]
    exact (acked_of_switch _ _ _ _ _ (hcut h)).append _

/-- What a step leaves behind that is not a frame of the thread changes nothing
    for it. -/
theorem Fed.append {p : Option (Pipeline E P)} {h : Option MediaHandle}
    (hfed : Fed cfg world trace sizes queue p h) (hquiet : ∀ f, .frame 0 f ∉ events) :
    Fed cfg world (trace ++ events) sizes queue p h := by
  have hframes : framesOf 0 (trace ++ events) = framesOf 0 trace := by
    rw [framesOf_append, framesOf_eq_nil hquiet, List.append_nil]
  cases hfed with
  | waiting hsizes hqueue hsent => exact Fed.waiting hsizes hqueue (hframes.trans hsent)
  | started p h hstarted hparams htaken hqueue hphase =>
      exact Fed.started p h hstarted.append hparams htaken hqueue (hframes ▸ hphase)

/-- There is a thread only once the media have started. -/
theorem Fed.isStarted {p : Pipeline E P} {h : MediaHandle}
    (hfed : Fed cfg world trace sizes queue (some p) (some h)) : Started trace := by
  cases hfed with
  | started _ _ hstarted _ _ _ _ => exact hstarted

/-- The frames sent before a step that sends none. -/
theorem Agrees.frames_quiet {σ : State E P} (h : Agrees cfg world sizes queue σ trace)
    (hquiet : ∀ f, .frame 0 f ∉ events) (u : List Event) (f : Frame) (w : List Event)
    (heq : trace ++ events = u ++ .frame 0 f :: w) :
    ∃ x, Fits world sizes (framesOf 0 u) f x ∧ Acked (entries u) x.1 x.2 := by
  rcases append_cons_left heq (hquiet f) with ⟨w', -, heq'⟩
  exact h.frames u f w' heq'

/-- A step that leaves the thread and its handle alone. -/
theorem Agrees.quiet {σ σ' : State E P} (h : Agrees cfg world sizes queue σ trace)
    (hlengths : σ'.pipelines.length = σ'.driver.media.length)
    (hpipeline : σ'.pipelines[0]? = σ.pipelines[0]?)
    (hmedia : σ'.driver.media[0]? = σ.driver.media[0]?) (hquiet : ∀ f, .frame 0 f ∉ events) :
    Agrees cfg world sizes queue σ' (trace ++ events) := by
  refine ⟨hlengths, h.in_order.trans inForce_append, ?_, h.frames_quiet hquiet⟩
  rw [hpipeline, hmedia]
  exact h.fed.append hquiet

/-- The thread is started with an empty queue, and has not opened its encoder. -/
theorem Fed.spawned (hfed : Fed cfg world trace sizes queue none none) (hstarted : Started trace) :
    Fed cfg world trace sizes queue (some {}) (some (MediaHandle.spawn cfg.primary)) := by
  cases hfed with
  | waiting hsizes hqueue hsent =>
      refine Fed.started {} _ hstarted rfl le_rfl ?_ ⟨hsizes, hsent⟩
      rw [hqueue]
      rfl

/-- A request for a keyframe leaves the sizes queued. -/
theorem Fed.requestIdr {p : Pipeline E P} {h : MediaHandle}
    (hfed : Fed cfg world trace sizes queue (some p) (some h)) :
    Fed cfg world trace sizes queue (some p) (some h.requestIdr) := by
  cases hfed with
  | started _ _ hstarted hparams htaken hqueue hphase =>
      exact Fed.started p _ hstarted hparams htaken hqueue hphase

/-- A size is queued behind the others. -/
theorem Fed.reconfigure {p : Pipeline E P} {h : MediaHandle}
    (hfed : Fed cfg world trace sizes queue (some p) (some h)) (k : ℕ) (params : MediaParams) :
    Fed cfg world trace sizes (queue ++ [(k, params)]) (some p) (some (h.reconfigure params)) := by
  cases hfed with
  | started _ _ hstarted hparams htaken hqueue hphase =>
      refine Fed.started p _ hstarted hparams ?_ ?_ hphase
      · rw [MediaHandle.reconfigure, List.length_append]
        exact htaken.trans (Nat.le_add_right _ _)
      · rw [List.map_append, hqueue, MediaHandle.reconfigure, List.drop_append_of_le_length htaken]
        rfl

/-- The first thread and its handle when an output is applied before the media
    have started. -/
theorem Fed.applied_first (hfed : Fed cfg world trace sizes queue none none) (o : Output) :
    Fed cfg world (trace ++ [.applied o]) sizes queue
      (List.replicate (handles cfg [] o).length ({} : Pipeline E P))[0]?
      (handles cfg [] o)[0]? := by
  have hfed' : Fed cfg world (trace ++ [.applied o]) sizes queue none none :=
    hfed.append nofun
  cases o with
  | StartMedia multi =>
      have hprimary := handles_nil_start_media cfg multi
      rcases List.getElem?_eq_some_iff.mp hprimary with ⟨hpos, -⟩
      rw [List.getElem?_replicate, if_pos hpos, hprimary]
      refine hfed'.spawned ?_
      rw [Started, entries_append]
      exact ⟨multi, List.mem_append_right _ List.mem_cons_self⟩
  | _ => exact hfed'

/-- The handle of a started thread when an output is applied: it is told
    something, or left alone. -/
theorem Fed.applied_told {p : Pipeline E P} {h : MediaHandle} (media : List MediaHandle)
    (hfed : Fed cfg world trace sizes queue (some p) (some h)) (o : Output) (k : ℕ) :
    ∃ queue', Fed cfg world (trace ++ [.applied o]) sizes queue' (some p)
        (handles cfg (h :: media) o)[0]? ∧
      (queue' = queue ∨ ∃ params, o = .Reconfigure params ∧ queue' = queue ++ [(k, params)]) := by
  have hfed' : Fed cfg world (trace ++ [.applied o]) sizes queue (some p) (some h) :=
    hfed.append nofun
  cases o with
  | StartMedia multi => exact ⟨queue, hfed', Or.inl rfl⟩
  | RequestIdr streamId =>
      refine ⟨queue, ?_, Or.inl rfl⟩
      -- The first handle is told, or another one is.
      rcases getElem?_tell (h :: media) streamId MediaHandle.requestIdr 0 h rfl with htell | htell
      · rw [handles, htell]
        exact hfed'
      · rw [handles, htell]
        exact hfed'.requestIdr
  | Reconfigure params =>
      rcases getElem?_tell (h :: media) 0 (MediaHandle.reconfigure params) 0 h rfl with
        htell | htell
      · rw [handles, htell]
        exact ⟨queue, hfed', Or.inl rfl⟩
      · rw [handles, htell]
        exact ⟨queue ++ [(k, params)], hfed'.reconfigure k params, Or.inr ⟨params, rfl, rfl⟩⟩
  | _ => exact ⟨queue, hfed', Or.inl rfl⟩

/-- The handle of the thread when an output is applied: it is started, or told
    something, or left alone. -/
theorem Fed.applied {pipelines : List (Pipeline E P)} {media : List MediaHandle}
    (hfed : Fed cfg world trace sizes queue pipelines[0]? media[0]?)
    (hlengths : pipelines.length = media.length) (o : Output) (k : ℕ) :
    ∃ queue', Fed cfg world (trace ++ [.applied o]) sizes queue'
        (pipelines ++ List.replicate ((handles cfg media o).length - pipelines.length)
          ({} : Pipeline E P))[0]? (handles cfg media o)[0]? ∧
      (queue' = queue ∨ ∃ params, o = .Reconfigure params ∧ queue' = queue ++ [(k, params)]) := by
  cases media with
  | nil =>
      rw [List.eq_nil_of_length_eq_zero hlengths] at hfed ⊢
      rw [List.nil_append, List.length_nil, Nat.sub_zero]
      exact ⟨queue, hfed.applied_first o, Or.inl rfl⟩
  | cons h media =>
      cases pipelines with
      | nil => exact absurd hlengths (by simp only [List.length_nil, List.length_cons,
        Nat.right_eq_add, Nat.add_eq_zero_iff, List.length_eq_zero_iff, one_ne_zero, and_false,
        not_false_eq_true])
      | cons p pipelines => exact hfed.applied_told media o k

/-- An output applied. -/
theorem Agrees.applied {σ σ' : State E P} (h : Agrees cfg world sizes queue σ trace) (o : Output)
    (hmedia : σ'.driver.media = handles cfg σ.driver.media o)
    (hpipelines : σ'.pipelines = σ.pipelines ++
      List.replicate (σ'.driver.media.length - σ.pipelines.length) ({} : Pipeline E P)) :
    ∃ queue', Agrees cfg world sizes queue' σ' (trace ++ [.applied o]) := by
  rcases h.fed.applied h.lengths o (0 + (configs (entries trace)).length - 1) with
    ⟨queue', hfed, hqueue⟩
  refine ⟨queue', ?_, ?_, ?_, h.frames_quiet nofun⟩
  · have hle := length_handles cfg σ.driver.media o
    rw [hpipelines, hmedia, List.length_append, List.length_replicate, h.lengths]
    exact Nat.add_sub_of_le hle
  · rcases hqueue with rfl | ⟨params, rfl, rfl⟩
    · exact h.in_order.trans inForce_append
    · -- The size comes in force with the number it is queued under.
      rw [inForce, entries_append, switches_append, ← List.append_assoc, ← List.cons_append]
      exact h.in_order.append (List.Sublist.refl _)
  · rw [hpipelines, hmedia]
    exact hfed

/-- A thread that opens its encoder does so for the first size. -/
theorem phased_open (dropPercent : UInt32) (n : ℕ) (h : MediaHandle)
    (hparams : h.params = cfg.primary.params) :
    Phased cfg world [(0, cfg.primary.params)] [] (openPipeline dropPercent (world n) h) := by
  rcases openPipeline_cases dropPercent (world n) h with
    ⟨source, encoder, hopen, hphase⟩ | hphase
  · have hencoder := (openBoth_some (world n) hopen).1
    rw [hphase, ← hparams]
    exact ⟨rfl, ⟨0, rfl⟩, Encodes.opened n encoder hencoder, rfl,
      sourced_opened (Fresh.opened n encoder hencoder)⟩
  · rw [hphase]
    trivial

/-- What a turn takes off the queue, and what it opens. -/
theorem opened_sublist (sizes queue : List (ℕ × MediaParams)) (k : ℕ) :
    (sizes ++ (queue.take k).getLast?.toList ++ queue.drop k).Sublist (sizes ++ queue) := by
  rw [List.append_assoc]
  refine List.Sublist.append_left ?_ sizes
  conv_rhs => rw [← List.take_append_drop k queue]
  refine List.Sublist.append_right ?_ (queue.drop k)
  cases hlast : (queue.take k).getLast? with
  | none => exact List.nil_sublist _
  | some x => exact List.singleton_sublist.mpr (List.mem_of_getLast? hlast)

/-- The thread opens its encoder. -/
theorem Agrees.opened {dropPercent : UInt32} {σ σ' : State E P} {p : Pipeline E P}
    {handle : MediaHandle} (h : Agrees cfg world sizes queue σ trace)
    (hp : σ.pipelines[0]? = some p) (hh : σ.driver.media[0]? = some handle)
    (hphase : p.phase = .spawned) (hlengths : σ'.pipelines.length = σ'.driver.media.length)
    (hp' : σ'.pipelines[0]? =
      some { p with phase := openPipeline dropPercent (world σ.steps) handle })
    (hh' : σ'.driver.media[0]? = some handle) : Agrees cfg world sizes queue σ' trace := by
  have hfed := h.fed
  rw [hp, hh] at hfed
  refine ⟨hlengths, h.in_order, ?_, h.frames⟩
  rw [hp', hh']
  cases hfed with
  | started _ _ hstarted hparams htaken hqueue hphased =>
      rw [hphase] at hphased
      refine Fed.started _ handle hstarted hparams htaken hqueue ?_
      rw [hphased.1, hphased.2]
      exact phased_open dropPercent σ.steps handle hparams

/-- A turn of the thread, as what it takes off its queue. -/
theorem Fed.turned (n : ℕ) {p : Pipeline E P} {h : MediaHandle} {m : Thread E P} {t : Tick P}
    (hfed : Fed cfg world trace sizes queue (some p) (some h)) (hphase : p.phase = .running m)
    (hopen : ¬ t.closed = true) (hreconfig : t.reconfig <+: h.reconfig.drop p.reconfigTaken) :
    Fed cfg world (trace ++ (turnPipeline (world n) 0 p h m t).2)
        (sizes ++ (queue.take t.reconfig.length).getLast?.toList) (queue.drop t.reconfig.length)
        (some (turnPipeline (world n) 0 p h m t).1) (some h) ∧
      ∀ f, (tick (world n) h.streamId m t).2 = some f → ∃ x,
        Fits world (sizes ++ (queue.take t.reconfig.length).getLast?.toList) (framesOf 0 trace)
          f x := by
  cases hfed with
  | started _ _ hstarted hparams htaken hqueue hphased =>
      rw [hphase] at hphased
      rcases hreconfig with ⟨rest, hrest⟩
      -- The turn drains what it takes off the queue, and no more than is there.
      have hlen : t.reconfig.length ≤ h.reconfig.length - p.reconfigTaken := by
        rw [← List.length_drop, ← hrest, List.length_append]
        exact Nat.le_add_right _ _
      -- The sizes drained are the first of those still to be applied.
      have htook : (queue.take t.reconfig.length).map Prod.snd = t.reconfig := by
        rw [List.map_take, hqueue, ← hrest, List.take_left]
      have hturn := tick_turn (world n) h.streamId m t
      rcases sized_turn hturn hphased htook with ⟨hsized, hsent⟩
      refine ⟨Fed.started _ h hstarted.append hparams ?_ ?_ ?_, hsent⟩
      · simp only [turnPipeline, if_neg hopen]
        omega
      · simp only [turnPipeline, if_neg hopen]
        rw [List.map_drop, hqueue, List.drop_drop]
      · change Phased cfg world _ (framesOf 0 (trace ++ List.map (.frame 0) _)) _
        rw [framesOf_append, framesOf_frames]
        -- A thread that stops has nothing more to keep.
        rcases turn_phase_cases (world n) 0 p h m t with ⟨m', hm', hgoes⟩ | ⟨-, hstops⟩
        · rw [hgoes]
          exact hsized m' hm'
        · rw [hstops]
          trivial

/-- A turn on a closed connection ends the thread before it looks at its
    channels. -/
theorem Fed.stopped {p : Pipeline E P} {h : MediaHandle}
    (hfed : Fed cfg world trace sizes queue (some p) (some h)) :
    Fed cfg world trace sizes queue (some { p with phase := .stopped }) (some h) := by
  cases hfed with
  | started _ _ hstarted hparams htaken hqueue _ =>
      exact Fed.started _ h hstarted hparams htaken hqueue trivial

/-- A turn of the thread. -/
theorem Agrees.turned {sessionId : Vector UInt8 16} {σ σ' : State E P} {p : Pipeline E P}
    {h : MediaHandle} {m : Thread E P} {t : Tick P} (hagrees : Agrees cfg world sizes queue σ trace)
    (hcontrolled : Controlled cfg sessionId σ trace) (hp : σ.pipelines[0]? = some p)
    (hh : σ.driver.media[0]? = some h) (hphase : p.phase = .running m)
    (hreconfig : t.reconfig <+: h.reconfig.drop p.reconfigTaken)
    (hlengths : σ'.pipelines.length = σ'.driver.media.length)
    (hp' : σ'.pipelines[0]? = some (turnPipeline (world σ.steps) 0 p h m t).1)
    (hh' : σ'.driver.media[0]? = some h) :
    ∃ sizes' queue', Agrees cfg world sizes' queue' σ'
      (trace ++ (turnPipeline (world σ.steps) 0 p h m t).2) := by
  have hfed := hagrees.fed
  rw [hp, hh] at hfed
  by_cases hclosed : t.closed = true
  · rw [turnPipeline_closed _ _ _ _ _ hclosed] at hp' ⊢
    refine ⟨sizes, queue, ?_⟩
    rw [List.append_nil]
    refine ⟨hlengths, hagrees.in_order, ?_, hagrees.frames⟩
    rw [hp', hh']
    exact hfed.stopped
  · -- It takes the oldest of its queue, which stays a part of what is in force.
    have hin := (opened_sublist sizes queue t.reconfig.length).trans hagrees.in_order
    rcases Fed.turned σ.steps hfed hphase hclosed hreconfig with ⟨hfed', hsent⟩
    refine ⟨_, _, hlengths, hin.trans inForce_append, ?_, fun u f w heq => ?_⟩
    · rw [hp', hh']
      exact hfed'
    · change trace ++ List.map (.frame 0) _ = _ at heq
      cases hf : (tick (world σ.steps) h.streamId m t).2 with
      | none =>
          rw [hf, Option.toList_none, List.map_nil, List.append_nil] at heq
          rcases hagrees.frames u f w heq with ⟨x, hfits, hacked⟩
          exact ⟨x, hfits.append _, hacked⟩
      | some g =>
          rw [hf] at heq
          rcases concat_eq_append_cons heq with ⟨w', heq'⟩ | ⟨rfl, hg⟩
          · rcases hagrees.frames u f w' heq' with ⟨x, hfits, hacked⟩
            exact ⟨x, hfits.append _, hacked⟩
          · -- The new frame is of a size that is in force now.
            rcases hsent g hf with ⟨x, hfits⟩
            have hx : x ∈ inForce cfg trace :=
              hin.subset (List.mem_append_left _ (List.mem_of_getElem? hfits.encoder.2))
            rw [← (Event.frame.inj hg).2]
            exact ⟨x, hfits, acked_of_inForce hcontrolled hfed.isStarted hx⟩

/-- What a step keeps. -/
theorem Stepped.agrees {sessionId : Vector UInt8 16} {dropPercent : UInt32} {σ σ' : State E P}
    {a : Action P} (hs : Stepped cfg dropPercent world σ a σ' events)
    (hcontrolled : Controlled cfg sessionId σ trace)
    (h : Agrees cfg world sizes queue σ trace) :
    ∃ sizes' queue', Agrees cfg world sizes' queue' σ' (trace ++ events) := by
  -- Only what is applied and the thread's own steps touch the thread and its queue.
  cases hs with
  | received frame _ => exact ⟨sizes, queue, h.quiet h.lengths rfl rfl nofun⟩
  | applied o rest driver returned _ hmedia _ => exact ⟨sizes, h.applied o hmedia rfl⟩
  | ended a driver returned lost _ hmedia _ _ =>
      refine ⟨sizes, queue, h.quiet ?_ rfl ?_ (fun _ => List.not_mem_nil)⟩
      · rw [hmedia]
        exact h.lengths
      · rw [hmedia]
  | opened i p handle hp hh hphase =>
      have hlengths : (σ.pipelines.set i
          { p with phase := openPipeline dropPercent (world σ.steps) handle }).length =
          σ.driver.media.length := by
        rw [List.length_set]
        exact h.lengths
      by_cases hi : i = 0
      · rw [hi] at hp hh hlengths ⊢
        rw [List.append_nil]
        exact ⟨sizes, queue, h.opened hp hh hphase hlengths (getElem?_set_self hp) hh⟩
      · exact ⟨sizes, queue,
          h.quiet hlengths (List.getElem?_set_ne hi) rfl (fun _ => List.not_mem_nil)⟩
  | turned i p handle m t hp hh hphase _ hreconfig =>
      have hlengths : (σ.pipelines.set i (turnPipeline (world σ.steps) i p handle m t).1).length =
          σ.driver.media.length := by
        rw [List.length_set]
        exact h.lengths
      by_cases hi : i = 0
      · rw [hi] at hp hh hlengths ⊢
        exact h.turned hcontrolled hp hh hphase hreconfig hlengths (getElem?_set_self hp) hh
      · refine ⟨sizes, queue, h.quiet hlengths (List.getElem?_set_ne hi) rfl (fun f hf => ?_)⟩
        -- The frames are those of another thread.
        rcases List.mem_map.mp hf with ⟨g, -, hg⟩
        exact hi (Event.frame.inj hg).1

end Queue

section Run

variable {E P : Type*} (env : Env) (cfg : HostCfg) (dropPercent : UInt32)
  (world : ℕ → Backend E P)

theorem agrees_start (sessionId : Vector UInt8 16) :
    Agrees cfg world [(0, cfg.primary.params)] [] (start cfg sessionId) [] :=
  ⟨rfl, List.Sublist.refl _, Fed.waiting rfl rfl rfl, fun u _ _ heq =>
    absurd heq.symm (List.append_ne_nil_of_right_ne_nil u (List.cons_ne_nil _ _))⟩

/-- In every run the thread of the primary stream agrees with the session. -/
theorem agrees_exec {sessionId : Vector UInt8 16} {σ : State E P} {trace : List Event}
    {actions : List (Action P)}
    (h : Machine.exec (step env cfg dropPercent world) (start cfg sessionId) actions =
      some (σ, trace)) : ∃ sizes queue, Agrees cfg world sizes queue σ trace := by
  have hinv := Machine.exec_invariant
    (fun σ trace => Controlled cfg sessionId σ trace ∧
      ∃ sizes queue, Agrees cfg world sizes queue σ trace)
    ⟨⟨[], rfl, rfl⟩, _, _, agrees_start cfg world sessionId⟩
    (fun σ trace a σ' events hinv hstep => ?_) h
  · exact hinv.2
  · have hs := step_stepped env cfg dropPercent world hstep
    rcases hinv with ⟨hcontrolled, sizes, queue, hagrees⟩
    exact ⟨hs.controlled cfg dropPercent world hcontrolled, hs.agrees hcontrolled hagrees⟩

/-- A size in force, as the encoder takes it: it fits in 32 bits. -/
theorem configOf_inForce {sessionId : Vector UInt8 16} {σ : State E P} {trace : List Event}
    (hcontrolled : Controlled cfg sessionId σ trace)
    (hwidth : cfg.primary.params.width.toNat < 2 ^ 32)
    (hheight : cfg.primary.params.height.toNat < 2 ^ 32) {x : ℕ × MediaParams}
    (hx : x ∈ inForce cfg trace) :
    (configOf x.2).width.toNat = x.2.width.toNat ∧
      (configOf x.2).height.toNat = x.2.height.toNat := by
  -- The sizes are those of the start, or come from a session, which keeps them small.
  have hfits : x.2.width.toNat < 2 ^ 32 ∧ x.2.height.toNat < 2 ^ 32 := by
    rw [inForce, List.mem_cons] at hx
    rcases hx with rfl | hx
    · exact ⟨hwidth, hheight⟩
    · rcases mem_switches _ 0 x hx with ⟨u, w, h, -⟩
      rcases hcontrolled with ⟨frames, -, hlog⟩
      have hmem : .out (.Reconfigure x.2) ∈ log (HostSession.new cfg.name sessionId
          cfg.primary.params cfg.extraStreamConfigs) frames := by
        rw [hlog, h]
        simp only [List.append_assoc, List.cons_append, List.mem_append, List.mem_cons,
          List.mem_map, Entry.out.injEq, exists_eq_right, true_or, or_true]
      have hsmall := small_of_switch frames (fun hnone => absurd rfl hnone) x.2 hmem
      exact ⟨hsmall.1.trans_lt (by decide), hsmall.2.trans_lt (by decide)⟩
  constructor
  · exact (UInt64.toNat_toUInt32 x.2.width).trans (Nat.mod_eq_of_lt hfits.1)
  · exact (UInt64.toNat_toUInt32 x.2.height).trans (Nat.mod_eq_of_lt hfits.2)

/-- The sizes in force never go back. -/
theorem inForce_sorted (trace : List Event) :
    (inForce cfg trace).Pairwise fun x y => x.1 ≤ y.1 :=
  List.pairwise_cons.mpr ⟨fun _ _ => Nat.zero_le _, switches_sorted (entries trace) 0⟩

theorem le_of_sorted {l : List (ℕ × MediaParams)} (h : l.Pairwise fun x y => x.1 ≤ y.1)
    {i j : ℕ} (hij : i ≤ j) {x y : ℕ × MediaParams} (hx : l[i]? = some x) (hy : l[j]? = some y) :
    x.1 ≤ y.1 := by
  rcases List.getElem?_eq_some_iff.mp hx with ⟨hi, rfl⟩
  rcases List.getElem?_eq_some_iff.mp hy with ⟨hj, rfl⟩
  rcases hij.eq_or_lt with rfl | hlt
  · exact le_rfl
  · exact List.pairwise_iff_getElem.mp h i j hi hj hlt

/-- The laws of the frames of the primary stream. CONFIGs are counted from 0, and
    each encoder belongs to one of them. -/
structure Acknowledged (config : ℕ → ℕ) (trace : List Event) : Prop where
  /-- A frame is encoded at the size of a CONFIG whose CONFIG_ACK was received
      before. -/
  acked : ∀ u f w, trace = u ++ .frame 0 f :: w →
    ∃ params, Acked (entries u) (config f.encoder) params ∧
      EncodedAt world params.width.toNat params.height.toNat f
  /-- The CONFIGs never go back. -/
  ordered : ∀ u f v g w, trace = u ++ .frame 0 f :: (v ++ .frame 0 g :: w) →
    config f.encoder ≤ config g.encoder
  /-- Frames are numbered in the order they are sent. -/
  numbered : ∀ u f w, trace = u ++ .frame 0 f :: w → f.frameSeq = nextSeq (framesOf 0 u)
  /-- The first frame of each encoder is a keyframe. -/
  keyed : FirstKey world → ∀ u f w, trace = u ++ .frame 0 f :: w →
    (∀ g ∈ framesOf 0 u, g.encoder ≠ f.encoder) → f.au.keyframe = true

/-- The frames of the primary stream are of sizes the client has acknowledged, if the
    size the stream starts with fits in 32 bits. -/
theorem acknowledged_of_fits {sessionId : Vector UInt8 16} {actions : List (Action P)}
    {σ : State E P} {trace : List Event}
    (h : Machine.exec (step env cfg dropPercent world) (start cfg sessionId) actions =
      some (σ, trace)) (hwidth : cfg.primary.params.width.toNat < 2 ^ 32)
    (hheight : cfg.primary.params.height.toNat < 2 ^ 32) :
    ∃ config, Acknowledged world config trace := by
  have hcontrolled := controlled_exec env cfg dropPercent world h
  rcases agrees_exec env cfg dropPercent world h with ⟨sizes, queue, hagrees⟩
  have hsorted : sizes.Pairwise fun x y => x.1 ≤ y.1 :=
    (inForce_sorted cfg trace).sublist ((List.sublist_append_left _ _).trans hagrees.in_order)
  let config (n : ℕ) : ℕ := (sizes[n - 1]?.getD (0, cfg.primary.params)).1
  have hconfig {f : Frame} {x : ℕ × MediaParams} (hx : sizes[f.encoder - 1]? = some x) :
      config f.encoder = x.1 := by
    simp only [config, hx, Option.getD_some]
  refine ⟨config, ⟨fun u f w heq => ?_, fun u f v g w heq => ?_, fun u f w heq => ?_,
    fun hfirst u f w heq hnew => ?_⟩⟩
  · -- The size of the frame's encoder was in force, and acknowledged.
    rcases hagrees.frames u f w heq with ⟨x, hfits, hacked⟩
    have hx := hagrees.in_order.subset
      (List.mem_append_left _ (List.mem_of_getElem? hfits.encoder.2))
    rcases configOf_inForce cfg hcontrolled hwidth hheight hx with ⟨hw, hh⟩
    rcases hfits.encoded with ⟨n, e, planes, ts, forceIdr, e', he, hencode, -⟩
    rw [hconfig hfits.encoder.2]
    exact ⟨x.2, hacked, configOf x.2, n, e, planes, ts, forceIdr, e', he, hencode, hw, hh⟩
  · -- Later frames are of the same encoder or a newer one, and so of a later size.
    rcases hagrees.frames u f _ heq with ⟨x, hfits, -⟩
    rw [← List.cons_append, ← List.append_assoc] at heq
    rcases hagrees.frames _ g w heq with ⟨y, hgits, -⟩
    rw [hconfig hfits.encoder.2, hconfig hgits.encoder.2]
    have hle : f.encoder ≤ g.encoder := by
      refine hgits.encoder_le f ?_
      rw [framesOf_append]
      refine List.mem_append_right _ ?_
      simp only [framesOf, ↓reduceIte, Option.some.injEq, List.filterMap_cons_some, List.mem_cons,
        List.mem_filterMap, true_or]
    exact le_of_sorted hsorted (Nat.sub_le_sub_right hle 1) hfits.encoder.2 hgits.encoder.2
  · rcases hagrees.frames u f w heq with ⟨x, hfits, -⟩
    exact hfits.frameSeq
  · rcases hagrees.frames u f w heq with ⟨x, hfits, -⟩
    rcases hfits.encoded with ⟨n, e, planes, ts, forceIdr, e', -, hencode, hfresh⟩
    exact hfirst _ n e planes ts forceIdr f.au e' (hfresh hnew) hencode

/-- In every run of a host with the streams of its options, the frames of the primary
    stream are of sizes the client has acknowledged. -/
theorem frames_acknowledged (macos : Bool) (displays : Except String (List Streams.DisplayInfo))
    (args : Streams.Args) (hcfg : Streams.resolveStreams macos displays args = .ok cfg.streams)
    (sessionId : Vector UInt8 16) (actions : List (Action P)) {σ : State E P}
    {trace : List Event}
    (h : Machine.exec (step env cfg dropPercent world) (start cfg sessionId) actions =
      some (σ, trace)) : ∃ config, Acknowledged world config trace := by
  -- The sizes of the options and of the displays are 32 bits wide.
  rcases (Streams.resolved_of_ok macos displays args cfg.streams hcfg).small cfg.primary
    (List.head_mem cfg.nonempty) with ⟨hwidth, hheight⟩
  exact acknowledged_of_fits env cfg dropPercent world h hwidth hheight

/-- An encoder that remembers its configuration and whether it has returned an
    access unit; the first one is a keyframe. -/
def sampleEncoder : Backend (EncoderConfig × Bool) Unit :=
  { openEncoder := fun config => some (config, false)
    openSource := fun _ => some (.Synthetic fun _ => some ())
    encodeI420 := fun e _ _ forceIdr =>
      some (some { keyframe := !e.2 || forceIdr, data := [] }, e.1, true) }

/-- A transport that fails at nothing. -/
def sampleEnv : Env :=
  { acceptBi := none, writes := fun _ => .ok (), clock := fun _ => 0,
    sessionId := Vector.replicate 16 0, lost := false }

/-- A tick that takes these reconfigurations. -/
def tickTaking (reconfig : List MediaParams) : Tick Unit :=
  { closed := false, reconfig, idr := 0, fill := none, captureTs := 0,
    sendDatagram := fun _ => true }

/-- The media start at the first size, and a frame is sent. -/
def startActions : List (Action Unit) :=
  [.receive (.Message HELLO [(.Int 0, .Int 1), (.Int 2, .Array [.Int 1])]), .apply, .apply,
    .receive (.Message CONFIG_ACK [(.Int 0, .Int 1)]), .apply, .apply, .openMedia 0,
    .turn 0 (tickTaking [])]

/-- The client asks for a smaller size and acknowledges it. -/
def resizeActions : List (Action Unit) :=
  [.receive (.Message VIEWPORT [(.Int 0, .Array [.Int 1280, .Int 720])]), .apply,
    .receive (.Message CONFIG_ACK [(.Int 0, .Int 2)]), .apply]

/-- A frame at the first size, and one at the new size. -/
def resizedActions : List (Action Unit) :=
  startActions ++ resizeActions ++ [.turn 0 (tickTaking [{ width := 1280, height := 720 }])]

def resizedRun : Option (State (EncoderConfig × Bool) Unit × List Event) :=
  Machine.exec (step sampleEnv oneStream 0 fun _ => sampleEncoder)
    (start oneStream (Vector.replicate 16 0)) resizedActions

theorem frames_acknowledged_resized :
    ∃ σ trace, resizedRun = some (σ, trace) ∧
      (framesOf 0 trace).map (fun f => (f.encoder, f.frameSeq, f.au.keyframe)) =
        [(1, 0, true), (2, 1, true)] ∧
      ∃ config, Acknowledged (fun _ => sampleEncoder) config trace := by
  have hframes : resizedRun.map (fun r =>
      (framesOf 0 r.2).map fun f => (f.encoder, f.frameSeq, f.au.keyframe)) =
      some [(1, 0, true), (2, 1, true)] := by
    decide
  rcases Option.map_eq_some_iff.mp hframes with ⟨⟨σ, trace⟩, hrun, hframes⟩
  exact ⟨σ, trace, hrun, hframes, frames_acknowledged sampleEnv oneStream 0 _ false (.ok []) {}
    rfl _ _ hrun⟩

end Run

end System

end LoomHost
