import LoomHost.Theory.Session.Step
import LoomHost.Theory.System.Advertised

/-!
# The Session Loop in the System

`sessionLoop` is a loop over the bytes of the control stream, run to its end in
one go. In the system the same loop is cut into steps, with the media threads at
work between them. Here the system is wired to a control stream: its control task
reads what `readFrame` gives it, and nothing else.

The cuts make no difference. What the loop has still to do, from any state, is
again a loop: the outputs that are left, then the frames that are left. A step of
the control task takes the first part of it away, and a media thread does not
touch it.

## Main definitions

* `Wired`, `wiredStep`: A connection with its control stream.
* `remaining`: What the session loop has still to do.
* `controlAhead`: A bound on the steps it takes.

## Theorems

* `wired_keeps`: A step takes the first part of what remains.
* `control_refines`: Every schedule comes to what the loop comes to.
-/

namespace LoomHost

namespace System

open Control Session Conn

/-- A connection with what is left of its control stream. -/
structure Wired (E P : Type*) where
  recv : RecvStream
  state : State E P

/-- A step of a connection with its control stream. -/
inductive WiredAction (P : Type*) where
  /-- The session loop reads. -/
  | read
  | other (a : Action P)

section Machine

variable {E P : Type*} (env : Env) (cfg : HostCfg) (dropPercent : UInt32)
  (world : ℕ → Media.Backend E P) (fromReader : List UInt8 → Option Rfc8949.Item)

/-- What the session loop makes of what it has read. -/
def takeRead : Except IoError FrameRead → Action P
  | .ok (.Frame bytes) =>
    match decodeFrame fromReader bytes with
    | .ok decoded => .receive decoded
    | .error _ => .badFrame
  | .ok .Eof => .eof
  | .error _ => .readError

/-- An action that reads the control stream. -/
def Action.reads : Action P → Bool
  | .receive _ | .badFrame | .eof | .readError => true
  | .apply | .lose | .openMedia _ | .turn _ _ => false

/-- One step. Frames come from the control stream only. -/
def wiredStep (w : Wired E P) : WiredAction P → Option (Wired E P × List Event)
  | .read =>
    (step env cfg dropPercent world w.state (takeRead fromReader (readFrame w.recv).1)).map
      fun r => ({ recv := (readFrame w.recv).2, state := r.1 }, r.2)
  | .other a =>
    if a.reads then none
    else (step env cfg dropPercent world w.state a).map fun r => ({ w with state := r.1 }, r.2)

/-- A step of the session loop. -/
def WiredAction.control : WiredAction P → Bool
  | .read | .other .apply => true
  | _ => false

/-- What the session loop has still to do: the outputs that are left, then the frames
    that are left. -/
def remaining (w : Wired E P) : Except IoError Unit × Driver :=
  match drive env cfg w.state.driver w.state.outputs with
  | (.ok done, d) =>
    if done then (.ok (), d)
    else if w.state.session.state = .Closed then (.ok (), d)
    else sessionFrames env cfg fromReader w.state.session w.recv d
  | (.error e, d) => (.error e, d)

/-- A bound on the steps of the session loop that are left. -/
def controlAhead (w : Wired E P) : ℕ :=
  3 * w.recv.data.length + w.state.outputs.length + (!w.state.returned).toNat

/-- The session loop comes to this result; once it has returned, its driver is there.
    Until then a closed session has its close still to apply. -/
structure ComesTo (r : Except IoError Unit × Driver) (w : Wired E P) : Prop where
  running : w.state.returned = false → remaining env cfg fromReader w = r
  returned : w.state.returned = true → w.state.driver = r.2
  closing : w.state.returned = false → w.state.session.state = .Closed →
    closes w.state.outputs = true

end Machine

section Steps

variable {E P : Type*} {env : Env} {cfg : HostCfg} {dropPercent : UInt32}
  {world : ℕ → Media.Backend E P} {fromReader : List UInt8 → Option Rfc8949.Item}
  {r : Except IoError Unit × Driver}

/-- A session answers a frame by two outputs at most. -/
theorem length_outputs_le {s s' : HostSession} {frame : Decoded} {outputs : List Output}
    (h : Reacts s frame s' outputs) : outputs.length ≤ 2 := by
  cases h <;> simp only [List.length_nil, zero_le, List.length_cons, zero_add, Nat.one_le_ofNat,
    HostSession.fatal, Nat.reduceAdd, Std.le_refl]

theorem length_readExact_le (recv : RecvStream) (n : ℕ) :
    (readExact recv n).2.data.length ≤ recv.data.length := by
  unfold readExact
  by_cases hn : n ≤ recv.data.length
  · simp only [hn, ↓reduceIte, List.length_drop, tsub_le_iff_right, le_add_iff_nonneg_right,
      zero_le]
  · cases hend : recv.ending <;> simp only [hn, ↓reduceIte, List.length_nil, zero_le]

/-- Reading a frame takes bytes off the stream, and puts none on it. -/
theorem length_readFrame_le (recv : RecvStream) :
    (readFrame recv).2.data.length ≤ recv.data.length := by
  have hprefix := length_readExact_le recv 4
  unfold readFrame
  generalize readExact recv 4 = r at hprefix
  rcases r with ⟨e | lenBuf, recv₁⟩
  · -- The prefix does not come.
    dsimp only
    split
    · rename_i heq
      exact nomatch congrArg Prod.fst heq
    · rename_i heq
      exact congrArg Prod.snd heq ▸ hprefix
    · rename_i heq
      exact congrArg Prod.snd heq ▸ hprefix
  · have hbody := length_readExact_le recv₁ (BigEndian.ofBE lenBuf)
    dsimp only
    split_ifs
    · exact hprefix
    · generalize readExact recv₁ (BigEndian.ofBE lenBuf) = r at hbody
      rcases r with ⟨e | body, recv₂⟩
      · exact hbody.trans hprefix
      · exact hbody.trans hprefix

/-- A step that leaves the control task alone. -/
theorem ComesTo.other {w : Wired E P} (h : ComesTo env cfg fromReader r w) {σ : State E P}
    (hsession : σ.session = w.state.session) (houtputs : σ.outputs = w.state.outputs)
    (hdriver : σ.driver = w.state.driver) (hreturned : σ.returned = w.state.returned) :
    ComesTo env cfg fromReader r { w with state := σ } ∧
      controlAhead { w with state := σ } = controlAhead w := by
  refine ⟨⟨fun hr => ?_, fun hr => ?_, fun hr hs => ?_⟩, ?_⟩
  · rw [← h.running (hreturned ▸ hr)]
    simp only [remaining, hsession, houtputs, hdriver]
  · exact hdriver.trans (h.returned (hreturned ▸ hr))
  · exact houtputs ▸ h.closing (hreturned ▸ hr) (hsession ▸ hs)
  · simp only [controlAhead, houtputs, hreturned]

/-- The session loop returns. -/
theorem comesTo_returned {w : Wired E P} (hrunning : w.state.returned = false) {recv : RecvStream}
    {σ : State E P} (hlength : recv.data.length ≤ w.recv.data.length)
    (houtputs : σ.outputs.length ≤ w.state.outputs.length) (hreturned : σ.returned = true)
    (hdriver : σ.driver = r.2) :
    ComesTo env cfg fromReader r { recv, state := σ } ∧
      controlAhead { recv, state := σ } + 1 ≤ controlAhead w := by
  refine ⟨⟨fun hr => ?_, fun _ => hdriver, fun hr => ?_⟩, ?_⟩
  · exact absurd (hreturned.symm.trans hr) (by simp only [Bool.true_eq_false, not_false_eq_true])
  · exact absurd (hreturned.symm.trans hr) (by simp only [Bool.true_eq_false, not_false_eq_true])
  · simp only [controlAhead, hrunning, hreturned, Bool.not_false, Bool.not_true, Bool.toNat_true,
      Bool.toNat_false]
    omega

theorem reads_takeRead (x : Except IoError FrameRead) :
    (takeRead (P := P) fromReader x).reads = true := by
  unfold takeRead
  split
  · split <;> rfl
  · rfl
  · rfl

/-- The session loop reads only when it has nothing left to apply. -/
theorem reading_of_step {σ σ' : State E P} {a : Action P} {events : List Event}
    (ha : a.reads = true) (hstep : step env cfg dropPercent world σ a = some (σ', events)) :
    σ.reading = true := by
  cases a <;> simp only [Action.reads, Bool.false_eq_true] at ha <;>
    simp only [step, Option.ite_none_right_eq_some] at hstep <;> exact hstep.1

/-- An output after which the loop goes on is not a close. -/
theorem closes_of_drive {d d' : Driver} {o : Output}
    (h : drive env cfg d [o] = (.ok false, d')) (rest : List Output) :
    closes (o :: rest) = closes rest := by
  cases o with
  | Close code =>
      simp only [drive, Prod.mk.injEq, Except.ok.injEq] at h
      exact absurd h.1 (by simp only [Bool.true_eq_false, not_false_eq_true])
  | _ => rfl

/-- The session loop applies an output. -/
theorem ComesTo.apply {w : Wired E P} (h : ComesTo env cfg fromReader r w) {σ : State E P}
    {events : List Event}
    (hstep : step env cfg dropPercent world w.state .apply = some (σ, events)) :
    ComesTo env cfg fromReader r { w with state := σ } ∧
      controlAhead { w with state := σ } + 1 ≤ controlAhead w := by
  simp only [step] at hstep
  cases houtputs : w.state.outputs with
  | nil => simp only [houtputs, reduceCtorEq] at hstep
  | cons o rest =>
      simp only [houtputs, Option.ite_none_left_eq_some, Option.some.injEq] at hstep
      rcases hstep with ⟨hreturned, hstep⟩
      have hreturned : w.state.returned = false := eq_false_of_ne_true hreturned
      have hremaining := h.running hreturned
      have hclosing := h.closing hreturned
      rw [remaining, houtputs, drive_cons] at hremaining
      unfold applyOutput at hstep
      dsimp only at hstep
      generalize hdrive : drive env cfg w.state.driver [o] = applied at hremaining hstep
      rcases applied with ⟨e | done, d⟩
      · -- The write fails, and with it the loop.
        rw [Prod.mk.injEq] at hstep
        rcases hstep with ⟨rfl, -⟩
        exact comesTo_returned hreturned le_rfl (by simp only [List.length_cons, houtputs,
          Std.le_refl]) rfl
          (congrArg Prod.snd hremaining)
      · cases done with
        | true =>
            rw [Prod.mk.injEq] at hstep
            rcases hstep with ⟨rfl, -⟩
            exact comesTo_returned hreturned le_rfl (by simp only [houtputs, List.length_cons,
              le_add_iff_nonneg_right, zero_le]) rfl
              (congrArg Prod.snd hremaining)
        | false =>
            rw [Prod.mk.injEq] at hstep
            rcases hstep with ⟨rfl, -⟩
            refine ⟨⟨fun _ => hremaining, fun hr => absurd hr (by simp only [Bool.false_eq_true,
              not_false_eq_true]), fun _ hs => ?_⟩, ?_⟩
            · rw [← closes_of_drive hdrive rest, ← houtputs]
              exact hclosing hs
            · simp only [controlAhead, hreturned, houtputs, List.length_cons, Bool.not_false,
                Bool.toNat_true]
              omega

/-- The session loop reads. -/
theorem ComesTo.read {w : Wired E P} (h : ComesTo env cfg fromReader r w) {σ : State E P}
    {events : List Event}
    (hstep : step env cfg dropPercent world w.state
      (takeRead fromReader (readFrame w.recv).1) = some (σ, events)) :
    ComesTo env cfg fromReader r { recv := (readFrame w.recv).2, state := σ } ∧
      controlAhead { recv := (readFrame w.recv).2, state := σ } + 1 ≤ controlAhead w := by
  have hreading := reading_of_step (reads_takeRead _) hstep
  have hparts := hreading
  simp only [State.reading, Bool.and_eq_true, Bool.not_eq_true', List.isEmpty_iff,
    bne_iff_ne] at hparts
  rcases hparts with ⟨⟨hreturned, houtputs⟩, hlive⟩
  have hlength := length_readFrame_le w.recv
  have hremaining := h.running hreturned
  rw [remaining, houtputs, drive] at hremaining
  simp only [Bool.false_eq_true, if_false, hlive] at hremaining
  rw [sessionFrames] at hremaining
  split at hremaining
  · rename_i bytes recv' hread
    have hshort := length_readFrame _ _ _ hread
    rw [hread] at hstep ⊢
    simp only [takeRead] at hstep
    cases hdecode : decodeFrame fromReader bytes with
    | ok decoded =>
        rw [hdecode] at hremaining hstep
        simp only [step, hreading, if_true] at hstep
        cases hstep
        have hreacts := onFrame_reacts w.state.session decoded
        have houtputs' := length_outputs_le hreacts
        refine ⟨⟨fun _ => hremaining, fun hr => absurd (hreturned.symm.trans hr) (by simp only
          [Bool.false_eq_true, not_false_eq_true]),
          fun _ hs => hreacts.closes hlive hs⟩, ?_⟩
        simp only [controlAhead, hreturned, Bool.not_false, Bool.toNat_true]
        omega
    | error e =>
        rw [hdecode] at hremaining hstep
        simp only [step, hreading, if_true, Option.some.injEq, Prod.mk.injEq] at hstep
        rcases hstep with ⟨rfl, -⟩
        -- The answer is written, or not; the loop returns.
        dsimp only at hremaining
        unfold reportBadFrame
        dsimp only
        generalize sendFrame env w.state.driver ERROR (errorBody Errors.PROTOCOL_VIOLATION) = x
          at hremaining ⊢
        rcases x with ⟨e | _, d⟩
        · exact comesTo_returned hreturned hshort.le le_rfl rfl (congrArg Prod.snd hremaining)
        · exact comesTo_returned hreturned hshort.le le_rfl rfl (congrArg Prod.snd hremaining)
  · rename_i recv' hread
    rw [hread] at hstep hlength ⊢
    simp only [takeRead, step, hreading, if_true, Option.some.injEq, Prod.mk.injEq] at hstep
    rcases hstep with ⟨rfl, -⟩
    exact comesTo_returned hreturned hlength le_rfl rfl (congrArg Prod.snd hremaining)
  · rename_i e recv' hread
    rw [hread] at hstep hlength ⊢
    simp only [takeRead, step, hreading, if_true, Option.some.injEq, Prod.mk.injEq] at hstep
    rcases hstep with ⟨rfl, -⟩
    exact comesTo_returned hreturned hlength le_rfl rfl (congrArg Prod.snd hremaining)

/-- A step takes the first part of what remains, or leaves it alone. -/
theorem wired_keeps {w w' : Wired E P} (h : ComesTo env cfg fromReader r w) {a : WiredAction P}
    {events : List Event}
    (hstep : wiredStep env cfg dropPercent world fromReader w a = some (w', events)) :
    ComesTo env cfg fromReader r w' ∧ controlAhead w' + a.control.toNat ≤ controlAhead w := by
  cases a with
  | read =>
      simp only [wiredStep, Option.map_eq_some_iff, Prod.mk.injEq] at hstep
      rcases hstep with ⟨⟨σ, events'⟩, hstep, rfl, -⟩
      exact h.read hstep
  | other a =>
      simp only [wiredStep, Option.ite_none_left_eq_some, Option.map_eq_some_iff,
        Prod.mk.injEq] at hstep
      rcases hstep with ⟨hreads, ⟨σ, events'⟩, hstep, rfl, -⟩
      -- The media threads and the loss of the connection leave the control task alone.
      have hquiet (hsession : σ.session = w.state.session) (houtputs : σ.outputs = w.state.outputs)
          (hdriver : σ.driver = w.state.driver) (hreturned : σ.returned = w.state.returned) :
          ComesTo env cfg fromReader r { w with state := σ } ∧
            controlAhead { w with state := σ } + 0 ≤ controlAhead w := by
        rcases h.other hsession houtputs hdriver hreturned with ⟨hcomes, hahead⟩
        exact ⟨hcomes, hahead.le⟩
      cases a with
      | apply => exact h.apply hstep
      | lose =>
          cases hstep
          exact hquiet rfl rfl rfl rfl
      | openMedia i =>
          simp only [step] at hstep
          split at hstep
          · split at hstep
            · cases hstep
              exact hquiet rfl rfl rfl rfl
            · cases hstep
          · cases hstep
      | turn i t =>
          simp only [step] at hstep
          split at hstep
          · split at hstep
            · split at hstep
              · cases hstep
                exact hquiet rfl rfl rfl rfl
              · cases hstep
            · cases hstep
          · cases hstep
      | _ =>
          -- Frames are read through `read` only.
          exact absurd rfl hreads

/-- Until the session loop has returned, it can take a step. -/
theorem ComesTo.goes_on {w : Wired E P} (h : ComesTo env cfg fromReader r w)
    (hreturned : w.state.returned = false) : ∃ a : WiredAction P, a.control = true ∧
      (wiredStep env cfg dropPercent world fromReader w a).isSome = true := by
  by_cases houtputs : w.state.outputs = []
  · -- A closed session has a close to apply.
    have hlive : w.state.session.state ≠ .Closed := by
      intro hs
      have hcloses := h.closing hreturned hs
      rw [houtputs] at hcloses
      cases hcloses
    have hreading : w.state.reading = true := by
      simp only [State.reading, hreturned, Bool.not_false, houtputs, List.isEmpty_nil,
        Bool.and_self, Bool.true_and, bne_iff_ne, ne_eq, hlive, not_false_eq_true]
    refine ⟨.read, rfl, ?_⟩
    rw [wiredStep, Option.isSome_map]
    have hreads : (takeRead (P := P) fromReader (readFrame w.recv).1).reads = true :=
      reads_takeRead _
    generalize takeRead fromReader (readFrame w.recv).1 = a at hreads
    cases a <;> simp only [Action.reads, Bool.false_eq_true] at hreads <;>
      simp only [step, hreading, ↓reduceIte, Option.isSome_some]
  · rcases List.exists_cons_of_ne_nil houtputs with ⟨o, rest, houtputs⟩
    refine ⟨.other .apply, rfl, ?_⟩
    simp only [wiredStep, Action.reads, Bool.false_eq_true, ↓reduceIte, step, houtputs, hreturned,
      Option.map_some, Option.isSome_some]

end Steps

section Sent

variable (env : Env) (cfg : HostCfg) (fromReader : List UInt8 → Option Rfc8949.Item)

theorem sendFrame_sent (d : Driver) (msgType : UInt64) (body : List (Cbor.Value × Cbor.Value)) :
    d.sent <+: (sendFrame env d msgType body).2.sent := by
  unfold sendFrame
  split
  · exact List.prefix_append _ _
  · exact List.prefix_refl _

/-- What is written stays written. -/
theorem drive_sent (outputs : List Output) :
    ∀ d : Driver, d.sent <+: (drive env cfg d outputs).2.sent := by
  induction outputs with
  | nil => exact fun d => List.prefix_refl _
  | cons o outputs ih =>
      intro d
      -- One output appends a frame, or nothing.
      have hone : d.sent <+: (drive env cfg d [o]).2.sent := by
        cases o with
        | Send msgType body =>
          have hsent := sendFrame_sent env d msgType body
          unfold drive
          split
          · rename_i hsend
            rw [hsend] at hsent
            exact hsent
          · rename_i hsend
            rw [hsend] at hsent
            exact hsent
        | ClockPong t0 =>
          have hsent := sendFrame_sent env d CLOCK_PONG
          unfold drive
          dsimp only
          split
          · rename_i d' hsend
            exact (congrArg (fun x => x.2.sent) hsend) ▸ hsent _
          · rename_i e d' hsend
            exact (congrArg (fun x => x.2.sent) hsend) ▸ hsent _
        | _ => exact List.prefix_refl _
      rw [drive_cons]
      split
      · -- The outputs after it append to what is there.
        rename_i d' hdrive
        rw [hdrive] at hone
        exact hone.trans (ih d')
      · exact hone

theorem sessionFrames_grows (n : ℕ) : ∀ (s : HostSession) (recv : RecvStream) (d : Driver),
    recv.data.length = n → d.sent <+: (sessionFrames env cfg fromReader s recv d).2.sent := by
  induction n using Nat.strong_induction_on with
  | h n ih =>
      intro s recv d hn
      rw [sessionFrames]
      split
      · rename_i bytes recv' hread
        -- Reading a frame takes bytes off, so the induction is on those left.
        have hlt := length_readFrame _ _ _ hread
        split
        · rename_i decoded _
          have hdrive := drive_sent env cfg (s.onFrame decoded).2 d
          dsimp only
          split
          · rename_i done d' heq
            rw [heq] at hdrive
            split_ifs
            · exact hdrive
            · exact hdrive
            · exact hdrive.trans (ih _ (hn ▸ hlt) _ recv' d' rfl)
          · rename_i e d' heq
            rwa [heq] at hdrive
        · -- The frame does not decode: an ERROR is appended, and the loop ends.
          have hsent := sendFrame_sent env d ERROR (errorBody Errors.PROTOCOL_VIOLATION)
          split
          · rename_i hsend
            rw [hsend] at hsent
            exact hsent
          · rename_i hsend
            rw [hsend] at hsent
            exact hsent
      · exact List.prefix_refl _
      · exact List.prefix_refl _

variable {E P : Type*}

theorem remaining_sent (w : Wired E P) :
    w.state.driver.sent <+: (remaining env cfg fromReader w).2.sent := by
  have hdrive := drive_sent env cfg w.state.outputs w.state.driver
  unfold remaining
  split
  · rename_i done d heq
    rw [heq] at hdrive
    split_ifs
    · exact hdrive
    · exact hdrive
    · exact hdrive.trans (sessionFrames_grows env cfg fromReader _ _ _ d rfl)
  · rename_i e d heq
    rwa [heq] at hdrive

end Sent

section Refines

variable {E P : Type*} {env : Env} {cfg : HostCfg} {dropPercent : UInt32}
  {world : ℕ → Media.Backend E P} {fromReader : List UInt8 → Option Rfc8949.Item}

/-- The two levels agree. On every schedule, whatever the media threads do in between,
    what the control task has written is the beginning of what the session loop writes,
    and once it has returned its driver is that of the session loop: the same frames,
    the same threads told the same, the same close. It returns after three steps for each
    byte of the control stream and one more at the latest, and until then there is a step
    it can take. -/
theorem control_refines {recv : RecvStream} (haccept : env.acceptBi = some recv)
    {actions : List (WiredAction P)} {w : Wired E P} {trace : List Event}
    (hrun : Machine.exec (wiredStep env cfg dropPercent world fromReader)
      { recv, state := start cfg env.sessionId } actions = some (w, trace)) :
    w.state.driver.sent <+: (sessionLoop env cfg fromReader).2.sent ∧
      (w.state.returned = true → w.state.driver = (sessionLoop env cfg fromReader).2) ∧
      actions.countP WiredAction.control ≤ 3 * recv.data.length + 1 ∧
      (w.state.returned = false → ∃ a : WiredAction P, a.control = true ∧
        (wiredStep env cfg dropPercent world fromReader w a).isSome = true) := by
  -- At the start everything is still to be read.
  have hstart : ComesTo env cfg fromReader (sessionLoop env cfg fromReader)
      { recv, state := (start cfg env.sessionId : State E P) } := by
    refine ⟨fun _ => ?_, fun hr => absurd hr Bool.false_ne_true, fun _ hs => ?_⟩
    · rw [sessionLoop, haccept]
      rfl
    · simp only [start, HostSession.new, reduceCtorEq] at hs
  have hcomes : ComesTo env cfg fromReader (sessionLoop env cfg fromReader) w ∧
      controlAhead w + actions.countP WiredAction.control ≤
        controlAhead { recv, state := (start cfg env.sessionId : State E P) } := by
    -- Each step of the control task brings it nearer to its end.
    refine @Machine.exec_tracks _ _ _ _ (fun taken w _ =>
      ComesTo env cfg fromReader (sessionLoop env cfg fromReader) w ∧
        controlAhead w + taken.countP WiredAction.control ≤
          controlAhead { recv, state := (start cfg env.sessionId : State E P) }) ?_ actions []
      _ _ [] _ ⟨hstart, le_rfl⟩ hrun
    rintro taken w trace a w' events ⟨hcomes, hahead⟩ hstep
    rcases wired_keeps hcomes hstep with ⟨hcomes', hless⟩
    refine ⟨hcomes', ?_⟩
    rw [Machine.countP_concat]
    omega
  rcases hcomes with ⟨hcomes, hahead⟩
  refine ⟨?_, hcomes.returned, ?_, hcomes.goes_on⟩
  · -- What is written so far is a beginning of what the loop writes.
    cases hreturned : w.state.returned with
    | true => rw [hcomes.returned hreturned]
    | false =>
        rw [← hcomes.running hreturned]
        exact remaining_sent env cfg fromReader w
  · have hbound : controlAhead { recv, state := (start cfg env.sessionId : State E P) } =
        3 * recv.data.length + 1 := rfl
    omega

/-- A frame is sent while the client's last frame is on its way, and that frame is over
    the limit. -/
def wiredActions : List (WiredAction Unit) :=
  [.read, .other .apply, .other .apply, .read, .other .apply, .other .apply, .other (.openMedia 0),
    .other (.turn 0 (tickTaking [])), .read, .other (.turn 0 (tickTaking []))]

theorem control_refines_over_limit : ∃ w trace,
    Machine.exec (wiredStep overLimitEnv oneStream 0 (fun _ => sampleEncoder) limitedReader)
      { recv := overLimitEnv.acceptBi.getD ⟨[], .Finished⟩
        state := start oneStream overLimitEnv.sessionId } wiredActions = some (w, trace) ∧
    (framesOf 0 trace).length = 2 ∧
    w.state.driver = (sessionLoop overLimitEnv oneStream limitedReader).2 := by
  have hrun : ∃ w trace,
      Machine.exec (wiredStep overLimitEnv oneStream 0 (fun _ => sampleEncoder) limitedReader)
        { recv := overLimitEnv.acceptBi.getD ⟨[], .Finished⟩
          state := start oneStream overLimitEnv.sessionId } wiredActions = some (w, trace) ∧
      (framesOf 0 trace).length = 2 ∧ w.state.returned = true :=
    ⟨_, _, rfl, rfl, rfl⟩
  rcases hrun with ⟨w, trace, hrun, hframes, hreturned⟩
  exact ⟨w, trace, hrun, hframes, (control_refines rfl hrun).2.1 hreturned⟩

end Refines

end System

end LoomHost
