import LoomHost.Theory.Session.Exchange

/-!
# Protocol Violations

Which frames a session answers with `ERROR(PROTOCOL_VIOLATION)`, and which ones
the message registry of `loom-proto/src/control.rs` says are illegal. The
registry gives each type its direction and its phases; what a CONFIG_ACK must
carry depends on the CONFIG before it. Both are read off the log, which knows
nothing of the session's state: `Standing` is where the log says a session is.

The registry lets either side send ERROR in any phase. A session answers the
client's ERROR as a violation; on every other message the two agree.

## Main definitions

* `Verdict`: What a live session does with a message, as far as it closes.
* `Standing`: The phase and the generation awaited, from the log.
* `Legal`: The registry and the generation rules.
* `Answers`: An ERROR with this code is among the outputs.

## Theorems

* `onFrame_verdict`: The verdicts are those of `onFrame`.
* `Tracks.log`: The log says where the session is.
* `violation_exact_iff`: The violations are the illegal frames, but for ERROR.
-/

namespace LoomHost

namespace Session

open Cbor Control

/-- The messages a session takes in the state it is in. -/
def Permits (s : HostSession) (msgType : UInt64) (body : List (Value × Value)) : Prop :=
  msgType = BYE ∨ msgType = CLOCK_PING ∨ (s.state = .WaitHello ∧ msgType = HELLO) ∨
    Acknowledges s msgType body ∨
    (s.state = .Streaming ∧ msgType ∈ [IDR_REQUEST, STATS, VIEWPORT, INPUT])

/-- Outputs that neither report an error nor close the connection. -/
def Goes (outputs : List Output) : Prop :=
  ∀ o ∈ outputs, (∀ body, o ≠ .Send ERROR body) ∧ ∀ code, o ≠ .Close code

/-- What a live session does with a message, as far as it closes. -/
inductive Verdict (s : HostSession) (msgType : UInt64) (body : List (Value × Value)) :
    HostSession × List Output → Prop
  | goes (s' : HostSession) (outputs : List Output) (hpermits : Permits s msgType body)
      (hs' : s'.state ≠ .Closed) (houtputs : Goes outputs) :
      Verdict s msgType body (s', outputs)
  | bye (hmsg : msgType = BYE) :
      Verdict s msgType body ({ s with state := .Closed }, [.Close Errors.NONE])
  /-- A HELLO without the version or the codec. -/
  | refused (code : UInt64) (detail : String) (hpermits : Permits s msgType body)
      (hcode : code = Errors.VERSION_UNSUPPORTED ∨ code = Errors.NO_COMMON_CODEC) :
      Verdict s msgType body (s.fatal code detail)
  | violation (hpermits : ¬ Permits s msgType body) :
      Verdict s msgType body s.protocolViolation

section Verdict

variable (s : HostSession) (body : List (Value × Value))

theorem goes_nil : Goes [] := fun _ h => absurd h List.not_mem_nil

theorem goes_cons {o : Output} {outputs : List Output} (ho : Goes [o]) (h : Goes outputs) :
    Goes (o :: outputs) := by
  intro o' ho'
  rcases List.mem_cons.mp ho' with rfl | ho'
  · exact ho _ List.mem_cons_self
  · exact h o' ho'

/-- An output that is neither a message nor a close. -/
theorem goes_other {o : Output} (hsend : ∀ msgType body, o ≠ .Send msgType body)
    (hclose : ∀ code, o ≠ .Close code) : Goes [o] := by
  intro o' ho'
  rw [List.mem_singleton.mp ho']
  exact ⟨hsend ERROR, hclose⟩

theorem goes_send {msgType : UInt64} (hne : msgType ≠ ERROR) :
    Goes [.Send msgType body] := by
  intro o ho
  rw [List.mem_singleton.mp ho]
  exact ⟨fun _ heq => hne (Output.Send.inj heq).1, fun _ => Output.noConfusion⟩

theorem onHello_verdict (msgType : UInt64) (hs : s.state = .WaitHello)
    (hbye : msgType ≠ BYE) (hping : msgType ≠ CLOCK_PING) :
    Verdict s msgType body (s.onHello msgType body) := by
  unfold HostSession.onHello
  split
  · rename_i hmsg
    refine Verdict.violation ?_
    -- Nothing else is permitted in this state.
    rintro (h | h | ⟨-, h⟩ | ⟨-, ⟨h, -⟩ | ⟨h, -⟩⟩ | ⟨h, -⟩)
    · exact hbye h
    · exact hping h
    · exact hmsg h
    all_goals simp only [hs, reduceCtorEq] at h
  rename_i hmsg
  have hpermits : Permits s msgType body := Or.inr (Or.inr (Or.inl ⟨hs, not_not.mp hmsg⟩))
  split
  · exact Verdict.refused _ _ hpermits (Or.inl rfl)
  split
  · exact Verdict.refused _ _ hpermits (Or.inr rfl)
  · exact Verdict.goes _ _ hpermits State.noConfusion
      (goes_cons (goes_send _ (by decide)) (goes_send _ (by decide)))

theorem onConfigAck_verdict (msgType : UInt64) (hs : s.state = .WaitConfigAck)
    (hbye : msgType ≠ BYE) (hping : msgType ≠ CLOCK_PING) :
    Verdict s msgType body (s.onConfigAck msgType body) := by
  -- Until the acknowledgement nothing else is permitted but BYE and a ping.
  have hviolation (hack : ¬ Acknowledges s msgType body) : ¬ Permits s msgType body := by
    rintro (h | h | ⟨h, -⟩ | h | ⟨h, -⟩)
    · exact hbye h
    · exact hping h
    · simp only [hs, reduceCtorEq] at h
    · exact hack h
    · simp only [hs, reduceCtorEq] at h
  unfold HostSession.onConfigAck
  split
  · rename_i hmsg
    exact Verdict.violation (hviolation (fun h => hmsg h.1))
  rename_i hmsg
  split
  · rename_i hgen
    refine Verdict.violation (hviolation ?_)
    -- It acknowledges another generation.
    rintro ⟨-, ⟨-, h⟩ | ⟨h, -⟩⟩
    · exact hgen h
    · simp only [hs, reduceCtorEq] at h
  · rename_i hgen
    -- It is the acknowledgement, and the media start.
    refine Verdict.goes _ _ ?_ State.noConfusion
      (goes_cons (goes_send _ (by decide)) (goes_other (fun _ _ => Output.noConfusion)
        (fun _ => Output.noConfusion)))
    exact Or.inr (Or.inr (Or.inr (Or.inl ⟨not_not.mp hmsg, Or.inl ⟨hs, not_not.mp hgen⟩⟩)))

/-- The verdict on a CONFIG_ACK while streaming. -/
theorem onReconfigAck_verdict (hs : s.state = .Streaming) :
    Verdict s CONFIG_ACK body (s.onReconfigAck body) := by
  have hviolation (hgen : ∀ g, s.pendingGeneration = some g →
      intKey body 0 ≠ some (g.toNat : ℤ)) : ¬ Permits s CONFIG_ACK body := by
    rintro (h | h | ⟨h, -⟩ | ⟨-, ⟨h, -⟩ | ⟨-, g, hg, h⟩⟩ | ⟨-, h⟩)
    · exact absurd h (by decide)
    · exact absurd h (by decide)
    · simp only [hs, reduceCtorEq] at h
    · simp only [hs, reduceCtorEq] at h
    · exact hgen g hg h
    · exact absurd h (by decide)
  unfold HostSession.onReconfigAck
  split
  · rename_i g pending hg hpending
    split
    · rename_i hgen
      refine Verdict.goes _ _ ?_ (by simp only [hs, ne_eq, reduceCtorEq, not_false_eq_true])
        (goes_other (fun _ _ => Output.noConfusion) (fun _ => Output.noConfusion))
      exact Or.inr (Or.inr (Or.inr (Or.inl
        ⟨rfl, Or.inr ⟨hs, pending, hpending, hgen ▸ hg⟩⟩)))
    · rename_i hne
      refine Verdict.violation (hviolation (fun g' hg' h => hne ?_))
      rw [hpending, Option.some.injEq] at hg'
      rw [hg, Option.some.injEq] at h
      rw [h, hg']
  · -- Nothing is pending, or the body has no generation.
    rename_i hnone
    exact Verdict.violation (hviolation (fun g hg h => hnone _ g h hg))

theorem onViewport_goes (hs : s.state = .Streaming) :
    (s.onViewport body).1.state ≠ .Closed ∧ Goes (s.onViewport body).2 := by
  rcases s.onViewport_cases body with ⟨rw, rh, -, -, heq⟩ | ⟨-, heq⟩
  · rw [heq]
    unfold HostSession.announceSize
    split
    · exact ⟨by simp only [hs, ne_eq, reduceCtorEq, not_false_eq_true], goes_nil⟩
    · exact ⟨by simp only [hs, ne_eq, reduceCtorEq, not_false_eq_true], goes_send _ (by decide)⟩
  · rw [heq]
    exact ⟨by simp only [hs, ne_eq, reduceCtorEq, not_false_eq_true], goes_nil⟩

theorem onStreaming_verdict (msgType : UInt64) (hs : s.state = .Streaming)
    (hbye : msgType ≠ BYE) (hping : msgType ≠ CLOCK_PING) :
    Verdict s msgType body (s.onStreaming msgType body) := by
  have hopen : s.state ≠ .Closed := by simp only [hs, ne_eq, reduceCtorEq, not_false_eq_true]
  have hpermits (h : msgType ∈ [IDR_REQUEST, STATS, VIEWPORT, INPUT]) :
      Permits s msgType body := Or.inr (Or.inr (Or.inr (Or.inr ⟨hs, h⟩)))
  unfold HostSession.onStreaming
  by_cases hidr : msgType = IDR_REQUEST
  · rw [if_pos hidr]
    exact Verdict.goes s _ (hpermits (by rw [hidr]; decide)) hopen
      (goes_other (fun _ _ => Output.noConfusion) (fun _ => Output.noConfusion))
  rw [if_neg hidr]
  by_cases hstats : msgType = STATS
  · rw [if_pos hstats]
    exact Verdict.goes s _ (hpermits (by rw [hstats]; decide)) hopen
      (goes_other (fun _ _ => Output.noConfusion) (fun _ => Output.noConfusion))
  rw [if_neg hstats]
  by_cases hviewport : msgType = VIEWPORT
  · rw [if_pos hviewport]
    rcases onViewport_goes s body hs with ⟨hs', hgoes⟩
    exact Verdict.goes _ _ (hpermits (by rw [hviewport]; decide)) hs' hgoes
  rw [if_neg hviewport]
  by_cases hack : msgType = CONFIG_ACK
  · rw [if_pos hack, hack]
    exact onReconfigAck_verdict s body hs
  rw [if_neg hack]
  by_cases hinput : msgType = INPUT
  · rw [if_pos hinput]
    exact Verdict.goes s _ (hpermits (by rw [hinput]; decide)) hopen goes_nil
  rw [if_neg hinput]
  -- No other message is permitted while streaming.
  refine Verdict.violation ?_
  rintro (h | h | ⟨h, -⟩ | h | ⟨-, h⟩)
  · exact hbye h
  · exact hping h
  · simp only [hs, reduceCtorEq] at h
  · exact hack h.1
  · simp only [List.mem_cons, hidr, hstats, hviewport, hinput, List.not_mem_nil, or_self] at h

/-- The verdicts are those of `onFrame`. -/
theorem onFrame_verdict (msgType : UInt64) (hs : s.state ≠ .Closed) :
    Verdict s msgType body (s.onFrame (.Message msgType body)) := by
  unfold HostSession.onFrame
  dsimp only
  rw [if_neg hs]
  by_cases hbye : msgType = BYE
  · rw [if_pos hbye]
    exact Verdict.bye hbye
  rw [if_neg hbye]
  by_cases hping : msgType = CLOCK_PING
  · rw [if_pos hping]
    exact Verdict.goes s _ (Or.inr (Or.inl hping)) hs
      (goes_other (fun _ _ => Output.noConfusion) (fun _ => Output.noConfusion))
  rw [if_neg hping]
  split
  · rename_i hstate
    exact onHello_verdict s body msgType hstate hbye hping
  · rename_i hstate
    exact onConfigAck_verdict s body msgType hstate hbye hping
  · rename_i hstate
    exact onStreaming_verdict s body msgType hstate hbye hping
  · rename_i hstate
    exact absurd hstate hs

end Verdict

/-- The phases of the message registry, and the end. -/
inductive Stage where
  | hello
  | configAck
  | streaming
  | closed
  deriving DecidableEq

/-- Where a log says the session is: the phase, and the generation whose
    CONFIG_ACK is awaited. -/
structure Standing where
  stage : Stage
  awaited : Option ℤ

/-- What one more entry of the log says. -/
def Standing.next (p : Standing) : Entry → Standing
  | .recv (.Message msgType body) =>
    if msgType = CONFIG_ACK ∧ intKey body 0 = p.awaited then { p with awaited := none } else p
  | .recv .Ignored => p
  | .out (.Send msgType body) =>
    if msgType = CONFIG then
      { stage := if p.stage = .hello then .configAck else p.stage, awaited := intKey body 0 }
    else if msgType = START then { p with stage := .streaming }
    else p
  | .out (.Close _) => { p with stage := .closed }
  | .out _ => p

/-- Where a log says the session is. -/
def standing (entries : List Entry) : Standing :=
  entries.foldl Standing.next { stage := .hello, awaited := none }

/-- What the registry and the generation rules let a client send. -/
def Legal (p : Standing) : Decoded → Prop
  | .Ignored => True
  | .Message msgType body =>
    knownKeys msgType = none ∨ msgType ∈ [BYE, CLOCK_PING, ERROR] ∨
      match p.stage with
      | .hello => msgType = HELLO
      | .configAck => msgType = CONFIG_ACK ∧ p.awaited ≠ none ∧ intKey body 0 = p.awaited
      | .streaming => msgType ∈ [IDR_REQUEST, STATS, VIEWPORT, INPUT] ∨
          (msgType = CONFIG_ACK ∧ p.awaited ≠ none ∧ intKey body 0 = p.awaited)
      | .closed => False

/-- An ERROR with this code is among the outputs. -/
def Answers (code : UInt64) (outputs : List Output) : Prop :=
  ∃ body, .Send ERROR body ∈ outputs ∧ intKey body 0 = some (code.toNat : ℤ)

/-- The session is where the log says. -/
inductive Tracks : Standing → HostSession → Prop
  | waitHello (s : HostSession) (hs : s.state = .WaitHello)
      (hpending : s.pendingGeneration = none) : Tracks ⟨.hello, none⟩ s
  | waitConfigAck (s : HostSession) (hs : s.state = .WaitConfigAck)
      (hpending : s.pendingGeneration = none) :
      Tracks ⟨.configAck, some (s.generation.toNat : ℤ)⟩ s
  | streaming (s : HostSession) (hs : s.state = .Streaming) :
      Tracks ⟨.streaming, s.pendingGeneration.map fun g => (g.toNat : ℤ)⟩ s
  | closed (p : Standing) (s : HostSession) (hp : p.stage = .closed) (hs : s.state = .Closed) :
      Tracks p s

section Standing

variable {p : Standing} {s : HostSession}

/-- Reception moves nothing but the acknowledgement awaited. -/
theorem next_recv (msgType : UInt64) (body : List (Value × Value)) (hne : msgType ≠ CONFIG_ACK) :
    p.next (.recv (.Message msgType body)) = p :=
  if_neg (fun h => hne h.1)

theorem next_recv_stage (frame : Decoded) : (p.next (.recv frame)).stage = p.stage := by
  cases frame with
  | Ignored => rfl
  | Message msgType body =>
      unfold Standing.next
      dsimp only
      split <;> rfl

/-- The log says whether the session is closed. -/
theorem Tracks.closed_iff (h : Tracks p s) : p.stage = .closed ↔ s.state = .Closed := by
  cases h with
  | waitHello _ hs _ => simp only [reduceCtorEq, hs]
  | waitConfigAck _ hs _ => simp only [reduceCtorEq, hs]
  | streaming _ hs => simp only [reduceCtorEq, hs]
  | closed _ _ hp hs => simp only [hp, hs]

/-- What the log says of a streaming session. -/
theorem Tracks.eq_of_streaming (h : Tracks p s) (hs : s.state = .Streaming) :
    p = ⟨.streaming, s.pendingGeneration.map fun g => (g.toNat : ℤ)⟩ := by
  cases h with
  | streaming _ _ => rfl
  | waitHello _ hs' _ => simp only [hs', reduceCtorEq] at hs
  | waitConfigAck _ hs' _ => simp only [hs', reduceCtorEq] at hs
  | closed _ _ _ hs' => simp only [hs', reduceCtorEq] at hs

/-- A streaming session, by what it awaits. -/
theorem tracks_streaming (s : HostSession) (hs : s.state = .Streaming) (awaited : Option ℤ)
    (h : s.pendingGeneration.map (fun g => (g.toNat : ℤ)) = awaited) :
    Tracks ⟨.streaming, awaited⟩ s :=
  h ▸ Tracks.streaming s hs

/-- While a message other than CONFIG_ACK is taken, and nothing of a phase is
    sent, the session stays where it is. -/
theorem Tracks.stays (h : Tracks p s) (msgType : UInt64) (body : List (Value × Value))
    (hne : msgType ≠ CONFIG_ACK) (outputs : List Output)
    (houtputs : ∀ o ∈ outputs, ∀ q : Standing, q.next (.out o) = q) :
    Tracks ((.recv (.Message msgType body) :: outputs.map .out).foldl Standing.next p) s := by
  rw [List.foldl_cons, next_recv msgType body hne]
  induction outputs with
  | nil => exact h
  | cons o outputs ih =>
      rw [List.map_cons, List.foldl_cons, houtputs o List.mem_cons_self]
      exact ih (fun o' ho' => houtputs o' (List.mem_cons_of_mem _ ho'))

/-- One frame moves the session and what the log says alike. -/
theorem Tracks.step (h : Tracks p s) {frame : Decoded} {s' : HostSession}
    {outputs : List Output} (hr : Reacts s frame s' outputs) :
    Tracks ((.recv frame :: outputs.map .out).foldl Standing.next p) s' := by
  cases hr with
  | ignored => exact h
  | closed msgType body hs =>
      have hstage : (p.next (.recv (.Message msgType body))).stage = .closed := by
        rw [next_recv_stage]
        exact h.closed_iff.mpr hs
      exact Tracks.closed _ s hstage hs
  | bye body _ => exact Tracks.closed _ _ rfl rfl
  | clockPing body _ =>
      exact h.stays CLOCK_PING body (by decide) _ (List.forall_mem_singleton.mpr fun _ => rfl)
  | fatal msgType body code detail _ _ => exact Tracks.closed _ _ rfl rfl
  | hello body w w' s' hs _ _ _ heq =>
      cases h with
      | waitHello _ _ hpending =>
          exact Tracks.waitConfigAck s' (by simp only [heq]) (by simp only [heq, hpending])
      | waitConfigAck _ hs' _ => simp only [hs', reduceCtorEq] at hs
      | streaming _ hs' => simp only [hs', reduceCtorEq] at hs
      | closed _ _ _ hs' => simp only [hs', reduceCtorEq] at hs
  | configAck body hs hgen =>
      cases h with
      | waitConfigAck _ _ hpending =>
          -- The acknowledgement clears what was awaited, and START opens the next phase.
          have hrecv : (Standing.mk .configAck (some (s.generation.toNat : ℤ))).next
              (.recv (.Message CONFIG_ACK body)) = ⟨.configAck, none⟩ := if_pos ⟨rfl, hgen⟩
          rw [List.foldl_cons, hrecv]
          exact tracks_streaming { s with state := .Streaming } rfl none (by simp only [hpending,
            Option.map_none])
      | waitHello _ hs' _ => simp only [hs', reduceCtorEq] at hs
      | streaming _ hs' => simp only [hs', reduceCtorEq] at hs
      | closed _ _ _ hs' => simp only [hs', reduceCtorEq] at hs
  | idrRequest body _ =>
      exact h.stays IDR_REQUEST body (by decide) _ (List.forall_mem_singleton.mpr fun _ => rfl)
  | stats body _ =>
      exact h.stays STATS body (by decide) _ (List.forall_mem_singleton.mpr fun _ => rfl)
  | input body _ => exact h.stays INPUT body (by decide) [] (List.forall_mem_nil _)
  | viewportIgnored body _ => exact h.stays VIEWPORT body (by decide) [] (List.forall_mem_nil _)
  | viewport body rw rh w w' s' hs _ _ _ _ _ heq =>
      rw [h.eq_of_streaming hs]
      exact tracks_streaming s' (by simp only [heq, hs]) (some (s'.generation.toNat : ℤ))
        (by simp only [heq, Option.map_some, UInt64.toNat_add, UInt64.reduceToNat, Nat.reducePow,
          Int.natCast_emod, Nat.cast_add, Nat.cast_one, Nat.cast_ofNat])
  | reconfigAck body g hs hpending hgen =>
      -- The acknowledgement clears what was awaited, and the phase stays.
      have hrecv : (Standing.mk .streaming
          (s.pendingGeneration.map fun g => (g.toNat : ℤ))).next
          (.recv (.Message CONFIG_ACK body)) = ⟨.streaming, none⟩ :=
        if_pos ⟨rfl, by rw [hpending]; exact hgen⟩
      rw [h.eq_of_streaming hs, List.foldl_cons, hrecv]
      exact tracks_streaming { s with pendingGeneration := none } hs none rfl

/-- Over a whole log the session is where the log says. -/
theorem Tracks.log (frames : List Decoded) : ∀ {p : Standing} {s : HostSession}, Tracks p s →
    Tracks ((log s frames).foldl Standing.next p) (s.run frames) := by
  induction frames with
  | nil => exact fun h => h
  | cons frame frames ih =>
      intro p s h
      have hframe := h.step (onFrame_reacts s frame)
      rw [Session.log, List.foldl_append]
      exact ih hframe

/-- On every registered message but ERROR the rules and the session agree. -/
theorem legal_iff_permits (h : Tracks p s) (hs : s.state ≠ .Closed) (msgType : UInt64)
    (body : List (Value × Value)) (hregistered : knownKeys msgType ≠ none)
    (herror : msgType ≠ ERROR) :
    Legal p (.Message msgType body) ↔ Permits s msgType body := by
  unfold Legal Permits Acknowledges
  cases h with
  | waitHello _ hstate _ =>
      simp only [hregistered, List.mem_cons, herror, List.not_mem_nil, or_self, or_false, or_assoc,
        false_or, hstate, true_and, reduceCtorEq, false_and, and_false]
  | waitConfigAck _ hstate _ =>
      simp only [hregistered, List.mem_cons, herror, List.not_mem_nil, or_self, or_false, ne_eq,
        reduceCtorEq, not_false_eq_true, true_and, or_assoc, false_or, hstate, false_and]
  | streaming _ hstate =>
      cases hpending : s.pendingGeneration with
      | none =>
          simp only [hregistered, List.mem_cons, herror, List.not_mem_nil, or_self, or_false,
            Option.map_none, ne_eq, not_true_eq_false, false_and, and_false, or_assoc, false_or,
            hstate, reduceCtorEq, exists_const, true_and]
      | some g =>
          simp only [hregistered, List.mem_cons, herror, List.not_mem_nil, or_self, or_comm,
            false_or, Option.map_some, ne_eq, reduceCtorEq, not_false_eq_true, true_and, or_assoc,
            hstate, false_and, Option.some.injEq, exists_eq_left']
  | closed _ _ _ hstate => exact absurd hstate hs

end Standing

/-- The error a verdict reports. -/
theorem Verdict.answers_iff {s : HostSession} {msgType : UInt64} {body : List (Value × Value)}
    {r : HostSession × List Output} (h : Verdict s msgType body r) :
    Answers Errors.PROTOCOL_VIOLATION r.2 ↔ ¬ Permits s msgType body := by
  cases h with
  | goes s' outputs hpermits _ houtputs =>
      refine iff_of_false ?_ (not_not.mpr hpermits)
      rintro ⟨b, hb, -⟩
      exact (houtputs _ hb).1 b rfl
  | bye hmsg =>
      refine iff_of_false ?_ (not_not.mpr (Or.inl hmsg))
      rintro ⟨b, hb, -⟩
      simp only [List.mem_cons, reduceCtorEq, List.not_mem_nil, or_self] at hb
  | refused code detail hpermits hcode =>
      refine iff_of_false ?_ (not_not.mpr hpermits)
      rintro ⟨b, hb, hkey⟩
      simp only [HostSession.fatal, List.mem_cons, Output.Send.injEq, reduceCtorEq,
        List.not_mem_nil, or_false, true_and] at hb
      rw [hb] at hkey
      -- A refusal is an ERROR too, of another code.
      have heq : (code.toNat : ℤ) = Errors.PROTOCOL_VIOLATION.toNat := Option.some.inj hkey
      rcases hcode with rfl | rfl <;> exact absurd heq (by decide)
  | violation hpermits =>
      exact iff_of_true ⟨_, List.mem_cons_self, rfl⟩ hpermits

section Decode

variable {fromReader : List UInt8 → Option Rfc8949.Item} {bytes : List UInt8} {msgType : UInt64}
  {body : List (Value × Value)}

theorem decodeEnvelope_registered {value : Value}
    (h : decodeEnvelope value = .ok (.Message msgType body)) : knownKeys msgType ≠ none := by
  unfold decodeEnvelope at h
  split at h
  case h_2 => simp only [reduceCtorEq] at h
  split at h
  case h_2 => simp only [reduceCtorEq] at h
  split at h
  case isFalse => simp only [reduceCtorEq] at h
  split at h
  case h_2 => simp only [reduceCtorEq] at h
  dsimp only at h
  split at h
  · rename_i allowed hkeys
    injection h with h
    injection h with hmsg
    rw [← hmsg, hkeys]
    exact Option.some_ne_none allowed
  · simp only [Except.ok.injEq, reduceCtorEq] at h

/-- The messages the decoder hands on are registered. -/
theorem decodeFrame_registered
    (h : decodeFrame fromReader bytes = .ok (.Message msgType body)) :
    knownKeys msgType ≠ none := by
  unfold decodeFrame at h
  dsimp only at h
  split at h
  case isTrue => simp only [reduceCtorEq] at h
  split at h
  case isTrue => simp only [reduceCtorEq] at h
  split at h
  case isTrue => simp only [reduceCtorEq] at h
  cases hvalue : decode fromReader ((bytes.drop 4).take (BigEndian.ofBE (bytes.take 4))) with
  | error e => simp only [bind, Except.bind, hvalue, reduceCtorEq] at h
  | ok value =>
      rw [hvalue] at h
      exact decodeEnvelope_registered h

end Decode

/-- The verdicts are exact but for ERROR: on a decoded frame met in a live
    phase a session and the registry agree unless it is the client's ERROR. -/
theorem violation_exact_iff (hostName : String) (sessionId : Vector UInt8 16)
    (params : MediaParams) (extraStreams : List StreamConfig) (frames : List Decoded)
    (fromReader : List UInt8 → Option Rfc8949.Item) (bytes : List UInt8) (frame : Decoded)
    (hframe : decodeFrame fromReader bytes = .ok frame)
    (hlive : ((HostSession.new hostName sessionId params extraStreams).run frames).state ≠
      .Closed) :
    ((Answers Errors.PROTOCOL_VIOLATION
          (((HostSession.new hostName sessionId params extraStreams).run frames).onFrame
            frame).2 ↔
        ¬ Legal (standing (log (HostSession.new hostName sessionId params extraStreams) frames))
          frame) ↔
      ∀ body, frame ≠ .Message ERROR body) := by
  have htracks := Tracks.log frames
    (Tracks.waitHello (HostSession.new hostName sessionId params extraStreams) rfl rfl)
  cases frame with
  | Ignored =>
      refine iff_of_true ?_ (fun _ => Decoded.noConfusion)
      refine iff_of_false ?_ (not_not.mpr trivial)
      rintro ⟨b, hb, -⟩
      exact absurd hb List.not_mem_nil
  | Message msgType body =>
      have hanswers := (onFrame_verdict _ body msgType hlive).answers_iff
      have hregistered := decodeFrame_registered hframe
      by_cases herror : msgType = ERROR
      · -- The registry allows an ERROR in every phase, no state takes one.
        subst herror
        refine iff_of_false (fun hexact => ?_) (fun h => h body rfl)
        have hlegal : Legal (standing (log
            (HostSession.new hostName sessionId params extraStreams) frames))
            (.Message ERROR body) := Or.inr (Or.inl (by decide))
        refine hexact.mp (hanswers.mpr ?_) hlegal
        rintro (h | h | ⟨-, h⟩ | ⟨h, -⟩ | ⟨-, h⟩) <;> exact absurd h (by decide)
      · refine iff_of_true ?_ (fun b heq => herror (Decoded.Message.inj heq).1)
        rw [hanswers]
        exact not_congr (legal_iff_permits htracks hlive msgType body hregistered herror).symm

/-- The client's `ERROR {0: 7}`. -/
def clientError : List UInt8 := [0, 0, 0, 6, 0x82, 0x18, 0x40, 0xa1, 0x00, 0x07]

/-- The default host at its first frame. -/
def sampleHost : HostSession := HostSession.new "host" (Vector.replicate 16 0) {} []

theorem violation_exact_iff_hello :
    (Answers Errors.PROTOCOL_VIOLATION
        (sampleHost.onFrame (.Message CONFIG_ACK [(.Int 0, .Int 1)])).2 ↔
      ¬ Legal (standing []) (.Message CONFIG_ACK [(.Int 0, .Int 1)])) ↔
      ∀ body, Decoded.Message CONFIG_ACK [(.Int 0, .Int 1)] ≠ .Message ERROR body :=
  violation_exact_iff "host" (Vector.replicate 16 0) {} [] []
    (fun bytes => (Rfc8949.decodeItem 16 bytes).map Prod.fst)
    [0, 0, 0, 5, 0x82, 0x04, 0xa1, 0x00, 0x01] _ rfl State.noConfusion

/-- An ERROR is legal in every phase, and answered as a violation. -/
theorem client_error_is_violation :
    ∃ frame, decodeFrame (fun bytes => (Rfc8949.decodeItem 16 bytes).map Prod.fst) clientError =
        .ok frame ∧
      Legal (standing (log sampleHost [])) frame ∧
      Answers Errors.PROTOCOL_VIOLATION ((sampleHost.run []).onFrame frame).2 :=
  ⟨.Message ERROR [(.Int 0, .Int 7)], rfl, Or.inr (Or.inl (by decide)), _,
    List.mem_cons_self, rfl⟩

end Session

end LoomHost
