import LoomHost.Theory.Session.Exchange

/-!
# CONFIG Generations

The generation discipline of a session, read off its log: the exchange of
CONFIGs and CONFIG_ACKs gives the numbers, the acknowledgements and the sizes
applied, and what a frame keeps of the CONFIG gives the rest of the bodies.

## Main definitions

* `configs`: The CONFIG bodies of a log.
* `DifferOnlyIn`: Two bodies, up to the values of some keys.
* `ConfigDiscipline`: The discipline.

## Theorems

* `Reacts.keeps`, `Reacts.sends`: What a frame does to the CONFIG.
* `config_bodies`: The CONFIG bodies of a session.
* `config_discipline`: Every session keeps the discipline.
-/

namespace LoomHost

namespace Session

open Cbor Control AckDiscipline

/-- The CONFIG bodies of a log, in order. -/
abbrev configs (entries : List Entry) : List (List (Value × Value)) := announced exchange entries

theorem mem_configs {entries : List Entry} {body : List (Value × Value)} :
    body ∈ configs entries ↔ .config body ∈ entries := by
  unfold configs announced
  rw [List.mem_filterMap]
  constructor
  · rintro ⟨e, he, hview⟩
    split at hview
    · rename_i b hb
      rw [of_view_announce hb, Option.some.inj hview] at he
      exact he
    · exact absurd hview (by simp only [reduceCtorEq, not_false_eq_true])
  · exact fun h => ⟨.config body, h, by rw [view_config]⟩

/-- Two bodies with the same keys, and the same values but under `keys`. -/
def DifferOnlyIn (keys : List ℤ) (body body' : List (Value × Value)) : Prop :=
  body.map Prod.fst = body'.map Prod.fst ∧
    body.filter (fun e => !isKnown keys e) = body'.filter (fun e => !isKnown keys e)

theorem DifferOnlyIn.refl (keys : List ℤ) (body : List (Value × Value)) :
    DifferOnlyIn keys body body := ⟨rfl, rfl⟩

theorem DifferOnlyIn.symm {keys : List ℤ} {body body' : List (Value × Value)}
    (h : DifferOnlyIn keys body body') : DifferOnlyIn keys body' body := ⟨h.1.symm, h.2.symm⟩

theorem DifferOnlyIn.trans {keys : List ℤ} {body body' body'' : List (Value × Value)}
    (h : DifferOnlyIn keys body body') (h' : DifferOnlyIn keys body' body'') :
    DifferOnlyIn keys body body'' := ⟨h.1.trans h'.1, h.2.trans h'.2⟩

/-- After HELLO a frame changes no more of the CONFIG than the generation and
    the size. -/
theorem Reacts.keeps {s s' : HostSession} {frame : Decoded} {outputs : List Output}
    (h : Reacts s frame s' outputs) (hs : s.state ≠ .WaitHello) :
    s'.state ≠ .WaitHello ∧ DifferOnlyIn [0, 2] s'.configBody s.configBody := by
  cases h with
  | bye body _ => exact ⟨State.noConfusion, DifferOnlyIn.refl _ _⟩
  | fatal msgType body code detail _ _ => exact ⟨State.noConfusion, DifferOnlyIn.refl _ _⟩
  | hello body w h _ hhello => exact absurd hhello hs
  | configAck body _ _ => exact ⟨State.noConfusion, DifferOnlyIn.refl _ _⟩
  | viewport body rw rh w h _ _ _ _ _ _ _ heq =>
      -- The generation is key 0 and the primary size key 2.
      rw [heq]
      exact ⟨hs, rfl, rfl⟩
  | reconfigAck body g _ _ _ => exact ⟨hs, DifferOnlyIn.refl _ _⟩
  | _ => exact ⟨hs, DifferOnlyIn.refl _ _⟩

/-- A CONFIG among the outputs is that of the state after them, past HELLO. -/
theorem Reacts.sends {s s' : HostSession} {frame : Decoded} {outputs : List Output}
    (h : Reacts s frame s' outputs) (body : List (Value × Value))
    (hbody : .Send CONFIG body ∈ outputs) : s'.state ≠ .WaitHello ∧ body = s'.configBody := by
  have herror : CONFIG ≠ ERROR := by decide
  have hwelcome : CONFIG ≠ WELCOME := by decide
  have hstart : CONFIG ≠ START := by decide
  cases h with
  | hello hello w h _ _ _ _ _ heq =>
      rw [List.mem_cons, List.mem_singleton, Output.Send.injEq, Output.Send.injEq] at hbody
      rcases hbody with ⟨hmsg, -⟩ | ⟨-, hbody⟩
      · exact absurd hmsg hwelcome
      · exact ⟨by rw [heq]; nofun, hbody⟩
  | viewport viewport rw rh w h _ hs _ _ _ _ _ heq =>
      rw [List.mem_singleton, Output.Send.injEq] at hbody
      exact ⟨by rw [heq, hs]; nofun, hbody.2⟩
  | fatal msgType message code detail _ _ =>
      -- A violation sends an ERROR and no CONFIG.
      simp only [HostSession.fatal, List.mem_cons, Output.Send.injEq, herror, false_and,
        reduceCtorEq, List.not_mem_nil, or_self] at hbody
  | configAck ack _ _ =>
      simp only [List.mem_cons, Output.Send.injEq, hstart, false_and, reduceCtorEq,
        List.not_mem_nil, or_self] at hbody
  | _ => simp only [List.not_mem_nil, List.mem_cons, reduceCtorEq, or_self] at hbody

/-- A CONFIG of a log is among the outputs for its first frame, or comes later. -/
theorem mem_configs_cons {s : HostSession} {frame : Decoded} {frames : List Decoded}
    {body : List (Value × Value)} (h : body ∈ configs (log s (frame :: frames))) :
    .Send CONFIG body ∈ (s.onFrame frame).2 ∨
      body ∈ configs (log (s.onFrame frame).1 frames) := by
  rw [mem_configs, log, List.mem_append, List.mem_cons] at h
  rcases h with (h | h) | h
  · -- The frame itself is received, not sent.
    exact absurd h Entry.noConfusion
  · rcases List.mem_map.mp h with ⟨o, ho, heq⟩
    rw [Entry.out.inj heq] at ho
    exact Or.inl ho
  · exact Or.inr (mem_configs.mpr h)

/-- After HELLO the CONFIGs of a log are those of the state, but for the
    generation and the size. -/
theorem configs_of_hello (frames : List Decoded) :
    ∀ {s : HostSession}, s.state ≠ .WaitHello → ∀ body ∈ configs (log s frames),
      DifferOnlyIn [0, 2] body s.configBody := by
  induction frames with
  | nil => exact fun {s} _ body hbody => absurd hbody List.not_mem_nil
  | cons frame frames ih =>
      intro s hs body hbody
      have hframe := onFrame_reacts s frame
      rcases hframe.keeps hs with ⟨hs', hdiffer⟩
      rcases mem_configs_cons hbody with ho | hbody
      · exact (hframe.sends body ho).2 ▸ hdiffer
      · exact (ih hs' body hbody).trans hdiffer

/-- The CONFIG bodies of a session differ only in the generation and the
    primary size. -/
theorem config_bodies (frames : List Decoded) :
    ∀ {s : HostSession}, ∀ body ∈ configs (log s frames), ∀ body' ∈ configs (log s frames),
      DifferOnlyIn [0, 2] body body' := by
  induction frames with
  | nil => exact fun {s} body hbody => absurd hbody List.not_mem_nil
  | cons frame frames ih =>
      intro s
      have hframe := onFrame_reacts s frame
      by_cases hs : (s.onFrame frame).1.state = .WaitHello
      · -- Nothing is announced before HELLO.
        have hrest (body : List (Value × Value))
            (hbody : body ∈ configs (log s (frame :: frames))) :
            body ∈ configs (log (s.onFrame frame).1 frames) := by
          rcases mem_configs_cons hbody with ho | hbody
          · exact absurd hs (hframe.sends body ho).1
          · exact hbody
        exact fun body hbody body' hbody' => ih body (hrest body hbody) body' (hrest body' hbody')
      · -- The first CONFIG is out or will not come: the state fixes the rest of them all.
        have hnew (body : List (Value × Value))
            (hbody : body ∈ configs (log s (frame :: frames))) :
            DifferOnlyIn [0, 2] body (s.onFrame frame).1.configBody := by
          rcases mem_configs_cons hbody with ho | hbody
          · exact (hframe.sends body ho).2 ▸ DifferOnlyIn.refl _ _
          · exact configs_of_hello frames hs body hbody
        exact fun body hbody body' hbody' => (hnew body hbody).trans (hnew body' hbody').symm

/-- The CONFIGs of a session carry the generations 1, 2, 3 and so on, a `u64`. -/
theorem config_numbered (hostName : String) (sessionId : Vector UInt8 16)
    (params : MediaParams) (extraStreams : List StreamConfig) (frames : List Decoded)
    {u w : List Entry} {body : List (Value × Value)}
    (heq : log (HostSession.new hostName sessionId params extraStreams) frames =
      u ++ .config body :: w) :
    intKey body 0 = some ((((configs u).length + 1) % 2 ^ 64 : ℕ) : ℤ) := by
  rcases log_runs frames (Related.waitHello (HostSession.new hostName sessionId params
    extraStreams) rfl rfl) with ⟨r, hruns, -⟩
  rw [heq] at hruns
  have hgen := numbered hruns (view_config body)
  rw [← UInt64.toNat_ofNat']
  exact hgen

/-- A Reconfigure of a session belongs to the last CONFIG, which is not the first
    one and was acknowledged just now and not before. -/
theorem reconfigure_acknowledged (hostName : String) (sessionId : Vector UInt8 16)
    (params : MediaParams) (extraStreams : List StreamConfig) (frames : List Decoded)
    {w w' : List Entry} {applied : MediaParams}
    (heq : log (HostSession.new hostName sessionId params extraStreams) frames =
      w ++ .out (.Reconfigure applied) :: w') :
    ∃ u v body ack, w = u ++ .config body :: v ++ [.configAck ack] ∧ configs u ≠ [] ∧
      intKey ack 0 = intKey body 0 ∧ Announces body applied ∧
      ∀ e ∈ v, (∀ b, e ≠ .config b) ∧ (∀ d, e ≠ .out (.Reconfigure d)) ∧
        ∀ a, e = .configAck a → intKey a 0 ≠ intKey body 0 := by
  rcases log_runs frames (Related.waitHello (HostSession.new hostName sessionId params
    extraStreams) rfl rfl) with ⟨r, hruns, -⟩
  rw [heq] at hruns
  have happly : exchange.view (.out (.Reconfigure applied)) = .apply applied := rfl
  -- The discipline finds the acknowledgement and its CONFIG among the abstract actions.
  rcases ack_of_applied hruns happly with ⟨u, v, x, z, body, rfl, hx, hz, hfits, hu, hquiet⟩
  rcases of_view_ack hz with ⟨ack, rfl, hgen⟩
  rw [of_view_announce hx]
  refine ⟨u, v, body, ack, rfl, hu, hgen, hfits, fun e he => ?_⟩
  rcases hquiet e he with ⟨hnoack, hnoapply, hnoannounce⟩
  refine ⟨fun b hb => ?_, fun d hd => ?_, fun a ha hgen' => ?_⟩
  · exact hnoannounce b (hb ▸ view_config b)
  · exact hnoapply d (hd ▸ rfl)
  · exact hnoack (ha ▸ (view_configAck a).trans (congrArg _ hgen'))

/-- The generation discipline, of the log of a session. -/
structure ConfigDiscipline (entries : List Entry) : Prop where
  /-- The CONFIGs carry the generations 1, 2, 3 and so on, a `u64`. -/
  numbered : ∀ u w body, entries = u ++ .config body :: w →
    intKey body 0 = some ((((configs u).length + 1) % 2 ^ 64 : ℕ) : ℤ)
  /-- Between two CONFIGs the first one is acknowledged. -/
  acknowledged : ∀ u v w body body', entries = u ++ .config body :: v ++ .config body' :: w →
    ∃ ack, .configAck ack ∈ v ∧ intKey ack 0 = intKey body 0
  /-- A Reconfigure carries the size of the last CONFIG, which is not the first
      one, and comes at its first CONFIG_ACK. -/
  applied : ∀ w w' params, entries = w ++ .out (.Reconfigure params) :: w' →
    ∃ u v body ack, w = u ++ .config body :: v ++ [.configAck ack] ∧ configs u ≠ [] ∧
      intKey ack 0 = intKey body 0 ∧ Announces body params ∧
      ∀ e ∈ v, (∀ b, e ≠ .config b) ∧ (∀ d, e ≠ .out (.Reconfigure d)) ∧
        ∀ a, e = .configAck a → intKey a 0 ≠ intKey body 0
  /-- Every CONFIG but the first that is acknowledged before the close is
      applied, with its size. -/
  applies : ∀ u v w body ack, entries = u ++ .config body :: v ++ .configAck ack :: w →
    configs u ≠ [] → intKey ack 0 = intKey body 0 →
    (∀ e ∈ v, (∀ code, e ≠ .out (.Close code)) ∧
      ∀ a, e = .configAck a → intKey a 0 ≠ intKey body 0) →
    ∃ params w', w = .out (.Reconfigure params) :: w' ∧ Announces body params
  /-- The CONFIGs differ in the generation and the primary size only. -/
  bodies : ∀ body ∈ configs entries, ∀ body' ∈ configs entries, DifferOnlyIn [0, 2] body body'

/-- Every session keeps the discipline, whatever frames it is fed. -/
theorem config_discipline (hostName : String) (sessionId : Vector UInt8 16)
    (params : MediaParams) (extraStreams : List StreamConfig) (frames : List Decoded) :
    ConfigDiscipline (log (HostSession.new hostName sessionId params extraStreams) frames) := by
  have hstart := Related.waitHello (HostSession.new hostName sessionId params extraStreams)
    rfl rfl
  rcases log_runs frames hstart with ⟨r, hruns, hdue⟩
  -- Each clause is the rule of an exchange of that shape, its meanings read back as entries.
  refine ⟨?_, ?_, ?_, ?_, config_bodies frames⟩
  · exact fun u w body heq =>
      config_numbered hostName sessionId params extraStreams frames heq
  · intro u v w body body' heq
    rw [heq] at hruns
    rcases acked_between hruns (view_config body) (view_config body') with ⟨z, hz, hack⟩
    rcases of_view_ack hack with ⟨ack, rfl, hgen⟩
    exact ⟨ack, hz, hgen⟩
  · exact fun w w' params' heq =>
      reconfigure_acknowledged hostName sessionId params extraStreams frames heq
  · intro u v w body ack heq hu hgen hv
    rw [heq] at hruns
    have hack : exchange.view (.configAck ack) = .ack (exchange.gen body) :=
      (view_configAck ack).trans (congrArg _ hgen)
    have hnoack : ∀ e ∈ v, exchange.view e ≠ .ack (exchange.gen body) := by
      intro e he hview
      rcases of_view_ack hview with ⟨a, ha, hgen'⟩
      exact (hv e he).2 a ha hgen'
    have hnoclose : ∀ e ∈ v, exchange.view e ≠ .close := by
      intro e he hview
      rcases of_view_close hview with ⟨code, hcode⟩
      exact (hv e he).1 code hcode
    -- No frame leaves an application due, so it is in the log.
    rcases applied_of_ack hruns hdue hu (view_config body) hack hnoack hnoclose with
      ⟨y, w', d, rfl, hy, hfits⟩
    rw [of_view_apply hy]
    exact ⟨d, w', rfl, hfits⟩

end Session

end LoomHost
