import LoomHost.Theory.Session.Step
import LoomHost.Lib.AckDiscipline

/-!
# The Session as an Exchange

The CONFIG messages of a session, its CONFIG_ACKs and its reconfigurations are
an exchange of announcements, acknowledgements and applications: the generation
is the number, the primary size the setting.

The parameters are overwritten when a VIEWPORT arrives and used when the
CONFIG_ACK does. That the size applied is the size announced rests on the
pending generation: while it is set nothing changes the parameters, and it is
set exactly while the last CONFIG, the first one excepted, is unacknowledged.

The log of a session is what it receives and what it emits, in order. A frame
received after the close is in the log, but no longer acknowledges anything.

## Main definitions

* `Entry`, `log`: The log of a session.
* `exchange`: The log as an exchange.
* `Announces`: The primary size in a CONFIG body.
* `Related`: Where the exchange stands in a session state.

## Theorems

* `view_cases`: What an entry may mean.
* `reacts_runs`: One frame is a run of the exchange.
* `log_runs`: The log of a session is the log of an exchange.
-/

namespace LoomHost

namespace Session

open Cbor Control AckDiscipline

/-- One entry of a session's log. -/
inductive Entry where
  | recv (frame : Decoded)
  | out (output : Output)

/-- What a session receives and emits, in order. -/
def log : HostSession → List Decoded → List Entry
  | _, [] => []
  | s, frame :: frames =>
    .recv frame :: (s.onFrame frame).2.map .out ++ log (s.onFrame frame).1 frames

/-- The entry of a CONFIG message with this body. -/
def Entry.config (body : List (Value × Value)) : Entry := .out (.Send CONFIG body)

/-- The entry of a CONFIG_ACK with this body. -/
def Entry.configAck (body : List (Value × Value)) : Entry := .recv (.Message CONFIG_ACK body)

/-- The primary size a CONFIG body announces is that of the parameters. -/
def Announces (body : List (Value × Value)) (params : MediaParams) : Prop :=
  pairElem body 2 0 = some (params.width.toNat : ℤ) ∧
    pairElem body 2 1 = some (params.height.toNat : ℤ)

/-- What an entry means for the exchange. -/
def Entry.sym : Entry → Sym (List (Value × Value)) (Option ℤ) MediaParams
  | .recv (.Message msgType body) =>
    if msgType = CONFIG_ACK then .ack (intKey body 0) else .other
  | .recv .Ignored => .other
  | .out (.Send msgType body) => if msgType = CONFIG then .announce body else .other
  | .out (.Reconfigure params) => .apply params
  | .out (.Close _) => .close
  | .out _ => .other

/-- The log of a session as an exchange: the number is the generation, a `u64`
    in key 0. -/
def exchange : Discipline Entry (List (Value × Value)) (Option ℤ) MediaParams where
  view := Entry.sym
  gen body := intKey body 0
  num n := some (UInt64.ofNat n).toNat
  fits := Announces

/-- Where the exchange stands in a session state. -/
inductive Related : Phase (List (Value × Value)) → HostSession → Prop
  | waitHello (s : HostSession) (hs : s.state = .WaitHello)
      (hpending : s.pendingGeneration = none) : Related (.idle 0) s
  | waitAck (s : HostSession) (body : List (Value × Value)) (hs : s.state = .WaitConfigAck)
      (hpending : s.pendingGeneration = none) (hgen : s.generation = 1)
      (hbody : intKey body 0 = some (s.generation.toNat : ℤ)) : Related (.awaiting 1 body) s
  | streaming (s : HostSession) (n : ℕ) (hs : s.state = .Streaming)
      (hpending : s.pendingGeneration = none) (hn : 1 ≤ n)
      (hgen : s.generation = UInt64.ofNat n) : Related (.idle n) s
  | pending (s : HostSession) (n : ℕ) (body : List (Value × Value)) (hs : s.state = .Streaming)
      (hpending : s.pendingGeneration = some s.generation) (hn : 2 ≤ n)
      (hgen : s.generation = UInt64.ofNat n)
      (hbody : intKey body 0 = some (s.generation.toNat : ℤ))
      (hsize : Announces body s.params) : Related (.awaiting n body) s
  | closed (s : HostSession) (hs : s.state = .Closed) : Related .closed s

section Bodies

variable (s : HostSession)

/-- A CONFIG carries the generation of the state. -/
theorem intKey_configBody : intKey s.configBody 0 = some (s.generation.toNat : ℤ) := rfl

/-- A CONFIG announces the size of the state. -/
theorem announces_configBody : Announces s.configBody s.params := ⟨rfl, rfl⟩

end Bodies

section Step

variable {p : Phase (List (Value × Value))} {s : HostSession}

/-- Between two frames nothing is due. -/
theorem Related.not_due (h : Related p s) : ∀ n b, p ≠ .due n b := by
  intro n b
  cases h <;> simp only [ne_eq, reduceCtorEq, not_false_eq_true]

/-- A message other than CONFIG_ACK means nothing for the exchange. -/
theorem view_recv (msgType : UInt64) (body : List (Value × Value)) (hne : msgType ≠ CONFIG_ACK) :
    exchange.view (.recv (.Message msgType body)) = .other :=
  if_neg hne

theorem view_configAck (body : List (Value × Value)) :
    exchange.view (.configAck body) = .ack (intKey body 0) :=
  rfl

theorem view_send (msgType : UInt64) (body : List (Value × Value)) (hne : msgType ≠ CONFIG) :
    exchange.view (.out (.Send msgType body)) = .other :=
  if_neg hne

theorem view_config (body : List (Value × Value)) :
    exchange.view (.config body) = .announce body :=
  rfl

/-- The entries behind the meanings. -/
theorem view_cases (e : Entry) :
    exchange.view e = .other ∨
    (∃ body, e = .configAck body ∧ exchange.view e = .ack (intKey body 0)) ∨
    (∃ body, e = .config body ∧ exchange.view e = .announce body) ∨
    (∃ d, e = .out (.Reconfigure d) ∧ exchange.view e = .apply d) ∨
    (∃ code, e = .out (.Close code) ∧ exchange.view e = .close) := by
  cases e with
  | recv frame =>
      cases frame with
      | Ignored => exact Or.inl rfl
      | Message msgType body =>
          -- Of what the client sends only a CONFIG_ACK has a meaning.
          by_cases hmsg : msgType = CONFIG_ACK
          · subst hmsg
            exact Or.inr (Or.inl ⟨body, rfl, view_configAck body⟩)
          · exact Or.inl (view_recv msgType body hmsg)
  | out output =>
      cases output with
      | Send msgType body =>
          -- Of what the host sends only a CONFIG has one.
          by_cases hmsg : msgType = CONFIG
          · subst hmsg
            exact Or.inr (Or.inr (Or.inl ⟨body, rfl, view_config body⟩))
          · exact Or.inl (view_send msgType body hmsg)
      | Reconfigure d => exact Or.inr (Or.inr (Or.inr (Or.inl ⟨d, rfl, rfl⟩)))
      | Close code => exact Or.inr (Or.inr (Or.inr (Or.inr ⟨code, rfl, rfl⟩)))
      | _ => exact Or.inl rfl

theorem of_view_announce {e : Entry} {body : List (Value × Value)}
    (h : exchange.view e = .announce body) : e = .config body := by
  rcases view_cases e with hv | ⟨b, -, hv⟩ | ⟨b, he, hv⟩ | ⟨d, -, hv⟩ | ⟨code, -, hv⟩ <;>
    rw [hv] at h
  case inr.inr.inl => exact Sym.announce.inj h ▸ he
  all_goals exact absurd h (by simp only [reduceCtorEq, not_false_eq_true])

theorem of_view_ack {e : Entry} {g : Option ℤ} (h : exchange.view e = .ack g) :
    ∃ body, e = .configAck body ∧ intKey body 0 = g := by
  rcases view_cases e with hv | ⟨b, he, hv⟩ | ⟨b, -, hv⟩ | ⟨d, -, hv⟩ | ⟨code, -, hv⟩ <;>
    rw [hv] at h
  case inr.inl => exact ⟨b, he, Sym.ack.inj h⟩
  all_goals exact absurd h (by simp only [reduceCtorEq, not_false_eq_true])

theorem of_view_apply {e : Entry} {d : MediaParams} (h : exchange.view e = .apply d) :
    e = .out (.Reconfigure d) := by
  rcases view_cases e with hv | ⟨b, -, hv⟩ | ⟨b, -, hv⟩ | ⟨d, he, hv⟩ | ⟨code, -, hv⟩ <;>
    rw [hv] at h
  case inr.inr.inr.inl => exact Sym.apply.inj h ▸ he
  all_goals exact absurd h (by simp only [reduceCtorEq, not_false_eq_true])

theorem of_view_close {e : Entry} (h : exchange.view e = .close) :
    ∃ code, e = .out (.Close code) := by
  rcases view_cases e with hv | ⟨b, -, hv⟩ | ⟨b, -, hv⟩ | ⟨d, -, hv⟩ | ⟨code, he, hv⟩ <;>
    rw [hv] at h
  case inr.inr.inr.inr => exact ⟨code, he⟩
  all_goals exact absurd h (by simp only [reduceCtorEq, not_false_eq_true])

/-- Entries that mean nothing leave the exchange where it stands. -/
theorem runs_other (hp : ∀ n b, p ≠ .due n b) :
    ∀ w : List Entry, (∀ e ∈ w, exchange.view e = .other) → Runs exchange p w p := by
  intro w
  induction w with
  | nil => exact fun _ => Runs.nil p
  | cons e w ih =>
      exact fun hw => Runs.cons (Step.other p e (hw e List.mem_cons_self) hp)
        (ih (fun e' he' => hw e' (List.mem_cons_of_mem _ he')))

/-- A message that is not the acknowledgement awaited leaves the exchange where
    it stands. -/
theorem step_recv (hp : ∀ n b, p ≠ .due n b) (msgType : UInt64) (body : List (Value × Value))
    (hne : msgType = CONFIG_ACK → ∀ n b, p = .awaiting n b → intKey body 0 ≠ intKey b 0) :
    Step exchange p (.recv (.Message msgType body)) p := by
  by_cases hack : msgType = CONFIG_ACK
  · subst hack
    exact Step.stray p _ (intKey body 0) (view_configAck body) hp (hne rfl)
  · exact Step.other p _ (view_recv msgType body hack) hp

/-- A message that means nothing, and outputs that mean nothing. -/
theorem runs_quiet (h : Related p s) (msgType : UInt64) (body : List (Value × Value))
    (hne : msgType ≠ CONFIG_ACK) (outputs : List Output)
    (houtputs : ∀ o ∈ outputs, exchange.view (.out o) = .other) :
    ∃ p', Runs exchange p (.recv (.Message msgType body) :: outputs.map .out) p' ∧
      Related p' s := by
  refine ⟨p, runs_other h.not_due _ (fun e he => ?_), h⟩
  rcases List.mem_cons.mp he with rfl | he
  · exact view_recv msgType body hne
  · rcases List.mem_map.mp he with ⟨o, ho, rfl⟩
    exact houtputs o ho

/-- What a CONFIG_ACK awaited by the exchange is to the session. -/
theorem Related.acknowledges (h : Related p s) (body : List (Value × Value)) (n : ℕ)
    (b : List (Value × Value)) (hp : p = .awaiting n b) (hgen : intKey body 0 = intKey b 0) :
    Acknowledges s CONFIG_ACK body := by
  subst hp
  cases h with
  | waitAck _ _ hs _ _ hbody => exact ⟨rfl, Or.inl ⟨hs, hgen.trans hbody⟩⟩
  | pending _ _ _ hs hpending _ _ hbody _ =>
      exact ⟨rfl, Or.inr ⟨hs, s.generation, hpending, hgen.trans hbody⟩⟩

/-- A violation closes the exchange, whatever was received. -/
theorem runs_fatal (h : Related p s) (msgType : UInt64) (body : List (Value × Value))
    (code : UInt64) (detail : String) (hack : ¬ Acknowledges s msgType body) :
    ∃ p', Runs exchange p
        (.recv (.Message msgType body) :: (s.fatal code detail).2.map .out) p' ∧
      Related p' (s.fatal code detail).1 := by
  have hdue := h.not_due
  have hrecv : Step exchange p (.recv (.Message msgType body)) p := by
    refine step_recv hdue msgType body (fun hmsg n b hp hgen => ?_)
    subst hmsg
    exact hack (h.acknowledges body n b hp hgen)
  refine ⟨.closed, Runs.cons hrecv ?_, Related.closed _ rfl⟩
  -- ERROR is sent, and then the connection closed.
  exact Runs.cons (Step.other p _ rfl hdue) (Runs.cons (Step.close p _ rfl hdue) (Runs.nil _))

/-- HELLO announces the first CONFIG. -/
theorem runs_hello (h : Related p s) (hs : s.state = .WaitHello) (body : List (Value × Value))
    (s' : HostSession) (hs' : s'.state = .WaitConfigAck) (hgen : s'.generation = 1)
    (hpending : s'.pendingGeneration = s.pendingGeneration) :
    ∃ p', Runs exchange p (.recv (.Message HELLO body) ::
        [Output.Send WELCOME s'.welcomeBody, .Send CONFIG s'.configBody].map .out) p' ∧
      Related p' s' := by
  have hdue := h.not_due
  have hwelcome : exchange.view (.out (.Send WELCOME s'.welcomeBody)) = .other :=
    view_send WELCOME _ (by decide)
  have hone : exchange.gen s'.configBody = exchange.num 1 := by
    change intKey s'.configBody 0 = _
    rw [intKey_configBody, hgen]
    rfl
  cases h with
  | waitHello _ _ hnone =>
      -- HELLO and WELCOME are nothing to the discipline, and CONFIG announces the first.
      refine ⟨.awaiting 1 s'.configBody, Runs.cons
        (Step.other _ _ (view_recv HELLO body (by decide)) hdue)
        (Runs.cons (Step.other _ _ hwelcome hdue) (Runs.cons ?_ (Runs.nil _))), ?_⟩
      · exact Step.announce 0 _ s'.configBody (view_config _) hone
      · exact Related.waitAck s' _ hs' (hpending.trans hnone) hgen (intKey_configBody s')
  | waitAck _ _ hs'' => simp only [hs'', reduceCtorEq] at hs
  | streaming _ _ hs'' => simp only [hs'', reduceCtorEq] at hs
  | pending _ _ _ hs'' => simp only [hs'', reduceCtorEq] at hs
  | closed _ hs'' => simp only [hs'', reduceCtorEq] at hs

/-- The first CONFIG_ACK starts the media. -/
theorem runs_configAck (h : Related p s) (hs : s.state = .WaitConfigAck)
    (body : List (Value × Value)) (hgen : intKey body 0 = some (s.generation.toNat : ℤ)) :
    ∃ p', Runs exchange p (.recv (.Message CONFIG_ACK body) ::
        [Output.Send START [], .StartMedia s.multiActive].map .out) p' ∧
      Related p' { s with state := .Streaming } := by
  cases h with
  | waitAck _ first _ hpending hone hbody =>
      have hview : exchange.view (.configAck body) = .ack (exchange.gen first) :=
        (view_configAck body).trans (congrArg _ (hgen.trans hbody.symm))
      have hrest := Related.streaming { s with state := .Streaming } 1 rfl hpending le_rfl hone
      refine ⟨.idle 1, Runs.cons (Step.firstAck _ first hview)
        (runs_other hrest.not_due _ (fun e he => ?_)), hrest⟩
      simp only [List.map_cons, List.map_nil, List.mem_cons, List.not_mem_nil, or_false] at he
      rcases he with rfl | rfl <;> rfl
  | waitHello _ hs' => simp only [hs', reduceCtorEq] at hs
  | streaming _ _ hs' => simp only [hs', reduceCtorEq] at hs
  | pending _ _ _ hs' => simp only [hs', reduceCtorEq] at hs
  | closed _ hs' => simp only [hs', reduceCtorEq] at hs

/-- A VIEWPORT announces a CONFIG: nothing is pending, so the last one is
    acknowledged. -/
theorem runs_viewport (h : Related p s) (hs : s.state = .Streaming)
    (hpending : s.pendingGeneration = none) (body : List (Value × Value)) (s' : HostSession)
    (hs' : s'.state = .Streaming) (hgen : s'.generation = s.generation + 1)
    (hpending' : s'.pendingGeneration = some s'.generation) :
    ∃ p', Runs exchange p
        (.recv (.Message VIEWPORT body) :: [Output.Send CONFIG s'.configBody].map .out) p' ∧
      Related p' s' := by
  have hdue := h.not_due
  cases h with
  | streaming _ n _ _ hn hnum =>
      -- The generation wraps as a `u64`, the count of announcements does not.
      have hnext : s'.generation = UInt64.ofNat (n + 1) := by
        rw [hgen, hnum, UInt64.ofNat_add]
        rfl
      have hannounce : exchange.gen s'.configBody = exchange.num (n + 1) := by
        change intKey s'.configBody 0 = _
        rw [intKey_configBody, hnext]
        rfl
      refine ⟨.awaiting (n + 1) s'.configBody, Runs.cons
        (Step.other _ _ (view_recv VIEWPORT body (by decide)) hdue)
        (Runs.cons (Step.announce n _ _ (view_config _) hannounce) (Runs.nil _)), ?_⟩
      exact Related.pending s' (n + 1) _ hs' hpending' (by omega) hnext (intKey_configBody s')
        (announces_configBody s')
  | waitHello _ hs'' => simp only [hs'', reduceCtorEq] at hs
  | waitAck _ _ hs'' => simp only [hs'', reduceCtorEq] at hs
  | pending _ _ _ _ hsome => simp only [hsome, reduceCtorEq] at hpending
  | closed _ hs'' => simp only [hs'', reduceCtorEq] at hs

/-- The CONFIG_ACK of a pending generation applies the last CONFIG. -/
theorem runs_reconfigAck (h : Related p s) (hs : s.state = .Streaming) (g : UInt64)
    (hpending : s.pendingGeneration = some g) (body : List (Value × Value))
    (hgen : intKey body 0 = some (g.toNat : ℤ)) :
    ∃ p', Runs exchange p
        (.recv (.Message CONFIG_ACK body) :: [Output.Reconfigure s.params].map .out) p' ∧
      Related p' { s with pendingGeneration := none } := by
  cases h with
  | pending _ n b _ hsome hn hnum hbody hsize =>
      -- Nothing has changed the parameters since they were announced.
      rw [hsome, Option.some.injEq] at hpending
      have hview : exchange.view (.configAck body) = .ack (exchange.gen b) :=
        (view_configAck body).trans (congrArg _ (hgen.trans (hpending ▸ hbody.symm)))
      exact ⟨.idle n, Runs.cons (Step.ack n _ b hn hview)
        (Runs.cons (Step.apply n _ b s.params rfl hsize) (Runs.nil _)),
        Related.streaming _ n hs rfl (by omega) hnum⟩
  | waitHello _ hs' => simp only [hs', reduceCtorEq] at hs
  | waitAck _ _ hs' => simp only [hs', reduceCtorEq] at hs
  | streaming _ _ _ hnone => simp only [hnone, reduceCtorEq] at hpending
  | closed _ hs' => simp only [hs', reduceCtorEq] at hs

/-- A frame after the close changes nothing. -/
theorem runs_closed (h : Related p s) (hs : s.state = .Closed) (msgType : UInt64)
    (body : List (Value × Value)) :
    ∃ p', Runs exchange p [.recv (.Message msgType body)] p' ∧ Related p' s := by
  refine ⟨p, Runs.cons (step_recv h.not_due msgType body (fun _ n b hp hgen => ?_))
    (Runs.nil p), h⟩
  -- The exchange may still await an acknowledgement, but a closed session takes none.
  rcases h.acknowledges body n b hp hgen with ⟨-, ⟨hs', -⟩ | ⟨hs', -⟩⟩ <;> simp only [hs,
    reduceCtorEq] at hs'

/-- One frame is a run of the exchange. -/
theorem reacts_runs (h : Related p s) {frame : Decoded} {s' : HostSession}
    {outputs : List Output} (hr : Reacts s frame s' outputs) :
    ∃ p', Runs exchange p (.recv frame :: outputs.map .out) p' ∧ Related p' s' := by
  cases hr with
  | ignored => exact ⟨p, Runs.cons (Step.other p _ rfl h.not_due) (Runs.nil p), h⟩
  | closed msgType body hs => exact runs_closed h hs msgType body
  | bye body hs =>
      exact ⟨.closed, Runs.cons (Step.other p _ (view_recv BYE body (by decide)) h.not_due)
        (Runs.cons (Step.close p _ rfl h.not_due) (Runs.nil _)), Related.closed _ rfl⟩
  | clockPing body hs =>
      exact runs_quiet h CLOCK_PING body (by decide) _ (List.forall_mem_singleton.mpr rfl)
  | fatal msgType body code detail hs hack =>
      -- The session closes, without an announcement being due.
      exact runs_fatal h msgType body code detail hack
  | hello body w w' s' hs hversion hcodec hmax heq =>
      exact runs_hello h hs body s' (heq ▸ rfl) (heq ▸ rfl) (heq ▸ rfl)
  | configAck body hs hgen => exact runs_configAck h hs body hgen
  | idrRequest body hs =>
      exact runs_quiet h IDR_REQUEST body (by decide) _ (List.forall_mem_singleton.mpr rfl)
  | stats body hs =>
      exact runs_quiet h STATS body (by decide) _ (List.forall_mem_singleton.mpr rfl)
  | input body hs => exact runs_quiet h INPUT body (by decide) [] (List.forall_mem_nil _)
  | viewportIgnored body hs =>
      exact runs_quiet h VIEWPORT body (by decide) [] (List.forall_mem_nil _)
  | viewport body rw rh w w' s' hs hpending hwidth hheight hclamp hne heq =>
      exact runs_viewport h hs hpending body s' (by simp only [heq, hs]) (heq ▸ rfl) (heq ▸ rfl)
  | reconfigAck body g hs hpending hgen => exact runs_reconfigAck h hs g hpending body hgen

/-- The log of a session is the log of an exchange. -/
theorem log_runs (frames : List Decoded) :
    ∀ {p : Phase (List (Value × Value))} {s : HostSession}, Related p s →
      ∃ p', Runs exchange p (log s frames) p' ∧ ∀ n b, p' ≠ .due n b := by
  induction frames with
  | nil => exact fun {p s} h => ⟨p, Runs.nil p, h.not_due⟩
  | cons frame frames ih =>
      intro p s h
      rcases reacts_runs h (onFrame_reacts s frame) with ⟨q, hframe, hq⟩
      rcases ih hq with ⟨p', hframes, hdue⟩
      exact ⟨p', hframe.append hframes, hdue⟩

end Step

end Session

end LoomHost
