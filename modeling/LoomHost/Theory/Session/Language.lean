import LoomHost.Theory.Session.Generations
import LoomHost.Theory.Session.Verdicts

/-!
# The Output Language of a Session

What a session says, whatever it is fed: WELCOME and CONFIG, then START and the
media, then the messages of a running session, with CLOCK_PONGs anywhere but
between the two of a pair, and at most one terminator at the end. The state and
the outputs are kept in step by every handler; `Spoken` is the invariant, the
log so far as the state has it.

## Main definitions

* `emitted`: The outputs of a log.
* `Uncut`, `Terminator`, `Language`: The language.
* `Opened`: What HELLO leaves of a session.
* `Spoken`: The log before a state.
* `OutputLanguage`: The laws of the outputs of a session.

## Theorems

* `closes_iff_terminator`: A session closes with a terminator and with nothing else.
* `Spoken.step`, `spoken_log`: Every log is spoken.
* `Spoken.start_media`: What lies before the start of the media.
* `output_language`: Every session speaks the language.
-/

namespace LoomHost

namespace Session

open Cbor Control AckDiscipline

/-- The output of an entry. -/
def Entry.output : Entry → Option Output
  | .out o => some o
  | .recv _ => none

/-- The outputs of a log, in order. -/
def emitted (entries : List Entry) : List Output := entries.filterMap Entry.output

/-- A reply to a CLOCK_PING. -/
def IsPong (o : Output) : Prop := ∃ t0, o = .ClockPong t0

/-- An output of a running session. -/
def IsMedia (o : Output) : Prop :=
  IsPong o ∨ (∃ id, o = .RequestIdr id) ∨ (∃ r, o = .Stats r) ∨ (∃ body, o = .Send CONFIG body) ∨
    ∃ params, o = .Reconfigure params

/-- The outputs of a session that is still open. -/
def Uncut (outputs : List Output) : Prop :=
  ∃ a b c welcome config multi, (∀ o ∈ a, IsPong o) ∧ (∀ o ∈ b, IsPong o) ∧ (∀ o ∈ c, IsMedia o) ∧
    outputs <+: a ++ [.Send WELCOME welcome, .Send CONFIG config] ++ b ++
      [.Send START [], .StartMedia multi] ++ c

/-- The outputs of a session that closes: after BYE, or with an error. -/
inductive Terminator : List Output → Prop
  | bye : Terminator [.Close Errors.NONE]
  | error (code : UInt64) (detail : String) (hcode : code ≠ Errors.NONE) :
      Terminator [.Send ERROR [(.Int 0, .Int code.toNat), (.Int 1, .Text detail)], .Close code]

/-- The language of a session: one terminator may cut it at any point. -/
def Language (outputs : List Output) : Prop :=
  ∃ u t, outputs = u ++ t ∧ Uncut u ∧ (t = [] ∨ Terminator t)

/-- A session closes with a terminator, and with nothing else. -/
theorem closes_iff_terminator (s : HostSession) (hs : s.state ≠ .Closed) (frame : Decoded) :
    (s.onFrame frame).1.state = .Closed ↔ Terminator (s.onFrame frame).2 := by
  cases frame with
  | Ignored => exact iff_of_false hs (fun h => by cases h)
  | Message msgType body =>
      have hverdict := onFrame_verdict s body msgType hs
      generalize s.onFrame (.Message msgType body) = r at hverdict ⊢
      cases hverdict with
      | goes s' outputs _ hs' houtputs =>
          refine iff_of_false hs' (fun h => ?_)
          cases h with
          | bye => exact (houtputs _ List.mem_cons_self).2 _ rfl
          | error code detail _ => exact (houtputs _ List.mem_cons_self).1 _ rfl
      | bye _ => exact iff_of_true rfl Terminator.bye
      | refused code detail _ hcode =>
          refine iff_of_true rfl (Terminator.error code detail ?_)
          rcases hcode with rfl | rfl <;> decide
      | violation _ => exact iff_of_true rfl (Terminator.error _ _ (by decide))

/-- A closed session takes no frame. -/
theorem onFrame_closed (s : HostSession) (hs : s.state = .Closed) (frame : Decoded) :
    s.onFrame frame = (s, []) := by
  cases frame with
  | Ignored => rfl
  | Message msgType body =>
      unfold HostSession.onFrame
      exact if_pos hs

/-- What HELLO leaves of a session that was new: the parameters and the streams
    it was made with, and the first generation. -/
structure Opened (s₀ p : HostSession) : Prop where
  generation : p.generation = 1
  params : p.params = s₀.params
  extraStreams : p.extraStreams = s₀.extraStreams

/-- Entries of a session that waits: frames received and CLOCK_PONGs. -/
def Waiting (entries : List Entry) : Prop := ∀ o, .out o ∈ entries → IsPong o

/-- Entries of a session that streams. -/
def Running (entries : List Entry) : Prop := ∀ o, .out o ∈ entries → IsMedia o

/-- The answer to HELLO. -/
def opening (p : HostSession) : List Entry :=
  [.out (.Send WELCOME p.welcomeBody), .config p.configBody]

/-- The first CONFIG_ACK and the answer to it. -/
def starting (p : HostSession) (ack : List (Value × Value)) : List Entry :=
  [.configAck ack, .out (.Send START []), .out (.StartMedia p.multiActive)]

/-- The log before a state of a session that started as `s₀`. -/
inductive Spoken (s₀ : HostSession) : HostSession → List Entry → Prop
  | waitHello (w : List Entry) (hs : s₀.state = .WaitHello) (hw : Waiting w) : Spoken s₀ s₀ w
  | waitConfigAck (s : HostSession) (a b : List Entry) (hs : s.state = .WaitConfigAck)
      (hopened : Opened s₀ s) (ha : Waiting a) (hb : Waiting b) :
      Spoken s₀ s (a ++ opening s ++ b)
  | streaming (s p : HostSession) (a b c : List Entry) (ack : List (Value × Value))
      (hs : s.state = .Streaming) (hopened : Opened s₀ p)
      (hack : intKey ack 0 = some (p.generation.toNat : ℤ)) (ha : Waiting a) (hb : Waiting b)
      (hc : Running c) :
      Spoken s₀ s (a ++ opening p ++ b ++ starting p ack ++ c)
  | closed (s p : HostSession) (u v : List Entry) (t : List Output) (hs : s.state = .Closed)
      (hp : p.state ≠ .Closed) (hu : Spoken s₀ p u) (ht : Terminator t)
      (hv : ∀ o, .out o ∉ v) : Spoken s₀ s (u ++ t.map .out ++ v)

section Entries

theorem waiting_recv (frame : Decoded) : Waiting [.recv frame] := by
  intro o ho
  exact absurd (List.mem_singleton.mp ho) Entry.noConfusion

theorem waiting_append {v w : List Entry} (hv : Waiting v) (hw : Waiting w) : Waiting (v ++ w) := by
  intro o ho
  rcases List.mem_append.mp ho with ho | ho
  · exact hv o ho
  · exact hw o ho

theorem running_append {v w : List Entry} (hv : Running v) (hw : Running w) : Running (v ++ w) := by
  intro o ho
  rcases List.mem_append.mp ho with ho | ho
  · exact hv o ho
  · exact hw o ho

theorem Waiting.running {w : List Entry} (hw : Waiting w) : Running w :=
  fun o ho => Or.inl (hw o ho)

/-- A frame and the outputs for it. -/
theorem waiting_cons (frame : Decoded) {outputs : List Output} (h : ∀ o ∈ outputs, IsPong o) :
    Waiting (.recv frame :: outputs.map .out) := by
  intro o ho
  rcases List.mem_cons.mp ho with ho | ho
  · exact absurd ho Entry.noConfusion
  · rcases List.mem_map.mp ho with ⟨o', ho', heq⟩
    exact Entry.out.inj heq ▸ h o' ho'

theorem running_cons (frame : Decoded) {outputs : List Output} (h : ∀ o ∈ outputs, IsMedia o) :
    Running (.recv frame :: outputs.map .out) := by
  intro o ho
  rcases List.mem_cons.mp ho with ho | ho
  · exact absurd ho Entry.noConfusion
  · rcases List.mem_map.mp ho with ⟨o', ho', heq⟩
    exact Entry.out.inj heq ▸ h o' ho'

end Entries

section Step

variable {s₀ s s' : HostSession} {w : List Entry} {frame : Decoded} {outputs : List Output}

/-- A frame received that the state does not depend on. -/
theorem Spoken.waits (h : Spoken s₀ s w) (hs : s.state ≠ .Closed) {v : List Entry}
    (hv : Waiting v) : Spoken s₀ s (w ++ v) := by
  cases h with
  | waitHello w hs₀ hw => exact Spoken.waitHello _ hs₀ (waiting_append hw hv)
  | waitConfigAck s a b hs hopened ha hb =>
      rw [List.append_assoc]
      exact Spoken.waitConfigAck s a _ hs hopened ha (waiting_append hb hv)
  | streaming s p a b c ack hs hopened hack ha hb hc =>
      rw [List.append_assoc]
      exact Spoken.streaming s p a b _ ack hs hopened hack ha hb (running_append hc hv.running)
  | closed s p u v t hclosed => exact absurd hclosed hs

/-- A running session goes on. -/
theorem Spoken.runs (h : Spoken s₀ s w) (hs : s.state = .Streaming) (hs' : s'.state = .Streaming)
    {v : List Entry} (hv : Running v) : Spoken s₀ s' (w ++ v) := by
  cases h with
  | waitHello w hs₀ hw => simp only [hs₀, reduceCtorEq] at hs
  | waitConfigAck s a b hs'' _ _ _ => simp only [hs'', reduceCtorEq] at hs
  | streaming s p a b c ack _ hopened hack ha hb hc =>
      rw [List.append_assoc]
      exact Spoken.streaming s' p a b _ ack hs' hopened hack ha hb (running_append hc hv)
  | closed s p u v t hclosed => simp only [hclosed, reduceCtorEq] at hs

/-- HELLO is answered. -/
theorem Spoken.hello (h : Spoken s₀ s w) (hs : s.state = .WaitHello)
    (hs' : s'.state = .WaitConfigAck) (hopened : Opened s s') :
    Spoken s₀ s' (w ++ .recv frame :: opening s') := by
  cases h with
  | waitHello w hs₀ hw =>
      have happ : w ++ .recv frame :: opening s' = (w ++ [.recv frame]) ++ opening s' ++ [] := by
        simp only [List.append_assoc, List.cons_append, List.nil_append, List.append_nil]
      rw [happ]
      exact Spoken.waitConfigAck s' _ [] hs' hopened (waiting_append hw (waiting_recv frame))
        (fun o ho => absurd ho List.not_mem_nil)
  | waitConfigAck s a b hs'' _ _ _ => simp only [hs'', reduceCtorEq] at hs
  | streaming s p a b c ack hs'' _ _ _ _ _ => simp only [hs'', reduceCtorEq] at hs
  | closed s p u v t hclosed => simp only [hclosed, reduceCtorEq] at hs

/-- The first CONFIG_ACK is answered. -/
theorem Spoken.configAck (h : Spoken s₀ s w) (hs : s.state = .WaitConfigAck)
    (hs' : s'.state = .Streaming) (ack : List (Value × Value))
    (hack : intKey ack 0 = some (s.generation.toNat : ℤ)) :
    Spoken s₀ s' (w ++ starting s ack) := by
  cases h with
  | waitConfigAck s a b _ hopened ha hb =>
      have hstream := Spoken.streaming s' s a b [] ack hs' hopened hack ha hb
        (fun o ho => absurd ho List.not_mem_nil)
      rwa [List.append_nil] at hstream
  | waitHello w hs₀ hw => simp only [hs₀, reduceCtorEq] at hs
  | streaming s p a b c ack hs'' _ _ _ _ _ => simp only [hs'', reduceCtorEq] at hs
  | closed s p u v t hclosed => simp only [hclosed, reduceCtorEq] at hs

/-- A session closes with a terminator. -/
theorem Spoken.closes (h : Spoken s₀ s w) (hs : s.state ≠ .Closed) (hs' : s'.state = .Closed)
    (ht : Terminator outputs) : Spoken s₀ s' (w ++ .recv frame :: outputs.map .out) := by
  have happ : w ++ .recv frame :: outputs.map .out =
      (w ++ [.recv frame]) ++ outputs.map .out ++ [] := by
        simp only [List.append_assoc, List.cons_append, List.nil_append, List.append_nil]
  rw [happ]
  exact Spoken.closed s' s _ [] outputs hs' hs (h.waits hs (waiting_recv frame)) ht
    (fun o => List.not_mem_nil)

/-- Nothing is said after the close. -/
theorem Spoken.silent (h : Spoken s₀ s w) (hs : s.state = .Closed) :
    Spoken s₀ s (w ++ [.recv frame]) := by
  cases h with
  | closed s p u v t _ hp hu ht hv =>
      rw [List.append_assoc]
      refine Spoken.closed s p u _ t hs hp hu ht (fun o ho => ?_)
      rcases List.mem_append.mp ho with ho | ho
      · exact hv o ho
      · exact absurd (List.mem_singleton.mp ho) Entry.noConfusion
  | waitHello w hs₀ hw => simp only [hs₀, reduceCtorEq] at hs
  | waitConfigAck s a b hs'' _ _ _ => simp only [hs'', reduceCtorEq] at hs
  | streaming s p a b c ack hs'' _ _ _ _ _ => simp only [hs'', reduceCtorEq] at hs

/-- A frame that leaves the session open. -/
theorem Spoken.goes (h : Spoken s₀ s w) (hr : Reacts s frame s' outputs)
    (hs' : s'.state ≠ .Closed) : Spoken s₀ s' (w ++ .recv frame :: outputs.map .out) := by
  cases hr with
  | ignored => exact h.waits hs' (waiting_recv _)
  | closed msgType body hs => exact absurd hs hs'
  | bye body _ => exact absurd rfl hs'
  | clockPing body hs =>
      exact h.waits hs (waiting_cons _ (List.forall_mem_singleton.mpr ⟨_, rfl⟩))
  | fatal msgType body code detail _ _ => exact absurd rfl hs'
  | hello body w' h' s' hs _ _ _ heq =>
      exact h.hello hs (heq ▸ rfl) ⟨heq ▸ rfl, heq ▸ rfl, heq ▸ rfl⟩
  | configAck body hs hgen => exact h.configAck hs rfl body hgen
  | idrRequest body hs =>
      -- The outputs of a running session are those of the media loop.
      have hmedia : IsMedia (.RequestIdr (UInt16.ofInt ((intKey body 1).getD 0))) :=
        Or.inr (Or.inl ⟨_, rfl⟩)
      exact h.runs hs hs (running_cons _ (List.forall_mem_singleton.mpr hmedia))
  | stats body hs =>
      have hmedia : IsMedia (.Stats (StatsReport.fromBody body)) :=
        Or.inr (Or.inr (Or.inl ⟨_, rfl⟩))
      exact h.runs hs hs (running_cons _ (List.forall_mem_singleton.mpr hmedia))
  | input body hs => exact h.runs hs hs (running_cons _ (List.forall_mem_nil _))
  | viewportIgnored body hs => exact h.runs hs hs (running_cons _ (List.forall_mem_nil _))
  | viewport body rw rh w' h' s' hs _ _ _ _ _ heq =>
      have hmedia : IsMedia (.Send CONFIG s'.configBody) :=
        Or.inr (Or.inr (Or.inr (Or.inl ⟨_, rfl⟩)))
      exact h.runs hs (heq ▸ hs) (running_cons _ (List.forall_mem_singleton.mpr hmedia))
  | reconfigAck body g hs _ _ =>
      have hmedia : IsMedia (.Reconfigure s.params) :=
        Or.inr (Or.inr (Or.inr (Or.inr ⟨_, rfl⟩)))
      refine h.runs hs ?_ (running_cons _ (List.forall_mem_singleton.mpr hmedia))
      exact hs

/-- One frame more. -/
theorem Spoken.step (h : Spoken s₀ s w) (frame : Decoded) :
    Spoken s₀ (s.onFrame frame).1 (w ++ .recv frame :: (s.onFrame frame).2.map .out) := by
  by_cases hs : s.state = .Closed
  · rw [onFrame_closed s hs frame]
    exact h.silent hs
  by_cases hs' : (s.onFrame frame).1.state = .Closed
  · exact h.closes hs hs' ((closes_iff_terminator s hs frame).mp hs')
  · exact h.goes (onFrame_reacts s frame) hs'

/-- Every log is spoken. -/
theorem spoken_log (frames : List Decoded) : ∀ {s : HostSession} {w : List Entry}, Spoken s₀ s w →
    Spoken s₀ (s.run frames) (w ++ log s frames) := by
  induction frames with
  | nil => exact fun {s w} h => (List.append_nil w).symm ▸ h
  | cons frame frames ih =>
      intro s w h
      have hframes := ih (h.step frame)
      rw [List.append_assoc] at hframes
      exact hframes

end Step

/-- A session just made, waiting for HELLO. -/
theorem spoken_of_new (hostName : String) (sessionId : Vector UInt8 16) (params : MediaParams)
    (extraStreams : List StreamConfig) (frames : List Decoded) :
    Spoken (HostSession.new hostName sessionId params extraStreams)
      ((HostSession.new hostName sessionId params extraStreams).run frames)
      (log (HostSession.new hostName sessionId params extraStreams) frames) :=
  spoken_log frames (Spoken.waitHello [] rfl (fun _ ho => absurd ho List.not_mem_nil))

section Emitted

theorem emitted_append (v w : List Entry) : emitted (v ++ w) = emitted v ++ emitted w :=
  List.filterMap_append

theorem mem_emitted {o : Output} {w : List Entry} : o ∈ emitted w ↔ .out o ∈ w := by
  unfold emitted
  rw [List.mem_filterMap]
  constructor
  · rintro ⟨e, he, ho⟩
    cases e with
    | recv frame => exact absurd ho (by simp only [Entry.output, reduceCtorEq, not_false_eq_true])
    | out o' => exact Option.some.inj ho ▸ he
  · exact fun h => ⟨.out o, h, rfl⟩

theorem emitted_map_out (outputs : List Output) : emitted (outputs.map .out) = outputs := by
  induction outputs with
  | nil => rfl
  | cons o outputs ih => exact congrArg (o :: ·) ih

theorem emitted_eq_nil {w : List Entry} (h : ∀ o, .out o ∉ w) : emitted w = [] := by
  refine List.eq_nil_iff_forall_not_mem.mpr (fun o ho => ?_)
  exact h o (mem_emitted.mp ho)

/-- The log of an open session is uncut. -/
theorem Spoken.uncut {s₀ s : HostSession} {w : List Entry} (h : Spoken s₀ s w)
    (hs : s.state ≠ .Closed) : Uncut (emitted w) := by
  have hpongs {v : List Entry} (hv : Waiting v) : ∀ o ∈ emitted v, IsPong o :=
    fun o ho => hv o (mem_emitted.mp ho)
  cases h with
  | waitHello w _ hw =>
      refine ⟨emitted w, [], [], [], [], false, hpongs hw, by simp only [List.not_mem_nil,
        IsEmpty.forall_iff, implies_true], by simp only [List.not_mem_nil, IsEmpty.forall_iff,
          implies_true], ?_⟩
      simp only [List.append_assoc]
      exact List.prefix_append _ _
  | waitConfigAck s a b _ _ ha hb =>
      refine ⟨emitted a, emitted b, [], s.welcomeBody, s.configBody, false, hpongs ha, hpongs hb,
        by simp only [List.not_mem_nil, IsEmpty.forall_iff, implies_true], ?_⟩
      rw [emitted_append, emitted_append, List.append_assoc _ _ []]
      exact List.prefix_append _ _
  | streaming s p a b c ack _ _ _ ha hb hc =>
      refine ⟨emitted a, emitted b, emitted c, p.welcomeBody, p.configBody, p.multiActive,
        hpongs ha, hpongs hb, fun o ho => hc o (mem_emitted.mp ho), ?_⟩
      rw [emitted_append, emitted_append, emitted_append, emitted_append]
      exact List.prefix_rfl
  | closed s p u v t hclosed => exact absurd hclosed hs

/-- Every log is in the language. -/
theorem Spoken.language {s₀ s : HostSession} {w : List Entry} (h : Spoken s₀ s w) :
    Language (emitted w) := by
  by_cases hs : s.state = .Closed
  · cases h with
    | closed s p u v t _ hp hu ht hv =>
        refine ⟨emitted u, t, ?_, hu.uncut hp, Or.inr ht⟩
        rw [emitted_append, emitted_append, emitted_map_out, emitted_eq_nil hv, List.append_nil]
    | waitHello w hs₀ _ => simp only [hs₀, reduceCtorEq] at hs
    | waitConfigAck s a b hs' _ _ _ => simp only [hs', reduceCtorEq] at hs
    | streaming s p a b c ack hs' _ _ _ _ _ => simp only [hs', reduceCtorEq] at hs
  · exact ⟨emitted w, [], (List.append_nil _).symm, h.uncut hs, Or.inl rfl⟩

end Emitted

section StartMedia

/-- No start of the media among these. -/
def Unstarted (w : List Entry) : Prop := ∀ multi, .out (.StartMedia multi) ∉ w

theorem Running.unstarted {w : List Entry} (h : Running w) : Unstarted w := by
  intro multi hmem
  simpa only [IsMedia, IsPong, reduceCtorEq, exists_const, exists_false, or_self] using h _ hmem

theorem Terminator.unstarted {t : List Output} (h : Terminator t) : Unstarted (t.map .out) := by
  intro multi hmem
  cases h <;> simp only [List.map_cons, List.map_nil, List.mem_cons, Entry.out.injEq, reduceCtorEq,
    List.not_mem_nil, or_self] at hmem

theorem unstarted_append {v w : List Entry} (hv : Unstarted v) (hw : Unstarted w) :
    Unstarted (v ++ w) := by
  intro multi hmem
  rcases List.mem_append.mp hmem with hmem | hmem
  · exact hv multi hmem
  · exact hw multi hmem

theorem unstarted_opening (p : HostSession) : Unstarted (opening p) := by
  intro multi hmem
  simp only [opening, Entry.config, List.mem_cons, Entry.out.injEq, reduceCtorEq, List.not_mem_nil,
    or_self] at hmem

/-- An entry of one of two parts, which the second has not. -/
theorem append_cons_left {α : Type*} {l₁ l₂ u w : List α} {x : α} (h : l₁ ++ l₂ = u ++ x :: w)
    (hx : x ∉ l₂) : ∃ w', w = w' ++ l₂ ∧ l₁ = u ++ x :: w' := by
  rcases List.append_eq_append_iff.mp h with ⟨v, rfl, hl₂⟩ | ⟨v, rfl, hw⟩
  · exact absurd (hl₂ ▸ List.mem_append_right v List.mem_cons_self) hx
  · cases v with
    | nil =>
        rw [List.nil_append] at hw
        exact absurd (hw ▸ List.mem_cons_self) hx
    | cons y v =>
        injection hw with hy hw
        exact ⟨v, hw, by rw [hy]⟩

/-- What lies before the start of the media: HELLO is answered, the first CONFIG
    is acknowledged and START sent. It comes once. -/
theorem Spoken.start_media {s₀ s : HostSession} {l : List Entry} (h : Spoken s₀ s l) :
    ∀ {u w : List Entry} {multi : Bool}, l = u ++ .out (.StartMedia multi) :: w →
      ∃ p a b ack, Opened s₀ p ∧ p.multiActive = multi ∧ Waiting a ∧ Waiting b ∧
        intKey ack 0 = some (p.generation.toNat : ℤ) ∧
        u = a ++ opening p ++ b ++ [.configAck ack, .out (.Send START [])] ∧
        Unstarted u ∧ Unstarted w := by
  induction h with
  | waitHello l _ hl =>
      intro u w multi heq
      exact absurd (heq ▸ List.mem_append_right u List.mem_cons_self) (hl.running.unstarted multi)
  | waitConfigAck s a b _ _ ha hb =>
      intro u w multi heq
      refine absurd (heq ▸ List.mem_append_right u List.mem_cons_self) ?_
      exact unstarted_append (unstarted_append ha.running.unstarted (unstarted_opening s))
        hb.running.unstarted multi
  | streaming s p a b c ack _ hopened hack ha hb hc =>
      intro u w multi heq
      have hbefore :
          Unstarted (a ++ opening p ++ b ++ [.configAck ack, .out (.Send START [])]) := by
        refine unstarted_append (unstarted_append (unstarted_append ha.running.unstarted
          (unstarted_opening p)) hb.running.unstarted) (fun m hm => ?_)
        simp only [Entry.configAck, List.mem_cons, reduceCtorEq, Entry.out.injEq, List.not_mem_nil,
          or_self] at hm
      have hsplit : a ++ opening p ++ b ++ starting p ack ++ c =
          (a ++ opening p ++ b ++ [.configAck ack, .out (.Send START [])]) ++
            .out (.StartMedia p.multiActive) :: c := by
        simp only [List.append_assoc, starting, List.cons_append, List.nil_append]
      rw [hsplit] at heq
      -- Neither side of it has another.
      rcases (List.append_cons_inj_of_notMem (hbefore multi) (hc.unstarted multi)).mp heq with
        ⟨rfl, hmulti, rfl⟩
      exact ⟨p, a, b, ack, hopened, Output.StartMedia.inj (Entry.out.inj hmulti), ha, hb, hack, rfl,
        hbefore, hc.unstarted⟩
  | closed s p u' v t _ _ _ ht hv ih =>
      intro u w multi heq
      have hend : Unstarted (t.map .out ++ v) :=
        unstarted_append ht.unstarted (fun m hm => hv _ hm)
      rw [List.append_assoc] at heq
      rcases append_cons_left heq (hend multi) with ⟨w', rfl, heq'⟩
      rcases ih heq' with ⟨q, a, b, ack, hopened, hmulti, ha, hb, hack, hu, hbefore, hw'⟩
      exact ⟨q, a, b, ack, hopened, hmulti, ha, hb, hack, hu, hbefore, unstarted_append hw' hend⟩

end StartMedia

/-- A session that waits announces nothing. -/
theorem configs_waiting {w : List Entry} (h : Waiting w) : configs w = [] := by
  refine List.eq_nil_iff_forall_not_mem.mpr (fun body hbody => ?_)
  rcases h _ (mem_configs.mp hbody) with ⟨t0, ht0⟩
  exact absurd ht0 Output.noConfusion

/-- The answer to HELLO announces the first CONFIG, and waiting no other. -/
theorem configs_opening {a b : List Entry} (ha : Waiting a) (hb : Waiting b) (p : HostSession) :
    configs (a ++ opening p ++ b) = [p.configBody] := by
  have hopening : configs (opening p) = [p.configBody] := rfl
  rw [configs, announced, List.filterMap_append, List.filterMap_append]
  change configs a ++ configs (opening p) ++ configs b = _
  rw [configs_waiting ha, configs_waiting hb, hopening, List.nil_append, List.append_nil]

/-- A session waits for HELLO with nothing announced and its parameters. -/
theorem Spoken.of_waitHello {s₀ s : HostSession} {w : List Entry} (h : Spoken s₀ s w)
    (hs : s.state = .WaitHello) : s = s₀ ∧ configs w = [] := by
  cases h with
  | waitHello w _ hw => exact ⟨rfl, configs_waiting hw⟩
  | waitConfigAck s a b hs' _ _ _ => simp only [hs', reduceCtorEq] at hs
  | streaming s p a b c ack hs' _ _ _ _ _ => simp only [hs', reduceCtorEq] at hs
  | closed s p u v t hclosed => simp only [hclosed, reduceCtorEq] at hs

theorem configs_append (v w : List Entry) : configs (v ++ w) = configs v ++ configs w :=
  List.filterMap_append

theorem run_append (s : HostSession) (u v : List Decoded) : s.run (u ++ v) = (s.run u).run v :=
  List.foldl_append

theorem log_append (u v : List Decoded) :
    ∀ s : HostSession, log s (u ++ v) = log s u ++ log (s.run u) v := by
  induction u with
  | nil => exact fun s => rfl
  | cons frame u ih =>
      intro s
      rw [List.cons_append, log, log, ih, List.append_assoc]
      rfl

/-- An output of a log is one for some frame, in the state before it. -/
theorem mem_log {frames : List Decoded} {o : Output} : ∀ {s : HostSession},
    .out o ∈ log s frames ↔
      ∃ u frame v, frames = u ++ frame :: v ∧ o ∈ ((s.run u).onFrame frame).2 := by
  induction frames with
  | nil =>
      intro s
      rw [log]
      refine iff_of_false List.not_mem_nil ?_
      -- No frame, no output.
      rintro ⟨u, frame, v, heq, -⟩
      simp only [List.nil_eq, List.append_eq_nil_iff, reduceCtorEq, and_false] at heq
  | cons first frames ih =>
      intro s
      rw [log, List.mem_append, List.mem_cons, ih]
      constructor
      · rintro ((h | h) | ⟨u, frame, v, rfl, ho⟩)
        · -- The entry is the frame itself, or one of its outputs, or is found later.
          exact absurd h Entry.noConfusion
        · rcases List.mem_map.mp h with ⟨o', ho, heq⟩
          exact ⟨[], first, frames, rfl, Entry.out.inj heq ▸ ho⟩
        · exact ⟨first :: u, frame, v, rfl, ho⟩
      · rintro ⟨_ | ⟨first', u⟩, frame, v, heq, ho⟩
        · -- The frame is the first one, or is found later.
          rw [List.nil_append, List.cons.injEq] at heq
          exact Or.inl (Or.inr (List.mem_map_of_mem (heq.1 ▸ ho)))
        · rw [List.cons_append, List.cons.injEq] at heq
          rcases heq with ⟨rfl, rfl⟩
          exact Or.inr ⟨u, frame, v, rfl, ho⟩

/-- The laws of the outputs of a session. -/
structure OutputLanguage (s₀ : HostSession) (frames : List Decoded) : Prop where
  language : Language (emitted (log s₀ frames))
  /-- The terminator is emitted exactly when the state becomes Closed. -/
  terminator : ∀ frame, (s₀.run frames).state ≠ .Closed →
    (((s₀.run frames).onFrame frame).1.state = .Closed ↔
      Terminator ((s₀.run frames).onFrame frame).2)
  /-- No frame after it produces any output or changes the state. -/
  silent : ∀ frame, (s₀.run frames).state = .Closed →
    (s₀.run frames).onFrame frame = (s₀.run frames, [])
  /-- The media start once, right after START, which answers the CONFIG_ACK of
      the first CONFIG, of generation 1. -/
  start_media : ∀ u w multi, log s₀ frames = u ++ .out (.StartMedia multi) :: w →
    (∀ m, .out (.StartMedia m) ∉ u ∧ .out (.StartMedia m) ∉ w) ∧
    ∃ u' ack config, u = u' ++ [.configAck ack, .out (.Send START [])] ∧
      configs u' = [config] ∧ intKey config 0 = some 1 ∧ intKey ack 0 = some 1

/-- Every session speaks the language, whatever frames it is fed. -/
theorem output_language (hostName : String) (sessionId : Vector UInt8 16) (params : MediaParams)
    (extraStreams : List StreamConfig) (frames : List Decoded) :
    OutputLanguage (HostSession.new hostName sessionId params extraStreams) frames := by
  have hspoken := spoken_of_new hostName sessionId params extraStreams frames
  refine ⟨hspoken.language, fun frame hs => closes_iff_terminator _ hs frame,
    fun frame hs => onFrame_closed _ hs frame, fun u w multi heq => ?_⟩
  rcases hspoken.start_media heq with
    ⟨p, a, b, ack, hopened, -, ha, hb, hack, hu, hbefore, hafter⟩
  refine ⟨fun m => ⟨hbefore m, hafter m⟩, a ++ opening p ++ b, ack, p.configBody, hu,
    configs_opening ha hb p, ?_, ?_⟩
  · rw [intKey_configBody, hopened.generation]
    rfl
  · rw [hack, hopened.generation]
    rfl

end Session

end LoomHost
