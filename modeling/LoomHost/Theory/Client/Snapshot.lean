import LoomHost.Theory.Client.Messages
import LoomHost.Theory.Reassembly.Cadence
import LoomHost.Theory.System.Advertised

/-!
# The State of a Conversation

What the two parties have said, and how far each has come, is known from three
numbers: where the client is, how many of its messages the host has taken, and how
many of its answers to them the host has applied. A step of either moves one of the
three and leaves the rest, so every schedule goes through such snapshots, and the
media threads and the network can only be slow.

## Main definitions

* `Says`, `answers`: The messages of the client, and what the session makes of them.
* `Snapshot`: The state of both at three numbers.
* `Fair`: What the client's greeting has to meet.
* `progress`: How many steps have been taken.

## Theorems

* `Snapshot.client`, `Snapshot.deliver`, `Snapshot.apply`: The steps that move a number.
* `Snapshot.step`: Every step leads from one snapshot to another.
* `inStep_exec`: The snapshots of every run.
* `Snapshot.goes_on`: There is always a step to take.
-/

namespace LoomHost

namespace Client

open WordCast Cbor Control Session Conn Reassembly Datagram

section Snapshot

variable (cfg : HostCfg) (s : HostSession) (g : Greeting)

/-- The frames that the requests among the events name. -/
def requests (events : List Event) : List UInt32 :=
  events.filterMap fun ev =>
    match ev with
    | .IdrRequest _ lastGood => some lastGood
    | .Deliver _ _ _ => none

namespace Stage

/-- What the client has sent so far. -/
def asked : Stage → List Message
  | .greet | .failed => []
  | .awaitWelcome | .awaitConfig | .acknowledge => [(HELLO, helloBody g)]
  | .awaitStart => [(HELLO, helloBody g), (CONFIG_ACK, ackBody)]
  | .receiving reasm => (HELLO, helloBody g) :: (CONFIG_ACK, ackBody) ::
      (requests reasm.events).map fun lastGood => (IDR_REQUEST, idrBody lastGood)

/-- How many of the messages of the handshake the client has sent. -/
def said : Stage → ℕ
  | .greet | .failed => 0
  | .awaitWelcome | .awaitConfig | .acknowledge => 1
  | .awaitStart | .receiving _ => 2

/-- How many frames of the handshake the client has read. -/
def heard : Stage → ℕ
  | .greet | .awaitWelcome | .failed => 0
  | .awaitConfig => 1
  | .acknowledge | .awaitStart => 2
  | .receiving _ => 3

/-- How many requests the client has sent. -/
def requested : Stage → ℕ
  | .receiving reasm => (requests reasm.events).length
  | _ => 0

theorem length_asked (stage : Stage) :
    (stage.asked g).length = stage.said + stage.requested := by
  cases stage <;> simp only [asked, List.length_nil, said, requested, add_zero, List.length_cons,
    zero_add, Nat.reduceAdd, List.length_map]
  omega

end Stage

/-- What the session answers to the first `n` messages. -/
def answers (n : ℕ) : List Output := (List.range n).flatMap (answer s g)

/-- The frame an output is written as, if it is. -/
def written : Output → List (List UInt8)
  | .Send msgType body => [encodeFrame msgType body]
  | _ => []

/-- The frames of the handshake the host writes. -/
def replies : List (List UInt8) :=
  [encodeFrame WELCOME (greeted s g).welcomeBody, encodeFrame CONFIG (greeted s g).configBody,
    encodeFrame START []]

theorem answers_succ (n : ℕ) : answers s g (n + 1) = answers s g n ++ answer s g n := by
  unfold answers
  rw [List.range_succ, List.flatMap_append, List.flatMap_singleton]

theorem answers_mono {n k : ℕ} (h : n ≤ k) : answers s g n <+: answers s g k := by
  induction h with
  | refl => exact List.prefix_refl _
  | step _ ih =>
      rw [answers_succ]
      exact ih.trans (List.prefix_append _ _)

theorem length_answers (n : ℕ) : (answers s g (n + 2)).length = n + 4 := by
  induction n with
  | zero => rfl
  | succ n ih =>
      rw [answers_succ, List.length_append, ih]
      rfl

theorem written_answers (n : ℕ) : (answers s g (n + 2)).flatMap written = replies s g := by
  induction n with
  | zero => rfl
  | succ n ih =>
      rw [answers_succ, List.flatMap_append, ih]
      rfl

/-- What has been written is some of the handshake. -/
theorem written_prefix (n m : ℕ) :
    ((answers s g n).take m).flatMap written <+: replies s g := by
  rw [← written_answers s g n]
  exact ((List.take_prefix m _).trans (answers_mono s g (Nat.le_add_right n 2))).flatMap written

variable {E P : Type*} (env : Env)

/-- The client is at its stage, the host has taken `n` messages and applied `m` of its
    answers. -/
structure Snapshot (n m : ℕ) (σ : State E P) : Prop where
  asked : n ≤ (σ.stage.asked g).length
  toHost : σ.toHost = ((σ.stage.asked g).drop n).map fun x => encodeFrame x.1 x.2
  session : σ.host.session = sessionAfter s g n
  applied : m ≤ (answers s g n).length
  outputs : σ.host.outputs = (answers s g n).drop m
  sent : σ.host.driver.sent = ((answers s g n).take m).flatMap written
  media : σ.host.driver.media = ((answers s g n).take m).foldl (System.handles cfg) []
  closed : σ.host.driver.closed = none
  alive : σ.stage ≠ .failed
  heard : σ.heard = σ.stage.heard
  heard_le : σ.heard ≤ σ.host.driver.sent.length
  returned : σ.host.returned = true → σ.host.lost = true ∨ ∃ k e, env.writes k = .error e

/-- What both parties are given: the reader decodes, and the client greets with the one
    version in a frame that is not too long, and offers the codec. -/
structure Fair (limit : ℕ) (fromReader : List UInt8 → Option Rfc8949.Item) : Prop where
  reader : ReadsItems limit fromReader
  nesting : 5 ≤ limit
  fresh : s.state = .WaitHello
  codec : 1 ∈ g.codecs
  hello : Sendable limit (HELLO, helloBody g)
  welcome : (envelope WELCOME (greeted s g).welcomeBody).toCanonical.length ≤ MAX_FRAME_BODY
  config : (envelope CONFIG (greeted s g).configBody).toCanonical.length ≤ MAX_FRAME_BODY

variable {cfg s g env} {limit : ℕ} {fromReader : List UInt8 → Option Rfc8949.Item}

/-- The `n`-th message of the client. -/
inductive Says (g : Greeting) : ℕ → Message → Prop
  | hello : Says g 0 (HELLO, helloBody g)
  | ack : Says g 1 (CONFIG_ACK, ackBody)
  | idr (n : ℕ) (lastGood : UInt32) : Says g (n + 2) (IDR_REQUEST, idrBody lastGood)

theorem says_of_asked {stage : Stage} {n : ℕ} {m : Message} (h : (stage.asked g)[n]? = some m) :
    Says g n m := by
  rcases n with - | - | n
  · cases stage <;> cases h <;> exact Says.hello
  · cases stage <;> cases h <;> exact Says.ack
  · cases stage with
    | receiving reasm =>
        -- Behind the greeting and the acknowledgement come the requests.
        have hrequest : ((requests reasm.events).map fun lastGood =>
            (IDR_REQUEST, idrBody lastGood))[n]? = some m := h
        rw [List.getElem?_map, Option.map_eq_some_iff] at hrequest
        rcases hrequest with ⟨lastGood, -, rfl⟩
        exact Says.idr n lastGood
    | _ => cases h

/-- Every message of the client is decoded, and answered as it should be. -/
theorem Fair.reacts (hfair : Fair s g limit fromReader) {n : ℕ} {m : Message}
    (hm : Says g n m) :
    taken (P := P) fromReader (encodeFrame m.1 m.2) = .receive (.Message m.1 m.2) ∧
      (sessionAfter s g n).onFrame (.Message m.1 m.2) =
        (sessionAfter s g (n + 1), answer s g n) := by
  cases hm with
  | hello =>
      have hdecode := decode_hello hfair.reader hfair.hello
      exact ⟨by simp only [taken, hdecode], onFrame_hello s g hfair.fresh hfair.codec⟩
  | ack =>
      have hdecode := decode_ack hfair.reader hfair.nesting
      exact ⟨by simp only [taken, hdecode], onFrame_ack s g⟩
  | idr n lastGood =>
      have hdecode := decode_idr hfair.reader hfair.nesting lastGood
      exact ⟨by simp only [taken, hdecode], onFrame_idr s g lastGood⟩

/-- Every frame of the handshake is read as what it is. -/
theorem Fair.reads (hfair : Fair s g limit fromReader) {stage next : Stage} {msgType : UInt64}
    {frame : List UInt8} (hexpects : stage.expects = some (msgType, next))
    (hframe : (replies s g)[stage.heard]? = some frame) :
    readMsg fromReader frame = some msgType := by
  have hread {ty : UInt64} {body : List (Value × Value)} (hm : HostMessage (ty, body))
      (hfits : (envelope ty body).toCanonical.length ≤ MAX_FRAME_BODY) :
      readMsg fromReader (encodeFrame ty body) = some ty := by
    rcases hm.delivered limit fromReader hfair.reader hfair.nesting hfits with ⟨body', hdecode, -⟩
    simp only [readMsg, hdecode]
  cases stage <;>
    simp only [Stage.expects, Option.some.injEq, Prod.mk.injEq, reduceCtorEq] at hexpects
  · rcases hexpects with ⟨rfl, -⟩
    rw [← Option.some.inj hframe]
    exact hread (HostMessage.welcome _) hfair.welcome
  · rcases hexpects with ⟨rfl, -⟩
    rw [← Option.some.inj hframe]
    exact hread (HostMessage.config _) hfair.config
  · rcases hexpects with ⟨rfl, -⟩
    rw [← Option.some.inj hframe]
    exact hread HostMessage.start (by decide)

/-- An event that a push adds is the one request that is sent, or none. -/
theorem requests_push (reasm : Reassembler) (tMs : Int64) (dg : List UInt8) :
    requests (pushDatagram reasm tMs dg).1.events =
      requests reasm.events ++ (pushDatagram reasm tMs dg).2.toList := by
  unfold pushDatagram
  cases Media.received [] 0 (tMs, dg) with
  | none => simp only [Option.toList_none, List.append_nil]
  | some x =>
      -- A push adds one event at most.
      have houtcome := reasm.push_outcome x.1 x.2
      dsimp only
      generalize reasm.push x.1 x.2 = reasm' at houtcome
      cases houtcome with
      | quiet hevents _ _ =>
          simp only [hevents, idrLastGood, List.drop_length, List.foldl_nil, Option.toList_none,
            List.append_nil]
      | delivered seq keyframe hevents _ _ =>
          simp only [requests, hevents, List.filterMap_append, List.filterMap_cons_none,
            List.filterMap_nil, List.append_nil, idrLastGood, List.drop_left', List.foldl_cons,
            List.foldl_nil, Option.toList_none]
      | waited last _ _ hevents _ _ =>
          simp only [hevents, idrLastGood, List.drop_length, List.foldl_nil, Option.toList_none,
            List.append_nil]
      | requested _ hevents _ _ =>
          simp only [requests, hevents, List.filterMap_append, Option.some.injEq,
            List.filterMap_cons_some, List.filterMap_nil, idrLastGood, List.drop_left',
            List.foldl_cons, List.foldl_nil, Option.toList_some]

/-- The client goes to another stage, with more to say. -/
theorem Snapshot.client {n m : ℕ} {σ : State E P} (h : Snapshot cfg s g env n m σ) {stage : Stage}
    {more : List Message} (hasked : stage.asked g = σ.stage.asked g ++ more)
    (halive : stage ≠ .failed) (hle : stage.heard ≤ σ.host.driver.sent.length) :
    Snapshot cfg s g env n m
      { σ with
        stage
        toHost := σ.toHost ++ more.map fun x => encodeFrame x.1 x.2
        heard := stage.heard } where
  asked := by
    rw [hasked, List.length_append]
    exact h.asked.trans (Nat.le_add_right _ _)
  toHost := by
    rw [hasked, List.drop_append_of_le_length h.asked, List.map_append, h.toHost]
  session := h.session
  applied := h.applied
  outputs := h.outputs
  sent := h.sent
  media := h.media
  closed := h.closed
  alive := halive
  heard := rfl
  heard_le := hle
  returned := h.returned

/-- A step of the host that has nothing to do with the session. -/
theorem Snapshot.quiet {n m : ℕ} {σ : State E P} (h : Snapshot cfg s g env n m σ)
    {host : System.State E P} (hsession : host.session = σ.host.session)
    (houtputs : host.outputs = σ.host.outputs) (hdriver : host.driver = σ.host.driver)
    (hreturned : host.returned = true →
      σ.host.returned = true ∨ host.lost = true ∨ ∃ k e, env.writes k = .error e)
    (hlost : σ.host.lost = true → host.lost = true) :
    Snapshot cfg s g env n m { σ with host } where
  asked := h.asked
  toHost := h.toHost
  session := hsession.trans h.session
  applied := h.applied
  outputs := houtputs.trans h.outputs
  sent := hdriver ▸ h.sent
  media := hdriver ▸ h.media
  closed := hdriver ▸ h.closed
  alive := h.alive
  heard := h.heard
  heard_le := hdriver ▸ h.heard_le
  returned := fun hr => (hreturned hr).elim (fun hr => (h.returned hr).imp_left hlost) id

variable {dropPercent : UInt32} {world : ℕ → Media.Backend E P}

/-- The message at the head of the control stream. -/
theorem Snapshot.head {n m : ℕ} {σ : State E P} (h : Snapshot cfg s g env n m σ)
    {frame : List UInt8} {rest : List (List UInt8)} (hqueue : σ.toHost = frame :: rest) :
    ∃ x, (σ.stage.asked g)[n]? = some x ∧ frame = encodeFrame x.1 x.2 ∧
      rest = ((σ.stage.asked g).drop (n + 1)).map fun x => encodeFrame x.1 x.2 := by
  have htoHost := h.toHost
  rw [hqueue] at htoHost
  cases hdrop : (σ.stage.asked g).drop n with
  | nil => simp only [hdrop, List.map_nil, reduceCtorEq] at htoHost
  | cons x more =>
      rw [hdrop, List.map_cons, List.cons.injEq] at htoHost
      refine ⟨x, ?_, htoHost.1, ?_⟩
      · rw [← List.head?_drop, hdrop]
        rfl
      · rw [htoHost.2, ← List.drop_drop, hdrop]
        rfl

/-- The host takes a message once it has applied all it has answered. -/
theorem Snapshot.deliver (hfair : Fair s g limit fromReader) {n m : ℕ} {σ : State E P}
    (h : Snapshot cfg s g env n m σ) {frame : List UInt8} {rest : List (List UInt8)}
    (hqueue : σ.toHost = frame :: rest) {host : System.State E P} {events : List System.Event}
    (hstep : System.step env cfg dropPercent world σ.host (taken fromReader frame) =
      some (host, events)) :
    Snapshot cfg s g env (n + 1) m { σ with toHost := rest, host } ∧
      host.returned = false ∧ σ.host.returned = false := by
  rcases h.head hqueue with ⟨x, hx, rfl, hrest⟩
  rcases hfair.reacts (P := P) (says_of_asked hx) with ⟨htaken, hreacts⟩
  rw [htaken] at hstep
  simp only [System.step, System.State.reading, Option.ite_none_right_eq_some, Bool.and_eq_true,
    Bool.not_eq_true', List.isEmpty_iff] at hstep
  rcases hstep with ⟨⟨⟨hreturned, houtputs⟩, -⟩, heq⟩
  rw [h.session, hreacts] at heq
  cases heq
  -- The host reads only when it has applied all of its answers.
  have hm : m = (answers s g n).length := by
    rw [h.outputs, List.drop_eq_nil_iff] at houtputs
    -- The answers to the new message are put behind those applied.
    exact le_antisymm h.applied houtputs
  have htake : (answers s g (n + 1)).take m = (answers s g n).take m := by
    rw [answers_succ, List.take_append_of_le_length h.applied]
  refine ⟨?_, hreturned, hreturned⟩
  exact
    { asked := (List.getElem?_eq_some_iff.mp hx).1
      toHost := hrest
      session := rfl
      applied := by
        rw [answers_succ, List.length_append]
        exact h.applied.trans (Nat.le_add_right _ _)
      outputs := by rw [answers_succ, hm, List.drop_left]
      sent := htake ▸ h.sent
      media := htake ▸ h.media
      closed := h.closed
      alive := h.alive
      heard := h.heard
      heard_le := h.heard_le
      returned := h.returned }

/-- Applying an answer writes it, or starts the media, or asks for an IDR; or its write
    fails. -/
theorem drive_answer (cfg : HostCfg) (env : Env) (d : Driver) {n : ℕ} {o : Output}
    (ho : o ∈ answers s g n) :
    (∃ d', drive env cfg d [o] = (.ok false, d') ∧ d'.sent = d.sent ++ written o ∧
      d'.media = System.handles cfg d.media o ∧ d'.closed = d.closed) ∨
    ∃ k e e', drive env cfg d [o] = (.error e', d) ∧ env.writes k = .error e := by
  -- A frame is written, or its write fails and the loop ends.
  have hsend (msgType : UInt64) (body : List (Value × Value)) (h : o = .Send msgType body) :
      (∃ d', drive env cfg d [o] = (.ok false, d') ∧ d'.sent = d.sent ++ written o ∧
        d'.media = System.handles cfg d.media o ∧ d'.closed = d.closed) ∨
      ∃ k e e', drive env cfg d [o] = (.error e', d) ∧ env.writes k = .error e := by
    rw [h, drive]
    cases hwrite : env.writes d.sent.length with
    | ok _ =>
        rw [sendFrame_ok env d msgType body hwrite]
        exact Or.inl ⟨_, rfl, rfl, rfl, rfl⟩
    | error e =>
        rw [sendFrame_error env d msgType body e hwrite]
        exact Or.inr ⟨_, e, _, rfl, hwrite⟩
  rcases List.mem_flatMap.mp ho with ⟨k, -, hk⟩
  rcases k with - | - | k
  · -- HELLO is answered with WELCOME and CONFIG.
    simp only [answer, List.mem_cons, List.not_mem_nil, or_false] at hk
    rcases hk with hk | hk
    · exact hsend _ _ hk
    · exact hsend _ _ hk
  · -- CONFIG_ACK is answered with START, and the media start.
    simp only [answer, List.mem_cons, List.not_mem_nil, or_false] at hk
    rcases hk with hk | rfl
    · exact hsend _ _ hk
    · exact Or.inl ⟨_, rfl, (List.append_nil _).symm, rfl, rfl⟩
  · -- A request is answered by asking the thread.
    simp only [answer, List.mem_cons, List.not_mem_nil, or_false] at hk
    rw [hk]
    exact Or.inl ⟨_, rfl, (List.append_nil _).symm, rfl, rfl⟩

/-- The host applies an answer, or its write fails. -/
theorem Snapshot.apply {n m : ℕ} {σ : State E P} (h : Snapshot cfg s g env n m σ)
    {host : System.State E P} {events : List System.Event}
    (hstep : System.step env cfg dropPercent world σ.host .apply = some (host, events)) :
    σ.host.returned = false ∧
      (Snapshot cfg s g env n (m + 1) { σ with host } ∧ host.returned = false ∨
        Snapshot cfg s g env n m { σ with host } ∧ host.returned = true) := by
  simp only [System.step] at hstep
  cases hqueue : σ.host.outputs with
  | nil => simp only [hqueue, reduceCtorEq] at hstep
  | cons o rest =>
      simp only [hqueue, Option.ite_none_left_eq_some, Option.some.injEq] at hstep
      rcases hstep with ⟨hreturned, hstep⟩
      have houtputs := h.outputs
      rw [hqueue] at houtputs
      -- The output applied is the first answer that is not applied yet.
      have hget : (answers s g n)[m]? = some o := by
        rw [← List.head?_drop, ← houtputs]
        rfl
      have hrest : rest = (answers s g n).drop (m + 1) := by
        rw [← List.drop_drop, ← houtputs]
        rfl
      have htake : (answers s g n).take (m + 1) = (answers s g n).take m ++ [o] := by
        rw [List.take_add_one, hget]
        rfl
      refine ⟨eq_false_of_ne_true hreturned, ?_⟩
      rcases drive_answer cfg env σ.host.driver (List.mem_of_getElem? hget) with
        ⟨d, hdrive, hsent, hmedia, hclosed⟩ | ⟨k, e, e', hdrive, hwrite⟩
      · -- The answer is written or told, and counts as applied.
        left
        -- The write failed: the loop returns, and nothing else changes.
        simp only [System.applyOutput, hdrive, Prod.mk.injEq] at hstep
        rcases hstep with ⟨rfl, -⟩
        refine ⟨?_, rfl⟩
        exact
          { asked := h.asked
            toHost := h.toHost
            session := h.session
            applied := (List.getElem?_eq_some_iff.mp hget).1
            outputs := hrest
            sent := by rw [hsent, h.sent, htake, List.flatMap_append, List.flatMap_singleton]
            media := by
              rw [hmedia, h.media, htake, List.foldl_append]
              rfl
            closed := hclosed.trans h.closed
            alive := h.alive
            heard := h.heard
            heard_le := by
              rw [hsent, List.length_append]
              exact h.heard_le.trans (Nat.le_add_right _ _)
            returned := fun hr => absurd hr Bool.false_ne_true }
      · right
        simp only [System.applyOutput, hdrive, Prod.mk.injEq] at hstep
        rcases hstep with ⟨rfl, -⟩
        exact ⟨h.quiet rfl hqueue.symm rfl (fun _ => Or.inr (Or.inr ⟨k, e, hwrite⟩)) id, rfl⟩

/-- The client has sent a message. -/
theorem goes_on_saying (g : Greeting) {stage next : Stage} {x : Message}
    (hsends : stage.sends g = some (next, x)) :
    next.asked g = stage.asked g ++ [x] ∧ next.said = stage.said + 1 ∧
      next.heard = stage.heard ∧ next ≠ .failed := by
  cases stage <;> cases hsends <;> exact ⟨rfl, rfl, rfl, nofun⟩

/-- The client has read the message it expects. -/
theorem goes_on (g : Greeting) {stage next : Stage} {msgType : UInt64}
    (hexpects : stage.expects = some (msgType, next)) :
    next.asked g = stage.asked g ∧ next.said = stage.said ∧ next.heard = stage.heard + 1 ∧
      next ≠ .failed := by
  cases stage <;> cases hexpects <;> exact ⟨rfl, rfl, rfl, nofun⟩

/-- How many steps the client and the control task have taken. -/
def progress (n m : ℕ) (σ : State E P) : ℕ :=
  σ.stage.said + σ.stage.heard + n + m + σ.host.returned.toNat

/-- The steps of the client in the handshake and those of the control task. -/
def Action.talks : Action P → Bool
  | .write | .read | .deliver | .host .apply => true
  | _ => false

/-- A step of the host by itself. -/
theorem Snapshot.alone {n m : ℕ} {σ : State E P} (h : Snapshot cfg s g env n m σ)
    {a : System.Action P} (halone : alone σ.host a = true) {host : System.State E P}
    {events : List System.Event}
    (hstep : System.step env cfg dropPercent world σ.host a = some (host, events)) :
    ∃ m', Snapshot cfg s g env n m' { σ with host } ∧
      progress n m σ + (Action.host a).talks.toNat ≤ progress n m' { σ with host } := by
  cases a with
  | apply =>
      -- An answer applied, or the loop returns: one step either way.
      rcases h.apply hstep with ⟨hbefore, ⟨hsnapshot, hafter⟩ | ⟨hsnapshot, hafter⟩⟩
      · refine ⟨m + 1, hsnapshot, ?_⟩
        simp only [progress, Action.talks, hbefore, hafter, Bool.toNat_false, Bool.toNat_true]
        omega
      · refine ⟨m, hsnapshot, ?_⟩
        simp only [progress, Action.talks, hbefore, hafter, Bool.toNat_false, Bool.toNat_true]
        omega
  | readError =>
      simp only [System.step, Option.ite_none_right_eq_some, Option.some.injEq,
        Prod.mk.injEq] at hstep
      rcases hstep with ⟨-, rfl, -⟩
      -- Only a lost connection gives a read error here.
      refine ⟨m, h.quiet rfl rfl rfl (fun _ => Or.inr (Or.inl halone)) id, ?_⟩
      have hle := Bool.toNat_le σ.host.returned
      simp only [progress, Action.talks, Bool.toNat_false, Bool.toNat_true]
      omega
  | lose =>
      cases hstep
      exact ⟨m, h.quiet rfl rfl rfl Or.inl (fun _ => rfl), le_rfl⟩
  | openMedia i =>
      -- The media threads neither read nor write the control stream.
      simp only [System.step] at hstep
      split at hstep
      · split at hstep
        · cases hstep
          exact ⟨m, h.quiet rfl rfl rfl Or.inl id, le_rfl⟩
        · cases hstep
      · cases hstep
  | turn i t =>
      simp only [System.step] at hstep
      split at hstep
      · split at hstep
        · split at hstep
          · cases hstep
            exact ⟨m, h.quiet rfl rfl rfl Or.inl id, le_rfl⟩
          · cases hstep
        · cases hstep
      · cases hstep
  | receive frame => cases halone
  | badFrame => cases halone
  | eof => cases halone

/-- A step leads from one snapshot to another. -/
theorem Snapshot.step (hfair : Fair s g limit fromReader) {n m : ℕ} {σ σ' : State E P}
    (h : Snapshot cfg s g env n m σ) {a : Action P} {events : List System.Event}
    (hstep : Client.step fromReader g env cfg dropPercent world σ a = some (σ', events)) :
    ∃ n' m', Snapshot cfg s g env n' m' σ' ∧
      progress n m σ + a.talks.toNat ≤ progress n' m' σ' := by
  cases a with
  | write =>
      simp only [Client.step, Option.ite_none_left_eq_some, Option.map_eq_some_iff,
        Prod.mk.injEq] at hstep
      rcases hstep with ⟨-, ⟨stage, x⟩, hsends, rfl, -⟩
      refine ⟨n, m, ?_⟩
      -- The message is put on the stream, behind those not taken yet.
      rcases goes_on_saying g hsends with ⟨hasked, hsaid, hheard, halive⟩
      have hsnapshot := h.client hasked halive (hheard ▸ h.heard ▸ h.heard_le)
      rw [hheard, ← h.heard] at hsnapshot
      refine ⟨hsnapshot, ?_⟩
      simp only [progress, Action.talks, hsaid, hheard, Bool.toNat_true]
      omega
  | read =>
      simp only [Client.step, Option.ite_none_left_eq_some] at hstep
      rcases hstep with ⟨-, hstep⟩
      split at hstep
      · rename_i msgType next frame hexpects hframe
        rw [Option.some.injEq, Prod.mk.injEq] at hstep
        rcases hstep with ⟨rfl, -⟩
        rw [h.heard] at hframe
        -- The host has written the frame, so it is the one of the handshake.
        have hreply : (replies s g)[σ.stage.heard]? = some frame := by
          rcases written_prefix s g n m with ⟨later, hlater⟩
          rw [← hlater, ← h.sent, List.getElem?_append_left (List.getElem?_eq_some_iff.mp hframe).1,
            hframe]
        rw [if_pos (hfair.reads hexpects hreply)]
        rcases goes_on g hexpects with ⟨hasked, hsaid, hheard, halive⟩
        -- What the client has heard, the host had sent.
        have hle : next.heard ≤ σ.host.driver.sent.length := by
          rw [hheard]
          exact (List.getElem?_eq_some_iff.mp hframe).1
        have hsnapshot := h.client (hasked.trans (List.append_nil _).symm) halive hle
        rw [hheard, ← h.heard, List.map_nil, List.append_nil] at hsnapshot
        refine ⟨n, m, hsnapshot, ?_⟩
        simp only [progress, Action.talks, hsaid, hheard, Bool.toNat_true]
        omega
      · cases hstep
  | datagram tMs dg =>
      simp only [Client.step, Option.ite_none_left_eq_some] at hstep
      rcases hstep with ⟨-, hstep⟩
      split at hstep
      · rename_i reasm hstage
        rw [Option.some.injEq, Prod.mk.injEq] at hstep
        rcases hstep with ⟨rfl, -⟩
        -- The reassembler may raise a request, and the client sends it at once.
        have hrequests := requests_push reasm tMs dg
        generalize pushDatagram reasm tMs dg = pushed at hrequests
        have hasked : (Stage.receiving pushed.1).asked g = σ.stage.asked g ++
            pushed.2.toList.map fun lastGood => (IDR_REQUEST, idrBody lastGood) := by
          simp only [hstage, Stage.asked, hrequests, List.map_append, List.cons_append]
        -- A datagram is no frame of the control stream.
        have hsame : (Stage.receiving pushed.1).heard = σ.heard := by
          rw [h.heard, hstage]
          rfl
        have hsnapshot := h.client hasked (by simp only [ne_eq, reduceCtorEq, not_false_eq_true])
          (hsame ▸ h.heard_le)
        rw [hsame, List.map_map] at hsnapshot
        refine ⟨n, m, hsnapshot, ?_⟩
        simp only [progress, Action.talks, hstage, Stage.said, Stage.heard, Bool.toNat_false]
        exact le_rfl
      · cases hstep
  | deliver =>
      simp only [Client.step] at hstep
      split at hstep
      · rename_i frame rest hqueue
        simp only [Option.map_eq_some_iff, Prod.mk.injEq] at hstep
        rcases hstep with ⟨⟨host, events'⟩, hstep, rfl, -⟩
        -- The host takes the first message on the stream.
        rcases h.deliver hfair hqueue hstep with ⟨hsnapshot, hafter, hbefore⟩
        refine ⟨n + 1, m, hsnapshot, ?_⟩
        simp only [progress, Action.talks, hbefore, hafter, Bool.toNat_false, Bool.toNat_true]
        omega
      · cases hstep
  | host a =>
      simp only [Client.step, Option.ite_none_right_eq_some, Option.map_eq_some_iff,
        Prod.mk.injEq] at hstep
      rcases hstep with ⟨halone, ⟨host, events'⟩, hstep, rfl, -⟩
      -- What the host does by itself leaves the messages taken as they are.
      rcases h.alone halone hstep with ⟨m', hsnapshot, hprogress⟩
      exact ⟨n, m', hsnapshot, hprogress⟩

/-- The session of a connection before the greeting. -/
def fresh (cfg : HostCfg) (sessionId : Vector UInt8 16) : HostSession :=
  HostSession.new cfg.name sessionId cfg.primary.params cfg.extraStreamConfigs

/-- The two are in step after these actions. -/
def InStep (cfg : HostCfg) (s : HostSession) (g : Greeting) (env : Env)
    (taken : List (Action P)) (σ : State E P) : Prop :=
  ∃ n m, Snapshot cfg s g env n m σ ∧ taken.countP Action.talks ≤ progress n m σ

/-- In every state of a run the client and the host are in step. -/
theorem inStep_exec {sessionId : Vector UInt8 16} {actions : List (Action P)} {σ : State E P}
    {trace : List System.Event}
    (hfair : Fair (fresh cfg sessionId) g limit fromReader)
    (hrun : Machine.exec (Client.step fromReader g env cfg dropPercent world)
      (start cfg sessionId) actions = some (σ, trace)) :
    InStep cfg (fresh cfg sessionId) g env actions σ := by
  have hstart : InStep cfg (fresh cfg sessionId) g env []
      (start cfg sessionId : State E P) :=
    ⟨0, 0,
      { asked := le_rfl, toHost := rfl, session := rfl, applied := le_rfl, outputs := rfl,
        sent := rfl, media := rfl, closed := rfl, alive := Stage.noConfusion, heard := rfl,
        heard_le := le_rfl, returned := fun h => absurd h Bool.false_ne_true }, le_rfl⟩
  refine @Machine.exec_tracks _ _ _ _ (fun taken σ _ => InStep cfg
    (fresh cfg sessionId) g env taken σ) ?_ actions [] _ _ [] _
    hstart hrun
  -- Each step that talks makes the progress greater by one at least.
  rintro taken σ trace a σ' events ⟨n, m, hsnapshot, hcount⟩ hstep
  rcases hsnapshot.step hfair hstep with ⟨n', m', hsnapshot', hprogress⟩
  refine ⟨n', m', hsnapshot', ?_⟩
  rw [Machine.countP_concat]
  omega

theorem sessionAfter_live (hs : s.state = .WaitHello) (n : ℕ) :
    (sessionAfter s g n).state ≠ .Closed := by
  rcases n with - | - | n
  · simp only [sessionAfter, hs, ne_eq, reduceCtorEq, not_false_eq_true]
  · simp only [sessionAfter, zero_add, greeted, ne_eq, reduceCtorEq, not_false_eq_true]
  · simp only [sessionAfter, acknowledged, ne_eq, reduceCtorEq, not_false_eq_true]

/-- A client that waits for a frame of the handshake finds it, once the host has taken
    and applied everything. -/
theorem Snapshot.has_reply {n m : ℕ} {σ : State E P} (h : Snapshot cfg s g env n m σ)
    (hqueue : σ.toHost = []) (houtputs : σ.host.outputs = []) {msgType : UInt64} {next : Stage}
    (hexpects : σ.stage.expects = some (msgType, next)) :
    ∃ frame, σ.host.driver.sent[σ.heard]? = some frame := by
  have hn : n = (σ.stage.asked g).length := by
    have htoHost := h.toHost
    rw [hqueue, eq_comm, List.map_eq_nil_iff, List.drop_eq_nil_iff] at htoHost
    exact le_antisymm h.asked htoHost
  have hsent : σ.host.driver.sent = (answers s g n).flatMap written := by
    have hall := h.outputs
    rw [houtputs, eq_comm, List.drop_eq_nil_iff] at hall
    rw [h.sent, List.take_of_length_le hall]
  have hlt : σ.heard < σ.host.driver.sent.length := by
    rw [hsent, h.heard, hn]
    generalize σ.stage = stage at hexpects
    -- The last message was HELLO, answered by two frames, or CONFIG_ACK, by a third.
    cases stage with
    | awaitWelcome => exact (by decide : 0 < 2)
    | awaitConfig => exact (by decide : 1 < 2)
    | awaitStart => exact (by decide : 2 < 3)
    | _ => cases hexpects
  exact ⟨_, List.getElem?_eq_getElem hlt⟩

/-- Where nothing has failed, the client or the control task can go on. -/
theorem Snapshot.goes_on (hfair : Fair s g limit fromReader) {n m : ℕ} {σ : State E P}
    (h : Snapshot cfg s g env n m σ) (hwrites : ∀ k, env.writes k = .ok ())
    (hlost : σ.host.lost = false)
    (hwaits : σ.toHost ≠ [] ∨ σ.host.outputs ≠ [] ∨ ∀ reasm, σ.stage ≠ .receiving reasm) :
    ∃ a : Action P, a.talks = true ∧
      (Client.step fromReader g env cfg dropPercent world σ a).isSome = true := by
  have hclosed : σ.host.closed = false := by
    simp only [System.State.closed, h.closed, Option.isSome_none, hlost, Bool.or_self]
  have hreturned : σ.host.returned = false := by
    by_contra hreturned
    rcases h.returned (eq_true_of_ne_false hreturned) with hlost' | ⟨k, e, hwrite⟩
    · exact absurd (hlost.symm.trans hlost') (by simp only [Bool.false_eq_true, not_false_eq_true])
    · exact absurd ((hwrites k).symm.trans hwrite) (by simp only [reduceCtorEq, not_false_eq_true])
  by_cases houtputs : σ.host.outputs = []
  · by_cases hqueue : σ.toHost = []
    · -- It is the client's turn.
      cases hstage : σ.stage with
      | greet =>
          refine ⟨.write, rfl, ?_⟩
          simp only [Client.step, hclosed, Bool.false_eq_true, ↓reduceIte, Stage.sends, hstage,
            Option.map_some, Option.isSome_some]
      | acknowledge =>
          refine ⟨.write, rfl, ?_⟩
          simp only [Client.step, hclosed, Bool.false_eq_true, ↓reduceIte, Stage.sends, hstage,
            Option.map_some, Option.isSome_some]
      | failed => exact absurd hstage h.alive
      | receiving reasm =>
          rcases hwaits with hwaits | hwaits | hwaits
          · exact absurd hqueue hwaits
          · exact absurd houtputs hwaits
          · exact absurd hstage (hwaits reasm)
      | _ =>
          have hexpects := congrArg Stage.expects hstage
          rcases h.has_reply hqueue houtputs hexpects with ⟨frame, hframe⟩
          refine ⟨.read, rfl, ?_⟩
          simp only [Client.step, hclosed, Bool.false_eq_true, ↓reduceIte, Stage.expects, hstage,
            hframe, Option.isSome_some]
    · rcases List.exists_cons_of_ne_nil hqueue with ⟨frame, rest, hqueue⟩
      rcases h.head hqueue with ⟨x, hx, rfl, -⟩
      have hlive := sessionAfter_live (g := g) hfair.fresh n
      refine ⟨.deliver, rfl, ?_⟩
      have hreading : σ.host.reading = true := by
        simp only [System.State.reading, hreturned, Bool.not_false, houtputs, List.isEmpty_nil,
          Bool.and_self, h.session, Bool.true_and, bne_iff_ne, ne_eq, hlive, not_false_eq_true]
      simp only [Client.step, hqueue, (hfair.reacts (P := P) (says_of_asked hx)).1, System.step,
        hreading, ↓reduceIte, Option.map_some, Option.isSome_some]
  · rcases List.exists_cons_of_ne_nil houtputs with ⟨o, rest, houtputs⟩
    refine ⟨.host .apply, rfl, ?_⟩
    simp only [Client.step, Client.alone, ↓reduceIte, System.step, houtputs, hreturned,
      Bool.false_eq_true, Option.map_some, Option.isSome_some]

end Snapshot

end Client

end LoomHost
