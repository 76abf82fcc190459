import LoomHost.Theory.Datagram
import LoomHost.Theory.Media
import LoomHost.Theory.Streams
import LoomHost.Theory.System.Acknowledged

/-!
# The Streams Advertised Are the Streams That Run

A CONFIG announces the primary stream with its keys 2, 3 and 5 and the other
ones with key 6, if the client can fan them in. The media threads that are
started are those of the streams announced, so their datagrams are of streams
the client knows.

The header of a datagram has 16 bits for the number of fragments. An access unit
that needs more of them is cut into datagrams all the same, and not all of these
decode.

## Main definitions

* `Advert`, `announcedStreams`: What a CONFIG says of the streams.
* `startedStreams`: The streams of the threads a log has started.
* `Advertised`: The threads are those of the streams announced.
* `Accepted`: The client takes a datagram.

## Theorems

* `announced_configBody`: The streams a session announces.
* `streamed_exec`: The threads of a run.
* `fragments_accepted_iff`: When all fragments of a body are accepted.
* `streams_advertised`: The threads and the datagrams of every run.
* `fragment_rejected`: An access unit that is too long.
-/

namespace LoomHost

namespace System

open Cbor Control Session Conn Media Datagram Streams WordCast

section Config

/-- A stream as it is announced. -/
structure Advert where
  streamId : ℤ
  width : ℤ
  height : ℤ
  refresh : ℤ
  bitrateKbps : ℤ
  deriving Repr, DecidableEq

/-- The announcement of a stream with these parameters. -/
def advert (streamId : UInt16) (params : MediaParams) : Advert :=
  { streamId := streamId.toNat, width := params.width.toNat, height := params.height.toNat,
    refresh := params.refresh.toNat, bitrateKbps := params.bitrateKbps.toNat }

/-- The items of CONFIG key 6, none if it is absent. -/
def extraItems (body : List (Value × Value)) : List Value :=
  (body.findSome? fun
    | (.Int 6, .Array items) => some items
    | _ => none).getD []

/-- An item of CONFIG key 6. -/
def readItem : Value → Option Advert
  | .Map entry =>
    match intKey entry 0, pairElem entry 1 0, pairElem entry 1 1, intKey entry 2,
        intKey entry 3 with
    | some streamId, some width, some height, some refresh, some bitrateKbps =>
      some { streamId, width, height, refresh, bitrateKbps }
    | _, _, _, _, _ => none
  | _ => none

/-- The streams a CONFIG announces, the primary one first, which is stream 0. -/
def announcedStreams (body : List (Value × Value)) : Option (List Advert) :=
  match pairElem body 2 0, pairElem body 2 1, intKey body 3, intKey body 5,
      (extraItems body).mapM readItem with
  | some width, some height, some refresh, some bitrateKbps, some extra =>
    some ({ streamId := 0, width, height, refresh, bitrateKbps } :: extra)
  | _, _, _, _, _ => none

/-- The stream ids that are negotiated with these streams: those of key 6. -/
def negotiated (streams : List Advert) : List UInt16 :=
  streams.tail.map fun a => UInt16.ofInt a.streamId

/-- Items that are written are read back. -/
theorem mapM_readItem (extra : List StreamConfig) :
    (extra.map HostSession.extraEntry).mapM readItem =
      some (extra.map fun c => advert c.streamId c.params) := by
  induction extra with
  | nil => rfl
  | cons c extra ih =>
      have hread : readItem (HostSession.extraEntry c) = some (advert c.streamId c.params) := rfl
      rw [List.map_cons, List.mapM_cons, hread, ih]
      rfl

/-- The streams a session announces. -/
theorem announced_configBody (s : HostSession) :
    announcedStreams s.configBody = some (advert 0 s.params ::
      if s.multiActive then s.extraStreams.map fun c => advert c.streamId c.params else []) := by
  have hextra : (extraItems s.configBody).mapM readItem =
      some (if s.multiActive then s.extraStreams.map fun c => advert c.streamId c.params
        else []) := by
    cases hmulti : s.multiActive with
    | false =>
        -- Without the feature the CONFIG has no key for extra streams.
        have hitems : extraItems s.configBody = [] := by
          simp only [extraItems, HostSession.configBody, hmulti, Bool.false_eq_true, ↓reduceIte,
            List.append_nil, Option.isNone_none, List.findSome?_cons_of_isNone, List.findSome?_nil,
            Option.getD_none]
        rw [hitems]
        rfl
    | true =>
        -- With it, each entry is read back as the stream it was written from.
        have hitems : extraItems s.configBody =
            s.extraStreams.map HostSession.extraEntry := by
          simp only [extraItems, HostSession.configBody, hmulti, ↓reduceIte, List.cons_append,
            List.nil_append, Option.isNone_none, List.findSome?_cons_of_isNone, Option.isSome_some,
            List.findSome?_cons_of_isSome, Option.getD_some]
        rw [hitems]
        exact mapM_readItem s.extraStreams
  have hwidth : pairElem s.configBody 2 0 = some (s.params.width.toNat : ℤ) := rfl
  have hheight : pairElem s.configBody 2 1 = some (s.params.height.toNat : ℤ) := rfl
  have hrefresh : intKey s.configBody 3 = some (s.params.refresh.toNat : ℤ) := rfl
  have hbitrate : intKey s.configBody 5 = some (s.params.bitrateKbps.toNat : ℤ) := rfl
  unfold announcedStreams
  rw [hextra, hwidth, hheight, hrefresh, hbitrate]
  rfl

end Config

section Threads

variable {E P : Type*} (cfg : HostCfg)

/-- The streams an entry starts threads for. -/
def startedBy : Entry → List StreamSpec
  | .out (.StartMedia multi) => if multi then cfg.streams else [cfg.primary]
  | _ => []

/-- The streams a log has started threads for. -/
def startedStreams (entries : List Entry) : List StreamSpec := entries.flatMap (startedBy cfg)

/-- A handle as it was spawned. -/
def spawnedAs (h : MediaHandle) : UInt16 × MediaParams := (h.streamId, h.params)

/-- An output starts threads for its streams, and leaves the others alone. -/
theorem map_handles (media : List MediaHandle) (o : Output) :
    (handles cfg media o).map spawnedAs =
      media.map spawnedAs ++ (startedBy cfg (.out o)).map fun s => (s.streamId, s.params) := by
  cases o with
  | StartMedia multi =>
      rw [handles, List.map_append, List.map_map]
      rfl
  | RequestIdr streamId =>
      rw [handles, map_tell media streamId MediaHandle.requestIdr spawnedAs (fun _ => rfl)]
      exact (List.append_nil _).symm
  | Reconfigure params =>
      rw [handles, map_tell media 0 (MediaHandle.reconfigure params) spawnedAs (fun _ => rfl)]
      exact (List.append_nil _).symm
  | _ => exact (List.append_nil _).symm

/-- The datagrams of a frame are fragments of its access unit. -/
structure CutFrom (streamId : UInt16) (f : Frame) : Prop where
  sent : ∀ dg ∈ f.sent, dg ∈ fragment streamId f.frameSeq f.au.keyframe f.body
  body : f.body.length = 8 + f.au.data.length

theorem cut_of_tick (backend : Backend E P) (streamId : UInt16) (m : Thread E P) (t : Tick P)
    (f : Frame) (h : (tick backend streamId m t).2 = some f) : CutFrom streamId f := by
  have hturn := tick_turn backend streamId m t
  generalize tick backend streamId m t = r at hturn h
  cases hturn with
  | sent m₁ b planes au encoder _ _ _ _ =>
      rw [← Option.some.inj h]
      have hspec := sendFrame_spec streamId { drained m₁ t b with encoder } t au
      have hbody := length_sendFrame_body streamId { drained m₁ t b with encoder } t au
      generalize Media.sendFrame streamId { drained m₁ t b with encoder } t au = sent
        at hspec hbody
      rcases hspec with ⟨-, -, hnum, -, hsent⟩
      exact ⟨hnum ▸ hsent, hbody⟩
  | _ => simp only [reduceCtorEq] at h

/-- The threads are those the log has started, and so are the streams of their
    frames. -/
structure Streamed (σ : State E P) (trace : List Event) : Prop where
  media : σ.driver.media.map spawnedAs =
    (startedStreams cfg (entries trace)).map fun s => (s.streamId, s.params)
  frames : ∀ i f, .frame i f ∈ trace →
    ∃ s, (startedStreams cfg (entries trace))[i]? = some s ∧ CutFrom s.streamId f

variable {cfg} {dropPercent : UInt32} {world : ℕ → Backend E P}

/-- A step that starts threads for what it applies, and sends frames of threads
    that are there. -/
theorem Streamed.append {σ σ' : State E P} {trace events : List Event}
    (h : Streamed cfg σ trace)
    (hmedia : σ'.driver.media.map spawnedAs = σ.driver.media.map spawnedAs ++
      (startedStreams cfg (entries events)).map fun s => (s.streamId, s.params))
    (hframes : ∀ i f, .frame i f ∈ events →
      ∃ s, (startedStreams cfg (entries trace))[i]? = some s ∧ CutFrom s.streamId f) :
    Streamed cfg σ' (trace ++ events) := by
  have happend : startedStreams cfg (entries (trace ++ events)) =
      startedStreams cfg (entries trace) ++ startedStreams cfg (entries events) := by
    rw [entries_append]
    exact List.flatMap_append
  refine ⟨?_, fun i f hf => ?_⟩
  · rw [hmedia, h.media, happend, List.map_append]
  · have hthere : ∃ s, (startedStreams cfg (entries trace))[i]? = some s ∧
        CutFrom s.streamId f := by
      rcases List.mem_append.mp hf with hf | hf
      · exact h.frames i f hf
      · exact hframes i f hf
    rcases hthere with ⟨s, hs, hcut⟩
    -- A frame that was there before is of a stream that was.
    rcases List.getElem?_eq_some_iff.mp hs with ⟨hlt, -⟩
    rw [happend, List.getElem?_append_left hlt]
    exact ⟨s, hs, hcut⟩

theorem Stepped.streamed {σ σ' : State E P} {a : Action P} {trace events : List Event}
    (hs : Stepped cfg dropPercent world σ a σ' events) (h : Streamed cfg σ trace) :
    Streamed cfg σ' (trace ++ events) := by
  cases hs with
  | received frame _ =>
      exact h.append (List.append_nil _).symm fun _ _ hf =>
        absurd (List.mem_singleton.mp hf) Event.noConfusion
  | applied o rest driver returned _ hmedia _ =>
      refine h.append ?_ fun _ _ hf => absurd (List.mem_singleton.mp hf) Event.noConfusion
      rw [hmedia, map_handles]
      simp only [startedStreams, entries, Event.entry, Option.some.injEq, List.filterMap_cons_some,
        List.filterMap_nil, List.flatMap_cons, List.flatMap_nil, List.append_nil]
  | ended a driver returned lost _ hmedia _ _ =>
      refine h.append ?_ (by simp only [List.not_mem_nil, IsEmpty.forall_iff, implies_true])
      rw [hmedia]
      exact (List.append_nil _).symm
  | opened i p handle _ _ _ =>
      exact h.append (List.append_nil _).symm fun _ _ hf => absurd hf List.not_mem_nil
  | turned i p handle m t _ hh _ _ _ =>
      refine h.append ?_ (fun j f hf => ?_)
      · rw [turnPipeline, entries_frames]
        exact (List.append_nil _).symm
      · rcases List.mem_map.mp hf with ⟨g, hg, heq⟩
        rcases Event.frame.inj heq with ⟨rfl, rfl⟩
        have hcut := cut_of_tick _ _ m t g (Option.mem_toList.mp hg)
        -- The thread of the turn is one of those started.
        have hstarted := congrArg (fun l => l[i]?) h.media
        rw [List.getElem?_map, List.getElem?_map, hh, eq_comm, Option.map_some,
          Option.map_eq_some_iff] at hstarted
        rcases hstarted with ⟨s, hs, hsame⟩
        refine ⟨s, hs, ?_⟩
        rw [(Prod.mk.inj hsame).1]
        exact hcut

/-- The threads of a run are those it has started. -/
theorem streamed_exec (env : Env) {sessionId : Vector UInt8 16} {σ : State E P}
    {trace : List Event} {actions : List (Action P)}
    (h : Machine.exec (step env cfg dropPercent world) (start cfg sessionId) actions =
      some (σ, trace)) : Streamed cfg σ trace := by
  refine Machine.exec_invariant (Streamed cfg) ⟨rfl, fun i f hf => absurd hf List.not_mem_nil⟩
    (fun σ trace a σ' events hinv hstep => ?_) h
  exact (step_stepped env cfg dropPercent world hstep).streamed hinv

end Threads

section Datagrams

variable (streamId : UInt16) (frameSeq : UInt32) (keyframe : Bool) (body : List UInt8)

/-- The index of a datagram that is accepted is within its count. -/
theorem index_lt_of_decode (dg : List UInt8) (extra : List UInt16) (d : DecodedDatagram)
    (h : decodeWithStreams dg extra = .ok d) :
    UInt16.ofNat (beField dg 8 2) < UInt16.ofNat (beField dg 10 2) := by
  unfold decodeWithStreams at h
  dsimp only at h
  split at h
  · cases h
  split at h
  · cases h
  split at h
  · cases h
  split at h
  · cases h
  split at h
  · cases h
  · rename_i hrange
    exact UInt16.not_le.mp hrange

/-- Of a body that is too long, fragment 65535 is not accepted: its count is cut
    to 16 bits. -/
theorem fragment_rejected_of_long (extra : List UInt16) (d : DecodedDatagram) :
    decodeWithStreams ((header streamId frameSeq keyframe body 65535).encode
      (chunk body 65535)) extra ≠ .ok d := by
  intro h
  have hlt := index_lt_of_decode _ extra d h
  rw [fragIndex_encode, fragCount_encode, UInt16.ofNat_toNat, UInt16.ofNat_toNat,
    UInt16.lt_iff_toNat_lt] at hlt
  have hindex : (header streamId frameSeq keyframe body 65535).fragIndex.toNat = 65535 := rfl
  have hcount := (header streamId frameSeq keyframe body 65535).fragCount.toNat_lt
  omega

/-- The fragments of a body of a stream that is known are accepted exactly if the
    body is not too long. -/
theorem fragments_accepted_iff (extra : List UInt16) (hknown : Accepts extra streamId) :
    (∀ dg ∈ fragment streamId frameSeq keyframe body,
      ∃ d, decodeWithStreams dg extra = .ok d) ↔ body.length ≤ 65535 * MAX_PAYLOAD := by
  constructor
  · intro haccepted
    by_contra hlong
    -- There is a fragment 65535, one more than a count can say.
    have hceil := (ceil_le_iff body 65535).not.mpr hlong
    have hmem : (header streamId frameSeq keyframe body 65535).encode (chunk body 65535) ∈
        fragment streamId frameSeq keyframe body := by
      refine (mem_fragment streamId frameSeq keyframe body _).mpr ⟨65535, ?_, rfl⟩
      rw [fragCount]
      omega
    rcases haccepted _ hmem with ⟨d, hd⟩
    exact fragment_rejected_of_long streamId frameSeq keyframe body extra d hd
  · intro hlen dg hdg
    rcases (mem_fragment streamId frameSeq keyframe body dg).mp hdg with ⟨i, hi, rfl⟩
    rw [decode_encode _ _ extra (header_valid streamId frameSeq keyframe body i hlen hi)
      (length_chunk_le body i)]
    exact ⟨_, if_pos hknown⟩

end Datagrams

section Streams

variable (cfg : HostCfg)

/-- The streams of a session with or without the extra ones. -/
def served (multi : Bool) : List StreamSpec := if multi then cfg.streams else [cfg.primary]

/-- A stream as it is announced. -/
def advertOf (s : StreamSpec) : Advert := advert s.streamId s.params

variable {cfg}

theorem startedStreams_of_unstarted {w : List Entry} (h : Unstarted w) :
    startedStreams cfg w = [] := by
  rw [startedStreams, List.flatMap_eq_nil_iff]
  intro e he
  cases e with
  | recv frame => rfl
  | out o =>
      cases o with
      | StartMedia multi => exact absurd he (h multi)
      | _ => rfl

/-- A log with one start has started its streams. -/
theorem startedStreams_once {u w : List Entry} {multi : Bool} (hu : Unstarted u)
    (hw : Unstarted w) :
    startedStreams cfg (u ++ .out (.StartMedia multi) :: w) = served cfg multi := by
  have hsplit : startedStreams cfg (u ++ .out (.StartMedia multi) :: w) =
      startedStreams cfg u ++ (served cfg multi ++ startedStreams cfg w) := by
    rw [startedStreams, List.flatMap_append, List.flatMap_cons]
    rfl
  rw [hsplit, startedStreams_of_unstarted hu, startedStreams_of_unstarted hw,
    List.nil_append, List.append_nil]

/-- The streams announced are those served, when the primary one is stream 0. -/
theorem adverts_of_served (hprimary : cfg.primary.streamId = 0) (multi : Bool) :
    advert 0 cfg.primary.params :: (if multi then
      cfg.extraStreamConfigs.map fun c => advert c.streamId c.params else []) =
      (served cfg multi).map advertOf := by
  have hhead : advert 0 cfg.primary.params = advertOf cfg.primary := by
    rw [advertOf, hprimary]
  cases multi with
  | false => exact congrArg (fun a => [a]) hhead
  | true =>
      have hcons : cfg.streams = cfg.primary :: cfg.streams.tail :=
        (List.cons_head_tail cfg.nonempty).symm
      rw [served, if_pos rfl, if_pos rfl, hcons, List.map_cons, hhead, HostCfg.extraStreamConfigs,
        List.map_map]
      rfl

theorem served_eq_cons (multi : Bool) :
    served cfg multi = cfg.primary :: (served cfg multi).tail := by
  cases multi with
  | false => rfl
  | true => exact (List.cons_head_tail cfg.nonempty).symm

theorem ofInt_advertOf (s : StreamSpec) : UInt16.ofInt (advertOf s).streamId = s.streamId :=
  uint16_ofInt_toNat s.streamId

/-- The ids of key 6 are those of the extra streams. -/
theorem negotiated_adverts (streams : List StreamSpec) :
    negotiated (streams.map advertOf) = streams.tail.map StreamSpec.streamId := by
  rw [negotiated, ← List.map_tail, List.map_map]
  exact List.map_congr_left (fun s _ => ofInt_advertOf s)

/-- The client knows every stream that is served. -/
theorem accepts_served (hprimary : cfg.primary.streamId = 0) {multi : Bool} {i : ℕ}
    {s : StreamSpec} (hs : (served cfg multi)[i]? = some s) :
    Accepts (negotiated ((served cfg multi).map advertOf)) s.streamId := by
  rw [negotiated_adverts]
  rw [served_eq_cons] at hs
  -- The first one is stream 0, which needs no negotiation.
  cases i with
  | zero =>
      rw [List.getElem?_cons_zero, Option.some.injEq] at hs
      exact Or.inl (hs ▸ hprimary)
  | succ i =>
      rw [List.getElem?_cons_succ] at hs
      exact Or.inr (Or.inr (List.mem_map_of_mem (List.mem_of_getElem? hs)))

/-- Distinct ids are announced as distinct ids. -/
theorem distinct_adverts (hdistinct : (cfg.streams.map StreamSpec.streamId).Nodup)
    (hno : 1 ∉ cfg.streams.map StreamSpec.streamId) (multi : Bool) :
    (((served cfg multi).map advertOf).map Advert.streamId).Nodup ∧
      1 ∉ ((served cfg multi).map advertOf).map Advert.streamId := by
  have hsublist : (served cfg multi).Sublist cfg.streams := by
    cases multi with
    | false => exact List.singleton_sublist.mpr (List.head_mem cfg.nonempty)
    | true => exact List.Sublist.refl _
  have hids : ((served cfg multi).map advertOf).map Advert.streamId =
      ((served cfg multi).map StreamSpec.streamId).map fun id => (id.toNat : ℤ) := by
    rw [List.map_map, List.map_map]
    rfl
  -- The ids are announced as they are, and those served are some of all.
  rw [hids]
  constructor
  · refine (hdistinct.sublist (hsublist.map _)).map (fun x y hxy => ?_)
    exact UInt16.toNat_inj.mp (Int.ofNat_inj.mp hxy)
  · intro hone
    rcases List.mem_map.mp hone with ⟨id, hid, hnat⟩
    have hid' : id = 1 := UInt16.toNat_inj.mp (Int.ofNat_inj.mp hnat)
    exact hno (hid' ▸ (hsublist.map _).subset hid)

end Streams

section Run

variable {E P : Type*} (env : Env) (cfg : HostCfg) (dropPercent : UInt32)
  (world : ℕ → Backend E P)

/-- The threads of a state are those of the streams that the first CONFIG, the
    only one of a log, announces. -/
structure Advertised (σ : State E P) (u : List Entry) (streams : List Advert) : Prop where
  announced : ∃ body, configs u = [body] ∧ announcedStreams body = some streams
  threads : σ.driver.media.map (fun h => advert h.streamId h.params) = streams
  lengths : σ.pipelines.length = σ.driver.media.length
  /-- The ids are distinct, and none is that of audio. -/
  distinct : (streams.map Advert.streamId).Nodup
  no_audio : 1 ∉ streams.map Advert.streamId

/-- A datagram is accepted by a client that has negotiated these streams. -/
def Accepted (streams : List Advert) (dg : List UInt8) : Prop :=
  ∃ d, decodeWithStreams dg (negotiated streams) = .ok d

/-- The threads that are there are those of the streams served. -/
theorem threads_of_served {σ : State E P} {trace : List Event} {multi : Bool}
    (h : Streamed cfg σ trace) (hserved : startedStreams cfg (entries trace) = served cfg multi) :
    σ.driver.media.map (fun h => advert h.streamId h.params) =
      (served cfg multi).map advertOf := by
  have hspawned := congrArg (List.map fun x => advert x.1 x.2) h.media
  rw [hserved, List.map_map, List.map_map] at hspawned
  exact hspawned

/-- A frame is cut into fragments of its stream, which are accepted exactly if
    there are not too many of them. -/
theorem frame_of_served {σ : State E P} {trace : List Event} {multi : Bool}
    (h : Streamed cfg σ trace) (hserved : startedStreams cfg (entries trace) = served cfg multi)
    (hprimary : cfg.primary.streamId = 0) {i : ℕ} {f : Frame} (hf : .frame i f ∈ trace) :
    ∃ a, ((served cfg multi).map advertOf)[i]? = some a ∧
      (∀ dg ∈ f.sent,
        dg ∈ fragment (UInt16.ofInt a.streamId) f.frameSeq f.au.keyframe f.body) ∧
      ((∀ dg ∈ fragment (UInt16.ofInt a.streamId) f.frameSeq f.au.keyframe f.body,
        Accepted ((served cfg multi).map advertOf) dg) ↔
        8 + f.au.data.length ≤ 65535 * MAX_PAYLOAD) := by
  rcases h.frames i f hf with ⟨s, hs, hcut⟩
  rw [hserved] at hs
  refine ⟨advertOf s, by rw [List.getElem?_map, hs]; rfl, ?_⟩
  rw [ofInt_advertOf, ← hcut.body]
  exact ⟨hcut.sent, fragments_accepted_iff _ _ _ _ _ (accepts_served hprimary hs)⟩

/-- Once the media have started, the threads are those of the streams announced.
    The datagrams of an access unit are accepted exactly if there are not too
    many of them. -/
theorem streams_advertised (macos : Bool) (displays : Except String (List DisplayInfo))
    (args : Args) (hcfg : resolveStreams macos displays args = .ok cfg.streams)
    (hfew : cfg.streams.length ≤ 65535) (sessionId : Vector UInt8 16)
    (actions : List (Action P)) {σ : State E P} {trace : List Event}
    (h : Machine.exec (step env cfg dropPercent world) (start cfg sessionId) actions =
      some (σ, trace)) {u w : List Entry} {multi : Bool}
    (hstart : entries trace = u ++ .out (.StartMedia multi) :: w) :
    ∃ streams, Advertised σ u streams ∧
      (∀ i f, .frame i f ∈ trace → ∃ a, streams[i]? = some a ∧
        (∀ dg ∈ f.sent,
          dg ∈ fragment (UInt16.ofInt a.streamId) f.frameSeq f.au.keyframe f.body) ∧
        ((∀ dg ∈ fragment (UInt16.ofInt a.streamId) f.frameSeq f.au.keyframe f.body,
          Accepted streams dg) ↔ 8 + f.au.data.length ≤ 65535 * MAX_PAYLOAD)) ∧
      ((∀ i f, .frame i f ∈ trace → 8 + f.au.data.length ≤ 65535 * MAX_PAYLOAD) →
        ∀ i f, .frame i f ∈ trace → ∀ dg ∈ f.sent, Accepted streams dg) := by
  have hresolved := resolved_of_ok macos displays args cfg.streams hcfg
  rcases controlled_exec env cfg dropPercent world h with ⟨frames, -, hlog⟩
  rw [hstart, List.append_assoc, List.cons_append] at hlog
  rcases (spoken_of_new _ _ _ _ frames).start_media hlog with
    ⟨p, a, b, ack, hopened, hmulti, ha, hb, -, hu, hbefore, hafter⟩
  have hstreamed := streamed_exec env h
  have hserved : startedStreams cfg (entries trace) = served cfg multi := by
    rw [hstart]
    exact startedStreams_once hbefore
      (fun m hmem => hafter m (List.mem_append_left _ hmem))
  -- The only CONFIG before the start is the one that answered HELLO.
  refine ⟨(served cfg multi).map advertOf, ⟨⟨p.configBody, ?_, ?_⟩, ?_, ?_, ?_, ?_⟩,
    fun i f hf => frame_of_served cfg hstreamed hserved hresolved.head hf,
    fun hshort i f hf dg hdg => ?_⟩
  · rw [hu, configs_append, configs_opening ha hb p]
    rfl
  · rw [announced_configBody, hmulti, hopened.params, hopened.extraStreams]
    exact congrArg some (adverts_of_served hresolved.head multi)
  · exact threads_of_served cfg hstreamed hserved
  · rcases agrees_exec env cfg dropPercent world h with ⟨sizes, queue, hagrees⟩
    exact hagrees.lengths
  · rcases hresolved.distinct hfew with ⟨hdistinct, hno⟩
    exact (distinct_adverts hdistinct hno multi).1
  · rcases hresolved.distinct hfew with ⟨hdistinct, hno⟩
    exact (distinct_adverts hdistinct hno multi).2
  · rcases frame_of_served cfg hstreamed hserved hresolved.head hf with ⟨a, -, hsent, hiff⟩
    exact hiff.mpr (hshort i f hf) dg (hsent dg hdg)

/-- An encoder that returns the same access unit for every picture. -/
def constantEncoder (data : List UInt8) : Backend Unit Unit :=
  { openEncoder := fun _ => some ()
    openSource := fun _ => some (.Synthetic fun _ => some ())
    encodeI420 := fun _ _ _ _ => some (some { keyframe := true, data }, ()) }

/-- A host with two displays. -/
def twoStreams : HostCfg :=
  { name := "host",
    streams :=
      [{ streamId := 0, params := { width := 1920, height := 1080 }, source := .Sck,
         display := some 1, x := 0, y := 0 },
       { streamId := 2, params := {}, source := .Sck, display := some 2, x := 1920, y := 0 }],
    nonempty := List.cons_ne_nil _ _ }

/-- The client negotiates multi-display, and both threads send a frame. -/
def multiActions : List (Action Unit) :=
  [.receive (.Message HELLO [(.Int 0, .Int 1), (.Int 2, .Array [.Int 1]), (.Int 5, .Int 2)]),
    .apply, .apply, .receive (.Message CONFIG_ACK [(.Int 0, .Int 1)]), .apply, .apply,
    .openMedia 1, .turn 1 (tickTaking []), .openMedia 0, .turn 0 (tickTaking [])]

def multiRun : Option (State Unit Unit × List Event) :=
  Machine.exec (step sampleEnv twoStreams 0 fun _ => constantEncoder [7])
    (start twoStreams (Vector.replicate 16 0)) multiActions

theorem streams_advertised_two :
    ∃ σ trace u w streams, multiRun = some (σ, trace) ∧
      entries trace = u ++ .out (.StartMedia true) :: w ∧ Advertised σ u streams ∧
      ((∀ i f, .frame i f ∈ trace → 8 + f.au.data.length ≤ 65535 * MAX_PAYLOAD) →
        ∀ i f, .frame i f ∈ trace → ∀ dg ∈ f.sent, Accepted streams dg) := by
  have hrun : ∃ σ trace, multiRun = some (σ, trace) ∧
      entries trace = (entries trace).take 5 ++ .out (.StartMedia true) :: [] :=
    ⟨_, _, rfl, rfl⟩
  rcases hrun with ⟨σ, trace, hrun, hstart⟩
  rcases streams_advertised sampleEnv twoStreams 0 _ true
    (.ok [{ id := 1, width := 1920, height := 1080, x := 0, y := 0 },
      { id := 2, width := 2560, height := 1440, x := 1920, y := 0 }])
    { source := .Sck, displays := "all" } rfl (by decide) _ multiActions hrun hstart with
    ⟨streams, hadvertised, -, haccepted⟩
  exact ⟨σ, trace, _, [], streams, hrun, hstart, hadvertised, haccepted⟩

/-- A run that ends with a frame of this access unit. -/
theorem constant_run (data : List UInt8) : ∃ σ trace f,
    Machine.exec (step sampleEnv oneStream 0 fun _ => constantEncoder data)
      (start oneStream (Vector.replicate 16 0)) startActions = some (σ, trace) ∧
    .frame 0 f ∈ trace ∧
    f.sent = (sendDatagrams (fun _ => true) (DropInjector.new 0) 0
      (fragment 0 0 true (BigEndian.toBE 8 0 ++ data))).1 := by
  have hrun : ∃ σ trace f,
      Machine.exec (step sampleEnv oneStream 0 fun _ => constantEncoder data)
        (start oneStream (Vector.replicate 16 0)) startActions = some (σ, trace) ∧
      trace.getLast? = some (.frame 0 f) ∧
      f.sent = (sendDatagrams (fun _ => true) (DropInjector.new 0) 0
        (fragment 0 0 true (BigEndian.toBE 8 0 ++ data))).1 := ⟨_, _, _, rfl, rfl, rfl⟩
  rcases hrun with ⟨σ, trace, f, hrun, hlast, hsent⟩
  exact ⟨σ, trace, f, hrun, List.mem_of_getLast? hlast, hsent⟩

/-- Nothing is dropped and no send fails. -/
theorem sendDatagrams_all (g : DropInjector) (hg : g.percent = 0) (frags : List (List UInt8)) :
    ∀ n, (sendDatagrams (fun _ => true) g n frags).1 = frags := by
  induction frags with
  | nil => exact fun n => rfl
  | cons dg frags ih =>
      intro n
      have hkeep : g.shouldDrop = (false, g) := if_pos hg
      rw [sendDatagrams, hkeep]
      exact congrArg (List.cons dg) (ih (n + 1))

/-- An access unit of 65535 full payloads has one datagram too many: its number of
    fragments is cut to 0. -/
theorem fragment_rejected : ∃ σ trace f dg,
    Machine.exec (step sampleEnv oneStream 0
      fun _ => constantEncoder (List.replicate (65535 * MAX_PAYLOAD) 0))
      (start oneStream (Vector.replicate 16 0)) startActions = some (σ, trace) ∧
    .frame 0 f ∈ trace ∧ dg ∈ f.sent ∧ ∀ streams, ¬ Accepted streams dg := by
  rcases constant_run (List.replicate (65535 * MAX_PAYLOAD) 0) with ⟨σ, trace, f, hrun, hf, hsent⟩
  let body : List UInt8 := BigEndian.toBE 8 0 ++ List.replicate (65535 * MAX_PAYLOAD) 0
  refine ⟨σ, trace, f, (header 0 0 true body 65535).encode (chunk body 65535), hrun, hf, ?_,
    fun streams haccepted => ?_⟩
  · rw [hsent, sendDatagrams_all _ rfl]
    refine (mem_fragment 0 0 true body _).mpr ⟨65535, ?_, rfl⟩
    have hlen : body.length = 8 + 65535 * MAX_PAYLOAD := by
      rw [List.length_append, BigEndian.length_toBE, List.length_replicate]
    have hceil := (ceil_le_iff body 65535).not.mpr (by omega)
    rw [fragCount]
    omega
  · rcases haccepted with ⟨d, hd⟩
    exact fragment_rejected_of_long 0 0 true body _ d hd

end Run

end System

end LoomHost
