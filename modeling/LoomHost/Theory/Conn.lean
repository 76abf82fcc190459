import LoomHost.Core.Conn
import LoomHost.Theory.Session.Step

/-!
# The Exits of the Session Loop

How a session loop ends, from what arrives and what becomes of the writes. The
frames of the control stream determine a plan: how many frames the driver is to
write, and whether it comes to a close. The first of these writes that fails
ends the loop there. Otherwise the loop closes the connection if the plan says
so, and if not ends as the control stream does.

A failed write and a failed read leave the connection as it is. It is closed
for the media threads only if it is lost.

## Main definitions

* `sends`, `plan`: What the driver is to write.
* `failure`: The first write that fails.
* `outcome`: How the loop ends.
* `Shut`: The inputs on which the connection is closed in the end.

## Theorems

* `drive_drives`: Applying outputs.
* `sessionFrames_outcome`: The loop ends as planned.
* `closeReason_iff`: When the connection is closed in the end.
-/

namespace LoomHost

namespace Conn

open Cbor Control Session

/-- The frames to write for outputs, up to a close. -/
def sends : List Output → ℕ
  | [] => 0
  | .Close _ :: _ => 0
  | .Send _ _ :: outputs => sends outputs + 1
  | .ClockPong _ :: outputs => sends outputs + 1
  | _ :: outputs => sends outputs

/-- The frames to write for what is received, up to a close, and whether there
    is one. -/
def plan (s : HostSession) : List (Except Control.Error Decoded) → ℕ × Bool
  | [] => (0, false)
  | .error _ :: _ => (1, true)
  | .ok frame :: rest =>
    let (s', outputs) := s.onFrame frame
    if closes outputs then (sends outputs, true)
    else (sends outputs + (plan s' rest).1, (plan s' rest).2)

/-- The error of the first of `n` writes that fails, from the `start`-th on. -/
def failure (writes : ℕ → Except WriteError Unit) (start : ℕ) : ℕ → Option WriteError
  | 0 => none
  | n + 1 =>
    match writes start with
    | .ok () => failure writes (start + 1) n
    | .error e => some e

/-- How the loop ends: its result, and whether the driver has closed. -/
def outcome (failed : Option WriteError) (closing : Bool) (last : Except IoError Unit) :
    Except IoError Unit × Bool :=
  match failed with
  | some e => (.error (.Write e), false)
  | none =>
    if closing then (.ok (), true)
    else
      match last with
      | .ok () => (.ok (), true)
      | .error e => (.error e, false)

section Writes

variable (writes : ℕ → Except WriteError Unit)

/-- The first failure among `m` writes and `n` more. -/
theorem failure_add (n : ℕ) : ∀ (m start : ℕ), failure writes start (m + n) =
    (failure writes start m).or (failure writes (start + m) n) := by
  intro m
  induction m with
  | zero =>
      intro start
      rw [Nat.zero_add, Nat.add_zero, failure, Option.none_or]
  | succ m ih =>
      intro start
      rw [Nat.succ_add, failure, failure]
      cases writes start with
      | ok _ =>
          -- The rest starts one write later, on both sides.
          have hstart : start + (m + 1) = start + 1 + m := by omega
          rw [hstart]
          exact ih (start + 1)
      | error e => rfl

end Writes

section Drive

variable (env : Env) (cfg : HostCfg)

theorem sendFrame_ok (d : Driver) (msgType : UInt64) (body : List (Value × Value))
    (h : env.writes d.sent.length = .ok ()) : sendFrame env d msgType body =
      (.ok (), { d with sent := d.sent ++ [encodeFrame msgType body] }) := by
  rw [sendFrame, h]

theorem sendFrame_error (d : Driver) (msgType : UInt64) (body : List (Value × Value))
    (e : WriteError) (h : env.writes d.sent.length = .error e) :
    sendFrame env d msgType body = (.error (.Write e), d) := by
  rw [sendFrame, h]

/-- What applying outputs comes to: the first write that fails ends it there,
    with the connection as it was; otherwise it reports whether it closed. -/
structure Drives (d : Driver) (n : ℕ) (closing : Bool) (r : Except IoError Bool × Driver) :
    Prop where
  failed : ∀ e, failure env.writes d.sent.length n = some e →
    r.1 = .error (.Write e) ∧ r.2.closed = d.closed
  done : failure env.writes d.sent.length n = none → closing = true →
    r.1 = .ok true ∧ r.2.closed.isSome = true
  going : failure env.writes d.sent.length n = none → closing = false →
    r.1 = .ok false ∧ r.2.closed = d.closed ∧ r.2.sent.length = d.sent.length + n

/-- A frame written before the rest of the outputs. -/
theorem Drives.write {d : Driver} {n : ℕ} {closing : Bool} (msgType : UInt64)
    (body : List (Value × Value)) (rest : Driver → Except IoError Bool × Driver)
    (h : ∀ d, Drives env d n closing (rest d)) :
    Drives env d (n + 1) closing (match sendFrame env d msgType body with
      | (.ok (), d) => rest d
      | (.error e, d) => (.error e, d)) := by
  cases hwrite : env.writes d.sent.length with
  | error e =>
      rw [sendFrame_error env d msgType body e hwrite]
      have hfailure : failure env.writes d.sent.length (n + 1) = some e := by rw [failure, hwrite]
      refine ⟨fun e' he' => ?_, fun hnone => ?_, fun hnone => ?_⟩
      · rw [hfailure, Option.some.injEq] at he'
        exact ⟨by rw [he'], rfl⟩
      · simp only [hfailure, reduceCtorEq] at hnone
      · simp only [hfailure, reduceCtorEq] at hnone
  | ok _ =>
      rw [sendFrame_ok env d msgType body hwrite]
      -- The writes are counted by what has been sent.
      have hrest := h { d with sent := d.sent ++ [encodeFrame msgType body] }
      have hfailure : failure env.writes d.sent.length (n + 1) =
          failure env.writes (d.sent ++ [encodeFrame msgType body]).length n := by
        rw [failure, hwrite, List.length_append, List.length_singleton]
      refine ⟨fun e he => ?_, fun hnone hc => ?_, fun hnone hc => ?_⟩
      · exact hrest.failed e (hfailure ▸ he)
      · exact hrest.done (hfailure ▸ hnone) hc
      · rcases hrest.going (hfailure ▸ hnone) hc with ⟨hok, hclosed, hlen⟩
        rw [List.length_append, List.length_singleton, Nat.add_assoc, Nat.add_comm 1] at hlen
        exact ⟨hok, hclosed, hlen⟩

/-- What is done to the media threads is nothing to the connection. -/
theorem Drives.media {d : Driver} {n : ℕ} {closing : Bool} {r : Except IoError Bool × Driver}
    (media : List MediaHandle) (h : Drives env { d with media := media } n closing r) :
    Drives env d n closing r := ⟨h.failed, h.done, h.going⟩

theorem drive_drives (outputs : List Output) :
    ∀ d, Drives env d (sends outputs) (closes outputs) (drive env cfg d outputs) := by
  induction outputs with
  | nil => exact fun d => ⟨nofun, nofun, fun _ _ => ⟨rfl, rfl, rfl⟩⟩
  | cons o outputs ih =>
      intro d
      cases o with
      | Send msgType body => exact Drives.write env msgType body (drive env cfg · outputs) ih
      | ClockPong t0 => exact Drives.write env CLOCK_PONG _ (drive env cfg · outputs) ih
      | StartMedia multi => exact Drives.media env _ (ih _)
      | RequestIdr streamId => exact Drives.media env _ (ih _)
      | Reconfigure params => exact Drives.media env _ (ih _)
      | Stats r => exact ih d
      | Close code =>
          -- Only the first close of a connection counts, but some close there is.
          refine ⟨nofun, fun _ _ => ⟨rfl, ?_⟩, nofun⟩
          cases hclosed : d.closed <;> simp only [drive, Driver.close, Driver.finish, hclosed,
            Option.orElse_eq_orElse, Option.orElse_eq_or, Option.or_some, Option.getD_none,
            Option.isSome_some, Option.getD_some]

end Drive

section Loop

variable (env : Env) (cfg : HostCfg) (fromReader : List UInt8 → Option Rfc8949.Item)

theorem receive_frame (recv recv' : RecvStream) (bytes : List UInt8)
    (h : readFrame recv = (.ok (.Frame bytes), recv')) : receive fromReader recv =
      (decodeFrame fromReader bytes :: (receive fromReader recv').1,
        (receive fromReader recv').2) := by
  rw [receive, readFrames_frame recv recv' bytes h]
  rfl

theorem receive_eof (recv recv' : RecvStream) (h : readFrame recv = (.ok .Eof, recv')) :
    receive fromReader recv = ([], .ok ()) := by
  rw [receive, readFrames_eof recv recv' h]
  rfl

theorem receive_error (recv recv' : RecvStream) (e : IoError)
    (h : readFrame recv = (.error e, recv')) : receive fromReader recv = ([], .error e) := by
  rw [receive, readFrames_error recv recv' e h]
  rfl

theorem isSome_close (d : Driver) (code : UInt64) (reason : String) :
    (d.close code reason).closed.isSome = true := by
  cases h : d.closed <;> simp only [Driver.close, h, Option.orElse_eq_orElse, Option.orElse_eq_or,
    Option.or_some, Option.getD_none, Option.isSome_some, Option.getD_some]

/-- The end of a loop, against the plan for what it is yet to receive. -/
def EndsAsPlanned (s : HostSession) (rest : List (Except Control.Error Decoded))
    (last : Except IoError Unit) (d : Driver) (r : Except IoError Unit × Driver) : Prop :=
  (r.1, r.2.closed.isSome) =
    outcome (failure env.writes d.sent.length (plan s rest).1) (plan s rest).2 last

/-- A frame that does not decode: ERROR is written, and the connection closed. -/
theorem endsAsPlanned_badFrame (s : HostSession) (e : Control.Error)
    (rest : List (Except Control.Error Decoded)) (last : Except IoError Unit) (d : Driver)
    (hd : d.closed = none) : EndsAsPlanned env s (.error e :: rest) last d
      (match sendFrame env d ERROR (errorBody Errors.PROTOCOL_VIOLATION) with
        | (.ok (), d) => (.ok (), d.finish.close Errors.PROTOCOL_VIOLATION "bad frame")
        | (.error e, d) => (.error e, d)) := by
  unfold EndsAsPlanned
  cases hwrite : env.writes d.sent.length with
  | error e =>
      rw [sendFrame_error env d _ _ e hwrite]
      simp only [hd, Option.isSome_none, outcome, plan, failure, hwrite]
  | ok _ =>
      rw [sendFrame_ok env d _ _ hwrite]
      simp only [isSome_close, outcome, plan, failure, hwrite, ↓reduceIte]

/-- A frame that decodes: the loop goes on unless a write fails or the outputs
    close the connection. -/
theorem endsAsPlanned_frame (s : HostSession) (frame : Decoded)
    (rest : List (Except Control.Error Decoded)) (last : Except IoError Unit) (d : Driver)
    (next : HostSession → Driver → Except IoError Unit × Driver) (hs : s.state ≠ .Closed)
    (hd : d.closed = none)
    (hnext : ∀ s' d', s'.state ≠ .Closed → d'.closed = none →
      EndsAsPlanned env s' rest last d' (next s' d')) :
    EndsAsPlanned env s (.ok frame :: rest) last d
      (match drive env cfg d (s.onFrame frame).2 with
        | (.ok done, d) =>
          if done then (.ok (), d)
          else if (s.onFrame frame).1.state = .Closed then (.ok (), d)
          else next (s.onFrame frame).1 d
        | (.error e, d) => (.error e, d)) := by
  have hdrive := drive_drives env cfg (s.onFrame frame).2 d
  have hframe := onFrame_reacts s frame
  unfold EndsAsPlanned
  rw [plan]
  dsimp only
  generalize (s.onFrame frame).1 = s' at *
  generalize (s.onFrame frame).2 = outputs at *
  generalize drive env cfg d outputs = r at *
  rcases r with ⟨done, d'⟩
  -- Whether the outputs close, and then whether one of their writes fails first.
  by_cases hc : closes outputs = true
  · rw [if_pos hc]
    cases hfailed : failure env.writes d.sent.length (sends outputs) with
    | some e =>
        rcases hdrive.failed e hfailed with ⟨rfl, hclosed⟩
        have hnone : d'.closed = none := hclosed.trans hd
        simp only [hnone, Option.isSome_none, outcome]
    | none =>
        rcases hdrive.done hfailed hc with ⟨rfl, hclosed⟩
        simp only [↓reduceIte, hclosed, outcome]
  · rw [if_neg hc]
    rw [Bool.not_eq_true] at hc
    cases hfailed : failure env.writes d.sent.length (sends outputs) with
    | some e =>
        rcases hdrive.failed e hfailed with ⟨rfl, hclosed⟩
        have hnone : d'.closed = none := hclosed.trans hd
        simp only [hnone, Option.isSome_none, outcome, failure_add, hfailed, Option.some_or]
    | none =>
        -- Nothing closes, so the session goes on, and so does the loop.
        rcases hdrive.going hfailed hc with ⟨rfl, hclosed, hlen⟩
        have hs' : s'.state ≠ .Closed := by
          intro heq
          rw [hframe.closes hs heq] at hc
          exact absurd hc (by simp only [Bool.true_eq_false, not_false_eq_true])
        have hrest := hnext s' d' hs' (hclosed.trans hd)
        rw [failure_add, hfailed, Option.none_or, ← hlen]
        simpa only [EndsAsPlanned, hs', Bool.false_eq_true, ↓reduceIte] using hrest

/-- The loop ends as planned. -/
theorem sessionFrames_outcome (n : ℕ) : ∀ (s : HostSession) (recv : RecvStream) (d : Driver),
    recv.data.length = n → s.state ≠ .Closed → d.closed = none →
      EndsAsPlanned env s (receive fromReader recv).1 (receive fromReader recv).2 d
        (sessionFrames env cfg fromReader s recv d) := by
  induction n using Nat.strong_induction_on with
  | h n ih =>
      intro s recv d hn hs hd
      -- The induction is on the bytes left to read; every frame takes some.
      rw [sessionFrames]
      split
      · rename_i bytes recv' hread
        rw [receive_frame fromReader recv recv' bytes hread]
        split
        · rename_i decoded hdecode
          rw [hdecode]
          exact endsAsPlanned_frame env cfg s decoded _ _ d _ hs hd (fun s' d' hs' hd' =>
            ih _ (hn ▸ length_readFrame recv recv' bytes hread) s' recv' d' rfl hs' hd')
        · rename_i e hdecode
          rw [hdecode]
          exact endsAsPlanned_badFrame env s e _ _ d hd
      · rename_i recv' hread
        rw [receive_eof fromReader recv recv' hread]
        simp only [EndsAsPlanned, isSome_close, outcome, plan, failure, Bool.false_eq_true,
          ↓reduceIte]
      · -- A failed read, an over-limit prefix among them, closes nothing.
        rename_i e recv' hread
        rw [receive_error fromReader recv recv' e hread]
        simp only [EndsAsPlanned, hd, Option.isSome_none, outcome, plan, failure,
          Bool.false_eq_true, ↓reduceIte]

/-- The inputs on which the connection is closed in the end. It is lost by
    itself or never brings a control stream; or the first of the planned writes
    that fails does so since it is lost; or, when none fails, the plan comes to
    a close, or the control stream ends between two frames, or is lost. -/
def Shut : Prop :=
  env.lost = true ∨
    match env.acceptBi with
    | none => True
    | some recv =>
      let received := receive fromReader recv
      let planned := plan (HostSession.new cfg.name env.sessionId cfg.primary.params
        cfg.extraStreamConfigs) received.1
      match failure env.writes 0 planned.1 with
      | some e => e = .ConnectionLost
      | none =>
        planned.2 = true ∨
          match received.2 with
          | .ok () => True
          | .error e => e.isLost = true

/-- An I/O error of the session loop, or none, that reports the loss. -/
theorem isSome_closeReason (r : Except IoError Unit × Driver) :
    (closeReason env r).isSome = true ↔
      env.lost = true ∨ r.2.closed.isSome = true ∨ ∃ e, r.1 = .error e ∧ e.isLost = true := by
  rcases r with ⟨result, d⟩
  unfold closeReason
  dsimp only
  cases d.closed with
  | some reason => exact iff_of_true rfl (Or.inr (Or.inl rfl))
  | none =>
      -- Nothing has closed it: the loss is there already, or an error reports it.
      cases env.lost with
      | true => exact iff_of_true rfl (Or.inl rfl)
      | false =>
          cases result with
          | ok _ =>
              refine iff_of_false nofun ?_
              rintro (h | h | ⟨e, h, -⟩) <;> cases h
          | error e =>
              dsimp only
              rw [Bool.false_or]
              by_cases hlost : e.isLost = true
              · rw [if_pos hlost]
                exact iff_of_true rfl (Or.inr (Or.inr ⟨e, rfl, hlost⟩))
              · rw [if_neg hlost]
                refine iff_of_false nofun ?_
                rintro (h | h | ⟨e', h, hlost'⟩)
                · cases h
                · cases h
                · exact hlost (Except.error.inj h ▸ hlost')

/-- The session loop leaves the connection closed exactly on these inputs. -/
theorem closeReason_iff : (closeReason env (sessionLoop env cfg fromReader)).isSome = true ↔
    Shut env cfg fromReader := by
  rw [isSome_closeReason, sessionLoop, Shut]
  cases haccept : env.acceptBi with
  | none =>
      -- The driver reports that there is no connection.
      simp only [Option.isSome_none, Bool.false_eq_true, Except.error.injEq, IoError.isLost,
        exists_eq_left', or_true]
  | some recv =>
      dsimp only
      have hend := sessionFrames_outcome env cfg fromReader _ (HostSession.new cfg.name
        env.sessionId cfg.primary.params cfg.extraStreamConfigs) recv {} rfl
        State.noConfusion rfl
      unfold EndsAsPlanned at hend
      generalize sessionFrames env cfg fromReader _ recv {} = r at *
      generalize receive fromReader recv = received at *
      generalize plan _ received.1 = planned at *
      change _ = outcome (failure env.writes 0 planned.1) _ _ at hend
      rcases r with ⟨result, d⟩
      cases hfailed : failure env.writes 0 planned.1 with
      | some e =>
          -- A failed write is the result, and it may report the loss.
          simp only [hfailed, outcome, Prod.mk.injEq] at hend
          rcases hend with ⟨rfl, hclosed⟩
          cases e <;> simp only [hclosed, Bool.false_eq_true, Except.error.injEq, IoError.isLost,
            exists_eq_left', or_self, or_false, reduceCtorEq, or_true]
      | none =>
          rw [hfailed] at hend
          by_cases hc : planned.2 = true
          · simp only [outcome, hc, if_true, Prod.mk.injEq] at hend
            simp only [hend.2, true_or, or_true, hc]
          · cases hlast : received.2 with
            | ok _ =>
                simp only [outcome, hc, hlast, Bool.false_eq_true, if_false, Prod.mk.injEq] at hend
                simp only [hend, reduceCtorEq, false_and, exists_false, or_false, or_true]
            | error e =>
                simp only [outcome, hc, hlast, Bool.false_eq_true, if_false, Prod.mk.injEq] at hend
                simp only [hend, Bool.false_eq_true, Except.error.injEq, exists_eq_left', false_or,
                  hc]

/-- A frame that decodes, on which the loop goes on. -/
theorem sessionFrames_decoded (s : HostSession) (recv : RecvStream) (d : Driver)
    (bytes : List UInt8) (decoded : Decoded) (hread : (readFrame recv).1 = .ok (.Frame bytes))
    (hdecode : decodeFrame fromReader bytes = .ok decoded)
    (hdrive : (drive env cfg d (s.onFrame decoded).2).1 = .ok false)
    (hs : (s.onFrame decoded).1.state ≠ .Closed) :
    sessionFrames env cfg fromReader s recv d =
      sessionFrames env cfg fromReader (s.onFrame decoded).1 (readFrame recv).2
        (drive env cfg d (s.onFrame decoded).2).2 := by
  rw [sessionFrames]
  split
  · rename_i bytes' recv' hread'
    -- The frame read is the one given, so the same outputs are driven.
    rw [hread', Except.ok.injEq, FrameRead.Frame.injEq] at hread
    subst hread
    have hrecv : (readFrame recv).2 = recv' := by rw [hread']
    have hpair : drive env cfg d (s.onFrame decoded).2 =
        (.ok false, (drive env cfg d (s.onFrame decoded).2).2) := Prod.ext hdrive rfl
    rw [hrecv]
    dsimp only
    rw [hdecode]
    dsimp only
    rw [hpair]
    simp only [Bool.false_eq_true, ↓reduceIte, hs]
  · rename_i h
    rw [h] at hread
    -- At the end of the stream, or on an error, no frame was read.
    cases hread
  · rename_i h
    rw [h] at hread
    cases hread

theorem sessionFrames_error (s : HostSession) (recv : RecvStream) (d : Driver) (e : IoError)
    (hread : (readFrame recv).1 = .error e) :
    sessionFrames env cfg fromReader s recv d = (.error e, d) := by
  rw [sessionFrames]
  split
  · rename_i h
    rw [h] at hread
    cases hread
  · rename_i h
    rw [h] at hread
    cases hread
  · rename_i h
    rw [h, Except.error.injEq] at hread
    rw [hread]

end Loop

/-- A client that says HELLO, acknowledges the CONFIG, and then sends the
    prefix of a body one byte over the limit. No write fails, and the
    connection is not lost. -/
def overLimitEnv : Env :=
  { acceptBi := some
      { data := [0, 0, 0, 8, 0x82, 0x01, 0xa2, 0, 1, 2, 0x81, 1] ++
          [0, 0, 0, 5, 0x82, 0x04, 0xa1, 0, 1] ++ [0, 1, 0, 1]
        ending := .Finished }
    writes := fun _ => .ok ()
    clock := fun _ => 0
    sessionId := Vector.replicate 16 0
    lost := false }

def oneStream : HostCfg :=
  { name := "host"
    streams :=
      [{ streamId := 0, params := {}, source := .Synthetic, display := none, x := 0, y := 0 }]
    nonempty := List.cons_ne_nil _ _ }

def limitedReader (bytes : List UInt8) : Option Rfc8949.Item :=
  (Rfc8949.decodeItem 16 bytes).map Prod.fst

/-- The session loop leaves the connection open, with a media thread running. -/
theorem over_limit_left_open :
    closeReason overLimitEnv (sessionLoop overLimitEnv oneStream limitedReader) = none ∧
    runSession overLimitEnv oneStream limitedReader =
      (.error .OverLimit, [{ streamId := 0, params := {} }]) := by
  have hloop : ∃ d, sessionLoop overLimitEnv oneStream limitedReader = (.error .OverLimit, d) ∧
      d.closed = none ∧ d.media = [{ streamId := 0, params := {} }] := by
    -- HELLO and CONFIG_ACK are served, and the third read is an error.
    refine ⟨_, (sessionFrames_decoded _ _ _ _ _ _ _ _ rfl rfl rfl (by decide)).trans
      ((sessionFrames_decoded _ _ _ _ _ _ _ _ rfl rfl rfl (by decide)).trans
        (sessionFrames_error _ _ _ _ _ _ _ rfl)), rfl, rfl⟩
  rcases hloop with ⟨d, hend, hclosed, hmedia⟩
  have hreason : closeReason overLimitEnv (sessionLoop overLimitEnv oneStream limitedReader) =
      none := by
    rw [hend]
    simp only [closeReason, hclosed, overLimitEnv, List.cons_append, List.nil_append,
      IoError.isLost, Bool.or_self, Bool.false_eq_true, ↓reduceIte, Option.orElse_eq_orElse,
      Option.orElse_eq_or, Option.or_self]
  refine ⟨hreason, ?_⟩
  rw [runSession, hreason, hend, hmedia]
  rfl

end Conn

end LoomHost
