import LoomHost.Theory.Conn
import LoomHost.Theory.Session.Language

/-!
# Malformed Control Input

The frames a client puts on the control stream, as `decodeFrame` sees them:
the bytes cut by their length prefixes, up to the first piece it rejects. The
rules are in two places. `readFrame` looks at the prefix and waits for the
body, and `decodeFrame` checks both again once the bytes are complete.

A piece that is complete reaches `decodeFrame`, and if it is rejected there an
ERROR is sent and the connection closed. A prefix over the limit, or a piece
that the end of the stream cuts short, is an I/O error of `readFrame`: the loop
ends with nothing sent and the connection open.

## Main definitions

* `piece`: The first frame of a stream, cut by its length prefix.
* `verdicts`: The frames that decode, and the first piece that does not.
* `processed`: The driver once the session has had some frames.
* `Reported`: A violation is reported and the connection closed with its code.

## Theorems

* `readFrame_complete`, `readFrame_incomplete`: What `readFrame` makes of a piece.
* `sessionFrames_processed`: The loop gets to the first bad piece.
* `bad_frame_reported_iff`: The bad pieces that are reported.
-/

namespace LoomHost

namespace Conn

open Cbor Control Session

/-- The length prefix of a frame. -/
def prefixLen (bytes : List UInt8) : ℕ := BigEndian.ofBE (bytes.take 4)

/-- The first frame of a stream, cut by its length prefix. -/
def piece (data : List UInt8) : List UInt8 := data.take (4 + prefixLen data)

/-- A frame with a prefix within the limit and a body of that length. -/
def Complete (bytes : List UInt8) : Prop :=
  4 ≤ bytes.length ∧ prefixLen bytes ≤ MAX_FRAME_BODY ∧ bytes.length = 4 + prefixLen bytes

instance (bytes : List UInt8) : Decidable (Complete bytes) := inferInstanceAs (Decidable (_ ∧ _))

section Piece

variable {fromReader : List UInt8 → Option Rfc8949.Item} {data : List UInt8}

theorem prefixLen_piece : prefixLen (piece data) = prefixLen data := by
  rw [prefixLen, piece, List.take_take, Nat.min_eq_left (by omega)]
  rfl

theorem length_piece : (piece data).length = min (4 + prefixLen data) data.length :=
  List.length_take

/-- A frame that decodes is complete. -/
theorem complete_of_decodes {decoded : Decoded}
    (h : decodeFrame fromReader (piece data) = .ok decoded) : Complete (piece data) := by
  -- The decoder checks the prefix, its limit and the length of the body in turn.
  unfold decodeFrame at h
  split at h
  case isTrue => simp only [reduceCtorEq] at h
  rename_i hlead
  dsimp only at h
  split at h
  case isTrue => simp only [reduceCtorEq] at h
  rename_i hlimit
  split at h
  case isTrue => simp only [reduceCtorEq] at h
  rename_i hbody
  have hlen := @length_piece data
  have hsame := @prefixLen_piece data
  have hcut : BigEndian.ofBE ((piece data).take 4) = prefixLen (piece data) := rfl
  refine ⟨by omega, by omega, by omega⟩

/-- A complete frame is read, and taken off the stream. -/
theorem readFrame_complete (h : Complete (piece data)) (ending : StreamEnd) :
    readFrame { data, ending } =
      (.ok (.Frame (piece data)), { data := data.drop (piece data).length, ending }) := by
  rcases h with ⟨hlead, hlimit, hbody⟩
  rw [prefixLen_piece] at hlimit hbody
  have hlen := @length_piece data
  -- The two reads, of the prefix and of the body.
  have hread : readExact { data, ending } 4 =
      (.ok (data.take 4), { data := data.drop 4, ending }) := if_pos (by simp only; omega)
  have hrest : readExact { data := data.drop 4, ending } (prefixLen data) =
      (.ok ((data.drop 4).take (prefixLen data)),
        { data := (data.drop 4).drop (prefixLen data), ending }) :=
    if_pos (by simp only [List.length_drop]; omega)
  have hle : ¬ BigEndian.ofBE (data.take 4) > MAX_FRAME_BODY := not_lt.mpr hlimit
  -- What they read, put together, is the piece.
  have hcut : data.take 4 ++ (data.drop 4).take (prefixLen data) = piece data :=
    List.take_add.symm
  have hdrop : (data.drop 4).drop (prefixLen data) = data.drop (piece data).length := by
    rw [List.drop_drop, hbody]
  rw [← hdrop, ← hcut, readFrame, hread]
  dsimp only
  rw [if_neg hle]
  have hbytes : readExact { data := data.drop 4, ending } (BigEndian.ofBE (data.take 4)) =
      (.ok ((data.drop 4).take (prefixLen data)),
        { data := (data.drop 4).drop (prefixLen data), ending }) := hrest
  rw [hbytes]

/-- An incomplete one is an I/O error, if the stream has any bytes and ends. -/
theorem readFrame_incomplete (hdata : data ≠ []) (h : ¬ Complete (piece data)) :
    ∃ e, (readFrame { data, ending := .Finished }).1 = .error e := by
  have hlen := @length_piece data
  have hsame := @prefixLen_piece data
  have hpos := List.length_pos_iff.mpr hdata
  rw [readFrame]
  by_cases hlead : 4 ≤ data.length
  · have hread : readExact { data, ending := .Finished } 4 =
        (.ok (data.take 4), { data := data.drop 4, ending := .Finished }) := if_pos hlead
    rw [hread]
    dsimp only
    -- The prefix is there: it is over the limit, or the body is cut short.
    by_cases hlimit : BigEndian.ofBE (data.take 4) > MAX_FRAME_BODY
    · rw [if_pos hlimit]
      exact ⟨.OverLimit, rfl⟩
    · rw [if_neg hlimit]
      have hcut : BigEndian.ofBE (data.take 4) = prefixLen data := rfl
      have hshort : ¬ BigEndian.ofBE (data.take 4) ≤ (data.drop 4).length := by
        intro hle
        rw [List.length_drop] at hle
        exact h ⟨by omega, by omega, by omega⟩
      rw [readExact, if_neg hshort]
      exact ⟨_, rfl⟩
  · -- The stream ends within the prefix, after a byte at least.
    rw [readExact, if_neg hlead]
    obtain ⟨n, hn⟩ := Nat.exists_eq_add_of_lt hpos
    rw [Nat.zero_add] at hn
    dsimp only
    rw [hn]
    exact ⟨_, rfl⟩

end Piece

/-- The frames of a stream that decode, in order, and the first piece that does
    not. -/
def verdicts (fromReader : List UInt8 → Option Rfc8949.Item) (data : List UInt8) :
    List Decoded × Option (List UInt8) :=
  if hdata : data = [] then ([], none)
  else
    match h : decodeFrame fromReader (piece data) with
    | .error _ => ([], some (piece data))
    | .ok decoded =>
      have : 0 < data.length ∧ 0 < (piece data).length :=
        ⟨List.length_pos_iff.mpr hdata, by have := (complete_of_decodes h).1; omega⟩
      let rest := verdicts fromReader (data.drop (piece data).length)
      (decoded :: rest.1, rest.2)
termination_by data.length

section Verdicts

variable {fromReader : List UInt8 → Option Rfc8949.Item} {data : List UInt8}

theorem verdicts_nil : verdicts fromReader [] = ([], none) := by
  rw [verdicts, dif_pos rfl]

theorem verdicts_error {e : Control.Error} (hdata : data ≠ [])
    (h : decodeFrame fromReader (piece data) = .error e) :
    verdicts fromReader data = ([], some (piece data)) := by
  rw [verdicts, dif_neg hdata]
  split
  · rfl
  · rename_i h'
    cases h.symm.trans h'

theorem verdicts_ok {decoded : Decoded} (hdata : data ≠ [])
    (h : decodeFrame fromReader (piece data) = .ok decoded) :
    verdicts fromReader data =
      (decoded :: (verdicts fromReader (data.drop (piece data).length)).1,
        (verdicts fromReader (data.drop (piece data).length)).2) := by
  rw [verdicts, dif_neg hdata]
  split
  · rename_i h'
    cases h.symm.trans h'
  · rename_i decoded' h'
    rw [h, Except.ok.injEq] at h'
    rw [h']

end Verdicts

/-- The driver once the session has had some frames. -/
def processed (env : Env) (cfg : HostCfg) : HostSession → Driver → List Decoded → Driver
  | _, d, [] => d
  | s, d, frame :: frames =>
    processed env cfg (s.onFrame frame).1 (drive env cfg d (s.onFrame frame).2).2 frames

/-- A violation is reported, and the connection closed with its code. -/
structure Reported (before after : Driver) : Prop where
  sent : after.sent = before.sent ++ [encodeFrame ERROR (errorBody Errors.PROTOCOL_VIOLATION)]
  finished : after.finished = true
  closed : after.closed =
    some (.LocallyClosed Errors.PROTOCOL_VIOLATION.toUInt32 "bad frame")
  media : after.media = before.media

section Loop

variable (env : Env) (cfg : HostCfg) (fromReader : List UInt8 → Option Rfc8949.Item)

theorem failure_of_ok (hwrites : ∀ n, env.writes n = .ok ()) (n : ℕ) :
    ∀ start, failure env.writes start n = none := by
  induction n with
  | zero => exact fun start => rfl
  | succ n ih =>
      intro start
      rw [failure, hwrites]
      exact ih (start + 1)

/-- A session that is open after some frames was open after the first of them. -/
theorem open_of_run (s : HostSession) (frames : List Decoded)
    (h : (s.run frames).state ≠ .Closed) : s.state ≠ .Closed := by
  induction frames generalizing s with
  | nil => exact h
  | cons frame frames ih =>
      intro hs
      have hrest := ih (s.onFrame frame).1 h
      rw [onFrame_closed s hs frame] at hrest
      exact hrest hs

/-- One frame that decodes, while the session stays open and the writes
    succeed. -/
theorem sessionFrames_piece (hwrites : ∀ n, env.writes n = .ok ()) (s : HostSession) (d : Driver)
    (data : List UInt8) (decoded : Decoded)
    (hdecode : decodeFrame fromReader (piece data) = .ok decoded)
    (hs : (s.onFrame decoded).1.state ≠ .Closed) :
    sessionFrames env cfg fromReader s { data, ending := .Finished } d =
      sessionFrames env cfg fromReader (s.onFrame decoded).1
        { data := data.drop (piece data).length, ending := .Finished }
        (drive env cfg d (s.onFrame decoded).2).2 := by
  have hread := readFrame_complete (complete_of_decodes hdecode) .Finished
  have hdrive := drive_drives env cfg (s.onFrame decoded).2 d
  have hgoes := (hdrive.going (failure_of_ok env hwrites _ _)
    ((onFrame_reacts s decoded).goes_on hs)).1
  rw [sessionFrames_decoded env cfg fromReader s _ d (piece data) decoded (by rw [hread]) hdecode
    hgoes hs, hread]

/-- The loop gets to the first bad piece, with the frames before it processed in
    order. -/
theorem sessionFrames_processed (hwrites : ∀ n, env.writes n = .ok ()) (n : ℕ) :
    ∀ (data : List UInt8) (s : HostSession) (d : Driver) (frames : List Decoded)
      (bad : List UInt8), data.length = n → verdicts fromReader data = (frames, some bad) →
      (s.run frames).state ≠ .Closed → d.closed = none →
      ∃ rest, rest ≠ [] ∧ piece rest = bad ∧ (∃ e, decodeFrame fromReader bad = .error e) ∧
        (processed env cfg s d frames).closed = none ∧
        sessionFrames env cfg fromReader s { data, ending := .Finished } d =
          sessionFrames env cfg fromReader (s.run frames) { data := rest, ending := .Finished }
            (processed env cfg s d frames) := by
  induction n using Nat.strong_induction_on with
  | h n ih =>
      intro data s d frames bad hn hverdicts hopen hd
      by_cases hdata : data = []
      · subst hdata
        simp only [verdicts_nil, Prod.mk.injEq, List.nil_eq, reduceCtorEq, and_false] at hverdicts
      cases hdecode : decodeFrame fromReader (piece data) with
      | error e =>
          rw [verdicts_error hdata hdecode, Prod.mk.injEq, Option.some.injEq] at hverdicts
          rcases hverdicts with ⟨rfl, rfl⟩
          exact ⟨data, hdata, rfl, ⟨e, hdecode⟩, hd, rfl⟩
      | ok decoded =>
          -- The loop goes on with what is behind the piece.
          rw [verdicts_ok hdata hdecode, Prod.mk.injEq] at hverdicts
          rcases hverdicts with ⟨rfl, hbad⟩
          have hs := open_of_run (s.onFrame decoded).1 _ hopen
          have hgoes := (drive_drives env cfg (s.onFrame decoded).2 d).going
            (failure_of_ok env hwrites _ _) ((onFrame_reacts s decoded).goes_on hs)
          have hshort : (data.drop (piece data).length).length < n := by
            have hpos := List.length_pos_iff.mpr hdata
            have hcomplete := (complete_of_decodes hdecode).1
            rw [List.length_drop]
            omega
          rw [sessionFrames_piece env cfg fromReader hwrites s d data decoded hdecode hs]
          exact ih _ hshort _ (s.onFrame decoded).1 _ _ bad rfl (Prod.ext rfl hbad) hopen
            (hgoes.2.1.trans hd)

/-- The bad pieces that are reported: a stream whose frames leave the session
    open up to its first bad piece, on which no write fails. An incomplete piece
    ends the loop with nothing sent and nothing closed. -/
theorem bad_frame_reported_iff (data : List UInt8) (frames : List Decoded) (bad : List UInt8)
    (haccept : env.acceptBi = some { data, ending := .Finished })
    (hwrites : ∀ n, env.writes n = .ok ())
    (hverdicts : verdicts fromReader data = (frames, some bad))
    (hopen : ((HostSession.new cfg.name env.sessionId cfg.primary.params
      cfg.extraStreamConfigs).run frames).state ≠ .Closed) :
    (Reported (processed env cfg (HostSession.new cfg.name env.sessionId cfg.primary.params
          cfg.extraStreamConfigs) {} frames) (sessionLoop env cfg fromReader).2 ↔
        Complete bad) ∧
      (¬ Complete bad → ∃ e, sessionLoop env cfg fromReader =
        (.error e, processed env cfg (HostSession.new cfg.name env.sessionId cfg.primary.params
          cfg.extraStreamConfigs) {} frames)) := by
  rcases sessionFrames_processed env cfg fromReader hwrites _ data _ {} frames bad rfl hverdicts
    hopen rfl with ⟨rest, hrest, rfl, ⟨e, hdecode⟩, hclosed, hloop⟩
  rw [sessionLoop, haccept]
  dsimp only
  rw [hloop]
  generalize processed env cfg _ {} frames = d at hclosed ⊢
  by_cases hcomplete : Complete (piece rest)
  · refine ⟨iff_of_true ?_ hcomplete, fun h => absurd hcomplete h⟩
    -- The piece is read, and rejected by the decoder.
    have hread := readFrame_complete hcomplete .Finished
    rw [sessionFrames]
    split
    · rename_i bytes recv' hread'
      rw [hread, Prod.mk.injEq, Except.ok.injEq, FrameRead.Frame.injEq] at hread'
      rcases hread' with ⟨rfl, -⟩
      rw [hdecode, sendFrame_ok env d ERROR _ (hwrites _)]
      refine ⟨rfl, rfl, ?_, rfl⟩
      simp only [Driver.close, Driver.finish, hclosed, Option.orElse_eq_orElse, Option.orElse_eq_or,
        Option.or_some, Option.getD_none]
    · rename_i hread'
      cases hread.symm.trans hread'
    · rename_i hread'
      cases hread.symm.trans hread'
  · rcases readFrame_incomplete hrest hcomplete with ⟨e', hread⟩
    rw [sessionFrames_error env cfg fromReader _ _ d e' hread]
    refine ⟨iff_of_false (fun h => ?_) hcomplete, fun _ => ⟨e', rfl⟩⟩
    -- No ERROR has been sent.
    exact absurd h.sent (by simp only [List.self_eq_append_right, List.cons_ne_self,
      not_false_eq_true])

end Loop

/-- A client whose stream is these bytes. No write fails. -/
def clientEnv (data : List UInt8) : Env :=
  { overLimitEnv with acceptBi := some { data, ending := .Finished } }

/-- HELLO, and a body that is no CBOR item. -/
def badCborStream : List UInt8 :=
  [0, 0, 0, 8, 0x82, 0x01, 0xa2, 0, 1, 2, 0x81, 1] ++ [0, 0, 0, 1, 0xff]

theorem bad_frame_reported_iff_cbor :
    (Reported (processed (clientEnv badCborStream) oneStream (HostSession.new "host"
        (Vector.replicate 16 0) {} []) {} [.Message HELLO [(.Int 0, .Int 1), (.Int 2,
          .Array [.Int 1])]]) (sessionLoop (clientEnv badCborStream) oneStream limitedReader).2 ↔
      Complete [0, 0, 0, 1, 0xff]) ∧
    (¬ Complete [0, 0, 0, 1, 0xff] → ∃ e, sessionLoop (clientEnv badCborStream) oneStream
        limitedReader = (.error e, processed (clientEnv badCborStream) oneStream (HostSession.new
          "host" (Vector.replicate 16 0) {} []) {} [.Message HELLO [(.Int 0, .Int 1), (.Int 2,
            .Array [.Int 1])]])) := by
  have hverdicts : verdicts limitedReader badCborStream =
      ([.Message HELLO [(.Int 0, .Int 1), (.Int 2, .Array [.Int 1])]],
        some [0, 0, 0, 1, 0xff]) := by
    have hbad : verdicts limitedReader [0, 0, 0, 1, 0xff] = ([], some [0, 0, 0, 1, 0xff]) :=
      verdicts_error (List.cons_ne_nil _ _) (e := .ProtocolViolation) rfl
    have hello : decodeFrame limitedReader (piece badCborStream) =
        .ok (.Message HELLO [(.Int 0, .Int 1), (.Int 2, .Array [.Int 1])]) := rfl
    have hrest : badCborStream.drop (piece badCborStream).length = [0, 0, 0, 1, 0xff] := rfl
    have hsome : badCborStream ≠ [] := List.cons_ne_nil _ _
    rw [verdicts_ok hsome hello, hrest, hbad]
  exact bad_frame_reported_iff (clientEnv badCborStream) oneStream limitedReader badCborStream _ _
    rfl (fun _ => rfl) hverdicts State.noConfusion

/-- A prefix one over the limit is rejected by the decoder and not reported. -/
theorem over_limit_not_reported :
    verdicts limitedReader [0, 1, 0, 1] = ([], some [0, 1, 0, 1]) ∧
    ¬ Reported (processed (clientEnv [0, 1, 0, 1]) oneStream (HostSession.new "host"
      (Vector.replicate 16 0) {} []) {} [])
        (sessionLoop (clientEnv [0, 1, 0, 1]) oneStream limitedReader).2 := by
  refine ⟨verdicts_error (List.cons_ne_nil _ _) (e := .ProtocolViolation) rfl, fun h => ?_⟩
  have hloop : sessionLoop (clientEnv [0, 1, 0, 1]) oneStream limitedReader =
      (.error .OverLimit, {}) := sessionFrames_error _ _ _ _ _ _ _ rfl
  have hsent := h.sent
  rw [hloop] at hsent
  simp only [processed, List.nil_append, List.ne_cons_self] at hsent

end Conn

end LoomHost
