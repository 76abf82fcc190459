import LoomHost.Core.Control

/-!
# The Control Stream

The control stream as the host meets it, and `read_frame` of
`loomd/src/conn.rs` on it. The receiving side is the bytes that arrive and how
the stream goes on after them: the peer finishes it, or reading fails.

`readExact` is the transport's: it fills the buffer, or reports how many bytes
there were before the stream finished, or the error.

## Main definitions

* `RecvStream`: The receiving side, from the reader's position on.
* `readExact`: The transport's exact read.
* `readFrame`: One length-prefixed control frame.
* `readFrames`: All of them, up to the end or the first error.
* `receive`: All of them, decoded.

## Theorems

* `readExact_ok`: What an exact read returns and leaves.
* `length_readFrame`: Reading a frame takes its bytes off the stream.
-/

namespace LoomHost

namespace Conn

open Control

/-- Why reading a stream fails. -/
inductive ReadError where
  /-- The peer reset the stream. -/
  | Reset (code : ℕ)
  | ConnectionLost
  deriving Repr, DecidableEq

/-- Why an exact read fails. -/
inductive ReadExactError where
  /-- The stream finished after so many bytes. -/
  | FinishedEarly (n : ℕ)
  | ReadError (e : ReadError)
  deriving Repr, DecidableEq

/-- Why writing a stream fails. -/
inductive WriteError where
  /-- The peer stopped the stream. -/
  | Stopped (code : ℕ)
  | ConnectionLost
  deriving Repr, DecidableEq

/-- An I/O error of the driver, named by what it was doing. -/
inductive IoError where
  | AcceptBi
  | ReadLen (e : ReadExactError)
  | OverLimit
  | ReadBody (e : ReadExactError)
  | Write (e : WriteError)
  deriving Repr, DecidableEq

/-- How a stream goes on after the bytes that arrive. -/
inductive StreamEnd where
  | Finished
  | Failed (e : ReadError)
  deriving Repr, DecidableEq

/-- The receiving side of a stream, from the reader's position on. -/
structure RecvStream where
  data : List UInt8
  ending : StreamEnd
  deriving Repr, DecidableEq

/-- Fill a buffer of `n` bytes. -/
def readExact (recv : RecvStream) (n : ℕ) : Except ReadExactError (List UInt8) × RecvStream :=
  if n ≤ recv.data.length then
    (.ok (recv.data.take n), { recv with data := recv.data.drop n })
  else
    match recv.ending with
    | .Finished => (.error (.FinishedEarly recv.data.length), { recv with data := [] })
    | .Failed e => (.error (.ReadError e), { recv with data := [] })

/-- The outcome of reading a frame. -/
inductive FrameRead where
  | Frame (bytes : List UInt8)
  | Eof
  deriving Repr, DecidableEq

/-- Read one length-prefixed control frame. The frame keeps its prefix. -/
def readFrame (recv : RecvStream) : Except IoError FrameRead × RecvStream :=
  match readExact recv 4 with
  | (.ok lenBuf, recv) =>
    let len := BigEndian.ofBE lenBuf
    if len > MAX_FRAME_BODY then (.error .OverLimit, recv)
    else
      match readExact recv len with
      | (.ok body, recv) => (.ok (.Frame (lenBuf ++ body)), recv)
      | (.error e, recv) => (.error (.ReadBody e), recv)
  | (.error (.FinishedEarly 0), recv) => (.ok .Eof, recv)
  | (.error e, recv) => (.error (.ReadLen e), recv)

/-- An exact read that succeeds returns the first bytes and leaves the rest. -/
theorem readExact_ok (recv recv' : RecvStream) (n : ℕ) (bytes : List UInt8)
    (h : readExact recv n = (.ok bytes, recv')) :
    n ≤ recv.data.length ∧ bytes = recv.data.take n ∧
      recv' = { recv with data := recv.data.drop n } := by
  unfold readExact at h
  split_ifs at h with hlen
  · simp only [Prod.mk.injEq, Except.ok.injEq] at h
    exact ⟨hlen, h.1.symm, h.2.symm⟩
  · -- Without enough bytes the read fails.
    cases hend : recv.ending <;> simp only [hend, Prod.mk.injEq, reduceCtorEq, false_and] at h

/-- Reading a frame takes at least its prefix off the stream. -/
theorem length_readFrame (recv recv' : RecvStream) (bytes : List UInt8)
    (h : readFrame recv = (.ok (.Frame bytes), recv')) :
    recv'.data.length < recv.data.length := by
  unfold readFrame at h
  split at h
  · rename_i lenBuf recv₁ hprefix
    rcases readExact_ok _ _ _ _ hprefix with ⟨hlen, -, rfl⟩
    dsimp only at h
    split_ifs at h
    · simp only [Prod.mk.injEq, reduceCtorEq, false_and] at h
    · split at h
      · rename_i body recv₂ hbody
        rcases readExact_ok _ _ _ _ hbody with ⟨-, -, rfl⟩
        simp only [Prod.mk.injEq] at h
        rw [← h.2]
        simp only [List.length_drop]
        omega
      · simp only [Prod.mk.injEq, reduceCtorEq, false_and] at h
  · simp only [Prod.mk.injEq, Except.ok.injEq, reduceCtorEq, false_and] at h
  · simp only [Prod.mk.injEq, reduceCtorEq, false_and] at h

/-- Read frame after frame, up to the end of the stream or the first error. -/
def readFrames (recv : RecvStream) : List (List UInt8) × Except IoError Unit :=
  match h : readFrame recv with
  | (.ok (.Frame bytes), recv') =>
    have := length_readFrame recv recv' bytes h
    let (frames, last) := readFrames recv'
    (bytes :: frames, last)
  | (.ok .Eof, _) => ([], .ok ())
  | (.error e, _) => ([], .error e)
termination_by recv.data.length

theorem readFrames_frame (recv recv' : RecvStream) (bytes : List UInt8)
    (h : readFrame recv = (.ok (.Frame bytes), recv')) :
    readFrames recv = (bytes :: (readFrames recv').1, (readFrames recv').2) := by
  rw [readFrames]
  split
  · rename_i bytes' recv'' h'
    rw [h, Prod.mk.injEq, Except.ok.injEq, FrameRead.Frame.injEq] at h'
    rw [h'.1, h'.2]
  · rename_i h'
    cases h.symm.trans h'
  · rename_i h'
    cases h.symm.trans h'

theorem readFrames_eof (recv recv' : RecvStream) (h : readFrame recv = (.ok .Eof, recv')) :
    readFrames recv = ([], .ok ()) := by
  rw [readFrames]
  split
  · rename_i h'
    cases h.symm.trans h'
  · rfl
  · rename_i h'
    cases h.symm.trans h'

theorem readFrames_error (recv recv' : RecvStream) (e : IoError)
    (h : readFrame recv = (.error e, recv')) : readFrames recv = ([], .error e) := by
  rw [readFrames]
  split
  · rename_i h'
    cases h.symm.trans h'
  · rename_i h'
    cases h.symm.trans h'
  · rename_i e' recv'' h'
    rw [h, Prod.mk.injEq, Except.error.injEq] at h'
    rw [h'.1]

/-- Read and decode frame after frame: the outcomes in order, and how the
    stream ends. -/
def receive (fromReader : List UInt8 → Option Rfc8949.Item) (recv : RecvStream) :
    List (Except Error Decoded) × Except IoError Unit :=
  ((readFrames recv).1.map (decodeFrame fromReader), (readFrames recv).2)

end Conn

end LoomHost
