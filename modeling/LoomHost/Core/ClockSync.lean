import LoomHost.Lib.SlidingMin

/-!
# Clock Synchronization

The min-filter of `loom-proto/src/clocksync.rs`. From each PING/PONG exchange
with client times `t0` (send) and `t3` (PONG receive) and host times `t1` and
`t2`:

    rtt    = (t3 - t0) - (t2 - t1)
    offset = floor(((t1 - t0) + (t2 - t3)) / 2)

The times are microseconds in an `i64`, which wraps.

## Main definitions

* `Estimate`, `ClockFilter`: The data.
* `divEuclid`: The division of the standard library.
* `push`: One sample.
-/

namespace LoomHost

namespace ClockSync

open SlidingMin

/-- Sliding-window size. -/
def WINDOW : ℕ := 16

/-- A clock-offset and round-trip estimate in microseconds. -/
structure Estimate where
  /-- Round-trip time. -/
  rtt : Int64
  /-- What to add to a client time for the host's. -/
  offset : Int64
  deriving Repr, DecidableEq

/-- Euclidean division of the standard library: the remainder of the truncating
    division decides the correction. -/
def divEuclid (a b : Int64) : Int64 :=
  let q := a / b
  if a % b < 0 then (if b > 0 then q - 1 else q + 1) else q

/-- The min-rtt sliding-window filter. -/
structure ClockFilter where
  window : List Estimate
  deriving Repr, DecidableEq

namespace ClockFilter

/-- A fresh, empty filter. -/
def new : ClockFilter := { window := [] }

/-- The estimate of one exchange. -/
def estimate (t0 t1 t2 t3 : Int64) : Estimate :=
  { rtt := (t3 - t0) - (t2 - t1), offset := divEuclid ((t1 - t0) + (t2 - t3)) 2 }

/-- Incorporate one PING/PONG sample, and the current estimate: the minimum rtt
    over the window, on a tie the more recent sample. -/
def push (f : ClockFilter) (t0 t1 t2 t3 : Int64) : ClockFilter × Estimate :=
  let window := slide WINDOW f.window (estimate t0 t1 t2 t3)
  have hwindow := slide_ne_nil WINDOW (by decide) f.window (estimate t0 t1 t2 t3)
  ({ window }, latestMin (fun s best => s.rtt ≤ best.rtt) (window.head hwindow) window.tail)

end ClockFilter

end ClockSync

end LoomHost
