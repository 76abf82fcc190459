import Mathlib.Data.UInt
import LoomHost.Lib.OrdMap

/-!
# The Client Receive Model

The reassembler of `loom-proto/src/reassembly.rs`: fragments go in one at a
time with their arrival time, deliver and IDR-request events come out, and
three counters record what was lost on the way.

The in-flight map is the ordered map of the standard library, so that the
oldest frame is the head of its key list as it is in the source. Times are
`i64`, and their difference wraps as the release arithmetic does. The two
`expect` calls of `push` are the two places where `push?` returns `none`;
`push?_isSome` says neither is ever reached, and `push` is `push?` without
the option.

`admission` gathers the tests `push` makes before it touches an entry. It is
the source's own sequence of tests, named so that a run can be read as a
sequence of admissions.

## Main definitions

* `Fragment`, `Event`, `Counters`, `Incomplete`, `Reassembler`: The data.
* `admission`: What rules 1 and 2 make of a fragment.
* `accept?`: A fragment enters its frame's entry, completing it or not.
* `sweep`, `gate`: A frame is complete: rule-1 cleanup and decode gating.
* `push?`: One fragment, with the `expect` calls as `none`.
* `push`: One fragment.
* `pushAll`: A trace of fragments.

## Theorems

* `push?_isSome`: No push reaches an `expect` failure.
* `push?_eq`: A push, by the admission of its fragment.
-/

namespace LoomHost

namespace Reassembly

/-- The subset of a video datagram header that drives reassembly. -/
structure Fragment where
  /-- Per-stream frame counter. -/
  frameSeq : UInt32
  /-- 0-based fragment index. -/
  fragIndex : UInt16
  /-- Total fragments for this frame. -/
  fragCount : UInt16
  /-- Whether this frame is a keyframe. -/
  keyframe : Bool
  deriving Repr, DecidableEq

/-- An event emitted by the reassembler, in occurrence order. -/
inductive Event where
  /-- A completed frame handed to the decoder. -/
  | Deliver (tMs : Int64) (frameSeq : UInt32) (keyframe : Bool)
  /-- A keyframe request to be sent on the control stream. -/
  | IdrRequest (tMs : Int64) (lastGood : UInt32)
  deriving Repr, DecidableEq

/-- Running counters over a trace. -/
structure Counters where
  /-- Rule-2 evictions and rule-1 cleanup of incomplete frames. -/
  droppedIncomplete : Nat := 0
  /-- Completed frames discarded by decode gating. -/
  discardedGap : Nat := 0
  /-- Fragments dropped as stale. -/
  staleFragments : Nat := 0
  deriving Repr, DecidableEq

/-- A frame in flight: how many fragments it needs, the distinct indices it
    has, and the keyframe flag of its first fragment. -/
structure Incomplete where
  need : UInt16
  got : Finset UInt16
  keyframe : Bool
  deriving DecidableEq

/-- One more fragment index; a duplicate is idempotent. -/
def Incomplete.receive (e : Incomplete) (frag : Fragment) : Incomplete :=
  { e with got := insert frag.fragIndex e.got }

/-- The reassembly, decode-gating and IDR-request state machine. -/
structure Reassembler where
  /-- Highest `frameSeq` fully reassembled, `-1` before any. -/
  newestComplete : Int
  /-- Newest `frameSeq` delivered to the decoder. -/
  lastDecoded : Option Int
  /-- In-flight incomplete frames, keyed by `frameSeq`. -/
  incomplete : Std.ExtTreeMap UInt32 Incomplete
  events : List Event
  counters : Counters
  /-- Last IDR request time. -/
  idrLastT : Option Int64

namespace Reassembler

/-- A fresh reassembler with no history. -/
def new : Reassembler :=
  { newestComplete := -1, lastDecoded := none, incomplete := ∅, events := [],
    counters := {}, idrLastT := none }

/-- Hand a completed frame to the decoder. -/
def deliver (r : Reassembler) (tMs : Int64) (seq : UInt32) (keyframe : Bool) : Reassembler :=
  { r with
    events := r.events ++ [.Deliver tMs seq keyframe]
    lastDecoded := some seq.toNat }

/-- Raise an IDR request, at most one per 250 ms. -/
def maybeIdr (r : Reassembler) (tMs : Int64) : Reassembler :=
  let request : Reassembler :=
    { r with
      events := r.events ++ [.IdrRequest tMs (UInt32.ofInt (r.lastDecoded.getD 0))]
      idrLastT := some tMs }
  match r.idrLastT with
  | some last => if tMs - last < 250 then r else request
  | none => request

/-- What rules 1 and 2 make of a fragment. -/
inductive Admission where
  /-- At or below the newest completed frame, or older than a full window. -/
  | stale
  /-- Its frame is already in flight. -/
  | present
  /-- Its frame opens a new entry, and there is room for it. -/
  | opened
  /-- Its frame opens a new entry, and the oldest one makes way. -/
  | evicting (oldest : UInt32)
  deriving Repr, DecidableEq

/-- The tests of `push` before it touches an entry. The `none` is the
    `expect("non-empty")` on the oldest key of a full window. -/
def admission (r : Reassembler) (frag : Fragment) : Option Admission :=
  if (frag.frameSeq.toNat : Int) ≤ r.newestComplete then some .stale
  else if frag.frameSeq ∈ r.incomplete then some .present
  else if 2 ≤ r.incomplete.size then
    r.incomplete.keys.head?.map fun oldest =>
      if oldest < frag.frameSeq then .evicting oldest else .stale
  else some .opened

/-- A stale fragment is counted and dropped. -/
def dropStale (r : Reassembler) : Reassembler :=
  { r with counters.staleFragments := r.counters.staleFragments + 1 }

/-- The oldest entry makes way. -/
def evict (r : Reassembler) (oldest : UInt32) : Reassembler :=
  { r with
    incomplete := r.incomplete.erase oldest
    counters.droppedIncomplete := r.counters.droppedIncomplete + 1 }

/-- A new entry, with the count and keyframe flag of its first fragment. -/
def insert (r : Reassembler) (frag : Fragment) : Reassembler :=
  { r with
    incomplete := r.incomplete.insert frag.frameSeq
      { need := frag.fragCount, got := ∅, keyframe := frag.keyframe } }

/-- Rule-1 cleanup once `seq` is complete: every frame still in flight at or
    below the newest complete one dies. -/
def sweep (r : Reassembler) (seq : UInt32) : Reassembler :=
  let incomplete := r.incomplete.erase seq
  let newestComplete := max r.newestComplete seq.toNat
  let stale := incomplete.keys.filter fun s => (s.toNat : Int) ≤ newestComplete
  { r with
    newestComplete := newestComplete
    incomplete := OrdMap.eraseAll incomplete stale
    counters.droppedIncomplete := r.counters.droppedIncomplete + stale.length }

/-- Rule 3, decode gating: a keyframe is delivered, another frame only right
    after its predecessor. -/
def gate (r : Reassembler) (tMs : Int64) (seq : UInt32) (keyframe : Bool) : Reassembler :=
  if keyframe then r.deliver tMs seq true
  else if r.lastDecoded = some ((seq.toNat : Int) - 1) then r.deliver tMs seq false
  else { r with counters.discardedGap := r.counters.discardedGap + 1 }.maybeIdr tMs

/-- A fragment enters its frame's entry and may complete it. The `none` is
    the `expect("just inserted")`. -/
def accept? (r : Reassembler) (tMs : Int64) (frag : Fragment) : Option Reassembler :=
  r.incomplete[frag.frameSeq]?.map fun entry =>
    let entry := entry.receive frag
    if entry.got.card ≠ entry.need.toNat then
      { r with incomplete := r.incomplete.insert frag.frameSeq entry }
    else (r.sweep frag.frameSeq).gate tMs frag.frameSeq entry.keyframe

/-- Feed one fragment that arrived at time `tMs`, with `none` for a failed
    `expect`. -/
def push? (r : Reassembler) (tMs : Int64) (frag : Fragment) : Option Reassembler :=
  (r.admission frag).bind fun
    | .stale => some r.dropStale
    | .present => r.accept? tMs frag
    | .opened => (r.insert frag).accept? tMs frag
    | .evicting oldest => ((r.evict oldest).insert frag).accept? tMs frag

theorem accept?_isSome (r : Reassembler) (tMs : Int64) (frag : Fragment)
    (h : frag.frameSeq ∈ r.incomplete) : (r.accept? tMs frag).isSome := by
  rw [accept?, Option.isSome_map, Std.ExtTreeMap.isSome_getElem?_eq_contains]
  exact h

theorem mem_insert_self (r : Reassembler) (frag : Fragment) :
    frag.frameSeq ∈ (r.insert frag).incomplete :=
  Std.ExtTreeMap.mem_insert_self

/-- A full window has an oldest key. -/
theorem head?_keys_isSome (r : Reassembler) (h : 2 ≤ r.incomplete.size) :
    r.incomplete.keys.head?.isSome := by
  rw [List.isSome_head?, ← List.length_pos_iff, Std.ExtTreeMap.length_keys]
  omega

theorem admission_isSome (r : Reassembler) (frag : Fragment) : (r.admission frag).isSome := by
  unfold admission
  split_ifs with hstale hmem hfull
  · rfl
  · rfl
  · rw [Option.isSome_map]
    exact r.head?_keys_isSome hfull
  · rfl

theorem mem_of_admission_present (r : Reassembler) (frag : Fragment)
    (h : r.admission frag = some .present) : frag.frameSeq ∈ r.incomplete := by
  unfold admission at h
  split_ifs at h with hstale hmem hfull
  · simp only [Option.some.injEq, reduceCtorEq] at h
  · exact hmem
  · rcases hhead : r.incomplete.keys.head? with _ | oldest
    · simp only [hhead, Option.map_none, reduceCtorEq] at h
    · simp only [hhead, Option.map_some, Option.some.injEq] at h
      split_ifs at h
  · simp only [Option.some.injEq, reduceCtorEq] at h

/-- Neither `expect` of `push` is ever reached, whatever the state. -/
theorem push?_isSome (r : Reassembler) (tMs : Int64) (frag : Fragment) :
    (r.push? tMs frag).isSome := by
  rcases Option.isSome_iff_exists.mp (r.admission_isSome frag) with ⟨a, ha⟩
  rw [push?, ha, Option.bind_some]
  cases a with
  | stale => rfl
  | present => exact r.accept?_isSome tMs frag (r.mem_of_admission_present frag ha)
  | opened => exact accept?_isSome _ tMs frag (mem_insert_self _ frag)
  | evicting oldest => exact accept?_isSome _ tMs frag (mem_insert_self _ frag)

/-- Feed one fragment that arrived at time `tMs`. -/
def push (r : Reassembler) (tMs : Int64) (frag : Fragment) : Reassembler :=
  (r.push? tMs frag).get (r.push?_isSome tMs frag)

theorem push?_eq (r : Reassembler) (tMs : Int64) (frag : Fragment) :
    r.push? tMs frag = some (r.push tMs frag) := by
  rw [push, Option.some_get]

/-- Feed a trace of `(tMs, fragment)` tuples. -/
def pushAll (r : Reassembler) (trace : List (Int64 × Fragment)) : Reassembler :=
  trace.foldl (fun r x => r.push x.1 x.2) r

@[simp] theorem pushAll_nil (r : Reassembler) : r.pushAll [] = r := rfl

@[simp] theorem pushAll_cons (r : Reassembler) (x : Int64 × Fragment)
    (trace : List (Int64 × Fragment)) :
    r.pushAll (x :: trace) = (r.push x.1 x.2).pushAll trace := rfl

theorem pushAll_append (r : Reassembler) (a b : List (Int64 × Fragment)) :
    r.pushAll (a ++ b) = (r.pushAll a).pushAll b := List.foldl_append

/-- What every push preserves, a trace preserves. -/
theorem pushAll_invariant {P : Reassembler → Prop}
    (hstep : ∀ r tMs frag, P r → P (r.push tMs frag)) :
    ∀ (trace : List (Int64 × Fragment)) (r : Reassembler), P r → P (r.pushAll trace) := by
  intro trace
  induction trace with
  | nil => exact fun r hr => hr
  | cons x rest ih => exact fun r hr => ih _ (hstep r x.1 x.2 hr)

end Reassembler

end Reassembly

end LoomHost
