import Mathlib.Data.List.DropRight
import Mathlib.Order.Defs.Unbundled

/-!
# Sliding Minima

A bounded window over a stream of items, and the minimum of what is in it. The
window takes an item at its end and drops the oldest one when it holds more
than its capacity; the minimum is found by one scan from the oldest item to the
newest that moves on at every item that is no greater than the best so far.

The window is the end of the stream (`foldl_slide`), and the scan stops at the
latest of the least items (`latestMin_spec`), whatever ties there are. The
order may be any total preorder, so that items are compared by a part of them.

## Main definitions

* `slide`: One item enters the window.
* `latestMin`: The scan.
* `LatestMin`: What the scan is to find.

## Theorems

* `slide_ne_nil`: A window that has taken an item is not empty.
* `foldl_slide`: The window is the end of the stream.
* `latestMin_spec`: The scan finds the latest of the least items.
* `LatestMin.of_map`: Least items of an image.
-/

namespace LoomHost

namespace SlidingMin

variable {α β : Type*}

/-- An item enters a window of capacity `cap` at the end, and the oldest one
    leaves it if it is over full. -/
def slide (cap : ℕ) (window : List α) (x : α) : List α :=
  if (window ++ [x]).length > cap then (window ++ [x]).tail else window ++ [x]

/-- The best of an item and those after it: the scan moves on at every item that
    is no greater than the best so far. -/
def latestMin (le : α → α → Prop) [DecidableRel le] (best : α) (rest : List α) : α :=
  rest.foldl (fun best x => if le x best then x else best) best

/-- An item of the list is no greater than any before it and less than every one
    after it. -/
def LatestMin (le : α → α → Prop) (items : List α) (x : α) : Prop :=
  ∃ before after, items = before ++ x :: after ∧ (∀ y ∈ before, le x y) ∧
    ∀ y ∈ after, ¬ le y x

section Window

/-- A window that has taken an item is not empty. -/
theorem slide_ne_nil (cap : ℕ) (hcap : 0 < cap) (window : List α) (x : α) :
    slide cap window x ≠ [] := by
  intro hnil
  have hlen := congrArg List.length hnil
  unfold slide at hlen
  split at hlen
  · rename_i hfull
    rw [List.length_tail, List.length_nil] at hlen
    omega
  · rw [List.length_append, List.length_singleton, List.length_nil] at hlen
    omega

/-- The end of an image is the image of the end. -/
theorem rtake_map (f : α → β) (n : ℕ) (items : List α) :
    (items.map f).rtake n = (items.rtake n).map f := by
  rw [List.rtake, List.rtake, List.map_drop, List.length_map]

/-- The end of a stream, after one more item. -/
theorem slide_rtake (cap : ℕ) (items : List α) (x : α) :
    slide cap (items.rtake cap) x = (items ++ [x]).rtake cap := by
  have hlen : (items.rtake cap ++ [x]).length = min cap items.length + 1 := by
    rw [List.length_append, List.rtake, List.length_drop, List.length_singleton]
    omega
  unfold slide
  by_cases hfull : items.length < cap
  · -- There is room: the window is the whole stream.
    have hall (l : List α) (hl : l.length ≤ cap) : l.rtake cap = l := by
      rw [List.rtake, Nat.sub_eq_zero_of_le hl, List.drop_zero]
    rw [if_neg (by omega), hall items (by omega), hall]
    rw [List.length_append, List.length_singleton]
    omega
  · -- The window is full, so its oldest item leaves.
    rw [if_pos (by omega), List.rtake, List.rtake, ← List.drop_one,
      ← List.drop_append_of_le_length (by omega), List.drop_drop, List.length_append,
      List.length_singleton]
    congr 1
    omega

/-- The window is the end of the stream. -/
theorem foldl_slide (cap : ℕ) (items : List α) :
    items.foldl (slide cap) [] = items.rtake cap := by
  induction items using List.reverseRecOn with
  | nil => rw [List.foldl_nil, List.rtake_nil]
  | append_singleton items x ih => rw [List.foldl_append, ih, List.foldl_cons, List.foldl_nil,
      slide_rtake]

end Window

section Scan

variable {le : α → α → Prop}

/-- The latest of the least items is no greater than any. -/
theorem LatestMin.le_all [Std.Total le] {items : List α} {x : α} (h : LatestMin le items x)
    (y : α) (hy : y ∈ items) : le x y := by
  rcases h with ⟨before, after, rfl, hbefore, hafter⟩
  rcases List.mem_append.mp hy with hy | hy
  · exact hbefore y hy
  rcases List.mem_cons.mp hy with rfl | hy
  · exact (Std.Total.total y y).elim id id
  · exact (Std.Total.total x y).resolve_right (hafter y hy)

/-- It is one of the items. -/
theorem LatestMin.mem {items : List α} {x : α} (h : LatestMin le items x) : x ∈ items := by
  rcases h with ⟨before, after, rfl, -, -⟩
  exact List.mem_append_right before List.mem_cons_self

/-- The scan finds the latest of the least items. -/
theorem latestMin_spec [DecidableRel le] [Std.Total le] [IsTrans α le] (best : α)
    (rest : List α) : LatestMin le (best :: rest) (latestMin le best rest) := by
  induction rest using List.reverseRecOn with
  | nil =>
      exact ⟨[], [], rfl, fun y hy => absurd hy List.not_mem_nil,
        fun y hy => absurd hy List.not_mem_nil⟩
  | append_singleton rest x ih =>
      have hscan : latestMin le best (rest ++ [x]) =
          if le x (latestMin le best rest) then x else latestMin le best rest := by
        rw [latestMin, List.foldl_append, List.foldl_cons, List.foldl_nil]
        rfl
      rw [hscan, ← List.cons_append]
      split
      · -- The last item is no greater than the best, which is no greater than the others.
        rename_i hle
        refine ⟨best :: rest, [], rfl, fun y hy => ?_, fun y hy => absurd hy List.not_mem_nil⟩
        exact IsTrans.trans x _ y hle (ih.le_all y hy)
      · -- The last item is greater, and the best stays what it was.
        rename_i hlt
        rcases ih with ⟨before, after, heq, hbefore, hafter⟩
        refine ⟨before, after ++ [x], ?_, hbefore, fun y hy => ?_⟩
        · rw [heq, List.append_assoc, List.cons_append]
        · rcases List.mem_append.mp hy with hy | hy
          · exact hafter y hy
          · rw [List.mem_singleton.mp hy]
            exact hlt

/-- The latest of the least images is the image of the latest of the least. -/
theorem LatestMin.of_map {le' : β → β → Prop} (f : α → β) {items : List α} {y : β}
    (h : LatestMin le' (items.map f) y) (hle : ∀ a ∈ items, ∀ b ∈ items, le' (f a) (f b) ↔ le a b) :
    ∃ x, y = f x ∧ LatestMin le items x := by
  rcases h with ⟨before', after', heq, hbefore, hafter⟩
  rcases List.map_eq_append_iff.mp heq with ⟨before, rest, rfl, rfl, hrest⟩
  rcases List.map_eq_cons_iff.mp hrest with ⟨x, after, rfl, rfl, rfl⟩
  have hx : x ∈ before ++ x :: after := List.mem_append_right before List.mem_cons_self
  refine ⟨x, rfl, before, after, rfl, fun z hz => ?_, fun z hz => ?_⟩
  · exact (hle x hx z (List.mem_append_left _ hz)).mp (hbefore (f z) (List.mem_map_of_mem hz))
  · have hz' : z ∈ before ++ x :: after :=
      List.mem_append_right before (List.mem_cons_of_mem x hz)
    exact fun hzx => hafter (f z) (List.mem_map_of_mem hz) ((hle z hz' x hx).mpr hzx)

end Scan

end SlidingMin

end LoomHost
