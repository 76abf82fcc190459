import Mathlib.Data.List.Basic

/-!
# Writing Pieces into a Buffer

A list that is cut into pieces and written back, piece by piece, each at its
own position. If every write is a piece of the list and together they cover
it, the buffer ends up being the list, in whatever order the pieces are
written, however often, and whatever the buffer held before.

## Main definitions

* `write`: Overwriting a range of a buffer, growing it where it is too short.
* `writeAll`: A list of writes, one after the other.
* `Piece`: The written range is a range of the list.

## Theorems

* `getElem?_write_of_mem`: A write decides the positions it covers.
* `getElem?_write_of_not_mem`: A write keeps the positions it does not cover.
* `writeAll_eq`: Pieces that cover a list rebuild it.
-/

namespace LoomHost

namespace Pieces

variable {α : Type*}

/-- Overwrite `buf` from position `off` on with `ys`. A buffer that ends before
    `off` is padded first. -/
def write (pad : α) (buf : List α) (off : ℕ) (ys : List α) : List α :=
  (buf ++ List.replicate (off - buf.length) pad).take off ++ ys ++ buf.drop (off + ys.length)

/-- A list of writes, one after the other. -/
def writeAll (pad : α) (buf : List α) (ws : List (ℕ × List α)) : List α :=
  ws.foldl (fun buf w => write pad buf w.1 w.2) buf

/-- The elements `ys` stand in `xs` from position `off` on. -/
def Piece (xs : List α) (off : ℕ) (ys : List α) : Prop :=
  ∃ before after, xs = before ++ ys ++ after ∧ before.length = off

theorem Piece.le {xs ys : List α} {off : ℕ} (h : Piece xs off ys) :
    off + ys.length ≤ xs.length := by
  rcases h with ⟨before, after, rfl, rfl⟩
  rw [List.length_append, List.length_append]
  omega

theorem Piece.getElem? {xs ys : List α} {off i : ℕ} (h : Piece xs off ys) (hlo : off ≤ i)
    (hhi : i < off + ys.length) : ys[i - off]? = xs[i]? := by
  rcases h with ⟨before, after, rfl, rfl⟩
  rw [List.append_assoc, List.getElem?_append_right hlo, List.getElem?_append_left (by omega)]

section Write

variable (pad : α) (buf : List α) (off : ℕ) (ys : List α) (i : ℕ)

/-- The part of a write before its range. -/
theorem length_write_head :
    ((buf ++ List.replicate (off - buf.length) pad).take off).length = off := by
  rw [List.length_take, List.length_append, List.length_replicate]
  omega

theorem length_write : (write pad buf off ys).length = max buf.length (off + ys.length) := by
  rw [write, List.length_append, List.length_append, length_write_head, List.length_drop]
  omega

/-- A write decides the positions it covers. -/
theorem getElem?_write_of_mem (hlo : off ≤ i) (hhi : i < off + ys.length) :
    (write pad buf off ys)[i]? = ys[i - off]? := by
  have hhead := length_write_head pad buf off
  rw [write, List.append_assoc, List.getElem?_append_right (by omega), hhead,
    List.getElem?_append_left (by omega)]

/-- A write keeps the positions of the buffer it does not cover. -/
theorem getElem?_write_of_not_mem (hi : i < buf.length) (hout : i < off ∨ off + ys.length ≤ i) :
    (write pad buf off ys)[i]? = buf[i]? := by
  have hhead := length_write_head pad buf off
  rcases hout with hlt | hge
  · rw [write, List.append_assoc, List.getElem?_append_left (by omega), List.getElem?_take,
      if_pos hlt, List.getElem?_append_left hi]
  · have hlen : ((buf ++ List.replicate (off - buf.length) pad).take off ++ ys).length =
        off + ys.length := by
      rw [List.length_append, hhead]
    rw [write, List.getElem?_append_right (by omega), hlen, List.getElem?_drop]
    congr 1
    omega

end Write

/-- A position that agrees with the list keeps doing so under every write of a
    piece. -/
theorem getElem?_write_piece (pad : α) (xs buf ys : List α) (off i : ℕ) (hp : Piece xs off ys)
    (hi : i < xs.length) (hagree : buf[i]? = xs[i]?) : (write pad buf off ys)[i]? = xs[i]? := by
  by_cases hin : off ≤ i ∧ i < off + ys.length
  · rw [getElem?_write_of_mem pad buf off ys i hin.1 hin.2, hp.getElem? hin.1 hin.2]
  · -- A position that agrees with the list is one the buffer has.
    have hbuf : i < buf.length := by
      by_contra hge
      rw [List.getElem?_eq_none (by omega), List.getElem?_eq_getElem hi] at hagree
      exact absurd hagree (by simp only [reduceCtorEq, not_false_eq_true])
    rw [getElem?_write_of_not_mem pad buf off ys i hbuf (by omega), hagree]

/-- After writing pieces, the positions that agreed before or that some piece
    covers agree. -/
theorem getElem?_writeAll (pad : α) (xs : List α) (i : ℕ) (hi : i < xs.length) :
    ∀ (ws : List (ℕ × List α)) (buf : List α), (∀ w ∈ ws, Piece xs w.1 w.2) →
      (buf[i]? = xs[i]? ∨ ∃ w ∈ ws, w.1 ≤ i ∧ i < w.1 + w.2.length) →
      (writeAll pad buf ws)[i]? = xs[i]? := by
  intro ws
  induction ws with
  | nil =>
      rintro buf _ (hagree | ⟨w, hw, _⟩)
      · exact hagree
      · exact absurd hw List.not_mem_nil
  | cons w rest ih =>
      intro buf hp hcover
      have hw := hp w List.mem_cons_self
      refine ih (write pad buf w.1 w.2) (fun w' hw' => hp w' (List.mem_cons_of_mem _ hw')) ?_
      -- The position agrees after the first write, or a later one covers it.
      rcases hcover with hagree | ⟨w', hw', hlo, hhi⟩
      · exact Or.inl (getElem?_write_piece pad xs buf w.2 w.1 i hw hi hagree)
      · rcases List.mem_cons.mp hw' with rfl | hrest
        · left
          rw [getElem?_write_of_mem pad buf _ _ i hlo hhi, hw.getElem? hlo hhi]
        · exact Or.inr ⟨w', hrest, hlo, hhi⟩

theorem length_writeAll_le (pad : α) (xs : List α) :
    ∀ (ws : List (ℕ × List α)) (buf : List α), (∀ w ∈ ws, Piece xs w.1 w.2) →
      buf.length ≤ xs.length → (writeAll pad buf ws).length ≤ xs.length := by
  intro ws
  induction ws with
  | nil => exact fun buf _ hb => hb
  | cons w rest ih =>
      intro buf hp hb
      have hw := (hp w List.mem_cons_self).le
      refine ih (write pad buf w.1 w.2) (fun w' hw' => hp w' (List.mem_cons_of_mem _ hw')) ?_
      rw [length_write]
      omega

/-- Pieces that cover a list rebuild it, in any order and with any repeats. -/
theorem writeAll_eq (pad : α) (xs buf : List α) (ws : List (ℕ × List α))
    (hb : buf.length ≤ xs.length) (hp : ∀ w ∈ ws, Piece xs w.1 w.2)
    (hcover : ∀ i, i < xs.length → ∃ w ∈ ws, w.1 ≤ i ∧ i < w.1 + w.2.length) :
    writeAll pad buf ws = xs := by
  refine List.ext_getElem? (fun i => ?_)
  by_cases hi : i < xs.length
  · exact getElem?_writeAll pad xs i hi ws buf hp (Or.inr (hcover i hi))
  · have hlen := length_writeAll_le pad xs ws buf hp hb
    rw [List.getElem?_eq_none (by omega), List.getElem?_eq_none (by omega)]

end Pieces

end LoomHost
