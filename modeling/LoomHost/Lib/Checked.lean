import Mathlib.Data.Nat.Init
import Mathlib.Tactic.Ring

/-!
# Checked Loops and Slices

Loops and slices of a language that stops the program on an index out of bounds:
`none` is that stop. A counted loop runs its body for every index in turn until
one fails, and a slice exists if its ends are in bounds.

A loop is reasoned about by an invariant that is indexed by the turns taken. Two
nested loops over the rows and columns of a raster are one walk over its
positions in row order, and have an invariant that is indexed by the position.

## Main definitions

* `forRange`, `forEach`: `for i in 0..n`, and a loop over the elements of a list.
* `RowsFit`: The rows of a raster with a stride end within a buffer.
* `set?`, `tail?`, `slice?`: `xs[k] = b`, `xs[start..]` and `xs[start..stop]`.

## Theorems

* `forRange_rule`: If every turn succeeds and keeps the invariant, so does the loop.
* `forRange_reached`: In a loop that succeeds, every turn was reached and succeeded.
* `forRange_inv`, `forRange_keeps`: What every turn that succeeds keeps, the loop
  keeps.
* `forEach_rule`: The invariant rule of a loop over a list.
* `for_rows_rule`: The invariant rule of a walk over a raster.
* `raster_split`: A position and its row and column.
* `rowsFit_of_forRange`: A loop that has read its last row has read all of them.
-/

namespace LoomHost

namespace Checked

section Loop

variable {σ : Type*}

/-- `for i in 0..n`: the body for each index in turn, until one fails. -/
def forRange (n : ℕ) (body : ℕ → σ → Option σ) (s : σ) : Option σ :=
  match n with
  | 0 => some s
  | n + 1 => (forRange n body s).bind (body n)

variable {s : σ}

/-- If every turn succeeds and keeps the invariant, so does the loop. -/
theorem forRange_rule (n : ℕ) (body : ℕ → σ → Option σ) (I : ℕ → σ → Prop) (hinit : I 0 s)
    (hturn : ∀ i, i < n → ∀ a, I i a → ∃ b, body i a = some b ∧ I (i + 1) b) :
    ∃ r, forRange n body s = some r ∧ I n r := by
  induction n with
  | zero => exact ⟨s, rfl, hinit⟩
  | succ n ih =>
      rcases ih fun i hi => hturn i (by omega) with ⟨a, ha, hinv⟩
      rcases hturn n (by omega) a hinv with ⟨b, hb, hnext⟩
      refine ⟨b, ?_, hnext⟩
      rw [forRange, ha, Option.bind_some, hb]

variable {n : ℕ} {body : ℕ → σ → Option σ}

/-- In a loop that succeeds, every turn was reached and succeeded. -/
theorem forRange_reached :
    ∀ n {r : σ}, forRange n body s = some r → ∀ i, i < n →
      ∃ a b, forRange i body s = some a ∧ body i a = some b := by
  intro n
  induction n with
  | zero => intro r _ i hi; omega
  | succ n ih =>
      intro r hr i hi
      rw [forRange, Option.bind_eq_some_iff] at hr
      rcases hr with ⟨a, ha, hbody⟩
      by_cases hlast : i = n
      · exact ⟨a, r, by rw [hlast, ha], by rw [hlast, hbody]⟩
      · exact ih ha i (by omega)

/-- What every turn that succeeds keeps, a loop that succeeds keeps. -/
theorem forRange_inv (I : ℕ → σ → Prop) (hinit : I 0 s)
    (hturn : ∀ i, i < n → ∀ a b, I i a → body i a = some b → I (i + 1) b) :
    ∀ r, forRange n body s = some r → I n r := by
  induction n with
  | zero =>
      intro r hr
      rw [forRange, Option.some.injEq] at hr
      exact hr ▸ hinit
  | succ n ih =>
      intro r hr
      rw [forRange, Option.bind_eq_some_iff] at hr
      rcases hr with ⟨a, ha, hbody⟩
      exact hturn n (by omega) a r (ih (fun i hi => hturn i (by omega)) a ha) hbody

/-- A part of the state that no turn changes. -/
theorem forRange_keeps {δ : Type*} (part : σ → δ)
    (hturn : ∀ i a b, body i a = some b → part b = part a) {r : σ}
    (h : forRange n body s = some r) : part r = part s :=
  forRange_inv (fun _ a => part a = part s) rfl
    (fun i _ a b ha hbody => (hturn i a b hbody).trans ha) r h

/-- `for (i, x) in xs.iter().enumerate()`. -/
def forEach {α : Type*} (xs : List α) (body : ℕ → α → σ → Option σ) (s : σ) : Option σ :=
  forRange xs.length (fun i a => xs[i]?.bind fun x => body i x a) s

theorem forEach_rule {α : Type*} (xs : List α) (body : ℕ → α → σ → Option σ) (I : ℕ → σ → Prop)
    (hinit : I 0 s)
    (hturn : ∀ i x, xs[i]? = some x → ∀ a, I i a → ∃ b, body i x a = some b ∧ I (i + 1) b) :
    ∃ r, forEach xs body s = some r ∧ I xs.length r := by
  refine forRange_rule xs.length _ I hinit fun i hi a ha => ?_
  have hget := List.getElem?_eq_getElem hi
  rcases hturn i _ hget a ha with ⟨b, hb, hinv⟩
  exact ⟨b, by rw [hget, Option.bind_some, hb], hinv⟩

/-- The rule of a walk over a raster of `h` rows and `w` columns, where the body of
    a row is the loop over its columns. -/
theorem for_rows_rule (w h : ℕ) (rows : ℕ → σ → Option σ) (body : ℕ → ℕ → σ → Option σ)
    (I : ℕ → σ → Prop) (hinit : I 0 s)
    (hrows : ∀ row, row < h → ∀ a, I (row * w) a → rows row a = forRange w (body row) a)
    (hturn : ∀ row, row < h → ∀ col, col < w → ∀ a, I (row * w + col) a →
      ∃ b, body row col a = some b ∧ I (row * w + col + 1) b) :
    ∃ r, forRange h rows s = some r ∧ I (h * w) r := by
  refine forRange_rule h rows (fun row => I (row * w)) ?_ fun row hrow a ha => ?_
  · rwa [Nat.zero_mul]
  · have hcols := forRange_rule w (body row) (fun col => I (row * w + col)) ha
      fun col hcol b hb => hturn row hrow col hcol b hb
    rw [hrows row hrow a ha, Nat.succ_mul]
    exact hcols

end Loop

/-- The row of a position in a raster. -/
theorem raster_div (w row col : ℕ) (h : col < w) : (row * w + col) / w = row := by
  rw [Nat.mul_comm, Nat.mul_add_div (by omega), Nat.div_eq_of_lt h, Nat.add_zero]

/-- The column of a position in a raster. -/
theorem raster_mod (w row col : ℕ) (h : col < w) : (row * w + col) % w = col := by
  rw [Nat.mul_comm, Nat.mul_add_mod, Nat.mod_eq_of_lt h]

/-- The positions of a raster. -/
theorem raster_lt {w h row col : ℕ} (hrow : row < h) (hcol : col < w) : row * w + col < h * w := by
  calc row * w + col < row * w + w := by omega
    _ = (row + 1) * w := by ring
    _ ≤ h * w := Nat.mul_le_mul_right w hrow

/-- A position of a raster has a row and a column. -/
theorem raster_split {w h k : ℕ} (hk : k < h * w) :
    k / w < h ∧ k % w < w ∧ k / w * w + k % w = k := by
  have hw : 0 < w := by
    refine Nat.pos_of_ne_zero fun hzero => ?_
    rw [hzero, Nat.mul_zero] at hk
    omega
  exact ⟨(Nat.div_lt_iff_lt_mul hw).mpr hk, Nat.mod_lt k hw, Nat.div_add_mod' k w⟩

/-- Rows of `width` elements, `stride` apart, end within `len` elements. -/
def RowsFit (len stride width rows : ℕ) : Prop :=
  rows = 0 ∨ (rows - 1) * stride + width ≤ len

/-- If the last row fits, every row does. -/
theorem RowsFit.row {len stride width rows : ℕ} (h : RowsFit len stride width rows) (row : ℕ)
    (hrow : row < rows) : row * stride + width ≤ len := by
  rcases h with hzero | hlast
  · omega
  · calc row * stride + width ≤ (rows - 1) * stride + width :=
          Nat.add_le_add_right (Nat.mul_le_mul_right _ (by omega)) _
      _ ≤ len := hlast

/-- A loop whose turns do not succeed without their row has every row. The length of
    a row may depend on a part of the state that no turn changes. -/
theorem rowsFit_of_forRange {σ δ : Type*} {len stride width n : ℕ} {body : ℕ → σ → Option σ}
    {s r : σ} (part : σ → δ) (hturn : ∀ i a b, body i a = some b → part b = part a)
    (hrow : ∀ i a b, part a = part s → body i a = some b → i * stride + width ≤ len)
    (h : forRange n body s = some r) : RowsFit len stride width n := by
  by_cases hzero : n = 0
  · exact Or.inl hzero
  · right
    rcases forRange_reached n h (n - 1) (by omega) with ⟨a, b, hreach, hlast⟩
    exact hrow (n - 1) a b (forRange_keeps part hturn hreach) hlast

section Slice

variable {α : Type*} (xs : List α)

/-- `xs[k] = b`. -/
def set? (k : ℕ) (b : α) : Option { ys : List α // ys.length = xs.length } :=
  if k < xs.length then some ⟨xs.set k b, List.length_set⟩ else none

/-- `xs[start..]`. -/
def tail? (start : ℕ) : Option (List α) :=
  if start ≤ xs.length then some (xs.drop start) else none

/-- `xs[start..stop]`. -/
def slice? (start stop : ℕ) : Option (List α) :=
  if start ≤ stop ∧ stop ≤ xs.length then some ((xs.drop start).take (stop - start)) else none

variable (start stop : ℕ)

theorem set?_eq_some (k : ℕ) (b : α) (h : k < xs.length) :
    set? xs k b = some ⟨xs.set k b, List.length_set⟩ := if_pos h

theorem tail?_eq_some (h : start ≤ xs.length) : tail? xs start = some (xs.drop start) := if_pos h

theorem slice?_eq_some (hle : start ≤ stop) (h : stop ≤ xs.length) :
    slice? xs start stop = some ((xs.drop start).take (stop - start)) := if_pos ⟨hle, h⟩

variable {xs start stop} {ys : List α}

theorem le_of_tail? (h : tail? xs start = some ys) : start ≤ xs.length ∧ ys = xs.drop start := by
  unfold tail? at h
  split at h
  · next hle => exact ⟨hle, (Option.some.inj h).symm⟩
  · cases h

theorem le_of_slice? (h : slice? xs start stop = some ys) : start ≤ stop ∧ stop ≤ xs.length := by
  unfold slice? at h
  split at h
  · next hle => exact hle
  · cases h

end Slice

end Checked

end LoomHost
