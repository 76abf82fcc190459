import Mathlib.Data.List.Chain
import Mathlib.Tactic.Ring

/-!
# A Rate Limiter

Attempts at times, of which a limiter grants the first and then every one that
comes at least `gap` after the last grant. It neither grants too often nor
starves: grants are `gap` apart, and every attempt has a grant less than `gap`
before it.

Times are integers; a clock that does not run backwards is a list of times that
never falls.

The other kind of limiter is a schedule: each event has a deadline, the deadlines
are `gap` apart, and an event comes at its deadline or later, but before the
deadline of the next one. Events may then come closer to each other than `gap`,
and a window of time still has only one event more than its deadlines allow.

## Main definitions

* `grants`: The attempts that are granted.

## Theorems

* `grants_chain`: A grant comes at least `gap` after the one before it.
* `grants_spaced`: The `j`-th grant comes at least `gap * (j - i)` after the `i`-th.
* `grants_cover`: Every attempt is covered by a grant less than `gap` ago.
* `scheduled_length_le`: The events of a schedule in a window of time.
-/

namespace LoomHost

namespace RateLimit

variable (gap : ℤ)

/-- The grants after one more attempt. -/
def grant (granted : List ℤ) (t : ℤ) : List ℤ :=
  match granted.getLast? with
  | some last => if t - last < gap then granted else granted ++ [t]
  | none => granted ++ [t]

/-- The attempts that are granted. -/
def grants (attempts : List ℤ) : List ℤ := attempts.foldl (grant gap) []

theorem grants_concat (attempts : List ℤ) (t : ℤ) :
    grants gap (attempts ++ [t]) = grant gap (grants gap attempts) t :=
  List.foldl_concat _ _ _ _

/-- An attempt less than `gap` after a grant is refused. -/
theorem grant_of_lt {granted : List ℤ} {t last : ℤ} (h : granted.getLast? = some last)
    (hlt : t - last < gap) : grant gap granted t = granted := by
  unfold grant
  rw [h]
  exact if_pos hlt

/-- Any other attempt is granted. -/
theorem grant_of_le {granted : List ℤ} {t : ℤ}
    (h : ∀ last, granted.getLast? = some last → gap ≤ t - last) :
    grant gap granted t = granted ++ [t] := by
  unfold grant
  split
  · rename_i last hlast
    exact if_neg (not_lt.mpr (h last hlast))
  · rfl

theorem grant_cases (granted : List ℤ) (t : ℤ) :
    (∃ last, granted.getLast? = some last ∧ t - last < gap ∧ grant gap granted t = granted) ∨
    ((∀ last, granted.getLast? = some last → gap ≤ t - last) ∧
      grant gap granted t = granted ++ [t]) := by
  by_cases h : ∀ last, granted.getLast? = some last → gap ≤ t - last
  · exact Or.inr ⟨h, grant_of_le gap h⟩
  · push Not at h
    rcases h with ⟨last, hlast, hlt⟩
    exact Or.inl ⟨last, hlast, hlt, grant_of_lt gap hlast hlt⟩

/-- A grant comes at least `gap` after the one before it. -/
theorem grants_chain (attempts : List ℤ) :
    (grants gap attempts).IsChain (fun a b => gap ≤ b - a) := by
  induction attempts using List.reverseRecOn with
  | nil => exact List.IsChain.nil
  | append_singleton attempts t ih =>
      rw [grants_concat]
      rcases grant_cases gap (grants gap attempts) t with ⟨last, -, -, heq⟩ | ⟨hlast, heq⟩
      · rw [heq]
        exact ih
      · rw [heq, List.isChain_append]
        refine ⟨ih, List.IsChain.singleton t, fun last hmem y hy => ?_⟩
        rw [List.head?_cons, Option.mem_some_iff] at hy
        exact hy ▸ hlast last hmem

/-- Along a chain the gaps add up. -/
theorem chain_spaced {l : List ℤ} (h : l.IsChain (fun a b => gap ≤ b - a)) (i k : ℕ)
    (hk : i + k < l.length) : gap * k ≤ l[i + k] - l[i] := by
  induction k with
  | zero => simp only [Nat.cast_zero, mul_zero, add_zero, sub_self, Std.le_refl]
  | succ k ih =>
      have hstep := h.getElem (i + k) (by omega)
      have hrest := ih (by omega)
      have hadd : gap * ((k + 1 : ℕ) : ℤ) = gap * k + gap := by
        push_cast
        ring
      simp only [← Nat.add_assoc]
      omega

/-- The `j`-th grant comes at least `gap * (j - i)` after the `i`-th. -/
theorem grants_spaced (attempts : List ℤ) (i j : ℕ) (hij : i ≤ j)
    (hj : j < (grants gap attempts).length) :
    gap * ((j : ℤ) - i) ≤ (grants gap attempts)[j] - (grants gap attempts)[i] := by
  rcases Nat.exists_eq_add_of_le hij with ⟨k, rfl⟩
  have hspaced := chain_spaced gap (grants_chain gap attempts) i k hj
  have hdiff : ((i + k : ℕ) : ℤ) - i = k := by omega
  rw [hdiff]
  exact hspaced

/-- Grants are attempts. -/
theorem mem_of_mem_grants (attempts : List ℤ) : ∀ g ∈ grants gap attempts, g ∈ attempts := by
  induction attempts using List.reverseRecOn with
  | nil => exact fun g hg => absurd hg List.not_mem_nil
  | append_singleton attempts t ih =>
      intro g hg
      rw [grants_concat] at hg
      rcases grant_cases gap (grants gap attempts) t with ⟨last, -, -, heq⟩ | ⟨-, heq⟩
      · rw [heq] at hg
        exact List.mem_append_left _ (ih g hg)
      · rw [heq] at hg
        rcases List.mem_append.mp hg with hg | hg
        · exact List.mem_append_left _ (ih g hg)
        · exact List.mem_append_right _ hg

/-- The last attempt is covered by a grant less than `gap` ago, if the clock has
    not run backwards. -/
theorem grants_cover (hgap : 0 < gap) (attempts : List ℤ) (t : ℤ) (ht : ∀ a ∈ attempts, a ≤ t) :
    ∃ g ∈ grants gap (attempts ++ [t]), t - gap < g ∧ g ≤ t := by
  rw [grants_concat]
  rcases grant_cases gap (grants gap attempts) t with ⟨last, hlast, hlt, heq⟩ | ⟨-, heq⟩
  · have hmem := List.mem_of_getLast? hlast
    rw [heq]
    exact ⟨last, hmem, by omega, ht last (mem_of_mem_grants gap attempts last hmem)⟩
  · rw [heq]
    exact ⟨t, List.mem_append_right _ List.mem_cons_self, by omega, le_refl t⟩

/-- The events of a schedule in a window of length `T`: the first may have been
    due long before it, and all others are due in it. -/
theorem scheduled_length_le {α : Type*} (hgap : 0 < gap) (deadline ret : α → ℤ) {l : List α}
    (hspaced : l.Pairwise fun p q => ret p ≤ deadline q ∧ gap ≤ deadline q - deadline p)
    (hdue : ∀ p ∈ l, deadline p ≤ ret p) {a T : ℤ} (hT : 0 ≤ T)
    (hwindow : ∀ p ∈ l, a ≤ ret p ∧ ret p ≤ a + T) : (l.length : ℤ) ≤ T / gap + 2 := by
  have hnonneg : 0 ≤ T / gap := Int.ediv_nonneg hT (le_of_lt hgap)
  rcases l with _ | ⟨p, _ | ⟨q, rest⟩⟩
  · rw [List.length_nil]
    omega
  · rw [List.length_singleton]
    omega
  · -- The deadlines from `q` on are `gap` apart and in the window.
    rw [List.pairwise_cons] at hspaced
    have hchain : ((q :: rest).map deadline).IsChain (fun x y => gap ≤ y - x) :=
      (List.pairwise_map.mpr (hspaced.2.imp And.right)).isChain
    have hlen : 0 + rest.length < ((q :: rest).map deadline).length := by
      rw [List.length_map, List.length_cons]
      omega
    have hsum := chain_spaced gap hchain 0 rest.length hlen
    have hfirst : a ≤ deadline q :=
      le_trans (hwindow p List.mem_cons_self).1 (hspaced.1 q List.mem_cons_self).1
    have hall : ∀ x ∈ (q :: rest).map deadline, x ≤ a + T := by
      intro x hx
      rcases List.mem_map.mp hx with ⟨c, hc, rfl⟩
      exact le_trans (hdue c (List.mem_cons_of_mem p hc)) (hwindow c (List.mem_cons_of_mem p hc)).2
    have hlast := hall _ (List.getElem_mem hlen)
    have hcount : (rest.length : ℤ) ≤ T / gap := by
      rw [Int.le_ediv_iff_mul_le hgap, mul_comm]
      have hzero : ((q :: rest).map deadline)[0] = deadline q := rfl
      omega
    simp only [List.length_cons]
    omega

end RateLimit

end LoomHost
