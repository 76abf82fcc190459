import Mathlib.Data.List.Induction

/-!
# Announce, Acknowledge, Apply

A party announces one setting after the other, each under a number; the peer
acknowledges a setting by its number; and an acknowledged setting, the first
one excepted, is applied at once. The first one is in force from the start.

`Phase` is where such an exchange stands and `Step` what may happen next: no
announcement while another is unacknowledged, nothing but the application after
an acknowledgement, and nothing of the kind once the exchange is closed. What
follows for a whole log is stated about the log alone: which announcement an
application belongs to, and what lies between two announcements.

The log is a list over any alphabet; a `Discipline` says what its letters mean.

## Main definitions

* `Sym`: What a letter means.
* `Discipline`: The meaning of the letters, numbers and settings.
* `Phase`, `Step`, `Runs`: Where an exchange stands and how it goes on.
* `announced`: The announcements of a log.
* `History`: What a phase says about the log before it.

## Theorems

* `numbered`: Announcements carry their numbers in order.
* `acked_between`: Between two announcements the first is acknowledged.
* `applied_of_ack`: An acknowledged setting is applied at once.
* `ack_of_applied`: An application belongs to the last announcement, which was
  just acknowledged for the first time.
-/

namespace LoomHost

namespace AckDiscipline

/-- What a letter of a log means. -/
inductive Sym (β γ δ : Type*) where
  | announce (b : β)
  | ack (g : γ)
  | apply (d : δ)
  | close
  | other

/-- The meaning of the letters; the number an announcement carries and the one
    it should; and what it is to apply a setting. -/
structure Discipline (α β γ δ : Type*) where
  view : α → Sym β γ δ
  gen : β → γ
  num : ℕ → γ
  fits : β → δ → Prop

/-- Where an exchange stands, after `n` announcements. -/
inductive Phase (β : Type*) where
  /-- Every announcement is acknowledged and applied. -/
  | idle (n : ℕ)
  /-- The last announcement is unacknowledged. -/
  | awaiting (n : ℕ) (b : β)
  /-- The last announcement has just been acknowledged. -/
  | due (n : ℕ) (b : β)
  | closed

variable {α β γ δ : Type*} (D : Discipline α β γ δ)

/-- How an exchange goes on. -/
inductive Step : Phase β → α → Phase β → Prop
  | announce (n : ℕ) (x : α) (b : β) (hview : D.view x = .announce b)
      (hgen : D.gen b = D.num (n + 1)) : Step (.idle n) x (.awaiting (n + 1) b)
  | firstAck (x : α) (b : β) (hview : D.view x = .ack (D.gen b)) :
      Step (.awaiting 1 b) x (.idle 1)
  | ack (n : ℕ) (x : α) (b : β) (hn : 2 ≤ n) (hview : D.view x = .ack (D.gen b)) :
      Step (.awaiting n b) x (.due n b)
  | apply (n : ℕ) (x : α) (b : β) (d : δ) (hview : D.view x = .apply d) (hfits : D.fits b d) :
      Step (.due n b) x (.idle n)
  | close (p : Phase β) (x : α) (hview : D.view x = .close) (hp : ∀ n b, p ≠ .due n b) :
      Step p x .closed
  | stray (p : Phase β) (x : α) (g : γ) (hview : D.view x = .ack g) (hp : ∀ n b, p ≠ .due n b)
      (hne : ∀ n b, p = .awaiting n b → g ≠ D.gen b) : Step p x p
  | other (p : Phase β) (x : α) (hview : D.view x = .other) (hp : ∀ n b, p ≠ .due n b) :
      Step p x p

/-- A log that an exchange may leave. -/
inductive Runs : Phase β → List α → Phase β → Prop
  | nil (p : Phase β) : Runs p [] p
  | cons {p q r : Phase β} {x : α} {w : List α} (h : Step D p x q) (t : Runs q w r) :
      Runs p (x :: w) r

variable {D}

theorem Runs.append {p q r : Phase β} {v w : List α} (h : Runs D p v q) (t : Runs D q w r) :
    Runs D p (v ++ w) r := by
  induction h with
  | nil _ => exact t
  | cons hstep _ ih => exact Runs.cons hstep (ih t)

theorem Runs.split {p r : Phase β} (v : List α) {w : List α} (h : Runs D p (v ++ w) r) :
    ∃ q, Runs D p v q ∧ Runs D q w r := by
  induction v generalizing p with
  | nil => exact ⟨p, Runs.nil p, h⟩
  | cons x v ih =>
      cases h with
      | cons hstep t =>
          rcases ih t with ⟨q, hv, hw⟩
          exact ⟨q, Runs.cons hstep hv, hw⟩

/-- The phases a letter leads to, by its meaning. -/
theorem Step.of_announce {p q : Phase β} {x : α} {b : β} (h : Step D p x q)
    (hx : D.view x = .announce b) :
    ∃ n, p = .idle n ∧ q = .awaiting (n + 1) b ∧ D.gen b = D.num (n + 1) := by
  cases h with
  | announce n _ _ hview hgen =>
      rw [hx, Sym.announce.injEq] at hview
      exact ⟨n, rfl, by rw [hview], by rw [hview, hgen]⟩
  | firstAck _ _ hview | ack _ _ _ _ hview | apply _ _ _ _ hview _ | close _ _ hview _
  | stray _ _ _ hview _ _ | other _ _ hview _ => exact nomatch hx.symm.trans hview

theorem Step.of_apply {p q : Phase β} {x : α} {d : δ} (h : Step D p x q)
    (hx : D.view x = .apply d) : ∃ n b, p = .due n b ∧ q = .idle n ∧ D.fits b d := by
  cases h with
  | apply n _ b _ hview hfits =>
      rw [hx, Sym.apply.injEq] at hview
      exact ⟨n, b, rfl, rfl, by rwa [hview]⟩
  | announce _ _ _ hview _ | firstAck _ _ hview | ack _ _ _ _ hview | close _ _ hview _
  | stray _ _ _ hview _ _ | other _ _ hview _ => exact nomatch hx.symm.trans hview

theorem Step.of_due {n : ℕ} {b : β} {q : Phase β} {x : α} (h : Step D (.due n b) x q) :
    ∃ d, D.view x = .apply d ∧ D.fits b d := by
  cases h with
  | apply _ _ _ d hview hfits => exact ⟨d, hview, hfits⟩
  | close _ _ _ hp | stray _ _ _ _ hp _ | other _ _ _ hp => exact absurd rfl (hp n b)

/-- A letter that is none of an announcement, its acknowledgement and the close
    leaves it unacknowledged. -/
theorem Step.of_awaiting {n : ℕ} {b : β} {q : Phase β} {x : α} (h : Step D (.awaiting n b) x q)
    (hack : D.view x ≠ .ack (D.gen b)) :
    q = .awaiting n b ∨ (D.view x = .close ∧ q = .closed) := by
  cases h with
  | firstAck _ _ hview | ack _ _ _ _ hview => exact absurd hview hack
  | close _ _ hview _ => exact Or.inr ⟨hview, rfl⟩
  | stray _ _ _ _ _ _ | other _ _ _ _ => exact Or.inl rfl

/-- The acknowledgement of a setting other than the first makes it due. -/
theorem Step.of_ack {n : ℕ} {b : β} {q : Phase β} {x : α} (h : Step D (.awaiting n b) x q)
    (hx : D.view x = .ack (D.gen b)) (hn : 2 ≤ n) : q = .due n b := by
  cases h with
  | firstAck _ _ _ => exact absurd hn (by decide)
  | ack _ _ _ _ _ => rfl
  | close _ _ hview _ | other _ _ hview _ => exact nomatch hx.symm.trans hview
  | stray _ _ _ hview _ hne =>
      exact absurd (Sym.ack.inj (hview.symm.trans hx)) (hne n b rfl)

/-- A closed exchange stays closed. -/
theorem Step.of_closed {q : Phase β} {x : α} (h : Step D .closed x q) : q = .closed := by
  cases h <;> rfl

theorem Runs.of_closed {q : Phase β} {w : List α} (h : Runs D .closed w q) : q = .closed := by
  induction w with
  | nil =>
      cases h
      rfl
  | cons x w ih =>
      cases h with
      | cons hstep t =>
          rw [hstep.of_closed] at t
          exact ih t

/-- Until it is acknowledged, an announcement stays the last one. -/
theorem Runs.of_awaiting {n : ℕ} {b : β} {q : Phase β} {w : List α}
    (h : Runs D (.awaiting n b) w q) (hack : ∀ x ∈ w, D.view x ≠ .ack (D.gen b)) :
    q = .awaiting n b ∨ (q = .closed ∧ ∃ x ∈ w, D.view x = .close) := by
  induction w with
  | nil =>
      cases h
      exact Or.inl rfl
  | cons x w ih =>
      cases h with
      | cons hstep t =>
          rcases hstep.of_awaiting (hack x List.mem_cons_self) with rfl | ⟨hclose, rfl⟩
          · rcases ih t (fun y hy => hack y (List.mem_cons_of_mem _ hy)) with hq | ⟨hq, y, hy, hc⟩
            · exact Or.inl hq
            · exact Or.inr ⟨hq, y, List.mem_cons_of_mem _ hy, hc⟩
          · exact Or.inr ⟨t.of_closed, x, List.mem_cons_self, hclose⟩

/-- Between two announcements the first one is acknowledged. -/
theorem acked_between {p r : Phase β} {u v w : List α} {x y : α} {b b' : β}
    (h : Runs D p (u ++ x :: v ++ y :: w) r) (hx : D.view x = .announce b)
    (hy : D.view y = .announce b') : ∃ z ∈ v, D.view z = .ack (D.gen b) := by
  -- Without it the exchange is awaiting or closed, and neither announces.
  by_contra hnone
  have hack : ∀ z ∈ v, D.view z ≠ .ack (D.gen b) := fun z hz heq => hnone ⟨z, hz, heq⟩
  rw [List.append_assoc, List.cons_append] at h
  rcases h.split u with ⟨_, _, hrest⟩
  cases hrest with
  | cons hstep hrest =>
      rcases hstep.of_announce hx with ⟨n, -, rfl, -⟩
      rcases hrest.split v with ⟨q, hv, hrest⟩
      cases hrest with
      | cons hstep' _ =>
          rcases hstep'.of_announce hy with ⟨m, rfl, -, -⟩
          rcases hv.of_awaiting hack with hq | ⟨hq, -⟩
          · exact absurd hq (by simp only [reduceCtorEq, not_false_eq_true])
          · exact absurd hq (by simp only [reduceCtorEq, not_false_eq_true])

/-- The announcements of a log, in order. -/
def announced (D : Discipline α β γ δ) (w : List α) : List β :=
  w.filterMap fun x => match D.view x with
    | .announce b => some b
    | _ => none

/-- The announcements so far. -/
def Phase.count : Phase β → ℕ
  | .idle n => n
  | .awaiting n _ => n
  | .due n _ => n
  | .closed => 0

theorem Step.count {p q : Phase β} {x : α} (h : Step D p x q) (hq : q ≠ .closed) :
    p ≠ .closed ∧ q.count = p.count + (announced D [x]).length := by
  cases h with
  | close _ _ _ _ => exact absurd rfl hq
  | stray _ _ _ hview _ _ | other _ _ hview _ =>
      refine ⟨hq, ?_⟩
      rw [announced, List.filterMap_cons, hview]
      rfl
  | announce _ _ _ hview _ | firstAck _ _ hview | ack _ _ _ _ hview | apply _ _ _ _ hview _ =>
      refine ⟨nofun, ?_⟩
      rw [announced, List.filterMap_cons, hview]
      rfl

theorem Runs.count {p q : Phase β} {w : List α} (h : Runs D p w q) (hq : q ≠ .closed) :
    p ≠ .closed ∧ q.count = p.count + (announced D w).length := by
  induction h with
  | nil _ => exact ⟨hq, rfl⟩
  | @cons p q r x w hstep _ ih =>
      rcases ih hq with ⟨hne, hcount⟩
      rcases hstep.count hne with ⟨hp, hfirst⟩
      have happend : (announced D (x :: w)).length =
          (announced D [x]).length + (announced D w).length := by
        rw [← List.length_append, announced, announced, announced, ← List.filterMap_append,
          List.singleton_append]
      exact ⟨hp, by omega⟩

/-- An announcement carries the number after those before it. -/
theorem numbered {r : Phase β} {u w : List α} {x : α} {b : β}
    (h : Runs D (.idle 0) (u ++ x :: w) r) (hx : D.view x = .announce b) :
    D.gen b = D.num ((announced D u).length + 1) := by
  rcases h.split u with ⟨q, hu, hrest⟩
  cases hrest with
  | cons hstep _ =>
      rcases hstep.of_announce hx with ⟨n, rfl, -, hgen⟩
      have hcount := (hu.count (by simp only [ne_eq, reduceCtorEq, not_false_eq_true])).2
      simp only [Phase.count, Nat.zero_add] at hcount
      rw [hgen, hcount]

/-- A setting other than the first that is acknowledged for the first time,
    before the close, is applied at once. -/
theorem applied_of_ack {r : Phase β} {u v w : List α} {x z : α} {b : β}
    (h : Runs D (.idle 0) (u ++ x :: v ++ z :: w) r) (hr : ∀ n b, r ≠ .due n b)
    (hu : announced D u ≠ []) (hx : D.view x = .announce b) (hz : D.view z = .ack (D.gen b))
    (hack : ∀ y ∈ v, D.view y ≠ .ack (D.gen b)) (hclose : ∀ y ∈ v, D.view y ≠ .close) :
    ∃ y w' d, w = y :: w' ∧ D.view y = .apply d ∧ D.fits b d := by
  rw [List.append_assoc, List.cons_append] at h
  rcases h.split u with ⟨q, hq, hrest⟩
  cases hrest with
  | cons hstep hrest =>
      rcases hstep.of_announce hx with ⟨n, rfl, rfl, -⟩
      have hcount := (hq.count (by simp only [ne_eq, reduceCtorEq, not_false_eq_true])).2
      -- One was announced before, so this one is at least the second.
      have hpos := List.length_pos_iff.mpr hu
      simp only [Phase.count, Nat.zero_add] at hcount
      rcases hrest.split v with ⟨q, hv, hrest⟩
      rcases hv.of_awaiting hack with rfl | ⟨-, y, hy, hc⟩
      · -- It is acknowledged here, and nothing but its application may follow.
        cases hrest with
        | cons hstep hrest =>
            rw [hstep.of_ack hz (by omega)] at hrest
            cases hrest with
            | nil _ => exact absurd rfl (hr _ _)
            | @cons _ _ _ y w' hstep _ =>
                rcases hstep.of_due with ⟨d, hy, hfits⟩
                exact ⟨y, w', d, rfl, hy, hfits⟩
      · exact absurd hc (hclose y hy)

/-- Neither an announcement, nor an application, nor an acknowledgement of
    `b`. -/
def Quiet (D : Discipline α β γ δ) (b : β) (x : α) : Prop :=
  D.view x ≠ .ack (D.gen b) ∧ (∀ d, D.view x ≠ .apply d) ∧ ∀ b', D.view x ≠ .announce b'

/-- What a phase says about the log before it. -/
inductive History (D : Discipline α β γ δ) : Phase β → List α → Prop
  | idle (n : ℕ) (w : List α) : History D (.idle n) w
  | awaiting (n : ℕ) (b : β) (u v : List α) (x : α) (hx : D.view x = .announce b)
      (hu : 2 ≤ n → announced D u ≠ []) (hquiet : ∀ y ∈ v, Quiet D b y) :
      History D (.awaiting n b) (u ++ x :: v)
  | due (n : ℕ) (b : β) (u v : List α) (x z : α) (hx : D.view x = .announce b)
      (hz : D.view z = .ack (D.gen b)) (hu : announced D u ≠ []) (hquiet : ∀ y ∈ v, Quiet D b y) :
      History D (.due n b) (u ++ x :: v ++ [z])
  | closed (w : List α) : History D .closed w

/-- A quiet letter leaves the history as it is. -/
theorem History.quiet {p : Phase β} {w : List α} {x : α} (h : History D p w)
    (hp : ∀ n b, p ≠ .due n b) (hquiet : ∀ n b, p = .awaiting n b → Quiet D b x) :
    History D p (w ++ [x]) := by
  cases h with
  | idle n w => exact History.idle n _
  | awaiting n b u v y hy hu hv =>
      rw [List.append_assoc, List.cons_append]
      refine History.awaiting n b u (v ++ [x]) y hy hu (fun z hz => ?_)
      rcases List.mem_append.mp hz with hz | hz
      · exact hv z hz
      · rw [List.mem_singleton] at hz
        exact hz ▸ hquiet n b rfl
  | due n b => exact absurd rfl (hp n b)
  | closed w => exact History.closed _

/-- One letter more. The count says whether an announcement is the first. -/
theorem History.step {p q : Phase β} {w : List α} {x : α} (h : History D p w) (hstep : Step D p x q)
    (hcount : p ≠ .closed → p.count = (announced D w).length) : History D q (w ++ [x]) := by
  cases hstep with
  | announce n x b hview hgen =>
      have hlen := hcount (by simp only [ne_eq, reduceCtorEq, not_false_eq_true])
      refine History.awaiting (n + 1) b w [] x hview (fun hn hnil => ?_)
        (fun y hy => absurd hy List.not_mem_nil)
      rw [hnil, Phase.count, List.length_nil] at hlen
      omega
  | firstAck x b hview => exact History.idle 1 _
  | ack n x b hn hview =>
      cases h with
      | awaiting n b u v y hy hu hquiet => exact History.due n b u v y x hy hview (hu hn) hquiet
  | apply n x b d hview hfits => exact History.idle n _
  | close p x hview hp => exact History.closed _
  | stray p x g hview hp hne =>
      -- An acknowledgement, but not the one awaited.
      refine h.quiet hp (fun n b hpb => ⟨?_, ?_, ?_⟩) <;> rw [hview]
      · exact fun heq => hne n b hpb (Sym.ack.inj heq)
      · exact fun d => by simp only [ne_eq, reduceCtorEq, not_false_eq_true]
      · exact fun b' => by simp only [ne_eq, reduceCtorEq, not_false_eq_true]
  | other p x hview hp =>
      refine h.quiet hp (fun n b _ => ⟨?_, ?_, ?_⟩) <;> rw [hview]
      · simp only [ne_eq, reduceCtorEq, not_false_eq_true]
      · exact fun d => by simp only [ne_eq, reduceCtorEq, not_false_eq_true]
      · exact fun b' => by simp only [ne_eq, reduceCtorEq, not_false_eq_true]

/-- Every log of an exchange has the history its phase says. -/
theorem Runs.history {w : List α} : ∀ {q : Phase β}, Runs D (.idle 0) w q → History D q w := by
  induction w using List.reverseRecOn with
  | nil =>
      intro q h
      cases h
      exact History.idle 0 []
  | append_singleton w x ih =>
      intro q h
      rcases h.split w with ⟨p, hw, hx⟩
      cases hx with
      | cons hstep t =>
          cases t
          refine (ih hw).step hstep (fun hp => ?_)
          have hcount := (hw.count hp).2
          rwa [Phase.count, Nat.zero_add] at hcount

/-- An application belongs to the last announcement, which is not the first one
    and was acknowledged just now and not before. -/
theorem ack_of_applied {r : Phase β} {w w' : List α} {y : α} {d : δ}
    (h : Runs D (.idle 0) (w ++ y :: w') r) (hy : D.view y = .apply d) :
    ∃ u v x z b, w = u ++ x :: v ++ [z] ∧ D.view x = .announce b ∧ D.view z = .ack (D.gen b) ∧
      D.fits b d ∧ announced D u ≠ [] ∧ ∀ y ∈ v, Quiet D b y := by
  rcases h.split w with ⟨q, hw, hrest⟩
  cases hrest with
  | cons hstep _ =>
      rcases hstep.of_apply hy with ⟨n, b, rfl, -, hfits⟩
      cases hw.history with
      | due n b u v x z hx hz hu hquiet => exact ⟨u, v, x, z, b, rfl, hx, hz, hfits, hu, hquiet⟩

end AckDiscipline

end LoomHost
