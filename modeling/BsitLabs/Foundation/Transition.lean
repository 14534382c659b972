import Mathlib.Logic.Relation

/-!
# Labelled machines and the runs they allow

A `Machine` is a set of initial states and a labelled step relation.  Everything
proved about a program that takes step after step is proved here once, about an
arbitrary machine, and used by name afterwards:

* `Reachable` --- the states some run arrives at;
* `Reachable.invariant` --- what holds initially and survives every step holds of
  every reachable state;
* `restrict` --- the same machine with only the steps that meet a condition, so
  that "in every run whose steps all meet the condition" is reachability in the
  restricted machine;
* `Steps` --- one state after another in some run, for statements about the rest
  of a run, and `Steps.invariant` for what survives there;
* `Projection` --- a map of states that sends every step to a step or to nothing,
  along which reachability transports.
-/

namespace BsitLabs
namespace Transition

universe u v

/-- Initial states and labelled steps. -/
structure Machine (σ : Type u) (ε : Type v) where
  /-- The states a run may begin in. -/
  init : σ → Prop
  /-- The steps, each under the label of what happens in it. -/
  step : σ → ε → σ → Prop

variable {σ : Type u} {ε : Type v}

namespace Machine

variable (M : Machine σ ε)

/-- The states some run arrives at. -/
inductive Reachable : σ → Prop where
  | init {s : σ} : M.init s → Reachable s
  | step {s s' : σ} {e : ε} : Reachable s → M.step s e s' → Reachable s'

/-- The second state comes later than the first in some run, or is the same. -/
def Steps : σ → σ → Prop := Relation.ReflTransGen fun s s' => ∃ e, M.step s e s'

/-- The machine with only the steps that meet `ok`. -/
def restrict (ok : σ → ε → Prop) : Machine σ ε where
  init := M.init
  step s e s' := ok s e ∧ M.step s e s'

variable {M}

/-! ## Invariants -/

/-- What holds initially and survives every step holds of every reachable state.
The step may use that its source is reachable. -/
theorem Reachable.invariant {P : σ → Prop} (h0 : ∀ s, M.init s → P s)
    (hstep : ∀ s e s', M.Reachable s → P s → M.step s e s' → P s') {s : σ}
    (h : M.Reachable s) : P s := by
  induction h with
  | init hi => exact h0 _ hi
  | step hr hs ih => exact hstep _ _ _ hr ih hs

/-- What survives every step from a reachable state survives the rest of the run. -/
theorem Steps.invariant {P : σ → Prop}
    (hstep : ∀ s e s', M.Reachable s → P s → M.step s e s' → P s') {s s' : σ}
    (hr : M.Reachable s) (h : M.Steps s s') (hP : P s) : M.Reachable s' ∧ P s' := by
  induction h with
  | refl => exact ⟨hr, hP⟩
  | tail _ hs ih =>
    obtain ⟨hreach, hp⟩ := ih
    obtain ⟨e, he⟩ := hs
    exact ⟨hreach.step he, hstep _ _ _ hreach hp he⟩

/-! ## Restricted runs -/

/-- A run whose steps meet a condition is a run. -/
theorem Reachable.of_restrict {ok : σ → ε → Prop} {s : σ}
    (h : (M.restrict ok).Reachable s) : M.Reachable s := by
  induction h with
  | init hi => exact .init hi
  | step _ hs ih => exact ih.step hs.2

/-- A run whose steps meet a condition meets every weaker one. -/
theorem Reachable.restrict_mono {ok ok' : σ → ε → Prop} (hle : ∀ s e, ok s e → ok' s e) {s : σ}
    (h : (M.restrict ok).Reachable s) : (M.restrict ok').Reachable s := by
  induction h with
  | init hi => exact .init hi
  | step _ hs ih => exact ih.step (M := M.restrict ok') ⟨hle _ _ hs.1, hs.2⟩

end Machine

/-! ## Projections -/

variable {τ : Type u} {δ : Type v}

/-- A map of states that sends initial states to initial states and every step
either to a step or to nothing. -/
structure Projection (A : Machine σ ε) (B : Machine τ δ) where
  /-- The state that is left when the rest is forgotten. -/
  map : σ → τ
  /-- Initial states stay initial. -/
  init : ∀ s, A.init s → B.init (map s)
  /-- A step is seen as a step or not at all. -/
  step : ∀ s e s', A.step s e s' → map s' = map s ∨ ∃ d, B.step (map s) d (map s')

/-- Reachability transports along a projection. -/
theorem Projection.reachable {A : Machine σ ε} {B : Machine τ δ} (p : Projection A B) {s : σ}
    (h : A.Reachable s) : B.Reachable (p.map s) := by
  induction h with
  | init hi => exact .init (p.init _ hi)
  | step _ hs ih =>
    rcases p.step _ _ _ hs with heq | ⟨d, hd⟩
    · rw [heq]
      exact ih
    · exact ih.step hd

end Transition
end BsitLabs
