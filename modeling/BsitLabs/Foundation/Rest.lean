import BsitLabs.Foundation.Transition
import Mathlib.Data.Nat.Init
import Mathlib.Tactic.Push

/-!
# Machines that come to rest

`Run` counts the steps that lead from one state to another, and a state is `AtRest` if no step
leads away from it.  A machine whose steps all lower a measure cannot go on for ever:

* `Run.add_le` --- a run has no more steps than the measure of its first state, and what it has
  taken is no longer there to be taken;
* `exists_atRest` --- every state leads to one at rest;
* `Run.invariant` --- what survives every step survives the run.
-/

namespace BsitLabs
namespace Transition
namespace Machine

universe u v

variable {σ : Type u} {ε : Type v} (M : Machine σ ε)

/-- So many steps lead from the first state to the second. -/
inductive Run : ℕ → σ → σ → Prop where
  | refl (s : σ) : Run 0 s s
  | step {count : ℕ} {s s' s'' : σ} {e : ε} : Run count s s' → M.step s' e s'' →
      Run (count + 1) s s''

/-- No step leads away. -/
def AtRest (s : σ) : Prop := ∀ e s', ¬ M.step s e s'

variable {M} {count : ℕ} {s s' : σ} {P : σ → Prop}

theorem Run.head {e : ε} {s'' : σ} (hs : M.step s e s') (h : M.Run count s' s'') :
    M.Run (count + 1) s s'' := by
  induction h with
  | refl => exact .step (.refl s) hs
  | step _ hlast ih => exact .step (ih hs) hlast

/-- What survives every step survives the run. -/
theorem Run.invariant (hstep : ∀ s e s', P s → M.step s e s' → P s') (h : M.Run count s s')
    (hP : P s) : P s' := by
  induction h with
  | refl => exact hP
  | step _ hs ih => exact hstep _ _ _ (ih hP) hs

section Measure

variable {μ : σ → ℕ} (hstep : ∀ s e s', P s → M.step s e s' → P s')
  (hless : ∀ s e s', P s → M.step s e s' → μ s' < μ s)

include hstep hless

/-- The measure pays for every step. -/
theorem Run.add_le (h : M.Run count s s') (hP : P s) : count + μ s' ≤ μ s := by
  induction h with
  | refl => exact Nat.le_of_eq (Nat.zero_add _)
  | step hrun hs ih =>
    have hbefore := ih hP
    have hlast := hless _ _ _ (hrun.invariant hstep hP) hs
    omega

/-- **Every state leads to one at rest**: by induction on its measure. -/
theorem exists_atRest (hP : P s) : ∃ count s', M.Run count s s' ∧ M.AtRest s' := by
  induction hm : μ s using Nat.strong_induction_on generalizing s with
  | _ m ih =>
    by_cases hrest : M.AtRest s
    · exact ⟨0, s, .refl s, hrest⟩
    · unfold AtRest at hrest
      push Not at hrest
      obtain ⟨e, s', hs⟩ := hrest
      obtain ⟨count, s'', hrun, hrest⟩ :=
        ih (μ s') (hm ▸ hless s e s' hP hs) (hstep s e s' hP hs) rfl
      exact ⟨count + 1, s'', hrun.head hs, hrest⟩

end Measure

end Machine
end Transition
end BsitLabs
