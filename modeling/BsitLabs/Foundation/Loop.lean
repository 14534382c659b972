import Mathlib.Data.Nat.Find
import Mathlib.Logic.Function.Iterate
import Mathlib.Tactic.Common

/-!
# Loops that may not end

A loop is a function that takes a state to the next or to a result.  `run` goes on for a number
of steps, and `Returns` says that there is a number of steps after which the result is there.

* `run_of_le` --- more steps do not change the result, and so `Returns.unique`;
* `Returns.of_result`, `Returns.of_next`, `Returns.next_iff` --- a loop returns what it returns
  from its next state;
* `Returns.induct` --- what holds where a loop returns at once, and passes from a state to the
  one before, holds wherever it returns;
* `Returns.invariant` --- what every step preserves holds in the state that returns, and
  `after_invariant` in every state on the way, whether the loop returns or not;
* `returns_embed_iff` --- a loop whose steps are several steps of a finer one each returns what
  that one returns;
* `exists_returns_repeating` --- an action that is repeated until there is a result has it from
  some number of repetitions on, or never.
-/

namespace BsitLabs
namespace Loop

variable {σ ρ : Type*} {step : σ → σ ⊕ ρ}

/-- The result, if it is there after this many steps. -/
def run (step : σ → σ ⊕ ρ) : ℕ → σ → Option ρ
  | 0, _ => none
  | fuel + 1, s =>
    match step s with
    | .inl next => run step fuel next
    | .inr result => some result

/-- More steps do not change the result. -/
theorem run_of_le {fuel fuel' : ℕ} {s : σ} {result : ρ} (hle : fuel ≤ fuel')
    (h : run step fuel s = some result) : run step fuel' s = some result := by
  induction fuel generalizing fuel' s with
  | zero => cases h
  | succ fuel ih =>
    obtain ⟨fuel', rfl⟩ := Nat.exists_eq_add_of_le' (Nat.le_of_add_left_le hle)
    rw [run] at h ⊢
    cases hstep : step s with
    | inl next =>
      rw [hstep] at h
      exact ih (Nat.le_of_succ_le_succ hle) h
    | inr r =>
      rw [hstep] at h
      exact h

/-- The loop returns this result from this state. -/
def Returns (step : σ → σ ⊕ ρ) (s : σ) (result : ρ) : Prop :=
  ∃ fuel, run step fuel s = some result

namespace Returns

variable {s next : σ} {result : ρ}

theorem of_result (h : step s = .inr result) : Returns step s result :=
  ⟨1, by rw [run, h]⟩

theorem of_next (h : step s = .inl next) (hreturns : Returns step next result) :
    Returns step s result := by
  obtain ⟨fuel, hrun⟩ := hreturns
  exact ⟨fuel + 1, by rw [run, h]; exact hrun⟩

theorem next_iff (h : step s = .inl next) : Returns step s result ↔ Returns step next result := by
  refine ⟨fun ⟨fuel, hrun⟩ => ?_, of_next h⟩
  cases fuel with
  | zero => cases hrun
  | succ fuel =>
    rw [run, h] at hrun
    exact ⟨fuel, hrun⟩

/-- Backwards from the result. -/
theorem induct {motive : (s : σ) → Returns step s result → Prop}
    (last : ∀ s, (hstep : step s = .inr result) → motive s (of_result hstep))
    (next : ∀ s s', (hstep : step s = .inl s') → (hreturns : Returns step s' result) →
      motive s' hreturns → motive s (of_next hstep hreturns))
    (h : Returns step s result) : motive s h := by
  obtain ⟨fuel, hrun⟩ := h
  induction fuel generalizing s with
  | zero => cases hrun
  | succ fuel ih =>
    cases hstep : step s with
    | inl s' =>
      rw [run, hstep] at hrun
      exact next s s' hstep ⟨fuel, hrun⟩ (ih hrun)
    | inr r =>
      rw [run, hstep] at hrun
      exact last s (hstep.trans (congrArg Sum.inr (Option.some.inj hrun)))

/-- Forwards from the state where it starts. -/
theorem invariant {I : σ → Prop} (hs : I s) (preserved : ∀ s s', I s → step s = .inl s' → I s')
    (h : Returns step s result) : ∃ s', I s' ∧ step s' = .inr result := by
  induction h using induct with
  | last s hstep => exact ⟨s, hs, hstep⟩
  | next s s' hstep _ ih => exact ih (preserved s s' hs hstep)

theorem unique {result' : ρ} (h : Returns step s result) (h' : Returns step s result') :
    result = result' := by
  obtain ⟨fuel, hrun⟩ := h
  obtain ⟨fuel', hrun'⟩ := h'
  have hmax := run_of_le (Nat.le_max_left fuel fuel') hrun
  rw [run_of_le (Nat.le_max_right fuel fuel') hrun'] at hmax
  exact (Option.some.inj hmax).symm

end Returns

/-! ## Loops that go on -/

/-- The state after this many steps, unless the loop has returned before. -/
def after (step : σ → σ ⊕ ρ) : ℕ → σ → Option σ
  | 0, s => some s
  | count + 1, s =>
    match step s with
    | .inl next => after step count next
    | .inr _ => none

/-- One step more. -/
theorem after_succ {count : ℕ} {s s' next : σ} (h : after step count s = some s')
    (hstep : step s' = .inl next) : after step (count + 1) s = some next := by
  induction count generalizing s with
  | zero =>
    obtain rfl := Option.some.inj h
    rw [after, hstep]
    rfl
  | succ count ih =>
    rw [after] at h ⊢
    cases hfirst : step s with
    | inl first =>
      rw [hfirst] at h
      exact ih h
    | inr result =>
      rw [hfirst] at h
      cases h

/-- Some steps, and some more. -/
theorem after_trans {count count' : ℕ} {s s' s'' : σ} (h : after step count s = some s')
    (h' : after step count' s' = some s'') : after step (count' + count) s = some s'' := by
  induction count generalizing s with
  | zero => exact Option.some.inj h ▸ h'
  | succ count ih =>
    rw [after] at h
    rw [← Nat.add_assoc, after]
    cases hstep : step s with
    | inl next =>
      rw [hstep] at h
      exact ih h
    | inr result =>
      rw [hstep] at h
      cases h

/-- What every step preserves holds as long as the loop goes on. -/
theorem after_invariant {I : σ → Prop} {count : ℕ} {s s' : σ} (hs : I s)
    (preserved : ∀ s s', I s → step s = .inl s' → I s') (h : after step count s = some s') :
    I s' := by
  induction count generalizing s with
  | zero => exact Option.some.inj h ▸ hs
  | succ count ih =>
    rw [after] at h
    cases hstep : step s with
    | inl next =>
      rw [hstep] at h
      exact ih (preserved s next hs hstep) h
    | inr result =>
      rw [hstep] at h
      cases h

/-! ## Smaller steps -/

/-- What is left to do after some of the steps. -/
theorem run_of_after {count fuel : ℕ} {s s' : σ} {result : ρ}
    (hafter : after step count s = some s') (h : run step fuel s = some result) :
    count < fuel ∧ run step (fuel - count) s' = some result := by
  induction count generalizing fuel s with
  | zero =>
    obtain rfl := Option.some.inj hafter
    refine ⟨Nat.pos_of_ne_zero ?_, h⟩
    rintro rfl
    cases h
  | succ count ih =>
    cases fuel with
    | zero => cases h
    | succ fuel =>
      rw [after] at hafter
      rw [run] at h
      cases hstep : step s with
      | inl next =>
        rw [hstep] at hafter h
        obtain ⟨hlt, hrun⟩ := ih hafter h
        exact ⟨Nat.succ_lt_succ hlt, by rwa [Nat.succ_sub_succ]⟩
      | inr result =>
        rw [hstep] at hafter
        cases hafter

theorem Returns.of_after {count : ℕ} {s s' : σ} {result : ρ} (hafter : after step count s = some s')
    (h : Returns step s' result) : Returns step s result := by
  induction count generalizing s with
  | zero => exact Option.some.inj hafter ▸ h
  | succ count ih =>
    rw [after] at hafter
    cases hstep : step s with
    | inl next =>
      rw [hstep] at hafter
      exact .of_next hstep (ih hafter)
    | inr result =>
      rw [hstep] at hafter
      cases hafter

/-- **A loop in smaller steps** returns what the loop returns. -/
theorem returns_embed_iff {τ : Type*} {coarse : τ → τ ⊕ ρ} {embed : τ → σ}
    (hnext : ∀ t t', coarse t = .inl t' →
      ∃ count, after step (count + 1) (embed t) = some (embed t'))
    (hlast : ∀ t result, coarse t = .inr result → Returns step (embed t) result) {t : τ}
    {result : ρ} : Returns step (embed t) result ↔ Returns coarse t result := by
  constructor
  · rintro ⟨fuel, hrun⟩
    induction fuel using Nat.strongRecOn generalizing t with
    | ind fuel ih =>
      cases hcoarse : coarse t with
      | inr r => exact (hlast t r hcoarse).unique ⟨fuel, hrun⟩ ▸ .of_result hcoarse
      | inl t' =>
        obtain ⟨count, hafter⟩ := hnext t t' hcoarse
        obtain ⟨hlt, hrest⟩ := run_of_after hafter hrun
        exact .of_next hcoarse (ih _ (by omega) hrest)
  · intro h
    induction h using Returns.induct with
    | last t hstep => exact hlast t result hstep
    | next t t' hstep _ ih =>
      obtain ⟨count, hafter⟩ := hnext t t' hstep
      exact ih.of_after hafter

/-! ## Repeating -/

/-- The loop that acts until there is a result. -/
def repeating (act : σ → σ) (result : σ → Option ρ) (s : σ) : σ ⊕ ρ :=
  match result s with
  | some r => .inr r
  | none => .inl (act s)

section Repeating

variable {act : σ → σ} {result : σ → Option ρ} {s : σ} {r : ρ}

theorem repeating_of_some (h : result s = some r) : repeating act result s = .inr r := by
  rw [repeating, h]

theorem repeating_of_none (h : result s = none) : repeating act result s = .inl (act s) := by
  rw [repeating, h]

/-- Once the result is there, nothing more happens. -/
theorem iterate_of_le (hstop : ∀ s r, result s = some r → act s = s) {k n : ℕ} (hle : k ≤ n)
    (h : result (act^[k] s) = some r) : act^[n] s = act^[k] s := by
  induction hle with
  | refl => rfl
  | step _ ih =>
    rw [Function.iterate_succ_apply', ih]
    exact hstop _ r h

theorem returns_repeating_iff (hstop : ∀ s r, result s = some r → act s = s) :
    Returns (repeating act result) s r ↔ ∃ n, result (act^[n] s) = some r := by
  constructor
  · intro h
    induction h using Returns.induct with
    | last s hstep =>
      refine ⟨0, ?_⟩
      cases hresult : result s with
      | none =>
        rw [repeating_of_none hresult] at hstep
        cases hstep
      | some r' =>
        rw [repeating_of_some hresult] at hstep
        exact hresult.trans (congrArg some (Sum.inr.inj hstep))
    | next s s' hstep _ ih =>
      obtain ⟨n, hn⟩ := ih
      cases hresult : result s with
      | none =>
        rw [repeating_of_none hresult] at hstep
        obtain rfl : act s = s' := Sum.inl.inj hstep
        exact ⟨n + 1, hn⟩
      | some r' =>
        rw [repeating_of_some hresult] at hstep
        cases hstep
  · rintro ⟨n, hn⟩
    induction n generalizing s with
    | zero => exact .of_result (repeating_of_some hn)
    | succ n ih =>
      cases hresult : result s with
      | none => exact .of_next (repeating_of_none hresult) (ih hn)
      | some r' =>
        rw [iterate_of_le hstop (Nat.zero_le _) hresult] at hn
        exact .of_result (repeating_of_some hn)

/-- **From when on the result is there.** -/
theorem exists_returns_repeating (hstop : ∀ s r, result s = some r → act s = s) (s : σ) :
    ∃ k, ∀ n r, result (act^[n] s) = some r ↔ k ≤ n ∧ Returns (repeating act result) s r := by
  by_cases h : ∃ n, (result (act^[n] s)).isSome
  · classical
    obtain ⟨r, hr⟩ := Option.isSome_iff_exists.mp (Nat.find_spec h)
    refine ⟨Nat.find h, fun n r' => ⟨fun hn => ⟨?_, (returns_repeating_iff hstop).mpr ⟨n, hn⟩⟩, ?_⟩⟩
    · exact Nat.find_min' h (Option.isSome_iff_exists.mpr ⟨r', hn⟩)
    · rintro ⟨hle, hreturns⟩
      rw [iterate_of_le hstop hle hr, hr]
      exact congrArg some (((returns_repeating_iff hstop).mpr ⟨_, hr⟩).unique hreturns)
  · refine ⟨0, fun n r => ⟨fun hn => ?_, ?_⟩⟩
    · exact absurd ⟨n, Option.isSome_iff_exists.mpr ⟨r, hn⟩⟩ h
    · rintro ⟨-, hreturns⟩
      obtain ⟨m, hm⟩ := (returns_repeating_iff hstop).mp hreturns
      exact absurd ⟨m, Option.isSome_iff_exists.mpr ⟨r, hm⟩⟩ h

end Repeating

end Loop
end BsitLabs
