import BsitLabs.Foundation.Loop
import Mathlib.Data.List.Basic

/-!
# Loops that act

A loop that keeps a log of the commands it gives can be run beside the world that the commands
act on: `acting` performs at once what a step adds to the log, and a command that throws, which
is `none`, ends it.

The loop itself does not look at the world, so acting on the way is the same as going through
the log in the end:

* `after_acting_iff` --- in every state on the way, the world is what the log makes of the world
  at the start;
* `returns_acting_iff` --- so it is where the loop returns, and it returns where the loop alone
  does, unless a command throws.
-/

namespace BsitLabs
namespace Loop

variable {σ ρ C W : Type*}

/-- The loop beside the world. -/
def acting (step : σ → σ ⊕ ρ) (log : σ → List C) (perform : W → C → Option W) :
    σ × W → (σ × W) ⊕ Option (ρ × W)
  | (s, x) =>
    match step s with
    | .inr result => .inr (some (result, x))
    | .inl next =>
      match ((log next).drop (log s).length).foldlM perform x with
      | some x' => .inl (next, x')
      | none => .inr none

/-- What has been logged stays in the log. -/
def Logs (step : σ → σ ⊕ ρ) (log : σ → List C) : Prop :=
  ∀ s next, step s = .inl next → log s <+: log next

/-- The last state before a result. -/
theorem returns_iff_after {step : σ → σ ⊕ ρ} {s : σ} {result : ρ} :
    Returns step s result ↔ ∃ count s', after step count s = some s' ∧ step s' = .inr result := by
  constructor
  · intro h
    induction h using Returns.induct with
    | last s hstep => exact ⟨0, s, rfl, hstep⟩
    | next s s' hstep _ ih =>
      obtain ⟨count, last, hafter, hlast⟩ := ih
      refine ⟨count + 1, last, ?_, hlast⟩
      rw [after, hstep]
      exact hafter
  · rintro ⟨count, s', hafter, hlast⟩
    induction count generalizing s with
    | zero =>
      obtain rfl := Option.some.inj hafter
      exact .of_result hlast
    | succ count ih =>
      rw [after] at hafter
      cases hstep : step s with
      | inl next =>
        rw [hstep] at hafter
        exact .of_next hstep (ih hafter)
      | inr result =>
        rw [hstep] at hafter
        cases hafter

section Acting

variable {step : σ → σ ⊕ ρ} {log : σ → List C} {perform : W → C → Option W} {s s' : σ} {x x' : W}
  {count : ℕ}

/-- What a step beside the world does: it returns with the loop, or goes on with what it has
performed, or what it performs throws. -/
theorem acting_cases (step : σ → σ ⊕ ρ) (log : σ → List C) (perform : W → C → Option W) (s : σ)
    (x : W) :
    (∃ result, step s = .inr result ∧
        acting step log perform (s, x) = .inr (some (result, x))) ∨
      ∃ next, step s = .inl next ∧
        ((∃ x', ((log next).drop (log s).length).foldlM perform x = some x' ∧
            acting step log perform (s, x) = .inl (next, x')) ∨
          (((log next).drop (log s).length).foldlM perform x = none ∧
            acting step log perform (s, x) = .inr none)) := by
  rw [acting]
  cases hstep : step s with
  | inr result => exact .inl ⟨result, rfl, rfl⟩
  | inl next =>
    refine .inr ⟨next, rfl, ?_⟩
    dsimp only
    cases hperform : ((log next).drop (log s).length).foldlM perform x with
    | some x' => exact .inl ⟨x', rfl, rfl⟩
    | none => exact .inr ⟨rfl, rfl⟩

/-- The log of a later state begins with that of an earlier one. -/
theorem Logs.after (h : Logs step log) (hafter : after step count s = some s') :
    log s <+: log s' :=
  after_invariant (I := fun t => log s <+: log t) List.prefix_rfl
    (fun _ _ hbefore hstep => hbefore.trans (h _ _ hstep)) hafter

/-- What two stretches of a run add to the log, one behind the other. -/
theorem drop_append_drop {a b c : List C} (hab : a <+: b) (hbc : b <+: c) :
    c.drop a.length = b.drop a.length ++ c.drop b.length := by
  obtain ⟨l, rfl⟩ := hab
  obtain ⟨l', rfl⟩ := hbc
  rw [List.append_assoc, List.drop_left, List.drop_left, ← List.append_assoc, List.drop_left]

/-- **Acting on the way is going through the log.** -/
theorem after_acting_iff (h : Logs step log) :
    after (acting step log perform) count (s, x) = some (s', x') ↔
      after step count s = some s' ∧
        ((log s').drop (log s).length).foldlM perform x = some x' := by
  induction count generalizing s x with
  | zero =>
    rw [after, after, Option.some.injEq, Option.some.injEq, Prod.mk.injEq]
    refine and_congr_right fun hs => ?_
    rw [hs, List.drop_length, List.foldlM_nil]
    exact Option.some_inj.symm
  | succ count ih =>
    rw [after, after, acting]
    cases hstep : step s with
    | inr result => simp
    | inl next =>
      have hnext := h s next hstep
      dsimp only
      cases hperform : ((log next).drop (log s).length).foldlM perform x with
      | some y =>
        dsimp only
        rw [ih]
        refine and_congr_right fun hafter => ?_
        rw [drop_append_drop hnext (h.after hafter), List.foldlM_append, hperform]
        rfl
      | none =>
        refine iff_of_false (by simp) ?_
        rintro ⟨hafter, hall⟩
        rw [drop_append_drop hnext (h.after hafter), List.foldlM_append, hperform] at hall
        cases hall

/-- **What the loop returns beside the world**: what it returns alone, with what its whole log
makes of the world. -/
theorem returns_acting_iff (h : Logs step log) {result : ρ} :
    Returns (acting step log perform) (s, x) (some (result, x')) ↔
      ∃ count s', after step count s = some s' ∧ step s' = .inr result ∧
        ((log s').drop (log s).length).foldlM perform x = some x' := by
  rw [returns_iff_after]
  constructor
  · rintro ⟨count, ⟨s', y⟩, hafter, hlast⟩
    obtain ⟨halone, hlog⟩ := (after_acting_iff h).mp hafter
    rw [acting] at hlast
    cases hstep : step s' with
    | inr result' =>
      rw [hstep] at hlast
      obtain ⟨rfl, rfl⟩ := Prod.mk.inj (Option.some.inj (Sum.inr.inj hlast))
      exact ⟨count, s', halone, hstep, hlog⟩
    | inl next =>
      rw [hstep] at hlast
      dsimp only at hlast
      split at hlast <;> simp at hlast
  · rintro ⟨count, s', halone, hstep, hlog⟩
    refine ⟨count, (s', x'), (after_acting_iff h).mpr ⟨halone, hlog⟩, ?_⟩
    rw [acting, hstep]

end Acting

/-- Commands that none of the worlds on the way throws at. -/
theorem foldlM_eq_some_foldl {perform : W → C → Option W} {next : W → C → W} {I : W → Prop}
    (hperform : ∀ x c, I x → perform x c = some (next x c)) (hI : ∀ x c, I x → I (next x c))
    (commands : List C) {x : W} (hx : I x) :
    commands.foldlM perform x = some (commands.foldl next x) := by
  induction commands generalizing x with
  | nil => rfl
  | cons c commands ih =>
    rw [List.foldlM_cons, hperform x c hx, List.foldl_cons]
    exact ih (hI x c hx)

/-- What none of the commands destroys. -/
theorem foldlM_invariant {perform : W → C → Option W} {I : W → Prop} {commands : List C}
    (hI : ∀ c ∈ commands, ∀ x x', perform x c = some x' → I x → I x') {x x' : W}
    (h : commands.foldlM perform x = some x') (hx : I x) : I x' := by
  induction commands generalizing x with
  | nil =>
    obtain rfl := Option.some.inj h
    exact hx
  | cons c commands ih =>
    rw [List.foldlM_cons] at h
    obtain ⟨y, hy, hrest⟩ := Option.bind_eq_some_iff.mp h
    exact ih (fun c hc => hI c (List.mem_cons_of_mem _ hc)) hrest
      (hI c List.mem_cons_self x y hy hx)

end Loop
end BsitLabs
