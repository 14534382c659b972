import BsitLabs.Foundation.Transition

/-!
# A part of the state that goes its own way

A machine that serves several parties keeps a part of its state for each.  `view` reads such a
part off the state, and `sees` what of a step is addressed to it, if anything is.  The part is a
`Component` when what is addressed to it determines it: a step changes the part by `after`, or
leaves it alone.

`Observes` is a run with what the part sees of it.  Then the part after the run is a fold over
what it has seen (`Component.view_eq_foldl`): nothing else in the state has had an influence
on it.
-/

namespace BsitLabs
namespace Transition

universe u v w

variable {σ : Type u} {ε : Type v} {δ V : Type w}

/-- A run from one state to another, with what of it is addressed to the part. -/
inductive Machine.Observes (M : Machine σ ε) (sees : σ → ε → Option δ) :
    List δ → σ → σ → Prop where
  | refl (s : σ) : Observes M sees [] s s
  | seen {l : List δ} {s s' s'' : σ} {e : ε} {d : δ} : Observes M sees l s s' → M.step s' e s'' →
      sees s' e = some d → Observes M sees (l ++ [d]) s s''
  | unseen {l : List δ} {s s' s'' : σ} {e : ε} : Observes M sees l s s' → M.step s' e s'' →
      sees s' e = none → Observes M sees l s s''

/-- What is addressed to the part determines what becomes of it. -/
structure Component (M : Machine σ ε) (sees : σ → ε → Option δ) (view : σ → V)
    (after : V → δ → V) : Prop where
  seen : ∀ {s s' e d}, M.Reachable s → M.step s e s' → sees s e = some d →
    view s' = after (view s) d
  unseen : ∀ {s s' e}, M.Reachable s → M.step s e s' → sees s e = none → view s' = view s

variable {M : Machine σ ε} {sees : σ → ε → Option δ} {view : σ → V} {after : V → δ → V}
  {l : List δ} {s s' : σ}

theorem Machine.Observes.reachable (h : M.Observes sees l s s') (hr : M.Reachable s) :
    M.Reachable s' := by
  induction h with
  | refl => exact hr
  | seen _ hs _ ih => exact (ih hr).step hs
  | unseen _ hs _ ih => exact (ih hr).step hs

/-- The part after a run is a fold over what it has seen. -/
theorem Component.view_eq_foldl (hM : Component M sees view after) (hr : M.Reachable s)
    (h : M.Observes sees l s s') : view s' = l.foldl after (view s) := by
  induction h with
  | refl => rfl
  | seen hrun hs hd ih =>
    rw [List.foldl_append, List.foldl_cons, List.foldl_nil, ← ih hr]
    exact hM.seen (hrun.reachable hr) hs hd
  | unseen hrun hs hd ih =>
    rw [← ih hr]
    exact hM.unseen (hrun.reachable hr) hs hd

end Transition
end BsitLabs
