import Mathlib.Data.List.Basic
import Mathlib.Data.List.Induction
import Mathlib.Logic.Function.Iterate

/-!
# Parties that share a store

Each party has a state of its own and acts on a store that it shares with the others, one turn
after another in any order.  A party is `Confined` to the places that it names if nothing else in
the store has an influence on what it does, and nothing but its targets among them changes.

If no party has a target that another names, then each is, after any schedule, where it would be
alone after as many turns of its own (`foldl_turn`): neither the others nor the order of the turns
have had an influence on it.
-/

namespace BsitLabs
namespace Footprint

variable {ι σ P V : Type*}

/-- A party that depends on the places that it names, and changes its targets only.  What it
names is fixed, so there is an invariant `I` of its own state. -/
structure Confined (act : σ × (P → V) → σ × (P → V)) (I : σ → Prop) (named target : P → Prop) :
    Prop where
  keeps : ∀ x f, I x → I (act (x, f)).1
  frame : ∀ x f q, I x → ¬ target q → (act (x, f)).2 q = f q
  reads : ∀ x f g, I x → (∀ q, named q → f q = g q) →
    (act (x, f)).1 = (act (x, g)).1 ∧ ∀ q, named q → (act (x, f)).2 q = (act (x, g)).2 q

section Alone

variable {act : σ × (P → V) → σ × (P → V)} {I : σ → Prop} {named target : P → Prop} {x : σ}

theorem Confined.keeps_iterate (h : Confined act I named target) (hx : I x) (f : P → V) (n : ℕ) :
    I (act^[n] (x, f)).1 := by
  induction n with
  | zero => exact hx
  | succ n ih =>
    rw [Function.iterate_succ_apply']
    exact h.keeps _ _ ih

/-- Whatever it does in the end, nothing but its targets has changed. -/
theorem Confined.frame_iterate (h : Confined act I named target) (hx : I x) (f : P → V) (n : ℕ)
    {q : P} (hq : ¬ target q) : (act^[n] (x, f)).2 q = f q := by
  induction n with
  | zero => rfl
  | succ n ih =>
    rw [Function.iterate_succ_apply']
    exact (h.frame _ _ q (h.keeps_iterate hx f n) hq).trans ih

end Alone

/-! ## Among others -/

variable [DecidableEq ι]

/-- A turn of one of the parties. -/
def turn (act : ι → σ × (P → V) → σ × (P → V)) (s : (ι → σ) × (P → V)) (c : ι) :
    (ι → σ) × (P → V) :=
  (Function.update s.1 c (act c (s.1 c, s.2)).1, (act c (s.1 c, s.2)).2)

section Turns

variable {act : ι → σ × (P → V) → σ × (P → V)} {I : ι → σ → Prop} {named target : ι → P → Prop}
  {s : (ι → σ) × (P → V)}

@[simp] theorem turn_self (s : (ι → σ) × (P → V)) (c : ι) :
    (turn act s c).1 c = (act c (s.1 c, s.2)).1 := Function.update_self _ _ _

@[simp] theorem turn_of_ne (s : (ι → σ) × (P → V)) {c d : ι} (h : d ≠ c) :
    (turn act s c).1 d = s.1 d := Function.update_of_ne h _ _

theorem foldl_keeps (h : ∀ c, Confined (act c) (I c) (named c) (target c))
    (hs : ∀ c, I c (s.1 c)) (l : List ι) (c : ι) : I c ((l.foldl (turn act) s).1 c) := by
  induction l using List.reverseRecOn with
  | nil => exact hs c
  | append_singleton l d ih =>
    rw [List.foldl_concat]
    by_cases hcd : c = d
    · subst hcd
      rw [turn_self]
      exact (h c).keeps _ _ ih
    · rw [turn_of_ne _ hcd]
      exact ih

/-- **Each party is where it would be alone**, after any schedule: in its own state, and in the
part of the store that it names. -/
theorem foldl_turn (h : ∀ c, Confined (act c) (I c) (named c) (target c))
    (hapart : ∀ c d, c ≠ d → ∀ q, target d q → ¬ named c q) (hs : ∀ c, I c (s.1 c)) (l : List ι)
    (c : ι) :
    (l.foldl (turn act) s).1 c = ((act c)^[l.count c] (s.1 c, s.2)).1 ∧
      ∀ q, named c q → (l.foldl (turn act) s).2 q = ((act c)^[l.count c] (s.1 c, s.2)).2 q := by
  induction l using List.reverseRecOn with
  | nil => exact ⟨rfl, fun _ _ => rfl⟩
  | append_singleton l d ih =>
    obtain ⟨hown, hstore⟩ := ih
    have hI := foldl_keeps h hs l
    rw [List.foldl_concat, List.count_append, List.count_singleton]
    by_cases hcd : c = d
    · -- its own turn: it reads what it would read alone
      subst hcd
      obtain ⟨hsame, hagree⟩ := (h c).reads _ _ _ (hI c) hstore
      rw [hown] at hsame hagree
      rw [if_pos (beq_self_eq_true c), Function.iterate_succ_apply', turn_self, hown]
      exact ⟨hsame, fun q hq => (congrArg (fun x => (act c (x, _)).2 q) hown).trans (hagree q hq)⟩
    · -- another's turn: none of its targets is named
      rw [if_neg (by simpa using Ne.symm hcd), Nat.add_zero, turn_of_ne _ hcd]
      refine ⟨hown, fun q hq => Eq.trans ?_ (hstore q hq)⟩
      exact (h d).frame _ _ q (hI d) fun htarget => hapart c d hcd q htarget hq

end Turns

end Footprint
end BsitLabs
