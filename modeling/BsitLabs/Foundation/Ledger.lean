import Mathlib.Data.List.Count
import Mathlib.Logic.Function.Basic

/-!
# Handles and who holds them

A system hands out handles, numbered from one, and takes each back once.  A program
keeps its handles in places, one at each, with zero for none.  The books are in order
(`Accounted`) when the handles that are out are those that are held, and every other has
been given back once.

Two operations of a careless program are treated here: `give` puts a fresh handle in a
place whatever it holds, and `forget` clears a place and gives back nothing.  From books
in order with nothing given back (`Tidy`) each of them leaves them in order exactly if the
place was empty.
-/

namespace BsitLabs

/-- What has been handed out, what is held where, and what has been given back. -/
@[ext]
structure Ledger (ι : Type*) where
  /-- The handle at each place; zero is none. -/
  held : ι → ℕ
  /-- How many have been handed out. -/
  made : ℕ
  /-- What has been given back. -/
  destroyed : List ℕ

namespace Ledger

variable {ι : Type*} {L : Ledger ι}

/-- The books are in order. -/
structure Accounted (L : Ledger ι) : Prop where
  /-- The handles that are out are those that are held. -/
  live : ∀ k, (1 ≤ k ∧ k ≤ L.made ∧ k ∉ L.destroyed) ↔ (k ≠ 0 ∧ ∃ i, L.held i = k)
  /-- Every other has been given back once. -/
  once : ∀ k, 1 ≤ k → k ≤ L.made → (∀ i, L.held i ≠ k) → L.destroyed.count k = 1

/-- Nothing has been given back, and every handle is held in one place. -/
structure Tidy (L : Ledger ι) : Prop where
  below : ∀ i, L.held i ≤ L.made
  distinct : ∀ i j, L.held i ≠ 0 → L.held i = L.held j → i = j
  kept : ∀ k, 1 ≤ k → k ≤ L.made → ∃ i, L.held i = k
  nothing : ∀ k ∈ L.destroyed, k = 0

theorem Tidy.accounted (h : L.Tidy) : L.Accounted where
  live k := by
    constructor
    · rintro ⟨hpos, hle, _⟩
      exact ⟨by omega, h.kept k hpos hle⟩
    · rintro ⟨hne, i, hi⟩
      have hle := h.below i
      exact ⟨by omega, by omega, fun hmem => hne (h.nothing k hmem)⟩
  once k hpos hle hnone := by
    obtain ⟨i, hi⟩ := h.kept k hpos hle
    exact absurd hi (hnone i)

variable [DecidableEq ι]

/-- A fresh handle is put in a place, over whatever is there. -/
def give (L : Ledger ι) (i : ι) : Ledger ι where
  held := Function.update L.held i (L.made + 1)
  made := L.made + 1
  destroyed := L.destroyed

/-- A place is cleared, and what is given back is what it holds then. -/
def forget (L : Ledger ι) (i : ι) : Ledger ι where
  held := Function.update L.held i 0
  made := L.made
  destroyed := L.destroyed ++ [0]

namespace Tidy

variable (h : L.Tidy) {i : ι}

include h

/-- Books without the handle of a place that held one are not in order: it is neither
held nor given back. -/
theorem not_accounted_of_update {L' : Ledger ι} (hi : L.held i ≠ 0) {k : ℕ}
    (hheld : L'.held = Function.update L.held i k) (hk : k ≠ L.held i)
    (hmade : L.made ≤ L'.made) (hdestroyed : ∀ x ∈ L'.destroyed, x = 0) : ¬ L'.Accounted := by
  intro hacc
  have hle := h.below i
  have hout := (hacc.live (L.held i)).mp
    ⟨by omega, by omega, fun hmem => hi (hdestroyed _ hmem)⟩
  obtain ⟨j, hj⟩ := hout.2
  rw [hheld, Function.update_apply] at hj
  split at hj
  · exact hk hj
  · next hji => exact hji (h.distinct i j hi hj.symm).symm

/-- Giving to an empty place. -/
theorem give (hi : L.held i = 0) : (L.give i).Tidy where
  below j := by
    have hle := h.below j
    show Function.update L.held i (L.made + 1) j ≤ L.made + 1
    rw [Function.update_apply]
    split <;> omega
  distinct j k := by
    have hj := h.below j
    have hk := h.below k
    show Function.update L.held i (L.made + 1) j ≠ 0 →
      Function.update L.held i (L.made + 1) j = Function.update L.held i (L.made + 1) k → j = k
    rw [Function.update_apply, Function.update_apply]
    by_cases hji : j = i <;> by_cases hki : k = i
    · exact fun _ _ => hji.trans hki.symm
    · rw [if_pos hji, if_neg hki]
      omega
    · rw [if_neg hji, if_pos hki]
      omega
    · rw [if_neg hji, if_neg hki]
      exact h.distinct j k
  kept k hpos hle := by
    rcases Nat.lt_or_ge L.made k with hlt | hge
    · refine ⟨i, ?_⟩
      have hk : k = L.made + 1 := Nat.le_antisymm hle hlt
      rw [hk]
      exact Function.update_self _ _ _
    · obtain ⟨j, hj⟩ := h.kept k hpos hge
      refine ⟨j, ?_⟩
      rw [← hj]
      refine Function.update_of_ne ?_ _ _
      rintro rfl
      omega
  nothing := h.nothing

/-- **Giving keeps the books in order exactly if the place was empty.** -/
theorem give_accounted_iff : (L.give i).Accounted ↔ L.held i = 0 := by
  constructor
  · intro hacc
    by_contra hi
    have hle := h.below i
    exact absurd hacc
      (h.not_accounted_of_update hi rfl (by omega) (Nat.le_succ _) h.nothing)
  · intro hi
    exact (h.give hi).accounted

theorem nothing_forget : ∀ x ∈ (L.forget i).destroyed, x = 0 := by
  intro x hx
  rcases List.mem_append.mp hx with hx | hx
  · exact h.nothing x hx
  · exact List.mem_singleton.mp hx

/-- Forgetting an empty place. -/
theorem forget (hi : L.held i = 0) : (L.forget i).Tidy := by
  have hheld : (L.forget i).held = L.held := by
    funext j
    show Function.update L.held i 0 j = L.held j
    rw [Function.update_apply]
    split
    · next hji => rw [hji, hi]
    · rfl
  refine ⟨fun j => ?_, fun j k => ?_, fun k => ?_, h.nothing_forget⟩
  · rw [hheld]
    exact h.below j
  · rw [hheld]
    exact h.distinct j k
  · rw [hheld]
    exact h.kept k

/-- **Forgetting keeps the books in order exactly if the place was empty.** -/
theorem forget_accounted_iff : (L.forget i).Accounted ↔ L.held i = 0 := by
  constructor
  · intro hacc
    by_contra hi
    exact absurd hacc
      (h.not_accounted_of_update hi rfl (Ne.symm hi) (Nat.le_refl _) h.nothing_forget)
  · intro hi
    exact (h.forget hi).accounted

end Tidy
end Ledger
end BsitLabs
