import Mathlib.Data.List.Basic
import Mathlib.Tactic.Common

/-!
# Tokens

The tokens of a list, for a separator `c`, are the pieces between its separators that are not
empty.  They are its maximal runs of other elements, from left to right (`tokens_listed`), and
are the tokens of themselves joined by separators (`tokens_intercalate`).

Both are proved by `tokenInduction`: a list has no separator, or it is a list that has none,
then a separator, then a list that is shorter.
-/

namespace BsitLabs
namespace Tokens

variable {α : Type*} {c : α}

/-- Up to its first separator, a list has none. -/
theorem tokenInduction {motive : List α → Prop} (last : ∀ l, c ∉ l → motive l)
    (next : ∀ t l, c ∉ t → motive l → motive (t ++ c :: l)) (l : List α) : motive l := by
  induction hlen : l.length using Nat.strongRecOn generalizing l with
  | _ n ih =>
    by_cases hc : c ∈ l
    · obtain ⟨t, rest, rfl, ht⟩ := List.eq_append_cons_of_mem hc
      refine next t rest ht (ih rest.length ?_ rest rfl)
      rw [← hlen, List.length_append, List.length_cons]
      omega
    · exact last l hc

/-- What has no separator goes on with the last piece. -/
theorem splitOn_append_of_notMem [BEq α] [LawfulBEq α] {t : List α} (ht : c ∉ t) (l : List α) :
    (l ++ t).splitOn c = (l.splitOn c).dropLast ++ [(l.splitOn c).getLastD [] ++ t] := by
  induction l using tokenInduction (c := c) with
  | last l hl =>
    have hboth : c ∉ l ++ t := fun h => (List.mem_append.mp h).elim hl ht
    rw [List.splitOn_eq_singleton hboth, List.splitOn_eq_singleton hl]
    rfl
  | next s l hs ih =>
    obtain ⟨piece, pieces, hl⟩ := List.exists_cons_of_ne_nil (List.splitOn_ne_nil c l)
    rw [List.append_assoc, List.cons_append, List.splitOn_append_cons_self_of_not_mem hs,
      List.splitOn_append_cons_self_of_not_mem hs, ih, hl]
    rfl

/-! ## The pieces that are not empty -/

section Tokens

variable [DecidableEq α]

/-- The pieces that are not empty. -/
def tokens (c : α) (l : List α) : List (List α) := (l.splitOn c).filter (· ≠ [])

/-- A list with no separator is one token, unless it is empty. -/
theorem tokens_of_notMem {l : List α} (h : c ∉ l) : tokens c l = if l = [] then [] else [l] := by
  rw [tokens, List.splitOn_eq_singleton h]
  by_cases hnil : l = [] <;> simp [hnil]

theorem tokens_append_cons (t l : List α) : tokens c (t ++ c :: l) = tokens c t ++ tokens c l := by
  rw [tokens, List.splitOn_append_cons_of_beq _ _ (beq_self_eq_true c), List.filter_append]
  rfl

@[simp] theorem tokens_nil : tokens c [] = [] := tokens_of_notMem List.not_mem_nil

/-- A separator in front adds no token. -/
@[simp] theorem tokens_cons_self (l : List α) : tokens c (c :: l) = tokens c l :=
  tokens_append_cons [] l

/-- A list is a token, up to a separator or the end. -/
theorem tokens_token_cons {t : List α} (ht : t ≠ []) (hc : c ∉ t) (l : List α) :
    tokens c (t ++ c :: l) = t :: tokens c l := by
  rw [tokens_append_cons, tokens_of_notMem hc, if_neg ht, List.singleton_append]

/-- **What a token is**: not empty, and without a separator. -/
theorem of_mem_tokens {t l : List α} (h : t ∈ tokens c l) : t ≠ [] ∧ c ∉ t := by
  induction l using tokenInduction (c := c) with
  | last l hc =>
    rw [tokens_of_notMem hc] at h
    split at h
    · exact absurd h List.not_mem_nil
    · next hne => exact List.mem_singleton.mp h ▸ ⟨hne, hc⟩
  | next s l hc ih =>
    rw [tokens_append_cons, List.mem_append, tokens_of_notMem hc] at h
    refine h.elim (fun h => ?_) ih
    split at h
    · exact absurd h List.not_mem_nil
    · next hne => exact List.mem_singleton.mp h ▸ ⟨hne, hc⟩

theorem tokens_eq_nil_iff_of_notMem {l : List α} (hc : c ∉ l) :
    tokens c l = [] ↔ ∀ x ∈ l, x = c := by
  rw [tokens_of_notMem hc]
  constructor
  · intro h x hx
    split at h
    · next hnil => exact absurd (hnil ▸ hx) List.not_mem_nil
    · exact absurd h (List.cons_ne_nil _ _)
  · intro h
    rw [if_pos (List.eq_nil_iff_forall_not_mem.mpr fun x hx => hc (h x hx ▸ hx))]

/-- There is no token where there are only separators. -/
theorem tokens_eq_nil_iff (l : List α) : tokens c l = [] ↔ ∀ x ∈ l, x = c := by
  induction l using tokenInduction (c := c) with
  | last l hc => exact tokens_eq_nil_iff_of_notMem hc
  | next t l hc ih =>
    rw [tokens_append_cons, List.append_eq_nil_iff, ih, tokens_eq_nil_iff_of_notMem hc,
      List.forall_mem_append, List.forall_mem_cons]
    exact and_congr_right' (iff_and_self.mpr fun _ => rfl)

/-! ## Joining -/

/-- Tokens, joined by separators, are the tokens of what that makes. -/
theorem tokens_intercalate {ts : List (List α)} (h : ∀ t ∈ ts, t ≠ [] ∧ c ∉ t) :
    tokens c ([c].intercalate ts) = ts := by
  induction ts with
  | nil => exact tokens_nil
  | cons t ts ih =>
    obtain ⟨hne, hc⟩ := h t List.mem_cons_self
    have hrest := ih fun s hs => h s (List.mem_cons_of_mem _ hs)
    cases ts with
    | nil => rw [List.intercalate_singleton, tokens_of_notMem hc, if_neg hne]
    | cons s ts =>
      rw [List.intercalate_cons_cons, List.append_assoc, List.singleton_append,
        tokens_token_cons hne hc, hrest]

/-- They take no more room than the list that they come from. -/
theorem length_intercalate_tokens_le (l : List α) :
    ([c].intercalate (tokens c l)).length ≤ l.length := by
  induction l using tokenInduction (c := c) with
  | last l hc =>
    rw [tokens_of_notMem hc]
    split
    · exact Nat.zero_le _
    · exact Nat.le_of_eq (congrArg List.length (List.intercalate_singleton ..))
  | next t l hc ih =>
    rw [List.length_append, List.length_cons]
    by_cases hnil : t = []
    · rw [hnil, List.nil_append, tokens_cons_self]
      omega
    · rw [tokens_token_cons hnil hc]
      cases hrest : tokens c l with
      | nil =>
        rw [List.intercalate_singleton]
        omega
      | cons s ts =>
        rw [hrest] at ih
        rw [List.intercalate_cons_cons, List.length_append, List.length_append,
          List.length_singleton]
        omega

end Tokens

/-! ## Maximal runs -/

/-- The elements from `start` on are `length` others than the separator, at least one, and
no more could be taken on either side. -/
structure MaximalRun (c : α) (l : List α) (start length : ℕ) : Prop where
  pos : 0 < length
  inside : start + length ≤ l.length
  other : ∀ k, k < length → l[start + k]? ≠ some c
  left : start = 0 ∨ l[start - 1]? = some c
  right : start + length = l.length ∨ l[start + length]? = some c

/-- These are all the maximal runs, from left to right. -/
structure Listed (c : α) (l : List α) (spans : List (ℕ × ℕ)) : Prop where
  sorted : spans.Pairwise fun x y => x.1 + x.2 < y.1
  mem : ∀ start length, (start, length) ∈ spans ↔ MaximalRun c l start length

/-- Without a separator, all is one run. -/
theorem maximalRun_of_notMem_iff {l : List α} (hc : c ∉ l) (start length : ℕ) :
    MaximalRun c l start length ↔ l ≠ [] ∧ start = 0 ∧ length = l.length := by
  have hnone : ∀ i, l[i]? ≠ some c := fun i hi => hc (List.mem_of_getElem? hi)
  constructor
  · intro h
    have hpos := h.pos
    have hinside := h.inside
    have hleft := h.left.resolve_right (hnone _)
    have hright := h.right.resolve_right (hnone _)
    exact ⟨List.ne_nil_of_length_pos (by omega), hleft, by omega⟩
  · rintro ⟨hne, rfl, rfl⟩
    have hlen := List.length_pos_iff.mpr hne
    exact ⟨hlen, by omega, fun k _ => hnone _, .inl rfl, .inl (by omega)⟩

/-- With a separator, the first run is what stands before it, unless that is empty, and the
others are those of what stands behind. -/
theorem maximalRun_append_cons_iff {t : List α} (hc : c ∉ t) (l : List α) (start length : ℕ) :
    MaximalRun c (t ++ c :: l) start length ↔
      (t ≠ [] ∧ start = 0 ∧ length = t.length) ∨
        ∃ s, start = s + (t.length + 1) ∧ MaximalRun c l s length := by
  have hbefore : ∀ i, i < t.length → (t ++ c :: l)[i]? ≠ some c := fun i hi h => by
    rw [List.getElem?_append_left hi] at h
    exact hc (List.mem_of_getElem? h)
  have hat : (t ++ c :: l)[t.length]? = some c := by
    rw [List.getElem?_append_right (Nat.le_refl _), Nat.sub_self, List.getElem?_cons_zero]
  have hbehind : ∀ i, (t ++ c :: l)[i + (t.length + 1)]? = l[i]? := fun i => by
    rw [List.getElem?_append_right (by omega), show i + (t.length + 1) - t.length = i + 1 by omega,
      List.getElem?_cons_succ]
  have hlen : (t ++ c :: l).length = l.length + (t.length + 1) := by
    rw [List.length_append, List.length_cons]
    omega
  constructor
  · intro h
    have hpos := h.pos
    have hinside := h.inside
    rcases Nat.lt_or_ge t.length start with hstart | hstart
    · obtain ⟨s, rfl⟩ := Nat.exists_eq_add_of_le' (Nat.succ_le_of_lt hstart)
      refine .inr ⟨s, rfl, hpos, by omega, fun k hk => ?_, ?_, ?_⟩
      · have hother := h.other k hk
        rwa [Nat.add_right_comm, hbehind] at hother
      · rcases Nat.eq_zero_or_pos s with hzero | hs
        · exact .inl hzero
        · have hleft := h.left.resolve_left (by omega)
          rw [show s + (t.length + 1) - 1 = s - 1 + (t.length + 1) by omega, hbehind] at hleft
          exact .inr hleft
      · refine h.right.imp (fun h => by omega) fun hright => ?_
        rwa [Nat.add_right_comm, hbehind] at hright
    · -- the separator is not in the run, so the run is before it
      have hend : start + length ≤ t.length := by
        by_contra hlt
        refine h.other (t.length - start) (by omega) ?_
        rw [Nat.add_sub_cancel' hstart, hat]
      have hleft : start = 0 := h.left.resolve_right (hbefore _ (by omega))
      have hright : start + length = t.length := by
        by_contra hne
        exact hbefore _ (by omega) (h.right.resolve_left (by omega))
      exact .inl ⟨List.ne_nil_of_length_pos (by omega), hleft, by omega⟩
  · rintro (⟨hne, rfl, rfl⟩ | ⟨s, rfl, h⟩)
    · refine ⟨List.length_pos_iff.mpr hne, by omega, fun k hk => ?_, .inl rfl, .inr ?_⟩
      · rw [Nat.zero_add]
        exact hbefore k hk
      · rw [Nat.zero_add, hat]
    · have hinside := h.inside
      refine ⟨h.pos, by omega, fun k hk => ?_, ?_, ?_⟩
      · rw [Nat.add_right_comm, hbehind]
        exact h.other k hk
      · rcases Nat.eq_zero_or_pos s with rfl | hs
        · rw [Nat.zero_add, Nat.add_sub_cancel, hat]
          exact .inr rfl
        · rw [show s + (t.length + 1) - 1 = s - 1 + (t.length + 1) by omega, hbehind]
          exact .inr (h.left.resolve_left (by omega))
      · refine h.right.imp (fun h => by omega) fun hright => ?_
        rw [Nat.add_right_comm, hbehind]
        exact hright

/-- **The tokens are the maximal runs**, in order. -/
theorem tokens_listed [DecidableEq α] (l : List α) :
    ∃ spans, Listed c l spans ∧ tokens c l = spans.map fun x => (l.drop x.1).take x.2 := by
  induction l using tokenInduction (c := c) with
  | last l hc =>
    rw [tokens_of_notMem hc]
    by_cases hnil : l = []
    · refine ⟨[], ⟨.nil, fun start length => ?_⟩, by rw [if_pos hnil]; rfl⟩
      rw [maximalRun_of_notMem_iff hc]
      exact iff_of_false List.not_mem_nil fun h => h.1 hnil
    · refine ⟨[(0, l.length)], ⟨List.pairwise_singleton _ _, fun start length => ?_⟩, ?_⟩
      · rw [maximalRun_of_notMem_iff hc, List.mem_singleton, Prod.mk.injEq]
        exact ⟨fun h => ⟨hnil, h⟩, fun h => h.2⟩
      · rw [if_neg hnil, List.map_singleton, List.drop_zero, List.take_length]
  | next t l hc ih =>
    obtain ⟨spans, hlisted, htokens⟩ := ih
    have hmem : ∀ start length,
        (start, length) ∈ spans.map (fun x => (x.1 + (t.length + 1), x.2)) ↔
          ∃ s, start = s + (t.length + 1) ∧ MaximalRun c l s length := fun start length => by
      rw [List.mem_map]
      constructor
      · rintro ⟨⟨s, n⟩, hs, heq⟩
        obtain ⟨rfl, rfl⟩ := Prod.mk.inj heq
        exact ⟨s, rfl, (hlisted.mem s n).mp hs⟩
      · rintro ⟨s, rfl, hrun⟩
        exact ⟨(s, length), (hlisted.mem s length).mpr hrun, rfl⟩
    have hsorted : (spans.map fun x => (x.1 + (t.length + 1), x.2)).Pairwise
        fun x y => x.1 + x.2 < y.1 :=
      List.pairwise_map.mpr (hlisted.sorted.imp fun h => by omega)
    have htexts : tokens c l = (spans.map fun x => (x.1 + (t.length + 1), x.2)).map
        fun x => ((t ++ c :: l).drop x.1).take x.2 := by
      rw [htokens, List.map_map]
      refine List.map_congr_left fun x _ => ?_
      show _ = ((t ++ c :: l).drop (x.1 + (t.length + 1))).take x.2
      rw [show x.1 + (t.length + 1) = t.length + (x.1 + 1) by omega, List.drop_length_add_append,
        List.drop_succ_cons]
    by_cases hnil : t = []
    · refine ⟨_, ⟨hsorted, fun start length => ?_⟩, ?_⟩
      · rw [hmem, maximalRun_append_cons_iff hc]
        exact ⟨.inr, fun h => h.resolve_left fun h => h.1 hnil⟩
      · rw [← htexts, hnil, List.nil_append, tokens_cons_self]
    · refine ⟨(0, t.length) :: _, ⟨List.pairwise_cons.mpr ⟨?_, hsorted⟩, fun start length => ?_⟩,
        ?_⟩
      · rintro ⟨start, length⟩ h
        obtain ⟨s, rfl, _⟩ := (hmem start length).mp h
        omega
      · rw [List.mem_cons, hmem, maximalRun_append_cons_iff hc, Prod.mk.injEq]
        exact or_congr_left ⟨fun h => ⟨hnil, h⟩, fun h => h.2⟩
      · rw [List.map_cons, ← htexts, tokens_token_cons hnil hc, List.drop_zero, List.take_left]

end Tokens
end BsitLabs
