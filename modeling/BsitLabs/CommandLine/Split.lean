import BsitLabs.Foundation.Tokens
import Mathlib.Data.Nat.Basic
import Mathlib.Data.UInt

/-!
# The words of a command line

`Client::split`, which two of the clients have in the same words, walks a string with two
cursors: `i` skips the separators from `j` on, and `find` takes `j` to the next separator
behind `i`, or to `npos`, which is what `-1` is as a `size_t`.  Every loop reads only inside
the string and comes to an end, and the words are the tokens of the string (`split_correct`).

The invariant is that the words so far, and then the tokens of what stands from `j` on, are
the tokens of the string.
-/

namespace BsitLabs
namespace CommandLine

/-- `std::string::npos`, for a `size_t` of `w` bits. -/
def npos (w : ℕ) : ℕ := 2 ^ w - 1

/-- `std::string`: no position in it is `npos`, nor is its length. -/
@[ext]
structure StdString (w : ℕ) where
  chars : List UInt8
  length_lt : chars.length < npos w

variable {w : ℕ}

namespace StdString

variable (s : StdString w)

/-- `s.length()`. -/
def length : ℕ := s.chars.length

/-- `s.find(c, pos)`. -/
def find (c : UInt8) (pos : ℕ) : ℕ :=
  if c ∈ s.chars.drop pos then pos + (s.chars.drop pos).idxOf c else npos w

/-- `s.substr(pos, n)`, which throws if `pos` is behind the end. -/
def substr (pos n : ℕ) : Option (StdString w) :=
  if pos ≤ s.length then
    some ⟨(s.chars.drop pos).take n, by
      have hlt := s.length_lt
      rw [List.length_take, List.length_drop]
      omega⟩
  else none

end StdString

/-- Subtraction of `size_t`. -/
def sizeSub (w a b : ℕ) : ℕ := (a + (2 ^ w - b)) % 2 ^ w

/-- How a run may go wrong. -/
inductive Fault where
  /-- An index or a position outside of the string. -/
  | range
  /-- More iterations than it was given. -/
  | fuel
  deriving DecidableEq, Repr

/-- The value, if there is one. -/
def inRange {α : Type} : Option α → Except Fault α
  | some a => .ok a
  | none => .error .range

section Split

variable (s : StdString w) (c : UInt8)

/-- `while (i < s.length() && s[i] == c) i++;` -/
def skip : ℕ → ℕ → Except Fault ℕ
  | 0, _ => .error .fuel
  | fuel + 1, i =>
    if i < s.length then do
      let ch ← inRange s.chars[i]?
      if ch = c then skip fuel (i + 1) else return i
    else return i

/-- `while (j != -1) { ... }`, and `return res`. -/
def splitLoop : ℕ → ℕ → List (StdString w) → Except Fault (List (StdString w))
  | 0, _, _ => .error .fuel
  | fuel + 1, j, res =>
    if j ≠ npos w then do
      let i ← skip s c fuel j
      if i = s.length then
        return res
      else
        let j := s.find c i
        if j ≠ npos w then
          let word ← inRange (s.substr i (sizeSub w j i))
          splitLoop fuel j (res ++ [word])
        else
          let word ← inRange (s.substr i (sizeSub w s.length i))
          splitLoop fuel j (res ++ [word])
    else return res

/-- `Client::split`, with no more than this many iterations. -/
def split (fuel : ℕ) : Except Fault (List (StdString w)) := splitLoop s c fuel 0 []

end Split

example : (split (⟨[32, 97, 98, 32, 32, 99], by decide⟩ : StdString 32) 32 8).map
    (fun words => words.map StdString.chars) = .ok [[97, 98], [99]] := by decide

/-! ## The loops -/

open Tokens

theorem sizeSub_of_le {a b : ℕ} (hb : b ≤ a) (ha : a < npos w) : sizeSub w a b = a - b := by
  have hpos : 0 < 2 ^ w := Nat.two_pow_pos w
  unfold npos at ha
  rw [sizeSub, show a + (2 ^ w - b) = a - b + 2 ^ w by omega, Nat.add_mod_right,
    Nat.mod_eq_of_lt (by omega)]

variable (s : StdString w) (c : UInt8)

/-- The inner loop stops behind separators, at the end or before another character. -/
theorem skip_eq_ok {fuel j : ℕ} (hj : j ≤ s.length) (hfuel : s.length < fuel + j) :
    ∃ i, skip s c fuel j = .ok i ∧ j ≤ i ∧ i ≤ s.length ∧
      tokens c (s.chars.drop i) = tokens c (s.chars.drop j) ∧
      (i = s.length ∨ ∃ ch l, s.chars.drop i = ch :: l ∧ ch ≠ c) := by
  induction fuel generalizing j with
  | zero => omega
  | succ fuel ih =>
    rw [skip]
    by_cases hlt : j < s.length
    · have hdrop : s.chars.drop j = s.chars[j] :: s.chars.drop (j + 1) :=
        List.drop_eq_getElem_cons hlt
      rw [if_pos hlt, List.getElem?_eq_getElem hlt]
      by_cases hsep : s.chars[j] = c
      · obtain ⟨i, hskip, hle, hi, htokens, hstop⟩ := ih (j := j + 1) hlt (by omega)
        have hsame : tokens c (s.chars.drop j) = tokens c (s.chars.drop (j + 1)) := by
          rw [hdrop, hsep, tokens_cons_self]
        refine ⟨i, ?_, by omega, hi, htokens.trans hsame.symm, hstop⟩
        show (if s.chars[j] = c then skip s c fuel (j + 1) else .ok j) = _
        rw [if_pos hsep, hskip]
      · refine ⟨j, ?_, le_rfl, hj, rfl, .inr ⟨_, _, hdrop, hsep⟩⟩
        show (if s.chars[j] = c then skip s c fuel (j + 1) else .ok j) = _
        rw [if_neg hsep]
    · rw [if_neg hlt]
      exact ⟨j, rfl, le_rfl, hj, rfl, .inl (by omega)⟩

/-- From a character on, with no separator behind it, the rest is one word. -/
theorem last_word {i : ℕ} (hi : i < s.length) (hc : c ∉ s.chars.drop i) :
    s.find c i = npos w ∧
      ∃ word, s.substr i (sizeSub w s.length i) = some word ∧
        tokens c (s.chars.drop i) = [word.chars] := by
  have hsub : sizeSub w s.length i = s.length - i := sizeSub_of_le hi.le s.length_lt
  have hlen : (s.chars.drop i).length = s.length - i := List.length_drop
  have hne : s.chars.drop i ≠ [] := List.ne_nil_of_length_pos (by omega)
  refine ⟨if_neg hc, _, if_pos hi.le, ?_⟩
  show _ = [(s.chars.drop i).take (sizeSub w s.length i)]
  rw [hsub, List.take_of_length_le hlen.le, tokens_of_notMem hc, if_neg hne]

/-- From a character on, with a separator behind it, there is a word up to the next. -/
theorem next_word {i : ℕ} {ch : UInt8} {l : List UInt8} (hi : s.chars.drop i = ch :: l)
    (hch : ch ≠ c) (hc : c ∈ s.chars.drop i) :
    i < s.find c i ∧ s.find c i < s.length ∧
      ∃ word, s.substr i (sizeSub w (s.find c i) i) = some word ∧
        tokens c (s.chars.drop i) = word.chars :: tokens c (s.chars.drop (s.find c i)) := by
  obtain ⟨t, rest, heq, ht⟩ := List.eq_append_cons_of_mem hc
  have hne : t ≠ [] := by
    rintro rfl
    rw [heq, List.nil_append] at hi
    exact hch (List.cons.inj hi).1.symm
  have hpos := List.length_pos_iff.mpr hne
  have hlen := congrArg List.length heq
  rw [List.length_drop, List.length_append, List.length_cons] at hlen
  have hlength : s.chars.length = s.length := rfl
  have hlt := s.length_lt
  have hfind : s.find c i = i + t.length := by
    rw [StdString.find, if_pos hc, heq, List.idxOf_append_of_notMem ht, List.idxOf_cons_self]
    rfl
  have hsub : sizeSub w (s.find c i) i = t.length := by
    rw [sizeSub_of_le (by omega) (by omega), hfind, Nat.add_sub_cancel_left]
  have hdrop : s.chars.drop (s.find c i) = c :: rest := by
    rw [hfind, ← List.drop_drop, heq, List.drop_left]
  refine ⟨by omega, by omega, _, if_pos (by omega), ?_⟩
  show _ = (s.chars.drop i).take (sizeSub w (s.find c i) i) :: _
  rw [hdrop, hsub, heq, List.take_left, tokens_token_cons hne ht, tokens_cons_self]

/-- The outer loop appends the tokens of what stands from the cursor on. -/
theorem splitLoop_eq_ok {fuel j : ℕ} (res : List (StdString w)) (hj : j ≤ s.length)
    (hfuel : s.length + 2 ≤ fuel + j) :
    ∃ words, splitLoop s c fuel j res = .ok (res ++ words) ∧
      words.map StdString.chars = tokens c (s.chars.drop j) := by
  induction fuel generalizing j res with
  | zero => omega
  | succ fuel ih =>
    have hlt := s.length_lt
    have hlength : s.chars.length = s.length := rfl
    obtain ⟨i, hskip, hle, hi, htokens, hstop⟩ :=
      skip_eq_ok s c hj (show s.length < fuel + j by omega)
    rw [splitLoop, if_pos (by omega), hskip, ← htokens]
    rcases hstop with rfl | ⟨ch, l, hdrop, hch⟩
    · refine ⟨[], ?_, ?_⟩
      · show (if s.length = s.length then Except.ok res else _) = _
        rw [if_pos rfl, List.append_nil]
      · rw [← hlength, List.drop_length, tokens_nil]
        rfl
    · have hilt : i < s.length := by
        have hpos := congrArg List.length hdrop
        rw [List.length_drop, List.length_cons] at hpos
        omega
      by_cases hc : c ∈ s.chars.drop i
      · obtain ⟨hnext, hend, word, hword, hwords⟩ := next_word s c hdrop hch hc
        obtain ⟨words, hloop, hrest⟩ := ih (res ++ [word]) hend.le (by omega)
        refine ⟨word :: words, ?_, by rw [List.map_cons, hrest, hwords]⟩
        have hfound : s.find c i ≠ npos w := by omega
        simp only [bind, Except.bind, if_neg hilt.ne, if_pos hfound, hword, inRange, hloop,
          List.append_assoc, List.singleton_append]
      · obtain ⟨hnpos, word, hword, hwords⟩ := last_word s c hilt hc
        refine ⟨[word], ?_, hwords.symm⟩
        obtain ⟨fuel, rfl⟩ : ∃ m, fuel = m + 1 := Nat.exists_eq_succ_of_ne_zero (by omega)
        simp only [bind, Except.bind, if_neg hilt.ne, hnpos, ne_eq, not_true_eq_false, if_false,
          hword, inRange, splitLoop, pure, Except.pure]

/-! ## The words -/

/-- `split` returns these words: it comes to an end, and no access is out of range. -/
def Returns (words : List (StdString w)) : Prop :=
  ∀ fuel, s.length + 2 ≤ fuel → split s c fuel = .ok words

theorem exists_returns :
    ∃ words, Returns s c words ∧ words.map StdString.chars = tokens c s.chars := by
  obtain ⟨words, _, htokens⟩ := splitLoop_eq_ok s c [] (Nat.zero_le _)
    (show s.length + 2 ≤ s.length + 2 + 0 from le_rfl)
  refine ⟨words, fun fuel hfuel => ?_, htokens⟩
  obtain ⟨words', hloop, htokens'⟩ := splitLoop_eq_ok s c [] (Nat.zero_le _)
    (show s.length + 2 ≤ fuel + 0 from hfuel)
  have hsame : words' = words :=
    List.map_injective_iff.mpr (fun _ _ => StdString.ext) (htokens'.trans htokens.symm)
  rw [split, hloop, hsame, List.nil_append]

/-- **What `split` returns**: the maximal runs of other characters, in order, none of them
empty or with a separator in it; and of these words, joined by one separator each, the same
words. -/
theorem split_correct :
    ∃ words, Returns s c words ∧
      (∃ spans, Listed c s.chars spans ∧
        words.map StdString.chars = spans.map fun x => (s.chars.drop x.1).take x.2) ∧
      (∀ word ∈ words, word.chars ≠ [] ∧ c ∉ word.chars) ∧
      ∃ joined : StdString w, joined.chars = [c].intercalate (words.map StdString.chars) ∧
        Returns joined c words := by
  obtain ⟨words, hreturns, htokens⟩ := exists_returns s c
  obtain ⟨spans, hlisted, hspans⟩ := tokens_listed (c := c) s.chars
  have hword : ∀ t ∈ words.map StdString.chars, t ≠ [] ∧ c ∉ t := fun t ht =>
    of_mem_tokens (htokens ▸ ht)
  have hroom : ([c].intercalate (words.map StdString.chars)).length < npos w := by
    rw [htokens]
    exact (length_intercalate_tokens_le s.chars).trans_lt s.length_lt
  obtain ⟨again, hagain, htokens'⟩ := exists_returns (⟨_, hroom⟩ : StdString w) c
  have hsame : again = words := by
    refine List.map_injective_iff.mpr (fun _ _ => StdString.ext) (htokens'.trans ?_)
    exact tokens_intercalate hword
  exact ⟨words, hreturns, ⟨spans, hlisted, htokens.trans hspans⟩,
    fun word h => hword _ (List.mem_map_of_mem h), ⟨_, hroom⟩, rfl, hsame ▸ hagain⟩

end CommandLine
end BsitLabs
