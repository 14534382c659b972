import BsitLabs.CommandLine.Split
import Mathlib.Data.List.TakeWhile

/-!
# The standard input of a client

`std::cin` is what is left of a text, and whether its end has been met.  `>>` takes a word and
leaves what stands behind it; `getline` takes a line with its end, and at the end of the text
leaves its string as it is.

What a loop of `getline`s makes of a text is `Stream.pending`: the lines of the text, of which
the last stays for ever (`Stream.pending_getline`).
-/

namespace BsitLabs
namespace CommandLine

variable {w : ℕ}

/-- No line of the text is longer than a string may be. -/
def LinesFit (w : ℕ) (text : List UInt8) : Prop :=
  ∀ line, line <:+: text → 10 ∉ line → line.length < npos w

theorem LinesFit.of_infix {text part : List UInt8} (h : LinesFit w text) (hpart : part <:+: text) :
    LinesFit w part := fun line hline => h line (hline.trans hpart)

/-- A text that is itself not too long. -/
theorem LinesFit.of_length {text : List UInt8} (h : text.length < npos w) : LinesFit w text :=
  fun _ hline _ => hline.length_le.trans_lt h

/-- `std::cin`. -/
structure Stream (w : ℕ) where
  /-- What has not been read. -/
  rest : List UInt8
  /-- The end of the input has not been met. -/
  good : Bool
  fit : LinesFit w rest

/-- `isspace`. -/
def isSpace (c : UInt8) : Bool := c = 32 || (9 ≤ c && c ≤ 13)

namespace Stream

/-- `getline(std::cin, line)`: a stream that is not good leaves the line as it was. -/
def getline (cin : Stream w) (line : StdString w) : Stream w × StdString w :=
  if cin.good then
    ({ rest := (cin.rest.dropWhile (· ≠ 10)).drop 1
       good := 10 ∈ cin.rest
       fit := cin.fit.of_infix
         ((List.drop_suffix _ _).trans (List.dropWhile_suffix _)).isInfix },
      ⟨cin.rest.takeWhile (· ≠ 10), cin.fit _ (List.takeWhile_prefix _).isInfix fun h => by
        simpa using List.mem_takeWhile_imp h⟩)
  else (cin, line)

/-- `std::cin >> word`: white space is skipped, and a word that ends with the input is the
last. -/
def extract (cin : Stream w) : Stream w × List UInt8 :=
  if cin.good then
    ({ rest := (cin.rest.dropWhile isSpace).dropWhile (!isSpace ·)
       good := (cin.rest.dropWhile isSpace).dropWhile (!isSpace ·) ≠ []
       fit := cin.fit.of_infix
         ((List.dropWhile_suffix _).trans (List.dropWhile_suffix _)).isInfix },
      (cin.rest.dropWhile isSpace).takeWhile (!isSpace ·))
  else (cin, [])

/-- What `main` leaves of the input: `ip_port`, `login` and `password` have been read. -/
def afterPassword (cin : Stream w) : Stream w := cin.extract.1.extract.1.extract.1

end Stream

/-! ## Line by line -/

/-- What is left of the lines when one has been read; the last stays. -/
def advance : List (List UInt8) → List (List UInt8)
  | _ :: line :: lines => line :: lines
  | lines => lines

theorem advance_suffix (lines : List (List UInt8)) : advance lines <:+ lines := by
  match lines with
  | [] => exact List.suffix_rfl
  | [_] => exact List.suffix_rfl
  | _ :: _ :: _ => exact List.suffix_cons _ _

theorem advance_ne_nil {lines : List (List UInt8)} (h : lines ≠ []) : advance lines ≠ [] := by
  match lines with
  | [] => exact absurd rfl h
  | [_] => exact h
  | _ :: _ :: _ => simp [advance]

namespace Stream

/-- What `getline` makes of its string from here on, where it holds `line` now. -/
def pending (cin : Stream w) (line : List UInt8) : List (List UInt8) :=
  if cin.good then cin.rest.splitOn 10 else [line]

/-- The lines behind that of the password. -/
def entered (cin : Stream w) : List (List UInt8) := (cin.rest.splitOn 10).tail

/-- The lines that the loop dispatches; the last of them again and again. -/
def seen (cin : Stream w) : List (List UInt8) := advance (cin.pending [])

/-- The first lines that the loop dispatches, as long as it goes on. -/
def dispatched (cin : Stream w) (count : ℕ) : List (List UInt8) :=
  (List.range count).map fun k => (advance^[k] cin.seen).headD []

variable (cin : Stream w) (line : StdString w)

/-- A line that ends. -/
theorem getline_of_newline {text rest : List UInt8} (hgood : cin.good = true)
    (hrest : cin.rest = text ++ 10 :: rest) (htext : 10 ∉ text) :
    (cin.getline line).2.chars = text ∧ (cin.getline line).1.good = true ∧
      (cin.getline line).1.rest = rest := by
  have hmem : ∀ c ∈ text, decide (c ≠ 10) = true := fun c hc =>
    decide_eq_true fun h => htext (h ▸ hc)
  rw [getline, if_pos hgood]
  refine ⟨?_, ?_, ?_⟩
  · show cin.rest.takeWhile (· ≠ 10) = text
    rw [hrest, List.takeWhile_append_of_pos hmem, List.takeWhile_cons_of_neg (by simp),
      List.append_nil]
  · show decide (10 ∈ cin.rest) = true
    rw [hrest]
    simp
  · show (cin.rest.dropWhile (· ≠ 10)).drop 1 = rest
    rw [hrest, List.dropWhile_append_of_pos hmem, List.dropWhile_cons_of_neg (by simp)]
    rfl

/-- What stands behind the last end of a line. -/
theorem getline_of_notMem (hgood : cin.good = true) (hrest : 10 ∉ cin.rest) :
    (cin.getline line).2.chars = cin.rest ∧ (cin.getline line).1.good = false := by
  rw [getline, if_pos hgood]
  refine ⟨List.takeWhile_eq_self_iff.mpr fun c hc => ?_, decide_eq_false hrest⟩
  exact decide_eq_true fun h => hrest (h ▸ hc)

/-- `getline` takes the first of the lines, and the last of them again and again. -/
theorem pending_getline :
    ∃ lines, cin.pending line.chars = (cin.getline line).2.chars :: lines ∧
      (cin.getline line).1.pending (cin.getline line).2.chars =
        advance (cin.pending line.chars) := by
  cases hgood : cin.good with
  | false =>
    have hkept : cin.getline line = (cin, line) := if_neg (by simp [hgood])
    have hpending : cin.pending line.chars = [line.chars] := if_neg (by simp [hgood])
    rw [hkept, hpending]
    exact ⟨[], rfl, rfl⟩
  | true =>
    have hpending : cin.pending line.chars = cin.rest.splitOn 10 := if_pos hgood
    rw [hpending]
    by_cases hmem : 10 ∈ cin.rest
    · obtain ⟨text, rest, hrest, htext⟩ := List.eq_append_cons_of_mem hmem
      obtain ⟨hline, hgood', hrest'⟩ := cin.getline_of_newline line hgood hrest htext
      have hsplit : cin.rest.splitOn 10 = text :: rest.splitOn 10 := by
        rw [hrest, List.splitOn_append_cons_of_beq _ _ (beq_self_eq_true _),
          List.splitOn_eq_singleton htext, List.singleton_append]
      rw [hsplit, hline, Stream.pending, if_pos hgood', hrest']
      refine ⟨_, rfl, ?_⟩
      cases h : rest.splitOn 10 with
      | nil => exact absurd h (List.splitOn_ne_nil _ _)
      | cons next lines => rfl
    · obtain ⟨hline, hgood'⟩ := cin.getline_of_notMem line hgood hmem
      rw [List.splitOn_eq_singleton hmem, hline, Stream.pending, if_neg (by simp [hgood'])]
      exact ⟨[], rfl, rfl⟩

/-- There is always a line, if only an empty one. -/
theorem pending_ne_nil (text : List UInt8) : cin.pending text ≠ [] := by
  unfold pending
  split
  · exact List.splitOn_ne_nil _ _
  · simp

/-- What is dispatched are lines that the loop sees. -/
theorem mem_seen_of_mem_dispatched {count : ℕ} {text : List UInt8}
    (h : text ∈ cin.dispatched count) : text ∈ cin.seen := by
  have hsome : ∀ k, advance^[k] cin.seen <:+ cin.seen ∧ advance^[k] cin.seen ≠ [] := by
    intro k
    induction k with
    | zero => exact ⟨List.suffix_rfl, advance_ne_nil (cin.pending_ne_nil [])⟩
    | succ k ih =>
      rw [Function.iterate_succ_apply']
      exact ⟨(advance_suffix _).trans ih.1, advance_ne_nil ih.2⟩
  obtain ⟨k, -, rfl⟩ := List.mem_map.mp h
  obtain ⟨hsuffix, hne⟩ := hsome k
  obtain ⟨first, rest, hlines⟩ := List.exists_cons_of_ne_nil hne
  rw [hlines] at hsuffix ⊢
  exact hsuffix.subset List.mem_cons_self

theorem dispatched_succ (count : ℕ) :
    cin.dispatched (count + 1) = cin.dispatched count ++ [(advance^[count] cin.seen).headD []] := by
  rw [dispatched, List.range_succ, List.map_append]
  rfl

end Stream

end CommandLine
end BsitLabs
