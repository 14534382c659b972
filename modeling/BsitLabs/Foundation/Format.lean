import BsitLabs.Foundation.CText
import BsitLabs.Foundation.Decimal

/-!
# Formats, and reading back what has been printed

A format is a row of literal texts and numbers.  `Prints` relates a format and numbers to the texts
that say so, with any digits that come to the numbers, and `read` goes through a text by the format.

A number that is followed by another number runs into it.  Where every number is followed by a
character that is no digit, or by the end (`separated`), reading gives the numbers back:
`read_of_prints`.  The digits may be those of `decimal` or be put together of several such rows:
`numberOf_decimal`, `numberOf_append`.
-/

namespace BsitLabs
namespace Format

open Decimal

/-! ## Formats -/

/-- A piece of a format. -/
inductive Item where
  | text (bytes : List UInt8)
  | number
  deriving DecidableEq

/-- A text that says these numbers in this format. -/
inductive Prints : List Item → List ℕ → List UInt8 → Prop where
  | nil : Prints [] [] []
  | text {f : List Item} {ns : List ℕ} {l : List UInt8} (t : List UInt8) (h : Prints f ns l) :
      Prints (.text t :: f) ns (t ++ l)
  | number {f : List Item} {ns : List ℕ} {l row : List UInt8} (hne : row ≠ [])
      (hrow : ∀ c ∈ row, isDigit c = true) (h : Prints f ns l) :
      Prints (.number :: f) (numberOf row :: ns) (row ++ l)

/-- The numbers that a text says. -/
def read : List Item → List UInt8 → Option (List ℕ)
  | [], l => if l = [] then some [] else none
  | .text t :: f, l => if l.take t.length = t then read f (l.drop t.length) else none
  | .number :: f, l =>
    if l.takeWhile isDigit = [] then none
    else (read f (l.dropWhile isDigit)).map (numberOf (l.takeWhile isDigit) :: ·)

/-- The format does not begin with what may be a digit. -/
def noDigit : List Item → Bool
  | [] => true
  | .text (c :: _) :: _ => !isDigit c
  | _ => false

/-- No number is followed by a digit. -/
def separated : List Item → Bool
  | [] => true
  | .text _ :: f => separated f
  | .number :: f => noDigit f && separated f

/-- What is printed in such a format begins with no digit. -/
theorem Prints.head_of_noDigit {f : List Item} {ns : List ℕ} {l : List UInt8} (h : Prints f ns l)
    (hf : noDigit f = true) : ∀ c ∈ l.head?, isDigit c = false := by
  cases h with
  | nil => simp
  | number => cases hf
  | text t h =>
    cases t with
    | nil => cases hf
    | cons d t =>
      intro c hc
      obtain rfl := Option.some.inj hc
      simpa [noDigit] using hf

/-- A row of digits in front of what begins with none. -/
theorem span_row {row l : List UInt8} (hrow : ∀ c ∈ row, isDigit c = true)
    (hl : ∀ c ∈ l.head?, isDigit c = false) :
    (row ++ l).takeWhile isDigit = row ∧ (row ++ l).dropWhile isDigit = l := by
  rw [List.takeWhile_append_of_pos hrow, List.dropWhile_append_of_pos hrow]
  cases l with
  | nil => exact ⟨List.append_nil row, rfl⟩
  | cons c l =>
    have hc : ¬ isDigit c = true := by simp [hl c rfl]
    rw [List.takeWhile_cons_of_neg hc, List.dropWhile_cons_of_neg hc]
    exact ⟨List.append_nil row, rfl⟩

/-- **Reading gives back what has been printed.** -/
theorem read_of_prints {f : List Item} {ns : List ℕ} {l : List UInt8} (hf : separated f = true)
    (h : Prints f ns l) : read f l = some ns := by
  induction h with
  | nil => rfl
  | text t h ih => rw [read, List.take_left, if_pos rfl, List.drop_left, ih hf]
  | @number f ns l row hne hrow h ih =>
    obtain ⟨hnext, hrest⟩ := Bool.and_eq_true_iff.mp hf
    obtain ⟨htake, hdrop⟩ := span_row hrow (h.head_of_noDigit hnext)
    rw [read, htake, if_neg hne, hdrop, ih hrest]
    rfl

/-- The first number of a text is the row of digits in front. -/
theorem head_of_read {f : List Item} {ns : List ℕ} {n : ℕ} {l : List UInt8}
    (h : read (.number :: f) l = some (n :: ns)) : n = numberOf (l.takeWhile isDigit) := by
  rw [read] at h
  split at h
  · cases h
  · obtain ⟨rest, _, heq⟩ := Option.map_eq_some_iff.mp h
    exact (List.cons.inj heq).1.symm

/-! ## Rows of digits -/

/-- One row behind another. -/
theorem numberOf_append (a b : List UInt8) :
    numberOf (a ++ b) = numberOf a * 10 ^ b.length + numberOf b := by
  induction b using List.reverseRecOn with
  | nil => simp [numberOf]
  | append_singleton b c ih =>
    rw [← List.append_assoc, numberOf_concat, numberOf_concat, ih, List.length_append,
      List.length_singleton, pow_succ]
    ring

theorem toNat_digitByte {d : ℕ} (h : d < 10) : (CText.digitByte d).toNat = 48 + d := by
  rw [CText.digitByte, if_pos h, UInt8.toNat_ofNat', Nat.mod_eq_of_lt (by omega)]

/-- Digits, the lowest first, turned round. -/
theorem numberOf_reverse_digits {ds : List ℕ} (h : ∀ d ∈ ds, d < 10) :
    numberOf (ds.map CText.digitByte).reverse = Nat.ofDigits 10 ds := by
  induction ds with
  | nil => rfl
  | cons d ds ih =>
    obtain ⟨hd, hds⟩ := List.forall_mem_cons.mp h
    rw [List.map_cons, List.reverse_cons, numberOf_concat, ih hds, toNat_digitByte hd,
      Nat.ofDigits_cons, Nat.add_sub_cancel_left, Nat.add_comm]

/-- The digits of a number come to it. -/
theorem numberOf_decimal (n : ℕ) : numberOf (CText.decimal n).bytes = n := by
  show numberOf (if n = 0 then [CText.digitByte 0] else
    ((Nat.digits 10 n).map CText.digitByte).reverse) = n
  by_cases hn : n = 0
  · rw [if_pos hn, hn]
    rfl
  · rw [if_neg hn, numberOf_reverse_digits fun d => Nat.digits_lt_base (by decide),
      Nat.ofDigits_digits]

theorem isDigit_decimal (n : ℕ) : ∀ c ∈ (CText.decimal n).bytes, isDigit c = true := by
  have hdigit : ∀ d, d < 10 → isDigit (CText.digitByte d) = true := fun d hd => by
    rw [isDigit_iff, toNat_digitByte hd]
    omega
  intro c hc
  change c ∈ (if n = 0 then [CText.digitByte 0] else
    ((Nat.digits 10 n).map CText.digitByte).reverse) at hc
  split at hc
  · rw [List.mem_singleton.mp hc]
    exact hdigit 0 (by decide)
  · rw [List.mem_reverse, List.mem_map] at hc
    obtain ⟨d, hd, rfl⟩ := hc
    exact hdigit d (Nat.digits_lt_base (by decide) hd)

theorem decimal_ne_nil (n : ℕ) : (CText.decimal n).bytes ≠ [] := by
  rw [← List.length_pos_iff]
  have hlen : (CText.decimal n).bytes.length = _ := CText.length_decimal n
  omega

/-- A digit behind a number. -/
theorem numberOf_append_decimal (a : List UInt8) {d : ℕ} (hd : d < 10) :
    numberOf (a ++ (CText.decimal d).bytes) = 10 * numberOf a + d := by
  have hlen : (CText.decimal d).bytes.length = _ := CText.length_decimal d
  rw [numberOf_append, numberOf_decimal, hlen, Nat.log_of_lt hd, Nat.zero_add, pow_one,
    Nat.mul_comm]

end Format
end BsitLabs
