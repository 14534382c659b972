import Mathlib.Algebra.Order.Floor.Semifield
import Mathlib.Data.Int.Log
import Mathlib.Data.List.DropRight
import Mathlib.Data.Rat.Floor
import Mathlib.Data.UInt
import Mathlib.Tactic.FieldSimp
import Mathlib.Tactic.Linarith
import Mathlib.Tactic.Positivity
import Mathlib.Tactic.Ring

/-!
# Decimal texts

Rows of digits and the numbers that they are, and what `gcvt` makes of a rational number: its
decimal rendering to so many significant digits, without trailing zeros, in positional notation
or, if the number is very large or small, with an exponent.

* `fixedDigits` --- the last digits of a number; `fixedDigits_add` takes them apart, and
  `numberOf_fixedDigits` is the number again;
* `strip` --- what is left of a row without its trailing zeros;
* `scientific` --- a number rounded to so many significant digits: `mantissa_mem` and
  `abs_value_sub_le`;
* `gcvt` --- the text;
* `IsNumber` --- a text in positional notation, with its whole part.
-/

namespace BsitLabs
namespace Decimal

/-! ## Rows of digits -/

/-- `isdigit`. -/
def isDigit (c : UInt8) : Bool := 48 ≤ c && c ≤ 57

/-- The number that a row of digits is. -/
def numberOf (digits : List UInt8) : ℕ := digits.foldl (fun n c => 10 * n + (c.toNat - 48)) 0

theorem isDigit_iff (c : UInt8) : isDigit c = true ↔ 48 ≤ c.toNat ∧ c.toNat ≤ 57 := by
  rw [isDigit, Bool.and_eq_true, decide_eq_true_iff, decide_eq_true_iff, UInt8.le_iff_toNat_le,
    UInt8.le_iff_toNat_le]
  rfl

theorem numberOf_concat (l : List UInt8) (c : UInt8) :
    numberOf (l ++ [c]) = 10 * numberOf l + (c.toNat - 48) := by
  rw [numberOf, List.foldl_append]
  rfl

/-- A row of digits is a number with no more digits. -/
theorem numberOf_lt {l : List UInt8} (h : ∀ c ∈ l, isDigit c = true) :
    numberOf l < 10 ^ l.length := by
  induction l using List.reverseRecOn with
  | nil => exact Nat.one_pos
  | append_singleton l c ih =>
    have hl := ih fun d hd => h d (List.mem_append_left _ hd)
    have hc := (isDigit_iff c).mp (h c (List.mem_append_right _ (List.mem_singleton.mpr rfl)))
    rw [numberOf_concat, List.length_append, List.length_singleton, pow_succ]
    omega

/-- The last `n` digits of a number. -/
def fixedDigits : ℕ → ℕ → List UInt8
  | 0, _ => []
  | n + 1, m => fixedDigits n (m / 10) ++ [UInt8.ofNat (48 + m % 10)]

theorem toNat_digit (m : ℕ) : (UInt8.ofNat (48 + m % 10)).toNat = 48 + m % 10 := by
  rw [UInt8.toNat_ofNat', Nat.mod_eq_of_lt (by omega)]

@[simp] theorem length_fixedDigits (n m : ℕ) : (fixedDigits n m).length = n := by
  induction n generalizing m with
  | zero => rfl
  | succ n ih => rw [fixedDigits, List.length_append, ih, List.length_singleton]

theorem isDigit_of_mem_fixedDigits {n m : ℕ} {c : UInt8} (h : c ∈ fixedDigits n m) :
    isDigit c = true := by
  induction n generalizing m with
  | zero => exact absurd h List.not_mem_nil
  | succ n ih =>
    rcases List.mem_append.mp h with h | h
    · exact ih h
    · rw [List.mem_singleton.mp h, isDigit_iff, toNat_digit]
      omega

/-- The digits are those of the number, as far as they go. -/
theorem numberOf_fixedDigits (n m : ℕ) : numberOf (fixedDigits n m) = m % 10 ^ n := by
  induction n generalizing m with
  | zero => rw [pow_zero, Nat.mod_one]; rfl
  | succ n ih =>
    rw [fixedDigits, numberOf_concat, ih, toNat_digit, pow_succ', Nat.mod_mul]
    omega

/-- The first digits, and the others. -/
theorem fixedDigits_add (a b m : ℕ) :
    fixedDigits (a + b) m = fixedDigits a (m / 10 ^ b) ++ fixedDigits b m := by
  induction b generalizing m with
  | zero => rw [pow_zero, Nat.div_one, fixedDigits, List.append_nil]; rfl
  | succ b ih =>
    rw [← Nat.add_assoc, fixedDigits, ih, fixedDigits, List.append_assoc, Nat.div_div_eq_div_mul,
      pow_succ']

theorem take_fixedDigits {a n : ℕ} (h : a ≤ n) (m : ℕ) :
    (fixedDigits n m).take a = fixedDigits a (m / 10 ^ (n - a)) := by
  obtain ⟨b, rfl⟩ := Nat.exists_eq_add_of_le h
  rw [Nat.add_sub_cancel_left, fixedDigits_add, List.take_left' (length_fixedDigits _ _)]

theorem drop_fixedDigits {a n : ℕ} (h : a ≤ n) (m : ℕ) :
    (fixedDigits n m).drop a = fixedDigits (n - a) m := by
  obtain ⟨b, rfl⟩ := Nat.exists_eq_add_of_le h
  rw [Nat.add_sub_cancel_left, fixedDigits_add, List.drop_left' (length_fixedDigits _ _)]

/-- The number that the first digits are. -/
theorem numberOf_take_fixedDigits {a n m : ℕ} (h : a ≤ n) (hm : m < 10 ^ n) :
    numberOf ((fixedDigits n m).take a) = m / 10 ^ (n - a) := by
  rw [take_fixedDigits h, numberOf_fixedDigits, Nat.mod_eq_of_lt]
  rwa [Nat.div_lt_iff_lt_mul (Nat.pow_pos (by decide)), ← pow_add, Nat.add_sub_of_le h]

/-- Not all the digits are zeros. -/
theorem exists_fixedDigits_ne_iff (n m : ℕ) :
    (∃ c ∈ fixedDigits n m, c ≠ 48) ↔ m % 10 ^ n ≠ 0 := by
  induction n generalizing m with
  | zero =>
    rw [pow_zero, Nat.mod_one]
    exact iff_of_false (fun ⟨_, h, _⟩ => absurd h List.not_mem_nil) fun h => h rfl
  | succ n ih =>
    have hlast : UInt8.ofNat (48 + m % 10) ≠ 48 ↔ m % 10 ≠ 0 := by
      rw [ne_eq, ← UInt8.toNat_inj, toNat_digit]
      exact not_congr (show 48 + m % 10 = 48 ↔ _ by omega)
    simp only [fixedDigits, List.mem_append, List.mem_singleton, or_and_right, exists_or, ih,
      exists_eq_left, hlast]
    rw [pow_succ', Nat.mod_mul]
    omega

/-- A row of digits without its trailing zeros. -/
def strip (l : List UInt8) : List UInt8 := l.rdropWhile (· = 48)

/-- More than so many digits are left if there is another one than zero behind them. -/
theorem lt_length_strip_iff (l : List UInt8) (k : ℕ) :
    k < (strip l).length ↔ ∃ c ∈ l.drop k, c ≠ 48 := by
  induction l using List.reverseRecOn with
  | nil => simp [strip]
  | append_singleton l c ih =>
    by_cases hc : c = 48
    · rw [strip, List.rdropWhile_concat, if_pos (by simpa using hc), ← strip, ih]
      rcases Nat.lt_or_ge l.length k with hk | hk
      · rw [List.drop_eq_nil_of_le hk.le,
          List.drop_eq_nil_of_le (by rw [List.length_append, List.length_singleton]; exact hk)]
      · simp only [List.drop_append_of_le_length hk, List.mem_append, List.mem_singleton,
          or_and_right, exists_or, exists_eq_left, ne_eq, hc, not_true_eq_false, or_false]
    · rw [strip, List.rdropWhile_concat, if_neg (by simpa using hc), List.length_append,
        List.length_singleton]
      rcases Nat.lt_or_ge l.length k with hk | hk
      · rw [List.drop_eq_nil_of_le (by rw [List.length_append, List.length_singleton]; exact hk)]
        exact iff_of_false (by omega) fun ⟨_, h, _⟩ => absurd h List.not_mem_nil
      · refine iff_of_true (by omega) ⟨c, ?_, hc⟩
        rw [List.drop_append_of_le_length hk]
        exact List.mem_append_right _ (List.mem_singleton.mpr rfl)

theorem mem_of_mem_strip {l : List UInt8} {c : UInt8} (h : c ∈ strip l) : c ∈ l :=
  (List.rdropWhile_prefix _ l).subset h

theorem length_strip_le (l : List UInt8) : (strip l).length ≤ l.length :=
  (List.rdropWhile_prefix _ l).length_le

/-! ## Rounding -/

/-- A number of so many significant digits: a mantissa of that length, whose first digit
stands for this power of ten. -/
structure Scientific where
  mantissa : ℕ
  exponent : ℤ
  deriving DecidableEq, Repr

/-- The number. -/
def Scientific.value (digits : ℕ) (s : Scientific) : ℚ :=
  s.mantissa * 10 ^ (s.exponent + 1 - digits)

/-- A positive number, rounded to so many digits; from the middle on, up. -/
def scientific (digits : ℕ) (q : ℚ) : Scientific :=
  let exponent := Int.log 10 q
  let mantissa := ⌊q * 10 ^ (digits - 1 - exponent : ℤ) + 1 / 2⌋₊
  if mantissa = 10 ^ digits then ⟨10 ^ (digits - 1), exponent + 1⟩ else ⟨mantissa, exponent⟩

theorem scientific_zero (digits : ℕ) : scientific digits 0 = ⟨0, 0⟩ := by
  have hfloor : ⌊(0 : ℚ) * 10 ^ (digits - 1 - Int.log 10 (0 : ℚ) : ℤ) + 1 / 2⌋₊ = 0 :=
    Nat.floor_eq_zero.mpr (by norm_num)
  unfold scientific
  dsimp only
  rw [hfloor, if_neg (Nat.pow_pos (by decide)).ne, Int.log_zero_right]

section Rounding

variable {digits : ℕ} (hdigits : 0 < digits) {q : ℚ} (hq : 0 < q)

theorem ten_zpow_pos (k : ℤ) : (0 : ℚ) < 10 ^ k := zpow_pos (by norm_num) k

include hdigits

/-- The rounded number is a whole number of units, with or without a carry. -/
theorem value_scientific : (scientific digits q).value digits =
    ⌊q * 10 ^ (digits - 1 - Int.log 10 q : ℤ) + 1 / 2⌋₊ * 10 ^ (Int.log 10 q + 1 - digits) := by
  unfold scientific
  dsimp only
  split
  · rename_i hcarry
    rw [hcarry, Scientific.value]
    push_cast
    rw [← zpow_natCast, ← zpow_natCast, ← zpow_add₀ (by norm_num), ← zpow_add₀ (by norm_num)]
    congr 1
    omega
  · rfl

include hq

/-- The scaled number has as many digits before the point. -/
theorem scaled_mem : (10 : ℚ) ^ (digits - 1) ≤ q * 10 ^ (digits - 1 - Int.log 10 q : ℤ) ∧
    q * 10 ^ (digits - 1 - Int.log 10 q : ℤ) < 10 ^ digits := by
  have hle := Int.zpow_log_le_self (b := 10) (by decide) hq
  have hlt := Int.lt_zpow_succ_log_self (b := 10) (by decide) q
  have hpos := ten_zpow_pos (digits - 1 - Int.log 10 q : ℤ)
  push_cast at hle hlt
  constructor
  · calc (10 : ℚ) ^ (digits - 1) = 10 ^ Int.log 10 q * 10 ^ (digits - 1 - Int.log 10 q : ℤ) := by
          rw [← zpow_add₀ (by norm_num), ← zpow_natCast]
          congr 1
          omega
      _ ≤ _ := mul_le_mul_of_nonneg_right hle hpos.le
  · calc q * 10 ^ (digits - 1 - Int.log 10 q : ℤ) <
          10 ^ (Int.log 10 q + 1) * 10 ^ (digits - 1 - Int.log 10 q : ℤ) :=
          mul_lt_mul_of_pos_right hlt hpos
      _ = _ := by
          rw [← zpow_add₀ (by norm_num), ← zpow_natCast]
          congr 1
          omega

/-- **The mantissa has as many digits.** -/
theorem mantissa_mem : 10 ^ (digits - 1) ≤ (scientific digits q).mantissa ∧
    (scientific digits q).mantissa < 10 ^ digits := by
  obtain ⟨hlow, hhigh⟩ := scaled_mem hdigits hq
  unfold scientific
  dsimp only
  generalize q * 10 ^ (digits - 1 - Int.log 10 q : ℤ) = y at *
  have hfloor : 10 ^ (digits - 1) ≤ ⌊y + 1 / 2⌋₊ := by
    refine Nat.le_floor ?_
    push_cast
    linarith
  have hle : ⌊y + 1 / 2⌋₊ ≤ 10 ^ digits := by
    refine Nat.lt_succ_iff.mp (Nat.floor_lt' (Nat.succ_ne_zero _) |>.mpr ?_)
    push_cast
    linarith
  split
  · exact ⟨le_rfl, Nat.pow_lt_pow_right (by decide) (Nat.sub_lt hdigits Nat.one_pos)⟩
  · rename_i hne
    exact ⟨hfloor, hle.lt_of_ne hne⟩

/-- **The rounded number differs by at most half a unit of its last digit.** -/
theorem abs_value_sub_le : |(scientific digits q).value digits - q| ≤
    10 ^ ((scientific digits q).exponent + 1 - digits) / 2 := by
  obtain ⟨hlow, _⟩ := scaled_mem hdigits hq
  have hunit : Int.log 10 q + 1 - digits ≤ (scientific digits q).exponent + 1 - digits := by
    unfold scientific
    dsimp only
    split
    · exact (by omega : Int.log 10 q + 1 - (digits : ℤ) ≤ Int.log 10 q + 1 + 1 - digits)
    · exact le_rfl
  rw [value_scientific hdigits]
  obtain ⟨y, hy⟩ : ∃ y, y = q * 10 ^ (digits - 1 - Int.log 10 q : ℤ) := ⟨_, rfl⟩
  rw [← hy] at hlow ⊢
  have hround : |(⌊y + 1 / 2⌋₊ : ℚ) - y| ≤ 1 / 2 := by
    have hpos : (0 : ℚ) < 10 ^ (digits - 1) := by positivity
    have hle := Nat.floor_le (show 0 ≤ y + 1 / 2 by linarith)
    have hlt := Nat.lt_floor_add_one (y + 1 / 2)
    rw [abs_le]
    constructor <;> linarith
  have hq' : q = y * 10 ^ (Int.log 10 q + 1 - digits) := by
    rw [hy, mul_assoc, ← zpow_add₀ (by norm_num),
      show (digits - 1 - Int.log 10 q + (Int.log 10 q + 1 - digits) : ℤ) = 0 by ring, zpow_zero,
      mul_one]
  have hscale := ten_zpow_pos (Int.log 10 q + 1 - digits)
  calc |(⌊y + 1 / 2⌋₊ : ℚ) * 10 ^ (Int.log 10 q + 1 - digits) - q|
      = |(⌊y + 1 / 2⌋₊ : ℚ) - y| * 10 ^ (Int.log 10 q + 1 - digits) := by
        nth_rewrite 2 [hq']
        rw [← sub_mul, abs_mul, abs_of_pos hscale]
    _ ≤ 1 / 2 * 10 ^ (Int.log 10 q + 1 - digits) := mul_le_mul_of_nonneg_right hround hscale.le
    _ ≤ 1 / 2 * 10 ^ ((scientific digits q).exponent + 1 - digits) :=
        mul_le_mul_of_nonneg_left (zpow_le_zpow_right₀ (by norm_num) hunit) (by norm_num)
    _ = _ := by ring

/-- It is more than half the number, and less than twice the number. -/
theorem value_mem : q < 2 * (scientific digits q).value digits ∧
    (scientific digits q).value digits ≤ 2 * q := by
  have hdiff := abs_le.mp (abs_value_sub_le hdigits hq)
  have hmantissa := (mantissa_mem hdigits hq).1
  have hone : (1 : ℚ) ≤ (scientific digits q).mantissa := by
    exact_mod_cast (Nat.one_le_pow _ _ (by decide)).trans hmantissa
  have hunit := ten_zpow_pos ((scientific digits q).exponent + 1 - digits)
  have hle : 1 * (10 : ℚ) ^ ((scientific digits q).exponent + 1 - digits) ≤
      (scientific digits q).value digits := mul_le_mul_of_nonneg_right hone hunit.le
  constructor <;> linarith [hdiff.1, hdiff.2]

end Rounding

/-! ## The text -/

/-- The exponent of a text, with its sign and at least two digits. -/
def exponentText (exponent : ℤ) : List UInt8 :=
  101 :: (if exponent < 0 then 45 else 43) ::
    fixedDigits (max 2 (Nat.log 10 exponent.natAbs + 1)) exponent.natAbs

/-- The text of a number of so many digits, without trailing zeros: with an exponent, if the
point is more than one place to the left of the digits or to the right of them. -/
def figure (digits : ℕ) (s : Scientific) : List UInt8 :=
  if s.exponent < -1 ∨ digits ≤ s.exponent then
    (fixedDigits digits s.mantissa).take 1 ++
      46 :: (strip ((fixedDigits digits s.mantissa).drop 1) ++ exponentText s.exponent)
  else if s.exponent = -1 then [48] ++ 46 :: strip (fixedDigits digits s.mantissa)
  else (fixedDigits digits s.mantissa).take (s.exponent + 1).toNat ++
    46 :: strip ((fixedDigits digits s.mantissa).drop (s.exponent + 1).toNat)

/-- `gcvt`. -/
def gcvt (digits : ℕ) (x : ℚ) : List UInt8 :=
  if x = 0 then [48, 46]
  else if x < 0 then 45 :: figure digits (scientific digits (-x))
  else figure digits (scientific digits x)

/-- Without an exponent, the digits, the point and perhaps a zero before it. -/
theorem length_figure_le {digits : ℕ} {s : Scientific} (hlow : -1 ≤ s.exponent)
    (hhigh : s.exponent < digits) : (figure digits s).length ≤ digits + 2 := by
  unfold figure
  rw [if_neg (by omega)]
  split
  · have hstrip := length_strip_le (fixedDigits digits s.mantissa)
    rw [length_fixedDigits] at hstrip
    simp only [List.length_append, List.length_cons, List.length_nil]
    omega
  · have hstrip := length_strip_le ((fixedDigits digits s.mantissa).drop (s.exponent + 1).toNat)
    rw [List.length_drop, length_fixedDigits] at hstrip
    rw [List.length_append, List.length_cons, List.length_take, length_fixedDigits]
    omega

/-- A digit, the point, a sign or the letter before an exponent. -/
def IsFigureChar (c : UInt8) : Prop := isDigit c = true ∨ c ∈ [43, 45, 46, 101]

theorem IsFigureChar.ne {c : UInt8} (h : IsFigureChar c) : c ≠ 0 ∧ c ≠ 32 := by
  constructor <;> rintro rfl <;> exact absurd h (by unfold IsFigureChar; decide)

theorem isFigureChar_of_mem_exponentText {exponent : ℤ} {c : UInt8}
    (h : c ∈ exponentText exponent) : IsFigureChar c := by
  rcases List.mem_cons.mp h with rfl | h
  · exact .inr (by decide)
  rcases List.mem_cons.mp h with rfl | h
  · right
    split <;> decide
  · exact .inl (isDigit_of_mem_fixedDigits h)

theorem isFigureChar_of_mem_figure {digits : ℕ} {s : Scientific} {c : UInt8}
    (h : c ∈ figure digits s) : IsFigureChar c := by
  have hpoint : IsFigureChar 46 := .inr (by decide)
  have htake {k : ℕ} (hc : c ∈ (fixedDigits digits s.mantissa).take k) : IsFigureChar c :=
    .inl (isDigit_of_mem_fixedDigits (List.mem_of_mem_take hc))
  have hdrop {k : ℕ} (hc : c ∈ strip ((fixedDigits digits s.mantissa).drop k)) : IsFigureChar c :=
    .inl (isDigit_of_mem_fixedDigits (List.mem_of_mem_drop (mem_of_mem_strip hc)))
  unfold figure at h
  split_ifs at h
  · rcases List.mem_append.mp h with h | h
    · exact htake h
    rcases List.mem_cons.mp h with rfl | h
    · exact hpoint
    rcases List.mem_append.mp h with h | h
    · exact hdrop h
    · exact isFigureChar_of_mem_exponentText h
  · rcases List.mem_append.mp h with h | h
    · rw [List.mem_singleton.mp h]
      exact .inl (by decide)
    rcases List.mem_cons.mp h with rfl | h
    · exact hpoint
    · exact .inl (isDigit_of_mem_fixedDigits (mem_of_mem_strip h))
  · rcases List.mem_append.mp h with h | h
    · exact htake h
    rcases List.mem_cons.mp h with rfl | h
    · exact hpoint
    · exact hdrop h

theorem isFigureChar_of_mem_gcvt {digits : ℕ} {x : ℚ} {c : UInt8} (h : c ∈ gcvt digits x) :
    IsFigureChar c := by
  unfold gcvt at h
  split_ifs at h
  · rcases List.mem_cons.mp h with rfl | h
    · exact .inl (by decide)
    · rw [List.mem_singleton.mp h]
      exact .inr (by decide)
  · rcases List.mem_cons.mp h with rfl | h
    · exact .inr (by decide)
    · exact isFigureChar_of_mem_figure h
  · exact isFigureChar_of_mem_figure h

/-! ## Reading a text -/

/-- A text in positional notation: its whole part, and nothing, or a point and other digits
behind it. -/
def IsNumber (whole : ℕ) (text : List UInt8) : Prop :=
  ∃ digits, digits ≠ [] ∧ (∀ c ∈ digits, isDigit c = true) ∧ numberOf digits = whole ∧
    (text = digits ∨
      ∃ fraction, (∀ c ∈ fraction, isDigit c = true) ∧ text = digits ++ 46 :: fraction)

theorem takeWhile_isDigit {digits : List UInt8} (h : ∀ c ∈ digits, isDigit c = true)
    {c : UInt8} (hc : isDigit c = false) (l : List UInt8) :
    (digits ++ c :: l).takeWhile isDigit = digits := by
  rw [List.takeWhile_append_of_pos h, List.takeWhile_cons_of_neg (by rw [hc]; decide),
    List.append_nil]

/-- The whole part is the digits at the start. -/
theorem IsNumber.whole_eq {whole : ℕ} {text : List UInt8} (h : IsNumber whole text) :
    text.takeWhile isDigit ≠ [] ∧ numberOf (text.takeWhile isDigit) = whole := by
  obtain ⟨digits, hne, hdigits, hwhole, rfl | ⟨fraction, _, rfl⟩⟩ := h
  · rw [List.takeWhile_eq_self_iff.mpr hdigits]
    exact ⟨hne, hwhole⟩
  · rw [takeWhile_isDigit hdigits rfl]
    exact ⟨hne, hwhole⟩

theorem IsNumber.isFigureChar {whole : ℕ} {text : List UInt8} (h : IsNumber whole text)
    {c : UInt8} (hc : c ∈ text) : IsFigureChar c := by
  obtain ⟨digits, _, hdigits, _, rfl | ⟨fraction, hfraction, rfl⟩⟩ := h
  · exact .inl (hdigits c hc)
  · rcases List.mem_append.mp hc with hc | hc
    · exact .inl (hdigits c hc)
    rcases List.mem_cons.mp hc with rfl | hc
    · exact .inr (by decide)
    · exact .inl (hfraction c hc)

theorem IsNumber.lt {whole : ℕ} {text : List UInt8} (h : IsNumber whole text) :
    whole < 10 ^ text.length := by
  rw [← h.whole_eq.2]
  exact (numberOf_lt fun c hc => List.mem_takeWhile_imp hc).trans_le
    (Nat.pow_le_pow_right (by decide) (List.takeWhile_prefix _).length_le)

/-- A number is not negative. -/
theorem not_isNumber_cons {c : UInt8} (hc : isDigit c = false) (whole : ℕ) (l : List UInt8) :
    ¬ IsNumber whole (c :: l) := by
  intro h
  exact h.whole_eq.1 (List.takeWhile_cons_of_neg (by rw [hc]; decide))

theorem isNumber_digits_iff {digits : List UInt8} (hne : digits ≠ [])
    (h : ∀ c ∈ digits, isDigit c = true) (whole : ℕ) :
    IsNumber whole digits ↔ numberOf digits = whole := by
  refine ⟨fun hn => ?_, fun hn => ⟨digits, hne, h, hn, .inl rfl⟩⟩
  have hwhole := hn.whole_eq.2
  rwa [List.takeWhile_eq_self_iff.mpr h] at hwhole

/-- The whole part of a text with a point. -/
theorem numberOf_of_isNumber_point {digits : List UInt8} (h : ∀ c ∈ digits, isDigit c = true)
    {whole : ℕ} {l : List UInt8} (hn : IsNumber whole (digits ++ 46 :: l)) :
    numberOf digits = whole := by
  have hwhole := hn.whole_eq.2
  rwa [takeWhile_isDigit h rfl] at hwhole

theorem isNumber_point_iff {digits fraction : List UInt8} (hne : digits ≠ [])
    (h : ∀ c ∈ digits, isDigit c = true) (hf : ∀ c ∈ fraction, isDigit c = true) (whole : ℕ) :
    IsNumber whole (digits ++ 46 :: fraction) ↔ numberOf digits = whole :=
  ⟨numberOf_of_isNumber_point h, fun hn => ⟨digits, hne, h, hn, .inr ⟨fraction, hf, rfl⟩⟩⟩

end Decimal
end BsitLabs
