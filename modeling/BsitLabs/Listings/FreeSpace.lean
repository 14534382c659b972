import BsitLabs.Foundation.Decimal
import BsitLabs.InfoRpc.Framing
import BsitLabs.Tcp.ReplyTexts

/-!
# The listing of the free space

The record of a fixed drive takes thirteen bytes, and six of them are what is shown of its
figure.  A shorter figure leaves its terminator among the six, and the reply ends there; of a
longer one the last digits are lost, before the point too; and the counters are read as `int`s.
The reply consists of one record for each fixed drive exactly if the space of each of them is
`Legible` (`freeSpaceListed_iff`).

The space of a drive is taken as the rational number that it is.
-/

namespace BsitLabs
namespace Listings

open SystemInfo CText Decimal MachineInt

variable (w : Win32) (space : Drive → DiskSpace)

/-! ## Records -/

/-- The free bytes of a drive. -/
def freeBytes (s : DiskSpace) : ℕ :=
  s.freeClusters.toNat * s.sectorsPerCluster.toNat * s.bytesPerSector.toNat

/-- `freeSpace`, computed from these `f`, `s` and `b`. -/
def freeSpace (f s b : ℤ) : ℚ := f * s * b / 1024 / 1024 / 1024

/-- `gcvt(freeSpace, 10, buf)`. -/
def freeSpaceText (f s b : ℤ) : CText where
  bytes := Decimal.gcvt 10 (freeSpace f s b)
  nonzero _ hc := (isFigureChar_of_mem_gcvt hc).ne.1

/-- The system, if each drive has this space. -/
def answering : Win32 :=
  { w with
    getDiskFreeSpace := fun d => some (space d)
    gcvt := freeSpaceText }

/-- A record of a drive: its letter, a number with the whole gigabytes that are free, and the
unit. -/
def IsRecord (d : Drive) (s : DiskSpace) (record : List UInt8) : Prop :=
  ∃ number, IsNumber (freeBytes s / 2 ^ 30) number ∧
    record = [d.letter, 58, 32] ++ number ++ ascii " Gb\n"

/-- The reply consists of one record for each fixed drive, in the order of the letters. -/
def SpaceListed (reply : List UInt8) : Prop :=
  ∃ records, List.Forall₂ (fun d => IsRecord d (space d)) w.fixedDrives records ∧
    reply = records.flatten

/-- The free gigabytes, rounded to ten significant digits. -/
def rounded (s : DiskSpace) : Scientific := scientific 10 (freeBytes s / 2 ^ 30)

example : rounded ⟨8, 512, 30000000⟩ = ⟨1144409180, 2⟩ := by decide +kernel

/-- The counters are `int`s, and the rounded space, between a tenth and a million gigabytes,
has the same whole part and does not end before the place of the last character that is
shown. -/
structure Legible (s : DiskSpace) : Prop where
  freeClusters : s.freeClusters.toNat < 2 ^ 31
  sectorsPerCluster : s.sectorsPerCluster.toNat < 2 ^ 31
  bytesPerSector : s.bytesPerSector.toNat < 2 ^ 31
  exponent_ge : -1 ≤ (rounded s).exponent
  exponent_le : (rounded s).exponent ≤ 5
  whole : (rounded s).mantissa / 10 ^ (9 - (rounded s).exponent).toNat = freeBytes s / 2 ^ 30
  long : (rounded s).exponent ≤ 3 →
    (rounded s).mantissa % 10 ^ (6 + (-(rounded s).exponent).toNat) ≠ 0

/-! ## What is shown of a figure -/

section Shown

variable {s : Scientific} (hs : s.mantissa < 10 ^ 10) (whole : ℕ)

/-- Six characters of the text are a number with this whole part. -/
def Shows (text : List UInt8) : Prop := 6 ≤ text.length ∧ IsNumber whole (text.take 6)

/-- Below one, a zero is shown before the point, and four digits behind it. -/
theorem shows_figure_of_lt_one (he : s.exponent = -1) :
    Shows whole (figure 10 s) ↔ s.mantissa % 10 ^ 7 ≠ 0 ∧ 0 = whole := by
  have hfigure : figure 10 s = [48] ++ 46 :: strip (fixedDigits 10 s.mantissa) := by
    rw [figure, if_neg (by omega), if_pos he]
  have hlen : 6 ≤ (figure 10 s).length ↔ 3 < (strip (fixedDigits 10 s.mantissa)).length := by
    rw [hfigure, List.length_append, List.length_singleton, List.length_cons]
    omega
  have htake : (figure 10 s).take 6 =
      [48] ++ 46 :: (strip (fixedDigits 10 s.mantissa)).take 4 := by
    rw [hfigure]
    rfl
  have hzero : ∀ c ∈ ([48] : List UInt8), isDigit c = true := fun c hc => by
    rw [List.mem_singleton.mp hc]
    rfl
  have hdigits : ∀ c ∈ (strip (fixedDigits 10 s.mantissa)).take 4, isDigit c = true :=
    fun c hc => isDigit_of_mem_fixedDigits (mem_of_mem_strip (List.mem_of_mem_take hc))
  rw [Shows, hlen, htake, isNumber_point_iff (List.cons_ne_nil _ _) hzero hdigits,
    lt_length_strip_iff, drop_fixedDigits (by decide), exists_fixedDigits_ne_iff]
  rfl

include hs

/-- With at most five digits before the point, the others that are shown are behind it. -/
theorem shows_figure_of_le_four {k : ℕ} (hk : k ≤ 4) (he : s.exponent = k) :
    Shows whole (figure 10 s) ↔
      (k ≤ 3 → s.mantissa % 10 ^ 6 ≠ 0) ∧ s.mantissa / 10 ^ (9 - k) = whole := by
  obtain ⟨A, hA⟩ : ∃ A, A = (fixedDigits 10 s.mantissa).take (k + 1) := ⟨_, rfl⟩
  obtain ⟨F, hF⟩ : ∃ F, F = strip ((fixedDigits 10 s.mantissa).drop (k + 1)) := ⟨_, rfl⟩
  have hfigure : figure 10 s = A ++ 46 :: F := by
    rw [figure, if_neg (by omega), if_neg (by omega), he, hA, hF]
    rfl
  have hlenA : A.length = k + 1 := by
    rw [hA, List.length_take, length_fixedDigits]
    omega
  have hdigitsA : ∀ c ∈ A, isDigit c = true := fun c hc =>
    isDigit_of_mem_fixedDigits (List.mem_of_mem_take (hA ▸ hc))
  have hdigitsF : ∀ c ∈ F.take (4 - k), isDigit c = true := fun c hc =>
    isDigit_of_mem_fixedDigits
      (List.mem_of_mem_drop (mem_of_mem_strip (hF ▸ List.mem_of_mem_take hc)))
  have htake : (figure 10 s).take 6 = A ++ 46 :: F.take (4 - k) := by
    rw [hfigure, List.take_append, List.take_of_length_le (by omega), hlenA,
      show 6 - (k + 1) = 4 - k + 1 by omega, List.take_succ_cons]
  have hnumber : numberOf A = s.mantissa / 10 ^ (9 - k) := by
    rw [hA, numberOf_take_fixedDigits (by omega) hs]
    congr 2
    omega
  have hlen : 6 ≤ (figure 10 s).length ↔ (k ≤ 3 → s.mantissa % 10 ^ 6 ≠ 0) := by
    rw [hfigure, List.length_append, List.length_cons, hlenA]
    by_cases hk3 : k ≤ 3
    · have hlonger : 3 - k < F.length ↔ s.mantissa % 10 ^ 6 ≠ 0 := by
        rw [hF, lt_length_strip_iff, List.drop_drop, show k + 1 + (3 - k) = 4 by omega,
          drop_fixedDigits (by decide), exists_fixedDigits_ne_iff]
      rw [← hlonger]
      omega
    · exact iff_of_true (by omega) fun h => absurd h hk3
  rw [Shows, hlen, htake, isNumber_point_iff (List.ne_nil_of_length_pos (by omega)) hdigitsA
    hdigitsF, hnumber]

/-- With more digits before the point, the first six are shown. -/
theorem shows_figure_of_le_nine {k : ℕ} (hk : 5 ≤ k) (hk' : k ≤ 9) (he : s.exponent = k) :
    Shows whole (figure 10 s) ↔ s.mantissa / 10 ^ 4 = whole := by
  obtain ⟨F, hF⟩ : ∃ F, F = strip ((fixedDigits 10 s.mantissa).drop (k + 1)) := ⟨_, rfl⟩
  have hfigure : figure 10 s = (fixedDigits 10 s.mantissa).take (k + 1) ++ 46 :: F := by
    rw [figure, if_neg (by omega), if_neg (by omega), he, hF]
    rfl
  have hlen : ((fixedDigits 10 s.mantissa).take (k + 1)).length = k + 1 := by
    rw [List.length_take, length_fixedDigits]
    omega
  have htake : (figure 10 s).take 6 = (fixedDigits 10 s.mantissa).take 6 := by
    rw [hfigure, List.take_append_of_le_length (by omega), List.take_take]
    congr 1
    omega
  have hdigits : ∀ c ∈ (fixedDigits 10 s.mantissa).take 6, isDigit c = true := fun c hc =>
    isDigit_of_mem_fixedDigits (List.mem_of_mem_take hc)
  rw [Shows, htake, isNumber_digits_iff (List.ne_nil_of_length_pos (by simp)) hdigits,
    numberOf_take_fixedDigits (by decide) hs]
  refine and_iff_right ?_
  rw [hfigure, List.length_append, hlen, List.length_cons]
  omega

/-- With an exponent behind it, the first digit alone would be the whole part. -/
theorem eq_of_shows_figure_of_exponent (he : s.exponent < -1 ∨ 10 ≤ s.exponent)
    (h : Shows whole (figure 10 s)) : s.mantissa / 10 ^ 9 = whole := by
  have htake : (figure 10 s).take 6 = (fixedDigits 10 s.mantissa).take 1 ++
      46 :: (strip ((fixedDigits 10 s.mantissa).drop 1) ++ exponentText s.exponent).take 4 := by
    have hlen : ((fixedDigits 10 s.mantissa).take 1).length = 1 := by
      rw [List.length_take, length_fixedDigits]
      rfl
    rw [figure, if_pos (by omega), List.take_append, List.take_of_length_le (by omega), hlen]
    rfl
  have hnumber := h.2
  rw [htake] at hnumber
  rw [← numberOf_of_isNumber_point (fun c hc => isDigit_of_mem_fixedDigits
    (List.mem_of_mem_take hc)) hnumber, numberOf_take_fixedDigits (by decide) hs]

end Shown

/-! ## Legible figures -/

/-- The whole gigabytes. -/
theorem whole_mem (n : ℕ) :
    ((n / 2 ^ 30 : ℕ) : ℚ) ≤ n / 2 ^ 30 ∧ (n : ℚ) / 2 ^ 30 < (n / 2 ^ 30 : ℕ) + 1 := by
  rw [le_div_iff₀ (by norm_num), div_lt_iff₀ (by norm_num)]
  constructor
  · exact_mod_cast Nat.div_mul_le_self n (2 ^ 30)
  · have hlt : n < (n / 2 ^ 30 + 1) * 2 ^ 30 := by omega
    exact_mod_cast hlt

section Positive

variable {n : ℕ} (hn : 0 < n)

include hn

theorem mantissa_gigabytes : 10 ^ 9 ≤ (scientific 10 (n / 2 ^ 30 : ℚ)).mantissa ∧
    (scientific 10 (n / 2 ^ 30 : ℚ)).mantissa < 10 ^ 10 :=
  mantissa_mem (show 0 < 10 by decide) (by positivity)

/-- Rounded to less than a tenth, there is no whole gigabyte. -/
theorem whole_eq_zero (he : (scientific 10 (n / 2 ^ 30 : ℚ)).exponent < -1) : n / 2 ^ 30 = 0 := by
  have hq : (0 : ℚ) < n / 2 ^ 30 := by positivity
  have hmantissa : ((scientific 10 (n / 2 ^ 30 : ℚ)).mantissa : ℚ) ≤ 10 ^ 10 := by
    exact_mod_cast (mantissa_gigabytes hn).2.le
  have hunit : (10 : ℚ) ^ ((scientific 10 (n / 2 ^ 30 : ℚ)).exponent + 1 - (10 : ℕ)) ≤
      10 ^ (-11 : ℤ) := zpow_le_zpow_right₀ (by norm_num) (by omega)
  have hvalue : (scientific 10 (n / 2 ^ 30 : ℚ)).value 10 ≤ 10 ^ 10 * 10 ^ (-11 : ℤ) :=
    mul_le_mul hmantissa hunit (ten_zpow_pos _).le (by norm_num)
  have hlt := (value_mem (show 0 < 10 by decide) hq).1
  have hwhole := (whole_mem n).1
  have hone : ((n / 2 ^ 30 : ℕ) : ℚ) < 1 := by
    norm_num at hvalue
    linarith
  exact Nat.lt_one_iff.mp (by exact_mod_cast hone)

/-- From a million on, rounded, there are more of them than six digits can show. -/
theorem mantissa_lt_whole (he : 6 ≤ (scientific 10 (n / 2 ^ 30 : ℚ)).exponent) :
    (scientific 10 (n / 2 ^ 30 : ℚ)).mantissa < 2000 * (n / 2 ^ 30 + 1) := by
  have hq : (0 : ℚ) < n / 2 ^ 30 := by positivity
  have hunit : (10 : ℚ) ^ (-3 : ℤ) ≤
      10 ^ ((scientific 10 (n / 2 ^ 30 : ℚ)).exponent + 1 - (10 : ℕ)) :=
    zpow_le_zpow_right₀ (by norm_num) (by omega)
  have hvalue : (scientific 10 (n / 2 ^ 30 : ℚ)).mantissa * (10 : ℚ) ^ (-3 : ℤ) ≤
      (scientific 10 (n / 2 ^ 30 : ℚ)).value 10 :=
    mul_le_mul_of_nonneg_left hunit (Nat.cast_nonneg _)
  have hle := (value_mem (show 0 < 10 by decide) hq).2
  have hwhole := (whole_mem n).2
  have hlt : ((scientific 10 (n / 2 ^ 30 : ℚ)).mantissa : ℚ) <
      2000 * ((n / 2 ^ 30 : ℕ) + 1) := by
    norm_num at hvalue
    linarith
  exact_mod_cast hlt

/-- Six characters of the text of so many gigabytes are a number with the whole part. -/
theorem shows_scientific_iff :
    Shows (n / 2 ^ 30) (figure 10 (scientific 10 (n / 2 ^ 30 : ℚ))) ↔
      -1 ≤ (scientific 10 (n / 2 ^ 30 : ℚ)).exponent ∧
      (scientific 10 (n / 2 ^ 30 : ℚ)).exponent ≤ 5 ∧
      (scientific 10 (n / 2 ^ 30 : ℚ)).mantissa /
        10 ^ (9 - (scientific 10 (n / 2 ^ 30 : ℚ)).exponent).toNat = n / 2 ^ 30 ∧
      ((scientific 10 (n / 2 ^ 30 : ℚ)).exponent ≤ 3 →
        (scientific 10 (n / 2 ^ 30 : ℚ)).mantissa %
          10 ^ (6 + (-(scientific 10 (n / 2 ^ 30 : ℚ)).exponent).toNat) ≠ 0) := by
  obtain ⟨hlow, hhigh⟩ := mantissa_gigabytes hn
  have hsmall := whole_eq_zero hn
  have hlarge := mantissa_lt_whole hn
  generalize scientific 10 (n / 2 ^ 30 : ℚ) = s at *
  generalize n / 2 ^ 30 = whole at *
  rcases lt_or_ge s.exponent (-1) with he | he
  · -- an exponent is shown, behind a digit that is not zero
    refine iff_of_false (fun h => ?_) fun h => absurd h.1 (by omega)
    have heq := eq_of_shows_figure_of_exponent hhigh whole (.inl he) h
    have hzero := hsmall he
    omega
  rcases he.eq_or_lt with he' | he'
  · rw [shows_figure_of_lt_one whole he'.symm, ← he']
    have hdiv : s.mantissa / 10 ^ (9 - -1 : ℤ).toNat = 0 := Nat.div_eq_of_lt hhigh
    rw [hdiv]
    exact ⟨fun h => ⟨le_rfl, by decide, h.2, fun _ => h.1⟩, fun h => ⟨h.2.2.2 (by decide), h.2.2.1⟩⟩
  obtain ⟨k, hk⟩ := Int.eq_ofNat_of_zero_le (show 0 ≤ s.exponent by omega)
  rcases Nat.lt_or_ge k 5 with hk4 | hk5
  · have hneg : 6 + (-(k : ℤ)).toNat = 6 := by omega
    have hrest : (9 - (k : ℤ)).toNat = 9 - k := by omega
    rw [shows_figure_of_le_four hhigh whole (by omega) hk, hk, hneg, hrest]
    constructor
    · exact fun h => ⟨by omega, by omega, h.2, fun hle => h.1 (by omega)⟩
    · exact fun h => ⟨fun hle => h.2.2.2 (by omega), h.2.2.1⟩
  rcases Nat.lt_or_ge k 10 with hk9 | hk10
  · rw [shows_figure_of_le_nine hhigh whole hk5 (by omega) hk, hk]
    rcases hk5.eq_or_lt with rfl | hk6
    · exact ⟨fun h => ⟨by decide, by decide, h, fun hle => absurd hle (by decide)⟩,
        fun h => h.2.2.1⟩
    · -- digits before the point are lost
      refine iff_of_false (fun h => ?_) fun h => absurd h.2.1 (by omega)
      have hlt := hlarge (by omega)
      omega
  · refine iff_of_false (fun h => ?_) fun h => absurd h.2.1 (by omega)
    have heq := eq_of_shows_figure_of_exponent hhigh whole (.inr (by omega)) h
    have hlt := hlarge (by omega)
    omega

end Positive

theorem freeSpace_eq (f s b : ℤ) : freeSpace f s b = (f * s * b : ℤ) / 2 ^ 30 := by
  unfold freeSpace
  push_cast
  ring

/-- Counters whose product is positive as `int`s are all positive, or two of them are
negative, and the product is large. -/
theorem small_or_large {f s b : ℕ} (hf : f < 2 ^ 32) (hs : s < 2 ^ 32) (hb : b < 2 ^ 32)
    (hpos : 0 < toInt32 f * toInt32 s * toInt32 b) :
    (f < 2 ^ 31 ∧ s < 2 ^ 31 ∧ b < 2 ^ 31) ∨ 2 ^ 62 ≤ f * s * b := by
  have hnonneg {n : ℕ} (h : n < 2 ^ 31) : 0 ≤ toInt32 n := by
    rw [toInt32_of_lt h]
    omega
  have hnonpos {n : ℕ} (h : 2 ^ 31 ≤ n) (h' : n < 2 ^ 32) : toInt32 n ≤ 0 := by
    rw [toInt32_of_le h h']
    omega
  have hone {n : ℕ} (h : toInt32 n ≠ 0) : 1 ≤ n := by
    refine Nat.one_le_iff_ne_zero.mpr ?_
    rintro rfl
    exact h rfl
  have htwo : 2 ^ 62 = 2 ^ 31 * 2 ^ 31 * 1 := by decide
  have hfs := left_ne_zero_of_mul hpos.ne'
  have hf1 := hone (left_ne_zero_of_mul hfs)
  have hs1 := hone (right_ne_zero_of_mul hfs)
  have hb1 := hone (right_ne_zero_of_mul hpos.ne')
  rcases lt_or_ge f (2 ^ 31) with hf' | hf' <;> rcases lt_or_ge s (2 ^ 31) with hs' | hs' <;>
    rcases lt_or_ge b (2 ^ 31) with hb' | hb'
  · exact .inl ⟨hf', hs', hb'⟩
  · exact absurd hpos (not_lt.mpr (mul_nonpos_of_nonneg_of_nonpos
      (mul_nonneg (hnonneg hf') (hnonneg hs')) (hnonpos hb' hb)))
  · exact absurd hpos (not_lt.mpr (mul_nonpos_of_nonpos_of_nonneg
      (mul_nonpos_of_nonneg_of_nonpos (hnonneg hf') (hnonpos hs' hs)) (hnonneg hb')))
  · exact .inr ((show 2 ^ 62 = 1 * 2 ^ 31 * 2 ^ 31 by decide).le.trans
      (Nat.mul_le_mul (Nat.mul_le_mul hf1 hs') hb'))
  · exact absurd hpos (not_lt.mpr (mul_nonpos_of_nonpos_of_nonneg
      (mul_nonpos_of_nonpos_of_nonneg (hnonpos hf' hf) (hnonneg hs')) (hnonneg hb')))
  · exact .inr ((show 2 ^ 62 = 2 ^ 31 * 1 * 2 ^ 31 by decide).le.trans
      (Nat.mul_le_mul (Nat.mul_le_mul hf' hs1) hb'))
  · exact .inr (htwo.le.trans (Nat.mul_le_mul (Nat.mul_le_mul hf' hs') hb1))
  · exact .inr (htwo.le.trans (Nat.mul_le_mul (Nat.mul_le_mul hf' hs') hb1))

/-- Of counters that are `int`s the text is that of their product. -/
theorem bytes_figureOf {s : DiskSpace} (hf : s.freeClusters.toNat < 2 ^ 31)
    (hs : s.sectorsPerCluster.toNat < 2 ^ 31) (hb : s.bytesPerSector.toNat < 2 ^ 31) :
    (figureOf (answering w space) s).bytes = Decimal.gcvt 10 (freeBytes s / 2 ^ 30 : ℚ) := by
  show Decimal.gcvt 10 (freeSpace (toInt32 s.freeClusters.toNat)
    (toInt32 s.sectorsPerCluster.toNat) (toInt32 s.bytesPerSector.toNat)) = _
  rw [freeSpace_eq, toInt32_of_lt hf, toInt32_of_lt hs, toInt32_of_lt hb, freeBytes]
  push_cast
  rfl

/-- The text of a space that is legible fits into the array for it. -/
theorem length_figureOf_lt {s : DiskSpace} (h : Legible s) :
    (figureOf (answering w space) s).length < gcvtSize := by
  have hsize : gcvtSize = 16 := rfl
  have hten : (rounded s).exponent < (10 : ℕ) := h.exponent_le.trans_lt (by decide)
  have hlen := length_figure_le h.exponent_ge hten
  have hq : (0 : ℚ) ≤ freeBytes s / 2 ^ 30 := by positivity
  show (figureOf (answering w space) s).bytes.length < gcvtSize
  rw [bytes_figureOf w space h.freeClusters h.sectorsPerCluster h.bytesPerSector, Decimal.gcvt]
  split
  · decide
  · rw [if_neg hq.not_gt]
    change (figure 10 (rounded s)).length < gcvtSize
    omega

/-- **When the six characters of a drive are a number with its whole gigabytes.** -/
theorem shows_figureOf_iff (s : DiskSpace) :
    Shows (freeBytes s / 2 ^ 30) (figureOf (answering w space) s).bytes ↔ Legible s := by
  by_cases hsmall : s.freeClusters.toNat < 2 ^ 31 ∧ s.sectorsPerCluster.toNat < 2 ^ 31 ∧
    s.bytesPerSector.toNat < 2 ^ 31
  · obtain ⟨hf, hs, hb⟩ := hsmall
    rw [bytes_figureOf w space hf hs hb]
    have hlegible : Legible s ↔ _ ∧ _ ∧ _ ∧ _ :=
      ⟨fun h => ⟨h.exponent_ge, h.exponent_le, h.whole, h.long⟩,
        fun h => ⟨hf, hs, hb, h.1, h.2.1, h.2.2.1, h.2.2.2⟩⟩
    rw [hlegible]
    unfold rounded
    rcases Nat.eq_zero_or_pos (freeBytes s) with hn | hn
    · rw [hn, Nat.cast_zero, zero_div, scientific_zero]
      exact iff_of_false (fun h => absurd h.1 (by decide)) fun h => absurd h (by decide)
    · have hq : (0 : ℚ) < freeBytes s / 2 ^ 30 := by positivity
      rw [Decimal.gcvt, if_neg hq.ne', if_neg hq.not_gt]
      exact shows_scientific_iff hn
  · refine iff_of_false (fun h => ?_) fun h =>
      hsmall ⟨h.freeClusters, h.sectorsPerCluster, h.bytesPerSector⟩
    obtain ⟨z, hz⟩ : ∃ z, z = toInt32 s.freeClusters.toNat * toInt32 s.sectorsPerCluster.toNat *
      toInt32 s.bytesPerSector.toNat := ⟨_, rfl⟩
    have htext : (figureOf (answering w space) s).bytes = Decimal.gcvt 10 (z / 2 ^ 30 : ℚ) := by
      rw [hz, ← freeSpace_eq]
      rfl
    rw [htext] at h
    rcases lt_trichotomy z 0 with hneg | hzero | hpos
    · have hq : (z : ℚ) / 2 ^ 30 < 0 := div_neg_of_neg_of_pos (by exact_mod_cast hneg) (by norm_num)
      rw [Decimal.gcvt, if_neg hq.ne, if_pos hq] at h
      exact not_isNumber_cons rfl _ _ h.2
    · rw [hzero, Int.cast_zero, zero_div] at h
      exact absurd h.1 (by decide)
    · rw [hz] at hpos
      have hlarge : 2 ^ 62 ≤ freeBytes s :=
        (small_or_large (UInt32.toNat_lt _) (UInt32.toNat_lt _) (UInt32.toNat_lt _)
          hpos).resolve_left hsmall
      have hlt := h.2.lt.trans_le (Nat.pow_le_pow_right (by decide) (List.length_take_le _ _))
      omega

/-! ## The records of the reply -/

/-- The block of a figure that is not short, with the six characters that are shown. -/
theorem spaceBlock_of_not_short (d : Drive) {s : DiskSpace} (h : ¬ Short w s) :
    spaceBlock w d s = [d.letter, 58, 32] ++ (figureOf w s).bytes.take 6 ++ ascii " Gb\n" := by
  have hlen : 6 ≤ (figureOf w s).bytes.length := Nat.le_of_not_lt h
  unfold spaceBlock
  rw [take_figureBytes w s (by decide) (Nat.le_succ_of_le hlen),
    List.take_append_of_le_length hlen]

/-- At the terminator of a short one the reply ends. -/
theorem takeWhile_spaceBlock_of_short (d : Drive) {s : DiskSpace} (h : Short w s)
    (more : List UInt8) : (spaceBlock w d s ++ more).takeWhile (· ≠ 0) =
      [d.letter, 58, 32] ++ (figureOf w s).bytes := by
  have hlen : (figureOf w s).length + 1 ≤ 6 := h
  have hle : ((figureOf w s).bytes ++ [0]).length ≤ (figureOf w s).length + 1 := by
    rw [List.length_append]
    exact Nat.le_refl _
  have hfront := take_figureBytes w s (Nat.le_trans hlen (by decide)) (Nat.le_refl _)
  rw [List.take_of_length_le hle] at hfront
  have hsplit := (List.take_append_drop ((figureOf w s).length + 1)
    ((figureBytes w s).take 6)).symm
  rw [List.take_take, Nat.min_eq_left hlen, hfront] at hsplit
  have hnonzero : 0 ∉ [d.letter, 58, 32] ++ (figureOf w s).bytes := by
    intro hc
    rcases List.mem_append.mp hc with hc | hc
    · rcases List.mem_cons.mp hc with hc | hc
      · exact d.letter_ne_zero hc.symm
      · exact absurd hc (by decide)
    · exact (figureOf w s).nonzero 0 hc rfl
  have hcut := Region.takeWhile_ne hnonzero
    (((figureBytes w s).take 6).drop ((figureOf w s).length + 1) ++ (ascii " Gb\n" ++ more))
  rw [spaceBlock, hsplit]
  simp only [List.append_assoc, List.cons_append, List.nil_append] at hcut ⊢
  exact hcut

/-- A record determines its number, and what is behind it. -/
theorem record_inj {front number number' more more' : List UInt8} (h : 32 ∉ number)
    (h' : 32 ∉ number')
    (heq : front ++ number ++ ascii " Gb\n" ++ more = front ++ number' ++ ascii " Gb\n" ++ more') :
    number = number' ∧ more = more' := by
  simp only [List.append_assoc, List.append_cancel_left_eq] at heq
  have hunit (l : List UInt8) : ascii " Gb\n" ++ l = 32 :: (ascii "Gb\n" ++ l) := rfl
  rw [hunit, hunit] at heq
  have hnumber := congrArg (List.takeWhile (· ≠ 32)) heq
  rw [Region.takeWhile_ne h, Region.takeWhile_ne h'] at hnumber
  subst hnumber
  have hrest := (List.cons.inj (List.append_cancel_left heq)).2
  exact ⟨rfl, List.append_cancel_left hrest⟩

/-- **When the records before the first zero are one for each drive.** -/
theorem takeWhile_spaceRecords_iff (before : DiskSpace) (ds : List Drive) :
    (∃ records, List.Forall₂ (fun d => IsRecord d (space d)) ds records ∧
      (spaceRecords (answering w space) before ds).takeWhile (· ≠ 0) = records.flatten) ↔
      ∀ d ∈ ds, Legible (space d) := by
  induction ds generalizing before with
  | nil => exact iff_of_true ⟨[], .nil, rfl⟩ fun _ h => absurd h List.not_mem_nil
  | cons d ds ih =>
    have hspace (c : UInt8) (hc : c ∈ (figureOf (answering w space) (space d)).bytes) : c ≠ 32 :=
      (isFigureChar_of_mem_gcvt hc).ne.2
    have hrecords : spaceRecords (answering w space) before (d :: ds) =
        spaceBlock (answering w space) d (space d) ++
          spaceRecords (answering w space) (space d) ds := rfl
    rw [hrecords, List.forall_mem_cons]
    simp only [List.forall₂_cons_left_iff]
    by_cases hshort : Short (answering w space) (space d)
    · refine iff_of_false ?_ fun h => ?_
      · rintro ⟨_, ⟨_, records, ⟨number, hnumber, rfl⟩, _, rfl⟩, hreply⟩
        rw [takeWhile_spaceBlock_of_short _ d hshort, List.flatten_cons] at hreply
        simp only [List.append_assoc, List.append_cancel_left_eq] at hreply
        exact hspace 32 (hreply ▸ List.mem_append_right _ (List.mem_append_left _ (by decide))) rfl
      · exact absurd ((shows_figureOf_iff w space (space d)).mpr h.1).1 (Nat.not_le_of_lt hshort)
    · have hblock : (spaceBlock (answering w space) d (space d) ++
          spaceRecords (answering w space) (space d) ds).takeWhile (· ≠ 0) =
          spaceBlock (answering w space) d (space d) ++
            (spaceRecords (answering w space) (space d) ds).takeWhile (· ≠ 0) :=
        List.takeWhile_append_of_pos fun b hb =>
          decide_eq_true (spaceBlock_ne_zero (answering w space) d hshort hb)
      rw [hblock, spaceBlock_of_not_short _ d hshort, ← shows_figureOf_iff w space, ← ih (space d)]
      constructor
      · rintro ⟨_, ⟨_, records, ⟨number, hnumber, rfl⟩, hrecords, rfl⟩, hreply⟩
        rw [List.flatten_cons] at hreply
        obtain ⟨hnumber', hrest⟩ := record_inj
          (fun hc => hspace _ (List.mem_of_mem_take hc) rfl)
          (fun hc => (hnumber.isFigureChar hc).ne.2 rfl) hreply
        exact ⟨⟨Nat.le_of_not_lt hshort, hnumber' ▸ hnumber⟩, records, hrecords, hrest⟩
      · rintro ⟨hshows, records, hrecords, hrest⟩
        refine ⟨_, ⟨_, records, ⟨_, hshows.2, rfl⟩, hrecords, rfl⟩, ?_⟩
        rw [List.flatten_cons, hrest]

/-- On a clear region the reply is right if the space of every fixed drive is legible. -/
theorem spaceListed_iff (r : Region UInt8) (htop : r.top = 0) (hzero : ∀ i, r.get i = 0) :
    SpaceListed w space ((spaceListing (answering w space) r).cString 0) ↔
      ∀ d ∈ w.fixedDrives, Legible (space d) := by
  rw [cString_spaceListing _ r htop (hzero _)]
  exact takeWhile_spaceRecords_iff w space w.stray.diskSpace w.fixedDrives

/-- Where each drive answers, what is shown is its own space. -/
theorem figuresFit_answering (h : ∀ d ∈ w.fixedDrives, Legible (space d)) :
    FiguresFit (answering w space) := by
  have hshown : ∀ (before : DiskSpace) (ds : List Drive),
      spaces (answering w space) before ds = ds.map space := fun before ds => by
    induction ds generalizing before with
    | nil => rfl
    | cons d ds ih => exact congrArg (space d :: ·) (ih (space d))
  intro s hs
  rw [shownSpaces, hshown] at hs
  obtain ⟨d, hd, rfl⟩ := List.mem_map.mp hs
  exact length_figureOf_lt w space (h d hd)

/-- A query gets through with a text that is right if the space of every fixed drive is
legible. -/
theorem exists_listSpace_iff {r : Region UInt8} {text : Region UInt8 → List UInt8}
    (h : SpaceListed w space (text (spaceListing (answering w space) r)) ↔
      ∀ d ∈ w.fixedDrives, Legible (space d)) :
    (∃ reply, listSpace (answering w space) r = .ok reply ∧ SpaceListed w space (text reply)) ↔
      ∀ d ∈ w.fixedDrives, Legible (space d) := by
  constructor
  · rintro ⟨reply, hreply, hlisted⟩
    obtain ⟨_, rfl⟩ := (listSpace_eq_ok_iff _ _).mp hreply
    exact h.mp hlisted
  · intro hlegible
    exact ⟨_, (listSpace_eq_ok_iff _ _).mpr ⟨figuresFit_answering w space hlegible, rfl⟩,
      h.mpr hlegible⟩

/-- **When the free space is listed right**, on memory that is clear: when the space of every
fixed drive is legible. -/
theorem freeSpaceListed_iff (buffer : InfoRpc.OutBuffer) (hzero : ∀ i, buffer.memory.get i = 0) :
    ((∃ reply, Tcp.freeSpaceHandler (answering w space) Tcp.clearSend = .ok reply ∧
        SpaceListed w space (reply.cString 0)) ↔
      ∀ d ∈ w.fixedDrives, Legible (space d)) ∧
    ((∃ left, InfoRpc.servFreeSpace (answering w space) buffer = .ok left ∧
        SpaceListed w space (InfoRpc.replyText left)) ↔
      ∀ d ∈ w.fixedDrives, Legible (space d)) := by
  have hlen : (spaceListing (answering w space) buffer.memory).strlen 0 < 2 ^ 31 := by
    have hle := strlen_spaceListing_le (answering w space) _ buffer.untouched (hzero _)
    have hcount := length_shownSpaces_le (answering w space)
    omega
  have htcp := spaceListed_iff w space Tcp.clearSend Tcp.clearSend_top Tcp.clearSend_get
  have hrpc := spaceListed_iff w space buffer.memory buffer.untouched hzero
  rw [← InfoRpc.replyText_sizeInFront hlen] at hrpc
  exact ⟨exists_listSpace_iff w space htcp,
    exists_except_map_iff.trans (exists_listSpace_iff w space hrpc)⟩

/-- A system with one fixed drive. -/
def fixedDrive : Win32 :=
  { Win32.silent with
    getLogicalDrives := 4
    getDriveType := fun _ => driveFixed }

/-- A hundred and fourteen gigabytes at every drive. -/
def halfFull : Drive → DiskSpace := fun _ => ⟨8, 512, 30000000⟩

theorem freeSpaceListed_iff_halfFull :
    ((∃ reply, Tcp.freeSpaceHandler (answering fixedDrive halfFull) Tcp.clearSend = .ok reply ∧
        SpaceListed fixedDrive halfFull (reply.cString 0)) ↔
      ∀ d ∈ fixedDrive.fixedDrives, Legible (halfFull d)) ∧
    ((∃ left, InfoRpc.servFreeSpace (answering fixedDrive halfFull) InfoRpc.OutBuffer.clear =
        .ok left ∧ SpaceListed fixedDrive halfFull (InfoRpc.replyText left)) ↔
      ∀ d ∈ fixedDrive.fixedDrives, Legible (halfFull d)) :=
  freeSpaceListed_iff fixedDrive halfFull InfoRpc.OutBuffer.clear fun _ => rfl

/-- Of a full drive the unit is not listed. -/
theorem not_spaceListed_full : ¬ ∀ (w : Win32) (space : Drive → DiskSpace),
    ∃ reply, Tcp.freeSpaceHandler (answering w space) Tcp.clearSend = .ok reply ∧
      SpaceListed w space (reply.cString 0) := by
  intro hall
  obtain ⟨reply, hreply, hlisted⟩ := hall fixedDrive fun _ => ⟨8, 512, 0⟩
  obtain ⟨_, rfl⟩ := (listSpace_eq_ok_iff _ _).mp hreply
  have hlegible := (spaceListed_iff fixedDrive (fun _ => ⟨8, 512, 0⟩) Tcp.clearSend
    Tcp.clearSend_top Tcp.clearSend_get).mp hlisted 2 (by decide)
  have hrounded : rounded ⟨8, 512, 0⟩ = ⟨0, 0⟩ := by
    rw [rounded, show freeBytes ⟨8, 512, 0⟩ = 0 by decide, Nat.cast_zero, zero_div,
      scientific_zero]
  have hlong := hlegible.long
  rw [hrounded] at hlong
  exact absurd hlong (by decide)

end Listings
end BsitLabs
