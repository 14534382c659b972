import BsitLabs.Foundation.Region
import Mathlib.Data.Nat.Digits.Lemmas
import Mathlib.Data.UInt

/-!
# Text

A C string is a list of bytes none of which is zero, and the texts of a program are put
together from a few pieces: literals, numbers printed by `%d`, `%lu` or `%lx`, and
strings that the system hands over.  A `CText` carries the proof that no byte is zero,
so that the length of a text in memory is always the length of the text.

A number printed in base `b` has `Nat.log b n + 1` digits, zero included, and this is
all that is needed of the digits when lengths are added up.
-/

namespace BsitLabs

/-- The bytes of a string literal. -/
def ascii (s : String) : List UInt8 := s.toList.map fun c => UInt8.ofNat c.toNat

/-- A C string, without its terminator. -/
@[ext]
structure CText where
  /-- The bytes. -/
  bytes : List UInt8
  /-- None of them ends the string. -/
  nonzero : ∀ b ∈ bytes, b ≠ 0
  deriving DecidableEq

namespace CText

/-- The empty string. -/
def nil : CText := ⟨[], by simp⟩

/-- A literal. -/
def lit (s : String) (h : false = (ascii s).contains 0 := by rfl) : CText where
  bytes := ascii s
  nonzero _ hb hzero := absurd (List.contains_iff_mem.mpr (hzero ▸ hb)) (h ▸ Bool.false_ne_true)

/-- One text after another. -/
def append (s t : CText) : CText where
  bytes := s.bytes ++ t.bytes
  nonzero b hb := (List.mem_append.mp hb).elim (s.nonzero b) (t.nonzero b)

instance : Append CText := ⟨append⟩

/-- The number of bytes. -/
def length (s : CText) : ℕ := s.bytes.length

@[simp] theorem bytes_append (s t : CText) : (s ++ t).bytes = s.bytes ++ t.bytes := rfl

@[simp] theorem length_append (s t : CText) : (s ++ t).length = s.length + t.length :=
  List.length_append

@[simp] theorem bytes_nil : nil.bytes = [] := rfl

theorem append_assoc (s t u : CText) : s ++ t ++ u = s ++ (t ++ u) :=
  CText.ext (List.append_assoc _ _ _)

theorem append_nil (s : CText) : s ++ nil = s := CText.ext (List.append_nil _)

/-- All of these texts, one behind the other. -/
def concat (texts : List CText) : CText := texts.foldr append nil

@[simp] theorem concat_nil : concat [] = nil := rfl

@[simp] theorem concat_cons (s : CText) (texts : List CText) :
    concat (s :: texts) = s ++ concat texts := rfl

/-- The character of a digit in a base up to sixteen. -/
def digitByte (d : ℕ) : UInt8 := UInt8.ofNat (if d < 10 then 48 + d else 87 + d)

theorem le_digitByte {d : ℕ} (h : d < 16) : 48 ≤ (digitByte d).toNat := by
  unfold digitByte
  rw [UInt8.toNat_ofNat']
  split <;> omega

theorem digitByte_ne_zero {d : ℕ} (h : d < 16) : digitByte d ≠ 0 := fun hzero =>
  absurd (hzero ▸ le_digitByte h) (by decide)

/-- A number in a base of two to sixteen. -/
def digits (base n : ℕ) (h : 2 ≤ base ∧ base ≤ 16 := by decide) : CText where
  bytes := if n = 0 then [digitByte 0] else ((Nat.digits base n).map digitByte).reverse
  nonzero b hb := by
    split at hb
    · rw [List.mem_singleton.mp hb]
      exact digitByte_ne_zero (by omega)
    · rw [List.mem_reverse, List.mem_map] at hb
      obtain ⟨d, hd, rfl⟩ := hb
      have hlt := Nat.digits_lt_base (b := base) (by omega) hd
      exact digitByte_ne_zero (by omega)

/-- `%lu`, and `%d` of a number that is not negative. -/
def decimal (n : ℕ) : CText := digits 10 n

/-- `%lx`. -/
def hex (n : ℕ) : CText := digits 16 n

/-- `%d`. -/
def signed (n : ℤ) : CText := if n < 0 then lit "-" ++ decimal n.natAbs else decimal n.natAbs

/-- A digit is no character that comes before the digits. -/
theorem le_of_mem_digits {base n : ℕ} {h : 2 ≤ base ∧ base ≤ 16} {b : UInt8}
    (hb : b ∈ (digits base n h).bytes) : 48 ≤ b.toNat := by
  unfold digits at hb
  split at hb
  · rw [List.mem_singleton.mp hb]
    exact le_digitByte (by omega)
  · rw [List.mem_reverse, List.mem_map] at hb
    obtain ⟨d, hd, rfl⟩ := hb
    have hlt := Nat.digits_lt_base (b := base) (by omega) hd
    exact le_digitByte (by omega)

theorem length_digits {base : ℕ} (n : ℕ) (h : 2 ≤ base ∧ base ≤ 16) :
    (digits base n h).length = Nat.log base n + 1 := by
  show (if n = 0 then [digitByte 0] else ((Nat.digits base n).map digitByte).reverse).length = _
  rcases Nat.eq_zero_or_pos n with rfl | hn
  · simp
  · rw [if_neg (by omega), List.length_reverse, List.length_map,
      Nat.length_digits _ _ (by omega) (by omega)]

@[simp] theorem length_decimal (n : ℕ) : (decimal n).length = Nat.log 10 n + 1 :=
  length_digits n _

@[simp] theorem length_hex (n : ℕ) : (hex n).length = Nat.log 16 n + 1 := length_digits n _

/-- The sign takes one more. -/
@[simp] theorem length_signed (n : ℤ) :
    (signed n).length = Nat.log 10 n.natAbs + 1 + if n < 0 then 1 else 0 := by
  unfold signed
  split
  · rw [length_append, length_decimal, Nat.add_comm]
    rfl
  · rw [length_decimal]

/-! ## Texts in memory -/

end CText

/-- The string at an offset. -/
def Region.text (r : Region UInt8) (k : ℕ) : CText where
  bytes := r.cString k
  nonzero b hb := by
    obtain ⟨j, hj, rfl⟩ := List.mem_iff_getElem.mp hb
    rw [Region.getElem_cString]
    exact r.get_ne_zero_of_lt_strlen k (by rwa [Region.length_cString] at hj)

@[simp] theorem Region.bytes_text (r : Region UInt8) (k : ℕ) : (r.text k).bytes = r.cString k :=
  rfl

/-- `strcat` of one text after another. -/
def Region.strcats (r : Region UInt8) (texts : List CText) : Region UInt8 :=
  texts.foldl (fun r s => r.strcat s.bytes) r

theorem Region.strcats_nil (r : Region UInt8) : r.strcats [] = r := rfl

theorem Region.strcats_cons (r : Region UInt8) (s : CText) (texts : List CText) :
    r.strcats (s :: texts) = (r.strcat s.bytes).strcats texts := rfl

/-- They are all appended. -/
theorem Region.cString_strcats (r : Region UInt8) (texts : List CText) :
    (r.strcats texts).cString 0 = r.cString 0 ++ (CText.concat texts).bytes := by
  induction texts generalizing r with
  | nil => exact (List.append_nil _).symm
  | cons s texts ih =>
    rw [strcats_cons, ih, cString_strcat r s.nonzero, List.append_assoc, CText.concat_cons,
      CText.bytes_append]

theorem Region.strlen_strcats (r : Region UInt8) (texts : List CText) :
    (r.strcats texts).strlen 0 = r.strlen 0 + (CText.concat texts).length := by
  rw [← length_cString, cString_strcats, List.length_append, length_cString]
  rfl

/-- The last store is the terminator of the last. -/
theorem Region.top_strcats (r : Region UInt8) (htop : r.top ≤ r.strlen 0 + 1) {texts : List CText}
    (hne : texts ≠ []) :
    (r.strcats texts).top = r.strlen 0 + (CText.concat texts).length + 1 := by
  induction texts generalizing r with
  | nil => exact absurd rfl hne
  | cons s texts ih =>
    have hlen : (r.strcat s.bytes).strlen 0 = r.strlen 0 + s.length := r.strlen_strcat s.nonzero
    have htop' : (r.strcat s.bytes).top = r.strlen 0 + s.length + 1 := by
      rw [top_strcat]
      exact Nat.max_eq_right (htop.trans (Nat.succ_le_succ (Nat.le_add_right _ _)))
    rw [strcats_cons, CText.concat_cons, CText.length_append, ← Nat.add_assoc, ← hlen]
    cases texts with
    | nil =>
      rw [strcats_nil, htop', hlen]
      rfl
    | cons t texts => exact ih _ (by rw [hlen, htop']) (List.cons_ne_nil t texts)

namespace CText

example : (lit "0x" ++ hex 0x1f01ff).bytes = ascii "0x1f01ff" := by decide

example : (signed (-42)).bytes = ascii "-42" := by decide

end CText
end BsitLabs
