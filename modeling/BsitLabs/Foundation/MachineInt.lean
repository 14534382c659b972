import Mathlib.Data.Int.Basic
import Mathlib.Data.List.GetD
import Mathlib.Data.UInt

/-!
# Machine integers

C's integer types as the numbers they hold.  A 32-bit `unsigned int` is a natural
number, and its arithmetic is reduced modulo `2 ^ 32` where it is done; a value
narrowed to a signed type is the representative in the balanced range, which is
what two's complement stores.

* `uadd`, `usub` --- addition and subtraction of `unsigned int`, with wrap;
* `toInt32` --- `static_cast<int>` of a wide non-negative value;
* `schar` --- a `char` of a platform where `char` is signed, widened to `int`;
* `checked` --- the result of an operation on `int`s, if it is an `int`;
* `int32Bytes`, `int32OfBytes` --- an `int` in memory, the lowest byte first.
-/

namespace BsitLabs
namespace MachineInt

/-- Addition of `unsigned int`. -/
def uadd (a b : ℕ) : ℕ := (a + b) % 2 ^ 32

/-- Subtraction of `unsigned int`: wraps when the difference is negative. -/
def usub (a b : ℕ) : ℕ := (a + (2 ^ 32 - b % 2 ^ 32)) % 2 ^ 32

/-- `static_cast<int>` on two's complement. -/
def toInt32 (n : ℕ) : ℤ := Int.bmod n (2 ^ 32)

/-- A signed `char`, widened to `int`. -/
def schar (b : UInt8) : ℤ := if b.toNat < 128 then b.toNat else b.toNat - 256

theorem uadd_eq {a b : ℕ} (h : a + b < 2 ^ 32) : uadd a b = a + b := Nat.mod_eq_of_lt h

theorem usub_eq {a b : ℕ} (hba : b ≤ a) (ha : a < 2 ^ 32) : usub a b = a - b := by
  unfold usub
  rw [Nat.mod_eq_of_lt (show b < 2 ^ 32 by omega)]
  omega

/-- Below `2 ^ 31` narrowing loses nothing. -/
theorem toInt32_of_lt {n : ℕ} (h : n < 2 ^ 31) : toInt32 n = n := by
  unfold toInt32
  rw [Int.bmod_eq_of_le (by omega) (by omega)]

/-- A narrowed value is never larger than the value. -/
theorem toInt32_le (n : ℕ) : toInt32 n ≤ n := by
  unfold toInt32
  rw [Int.bmod_def]
  split <;> omega

theorem toInt32_lt (n : ℕ) : toInt32 n < 2 ^ 31 := by
  have hlt : Int.bmod (n : ℤ) (2 ^ 32) < ((2 ^ 32 : ℕ) + 1) / 2 := Int.bmod_lt (by omega)
  unfold toInt32
  omega

/-- From `2 ^ 31` on the narrowed value is negative. -/
theorem toInt32_of_le {n : ℕ} (h : 2 ^ 31 ≤ n) (hn : n < 2 ^ 32) : toInt32 n = n - 2 ^ 32 := by
  unfold toInt32
  rw [Int.bmod_def]
  split <;> omega

theorem le_toInt32 (n : ℕ) : -2 ^ 31 ≤ toInt32 n := by
  have hle : -((2 ^ 32 : ℕ) / 2 : ℤ) ≤ Int.bmod (n : ℤ) (2 ^ 32) := Int.le_bmod (by omega)
  unfold toInt32
  omega

/-- What an operation on `int`s computes; overflow is undefined. -/
def checked (z : ℤ) : Option ℤ := if -2 ^ 31 ≤ z ∧ z < 2 ^ 31 then some z else none

theorem checked_of_le {z : ℤ} (h : -2 ^ 31 ≤ z) (h' : z < 2 ^ 31) : checked z = some z :=
  if_pos ⟨h, h'⟩

theorem schar_bounds (b : UInt8) : -128 ≤ schar b ∧ schar b ≤ 127 := by
  have hb := b.toNat_lt
  unfold schar
  split <;> omega

/-- A signed `char` is a given small positive number exactly when the byte is. -/
theorem schar_eq_iff {b : UInt8} {k : ℕ} (hk : k < 128) : schar b = k ↔ b.toNat = k := by
  have hb := b.toNat_lt
  unfold schar
  split <;> omega

/-- The bytes of an `int` in memory. -/
def int32Bytes (z : ℤ) : List UInt8 :=
  (List.range 4).map fun j => UInt8.ofNat ((z % 2 ^ 32).toNat / 256 ^ j)

/-- The `int` that four bytes are. -/
def int32OfBytes (b : ℕ → UInt8) : ℤ :=
  toInt32 ((b 0).toNat + 256 * (b 1).toNat + 256 ^ 2 * (b 2).toNat + 256 ^ 3 * (b 3).toNat)

@[simp] theorem length_int32Bytes (z : ℤ) : (int32Bytes z).length = 4 := rfl

/-- An `int` is read as it was stored. -/
theorem int32OfBytes_int32Bytes {z : ℤ} (hz : -2 ^ 31 ≤ z) (hz' : z < 2 ^ 31) {b : ℕ → UInt8}
    (hb : ∀ j, j < 4 → b j = (int32Bytes z).getD j 0) : int32OfBytes b = z := by
  obtain ⟨n, hn⟩ : ∃ n : ℕ, (z % 2 ^ 32).toNat = n := ⟨_, rfl⟩
  have hbyte : ∀ j, j < 4 → (b j).toNat = n / 256 ^ j % 256 := fun j hj => by
    rw [hb j hj, List.getD_eq_getElem _ _ (by simpa using hj)]
    simp only [int32Bytes, List.getElem_map, List.getElem_range, hn, UInt8.toNat_ofNat']
  have hsum : (b 0).toNat + 256 * (b 1).toNat + 256 ^ 2 * (b 2).toNat + 256 ^ 3 * (b 3).toNat =
      n := by
    rw [hbyte 0 (by decide), hbyte 1 (by decide), hbyte 2 (by decide), hbyte 3 (by decide)]
    omega
  rw [int32OfBytes, hsum]
  rcases Nat.lt_or_ge n (2 ^ 31) with hlt | hge
  · rw [toInt32_of_lt hlt]
    omega
  · rw [toInt32_of_le hge (by omega)]
    omega

/-- Numbers that differ by one are not narrowed to the same. -/
theorem toInt32_succ_ne (n : ℕ) : toInt32 (n + 1) ≠ toInt32 n := by
  unfold toInt32
  intro h
  rw [Int.bmod_def, Int.bmod_def] at h
  split at h <;> split at h <;> omega

end MachineInt
end BsitLabs
