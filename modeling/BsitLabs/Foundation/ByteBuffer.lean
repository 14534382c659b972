import Mathlib.Data.List.Basic
import Mathlib.Data.List.GetD

/-!
# Fixed-size byte arrays

A `Buffer n` is a C array `char buf[n]`: a list of bytes that carries its length,
so an array of the wrong size cannot be built.  The operations are those of the
C library on such an array:

* `get`, `set` --- reading and writing one element;
* `slice` --- the bytes `buf[off .. off + count)`;
* `write` --- storing a block of bytes at an offset, as `memcpy` from another
  object or a completed receive does;
* `moveWithin` --- `memcpy` whose source lies in the same object, taken to copy
  as if through a temporary buffer; what lies behind the array in memory is an
  argument, so a copy that reads past the end has a value;
* `zero` --- the array after `memset(buf, 0, n)`.

Stores past the end of the array are dropped: what such a store does to the
objects behind it is not part of a buffer.
-/

namespace BsitLabs

/-- A C array of `n` bytes. -/
structure Buffer (n : ℕ) where
  /-- The bytes, in order of address. -/
  bytes : List UInt8
  /-- There are `n` of them. -/
  length_bytes : bytes.length = n
  deriving DecidableEq

namespace Buffer

variable {n : ℕ}

attribute [simp] length_bytes

/-- `memset(buf, 0, n)`. -/
def zero (n : ℕ) : Buffer n := ⟨List.replicate n 0, List.length_replicate⟩

/-- `buf[i]`; zero past the end. -/
def get (b : Buffer n) (i : ℕ) : UInt8 := b.bytes.getD i 0

/-- `buf[i] = v`. -/
def set (b : Buffer n) (i : ℕ) (v : UInt8) : Buffer n :=
  ⟨b.bytes.set i v, by simp⟩

/-- The bytes `buf[off .. off + count)`, as far as they lie in the array. -/
def slice (b : Buffer n) (off count : ℕ) : List UInt8 := (b.bytes.drop off).take count

/-- A block of bytes stored at `buf + off`. -/
def write (b : Buffer n) (off : ℕ) (data : List UInt8) : Buffer n where
  bytes := b.bytes.take off ++ data.take (n - off) ++ b.bytes.drop (off + data.length)
  length_bytes := by
    simp only [List.length_append, List.length_take, List.length_drop, length_bytes]
    omega

/-- `memcpy(buf + dst, buf + src, count)` through a temporary buffer; `behind` is
what lies behind the array. -/
def moveWithin (b : Buffer n) (behind : List UInt8) (dst src count : ℕ) : Buffer n :=
  b.write dst (((b.bytes ++ behind).drop src).take count)

/-! ## One element at a time -/

theorem get_of_lt (b : Buffer n) {i : ℕ} (h : i < b.bytes.length) : b.get i = b.bytes[i] :=
  List.getD_eq_getElem _ _ _

@[simp] theorem get_zero (i : ℕ) : (zero n).get i = 0 := by
  unfold get zero
  by_cases h : i < n
  · simp [List.getD_eq_getElem?_getD, h]
  · simp [List.getD_eq_getElem?_getD, h]

theorem get_set (b : Buffer n) {i : ℕ} (hi : i < n) (j : ℕ) (v : UInt8) :
    (b.set i v).get j = if i = j then v else b.get j := by
  unfold get set
  by_cases h : i = j
  · subst h
    simp [List.getD_eq_getElem?_getD, hi]
  · simp [List.getD_eq_getElem?_getD, List.getElem?_set_ne h, h]

/-- Reading after a block store: the block where it lies, the old bytes elsewhere. -/
theorem get_write (b : Buffer n) {off : ℕ} {data : List UInt8} (hfit : off + data.length ≤ n)
    (i : ℕ) :
    (b.write off data).get i =
      if off ≤ i ∧ i < off + data.length then data.getD (i - off) 0 else b.get i := by
  have hoff : off ≤ b.bytes.length := by simp; omega
  have hdata : data.take (n - off) = data := List.take_of_length_le (by omega)
  unfold get write
  simp only [hdata, List.getD_eq_getElem?_getD]
  rcases Nat.lt_or_ge i off with hlt | hge
  · rw [List.append_assoc, List.getElem?_append_left (by simp; omega),
      List.getElem?_take_of_lt hlt, if_neg (by omega)]
  · rcases Nat.lt_or_ge i (off + data.length) with hin | hout
    · rw [List.getElem?_append_left (by simp; omega),
        List.getElem?_append_right (by simp; omega), if_pos ⟨hge, hin⟩]
      simp [Nat.min_eq_left (show off ≤ n by omega)]
    · rw [List.getElem?_append_right (by simp; omega), if_neg (by omega), List.getElem?_drop]
      congr 2
      simp only [List.length_append, List.length_take, length_bytes]
      omega

/-! ## Blocks -/

theorem length_slice (b : Buffer n) {off count : ℕ} (h : off + count ≤ n) :
    (b.slice off count).length = count := by
  simp only [slice, List.length_take, List.length_drop, length_bytes]
  omega

theorem length_slice_le (b : Buffer n) (off count : ℕ) : (b.slice off count).length ≤ count := by
  simp only [slice, List.length_take]
  omega

@[simp] theorem slice_count_zero (b : Buffer n) (off : ℕ) : b.slice off 0 = [] := by
  simp [slice]

/-- Two adjacent blocks are one. -/
theorem slice_append_slice (b : Buffer n) (off k m : ℕ) :
    b.slice off k ++ b.slice (off + k) m = b.slice off (k + m) := by
  unfold slice
  rw [List.take_add, List.drop_drop]

/-- A stored block reads back. -/
theorem slice_write (b : Buffer n) {off count : ℕ} {data : List UInt8}
    (hcount : data.length = count) (hfit : off + count ≤ n) :
    (b.write off data).slice off count = data := by
  subst hcount
  have hdata : data.take (n - off) = data := List.take_of_length_le (by omega)
  have hlen : (b.bytes.take off).length = off := by simp; omega
  unfold slice write
  simp only [hdata]
  rw [List.append_assoc, List.drop_left' hlen, List.take_left' rfl]

/-- The first element heads a nonempty block at the start. -/
theorem head?_slice_zero (b : Buffer n) {count : ℕ} (hn : 0 < n) (hc : 0 < count) :
    (b.slice 0 count).head? = some (b.get 0) := by
  unfold slice
  rw [List.drop_zero, List.head?_take, if_neg (by omega), List.head?_eq_getElem?,
    get_of_lt b (by simpa using hn), List.getElem?_eq_getElem (by simpa using hn)]

/-- The first element after a nonempty store at the start. -/
theorem get_zero_write_cons (b : Buffer n) (hn : 0 < n) (x : UInt8) (xs : List UInt8) :
    (b.write 0 (x :: xs)).get 0 = x := by
  obtain ⟨m, rfl⟩ : ∃ m, n = m + 1 := ⟨n - 1, by omega⟩
  simp [write, get]

/-! ## Moving within one array -/

/-- The beginning of a block stored at the start. -/
theorem slice_write_zero (b : Buffer n) {count : ℕ} {data : List UInt8}
    (hcount : count ≤ data.length) (hn : count ≤ n) :
    (b.write 0 data).slice 0 count = data.take count := by
  unfold slice write
  simp only [List.take_zero, List.nil_append, List.drop_zero, Nat.sub_zero]
  rw [List.take_append_of_le_length (by rw [List.length_take]; omega), List.take_take,
    Nat.min_eq_left hn]

/-- Shifting down by one: each byte is the one that stood one further, as long as
that lay in the array. -/
theorem slice_moveWithin_down (b : Buffer n) (behind : List UInt8) {count k : ℕ}
    (hk : k ≤ count) (hn : k < n) :
    (b.moveWithin behind 0 1 count).slice 0 k = b.slice 1 k := by
  have hlen : k ≤ (((b.bytes ++ behind).drop 1).take count).length := by
    simp only [List.length_take, List.length_drop, List.length_append, length_bytes]
    omega
  unfold moveWithin
  rw [slice_write_zero b hlen (by omega), List.take_take, Nat.min_eq_left hk]
  unfold slice
  rw [List.drop_append_of_le_length (by simp; omega),
    List.take_append_of_le_length (by simp; omega)]

/-- Shifting up by one leaves the old bytes one further. -/
theorem slice_moveWithin_up (b : Buffer n) (behind : List UInt8) {count : ℕ}
    (h : count < n) : (b.moveWithin behind 1 0 count).slice 1 count = b.slice 0 count := by
  have hsrc : ((b.bytes ++ behind).drop 0).take count = b.slice 0 count := by
    unfold slice
    rw [List.drop_zero, List.drop_zero, List.take_append_of_le_length (by simp; omega)]
  have hlen : (b.slice 0 count).length = count := b.length_slice (by omega)
  unfold moveWithin
  rw [hsrc, slice_write b hlen (by omega)]

/-- Setting the element before a block leaves the block. -/
theorem slice_set_of_lt (b : Buffer n) {i off : ℕ} (h : i < off) (v : UInt8) (count : ℕ) :
    (b.set i v).slice off count = b.slice off count := by
  unfold slice set
  rw [List.drop_set_of_lt h]

/-- Setting an element past a block leaves the block. -/
theorem slice_set_of_le (b : Buffer n) {i off count : ℕ} (h : off + count ≤ i) (v : UInt8) :
    (b.set i v).slice off count = b.slice off count := by
  unfold slice set
  rw [List.drop_set, if_neg (by omega), List.take_set_of_le (by omega)]

/-- A block that begins with a given element. -/
theorem slice_succ (b : Buffer n) {off count : ℕ} (h : off < n) :
    b.slice off (count + 1) = b.get off :: b.slice (off + 1) count := by
  unfold slice
  rw [List.drop_eq_getElem_cons (by simpa using h), List.take_succ_cons,
    get_of_lt b (by simpa using h)]

end Buffer
end BsitLabs
