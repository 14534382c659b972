import BsitLabs.Foundation.ByteBuffer
import Mathlib.Data.Nat.Basic
import Mathlib.Tactic.Common

/-!
# Copying byte by byte

`memcpy` copies one byte after another, and in which order is its own affair, since its two
ranges must not overlap.  Where it stores to no byte before it has read it, this is a copy
through a temporary buffer (`memcpy_eq_moveWithin`).

* `CopyCall` --- the arguments of a call, and what they must be;
* `CopyCall.pairwise_ne` --- then every order will do;
* `Memcpy.pairwise_ascending`, `Memcpy.pairwise_descending` --- the order that will do where a
  block moves down, and where it moves up, even if the ranges overlap;
* `get_memcpy_ascending_up`, `get_memcpy_descending_down` --- what the other order makes of a
  block that moves by one: a single byte, over and over.
-/

namespace BsitLabs

/-- `memcpy(buf + dst, buf + src, count)` in an array of `size` bytes. -/
structure CopyCall where
  size : ℕ
  dst : ℕ
  src : ℕ
  count : ℕ
  deriving DecidableEq, Repr

namespace CopyCall

/-- Nothing is read or stored outside of the array. -/
def Inside (c : CopyCall) : Prop := c.dst + c.count ≤ c.size ∧ c.src + c.count ≤ c.size

/-- The two ranges do not overlap. -/
def Disjoint (c : CopyCall) : Prop := c.dst + c.count ≤ c.src ∨ c.src + c.count ≤ c.dst

instance (c : CopyCall) : Decidable c.Inside := inferInstanceAs (Decidable (_ ∧ _))

instance (c : CopyCall) : Decidable c.Disjoint := inferInstanceAs (Decidable (_ ∨ _))

/-- Ranges one apart do not overlap where there is one byte at most. -/
theorem disjoint_iff_of_succ {c : CopyCall} (h : c.dst = c.src + 1 ∨ c.src = c.dst + 1) :
    c.Disjoint ↔ c.count ≤ 1 := by
  unfold Disjoint
  omega

theorem pairwise_ne {c : CopyCall} (h : c.Disjoint) {order : List ℕ}
    (horder : ∀ i ∈ order, i < c.count) :
    order.Pairwise fun i j => c.dst + i ≠ c.src + j := by
  refine List.pairwise_of_forall_mem_list fun i hi j hj => ?_
  have hi' := horder i hi
  have hj' := horder j hj
  unfold Disjoint at h
  omega

end CopyCall

/-- A `memcpy`: the order in which it copies so many bytes.  Every byte has its turn. -/
structure Memcpy where
  order : ℕ → List ℕ
  mem_order : ∀ {count i}, i ∈ order count ↔ i < count

namespace Memcpy

/-- From the first byte to the last. -/
def ascending : Memcpy := ⟨List.range, List.mem_range⟩

/-- From the last byte to the first. -/
def descending : Memcpy where
  order count := (List.range count).reverse
  mem_order := List.mem_reverse.trans List.mem_range

theorem ascending_succ (count : ℕ) :
    ascending.order (count + 1) = ascending.order count ++ [count] := List.range_succ

theorem descending_succ (count : ℕ) :
    descending.order (count + 1) = count :: descending.order count := by
  show (List.range (count + 1)).reverse = _
  rw [List.range_succ, List.reverse_concat]
  rfl

/-- Downwards, a byte is stored to after it has been read. -/
theorem pairwise_ascending {dst src : ℕ} (h : dst ≤ src) (count : ℕ) :
    (ascending.order count).Pairwise fun i j => dst + i ≠ src + j :=
  List.pairwise_lt_range.imp fun hlt => by omega

/-- Upwards, if the last comes first. -/
theorem pairwise_descending {dst src : ℕ} (h : src ≤ dst) (count : ℕ) :
    (descending.order count).Pairwise fun i j => dst + i ≠ src + j :=
  List.pairwise_reverse.mpr (List.pairwise_lt_range.imp fun hlt => by omega)

end Memcpy

namespace Buffer

variable {n : ℕ}

/-- `buf[i]`, also where this lies behind the array. -/
def read (b : Buffer n) (behind : List UInt8) (i : ℕ) : UInt8 := (b.bytes ++ behind).getD i 0

/-- `buf[dst + i] = buf[src + i]`, for these `i` one after another. -/
def copyInOrder (b : Buffer n) (behind : List UInt8) (dst src : ℕ) (order : List ℕ) : Buffer n :=
  order.foldl (fun b i => b.set (dst + i) (b.read behind (src + i))) b

/-- `memcpy(buf + dst, buf + src, count)`. -/
def memcpy (m : Memcpy) (b : Buffer n) (behind : List UInt8) (dst src count : ℕ) : Buffer n :=
  b.copyInOrder behind dst src (m.order count)

variable (b : Buffer n) (behind : List UInt8)

/-! ## One byte -/

theorem read_of_lt {i : ℕ} (h : i < n) : b.read behind i = b.get i :=
  List.getD_append _ _ _ _ (by simpa using h)

theorem read_set {i : ℕ} (hi : i < n) (v : UInt8) (j : ℕ) :
    (b.set i v).read behind j = if i = j then v else b.read behind j := by
  rcases Nat.lt_or_ge j n with hlt | hge
  · rw [read_of_lt _ _ hlt, read_of_lt _ _ hlt, get_set _ hi]
  · rw [if_neg (by omega), read, read, List.getD_append_right _ _ _ _ (by simpa using hge),
      List.getD_append_right _ _ _ _ (by simpa using hge), length_bytes, length_bytes]

/-- Buffers with the same bytes are the same. -/
theorem ext_get {b c : Buffer n} (h : ∀ i, i < n → b.get i = c.get i) : b = c := by
  obtain ⟨bytes, hbytes⟩ := b
  obtain ⟨bytes', hbytes'⟩ := c
  congr 1
  refine List.ext_getElem (hbytes.trans hbytes'.symm) fun i hi hi' => ?_
  have hget := h i (hbytes ▸ hi)
  rwa [get_of_lt _ hi, get_of_lt _ hi'] at hget

/-! ## All of them -/

variable {dst src count : ℕ}

theorem copyInOrder_cons (i : ℕ) (order : List ℕ) :
    b.copyInOrder behind dst src (i :: order) =
      (b.set (dst + i) (b.read behind (src + i))).copyInOrder behind dst src order := rfl

theorem copyInOrder_singleton (i : ℕ) :
    b.copyInOrder behind dst src [i] = b.set (dst + i) (b.read behind (src + i)) := rfl

theorem copyInOrder_append (order order' : List ℕ) :
    b.copyInOrder behind dst src (order ++ order') =
      (b.copyInOrder behind dst src order).copyInOrder behind dst src order' :=
  List.foldl_append

/-- If no byte is stored to before it is read, then what is stored is what was there at the
beginning: by induction on the order. -/
theorem get_copyInOrder {order : List ℕ} (hfit : ∀ i ∈ order, dst + i < n)
    (hsafe : order.Pairwise fun i j => dst + i ≠ src + j) (p : ℕ) :
    (b.copyInOrder behind dst src order).get p =
      if dst ≤ p ∧ p - dst ∈ order then b.read behind (src + (p - dst)) else b.get p := by
  induction order generalizing b with
  | nil => rw [if_neg fun h => List.not_mem_nil h.2, copyInOrder, List.foldl_nil]
  | cons i order ih =>
    obtain ⟨hi, hfit⟩ := List.forall_mem_cons.mp hfit
    obtain ⟨hfirst, hsafe⟩ := List.pairwise_cons.mp hsafe
    rw [copyInOrder_cons, ih _ hfit hsafe, get_set _ hi]
    by_cases hlater : dst ≤ p ∧ p - dst ∈ order
    · rw [if_pos hlater, if_pos ⟨hlater.1, List.mem_cons_of_mem _ hlater.2⟩, read_set _ _ hi,
        if_neg (hfirst _ hlater.2)]
    · rw [if_neg hlater]
      by_cases hnow : dst + i = p
      · rw [if_pos hnow, if_pos ⟨by omega, List.mem_cons.mpr (.inl (by omega))⟩,
          show p - dst = i by omega]
      · rw [if_neg hnow, if_neg]
        rintro ⟨hle, hmem⟩
        rcases List.mem_cons.mp hmem with heq | hmem
        · omega
        · exact hlater ⟨hle, hmem⟩

theorem get_moveWithin (hfit : dst + count ≤ n) (hsrc : src + count ≤ n + behind.length) (p : ℕ) :
    (b.moveWithin behind dst src count).get p =
      if dst ≤ p ∧ p < dst + count then b.read behind (src + (p - dst)) else b.get p := by
  have hlen : (((b.bytes ++ behind).drop src).take count).length = count := by
    rw [List.length_take, List.length_drop, List.length_append, length_bytes]
    omega
  rw [moveWithin, get_write _ (by rw [hlen]; exact hfit), hlen]
  refine ite_congr rfl (fun h => ?_) fun _ => rfl
  rw [read, List.getD_eq_getElem?_getD, List.getElem?_take_of_lt (by omega), List.getElem?_drop,
    List.getD_eq_getElem?_getD]

/-- **A `memcpy` copies as if through a temporary buffer** if it stores to no byte before it has
read it. -/
theorem memcpy_eq_moveWithin {m : Memcpy} (hfit : dst + count ≤ n)
    (hsrc : src + count ≤ n + behind.length)
    (hsafe : (m.order count).Pairwise fun i j => dst + i ≠ src + j) :
    b.memcpy m behind dst src count = b.moveWithin behind dst src count := by
  refine ext_get fun p _ => ?_
  rw [memcpy, get_copyInOrder b behind (fun i hi => ?_) hsafe, get_moveWithin b behind hfit hsrc]
  · refine if_congr (and_congr_right fun hle => ?_) rfl rfl
    rw [m.mem_order]
    omega
  · have hlt := m.mem_order.mp hi
    omega

/-! ## The other order -/

/-- From the first byte to the last, a block that moves up by one becomes its first byte. -/
theorem get_memcpy_ascending_up (hfit : count < n) (p : ℕ) :
    (b.memcpy .ascending behind 1 0 count).get p =
      if p ≤ count then b.get 0 else b.get p := by
  induction count generalizing p with
  | zero =>
    by_cases hp : p ≤ 0
    · rw [if_pos hp, Nat.le_zero.mp hp]
      rfl
    · rw [if_neg hp]
      rfl
  | succ count ih =>
    rw [memcpy, Memcpy.ascending_succ, copyInOrder_append, copyInOrder_singleton, ← memcpy,
      get_set _ (by omega), Nat.zero_add, read_of_lt _ _ (by omega), ih (by omega), ih (by omega),
      if_pos le_rfl]
    by_cases hlast : 1 + count = p
    · rw [if_pos hlast, if_pos (by omega)]
    · rw [if_neg hlast]
      exact if_congr (by omega) rfl rfl

/-- From the last byte to the first, a block that moves down by one becomes the byte behind
it. -/
theorem get_memcpy_descending_down (hfit : count ≤ n) (p : ℕ) :
    (b.memcpy .descending behind 0 1 count).get p =
      if p < count then b.read behind count else b.get p := by
  induction count generalizing b with
  | zero => exact (if_neg (Nat.not_lt_zero p)).symm
  | succ count ih =>
    rw [memcpy, Memcpy.descending_succ, copyInOrder_cons, ← memcpy, ih _ (by omega), Nat.zero_add,
      Nat.add_comm 1 count, get_set _ (by omega), read_set _ _ (by omega), if_pos rfl]
    by_cases hlast : count = p
    · rw [if_pos hlast, if_neg (by omega), if_pos (by omega)]
    · rw [if_neg hlast]
      exact if_congr (by omega) rfl rfl

/-- A block of one byte, over and over. -/
theorem slice_eq_replicate {off : ℕ} {v : UInt8} (hfit : off + count ≤ n)
    (h : ∀ p, off ≤ p → p < off + count → b.get p = v) :
    b.slice off count = List.replicate count v := by
  induction count generalizing off with
  | zero => exact b.slice_count_zero off
  | succ count ih =>
    rw [b.slice_succ (by omega), h off le_rfl (by omega), List.replicate_succ,
      ih (by omega) fun p hp hlt => h p (by omega) (by omega)]

end Buffer
end BsitLabs
