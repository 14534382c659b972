import Mathlib.Data.List.GetD
import Mathlib.Data.List.TakeWhile
import Mathlib.Tactic.Common

/-!
# An array and the memory behind it

A C function that is given a pointer does not see how long the array behind it is.
A `Region` is what such a pointer reaches: the element at every offset, whether it
still lies in the array or not, and `top`, one past the highest offset stored to so
far.  That a function stays inside an array of `n` elements is then `top ≤ n`, and is
a statement about the function rather than an assumption built into its model.

The memory ends somewhere, and reads as zero from there on (`extent`), so that a
search for a terminating zero ends.

* `blit` --- the one store that all others are: `count` elements from an offset on;
* `set`, `write`, `strcpy`, `strcat`, `strncpy` --- the stores of C and of its library;
* `cString`, `strlen` --- the string that begins at an offset, and its length.
-/

namespace BsitLabs

universe u

/-- What a pointer reaches. -/
structure Region (α : Type u) [Zero α] where
  /-- The element at each offset. -/
  get : ℕ → α
  /-- Where the memory ends. -/
  extent : ℕ
  /-- There is nothing from there on. -/
  get_of_le : ∀ i, extent ≤ i → get i = 0
  /-- One past the highest offset stored to. -/
  top : ℕ

namespace Region

variable {α : Type u} [Zero α]

/-- Memory that holds these elements from the pointer on, and zeros behind them. -/
def ofList (data : List α) : Region α where
  get i := data.getD i 0
  extent := data.length
  get_of_le _ h := List.getD_eq_default _ _ h
  top := 0

/-- Store `f 0, .., f (count - 1)` from an offset on. -/
def blit (r : Region α) (off count : ℕ) (f : ℕ → α) : Region α where
  get i := if off ≤ i ∧ i < off + count then f (i - off) else r.get i
  extent := max r.extent (off + count)
  get_of_le i h := by
    rw [if_neg (by omega)]
    exact r.get_of_le i (by omega)
  top := if count = 0 then r.top else max r.top (off + count)

/-- `p[i] = v`. -/
def set (r : Region α) (i : ℕ) (v : α) : Region α := r.blit i 1 fun _ => v

/-- `memcpy(p + off, data, n)` from another object. -/
def write (r : Region α) (off : ℕ) (data : List α) : Region α :=
  r.blit off data.length fun j => data.getD j 0

/-- `strcpy(p + off, s)`. -/
def strcpy (r : Region α) (off : ℕ) (s : List α) : Region α := r.write off (s ++ [0])

/-- `strncpy(p + off, s, count)`: what is left of `count` is filled with zeros. -/
def strncpy (r : Region α) (off : ℕ) (s : List α) (count : ℕ) : Region α :=
  r.blit off count fun j => s.getD j 0

/-! ## Stores -/

theorem get_blit (r : Region α) (off count : ℕ) (f : ℕ → α) (i : ℕ) :
    (r.blit off count f).get i = if off ≤ i ∧ i < off + count then f (i - off) else r.get i := rfl

theorem top_blit (r : Region α) (off count : ℕ) (f : ℕ → α) :
    (r.blit off count f).top = if count = 0 then r.top else max r.top (off + count) := rfl

theorem get_set (r : Region α) (i : ℕ) (v : α) (j : ℕ) :
    (r.set i v).get j = if j = i then v else r.get j := by
  rw [set, get_blit]
  by_cases h : j = i
  · rw [if_pos (by omega), if_pos h]
  · rw [if_neg (by omega), if_neg h]

@[simp] theorem top_set (r : Region α) (i : ℕ) (v : α) :
    (r.set i v).top = max r.top (i + 1) := rfl

theorem get_write (r : Region α) (off : ℕ) (data : List α) (i : ℕ) :
    (r.write off data).get i =
      if off ≤ i ∧ i < off + data.length then data.getD (i - off) 0 else r.get i := rfl

theorem get_write_of_lt (r : Region α) {off : ℕ} (data : List α) {i : ℕ} (h : i < off) :
    (r.write off data).get i = r.get i := by
  rw [get_write, if_neg (by omega)]

theorem get_write_of_le (r : Region α) {off : ℕ} {data : List α} {i : ℕ}
    (h : off + data.length ≤ i) : (r.write off data).get i = r.get i := by
  rw [get_write, if_neg (by omega)]

theorem get_write_add (r : Region α) (off : ℕ) (data : List α) {j : ℕ} (h : j < data.length) :
    (r.write off data).get (off + j) = data[j] := by
  rw [get_write, if_pos (by omega), Nat.add_sub_cancel_left, List.getD_eq_getElem _ _ h]

theorem top_write (r : Region α) (off : ℕ) (data : List α) :
    (r.write off data).top =
      if data.length = 0 then r.top else max r.top (off + data.length) := rfl

theorem top_write_of_ne_nil (r : Region α) (off : ℕ) {data : List α} (h : data ≠ []) :
    (r.write off data).top = max r.top (off + data.length) := by
  rw [top_write, if_neg (by simpa using h)]

@[simp] theorem top_strcpy (r : Region α) (off : ℕ) (s : List α) :
    (r.strcpy off s).top = max r.top (off + s.length + 1) := by
  rw [strcpy, top_write_of_ne_nil _ _ (by simp), List.length_append, List.length_singleton,
    Nat.add_assoc]

theorem get_strcpy_of_lt (r : Region α) {off : ℕ} (s : List α) {i : ℕ} (h : i < off) :
    (r.strcpy off s).get i = r.get i := get_write_of_lt r _ h

theorem get_strcpy_add (r : Region α) (off : ℕ) (s : List α) {j : ℕ} (h : j < s.length) :
    (r.strcpy off s).get (off + j) = s[j] := by
  rw [strcpy, get_write_add _ _ _ (by rw [List.length_append]; omega),
    List.getElem_append_left h]

/-- The terminator. -/
theorem get_strcpy_end (r : Region α) (off : ℕ) (s : List α) :
    (r.strcpy off s).get (off + s.length) = 0 := by
  rw [strcpy, get_write_add _ _ _ (by rw [List.length_append]; simp)]
  simp

/-- An empty string is its terminator. -/
theorem get_strcpy_nil (r : Region α) (off : ℕ) : (r.strcpy off []).get = (r.set off 0).get := by
  ext1 i
  rw [strcpy, List.nil_append, get_write, get_set, List.length_singleton]
  by_cases h : i = off
  · rw [if_pos (by omega), if_pos h, h, Nat.sub_self, List.getD_cons_zero]
  · rw [if_neg (by omega), if_neg h]

/-- A string can be stored after its first element. -/
theorem get_strcpy_cons (r : Region α) (off : ℕ) (x : α) (s : List α) :
    (r.strcpy off (x :: s)).get = ((r.set off x).strcpy (off + 1) s).get := by
  ext1 i
  rw [strcpy, strcpy, List.cons_append, get_write, get_write, get_set, List.length_cons]
  rcases Nat.lt_trichotomy i off with h | rfl | h
  · rw [if_neg (by omega), if_neg (by omega), if_neg (by omega)]
  · rw [if_pos (by omega), if_neg (by omega), if_pos rfl, Nat.sub_self, List.getD_cons_zero]
  · obtain ⟨j, rfl⟩ := Nat.exists_eq_add_of_le (Nat.succ_le_of_lt h)
    rw [Nat.succ_eq_add_one, Nat.add_sub_cancel_left, Nat.add_assoc off,
      Nat.add_sub_cancel_left, Nat.add_comm 1 j, List.getD_cons_succ]
    by_cases hj : j < (s ++ [0]).length
    · rw [if_pos (by omega), if_pos (by omega)]
    · rw [if_neg (by omega), if_neg (by omega), if_neg (by omega)]

/-! ## What stands at the start -/

/-- The memory begins with these elements. -/
def Begins (r : Region α) (data : List α) : Prop :=
  ∀ j (h : j < data.length), r.get j = data[j]

theorem begins_nil (r : Region α) : r.Begins [] := fun _ h => absurd h (Nat.not_lt_zero _)

namespace Begins

variable {r : Region α} {data : List α}

theorem getD (h : r.Begins data) {i : ℕ} (hi : i < data.length) : r.get i = data.getD i 0 := by
  rw [h i hi, List.getD_eq_getElem _ _ hi]

theorem of_append {more : List α} (h : r.Begins (data ++ more)) : r.Begins data := fun j hj => by
  rw [h j (by rw [List.length_append]; omega), List.getElem_append_left hj]

/-- Stored behind what stands there, a block continues it. -/
theorem write (h : r.Begins data) (more : List α) :
    (r.write data.length more).Begins (data ++ more) := fun j hj => by
  rw [List.length_append] at hj
  rcases Nat.lt_or_ge j data.length with hlt | hge
  · rw [get_write_of_lt _ _ hlt, List.getElem_append_left hlt, h j hlt]
  · obtain ⟨m, rfl⟩ := Nat.exists_eq_add_of_le hge
    rw [get_write_add _ _ _ (by omega), List.getElem_append_right hge]
    congr 1
    omega

theorem strcpy (h : r.Begins data) (more : List α) :
    (r.strcpy data.length more).Begins (data ++ more) := by
  have hwrite := h.write (more ++ [0])
  rw [← List.append_assoc] at hwrite
  exact hwrite.of_append

theorem set (h : r.Begins data) (v : α) : (r.set data.length v).Begins (data ++ [v]) :=
  fun j hj => by
    rw [get_set, List.getElem_append]
    split
    · next hlast => rw [dif_neg (by omega), List.getElem_singleton]
    · next hne =>
      rw [List.length_append, List.length_singleton] at hj
      rw [dif_pos (by omega), h j (by omega)]

end Begins

/-! ## Strings -/

section Strings

variable [DecidableEq α]

/-- `strlen(p + k)`: how far it is to the first zero. -/
def strlen (r : Region α) (k : ℕ) : ℕ :=
  (List.range (r.extent - k)).findIdx fun j => r.get (k + j) = 0

/-- The string at an offset: what stands there, up to the first zero. -/
def cString (r : Region α) (k : ℕ) : List α :=
  (List.range (r.strlen k)).map fun j => r.get (k + j)

/-- `strcat(p, s)`. -/
def strcat (r : Region α) (s : List α) : Region α := r.strcpy (r.strlen 0) s

theorem get_ne_zero_of_lt_strlen (r : Region α) (k : ℕ) {j : ℕ} (h : j < r.strlen k) :
    r.get (k + j) ≠ 0 := by
  have hne := List.not_of_lt_findIdx h
  simpa using hne

@[simp] theorem get_add_strlen (r : Region α) (k : ℕ) : r.get (k + r.strlen k) = 0 := by
  rcases Nat.lt_or_ge (r.strlen k) (r.extent - k) with h | h
  · have hlt : ((List.range (r.extent - k)).findIdx fun j => decide (r.get (k + j) = 0)) <
        (List.range (r.extent - k)).length := by rwa [List.length_range]
    have hzero := List.findIdx_getElem (w := hlt)
    simpa [strlen] using hzero
  · exact r.get_of_le _ (by omega)

/-- A zero ends the string. -/
theorem strlen_le_of_get (r : Region α) {k m : ℕ} (h : r.get (k + m) = 0) : r.strlen k ≤ m := by
  by_contra hlt
  exact r.get_ne_zero_of_lt_strlen k (Nat.lt_of_not_le hlt) h

/-- **What `strlen` is**: the distance of the first zero. -/
theorem strlen_eq_iff (r : Region α) {k m : ℕ} :
    r.strlen k = m ↔ r.get (k + m) = 0 ∧ ∀ j, j < m → r.get (k + j) ≠ 0 := by
  constructor
  · rintro rfl
    exact ⟨r.get_add_strlen k, fun j hj => r.get_ne_zero_of_lt_strlen k hj⟩
  · rintro ⟨hzero, hne⟩
    have hle := r.strlen_le_of_get hzero
    have hge : m ≤ r.strlen k := by
      by_contra hlt
      exact hne _ (Nat.lt_of_not_le hlt) (r.get_add_strlen k)
    omega

/-- A string ends where the memory does. -/
theorem add_strlen_le (r : Region α) (k : ℕ) : k + r.strlen k ≤ max k r.extent := by
  have hle : r.strlen k ≤ r.extent - k := by
    refine r.strlen_le_of_get (r.get_of_le _ ?_)
    omega
  omega

/-- Memory that agrees up to the terminator has the same string. -/
theorem strlen_congr {r r' : Region α} {k : ℕ}
    (h : ∀ j, j ≤ r.strlen k → r'.get (k + j) = r.get (k + j)) : r'.strlen k = r.strlen k := by
  refine r'.strlen_eq_iff.mpr ⟨?_, fun j hj => ?_⟩
  · rw [h _ (Nat.le_refl _), r.get_add_strlen]
  · rw [h j (Nat.le_of_lt hj)]
    exact r.get_ne_zero_of_lt_strlen k hj

@[simp] theorem length_cString (r : Region α) (k : ℕ) : (r.cString k).length = r.strlen k := by
  simp [cString]

theorem cString_eq_nil_iff (r : Region α) (k : ℕ) : r.cString k = [] ↔ r.get k = 0 := by
  rw [← List.length_eq_zero_iff, length_cString, r.strlen_eq_iff]
  simp

theorem getElem_cString (r : Region α) (k : ℕ) {j : ℕ} (h : j < (r.cString k).length) :
    (r.cString k)[j] = r.get (k + j) := by
  simp only [cString, List.getElem_map, List.getElem_range]

/-- Memory that agrees up to the terminator has the same string. -/
theorem cString_congr {r r' : Region α} {k : ℕ}
    (h : ∀ j, j ≤ r.strlen k → r'.get (k + j) = r.get (k + j)) : r'.cString k = r.cString k := by
  have hlen := strlen_congr h
  refine List.ext_getElem (by rw [length_cString, length_cString, hlen]) fun j h₁ h₂ => ?_
  rw [length_cString] at h₂
  rw [getElem_cString, getElem_cString, h j (Nat.le_of_lt h₂)]

theorem getD_cString_of_lt (r : Region α) {k j : ℕ} (h : j < r.strlen k) :
    (r.cString k).getD j 0 = r.get (k + j) := by
  rw [← length_cString] at h
  rw [List.getD_eq_getElem _ _ h, getElem_cString]

theorem getD_cString_of_le (r : Region α) {k j : ℕ} (h : r.strlen k ≤ j) :
    (r.cString k).getD j 0 = 0 :=
  List.getD_eq_default _ _ (by rwa [length_cString])

/-- An element of a string depends on the memory up to it. -/
theorem getD_cString_congr {r r' : Region α} {k j : ℕ}
    (h : ∀ i, i ≤ j → r'.get (k + i) = r.get (k + i)) :
    (r'.cString k).getD j 0 = (r.cString k).getD j 0 := by
  rcases Nat.lt_or_ge j (r.strlen k) with hlt | hge
  · have hlt' : j < r'.strlen k := by
      by_contra hle
      have hzero := r'.get_add_strlen k
      rw [h _ (Nat.le_of_not_lt hle)] at hzero
      exact r.get_ne_zero_of_lt_strlen k (by omega) hzero
    rw [getD_cString_of_lt _ hlt, getD_cString_of_lt _ hlt', h j (Nat.le_refl j)]
  · have hle : r'.strlen k ≤ j := by
      have hzero := r.get_add_strlen k
      rw [← h _ hge] at hzero
      exact Nat.le_trans (r'.strlen_le_of_get hzero) hge
    rw [getD_cString_of_le _ hge, getD_cString_of_le _ hle]

/-- A string is what stands there before a zero. -/
theorem cString_eq_of_get {r : Region α} {k : ℕ} {s : List α} (hs : ∀ x ∈ s, x ≠ 0)
    (hget : ∀ j, (h : j < s.length) → r.get (k + j) = s[j]) (hend : r.get (k + s.length) = 0) :
    r.cString k = s := by
  have hlen : r.strlen k = s.length := by
    refine r.strlen_eq_iff.mpr ⟨hend, fun j hj => ?_⟩
    rw [hget j hj]
    exact hs _ (List.getElem_mem hj)
  refine List.ext_getElem (by rw [length_cString, hlen]) fun j h₁ h₂ => ?_
  rw [getElem_cString, hget j h₂]

/-- What `strcpy` leaves is the string. -/
theorem cString_strcpy (r : Region α) (off : ℕ) {s : List α} (hs : ∀ x ∈ s, x ≠ 0) :
    (r.strcpy off s).cString off = s :=
  cString_eq_of_get hs (fun _ h => r.get_strcpy_add off s h) (r.get_strcpy_end off s)

omit [Zero α] in
/-- What stands before the first occurrence of an element. -/
theorem takeWhile_ne {a : α} {l : List α} (h : a ∉ l) (more : List α) :
    (l ++ a :: more).takeWhile (· ≠ a) = l := by
  have hne : ∀ x ∈ l, decide (x ≠ a) = true := fun x hx => decide_eq_true fun heq => h (heq ▸ hx)
  rw [List.takeWhile_append_of_pos hne, List.takeWhile_cons_of_neg (by simp), List.append_nil]

/-- What `strcpy` leaves of elements that may be zero is the string up to the first. -/
theorem cString_strcpy_takeWhile (r : Region α) (off : ℕ) (s : List α) :
    (r.strcpy off s).cString off = s.takeWhile (· ≠ 0) := by
  by_cases hzero : 0 ∈ s
  · obtain ⟨t, rest, rfl, ht⟩ := List.eq_append_cons_of_mem hzero
    have hne : ∀ x ∈ t, x ≠ 0 := fun x hx h => ht (h ▸ hx)
    rw [takeWhile_ne ht]
    refine cString_eq_of_get hne (fun j hj => ?_) ?_
    · rw [get_strcpy_add r off _ (by rw [List.length_append]; omega), List.getElem_append_left hj]
    · rw [get_strcpy_add r off _ (by rw [List.length_append, List.length_cons]; omega),
        List.getElem_append_right (Nat.le_refl _)]
      simp
  · have hne : ∀ x ∈ s, x ≠ 0 := fun x hx h => hzero (h ▸ hx)
    rw [List.takeWhile_eq_self_iff.mpr fun x hx => decide_eq_true (hne x hx)]
    exact cString_strcpy r off hne

theorem strlen_strcpy (r : Region α) (off : ℕ) {s : List α} (hs : ∀ x ∈ s, x ≠ 0) :
    (r.strcpy off s).strlen off = s.length := by
  rw [← length_cString, cString_strcpy r off hs]

/-- Past elements that are no terminator, the string goes on. -/
theorem strlen_add (r : Region α) {k m : ℕ} (h : ∀ j, j < m → r.get (k + j) ≠ 0) :
    r.strlen k = m + r.strlen (k + m) := by
  refine r.strlen_eq_iff.mpr ⟨?_, fun j hj => ?_⟩
  · rw [← Nat.add_assoc]
    exact r.get_add_strlen (k + m)
  · rcases Nat.lt_or_ge j m with hlt | hge
    · exact h j hlt
    · have hne := r.get_ne_zero_of_lt_strlen (k + m) (j := j - m) (by omega)
      rwa [Nat.add_assoc, Nat.add_sub_cancel' hge] at hne

/-- An element that is no terminator begins the string. -/
theorem cString_cons (r : Region α) {k : ℕ} (h : r.get k ≠ 0) :
    r.cString k = r.get k :: r.cString (k + 1) := by
  have hlen : r.strlen k = 1 + r.strlen (k + 1) := by
    refine r.strlen_add fun j hj => ?_
    obtain rfl := Nat.lt_one_iff.mp hj
    exact h
  refine List.ext_getElem ?_ fun j h₁ h₂ => ?_
  · rw [length_cString, List.length_cons, length_cString, hlen, Nat.add_comm]
  · rw [getElem_cString]
    cases j with
    | zero => rfl
    | succ j => rw [List.getElem_cons_succ, getElem_cString, Nat.add_assoc, Nat.add_comm 1 j]

/-- A string that stands in front of other memory: what is read of it is what stands before its
first zero. -/
theorem take_cString (r : Region α) {k : ℕ} {data : List α}
    (h : ∀ j, (hj : j < data.length) → r.get (k + j) = data[j]) :
    (r.cString k).take data.length = data.takeWhile (· ≠ 0) := by
  induction data generalizing k with
  | nil => rfl
  | cons x data ih =>
    have hx : r.get k = x := h 0 (Nat.zero_lt_succ _)
    have hrest : ∀ j, (hj : j < data.length) → r.get (k + 1 + j) = data[j] := fun j hj => by
      rw [Nat.add_assoc, Nat.add_comm 1 j]
      exact h (j + 1) (Nat.succ_lt_succ hj)
    by_cases hzero : x = 0
    · rw [(r.cString_eq_nil_iff k).mpr (hx.trans hzero), List.take_nil,
        List.takeWhile_cons_of_neg (by simpa using hzero)]
    · rw [r.cString_cons (hx ▸ hzero), hx, List.length_cons, List.take_succ_cons, ih hrest,
        List.takeWhile_cons_of_pos (by simpa using hzero)]

/-- A block without a zero, and then whatever stood behind it. -/
theorem strlen_write (r : Region α) (off : ℕ) {data : List α} (hs : ∀ x ∈ data, x ≠ 0) :
    (r.write off data).strlen off = data.length + r.strlen (off + data.length) := by
  rw [(r.write off data).strlen_add (m := data.length) fun j hj => by
    rw [get_write_add _ _ _ hj]
    exact hs _ (List.getElem_mem hj)]
  congr 1
  exact strlen_congr fun j _ => get_write_of_le _ (by omega)

/-- Appending a string appends it, and stores up to one past its end. -/
theorem strlen_strcat (r : Region α) {s : List α} (hs : ∀ x ∈ s, x ≠ 0) :
    (r.strcat s).strlen 0 = r.strlen 0 + s.length := by
  have hbefore : ∀ j, j < r.strlen 0 → (r.strcat s).get (0 + j) ≠ 0 := fun j hj => by
    rw [strcat, get_strcpy_of_lt _ _ (by omega)]
    exact r.get_ne_zero_of_lt_strlen 0 hj
  rw [(r.strcat s).strlen_add hbefore, Nat.zero_add, strcat, strlen_strcpy _ _ hs]

/-- What stands at the start, up to a zero behind it, is the string. -/
theorem Begins.cString {r : Region α} {s : List α} (h : r.Begins s) (hs : ∀ x ∈ s, x ≠ 0)
    (hend : r.get s.length = 0) : r.cString 0 = s :=
  cString_eq_of_get hs (fun j hj => by rw [Nat.zero_add, h j hj])
    (by rw [Nat.zero_add]; exact hend)

/-- The string is what stands at the start, up to the first zero, if it ends there. -/
theorem Begins.cString_takeWhile {r : Region α} {s : List α} (h : r.Begins s)
    (hend : r.strlen 0 ≤ s.length) : r.cString 0 = s.takeWhile (· ≠ 0) := by
  have hstored := r.get_strcpy_end 0 s
  have hzero := r.get_add_strlen 0
  rw [← cString_strcpy_takeWhile r 0 s]
  refine (cString_congr fun j hj => ?_).symm
  rw [Nat.zero_add] at hstored hzero ⊢
  rcases (hj.trans hend).eq_or_lt with rfl | hlt
  · rw [hstored, ← le_antisymm hend hj, hzero]
  · have hget := r.get_strcpy_add 0 s hlt
    rw [Nat.zero_add] at hget
    rw [hget]
    exact (h j hlt).symm

theorem begins_cString (r : Region α) : r.Begins (r.cString 0) := fun j hj => by
  rw [getElem_cString, Nat.zero_add]

/-- `strcat` appends. -/
theorem cString_strcat (r : Region α) {s : List α} (hs : ∀ x ∈ s, x ≠ 0) :
    (r.strcat s).cString 0 = r.cString 0 ++ s := by
  have hbegins := r.begins_cString.strcpy s
  have hend := r.get_strcpy_end (r.strlen 0) s
  rw [length_cString] at hbegins
  refine hbegins.cString (fun x hx => ?_) ?_
  · rcases List.mem_append.mp hx with hx | hx
    · obtain ⟨j, hj, rfl⟩ := List.mem_iff_getElem.mp hx
      rw [getElem_cString]
      exact r.get_ne_zero_of_lt_strlen 0 (by rwa [length_cString] at hj)
    · exact hs x hx
  · rw [List.length_append, length_cString]
    exact hend

@[simp] theorem top_strcat (r : Region α) (s : List α) :
    (r.strcat s).top = max r.top (r.strlen 0 + s.length + 1) := top_strcpy _ _ _

end Strings
end Region
end BsitLabs
