import BsitLabs.Foundation.Decimal
import BsitLabs.Foundation.Loop
import BsitLabs.Foundation.MachineInt
import BsitLabs.Foundation.Region

/-!
# The question for a request

`ask_request_type` reads the number of a request with `scanf("%d%c", &request_type, &e)`
until it is one of the menu, and for the last two requests a path, character by character up
to the end of the line.  `request_type` has one byte, and `%d` stores four, so that the first
of `request_arg` are overwritten and the loop sees the lowest byte only.  A `%d` that finds no
number stores nothing and leaves what it found, so that the loop then sees what was there
before, and on the next time around finds the same again.  Neither loop notices the end of the
input, and the second does not know how long `request_arg` is.

`asked_iff` says for which inputs the question is answered all the same.

What `%d` stores of a number that no `int` holds is not defined, and is taken as it is
(`IntScan`).
-/

namespace BsitLabs
namespace Tcp

open MachineInt Loop Decimal

/-! ## `scanf` -/

/-- `isspace`. -/
def isSpace (c : UInt8) : Bool := c = 32 || (9 ≤ c && c ≤ 13)

/-- `%d`: behind white space and perhaps a sign, a number, and what is left of the input.  Where
there is no digit there is no number, and what is left begins there. -/
def scanInt (input : List UInt8) : Option ℤ × List UInt8 :=
  let rest := input.dropWhile isSpace
  let (negative, rest) :=
    match rest with
    | 43 :: rest => (false, rest)
    | 45 :: rest => (true, rest)
    | rest => (false, rest)
  let digits := rest.takeWhile isDigit
  if digits = [] then (none, rest)
  else (some (if negative then -numberOf digits else numberOf digits), rest.dropWhile isDigit)

example : scanInt [32, 45, 52, 50, 10] = (some (-42), [10]) := by decide

/-- What `%d` stores of a number: itself, if it is an `int`. -/
structure IntScan where
  stored : ℤ → ℤ
  exact : ∀ z, -2 ^ 31 ≤ z → z < 2 ^ 31 → stored z = z

/-- Every number is stored as it is. -/
def IntScan.sample : IntScan := ⟨id, fun _ _ _ => rfl⟩

/-! ## The two loops -/

/-- The client while it asks. -/
structure Asking where
  /-- The memory from `request_type` on; `request_arg` begins behind its byte. -/
  memory : Region UInt8
  /-- What is left of the input. -/
  input : List UInt8
  /-- The numbers that have been read, each with what was left of the input behind it. -/
  typed : List (ℤ × List UInt8)

namespace Asking

/-- `request_type`. -/
def requestType (a : Asking) : UInt8 := a.memory.get 0

/-- The test of the first loop, the other way round. -/
def InMenu (requestType : UInt8) : Prop := 1 ≤ requestType.toNat ∧ requestType.toNat ≤ 9

instance (b : UInt8) : Decidable (InMenu b) := inferInstanceAs (Decidable (_ ∧ _))

/-- Whether a path is asked for. -/
def takesPath (a : Asking) : Prop := a.requestType = 7 ∨ a.requestType = 8

instance (a : Asking) : Decidable a.takesPath := inferInstanceAs (Decidable (_ ∨ _))

variable (scan : IntScan)

/-- `scanf("%d%c", &request_type, &e)`: the character is read only behind a number. -/
def scanType (a : Asking) : Asking :=
  match scanInt a.input with
  | (none, rest) => { a with input := rest }
  | (some z, rest) =>
    { memory := a.memory.write 0 (int32Bytes (scan.stored z))
      input := rest.drop 1
      typed := a.typed ++ [(z, rest)] }

/-- The loop for the number. -/
def typeStep (a : Asking) : Asking ⊕ Asking :=
  let a := scanType scan a
  if InMenu a.requestType then .inr a else .inl a

/-- `scanf("%c", &request_arg[i])`. -/
def scanChar (i : ℕ) (a : Asking) : Asking :=
  match a.input with
  | [] => a
  | c :: rest => { a with memory := a.memory.set (1 + i) c, input := rest }

/-- The loop for the path. -/
def pathStep (s : ℕ × Asking) : (ℕ × Asking) ⊕ Asking :=
  let a := scanChar s.1 s.2
  if a.memory.get (1 + s.1) = 10 then .inr { a with memory := a.memory.set (1 + s.1) 0 }
  else .inl (s.1 + 1, a)

/-- `ask_request_type`, with no more than this many iterations of a loop. -/
def askRequestType (fuel : ℕ) (a : Asking) : Option (Asking × ℤ) :=
  (run (typeStep scan) fuel a).bind fun a =>
    (if a.takesPath then run pathStep fuel (0, a) else some a).map fun a =>
      (a, if a.requestType = 9 then -1 else 0)

/-! ## What is asked for -/

/-- The line that begins here. -/
def lineOf (input : List UInt8) : List UInt8 := input.takeWhile (· ≠ 10)

/-- The line behind the next end of a line. -/
def nextLine (input : List UInt8) : List UInt8 := lineOf ((input.dropWhile (· ≠ 10)).drop 1)

/-- `request_type` is one of the menu and was typed; `request_arg` is the line behind that of
the number, if it is asked for; and nothing has been stored behind `request_arg`. -/
structure Answered (a : Asking) : Prop where
  menu : InMenu a.requestType
  typed : ∃ rest, ((a.requestType.toNat : ℤ), rest) ∈ a.typed ∧
    (a.takesPath → a.memory.cString 1 = nextLine rest)
  inside : a.memory.top ≤ 1 + 128

/-- Whatever `request_arg` held before, and what lies behind it: the question returns, with an
answer. -/
def Asked (stale : UInt8) (input : List UInt8) : Prop :=
  ∀ memory : Region UInt8, memory.top = 0 → memory.get 0 = stale →
    ∃ fuel a code, askRequestType scan fuel ⟨memory, input, []⟩ = some (a, code) ∧ Answered a

/-! ## What has to be typed -/

/-- What one `scanf` leaves of the input. -/
def afterScan (input : List UInt8) : List UInt8 :=
  match scanInt input with
  | (none, rest) => rest
  | (some _, rest) => rest.drop 1

/-- What the `k`-th `scanf` finds. -/
def left : List UInt8 → ℕ → List UInt8
  | input, 0 => input
  | input, k + 1 => left (afterScan input) k

/-- The byte that `request_type` gets of a number. -/
def lowByte (z : ℤ) : UInt8 := (int32Bytes z).getD 0 0

/-- The `k`-th `scanf` reads a number of the menu, and none before it a number whose lowest
byte is one of the menu; and if `request_type` was one of the menu before, the first has read
a number. -/
structure Chosen (stale : UInt8) (input : List UInt8) (k : ℕ) (z : ℤ) (rest : List UInt8) :
    Prop where
  number : scanInt (left input k) = (some z, rest)
  menu : 1 ≤ z ∧ z ≤ 9
  before : ∀ j, j < k → ∀ z' rest', scanInt (left input j) = (some z', rest') →
    ¬ InMenu (lowByte (scan.stored z'))
  first : InMenu stale → (scanInt input).1 ≠ none

/-- One character behind the number there is a line that ends, has at most 127 characters, and
up to a zero is the line behind that of the number. -/
structure PathFollows (rest : List UInt8) : Prop where
  ends : 10 ∈ rest.drop 1
  fits : (lineOf (rest.drop 1)).length ≤ 127
  next : (lineOf (rest.drop 1)).takeWhile (· ≠ 0) = nextLine rest

/-- A number is chosen, and if it asks for a path, there is one. -/
def Understood (stale : UInt8) (input : List UInt8) : Prop :=
  ∃ k z rest, Chosen scan stale input k z rest ∧ (z = 7 ∨ z = 8 → PathFollows rest)

/-! ## The loop for the number -/

section Number

variable {scan} {a chosen : Asking} {z : ℤ} {rest : List UInt8}

theorem scanType_none (h : scanInt a.input = (none, rest)) :
    scanType scan a = { a with input := rest } := by
  rw [scanType, h]

theorem scanType_some (h : scanInt a.input = (some z, rest)) :
    scanType scan a =
      { memory := a.memory.write 0 (int32Bytes (scan.stored z))
        input := rest.drop 1
        typed := a.typed ++ [(z, rest)] } := by
  rw [scanType, h]

/-- A number that is read goes to `request_type` by its lowest byte. -/
theorem requestType_scanType (h : scanInt a.input = (some z, rest)) :
    (scanType scan a).requestType = lowByte (scan.stored z) := by
  rw [scanType_some h, requestType, Region.get_write, if_pos ⟨le_rfl, by simp⟩]
  rfl

theorem input_scanType (scan : IntScan) (a : Asking) :
    (scanType scan a).input = afterScan a.input := by
  rw [scanType, afterScan]
  rcases scanInt a.input with ⟨_ | z, rest⟩ <;> rfl

/-- A number of the menu is stored as it is. -/
theorem lowByte_stored (scan : IntScan) {b : UInt8} (h : InMenu b) :
    lowByte (scan.stored b.toNat) = b := by
  have hb := h.2
  rw [scan.exact _ (by omega) (by omega)]
  show UInt8.ofNat (((b.toNat : ℤ) % 2 ^ 32).toNat / 256 ^ 0) = b
  rw [Int.emod_eq_of_lt (by omega) (by omega), Int.toNat_natCast, pow_zero, Nat.div_one,
    UInt8.ofNat_toNat]

theorem ofNat_toNat_of_menu {z : ℤ} (h : 1 ≤ z ∧ z ≤ 9) :
    InMenu (UInt8.ofNat z.toNat) ∧ ((UInt8.ofNat z.toNat).toNat : ℤ) = z := by
  have hnat : (UInt8.ofNat z.toNat).toNat = z.toNat := by
    rw [UInt8.toNat_ofNat', Nat.mod_eq_of_lt (by omega)]
  unfold InMenu
  omega

/-- The bytes behind the first of a number of the menu are zero. -/
theorem getD_int32Bytes_of_menu {z : ℤ} (h : 1 ≤ z ∧ z ≤ 9) {j : ℕ} (hj : 1 ≤ j) :
    (int32Bytes z).getD j 0 = 0 := by
  obtain ⟨n, rfl⟩ := Int.eq_ofNat_of_zero_le (show 0 ≤ z by omega)
  have hn : n ≤ 9 := by omega
  rcases Nat.lt_or_ge j 4 with hlt | hge
  · have hpow : 256 ≤ 256 ^ j := Nat.le_self_pow (by omega) 256
    rw [List.getD_eq_getElem _ _ (by simpa using hlt)]
    simp only [int32Bytes, List.getElem_map, List.getElem_range]
    rw [Int.emod_eq_of_lt (by omega) (by omega), Int.toNat_natCast, Nat.div_eq_of_lt (by omega)]
    rfl
  · exact List.getD_eq_default _ _ (by simpa using hge)

/-- What the choice of a number leaves. -/
structure Left (a chosen : Asking) (z : ℤ) (rest : List UInt8) : Prop where
  number : (chosen.requestType.toNat : ℤ) = z
  input : chosen.input = rest.drop 1
  typed : (z, rest) ∈ chosen.typed
  clear : ∀ i, 1 ≤ i → chosen.memory.get i = if i < 4 then 0 else a.memory.get i
  top : chosen.memory.top ≤ max a.memory.top 4

/-- A number of the menu ends the loop. -/
theorem left_scanType (h : scanInt a.input = (some z, rest)) (hz : 1 ≤ z ∧ z ≤ 9) :
    InMenu (scanType scan a).requestType ∧ Left a (scanType scan a) z rest := by
  obtain ⟨hmenu, hnumber⟩ := ofNat_toNat_of_menu hz
  have hstored : scan.stored z = z := scan.exact z (by omega) (by omega)
  have htype : (scanType scan a).requestType = UInt8.ofNat z.toNat := by
    have hlow := lowByte_stored scan hmenu
    rw [hnumber] at hlow
    rw [requestType_scanType h, hlow]
  refine ⟨htype ▸ hmenu, by rw [htype]; exact hnumber, ?_, ?_, fun i hi => ?_, ?_⟩
  · rw [scanType_some h]
  · rw [scanType_some h]
    exact List.mem_append_right _ (List.mem_singleton.mpr rfl)
  · rw [scanType_some h]
    show (a.memory.write 0 (int32Bytes (scan.stored z))).get i = _
    rw [Region.get_write, length_int32Bytes, hstored, Nat.sub_zero]
    by_cases hlt : i < 4
    · rw [if_pos ⟨Nat.zero_le _, by omega⟩, if_pos hlt, getD_int32Bytes_of_menu hz hi]
    · rw [if_neg (by omega), if_neg hlt]
  · rw [scanType_some h]
    show (a.memory.write 0 (int32Bytes (scan.stored z))).top ≤ _
    rw [Region.top_write, length_int32Bytes]
    exact le_rfl

/-- What a scan that goes on leaves. -/
theorem Left.of_scanType {z' : ℤ} (h : Left (scanType scan a) chosen z' rest) :
    Left a chosen z' rest := by
  refine ⟨h.number, h.input, h.typed, fun i hi => ?_, ?_⟩
  · rw [h.clear i hi]
    rcases hscan : scanInt a.input with ⟨_ | z, rest'⟩
    · rw [scanType_none hscan]
    · rw [scanType_some hscan]
      by_cases hlt : i < 4
      · rw [if_pos hlt, if_pos hlt]
      · rw [if_neg hlt, if_neg hlt]
        exact Region.get_write_of_le _ (by rw [length_int32Bytes]; omega)
  · have htop := h.top
    rcases hscan : scanInt a.input with ⟨_ | z, rest'⟩
    · rwa [scanType_none hscan] at htop
    · rw [scanType_some hscan] at htop
      have hwrite : (a.memory.write 0 (int32Bytes (scan.stored z))).top = max a.memory.top 4 := rfl
      refine htop.trans ?_
      show max (a.memory.write 0 (int32Bytes (scan.stored z))).top 4 ≤ _
      rw [hwrite, max_assoc, max_self]

/-- A number that is chosen ends the loop. -/
theorem Chosen.returns {k : ℕ} (h : Chosen scan a.requestType a.input k z rest) :
    ∃ chosen, Returns (typeStep scan) a chosen ∧ Left a chosen z rest := by
  induction k generalizing a with
  | zero =>
    obtain ⟨hmenu, hleft⟩ : InMenu (scanType scan a).requestType ∧ _ :=
      left_scanType h.number h.menu
    exact ⟨_, .of_result (if_pos hmenu), hleft⟩
  | succ k ih =>
    have hnot : ¬ InMenu (scanType scan a).requestType := by
      rcases hscan : scanInt a.input with ⟨_ | z', rest'⟩
      · rw [scanType_none hscan]
        exact fun hstale => h.first hstale (by rw [hscan])
      · rw [requestType_scanType hscan]
        exact h.before 0 (Nat.succ_pos k) z' rest' hscan
    have hinput : ∀ j, left (scanType scan a).input j = left a.input (j + 1) := fun j => by
      rw [input_scanType, left]
    obtain ⟨chosen, hreturns, hleft⟩ := ih (a := scanType scan a)
      ⟨by rw [hinput]; exact h.number, h.menu,
        fun j hj z' rest' hscan => h.before (j + 1) (Nat.succ_lt_succ hj) z' rest'
          (by rwa [hinput] at hscan),
        fun hstale => absurd hstale hnot⟩
    exact ⟨chosen, .of_next (if_neg hnot) hreturns, hleft.of_scanType⟩

theorem typeStep_eq (scan : IntScan) (a : Asking) :
    typeStep scan a = if InMenu (scanType scan a).requestType then .inr (scanType scan a)
      else .inl (scanType scan a) := rfl

theorem typeStep_eq_inr_iff :
    typeStep scan a = .inr chosen ↔ InMenu chosen.requestType ∧ scanType scan a = chosen := by
  rw [typeStep_eq]
  constructor
  · intro h
    split at h
    · next hmenu => exact Sum.inr.inj h ▸ ⟨hmenu, rfl⟩
    · cases h
  · rintro ⟨hmenu, rfl⟩
    exact if_pos hmenu

theorem typeStep_eq_inl_iff {b : Asking} :
    typeStep scan a = .inl b ↔ ¬ InMenu b.requestType ∧ scanType scan a = b := by
  rw [typeStep_eq]
  constructor
  · intro h
    split at h
    · cases h
    · next hmenu => exact Sum.inl.inj h ▸ ⟨hmenu, rfl⟩
  · rintro ⟨hmenu, rfl⟩
    exact if_neg hmenu

/-- If the loop ends with a number that has been typed, that is the one that is chosen: the
numbers before it are not in the menu by their lowest bytes. -/
theorem Chosen.of_returns (h : Returns (typeStep scan) a chosen)
    (hold : ∀ p ∈ a.typed, ¬ InMenu (lowByte (scan.stored p.1)))
    (htyped : ((chosen.requestType.toNat : ℤ), rest) ∈ chosen.typed) :
    ∃ k, Chosen scan a.requestType a.input k chosen.requestType.toNat rest := by
  induction h using Returns.induct with
  | last a hstep =>
    obtain ⟨hmenu, hscanned⟩ := typeStep_eq_inr_iff.mp hstep
    have hnew : ((chosen.requestType.toNat : ℤ), rest) ∉ a.typed := fun hmem => by
      refine hold _ hmem ?_
      rwa [lowByte_stored scan hmenu]
    rcases hscan : scanInt a.input with ⟨_ | z, rest'⟩
    · have hsame : chosen.typed = a.typed := by rw [← hscanned, scanType_none hscan]
      exact absurd (hsame ▸ htyped) hnew
    · have hone : chosen.typed = a.typed ++ [(z, rest')] := by
        rw [← hscanned, scanType_some hscan]
      rw [hone, List.mem_append] at htyped
      have hlast := List.mem_singleton.mp (htyped.resolve_left hnew)
      obtain ⟨hz, rfl⟩ := Prod.mk.inj hlast
      have hbounds := hmenu
      unfold InMenu at hbounds
      exact ⟨0, by rw [hz]; exact hscan, by omega, fun j hj => absurd hj (Nat.not_lt_zero j),
        fun _ => by rw [hscan]; exact Option.some_ne_none z⟩
  | next a b hstep _ ih =>
    obtain ⟨hnot, rfl⟩ := typeStep_eq_inl_iff.mp hstep
    have hold' : ∀ p ∈ (scanType scan a).typed, ¬ InMenu (lowByte (scan.stored p.1)) := by
      intro p hp
      rcases hscan : scanInt a.input with ⟨_ | z, rest'⟩
      · rw [scanType_none hscan] at hp
        exact hold p hp
      · rw [requestType_scanType hscan] at hnot
        rw [scanType_some hscan] at hp
        rcases List.mem_append.mp hp with hp | hp
        · exact hold p hp
        · obtain rfl := List.mem_singleton.mp hp
          exact hnot
    obtain ⟨k, hk⟩ := ih hold'
    have hinput : ∀ j, left (scanType scan a).input j = left a.input (j + 1) := fun j => by
      rw [input_scanType, left]
    refine ⟨k + 1, by rw [← hinput]; exact hk.number, hk.menu, fun j hj z' rest' hscan => ?_,
      fun hstale hnone => ?_⟩
    · cases j with
      | zero =>
        rw [requestType_scanType hscan] at hnot
        exact hnot
      | succ j =>
        rw [← hinput] at hscan
        exact hk.before j (Nat.lt_of_succ_lt_succ hj) z' rest' hscan
    · rcases hscan : scanInt a.input with ⟨_ | z, rest'⟩
      · rw [scanType_none hscan] at hnot
        exact hnot hstale
      · rw [hscan] at hnone
        cases hnone

end Number

/-! ## The loop for the path -/

section Path

variable {a final : Asking} {i : ℕ}

theorem pathStep_eq (i : ℕ) (a : Asking) :
    pathStep (i, a) =
      if (scanChar i a).memory.get (1 + i) = 10 then
        .inr { scanChar i a with memory := (scanChar i a).memory.set (1 + i) 0 }
      else .inl (i + 1, scanChar i a) := rfl

theorem scanChar_nil (h : a.input = []) : scanChar i a = a := by
  rw [scanChar, h]

theorem scanChar_cons {c : UInt8} {rest : List UInt8} (h : a.input = c :: rest) :
    scanChar i a = { a with memory := a.memory.set (1 + i) c, input := rest } := by
  rw [scanChar, h]

/-- The end of a line ends the loop. -/
theorem pathStep_end {rest : List UInt8} (h : a.input = 10 :: rest) :
    pathStep (i, a) =
      .inr { a with memory := (a.memory.set (1 + i) 10).set (1 + i) 0, input := rest } := by
  rw [pathStep_eq, scanChar_cons h]
  refine if_pos ?_
  show (a.memory.set (1 + i) 10).get (1 + i) = 10
  rw [Region.get_set, if_pos rfl]

/-- Another character is stored. -/
theorem pathStep_char {c : UInt8} {rest : List UInt8} (h : a.input = c :: rest) (hc : c ≠ 10) :
    pathStep (i, a) = .inl (i + 1, { a with memory := a.memory.set (1 + i) c, input := rest }) := by
  rw [pathStep_eq, scanChar_cons h]
  refine if_neg ?_
  show (a.memory.set (1 + i) c).get (1 + i) ≠ 10
  rwa [Region.get_set, if_pos rfl]

/-- A line that ends is stored as by `strcpy`. -/
theorem returns_of_line {line rest : List UInt8} (hinput : a.input = line ++ 10 :: rest)
    (hline : 10 ∉ line) :
    ∃ final, Returns pathStep (i, a) final ∧
      final.memory.get = (a.memory.strcpy (1 + i) line).get ∧
      final.memory.top = max a.memory.top (1 + i + line.length + 1) := by
  induction line generalizing i a with
  | nil =>
    refine ⟨_, .of_result (pathStep_end hinput), ?_, ?_⟩
    · rw [Region.get_strcpy_nil]
      ext1 x
      show ((a.memory.set (1 + i) 10).set (1 + i) 0).get x = _
      rw [Region.get_set, Region.get_set, Region.get_set]
      split <;> rfl
    · show max (max a.memory.top (1 + i + 1)) (1 + i + 1) = _
      rw [max_assoc, max_self]
      rfl
  | cons c line ih =>
    rw [List.mem_cons, not_or] at hline
    obtain ⟨final, hreturns, hget, htop⟩ := ih (i := i + 1)
      (a := { a with memory := a.memory.set (1 + i) c, input := line ++ 10 :: rest }) rfl hline.2
    refine ⟨final, .of_next (pathStep_char hinput (Ne.symm hline.1)) hreturns, ?_, ?_⟩
    · rw [hget, Region.get_strcpy_cons]
      rfl
    · rw [htop, List.length_cons]
      show max (max a.memory.top (1 + i + 1)) _ = _
      omega

/-- Without the end of a line, in the input or in what memory holds from here on, the loop
does not return. -/
theorem not_returns_of_no_line (hinput : 10 ∉ a.input)
    (hmemory : ∀ x, 1 + i ≤ x → a.memory.get x ≠ 10) : ¬ Returns pathStep (i, a) final := by
  intro h
  have hpreserved : ∀ s s' : ℕ × Asking,
      (10 ∉ s.2.input ∧ ∀ x, 1 + s.1 ≤ x → s.2.memory.get x ≠ 10) → pathStep s = .inl s' →
        10 ∉ s'.2.input ∧ ∀ x, 1 + s'.1 ≤ x → s'.2.memory.get x ≠ 10 := by
    rintro ⟨j, b⟩ ⟨j', b'⟩ ⟨hb, hrest⟩ hstep
    rcases hin : b.input with _ | ⟨c, rest⟩
    · rw [pathStep_eq, scanChar_nil hin, if_neg (hrest _ le_rfl)] at hstep
      obtain ⟨rfl, rfl⟩ := Prod.mk.inj (Sum.inl.inj hstep)
      exact ⟨hb, fun x hx => hrest x (by omega)⟩
    · have hc : c ≠ 10 := fun hc => hb (hin ▸ hc ▸ List.mem_cons_self)
      rw [pathStep_char hin hc] at hstep
      obtain ⟨rfl, rfl⟩ := Prod.mk.inj (Sum.inl.inj hstep)
      refine ⟨fun hmem => hb (hin ▸ List.mem_cons_of_mem _ hmem), fun x hx => ?_⟩
      show (b.memory.set (1 + j) c).get x ≠ 10
      rw [Region.get_set, if_neg (by omega)]
      exact hrest x (by omega)
  obtain ⟨⟨j, b⟩, ⟨hb, hrest⟩, hstep⟩ := h.invariant ⟨hinput, hmemory⟩ hpreserved
  rcases hin : b.input with _ | ⟨c, rest⟩
  · rw [pathStep_eq, scanChar_nil hin, if_neg (hrest _ le_rfl)] at hstep
    cases hstep
  · have hc : c ≠ 10 := fun hc => hb (hin ▸ hc ▸ List.mem_cons_self)
    rw [pathStep_char hin hc] at hstep
    cases hstep

/-- The loop changes neither the type nor what has been typed. -/
theorem frame_of_returns (h : Returns pathStep (i, a) final) :
    final.typed = a.typed ∧ final.requestType = a.requestType := by
  have hset : ∀ (r : Region UInt8) (j : ℕ) (c : UInt8), (r.set (1 + j) c).get 0 = r.get 0 :=
    fun r j c => by rw [Region.get_set, if_neg (by omega)]
  have hchar : ∀ (j : ℕ) (b : Asking),
      (scanChar j b).typed = b.typed ∧ (scanChar j b).requestType = b.requestType := by
    intro j b
    rcases hin : b.input with _ | ⟨c, rest⟩
    · rw [scanChar_nil hin]
      exact ⟨rfl, rfl⟩
    · rw [scanChar_cons hin]
      exact ⟨rfl, hset _ _ _⟩
  have hpreserved : ∀ s s' : ℕ × Asking,
      (s.2.typed = a.typed ∧ s.2.requestType = a.requestType) → pathStep s = .inl s' →
        s'.2.typed = a.typed ∧ s'.2.requestType = a.requestType := by
    rintro ⟨j, b⟩ s' ⟨htyped, htype⟩ hstep
    rw [pathStep_eq] at hstep
    split at hstep
    · cases hstep
    · obtain rfl := Sum.inl.inj hstep
      obtain ⟨hsame, hsame'⟩ := hchar j b
      exact ⟨hsame.trans htyped, hsame'.trans htype⟩
  obtain ⟨⟨j, b⟩, ⟨htyped, htype⟩, hstep⟩ := h.invariant ⟨rfl, rfl⟩ hpreserved
  rw [pathStep_eq] at hstep
  split at hstep
  · obtain rfl := Sum.inr.inj hstep
    obtain ⟨hsame, hsame'⟩ := hchar j b
    exact ⟨hsame.trans htyped, (hset _ _ _).trans (hsame'.trans htype)⟩
  · cases hstep

end Path

/-! ## The question -/

section Question

variable {scan} {a final : Asking} {stale : UInt8} {input : List UInt8}

/-- The question returns where both loops do. -/
theorem exists_askRequestType_iff :
    (∃ fuel code, askRequestType scan fuel a = some (final, code)) ↔
      ∃ chosen, Returns (typeStep scan) a chosen ∧
        if chosen.takesPath then Returns pathStep (0, chosen) final else final = chosen := by
  unfold askRequestType
  simp only [Option.bind_eq_some_iff, Option.map_eq_some_iff, Prod.mk.injEq]
  constructor
  · rintro ⟨fuel, code, chosen, hchosen, b, hb, rfl, _⟩
    refine ⟨chosen, ⟨fuel, hchosen⟩, ?_⟩
    split at hb
    · next hpath =>
      rw [if_pos hpath]
      exact ⟨fuel, hb⟩
    · next hpath =>
      rw [if_neg hpath]
      exact (Option.some.inj hb).symm
  · rintro ⟨chosen, ⟨fuel, hchosen⟩, hpath⟩
    split at hpath
    · next htakes =>
      obtain ⟨fuel', hfinal⟩ := hpath
      refine ⟨max fuel fuel', _, chosen, run_of_le (Nat.le_max_left _ _) hchosen, final, ?_, rfl,
        rfl⟩
      rw [if_pos htakes]
      exact run_of_le (Nat.le_max_right _ _) hfinal
    · next htakes =>
      refine ⟨fuel, _, chosen, hchosen, final, ?_, rfl, rfl⟩
      rw [if_neg htakes, hpath]

theorem takesPath_iff {z : ℤ} (h : (a.requestType.toNat : ℤ) = z) :
    a.takesPath ↔ z = 7 ∨ z = 8 := by
  have hbyte : ∀ n, n < 256 → (a.requestType = UInt8.ofNat n ↔ z = n) := fun n hn => by
    rw [← UInt8.toNat_inj, UInt8.toNat_ofNat', Nat.mod_eq_of_lt hn]
    omega
  exact or_congr (hbyte 7 (by decide)) (hbyte 8 (by decide))

/-- Up to its end, a line is what is taken of it. -/
theorem lineOf_append {line : List UInt8} (h : 10 ∉ line) (rest : List UInt8) :
    lineOf (line ++ 10 :: rest) = line := Region.takeWhile_ne h rest

/-- A path that follows is what `request_arg` holds, and it fits. -/
theorem answered_of_line {line after rest : List UInt8} {chosen : Asking} {r : Region UInt8}
    (hget : r.get = (chosen.memory.strcpy 1 line).get)
    (hdrop : rest.drop 1 = line ++ 10 :: after) (hline : 10 ∉ line) :
    r.cString 1 = nextLine rest ↔ (lineOf (rest.drop 1)).takeWhile (· ≠ 0) = nextLine rest := by
  rw [Region.cString_congr (r := chosen.memory.strcpy 1 line) fun j _ => by rw [hget],
    Region.cString_strcpy_takeWhile, hdrop, lineOf_append hline]

/-- What has been typed is answered. -/
theorem Understood.asked (h : Understood scan stale input) : Asked scan stale input := by
  obtain ⟨k, z, rest, hchosen, hpath⟩ := h
  intro memory htop hstale
  obtain ⟨chosen, hreturns, hleft⟩ :=
    Chosen.returns (a := ⟨memory, input, []⟩) (hstale ▸ hchosen)
  have hz := hchosen.menu
  have hnumber := hleft.number
  have hsmall : chosen.memory.top ≤ 4 := by
    have hle := hleft.top
    rwa [htop] at hle
  by_cases htakes : chosen.takesPath
  · have hfollows := hpath ((takesPath_iff hnumber).mp htakes)
    obtain ⟨line, after, hdrop, hline⟩ := List.eq_append_cons_of_mem hfollows.ends
    obtain ⟨final, hfinal, hget, hend⟩ :=
      returns_of_line (a := chosen) (i := 0) (hleft.input.trans hdrop) hline
    obtain ⟨htyped, htype⟩ := frame_of_returns hfinal
    obtain ⟨fuel, code, hrun⟩ := exists_askRequestType_iff.mpr
      ⟨chosen, hreturns, by rw [if_pos htakes]; exact hfinal⟩
    have hfits := hfollows.fits
    rw [hdrop, lineOf_append hline] at hfits
    refine ⟨fuel, final, code, hrun, ?_, ⟨rest, ?_, fun _ => ?_⟩, by omega⟩
    · rw [htype]
      unfold InMenu
      omega
    · rw [htype, htyped, hnumber]
      exact hleft.typed
    · exact (answered_of_line hget hdrop hline).mpr hfollows.next
  · obtain ⟨fuel, code, hrun⟩ := exists_askRequestType_iff.mpr
      ⟨chosen, hreturns, by rw [if_neg htakes]⟩
    refine ⟨fuel, chosen, code, hrun, ?_, ⟨rest, ?_, fun h => absurd h htakes⟩, by omega⟩
    · unfold InMenu
      omega
    · rw [hnumber]
      exact hleft.typed

/-- What is answered has been typed: memory that holds zeros behind `request_type` lets the
loop for the path end only where a line does. -/
theorem Asked.understood (h : Asked scan stale input) : Understood scan stale input := by
  obtain ⟨fuel, final, code, hrun, hanswered⟩ := h (.ofList [stale]) rfl rfl
  obtain ⟨chosen, hreturns, hfinal⟩ := exists_askRequestType_iff.mp ⟨fuel, code, hrun⟩
  obtain ⟨rest, htyped, hnext⟩ := hanswered.typed
  have hsame : final.typed = chosen.typed ∧ final.requestType = chosen.requestType := by
    split at hfinal
    · exact frame_of_returns hfinal
    · rw [hfinal]
      exact ⟨rfl, rfl⟩
  rw [hsame.1, hsame.2] at htyped
  obtain ⟨k, hchosen⟩ := Chosen.of_returns hreturns (fun _ hp => absurd hp List.not_mem_nil) htyped
  obtain ⟨chosen', hreturns', hleft⟩ := hchosen.returns
  obtain rfl := hreturns.unique hreturns'
  refine ⟨k, _, rest, hchosen, fun hz => ?_⟩
  have htakes : chosen.takesPath := (takesPath_iff rfl).mpr hz
  rw [if_pos htakes] at hfinal
  have hzero : ∀ x, 1 + 0 ≤ x → chosen.memory.get x ≠ 10 := fun x hx => by
    rw [hleft.clear x hx]
    split
    · decide
    · have hextent : (Region.ofList [stale]).extent ≤ x := show 1 ≤ x by omega
      rw [Region.get_of_le _ x hextent]
      decide
  have hends : 10 ∈ rest.drop 1 := by
    by_contra hno
    exact not_returns_of_no_line (hleft.input ▸ hno) hzero hfinal
  obtain ⟨line, after, hdrop, hline⟩ := List.eq_append_cons_of_mem hends
  obtain ⟨final', hfinal', hget, hend⟩ :=
    returns_of_line (a := chosen) (i := 0) (hleft.input.trans hdrop) hline
  obtain rfl := hfinal.unique hfinal'
  have hinside := hanswered.inside
  refine ⟨hends, ?_, ?_⟩
  · rw [hdrop, lineOf_append hline]
    omega
  · refine (answered_of_line hget hdrop hline).mp (hnext ?_)
    unfold takesPath at htakes ⊢
    rwa [hsame.2]

/-- **For which inputs the question for a request returns with an answer.** -/
theorem asked_iff (scan : IntScan) (stale : UInt8) (input : List UInt8) :
    Asked scan stale input ↔ Understood scan stale input :=
  ⟨Asked.understood, Understood.asked⟩

/-- What stays of a letter is the letter. -/
theorem left_letter (k : ℕ) : left [120, 10] k = [120, 10] := by
  induction k with
  | zero => rfl
  | succ k ih => exact ih

/-- An `x` is never read. -/
theorem not_asked_letter : ¬ ∀ (scan : IntScan) (stale : UInt8) (input : List UInt8),
    Asked scan stale input := by
  intro hall
  obtain ⟨k, z, rest, hchosen, _⟩ := (hall ⟨id, fun _ _ _ => rfl⟩ 0 [120, 10]).understood
  have hnumber := hchosen.number
  rw [left_letter] at hnumber
  cases hnumber

end Question

end Asking
end Tcp
end BsitLabs
