import Mathlib.Data.List.GetD

/-!
# XOR with a keystream

A stream cipher whose keystream restarts at every message is one operation:
byte `i` of a message is combined with byte `i` of the keystream.  Encryption and
decryption are the same function, and it keeps lengths.

One keystream hides one message: any other of its length has the same ciphertext under
some keystream.  Several messages under one keystream are hidden as far as they do not
overlap.  Where two do, the keystream cancels, and other messages fit the same
ciphertexts only if they differ from these in the same way (`exists_apply_eq_iff`).
-/

namespace BsitLabs

/-- The bytes a key yields, by position. -/
abbrev KeyStream := ℕ → UInt8

namespace KeyStream

variable (ks : KeyStream)

/-- Combine a message with the keystream, from the keystream's start. -/
def apply (data : List UInt8) : List UInt8 := data.mapIdx fun i b => b ^^^ ks i

@[simp] theorem apply_nil : ks.apply [] = [] := rfl

@[simp] theorem length_apply (data : List UInt8) : (ks.apply data).length = data.length := by
  simp [apply]

theorem apply_eq_nil_iff {data : List UInt8} : ks.apply data = [] ↔ data = [] := by
  rw [← List.length_eq_zero_iff, length_apply, List.length_eq_zero_iff]

/-- The first byte meets the first byte of the keystream. -/
theorem apply_cons (b : UInt8) (data : List UInt8) :
    ks.apply (b :: data) = (b ^^^ ks 0) :: KeyStream.apply (fun i => ks (i + 1)) data := by
  simp [apply, List.mapIdx_cons]

/-- **Deciphering undoes enciphering**: the cipher is its own inverse. -/
@[simp] theorem apply_apply (data : List UInt8) : ks.apply (ks.apply data) = data := by
  apply List.ext_getElem
  · simp
  · intro i h₁ h₂
    simp only [apply, List.getElem_mapIdx]
    rw [UInt8.xor_assoc, UInt8.xor_self, UInt8.xor_zero]

theorem getElem?_apply (data : List UInt8) (p : ℕ) :
    (ks.apply data)[p]? = data[p]?.map (· ^^^ ks p) := List.getElem?_mapIdx

/-! ## Several messages under one keystream -/

variable {ks}

/-- Two ciphertexts are equal if at every position the keystreams differ as the messages
do. -/
theorem apply_eq_apply_iff {ks' : KeyStream} {a b : List UInt8} (hlen : a.length = b.length) :
    ks'.apply b = ks.apply a ↔
      ∀ p, p < a.length → ks' p = a.getD p 0 ^^^ b.getD p 0 ^^^ ks p := by
  have hcancel : ∀ x y k k' : UInt8, y ^^^ k' = x ^^^ k ↔ k' = x ^^^ y ^^^ k := by
    intro x y k k'
    constructor
    · intro h
      rw [UInt8.xor_comm x y, UInt8.xor_assoc, ← h, ← UInt8.xor_assoc, UInt8.xor_self,
        UInt8.zero_xor]
    · rintro rfl
      rw [UInt8.xor_comm x y, UInt8.xor_assoc, ← UInt8.xor_assoc, UInt8.xor_self,
        UInt8.zero_xor]
  constructor
  · intro h p hp
    have hget := congrArg (·[p]?) h
    simp only [getElem?_apply, List.getElem?_eq_getElem hp,
      List.getElem?_eq_getElem (hlen ▸ hp), Option.map_some, Option.some.injEq] at hget
    rw [List.getD_eq_getElem _ _ hp, List.getD_eq_getElem _ _ (hlen ▸ hp)]
    exact (hcancel _ _ _ _).mp hget
  · intro h
    ext1 p
    rw [getElem?_apply, getElem?_apply]
    rcases Nat.lt_or_ge p a.length with hp | hp
    · have hkey := h p hp
      rw [List.getD_eq_getElem _ _ hp, List.getD_eq_getElem _ _ (hlen ▸ hp)] at hkey
      rw [List.getElem?_eq_getElem hp, List.getElem?_eq_getElem (hlen ▸ hp), Option.map_some,
        Option.map_some, (hcancel _ _ _ _).mpr hkey]
    · rw [List.getElem?_eq_none hp, List.getElem?_eq_none (hlen ▸ hp)]
      rfl

/-- Wherever two of the messages overlap, they differ from the other two in the same
way. -/
def DifferencesAgree (pairs : List (List UInt8 × List UInt8)) : Prop :=
  ∀ x ∈ pairs, ∀ y ∈ pairs, ∀ p, p < x.1.length → p < y.1.length →
    x.1.getD p 0 ^^^ x.2.getD p 0 = y.1.getD p 0 ^^^ y.2.getD p 0

/-- The keystream under which the second messages have the ciphertexts of the first: it
differs from the first keystream as the messages do that reach the position. -/
def shifted (ks : KeyStream) (pairs : List (List UInt8 × List UInt8)) : KeyStream := fun p =>
  match pairs.find? fun x => p < x.1.length with
  | some x => x.1.getD p 0 ^^^ x.2.getD p 0 ^^^ ks p
  | none => ks p

/-- **What the ciphertexts of several messages tell**: other messages of the same lengths
have them too under some keystream, if and only if the differences agree. -/
theorem exists_apply_eq_iff (ks : KeyStream) {pairs : List (List UInt8 × List UInt8)}
    (hlen : ∀ x ∈ pairs, x.1.length = x.2.length) :
    (∃ ks' : KeyStream, ∀ x ∈ pairs, ks'.apply x.2 = ks.apply x.1) ↔ DifferencesAgree pairs := by
  constructor
  · rintro ⟨ks', h⟩ x hx y hy p hpx hpy
    have hkx := (apply_eq_apply_iff (hlen x hx)).mp (h x hx) p hpx
    have hky := (apply_eq_apply_iff (hlen y hy)).mp (h y hy) p hpy
    exact UInt8.xor_left_inj _ |>.mp (hkx.symm.trans hky)
  · intro hagree
    refine ⟨ks.shifted pairs, fun x hx => (apply_eq_apply_iff (hlen x hx)).mpr fun p hp => ?_⟩
    unfold shifted
    cases hfind : pairs.find? fun x => p < x.1.length with
    | some y =>
      have hy := List.mem_of_find?_eq_some hfind
      have hpy : p < y.1.length := by simpa using List.find?_some hfind
      simp only [hagree y hy x hx p hpy hp]
    | none =>
      have hnone := List.find?_eq_none.mp hfind x hx
      exact absurd hp (by simpa using hnone)

end KeyStream
end BsitLabs
