import BsitLabs.FileRpc.Impersonation
import BsitLabs.Foundation.CText
import BsitLabs.Foundation.Region

/-!
# The strings handed to `LogonUser`

`serv_login` copies its two strings, byte by byte, into arrays of ten wide characters
and puts a zero behind each.  The loops run to the length of the string, and the
interface puts no bound on it; the arrays stand on the stack of a procedure that
anybody can call.  A string of up to nine bytes arrives as it is, and every longer one
is written past the end of its array (`widened_iff`).

The information server has a copy of the procedure, with other names for the arrays.
-/

namespace BsitLabs
namespace FileRpc

/-- `for (i = ..; i < strlen(s); ++i) w[i] = s[i];` for what is left of the string. -/
def copyLoop (w : Region UInt16) (i : ℕ) : List UInt8 → Region UInt16
  | [] => w
  | b :: rest => copyLoop (w.set i b.toUInt16) (i + 1) rest

/-- The loop, and `w[i] = 0` after it, on an array that nothing has been stored in. -/
def widenInto (w : Region UInt16) (s : CText) : Region UInt16 :=
  (copyLoop { w with top := 0 } 0 s.bytes).set s.length 0

/-- The arrays at the call of `LogonUser`. -/
structure LogonArrays where
  login : Region UInt16
  password : Region UInt16

/-- `serv_login` up to the call of `LogonUser`. -/
def servLogin (login_ password_ : Region UInt16) (login password : CText) : LogonArrays where
  login := widenInto login_ login
  password := widenInto password_ password

end FileRpc

namespace InfoRpc

/-- The information server's `serv_login` up to the call of `LogonUserW`. -/
def servLogin (login_w password_w : Region UInt16) (login password : CText) :
    FileRpc.LogonArrays where
  login := FileRpc.widenInto login_w login
  password := FileRpc.widenInto password_w password

end InfoRpc

namespace FileRpc

/-! ## What the loop leaves -/

theorem top_copyLoop (w : Region UInt16) (i : ℕ) (s : List UInt8) :
    (copyLoop w i s).top = if s = [] then w.top else max w.top (i + s.length) := by
  induction s generalizing w i with
  | nil => rfl
  | cons b rest ih =>
    rw [copyLoop, ih, Region.top_set, if_neg (List.cons_ne_nil _ _), List.length_cons]
    split
    · next h => rw [h]; rfl
    · omega

theorem get_copyLoop (w : Region UInt16) (i : ℕ) (s : List UInt8) (j : ℕ) :
    (copyLoop w i s).get j =
      if i ≤ j ∧ j < i + s.length then (s.getD (j - i) 0).toUInt16 else w.get j := by
  induction s generalizing w i with
  | nil => rw [copyLoop, if_neg (by simp)]
  | cons b rest ih =>
    rw [copyLoop, ih, Region.get_set, List.length_cons]
    rcases Nat.lt_trichotomy j i with hlt | rfl | hgt
    · rw [if_neg (by omega), if_neg (by omega), if_neg (by omega)]
    · rw [if_neg (by omega), if_pos rfl, if_pos (by omega), Nat.sub_self, List.getD_cons_zero]
    · obtain ⟨m, hm⟩ : ∃ m, j - i = m + 1 := ⟨j - i - 1, by omega⟩
      rw [hm, List.getD_cons_succ, show j - (i + 1) = m by omega, if_neg (show j ≠ i by omega)]
      split
      · rw [if_pos (by omega)]
      · rw [if_neg (by omega)]

theorem top_widenInto (w : Region UInt16) (s : CText) :
    (widenInto w s).top = s.length + 1 := by
  rw [widenInto, Region.top_set, top_copyLoop]
  split
  · exact Nat.zero_max _
  · rw [Nat.zero_max, Nat.zero_add]
    exact Nat.max_eq_right (Nat.le_succ _)

/-- The characters of the string stand in the array, and a zero behind them. -/
theorem get_widenInto (w : Region UInt16) (s : CText) {j : ℕ} (h : j ≤ s.length) :
    (widenInto w s).get j = (s.bytes.getD j 0).toUInt16 := by
  rw [widenInto, Region.get_set, get_copyLoop]
  rcases Nat.lt_or_ge j s.length with hlt | hge
  · rw [if_neg (by omega), if_pos ⟨Nat.zero_le _, by rw [Nat.zero_add]; exact hlt⟩, Nat.sub_zero]
  · rw [if_pos (by omega), List.getD_eq_default _ _ hge]
    rfl

theorem cString_widenInto (w : Region UInt16) (s : CText) :
    (widenInto w s).cString 0 = widen s.bytes := by
  have hlen : (widen s.bytes).length = s.length := List.length_map _
  apply Region.cString_eq_of_get
  · intro x hx
    obtain ⟨b, hb, rfl⟩ := List.mem_map.mp hx
    intro hzero
    have hb0 := congrArg UInt16.toNat hzero
    exact s.nonzero b hb (UInt8.toNat_inj.mp (by simpa using hb0))
  · intro j hj
    rw [hlen] at hj
    rw [Nat.zero_add, get_widenInto w s hj.le, List.getD_eq_getElem _ _ hj]
    exact (List.getElem_map _).symm
  · have hend : s.bytes.getD s.length 0 = 0 := List.getD_eq_default _ _ le_rfl
    rw [hlen, Nat.zero_add, get_widenInto w s le_rfl, hend]
    rfl

/-! ## When the strings arrive -/

/-- A string has been handed over in an array of this many wide characters. -/
structure Widened (size : ℕ) (w : Region UInt16) (s : CText) : Prop where
  /-- Nothing was stored past the end. -/
  inside : w.top ≤ size
  /-- The terminator stands in the array. -/
  terminated : w.strlen 0 < size
  /-- The characters are those of the string. -/
  same : w.cString 0 = s.bytes.map UInt8.toUInt16

/-- Both strings have. -/
structure LogonArrays.Right (arrays : LogonArrays) (login password : CText) : Prop where
  login : Widened loginSize arrays.login login
  password : Widened loginSize arrays.password password

/-- **Which strings arrive**: those that leave room for the terminator. -/
theorem widened_iff (w : Region UInt16) (s : CText) (size : ℕ) :
    Widened size (widenInto w s) s ↔ s.length < size := by
  constructor
  · intro h
    have hinside := h.inside
    rwa [top_widenInto] at hinside
  · intro h
    refine ⟨by rwa [top_widenInto], ?_, cString_widenInto w s⟩
    rwa [← Region.length_cString, cString_widenInto, widen, List.length_map]

/-- **Which logins the two servers hand to `LogonUser`**: those of at most nine bytes,
with a password of at most nine bytes. -/
theorem servLogin_right_iff (w₁ w₂ : Region UInt16) (login password : CText) :
    ((servLogin w₁ w₂ login password).Right login password ↔
      login.length ≤ 9 ∧ password.length ≤ 9) ∧
    ((InfoRpc.servLogin w₁ w₂ login password).Right login password ↔
      login.length ≤ 9 ∧ password.length ≤ 9) := by
  have hsize : loginSize = 10 := rfl
  have hboth : Widened loginSize (widenInto w₁ login) login ∧
      Widened loginSize (widenInto w₂ password) password ↔
        login.length ≤ 9 ∧ password.length ≤ 9 := by
    rw [widened_iff, widened_iff]
    omega
  have hright : (servLogin w₁ w₂ login password).Right login password ↔
      Widened loginSize (widenInto w₁ login) login ∧
        Widened loginSize (widenInto w₂ password) password :=
    ⟨fun h => ⟨h.login, h.password⟩, fun h => ⟨h.1, h.2⟩⟩
  -- the two procedures differ in the names of their arrays
  exact ⟨hright.trans hboth, hright.trans hboth⟩

/-- A login of ten bytes is written past the end of its array, by both servers. -/
theorem not_right_ten_bytes :
    (¬ ∀ w₁ w₂ login password, (servLogin w₁ w₂ login password).Right login password) ∧
      ¬ ∀ w₁ w₂ login password,
        (InfoRpc.servLogin w₁ w₂ login password).Right login password := by
  have hlong : ¬ Widened loginSize (widenInto (.ofList []) (.lit "Superadmin"))
      (.lit "Superadmin") := by
    rw [widened_iff]
    decide
  constructor
  · intro hall
    exact hlong (hall (.ofList []) (.ofList []) (.lit "Superadmin") .nil).login
  · intro hall
    exact hlong (hall (.ofList []) (.ofList []) (.lit "Superadmin") .nil).login

end FileRpc
end BsitLabs
