import BsitLabs.SystemInfo.Lengths

/-!
# The time since the start

Both servers take the number of milliseconds since the start, an unsigned number of 32
bits, as an `int`, and divide it into hours, minutes and seconds.  None of the operations
overflows, whatever the number is (`uptime_eq`), and the three parts always add up to the
quotient of the `int` by a thousand.  But from `2 ^ 31` on, which is reached after almost 25
days, the `int` is negative, and so is what is printed: `uptimeRight_iff`.
-/

namespace BsitLabs
namespace SystemInfo

open MachineInt CText

/-- `hours`, `minutes` and `seconds`, operation by operation; none if one of them
overflows. -/
def uptime (timeTicks : ℤ) : Option (ℤ × ℤ × ℤ) := do
  let hours ← checked (timeTicks.tdiv (1000 * 60 * 60))
  let allMinutes ← checked (timeTicks.tdiv (1000 * 60))
  let hoursInMinutes ← checked (hours * 60)
  let minutes ← checked (allMinutes - hoursInMinutes)
  let allSeconds ← checked (timeTicks.tdiv 1000)
  let hoursInMinutes ← checked (hours * 60)
  let hoursInSeconds ← checked (hoursInMinutes * 60)
  let rest ← checked (allSeconds - hoursInSeconds)
  let minutesInSeconds ← checked (minutes * 60)
  let seconds ← checked (rest - minutesInSeconds)
  return (hours, minutes, seconds)

/-- Truncating division, by the sign of the dividend. -/
theorem tdiv_cases (t k : ℤ) : 0 ≤ t ∧ t.tdiv k = t / k ∨ t < 0 ∧ t.tdiv k = -(-t / k) := by
  rcases le_or_gt 0 t with h | h
  · exact .inl ⟨h, Int.tdiv_eq_ediv_of_nonneg h⟩
  · refine .inr ⟨h, ?_⟩
    rw [← Int.tdiv_eq_ediv_of_nonneg (show 0 ≤ -t by omega), Int.neg_tdiv, neg_neg]

/-- **No operation overflows**, and the result is that of the integers. -/
theorem uptime_eq {t : ℤ} (h : -2 ^ 31 ≤ t) (h' : t < 2 ^ 31) :
    uptime t = some (hours t, minutes t, seconds t) := by
  have hhours := tdiv_cases t (1000 * 60 * 60)
  have hminutes := tdiv_cases t (1000 * 60)
  have hseconds := tdiv_cases t 1000
  unfold uptime minutes seconds minutes hours
  simp only [Option.bind_eq_bind, Option.pure_def]
  generalize t.tdiv (1000 * 60 * 60) = a at *
  generalize t.tdiv (1000 * 60) = b at *
  generalize t.tdiv 1000 = c at *
  have ha : -597 ≤ a ∧ a ≤ 597 := by omega
  have hb : -35792 ≤ b ∧ b ≤ 35792 := by omega
  have hc : -2147484 ≤ c ∧ c ≤ 2147484 := by omega
  rw [checked_of_le (z := a) (by omega) (by omega), Option.bind_some,
    checked_of_le (z := b) (by omega) (by omega), Option.bind_some,
    checked_of_le (z := a * 60) (by omega) (by omega), Option.bind_some,
    checked_of_le (z := b - a * 60) (by omega) (by omega), Option.bind_some,
    checked_of_le (z := c) (by omega) (by omega), Option.bind_some, Option.bind_some,
    checked_of_le (z := a * 60 * 60) (by omega) (by omega), Option.bind_some,
    checked_of_le (z := c - a * 60 * 60) (by omega) (by omega), Option.bind_some,
    checked_of_le (z := (b - a * 60) * 60) (by omega) (by omega), Option.bind_some,
    checked_of_le (by omega) (by omega), Option.bind_some]

/-- The parts add up. -/
theorem sum_uptime (t : ℤ) : hours t * 3600 + minutes t * 60 + seconds t = t.tdiv 1000 := by
  unfold seconds
  omega

/-- The parts of a time that is not negative. -/
theorem uptime_of_nonneg {t : ℤ} (h : 0 ≤ t) : 0 ≤ hours t ∧ (0 ≤ minutes t ∧ minutes t < 60) ∧
    (0 ≤ seconds t ∧ seconds t < 60) := by
  unfold seconds minutes hours
  simp only [Int.tdiv_eq_ediv_of_nonneg h]
  omega

/-- What is printed is the time since the start: its seconds divided into hours, minutes and
seconds, without an overflow on the way. -/
def UptimeRight (w : Win32) (r : Region UInt8) : Prop :=
  ∃ h m s : ℤ, uptime (toInt32 w.getTickCount.toNat) = some (h, m, s) ∧
    (osTime w r).cString 0 = (signed h ++ lit " hours, " ++ signed m ++ lit " minutes, " ++
      signed s ++ lit " seconds").bytes ∧
    0 ≤ h ∧ (0 ≤ m ∧ m < 60) ∧ (0 ≤ s ∧ s < 60) ∧
    h * 3600 + m * 60 + s = w.getTickCount.toNat / 1000

/-- What is computed and printed, right or not. -/
theorem uptimeRight_parts {w : Win32} {r : Region UInt8} (h : UptimeRight w r) :
    (toInt32 w.getTickCount.toNat).tdiv 1000 = w.getTickCount.toNat / 1000 := by
  obtain ⟨_, _, _, hup, _, _, _, _, hsum⟩ := h
  rw [uptime_eq (le_toInt32 _) (toInt32_lt _)] at hup
  obtain ⟨rfl, rfl, rfl⟩ : hours _ = _ ∧ minutes _ = _ ∧ seconds _ = _ := by
    simpa using hup
  rw [← hsum, sum_uptime]

/-- A time that is taken for a negative one is not printed right. -/
theorem lt_of_uptimeRight {w : Win32} {r : Region UInt8} (h : UptimeRight w r) :
    w.getTickCount.toNat < 2 ^ 31 := by
  have hparts := uptimeRight_parts h
  have hmax := w.getTickCount.toNat_lt
  by_contra hge
  have hneg := toInt32_of_le (Nat.le_of_not_lt hge) hmax
  have hcases := tdiv_cases (toInt32 w.getTickCount.toNat) 1000
  omega

/-- **When the time since the start is printed right**: as long as it fits in an `int`. -/
theorem uptimeRight_iff (w : Win32) (r : Region UInt8) :
    UptimeRight w r ↔ w.getTickCount.toNat < 2 ^ 31 := by
  constructor
  · exact lt_of_uptimeRight
  · intro hlt
    have hticks : toInt32 w.getTickCount.toNat = w.getTickCount.toNat := toInt32_of_lt hlt
    obtain ⟨hhours, hminutes, hseconds⟩ := uptime_of_nonneg
      (show 0 ≤ toInt32 w.getTickCount.toNat by omega)
    refine ⟨_, _, _, uptime_eq (le_toInt32 _) (toInt32_lt _), ?_, hhours, hminutes, hseconds, ?_⟩
    · exact r.cString_strcpy 0 (uptimeText _).nonzero
    · rw [sum_uptime, hticks, Int.tdiv_eq_ediv_of_nonneg (Int.natCast_nonneg _)]

/-- A system that has been up for `2 ^ 31` milliseconds. -/
def upLong : Win32 := { Win32.silent with getTickCount := 2147483648 }

theorem not_uptimeRight_long : ¬ ∀ (w : Win32) (r : Region UInt8), UptimeRight w r := by
  intro hall
  have hlt := lt_of_uptimeRight (hall upLong (.ofList []))
  exact absurd hlt (by decide)

end SystemInfo
end BsitLabs
