import BsitLabs.Foundation.Format
import BsitLabs.SystemInfo.Uptime

/-!
# Reading the answers back

Three of the answers are numbers in a text: the time, the time since the start, and the state of
the memory.  Who has the text has the numbers: every field of the time, every counter of the memory
with its figure, and the parts of the time since the start exactly as long as that is not taken for
a negative one (`read_answers`).
-/

namespace BsitLabs
namespace SystemInfo

open MachineInt CText Format Decimal

/-! ## The time -/

/-- The format of the time, for whoever reads it. -/
def timeFormat : List Item :=
  [.number, .text (ascii "."), .number, .text (ascii "."), .number, .text (ascii " "), .number,
    .text (ascii ":"), .number, .text (ascii ":"), .number]

/-- The numbers in it. -/
def SystemTime.fields (sm : SystemTime) : List ℕ :=
  [sm.wDay.toNat, sm.wMonth.toNat, sm.wYear.toNat, sm.wHour.toNat, sm.wMinute.toNat,
    sm.wSecond.toNat]

/-- `"%d%d"` of a number's last digit and what stands before it. -/
theorem prints_twoDigits (n : ℕ) {f : List Item} {ns : List ℕ} {l : List UInt8}
    (h : Prints f ns l) :
    Prints (.number :: f) (n :: ns)
      ((decimal (n / 10)).bytes ++ ((decimal (n % 10)).bytes ++ l)) := by
  have hrow : ∀ c ∈ (decimal (n / 10)).bytes ++ (decimal (n % 10)).bytes, isDigit c = true :=
    List.forall_mem_append.mpr ⟨isDigit_decimal _, isDigit_decimal _⟩
  have hnumber : numberOf ((decimal (n / 10)).bytes ++ (decimal (n % 10)).bytes) = n := by
    rw [numberOf_append_decimal _ (Nat.mod_lt _ (by decide)), numberOf_decimal]
    omega
  have hprints := Prints.number (by simp [decimal_ne_nil]) hrow h
  rwa [hnumber, List.append_assoc] at hprints

/-- `"%d"`. -/
theorem prints_decimal (n : ℕ) {f : List Item} {ns : List ℕ} {l : List UInt8}
    (h : Prints f ns l) : Prints (.number :: f) (n :: ns) ((decimal n).bytes ++ l) := by
  have hprints := Prints.number (decimal_ne_nil n) (isDigit_decimal n) h
  rwa [numberOf_decimal] at hprints

theorem prints_timeText (sm : SystemTime) : Prints timeFormat sm.fields (timeText sm).bytes := by
  have hlast := prints_twoDigits sm.wSecond.toNat .nil
  have hminute := prints_twoDigits sm.wMinute.toNat (.text (ascii ":") hlast)
  have hhour := prints_twoDigits sm.wHour.toNat (.text (ascii ":") hminute)
  have hyear := prints_decimal sm.wYear.toNat (.text (ascii " ") hhour)
  have hmonth := prints_twoDigits sm.wMonth.toNat (.text (ascii ".") hyear)
  have hday := prints_twoDigits sm.wDay.toNat (.text (ascii ".") hmonth)
  unfold timeText
  simp only [bytes_append, List.append_assoc]
  rwa [List.append_nil] at hday

/-! ## The time since the start -/

/-- The format of the time since the start. -/
def uptimeFormat : List Item :=
  [.number, .text (ascii " hours, "), .number, .text (ascii " minutes, "), .number,
    .text (ascii " seconds")]

theorem signed_natCast (n : ℕ) : signed n = decimal n := by
  rw [signed, if_neg (by omega), Int.natAbs_natCast]

theorem prints_uptimeText (t : ℕ) :
    Prints uptimeFormat [t / 3600000, t / 60000 % 60, t / 1000 % 60] (uptimeText t).bytes := by
  have hparts : hours t = (t / 3600000 : ℕ) ∧ minutes t = (t / 60000 % 60 : ℕ) ∧
      seconds t = (t / 1000 % 60 : ℕ) := by
    unfold seconds minutes hours
    simp only [Int.tdiv_eq_ediv_of_nonneg (Int.natCast_nonneg t)]
    omega
  have hseconds := prints_decimal (t / 1000 % 60) (.text (ascii " seconds") .nil)
  have hminutes := prints_decimal (t / 60000 % 60) (.text (ascii " minutes, ") hseconds)
  have hhours := prints_decimal (t / 3600000) (.text (ascii " hours, ") hminutes)
  unfold uptimeText
  simp only [hparts, signed_natCast, bytes_append, List.append_assoc]
  rwa [List.append_nil] at hhours

/-- The digits in front of a number that is not positive. -/
theorem numberOf_takeWhile_signed {z : ℤ} (h : z ≤ 0) (l : List UInt8) :
    numberOf (((signed z).bytes ++ ((lit " hours, ").bytes ++ l)).takeWhile isDigit) = 0 := by
  rcases h.lt_or_eq with hneg | rfl
  · rw [signed, if_pos hneg, bytes_append, List.append_assoc]
    exact congrArg numberOf (List.takeWhile_cons_of_neg (by decide))
  · exact congrArg numberOf ((List.takeWhile_cons_of_pos (by decide)).trans
      (congrArg _ (List.takeWhile_cons_of_neg (by decide))))

/-- The hours of a time that is taken for a negative one are not there to be read. -/
theorem read_uptimeText_ne {n : ℕ} (hle : 2 ^ 31 ≤ n) (hlt : n < 2 ^ 32) (ns : List ℕ) :
    read uptimeFormat (uptimeText (toInt32 n)).bytes ≠ some (n / 3600000 :: ns) := by
  intro hread
  have hneg := toInt32_of_le hle hlt
  have hhours : hours (toInt32 n) ≤ 0 := by
    have hcases := tdiv_cases (toInt32 n) (1000 * 60 * 60)
    unfold hours
    omega
  have hhead := head_of_read hread
  unfold uptimeText at hhead
  simp only [bytes_append, List.append_assoc] at hhead
  rw [numberOf_takeWhile_signed hhours] at hhead
  omega

/-! ## The memory -/

/-- The format of a counter with its label. -/
def counterFormat (label : CText) : List Item :=
  [.text label.bytes, .text (ascii ": "), .number, .text (ascii " Bytes, "), .number,
    .text (ascii "."), .number, .text (ascii " GB\n")]

/-- The numbers of a counter: its bytes, and its figure in two parts. -/
def counterFields (w : Win32) (bytes : UInt32) : List ℕ :=
  [bytes.toNat, (w.gigabytes bytes).whole, (w.gigabytes bytes).thousandths]

/-- The labels of the counters. -/
def counterLabels : List CText :=
  [lit "TotalPhys", lit "AvailPhys", lit "TotalPageFile", lit "AvailPageFile", lit "TotalVirtual",
    lit "AvailVirtual"]

/-- The counters, as they are printed. -/
def MemoryStatus.counters (stat : MemoryStatus) : List UInt32 :=
  [stat.dwTotalPhys, stat.dwAvailPhys, stat.dwTotalPageFile, stat.dwAvailPageFile,
    stat.dwTotalVirtual, stat.dwAvailVirtual]

/-- The format of the memory status. -/
def memoryFormat : List Item :=
  .text (ascii "MemoryLoad: ") :: .number :: .text (ascii "%\n") ::
    counterLabels.flatMap counterFormat

/-- The three digits of a figure. -/
theorem prints_thousandths (t : Fin 1000) {f : List Item} {ns : List ℕ} {l : List UInt8}
    (h : Prints f ns l) : Prints (.number :: f) (t.val :: ns)
      ((decimal (t / 100)).bytes ++ ((decimal (t / 10 % 10)).bytes ++
        ((decimal (t % 10)).bytes ++ l))) := by
  have hrow : ∀ c ∈ (decimal (t / 100)).bytes ++ (decimal (t / 10 % 10)).bytes ++
      (decimal (t % 10)).bytes, isDigit c = true :=
    List.forall_mem_append.mpr ⟨List.forall_mem_append.mpr ⟨isDigit_decimal _, isDigit_decimal _⟩,
      isDigit_decimal _⟩
  have hnumber : numberOf ((decimal (t / 100)).bytes ++ (decimal (t / 10 % 10)).bytes ++
      (decimal (t % 10)).bytes) = t := by
    rw [numberOf_append_decimal _ (Nat.mod_lt _ (by decide)),
      numberOf_append_decimal _ (Nat.mod_lt _ (by decide)), numberOf_decimal]
    omega
  have hprints := Prints.number (by simp [decimal_ne_nil]) hrow h
  rwa [hnumber, List.append_assoc, List.append_assoc] at hprints

theorem prints_counterText (w : Win32) (label : CText) (bytes : UInt32) {f : List Item}
    {ns : List ℕ} {l : List UInt8} (h : Prints f ns l) :
    Prints (counterFormat label ++ f) (counterFields w bytes ++ ns)
      ((counterText w label bytes).bytes ++ l) := by
  have hfigure := prints_thousandths (w.gigabytes bytes).thousandths (.text (ascii " GB\n") h)
  have hwhole := prints_decimal (w.gigabytes bytes).whole (.text (ascii ".") hfigure)
  have hbytes := prints_decimal bytes.toNat (.text (ascii " Bytes, ") hwhole)
  unfold counterText figureText
  simp only [bytes_append, List.append_assoc]
  exact .text label.bytes (.text (ascii ": ") hbytes)

theorem prints_memoryText (w : Win32) (stat : MemoryStatus) :
    Prints memoryFormat (stat.dwMemoryLoad.toNat :: stat.counters.flatMap (counterFields w))
      (memoryText w stat).bytes := by
  have h₆ := prints_counterText w (lit "AvailVirtual") stat.dwAvailVirtual .nil
  have h₅ := prints_counterText w (lit "TotalVirtual") stat.dwTotalVirtual h₆
  have h₄ := prints_counterText w (lit "AvailPageFile") stat.dwAvailPageFile h₅
  have h₃ := prints_counterText w (lit "TotalPageFile") stat.dwTotalPageFile h₄
  have h₂ := prints_counterText w (lit "AvailPhys") stat.dwAvailPhys h₃
  have h₁ := prints_counterText w (lit "TotalPhys") stat.dwTotalPhys h₂
  have hload := prints_decimal stat.dwMemoryLoad.toNat (.text (ascii "%\n") h₁)
  unfold memoryText
  simp only [bytes_append, List.append_assoc]
  rw [List.append_nil (counterText w (lit "AvailVirtual") stat.dwAvailVirtual).bytes] at hload
  exact .text (ascii "MemoryLoad: ") hload

/-! ## The answers -/

/-- **The numbers can be read out of the answers.**  For every system and whatever the buffer
held: out of the time every field of it; out of the state of the memory the load and every counter
with its figure; and out of the time since the start its hours, minutes and seconds, exactly if it
fits in an `int`. -/
theorem read_answers (w : Win32) (r : Region UInt8) :
    read timeFormat ((currentTime w r).cString 0) = some w.getSystemTime.fields ∧
      read memoryFormat ((memoryStatus w r).cString 0) =
        some (w.globalMemoryStatus.dwMemoryLoad.toNat ::
          w.globalMemoryStatus.counters.flatMap (counterFields w)) ∧
      (read uptimeFormat ((osTime w r).cString 0) =
          some [w.getTickCount.toNat / 3600000, w.getTickCount.toNat / 60000 % 60,
            w.getTickCount.toNat / 1000 % 60] ↔ w.getTickCount.toNat < 2 ^ 31) := by
  refine ⟨?_, ?_, fun hread => ?_, fun hlt => ?_⟩
  · rw [currentTime, Region.cString_strcpy _ _ (CText.nonzero _)]
    exact read_of_prints rfl (prints_timeText _)
  · rw [memoryStatus, Region.cString_strcpy _ _ (CText.nonzero _)]
    exact read_of_prints rfl (prints_memoryText _ _)
  · rw [osTime, Region.cString_strcpy _ _ (CText.nonzero _)] at hread
    by_contra hge
    exact read_uptimeText_ne (Nat.le_of_not_lt hge) w.getTickCount.toNat_lt _ hread
  · rw [osTime, Region.cString_strcpy _ _ (CText.nonzero _), toInt32_of_lt hlt]
    exact read_of_prints rfl (prints_uptimeText _)

end SystemInfo
end BsitLabs
