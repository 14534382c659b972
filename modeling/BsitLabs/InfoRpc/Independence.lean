import BsitLabs.InfoRpc.Framing

/-!
# What is sent of the memory before a call

The second server does not clear the array that a procedure is given, and what stands there
may be anything that the server had in memory before.  The stub sends the whole array back,
all of its `buffer_size` bytes, whatever the procedure has stored there.

So there are two ways in which a call owes something to the memory before it.  Its reply may
go on with what stood there: the name of the system is copied without a terminator, a path's
owner and access rights are appended, and where nothing is listed, all of it is the reply.
The listing of the free space has no terminator either, and hides the array only behind a
figure so short that its own terminator cuts the reply.  And where the reply does not, it is
the rest of the array that is sent as it was, unless the array is no longer than what the
procedure has stored (`Fronted.independent_iff`).
-/

namespace BsitLabs
namespace InfoRpc

open MachineInt SystemInfo CText

/-- Two calls send the same: the same length in front, the same text behind it, and the same
bytes in an array of this size. -/
structure SameSent (bufferSize : Int32) (left left' : Region UInt8) : Prop where
  length : bufOutSize left' = bufOutSize left
  text : replyText left' = replyText left
  whole : ∀ i : ℕ, (i : ℤ) < bufferSize.toInt → left'.get i = left.get i

/-- Two calls come to the same: both return and send the same, or both die at a null list and
send nothing. -/
def SameOutcome (bufferSize : Int32) :
    Except Misuse (Region UInt8) → Except Misuse (Region UInt8) → Prop
  | .ok left, .ok left' => SameSent bufferSize left left'
  | .error misuse, .error misuse' => misuse = .nullAcl ∧ misuse' = .nullAcl
  | _, _ => False

/-- What a call comes to is the same whatever the array holds before. -/
def Independent (procedure : OutBuffer → Except Misuse (Region UInt8)) (bufferSize : Int32) :
    Prop :=
  ∀ buffer buffer', SameOutcome bufferSize (procedure buffer) (procedure buffer')

/-- An array that begins with `k` ones. -/
def OutBuffer.ones (k : ℕ) (hk : k + 4 ≤ 2 ^ 31) : OutBuffer where
  memory := .ofList (List.replicate k 1)
  untouched := rfl
  extent_le := by
    show (List.replicate k (1 : UInt8)).length + 4 ≤ 2 ^ 31
    rwa [List.length_replicate]

theorem OutBuffer.get_ones {k : ℕ} (hk : k + 4 ≤ 2 ^ 31) (i : ℕ) :
    (OutBuffer.ones k hk).memory.get i = if i < k then 1 else 0 := by
  show (List.replicate k (1 : UInt8)).getD i 0 = _
  rw [List.getD_eq_getElem?_getD, List.getElem?_replicate]
  split <;> rfl

theorem OutBuffer.strlen_ones {k : ℕ} (hk : k + 4 ≤ 2 ^ 31) {m : ℕ} (hm : m ≤ k) :
    (OutBuffer.ones k hk).memory.strlen m = k - m := by
  refine (Region.strlen_eq_iff _).mpr ⟨?_, fun j hj => ?_⟩
  · rw [get_ones, if_neg (by omega)]
  · rw [get_ones, if_pos (by omega)]
    decide

/-! ## Replies that do not go on with the array -/

/-- A builder begins any array with the same bytes, one of which is zero, and leaves what is
behind them. -/
structure Fronted (build : Region UInt8 → Region UInt8) (front : List UInt8) : Prop where
  begins : ∀ buffer : OutBuffer, (build buffer.memory).Begins front
  behind : ∀ (buffer : OutBuffer) i, front.length ≤ i →
    (build buffer.memory).get i = buffer.memory.get i
  zero : 0 ∈ front

namespace Fronted

variable {build : Region UInt8 → Region UInt8} {front : List UInt8} (h : Fronted build front)

include h

/-- The text ends at the first zero. -/
theorem cString (buffer : OutBuffer) :
    (build buffer.memory).cString 0 = front.takeWhile (· ≠ 0) := by
  obtain ⟨i, hi, hzero⟩ := List.mem_iff_getElem.mp h.zero
  refine (h.begins buffer).cString_takeWhile ((Region.strlen_le_of_get _ ?_).trans hi.le)
  rw [Nat.zero_add, h.begins buffer i hi, hzero]

theorem strlen (buffer : OutBuffer) :
    (build buffer.memory).strlen 0 = (front.takeWhile (· ≠ 0)).length := by
  rw [← Region.length_cString, h.cString buffer]

/-- The bytes that are the same in all arrays. -/
theorem get_front (buffer buffer' : OutBuffer) {i : ℕ} (hi : i < front.length) :
    (build buffer'.memory).get i = (build buffer.memory).get i := by
  rw [h.begins buffer i hi, h.begins buffer' i hi]

/-- **What is sent owes nothing to the array** exactly if that is no longer than what is
stored: the bytes in front, and the text moved up by four. -/
theorem independent_iff {bufferSize : Int32} (hsize : bufferSize.toInt + 4 ≤ 2 ^ 31) :
    Independent (fun buffer => .ok (sizeInFront (build buffer.memory))) bufferSize ↔
      bufferSize.toInt ≤ max front.length ((front.takeWhile (· ≠ 0)).length + 4) := by
  obtain ⟨n, hn⟩ : ∃ n, n = (front.takeWhile (· ≠ 0)).length := ⟨_, rfl⟩
  have hlen : ∀ buffer : OutBuffer, (build buffer.memory).strlen 0 = n := fun buffer =>
    (h.strlen buffer).trans hn.symm
  have hle : n ≤ front.length := hn ▸ List.Sublist.length_le (List.takeWhile_sublist _)
  rw [← hn]
  constructor
  · intro hind
    by_contra hlong
    -- the first byte behind is that of the array
    have hm : max front.length (n + 4) + 4 ≤ 2 ^ 31 := by omega
    have hm' : max front.length (n + 4) + 1 + 4 ≤ 2 ^ 31 := by omega
    have hbyte := (hind (.ones _ hm) (.ones _ hm')).whole (max front.length (n + 4)) (by omega)
    rw [get_sizeInFront (by rw [hlen]; omega), get_sizeInFront (by rw [hlen]; omega), hlen, hlen,
      if_neg (by omega), if_neg (by omega), if_neg (by omega), if_neg (by omega),
      h.behind _ _ (by omega), h.behind _ _ (by omega), OutBuffer.get_ones, OutBuffer.get_ones,
      if_pos (by omega), if_neg (by omega)] at hbyte
    exact absurd hbyte (by decide)
  · intro hshort buffer buffer'
    refine ⟨?_, ?_, fun i hi => ?_⟩
    · rw [bufOutSize_sizeInFront, bufOutSize_sizeInFront, hlen, hlen]
    · rw [replyText_sizeInFront_take, replyText_sizeInFront_take, h.cString, h.cString, hlen, hlen]
    · have hsame := fun {j : ℕ} (hj : j < front.length) => h.get_front buffer buffer' hj
      rw [get_sizeInFront_toInt32, get_sizeInFront_toInt32, hlen, hlen]
      have hmoved := toInt32_le n
      split
      · rfl
      split
      · exact hsame (by omega)
      · rcases Nat.lt_or_ge n (2 ^ 31) with hlt | hge
        · rw [toInt32_of_lt hlt] at *
          exact hsame (by omega)
        · exact hsame (by omega)

end Fronted

/-- A text that is printed with its terminator. -/
theorem fronted_strcpy (text : CText) :
    Fronted (fun r => r.strcpy 0 text.bytes) (text.bytes ++ [0]) where
  begins buffer := by
    have hbegins := buffer.memory.begins_nil.write (text.bytes ++ [0])
    exact hbegins
  behind buffer i hi := Region.get_write_of_le _ (by omega)
  zero := List.mem_append_right _ (List.mem_singleton.mpr rfl)

theorem takeWhile_text (text : CText) : (text.bytes ++ [0]).takeWhile (· ≠ 0) = text.bytes :=
  Region.takeWhile_ne (fun h => text.nonzero 0 h rfl) []

theorem independent_strcpy_iff (text : CText) {bufferSize : Int32}
    (hsize : bufferSize.toInt + 4 ≤ 2 ^ 31) :
    Independent (fun buffer => .ok (sizeInFront (buffer.memory.strcpy 0 text.bytes)))
      bufferSize ↔ bufferSize.toInt ≤ (text.length + 4 : ℕ) := by
  have hlen : text.bytes.length = text.length := rfl
  rw [(fronted_strcpy text).independent_iff hsize, takeWhile_text, List.length_append,
    List.length_singleton]
  omega

/-! ## Replies that do -/

/-- A text that goes on with what stands at `m` in the array is not the same. -/
theorem not_independent_of_tail (build : Region UInt8 → Region UInt8) {m n : ℕ} (hm : m < 2 ^ 30)
    (h : ∀ buffer : OutBuffer, (build buffer.memory).strlen 0 = n + buffer.memory.strlen m)
    (bufferSize : Int32) :
    ¬ Independent (fun buffer => .ok (sizeInFront (build buffer.memory))) bufferSize := by
  intro hind
  have hm0 : m + 4 ≤ 2 ^ 31 := by omega
  have hm1 : m + 1 + 4 ≤ 2 ^ 31 := by omega
  -- one more byte before the first zero makes the reply one byte longer
  have hsame := (hind (OutBuffer.ones m hm0) (OutBuffer.ones (m + 1) hm1)).length
  rw [bufOutSize_sizeInFront, bufOutSize_sizeInFront, h, h,
    OutBuffer.strlen_ones hm0 (Nat.le_refl m), OutBuffer.strlen_ones hm1 (Nat.le_succ m),
    Nat.sub_self, Nat.add_sub_cancel_left] at hsame
  exact toInt32_succ_ne n hsame

/-! ## The procedures -/

/-- A procedure that leaves a reply under this condition, and else overruns an array. -/
theorem independent_map_iff {result : OutBuffer → Except Misuse (Region UInt8)}
    (build : Region UInt8 → Region UInt8) {fits : Prop}
    (h : ∀ buffer r, result buffer = .ok r ↔ fits ∧ build buffer.memory = r)
    (hnull : ∀ buffer, result buffer ≠ .error .nullAcl) (bufferSize : Int32) :
    Independent (fun buffer => (result buffer).map sizeInFront) bufferSize ↔
      fits ∧ Independent (fun buffer => .ok (sizeInFront (build buffer.memory))) bufferSize := by
  by_cases hfits : fits
  · have hresult : ∀ buffer, result buffer = .ok (build buffer.memory) := fun buffer =>
      (h buffer _).mpr ⟨hfits, rfl⟩
    simp only [hresult, Except.map, hfits, true_and]
  · refine iff_of_false (fun hind => ?_) fun hboth => hfits hboth.1
    have hclear := hind .clear .clear
    cases hresult : result .clear with
    | ok left => exact hfits ((h .clear left).mp hresult).1
    | error misuse =>
      simp only [hresult] at hclear
      exact hnull .clear (hresult.trans (congrArg Except.error hclear.1))

variable (w : Win32) (path : CText) (bufferSize : Int32)

theorem not_independent_servOsVersion :
    ¬ Independent (fun buffer => .ok (servOsVersion w buffer)) bufferSize :=
  not_independent_of_tail (osVersion w) ((versionLength_le w).trans_lt (by decide))
    (fun buffer => strlen_osVersion w buffer.memory) bufferSize

theorem not_independent_servFileOwner :
    ¬ Independent (fun buffer => servFileOwner w buffer path) bufferSize := by
  intro hind
  have happended := ((independent_map_iff (fun r => r.strcats (ownerTexts w path))
    (fun buffer _ => owner_eq_ok_iff w buffer.memory path)
    (fun _ => keep_bind_ok_ne (by decide)) bufferSize).mp hind).2
  refine not_independent_of_tail (fun r => r.strcats (ownerTexts w path)) (m := 0)
    (n := (concat (ownerTexts w path)).length) (by decide) (fun buffer => ?_) bufferSize happended
  rw [Region.strlen_strcats, Nat.add_comm]

theorem servFileAccessRight_independent_iff :
    Independent (fun buffer => servFileAccessRight w buffer path) bufferSize ↔
      w.daclOf path = some none := by
  rw [← rightsTexts_eq_nullAcl_iff]
  simp only [servFileAccessRight, accessRight_eq]
  cases rightsTexts w path with
  | error misuse =>
    constructor
    · intro hind
      exact congrArg Except.error (hind .clear .clear).1
    · intro hnull buffer buffer'
      exact ⟨Except.error.inj hnull, Except.error.inj hnull⟩
  | ok texts =>
    refine iff_of_false (fun hind => ?_) fun hnull => by cases hnull
    refine not_independent_of_tail (fun r => r.strcats texts) (m := 0)
      (n := (concat texts).length) (by decide) (fun buffer => ?_) bufferSize hind
    rw [Region.strlen_strcats, Nat.add_comm]

section Sized

variable {bufferSize} (hsize : bufferSize.toInt + 4 ≤ 2 ^ 31)

include hsize

theorem servDisksTypes_independent_iff :
    Independent (servDisksTypes w) bufferSize ↔ VolumeNamesFit w ∧ w.drives ≠ [] ∧
      bufferSize.toInt ≤ (listingLength w w.stray.nameFileSystem w.drives + 4 : ℕ) := by
  refine (independent_map_iff (diskListing w) (fun buffer _ => listDrives_eq_ok_iff w buffer.memory)
    (fun _ => keep_bind_ok_ne (by decide)) bufferSize).trans (and_congr_right fun _ => ?_)
  by_cases hnone : w.drives = []
  · refine iff_of_false (not_independent_of_tail (diskListing w) (m := 0) (n := 0) (by decide)
      (fun buffer => ?_) bufferSize) fun h => h.1 hnone
    rw [diskListing_nil w _ hnone, Nat.zero_add]
  · obtain ⟨text, htext⟩ : ∃ text, text = listing w w.stray.nameFileSystem w.drives := ⟨_, rfl⟩
    have hlen : text.bytes.length = listingLength w w.stray.nameFileSystem w.drives := by
      rw [htext]
      exact length_listing w _ _
    have hfront : Fronted (diskListing w) (text.bytes ++ [0]) := by
      refine ⟨fun buffer j hj => ?_, fun buffer i hi => ?_,
        List.mem_append_right _ (List.mem_singleton.mpr rfl)⟩
      · obtain ⟨hbegins, hend, _⟩ := listed_diskListing w buffer.memory hnone buffer.untouched
        rw [← htext] at hbegins hend
        rw [List.length_append, List.length_singleton] at hj
        rcases Nat.lt_or_ge j text.bytes.length with hlt | hge
        · rw [List.getElem_append_left hlt, hbegins j hlt]
        · obtain rfl : j = text.bytes.length := by omega
          rw [List.getElem_concat_length rfl]
          exact hend
      · obtain ⟨_, _, _, hbehind⟩ := listed_diskListing w buffer.memory hnone buffer.untouched
        rw [← htext] at hbehind
        rw [List.length_append, List.length_singleton] at hi
        exact hbehind i hi
    rw [hfront.independent_iff hsize, takeWhile_text, List.length_append, List.length_singleton,
      hlen, and_iff_right hnone]
    omega

theorem servFreeSpace_independent_iff :
    Independent (servFreeSpace w) bufferSize ↔ FiguresFit w ∧
      (∃ space ∈ shownSpaces w, Short w space) ∧
      bufferSize.toInt ≤ (13 * (shownSpaces w).length : ℕ) := by
  refine (independent_map_iff (spaceListing w) (fun buffer _ => listSpace_eq_ok_iff w buffer.memory)
    (fun _ => keep_bind_ok_ne (by decide)) bufferSize).trans (and_congr_right fun _ => ?_)
  by_cases hshort : ∃ space ∈ shownSpaces w, Short w space
  · have hrecords := length_allRecords w
    have hzero : 0 ∈ allRecords w := by
      obtain ⟨i, hi, hget⟩ := exists_zero_spaceRecords w hshort
      have hlt : i < (allRecords w).length := by
        unfold allRecords
        omega
      refine List.mem_iff_getElem.mpr ⟨i, hlt, ?_⟩
      rw [← List.getD_eq_getElem _ 0 hlt]
      exact hget
    have hfront : Fronted (spaceListing w) (allRecords w) :=
      ⟨fun buffer => (listed_spaceListing w buffer.memory buffer.untouched).1,
        fun buffer => (listed_spaceListing w buffer.memory buffer.untouched).2.1, hzero⟩
    have hcut := strlen_spaceListing_cut w OutBuffer.clear.memory rfl hshort
    rw [hfront.strlen .clear] at hcut
    rw [hfront.independent_iff hsize, hrecords, and_iff_right hshort]
    omega
  · refine iff_of_false (not_independent_of_tail (spaceListing w)
      (m := 13 * (shownSpaces w).length) (n := 13 * (shownSpaces w).length) ?_ (fun buffer => ?_)
      bufferSize) fun h => hshort h.1
    · have hcount := length_shownSpaces_le w
      omega
    · exact strlen_spaceListing_whole w buffer.memory buffer.untouched fun space hs hsp =>
        hshort ⟨space, hs, hsp⟩

/-- **Which calls owe nothing to the array.**  Those that print their reply with a terminator
do if the array is no longer than the reply with its length: the two clocks, the memory, and
the listing of the drives if there is one; that of the free space if a short figure cuts it
and the array is no longer than its records.  The others never do, but for a query that dies
at a null list. -/
theorem procedures_independent_iff :
    ¬ Independent (fun buffer => .ok (servOsVersion w buffer)) bufferSize ∧
    (Independent (fun buffer => .ok (servCurrentTime w buffer)) bufferSize ↔
      bufferSize.toInt ≤ currentTimeRoom w.getSystemTime) ∧
    (Independent (fun buffer => .ok (servOsTime w buffer)) bufferSize ↔
      bufferSize.toInt ≤ osTimeRoom (toInt32 w.getTickCount.toNat)) ∧
    (Independent (fun buffer => .ok (servMemoryStatus w buffer)) bufferSize ↔
      bufferSize.toInt ≤ memoryStatusRoom w.globalMemoryStatus) ∧
    (Independent (servDisksTypes w) bufferSize ↔ VolumeNamesFit w ∧ w.drives ≠ [] ∧
      bufferSize.toInt ≤ (listingLength w w.stray.nameFileSystem w.drives + 4 : ℕ)) ∧
    (Independent (servFreeSpace w) bufferSize ↔ FiguresFit w ∧
      (∃ space ∈ shownSpaces w, Short w space) ∧
      bufferSize.toInt ≤ (13 * (shownSpaces w).length : ℕ)) ∧
    (¬ Independent (fun buffer => servFileOwner w buffer path) bufferSize) ∧
    (Independent (fun buffer => servFileAccessRight w buffer path) bufferSize ↔
      w.daclOf path = some none) := by
  refine ⟨not_independent_servOsVersion w bufferSize, ?_, ?_, ?_,
    servDisksTypes_independent_iff w hsize, servFreeSpace_independent_iff w hsize,
    not_independent_servFileOwner w path bufferSize,
    servFileAccessRight_independent_iff w path bufferSize⟩
  · have hlen := length_timeText w.getSystemTime
    refine (independent_strcpy_iff _ hsize).trans ?_
    rw [hlen, currentTimeRoom]
    omega
  · have hlen := length_uptimeText (toInt32 w.getTickCount.toNat)
    refine (independent_strcpy_iff _ hsize).trans ?_
    rw [hlen, osTimeRoom]
    omega
  · have hlen := length_memoryText w w.globalMemoryStatus
    refine (independent_strcpy_iff _ hsize).trans ?_
    rw [hlen, memoryStatusRoom]
    omega

end Sized

/-- The time takes all of an array of twenty bytes, and not all of the client's. -/
theorem procedures_independent_iff_clock :
    Independent (fun buffer => .ok (servCurrentTime .silent buffer)) 20 ∧
      ¬ Independent (fun buffer => .ok (servCurrentTime .silent buffer)) 256 := by
  have hroom : currentTimeRoom Win32.silent.getSystemTime = 20 := by
    simp [currentTimeRoom, Win32.silent, places]
  have hshort : (20 : Int32).toInt + 4 ≤ 2 ^ 31 := by decide
  have hlong : (256 : Int32).toInt + 4 ≤ 2 ^ 31 := by decide
  constructor
  · refine (procedures_independent_iff .silent .nil hshort).2.1.mpr ?_
    rw [hroom]
    decide
  · intro hind
    have hfits := (procedures_independent_iff .silent .nil hlong).2.1.mp hind
    rw [hroom] at hfits
    exact absurd hfits (by decide)

/-- The owner of a path is appended to what stood in the array. -/
theorem not_independent_silent : ¬ ∀ (w : Win32) (path : CText) (bufferSize : Int32),
    Independent (fun buffer => servFileOwner w buffer path) bufferSize :=
  fun hall => not_independent_servFileOwner .silent (lit "C:") 256 (hall .silent (lit "C:") 256)

end InfoRpc
end BsitLabs
