import BsitLabs.InfoRpc.Procedures
import BsitLabs.SystemInfo.Stores

/-!
# What the reply arrays have to hold

A procedure that leaves a reply stays inside its array, and `print_response` inside the 256
bytes of the client, exactly if the array has room for the reply and four bytes more: the
reply is moved up by four, over the terminator it may have had.  Since no procedure looks at
`buffer_size`, that is a condition on what the system answers, and for the procedures that
leave no terminator also on where the memory at `buffer` has its first zero.

Four of the procedures have arrays of their own besides, for names and for a figure, and the
stores into these must fit as well.  `procedures_contained_iff` gives the conditions of all
eight.
-/

namespace BsitLabs
namespace InfoRpc

open MachineInt SystemInfo

/-- A call with this `buffer_size` that leaves this region stores inside the array, and if the
call is the client's, what it prints is read inside the array as well. -/
structure Inside (left : Region UInt8) (bufferSize : Int32) : Prop where
  stores : (left.top : ℤ) ≤ bufferSize.toInt
  reads : bufferSize.toInt = clientBufSize → ∀ i ∈ readIndices (received left), i < clientBufSize

/-- A call with this `buffer_size` stores inside its arrays, and its client reads inside its
own.  A call that dies at a null list has stored nothing. -/
def Contained (result : Except Misuse (Region UInt8)) (bufferSize : Int32) : Prop :=
  match result with
  | .ok left => Inside left bufferSize
  | .error misuse => misuse = .nullAcl

/-- The client gets the first bytes of what a procedure leaves. -/
theorem get_received (r : Region UInt8) {j : ℕ} (hj : j < clientBufSize) :
    (received r).get j = r.get j := by
  show ((List.range clientBufSize).map r.get).getD j 0 = r.get j
  rw [List.getD_eq_getElem _ _ (by rwa [List.length_map, List.length_range]), List.getElem_map,
    List.getElem_range]

/-- The length in front is among them. -/
theorem bufOutSize_received (r : Region UInt8) : bufOutSize (received r) = bufOutSize r := by
  have hget : ∀ j, j < 4 → (received r).get j = r.get j := fun j hj =>
    get_received r (lt_trans hj (by decide))
  simp only [bufOutSize, int32OfBytes, hget 0 (by decide), hget 1 (by decide), hget 2 (by decide),
    hget 3 (by decide)]

/-! ## The size in front -/

theorem top_shiftUp (k : ℕ) (r : Region UInt8) :
    (shiftUp k r).top = if k = 0 then r.top else max r.top (k + 4) := by
  induction k generalizing r with
  | zero => rfl
  | succ k ih =>
    rw [shiftUp, ih, Region.top_set, if_neg (Nat.succ_ne_zero k)]
    split <;> omega

/-- The move: each byte goes up by four, and the first four stay. -/
theorem get_shiftUp (k : ℕ) (r : Region UInt8) (i : ℕ) :
    (shiftUp k r).get i = if 4 ≤ i ∧ i < k + 4 then r.get (i - 4) else r.get i := by
  induction k generalizing r with
  | zero => rw [shiftUp, if_neg (by omega)]
  | succ k ih =>
    rw [shiftUp, ih, Region.get_set, Region.get_set]
    by_cases hlast : i = k + 4
    · rw [if_neg (by omega), if_pos hlast, if_pos (by omega)]
      congr 1
      omega
    · by_cases hin : 4 ≤ i ∧ i < k + 4
      · rw [if_pos hin, if_neg (by omega), if_pos (by omega)]
      · rw [if_neg hin, if_neg hlast, if_neg (by omega)]

section SizeInFront

variable {r : Region UInt8}

/-- How far the end of a procedure stores. -/
theorem top_sizeInFront (h : r.strlen 0 < 2 ^ 31) :
    (sizeInFront r).top = max r.top (r.strlen 0 + 4) := by
  have htop := top_shiftUp (r.strlen 0) r
  simp only [sizeInFront, toInt32_of_lt h, Int.toNat_natCast]
  rw [Region.top_write, htop, length_int32Bytes]
  split <;> split <;> omega

/-- It never stores less than the reply did. -/
theorem le_top_sizeInFront (r : Region UInt8) : r.top ≤ (sizeInFront r).top := by
  have htop := top_shiftUp (toInt32 (r.strlen 0)).toNat r
  simp only [sizeInFront]
  rw [Region.top_write, htop, length_int32Bytes]
  split <;> split <;> omega

/-- The length that stands in front. -/
theorem bufOutSize_sizeInFront (r : Region UInt8) :
    bufOutSize (sizeInFront r) = toInt32 (r.strlen 0) := by
  refine int32OfBytes_int32Bytes (le_toInt32 _) (toInt32_lt _) fun j hj => ?_
  simp only [sizeInFront]
  rw [Region.get_write, length_int32Bytes, if_pos (by omega), Nat.sub_zero]

/-- **When a reply is inside**: the array has room for what is stored and for the reply moved
up by four. -/
theorem inside_sizeInFront_iff {bufferSize : Int32} {room : ℕ}
    (hroom : max r.top (r.strlen 0 + 4) = room)
    (hmemory : r.strlen 0 < 2 ^ 31 ∨ r.strlen 0 < r.top) :
    Inside (sizeInFront r) bufferSize ↔ (room : ℤ) ≤ bufferSize.toInt := by
  have hsize : bufferSize.toInt < 2 ^ 31 := Int32.toInt_lt bufferSize
  rcases Nat.lt_or_ge (r.strlen 0) (2 ^ 31) with hlt | hge
  · have htop := top_sizeInFront hlt
    constructor
    · intro h
      have hstores := h.stores
      rwa [htop, hroom] at hstores
    · intro h
      refine ⟨?_, fun hclient i hi => ?_⟩
      · rw [htop, hroom]
        exact h
      · have hlast : r.strlen 0 + 4 ≤ clientBufSize := by omega
        have h256 : clientBufSize = 256 := rfl
        rcases List.mem_append.mp hi with hi | hi
        · have hi4 := List.mem_range.mp hi
          omega
        · rw [printedIndices, bufOutSize_received, bufOutSize_sizeInFront, toInt32_of_lt hlt,
            Int.toNat_natCast, List.mem_map] at hi
          obtain ⟨j, hj, rfl⟩ := hi
          have hjlt := List.mem_range.mp hj
          omega
  · -- the reply does not end where an array can
    have htop : 2 ^ 31 < r.top := by omega
    have hle := le_top_sizeInFront r
    refine iff_of_false (fun h => ?_) (by omega)
    have hstores := h.stores
    omega

end SizeInFront

/-! ## The room that the procedures need -/

section Rooms

variable (w : Win32) (buffer : OutBuffer) (path : CText)

/-- Room for the name of the system and what stands behind it up to a zero. -/
def osVersionRoom : ℕ := versionLength w + buffer.memory.strlen (versionLength w) + 4

/-- Room for the time: nine characters besides the numbers that may be longer than one
digit, and the last digit of the seconds. -/
def currentTimeRoom (sm : SystemTime) : ℕ :=
  14 + places 10 (sm.wDay.toNat / 10) + places 10 (sm.wMonth.toNat / 10) +
    places 10 sm.wYear.toNat + places 10 (sm.wHour.toNat / 10) +
    places 10 (sm.wMinute.toNat / 10) + places 10 (sm.wSecond.toNat / 10)

/-- Room for the time since the start. -/
def osTimeRoom (ticks : ℤ) : ℕ :=
  30 + signedPlaces (hours ticks) + signedPlaces (minutes ticks) + signedPlaces (seconds ticks)

/-- Room for the load and the six counters. -/
def memoryStatusRoom (stat : MemoryStatus) : ℕ :=
  200 + places 10 stat.dwMemoryLoad.toNat + places 10 stat.dwTotalPhys.toNat +
    places 10 stat.dwAvailPhys.toNat + places 10 stat.dwTotalPageFile.toNat +
    places 10 stat.dwAvailPageFile.toNat + places 10 stat.dwTotalVirtual.toNat +
    places 10 stat.dwAvailVirtual.toNat

/-- Room for the entries of the drives; without a drive, for what stands in the array. -/
def disksTypesRoom : ℕ :=
  if w.drives = [] then buffer.memory.strlen 0 + 4
  else listingLength w w.stray.nameFileSystem w.drives + 4

/-- Room for thirteen bytes a fixed drive, and unless a figure is short for what stands
behind them up to a zero. -/
def freeSpaceRoom : ℕ :=
  if ∃ space ∈ shownSpaces w, Short w space then 13 * (shownSpaces w).length
  else 13 * (shownSpaces w).length + buffer.memory.strlen (13 * (shownSpaces w).length) + 4

/-- Room for what stands in the array and the owner behind it. -/
def fileOwnerRoom : ℕ := buffer.memory.strlen 0 + 11 + (ownerName w path).length

/-- Room for what stands in the array and, if the first entry of the access-control list
has an account, the entry behind it. -/
def fileAccessRightRoom : ℕ := buffer.memory.strlen 0 + rightsLength w path + 4

/-- The string behind an offset ends in memory. -/
theorem OutBuffer.strlen_lt (k : ℕ) (hk : k < 2 ^ 31) :
    k + buffer.memory.strlen k < 2 ^ 31 := by
  have hle := buffer.memory.add_strlen_le k
  have hext := buffer.extent_le
  omega

/-- A reply printed at the start of the array. -/
theorem inside_text_iff (text : CText) (bufferSize : Int32) :
    Inside (sizeInFront (buffer.memory.strcpy 0 text.bytes)) bufferSize ↔
      (text.length + 4 : ℤ) ≤ bufferSize.toInt := by
  have hlen := strlen_strcpy_text buffer.memory text
  have htop := top_strcpy_text buffer.memory text
  rw [buffer.untouched] at htop
  have hroom : max (buffer.memory.strcpy 0 text.bytes).top
      ((buffer.memory.strcpy 0 text.bytes).strlen 0 + 4) = text.length + 4 := by omega
  exact_mod_cast inside_sizeInFront_iff hroom (by omega)

/-- A reply appended to what stands in the array. -/
theorem inside_strcats_iff (texts : List CText) (bufferSize : Int32) :
    Inside (sizeInFront (buffer.memory.strcats texts)) bufferSize ↔
      ((buffer.memory.strlen 0 + (CText.concat texts).length + 4 : ℕ) : ℤ) ≤ bufferSize.toInt := by
  have hlen := buffer.memory.strlen_strcats texts
  have huntouched := buffer.untouched
  rw [← hlen]
  cases texts with
  | nil =>
    have hmemory := buffer.strlen_lt 0 (by decide)
    rw [Region.strcats_nil]
    exact inside_sizeInFront_iff (by omega) (.inl (by omega))
  | cons s texts =>
    have htop := buffer.memory.top_strcats (by omega) (List.cons_ne_nil s texts)
    exact inside_sizeInFront_iff (by omega) (.inr (by omega))

/-- A procedure that leaves a reply under this condition, and else overruns an array. -/
theorem contained_map_iff {result : Except Misuse (Region UInt8)} {reply : Region UInt8}
    {fits : Prop} (h : ∀ r, result = .ok r ↔ fits ∧ reply = r) (hnull : result ≠ .error .nullAcl)
    (bufferSize : Int32) :
    Contained (result.map sizeInFront) bufferSize ↔
      fits ∧ Inside (sizeInFront reply) bufferSize := by
  cases result with
  | error misuse =>
    refine iff_of_false (fun heq => hnull (congrArg Except.error heq)) fun ⟨hfits, _⟩ => ?_
    exact nomatch (h reply).mpr ⟨hfits, rfl⟩
  | ok left =>
    obtain ⟨hfits, rfl⟩ := (h left).mp rfl
    exact (and_iff_right hfits).symm

theorem servOsVersion_contained_iff (bufferSize : Int32) :
    Contained (.ok (servOsVersion w buffer)) bufferSize ↔
      (osVersionRoom w buffer : ℤ) ≤ bufferSize.toInt := by
  have hlen := strlen_osVersion w buffer.memory
  have htop := top_osVersion w buffer.memory buffer.untouched
  have hname := versionLength_le w
  have hmemory := buffer.strlen_lt (versionLength w) (by omega)
  refine inside_sizeInFront_iff ?_ (.inl (by omega))
  rw [hlen, htop, osVersionRoom]
  omega

theorem servDisksTypes_contained_iff (bufferSize : Int32) :
    Contained (servDisksTypes w buffer) bufferSize ↔
      VolumeNamesFit w ∧ (disksTypesRoom w buffer : ℤ) ≤ bufferSize.toInt := by
  unfold servDisksTypes disksTypesRoom
  rw [contained_map_iff (fun _ => listDrives_eq_ok_iff w buffer.memory)
    (keep_bind_ok_ne (by decide))]
  refine and_congr_right fun _ => ?_
  by_cases hnone : w.drives = []
  · have hmemory := buffer.strlen_lt 0 (by decide)
    rw [diskListing_nil w _ hnone, if_pos hnone]
    refine inside_sizeInFront_iff ?_ (.inl (by omega))
    rw [buffer.untouched]
    omega
  · obtain ⟨hlen, htop⟩ := diskListing_lengths w buffer.memory hnone buffer.untouched
    rw [if_neg hnone]
    refine inside_sizeInFront_iff ?_ (.inr (by omega))
    omega

theorem servFreeSpace_contained_iff (bufferSize : Int32) :
    Contained (servFreeSpace w buffer) bufferSize ↔
      FiguresFit w ∧ (freeSpaceRoom w buffer : ℤ) ≤ bufferSize.toInt := by
  have htop := top_spaceListing w buffer.memory buffer.untouched
  have hcount := length_shownSpaces_le w
  unfold servFreeSpace freeSpaceRoom
  rw [contained_map_iff (fun _ => listSpace_eq_ok_iff w buffer.memory)
    (keep_bind_ok_ne (by decide))]
  refine and_congr_right fun _ => ?_
  by_cases hshort : ∃ space ∈ shownSpaces w, Short w space
  · have hlen := strlen_spaceListing_cut w buffer.memory buffer.untouched hshort
    rw [if_pos hshort]
    refine inside_sizeInFront_iff ?_ (.inl (by omega))
    omega
  · have hlen := strlen_spaceListing_whole w buffer.memory buffer.untouched
      fun space hs hsp => hshort ⟨space, hs, hsp⟩
    have hmemory := buffer.strlen_lt (13 * (shownSpaces w).length) (by omega)
    rw [if_neg hshort]
    refine inside_sizeInFront_iff ?_ (.inl (by omega))
    omega

theorem servFileOwner_contained_iff (bufferSize : Int32) :
    Contained (servFileOwner w buffer path) bufferSize ↔
      OwnerNamesFit w path ∧ (fileOwnerRoom w buffer path : ℤ) ≤ bufferSize.toInt := by
  unfold servFileOwner
  rw [contained_map_iff (fun _ => owner_eq_ok_iff w buffer.memory path)
    (keep_bind_ok_ne (by decide)),
    inside_strcats_iff, length_ownerTexts, fileOwnerRoom]
  refine and_congr_right fun _ => ?_
  omega

/-- The path has a null list, or one whose first entry is kept and fits. -/
theorem servFileAccessRight_contained_iff (bufferSize : Int32) :
    Contained (servFileAccessRight w buffer path) bufferSize ↔
      w.daclOf path = some none ∨ RightsKept w path ∧
        (fileAccessRightRoom w buffer path : ℤ) ≤ bufferSize.toInt := by
  rw [← exists_rightsTexts_iff, ← rightsTexts_eq_nullAcl_iff, servFileAccessRight, accessRight_eq]
  cases hrights : rightsTexts w path with
  | error misuse => simp [Contained, Except.map]
  | ok texts =>
    rw [fileAccessRightRoom, ← length_of_rightsTexts w hrights]
    simpa [Contained, Except.map] using inside_strcats_iff buffer texts bufferSize

/-- **When the eight procedures stay inside their arrays**, and the client inside its own. -/
theorem procedures_contained_iff (bufferSize : Int32) :
    (Contained (.ok (servOsVersion w buffer)) bufferSize ↔
      (osVersionRoom w buffer : ℤ) ≤ bufferSize.toInt) ∧
    (Contained (.ok (servCurrentTime w buffer)) bufferSize ↔
      (currentTimeRoom w.getSystemTime : ℤ) ≤ bufferSize.toInt) ∧
    (Contained (.ok (servOsTime w buffer)) bufferSize ↔
      (osTimeRoom (toInt32 w.getTickCount.toNat) : ℤ) ≤ bufferSize.toInt) ∧
    (Contained (.ok (servMemoryStatus w buffer)) bufferSize ↔
      (memoryStatusRoom w.globalMemoryStatus : ℤ) ≤ bufferSize.toInt) ∧
    (Contained (servDisksTypes w buffer) bufferSize ↔
      VolumeNamesFit w ∧ (disksTypesRoom w buffer : ℤ) ≤ bufferSize.toInt) ∧
    (Contained (servFreeSpace w buffer) bufferSize ↔
      FiguresFit w ∧ (freeSpaceRoom w buffer : ℤ) ≤ bufferSize.toInt) ∧
    (Contained (servFileOwner w buffer path) bufferSize ↔
      OwnerNamesFit w path ∧ (fileOwnerRoom w buffer path : ℤ) ≤ bufferSize.toInt) ∧
    (Contained (servFileAccessRight w buffer path) bufferSize ↔
      w.daclOf path = some none ∨ RightsKept w path ∧
        (fileAccessRightRoom w buffer path : ℤ) ≤ bufferSize.toInt) := by
  refine ⟨servOsVersion_contained_iff w buffer bufferSize, ?_, ?_, ?_,
    servDisksTypes_contained_iff w buffer bufferSize,
    servFreeSpace_contained_iff w buffer bufferSize,
    servFileOwner_contained_iff w buffer path bufferSize,
    servFileAccessRight_contained_iff w buffer path bufferSize⟩
  · have hlen := length_timeText w.getSystemTime
    refine (inside_text_iff buffer _ bufferSize).trans ?_
    rw [hlen, currentTimeRoom]
    omega
  · have hlen := length_uptimeText (toInt32 w.getTickCount.toNat)
    refine (inside_text_iff buffer _ bufferSize).trans ?_
    rw [hlen, osTimeRoom]
    omega
  · have hlen := length_memoryText w w.globalMemoryStatus
    refine (inside_text_iff buffer _ bufferSize).trans ?_
    rw [hlen, memoryStatusRoom]
    omega

end Rooms

/-- A clear array. -/
def OutBuffer.clear : OutBuffer := ⟨.ofList [], rfl, by decide⟩

/-- A system on which each of the six counters has ten digits. -/
def largeMemory : Win32 :=
  { Win32.silent with
    globalMemoryStatus := ⟨50, 2147483647, 2147483647, 2147483647, 2147483647, 2147483647,
      2147483647⟩ }

/-- The memory status of a system with two gigabytes does not fit in the client's array. -/
theorem not_contained_memoryStatus : ¬ ∀ (w : Win32) (buffer : OutBuffer) (bufferSize : Int32),
    Contained (.ok (servMemoryStatus w buffer)) bufferSize := by
  intro hall
  have hfits := (inside_text_iff OutBuffer.clear _ 256).mp (hall largeMemory OutBuffer.clear 256)
  have hten : places 10 2147483647 = 10 :=
    congrArg Nat.succ (Nat.log_eq_of_pow_le_of_lt_pow (by norm_num) (by norm_num))
  have hlen : (memoryText largeMemory largeMemory.globalMemoryStatus).length =
      196 + places 10 50 + places 10 2147483647 + places 10 2147483647 + places 10 2147483647 +
        places 10 2147483647 + places 10 2147483647 + places 10 2147483647 :=
    length_memoryText largeMemory largeMemory.globalMemoryStatus
  have hsize : (256 : Int32).toInt = 256 := by decide
  rw [hlen, hten, hsize] at hfits
  omega

end InfoRpc
end BsitLabs
