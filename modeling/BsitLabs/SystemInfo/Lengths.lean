import BsitLabs.SystemInfo.Contents

/-!
# How long the replies are

For each of the builders of `Replies`: how long the string is that it leaves at the start
of the region, and how far it stores.  Two of them leave no terminator of their own
(`strncpy` of the name of the system, `memcpy` of the listing of the free space), and three
may store nothing at all; there the string goes on with what the region held before.
-/

namespace BsitLabs
namespace SystemInfo

open MachineInt CText

variable (w : Win32) (r : Region UInt8)

/-! ## Texts -/

/-- The number of digits. -/
def places (base n : ℕ) : ℕ := Nat.log base n + 1

/-- The number of characters of `%d`. -/
def signedPlaces (n : ℤ) : ℕ := places 10 n.natAbs + if n < 0 then 1 else 0

/-- A single digit takes one place. -/
theorem log_mod_ten (n : ℕ) : Nat.log 10 (n % 10) = 0 := Nat.log_of_lt (Nat.mod_lt n (by decide))

theorem length_timeText (sm : SystemTime) : (timeText sm).length =
    10 + places 10 (sm.wDay.toNat / 10) + places 10 (sm.wMonth.toNat / 10) +
      places 10 sm.wYear.toNat + places 10 (sm.wHour.toNat / 10) +
      places 10 (sm.wMinute.toNat / 10) + places 10 (sm.wSecond.toNat / 10) := by
  have hdot : (lit ".").length = 1 := rfl
  have hspace : (lit " ").length = 1 := rfl
  have hcolon : (lit ":").length = 1 := rfl
  simp only [timeText, length_append, length_decimal, log_mod_ten, hdot, hspace, hcolon,
    places]
  omega

theorem length_uptimeText (ticks : ℤ) : (uptimeText ticks).length =
    26 + signedPlaces (hours ticks) + signedPlaces (minutes ticks) +
      signedPlaces (seconds ticks) := by
  have hhours : (lit " hours, ").length = 8 := rfl
  have hminutes : (lit " minutes, ").length = 10 := rfl
  have hseconds : (lit " seconds").length = 8 := rfl
  simp only [uptimeText, length_append, length_signed, hhours, hminutes, hseconds, signedPlaces,
    places]
  omega

/-- A figure is printed in five characters. -/
theorem length_figureText (figure : Figure) : (figureText figure).length = 5 := by
  have hwhole : Nat.log 10 figure.whole.val = 0 := Nat.log_of_lt figure.whole.isLt
  have hhundreds : Nat.log 10 (figure.thousandths.val / 100) = 0 := by
    have hlt := figure.thousandths.isLt
    exact Nat.log_of_lt (by omega)
  have hdot : (lit ".").length = 1 := rfl
  simp only [figureText, length_append, length_decimal, hwhole, hhundreds, log_mod_ten,
    hdot]

theorem length_counterText (label : CText) (bytes : UInt32) :
    (counterText w label bytes).length = label.length + 19 + places 10 bytes.toNat := by
  have hcolon : (lit ": ").length = 2 := rfl
  have hbytes : (lit " Bytes, ").length = 8 := rfl
  have hgb : (lit " GB\n").length = 4 := rfl
  simp only [counterText, length_append, length_decimal, length_figureText, hcolon, hbytes, hgb,
    places]
  omega

theorem length_memoryText (stat : MemoryStatus) : (memoryText w stat).length =
    196 + places 10 stat.dwMemoryLoad.toNat + places 10 stat.dwTotalPhys.toNat +
      places 10 stat.dwAvailPhys.toNat + places 10 stat.dwTotalPageFile.toNat +
      places 10 stat.dwAvailPageFile.toNat + places 10 stat.dwTotalVirtual.toNat +
      places 10 stat.dwAvailVirtual.toNat := by
  have hload : (lit "MemoryLoad: ").length = 12 := rfl
  have hpercent : (lit "%\n").length = 2 := rfl
  have hphys : (lit "TotalPhys").length = 9 ∧ (lit "AvailPhys").length = 9 := ⟨rfl, rfl⟩
  have hpage : (lit "TotalPageFile").length = 13 ∧ (lit "AvailPageFile").length = 13 :=
    ⟨rfl, rfl⟩
  have hvirtual : (lit "TotalVirtual").length = 12 ∧ (lit "AvailVirtual").length = 12 :=
    ⟨rfl, rfl⟩
  simp only [memoryText, length_append, length_counterText, length_decimal, hload, hpercent,
    hphys, hpage, hvirtual, places]
  omega

/-- What a `sprintf` leaves. -/
theorem strlen_strcpy_text (s : CText) : (r.strcpy 0 s.bytes).strlen 0 = s.length :=
  r.strlen_strcpy 0 s.nonzero

/-- How far a `sprintf` stores. -/
theorem top_strcpy_text (s : CText) : (r.strcpy 0 s.bytes).top = max r.top (s.length + 1) := by
  rw [Region.top_strcpy, Nat.zero_add]
  rfl

/-! ## The name of the system -/

/-- The length of the name of the system; zero if it has none. -/
def versionLength : ℕ := ((versionName w).map length).getD 0

/-- The names have two to eight letters. -/
theorem length_of_versionName {name : CText} (h : versionName w = some name) :
    2 ≤ name.length ∧ name.length ≤ 8 := by
  have hnext : ∀ {c : Prop} [Decidable c] {s : CText} {rest : Option CText},
      (2 ≤ s.length ∧ s.length ≤ 8) →
      (∀ name, rest = some name → 2 ≤ name.length ∧ name.length ≤ 8) →
      ∀ name, (if c then some s else rest) = some name → 2 ≤ name.length ∧ name.length ≤ 8 := by
    intro c _ s rest hs hrest name h
    by_cases hc : c
    · rw [if_pos hc] at h
      exact Option.some.inj h ▸ hs
    · rw [if_neg hc] at h
      exact hrest name h
  refine hnext (by decide) (hnext (by decide) (hnext (by decide) (hnext (by decide)
    (hnext (by decide) (hnext (by decide) (hnext (by decide) (hnext (by decide)
      (hnext (by decide) (hnext (by decide) (hnext (by decide) ?_)))))))))) name h
  intro _ h
  cases h

theorem versionLength_le : versionLength w ≤ 8 := by
  unfold versionLength
  cases h : versionName w with
  | none => exact Nat.zero_le 8
  | some name => exact (length_of_versionName w h).2

/-- The name has no terminator. -/
theorem strlen_osVersion :
    (osVersion w r).strlen 0 = versionLength w + r.strlen (versionLength w) := by
  have hwrite : ∀ name : CText, r.strncpy 0 name.bytes name.length = r.write 0 name.bytes :=
    fun _ => rfl
  unfold osVersion versionLength
  cases versionName w with
  | none => exact (Nat.zero_add _).symm
  | some name =>
    simp only [hwrite, Option.map_some, Option.getD_some]
    rw [r.strlen_write 0 name.nonzero, Nat.zero_add]
    rfl

theorem top_osVersion (h : r.top = 0) : (osVersion w r).top = versionLength w := by
  unfold osVersion versionLength
  cases versionName w with
  | none => exact h
  | some name =>
    simp only [Option.map_some, Option.getD_some, Region.strncpy, Region.top_blit, h]
    split
    · next hzero => exact hzero.symm
    · rw [Nat.zero_add]
      exact Nat.max_eq_right (Nat.zero_le _)

/-! ## The types of the drives -/

/-- The length of the listing of the drives, if the name of the file system begins as
`name`: a drive whose volume cannot be asked shows the name of the one before it. -/
def listingLength : CText → List Drive → ℕ
  | _, [] => 0
  | name, d :: ds =>
    28 + (typeName w (w.getDriveType d)).length +
      ((w.getVolumeInformation d).getD name).length +
      listingLength ((w.getVolumeInformation d).getD name) ds

theorem length_listing (name : CText) (ds : List Drive) :
    (listing w name ds).length = listingLength w name ds := by
  induction ds generalizing name with
  | nil => rfl
  | cons d ds ih =>
    have hletter : (letterText d).length = 1 := rfl
    have hcolon : (lit ":").length = 1 := rfl
    have htype : (lit "\n\t type: ").length = 9 := rfl
    have hsystem : (lit "\n\t file system: ").length = 16 := rfl
    have hend : (lit "\n").length = 1 := rfl
    simp only [listing, driveText, length_append, ih, listingLength, hletter, hcolon, htype,
      hsystem, hend]
    omega

theorem diskListing_lengths (h : w.drives ≠ []) (htop : r.top = 0) :
    (diskListing w r).strlen 0 = listingLength w w.stray.nameFileSystem w.drives ∧
      (diskListing w r).top = listingLength w w.stray.nameFileSystem w.drives + 1 := by
  obtain ⟨_, _, hlast, _⟩ := listed_diskListing w r h htop
  rw [← Region.length_cString, cString_diskListing w r h htop, hlast, length_listing]
  exact ⟨length_listing w _ _, rfl⟩

/-! ## The free space of the drives -/

/-- There are no more drives than letters. -/
theorem length_drives_le : w.drives.length ≤ 26 :=
  (List.length_filter_le _ _).trans List.length_finRange.le

theorem length_shownSpaces_le : (shownSpaces w).length ≤ 26 := by
  rw [shownSpaces, length_spaces]
  exact (List.length_filter_le _ _).trans (length_drives_le w)

/-- The figure has fewer characters than the six that are shown, so that its terminator is
among them. -/
def Short (space : DiskSpace) : Prop := (figureOf w space).length < 6

instance (space : DiskSpace) : Decidable (Short w space) := Nat.decLt _ _

/-- The terminator of a short figure is among the bytes that are shown. -/
theorem figureBytes_of_short {space : DiskSpace} (h : Short w space) :
    (figureBytes w space).getD (figureOf w space).length 0 = 0 := by
  have hlen : (figureOf w space).length < 6 := h
  rw [getD_figureBytes w space (by omega)]
  have hend := (Region.ofList (List.ofFn fun i : Fin gcvtSize => w.stray.figure i)).get_strcpy_end 0
    (figureOf w space).bytes
  rwa [Nat.zero_add] at hend

/-- No byte that is shown of another figure is zero. -/
theorem figureBytes_of_not_short {space : DiskSpace} (h : ¬ Short w space) {j : ℕ} (hj : j < 6) :
    (figureBytes w space).getD j 0 ≠ 0 := by
  have hlen : j < (figureOf w space).bytes.length := lt_of_lt_of_le hj (Nat.le_of_not_lt h)
  have hget := (Region.ofList (List.ofFn fun i : Fin gcvtSize => w.stray.figure i)).get_strcpy_add 0
    (figureOf w space).bytes hlen
  rw [Nat.zero_add] at hget
  rw [getD_figureBytes w space (by omega), hget]
  exact (figureOf w space).nonzero _ (List.getElem_mem hlen)

/-- No byte of the block of a figure that is not short is zero. -/
theorem spaceBlock_ne_zero (d : Drive) {space : DiskSpace} (h : ¬ Short w space) {b : UInt8}
    (hb : b ∈ spaceBlock w d space) : b ≠ 0 := by
  unfold spaceBlock at hb
  rw [List.mem_append, List.mem_append] at hb
  rcases hb with (hb | hb) | hb
  · rw [List.mem_cons, List.mem_cons, List.mem_singleton] at hb
    rcases hb with rfl | rfl | rfl
    · exact d.letter_ne_zero
    · decide
    · decide
  · obtain ⟨j, hj, rfl⟩ := List.mem_iff_getElem.mp hb
    rw [List.length_take] at hj
    rw [List.getElem_take, ← List.getD_eq_getElem _ 0]
    exact figureBytes_of_not_short w h (by omega)
  · exact (lit " Gb\n").nonzero b hb

/-- The terminator of a short figure in its block. -/
theorem getD_spaceBlock_of_short (d : Drive) {space : DiskSpace} (h : Short w space) :
    (spaceBlock w d space).getD (3 + (figureOf w space).length) 0 = 0 := by
  rw [getD_spaceBlock_figure w d space h]
  exact figureBytes_of_short w h

theorem spaceRecords_ne_zero {space : DiskSpace} {ds : List Drive}
    (h : ∀ shown ∈ spaces w space ds, ¬ Short w shown) : ∀ b ∈ spaceRecords w space ds, b ≠ 0 := by
  induction ds generalizing space with
  | nil => exact fun _ hb => absurd hb List.not_mem_nil
  | cons d ds ih =>
    intro b hb
    rcases List.mem_append.mp hb with hb | hb
    · exact spaceBlock_ne_zero w d (h _ List.mem_cons_self) hb
    · exact ih (fun shown hs => h shown (List.mem_cons_of_mem _ hs)) b hb

/-- A short figure leaves a zero in its block, before the unit. -/
theorem exists_zero_spaceRecords {space : DiskSpace} {ds : List Drive}
    (h : ∃ shown ∈ spaces w space ds, Short w shown) :
    ∃ i, i + 5 ≤ (spaceRecords w space ds).length ∧ (spaceRecords w space ds).getD i 0 = 0 := by
  induction ds generalizing space with
  | nil =>
    obtain ⟨_, hs, _⟩ := h
    exact absurd hs List.not_mem_nil
  | cons d ds ih =>
    have hblock := length_spaceBlock w d ((w.getDiskFreeSpace d).getD space)
    rw [spaceRecords, List.length_append, hblock]
    by_cases hfirst : Short w ((w.getDiskFreeSpace d).getD space)
    · have hlen : (figureOf w ((w.getDiskFreeSpace d).getD space)).length < 6 := hfirst
      refine ⟨3 + (figureOf w ((w.getDiskFreeSpace d).getD space)).length, by omega, ?_⟩
      rw [List.getD_append _ _ _ _ (by omega)]
      exact getD_spaceBlock_of_short w d hfirst
    · obtain ⟨s, hs, hshort⟩ := h
      rcases List.mem_cons.mp hs with rfl | hs
      · exact absurd hshort hfirst
      · obtain ⟨i, hi, hzero⟩ := ih ⟨s, hs, hshort⟩
        refine ⟨13 + i, by omega, ?_⟩
        rw [List.getD_append_right _ _ _ _ (by omega), hblock, Nat.add_sub_cancel_left]
        exact hzero

theorem length_allRecords : (allRecords w).length = 13 * (shownSpaces w).length := by
  rw [allRecords, length_spaceRecords, shownSpaces, length_spaces]

theorem top_spaceListing (htop : r.top = 0) :
    (spaceListing w r).top = 13 * (shownSpaces w).length := by
  rw [(listed_spaceListing w r htop).2.2, length_allRecords]

/-- A zero behind the records ends the listing there at the latest. -/
theorem strlen_spaceListing_le (htop : r.top = 0)
    (hzero : r.get (13 * (shownSpaces w).length) = 0) :
    (spaceListing w r).strlen 0 ≤ 13 * (shownSpaces w).length := by
  refine Region.strlen_le_of_get _ ?_
  rw [Nat.zero_add, ← length_allRecords, (listed_spaceListing w r htop).2.1 _ le_rfl,
    length_allRecords, hzero]

/-- A short figure ends the listing at its terminator. -/
theorem strlen_spaceListing_cut (htop : r.top = 0) (h : ∃ space ∈ shownSpaces w, Short w space) :
    (spaceListing w r).strlen 0 + 5 ≤ 13 * (shownSpaces w).length := by
  have hbegins := (listed_spaceListing w r htop).1
  obtain ⟨i, hi, hzero⟩ := exists_zero_spaceRecords w h
  have hlen : i + 5 ≤ (allRecords w).length := hi
  have hle : (spaceListing w r).strlen 0 ≤ i := by
    refine Region.strlen_le_of_get _ ?_
    rw [Nat.zero_add, hbegins.getD (by omega)]
    exact hzero
  rw [length_allRecords] at hlen
  omega

/-- Otherwise it ends where the region has a zero behind it. -/
theorem strlen_spaceListing_whole (htop : r.top = 0)
    (h : ∀ space ∈ shownSpaces w, ¬ Short w space) :
    (spaceListing w r).strlen 0 =
      13 * (shownSpaces w).length + r.strlen (13 * (shownSpaces w).length) := by
  obtain ⟨hbegins, hbehind, _⟩ := listed_spaceListing w r htop
  rw [length_allRecords] at hbehind
  rw [Region.strlen_add (m := 13 * (shownSpaces w).length) _ fun j hj => ?_, Nat.zero_add]
  · congr 1
    exact Region.strlen_congr fun j _ => hbehind _ (by omega)
  · rw [← length_allRecords] at hj
    rw [Nat.zero_add, hbegins j hj]
    exact spaceRecords_ne_zero w h _ (List.getElem_mem hj)

/-! ## The security of a path -/

theorem length_ownerTexts (path : CText) :
    (concat (ownerTexts w path)).length = 7 + (ownerName w path).length := by
  have howner : (lit "Owner: ").length = 7 := rfl
  have hnil : CText.nil.length = 0 := rfl
  simp only [ownerTexts, concat_cons, concat_nil, length_append, howner, hnil]
  omega

theorem length_aceTexts (ace : Ace) (user sidStr : CText) :
    (concat (aceTexts ace user sidStr)).length =
      21 + user.length + sidStr.length + places 16 ace.mask.toNat := by
  have huser : (lit "User: ").length = 6 := rfl
  have hsid : (lit "\nSID: ").length = 6 := rfl
  have hmask : (lit "\nMask: ").length = 7 := rfl
  have hhex : (lit "0x").length = 2 := rfl
  have hnil : CText.nil.length = 0 := rfl
  simp only [aceTexts, concat_cons, concat_nil, length_append, length_hex, huser, hsid, hmask, hhex,
    hnil, places]
  omega

/-- How much is appended for an entry. -/
def entryLength (ace : Ace) : ℕ :=
  match w.lookupAccountSid ace.sid accountLen with
  | none => 0
  | some user => 21 + user.length + ((w.convertSidToStringSid ace.sid).map length).getD 0 +
      places 16 ace.mask.toNat

theorem length_of_entryTexts {ace : Ace} {texts : List CText}
    (h : entryTexts w ace = .ok texts) : (concat texts).length = entryLength w ace := by
  unfold entryTexts at h
  obtain ⟨_, h⟩ := keep_bind_eq_ok_iff.mp h
  unfold entryLength
  cases huser : w.lookupAccountSid ace.sid accountLen with
  | none =>
    simp only [huser] at h
    rw [← Except.ok.inj h]
    rfl
  | some user =>
    simp only [huser] at h
    obtain ⟨sidStr, hsid, h⟩ := except_bind_eq_ok_iff.mp h
    rw [readSet_eq_ok_iff] at hsid
    rw [← Except.ok.inj h, length_aceTexts, hsid]
    rfl

/-- How much is appended for a path: the first entry of its list decides. -/
def rightsLength (path : CText) : ℕ :=
  match w.daclOf path with
  | some (some (ace :: _)) => entryLength w ace
  | _ => 0

theorem length_of_rightsTexts {path : CText} {texts : List CText}
    (h : rightsTexts w path = .ok texts) : (concat texts).length = rightsLength w path := by
  obtain ⟨acl, hacl, h⟩ := except_bind_eq_ok_iff.mp h
  unfold rightsLength
  rw [w.aclOf_eq_ok_iff.mp hacl]
  cases acl with
  | nil =>
    rw [← Except.ok.inj h]
    rfl
  | cons ace acl => exact length_of_entryTexts w h

end SystemInfo
end BsitLabs
