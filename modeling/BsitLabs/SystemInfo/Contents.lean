import BsitLabs.SystemInfo.Replies

/-!
# What the replies say

For each of the builders of `Replies` that puts its text together piece by piece: the text
that it leaves at the start of the region, whatever the region held before.  The listing of
the drives is the concatenation of their entries, that of the free space the concatenation
of blocks of thirteen bytes, and the two queries about a path append to the string that
stood there.
-/

namespace BsitLabs
namespace SystemInfo

open MachineInt CText

variable (w : Win32) (r : Region UInt8)

/-! ## The version of the system -/

/-- The name of the system is left in front of what the region held: no terminator is stored. -/
theorem cString_osVersion {name : CText} (hname : versionName w = some name)
    (hend : r.get name.length = 0) : (osVersion w r).cString 0 = name.bytes := by
  have hlen : name.bytes.length = name.length := rfl
  unfold osVersion
  rw [hname]
  refine Region.cString_eq_of_get name.nonzero (fun j hj => ?_) ?_
  · simp only [Region.strncpy, Region.get_blit]
    rw [if_pos (by omega), Nat.zero_add, Nat.sub_zero, List.getD_eq_getElem _ _ hj]
  · simp only [Region.strncpy, Region.get_blit]
    rw [if_neg (by omega), Nat.zero_add, hlen, hend]

/-! ## The drives -/

/-- The letter of a drive as a text. -/
def letterText (d : Drive) : CText where
  bytes := [d.letter]
  nonzero _ hb := List.mem_singleton.mp hb ▸ d.letter_ne_zero

/-- The entry of a drive in the listing. -/
def driveText (d : Drive) (label name : CText) : CText :=
  letterText d ++ lit ":" ++ lit "\n\t type: " ++ label ++ lit "\n\t file system: " ++ name ++
    lit "\n"

/-- The name of the file system at each drive, if the array begins as `name`: a drive whose
volume cannot be asked shows the name of the one before it. -/
def shownNames : CText → List Drive → List CText
  | _, [] => []
  | name, d :: ds =>
    (w.getVolumeInformation d).getD name :: shownNames ((w.getVolumeInformation d).getD name) ds

/-- The listing of these drives. -/
def listing : CText → List Drive → CText
  | _, [] => .nil
  | name, d :: ds =>
    driveText d (typeName w (w.getDriveType d)) ((w.getVolumeInformation d).getD name) ++
      listing ((w.getVolumeInformation d).getD name) ds

/-- The listing is the concatenation of the entries. -/
theorem listing_eq_concat (name : CText) (ds : List Drive) :
    listing w name ds = concat (List.zipWith
      (fun d name => driveText d (typeName w (w.getDriveType d)) name) ds
      (shownNames w name ds)) := by
  induction ds generalizing name with
  | nil => rfl
  | cons d ds ih => rw [listing, shownNames, List.zipWith_cons_cons, concat_cons, ih]

/-- Drives that all answer show their own names, whatever the array held. -/
theorem shownNames_of_answered {own : Drive → CText} (name : CText) {ds : List Drive}
    (h : ∀ d ∈ ds, w.getVolumeInformation d = some (own d)) :
    shownNames w name ds = ds.map own := by
  induction ds generalizing name with
  | nil => rfl
  | cons d ds ih =>
    rw [shownNames, h d List.mem_cons_self, Option.getD_some, List.map_cons,
      ih _ fun d' hd => h d' (List.mem_cons_of_mem _ hd)]

/-- The buffer begins with a text, the next store goes behind it, and there have been none
beyond the byte there. -/
structure DisksLoop.Listed (l : DisksLoop) (s : CText) : Prop where
  k : l.k = s.length
  begins : l.buffer.Begins s.bytes
  top_le : l.buffer.top ≤ s.length + 1
  behind : ∀ i, s.length + 1 ≤ i → l.buffer.get i = r.get i

namespace DisksLoop.Listed

variable {r : Region UInt8} {l : DisksLoop} {s : CText} (h : l.Listed r s)

include h

theorem put (d : CText) (c : UInt8) (hd : d.bytes = [c]) : (l.put c).Listed r (s ++ d) := by
  have hk := h.k
  have htop := h.top_le
  have hlen : d.length = 1 := congrArg List.length hd
  refine ⟨?_, ?_, ?_, fun i hi => ?_⟩
  · show l.k + 1 = _
    rw [length_append, hk, hlen]
  · rw [bytes_append, hd]
    show (l.buffer.set l.k c).Begins _
    rw [hk]
    exact h.begins.set c
  · show max l.buffer.top (l.k + 1) ≤ _
    rw [length_append, hlen]
    omega
  · rw [length_append] at hi
    show (l.buffer.set l.k c).get i = r.get i
    rw [Region.get_set, if_neg (by omega)]
    exact h.behind i (by omega)

theorem move (t : CText) : (l.move t).Listed r (s ++ t) := by
  have hk := h.k
  have htop := h.top_le
  have hlen : t.bytes.length = t.length := rfl
  refine ⟨?_, ?_, ?_, fun i hi => ?_⟩
  · show l.k + t.length = _
    rw [length_append, hk]
  · show (l.buffer.write l.k t.bytes).Begins _
    rw [hk]
    exact h.begins.write t.bytes
  · show (l.buffer.write l.k t.bytes).top ≤ _
    rw [Region.top_write, length_append]
    split <;> omega
  · rw [length_append] at hi
    show (l.buffer.write l.k t.bytes).get i = r.get i
    rw [Region.get_write_of_le _ (by omega)]
    exact h.behind i (by omega)

/-- Behind a copied text stands its terminator, and nothing has been stored further on. -/
theorem copy (t : CText) : (l.copy t).Listed r (s ++ t) ∧
    (l.copy t).buffer.get (s ++ t).length = 0 ∧ (l.copy t).buffer.top = (s ++ t).length + 1 := by
  have hk := h.k
  have hlen : t.bytes.length = t.length := rfl
  have htop : (l.buffer.strcpy l.k t.bytes).top = (s ++ t).length + 1 := by
    have hle := h.top_le
    rw [Region.top_strcpy, length_append]
    omega
  refine ⟨⟨?_, ?_, htop.le, fun i hi => ?_⟩, ?_, htop⟩
  · show l.k + t.length = _
    rw [length_append, hk]
  · show (l.buffer.strcpy l.k t.bytes).Begins _
    rw [hk]
    exact h.begins.strcpy t.bytes
  · rw [length_append] at hi
    show (l.buffer.strcpy l.k t.bytes).get i = r.get i
    rw [Region.strcpy, Region.get_write_of_le _ (by
      rw [List.length_append, List.length_singleton]
      omega)]
    exact h.behind i (by omega)
  · show (l.buffer.strcpy l.k t.bytes).get _ = 0
    rw [length_append, ← hk]
    exact l.buffer.get_strcpy_end l.k t.bytes

/-- One drive is listed, and its entry ends in a terminator. -/
theorem iteration (d : Drive) :
    (disksIteration w l d).Listed r
        (s ++ driveText d (typeName w (w.getDriveType d))
          ((w.getVolumeInformation d).getD l.nameFileSystem)) ∧
      (disksIteration w l d).buffer.get (s ++ driveText d (typeName w (w.getDriveType d))
        ((w.getVolumeInformation d).getD l.nameFileSystem)).length = 0 ∧
      (disksIteration w l d).buffer.top = (s ++ driveText d (typeName w (w.getDriveType d))
        ((w.getVolumeInformation d).getD l.nameFileSystem)).length + 1 := by
  have hname : ({ l with nameFileSystem := (w.getVolumeInformation d).getD l.nameFileSystem } :
      DisksLoop).Listed r s :=
    ⟨h.k, h.begins, h.top_le, h.behind⟩
  have hletter := (hname.put (letterText d) d.letter rfl).put (lit ":") 58 rfl
  have htype := ((hletter.copy (lit "\n\t type: ")).1.copy (typeName w (w.getDriveType d))).1
  have hsystem := (htype.copy (lit "\n\t file system: ")).1.move
    ((w.getVolumeInformation d).getD l.nameFileSystem)
  have hentry := hsystem.copy (lit "\n")
  simp only [append_assoc] at hentry
  simp only [driveText, append_assoc]
  exact hentry

/-- The loop over drives lists their entries one behind the other. -/
theorem foldl (hend : l.buffer.get s.length = 0) (htop : l.buffer.top = s.length + 1)
    (ds : List Drive) :
    (ds.foldl (disksIteration w) l).Listed r (s ++ listing w l.nameFileSystem ds) ∧
      (ds.foldl (disksIteration w) l).buffer.get (s ++ listing w l.nameFileSystem ds).length = 0 ∧
      (ds.foldl (disksIteration w) l).buffer.top =
        (s ++ listing w l.nameFileSystem ds).length + 1 := by
  induction ds generalizing l s with
  | nil =>
    rw [listing, append_nil]
    exact ⟨h, hend, htop⟩
  | cons d ds ih =>
    obtain ⟨hlisted, hend', htop'⟩ := h.iteration w d
    have hnext := ih hlisted hend' htop'
    rw [append_assoc] at hnext
    exact hnext

end DisksLoop.Listed

/-- A listing of no drives is what the region held. -/
theorem diskListing_nil (h : w.drives = []) : diskListing w r = r := by
  unfold diskListing
  rw [h]
  rfl

/-- **What the listing of the drives leaves.** -/
theorem listed_diskListing (h : w.drives ≠ []) (htop : r.top = 0) :
    (diskListing w r).Begins (listing w w.stray.nameFileSystem w.drives).bytes ∧
      (diskListing w r).get (listing w w.stray.nameFileSystem w.drives).length = 0 ∧
      (diskListing w r).top = (listing w w.stray.nameFileSystem w.drives).length + 1 ∧
      ∀ i, (listing w w.stray.nameFileSystem w.drives).length + 1 ≤ i →
        (diskListing w r).get i = r.get i := by
  have hstart : (⟨r, 0, w.stray.nameFileSystem⟩ : DisksLoop).Listed r .nil :=
    ⟨rfl, r.begins_nil, htop.le.trans (Nat.zero_le _), fun _ _ => rfl⟩
  obtain ⟨d, ds, hds⟩ := List.exists_cons_of_ne_nil h
  obtain ⟨hfirst, hend, htop'⟩ := hstart.iteration w d
  obtain ⟨hlisted, hlast, htop''⟩ := hfirst.foldl w hend htop' ds
  unfold diskListing
  rw [hds, List.foldl_cons]
  exact ⟨hlisted.begins, hlast, htop'', hlisted.behind⟩

/-- The reply is the listing. -/
theorem cString_diskListing (h : w.drives ≠ []) (htop : r.top = 0) :
    (diskListing w r).cString 0 = (listing w w.stray.nameFileSystem w.drives).bytes := by
  obtain ⟨hbegins, hend, _⟩ := listed_diskListing w r h htop
  exact hbegins.cString (listing w _ _).nonzero hend

/-! ## The free space of the drives -/

/-- What the variables hold at each fixed drive, if they begin as `space`: a drive that
cannot be asked shows the space of the one before it. -/
def spaces : DiskSpace → List Drive → List DiskSpace
  | _, [] => []
  | space, d :: ds =>
    (w.getDiskFreeSpace d).getD space :: spaces ((w.getDiskFreeSpace d).getD space) ds

/-- What the variables hold at each fixed drive. -/
def shownSpaces : List DiskSpace := spaces w w.stray.diskSpace w.fixedDrives

theorem length_spaces (space : DiskSpace) (ds : List Drive) :
    (spaces w space ds).length = ds.length := by
  induction ds generalizing space with
  | nil => rfl
  | cons d ds ih => rw [spaces, List.length_cons, ih, List.length_cons]

theorem length_figureBytes (space : DiskSpace) : (figureBytes w space).length = 8 := by
  unfold figureBytes
  rw [List.length_map, List.length_range]

theorem getD_figureBytes (space : DiskSpace) {j : ℕ} (hj : j < 8) :
    (figureBytes w space).getD j 0 =
      ((Region.ofList (List.ofFn fun i : Fin gcvtSize => w.stray.figure i)).strcpy 0
        (figureOf w space).bytes).get j := by
  rw [List.getD_eq_getElem _ _ (by rw [length_figureBytes]; exact hj)]
  simp only [figureBytes, List.getElem_map, List.getElem_range]

/-- The first bytes are those of the figure and its terminator. -/
theorem take_figureBytes (space : DiskSpace) {k : ℕ} (hk : k ≤ 8)
    (hfigure : k ≤ (figureOf w space).length + 1) :
    (figureBytes w space).take k = ((figureOf w space).bytes ++ [0]).take k := by
  have hlen : (figureOf w space).length = (figureOf w space).bytes.length := rfl
  refine List.ext_getElem ?_ fun j h₁ h₂ => ?_
  · rw [List.length_take, List.length_take, length_figureBytes, List.length_append,
      List.length_singleton]
    omega
  · rw [List.length_take] at h₁
    have hj : j < (figureBytes w space).length := by omega
    have hget := (Region.ofList (List.ofFn fun i : Fin gcvtSize => w.stray.figure i)).get_write_add
      0 ((figureOf w space).bytes ++ [0])
      (show j < ((figureOf w space).bytes ++ [0]).length by
        rw [List.length_append, List.length_singleton]
        omega)
    rw [Nat.zero_add] at hget
    rw [List.getElem_take, List.getElem_take, ← List.getD_eq_getElem _ 0 hj,
      getD_figureBytes w space (by omega)]
    exact hget

/-- The thirteen bytes of a drive. -/
def spaceBlock (d : Drive) (space : DiskSpace) : List UInt8 :=
  [d.letter, 58, 32] ++ (figureBytes w space).take 6 ++ ascii " Gb\n"

theorem length_spaceBlock (d : Drive) (space : DiskSpace) : (spaceBlock w d space).length = 13 := by
  have htake : ((figureBytes w space).take 6).length = 6 := by
    rw [List.length_take, length_figureBytes]
    decide
  simp only [spaceBlock, List.length_append, htake]
  rfl

/-- The bytes of the figure in the block. -/
theorem getD_spaceBlock_figure (d : Drive) (space : DiskSpace) {j : ℕ} (hj : j < 6) :
    (spaceBlock w d space).getD (3 + j) 0 = (figureBytes w space).getD j 0 := by
  have hlen := length_figureBytes w space
  have htake : ((figureBytes w space).take 6).length = 6 := by
    rw [List.length_take, hlen]
    decide
  unfold spaceBlock
  rw [List.append_assoc, List.getD_append_right _ _ _ _ (by simp),
    List.getD_append _ _ _ _ (by simp [htake, hj])]
  simp only [List.length_cons, List.length_nil, Nat.zero_add, Nat.add_sub_cancel_left]
  rw [List.getD_eq_getElem _ _ (by omega), List.getD_eq_getElem _ _ (by omega),
    List.getElem_take]

/-- The unit behind it. -/
theorem getD_spaceBlock_unit (d : Drive) (space : DiskSpace) (j : ℕ) :
    (spaceBlock w d space).getD (9 + j) 0 = (lit " Gb\n").bytes.getD j 0 := by
  have hfront : ([d.letter, 58, 32] ++ (figureBytes w space).take 6).length = 9 := by
    rw [List.length_append, List.length_take, length_figureBytes]
    rfl
  unfold spaceBlock
  rw [List.getD_append_right _ _ _ _ (by omega), hfront, Nat.add_sub_cancel_left]
  rfl

/-- The five stores of an iteration come to one block. -/
theorem spaceIteration_fixed {l : SpaceLoop} {d : Drive} (hd : w.getDriveType d = driveFixed) :
    (spaceIteration w l d).buffer.get =
        (l.buffer.write (l.count * 13)
          (spaceBlock w d ((w.getDiskFreeSpace d).getD l.space))).get ∧
      (spaceIteration w l d).buffer.top = max l.buffer.top (l.count * 13 + 13) ∧
      (spaceIteration w l d).count = l.count + 1 ∧
      (spaceIteration w l d).space = (w.getDiskFreeSpace d).getD l.space := by
  obtain ⟨space, hspace⟩ : ∃ space, space = (w.getDiskFreeSpace d).getD l.space := ⟨_, rfl⟩
  have hlen := length_figureBytes w space
  have hunit : (lit " Gb\n").bytes.length = 4 := rfl
  unfold spaceIteration
  rw [if_pos hd, ← hspace]
  refine ⟨?_, ?_, rfl, rfl⟩
  · ext1 i
    simp only [Region.get_write, Region.get_set, hlen, hunit, length_spaceBlock]
    by_cases hin : l.count * 13 ≤ i ∧ i < l.count * 13 + 13
    · obtain ⟨j, rfl⟩ := Nat.exists_eq_add_of_le hin.1
      rw [if_pos hin, Nat.add_sub_cancel_left]
      rcases Nat.lt_or_ge j 3 with hj | hj
      · rw [if_neg (by omega), if_neg (by omega)]
        obtain rfl | rfl | rfl : j = 0 ∨ j = 1 ∨ j = 2 := by omega
        · rw [if_neg (by omega), if_pos (by omega)]
          rfl
        · rw [if_pos rfl]
          rfl
        · rw [if_neg (by omega), if_neg (by omega), if_pos rfl]
          rfl
      rcases Nat.lt_or_ge j 9 with hj' | hj'
      · obtain ⟨m, rfl⟩ := Nat.exists_eq_add_of_le hj
        rw [if_neg (by omega), if_pos (by omega), getD_spaceBlock_figure w d space (by omega)]
        congr 1
        omega
      · obtain ⟨m, rfl⟩ := Nat.exists_eq_add_of_le hj'
        rw [if_pos (by omega), getD_spaceBlock_unit]
        congr 1
        omega
    · rw [if_neg hin, if_neg (by omega), if_neg (by omega), if_neg (by omega), if_neg (by omega),
        if_neg (by omega)]
  · simp only [Region.top_set, Region.top_write, hlen, hunit, OfNat.ofNat_ne_zero, if_false]
    omega

/-- The records of these fixed drives, if the variables begin as `space`. -/
def spaceRecords : DiskSpace → List Drive → List UInt8
  | _, [] => []
  | space, d :: ds =>
    spaceBlock w d ((w.getDiskFreeSpace d).getD space) ++
      spaceRecords ((w.getDiskFreeSpace d).getD space) ds

theorem length_spaceRecords (space : DiskSpace) (ds : List Drive) :
    (spaceRecords w space ds).length = 13 * ds.length := by
  induction ds generalizing space with
  | nil => rfl
  | cons d ds ih =>
    rw [spaceRecords, List.length_append, length_spaceBlock, ih, List.length_cons]
    omega

/-- These records stand at the start, and nothing has been stored behind them. -/
structure SpaceLoop.Listed (l : SpaceLoop) (records : List UInt8) : Prop where
  count : l.count * 13 = records.length
  top : l.buffer.top = records.length
  begins : l.buffer.Begins records
  behind : ∀ i, records.length ≤ i → l.buffer.get i = r.get i

/-- One more drive is listed. -/
theorem SpaceLoop.Listed.iteration {w : Win32} {r : Region UInt8} {l : SpaceLoop}
    {records : List UInt8} (h : l.Listed r records) {d : Drive}
    (hd : w.getDriveType d = driveFixed) :
    (spaceIteration w l d).Listed r
      (records ++ spaceBlock w d ((w.getDiskFreeSpace d).getD l.space)) := by
  obtain ⟨hget, htop, hcount, _⟩ := spaceIteration_fixed w (l := l) hd
  obtain ⟨space, hspace⟩ : ∃ space, space = (w.getDiskFreeSpace d).getD l.space := ⟨_, rfl⟩
  rw [← hspace, h.count] at hget
  rw [← hspace]
  have hblock := length_spaceBlock w d space
  have hold := h.count
  refine ⟨?_, ?_, fun j hj => ?_, fun i hi => ?_⟩
  · rw [hcount, List.length_append, hblock]
    omega
  · rw [htop, h.top, List.length_append, hblock]
    omega
  · rw [hget]
    exact h.begins.write _ j hj
  · rw [List.length_append, hblock] at hi
    rw [hget, Region.get_write_of_le _ (by omega)]
    exact h.behind i (by omega)

/-- The loop over fixed drives lists them one behind the other. -/
theorem SpaceLoop.Listed.foldl {w : Win32} {r : Region UInt8} (ds : List Drive)
    (hds : ∀ d ∈ ds, w.getDriveType d = driveFixed) {l : SpaceLoop} {records : List UInt8}
    (h : l.Listed r records) :
    (ds.foldl (spaceIteration w) l).Listed r (records ++ spaceRecords w l.space ds) := by
  induction ds generalizing l records with
  | nil =>
    rw [spaceRecords, List.append_nil]
    exact h
  | cons d ds ih =>
    have hd := hds d List.mem_cons_self
    have hnext := ih (fun d hd => hds d (List.mem_cons_of_mem _ hd)) (h.iteration hd)
    rw [(spaceIteration_fixed w hd).2.2.2, List.append_assoc] at hnext
    exact hnext

/-- The drives that are not fixed are passed over. -/
theorem foldl_fixedDrives (l : SpaceLoop) :
    w.drives.foldl (spaceIteration w) l = w.fixedDrives.foldl (spaceIteration w) l := by
  have hskip : spaceIteration w = fun l d =>
      if decide (w.getDriveType d = driveFixed) = true then spaceIteration w l d else l := by
    ext1 l
    ext1 d
    by_cases hd : w.getDriveType d = driveFixed
    · rw [if_pos (decide_eq_true hd)]
    · rw [if_neg (by simpa using hd)]
      exact if_neg hd
  unfold Win32.fixedDrives
  rw [List.foldl_filter, ← hskip]

/-- `memcpy` onto itself moves nothing. -/
theorem SpaceLoop.Listed.finish {r : Region UInt8} {l : SpaceLoop} {records : List UInt8}
    (h : l.Listed r records) :
    l.finish.get = l.buffer.get ∧ l.finish.top = l.buffer.top := by
  have htop := h.top
  have hcount := h.count
  unfold SpaceLoop.finish
  constructor
  · ext1 i
    rw [Region.get_blit, Nat.sub_zero]
    split <;> rfl
  · rw [Region.top_blit]
    split <;> omega

/-- All the records of the reply. -/
def allRecords : List UInt8 := spaceRecords w w.stray.diskSpace w.fixedDrives

/-- **What the listing of the free space leaves.** -/
theorem listed_spaceListing (htop : r.top = 0) :
    (spaceListing w r).Begins (allRecords w) ∧
      (∀ i, (allRecords w).length ≤ i → (spaceListing w r).get i = r.get i) ∧
      (spaceListing w r).top = (allRecords w).length := by
  have hstart : (⟨r, 0, w.stray.diskSpace⟩ : SpaceLoop).Listed r [] :=
    ⟨rfl, htop, r.begins_nil, fun _ _ => rfl⟩
  have hlisted := hstart.foldl w.fixedDrives fun d hd => by
    simpa using (List.mem_filter.mp hd).2
  obtain ⟨hget, hfinish⟩ := hlisted.finish
  unfold spaceListing
  rw [foldl_fixedDrives]
  refine ⟨fun j hj => ?_, fun i hi => ?_, ?_⟩
  · rw [hget]
    exact hlisted.begins j hj
  · rw [hget]
    exact hlisted.behind i hi
  · rw [hfinish]
    exact hlisted.top

/-- With a zero behind them, the reply is the records up to the first zero. -/
theorem cString_spaceListing (htop : r.top = 0) (hzero : r.get (allRecords w).length = 0) :
    (spaceListing w r).cString 0 = (allRecords w).takeWhile (· ≠ 0) := by
  obtain ⟨hbegins, hbehind, _⟩ := listed_spaceListing w r htop
  refine hbegins.cString_takeWhile (Region.strlen_le_of_get _ ?_)
  rw [Nat.zero_add, hbehind _ (Nat.le_refl _), hzero]

/-! ## The security of a path -/

/-- What the owner query appends. -/
def ownerTexts (path : CText) : List CText := [lit "Owner: ", ownerName w path]

/-- What an iteration of the loop over the list appends. -/
def entryTexts (ace : Ace) : Except Misuse (List CText) := do
  keep .overrun (aceArrays w ace)
  match w.lookupAccountSid ace.sid accountLen with
  | none => return []
  | some user =>
    let sidStr ← readSet .sidStr (w.convertSidToStringSid ace.sid)
    return aceTexts ace user sidStr

/-- What the query for the access rights appends. -/
def rightsTexts (path : CText) : Except Misuse (List CText) := do
  let acl ← w.aclOf path
  match acl.head? with
  | none => return []
  | some ace => entryTexts w ace

theorem aceIteration_eq (ace : Ace) :
    aceIteration w r ace = (entryTexts w ace).map r.strcats := by
  unfold aceIteration entryTexts
  cases keep Misuse.overrun (aceArrays w ace) with
  | error misuse => rfl
  | ok _ =>
    cases w.lookupAccountSid ace.sid accountLen with
    | none => rfl
    | some user =>
      cases w.convertSidToStringSid ace.sid with
      | none => rfl
      | some sidStr => rfl

/-- The texts go behind what stands in the region. -/
theorem accessRight_eq (path : CText) :
    accessRight w r path = (rightsTexts w path).map r.strcats := by
  unfold accessRight rightsTexts
  cases w.aclOf path with
  | error misuse => rfl
  | ok acl =>
    cases acl with
    | nil => rfl
    | cons ace acl => exact aceIteration_eq w r ace

end SystemInfo
end BsitLabs
