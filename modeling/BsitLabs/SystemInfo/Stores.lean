import BsitLabs.SystemInfo.Lengths

/-!
# Which stores keep to their arrays

Four of the builders of `Replies` store into arrays of their own what the system tells them.
For each of them: exactly when the stores fit, as a condition on what the system answers,
and what the builder leaves then.

* `listDrives_eq_ok_iff` --- the names of the volumes and of their file systems;
* `listSpace_eq_ok_iff` --- the texts of `gcvt`;
* `owner_eq_ok_iff` --- the names of the owner and of its domain;
* `accessRight_eq_ok_iff` --- the names of the account of the first entry.  There the
  list must be one that can be followed, and the account's identifier must have a text.
-/

namespace BsitLabs
namespace SystemInfo

open MachineInt CText

variable (w : Win32) (r : Region UInt8)

/-- A number with fewer digits. -/
theorem places_le {b n k : ℕ} (hk : k ≠ 0) (h : n < b ^ k) : places b n ≤ k :=
  Nat.succ_le_of_lt (Nat.log_lt_of_lt_pow' hk h)

/-! ## The drives -/

/-- The names that a volume answers with have room. -/
def VolumeNamesFit : Prop := ∀ d ∈ w.drives, ∀ name ∈ w.getVolumeInformation d,
  name.length < nameSize ∧ (w.volumeName d).length < nameSize

/-- The names of the drives always have room, so those of the volumes decide. -/
theorem fit_disksTypesArrays_iff {j : ℕ} {ds : List Drive} (h : j + ds.length ≤ 26) :
    Fit (disksTypesArrays w j ds) ↔ ∀ d ∈ ds, ∀ name ∈ w.getVolumeInformation d,
      name.length < nameSize ∧ (w.volumeName d).length < nameSize := by
  induction ds generalizing j with
  | nil => exact iff_of_true fit_nil fun _ h => absurd h List.not_mem_nil
  | cons d ds ih =>
    rw [List.length_cons] at h
    have hnames : disksSize = 78 := rfl
    have hname : 3 * j + 2 ≤ disksSize := by omega
    rw [disksTypesArrays, fit_cons_iff, fit_append_iff, fit_append_iff, fit_storeOf_iff,
      fit_storeOf_iff, ih (by omega), List.forall_mem_cons, and_iff_right hname, ← and_assoc]
    refine and_congr_left fun _ => ?_
    cases w.getVolumeInformation d with
    | none => simp
    | some name => simp [and_comm]

theorem fit_disksTypes_iff : Fit (disksTypesArrays w 0 w.drives) ↔ VolumeNamesFit w :=
  fit_disksTypesArrays_iff w ((Nat.zero_add _).le.trans (length_drives_le w))

/-- **What the loop over the drives leaves.** -/
theorem listDrives_eq_ok_iff {reply : Region UInt8} :
    listDrives w r = .ok reply ↔ VolumeNamesFit w ∧ diskListing w r = reply := by
  unfold listDrives
  rw [keep_bind_eq_ok_iff, fit_disksTypes_iff]
  exact and_congr_right fun _ => ⟨Except.ok.inj, congrArg Except.ok⟩

/-! ## The free space -/

/-- The texts of `gcvt` have room. -/
def FiguresFit : Prop := ∀ space ∈ shownSpaces w, (figureOf w space).length < gcvtSize

/-- The names of the drives have room, so the texts of `gcvt` decide. -/
theorem fit_freeSpaceArrays_iff {l : SpaceLoop} {ds : List Drive} (h : l.count + ds.length ≤ 26) :
    Fit (freeSpaceArrays w l ds) ↔
      ∀ space ∈ spaces w l.space (ds.filter fun d => w.getDriveType d = driveFixed),
        (figureOf w space).length < gcvtSize := by
  induction ds generalizing l with
  | nil => exact iff_of_true fit_nil fun _ h => absurd h List.not_mem_nil
  | cons d ds ih =>
    rw [List.length_cons] at h
    have hnames : disksSize = 78 := rfl
    have hname : 3 * l.count + 2 ≤ disksSize := by omega
    rw [freeSpaceArrays, fit_cons_iff, fit_append_iff, and_iff_right hname, List.filter_cons]
    by_cases hd : w.getDriveType d = driveFixed
    · obtain ⟨_, _, hcount, hspace⟩ := spaceIteration_fixed w (l := l) hd
      rw [if_pos hd, if_pos (decide_eq_true hd), fit_storeOf_iff, ih (by omega), hspace, spaces]
      simp only [Option.mem_def, Option.some.injEq, forall_eq', List.mem_cons, forall_eq_or_imp]
    · have hskip : spaceIteration w l d = l := if_neg hd
      rw [if_neg hd, if_neg (by simpa using hd), hskip, ih (by omega)]
      exact and_iff_right fit_nil

theorem fit_freeSpace_iff :
    Fit (freeSpaceArrays w ⟨r, 0, w.stray.diskSpace⟩ w.drives) ↔ FiguresFit w :=
  fit_freeSpaceArrays_iff w (l := ⟨r, 0, w.stray.diskSpace⟩)
    ((Nat.zero_add _).le.trans (length_drives_le w))

/-- **What the loop over the fixed drives leaves.** -/
theorem listSpace_eq_ok_iff {reply : Region UInt8} :
    listSpace w r = .ok reply ↔ FiguresFit w ∧ spaceListing w r = reply := by
  unfold listSpace
  rw [keep_bind_eq_ok_iff, fit_freeSpace_iff]
  exact and_congr_right fun _ => ⟨Except.ok.inj, congrArg Except.ok⟩

/-! ## The owner of a path -/

/-- The names that the lookup of the owner stores have room. -/
structure OwnerNamesFit (path : CText) : Prop where
  user : ∀ user ∈ w.lookupAccountSid (w.ownerSid path) w.stray.userLen, user.length < ownerSize
  domain : ∀ domain ∈ w.lookupDomain (w.ownerSid path) w.stray.domainLen,
    domain.length < ownerSize

variable (path : CText)

theorem fit_ownerArrays_iff : Fit (ownerArrays w path) ↔ OwnerNamesFit w path := by
  have hmax : ∀ s ∈ (if (w.ownerUser path).length = 0 then some (lit "Max") else none),
      s.length < ownerSize := fun s hs => by
    split at hs
    · obtain rfl := Option.some.inj hs
      decide
    · cases hs
  rw [ownerArrays, fit_append_iff, fit_append_iff, fit_storeOf_iff, fit_storeOf_iff,
    fit_storeOf_iff, and_iff_left hmax]
  exact ⟨fun h => ⟨h.1, h.2⟩, fun h => ⟨h.user, h.domain⟩⟩

/-- **What the owner query leaves.** -/
theorem owner_eq_ok_iff {reply : Region UInt8} :
    owner w r path = .ok reply ↔
      OwnerNamesFit w path ∧ r.strcats (ownerTexts w path) = reply := by
  unfold owner
  rw [keep_bind_eq_ok_iff, fit_ownerArrays_iff]
  exact and_congr_right fun _ => ⟨Except.ok.inj, congrArg Except.ok⟩

/-- A name that fits is short. -/
theorem OwnerNamesFit.length_lt {w : Win32} {path : CText} (h : OwnerNamesFit w path) :
    (ownerName w path).length < ownerSize := by
  unfold ownerName
  split
  · decide
  · unfold Win32.ownerUser
    cases hlookup : w.lookupAccountSid (w.ownerSid path) w.stray.userLen with
    | none => exact (show 0 < ownerSize by decide)
    | some name => exact h.user name hlookup

/-! ## The access rights of a path -/

/-- What the lookup of an entry's account stores has room, and if there is an account, its
identifier has a text. -/
structure EntryKept (ace : Ace) : Prop where
  user : ∀ user ∈ w.lookupAccountSid ace.sid accountLen, user.length < accountSize
  domain : ∀ domain ∈ w.lookupDomain ace.sid accountLen, domain.length < accountSize
  text : w.lookupAccountSid ace.sid accountLen ≠ none → w.convertSidToStringSid ace.sid ≠ none

/-- The text of a mask is short. -/
theorem length_mask_lt (mask : UInt32) : (lit "0x" ++ hex mask.toNat).length < maskSize := by
  have hplaces : places 16 mask.toNat ≤ 8 :=
    places_le (by decide) (mask.toNat_lt.trans_le (by decide))
  have hhex : (lit "0x").length = 2 := rfl
  have hsize : maskSize = 16 := rfl
  rw [length_append, length_hex, hhex, hsize]
  unfold places at hplaces
  omega

theorem fit_aceArrays_iff (ace : Ace) :
    Fit (aceArrays w ace) ↔
      (∀ user ∈ w.lookupAccountSid ace.sid accountLen, user.length < accountSize) ∧
        ∀ domain ∈ w.lookupDomain ace.sid accountLen, domain.length < accountSize := by
  have hclear : Fit [⟨accountSize, 32⟩, ⟨accountSize, 32⟩] := by decide
  have hmask : ∀ s ∈ (w.lookupAccountSid ace.sid accountLen).map fun _ =>
      lit "0x" ++ hex ace.mask.toNat, s.length < maskSize := fun s hs => by
    obtain ⟨_, _, rfl⟩ := Option.map_eq_some_iff.mp hs
    exact length_mask_lt ace.mask
  rw [aceArrays, fit_append_iff, fit_append_iff, fit_append_iff, fit_storeOf_iff, fit_storeOf_iff,
    fit_storeOf_iff, and_iff_right hclear, and_iff_left hmask]

/-- What is appended for an entry, if it is kept. -/
theorem entryTexts_eq_ok_iff {ace : Ace} {texts : List CText} :
    entryTexts w ace = .ok texts ↔ Fit (aceArrays w ace) ∧
      (w.lookupAccountSid ace.sid accountLen = none ∧ texts = [] ∨
        ∃ user sidStr, w.lookupAccountSid ace.sid accountLen = some user ∧
          w.convertSidToStringSid ace.sid = some sidStr ∧ texts = aceTexts ace user sidStr) := by
  unfold entryTexts
  rw [keep_bind_eq_ok_iff]
  refine and_congr_right fun _ => ?_
  cases w.lookupAccountSid ace.sid accountLen with
  | none => simp [pure, Except.pure, eq_comm]
  | some user =>
    simp only [except_bind_eq_ok_iff, readSet_eq_ok_iff, reduceCtorEq, false_and, false_or,
      Option.some.injEq]
    constructor
    · rintro ⟨sidStr, hsid, h⟩
      exact ⟨user, sidStr, rfl, hsid, (Except.ok.inj h).symm⟩
    · rintro ⟨_, sidStr, rfl, hsid, rfl⟩
      exact ⟨sidStr, hsid, rfl⟩

theorem exists_entryTexts_iff (ace : Ace) :
    (∃ texts, entryTexts w ace = .ok texts) ↔ EntryKept w ace := by
  simp only [entryTexts_eq_ok_iff, fit_aceArrays_iff]
  constructor
  · rintro ⟨_, ⟨huser, hdomain⟩, ⟨hnone, _⟩ | ⟨_, sidStr, _, hsid, _⟩⟩
    · exact ⟨huser, hdomain, fun h => absurd hnone h⟩
    · exact ⟨huser, hdomain, fun _ => hsid ▸ Option.some_ne_none sidStr⟩
  · rintro ⟨huser, hdomain, htext⟩
    cases hlookup : w.lookupAccountSid ace.sid accountLen with
    | none => exact ⟨[], ⟨fun _ h => (by cases h), hdomain⟩, .inl ⟨rfl, rfl⟩⟩
    | some user =>
      obtain ⟨sidStr, hsid⟩ :=
        Option.ne_none_iff_exists'.mp (htext (hlookup ▸ Option.some_ne_none user))
      exact ⟨_, ⟨hlookup ▸ huser, hdomain⟩, .inr ⟨user, sidStr, rfl, hsid, rfl⟩⟩

/-- The list of a path can be followed, and its first entry is kept. -/
def RightsKept : Prop :=
  ∃ acl, w.daclOf path = some (some acl) ∧ ∀ ace ∈ acl.head?, EntryKept w ace

variable {w path}

/-- What is appended for a list that can be followed. -/
theorem rightsTexts_of_dacl {acl : Acl} (h : w.daclOf path = some (some acl)) :
    rightsTexts w path = match acl.head? with
      | none => .ok []
      | some ace => entryTexts w ace := by
  unfold rightsTexts
  rw [w.aclOf_eq_ok_iff.mpr h]
  rfl

variable (w path)

theorem exists_rightsTexts_iff :
    (∃ texts, rightsTexts w path = .ok texts) ↔ RightsKept w path := by
  have hacl : ∀ {texts}, rightsTexts w path = .ok texts →
      ∃ acl, w.daclOf path = some (some acl) := fun h => by
    obtain ⟨acl, hacl, _⟩ := except_bind_eq_ok_iff.mp h
    exact ⟨acl, w.aclOf_eq_ok_iff.mp hacl⟩
  have hfollowed : ∀ {acl : Acl}, w.daclOf path = some (some acl) →
      ((∃ texts, rightsTexts w path = .ok texts) ↔ ∀ ace ∈ acl.head?, EntryKept w ace) :=
    fun {acl} hdacl => by
      rw [rightsTexts_of_dacl hdacl]
      cases acl with
      | nil => exact iff_of_true ⟨[], rfl⟩ fun _ h => by cases h
      | cons ace acl =>
        rw [List.head?_cons, exists_entryTexts_iff]
        simp
  constructor
  · rintro ⟨texts, h⟩
    obtain ⟨acl, hdacl⟩ := hacl h
    exact ⟨acl, hdacl, (hfollowed hdacl).mp ⟨texts, h⟩⟩
  · rintro ⟨acl, hdacl, hkept⟩
    exact (hfollowed hdacl).mpr hkept

/-- A null list is what the query ends at, if there is one. -/
theorem rightsTexts_eq_nullAcl_iff :
    rightsTexts w path = .error .nullAcl ↔ w.daclOf path = some none := by
  have hentry : ∀ ace, entryTexts w ace ≠ .error .nullAcl := fun ace => by
    unfold entryTexts keep
    split
    · cases w.lookupAccountSid ace.sid accountLen with
      | none => exact fun h => nomatch h
      | some user =>
        cases w.convertSidToStringSid ace.sid with
        | none => exact fun h => nomatch h
        | some sidStr => exact fun h => nomatch h
    · exact fun h => nomatch h
  unfold rightsTexts Win32.aclOf
  cases w.daclOf path with
  | none => exact iff_of_false (fun h => nomatch h) fun h => nomatch h
  | some pointer =>
    cases pointer with
    | none => exact iff_of_true rfl rfl
    | some acl =>
      refine iff_of_false ?_ fun h => nomatch h
      cases acl with
      | nil => exact fun h => nomatch h
      | cons ace acl => exact hentry ace

/-- **What the query for the access rights leaves.** -/
theorem accessRight_eq_ok_iff {reply : Region UInt8} :
    accessRight w r path = .ok reply ↔
      ∃ texts, rightsTexts w path = .ok texts ∧ r.strcats texts = reply := by
  rw [accessRight_eq, except_map_eq_ok_iff]

end SystemInfo
end BsitLabs
