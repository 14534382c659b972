import BsitLabs.Tcp.ReplyTexts

/-!
# Where the request handlers store

Besides `buf_send`, the handlers store into arrays of their own, or have the system store
there and announce how much room there is, and one of them takes an index from the system.
`effects` lists all of that for each of the eight requests, and `Contained` says that all
of it is in range and that the reply ends inside `buf_send`.

The version, the clocks and the memory are always contained.  Of the others,
`effects_contained_iff` says when: the types of the drives must be among the four of the
table, and the entries must fit; the texts of `gcvt` must fit; the lengths that the owner
query never sets must hold no more than fifty; and the query for the access rights, which
announces 512 bytes for each of two arrays of 32, must find a list without an entry.  A null
list ends it before it stores anything.
-/

namespace BsitLabs
namespace Tcp

open MachineInt SystemInfo CText

/-- What a handler does to memory. -/
structure Effects where
  /-- `buf_send`, or how the handler misuses memory. -/
  send : Except Misuse (Region UInt8)
  /-- The stores into arrays of its own. -/
  arrays : List Extent
  /-- The capacities that it announces to the system. -/
  announced : List Extent
  /-- The indices into `disks_types`. -/
  typeIndices : List ℕ

/-- The reply is inside `buf_send`, and so is the end of its string.  A handler that dies at a
null list has stored nothing. -/
def SendContained (send : Except Misuse (Region UInt8)) : Prop :=
  match send with
  | .ok reply => reply.top ≤ bufSize ∧ reply.strlen 0 < bufSize
  | .error misuse => misuse = .nullAcl

/-- Nothing is out of range, and `strlen` ends inside `buf_send`. -/
structure Effects.Contained (e : Effects) : Prop where
  send : SendContained e.send
  arrays : Fit e.arrays
  announced : Fit e.announced
  typeIndices : ∀ i ∈ e.typeIndices, i < disksTypes.length

/-! ## What the system stores -/

/-- The system keeps to the capacities that it has been told. -/
structure WithinCapacity (w : Win32) : Prop where
  volume : ∀ d, (w.volumeName d).length < nameSize
  fileSystem : ∀ d name, w.getVolumeInformation d = some name → name.length < nameSize
  account : ∀ sid capacity name, w.lookupAccountSid sid capacity = some name →
    name.length < capacity
  domain : ∀ sid capacity name, w.lookupDomain sid capacity = some name → name.length < capacity

/-- The entry that the query for the access rights of a path looks at. -/
def firstAce (w : Win32) (path : CText) : Option Ace := (w.aclOf path).toOption.bind List.head?

variable (w : Win32) (bufRecv : Buffer bufSize)

/-- What the handler of a request does. -/
def effects (t : RequestType) : Effects :=
  let send := requestHandler w bufRecv clearSend t
  match t with
  | .disksTypes =>
    { send := send
      arrays := disksTypesArrays w 0 w.drives
      announced := w.drives.flatMap fun _ => [⟨nameSize, nameSize⟩, ⟨nameSize, nameSize⟩]
      typeIndices := w.drives.map w.getDriveType }
  | .freeSpace =>
    { send := send
      arrays := freeSpaceArrays w ⟨clearSend, 0, w.stray.diskSpace⟩ w.drives
      announced := []
      typeIndices := [] }
  | .owner =>
    { send := send
      arrays := pathExtent bufRecv :: ownerArrays w (pathOf bufRecv)
      announced := [⟨ownerSize, w.stray.userLen⟩, ⟨ownerSize, w.stray.domainLen⟩]
      typeIndices := [] }
  | .accessRight =>
    { send := send
      arrays := pathExtent bufRecv ::
        (firstAce w (pathOf bufRecv)).toList.flatMap (aceArrays w)
      announced := (firstAce w (pathOf bufRecv)).toList.flatMap fun _ =>
        [⟨accountSize, accountLen⟩, ⟨accountSize, accountLen⟩]
      typeIndices := [] }
  | _ => { send := send, arrays := [], announced := [], typeIndices := [] }

/-- The requests and answers with which everything is in range. -/
def InRange (t : RequestType) : Prop :=
  match t with
  | .disksTypes => (∀ d ∈ w.drives, w.getDriveType d < 4) ∧
      listingLength w w.stray.nameFileSystem w.drives < bufSize
  | .freeSpace => ∀ space ∈ shownSpaces w, (figureOf w space).length < gcvtSize
  | .owner => 0 ≤ schar (bufRecv.get 1) ∧ w.stray.userLen ≤ ownerSize ∧
      w.stray.domainLen ≤ ownerSize
  | .accessRight => 0 ≤ schar (bufRecv.get 1) ∧
      (w.daclOf (pathOf bufRecv) = some none ∨ w.daclOf (pathOf bufRecv) = some (some []))
  | _ => True

/-! ## The reply -/

section Send

variable {w bufRecv} {t : RequestType}

/-- Only the query for the access rights dies at a null list. -/
theorem requestHandler_eq_nullAcl_iff {r : Region UInt8} :
    requestHandler w bufRecv r t = .error .nullAcl ↔
      t = .accessRight ∧ 0 ≤ schar (bufRecv.get 1) ∧ w.daclOf (pathOf bufRecv) = some none := by
  have hpath : takePath bufRecv ≠ .error .nullAcl := keep_bind_ok_ne (by decide)
  have hother : ∀ {p : Prop}, t ≠ .accessRight → requestHandler w bufRecv r t ≠ .error .nullAcl →
      (requestHandler w bufRecv r t = .error .nullAcl ↔ t = .accessRight ∧ p) := fun ht h =>
    iff_of_false h fun h => ht h.1
  cases t with
  | disksTypes => exact hother (by decide) (keep_bind_ok_ne (by decide))
  | freeSpace => exact hother (by decide) (keep_bind_ok_ne (by decide))
  | owner =>
    refine hother (by decide) fun h => ?_
    rcases except_bind_eq_error_iff.mp h with h | ⟨path, _, h⟩
    · exact hpath h
    · exact keep_bind_ok_ne (by decide) h
  | accessRight =>
    refine except_bind_eq_error_iff.trans ?_
    simp only [accessRight_eq, except_map_eq_error_iff, rightsTexts_eq_nullAcl_iff, hpath, false_or,
      takePath_eq_ok_iff, true_and]
    constructor
    · rintro ⟨_, ⟨hlen, rfl⟩, h⟩
      exact ⟨hlen, h⟩
    · rintro ⟨hlen, h⟩
      exact ⟨_, ⟨hlen, rfl⟩, h⟩
  | _ => exact hother (by decide) fun h => by cases h

variable (w bufRecv t)

/-- When the reply of a handler is contained. -/
theorem sendContained_iff :
    SendContained (requestHandler w bufRecv clearSend t) ↔
      t = .accessRight ∧ 0 ≤ schar (bufRecv.get 1) ∧ w.daclOf (pathOf bufRecv) = some none ∨
        (t.takesPath = true → 0 ≤ schar (bufRecv.get 1)) ∧ Answerable w (pathOf bufRecv) t := by
  rw [← requestHandler_eq_nullAcl_iff (r := clearSend)]
  cases hrun : requestHandler w bufRecv clearSend t with
  | error misuse =>
    refine ⟨fun h => .inl (congrArg Except.error h), ?_⟩
    rintro (h | ⟨hpath, hanswerable⟩)
    · exact Except.error.inj h
    · obtain ⟨reply, hbuild⟩ := (exists_build_iff w _ t clearSend).mpr hanswerable.within
      exact nomatch hrun.symm.trans ((requestHandler_eq_ok_iff w).mpr ⟨hpath, hbuild⟩)
  | ok reply =>
    obtain ⟨hpath, hbuild⟩ := (requestHandler_eq_ok_iff w).mp hrun
    have hbounded := bounded_build w _ hbuild
    have hkept := (exists_build_iff w _ t clearSend).mp ⟨reply, hbuild⟩
    constructor
    · rintro ⟨htop, _⟩
      exact .inr ⟨hpath, hkept, hbounded.top_le_iff.mp htop⟩
    · rintro (h | ⟨_, hanswerable⟩)
      · cases h
      · have htop := hbounded.top_le_iff.mpr hanswerable.short
        exact ⟨htop, hbounded.strlen_lt htop⟩

end Send

/-! ## The handlers -/

variable {bufRecv}

/-- The handlers that use nothing but `buf_send`. -/
theorem contained_of_plain {send : Except Misuse (Region UInt8)} (h : SendContained send) :
    Effects.Contained ⟨send, [], [], []⟩ :=
  ⟨h, fit_nil, fit_nil, fun _ h => absurd h List.not_mem_nil⟩

theorem disksTypes_contained_iff (hw : WithinCapacity w) :
    (effects w bufRecv .disksTypes).Contained ↔ InRange w bufRecv .disksTypes := by
  have hnames : VolumeNamesFit w := fun d _ name hname => ⟨hw.fileSystem d name hname, hw.volume d⟩
  have htypes : (∀ i ∈ w.drives.map w.getDriveType, i < disksTypes.length) ↔
      ∀ d ∈ w.drives, w.getDriveType d < 4 := List.forall_mem_map
  have hannounced : Fit (w.drives.flatMap fun _ => [⟨nameSize, nameSize⟩, ⟨nameSize, nameSize⟩]) :=
    fun a ha => by
      obtain ⟨_, _, ha⟩ := List.mem_flatMap.mp ha
      rw [List.mem_cons, List.mem_singleton, or_self] at ha
      exact ha ▸ le_rfl
  constructor
  · intro h
    obtain ⟨hother, _⟩ | ⟨_, hanswerable⟩ := (sendContained_iff w bufRecv .disksTypes).mp h.send
    · cases hother
    · exact ⟨htypes.mp h.typeIndices, hanswerable.short⟩
  · rintro ⟨hin, hlen⟩
    exact ⟨(sendContained_iff w bufRecv .disksTypes).mpr
        (.inr ⟨fun h => absurd h (by decide), hnames, hlen⟩),
      (fit_disksTypes_iff w).mpr hnames, hannounced, htypes.mpr hin⟩

theorem freeSpace_contained_iff :
    (effects w bufRecv .freeSpace).Contained ↔ InRange w bufRecv .freeSpace := by
  constructor
  · intro h
    exact (fit_freeSpace_iff w clearSend).mp h.arrays
  · intro h
    exact ⟨(sendContained_iff w bufRecv .freeSpace).mpr
        (.inr ⟨fun h => absurd h (by decide), h, trivial⟩),
      (fit_freeSpace_iff w clearSend).mpr h, fit_nil, fun _ h => absurd h List.not_mem_nil⟩

theorem owner_contained_iff (hw : WithinCapacity w) :
    (effects w bufRecv .owner).Contained ↔ InRange w bufRecv .owner := by
  constructor
  · intro h
    have harrays : Fit (pathExtent bufRecv :: ownerArrays w (pathOf bufRecv)) := h.arrays
    have hannounced : Fit [⟨ownerSize, w.stray.userLen⟩, ⟨ownerSize, w.stray.domainLen⟩] :=
      h.announced
    rw [fit_cons_iff, pathExtent_iff] at harrays
    rw [fit_cons_iff, fit_cons_iff] at hannounced
    exact ⟨harrays.1, hannounced.1, hannounced.2.1⟩
  · rintro ⟨hpath, huser, hdomain⟩
    have hnames : OwnerNamesFit w (pathOf bufRecv) :=
      ⟨fun user h => (hw.account _ _ user h).trans_le huser,
        fun domain h => (hw.domain _ _ domain h).trans_le hdomain⟩
    refine ⟨(sendContained_iff w bufRecv .owner).mpr (.inr ⟨fun _ => hpath, hnames, trivial⟩),
      ?_, ?_, fun _ h => absurd h List.not_mem_nil⟩
    · exact (fit_cons_iff _ _).mpr
        ⟨(pathExtent_iff bufRecv).mpr hpath, (fit_ownerArrays_iff w _).mpr hnames⟩
    · show Fit [⟨ownerSize, w.stray.userLen⟩, ⟨ownerSize, w.stray.domainLen⟩]
      rw [fit_cons_iff, fit_cons_iff]
      exact ⟨huser, hdomain, fit_nil⟩

theorem accessRight_contained_iff :
    (effects w bufRecv .accessRight).Contained ↔ InRange w bufRecv .accessRight := by
  constructor
  · intro h
    have hannounced : Fit ((firstAce w (pathOf bufRecv)).toList.flatMap fun _ =>
      [⟨accountSize, accountLen⟩, ⟨accountSize, accountLen⟩]) := h.announced
    obtain ⟨_, hlen, hnull⟩ | ⟨hlen, hanswerable⟩ :=
      (sendContained_iff w bufRecv .accessRight).mp h.send
    · exact ⟨hlen, .inl hnull⟩
    · obtain ⟨acl, hdacl, _⟩ := hanswerable.within
      refine ⟨hlen rfl, .inr ?_⟩
      cases acl with
      | nil => exact hdacl
      | cons ace acl =>
        have hfirst : firstAce w (pathOf bufRecv) = some ace := by
          rw [firstAce, w.aclOf_eq_ok_iff.mpr hdacl]
          rfl
        rw [hfirst] at hannounced
        exact absurd (hannounced ⟨accountSize, accountLen⟩ (by simp)) (by decide)
  · rintro ⟨hlen, hdacl⟩
    have hnone : firstAce w (pathOf bufRecv) = none := by
      rcases hdacl with hdacl | hdacl <;> simp only [firstAce, Win32.aclOf, hdacl] <;> rfl
    have harrays : Fit (pathExtent bufRecv ::
        (firstAce w (pathOf bufRecv)).toList.flatMap (aceArrays w)) := by
      rw [hnone, fit_cons_iff, pathExtent_iff]
      exact ⟨hlen, fit_nil⟩
    have hannounced : Fit ((firstAce w (pathOf bufRecv)).toList.flatMap fun _ =>
        [⟨accountSize, accountLen⟩, ⟨accountSize, accountLen⟩]) := by
      rw [hnone]
      exact fit_nil
    refine ⟨(sendContained_iff w bufRecv .accessRight).mpr ?_, harrays, hannounced,
      fun _ h => absurd h List.not_mem_nil⟩
    refine hdacl.imp (fun hnull => ⟨rfl, hlen, hnull⟩) fun hempty => ⟨fun _ => hlen, ?_, ?_⟩
    · exact ⟨[], hempty, fun _ h => by cases h⟩
    · show rightsLength w (pathOf bufRecv) < bufSize
      rw [rightsLength, hempty]
      exact show 0 < bufSize by decide

/-- **When the handlers store, announce and index in range**, and leave a string that ends
inside `buf_send`. -/
theorem effects_contained_iff (bufRecv : Buffer bufSize) (hw : WithinCapacity w)
    (t : RequestType) :
    (effects w bufRecv t).Contained ↔ InRange w bufRecv t := by
  have hplain : ∀ {t : RequestType}, t.takesPath ≠ true → Answerable w (pathOf bufRecv) t →
      SendContained (requestHandler w bufRecv clearSend t) := fun htakes h =>
    (sendContained_iff w bufRecv _).mpr (.inr ⟨fun hpath => absurd hpath htakes, h⟩)
  cases t with
  | osVersion =>
    exact iff_of_true (contained_of_plain (hplain (by decide) ⟨trivial, trivial⟩)) trivial
  | currentTime =>
    exact iff_of_true (contained_of_plain (hplain (by decide) ⟨trivial, trivial⟩)) trivial
  | osTime =>
    exact iff_of_true (contained_of_plain (hplain (by decide) ⟨trivial, trivial⟩)) trivial
  | memoryStatus =>
    exact iff_of_true (contained_of_plain (hplain (by decide) ⟨trivial, trivial⟩)) trivial
  | disksTypes => exact disksTypes_contained_iff w hw
  | freeSpace => exact freeSpace_contained_iff w
  | owner => exact owner_contained_iff w hw
  | accessRight => exact accessRight_contained_iff w

/-- A system with one drive, `D`, of this type, on which every account has a name that is
told to whoever has room for it. -/
def oneDriveOf (type : ℕ) : Win32 :=
  { Win32.silent with
    getLogicalDrives := 8
    getDriveType := fun _ => type
    getVolumeInformation := fun _ => some (lit "CDFS")
    lookupAccountSid := fun _ capacity => if 3 < capacity then some (lit "Max") else none }

theorem withinCapacity_oneDriveOf (type : ℕ) : WithinCapacity (oneDriveOf type) where
  volume _ := show CText.nil.length < nameSize by decide
  fileSystem _ _ h := Option.some.inj h ▸ show (lit "CDFS").length < nameSize by decide
  account _ capacity _ h := by
    obtain ⟨hroom, hname⟩ := Option.ite_none_right_eq_some.mp h
    exact Option.some.inj hname ▸ hroom
  domain _ _ _ h := by cases h

/-- A drive whose type is an index into the table is listed in range. -/
theorem effects_contained_iff_labelled :
    (effects (oneDriveOf 3) (Buffer.zero bufSize) .disksTypes).Contained :=
  (effects_contained_iff (oneDriveOf 3) (Buffer.zero bufSize) (withinCapacity_oneDriveOf 3)
    .disksTypes).mpr ⟨by decide, by decide⟩

/-- The type of the drive is an index behind the table. -/
theorem not_contained_cdRom : ¬ ∀ (w : Win32) (bufRecv : Buffer bufSize) (t : RequestType),
    WithinCapacity w → (effects w bufRecv t).Contained := by
  intro hall
  have hcontained := hall (oneDriveOf 5) (Buffer.zero bufSize) .disksTypes
    (withinCapacity_oneDriveOf 5)
  have hindex := hcontained.typeIndices 5 (List.mem_map.mpr ⟨3, by decide, rfl⟩)
  exact absurd hindex (by decide)

end Tcp
end BsitLabs
