import BsitLabs.SystemInfo.Stores
import BsitLabs.SystemInfo.Uptime
import BsitLabs.Tcp.Packets
import BsitLabs.Tcp.PathRequest

/-!
# What the handlers leave

`msg_handler` clears `buf_send`, has the handler of the request write into it, and takes
for the reply what stands there up to the first zero.  `report` is what the information
service is for: the text that the system's answers come to, for each of the eight requests
and for a path.

* `handler_isSome_iff` --- when a handler keeps to its own arrays and to `buf_send`, and
  follows no pointer that leads nowhere;
* `takeWhile_handler` --- what it leaves is then the report on the path that it finds;
* `report_ne_nil_iff` --- which requests are reported on with a text.  Four of the eight
  handlers may write nothing: that of the version if the system has none of the known names,
  those of the drives if there is no drive, or no fixed one, and that of the access rights if
  the first entry of the list has no account or the list is empty.
-/

namespace BsitLabs
namespace Tcp

open MachineInt SystemInfo

/-! ## What is built -/

section Build

variable (w : Win32) (path : CText)

/-- What the handler of a request does to the region that it is given, whichever server it
belongs to. -/
def build (t : RequestType) (r : Region UInt8) : Except Misuse (Region UInt8) :=
  match t with
  | .osVersion => .ok (osVersion w r)
  | .currentTime => .ok (currentTime w r)
  | .osTime => .ok (osTime w r)
  | .memoryStatus => .ok (memoryStatus w r)
  | .disksTypes => listDrives w r
  | .freeSpace => listSpace w r
  | .accessRight => accessRight w r path
  | .owner => owner w r path

/-- What the system answers keeps the handler of a request to its own arrays, and leads it
to no pointer that leads nowhere. -/
def WithinArrays : RequestType → Prop
  | .disksTypes => VolumeNamesFit w
  | .freeSpace => FiguresFit w
  | .owner => OwnerNamesFit w path
  | .accessRight => RightsKept w path
  | _ => True

theorem exists_build_iff (t : RequestType) (r : Region UInt8) :
    (∃ reply, build w path t r = .ok reply) ↔ WithinArrays w path t := by
  cases t with
  | disksTypes =>
    simp only [build, listDrives_eq_ok_iff, exists_and_left, exists_eq', and_true]
    exact Iff.rfl
  | freeSpace =>
    simp only [build, listSpace_eq_ok_iff, exists_and_left, exists_eq', and_true]
    exact Iff.rfl
  | owner =>
    simp only [build, owner_eq_ok_iff, exists_and_left, exists_eq', and_true]
    exact Iff.rfl
  | accessRight =>
    simp only [build, accessRight_eq_ok_iff]
    rw [exists_comm]
    simp only [exists_and_left, exists_eq', and_true]
    exact exists_rightsTexts_iff w path
  | _ => exact iff_of_true ⟨_, rfl⟩ trivial

section Taken

variable {bufRecv : Buffer bufSize} {r reply : Region UInt8}

/-- What is done with a path that has been taken out of `buf_recv`. -/
theorem takePath_bind_eq_ok_iff {f : CText → Except Misuse (Region UInt8)} :
    (takePath bufRecv >>= f) = .ok reply ↔
      0 ≤ schar (bufRecv.get 1) ∧ f (pathOf bufRecv) = .ok reply := by
  rw [except_bind_eq_ok_iff]
  simp only [takePath_eq_ok_iff]
  constructor
  · rintro ⟨_, ⟨hlen, rfl⟩, h⟩
    exact ⟨hlen, h⟩
  · rintro ⟨hlen, h⟩
    exact ⟨_, ⟨hlen, rfl⟩, h⟩

theorem accessRightHandler_eq_ok_iff :
    accessRightHandler w bufRecv r = .ok reply ↔
      0 ≤ schar (bufRecv.get 1) ∧ accessRight w r (pathOf bufRecv) = .ok reply :=
  takePath_bind_eq_ok_iff

theorem ownerHandler_eq_ok_iff :
    ownerHandler w bufRecv r = .ok reply ↔
      0 ≤ schar (bufRecv.get 1) ∧ owner w r (pathOf bufRecv) = .ok reply :=
  takePath_bind_eq_ok_iff

/-- A handler takes the path out of `buf_recv`, if its request has one, and builds. -/
theorem requestHandler_eq_ok_iff {t : RequestType} :
    requestHandler w bufRecv r t = .ok reply ↔
      (t.takesPath = true → 0 ≤ schar (bufRecv.get 1)) ∧
        build w (pathOf bufRecv) t r = .ok reply := by
  have htakes : ∀ {p : Prop}, (true = true → p) ↔ p := ⟨fun h => h rfl, fun h _ => h⟩
  cases t with
  | accessRight => exact (accessRightHandler_eq_ok_iff w).trans (and_congr_left' htakes.symm)
  | owner => exact (ownerHandler_eq_ok_iff w).trans (and_congr_left' htakes.symm)
  | _ => exact (and_iff_right fun h => absurd h (by decide)).symm

end Taken

end Build

/-! ## The reports -/

section Reports

variable (w : Win32) {path : CText} {r : Region UInt8}

/-- What a request is to be answered with. -/
def report (path : CText) : RequestType → List UInt8
  | .osVersion => ((versionName w).map CText.bytes).getD []
  | .currentTime => (timeText w.getSystemTime).bytes
  | .osTime => (uptimeText (toInt32 w.getTickCount.toNat)).bytes
  | .memoryStatus => (memoryText w w.globalMemoryStatus).bytes
  | .disksTypes => (listing w w.stray.nameFileSystem w.drives).bytes
  | .freeSpace => (allRecords w).takeWhile (· ≠ 0)
  | .accessRight => (CText.concat ((rightsTexts w path).toOption.getD [])).bytes
  | .owner => (CText.concat (ownerTexts w path)).bytes

/-- Two of the requests are about a path. -/
theorem report_congr {path path' : CText} {t : RequestType}
    (h : t.takesPath = true → path = path') : report w path t = report w path' t := by
  cases t with
  | accessRight => rw [h rfl]
  | owner => rw [h rfl]
  | _ => rfl

/-- **What is built in a clear region is the report.** -/
theorem cString_build {t : RequestType} {reply : Region UInt8} (h : build w path t r = .ok reply)
    (htop : r.top = 0) (hclear : ∀ i, r.get i = 0) :
    reply.cString 0 = report w path t := by
  have hempty : r.cString 0 = [] := (r.cString_eq_nil_iff 0).mpr (hclear 0)
  have hprinted (text : CText) : (r.strcpy 0 text.bytes).cString 0 = text.bytes :=
    r.cString_strcpy 0 text.nonzero
  cases t with
  | osVersion =>
    obtain rfl := Except.ok.inj h
    show (osVersion w r).cString 0 = ((versionName w).map CText.bytes).getD []
    cases hname : versionName w with
    | none =>
      unfold osVersion
      rw [hname]
      exact hempty
    | some name => exact cString_osVersion w r hname (hclear _)
  | currentTime => exact Except.ok.inj h ▸ hprinted _
  | osTime => exact Except.ok.inj h ▸ hprinted _
  | memoryStatus => exact Except.ok.inj h ▸ hprinted _
  | disksTypes =>
    obtain ⟨_, rfl⟩ := (listDrives_eq_ok_iff w r).mp h
    show (diskListing w r).cString 0 = (listing w w.stray.nameFileSystem w.drives).bytes
    by_cases hnone : w.drives = []
    · rw [diskListing_nil w _ hnone, hnone, hempty]
      rfl
    · exact cString_diskListing w r hnone htop
  | freeSpace =>
    obtain ⟨_, rfl⟩ := (listSpace_eq_ok_iff w r).mp h
    exact cString_spaceListing w r htop (hclear _)
  | accessRight =>
    obtain ⟨texts, htexts, rfl⟩ := (accessRight_eq_ok_iff w r path).mp h
    rw [Region.cString_strcats, hempty, report, htexts]
    rfl
  | owner =>
    obtain ⟨_, rfl⟩ := (owner_eq_ok_iff w r path).mp h
    rw [Region.cString_strcats, hempty]
    rfl

/-- What the system has to answer for a request to be answered with a text. -/
def Talks (path : CText) : RequestType → Prop
  | .osVersion => versionName w ≠ none
  | .disksTypes => w.drives ≠ []
  | .freeSpace => w.fixedDrives ≠ []
  | .accessRight => ∃ ace acl, w.daclOf path = some (some (ace :: acl)) ∧
      w.lookupAccountSid ace.sid accountLen ≠ none
  | _ => True

/-- A listing of drives begins with the letter of the first. -/
theorem listing_ne_nil_iff : (listing w w.stray.nameFileSystem w.drives).bytes ≠ [] ↔
    w.drives ≠ [] := by
  cases hds : w.drives with
  | nil => exact iff_of_false (fun h => h rfl) fun h => h rfl
  | cons d ds =>
    refine iff_of_true (List.length_pos_iff.mp ?_) (List.cons_ne_nil d ds)
    have hlen := length_listing w w.stray.nameFileSystem (d :: ds)
    rw [listingLength] at hlen
    exact (show 0 < (listing w w.stray.nameFileSystem (d :: ds)).length by omega)

/-- So does one of fixed drives. -/
theorem takeWhile_allRecords_ne_nil_iff :
    (allRecords w).takeWhile (· ≠ 0) ≠ [] ↔ w.fixedDrives ≠ [] := by
  unfold allRecords
  cases w.fixedDrives with
  | nil => exact iff_of_false (fun h => h rfl) fun h => h rfl
  | cons d ds =>
    refine iff_of_true ?_ (List.cons_ne_nil d ds)
    rw [spaceRecords, spaceBlock]
    simp [d.letter_ne_zero]

/-- What is appended for a list is something exactly if its first entry has an account. -/
theorem rightsTexts_ne_nil_iff (path : CText) {texts : List CText}
    (h : rightsTexts w path = .ok texts) :
    (CText.concat texts).bytes ≠ [] ↔ Talks w path .accessRight := by
  obtain ⟨acl, hacl, hentry⟩ := except_bind_eq_ok_iff.mp h
  unfold Talks
  rw [w.aclOf_eq_ok_iff.mp hacl]
  cases acl with
  | nil =>
    obtain rfl := Except.ok.inj hentry
    refine iff_of_false (fun h => h rfl) ?_
    rintro ⟨ace, acl, hcons, _⟩
    cases hcons
  | cons ace acl =>
    have hlen := length_of_entryTexts w hentry
    rw [← List.length_pos_iff]
    change 0 < (CText.concat texts).length ↔ _
    rw [hlen, entryLength]
    cases huser : w.lookupAccountSid ace.sid accountLen with
    | none =>
      refine iff_of_false (Nat.lt_irrefl 0) ?_
      rintro ⟨_, _, hcons, hne⟩
      cases hcons
      exact hne huser
    | some user =>
      refine iff_of_true (by simp only; omega) ⟨ace, acl, rfl, ?_⟩
      rw [huser]
      exact Option.some_ne_none user

/-- **Which requests are reported on with a text.** -/
theorem report_ne_nil_iff {t : RequestType} (h : WithinArrays w path t) :
    report w path t ≠ [] ↔ Talks w path t := by
  have hprinted {text : CText} (hpos : 0 < text.length) : text.bytes ≠ [] :=
    List.length_pos_iff.mp hpos
  cases t with
  | osVersion =>
    show ((versionName w).map CText.bytes).getD [] ≠ [] ↔ versionName w ≠ none
    cases hname : versionName w with
    | none => exact iff_of_false (fun h => h rfl) fun h => h rfl
    | some name =>
      have hletters := (length_of_versionName w hname).1
      exact iff_of_true (hprinted (by omega)) (Option.some_ne_none name)
  | currentTime => exact iff_of_true (hprinted (by rw [length_timeText]; omega)) trivial
  | osTime => exact iff_of_true (hprinted (by rw [length_uptimeText]; omega)) trivial
  | memoryStatus => exact iff_of_true (hprinted (by rw [length_memoryText]; omega)) trivial
  | disksTypes => exact listing_ne_nil_iff w
  | freeSpace => exact takeWhile_allRecords_ne_nil_iff w
  | accessRight =>
    obtain ⟨texts, htexts⟩ := (exists_rightsTexts_iff w path).mpr h
    rw [report, htexts]
    exact rightsTexts_ne_nil_iff w path htexts
  | owner => exact iff_of_true (hprinted (by rw [length_ownerTexts]; omega)) trivial

end Reports

/-! ## The cleared buffer -/

theorem clearSend_get (i : ℕ) : clearSend.get i = 0 := by
  show (List.replicate bufSize (0 : UInt8)).getD i 0 = 0
  rw [List.getD_eq_getElem?_getD, List.getElem?_replicate]
  split <;> rfl

theorem cString_clearSend : clearSend.cString 0 = [] :=
  (Region.cString_eq_nil_iff _ 0).mpr (clearSend_get 0)

theorem strlen_clearSend (k : ℕ) : clearSend.strlen k = 0 :=
  clearSend.strlen_eq_iff.mpr ⟨clearSend_get _, fun _ hj => absurd hj (Nat.not_lt_zero _)⟩

theorem clearSend_top : clearSend.top = 0 := rfl

/-- If the string at the start ends inside what has been stored, it is what is taken for the
reply. -/
theorem takeWhile_stored {r : Region UInt8} (h : r.strlen 0 ≤ r.top) :
    (stored r).takeWhile (· != 0) = r.cString 0 := by
  have hbegins : r.Begins (stored r) := fun j hj => by
    simp only [stored, List.getElem_map, List.getElem_range]
  have hlen : (stored r).length = r.top := by rw [stored, List.length_map, List.length_range]
  have htest : (fun c : UInt8 => c != 0) = (fun c => decide (c ≠ 0)) := by
    ext1 c
    by_cases hc : c = 0 <;> simp [hc]
  rw [htest, hbegins.cString_takeWhile (h.trans hlen.ge)]

/-! ## Lengths -/

theorem signedPlaces_le {z : ℤ} {k : ℕ} (hk : k ≠ 0) (h : z.natAbs < 10 ^ k) :
    signedPlaces z ≤ k + 1 := by
  have hle := places_le hk h
  unfold signedPlaces
  split <;> omega

theorem length_timeText_lt (sm : SystemTime) : (timeText sm).length < bufSize := by
  have hword : ∀ n : ℕ, n < 2 ^ 16 → places 10 n ≤ 5 := fun n hn =>
    places_le (by decide) (hn.trans (by decide))
  have hyear := hword _ sm.wYear.toNat_lt
  have hdiv : ∀ n : UInt16, places 10 (n.toNat / 10) ≤ 5 := fun n =>
    hword _ ((Nat.div_le_self _ _).trans_lt n.toNat_lt)
  have hday := hdiv sm.wDay
  have hmonth := hdiv sm.wMonth
  have hhour := hdiv sm.wHour
  have hminute := hdiv sm.wMinute
  have hsecond := hdiv sm.wSecond
  have hsize : bufSize = 512 := rfl
  rw [length_timeText]
  omega

theorem length_uptimeText_lt (ticks : UInt32) :
    (uptimeText (toInt32 ticks.toNat)).length < bufSize := by
  have hlow := le_toInt32 ticks.toNat
  have hhigh := toInt32_lt ticks.toNat
  generalize toInt32 ticks.toNat = t at *
  have hhours := tdiv_cases t (1000 * 60 * 60)
  have hminutes := tdiv_cases t (1000 * 60)
  have hseconds := tdiv_cases t 1000
  have hsize : bufSize = 512 := rfl
  rw [length_uptimeText]
  have h₁ : signedPlaces (hours t) ≤ 9 + 1 := signedPlaces_le (by decide) (by unfold hours; omega)
  have h₂ : signedPlaces (minutes t) ≤ 9 + 1 :=
    signedPlaces_le (by decide) (by unfold minutes hours; omega)
  have h₃ : signedPlaces (seconds t) ≤ 9 + 1 :=
    signedPlaces_le (by decide) (by unfold seconds minutes hours; omega)
  omega

theorem length_memoryText_lt (w : Win32) (stat : MemoryStatus) :
    (memoryText w stat).length < bufSize := by
  have hword : ∀ n : UInt32, places 10 n.toNat ≤ 10 := fun n =>
    places_le (by decide) (n.toNat_lt.trans (by decide))
  have hload := hword stat.dwMemoryLoad
  have hphys := hword stat.dwTotalPhys
  have hphys' := hword stat.dwAvailPhys
  have hpage := hword stat.dwTotalPageFile
  have hpage' := hword stat.dwAvailPageFile
  have hvirtual := hword stat.dwTotalVirtual
  have hvirtual' := hword stat.dwAvailVirtual
  have hsize : bufSize = 512 := rfl
  rw [length_memoryText]
  omega

/-! ## What fits in `buf_send` -/

/-- Of the replies that can be long, what is listed is shorter than `buf_send`. -/
def ShortReply (w : Win32) (path : CText) : RequestType → Prop
  | .disksTypes => listingLength w w.stray.nameFileSystem w.drives < bufSize
  | .accessRight => rightsLength w path < bufSize
  | _ => True

/-- What is built keeps to `buf_send` under this condition, and its string then ends there. -/
structure Bounded (reply : Region UInt8) (fits : Prop) : Prop where
  top_le_iff : reply.top ≤ bufSize ↔ fits
  strlen_le_top : reply.strlen 0 ≤ reply.top
  strlen_lt : reply.top ≤ bufSize → reply.strlen 0 < bufSize

section Bounds

variable (w : Win32) (path : CText)

/-- A text that is printed at the start of `buf_send`, or appended to nothing. -/
theorem bounded_of_text {reply : Region UInt8} {n : ℕ} (hlen : reply.strlen 0 = n)
    (htop : reply.top = n + 1) : Bounded reply (n < bufSize) := by
  refine ⟨?_, by omega, fun h => by omega⟩
  rw [htop]
  exact Nat.succ_le_iff

/-- Nothing is built. -/
theorem bounded_clearSend {n : ℕ} (hn : n = 0) : Bounded clearSend (n < bufSize) := by
  have hsize : bufSize = 512 := rfl
  have htop := clearSend_top
  have hlen := strlen_clearSend 0
  exact ⟨iff_of_true (by omega) (by omega), by omega, fun _ => by omega⟩

theorem bounded_strcpy {text : CText} (h : text.length < bufSize) :
    Bounded (clearSend.strcpy 0 text.bytes) True := by
  have htop := top_strcpy_text clearSend text
  rw [clearSend_top, Nat.max_eq_right (Nat.zero_le _)] at htop
  have hbounded := bounded_of_text (strlen_strcpy_text clearSend text) htop
  exact ⟨hbounded.top_le_iff.trans (iff_true_intro h), hbounded.strlen_le_top, hbounded.strlen_lt⟩

theorem bounded_strcats (texts : List CText) :
    Bounded (clearSend.strcats texts) ((CText.concat texts).length < bufSize) := by
  have hlen := clearSend.strlen_strcats texts
  rw [strlen_clearSend, Nat.zero_add] at hlen
  cases texts with
  | nil => exact bounded_clearSend rfl
  | cons s texts =>
    have htop := clearSend.top_strcats (by rw [clearSend_top]; omega) (List.cons_ne_nil s texts)
    rw [strlen_clearSend, Nat.zero_add] at htop
    exact bounded_of_text hlen htop

theorem bounded_osVersion : Bounded (osVersion w clearSend) True := by
  have hname := versionLength_le w
  have hsize : bufSize = 512 := rfl
  have htop := top_osVersion w clearSend clearSend_top
  have hlen := strlen_osVersion w clearSend
  rw [strlen_clearSend] at hlen
  exact ⟨iff_true_intro (by omega), by omega, fun _ => by omega⟩

theorem bounded_diskListing : Bounded (diskListing w clearSend)
    (listingLength w w.stray.nameFileSystem w.drives < bufSize) := by
  by_cases hnone : w.drives = []
  · rw [diskListing_nil w _ hnone, hnone]
    exact bounded_clearSend rfl
  · obtain ⟨hlen, htop⟩ := diskListing_lengths w clearSend hnone clearSend_top
    exact bounded_of_text hlen htop

theorem bounded_spaceListing : Bounded (spaceListing w clearSend) True := by
  have hcount := length_shownSpaces_le w
  have htop := top_spaceListing w clearSend clearSend_top
  have hlen := strlen_spaceListing_le w clearSend clearSend_top (clearSend_get _)
  have hsize : bufSize = 512 := rfl
  exact ⟨iff_true_intro (by omega), by omega, fun _ => by omega⟩

/-- **What the handlers build in `buf_send`.** -/
theorem bounded_build {t : RequestType} {reply : Region UInt8}
    (h : build w path t clearSend = .ok reply) : Bounded reply (ShortReply w path t) := by
  cases t with
  | osVersion => exact Except.ok.inj h ▸ bounded_osVersion w
  | currentTime => exact Except.ok.inj h ▸ bounded_strcpy (length_timeText_lt _)
  | osTime => exact Except.ok.inj h ▸ bounded_strcpy (length_uptimeText_lt _)
  | memoryStatus => exact Except.ok.inj h ▸ bounded_strcpy (length_memoryText_lt _ _)
  | disksTypes =>
    obtain ⟨_, rfl⟩ := (listDrives_eq_ok_iff w _).mp h
    exact bounded_diskListing w
  | freeSpace =>
    obtain ⟨_, rfl⟩ := (listSpace_eq_ok_iff w _).mp h
    exact bounded_spaceListing w
  | accessRight =>
    obtain ⟨texts, htexts, rfl⟩ := (accessRight_eq_ok_iff w _ path).mp h
    have hbounded := bounded_strcats texts
    rwa [length_of_rightsTexts w htexts] at hbounded
  | owner =>
    obtain ⟨hfit, rfl⟩ := (owner_eq_ok_iff w _ path).mp h
    have hname := hfit.length_lt
    have hsize : bufSize = 512 := rfl
    have hfifty : ownerSize = 50 := rfl
    have hbounded := bounded_strcats (ownerTexts w path)
    rw [length_ownerTexts] at hbounded
    exact ⟨hbounded.top_le_iff.trans (iff_true_intro (by omega)), hbounded.strlen_le_top,
      hbounded.strlen_lt⟩

end Bounds

/-! ## The handlers -/

/-- What the system answers lets the handler of a request get through on a path. -/
structure Answerable (w : Win32) (path : CText) (t : RequestType) : Prop where
  within : WithinArrays w path t
  short : ShortReply w path t

/-- The path counts for two of the requests only. -/
theorem Answerable.congr {w : Win32} {path path' : CText} {t : RequestType}
    (h : Answerable w path t) (hpath : t.takesPath = true → path = path') :
    Answerable w path' t := by
  cases t with
  | accessRight => exact hpath rfl ▸ h
  | owner => exact hpath rfl ▸ h
  | _ => exact ⟨h.within, h.short⟩

section Handlers

variable (csp : Csp) {w : Win32} {bufRecv : Buffer bufSize} {t : RequestType}

/-- What has been built within `buf_send` is what the handler leaves. -/
theorem handler_of_build {reply : Region UInt8}
    (hpath : t.takesPath = true → 0 ≤ schar (bufRecv.get 1))
    (hbuild : build w (pathOf bufRecv) t clearSend = .ok reply)
    (hshort : ShortReply w (pathOf bufRecv) t) :
    (Env.windows csp).handler t bufRecv w = some (stored reply) :=
  leaves_eq_some_iff.mpr ⟨reply, (requestHandler_eq_ok_iff w).mpr ⟨hpath, hbuild⟩,
    (bounded_build w _ hbuild).top_le_iff.mpr hshort, rfl⟩

/-- **When a handler gets through**: the length of the path, if there is one, is not negative,
and the request can be answered. -/
theorem handler_isSome_iff :
    ((Env.windows csp).handler t bufRecv w).isSome ↔
      (t.takesPath = true → 0 ≤ schar (bufRecv.get 1)) ∧ Answerable w (pathOf bufRecv) t := by
  rw [Option.isSome_iff_exists]
  constructor
  · rintro ⟨written, h⟩
    obtain ⟨reply, hreply, htop, _⟩ := leaves_eq_some_iff.mp h
    obtain ⟨hpath, hbuild⟩ := (requestHandler_eq_ok_iff w).mp hreply
    exact ⟨hpath, (exists_build_iff w _ t _).mp ⟨reply, hbuild⟩,
      (bounded_build w _ hbuild).top_le_iff.mp htop⟩
  · rintro ⟨hpath, hkept, hshort⟩
    obtain ⟨reply, hbuild⟩ := (exists_build_iff w _ t clearSend).mpr hkept
    exact ⟨stored reply, handler_of_build csp hpath hbuild hshort⟩

variable {csp}

/-- **What is taken for the reply is the report** on the path that the handler finds, and it
is shorter than `buf_send`. -/
theorem takeWhile_handler {written : List UInt8}
    (h : (Env.windows csp).handler t bufRecv w = some written) :
    written.takeWhile (· != 0) = report w (pathOf bufRecv) t ∧
      (report w (pathOf bufRecv) t).length < bufSize := by
  obtain ⟨reply, hreply, htop, rfl⟩ := leaves_eq_some_iff.mp h
  have hbuild := ((requestHandler_eq_ok_iff w).mp hreply).2
  have hbounded := bounded_build w _ hbuild
  have hreport := cString_build w hbuild clearSend_top clearSend_get
  rw [takeWhile_stored hbounded.strlen_le_top, hreport, ← hreport, Region.length_cString]
  exact ⟨rfl, hbounded.strlen_lt htop⟩

end Handlers

/-- **The text of a reply is the report** on the path in `buf_recv`. -/
theorem replyText_eq_report {csp : Csp} {c : ClientCtx} {ks : KeyStream} {t : RequestType}
    {w : Win32} (h : MsgAccepted (Env.windows csp) c ks t w) :
    c.replyText (Env.windows csp) ks t w = report w (pathOf (c.plainBuf ks)) t := by
  obtain ⟨written, hwritten⟩ := Option.isSome_iff_exists.mp h.handled
  rw [ClientCtx.replyText, ClientCtx.written, hwritten]
  exact (takeWhile_handler hwritten).1

/-- **Which requests are answered with a text.** -/
theorem replyText_ne_nil_iff {csp : Csp} {c : ClientCtx} {ks : KeyStream} {t : RequestType}
    {w : Win32} (h : MsgAccepted (Env.windows csp) c ks t w) :
    c.replyText (Env.windows csp) ks t w ≠ [] ↔ Talks w (pathOf (c.plainBuf ks)) t := by
  rw [replyText_eq_report h]
  exact report_ne_nil_iff w ((handler_isSome_iff csp).mp h.handled).2.within

end Tcp
end BsitLabs
