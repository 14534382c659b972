import BsitLabs.InfoRpc.Framing
import BsitLabs.Tcp.ReplyTexts

/-!
# The listing of the drives and their types

What both servers list is the concatenation of one entry for each drive of the mask, in
ascending order: its letter, a label, and a file system.  The label is taken from a table of
four by the code of `GetDriveType`, in which the four types that the labels name are 2 to 5
and not 0 to 3, so a removable drive is listed as a network drive, a fixed one as a CD-ROM,
and the others with what stands behind the table.  The file system of a drive that does not
answer is that of the drive before it.

The listing is therefore right only where there is nothing to list (`drivesListed_iff`).
-/

namespace BsitLabs
namespace Listings

open SystemInfo CText

variable (w : Win32)

/-- The label of the program that names a type of drive. -/
def labelOf : ℕ → Option CText
  | 2 => some (lit "removable")
  | 3 => some (lit "fixed")
  | 4 => some (lit "network")
  | 5 => some (lit "CD-ROM")
  | _ => none

/-- The entry that a drive should have: with the label of its own type, and with the name of
its own file system if it answers. -/
def rightEntry (d : Drive) : Option CText :=
  (labelOf (w.getDriveType d)).map fun label =>
    driveText d label ((w.getVolumeInformation d).getD .nil)

/-- The reply consists of the right entries of the drives, in ascending order. -/
def DrivesListed (reply : List UInt8) : Prop :=
  ∃ entries, w.drives.map (rightEntry w) = entries.map some ∧ reply = (concat entries).bytes

/-- The same answers, with something else where nothing has been set. -/
def withStray (stray : Stray) : Win32 := { w with stray := stray }

/-- Whatever stands where nothing has been set: a listing that fits is a reply, and a right
one. -/
def DrivesRight (fits : ℕ → Prop) (reply : Win32 → Option (List UInt8)) : Prop :=
  ∀ stray, fits (listingLength (withStray w stray) stray.nameFileSystem w.drives) →
    ∃ text, reply (withStray w stray) = some text ∧ DrivesListed w text

/-- How long the listing is where nothing stands behind the table and in the array. -/
def blankLength : ℕ := listingLength (withStray w Win32.silent.stray) .nil w.drives

/-! ## The labels -/

/-- With nothing behind it, the table has the right label for no type. -/
theorem typeName_head?_ne {type : ℕ} {label : CText} (h : labelOf type = some label)
    (tail tail' : List UInt8) :
    ((typeName (withStray w Win32.silent.stray) type).bytes ++ 10 :: tail).head? ≠
      (label.bytes ++ tail').head? := by
  have hcases : (type = 2 ∧ label = lit "removable") ∨ (type = 3 ∧ label = lit "fixed") ∨
      (type = 4 ∧ label = lit "network") ∨ (type = 5 ∧ label = lit "CD-ROM") := by
    unfold labelOf at h
    split at h
    · exact .inl ⟨rfl, (Option.some.inj h).symm⟩
    · exact .inr (.inl ⟨rfl, (Option.some.inj h).symm⟩)
    · exact .inr (.inr (.inl ⟨rfl, (Option.some.inj h).symm⟩))
    · exact .inr (.inr (.inr ⟨rfl, (Option.some.inj h).symm⟩))
    · exact absurd h (Option.some_ne_none label).symm
  rcases hcases with ⟨rfl, rfl⟩ | ⟨rfl, rfl⟩ | ⟨rfl, rfl⟩ | ⟨rfl, rfl⟩
  · exact show some (110 : UInt8) ≠ some 114 by decide
  · exact show some (67 : UInt8) ≠ some 102 by decide
  · exact show some (10 : UInt8) ≠ some 110 by decide
  · exact show some (10 : UInt8) ≠ some 67 by decide

/-- An entry up to its label, and what follows the label. -/
theorem bytes_driveText_append (d : Drive) (label name : CText) (tail : List UInt8) :
    (driveText d label name).bytes ++ tail =
      (letterText d ++ lit ":" ++ lit "\n\t type: ").bytes ++ (label.bytes ++
        10 :: ((lit "\t file system: ").bytes ++ name.bytes ++ (lit "\n").bytes ++ tail)) := by
  have hsystem : (lit "\n\t file system: ").bytes = 10 :: (lit "\t file system: ").bytes := rfl
  simp only [driveText, bytes_append, List.append_assoc, hsystem, List.cons_append]

/-- A listing of drives is wrong where nothing stands behind the table. -/
theorem not_drivesListed_listing (h : w.drives ≠ []) :
    ¬ DrivesListed w (listing (withStray w Win32.silent.stray) .nil w.drives).bytes := by
  rintro ⟨entries, hright, hreply⟩
  obtain ⟨d, ds, hds⟩ := List.exists_cons_of_ne_nil h
  rw [hds] at hright hreply
  cases entries with
  | nil => exact absurd hright (List.cons_ne_nil _ _)
  | cons entry entries =>
    rw [List.map_cons, List.map_cons, List.cons.injEq] at hright
    obtain ⟨label, hlabel, rfl⟩ := Option.map_eq_some_iff.mp hright.1
    rw [listing, concat_cons, bytes_append, bytes_append, bytes_driveText_append,
      bytes_driveText_append, List.append_cancel_left_eq] at hreply
    exact typeName_head?_ne w hlabel _ _ (congrArg List.head? hreply)

/-- Nothing to list is listed right. -/
theorem drivesListed_nil_iff (h : w.drives = []) (reply : List UInt8) :
    DrivesListed w reply ↔ reply = [] := by
  unfold DrivesListed
  rw [h]
  constructor
  · rintro ⟨entries, hentries, rfl⟩
    obtain rfl := List.map_eq_nil_iff.mp hentries.symm
    rfl
  · rintro rfl
    exact ⟨[], rfl, rfl⟩

/-! ## The two servers -/

/-- The reply of the first server, to a request of type 5. -/
def tcpReply (w : Win32) : Option (List UInt8) :=
  (Tcp.disksTypesHandler w Tcp.clearSend).toOption.map fun reply => reply.cString 0

/-- The reply of the second, with this array. -/
def rpcReply (buffer : InfoRpc.OutBuffer) (w : Win32) : Option (List UInt8) :=
  (InfoRpc.servDisksTypes w buffer).toOption.map InfoRpc.replyText

theorem tcpReply_eq_some_iff {text : List UInt8} :
    tcpReply w = some text ↔
      VolumeNamesFit w ∧ (diskListing w Tcp.clearSend).cString 0 = text := by
  unfold tcpReply Tcp.disksTypesHandler
  rw [Option.map_eq_some_iff]
  simp only [except_toOption_eq_some_iff, listDrives_eq_ok_iff]
  simp

theorem rpcReply_eq_some_iff {buffer : InfoRpc.OutBuffer} {text : List UInt8} :
    rpcReply buffer w = some text ↔ VolumeNamesFit w ∧
      InfoRpc.replyText (InfoRpc.sizeInFront (diskListing w buffer.memory)) = text := by
  unfold rpcReply InfoRpc.servDisksTypes
  rw [Option.map_eq_some_iff]
  simp only [except_toOption_eq_some_iff, except_map_eq_ok_iff, listDrives_eq_ok_iff]
  simp

/-- Without drives there are no names that might not fit. -/
theorem volumeNamesFit_of_nil (h : w.drives = []) : VolumeNamesFit w := fun d hd => by
  rw [h] at hd
  exact absurd hd List.not_mem_nil

theorem drivesRight_tcp_iff (hfits : blankLength w < Tcp.bufSize) :
    DrivesRight w (· < Tcp.bufSize) tcpReply ↔ w.drives = [] := by
  constructor
  · intro hright
    by_contra hne
    obtain ⟨text, htext, hlisted⟩ := hright Win32.silent.stray hfits
    obtain ⟨_, rfl⟩ := (tcpReply_eq_some_iff _).mp htext
    rw [cString_diskListing (withStray w Win32.silent.stray) _ hne Tcp.clearSend_top] at hlisted
    exact not_drivesListed_listing w hne hlisted
  · intro hnone stray _
    refine ⟨[], (tcpReply_eq_some_iff _).mpr ⟨volumeNamesFit_of_nil _ hnone, ?_⟩,
      (drivesListed_nil_iff w hnone []).mpr rfl⟩
    rw [diskListing_nil (withStray w stray) _ hnone, Region.cString_eq_nil_iff]
    exact Tcp.clearSend_get 0

theorem drivesRight_rpc_iff (buffer : InfoRpc.OutBuffer) (bufferSize : Int32)
    (hfits : (blankLength w + 4 : ℤ) ≤ bufferSize.toInt) :
    DrivesRight w (fun n => (n + 4 : ℤ) ≤ bufferSize.toInt) (rpcReply buffer) ↔
      w.drives = [] ∧ buffer.memory.get 0 = 0 := by
  have hmax := Int32.toInt_lt bufferSize
  have hempty : ∀ stray, w.drives = [] → InfoRpc.replyText (InfoRpc.sizeInFront
      (diskListing (withStray w stray) buffer.memory)) = buffer.memory.cString 0 :=
    fun stray hnone => by
      have hmemory := buffer.strlen_lt 0 (by decide)
      rw [diskListing_nil (withStray w stray) buffer.memory hnone,
        InfoRpc.replyText_sizeInFront (by omega)]
  constructor
  · intro hright
    obtain ⟨text, htext, hlisted⟩ := hright Win32.silent.stray hfits
    obtain ⟨_, rfl⟩ := (rpcReply_eq_some_iff _).mp htext
    by_cases hnone : w.drives = []
    · rw [drivesListed_nil_iff w hnone, hempty _ hnone, Region.cString_eq_nil_iff] at hlisted
      exact ⟨hnone, hlisted⟩
    · have hblank : blankLength w < 2 ^ 31 := by omega
      have hlen := (diskListing_lengths (withStray w Win32.silent.stray) buffer.memory hnone
        buffer.untouched).1
      rw [InfoRpc.replyText_sizeInFront (hlen.trans_lt hblank),
        cString_diskListing (withStray w Win32.silent.stray) _ hnone buffer.untouched] at hlisted
      exact absurd hlisted (not_drivesListed_listing w hnone)
  · rintro ⟨hnone, hzero⟩ stray _
    refine ⟨[], (rpcReply_eq_some_iff _).mpr ⟨volumeNamesFit_of_nil _ hnone, ?_⟩,
      (drivesListed_nil_iff w hnone []).mpr rfl⟩
    rw [hempty stray hnone, Region.cString_eq_nil_iff]
    exact hzero

/-- **When the drives are listed right**: when there are none, and for the second server the
array began with a zero. -/
theorem drivesListed_iff (buffer : InfoRpc.OutBuffer) (bufferSize : Int32)
    (htcp : blankLength w < Tcp.bufSize)
    (hrpc : (blankLength w + 4 : ℤ) ≤ bufferSize.toInt) :
    (DrivesRight w (· < Tcp.bufSize) tcpReply ↔ w.drives = []) ∧
    (DrivesRight w (fun n => (n + 4 : ℤ) ≤ bufferSize.toInt) (rpcReply buffer) ↔
      w.drives = [] ∧ buffer.memory.get 0 = 0) :=
  ⟨drivesRight_tcp_iff w htcp, drivesRight_rpc_iff w buffer bufferSize hrpc⟩

/-- A system with one fixed drive, `C`, that answers. -/
def oneDrive : Win32 :=
  { Win32.silent with
    getLogicalDrives := 4
    getDriveType := fun _ => driveFixed
    getVolumeInformation := fun _ => some (lit "NTFS") }

theorem drivesListed_iff_oneDrive :
    (DrivesRight oneDrive (· < Tcp.bufSize) tcpReply ↔ oneDrive.drives = []) ∧
    (DrivesRight oneDrive (fun n => (n + 4 : ℤ) ≤ (256 : Int32).toInt)
      (rpcReply InfoRpc.OutBuffer.clear) ↔
        oneDrive.drives = [] ∧ InfoRpc.OutBuffer.clear.memory.get 0 = 0) :=
  drivesListed_iff oneDrive InfoRpc.OutBuffer.clear 256 (by decide) (by decide)

/-- The fixed drive is listed as a CD-ROM. -/
theorem not_drivesRight_fixed : ¬ ∀ w : Win32, DrivesRight w (· < Tcp.bufSize) tcpReply :=
  fun hall =>
    have hnone := (drivesRight_tcp_iff oneDrive (by decide)).mp (hall oneDrive)
    absurd hnone (by decide)

end Listings
end BsitLabs
