import BsitLabs.Foundation.Checked
import BsitLabs.Foundation.MachineInt

/-!
# What the system answers

The eight queries that both information servers offer are answered by Win32 calls, and
`Win32` is what these calls answer.  A call that can fail is an `Option`, and `none` is
a failure, which leaves the variables it should have set as they were.  The servers look
at none of these failures but one, so what an unset variable holds matters, and is part
of the answers too (`Stray`).  A pointer that is unset or null and that a server follows is
no answer but the end of the computation (`Misuse`).

Two things that the C library prints are taken as they are printed: a figure of
`"%.3f"` (`Figure`), and what `gcvt` makes of the free space of a drive.
-/

namespace BsitLabs
namespace SystemInfo

/-! ## The values -/

/-- A drive, as a position in the mask of `GetLogicalDrives`. -/
abbrev Drive := Fin 26

/-- `char(65 + i)`. -/
def Drive.letter (d : Drive) : UInt8 := UInt8.ofNat (65 + d.val)

theorem Drive.letter_ne_zero (d : Drive) : d.letter ≠ 0 := by
  intro h
  have hnat := congrArg UInt8.toNat h
  rw [Drive.letter, UInt8.toNat_ofNat', Nat.mod_eq_of_lt (by omega)] at hnat
  simp at hnat

/-- The functions of `VersionHelpers.h`, in the order in which they are asked. -/
inductive VersionTest where
  | isWindows8OrGreater
  | isWindows7SP1OrGreater
  | isWindows7OrGreater
  | isWindowsVistaSP2OrGreater
  | isWindowsVistaSP1OrGreater
  | isWindowsVistaOrGreater
  | isWindowsXPSP3OrGreater
  | isWindowsXPSP2OrGreater
  | isWindowsXPSP1OrGreater
  | isWindowsXPOrGreater
  deriving DecidableEq, Repr

/-- `SYSTEMTIME`, as far as it is printed. -/
structure SystemTime where
  wYear : UInt16
  wMonth : UInt16
  wDay : UInt16
  wHour : UInt16
  wMinute : UInt16
  wSecond : UInt16

/-- `MEMORYSTATUS`. -/
structure MemoryStatus where
  dwMemoryLoad : UInt32
  dwTotalPhys : UInt32
  dwAvailPhys : UInt32
  dwTotalPageFile : UInt32
  dwAvailPageFile : UInt32
  dwTotalVirtual : UInt32
  dwAvailVirtual : UInt32

/-- A number printed as `d.ddd`. -/
structure Figure where
  whole : Fin 10
  thousandths : Fin 1000

/-- The outputs of `GetDiskFreeSpace` that are used. -/
structure DiskSpace where
  sectorsPerCluster : UInt32
  bytesPerSector : UInt32
  freeClusters : UInt32

/-- A security identifier. -/
abbrev Sid := List UInt8

/-- An access-control entry. -/
structure Ace where
  mask : UInt32
  sid : Sid

/-- An access-control list. -/
abbrev Acl := List Ace

/-! ## The answers -/

/-- What the variables hold that a failed call leaves unset. -/
structure Stray where
  /-- `pOwnerSid`. -/
  ownerSid : Sid
  /-- `user_len`, which the owner query never sets. -/
  userLen : ℕ
  /-- `domain_len`, which it never sets either. -/
  domainLen : ℕ
  /-- `name_file_system`. -/
  nameFileSystem : CText
  /-- `s`, `b` and `f`. -/
  diskSpace : DiskSpace
  /-- What stands behind the table `disks_types`, by the index that reaches it. -/
  diskTypes : ℕ → CText
  /-- The bytes of `buf` that `gcvt` leaves alone. -/
  figure : ℕ → UInt8

/-- What the system answers to the queries of one request. -/
structure Win32 where
  /-- `RtlGetVersion`: the major version, if the function is found. -/
  rtlGetVersion : Option UInt32
  /-- The version helpers. -/
  versionHelper : VersionTest → Bool
  /-- `GetSystemTime`. -/
  getSystemTime : SystemTime
  /-- `GetTickCount`. -/
  getTickCount : UInt32
  /-- `GlobalMemoryStatus`. -/
  globalMemoryStatus : MemoryStatus
  /-- `"%.3f"` of a number of bytes in gigabytes. -/
  gigabytes : UInt32 → Figure
  /-- `GetLogicalDrives`. -/
  getLogicalDrives : UInt32
  /-- `GetDriveType`. -/
  getDriveType : Drive → ℕ
  /-- `GetVolumeInformation`: the name of the file system. -/
  getVolumeInformation : Drive → Option CText
  /-- `GetVolumeInformation`, if it answers: the name of the volume, which is not used. -/
  volumeName : Drive → CText
  /-- `GetDiskFreeSpace`. -/
  getDiskFreeSpace : Drive → Option DiskSpace
  /-- `gcvt(freeSpace, 10, buf)`, where `freeSpace` is computed from `f`, `s` and `b`. -/
  gcvt : ℤ → ℤ → ℤ → CText
  /-- `GetNamedSecurityInfo` for the owner of a path. -/
  ownerOf : CText → Option Sid
  /-- `GetNamedSecurityInfo` for the access-control list of a path, which may be null. -/
  daclOf : CText → Option (Option Acl)
  /-- `LookupAccountSid`, told a capacity: the account's name. -/
  lookupAccountSid : Sid → ℕ → Option CText
  /-- `LookupAccountSid`, told a capacity: the name of the domain, which is not used. -/
  lookupDomain : Sid → ℕ → Option CText
  /-- `ConvertSidToStringSid`. -/
  convertSidToStringSid : Sid → Option CText
  /-- What unset variables hold. -/
  stray : Stray

/-- What a server does to memory that ends the computation: a variable is read that nothing
has set, a null pointer is followed, or a store goes behind the end of its array. -/
inductive Misuse where
  /-- `pOwnerSid`. -/
  | ownerSid
  /-- `user_len`. -/
  | userLen
  /-- `domain_len`. -/
  | domainLen
  /-- `a`. -/
  | acl
  /-- `a`, which is null. -/
  | nullAcl
  /-- `AceInfo`. -/
  | aceInfo
  /-- `sid_str`. -/
  | sidStr
  /-- A local array. -/
  | overrun
  deriving DecidableEq, Repr

/-- `DRIVE_FIXED`. -/
def driveFixed : ℕ := 3

namespace Win32

variable (w : Win32)

/-- `os`: zero if `RtlGetVersion` is not found. -/
def os : ℕ := (w.rtlGetVersion.map UInt32.toNat).getD 0

/-- The drives of the mask, in the order of the loops. -/
def drives : List Drive :=
  (List.finRange 26).filter fun i => w.getLogicalDrives.toNat.testBit i

/-- The drives of the mask that are fixed. -/
def fixedDrives : List Drive := w.drives.filter fun d => w.getDriveType d = driveFixed

/-- The list that the pointer `a` leads to after the query for a path.  The loop over the
list follows it without looking at what the query has returned. -/
def aclOf (path : CText) : Except Misuse Acl := do
  let a ← readSet .acl (w.daclOf path)
  readSet .nullAcl a

/-- The list has been read, and there is one. -/
theorem aclOf_eq_ok_iff {path : CText} {acl : Acl} :
    w.aclOf path = .ok acl ↔ w.daclOf path = some (some acl) := by
  unfold aclOf
  simp [except_bind_eq_ok_iff, readSet_eq_ok_iff]

/-- `pOwnerSid` after the query for the owner of a path.  If that has failed it is what the
variable held; the lookup that it is given to is a call of the system, and is taken to answer
whatever it is given. -/
def ownerSid (path : CText) : Sid := (w.ownerOf path).getD w.stray.ownerSid

/-- `user`, after the query for the owner of a path and the lookup of its name.  The
array is clear before, and stays so if the lookup fails. -/
def ownerUser (path : CText) : CText :=
  (w.lookupAccountSid (w.ownerSid path) w.stray.userLen).getD .nil

/-- A system on which every call that can fail fails, and nothing unset holds anything. -/
def silent : Win32 where
  rtlGetVersion := none
  versionHelper _ := false
  getSystemTime := ⟨0, 0, 0, 0, 0, 0⟩
  getTickCount := 0
  globalMemoryStatus := ⟨0, 0, 0, 0, 0, 0, 0⟩
  gigabytes _ := ⟨0, 0⟩
  getLogicalDrives := 0
  getDriveType _ := 0
  getVolumeInformation _ := none
  volumeName _ := .nil
  getDiskFreeSpace _ := none
  gcvt _ _ _ := .lit "0."
  ownerOf _ := none
  daclOf _ := none
  lookupAccountSid _ _ := none
  lookupDomain _ _ := none
  convertSidToStringSid _ := none
  stray := ⟨[], 0, 0, .nil, ⟨0, 0, 0⟩, fun _ => .nil, fun _ => 0⟩

end Win32
end SystemInfo
end BsitLabs
