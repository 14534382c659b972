import BsitLabs.SystemInfo.Win32

/-!
# The texts of the replies

The two information servers build their replies with the same code, one in `buf_send`
and the other in the array of the remote call.  Here is that code once, for the region
that a pointer to the reply reaches.  `Server.cpp` of the first server clears the array
before, that of the second does not, so what the region holds to begin with is an
argument.

The loops over the drives are folds over the drives of the mask, with the variables that
live across iterations as their state (`DisksLoop`, `SpaceLoop`).

Four of the builders also store into arrays of their own, and these stores are listed beside
each of them.  A builder whose stores do not fit, or that follows a pointer which leads
nowhere, has no reply (`Misuse`).
-/

namespace BsitLabs
namespace SystemInfo

open MachineInt CText

variable (w : Win32) (r : Region UInt8)

/-! ## The version of the system -/

/-- The name of the system, if it has one. -/
def versionName : Option CText :=
  if w.os = 10 then some (lit "win10")
  else if w.versionHelper .isWindows8OrGreater then some (lit "win8")
  else if w.versionHelper .isWindows7SP1OrGreater then some (lit "win7SP1")
  else if w.versionHelper .isWindows7OrGreater then some (lit "win7")
  else if w.versionHelper .isWindowsVistaSP2OrGreater then some (lit "vistaSP2")
  else if w.versionHelper .isWindowsVistaSP1OrGreater then some (lit "vistaSP1")
  else if w.versionHelper .isWindowsVistaOrGreater then some (lit "vista")
  else if w.versionHelper .isWindowsXPSP3OrGreater then some (lit "XPSP3")
  else if w.versionHelper .isWindowsXPSP2OrGreater then some (lit "XPSP2")
  else if w.versionHelper .isWindowsXPSP1OrGreater then some (lit "XPSP1")
  else if w.versionHelper .isWindowsXPOrGreater then some (lit "XP")
  else none

/-- `strncpy(buffer, name, n)`, where every `n` is the length of its name, so that no
terminator is stored. -/
def osVersion : Region UInt8 :=
  match versionName w with
  | some name => r.strncpy 0 name.bytes name.length
  | none => r

/-! ## The clocks -/

/-- `"%d%d.%d%d.%d %d%d:%d%d:%d%d"`. -/
def timeText (sm : SystemTime) : CText :=
  decimal (sm.wDay.toNat / 10) ++ decimal (sm.wDay.toNat % 10) ++ lit "." ++
  decimal (sm.wMonth.toNat / 10) ++ decimal (sm.wMonth.toNat % 10) ++ lit "." ++
  decimal sm.wYear.toNat ++ lit " " ++
  decimal (sm.wHour.toNat / 10) ++ decimal (sm.wHour.toNat % 10) ++ lit ":" ++
  decimal (sm.wMinute.toNat / 10) ++ decimal (sm.wMinute.toNat % 10) ++ lit ":" ++
  decimal (sm.wSecond.toNat / 10) ++ decimal (sm.wSecond.toNat % 10)

/-- `sprintf` of the time. -/
def currentTime : Region UInt8 := r.strcpy 0 (timeText w.getSystemTime).bytes

/-- `hours`, of the value of `GetTickCount` as an `int`. -/
def hours (timeTicks : ℤ) : ℤ := timeTicks.tdiv (1000 * 60 * 60)

/-- `minutes`. -/
def minutes (timeTicks : ℤ) : ℤ := timeTicks.tdiv (1000 * 60) - hours timeTicks * 60

/-- `seconds`. -/
def seconds (timeTicks : ℤ) : ℤ :=
  timeTicks.tdiv 1000 - hours timeTicks * 60 * 60 - minutes timeTicks * 60

/-- `"%d hours, %d minutes, %d seconds"`. -/
def uptimeText (timeTicks : ℤ) : CText :=
  signed (hours timeTicks) ++ lit " hours, " ++ signed (minutes timeTicks) ++
    lit " minutes, " ++ signed (seconds timeTicks) ++ lit " seconds"

/-- `sprintf` of the time since the start. -/
def osTime : Region UInt8 := r.strcpy 0 (uptimeText (toInt32 w.getTickCount.toNat)).bytes

/-! ## The memory -/

/-- `d.ddd`. -/
def figureText (figure : Figure) : CText :=
  decimal figure.whole.val ++ lit "." ++ decimal (figure.thousandths.val / 100) ++
    decimal (figure.thousandths.val / 10 % 10) ++ decimal (figure.thousandths.val % 10)

/-- `"<label>: %lu Bytes, %.3f GB\n"`. -/
def counterText (label : CText) (bytes : UInt32) : CText :=
  label ++ lit ": " ++ decimal bytes.toNat ++ lit " Bytes, " ++ figureText (w.gigabytes bytes) ++
    lit " GB\n"

/-- The format of the memory status. -/
def memoryText (stat : MemoryStatus) : CText :=
  lit "MemoryLoad: " ++ decimal stat.dwMemoryLoad.toNat ++ lit "%\n" ++
  counterText w (lit "TotalPhys") stat.dwTotalPhys ++
  counterText w (lit "AvailPhys") stat.dwAvailPhys ++
  counterText w (lit "TotalPageFile") stat.dwTotalPageFile ++
  counterText w (lit "AvailPageFile") stat.dwAvailPageFile ++
  counterText w (lit "TotalVirtual") stat.dwTotalVirtual ++
  counterText w (lit "AvailVirtual") stat.dwAvailVirtual

/-- `sprintf` of the memory status. -/
def memoryStatus : Region UInt8 := r.strcpy 0 (memoryText w w.globalMemoryStatus).bytes

/-! ## The drives -/

/-- `disks_types`. -/
def disksTypes : List CText := [lit "removable", lit "fixed", lit "network", lit "CD-ROM"]

/-- `disks_types[type]`: behind the table stands whatever stands there. -/
def typeName (type : ℕ) : CText := (disksTypes[type]?).getD (w.stray.diskTypes type)

/-- The variables of the loop over the drives. -/
structure DisksLoop where
  buffer : Region UInt8
  k : ℕ
  nameFileSystem : CText

/-- `k += strlen(strcpy(buffer + k, s))`. -/
def DisksLoop.copy (l : DisksLoop) (s : CText) : DisksLoop :=
  { l with buffer := l.buffer.strcpy l.k s.bytes, k := l.k + s.length }

/-- `memcpy(buffer + k, s, len); k += len`. -/
def DisksLoop.move (l : DisksLoop) (s : CText) : DisksLoop :=
  { l with buffer := l.buffer.write l.k s.bytes, k := l.k + s.length }

/-- `buffer[k] = c; k++`. -/
def DisksLoop.put (l : DisksLoop) (c : UInt8) : DisksLoop :=
  { l with buffer := l.buffer.set l.k c, k := l.k + 1 }

/-- One iteration, for a drive that is in the mask. -/
def disksIteration (l : DisksLoop) (d : Drive) : DisksLoop :=
  let type := w.getDriveType d
  let l := { l with nameFileSystem := (w.getVolumeInformation d).getD l.nameFileSystem }
  let l := (l.put d.letter).put 58
  let l := (l.copy (lit "\n\t type: ")).copy (typeName w type)
  let l := (l.copy (lit "\n\t file system: ")).move l.nameFileSystem
  l.copy (lit "\n")

/-- The listing of the drives and their types. -/
def diskListing : Region UInt8 :=
  (w.drives.foldl (disksIteration w) ⟨r, 0, w.stray.nameFileSystem⟩).buffer

/-- `sizeof(disks)`. -/
def disksSize : ℕ := 26 * 3

/-- `sizeof(name)` and `sizeof(name_file_system)`. -/
def nameSize : ℕ := 128

/-- The stores of the loop over the drives into arrays of its own: the name of a drive, and
the names of its volume and of the file system, if it answers. -/
def disksTypesArrays : ℕ → List Drive → List Extent
  | _, [] => []
  | j, d :: ds =>
    ⟨disksSize, 3 * j + 2⟩ ::
      (storeOf nameSize ((w.getVolumeInformation d).map fun _ => w.volumeName d) ++
        (storeOf nameSize (w.getVolumeInformation d) ++ disksTypesArrays (j + 1) ds))

/-- The drives and their types. -/
def listDrives : Except Misuse (Region UInt8) := do
  keep .overrun (disksTypesArrays w 0 w.drives)
  return diskListing w r

/-- The variables of the loop over the fixed drives. -/
structure SpaceLoop where
  buffer : Region UInt8
  count : ℕ
  space : DiskSpace

/-- What `gcvt` makes of the free space of a drive. -/
def figureOf (space : DiskSpace) : CText :=
  w.gcvt (toInt32 space.freeClusters.toNat) (toInt32 space.sectorsPerCluster.toNat)
    (toInt32 space.bytesPerSector.toNat)

/-- `sizeof(buf)`, the array for `gcvt`. -/
def gcvtSize : ℕ := 16

/-- The first eight bytes of `buf` after `gcvt`. -/
def figureBytes (space : DiskSpace) : List UInt8 :=
  (List.range 8).map ((Region.ofList (List.ofFn fun i : Fin gcvtSize =>
    w.stray.figure i)).strcpy 0 (figureOf w space).bytes).get

/-- One iteration, for a drive that is in the mask. -/
def spaceIteration (l : SpaceLoop) (d : Drive) : SpaceLoop :=
  if w.getDriveType d = driveFixed then
    let buffer := l.buffer.set (l.count * 13 + 2) 32
    let space := (w.getDiskFreeSpace d).getD l.space
    let buffer := buffer.set (l.count * 13) d.letter
    let buffer := buffer.set (l.count * 13 + 1) 58
    let buffer := buffer.write (l.count * 13 + 3) (figureBytes w space)
    let buffer := buffer.write (l.count * 13 + 9) (lit " Gb\n").bytes
    ⟨buffer, l.count + 1, space⟩
  else l

/-- `memcpy(buffer, buffer, count * 10)`, which moves nothing. -/
def SpaceLoop.finish (l : SpaceLoop) : Region UInt8 :=
  l.buffer.blit 0 (l.count * 10) l.buffer.get

/-- The listing of the free space. -/
def spaceListing : Region UInt8 :=
  (w.drives.foldl (spaceIteration w) ⟨r, 0, w.stray.diskSpace⟩).finish

/-- The stores of the loop over the fixed drives into arrays of its own: the name of a drive,
and the text of `gcvt` if it is fixed. -/
def freeSpaceArrays : SpaceLoop → List Drive → List Extent
  | _, [] => []
  | l, d :: ds =>
    ⟨disksSize, 3 * l.count + 2⟩ ::
      ((if w.getDriveType d = driveFixed then
          storeOf gcvtSize (some (figureOf w ((w.getDiskFreeSpace d).getD l.space)))
        else []) ++ freeSpaceArrays (spaceIteration w l d) ds)

/-- The free space of the fixed drives. -/
def listSpace : Except Misuse (Region UInt8) := do
  keep .overrun (freeSpaceArrays w ⟨r, 0, w.stray.diskSpace⟩ w.drives)
  return spaceListing w r

/-! ## The security of a path -/

/-- The name that the owner query gives. -/
def ownerName (path : CText) : CText :=
  if (w.ownerUser path).length = 0 then lit "Max" else w.ownerUser path

/-- `sizeof(user)` and `sizeof(domain)` of the owner query. -/
def ownerSize : ℕ := 50

/-- The stores of the owner query into arrays of its own. -/
def ownerArrays (path : CText) : List Extent :=
  storeOf ownerSize (w.lookupAccountSid (w.ownerSid path) w.stray.userLen) ++
    (storeOf ownerSize (w.lookupDomain (w.ownerSid path) w.stray.domainLen) ++
      storeOf ownerSize (if (w.ownerUser path).length = 0 then some (lit "Max") else none))

/-- The owner of a path. -/
def owner (path : CText) : Except Misuse (Region UInt8) := do
  keep .overrun (ownerArrays w path)
  return (r.strcat (lit "Owner: ").bytes).strcat (ownerName w path).bytes

/-- `sizeof(user)` and `sizeof(domain)` of the query for the access rights. -/
def accountSize : ℕ := 32

/-- `user_len` and `domain_len` of it. -/
def accountLen : ℕ := 512

/-- `sizeof(mask_str)`. -/
def maskSize : ℕ := 16

/-- The stores of an iteration of the loop over the list into arrays of its own. -/
def aceArrays (ace : Ace) : List Extent :=
  [⟨accountSize, 32⟩, ⟨accountSize, 32⟩] ++
    (storeOf accountSize (w.lookupAccountSid ace.sid accountLen) ++
      (storeOf accountSize (w.lookupDomain ace.sid accountLen) ++
        storeOf maskSize ((w.lookupAccountSid ace.sid accountLen).map fun _ =>
          lit "0x" ++ hex ace.mask.toNat)))

/-- What is appended for an entry that has an account. -/
def aceTexts (ace : Ace) (user sidStr : CText) : List CText :=
  [lit "User: ", user, lit "\nSID: ", sidStr, lit "\nMask: ", lit "0x" ++ hex ace.mask.toNat]

/-- One iteration of the loop over the list. -/
def aceIteration (ace : Ace) : Except Misuse (Region UInt8) := do
  keep .overrun (aceArrays w ace)
  match w.lookupAccountSid ace.sid accountLen with
  | none => return r
  | some user =>
    let sidStr ← readSet .sidStr (w.convertSidToStringSid ace.sid)
    return r.strcats (aceTexts ace user sidStr)

/-- The access rights of a path: the loop over the list ends after its first iteration. -/
def accessRight (path : CText) : Except Misuse (Region UInt8) := do
  let acl ← w.aclOf path
  match acl.head? with
  | none => return r
  | some ace => aceIteration w r ace

end SystemInfo
end BsitLabs
