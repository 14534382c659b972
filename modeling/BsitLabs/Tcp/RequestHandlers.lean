import BsitLabs.SystemInfo.Replies
import BsitLabs.Tcp.Handlers

/-!
# The request handlers

The eight procedures that `msg_handler` chooses between.  Each builds its text in
`buf_send`, which has been cleared; the last two take a path out of `buf_recv` first.
`Env.windows` is the server with these handlers and a provider.

The path of a request stands behind its length, a signed `char` that becomes the
`size_t` of a `strncpy` into `path[128]`.  A negative length becomes a count of almost
`2 ^ 32`, and `strncpy` stores as many bytes as it is told, far behind the array.  Behind
`buf_recv` lies `buf_send`, so a copy that reads on past the end finds a zero there.

A handler that misuses memory leaves nothing, and so does one that stores behind the end of
`buf_send` (`leaves`).
-/

namespace BsitLabs
namespace Tcp

open MachineInt SystemInfo

/-! ## The path of a request -/

/-- The size of `path`. -/
def pathSize : ℕ := 128

/-- Conversion of an `int` to `size_t`. -/
def sizeT (k : ℤ) : ℕ := (k % 2 ^ 32).toNat

/-- The string at `buf_recv + 2`. -/
def pathSource (bufRecv : Buffer bufSize) : List UInt8 := (Region.ofList bufRecv.bytes).cString 2

/-- `char path[128] = ""; strncpy(path, buf_recv + 2, path_len)`. -/
def copyPath (bufRecv : Buffer bufSize) : Region UInt8 :=
  (Region.ofList (List.replicate pathSize 0)).strncpy 0 (pathSource bufRecv)
    (sizeT (schar (bufRecv.get 1)))

/-- The store of the copy. -/
def pathExtent (bufRecv : Buffer bufSize) : Extent := ⟨pathSize, (copyPath bufRecv).top⟩

/-- The path of a request that stands in this buffer. -/
def pathOf (bufRecv : Buffer bufSize) : CText := (copyPath bufRecv).text 0

/-- The path, if the copy keeps to its array. -/
def takePath (bufRecv : Buffer bufSize) : Except Misuse CText := do
  keep .overrun [pathExtent bufRecv]
  return pathOf bufRecv

theorem sizeT_of_nonneg {k : ℤ} (h0 : 0 ≤ k) (h : k < 2 ^ 32) : sizeT k = k.toNat := by
  rw [sizeT, Int.emod_eq_of_lt h0 h]

/-- A negative `char` becomes a count of almost `2 ^ 32`. -/
theorem sizeT_of_neg {k : ℤ} (h : k < 0) (hk : -128 ≤ k) : 2 ^ 32 - 128 ≤ sizeT k := by
  unfold sizeT
  omega

/-! ## The handlers -/

variable (w : Win32) (bufRecv : Buffer bufSize) (bufSend : Region UInt8)

/-- `os_version_handler`. -/
def osVersionHandler : Region UInt8 := osVersion w bufSend

/-- `current_time_handler`. -/
def currentTimeHandler : Region UInt8 := currentTime w bufSend

/-- `os_time_handler`. -/
def osTimeHandler : Region UInt8 := osTime w bufSend

/-- `memory_status_handler`. -/
def memoryStatusHandler : Region UInt8 := memoryStatus w bufSend

/-- `disks_types_handler`. -/
def disksTypesHandler : Except Misuse (Region UInt8) := listDrives w bufSend

/-- `free_space_handler`. -/
def freeSpaceHandler : Except Misuse (Region UInt8) := listSpace w bufSend

/-- `owner_handler`. -/
def ownerHandler : Except Misuse (Region UInt8) := do
  let path ← takePath bufRecv
  owner w bufSend path

/-- `access_right_handler`. -/
def accessRightHandler : Except Misuse (Region UInt8) := do
  let path ← takePath bufRecv
  accessRight w bufSend path

/-- The switch of `msg_handler`. -/
def requestHandler (t : RequestType) : Except Misuse (Region UInt8) :=
  match t with
  | .osVersion => return osVersionHandler w bufSend
  | .currentTime => return currentTimeHandler w bufSend
  | .osTime => return osTimeHandler w bufSend
  | .memoryStatus => return memoryStatusHandler w bufSend
  | .disksTypes => disksTypesHandler w bufSend
  | .freeSpace => freeSpaceHandler w bufSend
  | .accessRight => accessRightHandler w bufRecv bufSend
  | .owner => ownerHandler w bufRecv bufSend

/-- `buf_send` after `memset(buf_send, 0, 512)`. -/
def clearSend : Region UInt8 := Region.ofList (List.replicate bufSize 0)

/-- What has been stored, from the start of the array. -/
def stored (r : Region UInt8) : List UInt8 := (List.range r.top).map r.get

/-- What a handler leaves in `buf_send`, if it has kept to it and to its own memory. -/
def leaves (result : Except Misuse (Region UInt8)) : Option (List UInt8) :=
  match result with
  | .ok r => if r.top ≤ bufSize then some (stored r) else none
  | .error _ => none

theorem leaves_eq_some_iff {result : Except Misuse (Region UInt8)} {written : List UInt8} :
    leaves result = some written ↔ ∃ r, result = .ok r ∧ r.top ≤ bufSize ∧ stored r = written := by
  cases result with
  | error misuse => simp [leaves]
  | ok r => simp [leaves]

/-- The server with these handlers. -/
def Env.windows (csp : Csp) : Env Win32 where
  csp := csp
  handler t bufRecv w := leaves (requestHandler w bufRecv clearSend t)

end Tcp
end BsitLabs
