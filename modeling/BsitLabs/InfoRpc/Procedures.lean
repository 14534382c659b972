import BsitLabs.SystemInfo.Replies

/-!
# The procedures of the information server

A call of one of the eight procedures hands it `buffer`, an array of `buffer_size` bytes
whose contents are sent back.  Each builds its reply at the start of the array, as the
first server does in `buf_send`, moves it up by four and puts its length in front.  None of
them looks at `buffer_size`, so the length of the array is no argument here: how far a
procedure stores is read off the region it leaves.

A procedure whose own arrays overflow, or that follows a pointer which leads nowhere, has no
result.

Nothing clears the array before the call, and nothing says what lies behind it; `OutBuffer`
is any such memory.  The program is a 32-bit one, and the memory that it can address ends
below `2 ^ 31`.
-/

namespace BsitLabs
namespace InfoRpc

open MachineInt SystemInfo

/-- The memory at `buffer` when a procedure is called. -/
structure OutBuffer where
  memory : Region UInt8
  untouched : memory.top = 0
  extent_le : memory.extent + 4 ≤ 2 ^ 31

/-- `for (int i = buf_size + 3; i > 3; --i) buffer[i] = buffer[i - 4];` -/
def shiftUp : ℕ → Region UInt8 → Region UInt8
  | 0, buffer => buffer
  | k + 1, buffer => shiftUp k (buffer.set (k + 4) (buffer.get k))

/-- What every procedure ends with: `int buf_size = strlen(buffer)`, the move, and
`*((int*)(buffer)) = buf_size`. -/
def sizeInFront (buffer : Region UInt8) : Region UInt8 :=
  let bufSize := toInt32 (buffer.strlen 0)
  (shiftUp bufSize.toNat buffer).write 0 (int32Bytes bufSize)

section Procedures

variable (w : Win32) (buffer : OutBuffer) (path : CText)

/-- `serv_os_version`. -/
def servOsVersion : Region UInt8 := sizeInFront (osVersion w buffer.memory)

/-- `serv_current_time`. -/
def servCurrentTime : Region UInt8 := sizeInFront (currentTime w buffer.memory)

/-- `serv_os_time`. -/
def servOsTime : Region UInt8 := sizeInFront (osTime w buffer.memory)

/-- `serv_memory_status`. -/
def servMemoryStatus : Region UInt8 := sizeInFront (memoryStatus w buffer.memory)

/-- `serv_disks_types`. -/
def servDisksTypes : Except Misuse (Region UInt8) := (listDrives w buffer.memory).map sizeInFront

/-- `serv_free_space`. -/
def servFreeSpace : Except Misuse (Region UInt8) := (listSpace w buffer.memory).map sizeInFront

/-- `serv_file_owner`. -/
def servFileOwner : Except Misuse (Region UInt8) := (owner w buffer.memory path).map sizeInFront

/-- `serv_file_access_right`. -/
def servFileAccessRight : Except Misuse (Region UInt8) :=
  (accessRight w buffer.memory path).map sizeInFront

end Procedures

/-! ## The client -/

/-- `buf_size` of the client's `Handler`. -/
def clientBufSize : ℕ := 256

/-- The client's array after a call: the bytes of the server's array. -/
def received (buffer : Region UInt8) : Region UInt8 :=
  .ofList ((List.range clientBufSize).map buffer.get)

/-- `buf_out_size` of `print_response`. -/
def bufOutSize (buf : Region UInt8) : ℤ := int32OfBytes buf.get

/-- The indices that the loop of `print_response` reads. -/
def printedIndices (buf : Region UInt8) : List ℕ :=
  (List.range (bufOutSize buf).toNat).map (4 + ·)

/-- The reply that stands behind its length: what the loop of `print_response` prints. -/
def replyText (buf : Region UInt8) : List UInt8 := (printedIndices buf).map buf.get

/-- `print_response`: the reply and the end of the line. -/
def printResponse (buf : Region UInt8) : List UInt8 := replyText buf ++ ascii "\n"

/-- The indices that `print_response` reads, the length in front among them. -/
def readIndices (buf : Region UInt8) : List ℕ := List.range 4 ++ printedIndices buf

end InfoRpc
end BsitLabs
