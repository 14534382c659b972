import BsitLabs.Foundation.MachineInt
import Mathlib.Logic.Function.Basic

/-!
# Files, and the procedures of the file server

The files of one machine are a map from paths to contents.  The programs reach them
through C++ streams, whose operations may fail or fall short; what becomes of them is
an argument (`Stream`).  A stream that reads into an array overwrites its beginning
and leaves the rest as it was, and an array fresh from `new` holds whatever the memory
held, so what the memory holds is an argument too.

The server's file procedures are `serv_get_file_size`, `serv_download`, `serv_upload`
and `serv_remove`; `Handler::get_file_size` is the first of them on the client's side.
A value returned by a procedure is an `int`.
-/

namespace BsitLabs
namespace FileRpc

open MachineInt

/-- The files of one machine. -/
abbrev Files (Path : Type) := Path → Option (List UInt8)

/-- What the memory holds where an array is placed. -/
abbrev Memory := ℕ → UInt8

/-- What becomes of the operations on one stream. -/
structure Stream where
  /-- The system lets the file be opened. -/
  opened : Bool
  /-- At most this many bytes are transferred; `none` is as many as were asked for. -/
  limit : Option ℕ

/-- Everything succeeds in full. -/
def Stream.full : Stream := ⟨true, none⟩

/-- How many bytes are transferred when `count` are asked for. -/
def Stream.transfers (io : Stream) (count : ℕ) : ℕ :=
  match io.limit with
  | none => count
  | some k => min k count

/-! ## Arrays -/

/-- An array of this length, fresh from the memory. -/
def uninit (mem : Memory) (n : ℕ) : List UInt8 := (List.range n).map mem

@[simp] theorem length_uninit (mem : Memory) (n : ℕ) : (uninit mem n).length = n := by
  simp [uninit]

/-- `new unsigned char[n]`.  `none` is the exception that a negative length throws.  For any
other length, which is below `2 ^ 31`, it is assumed that there is memory. -/
def newArray (mem : Memory) (n : ℤ) : Option (List UInt8) :=
  if n < 0 then none else some (uninit mem n.toNat)

theorem newArray_of_neg (mem : Memory) {n : ℤ} (h : n < 0) : newArray mem n = none := if_pos h

@[simp] theorem newArray_natCast (mem : Memory) (n : ℕ) : newArray mem n = some (uninit mem n) := by
  simp [newArray]

/-- Bytes stored at the start of an array. -/
def overwrite (buffer data : List UInt8) : List UInt8 :=
  data.take buffer.length ++ buffer.drop data.length

@[simp] theorem length_overwrite (buffer data : List UInt8) :
    (overwrite buffer data).length = buffer.length := by
  simp only [overwrite, List.length_append, List.length_take, List.length_drop]
  omega

/-- Data that fills the array is all it holds. -/
theorem overwrite_of_length {buffer data : List UInt8} (h : data.length = buffer.length) :
    overwrite buffer data = data := by
  rw [overwrite, List.take_of_length_le h.le, h, List.drop_length, List.append_nil]

/-! ## Streams -/

section Streams

variable {Path : Type}

/-- `read(buffer, size)` of a binary `std::ifstream` on a path; `none` if it is not
open. -/
def readInto (io : Stream) (files : Files Path) (path : Path) (buffer : List UInt8) :
    Option (List UInt8) :=
  if io.opened then
    (files path).map fun content => overwrite buffer (content.take (io.transfers buffer.length))
  else none

/-- `write(data, size)` of a binary `std::ofstream` on a path, which it creates or
empties first. -/
def writeFile [DecidableEq Path] (io : Stream) (files : Files Path) (path : Path)
    (data : List UInt8) : Files Path :=
  if io.opened then Function.update files path (some (data.take (io.transfers data.length)))
  else files

/-- `tellg` at the end of a `std::fstream` on a path, narrowed to `int`; minus one if
it is not open. -/
def fileSize (io : Stream) (files : Files Path) (path : Path) : ℤ :=
  if io.opened then
    match files path with
    | some content => toInt32 content.length
    | none => -1
  else -1

/-- All of the file that fits is read. -/
theorem readInto_full {files : Files Path} {path : Path} {content : List UInt8}
    (h : files path = some content) (buffer : List UInt8) :
    readInto .full files path buffer =
      some (overwrite buffer (content.take buffer.length)) := by
  simp [readInto, Stream.full, Stream.transfers, h]

theorem writeFile_full [DecidableEq Path] (files : Files Path) (path : Path) (data : List UInt8) :
    writeFile .full files path data = Function.update files path (some data) := by
  simp [writeFile, Stream.full, Stream.transfers]

theorem fileSize_full {files : Files Path} {path : Path} {content : List UInt8}
    (h : files path = some content) : fileSize .full files path = toInt32 content.length := by
  simp [fileSize, Stream.full, h]

end Streams

/-! ## The procedures -/

section Procedures

variable {Path : Type}

/-- `serv_get_file_size`. -/
def servGetFileSize (io : Stream) (files : Files Path) (path : Path) : ℤ := fileSize io files path

/-- `serv_download`: the value returned and the array sent back.  The array is as long
as the client says, which is the length of an array of its own; how much of it the
read has filled is not looked at. -/
def servDownload (io : Stream) (mem : Memory) (files : Files Path) (pathFrom : Path)
    (bufferSize : ℕ) : ℤ × List UInt8 :=
  match readInto io files pathFrom (uninit mem bufferSize) with
  | some buffer => (0, buffer)
  | none => (-1, uninit mem bufferSize)

/-- `serv_upload`.  Zero is returned whatever becomes of the stream. -/
def servUpload [DecidableEq Path] (io : Stream) (files : Files Path) (pathTo : Path)
    (buffer : List UInt8) : ℤ × Files Path := (0, writeFile io files pathTo buffer)

/-- `serv_remove`. -/
def servRemove [DecidableEq Path] (io : Stream) (files : Files Path) (path : Path) :
    ℤ × Files Path :=
  if io.opened && (files path).isSome then (0, Function.update files path none) else (-1, files)

/-- A download of a file that is there brings its beginning, and behind a shorter file
what the server's memory held. -/
theorem servDownload_full {files : Files Path} {path : Path} {content : List UInt8}
    (h : files path = some content) (mem : Memory) (size : ℕ) :
    servDownload .full mem files path size =
      (0, content.take size ++ (uninit mem size).drop content.length) := by
  rw [servDownload, readInto_full h]
  simp only [length_uninit, overwrite, List.take_take, Nat.min_self, List.length_take]
  congr 2
  rcases Nat.le_total size content.length with hle | hle
  · rw [Nat.min_eq_left hle, List.drop_eq_nil_of_le (by simp),
      List.drop_eq_nil_of_le (by simpa using hle)]
  · rw [Nat.min_eq_right hle]

/-- A file that is as long as the client says is brought as it is. -/
theorem servDownload_of_length {files : Files Path} {path : Path} {content : List UInt8}
    (h : files path = some content) (mem : Memory) {size : ℕ} (hlen : content.length = size) :
    servDownload .full mem files path size = (0, content) := by
  rw [servDownload_full h, ← hlen, List.take_length, List.drop_eq_nil_of_le (by simp),
    List.append_nil]

end Procedures

end FileRpc
end BsitLabs
