import BsitLabs.FileRpc.FileStore

/-!
# Transfers

`Handler::upload` and `Handler::download` carry a file's length as an `int`, from
`get_file_size` through the allocation of an array to the call of the server.  The
narrowing of the length is harmless below `2 ^ 31` and decides everything from there
on: the length that arrives is negative, and the call fails or throws, or it is a
smaller length, and the rest of the file is lost without a sign.

The allocation itself is taken to succeed for every length that is not negative
(`newArray`): what is said here is said of machines that have memory for the array.
-/

namespace BsitLabs
namespace FileRpc

open MachineInt

variable {Path : Type}

/-- What becomes of the streams of a download. -/
structure DownloadIo where
  /-- The stream of `serv_get_file_size`. -/
  size : Stream
  /-- The stream of `serv_download`. -/
  read : Stream
  /-- The stream on the client's side. -/
  write : Stream

/-- What becomes of the streams of an upload. -/
structure UploadIo where
  /-- The stream of `get_file_size`. -/
  size : Stream
  /-- The stream on the client's side. -/
  read : Stream
  /-- The stream of `serv_upload`. -/
  write : Stream

def DownloadIo.full : DownloadIo := ⟨.full, .full, .full⟩

def UploadIo.full : UploadIo := ⟨.full, .full, .full⟩

namespace Handler

/-- `get_file_size`. -/
def getFileSize (io : Stream) (files : Files Path) (path : Path) : ℤ := fileSize io files path

variable [DecidableEq Path]

/-- `remove`: the value returned, and the server's files. -/
def remove (io : Stream) (server : Files Path) (path : Path) : ℤ × Files Path :=
  servRemove io server path

/-- `download` from the point where `serv_get_file_size` has returned: the value
returned, `none` for an exception, and the client's files. -/
def downloadSized (io : DownloadIo) (mem : Memory) (server disk : Files Path)
    (pathFrom pathTo : Path) (fileSize : ℤ) : Option ℤ × Files Path :=
  if fileSize = -1 then (some (-1), disk)
  else
    match newArray mem fileSize with
    | none => (none, disk)
    | some buffer =>
      -- the call replaces the whole array
      match servDownload io.read mem server pathFrom buffer.length with
      | (ret, buffer) =>
        if ret ≠ 0 then (some (-1), disk) else (some ret, writeFile io.write disk pathTo buffer)

/-- `download`. -/
def download (io : DownloadIo) (mem : Memory) (server disk : Files Path)
    (pathFrom pathTo : Path) : Option ℤ × Files Path :=
  downloadSized io mem server disk pathFrom pathTo (servGetFileSize io.size server pathFrom)

/-- `upload`: the value returned, `none` for an exception, and the server's files.  The
stream that the file is read from is not looked at. -/
def upload (io : UploadIo) (mem : Memory) (server disk : Files Path)
    (pathFrom pathTo : Path) : Option ℤ × Files Path :=
  if getFileSize io.size disk pathFrom = -1 then (some (-1), server)
  else
    match newArray mem (getFileSize io.size disk pathFrom) with
    | none => (none, server)
    | some buffer =>
      match servUpload io.write server pathTo
        ((readInto io.read disk pathFrom buffer).getD buffer) with
      | (ret, server) => (some ret, server)

/-! ## Transfers whose streams all succeed -/

/-- A length that arrives as a negative number makes the upload fail. -/
theorem upload_of_neg {mem : Memory} {server disk : Files Path} {pathFrom pathTo : Path}
    {content : List UInt8} (h : disk pathFrom = some content)
    (hneg : toInt32 content.length < 0) :
    (upload .full mem server disk pathFrom pathTo).1 ≠ some 0 := by
  have hsize : getFileSize UploadIo.full.size disk pathFrom = toInt32 content.length :=
    fileSize_full h
  unfold upload
  rw [hsize]
  split
  · simp
  · rw [newArray_of_neg mem hneg]
    simp

/-- A length that arrives as a number `k` makes the upload bring the first `k` bytes. -/
theorem upload_of_toInt32 (mem : Memory) (server : Files Path) {disk : Files Path}
    {pathFrom : Path} (pathTo : Path) {content : List UInt8}
    (h : disk pathFrom = some content) {k : ℕ} (hk : toInt32 content.length = k) :
    upload .full mem server disk pathFrom pathTo =
      (some 0, Function.update server pathTo (some (content.take k))) := by
  have hsize : getFileSize UploadIo.full.size disk pathFrom = k := (fileSize_full h).trans hk
  have hle : k ≤ content.length := by
    have hnarrow := toInt32_le content.length
    omega
  have hread : readInto UploadIo.full.read disk pathFrom (uninit mem k) =
      some (content.take k) := by
    rw [show UploadIo.full.read = Stream.full from rfl, readInto_full h, length_uninit,
      overwrite_of_length (by simpa using hle)]
  unfold upload
  rw [hsize, if_neg (by omega), newArray_natCast]
  simp only [hread, Option.getD_some, servUpload]
  rw [show UploadIo.full.write = Stream.full from rfl, writeFile_full]

/-- A download of which the length arrives unharmed brings the file. -/
theorem downloadSized_of_length {mem : Memory} {server disk : Files Path} {pathFrom pathTo : Path}
    {content : List UInt8} (h : server pathFrom = some content) {size : ℤ}
    (hsize : (content.length : ℤ) = size) :
    downloadSized .full mem server disk pathFrom pathTo size =
      (some 0, Function.update disk pathTo (some content)) := by
  have hbring : servDownload DownloadIo.full.read mem server pathFrom
      (uninit mem content.length).length = (0, content) :=
    servDownload_of_length h mem (length_uninit mem _).symm
  unfold downloadSized
  rw [← hsize, if_neg (by omega), newArray_natCast]
  simp only [hbring]
  rw [if_neg (by simp), show DownloadIo.full.write = Stream.full from rfl, writeFile_full]

theorem download_of_lt {mem : Memory} {server disk : Files Path} {pathFrom pathTo : Path}
    {content : List UInt8} (h : server pathFrom = some content) (hlen : content.length < 2 ^ 31) :
    download .full mem server disk pathFrom pathTo =
      (some 0, Function.update disk pathTo (some content)) := by
  have hsize : servGetFileSize DownloadIo.full.size server pathFrom = content.length :=
    (fileSize_full h).trans (toInt32_of_lt hlen)
  rw [download, hsize]
  exact downloadSized_of_length h rfl

end Handler

/-! ## The round trip -/

section RoundTrip

variable [DecidableEq Path]

/-- The upload of a file, with every stream succeeding in full. -/
def uploaded (mem : Memory) (server disk : Files Path) (path remote : Path) :
    Option ℤ × Files Path := Handler.upload .full mem server disk path remote

/-- The download that follows it. -/
def downloaded (mem mem' : Memory) (server disk : Files Path) (path remote copy : Path) :
    Option ℤ × Files Path :=
  Handler.download .full mem' (uploaded mem server disk path remote).2 disk remote copy

/-- A file that is uploaded and then downloaded comes back as it was, and neither call
fails. -/
structure RoundTrip (mem mem' : Memory) (server disk : Files Path) (path remote copy : Path)
    (content : List UInt8) : Prop where
  same : (uploaded mem server disk path remote).1 = some 0 →
    (downloaded mem mem' server disk path remote copy).1 = some 0 →
    (downloaded mem mem' server disk path remote copy).2 copy = some content
  upload : (uploaded mem server disk path remote).1 = some 0
  download : (downloaded mem mem' server disk path remote copy).1 = some 0

/-- What comes back when the length arrives as a number. -/
theorem downloaded_of_toInt32 (mem mem' : Memory) (server : Files Path) {disk : Files Path}
    {path : Path} (remote copy : Path) {content : List UInt8} (h : disk path = some content) {k : ℕ}
    (hk : toInt32 content.length = k) :
    (uploaded mem server disk path remote).1 = some 0 ∧
      downloaded mem mem' server disk path remote copy =
        (some 0, Function.update disk copy (some (content.take k))) := by
  have hup := Handler.upload_of_toInt32 mem server remote h hk
  have hlt : (content.take k).length < 2 ^ 31 := by
    have hbound := toInt32_lt content.length
    rw [List.length_take]
    omega
  rw [downloaded, uploaded, hup]
  exact ⟨rfl, Handler.download_of_lt (by simp) hlt⟩

/-- **Which files survive the round trip**, as far as there is memory for them: those shorter than
`2 ^ 31` bytes. -/
theorem roundTrip_iff (mem mem' : Memory) (server disk : Files Path) (path remote copy : Path)
    {content : List UInt8} (h : disk path = some content) :
    RoundTrip mem mem' server disk path remote copy content ↔ content.length < 2 ^ 31 := by
  constructor
  · intro hround
    by_contra hlong
    rcases Int.lt_or_le (toInt32 content.length) 0 with hneg | hnonneg
    · exact Handler.upload_of_neg h hneg hround.upload
    · -- the length arrives as a smaller one
      obtain ⟨k, hk⟩ := Int.eq_ofNat_of_zero_le hnonneg
      have hbound := toInt32_lt content.length
      obtain ⟨_, hdown⟩ := downloaded_of_toInt32 mem mem' server remote copy h hk
      have hsame := hround.same hround.upload hround.download
      rw [hdown] at hsame
      have hcopy : content.take k = content := by simpa using hsame
      have hlen := congrArg List.length hcopy
      rw [List.length_take] at hlen
      omega
  · intro hlt
    obtain ⟨hup, hdown⟩ := downloaded_of_toInt32 mem mem' server remote copy h (toInt32_of_lt hlt)
    refine ⟨fun _ _ => ?_, hup, by rw [hdown]⟩
    rw [hdown]
    simp

/-- A disk with one file. -/
def oneFile (content : List UInt8) : Files Bool :=
  Function.update (fun _ => none) true (some content)

theorem oneFile_self (content : List UInt8) : oneFile content true = some content := by
  simp [oneFile]

theorem roundTrip_iff_three :
    RoundTrip (fun _ => 0) (fun _ => 0) (fun _ => none) (oneFile [1, 2, 3]) true true false
      [1, 2, 3] :=
  (roundTrip_iff _ _ _ _ true true false (oneFile_self [1, 2, 3])).mpr (by decide)

/-- A file of `2 ^ 32` zeros is uploaded and downloaded without an error, and the copy
is empty. -/
theorem not_roundTrip_four_gigabytes :
    ¬ ∀ content : List UInt8, RoundTrip (fun _ => 0) (fun _ => 0) (fun _ => none) (oneFile content)
      true true false content := by
  intro hall
  obtain ⟨content, hlen⟩ : ∃ content : List UInt8, content.length = 2 ^ 32 :=
    ⟨List.replicate (2 ^ 32) 0, List.length_replicate⟩
  have hround := hall content
  have hzero : toInt32 content.length = (0 : ℕ) := by
    rw [hlen]
    rfl
  obtain ⟨_, hdown⟩ := downloaded_of_toInt32 (fun _ => 0) (fun _ => 0) (fun _ => none) true false
    (oneFile_self content) hzero
  have hsame := hround.same hround.upload hround.download
  rw [hdown] at hsame
  have hcopy : some (content.take 0) = some content := by simpa using hsame
  have hnil : content.take 0 = content := Option.some.inj hcopy
  rw [← hnil, List.take_zero, List.length_nil] at hlen
  omega

end RoundTrip

end FileRpc
end BsitLabs
