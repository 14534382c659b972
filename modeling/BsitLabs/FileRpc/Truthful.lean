import BsitLabs.FileRpc.Transfer

/-!
# What a returned value says about the files

A transfer is told to have succeeded by a zero.  Between the question for the file's
length and the zero lie an array that is filled by a read and emptied by a write, on two
machines, and neither the read nor the write is looked at.  A read that falls short
leaves in the array what the memory held; a file that cannot be opened for writing, or a
write that falls short, is reported like any other.

So a zero is truthful if the file is shorter than `2 ^ 31` bytes, all of it is written
and what has not been read happens to be what the memory held; or, where nothing was
written, if the destination happens to hold the file already.  Everything else that can
go wrong is reported, with the destination as it was.
-/

namespace BsitLabs
namespace FileRpc

open MachineInt

/-! ## Short reads and writes -/

theorem Stream.transfers_le (io : Stream) (count : ℕ) : io.transfers count ≤ count := by
  unfold Stream.transfers
  split
  · exact le_rfl
  · exact Nat.min_le_right _ _

/-- How many bytes a stream reads; none if it is not open. -/
def Stream.bytesRead (io : Stream) (count : ℕ) : ℕ := if io.opened then io.transfers count else 0

theorem Stream.bytesRead_le (io : Stream) (count : ℕ) : io.bytesRead count ≤ count := by
  unfold Stream.bytesRead
  split
  · exact io.transfers_le count
  · exact Nat.zero_le _

/-- What an array of this length, fresh from the memory, holds after the read of a
file. -/
def filled (io : Stream) (mem : Memory) (content : List UInt8) (k : ℕ) : List UInt8 :=
  overwrite (uninit mem k) (content.take (io.bytesRead k))

@[simp] theorem length_filled (io : Stream) (mem : Memory) (content : List UInt8) (k : ℕ) :
    (filled io mem content k).length = k := by
  rw [filled, length_overwrite, length_uninit]

/-- As far as the file was read it is the file, and behind it is the memory. -/
theorem getElem?_filled (io : Stream) (mem : Memory) {content : List UInt8} {k i : ℕ}
    (hk : k ≤ content.length) (hi : i < k) :
    (filled io mem content k)[i]? =
      if i < io.bytesRead k then content[i]? else some (mem i) := by
  have hread := io.bytesRead_le k
  have hlen : (content.take (io.bytesRead k)).length = io.bytesRead k := by
    rw [List.length_take]
    omega
  have hfront : ((content.take (io.bytesRead k)).take k).length = io.bytesRead k := by
    rw [List.length_take, hlen]
    omega
  unfold filled overwrite
  rw [length_uninit, hlen]
  split
  · next hlt =>
    rw [List.getElem?_append_left (by omega), List.getElem?_take_of_lt hi,
      List.getElem?_take_of_lt hlt]
  · next hge =>
    rw [List.getElem?_append_right (by omega), hfront, List.getElem?_drop,
      Nat.add_sub_cancel' (by omega), uninit, List.getElem?_map, List.getElem?_range hi]
    rfl

/-- The file is carried from one machine to the other in full: it is not too long for an
`int`, all of it is written, and what is not read of it is what the memory held. -/
structure Carried (read write : Stream) (mem : Memory) (content : List UInt8) : Prop where
  fits : content.length < 2 ^ 31
  written : write.transfers content.length = content.length
  unread : ∀ i, read.bytesRead content.length ≤ i → i < content.length →
    content[i]? = some (mem i)

/-- **When what is written is the file.** -/
theorem take_filled_eq_iff (read write : Stream) (mem : Memory) {content : List UInt8} {k : ℕ}
    (hk : toInt32 content.length = k) :
    (filled read mem content k).take (write.transfers k) = content ↔
      Carried read write mem content := by
  have hle := toInt32_le content.length
  have hlt := toInt32_lt content.length
  constructor
  · intro heq
    have hwrite := write.transfers_le k
    have hlen := congrArg List.length heq
    rw [List.length_take, length_filled] at hlen
    obtain rfl : k = content.length := by omega
    have hall : write.transfers content.length = content.length := by omega
    refine ⟨by omega, hall, fun i hread hi => ?_⟩
    rw [hall, List.take_of_length_le (length_filled _ _ _ _).le] at heq
    have hget := getElem?_filled read mem le_rfl hi
    rwa [if_neg (by omega), heq] at hget
  · intro h
    have hnarrow := toInt32_of_lt h.fits
    obtain rfl : k = content.length := by omega
    rw [h.written, List.take_of_length_le (length_filled _ _ _ _).le]
    ext1 i
    rcases Nat.lt_or_ge i content.length with hi | hi
    · rw [getElem?_filled read mem le_rfl hi]
      split
      · rfl
      · next hread => exact (h.unread i (Nat.le_of_not_lt hread) hi).symm
    · rw [List.getElem?_eq_none (by rwa [length_filled]), List.getElem?_eq_none hi]

/-! ## The procedures, seen from the array -/

section Procedures

variable {Path : Type} [DecidableEq Path] {mem : Memory} {server disk : Files Path}
  {pathFrom pathTo : Path} {content : List UInt8} {k : ℕ}

theorem writeFile_self (io : Stream) (files : Files Path) (path : Path) (data : List UInt8) :
    writeFile io files path data path =
      if io.opened then some (data.take (io.transfers data.length)) else files path := by
  unfold writeFile
  split
  · exact Function.update_self _ _ _
  · rfl

/-- An upload whose length arrives as a number writes what has been read, and is told to
have succeeded. -/
theorem upload_of_size {io : UploadIo} (h : disk pathFrom = some content)
    (hopened : io.size.opened = true) (hk : toInt32 content.length = k) :
    Handler.upload io mem server disk pathFrom pathTo =
      (some 0, writeFile io.write server pathTo (filled io.read mem content k)) := by
  have hsize : Handler.getFileSize io.size disk pathFrom = k := by
    rw [Handler.getFileSize, fileSize, if_pos hopened, h]
    exact hk
  have hread : (readInto io.read disk pathFrom (uninit mem k)).getD (uninit mem k) =
      filled io.read mem content k := by
    unfold readInto filled Stream.bytesRead
    split
    · rw [h, Option.map_some, Option.getD_some, length_uninit]
    · rw [Option.getD_none, List.take_zero, overwrite, List.take_nil, List.length_nil,
        List.drop_zero, List.nil_append]
  unfold Handler.upload
  rw [hsize, if_neg (by omega), newArray_natCast]
  simp only [hread, servUpload]

/-- A download whose length arrives as a number writes what has been read, if the server
can open the file, and is told to have succeeded. -/
theorem download_of_size {io : DownloadIo} (h : server pathFrom = some content)
    (hopened : io.size.opened = true) (hk : toInt32 content.length = k) :
    Handler.download io mem server disk pathFrom pathTo =
      if io.read.opened then
        (some 0, writeFile io.write disk pathTo (filled io.read mem content k))
      else (some (-1), disk) := by
  have hsize : servGetFileSize io.size server pathFrom = k := by
    rw [servGetFileSize, fileSize, if_pos hopened, h]
    exact hk
  unfold Handler.download Handler.downloadSized
  rw [hsize, if_neg (by omega), newArray_natCast]
  simp only [length_uninit, servDownload, readInto]
  cases hread : io.read.opened with
  | true =>
    simp only [if_true, h, Option.map_some, ne_eq, not_true_eq_false, if_false, filled,
      Stream.bytesRead, hread]
  | false => simp

/-- Without a length nothing is done. -/
theorem upload_of_no_size {io : UploadIo} (mem : Memory) (server : Files Path) (pathTo : Path)
    (h : ∀ k : ℕ, Handler.getFileSize io.size disk pathFrom ≠ k) :
    (Handler.upload io mem server disk pathFrom pathTo).2 = server ∧
      (Handler.upload io mem server disk pathFrom pathTo).1 ≠ some 0 := by
  have hneg : Handler.getFileSize io.size disk pathFrom < 0 := by
    by_contra hnonneg
    obtain ⟨k, hk⟩ := Int.eq_ofNat_of_zero_le (Int.not_lt.mp hnonneg)
    exact h k hk
  unfold Handler.upload
  split
  · exact ⟨rfl, by simp⟩
  · rw [newArray_of_neg mem hneg]
    exact ⟨rfl, by simp⟩

/-- Nor by a download. -/
theorem download_of_no_size {io : DownloadIo} (mem : Memory) (disk : Files Path) (pathTo : Path)
    (h : ∀ k : ℕ, servGetFileSize io.size server pathFrom ≠ k) :
    (Handler.download io mem server disk pathFrom pathTo).2 = disk ∧
      (Handler.download io mem server disk pathFrom pathTo).1 ≠ some 0 := by
  have hneg : servGetFileSize io.size server pathFrom < 0 := by
    by_contra hnonneg
    obtain ⟨k, hk⟩ := Int.eq_ofNat_of_zero_le (Int.not_lt.mp hnonneg)
    exact h k hk
  unfold Handler.download Handler.downloadSized
  split
  · exact ⟨rfl, by simp⟩
  · rw [newArray_of_neg mem hneg]
    exact ⟨rfl, by simp⟩

omit [DecidableEq Path] in
/-- A length comes from a file whose length, narrowed, it is. -/
theorem fileSize_eq_natCast_iff {io : Stream} {files : Files Path} {path : Path} :
    fileSize io files path = k ↔
      io.opened = true ∧ ∃ content, files path = some content ∧ toInt32 content.length = k := by
  unfold fileSize
  cases io.opened with
  | false => simp
  | true =>
    cases files path with
    | none => simp
    | some content => simp

/-! ## Truthful values -/

/-- A zero means that the destination holds the source, and any other value that it is
as it was.  An exception means nothing. -/
structure Truthful (ret : Option ℤ) (source before after : Option (List UInt8)) : Prop where
  success : ret = some 0 → ∃ content, source = some content ∧ after = some content
  failure : ∀ v, ret = some v → v ≠ 0 → after = before

/-- The transfer of a file of which the length has arrived ends with the file at its
destination. -/
def Brings (read write : Stream) (mem : Memory) (content : List UInt8)
    (before : Option (List UInt8)) : Prop :=
  if write.opened then Carried read write mem content else before = some content

/-- When an upload tells the truth: if the local file can be asked for its length and
the length arrives as a number, it is brought to the server. -/
def UploadHonest (io : UploadIo) (mem : Memory) (server disk : Files Path)
    (pathFrom pathTo : Path) : Prop :=
  ∀ content, disk pathFrom = some content → io.size.opened = true → 0 ≤ toInt32 content.length →
    Brings io.read io.write mem content (server pathTo)

/-- When a download tells the truth: if the server's file can be asked for its length,
the length arrives as a number and the file can be opened for reading, it is brought to
the client. -/
def DownloadHonest (io : DownloadIo) (mem : Memory) (server disk : Files Path)
    (pathFrom pathTo : Path) : Prop :=
  ∀ content, server pathFrom = some content → io.size.opened = true →
    0 ≤ toInt32 content.length → io.read.opened = true →
      Brings io.read io.write mem content (disk pathTo)

theorem truthful_of_refused {ret : Option ℤ} {source before : Option (List UInt8)}
    (h : ret ≠ some 0) : Truthful ret source before before :=
  ⟨fun hzero => absurd hzero h, fun _ _ _ => rfl⟩

/-- A zero after a write. -/
theorem truthful_written_iff {read write : Stream} {files : Files Path}
    (hk : toInt32 content.length = k) :
    Truthful (some 0) (some content) (files pathTo)
        (writeFile write files pathTo (filled read mem content k) pathTo) ↔
      Brings read write mem content (files pathTo) := by
  have hafter : Truthful (some 0) (some content) (files pathTo)
        (writeFile write files pathTo (filled read mem content k) pathTo) ↔
      writeFile write files pathTo (filled read mem content k) pathTo = some content := by
    constructor
    · intro h
      obtain ⟨data, hdata, heq⟩ := h.success rfl
      rw [heq, hdata]
    · intro h
      exact ⟨fun _ => ⟨content, rfl, h⟩, fun v hv hne => absurd (Option.some.inj hv).symm hne⟩
  rw [hafter, writeFile_self, length_filled, Brings]
  split
  · rw [Option.some.injEq, take_filled_eq_iff read write mem hk]
  · exact Iff.rfl

theorem upload_truthful_iff (io : UploadIo) (mem : Memory) (server disk : Files Path)
    (pathFrom pathTo : Path) :
    Truthful (Handler.upload io mem server disk pathFrom pathTo).1 (disk pathFrom) (server pathTo)
        ((Handler.upload io mem server disk pathFrom pathTo).2 pathTo) ↔
      UploadHonest io mem server disk pathFrom pathTo := by
  by_cases hsize : ∃ k : ℕ, Handler.getFileSize io.size disk pathFrom = k
  · obtain ⟨k, hk⟩ := hsize
    obtain ⟨hopened, content, hfile, hlen⟩ := fileSize_eq_natCast_iff.mp hk
    rw [upload_of_size hfile hopened hlen, hfile, truthful_written_iff hlen]
    constructor
    · intro h content' hcontent' _ _
      obtain rfl : content = content' := Option.some.inj (hfile.symm.trans hcontent')
      exact h
    · intro h
      exact h content hfile hopened (by omega)
  · rw [not_exists] at hsize
    obtain ⟨hsame, hret⟩ := upload_of_no_size mem server pathTo hsize
    rw [hsame]
    refine iff_of_true (truthful_of_refused hret) fun content hfile hopened hnonneg => ?_
    obtain ⟨k, hk⟩ := Int.eq_ofNat_of_zero_le hnonneg
    exact absurd (fileSize_eq_natCast_iff.mpr ⟨hopened, content, hfile, hk⟩) (hsize k)

theorem download_truthful_iff (io : DownloadIo) (mem : Memory) (server disk : Files Path)
    (pathFrom pathTo : Path) :
    Truthful (Handler.download io mem server disk pathFrom pathTo).1 (server pathFrom)
        (disk pathTo) ((Handler.download io mem server disk pathFrom pathTo).2 pathTo) ↔
      DownloadHonest io mem server disk pathFrom pathTo := by
  by_cases hsize : ∃ k : ℕ, servGetFileSize io.size server pathFrom = k
  · obtain ⟨k, hk⟩ := hsize
    obtain ⟨hopened, content, hfile, hlen⟩ := fileSize_eq_natCast_iff.mp hk
    rw [download_of_size hfile hopened hlen, hfile]
    cases hread : io.read.opened with
    | false =>
      -- the server cannot open the file, and says so
      refine iff_of_true (truthful_of_refused (by simp)) fun _ _ _ _ hread' => ?_
      exact absurd (hread.symm.trans hread') (by decide)
    | true =>
      rw [if_pos rfl, truthful_written_iff hlen]
      constructor
      · intro h content' hcontent' _ _ _
        obtain rfl : content = content' := Option.some.inj (hfile.symm.trans hcontent')
        exact h
      · intro h
        exact h content hfile hopened (by omega) hread
  · rw [not_exists] at hsize
    obtain ⟨hsame, hret⟩ := download_of_no_size mem disk pathTo hsize
    rw [hsame]
    refine iff_of_true (truthful_of_refused hret) fun content hfile hopened hnonneg _ => ?_
    obtain ⟨k, hk⟩ := Int.eq_ofNat_of_zero_le hnonneg
    exact absurd (fileSize_eq_natCast_iff.mpr ⟨hopened, content, hfile, hk⟩) (hsize k)

/-- **When the two transfers tell the truth**, whatever becomes of their streams, as long as there
is memory for their arrays (`newArray`). -/
theorem transfers_truthful_iff (up : UploadIo) (down : DownloadIo) (mem : Memory)
    (server disk : Files Path) (pathFrom pathTo : Path) :
    (Truthful (Handler.upload up mem server disk pathFrom pathTo).1 (disk pathFrom)
        (server pathTo) ((Handler.upload up mem server disk pathFrom pathTo).2 pathTo) ↔
      UploadHonest up mem server disk pathFrom pathTo) ∧
    (Truthful (Handler.download down mem server disk pathFrom pathTo).1 (server pathFrom)
        (disk pathTo) ((Handler.download down mem server disk pathFrom pathTo).2 pathTo) ↔
      DownloadHonest down mem server disk pathFrom pathTo) :=
  ⟨upload_truthful_iff up mem server disk pathFrom pathTo,
    download_truthful_iff down mem server disk pathFrom pathTo⟩

end Procedures

/-- The server cannot open the file for writing, and the upload is told to have
succeeded. -/
theorem not_truthful_upload_unopened :
    ¬ ∀ (io : UploadIo) (mem : Memory) (server disk : Files Bool) (pathFrom pathTo : Bool),
      Truthful (Handler.upload io mem server disk pathFrom pathTo).1 (disk pathFrom)
        (server pathTo) ((Handler.upload io mem server disk pathFrom pathTo).2 pathTo) := by
  intro hall
  have htrue := (upload_truthful_iff _ _ _ _ _ _).mp
    (hall ⟨.full, .full, ⟨false, none⟩⟩ (fun _ => 0) (fun _ => none) (oneFile [1, 2, 3]) true true)
  have hbrings := htrue [1, 2, 3] (oneFile_self _) rfl (by decide)
  exact absurd hbrings (by simp [Brings])

end FileRpc
end BsitLabs
