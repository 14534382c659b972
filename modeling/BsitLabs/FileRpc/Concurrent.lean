import BsitLabs.FileRpc.Transfer
import BsitLabs.Foundation.Transition
import Mathlib.Tactic.IntervalCases

/-!
# Transfers of many clients

Any number of clients work on one server, each with its own files and one operation at
a time.  A call of the server is one step.  An upload and a remove are one call each; a
download is two, `serv_get_file_size` and `serv_download`, and between them the client
carries a length while others may change the file.

Each set of files that the server has had is put on record (`versions`), and each
download that has returned zero with what it left on the client's disk (`finished`).
`Consistent` is what a download is meant to bring: the whole content that the file had
at some moment between its two calls.  It holds in every run in which the file has,
whenever it is read into an array, the length that the client carries (`Fits`); where the
length differs, `serv_download` reads what there is and reports success.  A length that is
negative makes no array, and the second call is not made.
-/

namespace BsitLabs
namespace FileRpc

open MachineInt Transition

variable {Path : Type}

/-- A download between its two calls. -/
structure Pending (Path : Type) where
  pathFrom : Path
  pathTo : Path
  /-- What `serv_get_file_size` returned. -/
  fileSize : ℤ
  /-- The version of the server's files that the first call has seen. -/
  start : ℕ

/-- A download that has returned zero. -/
structure Finished (Path : Type) where
  pathFrom : Path
  /-- The versions that its first and its second call have seen. -/
  start : ℕ
  finish : ℕ
  /-- What it has left in the client's file. -/
  written : Option (List UInt8)

/-- The server, its clients, and the record of both. -/
structure Cluster (Path : Type) where
  server : Files Path
  disks : ℕ → Files Path
  pending : ℕ → Option (Pending Path)
  versions : List (Files Path)
  finished : List (Finished Path)

/-- What happens in a step. -/
inductive ClusterEvent (Path : Type) where
  | upload (c : ℕ) (pathFrom pathTo : Path) (mem : Memory)
  | remove (c : ℕ) (path : Path)
  | getFileSize (c : ℕ) (pathFrom pathTo : Path)
  | download (c : ℕ) (mem : Memory)

namespace Cluster

/-- The server's files have changed. -/
def setServer (s : Cluster Path) (server : Files Path) : Cluster Path :=
  { s with server := server, versions := s.versions ++ [server] }

/-- The version of the server's files that stands. -/
def now (s : Cluster Path) : ℕ := s.versions.length - 1

/-- A download has been asked for, and its first call made. -/
def ask (s : Cluster Path) (c : ℕ) (pathFrom pathTo : Path) : Cluster Path :=
  { s with
    pending := Function.update s.pending c
      (some ⟨pathFrom, pathTo, servGetFileSize .full s.server pathFrom, s.now⟩) }

variable [DecidableEq Path]

/-- How a download ends: the value returned, and the client's files. -/
def outcome (s : Cluster Path) (c : ℕ) (p : Pending Path) (mem : Memory) : Option ℤ × Files Path :=
  Handler.downloadSized .full mem s.server (s.disks c) p.pathFrom p.pathTo p.fileSize

/-- A download has made its second call and returned. -/
def finish (s : Cluster Path) (c : ℕ) (p : Pending Path) (mem : Memory) : Cluster Path :=
  { s with
    disks := Function.update s.disks c (s.outcome c p mem).2
    pending := Function.update s.pending c none
    finished := s.finished ++ if (s.outcome c p mem).1 = some 0 then
      [⟨p.pathFrom, p.start, s.now, (s.outcome c p mem).2 p.pathTo⟩] else [] }

/-- The steps of the server and its clients. -/
inductive Step : Cluster Path → ClusterEvent Path → Cluster Path → Prop where
  | upload {s : Cluster Path} {c : ℕ} {pathFrom pathTo : Path} {mem : Memory}
      (hidle : s.pending c = none) :
      Step s (.upload c pathFrom pathTo mem)
        (s.setServer (Handler.upload .full mem s.server (s.disks c) pathFrom pathTo).2)
  | remove {s : Cluster Path} {c : ℕ} {path : Path} (hidle : s.pending c = none) :
      Step s (.remove c path) (s.setServer (Handler.remove .full s.server path).2)
  | getFileSize {s : Cluster Path} {c : ℕ} {pathFrom pathTo : Path} (hidle : s.pending c = none) :
      Step s (.getFileSize c pathFrom pathTo) (s.ask c pathFrom pathTo)
  | download {s : Cluster Path} {c : ℕ} {mem : Memory} {p : Pending Path}
      (hp : s.pending c = some p) : Step s (.download c mem) (s.finish c p mem)

end Cluster

/-- The runs of a server and its clients, from any files. -/
def clusterMachine (Path : Type) [DecidableEq Path] :
    Machine (Cluster Path) (ClusterEvent Path) where
  init s := s.versions = [s.server] ∧ (∀ c, s.pending c = none) ∧ s.finished = []
  step := Cluster.Step

/-- Every download that has returned zero has brought the whole content that its file
had in one of the versions between its two calls. -/
def Consistent (s : Cluster Path) : Prop :=
  ∀ d ∈ s.finished, ∃ k files content, d.start ≤ k ∧ k ≤ d.finish ∧ s.versions[k]? = some files ∧
    files d.pathFrom = some content ∧ d.written = some content

/-- The file that a download's second call finds, if the call is made, has the length that the
client carries. -/
def Fits (s : Cluster Path) : ClusterEvent Path → Prop
  | .download c _ => ∀ p content, s.pending c = some p → 0 ≤ p.fileSize →
      s.server p.pathFrom = some content → (content.length : ℤ) = p.fileSize
  | _ => True

/-! ## The record -/

/-- What holds of the record in every run. -/
structure Recorded (s : Cluster Path) : Prop where
  /-- The version that stands is the last. -/
  current : s.versions[s.now]? = some s.server
  /-- A download has begun in the past. -/
  begun : ∀ c p, s.pending c = some p → p.start ≤ s.now

theorem recorded_initial [DecidableEq Path] {s : Cluster Path}
    (h : (clusterMachine Path).init s) : Recorded s := by
  obtain ⟨hversions, hpending, _⟩ := h
  refine ⟨?_, fun c p hp => ?_⟩
  · rw [Cluster.now, hversions]
    rfl
  · rw [hpending] at hp
    simp at hp

theorem Recorded.setServer {s : Cluster Path} (h : Recorded s) (server : Files Path) :
    Recorded (s.setServer server) := by
  have hnow : (s.setServer server).now = s.versions.length := by
    simp [Cluster.setServer, Cluster.now]
  refine ⟨?_, fun c p hp => ?_⟩
  · rw [hnow]
    simp [Cluster.setServer]
  · have hle := h.begun c p hp
    rw [hnow]
    unfold Cluster.now at hle
    omega

theorem recorded_step [DecidableEq Path] {s s' : Cluster Path} {e : ClusterEvent Path}
    (h : Recorded s) (hs : Cluster.Step s e s') : Recorded s' := by
  cases hs with
  | upload _ => exact h.setServer _
  | remove _ => exact h.setServer _
  | @getFileSize c pathFrom pathTo _ =>
    refine ⟨h.current, fun d p hp => ?_⟩
    by_cases hd : d = c
    · subst hd
      have hnew : some (⟨pathFrom, pathTo, servGetFileSize .full s.server pathFrom, s.now⟩ :
          Pending Path) = some p := by simpa [Cluster.ask] using hp
      rw [← Option.some.inj hnew]
      exact le_rfl
    · exact h.begun d p (by simpa [Cluster.ask, hd] using hp)
  | @download c mem p _ =>
    refine ⟨h.current, fun d q hq => ?_⟩
    by_cases hd : d = c
    · simp [Cluster.finish, hd] at hq
    · exact h.begun d q (by simpa [Cluster.finish, hd] using hq)

/-! ## Consistency -/

/-- More versions on record take nothing away. -/
theorem Consistent.setServer {s : Cluster Path} (h : Consistent s) (server : Files Path) :
    Consistent (s.setServer server) := by
  intro d hd
  obtain ⟨k, files, content, hlow, hhigh, hk, hfile, hwritten⟩ := h d hd
  refine ⟨k, files, content, hlow, hhigh, ?_, hfile, hwritten⟩
  show (s.versions ++ [server])[k]? = some files
  rw [List.getElem?_append_left (List.getElem?_eq_some_iff.mp hk).1]
  exact hk

section Download

variable [DecidableEq Path]

/-- A download that returns zero has been told a length. -/
theorem fileSize_nonneg_of_outcome {s : Cluster Path} {c : ℕ} {p : Pending Path} {mem : Memory}
    (h : (s.outcome c p mem).1 = some 0) : 0 ≤ p.fileSize := by
  by_contra hneg
  unfold Cluster.outcome Handler.downloadSized at h
  split at h
  · simp at h
  · simp [newArray_of_neg mem (not_le.mp hneg)] at h

/-- It has found the file. -/
theorem exists_of_outcome {s : Cluster Path} {c : ℕ} {p : Pending Path} {mem : Memory}
    (h : (s.outcome c p mem).1 = some 0) : ∃ content, s.server p.pathFrom = some content := by
  cases hfile : s.server p.pathFrom with
  | some content => exact ⟨content, rfl⟩
  | none =>
    unfold Cluster.outcome Handler.downloadSized at h
    split at h
    · simp at h
    · cases harray : newArray mem p.fileSize with
      | none => simp [harray] at h
      | some buffer =>
        simp [harray, servDownload, readInto, hfile] at h

/-- A download of a file that fits brings the file as it stands. -/
theorem outcome_of_fits {s : Cluster Path} {c : ℕ} {p : Pending Path} {mem : Memory}
    {content : List UInt8} (hfile : s.server p.pathFrom = some content)
    (hfits : (content.length : ℤ) = p.fileSize) :
    (s.outcome c p mem).2 p.pathTo = some content := by
  rw [Cluster.outcome, Handler.downloadSized_of_length hfile hfits]
  exact Function.update_self _ _ _

/-- **A step that fits keeps the downloads consistent.** -/
theorem consistent_step {s s' : Cluster Path} {e : ClusterEvent Path} (hr : Recorded s)
    (h : Consistent s) (hfits : Fits s e) (hs : Cluster.Step s e s') : Consistent s' := by
  cases hs with
  | upload _ => exact h.setServer _
  | remove _ => exact h.setServer _
  | getFileSize _ => exact h
  | @download c mem p hp =>
    intro d hd
    rcases List.mem_append.mp hd with hd | hd
    · exact h d hd
    · split at hd
      · rename_i hzero
        obtain rfl := List.mem_singleton.mp hd
        obtain ⟨content, hfile⟩ := exists_of_outcome hzero
        exact ⟨s.now, s.server, content, hr.begun c p hp, le_rfl, hr.current, hfile,
          outcome_of_fits hfile (hfits p content hp (fileSize_nonneg_of_outcome hzero) hfile)⟩
      · exact absurd hd List.not_mem_nil

/-- **Downloads are consistent** in every run in which each download that makes its second call
finds a file of the length that it was told. -/
theorem consistent_of_fits {s : Cluster Path}
    (h : ((clusterMachine Path).restrict Fits).Reachable s) : Consistent s := by
  have hboth : Recorded s ∧ Consistent s :=
    h.invariant (M := (clusterMachine Path).restrict Fits)
      (P := fun s => Recorded s ∧ Consistent s)
      (fun s hi => ⟨recorded_initial hi, fun d hd => by
        rw [hi.2.2] at hd
        exact absurd hd List.not_mem_nil⟩)
      fun s e s' _ hp hs => ⟨recorded_step hp.1 hs.2, consistent_step hp.1 hp.2 hs.1 hs.2⟩
  exact hboth.2

/-- What a download writes: the beginning of the file that it finds, and behind a
shorter file what the server's memory held. -/
theorem outcome_of_size {s : Cluster Path} {c : ℕ} {p : Pending Path} {mem : Memory} {size : ℕ}
    {content : List UInt8} (hfile : s.server p.pathFrom = some content)
    (hsize : p.fileSize = size) :
    s.outcome c p mem = (some 0, Function.update (s.disks c) p.pathTo
      (some (content.take size ++ (uninit mem size).drop content.length))) := by
  have hbring : servDownload DownloadIo.full.read mem s.server p.pathFrom (uninit mem size).length =
      (0, content.take size ++ (uninit mem size).drop content.length) := by
    rw [length_uninit]
    exact servDownload_full hfile mem size
  unfold Cluster.outcome Handler.downloadSized
  rw [hsize, if_neg (by omega), newArray_natCast]
  simp only [hbring]
  rw [if_neg (by simp), show DownloadIo.full.write = Stream.full from rfl, writeFile_full]

/-- **When a download that returns zero is consistent**: exactly if what it finds, cut or
filled up to the length that it was told, is a version between its calls. -/
theorem consistent_download_iff {s s' : Cluster Path} {c : ℕ} {mem : Memory} {p : Pending Path}
    {size : ℕ} {content : List UInt8} (h : Consistent s) (hp : s.pending c = some p)
    (hfile : s.server p.pathFrom = some content) (hsize : p.fileSize = size)
    (hs : Cluster.Step s (.download c mem) s') :
    Consistent s' ↔ ∃ k files, p.start ≤ k ∧ k ≤ s.now ∧ s.versions[k]? = some files ∧
      files p.pathFrom = some (content.take size ++ (uninit mem size).drop content.length) := by
  cases hs with
  | @download _ _ q hq =>
    obtain rfl := Option.some.inj (hp.symm.trans hq)
    have hout : s.outcome c p mem = _ := outcome_of_size hfile hsize
    have hfinished : (s.finish c p mem).finished = s.finished ++
        [⟨p.pathFrom, p.start, s.now,
          some (content.take size ++ (uninit mem size).drop content.length)⟩] := by
      simp [Cluster.finish, hout]
    constructor
    · intro hc
      obtain ⟨k, files, data, hlow, hhigh, hk, hdata, hwritten⟩ :=
        hc _ (by rw [hfinished]; exact List.mem_append_right _ (List.mem_singleton_self _))
      exact ⟨k, files, hlow, hhigh, hk, by rw [hdata, ← hwritten]⟩
    · rintro ⟨k, files, hlow, hhigh, hk, hdata⟩ d hd
      rw [hfinished] at hd
      rcases List.mem_append.mp hd with hd | hd
      · exact h d hd
      · obtain rfl := List.mem_singleton.mp hd
        exact ⟨k, files, _, hlow, hhigh, hk, hdata, rfl⟩

end Download

/-! ## An upload between the two calls

Client zero downloads a file of three bytes, and client one uploads another. -/

namespace Cluster

/-- The server has a file of three bytes, and each client one of one byte. -/
def sample : Cluster Bool :=
  ⟨oneFile [1, 2, 3], fun _ => oneFile [9], fun _ => none, [oneFile [1, 2, 3]], []⟩

/-- The download of client zero between its calls. -/
def samplePending : Pending Bool := ⟨true, false, 3, 0⟩

/-- Client zero has made its first call. -/
def sampleAsked : Cluster Bool := sample.ask 0 true false

/-- Client one has uploaded a file of one byte. -/
def sampleUploaded : Cluster Bool :=
  sampleAsked.setServer (Function.update sample.server true (some [9]))

theorem sample_init : (clusterMachine Bool).init sample := ⟨rfl, fun _ => rfl, rfl⟩

theorem sampleAsked_pending : sampleAsked.pending 0 = some samplePending := by
  simp only [sampleAsked, ask, Function.update_self]
  rfl

theorem step_sampleAsked : Step sample (.getFileSize 0 true false) sampleAsked :=
  .getFileSize rfl

theorem step_sampleUploaded : Step sampleAsked (.upload 1 true true fun _ => 0) sampleUploaded := by
  have hidle : sampleAsked.pending 1 = none := by simp [sampleAsked, ask, sample]
  have hup := Handler.upload_of_toInt32 (fun _ => 0) sampleAsked.server true
    (oneFile_self [9]) (k := 1) rfl
  have hs : Step sampleAsked (.upload 1 true true fun _ => 0) _ := .upload hidle
  rw [show sampleAsked.disks 1 = oneFile [9] from rfl, hup] at hs
  exact hs

end Cluster

/-- Nobody disturbs the download. -/
theorem consistent_of_fits_sample :
    Consistent (Cluster.sampleAsked.finish 0 Cluster.samplePending fun _ => 0) := by
  have hr : ((clusterMachine Bool).restrict Fits).Reachable Cluster.sampleAsked :=
    .step (e := .getFileSize 0 true false) (.init Cluster.sample_init)
      ⟨trivial, Cluster.step_sampleAsked⟩
  have hfits : Fits Cluster.sampleAsked (.download 0 fun _ => 0) := by
    intro p content hp _ hfile
    obtain rfl := Option.some.inj (Cluster.sampleAsked_pending.symm.trans hp)
    have hcontent : some [1, 2, 3] = some content := (oneFile_self [1, 2, 3]).symm.trans hfile
    rw [← Option.some.inj hcontent]
    rfl
  exact consistent_of_fits (hr.step (M := (clusterMachine Bool).restrict Fits)
    ⟨hfits, .download Cluster.sampleAsked_pending⟩)

/-- The upload falls between the two calls, and what is written is the new file with two
bytes behind it. -/
theorem not_consistent_of_upload :
    ¬ ∀ s, (clusterMachine Bool).Reachable s → Consistent s := by
  intro hall
  have hr : (clusterMachine Bool).Reachable Cluster.sampleUploaded :=
    .step (.step (.init Cluster.sample_init) Cluster.step_sampleAsked) Cluster.step_sampleUploaded
  have hp : Cluster.sampleUploaded.pending 0 = some Cluster.samplePending :=
    Cluster.sampleAsked_pending
  have hs : Cluster.Step Cluster.sampleUploaded (.download 0 fun _ => 0) _ := .download hp
  have hfile : Cluster.sampleUploaded.server true = some [9] := by
    simp [Cluster.sampleUploaded, Cluster.setServer]
  have hsize : Cluster.samplePending.fileSize = (3 : ℕ) := rfl
  obtain ⟨k, files, _, hk, hversion, hdata⟩ :=
    (consistent_download_iff (hall _ hr) hp hfile hsize hs).mp
      (hall _ (hr.step (M := clusterMachine Bool) hs))
  have hversions : Cluster.sampleUploaded.versions =
      [oneFile [1, 2, 3], Function.update (oneFile [1, 2, 3]) true (some [9])] := rfl
  rw [hversions] at hversion
  have hlt : k ≤ 1 := hk
  interval_cases k
  · obtain rfl := Option.some.inj hversion
    have hfalse : some [1, 2, 3] = some ([9, 0, 0] : List UInt8) :=
      (oneFile_self [1, 2, 3]).symm.trans hdata
    simp at hfalse
  · obtain rfl := Option.some.inj hversion
    have hfalse : some [9] = some ([9, 0, 0] : List UInt8) := hfile.symm.trans hdata
    simp at hfalse

end FileRpc
end BsitLabs
