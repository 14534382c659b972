import BsitLabs.CommandLine.CmdLoop
import BsitLabs.FileRpc.Transfer

/-!
# A session of the file client

What is typed in at the file client is done to the files of two machines, the server's and the
client's own.  `fileLoop` is `Client::cmd_loop` with the handlers it calls, each acting on the
files as the loop comes to it.

`Handler.meant` is what the three commands are for: to remove, to bring and to send whole files.
When every stream transfers what is asked for and no file has `2 ^ 31` bytes, a session is a run
of these, in the order in which they have been entered (`session_returns_iff`).  Whatever the
streams do, and whether the session comes to an end or not, no file changes that has not been
named as a target (`changed_of_after`).

How the systems resolve the names that are typed in is an argument (`Names`): two names may well
stand for the same file.
-/

namespace BsitLabs
namespace CommandLine

open Tokens MachineInt FileRpc

variable {w : ℕ} {Path : Type}

/-! ## The two machines -/

/-- The files of the server and of the client. -/
structure Machines (Path : Type) where
  server : Files Path
  disk : Files Path

/-- The files that the names stand for, on each machine. -/
structure Names (Path : Type) where
  server : List UInt8 → Path
  disk : List UInt8 → Path

/-- What becomes of the streams of one call, and what the memory holds in which it places an
array. -/
structure CallIo where
  remove : FileRpc.Stream
  download : DownloadIo
  upload : UploadIo
  mem : Memory

/-- Every stream does what it is asked. -/
def CallIo.full (mem : Memory) : CallIo := ⟨.full, .full, .full, mem⟩

/-- What a session has done: the files, and what the handlers have returned. -/
structure Session (Path : Type) where
  machines : Machines Path
  rets : List ℤ

/-- A copy of a file takes the place of another, if there is a file to copy. -/
def copyTo [DecidableEq Path] (file : Option (List UInt8)) (files : Files Path) (path : Path) :
    Files Path :=
  match file with
  | some content => Function.update files path (some content)
  | none => files

namespace FileClient.Handler

section Names

variable (names : Names Path)

/-- The file on the server that a call may change. -/
def serverTarget : Handler → Option Path
  | .remove path_file => some (names.server path_file)
  | .download _ _ => none
  | .upload _ path_to => some (names.server path_to)

/-- The file on the client's disk that a call may change. -/
def diskTarget : Handler → Option Path
  | .download _ path_to => some (names.disk path_to)
  | _ => none

variable [DecidableEq Path]

/-- `ret = Handler::...`: the value returned, `none` for an exception, and the files. -/
def run (io : CallIo) (m : Machines Path) : Handler → Option ℤ × Machines Path
  | .remove path_file =>
    let (ret, server) := FileRpc.Handler.remove io.remove m.server (names.server path_file)
    (some ret, { m with server })
  | .download path_from path_to =>
    let (ret, disk) := FileRpc.Handler.download io.download io.mem m.server m.disk
      (names.server path_from) (names.disk path_to)
    (ret, { m with disk })
  | .upload path_from path_to =>
    let (ret, server) := FileRpc.Handler.upload io.upload io.mem m.server m.disk
      (names.disk path_from) (names.server path_to)
    (ret, { m with server })

/-- What a call is for: whether it can be done, and the files when it has been. -/
def meant (m : Machines Path) : Handler → Bool × Machines Path
  | .remove path_file =>
    ((m.server (names.server path_file)).isSome,
      { m with server := Function.update m.server (names.server path_file) none })
  | .download path_from path_to =>
    ((m.server (names.server path_from)).isSome,
      { m with disk := copyTo (m.server (names.server path_from)) m.disk (names.disk path_to) })
  | .upload path_from path_to =>
    ((m.disk (names.disk path_from)).isSome,
      { m with server := copyTo (m.disk (names.disk path_from)) m.server (names.server path_to) })

end Names

end FileClient.Handler

section Session

variable [DecidableEq Path] (names : Names Path)

/-- A call, where `io` says what becomes of the streams of each. -/
def Session.perform (io : ℕ → CallIo) (s : Session Path) (call : FileClient.Handler) :
    Option (Session Path) :=
  match call.run names (io s.rets.length) s.machines with
  | (some ret, machines) => some ⟨machines, s.rets ++ [ret]⟩
  | (none, _) => none

/-- A call that does what it is for. -/
def Session.next (s : Session Path) (call : FileClient.Handler) : Session Path :=
  ⟨(call.meant names s.machines).2,
    s.rets ++ [if (call.meant names s.machines).1 then 0 else -1]⟩

/-- `Client::cmd_loop` with its handlers; `none` is an exception. -/
def fileLoop (io : ℕ → CallIo) (status : ℕ → ℤ) :
    Shell w FileClient.Handler × Session Path →
      (Shell w FileClient.Handler × Session Path) ⊕
        Option (Except Crash (List FileClient.Handler) × Session Path) :=
  Loop.acting (cmdLoop FileClient.client status) Shell.calls (Session.perform names io)

end Session

/-! ## What one call does -/

section Call

variable [DecidableEq Path] {names : Names Path}

/-- None of these files is too long for an `int`. -/
def Short (files : Files Path) : Prop :=
  ∀ path content, files path = some content → content.length < 2 ^ 31

theorem Short.update {files : Files Path} (h : Short files) {file : Option (List UInt8)}
    (hfile : ∀ content, file = some content → content.length < 2 ^ 31) (path : Path) :
    Short (Function.update files path file) := by
  intro path' content hc
  rw [Function.update_apply] at hc
  split at hc
  · exact hfile content hc
  · exact h path' content hc

/-- A copy is as long as what it is a copy of. -/
theorem Short.copyTo {files source : Files Path} (h : Short files) (hsource : Short source)
    (path path' : Path) : Short (copyTo (source path) files path') := by
  cases hfile : source path with
  | none => exact h
  | some content => exact h.update (fun c hc => hsource path c (hfile.trans hc)) path'

/-- The commands move files about, and make none longer. -/
theorem short_meant {m : Machines Path} (hserver : Short m.server) (hdisk : Short m.disk)
    (call : FileClient.Handler) :
    Short (call.meant names m).2.server ∧ Short (call.meant names m).2.disk := by
  cases call with
  | remove path_file => exact ⟨hserver.update (by simp) _, hdisk⟩
  | download path_from path_to => exact ⟨hserver, hdisk.copyTo hserver _ _⟩
  | upload path_from path_to => exact ⟨hserver.copyTo hdisk _ _, hdisk⟩

/-- **A call does what it is for**, if every stream does and its file is short. -/
theorem run_full (mem : Memory) {m : Machines Path} (hserver : Short m.server)
    (hdisk : Short m.disk) (call : FileClient.Handler) :
    call.run names (.full mem) m =
      (some (if (call.meant names m).1 then 0 else -1), (call.meant names m).2) := by
  cases call with
  | remove path_file =>
    unfold FileClient.Handler.run FileClient.Handler.meant FileRpc.Handler.remove servRemove
    cases hfile : m.server (names.server path_file) with
    | none =>
      have hsame : Function.update m.server (names.server path_file) none = m.server := by
        rw [← hfile, Function.update_eq_self]
      simp [CallIo.full, FileRpc.Stream.full, hfile, hsame]
    | some content => simp [CallIo.full, FileRpc.Stream.full, hfile]
  | download path_from path_to =>
    unfold FileClient.Handler.run FileClient.Handler.meant
    cases hfrom : m.server (names.server path_from) with
    | none =>
      simp [CallIo.full, DownloadIo.full, FileRpc.Handler.download, FileRpc.Handler.downloadSized,
        servGetFileSize, fileSize, hfrom, copyTo]
    | some content =>
      simp [CallIo.full, FileRpc.Handler.download_of_lt hfrom (hserver _ _ hfrom), copyTo, hfrom]
  | upload path_from path_to =>
    unfold FileClient.Handler.run FileClient.Handler.meant
    cases hfrom : m.disk (names.disk path_from) with
    | none =>
      simp [CallIo.full, UploadIo.full, FileRpc.Handler.upload, FileRpc.Handler.getFileSize,
        fileSize, hfrom, copyTo]
    | some content =>
      have hup := FileRpc.Handler.upload_of_toInt32 mem m.server (names.server path_to) hfrom
        (toInt32_of_lt (hdisk _ _ hfrom))
      rw [List.take_length] at hup
      simp [CallIo.full, hup, copyTo, hfrom]

/-- A file that is written changes, and no other. -/
theorem writeFile_of_ne (io : FileRpc.Stream) (files : Files Path) {path q : Path} (h : q ≠ path)
    (data : List UInt8) : writeFile io files path data q = files q := by
  unfold writeFile
  split
  · exact Function.update_of_ne h _ _
  · rfl

/-- **A call changes its target only**, whatever its streams do. -/
theorem run_frame (io : CallIo) (m : Machines Path) (call : FileClient.Handler) (q : Path) :
    (call.serverTarget names ≠ some q → (call.run names io m).2.server q = m.server q) ∧
      (call.diskTarget names ≠ some q → (call.run names io m).2.disk q = m.disk q) := by
  cases call with
  | remove path_file =>
    refine ⟨fun h => ?_, fun _ => rfl⟩
    have hne : q ≠ names.server path_file := fun heq => h (heq ▸ rfl)
    show (servRemove io.remove m.server (names.server path_file)).2 q = _
    unfold servRemove
    split
    · exact Function.update_of_ne hne _ _
    · rfl
  | download path_from path_to =>
    refine ⟨fun _ => rfl, fun h => ?_⟩
    have hne : q ≠ names.disk path_to := fun heq => h (heq ▸ rfl)
    show (FileRpc.Handler.download io.download io.mem m.server m.disk (names.server path_from)
      (names.disk path_to)).2 q = _
    unfold FileRpc.Handler.download FileRpc.Handler.downloadSized
    split
    · rfl
    · split
      · rfl
      · dsimp only
        split
        · rfl
        · exact writeFile_of_ne _ _ hne _
  | upload path_from path_to =>
    refine ⟨fun h => ?_, fun _ => rfl⟩
    have hne : q ≠ names.server path_to := fun heq => h (heq ▸ rfl)
    show (FileRpc.Handler.upload io.upload io.mem m.server m.disk (names.disk path_from)
      (names.server path_to)).2 q = _
    unfold FileRpc.Handler.upload servUpload
    split
    · rfl
    · split
      · rfl
      · exact writeFile_of_ne _ _ hne _

end Call

/-! ## Sessions -/

section Run

variable [DecidableEq Path] {names : Names Path} {io : ℕ → CallIo} {status : ℕ → ℤ}
  {cin : Stream w}

/-- Where a session begins. -/
def Session.start (m : Machines Path) : Session Path := ⟨m, []⟩

/-- **A session does what has been entered.**  If every stream does what it is asked, no file is
too long and there is memory for the arrays (`newArray`), then as long as the server is listening
the session returns exactly if the loop comes to an `exit`; and the files are then what the
commands before it are for makes of them, in the order in which they have been entered, with an
error for each that could not be done and for no other. -/
theorem session_returns_iff (mem : ℕ → Memory) {m : Machines Path} (hserver : Short m.server)
    (hdisk : Short m.disk) (hstatus : ∀ k, status k ≠ rpcSNotListening)
    {calls : List FileClient.Handler} {s : Session Path} :
    Loop.Returns (fileLoop names (fun k => .full (mem k)) status) (Shell.start cin, .start m)
        (some (.ok calls, s)) ↔
      (∃ before, BeforeExit cin.seen before ∧ before.length + 2 < 2 ^ 31) ∧
        calls = commands FileClient.asked (cin.entered.takeWhile (¬ IsExit ·)) ∧
        s = calls.foldl (Session.next names) (.start m) := by
  have hperform : ∀ calls : List FileClient.Handler,
      calls.foldlM (Session.perform names fun k => .full (mem k)) (Session.start m) =
        some (calls.foldl (Session.next names) (.start m)) := fun calls =>
    Loop.foldlM_eq_some_foldl (I := fun s => Short s.machines.server ∧ Short s.machines.disk)
      (fun s call hs => by
        rw [Session.perform, run_full _ hs.1 hs.2]
        rfl)
      (fun s call hs => short_meant hs.1 hs.2 call) calls ⟨hserver, hdisk⟩
  rw [fileLoop, FileClient.follows.returns_acting_iff hstatus]
  refine and_congr_right fun _ => and_congr_right fun _ => ?_
  rw [hperform]
  exact ⟨fun h => (Option.some.inj h).symm, fun h => h ▸ rfl⟩

/-- One of these lines names the file as a target. -/
def Targets (target : FileClient.Handler → Option Path) (lines : List (List UInt8)) (q : Path) :
    Prop :=
  ∃ line ∈ lines, ∃ call, FileClient.asked (tokens 32 line) = some call ∧ target call = some q

/-- What is called for lines none of which names a file leaves it alone. -/
theorem foldlM_frame {lines : List (List UInt8)} {s s' : Session Path}
    (h : (commands FileClient.asked lines).foldlM (Session.perform names io) s = some s')
    (q : Path) :
    (¬ Targets (FileClient.Handler.serverTarget names) lines q →
        s'.machines.server q = s.machines.server q) ∧
      (¬ Targets (FileClient.Handler.diskTarget names) lines q →
        s'.machines.disk q = s.machines.disk q) := by
  have hcalls : ∀ call ∈ commands FileClient.asked lines, ∀ t t' : Session Path,
      Session.perform names io t call = some t' →
        (¬ Targets (FileClient.Handler.serverTarget names) lines q →
          t'.machines.server q = t.machines.server q) ∧
        (¬ Targets (FileClient.Handler.diskTarget names) lines q →
          t'.machines.disk q = t.machines.disk q) := by
    intro call hcall t t' hperform
    obtain ⟨line, hline, hasked⟩ := List.mem_filterMap.mp hcall
    obtain ⟨hserver, hdisk⟩ := run_frame (io t.rets.length) t.machines call q
    unfold Session.perform at hperform
    split at hperform
    · next heq =>
      obtain rfl := Option.some.inj hperform
      rw [heq] at hserver hdisk
      exact ⟨fun hnot => hserver fun htarget => hnot ⟨line, hline, call, hasked, htarget⟩,
        fun hnot => hdisk fun htarget => hnot ⟨line, hline, call, hasked, htarget⟩⟩
    · cases hperform
  exact ⟨fun hnot => Loop.foldlM_invariant
      (I := fun t => t.machines.server q = s.machines.server q)
      (fun call hcall t t' hp ht => ((hcalls call hcall t t' hp).1 hnot).trans ht) h rfl,
    fun hnot => Loop.foldlM_invariant (I := fun t => t.machines.disk q = s.machines.disk q)
      (fun call hcall t t' hp ht => ((hcalls call hcall t t' hp).2 hnot).trans ht) h rfl⟩

/-- **No file changes that has not been named**: in every state of every session, whatever the
streams do and whether the server is listening or not, a file that is not what it was at the
start is the target of one of the lines that have been dispatched. -/
theorem changed_of_after {m : Machines Path} {count : ℕ} {shell : Shell w FileClient.Handler}
    {s : Session Path}
    (hafter : Loop.after (fileLoop names io status) count (Shell.start cin, .start m) =
      some (shell, s)) :
    ∃ k : ℕ, shell.kostil = k ∧ ∀ q,
      (s.machines.server q ≠ m.server q →
        Targets (FileClient.Handler.serverTarget names) (cin.dispatched (k - 1)) q) ∧
      (s.machines.disk q ≠ m.disk q →
        Targets (FileClient.Handler.diskTarget names) (cin.dispatched (k - 1)) q) := by
  obtain ⟨halone, hworld⟩ := (Loop.after_acting_iff (logs_cmdLoop _ _)).mp hafter
  obtain ⟨k, hcalls, hk⟩ := FileClient.follows.calls_of_after halone
  rw [show (Shell.start cin : Shell w _).calls = [] from rfl, List.length_nil, List.drop_zero,
    hcalls] at hworld
  refine ⟨k, hk, fun q => ⟨fun hchanged => ?_, fun hchanged => ?_⟩⟩
  · by_contra hnot
    exact hchanged ((foldlM_frame hworld q).1 hnot)
  · by_contra hnot
    exact hchanged ((foldlM_frame hworld q).2 hnot)

end Run

/-! ## A session -/

/-- A download and a remove. -/
def twoCommands : Stream 32 where
  rest := ascii "\ndown a b\nrm c\nexit"
  good := true
  fit := .of_length (by decide)

/-- A server with one file, and an empty disk. -/
def oneRemoteFile : Machines (List UInt8) :=
  ⟨Function.update (fun _ => none) (ascii "a") (some [1, 2, 3]), fun _ => none⟩

theorem session_returns_iff_sample : ∃ s : Session (List UInt8),
    Loop.Returns (fileLoop ⟨id, id⟩ (fun _ => .full fun _ => 0) fun _ => 0)
      (Shell.start twoCommands, .start oneRemoteFile)
      (some (.ok [.download (ascii "a") (ascii "b"), .remove (ascii "c")], s)) ∧
    s.rets = [0, -1] ∧ s.machines.disk (ascii "b") = some [1, 2, 3] := by
  have hempty : Short (fun _ => none : Files (List UInt8)) := fun _ _ h => by cases h
  have hshort : Short oneRemoteFile.server := hempty.update (fun content h => by
    obtain rfl := Option.some.inj h
    decide) _
  have hbefore : BeforeExit twoCommands.seen [ascii "down a b", ascii "rm c"] :=
    ⟨⟨ascii "exit", [], by decide, by decide⟩, by decide⟩
  exact ⟨_, (session_returns_iff (fun _ _ => 0) hshort hempty fun _ => by decide).mpr
    ⟨⟨_, hbefore, by decide⟩, by decide, rfl⟩, by decide, by decide⟩

/-- Behind the first of the two lines there is a new file, and it has been named. -/
theorem changed_of_after_sample : ∃ (shell : Shell 32 FileClient.Handler)
    (s : Session (List UInt8)),
    Loop.after (fileLoop ⟨id, id⟩ (fun _ => .full fun _ => 0) fun _ => 0) 3
      (Shell.start twoCommands, .start oneRemoteFile) = some (shell, s) ∧
    s.machines.disk (ascii "b") = some [1, 2, 3] ∧
    Targets (FileClient.Handler.diskTarget ⟨id, id⟩) (twoCommands.dispatched 1) (ascii "b") := by
  have hdisk : ((Loop.after (fileLoop ⟨id, id⟩ (fun _ => .full fun _ => 0) fun _ => 0) 3
      (Shell.start twoCommands, Session.start oneRemoteFile)).map fun r =>
        (r.1.kostil, r.2.machines.disk (ascii "b"))) = some (2, some [1, 2, 3]) := by
    decide
  obtain ⟨⟨shell, s⟩, hafter, hvalue⟩ := Option.map_eq_some_iff.mp hdisk
  obtain ⟨hkostil, hfile⟩ := Prod.mk.inj hvalue
  obtain ⟨k, hk, hnamed⟩ := changed_of_after hafter
  obtain rfl : k = 2 := by
    have hcast : (k : ℤ) = 2 := hk.symm.trans hkostil
    omega
  refine ⟨shell, s, hafter, hfile, (hnamed (ascii "b")).2 ?_⟩
  show s.machines.disk (ascii "b") ≠ none
  rw [show s.machines.disk (ascii "b") = some [1, 2, 3] from hfile]
  simp

end CommandLine
end BsitLabs
