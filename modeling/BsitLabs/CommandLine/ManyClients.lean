import BsitLabs.CommandLine.FileSession
import BsitLabs.Foundation.Footprint

/-!
# The file clients of many users

Any number of users work at file clients of one server, each at a machine of its own.  A turn is
what a client does between two calls of the server: a step of its loop, a call and what its
handler does behind it.  A download makes two calls, `serv_get_file_size` and `serv_download`, and
between them the other clients may have any number of turns.

If no file of the server that one user names as a target is named by another, then each session
is what it would be without the others (`ended_iff`): whatever the order of the turns, it ends
exactly if `fileLoop` returns, and then with the same values returned, the same files on the
client's disk and the same of its files on the server.

What becomes of the streams of a client is given, as it is for a single session: the same alone
and among others.  Whether the server may open a file depends on the account that its thread runs
under, and so it is assumed that a call finds the same account alone and among others, which the
impersonation in `serv_login` does not ensure.
-/

namespace BsitLabs
namespace CommandLine

open Tokens FileRpc

variable {w : ℕ} {Path : Type}

/-! ## A client between its turns -/

/-- A client that shares the server with others. -/
structure Worker (w : ℕ) (Path : Type) where
  shell : Shell w FileClient.Handler
  /-- The handlers that have been called and have not returned. -/
  todo : List FileClient.Handler
  /-- What `serv_get_file_size` has returned to a download that has not made its second call. -/
  size : Option ℤ
  disk : Files Path
  rets : List ℤ
  /-- How the session has ended, `none` in it for an exception. -/
  ended : Option (Option (Except Crash (List FileClient.Handler)))

namespace Worker

/-- Where `cmd_loop` begins. -/
def start (cin : Stream w) (disk : Files Path) : Worker w Path :=
  ⟨Shell.start cin, [], none, disk, [], none⟩

/-- The first handler has returned, or thrown. -/
def back (x : Worker w Path) (server : Files Path) (rest : List FileClient.Handler) :
    Option ℤ × Machines Path → Worker w Path × Files Path
  | (some ret, m) =>
    ({ x with todo := rest, size := none, disk := m.disk, rets := x.rets ++ [ret] }, m.server)
  | (none, _) => ({ x with ended := some none }, server)

/-- How the session has ended, and what it has done. -/
def result : Worker w Path × Files Path →
    Option (Option (Except Crash (List FileClient.Handler) × Session Path))
  | (x, server) => x.ended.map (Option.map (·, ⟨⟨server, x.disk⟩, x.rets⟩))

/-- It has ended so without an exception. -/
theorem result_eq_some_iff (x : Worker w Path) (server : Files Path)
    (returned : Except Crash (List FileClient.Handler)) (s : Session Path) :
    result (x, server) = some (some (returned, s)) ↔
      x.ended = some (some returned) ∧ s.rets = x.rets ∧ s.machines.disk = x.disk ∧
        s.machines.server = server := by
  obtain ⟨⟨server', disk⟩, rets⟩ := s
  rw [result, Option.map_eq_some_iff]
  constructor
  · rintro ⟨ended, hended, hmap⟩
    obtain ⟨r, rfl, hr⟩ := Option.map_eq_some_iff.mp hmap
    cases hr
    exact ⟨hended, rfl, rfl, rfl⟩
  · rintro ⟨hended, hrets, hdisk, hserver⟩
    refine ⟨_, hended, ?_⟩
    dsimp only at hrets hdisk hserver
    rw [hrets, hdisk, hserver]
    rfl

/-- It has ended so with an exception. -/
theorem result_eq_none_iff (y : Worker w Path × Files Path) :
    result y = some none ↔ y.1.ended = some none := by
  rw [result, Option.map_eq_some_iff]
  constructor
  · rintro ⟨ended, hended, hmap⟩
    rw [Option.map_eq_none_iff] at hmap
    exact hmap ▸ hended
  · exact fun hended => ⟨none, hended, rfl⟩

variable [DecidableEq Path] (names : Names Path) (io : ℕ → CallIo) (status : ℕ → ℤ)

/-- A turn of a handler.  A download has two of them. -/
def handle (x : Worker w Path) (server : Files Path) (rest : List FileClient.Handler) :
    FileClient.Handler → Worker w Path × Files Path
  | .remove path_file =>
    x.back server rest
      ((FileClient.Handler.remove path_file).run names (io x.rets.length) ⟨server, x.disk⟩)
  | .download path_from path_to =>
    match x.size with
    | none =>
      ({ x with
        size := some (servGetFileSize (io x.rets.length).download.size server
          (names.server path_from)) }, server)
    | some size =>
      let (ret, disk) := FileRpc.Handler.downloadSized (io x.rets.length).download
        (io x.rets.length).mem server x.disk (names.server path_from) (names.disk path_to) size
      x.back server rest (ret, ⟨server, disk⟩)
  | .upload path_from path_to =>
    x.back server rest
      ((FileClient.Handler.upload path_from path_to).run names (io x.rets.length) ⟨server, x.disk⟩)

/-- A turn of a client. -/
def turn : Worker w Path × Files Path → Worker w Path × Files Path
  | (x, server) =>
    match x.ended, x.todo with
    | some _, _ => (x, server)
    | none, call :: rest => x.handle names io server rest call
    | none, [] =>
      match cmdLoop FileClient.client status x.shell with
      | .inl shell => ({ x with shell, todo := shell.calls.drop x.shell.calls.length }, server)
      | .inr result => ({ x with ended := some (some result) }, server)

end Worker

/-! ## Alone

A client that nobody disturbs goes through its session in smaller steps. -/

section Alone

/-- The client of a session that has these handlers to go through. -/
def Worker.busy (shell : Shell w FileClient.Handler) (todo : List FileClient.Handler)
    (s : Session Path) : Worker w Path × Files Path :=
  (⟨shell, todo, none, s.machines.disk, s.rets, none⟩, s.machines.server)

/-- The client of a session between two steps of its loop. -/
def Worker.of (y : Shell w FileClient.Handler × Session Path) : Worker w Path × Files Path :=
  Worker.busy y.1 [] y.2

variable [DecidableEq Path]

/-- A client that has ended takes no turn. -/
theorem turn_of_ended (names : Names Path) (io : ℕ → CallIo) (status : ℕ → ℤ)
    (y : Worker w Path × Files Path)
    (r : Option (Except Crash (List FileClient.Handler) × Session Path))
    (h : Worker.result y = some r) : Worker.turn names io status y = y := by
  obtain ⟨x, server⟩ := y
  obtain ⟨e, he, -⟩ := Option.map_eq_some_iff.mp h
  rw [Worker.turn, he]

/-- The session as a client goes through it. -/
abbrev Worker.loop (names : Names Path) (io : ℕ → CallIo) (status : ℕ → ℤ) :
    Worker w Path × Files Path → (Worker w Path × Files Path) ⊕
      Option (Except Crash (List FileClient.Handler) × Session Path) :=
  Loop.repeating (Worker.turn names io status) Worker.result

variable {names : Names Path} {io : ℕ → CallIo} (status : ℕ → ℤ)
  (shell : Shell w FileClient.Handler)

/-- A handler is gone through, in one turn or in two. -/
theorem exists_turns (call : FileClient.Handler) (rest : List FileClient.Handler)
    (s : Session Path) :
    ∃ count y, Loop.after (Worker.loop names io status) count
        (Worker.busy shell (call :: rest) s) = some y ∧ Worker.result y = none ∧
      Worker.turn names io status y =
        Worker.back ⟨shell, call :: rest, y.1.size, s.machines.disk, s.rets, none⟩
          s.machines.server rest (call.run names (io s.rets.length) s.machines) := by
  cases call with
  | remove path_file => exact ⟨0, _, rfl, rfl, rfl⟩
  | upload path_from path_to => exact ⟨0, _, rfl, rfl, rfl⟩
  | download path_from path_to => exact ⟨1, _, rfl, rfl, rfl⟩

/-- Behind the call of a handler that returns. -/
theorem after_busy_cons {call : FileClient.Handler} (rest : List FileClient.Handler)
    {s s' : Session Path} (h : Session.perform names io s call = some s') :
    ∃ count, Loop.after (Worker.loop names io status) (count + 1)
      (Worker.busy shell (call :: rest) s) = some (Worker.busy shell rest s') := by
  obtain ⟨count, y, hafter, hnone, hturn⟩ := exists_turns status shell call rest s
  refine ⟨count, Loop.after_succ hafter ((Loop.repeating_of_none hnone).trans ?_)⟩
  rw [hturn]
  unfold Session.perform at h
  split at h
  · next heq =>
    rw [heq, ← Option.some.inj h]
    rfl
  · cases h

/-- Behind the call of a handler that throws. -/
theorem returns_busy_cons {call : FileClient.Handler} (rest : List FileClient.Handler)
    {s : Session Path} (h : Session.perform names io s call = none) :
    Loop.Returns (Worker.loop names io status) (Worker.busy shell (call :: rest) s) none := by
  obtain ⟨count, y, hafter, hnone, hturn⟩ := exists_turns status shell call rest s
  refine Loop.Returns.of_after hafter (.of_next (Loop.repeating_of_none hnone) ?_)
  rw [hturn]
  unfold Session.perform at h
  split at h
  · cases h
  · next heq =>
    rw [heq]
    exact .of_result rfl

/-- The handlers that have been called are gone through one after another. -/
theorem after_busy (todo : List FileClient.Handler) {s s' : Session Path}
    (h : todo.foldlM (Session.perform names io) s = some s') :
    ∃ count, Loop.after (Worker.loop names io status) count (Worker.busy shell todo s) =
      some (Worker.of (shell, s')) := by
  induction todo generalizing s with
  | nil =>
    obtain rfl := Option.some.inj h
    exact ⟨0, rfl⟩
  | cons call rest ih =>
    rw [List.foldlM_cons] at h
    obtain ⟨t, ht, hrest⟩ := Option.bind_eq_some_iff.mp h
    obtain ⟨first, hfirst⟩ := after_busy_cons status shell rest ht
    obtain ⟨count, hcount⟩ := ih hrest
    exact ⟨_, Loop.after_trans hfirst hcount⟩

/-- One of them throws. -/
theorem returns_busy (todo : List FileClient.Handler) {s : Session Path}
    (h : todo.foldlM (Session.perform names io) s = none) :
    Loop.Returns (Worker.loop names io status) (Worker.busy shell todo s) none := by
  induction todo generalizing s with
  | nil => cases h
  | cons call rest ih =>
    rw [List.foldlM_cons] at h
    cases hperform : Session.perform names io s call with
    | none => exact returns_busy_cons status shell rest hperform
    | some t =>
      rw [hperform] at h
      obtain ⟨first, hfirst⟩ := after_busy_cons status shell rest hperform
      exact .of_after hfirst (ih h)

variable {status} {shell}

/-- A step of the loop, and the handlers that it calls. -/
theorem turn_of_inl {next : Shell w FileClient.Handler}
    (hstep : cmdLoop FileClient.client status shell = .inl next) (s : Session Path) :
    Worker.turn names io status (Worker.of (shell, s)) =
      Worker.busy next (next.calls.drop shell.calls.length) s := by
  rw [Worker.turn, Worker.of, Worker.busy]
  dsimp only
  rw [hstep]
  rfl

/-- The last step of the loop. -/
theorem result_turn_of_inr {result : Except Crash (List FileClient.Handler)}
    (hstep : cmdLoop FileClient.client status shell = .inr result) (s : Session Path) :
    Worker.result (Worker.turn names io status (Worker.of (shell, s))) =
      some (some (result, s)) := by
  rw [Worker.turn, Worker.of, Worker.busy]
  dsimp only
  rw [hstep]
  rfl

/-- **A client that nobody disturbs goes through its session.** -/
theorem returns_loop_iff {y : Shell w FileClient.Handler × Session Path}
    {o : Option (Except Crash (List FileClient.Handler) × Session Path)} :
    Loop.Returns (Worker.loop names io status) (Worker.of y) o ↔
      Loop.Returns (fileLoop names io status) y o := by
  have hfirst : ∀ y : Shell w FileClient.Handler × Session Path,
      Loop.after (Worker.loop names io status) 1 (Worker.of y) =
        some (Worker.turn names io status (Worker.of y)) := fun _ => rfl
  have hcases := fun shell : Shell w FileClient.Handler =>
    Loop.acting_cases (cmdLoop FileClient.client status) Shell.calls (Session.perform names io)
      shell
  refine Loop.returns_embed_iff (fun ⟨shell, s⟩ y' h => ?_) fun ⟨shell, s⟩ o h => ?_
  · obtain ⟨result, -, heq⟩ | ⟨next, hstep, ⟨s', hperform, heq⟩ | ⟨-, heq⟩⟩ := hcases shell s
    · cases heq.symm.trans h
    · obtain rfl := Sum.inl.inj (heq.symm.trans h)
      obtain ⟨count, hcount⟩ := after_busy status next _ hperform
      refine ⟨count, Loop.after_trans (hfirst _) ?_⟩
      rw [turn_of_inl hstep]
      exact hcount
    · cases heq.symm.trans h
  · refine .of_after (hfirst _) ?_
    obtain ⟨result, hstep, heq⟩ | ⟨next, hstep, ⟨s', -, heq⟩ | ⟨hperform, heq⟩⟩ := hcases shell s
    · obtain rfl := Sum.inr.inj (heq.symm.trans h)
      exact .of_result (Loop.repeating_of_some (result_turn_of_inr hstep s))
    · cases heq.symm.trans h
    · obtain rfl := Sum.inr.inj (heq.symm.trans h)
      rw [turn_of_inl hstep]
      exact returns_busy status next _ hperform

end Alone

/-! ## What a client has to do with the server's files -/

section Footprint

variable (names : Names Path)

/-- The file on the server that a call brings. -/
def FileClient.Handler.serverSource : FileClient.Handler → Option Path
  | .download path_from _ => some (names.server path_from)
  | _ => none

/-- One of these lines names this file of the server, as a target or to be brought. -/
def NamedBy (lines : List (List UInt8)) (q : Path) : Prop :=
  Targets (FileClient.Handler.serverTarget names) lines q ∨
    Targets (FileClient.Handler.serverSource names) lines q

/-- What becomes of a client whose handler has returned does not depend on the server's files. -/
theorem back_congr (x : Worker w Path) (rest : List FileClient.Handler)
    (server server' : Files Path) (r r' : Option ℤ × Machines Path) (hret : r.1 = r'.1)
    (hdisk : r.2.disk = r'.2.disk) :
    (x.back server rest r).1 = (x.back server' rest r').1 ∧
      ∀ q, server q = server' q → r.2.server q = r'.2.server q →
        (x.back server rest r).2 q = (x.back server' rest r').2 q := by
  obtain ⟨ret, m⟩ := r
  obtain ⟨ret', m'⟩ := r'
  obtain rfl : ret = ret' := hret
  cases ret with
  | some ret => exact ⟨by rw [Worker.back, Worker.back, hdisk], fun _ _ hq => hq⟩
  | none => exact ⟨rfl, fun _ hq _ => hq⟩

/-- Where a client is in its own input, wherever it is. -/
structure Worker.At (cin : Stream w) (x : Worker w Path) : Prop where
  upToNow : UpToNow FileClient.asked cin x.shell
  called : ∀ call ∈ x.todo, call ∈ x.shell.calls

/-- What a client goes through, one of its lines has asked for. -/
theorem Worker.At.targets {cin : Stream w} {x : Worker w Path} (h : x.At cin)
    {call : FileClient.Handler} (hcall : call ∈ x.todo)
    {target : FileClient.Handler → Option Path} {q : Path} (hq : target call = some q) :
    Targets target cin.seen q := by
  obtain ⟨k, -, -, hcalls⟩ := h.upToNow
  have hmem := h.called call hcall
  rw [hcalls] at hmem
  obtain ⟨line, hline, hasked⟩ := List.mem_filterMap.mp hmem
  exact ⟨line, cin.mem_seen_of_mem_dispatched hline, call, hasked, hq⟩

variable [DecidableEq Path] {names} {io : ℕ → CallIo} {status : ℕ → ℤ}

/-- A file that is replaced is what it is replaced by, and the others are as they were. -/
theorem update_congr {files files' : Files Path} {q : Path} (h : files q = files' q) (path : Path)
    (file : Option (List UInt8)) :
    Function.update files path file q = Function.update files' path file q := by
  rw [Function.update_apply, Function.update_apply, h]

/-- What is written does not depend on the other files. -/
theorem writeFile_congr (io : FileRpc.Stream) {files files' : Files Path} {q : Path}
    (h : files q = files' q) (path : Path) (data : List UInt8) :
    writeFile io files path data q = writeFile io files' path data q := by
  unfold writeFile
  split
  · exact update_congr h _ _
  · exact h

/-- What is removed does not depend on the other files. -/
theorem servRemove_congr (io : FileRpc.Stream) {files files' : Files Path} {path : Path}
    (h : files path = files' path) :
    (servRemove io files path).1 = (servRemove io files' path).1 ∧
      ∀ q, files q = files' q →
        (servRemove io files path).2 q = (servRemove io files' path).2 q := by
  unfold servRemove
  rw [h]
  split
  · exact ⟨rfl, fun _ hq => update_congr hq _ _⟩
  · exact ⟨rfl, fun _ hq => hq⟩

/-- What is brought does not depend on the other files. -/
theorem downloadSized_congr (io : DownloadIo) (mem : Memory) {server server' : Files Path}
    (disk : Files Path) {pathFrom : Path} (pathTo : Path) (size : ℤ)
    (h : server pathFrom = server' pathFrom) :
    FileRpc.Handler.downloadSized io mem server disk pathFrom pathTo size =
      FileRpc.Handler.downloadSized io mem server' disk pathFrom pathTo size := by
  unfold FileRpc.Handler.downloadSized servDownload readInto
  rw [h]

/-- What is sent does not depend on the files that are there. -/
theorem upload_congr (io : UploadIo) (mem : Memory) (server server' : Files Path)
    (disk : Files Path) (pathFrom pathTo : Path) :
    (FileRpc.Handler.upload io mem server disk pathFrom pathTo).1 =
        (FileRpc.Handler.upload io mem server' disk pathFrom pathTo).1 ∧
      ∀ q, server q = server' q →
        (FileRpc.Handler.upload io mem server disk pathFrom pathTo).2 q =
          (FileRpc.Handler.upload io mem server' disk pathFrom pathTo).2 q := by
  unfold FileRpc.Handler.upload servUpload
  split
  · exact ⟨rfl, fun _ hq => hq⟩
  · split
    · exact ⟨rfl, fun _ hq => hq⟩
    · exact ⟨rfl, fun _ hq => writeFile_congr _ hq _ _⟩

/-- What a handler does depends on the file that it names. -/
theorem run_congr (io : CallIo) (server server' disk : Files Path) (call : FileClient.Handler)
    (h : ∀ q, call.serverTarget names = some q ∨ call.serverSource names = some q →
      server q = server' q) :
    (call.run names io ⟨server, disk⟩).1 = (call.run names io ⟨server', disk⟩).1 ∧
      (call.run names io ⟨server, disk⟩).2.disk = (call.run names io ⟨server', disk⟩).2.disk ∧
      ∀ q, server q = server' q →
        (call.run names io ⟨server, disk⟩).2.server q =
          (call.run names io ⟨server', disk⟩).2.server q := by
  cases call with
  | remove path_file =>
    obtain ⟨hret, hfiles⟩ := servRemove_congr io.remove (h _ (.inl rfl))
    exact ⟨congrArg some hret, rfl, hfiles⟩
  | download path_from path_to =>
    have hfrom : server (names.server path_from) = server' (names.server path_from) :=
      h _ (.inr rfl)
    have hsame : FileRpc.Handler.download io.download io.mem server disk (names.server path_from)
        (names.disk path_to) = FileRpc.Handler.download io.download io.mem server' disk
        (names.server path_from) (names.disk path_to) := by
      unfold FileRpc.Handler.download servGetFileSize fileSize
      rw [hfrom, downloadSized_congr _ _ _ _ _ hfrom]
    exact ⟨(congrArg Prod.fst hsame :), (congrArg Prod.snd hsame :), fun _ hq => hq⟩
  | upload path_from path_to =>
    obtain ⟨hret, hfiles⟩ := upload_congr io.upload io.mem server server' disk
      (names.disk path_from) (names.server path_to)
    exact ⟨hret, rfl, hfiles⟩

/-- **A turn of a handler depends on the file that it names.** -/
theorem handle_congr (names : Names Path) (io : ℕ → CallIo) (x : Worker w Path)
    (rest : List FileClient.Handler) (server server' : Files Path) (call : FileClient.Handler)
    (h : ∀ q, call.serverTarget names = some q ∨ call.serverSource names = some q →
      server q = server' q) :
    (x.handle names io server rest call).1 = (x.handle names io server' rest call).1 ∧
      ∀ q, server q = server' q →
        (x.handle names io server rest call).2 q = (x.handle names io server' rest call).2 q := by
  obtain ⟨hret, hdisk, hfiles⟩ := run_congr (io x.rets.length) server server' x.disk call h
  have hback := back_congr x rest server server' _ _ hret hdisk
  cases call with
  | remove path_file => exact ⟨hback.1, fun q hq => hback.2 q hq (hfiles q hq)⟩
  | upload path_from path_to => exact ⟨hback.1, fun q hq => hback.2 q hq (hfiles q hq)⟩
  | download path_from path_to =>
    have hfrom : server (names.server path_from) = server' (names.server path_from) :=
      h _ (.inr rfl)
    unfold Worker.handle
    dsimp only
    split
    · refine ⟨?_, fun _ hq => hq⟩
      unfold servGetFileSize fileSize
      rw [hfrom]
    · next size _ =>
      rw [downloadSized_congr _ _ _ _ _ hfrom]
      obtain ⟨hclient, hserver⟩ := back_congr x rest server server' (_, ⟨server, _⟩)
        (_, ⟨server', _⟩) rfl rfl
      exact ⟨hclient, fun q hq => hserver q hq hq⟩

/-- A turn of a handler changes its target only. -/
theorem handle_frame (x : Worker w Path) (rest : List FileClient.Handler) (server : Files Path)
    (call : FileClient.Handler) {q : Path} (h : call.serverTarget names ≠ some q) :
    (x.handle names io server rest call).2 q = server q := by
  have hback : ∀ r : Option ℤ × Machines Path, r.2.server q = server q →
      (x.back server rest r).2 q = server q := by
    rintro ⟨ret, m⟩ hr
    cases ret with
    | some ret => exact hr
    | none => rfl
  have hrun := (run_frame (io x.rets.length) ⟨server, x.disk⟩ call q).1 h
  cases call with
  | remove path_file => exact hback _ hrun
  | upload path_from path_to => exact hback _ hrun
  | download path_from path_to =>
    unfold Worker.handle
    dsimp only
    split
    · rfl
    · exact hback _ rfl

/-- A turn of a handler leaves the loop alone, and strikes off at most the handler. -/
theorem handle_shell (names : Names Path) (io : ℕ → CallIo) (x : Worker w Path)
    (server : Files Path) {call : FileClient.Handler} {rest : List FileClient.Handler}
    (htodo : x.todo = call :: rest) :
    (x.handle names io server rest call).1.shell = x.shell ∧
      ∀ next ∈ (x.handle names io server rest call).1.todo, next ∈ x.todo := by
  have hback : ∀ r : Option ℤ × Machines Path, (x.back server rest r).1.shell = x.shell ∧
      ∀ next ∈ (x.back server rest r).1.todo, next ∈ x.todo := by
    rintro ⟨ret, m⟩
    cases ret with
    | some ret => exact ⟨rfl, fun next hnext => htodo ▸ List.mem_cons_of_mem _ hnext⟩
    | none => exact ⟨rfl, fun _ hnext => hnext⟩
  cases call with
  | remove path_file => exact hback _
  | upload path_from path_to => exact hback _
  | download path_from path_to =>
    unfold Worker.handle
    dsimp only
    split
    · exact ⟨rfl, fun _ hnext => hnext⟩
    · exact hback _

/-- A turn leaves a client in its own input. -/
theorem at_turn {cin : Stream w} {x : Worker w Path} (server : Files Path) (h : x.At cin) :
    (Worker.turn names io status (x, server)).1.At cin := by
  unfold Worker.turn
  dsimp only
  split
  · exact h
  · next call rest _ htodo =>
    obtain ⟨hshell, hmem⟩ := handle_shell names io x server htodo
    exact ⟨hshell ▸ h.upToNow, fun next hnext => hshell ▸ h.called next (hmem next hnext)⟩
  · next _ htodo =>
    split
    · next shell hstep =>
      exact ⟨FileClient.follows.upToNow_step h.upToNow hstep,
        fun next hnext => List.mem_of_mem_drop hnext⟩
    · exact ⟨h.upToNow, h.called⟩

/-- **A client has to do with the files that its user names.** -/
theorem confined (names : Names Path) (io : ℕ → CallIo) (status : ℕ → ℤ) (cin : Stream w) :
    Footprint.Confined (Worker.turn names io status) (Worker.At cin) (NamedBy names cin.seen)
      (Targets (FileClient.Handler.serverTarget names) cin.seen) where
  keeps x server h := at_turn server h
  frame x server q h hq := by
    unfold Worker.turn
    dsimp only
    split
    · rfl
    · next call rest _ htodo =>
      refine handle_frame x rest server call fun htarget => hq ?_
      exact h.targets (htodo ▸ List.mem_cons_self) htarget
    · split <;> rfl
  reads x server server' h hagree := by
    unfold Worker.turn
    dsimp only
    split
    · exact ⟨rfl, hagree⟩
    · next call rest _ htodo =>
      have hmem : call ∈ x.todo := htodo ▸ List.mem_cons_self
      obtain ⟨hclient, hserver⟩ := handle_congr names io x rest server server' call
        fun q hq => hagree q (hq.imp (h.targets hmem) (h.targets hmem))
      exact ⟨hclient, fun q hq => hserver q (hagree q hq)⟩
    · split
      · exact ⟨rfl, hagree⟩
      · exact ⟨rfl, hagree⟩

end Footprint

/-! ## Among others -/

/-- A user, with the input that is typed in and all that the client meets with. -/
structure User (w : ℕ) (Path : Type) where
  names : Names Path
  io : ℕ → CallIo
  /-- What the client is told when it asks whether the server is listening. -/
  status : ℕ → ℤ
  cin : Stream w
  disk : Files Path

section Many

variable {ι : Type*} [DecidableEq ι] [DecidableEq Path] (users : ι → User w Path)
  (server : Files Path) (l : List ι) (c : ι)

/-- The clients and the server's files, when the clients have taken these turns. -/
def afterTurns : (ι → Worker w Path) × Files Path :=
  l.foldl (Footprint.turn fun c => Worker.turn (users c).names (users c).io (users c).status)
    (fun c => .start (users c).cin (users c).disk, server)

/-- A client has come to this end by then: this has been returned, and the files that the session
has seen are those on its disk, and on the server those that its user names, as they are, and the
others as they were. -/
def EndedWith : Option (Except Crash (List FileClient.Handler) × Session Path) → Prop
  | none => ((afterTurns users server l).1 c).ended = some none
  | some (result, s) =>
    ((afterTurns users server l).1 c).ended = some (some result) ∧
      s.rets = ((afterTurns users server l).1 c).rets ∧
      s.machines.disk = ((afterTurns users server l).1 c).disk ∧
      ∀ q, (NamedBy (users c).names (users c).cin.seen q →
          s.machines.server q = (afterTurns users server l).2 q) ∧
        (¬ NamedBy (users c).names (users c).cin.seen q → s.machines.server q = server q)

/-- No file of the server that one user names as a target is named by another. -/
def UsersApart : Prop :=
  ∀ c d, c ≠ d → ∀ q,
    Targets (FileClient.Handler.serverTarget (users d).names) (users d).cin.seen q →
      ¬ NamedBy (users c).names (users c).cin.seen q

variable {users} {l}

/-- A client has ended as it has alone, after as many turns. -/
theorem endedWith_iff (hapart : UsersApart users)
    (o : Option (Except Crash (List FileClient.Handler) × Session Path)) :
    EndedWith users server l c o ↔
      Worker.result ((Worker.turn (users c).names (users c).io (users c).status)^[l.count c]
        (.start (users c).cin (users c).disk, server)) = some o := by
  have hat : ∀ c, (Worker.start (users c).cin (users c).disk).At (users c).cin := fun c =>
    ⟨⟨0, rfl, rfl, rfl⟩, fun call hcall => absurd hcall List.not_mem_nil⟩
  have hconfined := fun c => confined (users c).names (users c).io (users c).status (users c).cin
  obtain ⟨hown, hserver⟩ := Footprint.foldl_turn
    (s := (fun c => .start (users c).cin (users c).disk, server)) hconfined hapart hat l c
  have hothers : ∀ q, ¬ NamedBy (users c).names (users c).cin.seen q → _ := fun q hq =>
    (hconfined c).frame_iterate (hat c) server (l.count c) (q := q) fun htarget => hq (.inl htarget)
  generalize (Worker.turn (users c).names (users c).io (users c).status)^[l.count c]
    (.start (users c).cin (users c).disk, server) = y at hown hserver hothers ⊢
  obtain ⟨x, alone⟩ := y
  obtain rfl : _ = x := hown
  cases o with
  | none =>
    rw [EndedWith, Worker.result_eq_none_iff]
    rfl
  | some o =>
    obtain ⟨returned, s⟩ := o
    rw [EndedWith, Worker.result_eq_some_iff]
    refine and_congr_right fun _ => and_congr_right fun _ => and_congr_right fun _ => ?_
    constructor
    · intro h
      funext q
      by_cases hq : NamedBy (users c).names (users c).cin.seen q
      · exact ((h q).1 hq).trans (hserver q hq)
      · exact ((h q).2 hq).trans (hothers q hq).symm
    · rintro h q
      rw [h]
      exact ⟨fun hq => (hserver q hq).symm, hothers q⟩

/-- **Sessions on different files do not disturb each other.**  However the turns of the clients
follow one another, a session ends as it does alone, exactly if it does so alone, and exactly
when it has had its turns.  The streams of its calls (`io`), and with them the account that a
call runs under, are taken to be the same alone and among others. -/
theorem ended_iff (hapart : UsersApart users) (c : ι) :
    ∃ k : ℕ, ∀ (l : List ι) (o : Option (Except Crash (List FileClient.Handler) × Session Path)),
      EndedWith users server l c o ↔ k ≤ l.count c ∧
        Loop.Returns (fileLoop (users c).names (users c).io (users c).status)
          (Shell.start (users c).cin, .start ⟨server, (users c).disk⟩) o := by
  obtain ⟨k, hk⟩ := Loop.exists_returns_repeating
    (turn_of_ended (users c).names (users c).io (users c).status)
    (Worker.start (users c).cin (users c).disk, server)
  refine ⟨k, fun l o => ?_⟩
  rw [endedWith_iff server c hapart, hk, ← returns_loop_iff]
  rfl

end Many

/-! ## Two users -/

/-- The files that these lines name. -/
theorem targets_iff_mem (target : FileClient.Handler → Option Path) (lines : List (List UInt8))
    (q : Path) :
    Targets target lines q ↔ q ∈ (commands FileClient.asked lines).filterMap target := by
  rw [List.mem_filterMap]
  constructor
  · rintro ⟨line, hline, call, hasked, hq⟩
    exact ⟨call, List.mem_filterMap.mpr ⟨line, hline, hasked⟩, hq⟩
  · rintro ⟨call, hcall, hq⟩
    obtain ⟨line, hline, hasked⟩ := List.mem_filterMap.mp hcall
    exact ⟨line, hline, call, hasked, hq⟩

/-- An upload. -/
def oneUpload : Stream 32 where
  rest := ascii "\nup x d\nexit"
  good := true
  fit := .of_length (by decide)

/-- One of them downloads a file and removes another, and the other uploads a third. -/
def twoUsers : Bool → User 32 (List UInt8)
  | true => ⟨⟨id, id⟩, fun _ => .full fun _ => 0, fun _ => 0, twoCommands, fun _ => none⟩
  | false => ⟨⟨id, id⟩, fun _ => .full fun _ => 0, fun _ => 0, oneUpload,
      Function.update (fun _ => none) (ascii "x") (some [4, 5])⟩

theorem twoUsers_apart : UsersApart twoUsers := by
  have htargets : ∀ c d, c ≠ d →
      ∀ q ∈ (commands FileClient.asked (twoUsers d).cin.seen).filterMap
        (FileClient.Handler.serverTarget (twoUsers d).names),
      q ∉ (commands FileClient.asked (twoUsers c).cin.seen).filterMap
          (FileClient.Handler.serverTarget (twoUsers c).names) ∧
        q ∉ (commands FileClient.asked (twoUsers c).cin.seen).filterMap
          (FileClient.Handler.serverSource (twoUsers c).names) := by
    decide
  intro c d hcd q hq
  rw [targets_iff_mem] at hq
  rw [NamedBy, targets_iff_mem, targets_iff_mem]
  exact not_or.mpr (htargets c d hcd q hq)

/-- However the other's upload comes between, the file is brought. -/
theorem ended_iff_sample : ∃ k, ∀ l : List Bool, k ≤ l.count true →
    ((afterTurns twoUsers oneRemoteFile.server l).1 true).disk (ascii "b") = some [1, 2, 3] := by
  obtain ⟨k, hk⟩ := ended_iff oneRemoteFile.server twoUsers_apart true
  have hrun : (Loop.run (fileLoop (twoUsers true).names (twoUsers true).io (twoUsers true).status)
      9 (Shell.start (twoUsers true).cin, .start ⟨oneRemoteFile.server, (twoUsers true).disk⟩)).map
        (Option.map fun o => o.2.machines.disk (ascii "b")) = some (some (some [1, 2, 3])) := by
    decide
  obtain ⟨o, hreturns, ho⟩ := Option.map_eq_some_iff.mp hrun
  obtain ⟨⟨returned, s⟩, rfl, hdisk⟩ := Option.map_eq_some_iff.mp ho
  refine ⟨k, fun l hl => ?_⟩
  obtain ⟨-, -, hsame, -⟩ := (hk l _).mpr ⟨hl, 9, hreturns⟩
  rw [← hsame]
  exact hdisk

end CommandLine
end BsitLabs
