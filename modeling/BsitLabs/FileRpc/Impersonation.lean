import BsitLabs.FileRpc.FileStore
import BsitLabs.Foundation.Transition

/-!
# Who a call runs as

The server's procedures run on the threads of a pool, and the runtime chooses the
thread of each call.  A thread runs under the server's own identity until
`ImpersonateLoggedOnUser` gives it another, which it keeps.  `serv_login` is the only
procedure that calls it, on the thread that happens to run it; the file procedures ask
nobody, and whether a file opens is decided by the identity of their thread.

So the identity of a call is that of the last login that succeeded on its thread
(`identified_reachable`), whoever made it.  It is the caller's own exactly if that login was
for the account of the caller's latest one (`authorized_iff`).
-/

namespace BsitLabs
namespace FileRpc

open MachineInt Transition

variable {User Path : Type}

/-! ## The procedures -/

/-- The length of the arrays `login_` and `password_`. -/
def loginSize : ℕ := 10

/-- The loops that copy a string of bytes into an array of wide characters. -/
def widen (s : List UInt8) : List UInt16 := s.map UInt8.toUInt16

/-- A call of one of the file procedures. -/
inductive FileCall (Path : Type) where
  | remove (path : Path)
  | download (pathFrom : Path) (bufferSize : ℕ)
  | upload (pathTo : Path) (buffer : List UInt8)
  | getFileSize (path : Path)

/-- What a file procedure sends back: the value returned, and the array. -/
abbrev Reply := ℤ × List UInt8

namespace FileCall

variable [DecidableEq Path]

/-- A file procedure, on a thread whose streams the system treats so: the server's files
after it, and its reply. -/
def run (io : Stream) (mem : Memory) (files : Files Path) : FileCall Path → Files Path × Reply
  | remove path => ((servRemove io files path).2, ((servRemove io files path).1, []))
  | download pathFrom bufferSize => (files, servDownload io mem files pathFrom bufferSize)
  | upload pathTo buffer =>
    ((servUpload io files pathTo buffer).2, ((servUpload io files pathTo buffer).1, []))
  | getFileSize path => (files, (servGetFileSize io files path, []))

/-- The reply of a procedure that has not got at the file. -/
def refusal (mem : Memory) : FileCall Path → Reply
  | remove _ => (-1, [])
  | download _ bufferSize => (-1, uninit mem bufferSize)
  | upload _ _ => (0, [])
  | getFileSize _ => (-1, [])

/-- The procedure gets at the file: the system lets the thread open it, and there is
one, except where it is made. -/
def goesThrough (io : Stream) (files : Files Path) : FileCall Path → Bool
  | remove path => io.opened && (files path).isSome
  | download pathFrom _ => io.opened && (files pathFrom).isSome
  | upload _ _ => io.opened
  | getFileSize path => io.opened && (files path).isSome

/-- **A call that does not go through does nothing and tells nothing**: the files stay
as they were, and the reply depends on the call and the memory alone. -/
theorem run_of_not_goesThrough {io : Stream} {files : Files Path} {call : FileCall Path}
    (h : call.goesThrough io files = false) (mem : Memory) :
    call.run io mem files = (files, call.refusal mem) := by
  cases hopened : io.opened with
  | false =>
    cases call <;> simp [run, refusal, servRemove, servDownload, servUpload, servGetFileSize,
      readInto, writeFile, fileSize, hopened]
  | true =>
    cases call with
    | remove path =>
      have hnone : files path = none := by simpa [goesThrough, hopened] using h
      simp [run, refusal, servRemove, hnone]
    | download path size =>
      have hnone : files path = none := by simpa [goesThrough, hopened] using h
      simp [run, refusal, servDownload, readInto, hnone]
    | upload path buffer => simp [goesThrough, hopened] at h
    | getFileSize path =>
      have hnone : files path = none := by simpa [goesThrough, hopened] using h
      simp [run, refusal, servGetFileSize, fileSize, hopened, hnone]

end FileCall

/-! ## The service -/

/-- What the operating system decides. -/
structure Accounts (User Path : Type) where
  /-- `LogonUser`: the account that a name and a password belong to. -/
  logonUser : List UInt16 → List UInt16 → Option User
  /-- Whether an identity, an account or the server's own, may have the file opened. -/
  permits : Option User → FileCall Path → Bool

/-- A call of a procedure: by a client, on a thread. -/
inductive RpcEvent (Path : Type) where
  | login (client thread : ℕ) (login password : List UInt8) (impersonates : Bool)
  | file (client thread : ℕ) (call : FileCall Path) (mem : Memory)

/-- A file call that has gone through. -/
structure Access (User Path : Type) where
  client : ℕ
  thread : ℕ
  /-- The identity it has run under; `none` is the server's own. -/
  identity : Option User
  /-- The calls before it, the latest first. -/
  past : List (RpcEvent Path)

/-- The server, and the record of what it has done. -/
structure Service (User Path : Type) where
  files : Files Path
  /-- The identity of each thread; `none` is the server's own. -/
  token : ℕ → Option User
  /-- `InterfaceHandle`: the account of the latest logon. -/
  interfaceHandle : Option User
  /-- The calls made, the latest first. -/
  history : List (RpcEvent Path)
  /-- The file calls that have gone through. -/
  accesses : List (Access User Path)

/-- The account that a login gives its thread; `none` if it fails. -/
def loggedOn (acc : Accounts User Path) (login password : List UInt8) (impersonates : Bool) :
    Option User :=
  if impersonates then acc.logonUser (widen login) (widen password) else none

namespace Service

/-- `serv_login` on a thread.  The handle is written when `LogonUser` succeeds, the
thread's identity when `ImpersonateLoggedOnUser` does too. -/
def servLogin (acc : Accounts User Path) (s : Service User Path) (thread : ℕ)
    (login password : List UInt8) (impersonates : Bool) : Service User Path :=
  match acc.logonUser (widen login) (widen password) with
  | none => s
  | some u =>
    { s with
      interfaceHandle := some u
      token := if impersonates then Function.update s.token thread (some u) else s.token }

/-- What becomes of a file procedure's stream on a thread. -/
def stream (acc : Accounts User Path) (s : Service User Path) (thread : ℕ)
    (call : FileCall Path) : Stream := ⟨acc.permits (s.token thread) call, none⟩

/-- A file procedure on a thread, put on record if it goes through. -/
def servFile [DecidableEq Path] (acc : Accounts User Path) (s : Service User Path)
    (client thread : ℕ) (call : FileCall Path) (mem : Memory) : Service User Path :=
  { s with
    files := (call.run (s.stream acc thread call) mem s.files).1
    accesses := if call.goesThrough (s.stream acc thread call) s.files then
      ⟨client, thread, s.token thread, s.history⟩ :: s.accesses else s.accesses }

/-- The call is put on record. -/
def note (s : Service User Path) (e : RpcEvent Path) : Service User Path :=
  { s with history := e :: s.history }

/-- The calls of the server.  A name or a password that does not fit in its array has
no step: what the copy then overwrites is not part of the model. -/
inductive Step [DecidableEq Path] (acc : Accounts User Path) :
    Service User Path → RpcEvent Path → Service User Path → Prop where
  | login {s : Service User Path} {client thread : ℕ} {login password : List UInt8}
      {impersonates : Bool} (hlogin : login.length < loginSize)
      (hpassword : password.length < loginSize) :
      Step acc s (.login client thread login password impersonates)
        ((s.servLogin acc thread login password impersonates).note
          (.login client thread login password impersonates))
  | file {s : Service User Path} {client thread : ℕ} {call : FileCall Path} {mem : Memory} :
      Step acc s (.file client thread call mem)
        ((s.servFile acc client thread call mem).note (.file client thread call mem))

end Service

/-- The server's runs: any calls, by any clients, on any threads. -/
def serviceMachine [DecidableEq Path] (acc : Accounts User Path) :
    Machine (Service User Path) (RpcEvent Path) where
  init s := s.token = (fun _ => none) ∧ s.history = [] ∧ s.accesses = []
  step := Service.Step acc

/-! ## What the record says -/

/-- The account of a client's latest login, if it has succeeded. -/
def latestLogin (acc : Accounts User Path) (client : ℕ) : List (RpcEvent Path) → Option User
  | [] => none
  | .login c _ login password impersonates :: past =>
    if c = client then loggedOn acc login password impersonates else latestLogin acc client past
  | .file _ _ _ _ :: past => latestLogin acc client past

/-- The account of the last login that has succeeded on a thread. -/
def lastOn (acc : Accounts User Path) (thread : ℕ) : List (RpcEvent Path) → Option User
  | [] => none
  | .login _ t login password impersonates :: past =>
    if t = thread ∧ (loggedOn acc login password impersonates).isSome then
      loggedOn acc login password impersonates
    else lastOn acc thread past
  | .file _ _ _ _ :: past => lastOn acc thread past

/-- Each call that has gone through has run under the account of its client's latest
login, which has succeeded. -/
def Authorized (acc : Accounts User Path) (s : Service User Path) : Prop :=
  ∀ a ∈ s.accesses, ∃ u, latestLogin acc a.client a.past = some u ∧ a.identity = some u

/-- The last login that has succeeded on the call's thread was for the account of its
client's latest one, which has succeeded. -/
def OnOwnThread (acc : Accounts User Path) (a : Access User Path) : Prop :=
  ∃ u, latestLogin acc a.client a.past = some u ∧ lastOn acc a.thread a.past = some u

/-- What holds of the identities in every run. -/
structure Identified (acc : Accounts User Path) (s : Service User Path) : Prop where
  /-- A thread has the identity of the last login that has succeeded on it. -/
  token : ∀ t, s.token t = lastOn acc t s.history
  /-- So had the thread of each call that has gone through. -/
  accesses : ∀ a ∈ s.accesses, a.identity = lastOn acc a.thread a.past

section Runs

variable {acc : Accounts User Path}

/-- A login changes the identity of its thread, if it succeeds, and no other. -/
theorem servLogin_token (s : Service User Path) (thread : ℕ) (login password : List UInt8)
    (impersonates : Bool) (t : ℕ) :
    (s.servLogin acc thread login password impersonates).token t =
      if thread = t ∧ (loggedOn acc login password impersonates).isSome then
        loggedOn acc login password impersonates
      else s.token t := by
  unfold Service.servLogin loggedOn
  cases hlogon : acc.logonUser (widen login) (widen password) with
  | none => simp
  | some u =>
    cases impersonates with
    | false => simp
    | true =>
      by_cases ht : thread = t
      · simp [ht]
      · simp [ht, Function.update_of_ne (Ne.symm ht)]

theorem servLogin_accesses (acc : Accounts User Path) (s : Service User Path) (thread : ℕ)
    (login password : List UInt8) (impersonates : Bool) :
    (s.servLogin acc thread login password impersonates).accesses = s.accesses ∧
      (s.servLogin acc thread login password impersonates).history = s.history := by
  unfold Service.servLogin
  cases acc.logonUser (widen login) (widen password) <;> exact ⟨rfl, rfl⟩

variable [DecidableEq Path]

theorem identified_step {s s' : Service User Path} {e : RpcEvent Path} (h : Identified acc s)
    (hs : Service.Step acc s e s') : Identified acc s' := by
  cases hs with
  | @login client thread login password impersonates _ _ =>
    obtain ⟨haccesses, hhistory⟩ := servLogin_accesses acc s thread login password impersonates
    refine ⟨fun t => ?_, fun a ha => ?_⟩
    · simp only [Service.note, hhistory, lastOn]
      rw [servLogin_token, h.token]
    · simp only [Service.note, haccesses] at ha
      exact h.accesses a ha
  | @file client thread call mem =>
    refine ⟨fun t => h.token t, fun a ha => ?_⟩
    simp only [Service.note, Service.servFile] at ha
    split at ha
    · rcases List.mem_cons.mp ha with rfl | ha
      · exact h.token thread
      · exact h.accesses a ha
    · exact h.accesses a ha

theorem identified_reachable {s : Service User Path} (h : (serviceMachine acc).Reachable s) :
    Identified acc s :=
  h.invariant (P := Identified acc)
    (fun s hi => by
      obtain ⟨htoken, hhistory, haccesses⟩ := hi
      refine ⟨fun t => ?_, fun a ha => ?_⟩
      · rw [htoken, hhistory]
        rfl
      · rw [haccesses] at ha
        exact absurd ha List.not_mem_nil)
    fun _ _ _ _ hp hs => identified_step hp hs

/-- **Whose identity the calls have**: in every run, each call that goes through has run
under its client's own exactly if each has run on a thread on which the last login was
for the client's account. -/
theorem authorized_iff (acc : Accounts User Path) {s : Service User Path}
    (h : (serviceMachine acc).Reachable s) :
    Authorized acc s ↔ ∀ a ∈ s.accesses, OnOwnThread acc a := by
  have hid := identified_reachable h
  constructor
  · intro hauth a ha
    obtain ⟨u, hlatest, hidentity⟩ := hauth a ha
    exact ⟨u, hlatest, (hid.accesses a ha).symm.trans hidentity⟩
  · intro hown a ha
    obtain ⟨u, hlatest, hlast⟩ := hown a ha
    exact ⟨u, hlatest, (hid.accesses a ha).trans hlast⟩

end Runs

/-! ## Two clients and two threads

Client zero logs in as one user on thread zero, and client one as another on thread
one.  Then client zero removes a file. -/

/-- Two users, with one-letter names, who may open everything. -/
def Accounts.sample : Accounts Bool Bool where
  logonUser login _ := if login = [97] then some false else if login = [98] then some true else none
  permits identity _ := identity.isSome

namespace Service

/-- The server has a file, and nobody has called it. -/
def sample : Service Bool Bool := ⟨fun _ => some [1], fun _ => none, none, [], []⟩

/-- Both clients have logged in. -/
def sampleLogged : Service Bool Bool where
  files _ := some [1]
  token := Function.update (Function.update (fun _ => none) 0 (some false)) 1 (some true)
  interfaceHandle := some true
  history := [.login 1 1 [98] [] true, .login 0 0 [97] [] true]
  accesses := []

theorem sample_init : (serviceMachine Accounts.sample).init sample := ⟨rfl, rfl, rfl⟩

theorem reachable_sampleLogged : (serviceMachine Accounts.sample).Reachable sampleLogged := by
  have hs₁ : Step Accounts.sample sample (.login 0 0 [97] [] true) _ :=
    .login (by decide) (by decide)
  have hs₂ : Step Accounts.sample _ (.login 1 1 [98] [] true) sampleLogged :=
    .login (s := (sample.servLogin Accounts.sample 0 [97] [] true).note (.login 0 0 [97] [] true))
      (by decide) (by decide)
  exact ((Machine.Reachable.init sample_init).step (M := serviceMachine Accounts.sample) hs₁).step
    (M := serviceMachine Accounts.sample) hs₂

/-- The file call of client zero on a thread: it goes through under the thread's
identity. -/
theorem accesses_sampleLogged (thread : ℕ) (hthread : (sampleLogged.token thread).isSome = true) :
    ((sampleLogged.servFile Accounts.sample 0 thread (.remove true) fun _ => 0).note
      (.file 0 thread (.remove true) fun _ => 0)).accesses =
        [⟨0, thread, sampleLogged.token thread, sampleLogged.history⟩] := by
  simp only [note, servFile, stream, FileCall.goesThrough, Accounts.sample, hthread]
  rfl

end Service

/-- On the thread of its own login, the call runs under its client's account. -/
theorem authorized_iff_own :
    Authorized Accounts.sample ((Service.sampleLogged.servFile Accounts.sample 0 0 (.remove true)
      fun _ => 0).note (.file 0 0 (.remove true) fun _ => 0)) := by
  have hs : Service.Step Accounts.sample Service.sampleLogged
      (.file 0 0 (.remove true) fun _ => 0) _ := .file
  have hr := Service.reachable_sampleLogged.step (M := serviceMachine Accounts.sample) hs
  refine (authorized_iff Accounts.sample hr).mpr fun a ha => ?_
  rw [Service.accesses_sampleLogged 0 rfl] at ha
  obtain rfl := List.mem_singleton.mp ha
  exact ⟨false, rfl, rfl⟩

/-- On the thread of the other login, it runs under the other account. -/
theorem not_authorized_on_other_thread :
    ¬ ∀ s, (serviceMachine Accounts.sample).Reachable s → Authorized Accounts.sample s := by
  intro hall
  have hs : Service.Step Accounts.sample Service.sampleLogged
      (.file 0 1 (.remove true) fun _ => 0) _ := .file
  have hauth := hall _
    (Service.reachable_sampleLogged.step (M := serviceMachine Accounts.sample) hs)
  obtain ⟨u, hlatest, hidentity⟩ := hauth ⟨0, 1, some true, Service.sampleLogged.history⟩ (by
    rw [Service.accesses_sampleLogged 1 rfl]
    exact List.mem_singleton_self _)
  have hfalse : some false = some u := hlatest
  have htrue : some true = some u := hidentity
  rw [← hfalse] at htrue
  simp at htrue

end FileRpc
end BsitLabs
