import BsitLabs.CommandLine.CmdLoop
import BsitLabs.InfoRpc.Framing
import BsitLabs.Tcp.Reports

/-!
# A session of the information client

What is typed in at the client of the second information server is answered by remote calls, and
what each brings back is printed.  `infoLoop` is `Client::cmd_loop` with the handlers it calls.

The two information services are built from the same code and reach their users in different
ways: one enciphers what it has put together and sends it on a connection, the other moves it up
to make room for its length.  Both come to the same: the lines that a session prints are the
reports that the first service would give (`session_prints_iff`), if each fits into the client's
array with its length, the arrays that the server is given are clear, the names of accounts,
volumes and file systems fit into the server's own arrays, and no access-control list is null.
-/

namespace BsitLabs
namespace CommandLine

open MachineInt SystemInfo InfoRpc

/-! ## The handlers -/

namespace InfoClient.Handler

/-- The request that a handler makes. -/
def requestType : Handler → Tcp.RequestType
  | .osVersion => .osVersion
  | .curtime => .currentTime
  | .ostime => .osTime
  | .memstat => .memoryStatus
  | .diskstype => .disksTypes
  | .freespace => .freeSpace
  | .fowner _ => .owner
  | .frights _ => .accessRight

/-- `path.c_str()`, as far as it is read; the other handlers have none. -/
def path : Handler → CText
  | .fowner path => Tcp.pathText path
  | .frights path => Tcp.pathText path
  | _ => .nil

/-- The remote call of a handler: what it leaves in the array of the server. -/
def call (w : Win32) (buffer : OutBuffer) : Handler → Except Misuse (Region UInt8)
  | .osVersion => .ok (servOsVersion w buffer)
  | .curtime => .ok (servCurrentTime w buffer)
  | .ostime => .ok (servOsTime w buffer)
  | .memstat => .ok (servMemoryStatus w buffer)
  | .diskstype => servDisksTypes w buffer
  | .freespace => servFreeSpace w buffer
  | .fowner path => servFileOwner w buffer (Tcp.pathText path)
  | .frights path => servFileAccessRight w buffer (Tcp.pathText path)

/-- What a handler prints: `print_response` of the client's array.  A server that misuses
memory does not return from the call. -/
def prints (w : Win32) (buffer : OutBuffer) (handler : Handler) : Option (List UInt8) :=
  (handler.call w buffer).toOption.map fun left => printResponse (received left)

/-- Every call puts a text together and its length in front. -/
theorem call_eq (w : Win32) (buffer : OutBuffer) (handler : Handler) :
    handler.call w buffer =
      (Tcp.build w handler.path handler.requestType buffer.memory).map sizeInFront := by
  cases handler <;> rfl

/-- **A handler prints the report**, if the names that the system answers with fit, the list
that is followed is not null, the array is clear and the report fits with its length. -/
theorem prints_eq (w : Win32) {buffer : OutBuffer} (hclear : ∀ i, buffer.memory.get i = 0)
    {handler : Handler} (hwithin : Tcp.WithinArrays w handler.path handler.requestType)
    (hfits : (Tcp.report w handler.path handler.requestType).length + 4 ≤ InfoRpc.clientBufSize) :
    handler.prints w buffer =
      some (Tcp.report w handler.path handler.requestType ++ ascii "\n") := by
  obtain ⟨reply, hreply⟩ := (Tcp.exists_build_iff w _ _ buffer.memory).mpr hwithin
  have hbuild := Tcp.cString_build w hreply buffer.untouched hclear
  have hcall : (handler.call w buffer).toOption = some (sizeInFront reply) := by
    rw [call_eq, hreply]
    rfl
  rw [prints, hcall, Option.map_some, printResponse, replyText_received, hbuild]
  rwa [← Region.length_cString, hbuild]

end InfoClient.Handler

/-! ## Sessions -/

/-- What becomes of the calls of a session: what the system answers to each, and the array that
it is given; `none` is an exception of the call. -/
abbrev Answering := ℕ → Option (Win32 × OutBuffer)

/-- A call, behind those that have printed these lines. -/
def answerCall (answering : Answering) (printed : List (List UInt8))
    (handler : InfoClient.Handler) : Option (List (List UInt8)) := do
  let (w, buffer) ← answering printed.length
  let line ← handler.prints w buffer
  return printed ++ [line]

variable {w : ℕ}

/-- `Client::cmd_loop` with its handlers, and what these print; `none` is an exception. -/
def infoLoop (answering : Answering) (status : ℕ → ℤ) :
    Shell w InfoClient.Handler × List (List UInt8) →
      (Shell w InfoClient.Handler × List (List UInt8)) ⊕
        Option (Except Crash (List InfoClient.Handler) × List (List UInt8)) :=
  Loop.acting (cmdLoop InfoClient.client status) Shell.calls (answerCall answering)

/-- Calls that all return print one behind the other. -/
theorem foldlM_answerCall {answers : ℕ → Win32 × OutBuffer}
    (line : InfoClient.Handler → ℕ → List UInt8) (calls : List InfoClient.Handler)
    (printed : List (List UInt8))
    (h : ∀ handler k, (handler, k) ∈ calls.zipIdx printed.length →
      handler.prints (answers k).1 (answers k).2 = some (line handler k)) :
    calls.foldlM (answerCall fun k => some (answers k)) printed =
      some (printed ++ (calls.zipIdx printed.length).map fun (handler, k) => line handler k) := by
  induction calls generalizing printed with
  | nil => simp
  | cons handler calls ih =>
    rw [List.zipIdx_cons] at h
    have hfirst : answerCall (fun k => some (answers k)) printed handler =
        some (printed ++ [line handler printed.length]) := by
      unfold answerCall
      simp only [bind, Option.bind, h _ _ List.mem_cons_self]
      rfl
    have hlen : (printed ++ [line handler printed.length]).length = printed.length + 1 :=
      List.length_append
    rw [List.foldlM_cons, hfirst, List.zipIdx_cons, List.map_cons]
    refine (ih _ fun handler k hmem => h _ _ ?_).trans ?_
    · rw [hlen] at hmem
      exact List.mem_cons_of_mem _ hmem
    · rw [hlen, List.append_assoc, List.singleton_append]

/-- **A session prints the reports that have been asked for.**  As long as the server is
listening and every call returns, the session returns exactly if the loop comes to an `exit`; and
it has then printed, for each command before it and in the order in which they have been entered,
the report that the first service would give on what the system answers to it.

For each command the names that the system answers with must fit into the server's arrays and the
list of a path must not be null (`Tcp.WithinArrays`), or the server dies in the call; and the
report must fit with its length. -/
theorem session_prints_iff {cin : Stream w} {status : ℕ → ℤ}
    (hstatus : ∀ k, status k ≠ rpcSNotListening) {answers : ℕ → Win32 × OutBuffer}
    (hclear : ∀ k i, (answers k).2.memory.get i = 0)
    (hfits : ∀ k handler,
      (commands InfoClient.asked (cin.entered.takeWhile (¬ IsExit ·)))[k]? = some handler →
        Tcp.WithinArrays (answers k).1 handler.path handler.requestType ∧
          (Tcp.report (answers k).1 handler.path handler.requestType).length + 4 ≤
            InfoRpc.clientBufSize)
    {calls : List InfoClient.Handler} {printed : List (List UInt8)} :
    Loop.Returns (infoLoop (fun k => some (answers k)) status) (Shell.start cin, [])
        (some (.ok calls, printed)) ↔
      (∃ before, BeforeExit cin.seen before ∧ before.length + 2 < 2 ^ 31) ∧
        calls = commands InfoClient.asked (cin.entered.takeWhile (¬ IsExit ·)) ∧
        printed = calls.zipIdx.map fun (handler, k) =>
          Tcp.report (answers k).1 handler.path handler.requestType ++ ascii "\n" := by
  rw [infoLoop, InfoClient.follows.returns_acting_iff hstatus]
  refine and_congr_right fun _ => and_congr_right fun hcalls => ?_
  rw [foldlM_answerCall (fun handler k =>
    Tcp.report (answers k).1 handler.path handler.requestType ++ ascii "\n") calls []
    fun handler k hmem => ?_, List.nil_append, List.length_nil, Option.some_inj, eq_comm]
  have hk := List.mem_zipIdx_iff_getElem?.mp hmem
  rw [hcalls] at hk
  obtain ⟨hwithin, hlen⟩ := hfits k handler hk
  exact InfoClient.Handler.prints_eq _ (hclear k) hwithin hlen

/-- What system there is, and who owns `C:`. -/
def twoQueries : Stream 32 where
  rest := ascii "\nosversion\nfowner C:\nexit"
  good := true
  fit := .of_length (by decide)

theorem session_prints_iff_sample :
    Loop.Returns (infoLoop (fun _ => some (Tcp.sampleSystem, .clear)) fun _ => 0)
      (Shell.start twoQueries, [])
      (some (.ok [.osVersion, .fowner (ascii "C:")],
        [ascii "win10" ++ ascii "\n", ascii "Owner: u" ++ ascii "\n"])) := by
  have hcalls : commands InfoClient.asked (twoQueries.entered.takeWhile (¬ IsExit ·)) =
      [.osVersion, .fowner (ascii "C:")] := by decide
  have hbefore : BeforeExit twoQueries.seen [ascii "osversion", ascii "fowner C:"] :=
    ⟨⟨ascii "exit", [], by decide, by decide⟩, by decide⟩
  refine (session_prints_iff (fun _ => by decide) (fun _ i => ?_) fun k handler hk => ?_).mpr
    ⟨⟨_, hbefore, by decide⟩, hcalls.symm, rfl⟩
  · exact List.getD_eq_default [] 0 (Nat.zero_le i)
  · rw [hcalls] at hk
    have hmem := List.mem_of_getElem? hk
    simp only [List.mem_cons, List.not_mem_nil, or_false] at hmem
    refine ⟨(Tcp.responsive_sampleSystem _ _).1.within, ?_⟩
    rcases hmem with rfl | rfl <;> decide

end CommandLine
end BsitLabs
