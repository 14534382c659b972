import BsitLabs.Foundation.Checked
import BsitLabs.Tcp.Context
import Mathlib.Tactic.Simps.Basic

/-!
# The handlers of `Server.cpp`

Each procedure that the loop of `Server::exec` calls, as a function of the server
state.  A failing `assert` ends the process; it is the `Except` error that names
it.  So does a request handler that stores outside of its arrays or follows a pointer that
leads nowhere: what the process does after that is not told.  What the operating system
answers is an argument (`Answers`), and the request that a handler starts at its end is its
second result (`Request`): a handler for a client slot starts at most one, which is what
keeps at most one operation outstanding for a slot.

`form_answ_key` and `msg_handler` are the two reply builders.  Their results are
described once, by `formAnswKey_eq_ok_iff` and `msgHandler_eq_ok_iff`; everything
else about them is read off these two statements.
-/

namespace BsitLabs
namespace Tcp

open MachineInt

/-- What ends the process in `overlap_recv_handler`'s call tree: its assertions, and a handler
that misuses memory. -/
inductive Fault where
  /-- `CryptAcquireContext` failed twice. -/
  | acquireContext
  /-- `buf_recv[0] == 0` in `form_answ_key`. -/
  | keyMark
  /-- `CryptImportKey` of the client's public key. -/
  | importKey
  /-- `CryptGenKey`. -/
  | genKey
  /-- `CryptExportKey`. -/
  | exportKey
  /-- A CSP call inside `crypt_test`. -/
  | cryptTestCall
  /-- `crypt_test` returned false. -/
  | cryptTest
  /-- `CryptDecrypt` of a request. -/
  | decrypt
  /-- `request_type <= 8 && request_type >= 1`. -/
  | requestType
  /-- The handler of a request misuses memory; this one is no assertion. -/
  | handler
  /-- `CryptEncrypt` of a reply. -/
  | encrypt
  deriving DecidableEq, Repr

/-- What the operating system answers to the calls of one loop iteration. -/
structure Answers (Os : Type) where
  /-- `CryptAcquireContext` on the existing container. -/
  acquired : Bool
  /-- `CryptAcquireContext` with `CRYPT_NEWKEYSET`. -/
  acquiredNew : Bool
  /-- `CryptGenKey`. -/
  generated : Bool
  /-- `CreateIoCompletionPort` for an accepted socket. -/
  associated : Bool
  /-- `WSARecv` or `WSASend`: true also when it is pending. -/
  started : Bool
  /-- `AcceptEx`: true also when it is pending. -/
  accepting : Bool
  /-- `PostQueuedCompletionStatus`. -/
  posted : Bool
  /-- What the queries of the request handlers answer. -/
  os : Os

/-- What the server is linked against: the provider, and for each request the text
its handler leaves at the start of the cleared `buf_send`, as a function of the
decrypted `buf_recv` and of the system's answers; `none` is a handler that misuses memory. -/
structure Env (Os : Type) where
  csp : Csp
  handler : RequestType → Buffer bufSize → Os → Option (List UInt8)

/-- Every call succeeds. -/
def Answers.allYes {Os : Type} (os : Os) : Answers Os :=
  ⟨true, true, true, true, true, true, true, os⟩

/-- A server whose handlers all write the same two letters. -/
def Env.sample : Env Unit where
  csp := Csp.oneByte
  handler _ _ _ := some [79, 75]

/-- What a handler asks the system to start. -/
inductive Request where
  /-- `WSARecv` into `buf_recv + off`, at most `len` bytes. -/
  | read (off len : ℕ)
  /-- `WSASend` of `len` bytes from `buf_send + off`. -/
  | write (off len : ℕ)
  /-- `CancelIo` and a posted `overlap_cancel`. -/
  | cancel
  deriving DecidableEq

variable {Os : Type}

/-- `assert(cond)`. -/
def require (fault : Fault) (cond : Bool) : Except Fault Unit :=
  if cond then .ok () else .error fault

/-- `check = call(); assert(check)`. -/
def orFault {α : Type} (fault : Fault) : Option α → Except Fault α
  | some a => .ok a
  | none => .error fault

/-! ## Starting operations -/

/-- `schedule_read`: receive behind what has been received. -/
def scheduleRead (s : Server) (idx : Slot) : Request :=
  .read (s.gCtxs idx).szRecv (usub bufSize (s.gCtxs idx).szRecv)

/-- `schedule_write`: send what is left of the reply. -/
def scheduleWrite (s : Server) (idx : Slot) : Request :=
  .write (s.gCtxs idx).szSend (usub (s.gCtxs idx).szSendTotal (s.gCtxs idx).szSend)

/-- `schedule_accept`: a fresh socket for the next connection. -/
def scheduleAccept (s : Server) : Server :=
  { s with
    gAcceptedSocket := s.handles.sockets + 1
    handles := { s.handles with sockets := s.handles.sockets + 1 } }

/-! ## Replying to a key -/

/-- `client_send_crypt_key`: a packet whose first byte is zero is a key. -/
def clientSendCryptKey (s : Server) (idx : Slot) : Bool := (s.gCtxs idx).bufRecv.get 0 == 0

/-- `CryptAcquireContext`, and a second time with a new key set. -/
def acquireContext (ans : Answers Os) (s : Server) : Except Fault Server :=
  if ans.acquired || ans.acquiredNew then
    .ok { s with
      csp := s.handles.contexts + 1
      handles := { s.handles with contexts := s.handles.contexts + 1 } }
  else .error .acquireContext

/-- `memcpy(buf_recv, buf_recv + 1, sz_recv); buf_recv[sz_recv-- - 1] = 0`.  Behind
`buf_recv` lies `buf_send`. -/
@[simps]
def ClientCtx.dropKeyMark (c : ClientCtx) : ClientCtx :=
  { c with
    bufRecv := (c.bufRecv.moveWithin c.bufSend.bytes 0 1 c.szRecv).set (usub c.szRecv 1) 0
    szRecv := usub c.szRecv 1 }

/-- The blob goes to `buf_send`, moves up by one, and a zero goes in front:
`memcpy(buf_send + 1, buf_send, sz_send_total++); buf_send[0] = 0`. -/
@[simps]
def ClientCtx.putBlob (c : ClientCtx) (blob : List UInt8) : ClientCtx :=
  { c with
    bufSend := ((c.bufSend.write 0 blob).moveWithin [] 1 0 blob.length).set 0 0
    szSendTotal := uadd blob.length 1 }

/-- `CryptGenKey` for the connection of a slot: the handle and the server after it. -/
def genKey (s : Server) (idx : Slot) : Server × ℕ :=
  let keys := s.handles.keys ++ [(s.gCtxs idx).socket]
  ({ s with handles := { s.handles with keys := keys } }, keys.length)

/-- `form_answ_key`. -/
def formAnswKey (env : Env Os) (ans : Answers Os) (s : Server) (idx : Slot) :
    Except Fault Server := do
  let s ← acquireContext ans s
  require .keyMark ((s.gCtxs idx).bufRecv.get 0 == 0)
  let c := (s.gCtxs idx).dropKeyMark
  require .importKey (s.csp != 0 && env.csp.wellFormed c.packet)
  let s := { s with cPublicKey := some c.packet }
  require .genKey ans.generated
  let (s, key) := genKey s idx
  let c := { c with key := key }
  let blob ← orFault .exportKey (s.cPublicKey.map fun pub => env.csp.simpleBlob c.key pub)
  let c := c.putBlob blob
  let passed ← orFault .cryptTestCall (cryptTest (env.csp.keyOf c.key))
  require .cryptTest passed
  return s.setCtx idx c

/-! ## Replying to a request -/

/-- `msg_handler`. -/
def msgHandler (env : Env Os) (ans : Answers Os) (s : Server) (idx : Slot) :
    Except Fault Server := do
  let c := { s.gCtxs idx with szSend := 0 }
  let plain ← orFault .decrypt (cryptDecrypt (env.csp.keyOf c.key) c.packet)
  let c := { c with bufRecv := c.bufRecv.write 0 plain }
  let requestType := schar (c.bufRecv.get 0)
  require .requestType (requestType ≤ 8 && 1 ≤ requestType)
  -- the `default` case cannot be taken after the assertion
  let written ← orFault .handler (match RequestType.ofInt requestType with
    | some t => env.handler t c.bufRecv ans.os
    | none => some [])
  let text := written.takeWhile (· != 0)
  let c := { c with bufSend := (Buffer.zero bufSize).write 0 written, szSendTotal := text.length }
  let cipher ← orFault .encrypt (cryptEncrypt (env.csp.keyOf c.key) text bufSize)
  return s.setCtx idx { c with bufSend := c.bufSend.write 0 cipher }

/-! ## The handlers of completions -/

/-- The context after a receive has been counted in. -/
@[simps]
def ClientCtx.count (c : ClientCtx) (transferred : ℕ) : ClientCtx :=
  { c with szRecv := uadd c.szRecv transferred }

/-- The context after a send has been counted in. -/
@[simps]
def ClientCtx.advance (c : ClientCtx) (transferred : ℕ) : ClientCtx :=
  { c with szSend := uadd c.szSend transferred }

/-- The context made ready for the next packet: `sz_recv = 0` and a clear `buf_send`. -/
@[simps]
def ClientCtx.rearm (c : ClientCtx) : ClientCtx :=
  { c with szRecv := 0, bufSend := Buffer.zero bufSize }

/-- The builder that the first byte of the packet selects. -/
def formReply (env : Env Os) (ans : Answers Os) (s : Server) (idx : Slot) : Except Fault Server :=
  if clientSendCryptKey s idx then formAnswKey env ans s idx else msgHandler env ans s idx

/-- `overlap_recv_handler`. -/
def overlapRecvHandler (env : Env Os) (ans : Answers Os) (s : Server) (idx : Slot)
    (transferred : ℕ) : Except Fault (Server × Request) :=
  if transferred = 0 then .ok (s, .cancel)
  else (formReply env ans (s.setCtx idx ((s.gCtxs idx).count transferred)) idx).map fun s =>
    (s, scheduleWrite s idx)

/-- Whether `overlap_send_handler` goes on sending. -/
def ClientCtx.sendsOn (c : ClientCtx) (transferred : ℕ) : Bool :=
  (c.advance transferred).szSend < (c.advance transferred).szSendTotal && 0 < transferred

/-- `overlap_send_handler`. -/
def overlapSendHandler (s : Server) (idx : Slot) (transferred : ℕ) : Server × Request :=
  if (s.gCtxs idx).sendsOn transferred then
    let s := s.setCtx idx ((s.gCtxs idx).advance transferred)
    (s, scheduleWrite s idx)
  else
    let s := s.setCtx idx ((s.gCtxs idx).advance transferred).rearm
    (s, scheduleRead s idx)

/-- `overlap_cancel_handler`.  The context is cleared before its key is destroyed,
so the handle passed to `CryptDestroyKey` is the cleared one. -/
def overlapCancelHandler (s : Server) (idx : Slot) : Server :=
  let s := { s with handles := { s.handles with
    closed := s.handles.closed ++ [(s.gCtxs idx).socket] } }
  let s := s.setCtx idx ClientCtx.zero
  { s with handles := { s.handles with
    destroyed := s.handles.destroyed ++ [(s.gCtxs idx).key] } }

/-! ## Accepting -/

/-- The indices `add_accepted_connection` looks at: `0 .. max_clients - 1`. -/
def searched : List Slot := List.ofFn fun i : Fin maxClients => i.castSucc

/-- The first free index the loop finds. -/
def findFree (s : Server) : Option Slot := searched.find? fun i => (s.gCtxs i).socket == 0

/-- The server after the accepted socket has been given a slot. -/
def Server.place (s : Server) (i : Slot) : Server :=
  s.setCtx i { s.gCtxs i with socket := s.gAcceptedSocket }

/-- The server after the accepted socket has been closed for want of a slot. -/
@[simps]
def Server.refuse (s : Server) : Server :=
  { s with
    gAcceptedSocket := 0
    handles := { s.handles with closed := s.handles.closed ++ [s.gAcceptedSocket] } }

/-- `add_accepted_connection`: the server after it, and the slot whose read is
started, if one is. -/
def addAcceptedConnection (ans : Answers Os) (s : Server) : Server × Option Slot :=
  match findFree s with
  | some i => (s.place i, if ans.associated then some i else none)
  | none => (s.refuse, none)

/-! ## What the reply builders leave

Both builders are a row of assertions around one update of the slot's context. -/

theorem require_eq_ok_iff {fault : Fault} {cond : Bool} {u : Unit} :
    require fault cond = .ok u ↔ cond = true := by
  cases cond <;> simp [require]

theorem orFault_eq_ok_iff {α : Type} {fault : Fault} {x : Option α} {a : α} :
    orFault fault x = .ok a ↔ x = some a := by
  cases x <;> simp [orFault]

theorem acquireContext_eq_ok_iff {ans : Answers Os} {s s' : Server} :
    acquireContext ans s = .ok s' ↔ (ans.acquired || ans.acquiredNew) = true ∧
      { s with
        csp := s.handles.contexts + 1
        handles := { s.handles with contexts := s.handles.contexts + 1 } } = s' := by
  unfold acquireContext
  split <;> simp_all

/-- The context after a key has been answered. -/
def ClientCtx.answKey (env : Env Os) (c : ClientCtx) (key : ℕ) : ClientCtx :=
  { c.dropKeyMark with key := key }.putBlob (env.csp.simpleBlob key c.dropKeyMark.packet)

/-- The server after a key has been answered. -/
def Server.answKey (env : Env Os) (s : Server) (idx : Slot) : Server where
  gCtxs := Function.update s.gCtxs idx
    ((s.gCtxs idx).answKey env (s.handles.keys.length + 1))
  gAcceptedSocket := s.gAcceptedSocket
  csp := s.handles.contexts + 1
  cPublicKey := some (s.gCtxs idx).dropKeyMark.packet
  handles := { s.handles with
    contexts := s.handles.contexts + 1
    keys := s.handles.keys ++ [(s.gCtxs idx).socket] }

/-- The slot of the packet that is answered. -/
theorem Server.setCtx_answKey_gCtxs_self (env : Env Os) (s : Server) (idx : Slot) (c : ClientCtx) :
    ((s.setCtx idx c).answKey env idx).gCtxs idx = c.answKey env (s.handles.keys.length + 1) := by
  simp [Server.answKey]

/-- When `form_answ_key` gets through: the packet is marked as a key, what follows
the mark is a public-key blob, and the provider has a context and a key to give. -/
structure KeyAccepted (env : Env Os) (ans : Answers Os) (c : ClientCtx) : Prop where
  /-- One of the two `CryptAcquireContext` calls succeeds. -/
  acquired : (ans.acquired || ans.acquiredNew) = true
  /-- The packet begins with the mark. -/
  mark : c.bufRecv.get 0 = 0
  /-- What follows the mark is a public-key blob. -/
  wellFormed : env.csp.wellFormed c.dropKeyMark.packet = true
  /-- `CryptGenKey` succeeds. -/
  generated : ans.generated = true

/-- **`form_answ_key`**: it gets through exactly when the key is accepted, and then
changes the slot's context, the shared key and provider context, and nothing else. -/
theorem formAnswKey_eq_ok_iff {env : Env Os} {ans : Answers Os} {s s' : Server} {idx : Slot} :
    formAnswKey env ans s idx = .ok s' ↔
      KeyAccepted env ans (s.gCtxs idx) ∧ s' = s.answKey env idx := by
  have htest : cryptTest (env.csp.keyOf (s.handles.keys.length + 1)) = some true := by
    rw [Csp.keyOf_of_ne_zero _ (Nat.succ_ne_zero _), cryptTest_some]
  unfold formAnswKey
  simp only [except_bind_eq_ok_iff, acquireContext_eq_ok_iff, require_eq_ok_iff,
    orFault_eq_ok_iff, genKey, beq_iff_eq, Option.map_some, List.length_append,
    List.length_singleton]
  constructor
  · rintro ⟨_, ⟨hacq, rfl⟩, _, hmark, _, himport, _, hgen, _, hblob, _, _, _, _, hret⟩
    rw [Bool.and_eq_true] at himport
    refine ⟨⟨hacq, hmark, himport.2, hgen⟩, ?_⟩
    rw [Option.some.injEq] at hblob
    subst hblob
    exact (Except.ok.inj hret).symm
  · rintro ⟨⟨hacq, hmark, hwf, hgen⟩, rfl⟩
    exact ⟨_, ⟨hacq, rfl⟩, (), hmark, (), by simp [hwf], (), hgen, _, rfl, true, htest, (), rfl,
      rfl⟩

/-- The decrypted `buf_recv`. -/
def ClientCtx.plainBuf (c : ClientCtx) (ks : KeyStream) : Buffer bufSize :=
  c.bufRecv.write 0 (ks.apply c.packet)

/-- What the handler of a request writes, if it gets through. -/
def ClientCtx.written (env : Env Os) (c : ClientCtx) (ks : KeyStream) (t : RequestType)
    (os : Os) : List UInt8 := (env.handler t (c.plainBuf ks) os).getD []

/-- The text of the reply: what the handler writes, up to the first zero. -/
def ClientCtx.replyText (env : Env Os) (c : ClientCtx) (ks : KeyStream) (t : RequestType)
    (os : Os) : List UInt8 := (c.written env ks t os).takeWhile (· != 0)

/-- The context after a request has been answered. -/
@[simps]
def ClientCtx.answMsg (env : Env Os) (c : ClientCtx) (ks : KeyStream) (t : RequestType)
    (os : Os) : ClientCtx :=
  { c with
    szSend := 0
    bufRecv := c.plainBuf ks
    bufSend := ((Buffer.zero bufSize).write 0 (c.written env ks t os)).write 0
      (ks.apply (c.replyText env ks t os))
    szSendTotal := (c.replyText env ks t os).length }

/-- When `msg_handler` gets through: the slot has a key, the packet decrypts to one
of the eight requests, its handler gets through, and the text fits in `buf_send`. -/
structure MsgAccepted (env : Env Os) (c : ClientCtx) (ks : KeyStream) (t : RequestType)
    (os : Os) : Prop where
  /-- The slot has a key. -/
  key : env.csp.keyOf c.key = some ks
  /-- The first decrypted byte is a case label. -/
  request : RequestType.ofByte ((c.plainBuf ks).get 0) = some t
  /-- The handler keeps to its memory. -/
  handled : (env.handler t (c.plainBuf ks) os).isSome
  /-- `CryptEncrypt` has room for the text. -/
  fits : (c.replyText env ks t os).length ≤ bufSize

/-- **`msg_handler`**: it gets through exactly when the request is accepted, and
then changes the slot's context and nothing else. -/
theorem msgHandler_eq_ok_iff {env : Env Os} {ans : Answers Os} {s s' : Server} {idx : Slot} :
    msgHandler env ans s idx = .ok s' ↔
      ∃ ks t, MsgAccepted env (s.gCtxs idx) ks t ans.os ∧
        s' = s.setCtx idx ((s.gCtxs idx).answMsg env ks t ans.os) := by
  have hrange : ∀ {b : UInt8}, (decide (schar b ≤ 8) && decide (1 ≤ schar b)) = true ↔
      (RequestType.ofByte b).isSome := fun {b} => by
    rw [RequestType.ofByte, RequestType.ofInt_isSome_iff]
    simp [and_comm]
  unfold msgHandler
  simp only [except_bind_eq_ok_iff, require_eq_ok_iff, orFault_eq_ok_iff, cryptDecrypt,
    Option.map_eq_some_iff, cryptEncrypt_eq_some_iff]
  constructor
  · rintro ⟨_, ⟨ks, hkey, rfl⟩, _, hin, written, hwritten, _, ⟨ks', hkey', hfit, rfl⟩, hret⟩
    obtain rfl : ks = ks' := Option.some.inj (hkey.symm.trans hkey')
    obtain ⟨t, ht⟩ : ∃ t, RequestType.ofByte (((s.gCtxs idx).plainBuf ks).get 0) = some t :=
      Option.isSome_iff_exists.mp (hrange.mp hin)
    have hhandler : env.handler t ((s.gCtxs idx).plainBuf ks) ans.os = some written := by
      have hcase : (match RequestType.ofByte (((s.gCtxs idx).plainBuf ks).get 0) with
        | some t => env.handler t ((s.gCtxs idx).plainBuf ks) ans.os
        | none => some []) = some written := hwritten
      rwa [ht] at hcase
    have htext : (s.gCtxs idx).written env ks t ans.os = written := by
      rw [ClientCtx.written, hhandler, Option.getD_some]
    refine ⟨ks, t, ⟨hkey, ht, Option.isSome_iff_exists.mpr ⟨written, hhandler⟩, ?_⟩, ?_⟩
    · rw [ClientCtx.replyText, htext]
      exact hfit
    · rw [← Except.ok.inj hret, ClientCtx.answMsg, ClientCtx.replyText, htext]
      rfl
  · rintro ⟨ks, t, ⟨hkey, ht, hhandled, hfit⟩, rfl⟩
    obtain ⟨written, hhandler⟩ := Option.isSome_iff_exists.mp hhandled
    have htext : (s.gCtxs idx).written env ks t ans.os = written := by
      rw [ClientCtx.written, hhandler, Option.getD_some]
    have hwritten : (match RequestType.ofByte (((s.gCtxs idx).plainBuf ks).get 0) with
        | some t => env.handler t ((s.gCtxs idx).plainBuf ks) ans.os
        | none => some []) = some written := by rw [ht, ← hhandler]
    rw [ClientCtx.replyText, htext] at hfit
    refine ⟨_, ⟨ks, hkey, rfl⟩, (), hrange.mpr (Option.isSome_iff_exists.mpr ⟨t, ht⟩), written,
      hwritten, _, ⟨ks, hkey, hfit, rfl⟩, ?_⟩
    rw [ClientCtx.answMsg, ClientCtx.replyText, htext]
    rfl

end Tcp
end BsitLabs
