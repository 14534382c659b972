import BsitLabs.Foundation.ByteBuffer
import BsitLabs.Foundation.MachineInt
import BsitLabs.Tcp.Csp
import Mathlib.Logic.Function.Basic

/-!
# The server's data: `client_ctx` and the class fields

The fields keep the source's names.  A socket is the number of the `WSASocket`
call that made it, counted from one, so that zero is what the source tests for
"free"; the code never looks at a socket handle otherwise.  The three `OVERLAPPED`
blocks of a context only serve to tell completions apart and appear in
`CompletionPort`; `flags_recv` is never read.

Two things are kept beside the fields because the properties are about them: what
the operating system has handed out (`Handles`), and which slot holds which
context (`gCtxs`, an array of `max_clients + 1` contexts, the listener at index
zero).
-/

namespace BsitLabs
namespace Tcp

/-- `max_clients`. -/
def maxClients : ℕ := 100

/-- The size of `buf_recv` and of `buf_send`. -/
def bufSize : ℕ := 512

/-- An index of `g_ctxs`. -/
abbrev Slot := Fin (maxClients + 1)

/-- There is a slot zero, the listener's. -/
instance (priority := high) slotNeZero : @NeZero ℕ Zero.ofOfNat0 (maxClients + 1) :=
  ⟨Nat.succ_ne_zero maxClients⟩

/-- The eight requests of `msg_handler`'s switch. -/
inductive RequestType where
  | osVersion
  | currentTime
  | osTime
  | memoryStatus
  | disksTypes
  | freeSpace
  | accessRight
  | owner
  deriving DecidableEq, Repr

namespace RequestType

/-- The case label of a request. -/
def code : RequestType → UInt8
  | osVersion => 1
  | currentTime => 2
  | osTime => 3
  | memoryStatus => 4
  | disksTypes => 5
  | freeSpace => 6
  | accessRight => 7
  | owner => 8

/-- The case taken for a value of `request_type`. -/
def ofInt : ℤ → Option RequestType
  | 1 => some osVersion
  | 2 => some currentTime
  | 3 => some osTime
  | 4 => some memoryStatus
  | 5 => some disksTypes
  | 6 => some freeSpace
  | 7 => some accessRight
  | 8 => some owner
  | _ => none

/-- The request whose first decrypted byte is `b`. -/
def ofByte (b : UInt8) : Option RequestType := ofInt (MachineInt.schar b)

/-- A case is taken exactly for its label. -/
theorem ofInt_eq_some_iff {k : ℤ} {t : RequestType} : ofInt k = some t ↔ k = t.code.toNat := by
  constructor
  · intro h
    unfold ofInt at h
    split at h
    all_goals first | cases h; rfl | exact absurd h (by simp)
  · rintro rfl
    cases t <;> rfl

theorem ofInt_isSome_iff {k : ℤ} : (ofInt k).isSome ↔ 1 ≤ k ∧ k ≤ 8 := by
  constructor
  · intro h
    obtain ⟨t, ht⟩ := Option.isSome_iff_exists.mp h
    rw [ofInt_eq_some_iff.mp ht]
    cases t <;> decide
  · rintro ⟨h1, h8⟩
    obtain rfl | rfl | rfl | rfl | rfl | rfl | rfl | rfl :
        k = 1 ∨ k = 2 ∨ k = 3 ∨ k = 4 ∨ k = 5 ∨ k = 6 ∨ k = 7 ∨ k = 8 := by omega
    all_goals rfl

/-- Only the case label, read as a signed `char`, selects a request. -/
theorem ofByte_eq_some_iff {b : UInt8} {t : RequestType} : ofByte b = some t ↔ b = t.code := by
  have hcode : t.code.toNat < 128 := by cases t <;> decide
  rw [ofByte, ofInt_eq_some_iff, MachineInt.schar_eq_iff hcode, UInt8.toNat_inj]

/-- The case label of a request selects that request. -/
@[simp] theorem ofByte_code (t : RequestType) : ofByte t.code = some t :=
  ofByte_eq_some_iff.mpr rfl

theorem code_injective : Function.Injective code := fun a b h => by
  have hab : ofByte a.code = ofByte b.code := by rw [h]
  simpa using hab

end RequestType

/-! ## One context -/

/-- `client_ctx`. -/
structure ClientCtx where
  /-- The connection's socket; zero when the slot is free. -/
  socket : ℕ
  /-- Receive buffer. -/
  bufRecv : Buffer bufSize
  /-- Send buffer. -/
  bufSend : Buffer bufSize
  /-- Bytes received. -/
  szRecv : ℕ
  /-- Bytes in the send buffer. -/
  szSendTotal : ℕ
  /-- Bytes of them already sent. -/
  szSend : ℕ
  /-- The key this client is written to under. -/
  key : ℕ

/-- `memset(&g_ctxs[i], 0, sizeof(g_ctxs[i]))`. -/
def ClientCtx.zero : ClientCtx where
  socket := 0
  bufRecv := Buffer.zero bufSize
  bufSend := Buffer.zero bufSize
  szRecv := 0
  szSendTotal := 0
  szSend := 0
  key := 0

/-- The packet a context holds: what has been received into `buf_recv`. -/
def ClientCtx.packet (c : ClientCtx) : List UInt8 := c.bufRecv.slice 0 c.szRecv

/-- The reply a context holds: what stands in `buf_send` to be sent. -/
def ClientCtx.reply (c : ClientCtx) : List UInt8 := c.bufSend.slice 0 c.szSendTotal

/-! ## The server -/

/-- What the operating system has handed out and taken back. -/
structure Handles where
  /-- Number of `CryptAcquireContext` calls that succeeded. -/
  contexts : ℕ
  /-- Number of sockets made; the latest socket is this number. -/
  sockets : ℕ
  /-- One entry for each `CryptGenKey` call: the connection it was made for.  The
  handle is the position of the entry, counted from one. -/
  keys : List ℕ
  /-- The arguments of the `closesocket` calls. -/
  closed : List ℕ
  /-- The arguments of the `CryptDestroyKey` calls. -/
  destroyed : List ℕ

/-- The fields of `Server` that its loop reads and writes. -/
structure Server where
  /-- `g_ctxs`. -/
  gCtxs : Slot → ClientCtx
  /-- `g_accepted_socket`: the socket made for the accept under way. -/
  gAcceptedSocket : ℕ
  /-- `csp`: the latest provider context. -/
  csp : ℕ
  /-- `c_public_key`: the latest imported public key, shared by all clients. -/
  cPublicKey : Option (List UInt8)
  /-- What the operating system has handed out. -/
  handles : Handles

namespace Server

/-- Replace the context of a slot. -/
def setCtx (s : Server) (idx : Slot) (c : ClientCtx) : Server :=
  { s with gCtxs := Function.update s.gCtxs idx c }

@[simp] theorem setCtx_gCtxs_self (s : Server) (idx : Slot) (c : ClientCtx) :
    (s.setCtx idx c).gCtxs idx = c := by simp [setCtx]

theorem setCtx_gCtxs_of_ne (s : Server) {idx j : Slot} (h : j ≠ idx) (c : ClientCtx) :
    (s.setCtx idx c).gCtxs j = s.gCtxs j := by simp [setCtx, h]

@[simp] theorem setCtx_gAcceptedSocket (s : Server) (idx : Slot) (c : ClientCtx) :
    (s.setCtx idx c).gAcceptedSocket = s.gAcceptedSocket := rfl

@[simp] theorem setCtx_csp (s : Server) (idx : Slot) (c : ClientCtx) :
    (s.setCtx idx c).csp = s.csp := rfl

@[simp] theorem setCtx_cPublicKey (s : Server) (idx : Slot) (c : ClientCtx) :
    (s.setCtx idx c).cPublicKey = s.cPublicKey := rfl

@[simp] theorem setCtx_handles (s : Server) (idx : Slot) (c : ClientCtx) :
    (s.setCtx idx c).handles = s.handles := rfl

@[simp] theorem setCtx_setCtx (s : Server) (idx : Slot) (c d : ClientCtx) :
    (s.setCtx idx c).setCtx idx d = s.setCtx idx d := by simp [setCtx]

end Server
end Tcp
end BsitLabs
