import BsitLabs.Foundation.ByteBuffer
import BsitLabs.Tcp.Context

/-!
# The client

`Client.cpp` as functions of the fields it works on.  `request_type` is zero for the
key packet and the number of a request otherwise, which is `Option RequestType`
here; `request_arg` is kept as the text up to its terminating zero, which is all
that `strlen` and `memcpy` see of it.

`send_request` loops until all of `send_buf` has gone, so a packet leaves whole;
`recv_request` is a single `recv`.
-/

namespace BsitLabs
namespace Tcp

/-- The size of the client's buffers. -/
def clientBufSize : ℕ := 1024

/-- The size of `request_arg`. -/
def requestArgSize : ℕ := 128

/-- The fields of `Client` that its packets depend on. -/
structure Client where
  /-- What `send_buf` holds before the packet is formed. -/
  sendBuf : Buffer clientBufSize
  /-- The `PUBLICKEYBLOB` of `key_pair`. -/
  publicKey : List UInt8
  /-- `session_key`. -/
  sessionKey : Option KeyStream
  /-- `request_type`; zero, before the first question, is `none`. -/
  requestType : Option RequestType
  /-- `request_arg`, up to its terminating zero. -/
  requestArg : List UInt8

/-- Whether a request carries a path. -/
def RequestType.takesPath : RequestType → Bool
  | .accessRight | .owner => true
  | _ => false

namespace Client

/-- The key packet: the exported blob, moved up by one, behind a zero. -/
def keyFormation (c : Client) : Buffer clientBufSize × ℕ :=
  let buf := c.sendBuf.write 0 c.publicKey
  let buf := buf.moveWithin [] 1 0 c.publicKey.length
  (buf.set 0 0, c.publicKey.length + 1)

/-- The plain request: its type, and for the last two the length of the path and the
path. -/
def plainFormation (c : Client) (t : RequestType) : Buffer clientBufSize × ℕ :=
  let buf := (Buffer.zero clientBufSize).set 0 t.code
  let len := 1
  if t.takesPath then
    let buf := buf.write 2 c.requestArg
    let len := len + c.requestArg.length
    (buf.set 1 (UInt8.ofNat c.requestArg.length), len + 1)
  else (buf, len)

/-- `request_formation`: the packet left in `send_buf`.  `none` is the assertion on
`CryptEncrypt`. -/
def requestFormation (c : Client) : Option (List UInt8) :=
  match c.requestType with
  | none => some (c.keyFormation.1.slice 0 c.keyFormation.2)
  | some t =>
    cryptEncrypt c.sessionKey ((c.plainFormation t).1.slice 0 (c.plainFormation t).2)
      clientBufSize

/-- `set_key`: the first byte of what was received is skipped, the rest imported.
`none` is the assertion on `CryptImportKey`. -/
def setKey (csp : Csp) (c : Client) (recvBuf : List UInt8) : Option KeyStream :=
  csp.openBlob c.publicKey (recvBuf.drop 1)

/-- `decrypt_msg`: the text printed.  `none` is the assertion on `CryptDecrypt`. -/
def decryptMsg (c : Client) (recvBuf : List UInt8) : Option (List UInt8) :=
  cryptDecrypt c.sessionKey recvBuf

end Client

/-! ## The packets -/

/-- The plaintext of a request. -/
def RequestType.plain (t : RequestType) (arg : List UInt8) : List UInt8 :=
  t.code :: if t.takesPath then UInt8.ofNat arg.length :: arg else []

theorem RequestType.plain_ne_nil (t : RequestType) (arg : List UInt8) : t.plain arg ≠ [] :=
  List.cons_ne_nil _ _

theorem RequestType.length_plain_le (t : RequestType) (arg : List UInt8) :
    (t.plain arg).length ≤ arg.length + 2 := by
  unfold RequestType.plain
  split <;> simp

namespace Client

variable {c : Client}

/-- The key packet is a zero and the public-key blob. -/
theorem requestFormation_key (ht : c.requestType = none)
    (hlen : c.publicKey.length < clientBufSize) : c.requestFormation = some (0 :: c.publicKey) := by
  have hbuf : clientBufSize = 1024 := rfl
  rw [requestFormation, ht]
  simp only [keyFormation, Option.some.injEq]
  rw [Buffer.slice_succ _ (by omega), Buffer.get_set _ (by omega), if_pos rfl,
    Buffer.slice_set_of_lt _ (by omega), Buffer.slice_moveWithin_up _ _ hlen,
    Buffer.slice_write _ rfl (by omega)]

/-- The plain request of a client stands at the start of `send_buf`. -/
theorem slice_plainFormation (t : RequestType) (hlen : c.requestArg.length < requestArgSize) :
    (c.plainFormation t).1.slice 0 (c.plainFormation t).2 = t.plain c.requestArg := by
  have hbuf : clientBufSize = 1024 := rfl
  have harg : requestArgSize = 128 := rfl
  cases hpath : t.takesPath with
  | false =>
    simp only [plainFormation, RequestType.plain, hpath, Bool.false_eq_true, if_false]
    rw [Buffer.slice_succ _ (by omega), Buffer.get_set _ (by omega), if_pos rfl,
      Buffer.slice_count_zero]
  | true =>
    simp only [plainFormation, RequestType.plain, hpath, if_true]
    rw [show 1 + c.requestArg.length + 1 = c.requestArg.length + 1 + 1 by omega,
      Buffer.slice_succ _ (by omega), Buffer.slice_succ _ (by omega), Buffer.get_set _ (by omega),
      if_neg (by omega), Buffer.get_write _ (by omega), if_neg (by omega),
      Buffer.get_set _ (by omega), if_pos rfl, Buffer.get_set _ (by omega), if_pos rfl,
      Buffer.slice_set_of_lt _ (by omega), Buffer.slice_write _ rfl (by omega)]

/-- A request packet is the plain request, enciphered. -/
theorem requestFormation_request {t : RequestType} {ks : KeyStream}
    (ht : c.requestType = some t) (hkey : c.sessionKey = some ks)
    (hlen : c.requestArg.length < requestArgSize) :
    c.requestFormation = some (ks.apply (t.plain c.requestArg)) := by
  have hfits := t.length_plain_le c.requestArg
  have hbuf : clientBufSize = 1024 := rfl
  have harg : requestArgSize = 128 := rfl
  simp only [requestFormation, ht]
  rw [slice_plainFormation t hlen, hkey]
  exact cryptEncrypt_some ks (by omega)

/-- No packet is empty. -/
theorem requestFormation_ne_nil {packet : List UInt8} (h : c.requestFormation = some packet) :
    packet ≠ [] := by
  have hbuf : 0 < clientBufSize := by decide
  cases htype : c.requestType with
  | none =>
    rw [requestFormation, htype] at h
    obtain rfl := Option.some.inj h
    rw [show c.keyFormation.2 = c.publicKey.length + 1 from rfl, Buffer.slice_succ _ hbuf]
    exact List.cons_ne_nil _ _
  | some t =>
    have hlen : ∃ k, (c.plainFormation t).2 = k + 1 := by
      unfold plainFormation
      split
      · exact ⟨_, rfl⟩
      · exact ⟨0, rfl⟩
    obtain ⟨k, hk⟩ := hlen
    simp only [requestFormation, htype] at h
    obtain ⟨ks, _, _, rfl⟩ := cryptEncrypt_eq_some_iff.mp h
    rw [ne_eq, ks.apply_eq_nil_iff, hk, Buffer.slice_succ _ hbuf]
    exact List.cons_ne_nil _ _

end Client
end Tcp
end BsitLabs
