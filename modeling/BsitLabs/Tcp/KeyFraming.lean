import BsitLabs.Tcp.Client
import BsitLabs.Tcp.CompletionPort
import BsitLabs.Tcp.Packets

/-!
# The framing of the key exchange

A key packet and the reply to it are a blob behind a zero.  Each side moves the blob
up or down by one in the buffer it stands in and changes the length in the same
expression, so that the byte in front is counted once, or not at all, or twice.  This
file follows both blobs from the buffer they are exported to into the call that imports
them: content and length are those of the blob, for every blob that fits behind its
zero, whatever the buffers held before.

On the client's side the received bytes stand in `recv_buf`, whose `len` is what the
call of `recv` returned; `importData` is the argument of `CryptImportKey` in `set_key`,
and agrees with what `Client.setKey` imports.
-/

namespace BsitLabs
namespace Tcp

open MachineInt

/-- `recv_buf`. -/
structure RecvBuf where
  /-- The bytes. -/
  buf : Buffer clientBufSize
  /-- What `recv` returned. -/
  len : ℕ

/-- `recv_request`. -/
def RecvBuf.recvRequest (r : RecvBuf) (data : List UInt8) : RecvBuf :=
  ⟨r.buf.write 0 data, data.length⟩

/-- The data and the length that `set_key` gives to `CryptImportKey`: `recv_buf.buf + 1`
and `recv_buf.len - 1`. -/
def RecvBuf.importData (r : RecvBuf) : List UInt8 × ℕ :=
  (r.buf.slice 1 (usub r.len 1), usub r.len 1)

/-- A packet has been received whole into a context that has nothing received. -/
def ClientCtx.takeIn (c : ClientCtx) (packet : List UInt8) : ClientCtx :=
  { c with bufRecv := c.bufRecv.write 0 packet }.count packet.length

/-- This is what a receive leaves. -/
theorem takeIn_eq_count (w : World Os) (i : Slot) (packet : List UInt8) :
    (w.srv.gCtxs i).takeIn packet =
      (((w.store i 0 packet).srv).gCtxs i).count packet.length := by
  simp [ClientCtx.takeIn, World.store]

theorem holds_takeIn {c : ClientCtx} (hsz : c.szRecv = 0) {packet : List UInt8}
    (hne : packet ≠ []) (hfits : packet.length ≤ bufSize) : Holds (c.takeIn packet) packet :=
  holds_received hsz hne hfits (Buffer.slice_write _ rfl (by omega))

/-- What the client imports is what follows the first byte of what it has received. -/
theorem importData_recvRequest (r : RecvBuf) {b : UInt8} {blob : List UInt8}
    (hfits : blob.length < clientBufSize) :
    (r.recvRequest (b :: blob)).importData = (blob, blob.length) := by
  have hbuf : clientBufSize = 1024 := rfl
  have hlen : usub (b :: blob).length 1 = blob.length := by
    rw [List.length_cons, usub_eq (by omega) (by omega), Nat.add_sub_cancel]
  have hwhole : (r.buf.write 0 (b :: blob)).slice 0 (b :: blob).length = b :: blob :=
    Buffer.slice_write _ rfl (by rw [List.length_cons]; omega)
  rw [List.length_cons, Buffer.slice_succ _ (by omega)] at hwhole
  simp only [RecvBuf.importData, RecvBuf.recvRequest, hlen, (List.cons.inj hwhole).2]

/-- The way of a public key: packed, received whole, moved back. -/
structure PublicKeyFramed (client : Client) (c : ClientCtx) : Prop where
  /-- The packet is a zero and the blob. -/
  packet : client.requestFormation = some (0 :: client.publicKey)
  /-- Its length is one more than the blob's. -/
  length : client.keyFormation.2 = client.publicKey.length + 1
  /-- The server counts all of it. -/
  counted : (c.takeIn (0 :: client.publicKey)).szRecv = client.publicKey.length + 1
  /-- `CryptImportKey` is given the blob -/
  imported : (c.takeIn (0 :: client.publicKey)).dropKeyMark.packet = client.publicKey
  /-- and its length. -/
  size : (c.takeIn (0 :: client.publicKey)).dropKeyMark.szRecv = client.publicKey.length
  /-- What `form_answ_key` leaves as the client's public key is the blob. -/
  known : ∀ {Os : Type} (env : Env Os) (ans : Answers Os) (s s' : Server) (idx : Slot),
    s.gCtxs idx = c.takeIn (0 :: client.publicKey) → formAnswKey env ans s idx = .ok s' →
      s'.cPublicKey = some client.publicKey

/-- The way of a session key: exported, moved up, received whole, stripped. -/
structure SessionKeyFramed (c : ClientCtx) (r : RecvBuf) (blob : List UInt8) : Prop where
  /-- The reply is a zero and the blob. -/
  reply : (c.putBlob blob).reply = 0 :: blob
  /-- Its length is one more than the blob's. -/
  total : (c.putBlob blob).szSendTotal = blob.length + 1
  /-- `CryptImportKey` is given the blob and its length. -/
  imported : (r.recvRequest (c.putBlob blob).reply).importData = (blob, blob.length)
  /-- This is what `set_key` opens. -/
  opened : ∀ (csp : Csp) (client : Client),
    client.setKey csp (c.putBlob blob).reply = csp.openBlob client.publicKey blob

theorem publicKeyFramed (client : Client) {c : ClientCtx} (htype : client.requestType = none)
    (hsz : c.szRecv = 0) (hfits : client.publicKey.length < bufSize) :
    PublicKeyFramed client c := by
  have hbuf : bufSize = 512 := rfl
  have hclient : clientBufSize = 1024 := rfl
  have hholds : Holds (c.takeIn (0 :: client.publicKey)) (0 :: client.publicKey) :=
    holds_takeIn hsz (List.cons_ne_nil _ _) (by rw [List.length_cons]; omega)
  have hcounted : (c.takeIn (0 :: client.publicKey)).szRecv = client.publicKey.length + 1 := by
    rw [hholds.size, List.length_cons]
  refine ⟨Client.requestFormation_key htype (by omega), rfl, hcounted,
    hholds.dropKeyMark_packet, ?_, fun env ans s s' idx hctx hok => ?_⟩
  · rw [ClientCtx.dropKeyMark_szRecv, hcounted, usub_eq (by omega) (by omega),
      Nat.add_sub_cancel]
  · obtain ⟨_, rfl⟩ := formAnswKey_eq_ok_iff.mp hok
    simp only [Server.answKey, hctx, hholds.dropKeyMark_packet]

theorem sessionKeyFramed (c : ClientCtx) (r : RecvBuf) {blob : List UInt8}
    (hfits : blob.length < bufSize) : SessionKeyFramed c r blob := by
  have hbuf : bufSize = 512 := rfl
  have hclient : clientBufSize = 1024 := rfl
  obtain ⟨hreply, htotal⟩ := putBlob_reply c hfits
  refine ⟨hreply, htotal, ?_, fun csp client => ?_⟩
  · rw [hreply]
    exact importData_recvRequest r (by omega)
  · rw [hreply]
    rfl

/-- **What `form_answ_key` leaves is framed**: the blob of the session key behind a zero, for the
public key that has come, and the client's `CryptImportKey` is given that blob. -/
theorem framed_of_formAnswKey {Os : Type} {env : Env Os} {ans : Answers Os} {s s' : Server}
    {idx : Slot} {c : ClientCtx} {pub : List UInt8} (hsz : c.szRecv = 0)
    (hpub : pub.length < bufSize) (hctx : s.gCtxs idx = c.takeIn (0 :: pub))
    (hblob : (env.csp.simpleBlob (s.handles.keys.length + 1) pub).length < bufSize)
    (hok : formAnswKey env ans s idx = .ok s') :
    s'.cPublicKey = some pub ∧
      (s'.gCtxs idx).reply = 0 :: env.csp.simpleBlob (s.handles.keys.length + 1) pub ∧
      ∀ r : RecvBuf, (r.recvRequest (s'.gCtxs idx).reply).importData =
        (env.csp.simpleBlob (s.handles.keys.length + 1) pub,
          (env.csp.simpleBlob (s.handles.keys.length + 1) pub).length) := by
  obtain ⟨_, rfl⟩ := formAnswKey_eq_ok_iff.mp hok
  have hholds : Holds (s.gCtxs idx) (0 :: pub) := by
    rw [hctx]
    exact holds_takeIn hsz (List.cons_ne_nil _ _) hpub
  have hreply : ((s.answKey env idx).gCtxs idx).reply =
      0 :: env.csp.simpleBlob (s.handles.keys.length + 1) pub := by
    rw [show (s.answKey env idx).gCtxs idx = (s.gCtxs idx).answKey env _ from
      Server.setCtx_gCtxs_self _ _ _]
    exact (hholds.answKey_reply hblob).1
  refine ⟨congrArg some hholds.dropKeyMark_packet, hreply, fun r => ?_⟩
  rw [hreply]
  exact importData_recvRequest r (hblob.trans (by decide))

/-- **Both blobs arrive as they were exported**, with their lengths: a public key of up
to 511 bytes in the server's `CryptImportKey`, and a session key of up to 511 bytes in
the client's. -/
theorem keyFraming (client : Client) (c : ClientCtx) (r : RecvBuf) (blob : List UInt8)
    (htype : client.requestType = none) (hsz : c.szRecv = 0)
    (hpublic : 1 ≤ client.publicKey.length ∧ client.publicKey.length ≤ 511)
    (hblob : 1 ≤ blob.length ∧ blob.length ≤ 511) :
    PublicKeyFramed client c ∧
      SessionKeyFramed (c.takeIn (0 :: client.publicKey)).dropKeyMark r blob := by
  have hbuf : bufSize = 512 := rfl
  exact ⟨publicKeyFramed client htype hsz (by omega), sessionKeyFramed _ r (by omega)⟩

theorem keyFraming_sample :
    PublicKeyFramed ⟨Buffer.zero clientBufSize, [6, 7], none, none, []⟩ ClientCtx.zero ∧
      SessionKeyFramed (ClientCtx.zero.takeIn [0, 6, 7]).dropKeyMark ⟨Buffer.zero _, 0⟩ [1, 2] :=
  keyFraming ⟨Buffer.zero clientBufSize, [6, 7], none, none, []⟩ ClientCtx.zero
    ⟨Buffer.zero _, 0⟩ [1, 2] rfl rfl (by decide) (by decide)

end Tcp
end BsitLabs
