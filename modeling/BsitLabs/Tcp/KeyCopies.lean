import BsitLabs.Foundation.CopyOrder
import BsitLabs.Tcp.KeyFraming

/-!
# The copies of the key exchange

Both sides move their blob by one within the buffer it stands in, the client and the server
upwards behind a zero, and the server downwards over it, and both do it by `memcpy`.  The two
ranges overlap unless there is one byte at most (`copiesKept_iff`), and the copy of a packet
that fills `buf_recv` reads the byte behind it.

The other modules take each of these copies to be one through a temporary buffer.  Here they
are what a given `memcpy` makes of them (`Client.keyFormationWith` and so on): upwards that is
the same if the last byte comes first, and downwards if the first does, so that no fixed order
is right for both (`packet_ascending`, `imported_descending`).
-/

namespace BsitLabs
namespace Tcp

open MachineInt

/-! ## The copies under a given `memcpy` -/

section With

variable (m : Memcpy)

/-- The branch of `request_formation` for a key, with this `memcpy`. -/
def Client.keyFormationWith (c : Client) : Buffer clientBufSize × ℕ :=
  let buf := c.sendBuf.write 0 c.publicKey
  let buf := buf.memcpy m [] 1 0 c.publicKey.length
  (buf.set 0 0, c.publicKey.length + 1)

/-- What `form_answ_key` does to the packet, with this `memcpy`. -/
def ClientCtx.dropKeyMarkWith (c : ClientCtx) : ClientCtx :=
  { c with
    bufRecv := (c.bufRecv.memcpy m c.bufSend.bytes 0 1 c.szRecv).set (usub c.szRecv 1) 0
    szRecv := usub c.szRecv 1 }

/-- What `form_answ_key` does to the blob that it has exported, with this `memcpy`. -/
def ClientCtx.putBlobWith (c : ClientCtx) (blob : List UInt8) : ClientCtx :=
  { c with
    bufSend := ((c.bufSend.write 0 blob).memcpy m [] 1 0 blob.length).set 0 0
    szSendTotal := uadd blob.length 1 }

end With

/-- An exchange of keys, as far as it goes. -/
structure KeyExchange where
  /-- The client; its `public_key` is what the first `CryptExportKey` exports. -/
  client : Client
  /-- The context of the server in which the packet has been received. -/
  ctx : ClientCtx
  /-- What the server exports to `buf_send`, unless an assertion fails before. -/
  blob : Option (List UInt8)

namespace KeyExchange

/-- `memcpy(send_buf.buf + 1, send_buf.buf, send_buf.len++)`. -/
def clientCopy (publicKey : List UInt8) : CopyCall := ⟨clientBufSize, 1, 0, publicKey.length⟩

/-- `memcpy(buf_recv, buf_recv + 1, sz_recv)`. -/
def recvCopy (ctx : ClientCtx) : CopyCall := ⟨bufSize, 0, 1, ctx.szRecv⟩

/-- `memcpy(buf_send + 1, buf_send, sz_send_total++)`. -/
def sendCopy (blob : List UInt8) : CopyCall := ⟨bufSize, 1, 0, blob.length⟩

variable (e : KeyExchange)

/-- The calls of `memcpy`, in the order in which they are executed. -/
def copies : List CopyCall :=
  clientCopy e.client.publicKey :: recvCopy e.ctx :: (e.blob.map sendCopy).toList

variable (m : Memcpy)

/-- The packet of the client. -/
def packet : List UInt8 :=
  (e.client.keyFormationWith m).1.slice 0 (e.client.keyFormationWith m).2

/-- What the server imports. -/
def imported : List UInt8 := (e.ctx.dropKeyMarkWith m).packet

/-- The packet of the server. -/
def reply : Option (List UInt8) :=
  e.blob.map fun blob => ((e.ctx.dropKeyMarkWith m).putBlobWith m blob).reply

end KeyExchange

/-- Every call of `memcpy` keeps to the rules, and what is sent and imported does not depend on
the order in which it copies. -/
structure CopiesKept (e : KeyExchange) : Prop where
  inside : ∀ c ∈ e.copies, c.Inside
  disjoint : ∀ c ∈ e.copies, c.Disjoint
  packet : e.packet .ascending = e.packet .descending
  imported : e.imported .ascending = e.imported .descending
  reply : e.reply .ascending = e.reply .descending

/-! ## A `memcpy` that is right -/

section Safe

variable {m : Memcpy}

theorem keyFormationWith_eq {c : Client} (hlen : c.publicKey.length < clientBufSize)
    (hsafe : (m.order c.publicKey.length).Pairwise fun i j => 1 + i ≠ 0 + j) :
    c.keyFormationWith m = c.keyFormation := by
  have hcopy := (c.sendBuf.write 0 c.publicKey).memcpy_eq_moveWithin [] (m := m)
    (show 1 + c.publicKey.length ≤ clientBufSize by omega)
    (show 0 + c.publicKey.length ≤ clientBufSize + 0 by omega) hsafe
  unfold Client.keyFormationWith
  dsimp only
  rw [hcopy]
  rfl

theorem dropKeyMarkWith_eq {c : ClientCtx} (hsz : c.szRecv ≤ bufSize)
    (hsafe : (m.order c.szRecv).Pairwise fun i j => 0 + i ≠ 1 + j) :
    c.dropKeyMarkWith m = c.dropKeyMark := by
  have hbuf : bufSize = 512 := rfl
  have hcopy := c.bufRecv.memcpy_eq_moveWithin c.bufSend.bytes (m := m)
    (show 0 + c.szRecv ≤ bufSize by omega)
    (show 1 + c.szRecv ≤ bufSize + c.bufSend.bytes.length by rw [c.bufSend.length_bytes]; omega)
    hsafe
  rw [ClientCtx.dropKeyMarkWith, hcopy]
  rfl

theorem putBlobWith_eq (c : ClientCtx) {blob : List UInt8} (hlen : blob.length < bufSize)
    (hsafe : (m.order blob.length).Pairwise fun i j => 1 + i ≠ 0 + j) :
    c.putBlobWith m blob = c.putBlob blob := by
  have hcopy := (c.bufSend.write 0 blob).memcpy_eq_moveWithin [] (m := m)
    (show 1 + blob.length ≤ bufSize by omega) (show 0 + blob.length ≤ bufSize + 0 by omega) hsafe
  rw [ClientCtx.putBlobWith, hcopy]
  rfl

/-- No byte is read behind another that has been stored to, where there is only one. -/
theorem pairwise_of_le_one {dst src count : ℕ} (h : dst = src + 1 ∨ src = dst + 1)
    (hcount : count ≤ 1) : (m.order count).Pairwise fun i j => dst + i ≠ src + j :=
  CopyCall.pairwise_ne (c := ⟨count, dst, src, count⟩)
    ((CopyCall.disjoint_iff_of_succ h).mpr hcount) fun _ hi => m.mem_order.mp hi

end Safe

/-! ## What the copies need -/

/-- The blobs and the packet are no longer than one byte. -/
structure OneByte (e : KeyExchange) : Prop where
  publicKey : e.client.publicKey.length ≤ 1
  packet : e.ctx.szRecv ≤ 1
  blob : ∀ blob ∈ e.blob, blob.length ≤ 1

/-- The ranges of the copies are one apart. -/
theorem forall_copies_iff (e : KeyExchange) (P : CopyCall → Prop) :
    (∀ c ∈ e.copies, P c) ↔ P (KeyExchange.clientCopy e.client.publicKey) ∧
      P (KeyExchange.recvCopy e.ctx) ∧ ∀ blob ∈ e.blob, P (KeyExchange.sendCopy blob) := by
  rw [KeyExchange.copies, List.forall_mem_cons, List.forall_mem_cons]
  refine and_congr_right' (and_congr_right' ?_)
  cases e.blob <;> simp

theorem oneByte_iff_disjoint (e : KeyExchange) : OneByte e ↔ ∀ c ∈ e.copies, c.Disjoint := by
  rw [forall_copies_iff, KeyExchange.clientCopy, KeyExchange.recvCopy,
    CopyCall.disjoint_iff_of_succ (.inl rfl), CopyCall.disjoint_iff_of_succ (.inr rfl)]
  have hsend : ∀ blob, (KeyExchange.sendCopy blob).Disjoint ↔ blob.length ≤ 1 := fun blob =>
    CopyCall.disjoint_iff_of_succ (.inl rfl)
  simp only [hsend]
  exact ⟨fun ⟨hkey, hpacket, hblob⟩ => ⟨hkey, hpacket, hblob⟩,
    fun ⟨hkey, hpacket, hblob⟩ => ⟨hkey, hpacket, hblob⟩⟩

/-- What lies inside: a blob that leaves room for the zero, and a packet that does not fill
`buf_recv`. -/
theorem inside_iff (e : KeyExchange) :
    (∀ c ∈ e.copies, c.Inside) ↔ e.client.publicKey.length < clientBufSize ∧
      e.ctx.szRecv < bufSize ∧ ∀ blob ∈ e.blob, blob.length < bufSize := by
  rw [forall_copies_iff]
  unfold KeyExchange.clientCopy KeyExchange.recvCopy KeyExchange.sendCopy CopyCall.Inside
  refine and_congr (by dsimp only; omega) (and_congr (by dsimp only; omega) ?_)
  exact forall₂_congr fun blob _ => by dsimp only; omega

namespace OneByte

variable {e : KeyExchange} (h : OneByte e) (m : Memcpy)

include h

theorem keyFormationWith : e.client.keyFormationWith m = e.client.keyFormation :=
  keyFormationWith_eq (h.publicKey.trans_lt (by decide)) (pairwise_of_le_one (.inl rfl) h.publicKey)

theorem dropKeyMarkWith : e.ctx.dropKeyMarkWith m = e.ctx.dropKeyMark :=
  dropKeyMarkWith_eq (h.packet.trans (by decide)) (pairwise_of_le_one (.inr rfl) h.packet)

theorem putBlobWith (c : ClientCtx) {blob : List UInt8} (hblob : blob ∈ e.blob) :
    c.putBlobWith m blob = c.putBlob blob :=
  putBlobWith_eq c ((h.blob blob hblob).trans_lt (by decide))
    (pairwise_of_le_one (.inl rfl) (h.blob blob hblob))

/-- Whatever the `memcpy`, the exchange is the one of the model. -/
theorem exchange_eq :
    e.packet m = e.client.keyFormation.1.slice 0 e.client.keyFormation.2 ∧
      e.imported m = e.ctx.dropKeyMark.packet ∧
      e.reply m = e.blob.map fun blob => (e.ctx.dropKeyMark.putBlob blob).reply := by
  refine ⟨?_, ?_, ?_⟩
  · rw [KeyExchange.packet, h.keyFormationWith]
  · rw [KeyExchange.imported, h.dropKeyMarkWith]
  · rw [KeyExchange.reply, h.dropKeyMarkWith]
    refine Option.map_congr fun blob hblob => ?_
    rw [h.putBlobWith m _ hblob]

end OneByte

/-- **When the copies keep to the rules of `memcpy`**: if the public key, the packet and the
session key have one byte at most. -/
theorem copiesKept_iff (e : KeyExchange) : CopiesKept e ↔ OneByte e := by
  constructor
  · intro h
    exact (oneByte_iff_disjoint e).mpr h.disjoint
  · intro h
    obtain ⟨hpacket, himported, hreply⟩ := h.exchange_eq .ascending
    obtain ⟨hpacket', himported', hreply'⟩ := h.exchange_eq .descending
    refine ⟨(inside_iff e).mpr ⟨?_, ?_, ?_⟩, (oneByte_iff_disjoint e).mp h,
      hpacket.trans hpacket'.symm, himported.trans himported'.symm, hreply.trans hreply'.symm⟩
    · exact h.publicKey.trans_lt (by decide)
    · exact h.packet.trans_lt (by decide)
    · exact fun blob hblob => (h.blob blob hblob).trans_lt (by decide)

/-- The exchange of a client whose public key has 148 bytes. -/
def ordinaryExchange : KeyExchange where
  client := ⟨Buffer.zero clientBufSize, List.replicate 148 6, none, none, []⟩
  ctx := { ClientCtx.zero with szRecv := 149 }
  blob := some (List.replicate 140 1)

theorem ordinaryExchange_not_kept : ¬ CopiesKept ordinaryExchange := by
  intro h
  have hdisjoint := h.disjoint (KeyExchange.recvCopy ordinaryExchange.ctx)
    (List.mem_cons_of_mem _ List.mem_cons_self)
  revert hdisjoint
  decide

/-! ## A `memcpy` that is wrong -/

/-- If the last byte comes first, the client's packet is the one of the model. -/
theorem packet_descending {e : KeyExchange} (h : e.client.publicKey.length < clientBufSize) :
    e.packet .descending = e.client.keyFormation.1.slice 0 e.client.keyFormation.2 := by
  rw [KeyExchange.packet, keyFormationWith_eq h (Memcpy.pairwise_descending (by omega) _)]

/-- If the first byte comes first, so is what the server imports. -/
theorem imported_ascending {e : KeyExchange} (h : e.ctx.szRecv ≤ bufSize) :
    e.imported .ascending = e.ctx.dropKeyMark.packet := by
  rw [KeyExchange.imported, dropKeyMarkWith_eq h (Memcpy.pairwise_ascending (by omega) _)]

/-- If the first byte comes first, the client's packet has nothing but the first byte of the
key. -/
theorem packet_ascending {e : KeyExchange} {b : UInt8} {rest : List UInt8}
    (hkey : e.client.publicKey = b :: rest) (h : e.client.publicKey.length < clientBufSize) :
    e.packet .ascending = 0 :: List.replicate e.client.publicKey.length b := by
  have hbuf : clientBufSize = 1024 := rfl
  have hfirst : (e.client.sendBuf.write 0 e.client.publicKey).get 0 = b := by
    rw [hkey]
    exact Buffer.get_zero_write_cons _ (by decide) b rest
  have hpacket : e.packet .ascending =
      ((((e.client.sendBuf.write 0 e.client.publicKey).memcpy .ascending [] 1 0
        e.client.publicKey.length).set 0 0).slice 0 (e.client.publicKey.length + 1)) := rfl
  rw [hpacket, Buffer.slice_succ _ (by decide), Buffer.get_set _ (by decide), if_pos rfl,
    Buffer.slice_set_of_lt _ Nat.one_pos, Buffer.slice_eq_replicate _ (by omega)]
  intro p _ hlt
  rw [Buffer.get_memcpy_ascending_up _ _ h, if_pos (by omega), hfirst]

/-- If the last byte comes first, the server imports nothing but the byte behind the packet. -/
theorem imported_descending {e : KeyExchange} (hpos : 0 < e.ctx.szRecv)
    (h : e.ctx.szRecv ≤ bufSize) :
    e.imported .descending = List.replicate (e.ctx.szRecv - 1)
      (e.ctx.bufRecv.read e.ctx.bufSend.bytes e.ctx.szRecv) := by
  have hbuf : bufSize = 512 := rfl
  have hsz : usub e.ctx.szRecv 1 = e.ctx.szRecv - 1 := usub_eq hpos (by omega)
  have himported : e.imported .descending =
      ((e.ctx.bufRecv.memcpy .descending e.ctx.bufSend.bytes 0 1 e.ctx.szRecv).set
        (usub e.ctx.szRecv 1) 0).slice 0 (usub e.ctx.szRecv 1) := rfl
  rw [himported, hsz, Buffer.slice_set_of_le _ (by omega), Buffer.slice_eq_replicate _ (by omega)]
  intro p _ hlt
  rw [Buffer.get_memcpy_descending_down _ _ h, if_pos (by omega)]

end Tcp
end BsitLabs
