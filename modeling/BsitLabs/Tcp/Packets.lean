import BsitLabs.Tcp.Handlers

/-!
# The handlers in terms of packets

The handlers work on buffers and offsets.  What they compute is simpler: a key
packet `0 :: pub` is answered by `0 :: blob`, and a request by the text of its
handler, enciphered.  This file says so, for a context that holds a packet
(`Holds`), which is what every receive leaves.
-/

namespace BsitLabs
namespace Tcp

open MachineInt

variable {Os : Type} {env : Env Os} {ans : Answers Os} {c : ClientCtx} {packet : List UInt8}

/-- The context holds this packet, and nothing behind it has been counted in. -/
structure Holds (c : ClientCtx) (packet : List UInt8) : Prop where
  nonempty : packet ≠ []
  fits : packet.length ≤ bufSize
  size : c.szRecv = packet.length
  bytes : c.bufRecv.slice 0 packet.length = packet

/-- What a receive at `sz_recv = 0` leaves. -/
theorem holds_received {data : List UInt8} (hsz : c.szRecv = 0) (hne : data ≠ [])
    (hlen : data.length ≤ bufSize) (hbytes : c.bufRecv.slice 0 data.length = data) :
    Holds (c.count data.length) data where
  nonempty := hne
  fits := hlen
  size := by
    have hbuf : bufSize = 512 := rfl
    rw [ClientCtx.count_szRecv, hsz, uadd_eq (by omega), Nat.zero_add]
  bytes := hbytes

/-- An exported blob goes out behind a zero. -/
theorem putBlob_reply (c : ClientCtx) {blob : List UInt8} (hfits : blob.length < bufSize) :
    (c.putBlob blob).reply = 0 :: blob ∧ (c.putBlob blob).szSendTotal = blob.length + 1 := by
  have hbuf : bufSize = 512 := rfl
  have htotal : (c.putBlob blob).szSendTotal = blob.length + 1 := by
    rw [ClientCtx.putBlob_szSendTotal, uadd_eq (by omega)]
  refine ⟨?_, htotal⟩
  rw [ClientCtx.reply, htotal, ClientCtx.putBlob_bufSend, Buffer.slice_succ _ (by omega),
    Buffer.get_set _ (by omega), if_pos rfl, Buffer.slice_set_of_lt _ (by omega),
    Buffer.slice_moveWithin_up _ _ (by omega), Buffer.slice_write _ rfl (by omega)]

namespace Holds

theorem packet_eq (h : Holds c packet) : c.packet = packet := by
  rw [ClientCtx.packet, h.size, h.bytes]

theorem length_pos (h : Holds c packet) : 0 < packet.length :=
  List.length_pos_iff.mpr h.nonempty

/-- `buf_recv[0]` is the packet's first byte. -/
theorem head? (h : Holds c packet) : packet.head? = some (c.bufRecv.get 0) := by
  rw [← h.bytes]
  exact c.bufRecv.head?_slice_zero (by decide) h.length_pos

theorem get_zero {b : UInt8} {rest : List UInt8} (h : Holds c (b :: rest)) :
    c.bufRecv.get 0 = b := (Option.some.inj h.head?).symm

/-- `form_answ_key` drops the first byte of the packet. -/
theorem dropKeyMark_packet {b : UInt8} {rest : List UInt8} (h : Holds c (b :: rest)) :
    c.dropKeyMark.packet = rest := by
  have hfits := h.fits
  have hsize := h.size
  have hbuf : bufSize = 512 := rfl
  rw [List.length_cons] at hfits hsize
  have hsz : c.dropKeyMark.szRecv = rest.length := by
    rw [ClientCtx.dropKeyMark_szRecv, hsize, usub_eq (by omega) (by omega),
      Nat.add_sub_cancel]
  have htail : c.bufRecv.slice 1 rest.length = rest := by
    have hbytes := h.bytes
    rw [List.length_cons, c.bufRecv.slice_succ (by omega)] at hbytes
    exact (List.cons.inj hbytes).2
  have hlast : usub c.szRecv 1 = rest.length := hsz
  rw [ClientCtx.packet, hsz, ClientCtx.dropKeyMark_bufRecv, hlast,
    Buffer.slice_set_of_le _ (by omega), c.bufRecv.slice_moveWithin_down _ (by omega) (by omega),
    htail]

/-- **Which packets are accepted as keys**: a zero and a public-key blob. -/
theorem keyAccepted_iff (h : Holds c packet) :
    KeyAccepted env ans c ↔ (ans.acquired || ans.acquiredNew) = true ∧ ans.generated = true ∧
      ∃ pub, packet = 0 :: pub ∧ env.csp.wellFormed pub = true := by
  obtain ⟨b, rest, rfl⟩ := List.exists_cons_of_ne_nil h.nonempty
  constructor
  · rintro ⟨hacq, hmark, hwf, hgen⟩
    rw [h.get_zero] at hmark
    rw [h.dropKeyMark_packet] at hwf
    exact ⟨hacq, hgen, rest, by rw [hmark], hwf⟩
  · rintro ⟨hacq, hgen, pub, hpkt, hwf⟩
    obtain ⟨rfl, rfl⟩ := List.cons.inj hpkt
    exact ⟨hacq, h.get_zero, by rw [h.dropKeyMark_packet]; exact hwf, hgen⟩

/-- The reply to a key: a zero and the session blob. -/
theorem answKey_reply {pub : List UInt8} (h : Holds c (0 :: pub)) {key : ℕ}
    (hblob : (env.csp.simpleBlob key pub).length < bufSize) :
    (c.answKey env key).reply = 0 :: env.csp.simpleBlob key pub ∧
      (c.answKey env key).szSendTotal = (env.csp.simpleBlob key pub).length + 1 := by
  rw [ClientCtx.answKey, h.dropKeyMark_packet]
  exact putBlob_reply _ hblob

/-- The decrypted packet stands where the packet stood. -/
theorem plainBuf_slice (h : Holds c packet) (ks : KeyStream) :
    (c.plainBuf ks).slice 0 packet.length = ks.apply packet := by
  rw [ClientCtx.plainBuf, h.packet_eq, Buffer.slice_write _ (ks.length_apply packet)]
  have hfits := h.fits
  omega

/-- The byte that selects the request. -/
theorem plainBuf_get_zero {b : UInt8} {rest : List UInt8} (h : Holds c (b :: rest))
    (ks : KeyStream) : (c.plainBuf ks).get 0 = b ^^^ ks 0 := by
  rw [ClientCtx.plainBuf, h.packet_eq, ks.apply_cons]
  exact Buffer.get_zero_write_cons _ (by decide) _ _

end Holds

/-- The reply to a request: its text, enciphered. -/
theorem answMsg_reply {ks : KeyStream} {t : RequestType} {os : Os}
    (hfits : (c.replyText env ks t os).length ≤ bufSize) :
    (c.answMsg env ks t os).reply = ks.apply (c.replyText env ks t os) := by
  rw [ClientCtx.reply, ClientCtx.answMsg_szSendTotal, ClientCtx.answMsg_bufSend,
    Buffer.slice_write _ (ks.length_apply _)]
  omega

end Tcp
end BsitLabs
