import BsitLabs.Tcp.SlotInvariant

/-!
# One exchange with a client

The steps of an undisturbed exchange, for use where a run is built: a slot that
reads receives a key packet and answers it, the whole reply leaves in one piece, and
the slot reads again, or finds that the client has hung up.  Each lemma says what the
slot is left with, and those of the replies that every other slot is left alone.
-/

namespace BsitLabs
namespace Tcp

open MachineInt Transition

variable {Os : Type} {env : Env Os}

/-- Two worlds that differ in one client slot and in the records. -/
structure World.SameButFor (i : Slot) (w w' : World Os) : Prop where
  srv : w.srv.Local i w'.srv
  pending : ∀ j, j ≠ i → w'.pending j = w.pending j
  fault : w'.fault = w.fault

/-- A packet of the connection `c` has been acted on and its reply formed, and nothing has
left. -/
structure World.Records (c : ℕ) (packet reply : List UInt8) (handling : List (Handling Os))
    (w w' : World Os) : Prop where
  packets : w'.packets = World.record w.packets c [packet]
  replies : w'.replies = World.record w.replies c [reply]
  handled : w'.handled = World.record w.handled c handling
  wire : w'.wire = w.wire

theorem World.SameButFor.trans {i : Slot} {w w' w'' : World Os} (h : w.SameButFor i w')
    (h' : w'.SameButFor i w'') : w.SameButFor i w'' where
  srv := h.srv.trans h'.srv
  pending j hj := (h'.pending j hj).trans (h.pending j hj)
  fault := h'.fault.trans h.fault

/-- The slot reads, and has nothing received. -/
structure Reads (w : World Os) (i : Slot) : Prop where
  running : w.fault = none
  client : i ≠ 0
  op : w.pending i = [⟨.recv, (w.srv.gCtxs i).socket, 0, bufSize, .posted⟩]
  size : (w.srv.gCtxs i).szRecv = 0

/-- The slot has received a packet that is still queued. -/
structure HasReceived (w : World Os) (i : Slot) (packet : List UInt8) : Prop where
  running : w.fault = none
  client : i ≠ 0
  op : w.pending i = [⟨.recv, (w.srv.gCtxs i).socket, 0, bufSize, .done packet.length⟩]
  holds : Holds ((w.srv.gCtxs i).count packet.length) packet

/-- The slot is sending this reply from its start. -/
structure Sends (w : World Os) (i : Slot) (reply : List UInt8) : Prop where
  running : w.fault = none
  client : i ≠ 0
  op : w.pending i = [⟨.send, (w.srv.gCtxs i).socket, 0, reply.length, .posted⟩]
  sent : (w.srv.gCtxs i).szSend = 0
  total : (w.srv.gCtxs i).szSendTotal = reply.length
  bytes : (w.srv.gCtxs i).bufSend.slice 0 reply.length = reply
  fits : reply.length ≤ bufSize

theorem HasReceived.getElem? {w : World Os} {i : Slot} {packet : List UInt8}
    (h : HasReceived w i packet) :
    (w.pending i)[0]? = some ⟨.recv, (w.srv.gCtxs i).socket, 0, bufSize, .done packet.length⟩ := by
  rw [h.op]
  rfl

theorem reads_connected (os : Os) : Reads (World.connected os) 1 where
  running := World.connected_fault os
  client := by decide
  op := by rw [World.connected_pending, World.connected_ctx]
  size := by rw [World.connected_ctx]; rfl

/-- A packet arrives whole. -/
theorem Reads.receives (env : Env Os) {w : World Os} {i : Slot} (h : Reads w i)
    {packet : List UInt8} (hne : packet ≠ []) (hlen : packet.length ≤ bufSize) :
    World.Step env w (.received i 0 packet) (w.receives i packet) ∧
      HasReceived (w.receives i packet) i packet ∧ w.SameButFor i (w.receives i packet) ∧
      ((w.receives i packet).srv.gCtxs i).szSend = (w.srv.gCtxs i).szSend := by
  refine ⟨World.step_receives env h.running h.client h.op hlen, ⟨h.running, h.client, ?_,
    World.holds_receives h.size hne hlen⟩, ⟨w.srv.local_setCtx rfl, fun j hj => ?_, rfl⟩, ?_⟩
  · rw [World.receives_pending, World.receives_ctx]
  · exact World.setPending_pending_of_ne _ _ hj _
  · rw [World.receives_ctx]

/-- The client hangs up, and the slot is about to be closed. -/
theorem Reads.hangsUp (env : Env Os) {w : World Os} {i : Slot} (h : Reads w i) (os : Os) :
    ∃ w', World.Step env w (.received i 0 []) (w.receives i []) ∧
      World.Step env (w.receives i []) (.dequeue i 0 (.allYes os)) w' ∧ w'.fault = none ∧
      w'.pending i = [⟨.cancel, (w.srv.gCtxs i).socket, 0, 0, .done 0⟩] := by
  have hrecv : World.Step env w (.received i 0 []) (w.receives i []) :=
    World.step_receives env h.running h.client h.op (Nat.zero_le _)
  have hdeq := World.step_dequeue env (.allYes os) (w := w.receives i []) h.running
    (World.receives_pending w i []) (n := 0) rfl
  rw [exec_recv_zero env _ _ h.client] at hdeq
  refine ⟨_, hrecv, hdeq, h.running, ?_⟩
  rw [World.submit_pending_self _ _ _ _ (World.setPending_pending_self _ _ _),
    World.setPending_srv, World.receives_ctx]
  rfl

/-- A packet is answered with a reply that begins at the start of `buf_send`. -/
theorem HasReceived.answers {w : World Os} {i : Slot} {packet reply : List UInt8}
    (h : HasReceived w i packet) (os : Os) {s : Server}
    (hok : overlapRecvHandler env (.allYes os) w.srv i packet.length = .ok (s, scheduleWrite s i))
    (hsend : (s.gCtxs i).szSend = 0) (htotal : (s.gCtxs i).szSendTotal = reply.length)
    (hreply : (s.gCtxs i).reply = reply) (hfits : reply.length ≤ bufSize) :
    ∃ w', World.Step env w (.dequeue i 0 (.allYes os)) w' ∧ w'.srv = s ∧ Sends w' i reply ∧
      w.SameButFor i w' ∧ World.Records (w.srv.gCtxs i).socket packet reply
        (if clientSendCryptKey w.srv i then [] else [⟨(s.gCtxs i).bufRecv, os⟩]) w w' := by
  have hbuf : bufSize = 512 := rfl
  have hn : packet.length ≠ 0 := h.holds.length_pos.ne'
  have hloc := overlapRecvHandler_local hok
  have hstep := World.step_dequeue env (.allYes os) h.running h.op rfl
  rw [exec_recv_of_ok (w := w.setPending i []) h.client hn hok] at hstep
  refine ⟨_, hstep, rfl, ⟨h.running, h.client, ?_, hsend, htotal, ?_, hfits⟩,
    ⟨hloc, fun j hj => ?_, rfl⟩, ⟨?_, ?_, ?_, rfl⟩⟩
  · rw [World.submit_pending_self _ _ _ _ (by simp)]
    simp only [scheduleWrite, hsend, htotal, usub_eq (Nat.zero_le _)
      (show reply.length < 2 ^ 32 by omega)]
    rfl
  · rw [ClientCtx.reply, htotal] at hreply
    exact hreply
  · rw [World.submit_pending_of_ne _ _ _ _ hj]
    exact World.setPending_pending_of_ne _ _ hj _
  · rw [World.submit_packets, World.reply_packets, World.actOn]
    simp only [World.setPending_srv, World.setPending_packets, h.holds.packet_eq]
  · rw [World.submit_replies]
    simp only [World.reply, hreply, hloc.socket]
    rfl
  · rw [World.submit_handled]
    simp only [World.reply, hloc.socket]
    rfl

/-- A key packet is answered, if the window is open. -/
theorem HasReceived.answersKey {w : World Os} {i : Slot} {pub : List UInt8}
    (h : HasReceived w i (0 :: pub)) (hwf : env.csp.wellFormed pub = true)
    (hblob : (env.csp.simpleBlob (w.srv.handles.keys.length + 1) pub).length < bufSize)
    (hopen : (w.srv.gCtxs i).szSend = 0) (os : Os) :
    ∃ w', World.Step env w (.dequeue i 0 (.allYes os)) w' ∧
      Sends w' i (0 :: env.csp.simpleBlob (w.srv.handles.keys.length + 1) pub) ∧
      w.SameButFor i w' ∧
      World.Records (w.srv.gCtxs i).socket (0 :: pub)
        (0 :: env.csp.simpleBlob (w.srv.handles.keys.length + 1) pub) [] w w' ∧
      (w'.srv.gCtxs i).key = w.srv.handles.keys.length + 1 := by
  have hacc : KeyAccepted env (.allYes os)
      ((w.srv.gCtxs i).count (0 :: pub : List UInt8).length) :=
    h.holds.keyAccepted_iff.mpr ⟨rfl, rfl, pub, rfl, hwf⟩
  obtain ⟨s, hs⟩ : ∃ s, s = (w.srv.setCtx i ((w.srv.gCtxs i).count
      (0 :: pub : List UInt8).length)).answKey env i := ⟨_, rfl⟩
  have hok : overlapRecvHandler env (.allYes os) w.srv i (0 :: pub : List UInt8).length =
      .ok (s, scheduleWrite s i) :=
    (overlapRecvHandler_eq_ok_iff (by simp)).mpr ⟨rfl, .inl ⟨hacc.mark, hacc, hs⟩⟩
  have hctx : s.gCtxs i = ((w.srv.gCtxs i).count (0 :: pub : List UInt8).length).answKey env
      (w.srv.handles.keys.length + 1) := by
    simp [hs, Server.answKey]
  obtain ⟨hreply, htotal⟩ := h.holds.answKey_reply hblob
  rw [← hctx] at hreply htotal
  have hsend : (s.gCtxs i).szSend = 0 := by
    rw [hctx]
    exact hopen
  rw [← List.length_cons] at htotal
  obtain ⟨w', hstep, rfl, hsends, hbut, hrecords⟩ := h.answers os hok hsend htotal hreply
    (by rw [List.length_cons]; omega)
  rw [if_pos (show clientSendCryptKey w.srv i = true from beq_iff_eq.mpr hacc.mark)] at hrecords
  exact ⟨w', hstep, hsends, hbut, hrecords, by rw [hctx]; rfl⟩

/-- A request is answered with its text, enciphered. -/
theorem HasReceived.answersMsg {w : World Os} {i : Slot} {packet : List UInt8}
    (h : HasReceived w i packet) (hmark : packet.head? ≠ some 0) {ks : KeyStream}
    {t : RequestType} {os : Os}
    (hacc : MsgAccepted env ((w.srv.gCtxs i).count packet.length) ks t os) :
    ∃ w', World.Step env w (.dequeue i 0 (.allYes os)) w' ∧
      Sends w' i
        (ks.apply (((w.srv.gCtxs i).count packet.length).replyText env ks t os)) ∧
      w.SameButFor i w' ∧
      World.Records (w.srv.gCtxs i).socket packet
        (ks.apply (((w.srv.gCtxs i).count packet.length).replyText env ks t os))
        [⟨((w.srv.gCtxs i).count packet.length).plainBuf ks, os⟩] w w' := by
  have hfirst : ((w.srv.gCtxs i).count packet.length).bufRecv.get 0 ≠ 0 := by
    intro hzero
    rw [h.holds.head?, hzero] at hmark
    exact hmark rfl
  obtain ⟨s, hs⟩ : ∃ s, s = w.srv.setCtx i
    (((w.srv.gCtxs i).count packet.length).answMsg env ks t os) := ⟨_, rfl⟩
  have hok : overlapRecvHandler env (.allYes os) w.srv i packet.length =
      .ok (s, scheduleWrite s i) :=
    (overlapRecvHandler_eq_ok_iff h.holds.length_pos.ne').mpr
      ⟨rfl, .inr ⟨hfirst, ks, t, hacc, hs⟩⟩
  have hctx : s.gCtxs i = ((w.srv.gCtxs i).count packet.length).answMsg env ks t os := by
    rw [hs, Server.setCtx_gCtxs_self]
  obtain ⟨w', hstep, _, hsends, hbut, hrecords⟩ := h.answers os hok (by rw [hctx]; rfl)
    (by rw [hctx, ks.length_apply]; rfl) (by rw [hctx, answMsg_reply hacc.fits])
    (by rw [ks.length_apply]; exact hacc.fits)
  rw [if_neg (show ¬ clientSendCryptKey w.srv i = true from fun h => hfirst (beq_iff_eq.mp h)),
    hctx] at hrecords
  exact ⟨w', hstep, hsends, hbut, hrecords⟩

/-- The whole reply leaves, and the slot reads again. -/
theorem Sends.completes (env : Env Os) {w : World Os} {i : Slot} {reply : List UInt8}
    (h : Sends w i reply) (os : Os) :
    ∃ w₁ w₂, World.Step env w (.sent i 0 reply.length) w₁ ∧
      World.Step env w₁ (.dequeue i 0 (.allYes os)) w₂ ∧
      w.SameButFor i w₁ ∧ Reads w₂ i ∧ w.SameButFor i w₂ ∧
      (w₂.srv.gCtxs i).szSend = reply.length ∧
      (w₂.packets = w.packets ∧ w₂.replies = w.replies ∧ w₂.handled = w.handled) ∧
      w₂.wire = World.record w.wire (w.srv.gCtxs i).socket reply ∧
      (w₂.srv.gCtxs i).key = (w.srv.gCtxs i).key ∧
      w₁.pending i =
        [⟨.send, (w.srv.gCtxs i).socket, 0, reply.length, .done reply.length⟩] := by
  have hbuf : bufSize = 512 := rfl
  have hfits := h.fits
  have hget : (w.pending i)[0]? =
      some ⟨.send, (w.srv.gCtxs i).socket, 0, reply.length, .posted⟩ := by
    rw [h.op]
    rfl
  have hsent : World.Step env w (.sent i 0 reply.length) _ :=
    .sent h.running h.client hget rfl rfl le_rfl
  rw [h.op, List.set_cons_zero] at hsent
  obtain ⟨w₁, hw₁⟩ : ∃ w₁, w₁ = (w.deliver i ⟨.send, (w.srv.gCtxs i).socket, 0, reply.length,
    .posted⟩ reply.length).setPending i
    [⟨.send, (w.srv.gCtxs i).socket, 0, reply.length, .done reply.length⟩] := ⟨_, rfl⟩
  rw [← hw₁] at hsent
  have hsrv : w₁.srv = w.srv := by rw [hw₁]; rfl
  have hadd : ((w.srv.gCtxs i).advance reply.length).szSend = reply.length := by
    rw [ClientCtx.advance_szSend, h.sent, uadd_eq (by omega), Nat.zero_add]
  have hlast : ((w₁.setPending i []).srv.gCtxs i).sendsOn reply.length = false := by
    rw [World.setPending_srv, hsrv, ClientCtx.sendsOn, hadd, ClientCtx.advance_szSendTotal, h.total]
    simp
  have hops : w₁.pending i =
      [⟨.send, (w.srv.gCtxs i).socket, 0, reply.length, .done reply.length⟩] := by
    rw [hw₁]
    exact World.setPending_pending_self _ _ _
  have hdeq := World.step_dequeue env (.allYes os) (w := w₁) (i := i)
    (by rw [hw₁]; exact h.running) hops rfl
  rw [exec_send_of_last h.client hlast] at hdeq
  have hothers : ∀ j, j ≠ i → w₁.pending j = w.pending j := fun j hj => by
    rw [hw₁]
    exact World.setPending_pending_of_ne _ _ hj _
  have hfault : w₁.fault = w.fault := by rw [hw₁]; rfl
  have hrearm : w.srv.Local i (w.srv.setCtx i ((w.srv.gCtxs i).advance reply.length).rearm) :=
    w.srv.local_setCtx rfl
  refine ⟨w₁, _, hsent, hdeq, ⟨hsrv ▸ Server.Local.refl i w.srv, hothers, hfault⟩,
    ⟨?_, h.client, ?_, ?_⟩, ⟨?_, fun j hj => ?_, ?_⟩, ?_, ?_, ?_, ?_, hops⟩
  · simp [hfault, h.running]
  · rw [World.submit_pending_self _ _ _ _ (by simp)]
    simp [scheduleRead, Request.starts, Request.op, Answers.allYes]
    rfl
  · simp
  · simpa [hsrv] using hrearm
  · rw [World.submit_pending_of_ne _ _ _ _ hj]
    exact (World.setPending_pending_of_ne _ _ hj _).trans (hothers j hj)
  · simp [hfault]
  · simp [hsrv, h.sent, uadd_eq (show 0 + reply.length < 2 ^ 32 by omega)]
  · rw [hw₁]
    exact ⟨rfl, rfl, rfl⟩
  · have hslice := h.bytes
    rw [hw₁]
    simp only [World.submit_wire, World.setPending_wire, World.deliver, hslice]
  · simp [hsrv]

end Tcp
end BsitLabs
