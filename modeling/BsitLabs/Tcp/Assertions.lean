import BsitLabs.Tcp.Exchange
import BsitLabs.Tcp.ReplyTexts

/-!
# Which packets the server survives

An assertion that fails ends the process, for every client.  The ones on the way of
a received packet test what the client sent: that a packet marked as a key is a key
(`CryptImportKey`), that a request comes from a client with a key (`CryptDecrypt`),
and that it deciphers to one of the eight requests.  A request that passes them may
still end the process, if its handler stores behind the end of an array or follows a
pointer that leads nowhere.  `Acceptable` is what passes; `survives_iff` says that
nothing else does, in any reachable state.
-/

namespace BsitLabs
namespace Tcp

open MachineInt SystemInfo Transition

/-- The packets that pass, for a slot with context `c`: a key packet with a public-key blob, and
a request that deciphers to one of the eight under the slot's key, names no path of negative
length, and can be answered with what the system says about its path. -/
inductive Acceptable (csp : Csp) (c : ClientCtx) (w : Win32) : List UInt8 → Prop where
  | key {pub : List UInt8} (hwf : csp.wellFormed pub = true) : Acceptable csp c w (0 :: pub)
  | request {b : UInt8} {rest : List UInt8} {ks : KeyStream} {t : RequestType} (hb : b ≠ 0)
      (hkey : csp.keyOf c.key = some ks) (ht : RequestType.ofByte (b ^^^ ks 0) = some t)
      (hpath : t.takesPath = true → 0 ≤ schar ((c.plainBuf ks).get 1))
      (hanswer : Answerable w (pathOf (c.plainBuf ks)) t) : Acceptable csp c w (b :: rest)

/-- **When `msg_handler` gets through**, with the handlers of the repository. -/
theorem msgAccepted_windows_iff {csp : Csp} {c : ClientCtx} {ks : KeyStream} {t : RequestType}
    {w : Win32} :
    MsgAccepted (Env.windows csp) c ks t w ↔
      csp.keyOf c.key = some ks ∧ RequestType.ofByte ((c.plainBuf ks).get 0) = some t ∧
        (t.takesPath = true → 0 ≤ schar ((c.plainBuf ks).get 1)) ∧
        Answerable w (pathOf (c.plainBuf ks)) t := by
  constructor
  · intro h
    exact ⟨h.key, h.request, (handler_isSome_iff csp).mp h.handled⟩
  · rintro ⟨hkey, ht, hanswer⟩
    have hhandled := (handler_isSome_iff csp).mpr hanswer
    refine ⟨hkey, ht, hhandled, ?_⟩
    obtain ⟨written, hwritten⟩ := Option.isSome_iff_exists.mp hhandled
    obtain ⟨htext, hlt⟩ := takeWhile_handler hwritten
    rw [ClientCtx.replyText, ClientCtx.written, hwritten, Option.getD_some, htext]
    exact hlt.le

variable {csp : Csp}

/-- The builder that the packet selects gets through exactly when the packet is
acceptable. -/
theorem overlapRecvHandler_ok_iff_acceptable {ans : Answers Win32} {s : Server} {i : Slot} {n : ℕ}
    (hn : n ≠ 0) {packet : List UInt8} (hholds : Holds ((s.gCtxs i).count n) packet)
    (hacq : (ans.acquired || ans.acquiredNew) = true) (hgen : ans.generated = true) :
    (∃ r, overlapRecvHandler (Env.windows csp) ans s i n = .ok r) ↔
      Acceptable csp ((s.gCtxs i).count n) ans.os packet := by
  obtain ⟨b, rest, rfl⟩ := List.exists_cons_of_ne_nil hholds.nonempty
  have hfirst : (s.gCtxs i).bufRecv.get 0 = b := hholds.get_zero
  constructor
  · rintro ⟨⟨s', req⟩, hrun⟩
    rcases ((overlapRecvHandler_eq_ok_iff hn).mp hrun).2 with
      ⟨_, hacc, _⟩ | ⟨hmark, ks, t, hacc, _⟩
    · obtain ⟨_, _, pub, hpkt, hwf⟩ := hholds.keyAccepted_iff.mp hacc
      rw [hpkt]
      exact .key hwf
    · rw [hfirst] at hmark
      obtain ⟨hkey, ht, hpath, hanswer⟩ := msgAccepted_windows_iff.mp hacc
      rw [hholds.plainBuf_get_zero] at ht
      exact .request hmark hkey ht hpath hanswer
  · intro hacc
    cases hacc with
    | key hwf =>
      have hkey : KeyAccepted (Env.windows csp) ans ((s.gCtxs i).count n) :=
        hholds.keyAccepted_iff.mpr ⟨hacq, hgen, rest, rfl, hwf⟩
      exact ⟨_, (overlapRecvHandler_eq_ok_iff hn).mpr ⟨rfl, .inl ⟨hkey.mark, hkey, rfl⟩⟩⟩
    | @request _ _ ks t hb hkey ht hpath hanswer =>
      have hmsg : MsgAccepted (Env.windows csp) ((s.gCtxs i).count n) ks t ans.os :=
        msgAccepted_windows_iff.mpr
          ⟨hkey, by rw [hholds.plainBuf_get_zero]; exact ht, hpath, hanswer⟩
      exact ⟨_, (overlapRecvHandler_eq_ok_iff hn).mpr
        ⟨rfl, .inr ⟨by rw [hfirst]; exact hb, ks, t, hmsg, rfl⟩⟩⟩

/-- The process survives an iteration with a receive exactly when the handler gets
through. -/
theorem fault_exec_recv_iff {Os : Type} {env : Env Os} {ans : Answers Os} {w : World Os}
    (hrunning : w.fault = none) {i : Slot} (hi : i ≠ 0) {n : ℕ} (hn : n ≠ 0) :
    (w.exec env ans i .recv n).fault = none ↔
      ∃ r, overlapRecvHandler env ans w.srv i n = .ok r := by
  have hexec : w.exec env ans i .recv n = w.recvIteration env ans i n := by
    simp only [World.exec, if_neg hi]
  rw [hexec]
  rcases recvIteration_cases env ans w i n with ⟨hzero, _⟩ | ⟨_, f, hrun, heq⟩ | ⟨_, s, hrun, heq⟩
  · exact absurd hzero hn
  · simp [heq, hrun]
  · simp [heq, hrun, hrunning]

/-- **Which packets the server survives.**  In every reachable state, when a packet
that has been received is dequeued and the provider has a context and a key to give,
the process goes on, with every other slot as it was, exactly if the packet is
acceptable. -/
theorem survives_iff (csp : Csp) (accepting : Bool) {w w' : World Win32}
    (hr : (machine (Env.windows csp) accepting).Reachable w) {i : Slot} (hi : i ≠ 0) {k n : ℕ}
    {o : Op} {ans : Answers Win32} (ho : (w.pending i)[k]? = some o) (hb : o.block = .recv)
    (hst : o.status = .done n) (hn : n ≠ 0)
    (hacq : (ans.acquired || ans.acquiredNew) = true) (hgen : ans.generated = true)
    (hs : World.Step (Env.windows csp) w (.dequeue i k ans) w') :
    (w'.fault = none ∧
        ∀ j, j ≠ i → w'.srv.gCtxs j = w.srv.gCtxs j ∧ w'.pending j = w.pending j) ↔
      Acceptable csp ((w.srv.gCtxs i).count n) ans.os ((w.srv.gCtxs i).bufRecv.slice 0 n) := by
  have hrunning := hs.running
  have hw' :
      w' = (w.setPending i ((w.pending i).eraseIdx k)).exec (Env.windows csp) ans i .recv n := by
    rw [hs.dequeue_eq ho hst, hb]
  have hothers : ∀ j, j ≠ i → w'.srv.gCtxs j = w.srv.gCtxs j ∧ w'.pending j = w.pending j := by
    intro j hj
    rw [hw', World.exec, if_neg hi]
    obtain ⟨hctx, hpend⟩ := recvIteration_others (Env.windows csp) ans
      (w.setPending i ((w.pending i).eraseIdx k)) n hj
    exact ⟨hctx, hpend.trans (World.setPending_pending_of_ne _ _ hj _)⟩
  rw [← overlapRecvHandler_ok_iff_acceptable hn ((good_reachable hr).holds hi ho hb hst hn)
    hacq hgen, and_iff_left hothers, hw']
  exact fault_exec_recv_iff (w := w.setPending i ((w.pending i).eraseIdx k)) hrunning hi hn

section FirstPacket

/-- The first connection has sent this packet, and nothing else. -/
abbrev firstPacket (packet : List UInt8) : World Win32 :=
  (World.connected Win32.silent).receives 1 packet

/-- It has been received. -/
theorem reachable_firstPacket (csp : Csp) {packet : List UInt8} (hne : packet ≠ [])
    (hlen : packet.length ≤ bufSize) :
    (machine (Env.windows csp) true).Reachable (firstPacket packet) ∧
      HasReceived (firstPacket packet) 1 packet := by
  obtain ⟨hs, hrecv, _⟩ := (reads_connected Win32.silent).receives (Env.windows csp) hne hlen
  exact ⟨(reachable_connected (Env.windows csp) Win32.silent).step hs, hrecv⟩

/-- The first client's key packet. -/
theorem survives_iff_key : ∃ w, World.Step (Env.windows .oneByte) (firstPacket [0, 6])
    (.dequeue 1 0 (.allYes Win32.silent)) w ∧ w.fault = none := by
  obtain ⟨hr, hrecv⟩ := reachable_firstPacket .oneByte (List.cons_ne_nil (0 : UInt8) [6])
    (by decide)
  have hdeq := World.step_dequeue (Env.windows .oneByte) (.allYes Win32.silent) hrecv.running
    hrecv.op rfl
  refine ⟨_, hdeq, ((survives_iff .oneByte true hr (by decide) hrecv.getElem? rfl rfl (by decide)
    rfl rfl hdeq).mpr ?_).1⟩
  rw [show ((firstPacket [0, 6]).srv.gCtxs 1).bufRecv.slice 0 _ = [0, 6] from hrecv.holds.bytes]
  exact .key rfl

/-- A client that sends the single byte nine before any key ends the process:
`CryptDecrypt` is called with no key. -/
theorem not_survives_request_before_key :
    ¬ ∀ w w', (machine (Env.windows .oneByte) true).Reachable w → ∀ i, i ≠ 0 →
      ∀ (k n : ℕ) (o : Op), (w.pending i)[k]? = some o → o.block = .recv → o.status = .done n →
        n ≠ 0 → World.Step (Env.windows .oneByte) w (.dequeue i k (.allYes Win32.silent)) w' →
          w'.fault = none := by
  intro hall
  obtain ⟨hr, hrecv⟩ := reachable_firstPacket .oneByte (List.cons_ne_nil (9 : UInt8) []) (by decide)
  have hdeq := World.step_dequeue (Env.windows .oneByte) (.allYes Win32.silent) hrecv.running
    hrecv.op rfl
  have hnone := hall _ _ hr 1 (by decide) 0 1 _ hrecv.getElem? rfl rfl (by decide) hdeq
  have hkey : Csp.oneByte.keyOf (((firstPacket [9]).srv.gCtxs 1).count 1).key = none := by
    rw [World.receives_ctx, World.connected_ctx]
    rfl
  have hbad : ¬ Acceptable .oneByte (((firstPacket [9]).srv.gCtxs 1).count 1) Win32.silent [9] := by
    intro hacc
    cases hacc with
    | request _ hkey' _ _ _ =>
      rw [hkey] at hkey'
      simp at hkey'
  have hok := (fault_exec_recv_iff (w := (firstPacket [9]).setPending 1 [])
    hrecv.running hrecv.client (by decide)).mp hnone
  exact hbad ((overlapRecvHandler_ok_iff_acceptable (by decide) hrecv.holds rfl rfl).mp hok)

end FirstPacket

end Tcp
end BsitLabs
