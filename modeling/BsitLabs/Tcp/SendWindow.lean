import BsitLabs.Tcp.Exchange

/-!
# The send window

`schedule_write` posts what lies between `sz_send` and `sz_send_total` in `buf_send`.
For the posted bytes to be the rest of the reply, `sz_send` must be what has been
sent of this reply.  A send that completes advances it and `msg_handler` resets it;
nothing else does.  `form_answ_key` leaves it as the reply before left it, and the
branch of `overlap_send_handler` that ends a reply leaves it at its end.

So the window is right as long as every key packet is answered with `sz_send = 0`
(`KeyOnOpenWindow`), as a connection's first packet is.  Under that condition
`Window` is an invariant; where a key packet breaks it, the very next
`schedule_write` posts from the end of the reply before, and past the end of a
shorter one.

`CtxStep` says once what a step can do to the context of a client slot.
-/

namespace BsitLabs
namespace Tcp

open MachineInt Transition

variable {Os : Type} {env : Env Os}

/-! ## What a step does to a context -/

/-- The completed operation that an event dequeues under a key. -/
def Dequeues (w : World Os) (i : Slot) (o : Op) (n : ℕ) (e : Event Os) : Prop :=
  ∃ k ans, e = .dequeue i k ans ∧ (w.pending i)[k]? = some o ∧ o.status = .done n

/-- What a step with event `e` can do to the context of the client slot `i`. -/
inductive CtxStep (env : Env Os) (w : World Os) (e : Event Os) (i : Slot) : ClientCtx → Prop where
  | same : CtxStep env w e i (w.srv.gCtxs i)
  | taken {sock : ℕ} (hfree : w.srv.gCtxs i = ClientCtx.zero) :
      CtxStep env w e i { ClientCtx.zero with socket := sock }
  | stored {off : ℕ} {data : List UInt8} :
      CtxStep env w e i
        { w.srv.gCtxs i with bufRecv := (w.srv.gCtxs i).bufRecv.write off data }
  | keyAnswered {ans : Answers Os} {o : Op} {n key : ℕ} (hdeq : Dequeues w i o n e)
      (hb : o.block = .recv) (hn : n ≠ 0) (hacc : KeyAccepted env ans ((w.srv.gCtxs i).count n)) :
      CtxStep env w e i (((w.srv.gCtxs i).count n).answKey env key)
  | msgAnswered {n : ℕ} {ks : KeyStream} {t : RequestType} {os : Os}
      (hacc : MsgAccepted env ((w.srv.gCtxs i).count n) ks t os) :
      CtxStep env w e i (((w.srv.gCtxs i).count n).answMsg env ks t os)
  | sentOn {o : Op} {n : ℕ} (hdeq : Dequeues w i o n e) (hb : o.block = .send) :
      CtxStep env w e i ((w.srv.gCtxs i).advance n)
  | sentAll {o : Op} {n : ℕ} (hdeq : Dequeues w i o n e) (hb : o.block = .send) :
      CtxStep env w e i ((w.srv.gCtxs i).advance n).rearm
  | cleared : CtxStep env w e i ClientCtx.zero

/-- **What a step can do to a client slot's context.** -/
theorem ctxStep_of_step {w w' : World Os} {e : Event Os} (hg : Good w)
    (hs : World.Step env w e w') {i : Slot} (hi : i ≠ 0) :
    CtxStep env w e i (w'.srv.gCtxs i) := by
  cases hs with
  | accepted running ho hst => exact .same
  | @received j k data o running hj ho hst hb hlen =>
    by_cases hij : i = j
    · subst hij
      simp only [World.setPending_srv, World.store, Server.setCtx_gCtxs_self]
      exact .stored
    · simp only [World.setPending_srv, World.store, Server.setCtx_gCtxs_of_ne _ hij]
      exact .same
  | sent running hj ho hst hb hlen => exact .same
  | failed running ho hst => exact .same
  | dropped running ho hst => exact .same
  | @dequeue j k n ans o running ho hst =>
    have hdeq : i = j → Dequeues w i o n (.dequeue j k ans) := fun hij =>
      ⟨k, ans, by rw [hij], by rw [hij]; exact ho, hst⟩
    unfold World.exec
    by_cases hj : j = 0
    · subst hj
      rw [if_pos rfl]
      rcases (hg.of_setPending_zero ((w.pending 0).eraseIdx k)).acceptIteration_cases ans n with
        ⟨l, ha⟩ | hr
      · by_cases hil : i = l
        · subst hil
          rw [ha.ctx]
          exact .taken ha.wasFree
        · rw [(ha.others i hi hil).1]
          exact .same
      · rw [(hr.others i hi).1]
        exact .same
    rw [if_neg hj]
    cases hb : o.block with
    | recv =>
      by_cases hij : i = j
      · subst hij
        rcases recvIteration_cases env ans (w.setPending i ((w.pending i).eraseIdx k)) i n with
          ⟨_, h⟩ | ⟨_, f, _, h⟩ | ⟨hn, s, hrun, h⟩
        · simp only [h]
          exact .same
        · simp only [h]
          exact .same
        · simp only [h]
          rcases ((overlapRecvHandler_eq_ok_iff hn).mp hrun).2 with
            ⟨_, hacc, rfl⟩ | ⟨_, ks, t, hacc, rfl⟩
          · have hctx : CtxStep env w (.dequeue i k ans) i
                (((w.srv.gCtxs i).count n).answKey env (w.srv.handles.keys.length + 1)) :=
              .keyAnswered (hdeq rfl) hb hn hacc
            simpa [World.reply, Server.answKey] using hctx
          · have hctx : CtxStep env w (.dequeue i k ans) i
                (((w.srv.gCtxs i).count n).answMsg env ks t ans.os) := .msgAnswered hacc
            simpa [World.reply] using hctx
      · simp only [(recvIteration_others env ans _ n hij).1]
        exact .same
    | send =>
      by_cases hij : i = j
      · subst hij
        unfold World.sendIteration
        rcases overlapSendHandler_cases (w.setPending i ((w.pending i).eraseIdx k)).srv i n with
          ⟨_, h⟩ | ⟨_, h⟩
        · simp only [h, World.submit_srv, Server.setCtx_gCtxs_self]
          exact .sentOn (hdeq rfl) hb
        · simp only [h, World.submit_srv, Server.setCtx_gCtxs_self]
          exact .sentAll (hdeq rfl) hb
      · simp only [(sendIteration_others ans _ n hij).1]
        exact .same
    | cancel =>
      by_cases hij : i = j
      · subst hij
        have hctx : (overlapCancelHandler w.srv i).gCtxs i = ClientCtx.zero := by
          simp [overlapCancelHandler]
        simp only [World.setPending_srv, hctx]
        exact .cleared
      · have hctx : (overlapCancelHandler w.srv j).gCtxs i = w.srv.gCtxs i := by
          simp [overlapCancelHandler, Server.setCtx_gCtxs_of_ne _ hij]
        simp only [World.setPending_srv, hctx]
        exact .same

/-! ## The window -/

/-- What is left to send lies in the reply, and the reply in `buf_send`. -/
structure Window (c : ClientCtx) : Prop where
  sent_le : c.szSend ≤ c.szSendTotal
  total_le : c.szSendTotal ≤ bufSize

/-- A key packet is handled with `sz_send = 0`. -/
def KeyOnOpenWindow (w : World Os) (e : Event Os) : Prop :=
  ∀ i o n, i ≠ 0 → Dequeues w i o n e → o.block = .recv → n ≠ 0 →
    (w.srv.gCtxs i).bufRecv.get 0 = 0 → (w.srv.gCtxs i).szSend = 0

theorem Window.zero (sock : ℕ) : Window { ClientCtx.zero with socket := sock } :=
  ⟨Nat.le_refl 0, Nat.zero_le _⟩

/-- In the range of the window the unsigned operations are exact. -/
theorem Window.usub_eq {c : ClientCtx} (h : Window c) :
    usub c.szSendTotal c.szSend = c.szSendTotal - c.szSend :=
  MachineInt.usub_eq h.sent_le (lt_of_le_of_lt h.total_le (by decide))

theorem Window.advance {c : ClientCtx} (h : Window c) {n : ℕ}
    (hn : n ≤ usub c.szSendTotal c.szSend) :
    (c.advance n).szSend = c.szSend + n ∧ Window (c.advance n) := by
  have htotal := h.total_le
  have hsent := h.sent_le
  have hbuf : bufSize = 512 := rfl
  rw [h.usub_eq] at hn
  have hadd : (c.advance n).szSend = c.szSend + n := uadd_eq (by omega)
  refine ⟨hadd, ?_, htotal⟩
  rw [hadd]
  show c.szSend + n ≤ c.szSendTotal
  omega

theorem Window.rearm {c : ClientCtx} (h : Window c) : Window c.rearm := ⟨h.sent_le, h.total_le⟩

/-- The session blob is shorter than the key packet it answers. -/
theorem length_blob_lt (hlaw : env.csp.Lawful) {ans : Answers Os} {c : ClientCtx} {n : ℕ}
    (hsz : c.szRecv = 0) (hn : n ≠ 0) (hlen : n ≤ bufSize)
    (hacc : KeyAccepted env ans (c.count n)) (key : ℕ) :
    (env.csp.simpleBlob key (c.count n).dropKeyMark.packet).length < n := by
  have hbuf : bufSize = 512 := rfl
  have hcount : (c.count n).szRecv = n := by
    rw [ClientCtx.count_szRecv, hsz, uadd_eq (by omega), Nat.zero_add]
  have hdrop : (c.count n).dropKeyMark.szRecv = n - 1 := by
    rw [ClientCtx.dropKeyMark_szRecv, hcount, MachineInt.usub_eq (by omega) (by omega)]
  have hpub : (c.count n).dropKeyMark.packet.length ≤ n - 1 := by
    rw [← hdrop]
    exact Buffer.length_slice_le _ _ _
  have hblob := hlaw.length_simpleBlob key _ hacc.wellFormed
  omega

/-- The key reply is the session blob and one byte. -/
theorem szSendTotal_answKey (hlaw : env.csp.Lawful) {ans : Answers Os} {c : ClientCtx} {n : ℕ}
    (hsz : c.szRecv = 0) (hn : n ≠ 0) (hlen : n ≤ bufSize)
    (hacc : KeyAccepted env ans (c.count n)) (key : ℕ) :
    ((c.count n).answKey env key).szSendTotal =
      (env.csp.simpleBlob key (c.count n).dropKeyMark.packet).length + 1 :=
  (putBlob_reply _ ((length_blob_lt hlaw hsz hn hlen hacc key).trans_le hlen)).2

/-- A key packet that finds no more sent than its reply is long leaves the window right. -/
theorem Window.answKey (hlaw : env.csp.Lawful) {ans : Answers Os} {c : ClientCtx} {n : ℕ}
    (hsz : c.szRecv = 0) (hn : n ≠ 0) (hlen : n ≤ bufSize)
    (hacc : KeyAccepted env ans (c.count n)) (key : ℕ)
    (hsent : c.szSend ≤ (env.csp.simpleBlob key (c.count n).dropKeyMark.packet).length + 1) :
    Window ((c.count n).answKey env key) where
  sent_le := by
    rw [szSendTotal_answKey hlaw hsz hn hlen hacc key]
    exact hsent
  total_le := by
    rw [szSendTotal_answKey hlaw hsz hn hlen hacc key]
    exact (length_blob_lt hlaw hsz hn hlen hacc key).trans_le hlen

/-- One step keeps the window of a client slot, if key packets find it open. -/
theorem window_step (hlaw : env.csp.Lawful) {w w' : World Os} {e : Event Os} (hg : Good w)
    (hs : World.Step env w e w') (hopen : KeyOnOpenWindow w e) {i : Slot} (hi : i ≠ 0)
    (h : Window (w.srv.gCtxs i)) : Window (w'.srv.gCtxs i) := by
  have hdone : ∀ {o : Op} {n : ℕ}, Dequeues w i o n e → o.block = .send →
      n ≤ usub (w.srv.gCtxs i).szSendTotal (w.srv.gCtxs i).szSend := by
    rintro o n ⟨k, ans, rfl, ho, hst⟩ hb
    exact (hg.send_done hi ho hb hst).2
  have hctx := ctxStep_of_step hg hs hi
  generalize w'.srv.gCtxs i = c' at hctx ⊢
  cases hctx with
  | same => exact h
  | taken hfree => exact Window.zero _
  | stored => exact ⟨h.sent_le, h.total_le⟩
  | @keyAnswered ans o n key hdeq hb hn hacc =>
    have hzero := hopen i o n hi hdeq hb hn hacc.mark
    obtain ⟨k, ans', rfl, ho, hst⟩ := hdeq
    obtain ⟨hsz, hlen⟩ := hg.recv_done hi ho hb hst
    exact Window.answKey hlaw hsz hn hlen hacc key (hzero.trans_le (Nat.zero_le _))
  | msgAnswered hacc => exact ⟨Nat.zero_le _, hacc.fits⟩
  | sentOn hdeq hb => exact (h.advance (hdone hdeq hb)).2
  | sentAll hdeq hb => exact (h.advance (hdone hdeq hb)).2.rearm
  | cleared => exact Window.zero 0

/-- The window is right in every state of a run whose key packets find it open. -/
theorem window_reachable (hlaw : env.csp.Lawful) {accepting : Bool} {w : World Os}
    (hr : ((machine env accepting).restrict KeyOnOpenWindow).Reachable w) {i : Slot}
    (hi : i ≠ 0) : Window (w.srv.gCtxs i) := by
  refine hr.invariant (P := fun v => Window (v.srv.gCtxs i)) (fun s hs => ?_)
    fun v e v' hv hP hs => window_step hlaw (good_reachable hv.of_restrict) hs.2 hs.1 hi hP
  obtain rfl : s = World.initial accepting := hs
  have hctx : (World.initial accepting : World Os).srv.gCtxs i = ClientCtx.zero := by
    simp [World.initial, hi]
  rw [hctx]
  exact Window.zero 0

/-! ## The calls of `schedule_write` -/

/-- An iteration that dequeues `o` under key `i` calls `schedule_write(i)` in the
server state `s`.  `start` is where the posted bytes should begin: at zero for a
reply just formed, and where `o` ended for the rest of one. -/
inductive CallsScheduleWrite (env : Env Os) (ans : Answers Os) (w : World Os) (i : Slot) (o : Op) :
    ℕ → Server → Prop where
  | fresh {n : ℕ} {s : Server} (hb : o.block = .recv) (hst : o.status = .done n) (hn : n ≠ 0)
      (hrun : overlapRecvHandler env ans w.srv i n = .ok (s, scheduleWrite s i)) :
      CallsScheduleWrite env ans w i o 0 s
  | rest {n : ℕ} (hb : o.block = .send) (hst : o.status = .done n)
      (hmore : (w.srv.gCtxs i).sendsOn n = true) :
      CallsScheduleWrite env ans w i o (o.off + n)
        (w.srv.setCtx i ((w.srv.gCtxs i).advance n))

/-- What `schedule_write` should find and post. -/
structure PostsRest (s : Server) (i : Slot) (start : ℕ) : Prop where
  window : Window (s.gCtxs i)
  posted : scheduleWrite s i =
    .write start ((s.gCtxs i).szSendTotal - (s.gCtxs i).szSend)

theorem postsRest_of_window {s : Server} {i : Slot} {c : ClientCtx} (hctx : s.gCtxs i = c)
    (h : Window c) : PostsRest s i c.szSend := by
  subst hctx
  exact ⟨h, by rw [scheduleWrite, h.usub_eq]⟩

/-- **The send window**: in a run whose key packets have found the window open so
far, a call of `schedule_write` posts the reply from its start, or from where the
previous send of it ended, exactly if it does not answer a key packet that finds
the window moved on. -/
theorem postsRest_iff (env : Env Os) (hlaw : env.csp.Lawful) (accepting : Bool) {w : World Os}
    (hr : ((machine env accepting).restrict KeyOnOpenWindow).Reachable w) {i : Slot}
    (hi : i ≠ 0) {k start : ℕ} {o : Op} {ans : Answers Os} {s : Server}
    (ho : (w.pending i)[k]? = some o) (hcall : CallsScheduleWrite env ans w i o start s) :
    PostsRest s i start ↔
      (o.block = .recv → (w.srv.gCtxs i).bufRecv.get 0 = 0 → (w.srv.gCtxs i).szSend = 0) := by
  have hg := good_reachable hr.of_restrict
  have hwin := window_reachable hlaw hr hi
  cases hcall with
  | @fresh n s hb hst hn hrun =>
    obtain ⟨hsz, hlen⟩ := hg.recv_done hi ho hb hst
    rcases ((overlapRecvHandler_eq_ok_iff hn).mp hrun).2 with
      ⟨hmark, hacc, rfl⟩ | ⟨hmark, ks, t, hacc, rfl⟩
    · have hctx := Server.setCtx_answKey_gCtxs_self env w.srv i ((w.srv.gCtxs i).count n)
      have hsend : (((w.srv.gCtxs i).count n).answKey env
          (w.srv.handles.keys.length + 1)).szSend = (w.srv.gCtxs i).szSend := rfl
      constructor
      · intro hposts _ _
        have hoff := hposts.posted
        unfold scheduleWrite at hoff
        rw [hctx, hsend] at hoff
        exact (Request.write.inj hoff).1
      · intro hopen
        have hzero := hopen hb hmark
        have hposts := postsRest_of_window hctx
          (.answKey hlaw hsz hn hlen hacc _ (hzero.trans_le (Nat.zero_le _)))
        rw [hsend, hzero] at hposts
        exact hposts
    · have hwindow : Window (((w.srv.gCtxs i).count n).answMsg env ks t ans.os) :=
        ⟨Nat.zero_le _, hacc.fits⟩
      have hposts := postsRest_of_window (w.srv.setCtx_gCtxs_self i _) hwindow
      rw [ClientCtx.answMsg_szSend] at hposts
      exact iff_of_true hposts fun _ hzero => absurd hzero hmark
  | @rest n hb hst hmore =>
    obtain ⟨hoff, hle⟩ := hg.send_done hi ho hb hst
    obtain ⟨hadd, hwin'⟩ := hwin.advance hle
    have hposts := postsRest_of_window (w.srv.setCtx_gCtxs_self i _) hwin'
    rw [hadd, ← hoff] at hposts
    exact iff_of_true hposts fun hrecv => absurd (hrecv.symm.trans hb) (by simp)

/-- The call that answers the first client's key packet. -/
theorem postsRest_iff_first : ∃ w s,
    CallsScheduleWrite Env.sample (.allYes ()) w 1 ⟨.recv, 2, 0, bufSize, .done 2⟩ 0 s ∧
      PostsRest s 1 0 := by
  obtain ⟨hrecv, hholds, _, hsend⟩ := (reads_connected ()).receives Env.sample
    (List.cons_ne_nil 0 [6]) (by decide)
  have hconnected : ((machine Env.sample true).restrict KeyOnOpenWindow).Reachable
      (World.connected ()) := by
    have hopen : ∀ (w : World Unit) (e : Event Unit), (∀ i k ans, e = .dequeue i k ans → i = 0) →
        KeyOnOpenWindow w e := by
      rintro w e hzero i o n hi ⟨k, ans, he, _⟩
      exact absurd (hzero i k ans he) hi
    exact .step (.step (.init rfl) ⟨hopen _ _ (by simp), World.step_connecting Env.sample⟩)
      ⟨hopen _ (.dequeue 0 0 (.allYes ())) (by simp), World.step_connected Env.sample ()⟩
  have hr := hconnected.step (M := (machine Env.sample true).restrict KeyOnOpenWindow)
    (e := .received 1 0 [0, 6]) ⟨by rintro i o n _ ⟨k, ans, he, _⟩; simp at he, hrecv⟩
  have hacc : KeyAccepted Env.sample (.allYes ()) _ :=
    hholds.holds.keyAccepted_iff.mpr ⟨rfl, rfl, [6], rfl, rfl⟩
  have hcall : CallsScheduleWrite Env.sample (.allYes ()) _ 1 _ 0 _ :=
    .fresh (o := ⟨.recv, 2, 0, bufSize, .done 2⟩) (n := 2) rfl rfl (by decide)
      ((overlapRecvHandler_eq_ok_iff (by decide)).mpr ⟨rfl, .inl ⟨hacc.mark, hacc, rfl⟩⟩)
  refine ⟨_, _, hcall, ?_⟩
  refine (postsRest_iff Env.sample Csp.oneByte_lawful true hr (by decide) (k := 0) ?_
    hcall).mpr fun _ _ => ?_
  · rw [hholds.op, World.receives_ctx, World.connected_ctx]
    rfl
  · rw [hsend, World.connected_ctx]
    rfl

/-- A client sends its key packet twice.  The second reply is posted from offset two,
where the first one ended. -/
theorem not_postsRest_second_key : ¬ ∀ w, (machine Env.sample true).Reachable w →
    ∀ i, i ≠ 0 → ∀ (k start : ℕ) (o : Op) (ans : Answers Unit) (s : Server),
      (w.pending i)[k]? = some o → CallsScheduleWrite Env.sample ans w i o start s →
        PostsRest s i start := by
  intro hall
  have hwf : Env.sample.csp.wellFormed [6] = true := rfl
  have hblob : ∀ key, (Env.sample.csp.simpleBlob key [6]).length < bufSize := fun _ =>
    show 1 < bufSize by decide
  -- the first key packet is received and answered, and the reply of two bytes sent
  obtain ⟨hs₁, hrecv₁, _, hopen₁⟩ := (reads_connected ()).receives Env.sample
    (List.cons_ne_nil 0 [6]) (by decide)
  have hopen : ((World.receives (World.connected ()) 1 [0, 6]).srv.gCtxs 1).szSend = 0 := by
    rw [hopen₁, World.connected_ctx]
    rfl
  obtain ⟨w₂, hs₂, hsends, _⟩ := hrecv₁.answersKey hwf (hblob _) hopen ()
  obtain ⟨w₃, w₄, hs₃, hs₄, _, hreads, _, hsent, _⟩ := hsends.completes Env.sample ()
  have hr₄ : (machine Env.sample true).Reachable w₄ :=
    .step (.step (.step (.step (reachable_connected Env.sample ()) hs₁) hs₂) hs₃) hs₄
  -- the second key packet is received
  obtain ⟨hs₅, hrecv₅, _, hsent₅⟩ := hreads.receives Env.sample
    (List.cons_ne_nil 0 [6]) (by decide)
  have hr₅ := hr₄.step (M := machine Env.sample true) hs₅
  have hacc : KeyAccepted Env.sample (.allYes ()) _ :=
    hrecv₅.holds.keyAccepted_iff.mpr ⟨rfl, rfl, [6], rfl, rfl⟩
  have hposts := hall _ hr₅ 1 (by decide) 0 0 _ (.allYes ()) _ hrecv₅.getElem?
    (.fresh rfl rfl (by decide)
      ((overlapRecvHandler_eq_ok_iff (by decide)).mpr ⟨rfl, .inl ⟨hacc.mark, hacc, rfl⟩⟩))
  have hstart := (Request.write.inj hposts.posted).1
  have hfinal : ((w₄.receives 1 [0, 6]).srv.gCtxs 1).szSend = 0 := by
    simpa [Server.answKey, ClientCtx.answKey, ClientCtx.putBlob, ClientCtx.dropKeyMark] using hstart
  rw [hsent₅, hsent] at hfinal
  exact absurd hfinal (by decide)

end Tcp
end BsitLabs
