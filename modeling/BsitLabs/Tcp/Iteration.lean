import BsitLabs.Tcp.Outstanding

/-!
# An iteration whose calls succeed

`exec` says what an iteration does as the source does it.  For the properties of
whole sessions it is read off once here: when the calls of the iteration succeed, a
completion dequeued under a client key has one of six outcomes (`Iterates`), each of
which leaves the slot with its next operation, and nothing else of the other slots
changes (`World.Only`).
-/

namespace BsitLabs
namespace Tcp

open MachineInt Transition

variable {Os : Type} {env : Env Os}

/-- Every call of an iteration succeeds. -/
structure Answers.Succeed (ans : Answers Os) : Prop where
  acquired : (ans.acquired || ans.acquiredNew) = true
  generated : ans.generated = true
  associated : ans.associated = true
  started : ans.started = true
  accepting : ans.accepting = true
  posted : ans.posted = true

theorem Answers.allYes_succeed (os : Os) : (Answers.allYes os).Succeed :=
  ⟨rfl, rfl, rfl, rfl, rfl, rfl⟩

/-- The slots other than `i` are as they were. -/
structure World.Only (i : Slot) (w w' : World Os) : Prop where
  ctxs : ∀ j, j ≠ i → w'.srv.gCtxs j = w.srv.gCtxs j
  pending : ∀ j, j ≠ i → w'.pending j = w.pending j
  accepted : w'.srv.gAcceptedSocket = w.srv.gAcceptedSocket

/-- The records of the connections are as they were. -/
structure World.SameRecords (w w' : World Os) : Prop where
  wire : w'.wire = w.wire
  packets : w'.packets = w.packets
  replies : w'.replies = w.replies
  handled : w'.handled = w.handled

/-- The outcomes of an iteration that dequeues `m` bytes transferred under the
client key `i`. -/
inductive Iterates (env : Env Os) (ans : Answers Os) (w : World Os) (i : Slot) (w' : World Os) :
    Block → ℕ → Prop where
  /-- The client has gone: the slot is about to be closed. -/
  | hangUp (hsrv : w'.srv = w.srv)
      (hops : w'.pending i = [⟨.cancel, (w.srv.gCtxs i).socket, 0, 0, .done 0⟩])
      (hrec : w.SameRecords w') (hrun : w'.fault = none) : Iterates env ans w i w' .recv 0
  /-- An assertion fails. -/
  | stop {m : ℕ} {f : Fault} (hm : m ≠ 0)
      (herr : overlapRecvHandler env ans w.srv i m = .error f) (hsrv : w'.srv = w.srv)
      (hops : w'.pending i = []) (hwire : w'.wire = w.wire)
      (hpackets : w'.packets = World.record w.packets (w.srv.gCtxs i).socket
        [((w.srv.gCtxs i).count m).packet])
      (hreplies : w'.replies = w.replies) (hhandled : w'.handled = w.handled)
      (hrun : w'.fault = some f) :
      Iterates env ans w i w' .recv m
  /-- A reply is formed, and its sending started. -/
  | reply {m : ℕ} (hm : m ≠ 0)
      (hok : overlapRecvHandler env ans w.srv i m = .ok (w'.srv, scheduleWrite w'.srv i))
      (hops : w'.pending i = [⟨.send, (w'.srv.gCtxs i).socket, (w'.srv.gCtxs i).szSend,
        usub (w'.srv.gCtxs i).szSendTotal (w'.srv.gCtxs i).szSend, .posted⟩])
      (hwire : w'.wire = w.wire)
      (hpackets : w'.packets = World.record w.packets (w.srv.gCtxs i).socket
        [((w.srv.gCtxs i).count m).packet])
      (hreplies : w'.replies = World.record w.replies (w'.srv.gCtxs i).socket
        [(w'.srv.gCtxs i).reply])
      (hhandled : w'.handled = World.record w.handled (w'.srv.gCtxs i).socket
        (if clientSendCryptKey w.srv i then [] else [⟨(w'.srv.gCtxs i).bufRecv, ans.os⟩]))
      (hrun : w'.fault = none) : Iterates env ans w i w' .recv m
  /-- Part of a reply is out, and the rest is being sent. -/
  | more {m : ℕ} (hmore : (w.srv.gCtxs i).sendsOn m = true)
      (hsrv : w'.srv = w.srv.setCtx i ((w.srv.gCtxs i).advance m))
      (hops : w'.pending i = [⟨.send, (w.srv.gCtxs i).socket,
        ((w.srv.gCtxs i).advance m).szSend,
        usub (w.srv.gCtxs i).szSendTotal ((w.srv.gCtxs i).advance m).szSend, .posted⟩])
      (hrec : w.SameRecords w') (hrun : w'.fault = none) : Iterates env ans w i w' .send m
  /-- A reply is out, and the next packet is being read. -/
  | last {m : ℕ} (hlast : (w.srv.gCtxs i).sendsOn m = false)
      (hsrv : w'.srv = w.srv.setCtx i ((w.srv.gCtxs i).advance m).rearm)
      (hops : w'.pending i = [⟨.recv, (w.srv.gCtxs i).socket, 0, bufSize, .posted⟩])
      (hrec : w.SameRecords w') (hrun : w'.fault = none) : Iterates env ans w i w' .send m
  /-- The connection is closed and the slot cleared. -/
  | close {m : ℕ} (hsrv : w'.srv = overlapCancelHandler w.srv i) (hops : w'.pending i = [])
      (hrec : w.SameRecords w') (hrun : w'.fault = none) : Iterates env ans w i w' .cancel m

section Succeeding

variable {ans : Answers Os} {w : World Os} {i : Slot} {m : ℕ}

theorem World.only_setPending (w : World Os) (i : Slot) (ops : List Op) :
    w.Only i (w.setPending i ops) where
  ctxs _ _ := rfl
  pending _ hj := World.setPending_pending_of_ne _ _ hj _
  accepted := rfl

/-- Starting an operation touches its own slot only. -/
theorem World.Only.submit {v : World Os} (h : w.Only i v) (ans : Answers Os) (req : Request) :
    w.Only i (v.submit ans i req) where
  ctxs j hj := by
    rw [World.submit_srv]
    exact h.ctxs j hj
  pending j hj := by
    rw [World.submit_pending_of_ne _ _ _ _ hj]
    exact h.pending j hj
  accepted := by
    rw [World.submit_srv]
    exact h.accepted

/-- An iteration with a receive, when its calls succeed. -/
theorem iterates_recv (hans : ans.Succeed) (hrun : w.fault = none) :
    w.Only i ((w.setPending i []).recvIteration env ans i m) ∧
      Iterates env ans w i ((w.setPending i []).recvIteration env ans i m) .recv m := by
  have hnone : (w.setPending i []).pending i = [] := World.setPending_pending_self _ _ _
  rcases recvIteration_cases env ans (w.setPending i []) i m with
    ⟨rfl, h⟩ | ⟨hm, f, herr, h⟩ | ⟨hm, s, hok, h⟩
  · rw [h]
    refine ⟨(w.only_setPending i []).submit ans .cancel, .hangUp rfl ?_ ⟨rfl, rfl, rfl, rfl⟩ hrun⟩
    rw [World.submit_pending_self _ _ _ _ hnone, Request.starts, if_pos hans.posted]
    rfl
  · rw [h]
    exact ⟨⟨fun _ _ => rfl, (w.only_setPending i []).pending, rfl⟩,
      .stop hm herr rfl hnone rfl rfl rfl rfl rfl⟩
  · have hloc := overlapRecvHandler_local hok
    have honly : w.Only i (((w.setPending i []).actOn i m).reply ans i s) :=
      ⟨hloc.others, (w.only_setPending i []).pending, hloc.accepted⟩
    rw [h]
    refine ⟨honly.submit ans _, .reply hm hok ?_ rfl rfl rfl rfl hrun⟩
    rw [World.submit_pending_self _ _ _ _ (by simp)]
    simp [scheduleWrite, Request.starts, Request.op, hans.started]

/-- An iteration with a send, when its calls succeed. -/
theorem iterates_send (hans : ans.Succeed) (hrun : w.fault = none) :
    w.Only i ((w.setPending i []).sendIteration ans i m) ∧
      Iterates env ans w i ((w.setPending i []).sendIteration ans i m) .send m := by
  have honly : ∀ c : ClientCtx, w.Only i { w.setPending i [] with srv := w.srv.setCtx i c } :=
    fun c => ⟨fun _ hj => w.srv.setCtx_gCtxs_of_ne hj c, (w.only_setPending i []).pending, rfl⟩
  unfold World.sendIteration
  rw [World.setPending_srv]
  rcases overlapSendHandler_cases w.srv i m with ⟨hmore, h⟩ | ⟨hlast, h⟩
  · rw [h]
    refine ⟨(honly _).submit ans _, .more hmore rfl ?_ ⟨rfl, rfl, rfl, rfl⟩ hrun⟩
    rw [World.submit_pending_self _ _ _ _ (by simp)]
    simp [scheduleWrite, Request.starts, Request.op, hans.started]
  · rw [h]
    refine ⟨(honly _).submit ans _, .last hlast rfl ?_ ⟨rfl, rfl, rfl, rfl⟩ hrun⟩
    rw [World.submit_pending_self _ _ _ _ (by simp)]
    simp [scheduleRead, Request.starts, Request.op, hans.started]
    rfl

/-- **What an iteration with a client's completion does**, when its calls succeed. -/
theorem iterates_of_dequeue {w' : World Os} (hg : Good w) (hi : i ≠ 0) {k : ℕ} {o : Op}
    (ho : (w.pending i)[k]? = some o) (hst : o.status = .done m) (hans : ans.Succeed)
    (hs : World.Step env w (.dequeue i k ans) w') :
    w.Only i w' ∧ Iterates env ans w i w' o.block m := by
  have hrun := hs.running
  rw [hs.dequeue_eq ho hst, ((hg.slots i hi).dequeued ho).1]
  unfold World.exec
  rw [if_neg hi]
  cases o.block with
  | recv => exact iterates_recv hans hrun
  | send => exact iterates_send hans hrun
  | cancel =>
    refine ⟨⟨fun j hj => ?_, (w.only_setPending i []).pending, rfl⟩,
      .close rfl (World.setPending_pending_self _ _ _) ⟨rfl, rfl, rfl, rfl⟩ hrun⟩
    simp [overlapCancelHandler, Server.setCtx_gCtxs_of_ne _ hj]

end Succeeding

/-- Whatever a received packet leads to, it is acted on. -/
theorem Iterates.packets_recv {ans : Answers Os} {w w' : World Os} {i : Slot} {m : ℕ}
    (h : Iterates env ans w i w' .recv m) (hm : m ≠ 0) :
    w'.packets = World.record w.packets (w.srv.gCtxs i).socket
      [((w.srv.gCtxs i).count m).packet] := by
  cases h with
  | hangUp => exact absurd rfl hm
  | stop _ _ _ _ _ hpackets _ _ _ => exact hpackets
  | reply _ _ _ _ hpackets _ _ _ => exact hpackets

/-- What a completed receive leaves: its bytes at the start of the buffer. -/
theorem received_leaves {w w' : World Os} (hg : Good w) {i : Slot} {k : ℕ} {data : List UInt8}
    (hs : World.Step env w (.received i k data) w') :
    i ≠ 0 ∧ k = 0 ∧
      w'.pending i = [⟨.recv, (w.srv.gCtxs i).socket, 0, bufSize, .done data.length⟩] ∧
      w'.srv.gCtxs i =
        { w.srv.gCtxs i with bufRecv := (w.srv.gCtxs i).bufRecv.write 0 data } ∧
      data.length ≤ bufSize ∧ w.Only i w' ∧ w.SameRecords w' ∧ w'.fault = none := by
  cases hs with
  | @received _ _ _ o running hi ho hst hb hlen =>
    obtain ⟨hops, rfl, _, hop⟩ := (hg.slots i hi).of_getElem? ho
    cases hop with
    | reading _ _ =>
      refine ⟨hi, rfl, ?_, ?_, hlen, ⟨fun j hj => ?_, fun j hj => ?_, rfl⟩,
        ⟨rfl, rfl, rfl, rfl⟩, running⟩
      · rw [World.setPending_pending_self, hops]
        rfl
      · simp [World.store]
      · simp [World.store, Server.setCtx_gCtxs_of_ne _ hj]
      · exact World.setPending_pending_of_ne _ _ hj _
    | writing _ => exact absurd hb (by simp)
    | closing => exact absurd hb (by simp)

/-- What is received is what is acted on. -/
theorem packets_of_received {w w₁ w₂ : World Os} (hg : Good w) (hg₁ : Good w₁) {i : Slot} {k : ℕ}
    {data : List UInt8} {ans : Answers Os} (hne : data ≠ [])
    (hs₁ : World.Step env w (.received i k data) w₁) (hans : ans.Succeed)
    (hs₂ : World.Step env w₁ (.dequeue i k ans) w₂) :
    w₂.packets = World.record w.packets (w.srv.gCtxs i).socket [data] := by
  obtain ⟨hi, rfl, hops, hctx, hlen, _, hrec, _⟩ := received_leaves hg hs₁
  have hget : (w₁.pending i)[0]? =
      some ⟨.recv, (w.srv.gCtxs i).socket, 0, bufSize, .done data.length⟩ := by
    rw [hops, List.getElem?_cons_zero]
  have hm : data.length ≠ 0 := fun hz => hne (List.length_eq_zero_iff.mp hz)
  obtain ⟨_, hit⟩ := iterates_of_dequeue hg₁ hi hget rfl hans hs₂
  have hpackets := hit.packets_recv hm
  rw [(hg₁.holds hi hget rfl rfl hm).packet_eq, hctx, hrec.packets] at hpackets
  rw [hpackets, Buffer.slice_write _ rfl (by omega)]

/-! ## Accepting -/

/-- **What an iteration with key zero does**, when its calls succeed: the connection
gets a free slot or is refused, and the next accept is under way. -/
theorem accepts_of_dequeue {w w' : World Os} (hg : Good w) {k m : ℕ} {o : Op} {ans : Answers Os}
    (ho : (w.pending 0)[k]? = some o) (hst : o.status = .done m) (hans : ans.Succeed)
    (hs : World.Step env w (.dequeue 0 k ans) w') :
    ((∃ i, Admits ans w w' i) ∨ Refuses w w') ∧ w.SameRecords w' ∧ w'.fault = none ∧
      w'.pending 0 =
        (w.pending 0).eraseIdx k ++ [⟨.recv, (w.srv.gCtxs 0).socket, 0, 0, .posted⟩] := by
  have hrunning := hs.running
  obtain ⟨v, hv⟩ : ∃ v, v = w.setPending 0 ((w.pending 0).eraseIdx k) := ⟨_, rfl⟩
  have hsrv : v.srv = w.srv := by rw [hv, World.setPending_srv]
  have hothers : ∀ j, j ≠ 0 → v.pending j = w.pending j := fun j hj => by
    rw [hv, World.setPending_pending_of_ne _ _ hj]
  have hgv : Good v := hv ▸ hg.of_setPending_zero _
  have hw' : w' = v.acceptIteration ans m := by
    rw [hs.dequeue_eq ho hst, hv]
    rfl
  obtain ⟨hwire, hpackets, hreplies, hhandled, hfault⟩ := acceptIteration_records ans v m
  refine ⟨?_, ⟨?_, ?_, ?_, ?_⟩, ?_, ?_⟩
  · rw [hw']
    rcases hgv.acceptIteration_cases ans m with ⟨i, ha⟩ | hr
    · refine .inl ⟨i, ha.slot, hsrv ▸ ha.found, hsrv ▸ ha.wasFree, ?_, hsrv ▸ ha.srv,
        hsrv ▸ ha.ctx, hsrv ▸ ha.ops, hsrv ▸ ha.listener, fun j hj hji => ?_⟩
      · rw [← hothers i ha.slot]
        exact ha.wasIdle
      · rw [← hothers j hj, ← hsrv]
        exact ha.others j hj hji
    · refine .inr ⟨hsrv ▸ hr.full, hsrv ▸ hr.srv, hsrv ▸ hr.listener, fun j hj => ?_⟩
      rw [← hothers j hj, ← hsrv]
      exact hr.others j hj
  · rw [hw', hwire, hv, World.setPending_wire]
  · rw [hw', hpackets, hv, World.setPending_packets]
  · rw [hw', hreplies, hv, World.setPending_replies]
  · rw [hw', hhandled, hv, World.setPending_handled]
  · rw [hw', hfault, hv, World.setPending_fault]
    exact hrunning
  · rw [hw', acceptIteration_pending_zero ans m hgv.sockets.listener, if_pos hans.accepting, hsrv,
      hv, World.setPending_pending_self]

end Tcp
end BsitLabs
