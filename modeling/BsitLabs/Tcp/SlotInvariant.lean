import BsitLabs.Tcp.CompletionPort
import BsitLabs.Tcp.Packets

/-!
# What holds of every slot in every run

`SlotState c ops` lists the situations a client slot can be in, from its context
`c` and the operations `ops` outstanding or queued under its key:

* `free` --- the context is clear and there is nothing outstanding;
* `stuck` --- a connection holds the slot and there is nothing outstanding, after a
  call that failed or a completion that was an error;
* `busy` --- a connection holds the slot and exactly one operation of its own is
  outstanding or queued.

The invariant `Good` says that every client slot is in one of them, whatever the
clients send and whichever operation fails.  The reason is `SlotState` itself: each
handler runs when the slot's only operation has been taken off the queue, and
starts at most one.

A receive is only ever outstanding with `sz_recv = 0`, so what a receive brings is
the beginning of `buf_recv`, and a packet is what one receive brought.
-/

namespace BsitLabs
namespace Tcp

open MachineInt Transition

variable {Os : Type} {env : Env Os}

/-! ## Changes confined to one slot -/

/-- `s'` differs from `s` in the context of `idx` and in what the crypto calls
change, and the connection of `idx` is the same. -/
structure Server.Local (idx : Slot) (s s' : Server) : Prop where
  others : ∀ j, j ≠ idx → s'.gCtxs j = s.gCtxs j
  socket : (s'.gCtxs idx).socket = (s.gCtxs idx).socket
  accepted : s'.gAcceptedSocket = s.gAcceptedSocket
  sockets : s'.handles.sockets = s.handles.sockets
  closed : s'.handles.closed = s.handles.closed

theorem Server.Local.refl (idx : Slot) (s : Server) : s.Local idx s :=
  ⟨fun _ _ => rfl, rfl, rfl, rfl, rfl⟩

theorem Server.Local.trans {idx : Slot} {a b c : Server} (hab : a.Local idx b)
    (hbc : b.Local idx c) : a.Local idx c where
  others j hj := (hbc.others j hj).trans (hab.others j hj)
  socket := hbc.socket.trans hab.socket
  accepted := hbc.accepted.trans hab.accepted
  sockets := hbc.sockets.trans hab.sockets
  closed := hbc.closed.trans hab.closed

theorem Server.local_setCtx (s : Server) {idx : Slot} {c : ClientCtx}
    (h : c.socket = (s.gCtxs idx).socket) : s.Local idx (s.setCtx idx c) where
  others _ hj := s.setCtx_gCtxs_of_ne hj c
  socket := by rw [setCtx_gCtxs_self, h]
  accepted := rfl
  sockets := rfl
  closed := rfl

/-- The connection of every slot is the same. -/
theorem Server.Local.socket_eq {idx : Slot} {s s' : Server} (h : s.Local idx s') (j : Slot) :
    (s'.gCtxs j).socket = (s.gCtxs j).socket := by
  by_cases hj : j = idx
  · rw [hj]
    exact h.socket
  · rw [h.others j hj]

theorem Server.local_answKey (s : Server) (idx : Slot) : s.Local idx (s.answKey env idx) where
  others j hj := by simp [Server.answKey, hj]
  socket := by simp [Server.answKey, ClientCtx.answKey, ClientCtx.putBlob, ClientCtx.dropKeyMark]
  accepted := rfl
  sockets := rfl
  closed := rfl

/-- `overlap_recv_handler` after a receive of zero bytes. -/
theorem overlapRecvHandler_zero (ans : Answers Os) (s : Server) (idx : Slot) :
    overlapRecvHandler env ans s idx 0 = .ok (s, .cancel) := if_pos rfl

/-- **`overlap_recv_handler`** after a receive of some bytes gets through exactly
when the builder that the first byte selects does. -/
theorem overlapRecvHandler_eq_ok_iff {ans : Answers Os} {s s' : Server} {idx : Slot} {n : ℕ}
    {req : Request} (hn : n ≠ 0) :
    overlapRecvHandler env ans s idx n = .ok (s', req) ↔
      req = scheduleWrite s' idx ∧
      (((s.gCtxs idx).bufRecv.get 0 = 0 ∧
          KeyAccepted env ans ((s.gCtxs idx).count n) ∧
          s' = (s.setCtx idx ((s.gCtxs idx).count n)).answKey env idx) ∨
        ((s.gCtxs idx).bufRecv.get 0 ≠ 0 ∧
          ∃ ks t, MsgAccepted env ((s.gCtxs idx).count n) ks t ans.os ∧
            s' = s.setCtx idx (((s.gCtxs idx).count n).answMsg env ks t ans.os))) := by
  have hkey : clientSendCryptKey (s.setCtx idx ((s.gCtxs idx).count n)) idx =
      ((s.gCtxs idx).bufRecv.get 0 == 0) := by
    simp [clientSendCryptKey, ClientCtx.count]
  have hmap : overlapRecvHandler env ans s idx n = .ok (s', req) ↔
      formReply env ans (s.setCtx idx ((s.gCtxs idx).count n)) idx = .ok s' ∧
        req = scheduleWrite s' idx := by
    unfold overlapRecvHandler
    rw [if_neg hn]
    cases formReply env ans (s.setCtx idx ((s.gCtxs idx).count n)) idx with
    | error f => simp [Except.map]
    | ok a =>
      simp only [Except.map, Except.ok.injEq, Prod.mk.injEq]
      constructor
      · rintro ⟨rfl, rfl⟩
        exact ⟨rfl, rfl⟩
      · rintro ⟨rfl, rfl⟩
        exact ⟨rfl, rfl⟩
  rw [hmap, and_comm]
  refine and_congr_right fun _ => ?_
  unfold formReply
  rw [hkey]
  by_cases hmark : (s.gCtxs idx).bufRecv.get 0 = 0
  · rw [if_pos (by simpa using hmark), formAnswKey_eq_ok_iff]
    simp [hmark]
  · rw [if_neg (by simpa using hmark), msgHandler_eq_ok_iff]
    simp [hmark]

theorem overlapRecvHandler_local {ans : Answers Os} {s s' : Server} {idx : Slot} {n : ℕ}
    {req : Request} (h : overlapRecvHandler env ans s idx n = .ok (s', req)) :
    s.Local idx s' := by
  by_cases hn : n = 0
  · rw [hn, overlapRecvHandler_zero] at h
    cases h
    exact Server.Local.refl idx s
  · have hcount : s.Local idx (s.setCtx idx ((s.gCtxs idx).count n)) := s.local_setCtx rfl
    rcases ((overlapRecvHandler_eq_ok_iff hn).mp h).2 with ⟨_, _, rfl⟩ | ⟨_, ks, t, _, rfl⟩
    · exact hcount.trans (Server.local_answKey _ idx)
    · exact s.local_setCtx rfl

/-- **What an iteration with a receive can do**: nothing was received and the slot
is cancelled, or an assertion fails, or a reply is formed and its sending started. -/
theorem recvIteration_cases (env : Env Os) (ans : Answers Os) (w : World Os) (i : Slot) (n : ℕ) :
    (n = 0 ∧ w.recvIteration env ans i n = w.submit ans i .cancel) ∨
    (n ≠ 0 ∧ ∃ f, overlapRecvHandler env ans w.srv i n = .error f ∧
      w.recvIteration env ans i n = { w.actOn i n with fault := some f }) ∨
    (n ≠ 0 ∧ ∃ s, overlapRecvHandler env ans w.srv i n = .ok (s, scheduleWrite s i) ∧
      w.recvIteration env ans i n =
        ((w.actOn i n).reply ans i s).submit ans i (scheduleWrite s i)) := by
  by_cases hn : n = 0
  · refine .inl ⟨hn, ?_⟩
    simp only [World.recvIteration, hn, overlapRecvHandler_zero, if_true]
  · refine .inr ?_
    cases hrun : overlapRecvHandler env ans w.srv i n with
    | error f =>
      refine .inl ⟨hn, f, rfl, ?_⟩
      simp only [World.recvIteration, hrun]
    | ok r =>
      obtain ⟨s, req⟩ := r
      obtain rfl := ((overlapRecvHandler_eq_ok_iff hn).mp hrun).1
      refine .inr ⟨hn, s, rfl, ?_⟩
      simp only [World.recvIteration, hrun, if_neg hn]

/-- **What `overlap_send_handler` can do**: go on sending, or read the next packet. -/
theorem overlapSendHandler_cases (s : Server) (idx : Slot) (n : ℕ) :
    ((s.gCtxs idx).sendsOn n = true ∧ overlapSendHandler s idx n =
      (s.setCtx idx ((s.gCtxs idx).advance n),
        scheduleWrite (s.setCtx idx ((s.gCtxs idx).advance n)) idx)) ∨
    ((s.gCtxs idx).sendsOn n = false ∧ overlapSendHandler s idx n =
      (s.setCtx idx ((s.gCtxs idx).advance n).rearm,
        scheduleRead (s.setCtx idx ((s.gCtxs idx).advance n).rearm) idx)) := by
  cases h : (s.gCtxs idx).sendsOn n with
  | true => exact .inl ⟨rfl, if_pos h⟩
  | false => exact .inr ⟨rfl, if_neg (by simp [h])⟩

/-- An iteration with a receive that has brought nothing. -/
theorem exec_recv_zero (env : Env Os) (ans : Answers Os) (w : World Os) {i : Slot} (hi : i ≠ 0) :
    w.exec env ans i .recv 0 = w.submit ans i .cancel := by
  simp only [World.exec, if_neg hi, World.recvIteration, overlapRecvHandler_zero, if_true]

/-- An iteration with a receive whose reply is formed. -/
theorem exec_recv_of_ok {ans : Answers Os} {w : World Os} {i : Slot} {n : ℕ} {s : Server}
    (hi : i ≠ 0) (hn : n ≠ 0)
    (hrun : overlapRecvHandler env ans w.srv i n = .ok (s, scheduleWrite s i)) :
    w.exec env ans i .recv n = ((w.actOn i n).reply ans i s).submit ans i (scheduleWrite s i) := by
  simp only [World.exec, if_neg hi, World.recvIteration, hrun, if_neg hn]

/-- An iteration with a send that was the reply's last. -/
theorem exec_send_of_last {ans : Answers Os} {w : World Os} {i : Slot} {n : ℕ} (hi : i ≠ 0)
    (hlast : (w.srv.gCtxs i).sendsOn n = false) :
    w.exec env ans i .send n =
      { w with srv := w.srv.setCtx i ((w.srv.gCtxs i).advance n).rearm }.submit ans i
        (scheduleRead (w.srv.setCtx i ((w.srv.gCtxs i).advance n).rearm) i) := by
  simp only [World.exec, if_neg hi, World.sendIteration, overlapSendHandler, hlast,
    Bool.false_eq_true, if_false]

theorem overlapSendHandler_local (s : Server) (idx : Slot) (n : ℕ) :
    s.Local idx (overlapSendHandler s idx n).1 := by
  rcases overlapSendHandler_cases s idx n with ⟨_, h⟩ | ⟨_, h⟩
  · rw [h]
    exact s.local_setCtx rfl
  · rw [h]
    exact s.local_setCtx rfl

/-! ## The situations of a slot -/

/-- An operation that belongs to the connection of its slot. -/
inductive OpState (c : ClientCtx) : Op → Prop where
  | reading {st : Status} (hsz : c.szRecv = 0) (hst : ∀ n, st = .done n → n ≤ bufSize) :
      OpState c ⟨.recv, c.socket, 0, bufSize, st⟩
  | writing {st : Status} (hst : ∀ n, st = .done n → n ≤ usub c.szSendTotal c.szSend) :
      OpState c ⟨.send, c.socket, c.szSend, usub c.szSendTotal c.szSend, st⟩
  | closing : OpState c ⟨.cancel, c.socket, 0, 0, .done 0⟩

/-- The situations of a client slot. -/
inductive SlotState : ClientCtx → List Op → Prop where
  | free : SlotState ClientCtx.zero []
  | stuck {c : ClientCtx} (hsock : c.socket ≠ 0) : SlotState c []
  | busy {c : ClientCtx} {o : Op} (hsock : c.socket ≠ 0) (ho : OpState c o) : SlotState c [o]

/-- An operation knows its connection. -/
theorem OpState.sock {c : ClientCtx} {o : Op} (h : OpState c o) : o.sock = c.socket := by
  cases h <;> rfl

/-- A receive is one into the start of the buffer, and brings no more than fits. -/
theorem OpState.of_recv {c : ClientCtx} {o : Op} (h : OpState c o) (hb : o.block = .recv) :
    c.szRecv = 0 ∧ o.off = 0 ∧ o.len = bufSize ∧ ∀ n, o.status = .done n → n ≤ bufSize := by
  cases h with
  | reading hsz hst => exact ⟨hsz, rfl, rfl, hst⟩
  | _ => exact absurd hb (by simp)

/-- A send is one from `sz_send` on, and takes no more than the window. -/
theorem OpState.of_send {c : ClientCtx} {o : Op} (h : OpState c o) (hb : o.block = .send) :
    o.off = c.szSend ∧ o.len = usub c.szSendTotal c.szSend ∧
      ∀ n, o.status = .done n → n ≤ usub c.szSendTotal c.szSend := by
  cases h with
  | writing hst => exact ⟨rfl, rfl, hst⟩
  | _ => exact absurd hb (by simp)

/-- A receive that completes belongs to its connection as before. -/
theorem OpState.received {c : ClientCtx} {o : Op} (h : OpState c o) (hb : o.block = .recv)
    {n : ℕ} (hn : n ≤ o.len) (buf : Buffer bufSize) :
    OpState { c with bufRecv := buf } { o with status := .done n } := by
  cases h with
  | reading hsz _ =>
    exact .reading hsz fun m hm => by
      cases hm
      exact hn
  | _ => exact absurd hb (by simp)

/-- A send that completes belongs to its connection as before. -/
theorem OpState.sent {c : ClientCtx} {o : Op} (h : OpState c o) (hb : o.block = .send) {n : ℕ}
    (hn : n ≤ o.len) : OpState c { o with status := .done n } := by
  cases h with
  | writing _ =>
    exact .writing fun m hm => by
      cases hm
      exact hn
  | _ => exact absurd hb (by simp)

/-- So does an operation that fails. -/
theorem OpState.failed {c : ClientCtx} {o : Op} (h : OpState c o) (hst : o.status = .posted) :
    OpState c { o with status := .failed } := by
  cases h with
  | reading hsz _ => exact .reading hsz fun _ hn => by cases hn
  | writing _ => exact .writing fun _ hn => by cases hn
  | closing => exact absurd hst (by simp)

/-- **One operation a slot**: an operation found under a slot's key is the only one,
and the slot is occupied by the connection that started it. -/
theorem SlotState.of_getElem? {c : ClientCtx} {ops : List Op} (h : SlotState c ops) {k : ℕ}
    {o : Op} (ho : ops[k]? = some o) :
    ops = [o] ∧ k = 0 ∧ c.socket ≠ 0 ∧ OpState c o := by
  cases h with
  | free => simp at ho
  | stuck hsock => simp at ho
  | busy hsock hop =>
    rw [List.getElem?_singleton] at ho
    split at ho
    · obtain rfl := Option.some.inj ho
      exact ⟨rfl, ‹_›, hsock, hop⟩
    · simp at ho

/-- A free slot is clear and has nothing outstanding. -/
theorem SlotState.of_socket_eq_zero {c : ClientCtx} {ops : List Op} (h : SlotState c ops)
    (hsock : c.socket = 0) : c = ClientCtx.zero ∧ ops = [] := by
  cases h with
  | free => exact ⟨rfl, rfl⟩
  | stuck hne => exact absurd hsock hne
  | busy hne _ => exact absurd hsock hne

/-- A slot from which a request has just been started, or failed to start. -/
theorem SlotState.of_submit {w : World Os} {i : Slot} {ans : Answers Os} {req : Request}
    (hnone : w.pending i = []) (hsock : (w.srv.gCtxs i).socket ≠ 0)
    (hop : OpState (w.srv.gCtxs i) (req.op (w.srv.gCtxs i).socket)) :
    SlotState ((w.submit ans i req).srv.gCtxs i) ((w.submit ans i req).pending i) := by
  rw [World.submit_srv, World.submit_pending_self w i ans req hnone]
  split
  · exact .busy hsock hop
  · exact .stuck hsock

theorem OpState.of_scheduleRead {s : Server} {idx : Slot} (h : (s.gCtxs idx).szRecv = 0) :
    OpState (s.gCtxs idx) ((scheduleRead s idx).op (s.gCtxs idx).socket) := by
  have hlen : usub bufSize 0 = bufSize := rfl
  unfold scheduleRead Request.op
  rw [h, hlen]
  exact .reading h (fun _ hn => by cases hn)

theorem OpState.of_scheduleWrite (s : Server) (idx : Slot) :
    OpState (s.gCtxs idx) ((scheduleWrite s idx).op (s.gCtxs idx).socket) :=
  .writing fun _ hn => by cases hn

/-! ## The handlers keep the situations -/

section Iterations

variable {ans : Answers Os} {w : World Os} {i : Slot} {n : ℕ}

theorem slotState_recvIteration (hnone : w.pending i = [])
    (hsock : (w.srv.gCtxs i).socket ≠ 0) :
    SlotState ((w.recvIteration env ans i n).srv.gCtxs i)
      ((w.recvIteration env ans i n).pending i) := by
  rcases recvIteration_cases env ans w i n with ⟨_, h⟩ | ⟨_, f, _, h⟩ | ⟨_, s, hrun, h⟩
  · rw [h]
    exact .of_submit hnone hsock .closing
  · rw [h]
    have hpend : ({ w.actOn i n with fault := some f } : World Os).pending i = [] := hnone
    rw [hpend]
    exact .stuck hsock
  · rw [h]
    have hsock' : (s.gCtxs i).socket ≠ 0 := by
      rw [(overlapRecvHandler_local hrun).socket]
      exact hsock
    exact .of_submit hnone hsock' (.of_scheduleWrite s i)

theorem slotState_sendIteration (hnone : w.pending i = [])
    (hsock : (w.srv.gCtxs i).socket ≠ 0) :
    SlotState ((w.sendIteration ans i n).srv.gCtxs i)
      ((w.sendIteration ans i n).pending i) := by
  unfold World.sendIteration
  rcases overlapSendHandler_cases w.srv i n with ⟨_, h⟩ | ⟨_, h⟩
  · rw [h]
    refine .of_submit hnone ?_ (.of_scheduleWrite _ i)
    simpa using hsock
  · rw [h]
    refine .of_submit hnone ?_ (.of_scheduleRead ?_)
    · simpa using hsock
    · simp [ClientCtx.rearm]

/-- An iteration with a receive leaves every other slot alone. -/
theorem recvIteration_others (env : Env Os) (ans : Answers Os) (w : World Os) (n : ℕ)
    {i j : Slot} (hj : j ≠ i) :
    (w.recvIteration env ans i n).srv.gCtxs j = w.srv.gCtxs j ∧
      (w.recvIteration env ans i n).pending j = w.pending j := by
  rcases recvIteration_cases env ans w i n with ⟨_, h⟩ | ⟨_, f, _, h⟩ | ⟨_, s, hrun, h⟩
  · rw [h]
    exact ⟨rfl, World.submit_pending_of_ne _ _ _ _ hj⟩
  · rw [h]
    exact ⟨rfl, rfl⟩
  · rw [h]
    exact ⟨(overlapRecvHandler_local hrun).others j hj, World.submit_pending_of_ne _ _ _ _ hj⟩

/-- An iteration with a send leaves every other slot alone. -/
theorem sendIteration_others (ans : Answers Os) (w : World Os) (n : ℕ) {i j : Slot} (hj : j ≠ i) :
    (w.sendIteration ans i n).srv.gCtxs j = w.srv.gCtxs j ∧
      (w.sendIteration ans i n).pending j = w.pending j :=
  ⟨(overlapSendHandler_local w.srv i n).others j hj, World.submit_pending_of_ne _ _ _ _ hj⟩

/-! ## The sockets

Every socket made is fresh, a connection is in one slot, and a socket is closed at
most once, after which no slot has it. -/

/-- What holds of the sockets between two iterations. -/
structure SocketsOk (s : Server) : Prop where
  /-- The socket of the accept under way is the latest. -/
  accepted : s.gAcceptedSocket = s.handles.sockets
  /-- The sockets in the slots are older. -/
  below : ∀ i, (s.gCtxs i).socket < s.gAcceptedSocket
  /-- A connection has one slot. -/
  injective : ∀ i j, (s.gCtxs i).socket ≠ 0 → (s.gCtxs i).socket = (s.gCtxs j).socket → i = j
  /-- A socket in a slot has not been closed. -/
  live : ∀ i, (s.gCtxs i).socket ≠ 0 → (s.gCtxs i).socket ∉ s.handles.closed
  /-- Closed sockets are older than the one under way. -/
  closedBelow : ∀ c ∈ s.handles.closed, c < s.gAcceptedSocket
  /-- No socket is closed twice. -/
  nodup : s.handles.closed.Nodup
  /-- The listening socket. -/
  listener : (s.gCtxs 0).socket ≠ 0

theorem SocketsOk.of_local {idx : Slot} {s s' : Server} (h : SocketsOk s)
    (hl : s.Local idx s') : SocketsOk s' where
  accepted := by rw [hl.accepted, hl.sockets, h.accepted]
  below i := by
    rw [hl.socket_eq, hl.accepted]
    exact h.below i
  injective i j := by
    rw [hl.socket_eq, hl.socket_eq]
    exact h.injective i j
  live i := by
    rw [hl.socket_eq, hl.closed]
    exact h.live i
  closedBelow := by
    rw [hl.closed, hl.accepted]
    exact h.closedBelow
  nodup := by
    rw [hl.closed]
    exact h.nodup
  listener := by
    rw [hl.socket_eq]
    exact h.listener

/-- `overlap_cancel_handler` closes a socket that has not been closed before. -/
theorem SocketsOk.of_cancel {s : Server} {idx : Slot} (h : SocketsOk s) (hidx : idx ≠ 0)
    (hsock : (s.gCtxs idx).socket ≠ 0) : SocketsOk (overlapCancelHandler s idx) := by
  have hctx : ∀ i, ((overlapCancelHandler s idx).gCtxs i).socket =
      if i = idx then 0 else (s.gCtxs i).socket := by
    intro i
    by_cases hi : i = idx
    · simp [overlapCancelHandler, Server.setCtx, hi, ClientCtx.zero]
    · simp [overlapCancelHandler, Server.setCtx, hi]
  have hclosed : (overlapCancelHandler s idx).handles.closed =
      s.handles.closed ++ [(s.gCtxs idx).socket] := rfl
  refine ⟨h.accepted, fun i => ?_, fun i j hi hij => ?_, fun i hi => ?_, fun c hc => ?_, ?_, ?_⟩
  · have hpos := lt_of_le_of_lt (Nat.zero_le _) (h.below idx)
    rw [hctx]
    split
    · exact hpos
    · exact h.below i
  · rw [hctx] at hi
    rw [hctx, hctx] at hij
    by_cases hne : i = idx
    · exact absurd (if_pos hne) hi
    · rw [if_neg hne] at hi hij
      split at hij
      · exact absurd hij hi
      · exact h.injective i j hi hij
  · rw [hctx] at hi ⊢
    rw [hclosed]
    split at hi
    · exact absurd rfl hi
    · rename_i hne
      rw [if_neg hne, List.mem_append, List.mem_singleton, not_or]
      exact ⟨h.live i hi, fun heq => hne (h.injective i idx hi heq)⟩
  · rw [hclosed, List.mem_append, List.mem_singleton] at hc
    rcases hc with hc | rfl
    · exact h.closedBelow c hc
    · exact h.below idx
  · rw [hclosed, ← List.concat_eq_append]
    exact h.nodup.concat (h.live idx hsock)
  · rw [hctx, if_neg hidx.symm]
    exact h.listener

/-! ## Accepting -/

/-- The slot the search finds is free, and is one of those searched. -/
theorem findFree_eq_some {s : Server} {i : Slot} (h : findFree s = some i) :
    (s.gCtxs i).socket = 0 ∧ i.val < maxClients := by
  have hp := List.find?_some h
  have hm := List.mem_of_find?_eq_some h
  refine ⟨by simpa using hp, ?_⟩
  obtain ⟨j, rfl⟩ := (List.mem_ofFn' _ _).mp hm
  exact j.isLt

/-- The search fails exactly when every searched slot is taken. -/
theorem findFree_eq_none_iff {s : Server} :
    findFree s = none ↔ ∀ i : Slot, i.val < maxClients → (s.gCtxs i).socket ≠ 0 := by
  unfold findFree
  rw [List.find?_eq_none]
  constructor
  · intro h i hi
    simpa using h i ((List.mem_ofFn' _ _).mpr ⟨⟨i.val, hi⟩, rfl⟩)
  · intro h i hi
    obtain ⟨j, rfl⟩ := (List.mem_ofFn' _ _).mp hi
    simpa using h _ j.isLt

/-- The search looks at the sockets only. -/
theorem findFree_congr {s s' : Server} (h : ∀ i, (s'.gCtxs i).socket = (s.gCtxs i).socket) :
    findFree s' = findFree s := by
  unfold findFree
  simp only [h]

/-- The accepted socket, being fresh, may take a slot. -/
theorem SocketsOk.of_place {s : Server} {i : Slot} (h : SocketsOk s) (hi : i ≠ 0) :
    SocketsOk (scheduleAccept (s.place i)) := by
  have hctx : ∀ j, ((scheduleAccept (s.place i)).gCtxs j).socket =
      if j = i then s.gAcceptedSocket else (s.gCtxs j).socket := by
    intro j
    by_cases hj : j = i
    · simp [scheduleAccept, Server.place, Server.setCtx, hj]
    · simp [scheduleAccept, Server.place, Server.setCtx, hj]
  have hnext : (scheduleAccept (s.place i)).gAcceptedSocket = s.gAcceptedSocket + 1 := by
    rw [h.accepted]
    rfl
  refine ⟨rfl, fun j => ?_, fun j k hj hjk => ?_, fun j hj => ?_, fun c hc => ?_, h.nodup, ?_⟩
  · have hbelow := h.below j
    rw [hctx, hnext]
    split <;> omega
  · rw [hctx] at hj
    rw [hctx, hctx] at hjk
    have hbj := h.below j
    have hbk := h.below k
    by_cases hji : j = i <;> by_cases hki : k = i
    · rw [hji, hki]
    · rw [if_pos hji, if_neg hki] at hjk
      omega
    · rw [if_neg hji, if_pos hki] at hjk
      omega
    · rw [if_neg hji] at hj hjk
      rw [if_neg hki] at hjk
      exact h.injective j k hj hjk
  · rw [hctx] at hj ⊢
    split at hj
    · rename_i hji
      rw [if_pos hji]
      exact fun hc => (h.closedBelow _ hc).ne rfl
    · rename_i hji
      rw [if_neg hji]
      exact h.live j hj
  · have hlt := h.closedBelow c hc
    rw [hnext]
    omega
  · rw [hctx, if_neg hi.symm]
    exact h.listener

/-- A refused socket is closed, and was never in a slot. -/
theorem SocketsOk.of_refuse {s : Server} (h : SocketsOk s) :
    SocketsOk (scheduleAccept s.refuse) := by
  have hnext : (scheduleAccept s.refuse).gAcceptedSocket = s.gAcceptedSocket + 1 := by
    rw [h.accepted]
    rfl
  have hclosed : (scheduleAccept s.refuse).handles.closed =
      s.handles.closed ++ [s.gAcceptedSocket] := rfl
  refine ⟨rfl, fun j => ?_, h.injective, fun j hj => ?_, fun c hc => ?_, ?_, h.listener⟩
  · have hbelow : ((scheduleAccept s.refuse).gCtxs j).socket < s.gAcceptedSocket := h.below j
    rw [hnext]
    omega
  · rw [hclosed, List.mem_append, List.mem_singleton, not_or]
    exact ⟨h.live j hj, (h.below j).ne⟩
  · rw [hclosed, List.mem_append, List.mem_singleton] at hc
    rw [hnext]
    rcases hc with hc | rfl
    · have hlt := h.closedBelow c hc
      omega
    · omega
  · rw [hclosed, ← List.concat_eq_append]
    exact h.nodup.concat fun hc => (h.closedBelow _ hc).ne rfl

/-- **What an iteration with key zero can do**: give the connection a free slot and
start its first read, or refuse it; then accept the next one. -/
theorem acceptIteration_cases (ans : Answers Os) (w : World Os) (n : ℕ) :
    (∃ i, findFree (w.srv.setCtx 0 ((w.srv.gCtxs 0).count n)) = some i ∧
      (w.acceptIteration ans n).srv =
        scheduleAccept ((w.srv.setCtx 0 ((w.srv.gCtxs 0).count n)).place i) ∧
      ∀ j, j ≠ 0 → (w.acceptIteration ans n).pending j =
        if j = i ∧ ans.associated = true then
          (World.submit ans { w with srv := (w.srv.setCtx 0 ((w.srv.gCtxs 0).count n)).place i } i
            (scheduleRead ((w.srv.setCtx 0 ((w.srv.gCtxs 0).count n)).place i) i)).pending i
        else w.pending j) ∨
    (findFree (w.srv.setCtx 0 ((w.srv.gCtxs 0).count n)) = none ∧
      (w.acceptIteration ans n).srv =
        scheduleAccept (w.srv.setCtx 0 ((w.srv.gCtxs 0).count n)).refuse ∧
      ∀ j, j ≠ 0 → (w.acceptIteration ans n).pending j = w.pending j) := by
  have hpend : ∀ (v : World Os) (j : Slot),
      j ≠ 0 → (v.startAccept ans).pending j = v.pending j := by
    intro v j hj
    unfold World.startAccept
    split
    · exact World.setPending_pending_of_ne _ _ hj _
    · rfl
  have hsrv : ∀ v : World Os, (v.startAccept ans).srv = v.srv := by
    intro v
    unfold World.startAccept
    split <;> rfl
  unfold World.acceptIteration World.accepting addAcceptedConnection
  cases hf : findFree (w.srv.setCtx 0 ((w.srv.gCtxs 0).count n)) with
  | none => exact .inr ⟨rfl, hsrv _, fun j hj => hpend _ j hj⟩
  | some i =>
    refine .inl ⟨i, rfl, ?_⟩
    cases hassoc : ans.associated with
    | false =>
      refine ⟨hsrv _, fun j hj => ?_⟩
      rw [if_neg (by simp)]
      exact hpend _ j hj
    | true =>
      refine ⟨hsrv _, fun j hj => ?_⟩
      rw [hpend _ j hj]
      by_cases hji : j = i
      · rw [if_pos ⟨hji, rfl⟩, hji]
        rfl
      · rw [if_neg (fun h => hji h.1)]
        exact World.submit_pending_of_ne _ _ _ _ hji

/-- An iteration with key zero leaves the connections' records alone. -/
theorem acceptIteration_records (ans : Answers Os) (w : World Os) (n : ℕ) :
    (w.acceptIteration ans n).wire = w.wire ∧ (w.acceptIteration ans n).packets = w.packets ∧
      (w.acceptIteration ans n).replies = w.replies ∧
      (w.acceptIteration ans n).handled = w.handled ∧
      (w.acceptIteration ans n).fault = w.fault := by
  unfold World.acceptIteration World.accepting addAcceptedConnection
  cases findFree (w.srv.setCtx 0 ((w.srv.gCtxs 0).count n)) with
  | none => cases h : ans.accepting <;> simp [World.startAccept, World.startRead, h]
  | some i =>
    cases h : ans.accepting <;> cases h' : ans.associated <;>
      simp [World.startAccept, World.startRead, h]

/-- After an iteration with key zero the next accept is under way, if it could be
started. -/
theorem acceptIteration_pending_zero (ans : Answers Os) {w : World Os} (n : ℕ)
    (hlistener : (w.srv.gCtxs 0).socket ≠ 0) :
    (w.acceptIteration ans n).pending 0 =
      w.pending 0 ++
        if ans.accepting then [⟨.recv, (w.srv.gCtxs 0).socket, 0, 0, .posted⟩] else [] := by
  have hstart : ∀ v : World Os, (v.startAccept ans).pending 0 = v.pending 0 ++
      if ans.accepting then [⟨.recv, (v.srv.gCtxs 0).socket, 0, 0, .posted⟩] else [] := by
    intro v
    unfold World.startAccept
    split <;> simp
  have hloc : w.srv.Local 0 (w.srv.setCtx 0 ((w.srv.gCtxs 0).count n)) := w.srv.local_setCtx rfl
  unfold World.acceptIteration World.accepting addAcceptedConnection
  cases hf : findFree (w.srv.setCtx 0 ((w.srv.gCtxs 0).count n)) with
  | none =>
    rw [hstart]
    have hsock := hloc.socket
    simp only [World.startRead, scheduleAccept, Server.refuse_gCtxs, hsock]
  | some i =>
    have hfree := (findFree_eq_some hf).1
    rw [hloc.socket_eq] at hfree
    have hi : (0 : Slot) ≠ i := by
      rintro rfl
      exact hlistener hfree
    have hsock : ((w.srv.setCtx 0 ((w.srv.gCtxs 0).count n)).place i).gCtxs 0 =
        (w.srv.gCtxs 0).count n := by
      rw [Server.place, Server.setCtx_gCtxs_of_ne _ hi, Server.setCtx_gCtxs_self]
    rw [hstart]
    cases ans.associated with
    | false => simp only [World.startRead, scheduleAccept, hsock, ClientCtx.count_socket,
        Bool.false_eq_true, if_false]
    | true => simp only [World.startRead, scheduleAccept, World.submit_srv, hsock,
        ClientCtx.count_socket, if_true, World.submit_pending_of_ne _ _ _ _ hi]

/-! ## The invariant -/

/-- What holds between two iterations, in every run. -/
structure Good (w : World Os) : Prop where
  /-- Every client slot is in one of its situations. -/
  slots : ∀ i, i ≠ 0 → SlotState (w.srv.gCtxs i) (w.pending i)
  /-- The sockets are in order. -/
  sockets : SocketsOk w.srv

theorem good_initial (accepting : Bool) : Good (World.initial accepting : World Os) where
  slots i hi := by
    have hctx : (World.initial accepting : World Os).srv.gCtxs i = ClientCtx.zero := by
      simp [World.initial, hi]
    have hpend : (World.initial accepting : World Os).pending i = [] := by simp [World.initial, hi]
    rw [hctx, hpend]
    exact .free
  sockets := by
    have hctx : ∀ i, ((World.initial accepting : World Os).srv.gCtxs i).socket =
        if i = 0 then 1 else 0 := by
      intro i
      by_cases hi : i = 0
      · simp [World.initial, hi]
      · simp [World.initial, hi, ClientCtx.zero]
    have hclosed : (World.initial accepting : World Os).srv.handles.closed = [] := rfl
    refine ⟨rfl, fun i => ?_, fun i j hi hij => ?_, fun i _ => ?_, fun c hc => ?_, ?_, ?_⟩
    · rw [hctx]
      show _ < 2
      split <;> omega
    · rw [hctx] at hi
      rw [hctx, hctx] at hij
      by_cases hi0 : i = 0 <;> by_cases hj0 : j = 0
      · rw [hi0, hj0]
      · simp [hi0, hj0] at hij
      · simp [hi0, hj0] at hij
      · simp [hi0] at hi
    · rw [hclosed]
      exact List.not_mem_nil
    · rw [hclosed] at hc
      exact absurd hc List.not_mem_nil
    · rw [hclosed]
      exact List.nodup_nil
    · rw [hctx]
      simp

/-- When the situation of one slot has changed, that slot decides. -/
theorem Good.of_others {w w' : World Os} (h : Good w) (i : Slot) (hsockets : SocketsOk w'.srv)
    (hothers : ∀ j, j ≠ 0 → j ≠ i → w'.srv.gCtxs j = w.srv.gCtxs j ∧ w'.pending j = w.pending j)
    (hslot : i ≠ 0 → SlotState (w'.srv.gCtxs i) (w'.pending i)) : Good w' where
  slots j hj := by
    by_cases hji : j = i
    · rw [hji] at hj ⊢
      exact hslot hj
    · obtain ⟨hctx, hpend⟩ := hothers j hj hji
      rw [hctx, hpend]
      exact h.slots j hj
  sockets := hsockets

/-- The iteration has given the accepted connection the slot `i`. -/
structure Admits (ans : Answers Os) (w w' : World Os) (i : Slot) : Prop where
  slot : i ≠ 0
  found : findFree w.srv = some i
  wasFree : w.srv.gCtxs i = ClientCtx.zero
  wasIdle : w.pending i = []
  srv : w'.srv = scheduleAccept ((w.srv.setCtx 0 (w'.srv.gCtxs 0)).place i)
  ctx : w'.srv.gCtxs i = { ClientCtx.zero with socket := w.srv.gAcceptedSocket }
  ops : w'.pending i = if ans.associated && ans.started then
    [⟨.recv, w.srv.gAcceptedSocket, 0, bufSize, .posted⟩] else []
  listener : (w'.srv.gCtxs 0).socket = (w.srv.gCtxs 0).socket
  others : ∀ j, j ≠ 0 → j ≠ i → w'.srv.gCtxs j = w.srv.gCtxs j ∧ w'.pending j = w.pending j

/-- The iteration has closed the accepted connection for want of a slot. -/
structure Refuses (w w' : World Os) : Prop where
  full : findFree w.srv = none
  srv : w'.srv = scheduleAccept (w.srv.setCtx 0 (w'.srv.gCtxs 0)).refuse
  listener : (w'.srv.gCtxs 0).socket = (w.srv.gCtxs 0).socket
  others : ∀ j, j ≠ 0 → w'.srv.gCtxs j = w.srv.gCtxs j ∧ w'.pending j = w.pending j

/-- **What an iteration with key zero does to the slots**: the connection gets a free
one or is refused. -/
theorem Good.acceptIteration_cases {w : World Os} (h : Good w) (ans : Answers Os) (n : ℕ) :
    (∃ i, Admits ans w (w.acceptIteration ans n) i) ∨ Refuses w (w.acceptIteration ans n) := by
  have hloc : w.srv.Local 0 (w.srv.setCtx 0 ((w.srv.gCtxs 0).count n)) := w.srv.local_setCtx rfl
  have hcongr := findFree_congr (fun i => hloc.socket_eq i)
  rcases BsitLabs.Tcp.acceptIteration_cases ans w n with
    ⟨i, hf, hsrv, hpend⟩ | ⟨hf, hsrv, hpend⟩
  · rw [hcongr] at hf
    have hfree := (findFree_eq_some hf).1
    have hi : i ≠ 0 := fun hi => h.sockets.listener (hi ▸ hfree)
    obtain ⟨hzero, hnone⟩ := (h.slots i hi).of_socket_eq_zero hfree
    have hctx : (w.srv.setCtx 0 ((w.srv.gCtxs 0).count n)).gCtxs i = ClientCtx.zero := by
      rw [Server.setCtx_gCtxs_of_ne _ hi, hzero]
    have hctx' : ((w.srv.setCtx 0 ((w.srv.gCtxs 0).count n)).place i).gCtxs i =
        { ClientCtx.zero with socket := w.srv.gAcceptedSocket } := by
      simp [Server.place, hctx]
    have hlistener : (w.acceptIteration ans n).srv.gCtxs 0 = (w.srv.gCtxs 0).count n := by
      rw [hsrv]
      simp only [scheduleAccept, Server.place]
      rw [Server.setCtx_gCtxs_of_ne _ hi.symm, Server.setCtx_gCtxs_self]
    refine .inl ⟨i, hi, hf, hzero, hnone, ?_, ?_, ?_, ?_, fun j hj hji => ⟨?_, ?_⟩⟩
    · rw [hlistener, hsrv]
    · rw [hsrv]
      exact hctx'
    · rw [hpend i hi]
      cases ans.associated with
      | false => simp [hnone]
      | true =>
        have hnone' : ({ w with srv := (w.srv.setCtx 0 ((w.srv.gCtxs 0).count n)).place i } :
            World Os).pending i = [] := hnone
        rw [if_pos ⟨rfl, rfl⟩, World.submit_pending_self _ _ _ _ hnone']
        simp only [scheduleRead, Request.starts, Request.op, hctx', Bool.true_and]
        rfl
    · rw [hlistener, ClientCtx.count_socket]
    · rw [hsrv]
      simp only [scheduleAccept, Server.place]
      rw [Server.setCtx_gCtxs_of_ne _ hji, Server.setCtx_gCtxs_of_ne _ hj]
    · rw [hpend j hj, if_neg (fun hh => hji hh.1)]
  · rw [hcongr] at hf
    have hlistener : (w.acceptIteration ans n).srv.gCtxs 0 = (w.srv.gCtxs 0).count n := by
      rw [hsrv]
      simp only [scheduleAccept, Server.refuse_gCtxs, Server.setCtx_gCtxs_self]
    refine .inr ⟨hf, ?_, ?_, fun j hj => ⟨?_, hpend j hj⟩⟩
    · rw [hlistener, hsrv]
    · rw [hlistener, ClientCtx.count_socket]
    · rw [hsrv]
      exact hloc.others j hj

/-- An iteration with key zero keeps the invariant. -/
theorem good_acceptIteration {w : World Os} (h : Good w) (ans : Answers Os) (n : ℕ) :
    Good (w.acceptIteration ans n) := by
  rcases h.acceptIteration_cases ans n with ⟨i, ha⟩ | hr
  · have hpos : w.srv.gAcceptedSocket ≠ 0 :=
      (lt_of_le_of_lt (Nat.zero_le _) (h.sockets.below 0)).ne'
    refine h.of_others i ?_ ha.others fun _ => ?_
    · rw [ha.srv]
      exact (h.sockets.of_local (w.srv.local_setCtx ha.listener)).of_place ha.slot
    · rw [ha.ctx, ha.ops]
      split
      · exact .busy hpos (.reading rfl fun _ hn => by cases hn)
      · exact .stuck hpos
  · refine h.of_others 0 ?_ (fun j hj _ => hr.others j hj) fun hne => absurd rfl hne
    rw [hr.srv]
    exact (h.sockets.of_local (w.srv.local_setCtx hr.listener)).of_refuse

end Iterations

/-- Operations replaced under key zero do not touch the client slots. -/
theorem Good.of_setPending_zero {w : World Os} (h : Good w) (ops : List Op) :
    Good (w.setPending 0 ops) :=
  h.of_others 0 h.sockets (fun _ hj _ => ⟨rfl, World.setPending_pending_of_ne _ _ hj _⟩)
    fun hne => absurd rfl hne

/-- A slot's operations may change as long as its situation is one of those listed. -/
theorem Good.of_setPending {w : World Os} (h : Good w) {i : Slot} {ops : List Op}
    (hs : SlotState (w.srv.gCtxs i) ops) : Good (w.setPending i ops) := by
  refine h.of_others i h.sockets (fun _ _ hji => ⟨rfl, ?_⟩) fun _ => ?_
  · exact World.setPending_pending_of_ne _ _ hji _
  · rw [World.setPending_pending_self]
    exact hs

/-- Taking a slot's only operation off the queue. -/
theorem SlotState.dequeued {c : ClientCtx} {ops : List Op} (h : SlotState c ops) {k : ℕ}
    {o : Op} (ho : ops[k]? = some o) : ops.eraseIdx k = [] ∧ SlotState c (ops.eraseIdx k) := by
  obtain ⟨rfl, rfl, hsock, _⟩ := h.of_getElem? ho
  exact ⟨rfl, .stuck hsock⟩

/-- Replacing a slot's only operation. -/
theorem SlotState.replaced {c : ClientCtx} {ops : List Op} (h : SlotState c ops) {k : ℕ}
    {o o' : Op} (ho : ops[k]? = some o) : ops.set k o' = [o'] := by
  obtain ⟨rfl, rfl, _, _⟩ := h.of_getElem? ho
  rfl

/-- One iteration of the loop keeps the invariant. -/
theorem good_exec {w : World Os} (h : Good w) {i : Slot} (hnone : i ≠ 0 → w.pending i = [])
    (hsock : i ≠ 0 → (w.srv.gCtxs i).socket ≠ 0) (ans : Answers Os) (block : Block) (n : ℕ) :
    Good (w.exec env ans i block n) := by
  unfold World.exec
  by_cases hi : i = 0
  · rw [if_pos hi]
    exact good_acceptIteration h ans n
  rw [if_neg hi]
  have hnone := hnone hi
  have hsock := hsock hi
  cases block with
  | recv =>
    refine h.of_others i ?_ (fun _ _ hji => recvIteration_others env ans w n hji)
      fun _ => slotState_recvIteration hnone hsock
    rcases recvIteration_cases env ans w i n with ⟨_, heq⟩ | ⟨_, f, _, heq⟩ | ⟨_, s, hrun, heq⟩
    · simp only [heq]
      exact h.sockets
    · simp only [heq]
      exact h.sockets
    · simp only [heq]
      exact h.sockets.of_local (overlapRecvHandler_local hrun)
  | send =>
    exact h.of_others i (h.sockets.of_local (overlapSendHandler_local w.srv i n))
      (fun _ _ hji => sendIteration_others ans w n hji)
      fun _ => slotState_sendIteration hnone hsock
  | cancel =>
    refine h.of_others i (h.sockets.of_cancel hi hsock) (fun j _ hji => ⟨?_, rfl⟩) fun _ => ?_
    · simp [overlapCancelHandler, Server.setCtx, hji]
    · have hctx : (overlapCancelHandler w.srv i).gCtxs i = ClientCtx.zero := by
        simp [overlapCancelHandler, Server.setCtx]
      simp only [hctx, hnone]
      exact .free

/-- **Every step keeps the invariant**, failing operations included. -/
theorem good_step {w w' : World Os} {e : Event Os} (h : Good w) (hs : World.Step env w e w') :
    Good w' := by
  cases hs with
  | accepted running ho hst => exact h.of_setPending_zero _
  | @received i k data o running hi ho hst hb hlen =>
    obtain ⟨_, _, hsock, hop⟩ := (h.slots i hi).of_getElem? ho
    refine h.of_others i (h.sockets.of_local (w.srv.local_setCtx rfl))
      (fun j _ hji => ⟨?_, World.setPending_pending_of_ne _ _ hji _⟩) fun _ => ?_
    · exact w.srv.setCtx_gCtxs_of_ne hji _
    · rw [World.setPending_pending_self, (h.slots i hi).replaced ho]
      simp only [World.setPending_srv, World.store, Server.setCtx_gCtxs_self]
      exact .busy hsock (hop.received hb hlen _)
  | @sent i k n o running hi ho hst hb hlen =>
    obtain ⟨_, _, hsock, hop⟩ := (h.slots i hi).of_getElem? ho
    have hdelivered : Good (w.deliver i o n) := ⟨h.slots, h.sockets⟩
    refine hdelivered.of_setPending ?_
    rw [(h.slots i hi).replaced ho]
    exact .busy hsock (hop.sent hb hlen)
  | @failed i k o running ho hst =>
    by_cases hi : i = 0
    · subst hi
      exact h.of_setPending_zero _
    obtain ⟨_, _, hsock, hop⟩ := (h.slots i hi).of_getElem? ho
    refine h.of_setPending ?_
    rw [(h.slots i hi).replaced ho]
    exact .busy hsock (hop.failed hst)
  | @dequeue i k n ans o running ho hst =>
    by_cases hi : i = 0
    · subst hi
      exact good_exec (h.of_setPending_zero _) (fun hne => absurd rfl hne)
        (fun hne => absurd rfl hne) ans o.block n
    · obtain ⟨hnil, hslot⟩ := (h.slots i hi).dequeued ho
      obtain ⟨_, _, hsock, _⟩ := (h.slots i hi).of_getElem? ho
      refine good_exec (h.of_setPending hslot) (fun _ => ?_) (fun _ => hsock) ans o.block n
      rw [World.setPending_pending_self, hnil]
  | @dropped i k ans o running ho hst =>
    by_cases hi : i = 0
    · subst hi
      exact h.of_setPending_zero _
    · exact h.of_setPending ((h.slots i hi).dequeued ho).2

/-- **The invariant holds in every run.** -/
theorem good_reachable {accepting : Bool} {w : World Os}
    (h : (machine env accepting).Reachable w) : Good w :=
  h.invariant (P := Good)
    (fun s hi => by
      obtain rfl : s = World.initial accepting := hi
      exact good_initial accepting)
    fun _ _ _ _ hg hs => good_step hg hs

/-- A receive that is queued found nothing received before it, and its bytes fit. -/
theorem Good.recv_done {w : World Os} (hg : Good w) {i : Slot} (hi : i ≠ 0) {k n : ℕ} {o : Op}
    (ho : (w.pending i)[k]? = some o) (hb : o.block = .recv) (hst : o.status = .done n) :
    (w.srv.gCtxs i).szRecv = 0 ∧ n ≤ bufSize := by
  obtain ⟨_, _, _, hop⟩ := (hg.slots i hi).of_getElem? ho
  obtain ⟨hsz, _, _, hle⟩ := hop.of_recv hb
  exact ⟨hsz, hle n hst⟩

/-- A send that is queued took bytes from `sz_send` on, and no more than the window. -/
theorem Good.send_done {w : World Os} (hg : Good w) {i : Slot} (hi : i ≠ 0) {k n : ℕ} {o : Op}
    (ho : (w.pending i)[k]? = some o) (hb : o.block = .send) (hst : o.status = .done n) :
    o.off = (w.srv.gCtxs i).szSend ∧
      n ≤ usub (w.srv.gCtxs i).szSendTotal (w.srv.gCtxs i).szSend := by
  obtain ⟨_, _, _, hop⟩ := (hg.slots i hi).of_getElem? ho
  obtain ⟨hoff, _, hle⟩ := hop.of_send hb
  exact ⟨hoff, hle n hst⟩

/-- A receive that is queued has brought a packet to the start of `buf_recv`. -/
theorem Good.holds {w : World Os} (hg : Good w) {i : Slot} (hi : i ≠ 0) {k n : ℕ} {o : Op}
    (ho : (w.pending i)[k]? = some o) (hb : o.block = .recv) (hst : o.status = .done n)
    (hn : n ≠ 0) :
    Holds ((w.srv.gCtxs i).count n) ((w.srv.gCtxs i).bufRecv.slice 0 n) := by
  obtain ⟨hsz, hle⟩ := hg.recv_done hi ho hb hst
  have hlen : ((w.srv.gCtxs i).bufRecv.slice 0 n).length = n :=
    Buffer.length_slice _ (by rw [Nat.zero_add]; exact hle)
  have hne : (w.srv.gCtxs i).bufRecv.slice 0 n ≠ [] := by
    intro hnil
    rw [hnil] at hlen
    exact hn hlen.symm
  have hholds := holds_received hsz hne (hlen.trans_le hle) (by rw [hlen])
  rw [hlen] at hholds
  exact hholds

/-! ## The first connection

The beginning of every run in which a client gets through to the server: the first
accept completes and is dequeued, the connection gets slot one and its first read
is started. -/

namespace World

/-- The first accept has completed. -/
def connecting : World Os := (initial true).setPending 0 [⟨.recv, 1, 0, 0, .done 0⟩]

/-- The first connection has been given slot one. -/
def connected (os : Os) : World Os :=
  (connecting.setPending 0 []).acceptIteration (Answers.allYes os) 0

theorem step_connecting (env : Env Os) : Step env (initial true) (.accepted 0) connecting :=
  .accepted (w := initial true) (o := ⟨.recv, 1, 0, 0, .posted⟩) rfl rfl rfl

theorem step_connected (env : Env Os) (os : Os) :
    Step env connecting (.dequeue 0 0 (.allYes os)) (connected os) :=
  .dequeue (w := connecting) (i := 0) (o := ⟨.recv, 1, 0, 0, .done 0⟩) rfl rfl rfl

theorem good_connecting : Good (connecting : World Os) := (good_initial true).of_setPending_zero _

theorem admits_connected (os : Os) :
    Admits (.allYes os) (connecting.setPending 0 []) (connected os) 1 := by
  rcases (good_connecting.of_setPending_zero []).acceptIteration_cases (.allYes os) 0 with
    ⟨i, ha⟩ | hr
  · have hfound : findFree (connecting.setPending 0 [] : World Os).srv = some 1 := rfl
    obtain rfl : i = 1 := Option.some.inj (ha.found.symm.trans hfound)
    exact ha
  · have hfound : findFree (connecting.setPending 0 [] : World Os).srv = some 1 := rfl
    exact absurd (hr.full.symm.trans hfound) (by simp)

/-- The new connection's context is clear but for its socket. -/
theorem connected_ctx (os : Os) :
    (connected os).srv.gCtxs 1 = { ClientCtx.zero with socket := 2 } := (admits_connected os).ctx

/-- The new connection's only operation is its first read. -/
theorem connected_pending (os : Os) :
    (connected os).pending 1 = [⟨.recv, 2, 0, bufSize, .posted⟩] := (admits_connected os).ops

theorem connected_pending_zero (os : Os) :
    (connected os).pending 0 = [⟨.recv, 1, 0, 0, .posted⟩] := by
  have hg : Good (connecting : World Os) := good_connecting
  exact acceptIteration_pending_zero (w := connecting.setPending 0 []) (.allYes os) 0
    hg.sockets.listener

theorem connected_accepted (os : Os) : (connected os).srv.gAcceptedSocket = 3 := by
  rw [(admits_connected os).srv]
  rfl

theorem connected_fault (os : Os) : (connected os).fault = none :=
  (acceptIteration_records (.allYes os) (connecting.setPending 0 []) 0).2.2.2.2

/-- Nothing has been exchanged with the new connection. -/
theorem connected_records (os : Os) :
    (connected os).wire = (fun _ => []) ∧ (connected os).packets = (fun _ => []) ∧
      (connected os).replies = (fun _ => []) ∧ (connected os).handled = (fun _ => []) := by
  obtain ⟨hwire, hpackets, hreplies, hhandled, _⟩ :=
    acceptIteration_records (.allYes os) (connecting.setPending 0 []) 0
  exact ⟨hwire, hpackets, hreplies, hhandled⟩

/-- A reading slot has received these bytes. -/
def receives (w : World Os) (i : Slot) (data : List UInt8) : World Os :=
  (w.store i 0 data).setPending i
    [⟨.recv, (w.srv.gCtxs i).socket, 0, bufSize, .done data.length⟩]

theorem step_receives (env : Env Os) {w : World Os} (hrun : w.fault = none) {i : Slot} (hi : i ≠ 0)
    (ho : w.pending i = [⟨.recv, (w.srv.gCtxs i).socket, 0, bufSize, .posted⟩])
    {data : List UInt8} (hlen : data.length ≤ bufSize) :
    Step env w (.received i 0 data) (w.receives i data) := by
  have hget : (w.pending i)[0]? = some ⟨.recv, (w.srv.gCtxs i).socket, 0, bufSize, .posted⟩ := by
    rw [ho]
    rfl
  have hs : Step env w (.received i 0 data) _ := .received hrun hi hget rfl rfl hlen
  rw [ho] at hs
  exact hs

/-- The loop dequeues the only operation of a client slot. -/
theorem step_dequeue (env : Env Os) (ans : Answers Os) {w : World Os} (hrun : w.fault = none)
    {i : Slot} {o : Op} {n : ℕ} (ho : w.pending i = [o]) (hst : o.status = .done n) :
    Step env w (.dequeue i 0 ans) ((w.setPending i []).exec env ans i o.block n) := by
  have hget : (w.pending i)[0]? = some o := by
    rw [ho]
    rfl
  have hs : Step env w (.dequeue i 0 ans) _ := .dequeue hrun hget hst
  rw [ho] at hs
  exact hs

@[simp] theorem receives_ctx (w : World Os) (i : Slot) (data : List UInt8) :
    (w.receives i data).srv.gCtxs i =
      { w.srv.gCtxs i with bufRecv := (w.srv.gCtxs i).bufRecv.write 0 data } := by
  simp [receives, store]

@[simp] theorem receives_pending (w : World Os) (i : Slot) (data : List UInt8) :
    (w.receives i data).pending i =
      [⟨.recv, (w.srv.gCtxs i).socket, 0, bufSize, .done data.length⟩] := by
  simp [receives]

/-- After a receive the slot holds the packet that came. -/
theorem holds_receives {w : World Os} {i : Slot} {data : List UInt8}
    (hsz : (w.srv.gCtxs i).szRecv = 0) (hne : data ≠ []) (hlen : data.length ≤ bufSize) :
    Holds (((w.receives i data).srv.gCtxs i).count data.length) data := by
  rw [receives_ctx]
  refine holds_received hsz hne hlen ?_
  exact Buffer.slice_write _ rfl (by omega)

end World

/-- The first connection is served in some run. -/
theorem reachable_connected (env : Env Os) (os : Os) :
    (machine env true).Reachable (World.connected os) :=
  .step (.step (.init rfl) (World.step_connecting env)) (World.step_connected env os)

end Tcp
end BsitLabs
