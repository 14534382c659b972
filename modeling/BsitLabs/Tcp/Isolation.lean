import BsitLabs.Foundation.Component
import BsitLabs.Tcp.Iteration

/-!
# The connections are isolated

`g_ctxs` holds the contexts of all clients side by side, and one loop works on all of them; the
provider context, the last public key and the accepted socket are shared.  Still a connection
has a life of its own: the machine `Conn` has one context, the operation outstanding for it, and
what has gone over its wire, and `Conn.after` says what becomes of these when something happens
to the connection.

Every run of the server, whatever fails, shows each slot a run of that machine (`component`): what
is addressed to other slots leaves it alone.  So what a client gets, from the moment it is given a
slot, depends on what is addressed to that slot and on nothing else (`isolated`): not on which
slot it is or who had it before, and not on the other clients.  Of them it shares two things
only: the numbers of the keys, which are handed out in turn, and the process, which an assertion
ends for all.
-/

namespace BsitLabs
namespace Tcp

open MachineInt Transition

variable {Os : Type} {env : Env Os}

/-! ## One connection -/

/-- A slot on its own, with what has gone over its connection. -/
structure Conn where
  ctx : ClientCtx
  ops : List Op
  wire : List UInt8
  packets : List (List UInt8)
  replies : List (List UInt8)

/-- What can happen to a connection.  The number with a dequeued completion is that of the key
that is generated, if one is. -/
inductive ConnEvent (Os : Type) where
  | seated (sock : ℕ) (reading : Bool)
  | received (data : List UInt8)
  | sent (n : ℕ)
  | failed
  | dequeued (ans : Answers Os) (key : ℕ)

/-- The context after a packet has been answered; `none` if an assertion fails or a handler does
not get through. -/
def ClientCtx.respond (env : Env Os) (ans : Answers Os) (key : ℕ) (c : ClientCtx) :
    Option ClientCtx :=
  if c.bufRecv.get 0 = 0 then
    if (ans.acquired || ans.acquiredNew) && env.csp.wellFormed c.dropKeyMark.packet &&
      ans.generated then some (c.answKey env key) else none
  else
    (env.csp.keyOf c.key).bind fun ks =>
      (RequestType.ofByte ((c.plainBuf ks).get 0)).bind fun t =>
        if (env.handler t (c.plainBuf ks) ans.os).isSome ∧
            (c.replyText env ks t ans.os).length ≤ bufSize then some (c.answMsg env ks t ans.os)
        else none

namespace Conn

/-- A slot that nobody has. -/
def free : Conn := ⟨ClientCtx.zero, [], [], [], []⟩

/-- An operation is started, or fails to start. -/
def submit (ans : Answers Os) (v : Conn) (req : Request) : Conn :=
  { v with ops := if req.starts ans then [req.op v.ctx.socket] else [] }

/-- `schedule_read`. -/
def read (ans : Answers Os) (v : Conn) : Conn :=
  v.submit ans (.read v.ctx.szRecv (usub bufSize v.ctx.szRecv))

/-- `schedule_write`. -/
def write (ans : Answers Os) (v : Conn) : Conn :=
  v.submit ans (.write v.ctx.szSend (usub v.ctx.szSendTotal v.ctx.szSend))

/-- The handler of a completion. -/
def handle (env : Env Os) (ans : Answers Os) (key : ℕ) (v : Conn) : Block → ℕ → Conn
  | .recv, 0 => v.submit ans .cancel
  | .recv, n =>
    match (v.ctx.count n).respond env ans key with
    | some c => write ans { v with
        ctx := c
        packets := v.packets ++ [(v.ctx.count n).packet]
        replies := v.replies ++ [c.reply] }
    | none => { v with packets := v.packets ++ [(v.ctx.count n).packet], ops := [] }
  | .send, n =>
    if v.ctx.sendsOn n then write ans { v with ctx := v.ctx.advance n }
    else read ans { v with ctx := (v.ctx.advance n).rearm }
  | .cancel, _ => free

/-- The completion that is handled has been taken off the queue. -/
theorem handle_setOps (ans : Answers Os) (key : ℕ) (v : Conn) (ops : List Op) (b : Block) (n : ℕ) :
    { v with ops := ops }.handle env ans key b n = v.handle env ans key b n := by
  cases b with
  | recv =>
    cases n with
    | zero => rfl
    | succ m => rfl
  | send => rfl
  | cancel => rfl

/-- What becomes of a connection. -/
def after (env : Env Os) (v : Conn) : ConnEvent Os → Conn
  | .seated sock reading =>
    { free with
      ctx := { ClientCtx.zero with socket := sock }
      ops := if reading then [⟨.recv, sock, 0, bufSize, .posted⟩] else [] }
  | .received data =>
    { v with
      ctx := { v.ctx with bufRecv := v.ctx.bufRecv.write 0 data }
      ops := v.ops.map fun o => { o with status := .done data.length } }
  | .sent n =>
    { v with
      wire := v.wire ++ v.ctx.bufSend.slice v.ctx.szSend n
      ops := v.ops.map fun o => { o with status := .done n } }
  | .failed => { v with ops := v.ops.map fun o => { o with status := .failed } }
  | .dequeued ans key =>
    match v.ops with
    | [⟨block, _, _, _, .done n⟩] => v.handle env ans key block n
    | _ => { v with ops := [] }

end Conn

/-! ## A connection of the server -/

/-- The slot `i` of the server, with what has gone over its connection. -/
def World.conn (w : World Os) (i : Slot) : Conn where
  ctx := w.srv.gCtxs i
  ops := w.pending i
  wire := w.wire (w.srv.gCtxs i).socket
  packets := w.packets (w.srv.gCtxs i).socket
  replies := w.replies (w.srv.gCtxs i).socket

/-- The number of the next key, if what the slot has received is to be answered with one. -/
def World.nextKey (w : World Os) (i : Slot) : ℕ :=
  if (w.srv.gCtxs i).bufRecv.get 0 = 0 ∧ (w.pending i).any (·.block = .recv) then
    w.srv.handles.keys.length + 1
  else 0

/-- What of a step is addressed to the slot `i`. -/
def Conn.sees (i : Slot) (w : World Os) : Event Os → Option (ConnEvent Os)
  | .accepted _ => none
  | .received j _ data => if j = i then some (.received data) else none
  | .sent j _ n => if j = i then some (.sent n) else none
  | .failed j _ => if j = i then some .failed else none
  | .dequeue j k ans =>
    if j = 0 then
      match ((w.pending 0)[k]?).map Op.status with
      | some (.done _) =>
        if findFree w.srv = some i then
          some (.seated w.srv.gAcceptedSocket (ans.associated && ans.started))
        else none
      | _ => none
    else if j = i then some (.dequeued ans (w.nextKey i)) else none

/-- What has not been accepted has no history. -/
structure Unrecorded (w : World Os) (c : ℕ) : Prop where
  wire : w.wire c = []
  packets : w.packets c = []
  replies : w.replies c = []

/-- The sockets that no slot has had are without a history, and so is zero, which is none. -/
def Clean (w : World Os) : Prop := ∀ c, c = 0 ∨ w.srv.gAcceptedSocket ≤ c → Unrecorded w c

theorem Clean.setPending {w : World Os} (h : Clean w) (i : Slot) (ops : List Op) :
    Clean (w.setPending i ops) := fun c hold => ⟨(h c hold).wire, (h c hold).packets,
  (h c hold).replies⟩

/-- Nothing but the slot `j` and its connection has changed. -/
structure World.Apart (j : Slot) (w w' : World Os) : Prop where
  ctxs : ∀ i, i ≠ 0 → i ≠ j → w'.srv.gCtxs i = w.srv.gCtxs i
  pending : ∀ i, i ≠ 0 → i ≠ j → w'.pending i = w.pending i
  accepted : w'.srv.gAcceptedSocket = w.srv.gAcceptedSocket
  wire : ∀ c, c ≠ (w.srv.gCtxs j).socket → w'.wire c = w.wire c
  packets : ∀ c, c ≠ (w.srv.gCtxs j).socket → w'.packets c = w.packets c
  replies : ∀ c, c ≠ (w.srv.gCtxs j).socket → w'.replies c = w.replies c

/-- A slot other than the one that has changed is as it was. -/
theorem World.Apart.conn {j : Slot} {w w' : World Os} (h : w.Apart j w') (hg : Good w)
    (hsock : (w.srv.gCtxs j).socket ≠ 0) {i : Slot} (hi : i ≠ 0) (hij : i ≠ j) :
    w'.conn i = w.conn i := by
  have hne : (w.srv.gCtxs i).socket ≠ (w.srv.gCtxs j).socket := fun heq =>
    hij (hg.sockets.injective i j (heq ▸ hsock) heq)
  unfold World.conn
  rw [h.ctxs i hi hij, h.pending i hi hij, h.wire _ hne, h.packets _ hne, h.replies _ hne]

/-- What has no history has none after the step. -/
theorem World.Apart.clean {j : Slot} {w w' : World Os} (h : w.Apart j w') (hg : Good w)
    (hsock : (w.srv.gCtxs j).socket ≠ 0) (hc : Clean w) : Clean w' := by
  intro c hold
  rw [h.accepted] at hold
  have hne : c ≠ (w.srv.gCtxs j).socket := by
    have hbelow := hg.sockets.below j
    omega
  obtain ⟨hwire, hpackets, hreplies⟩ := hc c hold
  exact ⟨(h.wire c hne).trans hwire, (h.packets c hne).trans hpackets,
    (h.replies c hne).trans hreplies⟩

/-! ## The handlers -/

/-- When a packet is answered, and how. -/
theorem respond_eq_some_iff {ans : Answers Os} {key : ℕ} {c c' : ClientCtx} :
    c.respond env ans key = some c' ↔
      (c.bufRecv.get 0 = 0 ∧ KeyAccepted env ans c ∧ c' = c.answKey env key) ∨
      (c.bufRecv.get 0 ≠ 0 ∧ ∃ ks t, MsgAccepted env c ks t ans.os ∧
        c' = c.answMsg env ks t ans.os) := by
  unfold ClientCtx.respond
  by_cases hmark : c.bufRecv.get 0 = 0
  · rw [if_pos hmark]
    constructor
    · intro h
      split at h
      · next hall =>
        simp only [Bool.and_eq_true] at hall
        exact .inl ⟨hmark, ⟨hall.1.1, hmark, hall.1.2, hall.2⟩, (Option.some.inj h).symm⟩
      · cases h
    · rintro (⟨_, hacc, rfl⟩ | ⟨hno, _⟩)
      · rw [if_pos]
        simp only [Bool.and_eq_true]
        exact ⟨⟨hacc.acquired, hacc.wellFormed⟩, hacc.generated⟩
      · exact absurd hmark hno
  · rw [if_neg hmark]
    simp only [Option.bind_eq_some_iff]
    constructor
    · rintro ⟨ks, hks, t, ht, h⟩
      split at h
      · next hfits =>
        exact .inr ⟨hmark, ks, t, ⟨hks, ht, hfits.1, hfits.2⟩, (Option.some.inj h).symm⟩
      · cases h
    · rintro (⟨hyes, _⟩ | ⟨_, ks, t, hacc, rfl⟩)
      · exact absurd hyes hmark
      · exact ⟨ks, hacc.key, t, hacc.request, if_pos ⟨hacc.handled, hacc.fits⟩⟩

/-- `overlap_recv_handler` answers a packet as the connection on its own does. -/
theorem respond_of_ok {ans : Answers Os} {s s' : Server} {i : Slot} {n key : ℕ} {req : Request}
    (hn : n ≠ 0) (hkey : (s.gCtxs i).bufRecv.get 0 = 0 → key = s.handles.keys.length + 1)
    (hok : overlapRecvHandler env ans s i n = .ok (s', req)) :
    ((s.gCtxs i).count n).respond env ans key = some (s'.gCtxs i) := by
  rw [respond_eq_some_iff]
  rcases ((overlapRecvHandler_eq_ok_iff hn).mp hok).2 with
    ⟨hmark, hacc, rfl⟩ | ⟨hmark, ks, t, hacc, rfl⟩
  · refine .inl ⟨hmark, hacc, ?_⟩
    rw [Server.setCtx_answKey_gCtxs_self, hkey hmark]
  · exact .inr ⟨hmark, ks, t, hacc, s.setCtx_gCtxs_self i _⟩

/-- Where an assertion ends `overlap_recv_handler` the connection on its own has no answer. -/
theorem respond_of_error {ans : Answers Os} {s : Server} {i : Slot} {n key : ℕ} {f : Fault}
    (hn : n ≠ 0) (herr : overlapRecvHandler env ans s i n = .error f) :
    ((s.gCtxs i).count n).respond env ans key = none := by
  rw [Option.eq_none_iff_forall_ne_some]
  intro c hc
  have hok : ∃ s', overlapRecvHandler env ans s i n = .ok (s', scheduleWrite s' i) := by
    rcases respond_eq_some_iff.mp hc with ⟨hmark, hacc, _⟩ | ⟨hmark, ks, t, hacc, _⟩
    · exact ⟨_, (overlapRecvHandler_eq_ok_iff hn).mpr ⟨rfl, .inl ⟨hmark, hacc, rfl⟩⟩⟩
    · exact ⟨_, (overlapRecvHandler_eq_ok_iff hn).mpr ⟨rfl, .inr ⟨hmark, ks, t, hacc, rfl⟩⟩⟩
  obtain ⟨s', hok⟩ := hok
  rw [herr] at hok
  cases hok

/-! ## The steps of the server -/

theorem World.apart_setPending (w : World Os) (i : Slot) (ops : List Op) :
    w.Apart i (w.setPending i ops) where
  ctxs _ _ _ := rfl
  pending _ _ hj := World.setPending_pending_of_ne _ _ hj _
  accepted := rfl
  wire _ _ := rfl
  packets _ _ := rfl
  replies _ _ := rfl

theorem World.Apart.trans {i : Slot} {w v u : World Os} (h : w.Apart i v) (h' : v.Apart i u)
    (hsock : (v.srv.gCtxs i).socket = (w.srv.gCtxs i).socket) : w.Apart i u where
  ctxs j hj hji := (h'.ctxs j hj hji).trans (h.ctxs j hj hji)
  pending j hj hji := (h'.pending j hj hji).trans (h.pending j hj hji)
  accepted := h'.accepted.trans h.accepted
  wire c hc := (h'.wire c (hsock ▸ hc)).trans (h.wire c hc)
  packets c hc := (h'.packets c (hsock ▸ hc)).trans (h.packets c hc)
  replies c hc := (h'.replies c (hsock ▸ hc)).trans (h.replies c hc)

theorem World.Only.apart {i : Slot} {w w' : World Os} (h : w.Only i w') (hrec : w.SameRecords w') :
    w.Apart i w' where
  ctxs j _ hji := h.ctxs j hji
  pending j _ hji := h.pending j hji
  accepted := h.accepted
  wire _ _ := by rw [hrec.wire]
  packets _ _ := by rw [hrec.packets]
  replies _ _ := by rw [hrec.replies]

/-- Starting an operation is a matter of the slot. -/
theorem World.apart_submit (w : World Os) (i : Slot) (ans : Answers Os) (req : Request) :
    w.Apart i (w.submit ans i req) := w.apart_setPending i _

theorem World.conn_submit {w : World Os} {i : Slot} (hnone : w.pending i = []) (ans : Answers Os)
    (req : Request) : (w.submit ans i req).conn i = (w.conn i).submit ans req := by
  simp only [conn, Conn.submit, submit_srv, submit_wire, submit_packets, submit_replies,
    submit_pending_self w i ans req hnone]

section Own

variable {w w' : World Os} {i : Slot} {k : ℕ} {o : Op}

theorem conn_received (hg : Good w) {data : List UInt8}
    (hs : World.Step env w (.received i k data) w') :
    w.Apart i w' ∧ w'.conn i = (w.conn i).after env (.received data) := by
  obtain ⟨hi, _, hops', hctx, _, honly, hrec, _⟩ := received_leaves hg hs
  have hop : ∃ o, w.pending i = [o] ∧ OpState (w.srv.gCtxs i) o ∧ o.block = .recv := by
    cases hs with
    | received _ _ ho _ hb _ =>
      obtain ⟨hops, _, _, hop⟩ := (hg.slots i hi).of_getElem? ho
      exact ⟨_, hops, hop, hb⟩
  obtain ⟨o, hops, hop, hb⟩ := hop
  refine ⟨honly.apart hrec, ?_⟩
  simp only [World.conn, Conn.after, hctx, hops', hops, hrec.wire, hrec.packets, hrec.replies]
  cases hop with
  | reading _ _ => rfl
  | _ => exact absurd hb (by simp)

theorem conn_sent (hg : Good w) {n : ℕ} (hs : World.Step env w (.sent i k n) w') :
    w.Apart i w' ∧ w'.conn i = (w.conn i).after env (.sent n) := by
  cases hs with
  | @sent _ _ _ o running hi ho hst hb hlen =>
    obtain ⟨hops, rfl, _, hop⟩ := (hg.slots i hi).of_getElem? ho
    obtain ⟨hoff, _⟩ := hop.of_send hb
    have hdelivers : w.Apart i (w.deliver i o n) := by
      refine ⟨fun _ _ _ => rfl, fun _ _ _ => rfl, rfl, fun c hc => ?_, fun _ _ => rfl,
        fun _ _ => rfl⟩
      exact World.record_of_ne _ (hop.sock ▸ hc) _
    refine ⟨hdelivers.trans (World.apart_setPending _ i _) rfl, ?_⟩
    simp [World.conn, Conn.after, hops, World.deliver, hop.sock, hoff]

theorem conn_failed (hg : Good w) (hi : i ≠ 0) (hs : World.Step env w (.failed i k) w') :
    w.Apart i w' ∧ w'.conn i = (w.conn i).after env .failed := by
  cases hs with
  | failed running ho hst =>
    refine ⟨w.apart_setPending i _, ?_⟩
    obtain ⟨hops, rfl, _⟩ := (hg.slots i hi).of_getElem? ho
    simp [World.conn, Conn.after, hops]

/-- The slot once its completion has been taken off the queue. -/
theorem World.conn_setPending (w : World Os) (i : Slot) (ops : List Op) :
    (w.setPending i ops).conn i = { w.conn i with ops := ops } := by
  simp only [conn, setPending_srv, setPending_pending_self, setPending_wire, setPending_packets,
    setPending_replies]

/-- A receive is handled as on its own. -/
theorem conn_recvIteration (hnone : w.pending i = []) (ans : Answers Os) {n key : ℕ}
    (hkey : (w.srv.gCtxs i).bufRecv.get 0 = 0 → key = w.srv.handles.keys.length + 1) :
    w.Apart i (w.recvIteration env ans i n) ∧
      (w.recvIteration env ans i n).conn i = (w.conn i).handle env ans key .recv n := by
  have hacts : w.Apart i (w.actOn i n) := ⟨fun _ _ _ => rfl, fun _ _ _ => rfl, rfl, fun _ _ => rfl,
    fun c hc => World.record_of_ne _ hc _, fun _ _ => rfl⟩
  rcases recvIteration_cases env ans w i n with ⟨rfl, h⟩ | ⟨hn, f, herr, h⟩ | ⟨hn, s, hok, h⟩
  · rw [h]
    exact ⟨w.apart_submit i ans .cancel, w.conn_submit hnone ans .cancel⟩
  · rw [h]
    obtain ⟨m, rfl⟩ := Nat.exists_eq_succ_of_ne_zero hn
    refine ⟨⟨hacts.ctxs, hacts.pending, rfl, hacts.wire, hacts.packets, hacts.replies⟩, ?_⟩
    have hnot : ((w.conn i).ctx.count (m + 1)).respond env ans key = none :=
      respond_of_error hn herr
    simp only [Conn.handle, hnot]
    simp [World.conn, World.actOn, hnone]
  · rw [h]
    obtain ⟨m, rfl⟩ := Nat.exists_eq_succ_of_ne_zero hn
    have hloc := overlapRecvHandler_local hok
    have hyes : ((w.conn i).ctx.count (m + 1)).respond env ans key = some (s.gCtxs i) :=
      respond_of_ok hn hkey hok
    have hreplies : w.Apart i ((w.actOn i (m + 1)).reply ans i s) := by
      refine ⟨fun j _ hji => hloc.others j hji, fun _ _ _ => rfl, hloc.accepted, fun _ _ => rfl,
        hacts.packets, fun c hc => World.record_of_ne _ (hloc.socket.symm ▸ hc) _⟩
    refine ⟨hreplies.trans (World.apart_submit _ i ans _) hloc.socket, ?_⟩
    have hconn : ((w.actOn i (m + 1)).reply ans i s).conn i = { w.conn i with
        ctx := s.gCtxs i
        packets := (w.conn i).packets ++ [((w.conn i).ctx.count (m + 1)).packet]
        replies := (w.conn i).replies ++ [(s.gCtxs i).reply] } := by
      simp [World.conn, World.actOn, World.reply, hloc.socket]
    rw [World.conn_submit (by exact hnone), hconn]
    simp only [Conn.handle, hyes]
    rfl

/-- A completed send is handled as on its own. -/
theorem conn_sendIteration (hnone : w.pending i = []) (ans : Answers Os) (n key : ℕ) :
    w.Apart i (w.sendIteration ans i n) ∧
      (w.sendIteration ans i n).conn i = (w.conn i).handle env ans key .send n := by
  have hset : ∀ c : ClientCtx, c.socket = (w.srv.gCtxs i).socket →
      w.Apart i { w with srv := w.srv.setCtx i c } ∧
      ({ w with srv := w.srv.setCtx i c } : World Os).conn i = { w.conn i with ctx := c } := by
    intro c hsock
    refine ⟨⟨fun j _ hji => w.srv.setCtx_gCtxs_of_ne hji c, fun _ _ _ => rfl, rfl, fun _ _ => rfl,
      fun _ _ => rfl, fun _ _ => rfl⟩, ?_⟩
    simp only [World.conn, Server.setCtx_gCtxs_self, hsock]
  have hctx : (w.conn i).ctx = w.srv.gCtxs i := rfl
  unfold World.sendIteration
  rcases overlapSendHandler_cases w.srv i n with ⟨hmore, h⟩ | ⟨hlast, h⟩
  · obtain ⟨happ, hconn⟩ := hset ((w.srv.gCtxs i).advance n) rfl
    rw [h]
    refine ⟨happ.trans (World.apart_submit _ i ans _) (by simp), ?_⟩
    rw [World.conn_submit (by exact hnone), hconn, Conn.handle, hctx, if_pos hmore]
    simp [Conn.write, scheduleWrite]
  · obtain ⟨happ, hconn⟩ := hset ((w.srv.gCtxs i).advance n).rearm rfl
    rw [h]
    refine ⟨happ.trans (World.apart_submit _ i ans _) (by simp), ?_⟩
    rw [World.conn_submit (by exact hnone), hconn, Conn.handle, hctx, if_neg (by simp [hlast])]
    simp [Conn.read, scheduleRead]

/-- **A completion of the slot is handled as on its own.** -/
theorem conn_dequeue (hg : Good w) (hc : Clean w) (hi : i ≠ 0) {ans : Answers Os}
    (hs : World.Step env w (.dequeue i k ans) w') :
    w.Apart i w' ∧ w'.conn i = (w.conn i).after env (.dequeued ans (w.nextKey i)) := by
  cases hs with
  | @dropped _ _ _ o running ho hst =>
    obtain ⟨hops, rfl, _⟩ := (hg.slots i hi).of_getElem? ho
    refine ⟨w.apart_setPending i _, ?_⟩
    obtain ⟨block, sock, off, len, status⟩ := o
    obtain rfl : status = .failed := hst
    rw [World.conn_setPending, hops]
    simp [World.conn, Conn.after, hops]
  | @dequeue _ _ n _ o running ho hst =>
    obtain ⟨hops, rfl, hsock, _⟩ := (hg.slots i hi).of_getElem? ho
    obtain ⟨v, hv⟩ : ∃ v, v = w.setPending i [] := ⟨_, rfl⟩
    have hnone : v.pending i = [] := by rw [hv, World.setPending_pending_self]
    have hconn : v.conn i = { w.conn i with ops := [] } := by rw [hv, World.conn_setPending]
    have hctx : v.srv = w.srv := by rw [hv, World.setPending_srv]
    have happ : w.Apart i v := hv ▸ w.apart_setPending i []
    obtain ⟨block, sock, off, len, status⟩ := o
    obtain rfl : status = .done n := hst
    have hafter : (w.conn i).after env (.dequeued ans (w.nextKey i)) =
        (w.conn i).handle env ans (w.nextKey i) block n := by
      simp [World.conn, Conn.after, hops]
    rw [hops, List.eraseIdx_cons_zero, ← hv, hafter]
    unfold World.exec
    rw [if_neg hi]
    cases block with
    | recv =>
      have hkey : (v.srv.gCtxs i).bufRecv.get 0 = 0 →
          w.nextKey i = v.srv.handles.keys.length + 1 := by
        intro hmark
        rw [hctx] at hmark ⊢
        exact if_pos ⟨hmark, by simp [hops]⟩
      obtain ⟨happ', hconn'⟩ : v.Apart i (v.recvIteration env ans i n) ∧ _ :=
        conn_recvIteration hnone ans hkey
      exact ⟨happ.trans happ' (by rw [hctx]), by rw [hconn', hconn, Conn.handle_setOps]⟩
    | send =>
      obtain ⟨happ', hconn'⟩ : v.Apart i (v.sendIteration ans i n) ∧
          (v.sendIteration ans i n).conn i = (v.conn i).handle env ans (w.nextKey i) .send n :=
        conn_sendIteration hnone ans n _
      exact ⟨happ.trans happ' (by rw [hctx]), by rw [hconn', hconn, Conn.handle_setOps]⟩
    | cancel =>
      obtain ⟨hwire, hpackets, hreplies⟩ : Unrecorded w ClientCtx.zero.socket := hc 0 (.inl rfl)
      have hself : (overlapCancelHandler v.srv i).gCtxs i = ClientCtx.zero := by
        simp [overlapCancelHandler]
      refine ⟨happ.trans ⟨fun j _ hji => ?_, fun _ _ _ => rfl, rfl, fun _ _ => rfl, fun _ _ => rfl,
        fun _ _ => rfl⟩ (by rw [hctx]), ?_⟩
      · simp [overlapCancelHandler, Server.setCtx_gCtxs_of_ne _ hji]
      · simp only [World.conn, hself, hnone, Conn.handle, Conn.free]
        rw [hv, World.setPending_wire, World.setPending_packets, World.setPending_replies, hwire,
          hpackets, hreplies]

end Own

/-- The slot that an accept takes has a connection seated in it, and no other slot is touched. -/
theorem conn_acceptIteration {w : World Os} (env : Env Os) (hg : Good w) (hc : Clean w)
    (ans : Answers Os) (n : ℕ) :
    Clean (w.acceptIteration ans n) ∧ ∀ i, i ≠ 0 → (w.acceptIteration ans n).conn i =
      if findFree w.srv = some i then
        (w.conn i).after env (.seated w.srv.gAcceptedSocket (ans.associated && ans.started))
      else w.conn i := by
  obtain ⟨w', hw'⟩ : ∃ w', w' = w.acceptIteration ans n := ⟨_, rfl⟩
  have hcases := hg.acceptIteration_cases ans n
  rw [← hw'] at hcases ⊢
  have hrec : w.SameRecords w' := by
    obtain ⟨hwire, hpackets, hreplies, hhandled, _⟩ := acceptIteration_records ans w n
    rw [hw']
    exact ⟨hwire, hpackets, hreplies, hhandled⟩
  have hsocket := hg.sockets.accepted
  have hsame : ∀ i, w'.srv.gCtxs i = w.srv.gCtxs i → w'.pending i = w.pending i →
      w'.conn i = w.conn i := by
    intro i hctx hpend
    simp only [World.conn, hctx, hpend, hrec.wire, hrec.packets, hrec.replies]
  have hclean : w'.srv.gAcceptedSocket = w.srv.gAcceptedSocket + 1 → Clean w' := by
    intro hnext c hold
    obtain ⟨hwire, hpackets, hreplies⟩ := hc c (by omega)
    exact ⟨by rw [hrec.wire, hwire], by rw [hrec.packets, hpackets],
      by rw [hrec.replies, hreplies]⟩
  rcases hcases with ⟨l, ha⟩ | hr
  · refine ⟨hclean (by rw [ha.srv, hsocket]; rfl), fun i hi => ?_⟩
    rw [ha.found]
    by_cases hil : l = i
    · subst hil
      -- the socket is new, so that nothing is recorded for it
      obtain ⟨hwire, hpackets, hreplies⟩ := hc _ (.inr le_rfl)
      simp only [if_true, World.conn, Conn.after, ha.ctx, ha.ops, hrec.wire, hrec.packets,
        hrec.replies, hwire, hpackets, hreplies]
      rfl
    · obtain ⟨hctx, hpend⟩ := ha.others i hi (Ne.symm hil)
      rw [if_neg fun heq => hil (Option.some.inj heq)]
      exact hsame i hctx hpend
  · refine ⟨hclean (by rw [hr.srv, hsocket]; rfl), fun i hi => ?_⟩
    obtain ⟨hctx, hpend⟩ := hr.others i hi
    rw [hr.full, if_neg (by simp)]
    exact hsame i hctx hpend

/-- **What an accept does to a slot**: it seats the connection there, or leaves it alone. -/
theorem conn_accepts {w w' : World Os} {k : ℕ} (hg : Good w) (hc : Clean w) {ans : Answers Os}
    (hs : World.Step env w (.dequeue 0 k ans) w') :
    Clean w' ∧ ∀ i, i ≠ 0 → w'.conn i =
      match Conn.sees i w (.dequeue 0 k ans) with
      | some d => (w.conn i).after env d
      | none => w.conn i := by
  have hkeep : ∀ i, i ≠ 0 → ∀ ops, (w.setPending 0 ops).conn i = w.conn i := fun i hi ops =>
    (w.apart_setPending 0 ops).conn hg hg.sockets.listener hi hi
  cases hs with
  | @dropped _ _ _ o running ho hst =>
    refine ⟨hc.setPending 0 _, fun i hi => ?_⟩
    simp only [Conn.sees, if_true, ho, Option.map_some, hst]
    exact hkeep i hi _
  | @dequeue _ _ n _ o running ho hst =>
    have hgv := hg.of_setPending_zero ((w.pending 0).eraseIdx k)
    have hcv : Clean (w.setPending 0 ((w.pending 0).eraseIdx k)) := hc.setPending 0 _
    refine ⟨(conn_acceptIteration env hgv hcv ans n).1, fun i hi => ?_⟩
    simp only [Conn.sees, if_true, ho, Option.map_some, hst]
    refine ((conn_acceptIteration env hgv hcv ans n).2 i hi).trans ?_
    rw [hkeep i hi, World.setPending_srv]
    by_cases hfree : findFree w.srv = some i
    · rw [if_pos hfree, if_pos hfree]
    · rw [if_neg hfree, if_neg hfree]

/-- A step confined to a slot other than the listener's. -/
theorem World.Apart.step {w w' : World Os} {j : Slot} (h : w.Apart j w') (hg : Good w)
    (hc : Clean w) (hsock : (w.srv.gCtxs j).socket ≠ 0) {d : ConnEvent Os}
    (hown : w'.conn j = (w.conn j).after env d) :
    Clean w' ∧ ∀ i, i ≠ 0 → w'.conn i =
      match (if j = i then some d else none) with
      | some d => (w.conn i).after env d
      | none => w.conn i := by
  refine ⟨h.clean hg hsock hc, fun i hi => ?_⟩
  by_cases hij : j = i
  · subst hij
    rw [if_pos rfl]
    exact hown
  · rw [if_neg hij]
    exact h.conn hg hsock hi (Ne.symm hij)

/-- **What a step does to a slot** is what is addressed to it. -/
theorem conn_step {w w' : World Os} {e : Event Os} (hg : Good w) (hc : Clean w)
    (hs : World.Step env w e w') :
    Clean w' ∧ ∀ i, i ≠ 0 → w'.conn i =
      match Conn.sees i w e with
      | some d => (w.conn i).after env d
      | none => w.conn i := by
  have hsock : ∀ (j : Slot) (k : ℕ) (o : Op), j ≠ 0 → (w.pending j)[k]? = some o →
      (w.srv.gCtxs j).socket ≠ 0 := fun j k o hj ho => ((hg.slots j hj).of_getElem? ho).2.2.1
  cases e with
  | accepted k =>
    cases hs with
    | accepted running ho hst =>
      exact ⟨hc.setPending 0 _,
        fun i hi => (w.apart_setPending 0 _).conn hg hg.sockets.listener hi hi⟩
  | received j k data =>
    obtain ⟨happ, hown⟩ := conn_received hg hs
    cases hs with
    | received running hj ho hst hb hlen => exact happ.step hg hc (hsock j k _ hj ho) hown
  | sent j k n =>
    obtain ⟨happ, hown⟩ := conn_sent hg hs
    cases hs with
    | sent running hj ho hst hb hlen => exact happ.step hg hc (hsock j k _ hj ho) hown
  | failed j k =>
    by_cases hj : j = 0
    · subst hj
      cases hs with
      | failed running ho hst =>
        refine ⟨hc.setPending 0 _, fun i hi => ?_⟩
        simp only [Conn.sees, if_neg (Ne.symm hi)]
        exact (w.apart_setPending 0 _).conn hg hg.sockets.listener hi hi
    · obtain ⟨happ, hown⟩ := conn_failed hg hj hs
      cases hs with
      | failed running ho hst => exact happ.step hg hc (hsock j k _ hj ho) hown
  | dequeue j k ans =>
    by_cases hj : j = 0
    · subst hj
      exact conn_accepts hg hc hs
    · obtain ⟨happ, hown⟩ := conn_dequeue hg hc hj hs
      have hsees : ∀ i, Conn.sees i w (.dequeue j k ans) =
          if j = i then some (.dequeued ans (w.nextKey j)) else none := by
        intro i
        simp only [Conn.sees, if_neg hj]
        split
        · next hji => rw [hji]
        · rfl
      simp only [hsees]
      cases hs with
      | dequeue running ho hst => exact happ.step hg hc (hsock j k _ hj ho) hown
      | dropped running ho hst => exact happ.step hg hc (hsock j k _ hj ho) hown

/-! ## Every run -/

theorem clean_initial (accepting : Bool) : Clean (World.initial accepting : World Os) :=
  fun _ _ => ⟨rfl, rfl, rfl⟩

theorem clean_reachable {accepting : Bool} {w : World Os}
    (hr : (machine env accepting).Reachable w) : Clean w :=
  hr.invariant (P := Clean)
    (fun s hs => by
      obtain rfl : s = World.initial accepting := hs
      exact clean_initial accepting)
    fun _ _ _ hr' hc hs => (conn_step (good_reachable hr') hc hs).1

/-- **Each slot is a component of the server**, whatever fails. -/
theorem component (env : Env Os) (accepting : Bool) {i : Slot} (hi : i ≠ 0) :
    Component (machine env accepting) (Conn.sees i) (World.conn · i) (Conn.after env) where
  seen hr hs hd := by
    have hstep := (conn_step (good_reachable hr) (clean_reachable hr) hs).2 i hi
    rwa [hd] at hstep
  unseen hr hs hd := by
    have hstep := (conn_step (good_reachable hr) (clean_reachable hr) hs).2 i hi
    rwa [hd] at hstep

/-- In some run the slot `i` is given the connection `c`, with the read started or not, and what
is addressed to it afterwards is `l`. -/
inductive Serves (env : Env Os) (i : Slot) (c : ℕ) (reading : Bool) (l : List (ConnEvent Os))
    (w : World Os) : Prop where
  | run {accepting : Bool} {v u : World Os} {e : Event Os}
      (hr : (machine env accepting).Reachable v) (hs : World.Step env v e u)
      (hseated : Conn.sees i v e = some (.seated c reading))
      (hrun : (machine env accepting).Observes (Conn.sees i) l u w) : Serves env i c reading l w

/-- What a connection has become since it was given a slot. -/
def Conn.history (env : Env Os) (c : ℕ) (reading : Bool) (l : List (ConnEvent Os)) : Conn :=
  l.foldl (Conn.after env) (Conn.free.after env (.seated c reading))

/-- **The connections are isolated.**  From the moment a connection is given a slot, its context
with both buffers, its outstanding operation, and the packets, replies and bytes on its wire are
those of a machine with this one connection, in every run and whatever fails.  So they are the
same in any two runs that address the same to it, in whatever slots it lies there. -/
theorem isolated (env : Env Os) {i j : Slot} (hi : i ≠ 0) (hj : j ≠ 0) {c : ℕ} {reading : Bool}
    {l : List (ConnEvent Os)} {w w' : World Os} (h : Serves env i c reading l w)
    (h' : Serves env j c reading l w') :
    w.conn i = Conn.history env c reading l ∧ w.conn i = w'.conn j := by
  have hhistory : ∀ {k : Slot} {v : World Os}, k ≠ 0 → Serves env k c reading l v →
      v.conn k = Conn.history env c reading l := by
    rintro k v hk ⟨hr, hs, hseated, hrun⟩
    have hbegun := (component env _ hk).seen hr hs hseated
    have hfold := (component env _ hk).view_eq_foldl (hr.step hs) hrun
    rw [hfold, hbegun]
    rfl
  exact ⟨hhistory hi h, (hhistory hi h).trans (hhistory hj h').symm⟩

/-- The first client sends its key packet; in one of the two runs another client has connected
before. -/
theorem isolated_sample : ∃ w w' : World Unit,
    w.pending 0 = [⟨.recv, 1, 0, 0, .posted⟩] ∧ w'.pending 0 = [⟨.recv, 1, 0, 0, .done 0⟩] ∧
    w.conn 1 = Conn.history Env.sample 2 true [.received [0, 6]] ∧ w.conn 1 = w'.conn 1 := by
  have hr : (machine Env.sample true).Reachable World.connecting :=
    .step (.init rfl) (World.step_connecting Env.sample)
  have hs := World.step_connected Env.sample ()
  have hseated : Conn.sees 1 World.connecting (.dequeue 0 0 (.allYes ())) =
      some (.seated 2 true) := rfl
  obtain ⟨v, hv⟩ : ∃ v, v = (World.connected ()).setPending 0 [⟨.recv, 1, 0, 0, .done 0⟩] :=
    ⟨_, rfl⟩
  have haccepted : World.Step Env.sample (World.connected ()) (.accepted 0) v := by
    have hget : ((World.connected ()).pending 0)[0]? = some ⟨.recv, 1, 0, 0, .posted⟩ := by
      rw [World.connected_pending_zero]
      rfl
    have hstep : World.Step Env.sample (World.connected ()) (.accepted 0) _ :=
      .accepted (World.connected_fault ()) hget rfl
    rw [World.connected_pending_zero] at hstep
    rw [hv]
    exact hstep
  have hreads := reads_connected ()
  have hreads' : Reads v 1 := by
    rw [hv]
    exact ⟨hreads.running, hreads.client, (World.setPending_pending_of_ne _ _ (by decide) _).trans
      hreads.op, hreads.size⟩
  have hne : ([0, 6] : List UInt8) ≠ [] := List.cons_ne_nil _ _
  obtain ⟨hrecv, _⟩ := hreads.receives Env.sample hne (by decide)
  obtain ⟨hrecv', _⟩ := hreads'.receives Env.sample hne (by decide)
  have hserves : Serves Env.sample 1 2 true [.received [0, 6]] _ :=
    ⟨hr, hs, hseated, .seen (.refl _) hrecv rfl⟩
  have hserves' : Serves Env.sample 1 2 true [.received [0, 6]] _ :=
    ⟨hr, hs, hseated, .seen (.unseen (.refl _) haccepted rfl) hrecv' rfl⟩
  refine ⟨_, _, ?_, ?_, isolated Env.sample (by decide) (by decide) hserves hserves'⟩
  · exact (World.setPending_pending_of_ne _ _ (by decide) _).trans (World.connected_pending_zero ())
  · rw [hv, World.receives, World.setPending_pending_of_ne _ _ (by decide), World.store_pending,
      World.setPending_pending_self]

end Tcp
end BsitLabs
