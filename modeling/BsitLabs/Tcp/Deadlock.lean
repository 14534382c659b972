import BsitLabs.Tcp.Delivery
import BsitLabs.Tcp.ReplyTexts

/-!
# Both sides waiting

A client that has sent a packet waits in `recv_request`, and the server, when it has
answered, waits for the next packet.  If a reply is empty, nothing of it leaves: the send
of zero bytes completes, the slot reads again, and from then on both sides wait for the
other (`Net.Deadlocked`).

As long as a client waits, something is on its way (`Fed`): bytes to the server, bytes to
the client, or a packet or a reply at the server (`Busy`).  Every step keeps that, but for
the one that forms a reply with nothing to send.  So no client is left waiting in a run in
which every packet acted on is answered by something (`Speaks`), and for the server with
its handlers that is a condition on what the system answers (`Talking`).
-/

namespace BsitLabs
namespace Tcp

open MachineInt Transition SystemInfo

variable {Os : Type} {env : Env Os}

/-- The client is in `recv_request`. -/
def Net.Waiting (n : Net Os) (c : ℕ) : Prop :=
  (n.peers c).phase = .keySent ∨ (n.peers c).phase = .requested

/-- The client waits, nothing is on its way in either direction, and what the server has
outstanding for it is a read. -/
def Net.Deadlocked (n : Net Os) (c : ℕ) : Prop := n.Waiting c ∧ n.toClient c = [] ∧ n.Idle c

/-- The server acts on a packet of `m` bytes that has come to a slot. -/
def ActsOn (n : Net Os) (e : NetEvent Os) (i : Slot) (ans : Answers Os) (m : ℕ) : Prop :=
  i ≠ 0 ∧ m ≠ 0 ∧ ∃ (k : ℕ) (o : Op), e = .dequeue i k ans ∧ (n.world.pending i)[k]? = some o ∧
    o.block = .recv ∧ o.status = .done m

/-- The reply to a key packet is longer than what `sz_send` counts of the reply before. -/
def KeyOutgrows (env : Env Os) (n : Net Os) (e : NetEvent Os) : Prop :=
  ∀ i ans m, ActsOn n e i ans m → KeyAccepted env ans ((n.world.srv.gCtxs i).count m) →
    (n.world.srv.gCtxs i).szSend ≤ (env.csp.simpleBlob (n.world.srv.handles.keys.length + 1)
      ((n.world.srv.gCtxs i).count m).dropKeyMark.packet).length

/-- Every packet acted on is answered by something. -/
structure Speaks (env : Env Os) (n : Net Os) (e : NetEvent Os) : Prop where
  key : KeyOutgrows env n e
  text : ∀ i ans m ks t, ActsOn n e i ans m → (n.world.srv.gCtxs i).bufRecv.get 0 ≠ 0 →
    MsgAccepted env ((n.world.srv.gCtxs i).count m) ks t ans.os →
      ((n.world.srv.gCtxs i).count m).replyText env ks t ans.os ≠ []

/-! ## What is on its way to a client that waits -/

/-- The server is about to act on a packet, or to send more of a reply. -/
inductive Busy (c : ClientCtx) (o : Op) : Prop where
  | received {m : ℕ} (hb : o.block = .recv) (hst : o.status = .done m) (hm : m ≠ 0)
  | sending (hb : o.block = .send) (hst : o.status = .posted) (hlen : o.len ≠ 0)
  | sent {m : ℕ} (hb : o.block = .send) (hst : o.status = .done m) (hmore : c.sendsOn m = true)

/-- If the client of the slot waits, something is on its way. -/
def Fed (n : Net Os) (i : Slot) : Prop :=
  ∀ o, n.world.pending i = [o] → n.Waiting (n.world.srv.gCtxs i).socket →
    Busy (n.world.srv.gCtxs i) o ∨ n.toServer (n.world.srv.gCtxs i).socket ≠ [] ∨
      n.toClient (n.world.srv.gCtxs i).socket ≠ []

/-- Whether a client waits, and what is on its way, is a matter of its connection. -/
theorem Net.streams_congr {n n' : Net Os} {c : ℕ} (hpeer : n'.peers c = n.peers c)
    (htaken : n'.taken c = n.taken c) (hwire : n'.world.wire c = n.world.wire c) :
    (n'.Waiting c ↔ n.Waiting c) ∧ n'.toServer c = n.toServer c ∧ n'.toClient c = n.toClient c := by
  unfold Net.Waiting Net.toServer Net.toClient
  rw [hpeer, htaken, hwire]
  exact ⟨Iff.rfl, rfl, rfl⟩

theorem fed_of_closed {n : Net Os} {i : Slot} (h : n.world.pending i = []) : Fed n i := by
  intro o ho
  rw [h] at ho
  cases ho

theorem fed_of_busy {n : Net Os} {i : Slot} {o : Op} (h : n.world.pending i = [o])
    (hbusy : Busy (n.world.srv.gCtxs i) o) : Fed n i := by
  intro o' ho' _
  rw [h] at ho'
  obtain rfl := List.singleton_inj.mp ho'
  exact .inl hbusy

/-- Where the server was not busy, it was the streams that fed the client. -/
theorem Fed.of_quiet {n : Net Os} {i : Slot} {o : Op} {w : World Os} (h : Fed n i)
    (ho : n.world.pending i = [o]) (hquiet : ¬ Busy (n.world.srv.gCtxs i) o)
    (hsock : (w.srv.gCtxs i).socket = (n.world.srv.gCtxs i).socket)
    (hwire : w.wire = n.world.wire) : Fed { n with world := w } i := by
  intro _ _ hw
  obtain ⟨hwaits, hserver, hclient⟩ := Net.streams_congr (n := n)
    (show ({ n with world := w } : Net Os).peers (n.world.srv.gCtxs i).socket = _ from rfl) rfl
    (congrFun hwire _)
  rw [hsock] at hw ⊢
  rw [hserver, hclient]
  exact .inr ((h o ho (hwaits.mp hw)).resolve_left hquiet)

/-- What holds in the runs in which the server speaks. -/
structure Awake (n : Net Os) : Prop where
  window : ∀ i, i ≠ 0 → Window (n.world.srv.gCtxs i)
  taken : ∀ c, n.taken c ≤ (n.peers c).sent.flatten.length
  got : ∀ c, (n.peers c).got.flatten.length ≤ (n.world.wire c).length
  /-- Nothing has been taken of a connection that has not been accepted. -/
  unborn : ∀ c, n.world.srv.gAcceptedSocket ≤ c → n.taken c = 0
  /-- A client that waits has sent something. -/
  asked : ∀ c, n.Waiting c → (n.peers c).sent.flatten ≠ []
  fed : ∀ i, i ≠ 0 → Fed n i
  spoken : ∀ c, ∀ r ∈ n.world.replies c, r ≠ []

theorem awake_initial {n : Net Os} (h : (netMachine env).init n) : Awake n := by
  obtain ⟨hworld, htaken, pub, buf, _, hpeers⟩ := h
  have hctx : ∀ i, i ≠ 0 → n.world.srv.gCtxs i = ClientCtx.zero := fun i hi => by
    simp [hworld, World.initial, hi]
  have hpending : ∀ i, i ≠ 0 → n.world.pending i = [] := fun i hi => by
    simp [hworld, World.initial, hi]
  refine ⟨fun i hi => ?_, fun c => ?_, fun c => ?_, fun c _ => ?_, fun c hw => ?_,
    fun i hi o ho => ?_, fun c r hr => ?_⟩
  · rw [hctx i hi]
    exact Window.zero 0
  · rw [htaken]
    exact Nat.zero_le _
  · rw [hpeers]
    exact Nat.zero_le _
  · rw [htaken]
  · unfold Net.Waiting at hw
    rw [hpeers] at hw
    simp [Peer.start] at hw
  · rw [hpending i hi] at ho
    cases ho
  · rw [hworld] at hr
    exact absurd hr List.not_mem_nil

/-- A client that neither waits nor has lost its place in the streams, or has just sent
something. -/
theorem Awake.setPeer {n : Net Os} (h : Awake n) {c : ℕ} {p : Peer}
    (hsent : (n.peers c).sent.flatten <+: p.sent.flatten)
    (hgot : p.got.flatten.length ≤ (n.world.wire c).length)
    (hwaits : p.phase = .keySent ∨ p.phase = .requested →
      p.sent.flatten.drop (n.taken c) ≠ []) : Awake (n.setPeer c p) := by
  have hself : (n.setPeer c p).peers c = p := by rw [Net.setPeer_peers, if_pos rfl]
  have hother : ∀ d, d ≠ c → (n.setPeer c p).peers d = n.peers d := fun d hd => by
    rw [Net.setPeer_peers, if_neg hd]
  refine ⟨h.window, fun d => ?_, fun d => ?_, h.unborn, fun d hw => ?_, fun i hi o ho hw => ?_,
    h.spoken⟩
  · by_cases hd : d = c
    · rw [hd, hself]
      exact (h.taken c).trans hsent.length_le
    · rw [hother d hd]
      exact h.taken d
  · by_cases hd : d = c
    · rw [hd, hself]
      exact hgot
    · rw [hother d hd]
      exact h.got d
  · unfold Net.Waiting at hw
    by_cases hd : d = c
    · rw [hd, hself] at hw ⊢
      intro hnil
      exact hwaits hw (by rw [hnil, List.drop_nil])
    · rw [hother d hd] at hw ⊢
      exact h.asked d hw
  · by_cases hd : (n.world.srv.gCtxs i).socket = c
    · unfold Net.Waiting at hw
      have hctx : ((n.setPeer c p).world.srv.gCtxs i).socket = c := hd
      rw [hctx, hself] at hw
      refine .inr (.inl ?_)
      rw [hctx, Net.toServer, hself]
      exact hwaits hw
    · obtain ⟨hwaits, hserver, hclient⟩ := Net.streams_congr (hother _ hd) rfl rfl
      show _ ∨ (n.setPeer c p).toServer (n.world.srv.gCtxs i).socket ≠ [] ∨
        (n.setPeer c p).toClient (n.world.srv.gCtxs i).socket ≠ []
      rw [hserver, hclient]
      exact h.fed i hi o ho (hwaits.mp hw)

/-- A step of the server that has to do with one slot, and with the connection that held
it before. -/
theorem Awake.of_slot {n n' : Net Os} (h : Awake n) (hg : Good n.world) (i : Slot)
    (hpeers : n'.peers = n.peers)
    (htaken : ∀ c, c ≠ (n.world.srv.gCtxs i).socket → n'.taken c = n.taken c)
    (hwire : ∀ c, c ≠ (n.world.srv.gCtxs i).socket → n'.world.wire c = n.world.wire c)
    (hothers : ∀ j, j ≠ 0 → j ≠ i → n'.world.srv.gCtxs j = n.world.srv.gCtxs j ∧
      n'.world.pending j = n.world.pending j)
    (haccepted : n.world.srv.gAcceptedSocket ≤ n'.world.srv.gAcceptedSocket)
    (hself : n'.taken (n.world.srv.gCtxs i).socket ≤
        (n.peers (n.world.srv.gCtxs i).socket).sent.flatten.length ∧
      (n.world.wire (n.world.srv.gCtxs i).socket).length ≤
        (n'.world.wire (n.world.srv.gCtxs i).socket).length)
    (hslot : i ≠ 0 → Window (n'.world.srv.gCtxs i) ∧ Fed n' i)
    (hspoken : ∀ c, ∀ r ∈ n'.world.replies c, r ≠ []) : Awake n' := by
  refine ⟨fun j hj => ?_, fun c => ?_, fun c => ?_, fun c hc => ?_, fun c hw => ?_,
    fun j hj => ?_, hspoken⟩
  · by_cases hji : j = i
    · rw [hji] at hj ⊢
      exact (hslot hj).1
    · rw [(hothers j hj hji).1]
      exact h.window j hj
  · rw [hpeers]
    by_cases hc : c = (n.world.srv.gCtxs i).socket
    · rw [hc]
      exact hself.1
    · rw [htaken c hc]
      exact h.taken c
  · rw [hpeers]
    by_cases hc : c = (n.world.srv.gCtxs i).socket
    · rw [hc]
      exact (h.got _).trans hself.2
    · rw [hwire c hc]
      exact h.got c
  · have hbelow := hg.sockets.below i
    rw [htaken c (by omega)]
    exact h.unborn c (haccepted.trans hc)
  · unfold Net.Waiting at hw
    rw [hpeers] at hw ⊢
    exact h.asked c hw
  · by_cases hji : j = i
    · rw [hji] at hj ⊢
      exact (hslot hj).2
    · obtain ⟨hctx, hpend⟩ := hothers j hj hji
      intro o ho hw
      rw [hpend] at ho
      have hsock : (n.world.srv.gCtxs j).socket ≠ 0 := by
        have hget : (n.world.pending j)[0]? = some o := by rw [ho]; rfl
        exact ((hg.slots j hj).of_getElem? hget).2.2.1
      have hne : (n.world.srv.gCtxs j).socket ≠ (n.world.srv.gCtxs i).socket := fun heq =>
        hji (hg.sockets.injective j i hsock heq)
      obtain ⟨hwaits, hserver, hclient⟩ :=
        Net.streams_congr (congrFun hpeers _) (htaken _ hne) (hwire _ hne)
      rw [hctx] at hw ⊢
      rw [hserver, hclient]
      exact h.fed j hj o ho (hwaits.mp hw)

/-! ## The steps -/

/-- Bytes have arrived at the server. -/
theorem awake_received {n : Net Os} (h : Awake n) (hg : Good n.world) {i : Slot} {k : ℕ}
    {data : List UInt8} {w : World Os} {o : Op} (hs : World.Step env n.world (.received i k data) w)
    (ho : (n.world.pending i)[k]? = some o) (hdata : data <+: n.toServer o.sock)
    (hend : data = [] → n.toServer o.sock = [] ∧ (n.peers o.sock).phase.gone) :
    Awake { n with
      world := w
      taken := Function.update n.taken o.sock (n.taken o.sock + data.length) } := by
  obtain ⟨hi, rfl, hops, hctx, _, honly, hrec, _⟩ := received_leaves hg hs
  obtain ⟨_, _, _, hop⟩ := (hg.slots i hi).of_getElem? ho
  rw [hop.sock] at hdata hend ⊢
  refine h.of_slot hg i rfl (fun c hc => Function.update_of_ne hc _ _)
    (fun c _ => by rw [hrec.wire]) (fun j _ hji => ⟨honly.ctxs j hji, honly.pending j hji⟩)
    honly.accepted.ge ⟨?_, by rw [hrec.wire]⟩ (fun _ => ⟨?_, fun o' ho' hw => ?_⟩) fun c => ?_
  · have hle := hdata.length_le
    have htaken := h.taken (n.world.srv.gCtxs i).socket
    rw [Net.toServer, List.length_drop] at hle
    simp only [Function.update_self]
    omega
  · have hwindow := h.window i hi
    simp only [hctx]
    exact ⟨hwindow.sent_le, hwindow.total_le⟩
  · rw [hops] at ho'
    obtain rfl := (List.singleton_inj.mp ho').symm
    refine .inl (.received rfl rfl fun hzero => ?_)
    -- nothing comes only from a client that has gone
    obtain ⟨_, hgone⟩ := hend (List.length_eq_zero_iff.mp hzero)
    unfold Net.Waiting at hw
    simp only [hctx] at hw
    rcases hw with hw | hw
    · simp [hw, Phase.gone] at hgone
    · simp [hw, Phase.gone] at hgone
  · simp only [hrec.replies]
    exact h.spoken c

/-- Bytes have left the server. -/
theorem awake_sent {n : Net Os} (h : Awake n) (hg : Good n.world) {i : Slot} {k m : ℕ}
    {w : World Os} {o : Op} (hs : World.Step env n.world (.sent i k m) w)
    (ho : (n.world.pending i)[k]? = some o) (hpos : 0 < m ∨ o.len = 0) :
    Awake { n with world := w } := by
  cases hs with
  | @sent _ _ _ o' running hi ho' hst hb hlen =>
    obtain rfl := Option.some.inj (ho.symm.trans ho')
    obtain ⟨hops, rfl, _, hop⟩ := (hg.slots i hi).of_getElem? ho
    have hwindow := h.window i hi
    have hsent_le := hwindow.sent_le
    have htotal_le := hwindow.total_le
    have hops' : (n.world.pending i).set 0 { o with status := .done m } =
        [{ o with status := .done m }] := by
      rw [hops]
      rfl
    obtain ⟨left, hleft⟩ : ∃ left, left = (n.world.srv.gCtxs i).bufSend.slice o.off m := ⟨_, rfl⟩
    have hwire : (n.world.deliver i o m).wire (n.world.srv.gCtxs i).socket =
        n.world.wire (n.world.srv.gCtxs i).socket ++ left := by
      rw [hleft]
      show World.record n.world.wire o.sock _ _ = _
      rw [hop.sock, World.record_self]
    rw [hops']
    refine h.of_slot hg i rfl (fun c _ => rfl) (fun c hc => ?_)
      (fun j _ hji => ⟨rfl, World.setPending_pending_of_ne _ _ hji _⟩) le_rfl
      ⟨h.taken _, ?_⟩ (fun _ => ⟨hwindow, fun o' ho' hw => .inr ?_⟩) h.spoken
    · show World.record n.world.wire o.sock _ c = _
      rw [hop.sock, World.record_of_ne _ hc]
    · show _ ≤ ((n.world.deliver i o m).wire _).length
      rw [hwire, List.length_append]
      omega
    · show n.toServer (n.world.srv.gCtxs i).socket ≠ [] ∨
        ((n.world.deliver i o m).wire (n.world.srv.gCtxs i).socket).drop
          (n.peers (n.world.srv.gCtxs i).socket).got.flatten.length ≠ []
      rw [hwire, List.drop_append_of_le_length (h.got _)]
      rcases Nat.eq_zero_or_pos m with rfl | hm
      · -- a send of nothing had nothing to send
        have hlen0 : o.len = 0 := hpos.resolve_left (lt_irrefl 0)
        rcases h.fed i hi o hops hw with hbusy | hserver | hclient
        · cases hbusy with
          | received hb' _ _ => exact absurd (hb.symm.trans hb') (by decide)
          | sending _ _ hne => exact absurd hlen0 hne
          | sent _ hst' _ => exact absurd (hst.symm.trans hst') (by simp)
        · exact .inl hserver
        · exact .inr fun hnil => hclient (List.append_eq_nil_iff.mp hnil).1
      · refine .inr fun hnil => ?_
        have hnone : left = [] := (List.append_eq_nil_iff.mp hnil).2
        obtain ⟨hoff, hlen', _⟩ := hop.of_send hb
        rw [hwindow.usub_eq] at hlen'
        have hlength : ((n.world.srv.gCtxs i).bufSend.slice o.off m).length = m :=
          Buffer.length_slice _ (by omega)
        rw [← hleft, hnone, List.length_nil] at hlength
        omega

/-- A packet is answered with something to send. -/
theorem window_of_reply (hlaw : env.csp.Lawful) {n : Net Os} {e : NetEvent Os}
    (hspeaks : Speaks env n e) (hg : Good n.world) {i : Slot} {ans : Answers Os} {m k : ℕ} {o : Op}
    (hacts : ActsOn n e i ans m) (ho : (n.world.pending i)[k]? = some o) (hb : o.block = .recv)
    (hst : o.status = .done m) {s : Server}
    (hok : overlapRecvHandler env ans n.world.srv i m = .ok (s, scheduleWrite s i)) :
    Window (s.gCtxs i) ∧ (s.gCtxs i).szSend < (s.gCtxs i).szSendTotal := by
  obtain ⟨hi, hm, -⟩ := id hacts
  obtain ⟨hsz, hle⟩ := hg.recv_done hi ho hb hst
  rcases ((overlapRecvHandler_eq_ok_iff hm).mp hok).2 with
    ⟨_, hacc, rfl⟩ | ⟨hmark, ks, t, hacc, rfl⟩
  · have hshort := hspeaks.key i ans m hacts hacc
    have hctx := Server.setCtx_answKey_gCtxs_self env n.world.srv i
      ((n.world.srv.gCtxs i).count m)
    have htotal := szSendTotal_answKey hlaw hsz hm hle hacc (n.world.srv.handles.keys.length + 1)
    have hwindow := Window.answKey hlaw hsz hm hle hacc (n.world.srv.handles.keys.length + 1)
      (by omega)
    rw [hctx, htotal]
    exact ⟨hwindow, Nat.lt_succ_of_le hshort⟩
  · have htext := hspeaks.text i ans m ks t hacts hmark hacc
    rw [Server.setCtx_gCtxs_self]
    exact ⟨⟨Nat.zero_le _, hacc.fits⟩, List.length_pos_iff.mpr htext⟩

/-- A window with something in it shows a reply that is not empty. -/
theorem Window.reply_ne_nil {c : ClientCtx} (h : Window c) (hlt : c.szSend < c.szSendTotal) :
    c.reply ≠ [] := by
  intro hnil
  have hlength : c.reply.length = c.szSendTotal :=
    Buffer.length_slice _ (by rw [Nat.zero_add]; exact h.total_le)
  rw [hnil, List.length_nil] at hlength
  omega

/-- The loop has dequeued a completion of a client. -/
theorem awake_iterates (hlaw : env.csp.Lawful) {n : Net Os} (h : Awake n) (hg : Good n.world)
    {i : Slot} (hi : i ≠ 0) {k m : ℕ} {o : Op} {ans : Answers Os} {w : World Os}
    (ho : (n.world.pending i)[k]? = some o) (hst : o.status = .done m) (hans : ans.Succeed)
    (hs : World.Step env n.world (.dequeue i k ans) w)
    (hspeaks : Speaks env n (.dequeue i k ans)) : Awake { n with world := w } := by
  obtain ⟨honly, hit⟩ := iterates_of_dequeue hg hi ho hst hans hs
  have hops := ((hg.slots i hi).of_getElem? ho).1
  have hwindow := h.window i hi
  -- what is left to show of each outcome
  have hstep : w.wire = n.world.wire → Window (w.srv.gCtxs i) → Fed { n with world := w } i →
      (∀ c, ∀ r ∈ w.replies c, r ≠ []) → Awake { n with world := w } := fun hwire hwin hfed hrep =>
    h.of_slot hg i rfl (fun _ _ => rfl) (fun c _ => by rw [hwire])
      (fun j _ hji => ⟨honly.ctxs j hji, honly.pending j hji⟩) honly.accepted.ge
      ⟨h.taken _, by rw [hwire]⟩ (fun _ => ⟨hwin, hfed⟩) hrep
  generalize hblock : o.block = b at hit
  cases hit with
  | hangUp hsrv _ hrec _ =>
    refine hstep hrec.wire (hsrv ▸ hwindow)
      ((h.fed i hi).of_quiet hops (fun hb => ?_) (by rw [hsrv]) hrec.wire) (hrec.replies ▸ h.spoken)
    cases hb with
    | received _ hst' hm => exact hm (Status.done.inj (hst'.symm.trans hst))
    | sending hb' _ _ => exact absurd (hblock.symm.trans hb') (by decide)
    | sent hb' _ _ => exact absurd (hblock.symm.trans hb') (by decide)
  | stop _ _ hsrv hops' hwire _ hreplies _ _ =>
    exact hstep hwire (hsrv ▸ hwindow) (fed_of_closed hops') (hreplies ▸ h.spoken)
  | reply hm hok hops' hwire _ hreplies _ _ =>
    obtain ⟨hwin, hlt⟩ := window_of_reply hlaw hspeaks hg ⟨hi, hm, k, o, rfl, ho, hblock, hst⟩ ho
      hblock hst hok
    refine hstep hwire hwin (fed_of_busy hops' (.sending rfl rfl ?_)) fun c r hr => ?_
    · show usub (w.srv.gCtxs i).szSendTotal (w.srv.gCtxs i).szSend ≠ 0
      rw [hwin.usub_eq]
      omega
    · rw [hreplies] at hr
      by_cases hc : c = (w.srv.gCtxs i).socket
      · rw [hc, World.record_self, List.mem_append, List.mem_singleton] at hr
        rcases hr with hr | rfl
        · exact h.spoken _ r hr
        · exact hwin.reply_ne_nil hlt
      · rw [World.record_of_ne _ hc] at hr
        exact h.spoken c r hr
  | more hmore hsrv hops' hrec _ =>
    obtain ⟨_, hle⟩ := hg.send_done hi ho hblock hst
    obtain ⟨_, hwin⟩ := hwindow.advance hle
    have hctx : w.srv.gCtxs i = (n.world.srv.gCtxs i).advance m := by
      rw [hsrv, Server.setCtx_gCtxs_self]
    refine hstep hrec.wire (hctx ▸ hwin) (fed_of_busy hops' (.sending rfl rfl ?_))
      (hrec.replies ▸ h.spoken)
    have hlt : ((n.world.srv.gCtxs i).advance m).szSend < (n.world.srv.gCtxs i).szSendTotal := by
      simp only [ClientCtx.sendsOn, Bool.and_eq_true, decide_eq_true_eq] at hmore
      exact hmore.1
    have husub := hwin.usub_eq
    rw [ClientCtx.advance_szSendTotal] at husub
    show usub (n.world.srv.gCtxs i).szSendTotal ((n.world.srv.gCtxs i).advance m).szSend ≠ 0
    rw [husub]
    omega
  | last hlast hsrv _ hrec _ =>
    obtain ⟨_, hle⟩ := hg.send_done hi ho hblock hst
    obtain ⟨_, hwin⟩ := hwindow.advance hle
    have hctx : w.srv.gCtxs i = ((n.world.srv.gCtxs i).advance m).rearm := by
      rw [hsrv, Server.setCtx_gCtxs_self]
    refine hstep hrec.wire (hctx ▸ hwin.rearm)
      ((h.fed i hi).of_quiet hops (fun hb => ?_) (by rw [hctx]; rfl) hrec.wire)
      (hrec.replies ▸ h.spoken)
    cases hb with
    | received hb' _ _ => exact absurd (hblock.symm.trans hb') (by decide)
    | sending _ hst' _ => exact absurd (hst.symm.trans hst') (by simp)
    | sent _ hst' hmore =>
      obtain rfl := Status.done.inj (hst'.symm.trans hst)
      exact absurd (hmore.symm.trans hlast) (by decide)
  | close hsrv hops' hrec _ =>
    have hctx : w.srv.gCtxs i = ClientCtx.zero := by
      rw [hsrv]
      simp [overlapCancelHandler]
    exact hstep hrec.wire (hctx ▸ Window.zero 0) (fed_of_closed hops') (hrec.replies ▸ h.spoken)

/-- The loop has dequeued an accept. -/
theorem awake_accepts {n : Net Os} (h : Awake n) (hg : Good n.world) {k m : ℕ} {o : Op}
    {ans : Answers Os} {w : World Os} (ho : (n.world.pending 0)[k]? = some o)
    (hst : o.status = .done m) (hans : ans.Succeed)
    (hs : World.Step env n.world (.dequeue 0 k ans) w) : Awake { n with world := w } := by
  obtain ⟨hslot, hrec, _, _⟩ := accepts_of_dequeue hg ho hst hans hs
  have haccepted := hg.sockets.accepted
  rcases hslot with ⟨i, ha⟩ | hr
  · have hfresh : w.srv.gAcceptedSocket = n.world.srv.gAcceptedSocket + 1 := by
      rw [ha.srv, haccepted]
      rfl
    refine h.of_slot hg i rfl (fun _ _ => rfl) (fun _ _ => by rw [hrec.wire])
      (fun j hj hji => ha.others j hj hji) (by show _ ≤ w.srv.gAcceptedSocket; omega)
      ⟨h.taken _, by rw [hrec.wire]⟩ (fun _ => ⟨?_, fun o' _ hw => .inr (.inl ?_)⟩)
      (hrec.replies ▸ h.spoken)
    · show Window (w.srv.gCtxs i)
      rw [ha.ctx]
      exact Window.zero _
    · -- what the new client has sent has not been taken
      have hsock : (w.srv.gCtxs i).socket = n.world.srv.gAcceptedSocket := by rw [ha.ctx]
      unfold Net.Waiting at hw
      unfold Net.toServer
      simp only [hsock] at hw ⊢
      rw [h.unborn _ le_rfl, List.drop_zero]
      exact h.asked _ hw
  · have hsame : n.world.srv.gAcceptedSocket ≤ w.srv.gAcceptedSocket := by
      rw [hr.srv]
      simp only [scheduleAccept, haccepted]
      exact Nat.le_succ _
    exact h.of_slot hg 0 rfl (fun _ _ => rfl) (fun _ _ => by rw [hrec.wire])
      (fun j hj _ => hr.others j hj) hsame ⟨h.taken _, by rw [hrec.wire]⟩
      (fun hne => absurd rfl hne) (hrec.replies ▸ h.spoken)

/-- A client has connected. -/
theorem awake_connect {n : Net Os} (h : Awake n) (hg : Good n.world) {k : ℕ} {w : World Os}
    (hs : World.Step env n.world (.accepted k) w) :
    Awake ({ n with world := w }.setPeer n.world.srv.gAcceptedSocket
      { n.peers n.world.srv.gAcceptedSocket with phase := .connected }) := by
  cases hs with
  | @accepted _ o running ho hst =>
    have hworld : Awake { n with
        world := n.world.setPending 0 ((n.world.pending 0).set k { o with status := .done 0 }) } :=
      h.of_slot hg 0 rfl (fun _ _ => rfl) (fun _ _ => rfl)
        (fun j hj _ => ⟨rfl, World.setPending_pending_of_ne _ _ hj _⟩) le_rfl
        ⟨h.taken _, le_rfl⟩ (fun hne => absurd rfl hne) h.spoken
    exact hworld.setPeer List.prefix_rfl (h.got _) (fun hw => by simp at hw)

/-- A client has sent a packet. -/
theorem Awake.send {n : Net Os} (h : Awake n) {c : ℕ} {p : Peer} {packet : List UInt8}
    {phase : Phase}
    (hne : packet ≠ []) (hsent : p.sent = (n.peers c).sent) (hgot : p.got = (n.peers c).got) :
    Awake (n.setPeer c (p.send packet phase)) := by
  have hflat : (p.send packet phase).sent.flatten = (n.peers c).sent.flatten ++ packet := by
    simp [Peer.send, hsent]
  refine h.setPeer ?_ ?_ fun _ => ?_
  · rw [hflat]
    exact List.prefix_append _ _
  · show p.got.flatten.length ≤ _
    rw [hgot]
    exact h.got c
  · rw [hflat, List.drop_append_of_le_length (h.taken c)]
    exact fun hnil => hne (List.append_eq_nil_iff.mp hnil).2

/-- What a client does with a reply, it no longer waits. -/
theorem Peer.receive_phase (csp : Csp) (p : Peer) (data : List UInt8) :
    (p.receive csp data).phase = .menu ∨ (p.receive csp data).phase = .aborted := by
  unfold Peer.receive Peer.takeKey Peer.takeText
  split
  · cases hset : p.client.setKey csp data with
    | none => exact .inr (by simp [hset])
    | some ks => exact .inl (by simp [hset, cryptTest_some])
  · cases hdec : p.client.decryptMsg data with
    | none => exact .inr (by simp [hdec])
    | some text => exact .inl (by simp [hdec])

/-- A client has taken a reply. -/
theorem awake_receive {n : Net Os} (h : Awake n) {c : ℕ} {data : List UInt8}
    (hdata : data <+: n.toClient c) : Awake (n.setPeer c ((n.peers c).receive env.csp data)) := by
  obtain ⟨hgot, hsent, _⟩ := (n.peers c).receive_records env.csp data
  refine h.setPeer ?_ ?_ fun hw => ?_
  · rw [hsent]
  · have hle := hdata.length_le
    have hbefore := h.got c
    rw [Net.toClient, List.length_drop] at hle
    rw [hgot, List.flatten_append, List.length_append, List.flatten_singleton]
    omega
  · rcases (n.peers c).receive_phase env.csp data with hmenu | haborted
    · simp [hmenu] at hw
    · simp [haborted] at hw

/-- **Every step in which the server speaks** keeps something on its way to the clients
that wait. -/
theorem awake_step (hlaw : env.csp.Lawful) {n n' : Net Os} {e : NetEvent Os} (hg : Good n.world)
    (h : Awake n) (hspeaks : Speaks env n e) (hs : Net.Step env n e n') : Awake n' := by
  cases hs with
  | connect hs _ => exact awake_connect h hg hs
  | received hs ho hdata hend => exact awake_received h hg hs ho hdata hend
  | sent hs ho hpos => exact awake_sent h hg hs ho hpos
  | @dequeue i k m ans w o hs ho hst hans =>
    by_cases hi : i = 0
    · subst hi
      exact awake_accepts h hg ho hst hans hs
    · exact awake_iterates hlaw h hg hi ho hst hans hs hspeaks
  | sendKey _ hform => exact h.send (Client.requestFormation_ne_nil hform) rfl rfl
  | request _ _ hform => exact h.send (Client.requestFormation_ne_nil hform) rfl rfl
  | receive _ _ _ hdata => exact awake_receive h hdata
  | exit _ => exact h.setPeer List.prefix_rfl (h.got _) (fun hw => by simp at hw)

/-- **In a run in which the server speaks**, something is on its way to every client that
waits. -/
theorem awake_reachable (hlaw : env.csp.Lawful) {n : Net Os}
    (h : ((netMachine env).restrict (Speaks env)).Reachable n) : Awake n :=
  h.invariant (M := (netMachine env).restrict (Speaks env)) (fun _ hi => awake_initial hi)
    fun _ _ _ hr ha hs => awake_step hlaw (good_of_net hr.of_restrict) ha hs.1 hs.2

/-- Where something is on its way to every client that waits, none waits in vain. -/
theorem Awake.not_deadlocked {n : Net Os} (h : Awake n) (hg : Good n.world) (c : ℕ) :
    ¬ n.Deadlocked c := by
  rintro ⟨hwaits, hclient, hserver, i, o, hi, rfl, ho, hb, hst⟩
  obtain ⟨k, hk⟩ := List.mem_iff_getElem?.mp ho
  obtain ⟨hops, _⟩ := (hg.slots i hi).of_getElem? hk
  rcases h.fed i hi o hops hwaits with hbusy | hne | hne
  · cases hbusy with
    | received _ hst' _ => exact absurd (hst.symm.trans hst') (by simp)
    | sending hb' _ _ => exact absurd (hb.symm.trans hb') (by decide)
    | sent hb' _ _ => exact absurd (hb.symm.trans hb') (by decide)
  · exact hne hserver
  · exact hne hclient

/-! ## The handlers of the repository -/

/-- What the system answers gives the handler of every request something to write. -/
structure Talking (csp : Csp) (n : Net Win32) (e : NetEvent Win32) : Prop where
  key : KeyOutgrows (.windows csp) n e
  text : ∀ i ans m ks t, ActsOn n e i ans m → (n.world.srv.gCtxs i).bufRecv.get 0 ≠ 0 →
    MsgAccepted (.windows csp) ((n.world.srv.gCtxs i).count m) ks t ans.os →
      Talks ans.os (pathOf (((n.world.srv.gCtxs i).count m).plainBuf ks)) t

/-- The server speaks exactly if the system gives it something to say. -/
theorem speaks_iff_talking (csp : Csp) (n : Net Win32) (e : NetEvent Win32) :
    Speaks (.windows csp) n e ↔ Talking csp n e := by
  constructor
  · rintro ⟨hkey, htext⟩
    exact ⟨hkey, fun i ans m ks t hacts hmark hacc =>
      (replyText_ne_nil_iff hacc).mp (htext i ans m ks t hacts hmark hacc)⟩
  · rintro ⟨hkey, htext⟩
    exact ⟨hkey, fun i ans m ks t hacts hmark hacc =>
      (replyText_ne_nil_iff hacc).mpr (htext i ans m ks t hacts hmark hacc)⟩

/-- **No client is left waiting**, and every reply has at least one byte, in every run in
which what the system answers gives the handlers something to write. -/
theorem not_deadlocked_of_talking (csp : Csp) (hlaw : csp.Lawful) {n : Net Win32}
    (h : ((netMachine (Env.windows csp)).restrict (Talking csp)).Reachable n) :
    (∀ c, ¬ n.Deadlocked c) ∧ ∀ c, ∀ r ∈ n.world.replies c, r ≠ [] := by
  have hspeaks : ((netMachine (Env.windows csp)).restrict (Speaks (Env.windows csp))).Reachable n :=
    h.restrict_mono fun n e => (speaks_iff_talking csp n e).mpr
  have hawake := awake_reachable hlaw hspeaks
  exact ⟨hawake.not_deadlocked (good_of_net h.of_restrict), hawake.spoken⟩

/-! ## The first client's session -/

/-- Where no packet is acted on, nothing has to be said. -/
theorem talking_of_quiet {csp : Csp} {n : Net Win32} {e : NetEvent Win32}
    (h : ∀ i ans m, ¬ ActsOn n e i ans m) : Talking csp n e where
  key i ans m hacts := absurd hacts (h i ans m)
  text i ans m _ _ hacts := absurd hacts (h i ans m)

/-- What is acted on is the packet that has arrived. -/
theorem ActsOn.of_arrived {n : Net Os} {i j : Slot} {packet : List UInt8} {os : Os}
    {ans : Answers Os} {m : ℕ}
    (h : ActsOn (n.arrived i packet) (.dequeue i 0 (.allYes os)) j ans m) :
    j = i ∧ m = packet.length := by
  obtain ⟨_, _, k, o, he, ho, _, hst⟩ := h
  obtain ⟨rfl, rfl, _⟩ := NetEvent.dequeue.inj he
  rw [show (n.arrived i packet).world = n.world.receives i packet from rfl,
    World.receives_pending] at ho
  obtain rfl := Option.some.inj ho
  exact ⟨rfl, (Status.done.inj hst).symm⟩

/-- The first packet that a slot receives is answered. -/
theorem talking_arrived_key {csp : Csp} {n : Net Win32} {i : Slot} {pub : List UInt8} {os : Win32}
    (hreads : Reads n.world i) (hopen : (n.world.srv.gCtxs i).szSend = 0)
    (hlen : (0 :: pub).length ≤ bufSize) :
    Talking csp (n.arrived i (0 :: pub)) (.dequeue i 0 (.allYes os)) := by
  obtain ⟨_, hhas, _, hsz⟩ := hreads.receives (Env.windows csp) (List.cons_ne_nil 0 pub) hlen
  refine ⟨fun j ans m hacts _ => ?_, fun j ans m ks t hacts hmark _ => ?_⟩
  · obtain ⟨rfl, _⟩ := hacts.of_arrived
    rw [show (n.arrived j (0 :: pub)).world = n.world.receives j (0 :: pub) from rfl, hsz, hopen]
    exact Nat.zero_le _
  · obtain ⟨rfl, _⟩ := hacts.of_arrived
    exact absurd hhas.holds.get_zero hmark

/-- A request for the time is answered. -/
theorem talking_arrived_request {n : Net Win32} {os : Win32} (hreads : Reads n.world 1)
    (hkey : (n.world.srv.gCtxs 1).key = 1) :
    Talking .oneByte (n.arrived 1 [RequestType.currentTime.code ^^^ 1])
      (.dequeue 1 0 (.allYes os)) := by
  obtain ⟨_, hhas, _, _⟩ := hreads.receives (Env.windows .oneByte)
    (List.cons_ne_nil (RequestType.currentTime.code ^^^ 1) []) (show 1 ≤ bufSize by decide)
  refine ⟨fun i ans m hacts hacc => ?_, fun i ans m ks t hacts _ hacc => ?_⟩
  · obtain ⟨rfl, rfl⟩ := hacts.of_arrived
    have hmark : RequestType.currentTime.code ^^^ 1 = 0 := hhas.holds.get_zero.symm.trans hacc.mark
    exact absurd hmark (by decide)
  · obtain ⟨rfl, rfl⟩ := hacts.of_arrived
    have hks : Csp.oneByte.keyOf 1 = some ks := by
      rw [← hkey]
      have hown := hacc.key
      rwa [show (n.arrived 1 _).world = n.world.receives 1 _ from rfl, World.receives_ctx] at hown
    obtain rfl : Csp.oneByte.keystream 1 = ks := Option.some.inj hks
    have hfirst := hhas.holds.plainBuf_get_zero (Csp.oneByte.keystream 1)
    have hrequest := hacc.request
    rw [show (n.arrived 1 _).world = n.world.receives 1 _ from rfl, hfirst] at hrequest
    obtain rfl : RequestType.currentTime = t := Option.some.inj hrequest
    exact trivial

/-- So is the first client's key packet. -/
theorem talking_sampleKeySent_arrived (os : Win32) :
    Talking .oneByte ((Net.sampleKeySent os).arrived 1 [0, 6]) (.dequeue 1 0 (.allYes os)) := by
  have hreads : Reads (Net.sampleKeySent os).world 1 := reads_connected os
  have hopen : ((Net.sampleKeySent os).world.srv.gCtxs 1).szSend = 0 :=
    congrArg ClientCtx.szSend (World.connected_ctx os)
  exact talking_arrived_key hreads hopen (show 2 ≤ bufSize by decide)

/-- The system has something to say in a session in which the first client asks for the time. -/
theorem Net.firstOk_talking (os : Win32) (text : List UInt8) :
    FirstOk (.windows .oneByte) os (Talking .oneByte) .currentTime text := by
  have hquiet : ∀ {n : Net Win32} {e : NetEvent Win32}, (∀ i k ans, e ≠ .dequeue i k ans) →
      Talking .oneByte n e := fun hne =>
    talking_of_quiet fun i ans _ ⟨_, _, k, _, he, _⟩ => hne i k ans he
  have hsends : ∀ {n : Net Win32} {i : Slot} {k : ℕ} {ans : Answers Win32},
      (∀ o ∈ n.world.pending i, o.block = .send) → Talking .oneByte n (.dequeue i k ans) := by
    refine fun hops => talking_of_quiet ?_
    rintro j ans m ⟨_, _, k, o, he, ho, hb, _⟩
    obtain ⟨rfl, _, _⟩ := NetEvent.dequeue.inj he
    exact absurd (hb.symm.trans (hops o (List.mem_of_getElem? ho))) (by decide)
  refine ⟨hquiet (by simp), talking_of_quiet ?_, hquiet (by simp),
    ⟨hquiet (by simp), talking_sampleKeySent_arrived os,
      fun _ _ _ => hquiet (by simp), fun _ _ hops => hsends hops⟩, fun _ _ => hquiet (by simp),
    fun _ _ => hquiet (by simp),
    fun n hk => ⟨hquiet (by simp), talking_arrived_request hk.reads hk.key,
      fun _ _ _ => hquiet (by simp), fun _ _ hops => hsends hops⟩,
    fun _ _ _ _ => hquiet (by simp)⟩
  rintro i ans m ⟨hi, _, k, _, he, _⟩
  exact hi (NetEvent.dequeue.inj he).1.symm

/-- The handler of a request without a path does not look at `buf_recv`. -/
theorem handler_eq_of_pathless (csp : Csp) (w : Win32) {t : RequestType} (ht : t.takesPath = false)
    (b b' : Buffer bufSize) :
    (Env.windows csp).handler t b w = (Env.windows csp).handler t b' w := by
  cases t with
  | accessRight => cases ht
  | owner => cases ht
  | _ => rfl

/-- It leaves the same, whatever it is given, if the system lets it get through. -/
theorem exists_handler_pathless (csp : Csp) {w : Win32} {t : RequestType} {path : CText}
    (ht : t.takesPath = false) (h : Answerable w path t) :
    ∃ written, (∀ b, (Env.windows csp).handler t b w = some written) ∧
      written.takeWhile (· != 0) = report w path t ∧ (report w path t).length < bufSize := by
  have hnone : t.takesPath ≠ true := by
    rw [ht]
    decide
  have hsome : ((Env.windows csp).handler t (.zero bufSize) w).isSome :=
    (handler_isSome_iff csp).mpr
      ⟨fun hpath => absurd hpath hnone, h.congr fun hpath => absurd hpath hnone⟩
  obtain ⟨written, hwritten⟩ := Option.isSome_iff_exists.mp hsome
  have htext := takeWhile_handler hwritten
  rw [report_congr w fun hpath => absurd hpath hnone] at htext
  exact ⟨written, fun b => (handler_eq_of_pathless csp w ht b _).trans hwritten, htext⟩

/-- The first client has received its key and the time that it has asked for. -/
theorem not_deadlocked_of_talking_sample : ∃ n : Net Win32,
    n.Answered .currentTime (timeText Win32.silent.getSystemTime).bytes Win32.silent ∧
      (∀ c, ¬ n.Deadlocked c) ∧ ∀ c, ∀ r ∈ n.world.replies c, r ≠ [] := by
  have htalks : report Win32.silent .nil .currentTime ≠ [] :=
    (report_ne_nil_iff Win32.silent (t := .currentTime) trivial).mpr trivial
  obtain ⟨written, hwritten, htext, hlen⟩ := exists_handler_pathless .oneByte rfl
    (show Answerable Win32.silent .nil .currentTime from ⟨trivial, trivial⟩)
  obtain ⟨n, hr, hanswered⟩ := Net.exists_firstAnswered (.windows .oneByte) Win32.silent
    .currentTime written rfl rfl (by decide) (fun b _ => hwritten b) (htext ▸ hlen.le)
    (htext ▸ htalks) (Net.firstOk_talking Win32.silent _)
  rw [htext] at hanswered
  exact ⟨n, hanswered, not_deadlocked_of_talking .oneByte Csp.oneByte_lawful hr⟩

/-! ## A request that is answered by nothing -/

/-- A server with a provider of one-byte keystreams. -/
def Env.oneByte : Env Win32 := .windows .oneByte

/-- With no condition on the steps, the first client's session may go on. -/
theorem Net.firstOk_true (env : Env Os) (os : Os) (t : RequestType) (text : List UInt8) :
    FirstOk env os (fun _ _ => True) t text :=
  ⟨trivial, trivial, trivial, ⟨trivial, trivial, fun _ _ _ => trivial, fun _ _ _ => trivial⟩,
    fun _ _ => trivial, fun _ _ => trivial,
    fun _ _ => ⟨trivial, trivial, fun _ _ _ => trivial, fun _ _ _ => trivial⟩,
    fun _ _ _ _ => trivial⟩

/-- A system without drives lets the handler of the free space get through. -/
theorem answerable_silent : Answerable Win32.silent .nil .freeSpace := by
  have hnone : shownSpaces Win32.silent = [] := by decide
  refine ⟨fun space hs => ?_, trivial⟩
  rw [hnone] at hs
  cases hs

/-- **A request to which the system has nothing to say** is answered by nothing, and its
client waits for good. -/
theorem not_never_deadlocked : ¬ ∀ n, (netMachine Env.oneByte).Reachable n →
    ∀ c, ¬ n.Deadlocked c := by
  intro hall
  have hok := Net.firstOk_true Env.oneByte Win32.silent .freeSpace []
  obtain ⟨n, hr, hk⟩ := Net.exists_keyAnswered
    (show (Env.oneByte : Env Win32).csp.wellFormed [6] = true from rfl) (show 1 < bufSize by decide)
    (Net.reachable_sampleKeySent rfl Win32.silent hok.connect hok.accept hok.sendKey) hok.key
  have hasked := Net.reachable_asked (t := .freeSpace) rfl hr hk rfl (hok.takeKey n hk)
    (hok.request n hk)
  obtain ⟨written, hwritten, htext, hlen⟩ := exists_handler_pathless .oneByte rfl
    answerable_silent
  have hnone : written.takeWhile (· != 0) = [] := htext
  obtain ⟨n', _, hr', _, hex⟩ := Net.exists_served rfl hk hasked (fun buf _ => hwritten buf)
    (htext ▸ hlen.le) (by decide) (hok.answer n hk)
  rw [hnone] at hex
  have hsock : ((n.setPeer 2 (Net.askedPeer .freeSpace)).world.srv.gCtxs 1).socket = 2 := by
    rw [show (n.setPeer 2 (Net.askedPeer .freeSpace)).world = n.world from rfl,
      hk.others.srv.socket, World.connected_ctx]
  have hsock' : (n'.world.srv.gCtxs 1).socket = 2 := hex.others.srv.socket.trans hsock
  have hpeer : n'.peers 2 = Net.askedPeer .freeSpace := by
    rw [hex.peers, Net.setPeer_peers, if_pos rfl]
  have htaken := hex.taken
  have hwire := hex.wire
  rw [hsock] at htaken hwire
  rw [show (n.setPeer 2 (Net.askedPeer .freeSpace)).taken 2 = 2 from hk.taken] at htaken
  rw [show (n.setPeer 2 (Net.askedPeer .freeSpace)).world.wire 2 = [0, 1] from hk.wire] at hwire
  refine hall n' hr'.of_restrict 2 ⟨.inr (by rw [hpeer]; rfl), ?_, ?_, 1,
    ⟨.recv, (n'.world.srv.gCtxs 1).socket, 0, bufSize, .posted⟩, by decide, hsock', ?_, rfl, rfl⟩
  · rw [Net.toClient, hpeer, hwire]
    rfl
  · rw [Net.toServer, hpeer, htaken]
    rfl
  · rw [hex.reads.op]
    exact List.mem_singleton.mpr rfl

end Tcp
end BsitLabs
