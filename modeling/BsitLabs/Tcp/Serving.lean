import BsitLabs.Tcp.Session
import Mathlib.Data.Fintype.Card

/-!
# The server's steps keep the sessions

What `Session` says of the clients' steps is said here of the server's.  A receive
puts a packet on the way and a send takes bytes of the reply off it; an iteration acts
on one packet, and whichever builder it selects, the reply it forms is the session's
next (`Forms`).  A new connection takes a free slot with nothing on the way.

That there is a free slot is the one thing a session does not say for itself: the
server holds at most as many connections as it searches slots for
(`findFree_ne_none`).
-/

namespace BsitLabs
namespace Tcp

open MachineInt Transition

variable {Os : Type} {env : Env Os}

/-- The only operation of a slot ties it to its session. -/
theorem DeliveryOk.op {n : Net Os} (h : DeliveryOk env n) (hg : Good n.world) {i : Slot}
    (hi : i ≠ 0) {k : ℕ} {o : Op} (ho : (n.world.pending i)[k]? = some o) :
    n.world.pending i = [o] ∧ k = 0 ∧ OpState (n.world.srv.gCtxs i) o ∧ Link n i o := by
  obtain ⟨hops, hk, hsock, hop⟩ := (hg.slots i hi).of_getElem? ho
  obtain ⟨o', hops', hl⟩ := h.link i hi hsock
  obtain rfl : o = o' := List.singleton_inj.mp (hops.symm.trans hops')
  exact ⟨hops, hk, hop, hl⟩

/-! ## Receiving and sending -/

/-- A receive puts a packet on the way. -/
theorem deliveryOk_received {n : Net Os} (h : DeliveryOk env n) (hg : Good n.world) {i : Slot}
    {k : ℕ} {data : List UInt8} {w : World Os} {o : Op}
    (hs : World.Step env n.world (.received i k data) w) (ho : (n.world.pending i)[k]? = some o)
    (hend : data = [] → (n.peers o.sock).phase.gone = true) :
    DeliveryOk env
      { n with
        world := w
        taken := Function.update n.taken o.sock (n.taken o.sock + data.length) } := by
  obtain ⟨hi, _, hops, hctx, _, honly, hrec, hrun⟩ := received_leaves hg hs
  obtain ⟨hold, _, hop, hl⟩ := h.op hg hi ho
  have hhandles : w.srv.handles = n.world.srv.handles := by
    cases hs
    rfl
  have hposted : o.block = .recv ∧ o.status = .posted := by
    cases hs with
    | received _ _ ho' hst hb _ =>
      obtain rfl := Option.some.inj (ho.symm.trans ho')
      exact ⟨hb, hst⟩
  have hsock : (w.srv.gCtxs i).socket = (n.world.srv.gCtxs i).socket := by rw [hctx]
  refine h.setSlot hg hi hop.sock.symm rfl honly hrun (fun d _ => by rw [hrec.wire])
    (fun d _ => by rw [hrec.packets]) (fun d _ => by rw [hrec.replies])
    (fun d _ => by rw [hrec.handled]) (fun d hd => Function.update_of_ne hd _ _)
    (fun d _ => by rw [hhandles]) ?_ ?_ ?_ (fun _ => ⟨_, hops, ?_⟩)
    (by rw [hhandles]; exact h.closed)
  · rw [hhandles, hrec.packets, hrec.replies, hrec.handled]
    exact h.session o.sock
  · rw [hrec.wire, hrec.replies]
    exact h.wire o.sock
  · rw [hrec.wire]
  · have hdelivered := hl.delivered
    have htaken := hl.taken
    simp only [unsent, hposted.1, List.append_nil] at hdelivered
    simp only [unacted, hposted.1, hposted.2, Status.transferred, Nat.add_zero] at htaken
    refine ⟨?_, ?_, fun hb => by simp at hb, ?_, ?_, fun hnone => ?_, ?_⟩
    · simp only [unsent, List.append_nil, hsock, hrec.wire, hrec.replies]
      exact hdelivered
    · simp only [unacted, Status.transferred, hsock, hrec.packets, hop.sock, Function.update_self]
      rw [htaken]
    · rintro (hb | ⟨_, hst⟩)
      · simp at hb
      · -- a receive that has brought nothing has found the connection closed
        have hnil : data = [] := List.length_eq_zero_iff.mp (Status.done.inj hst)
        have hgone := hend hnil
        have hnot := (h.session o.sock).not_aborted
        simp only [hsock]
        rw [← hop.sock]
        revert hgone hnot
        cases (n.peers o.sock).phase <;> simp [Phase.gone]
    · simp only [hhandles, hctx]
      exact hl.key
    · simp only [hsock, hhandles] at hnone
      simp only [hctx]
      exact ⟨(hl.unopened hnone).1, by simp⟩
    · simp only [hsock]
      exact hl.present

/-- A send takes bytes of the reply off what is on the way. -/
theorem deliveryOk_sent {n : Net Os} (h : DeliveryOk env n) (hg : Good n.world) {i : Slot} {k m : ℕ}
    {w : World Os} {o : Op} (hs : World.Step env n.world (.sent i k m) w)
    (ho : (n.world.pending i)[k]? = some o) (hpos : 0 < m ∨ o.len = 0) :
    DeliveryOk env { n with world := w } := by
  cases hs with
  | @sent _ _ _ o' running hi ho' hst hb hlen =>
    obtain rfl := Option.some.inj (ho.symm.trans ho')
    obtain ⟨hops, rfl, hop, hl⟩ := h.op hg hi ho
    obtain ⟨hwin, hle, _⟩ := hl.window hb
    cases hop with
    | reading _ _ => exact absurd hb (by simp)
    | closing => exact absurd hb (by simp)
    | @writing st _ =>
      obtain rfl : st = .posted := hst
      have husub := hwin.usub_eq
      simp only [husub] at hlen hpos
      simp only [Status.transferred, Nat.add_zero] at hle
      have hsplit : (n.world.srv.gCtxs i).bufSend.slice (n.world.srv.gCtxs i).szSend m ++
          (n.world.srv.gCtxs i).bufSend.slice ((n.world.srv.gCtxs i).szSend + m)
            ((n.world.srv.gCtxs i).szSendTotal - ((n.world.srv.gCtxs i).szSend + m)) =
          (n.world.srv.gCtxs i).bufSend.slice (n.world.srv.gCtxs i).szSend
            ((n.world.srv.gCtxs i).szSendTotal - (n.world.srv.gCtxs i).szSend) := by
        rw [Buffer.slice_append_slice]
        congr 1
        omega
      have hdelivered := hl.delivered
      simp only [unsent, Status.transferred, Nat.add_zero] at hdelivered
      rw [← hsplit, ← List.append_assoc] at hdelivered
      have hwire : ∀ d, d ≠ (n.world.srv.gCtxs i).socket →
          World.record n.world.wire (n.world.srv.gCtxs i).socket
            ((n.world.srv.gCtxs i).bufSend.slice (n.world.srv.gCtxs i).szSend m) d =
            n.world.wire d := fun d hd => World.record_of_ne _ hd _
      refine h.setSlot hg hi rfl rfl ⟨fun _ _ => rfl, fun j hj =>
        World.setPending_pending_of_ne _ _ hj _, rfl⟩ running hwire (fun _ _ => rfl)
        (fun _ _ => rfl) (fun _ _ => rfl) (fun _ _ => rfl) (fun _ _ => rfl) (h.session _) ?_ ?_
        (fun _ => ⟨_, by rw [World.setPending_pending_self, hops]; rfl, ?_⟩) h.closed
      · simp only [World.setPending_wire, World.deliver, World.record_self]
        exact ⟨_, hdelivered⟩
      · simp only [World.setPending_wire, World.deliver, World.record_self]
        exact List.prefix_append _ _
      · refine ⟨?_, ?_, fun _ => ⟨hwin, ?_, fun hz => ?_⟩, fun hb' => by simp at hb', hl.key,
          hl.unopened, hl.present⟩
        · simp only [unsent, Status.transferred, World.setPending_wire, World.setPending_srv,
            World.setPending_replies, World.deliver, World.record_self]
          exact hdelivered
        · exact hl.taken
        · show (n.world.srv.gCtxs i).szSend + m ≤ (n.world.srv.gCtxs i).szSendTotal
          omega
        · have hm : m = 0 := Status.done.inj hz
          show (n.world.srv.gCtxs i).szSendTotal = (n.world.srv.gCtxs i).szSend
          omega

/-! ## Forming a reply -/

/-- Each handler leaves between 1 and 511 bytes of text, whatever it is asked. -/
def Env.Texts (env : Env Os) : Prop :=
  ∀ (r : RequestType × List UInt8) (h : Handling Os), r.2.length < requestArgSize →
    h.bufRecv.slice 0 (r.1.plain r.2).length = r.1.plain r.2 →
      ∃ text, IsTextOf env (r, h) text ∧ text ≠ [] ∧ text.length < bufSize

/-- The handler forms the reply `r` in the slot `i`, which is the next of its session, from what
`handling` says, and leaves the server `s`. -/
structure Forms (env : Env Os) (n : Net Os) (ans : Answers Os) (i : Slot) (m : ℕ) (s : Server)
    (r : List UInt8) (handling : List (Handling Os)) : Prop where
  handler : overlapRecvHandler env ans n.world.srv i m = .ok (s, scheduleWrite s i)
  reply : (s.gCtxs i).reply = r
  given : (if clientSendCryptKey n.world.srv i then [] else [⟨(s.gCtxs i).bufRecv, ans.os⟩]) =
    handling
  opened : (s.gCtxs i).szSend = 0
  fits : (s.gCtxs i).szSendTotal ≤ bufSize
  closed : s.handles.closed = n.world.srv.handles.closed
  others : ∀ d, d ≠ (n.world.srv.gCtxs i).socket →
    keyHandle s.handles.keys d = keyHandle n.world.srv.handles.keys d
  key : keyHandle s.handles.keys (n.world.srv.gCtxs i).socket = some (s.gCtxs i).key
  session : Session env (n.peers (n.world.srv.gCtxs i).socket)
    (keyHandle s.handles.keys (n.world.srv.gCtxs i).socket)
    ((n.world.packets (n.world.srv.gCtxs i).socket).length + 1)
    (n.world.replies (n.world.srv.gCtxs i).socket ++ [r])
    (n.world.handled (n.world.srv.gCtxs i).socket ++ handling)

/-- The first packet of a session is answered with a key. -/
theorem forms_key (hlaw : env.csp.Lawful) {n : Net Os} {ans : Answers Os} {i : Slot} {m c : ℕ}
    (hans : ans.Succeed) (hc : (n.world.srv.gCtxs i).socket = c)
    (hhandle : keyHandle n.world.srv.handles.keys c = none)
    (hpackets : (n.world.packets c).length = 0) (hreplies : n.world.replies c = [])
    (hhandled : n.world.handled c = []) (hphase : (n.peers c).phase = .keySent)
    (hgot : (n.peers c).got = [])
    (hrequests : (n.peers c).requests = [])
    (hsent : (n.peers c).sent = [0 :: (n.peers c).client.publicKey])
    (hwf : env.csp.wellFormed (n.peers c).client.publicKey = true)
    (hpub : (n.peers c).client.publicKey.length < bufSize)
    (hopened : (n.world.srv.gCtxs i).szSend = 0) (hm : m ≠ 0)
    (hholds : Holds ((n.world.srv.gCtxs i).count m) (0 :: (n.peers c).client.publicKey)) :
    ∃ s r, Forms env n ans i m s r [] := by
  have hbuf : bufSize = 512 := rfl
  subst hc
  have hblob := hlaw.length_simpleBlob (n.world.srv.handles.keys.length + 1) _ hwf
  have hacc : KeyAccepted env ans ((n.world.srv.gCtxs i).count m) :=
    hholds.keyAccepted_iff.mpr ⟨hans.acquired, hans.generated, _, rfl, hwf⟩
  obtain ⟨hreply, htotal⟩ : (((n.world.srv.gCtxs i).count m).answKey env
      (n.world.srv.handles.keys.length + 1)).reply = _ ∧ _ := hholds.answKey_reply (by omega)
  have hctx := Server.setCtx_answKey_gCtxs_self env n.world.srv i ((n.world.srv.gCtxs i).count m)
  have hkeys : ((n.world.srv.setCtx i ((n.world.srv.gCtxs i).count m)).answKey env i).handles.keys =
      n.world.srv.handles.keys ++ [(n.world.srv.gCtxs i).socket] := by
    simp [Server.answKey]
  refine ⟨_, _, (overlapRecvHandler_eq_ok_iff hm).mpr ⟨rfl, .inl ⟨hacc.mark, hacc, rfl⟩⟩,
    (congrArg ClientCtx.reply hctx).trans hreply, if_pos ?_, ?_, ?_, rfl, fun d hd => ?_, ?_, ?_⟩
  · simpa [clientSendCryptKey] using hacc.mark
  · rw [hctx]
    exact hopened
  · rw [hctx, htotal]
    omega
  · rw [hkeys, keyHandle_append_of_ne hd]
  · rw [hkeys, keyHandle_append_self hhandle, hctx]
    rfl
  · rw [hkeys, keyHandle_append_self hhandle, hpackets, hreplies, hhandled]
    have hkeyed : Session env (n.peers (n.world.srv.gCtxs i).socket)
        (some (n.world.srv.handles.keys.length + 1)) (([] : List (List UInt8)).length + 1)
        (env.csp.replies (n.world.srv.handles.keys.length + 1) _ []) [] :=
      .keyed ⟨by rw [hsent, hrequests]; rfl, by simp, Nat.zero_le _, by simp [hrequests],
        by simp [hrequests], .inl ⟨hphase, hgot, hrequests⟩⟩
    exact hkeyed

/-- The packet after those that have been answered is the next request's. -/
theorem Keyed.next {p : Peer} {key : ℕ} {texts : List (List UInt8)}
    {handled : List (Handling Os)} {packet : List UInt8} (h : Keyed env p key texts handled)
    (hnext : p.sent[texts.length + 1]? = some packet) :
    ∃ r, p.requests[handled.length]? = some r ∧
      packet = (env.csp.keystream key).apply (r.1.plain r.2) := by
  rw [h.sent, Csp.packets, List.getElem?_cons_succ, List.getElem?_map,
    Option.map_eq_some_iff, h.length_texts] at hnext
  obtain ⟨r, hr, rfl⟩ := hnext
  exact ⟨r, hr, rfl⟩

/-- One more of the requests has been handled. -/
theorem zip_append_singleton {α β : Type} {as : List α} {bs : List β} {a : α}
    (h : as[bs.length]? = some a) (b : β) : as.zip (bs ++ [b]) = as.zip bs ++ [(a, b)] := by
  induction bs generalizing as with
  | nil =>
    cases as with
    | nil => simp at h
    | cons a' as =>
      obtain rfl := Option.some.inj h
      simp
  | cons b' bs ih =>
    cases as with
    | nil => simp at h
    | cons a' as => rw [List.cons_append, List.zip_cons_cons, List.zip_cons_cons, ih h,
        List.cons_append]

/-- With one more text formed. -/
theorem Keyed.answer {p : Peer} {key : ℕ} {texts : List (List UInt8)}
    {handled : List (Handling Os)} {text : List UInt8} {r : RequestType × List UInt8}
    {handling : Handling Os} (h : Keyed env p key texts handled)
    (hr : p.requests[handled.length]? = some r) (ht : IsTextOf env (r, handling) text) :
    Keyed env p key (texts ++ [text]) (handled ++ [handling]) where
  sent := h.sent
  formed := by
    rw [zip_append_singleton hr]
    exact List.rel_append h.formed (.cons ht .nil)
  answered := by
    have hlt := (List.getElem?_eq_some_iff.mp hr).1
    rw [List.length_append, List.length_singleton]
    omega
  typed := h.typed
  unmarked := h.unmarked
  phase := h.phase

/-- A later packet of a session is answered with the text of its request. -/
theorem forms_text (htext : env.Texts) {n : Net Os} {ans : Answers Os} {i : Slot} {m c key : ℕ}
    {texts : List (List UInt8)} {handled : List (Handling Os)} {packet : List UInt8}
    (hc : (n.world.srv.gCtxs i).socket = c)
    (hhandle : keyHandle n.world.srv.handles.keys c = some key)
    (hpackets : (n.world.packets c).length = texts.length + 1)
    (hreplies : n.world.replies c = env.csp.replies key (n.peers c).client.publicKey texts)
    (hhandled : n.world.handled c = handled) (hkeyed : Keyed env (n.peers c) key texts handled)
    (hslot : (n.world.srv.gCtxs i).key = key) (hm : m ≠ 0)
    (hholds : Holds ((n.world.srv.gCtxs i).count m) packet)
    (hnext : (n.peers c).sent[texts.length + 1]? = some packet) :
    ∃ s r handling, Forms env n ans i m s r handling := by
  subst hc
  obtain ⟨⟨t, arg⟩, hr, rfl⟩ := hkeyed.next hnext
  have hmem : (t, arg) ∈ (n.peers (n.world.srv.gCtxs i).socket).requests := List.mem_of_getElem? hr
  obtain ⟨ks, hks⟩ : ∃ ks, ks = env.csp.keystream key := ⟨_, rfl⟩
  rw [← hks] at hholds
  have hunmarked : ks 0 ≠ t.code := hks ▸ hkeyed.unmarked _ hmem
  obtain ⟨rest, hcons⟩ : ∃ rest, ks.apply (t.plain arg) = (t.code ^^^ ks 0) :: rest :=
    ⟨_, ks.apply_cons _ _⟩
  have hholds' := hholds
  rw [hcons] at hholds'
  have hfirst : ((n.world.srv.gCtxs i).count m).bufRecv.get 0 ≠ 0 := by
    rw [hholds'.get_zero, ne_eq, UInt8.xor_eq_zero_iff]
    exact hunmarked.symm
  -- the handler is given the request, at the start of `buf_recv`
  have hslice := hholds.plainBuf_slice ks
  rw [ks.length_apply, ks.apply_apply] at hslice
  obtain ⟨text, htextOf, _, hfits⟩ := htext (t, arg)
    ⟨((n.world.srv.gCtxs i).count m).plainBuf ks, ans.os⟩ (hkeyed.typed _ hmem) hslice
  obtain ⟨written, hwritten, rfl⟩ := Option.map_eq_some_iff.mp htextOf.written
  have hreply : ((n.world.srv.gCtxs i).count m).replyText env ks t ans.os =
      written.takeWhile (· != 0) :=
    congrArg (List.takeWhile (· != 0)) (congrArg (Option.getD · []) hwritten)
  have hacc : MsgAccepted env ((n.world.srv.gCtxs i).count m) ks t ans.os := by
    refine ⟨?_, ?_, Option.isSome_of_mem hwritten, hreply ▸ hfits.le⟩
    · rw [ClientCtx.count_key, hslot, hks]
      exact env.csp.keyOf_of_ne_zero (keyHandle_eq_some hhandle).1
    · rw [hholds'.plainBuf_get_zero, UInt8.xor_assoc, UInt8.xor_self, UInt8.xor_zero,
        RequestType.ofByte_code]
  refine ⟨_, _, _, (overlapRecvHandler_eq_ok_iff hm).mpr ⟨rfl, .inr ⟨hfirst, ks, t, hacc, rfl⟩⟩,
    (congrArg ClientCtx.reply (Server.setCtx_gCtxs_self _ _ _)).trans (answMsg_reply hacc.fits),
    if_neg ?_, ?_, ?_, rfl, fun _ _ => rfl, ?_, ?_⟩
  · simpa [clientSendCryptKey] using hfirst
  · simp
  · simpa using hacc.fits
  · rw [Server.setCtx_handles, Server.setCtx_gCtxs_self, hhandle]
    simp [hslot]
  · have hnew := Session.keyed (hkeyed.answer hr htextOf)
    rw [Server.setCtx_handles, hhandle, hpackets, hreplies, hhandled, hks, Server.setCtx_gCtxs_self]
    rw [List.length_append, List.length_singleton] at hnew
    simpa [Csp.replies, hks, ← hreply] using hnew

/-- **A packet that is acted on is answered**, and with the session's next reply. -/
theorem DeliveryOk.forms (hlaw : env.csp.Lawful) (htext : env.Texts) {n : Net Os}
    (h : DeliveryOk env n) (hok : SessionOk env n) (hg : Good n.world) {i : Slot} (hi : i ≠ 0)
    {k m : ℕ} {o : Op} {ans : Answers Os} (ho : (n.world.pending i)[k]? = some o)
    (hb : o.block = .recv) (hst : o.status = .done m) (hm : m ≠ 0) (hans : ans.Succeed) :
    ∃ s r handling, Forms env n ans i m s r handling := by
  obtain ⟨_, _, _, hl⟩ := h.op hg hi ho
  have hholds := hg.holds hi ho hb hst hm
  have hnext := hok.arrived i hi k m o ho hb hst hm
  obtain ⟨hwf, hpub⟩ := h.publicKey (n.world.srv.gCtxs i).socket
  have hsession := h.session (n.world.srv.gCtxs i).socket
  have hgot := hok.replies (n.world.srv.gCtxs i).socket
  generalize hhandle : keyHandle n.world.srv.handles.keys (n.world.srv.gCtxs i).socket = handle
    at hsession
  generalize hpackets : (n.world.packets (n.world.srv.gCtxs i).socket).length = num
    at hsession hnext
  generalize hreplies : n.world.replies (n.world.srv.gCtxs i).socket = replies at hsession hgot
  generalize hhandled : n.world.handled (n.world.srv.gCtxs i).socket = handled at hsession
  cases hsession with
  | silent _ hsent _ _ =>
    rw [hsent] at hnext
    simp at hnext
  | asked hphase hsent hrequests =>
    rw [hsent, List.getElem?_cons_zero] at hnext
    rw [← Option.some.inj hnext] at hholds
    obtain ⟨s, r, hf⟩ := forms_key hlaw hans rfl hhandle hpackets hreplies hhandled hphase
      (List.prefix_nil.mp hgot) hrequests hsent hwf hpub (hl.unopened hhandle).1 hm hholds
    exact ⟨s, r, [], hf⟩
  | keyed hk =>
    have hslot := hl.key
    rw [hhandle] at hslot
    exact forms_text htext rfl hhandle hpackets hreplies hhandled hk hslot hm hholds hnext

/-! ## The iterations -/

/-- An iteration that forms a reply. -/
theorem Forms.deliveryOk {n : Net Os} (h : DeliveryOk env n) (hg : Good n.world) {i : Slot}
    (hi : i ≠ 0) {k m : ℕ} {o : Op} {ans : Answers Os} {w : World Os} {r : List UInt8}
    {handling : List (Handling Os)} (ho : (n.world.pending i)[k]? = some o) (hb : o.block = .recv)
    (hst : o.status = .done m) (hm : m ≠ 0) (hf : Forms env n ans i m w.srv r handling)
    (honly : n.world.Only i w)
    (hops : w.pending i = [⟨.send, (w.srv.gCtxs i).socket, (w.srv.gCtxs i).szSend,
      usub (w.srv.gCtxs i).szSendTotal (w.srv.gCtxs i).szSend, .posted⟩])
    (hwire : w.wire = n.world.wire)
    (hpackets : w.packets = World.record n.world.packets (n.world.srv.gCtxs i).socket
      [((n.world.srv.gCtxs i).count m).packet])
    (hreplies : w.replies = World.record n.world.replies (w.srv.gCtxs i).socket
      [(w.srv.gCtxs i).reply])
    (hhandled : w.handled = World.record n.world.handled (w.srv.gCtxs i).socket
      (if clientSendCryptKey n.world.srv i then [] else [⟨(w.srv.gCtxs i).bufRecv, ans.os⟩]))
    (hrun : w.fault = none) : DeliveryOk env { n with world := w } := by
  obtain ⟨_, _, _, hl⟩ := h.op hg hi ho
  have hsock : (w.srv.gCtxs i).socket = (n.world.srv.gCtxs i).socket :=
    (overlapRecvHandler_local hf.handler).socket
  obtain ⟨c, hc⟩ : ∃ c, c = (n.world.srv.gCtxs i).socket := ⟨_, rfl⟩
  have hfc := hf.session
  have hkey := hf.key
  have hdelivered := hl.delivered
  have htaken := hl.taken
  simp only [unsent, hb, List.append_nil] at hdelivered
  simp only [unacted, hb, hst, Status.transferred] at htaken
  rw [hsock, hf.reply] at hreplies
  rw [hsock, hf.given] at hhandled
  rw [← hc] at hfc hkey hdelivered htaken hpackets hreplies hhandled hsock
  have hwindow : Window (w.srv.gCtxs i) := ⟨by rw [hf.opened]; exact Nat.zero_le _, hf.fits⟩
  have hpacket : ((n.world.srv.gCtxs i).count m).packet.length = m := by
    have hholds := hg.holds hi ho hb hst hm
    rw [hholds.packet_eq]
    exact Buffer.length_slice _ (by rw [Nat.zero_add]; exact (hg.recv_done hi ho hb hst).2)
  refine h.setSlot hg hi hc.symm rfl honly hrun (fun d _ => by rw [hwire])
    (fun d hd => by rw [hpackets, World.record_of_ne _ hd])
    (fun d hd => by rw [hreplies, World.record_of_ne _ hd])
    (fun d hd => by rw [hhandled, World.record_of_ne _ hd]) (fun _ _ => rfl)
    (fun d hd => hf.others d (hc ▸ hd)) ?_ ?_ (by rw [hwire])
    (fun _ => ⟨_, hops, ?_⟩) (by rw [hf.closed]; exact h.closed)
  · rw [hpackets, hreplies, hhandled, World.record_self, World.record_self, World.record_self,
      List.length_append, List.length_singleton]
    exact hfc
  · rw [hwire, hreplies, World.record_self, List.flatten_append]
    exact (h.wire c).trans (List.prefix_append _ _)
  · refine ⟨?_, ?_, fun _ => ⟨hwindow, ?_, fun hz => by simp at hz⟩, fun hl' => by simp at hl', ?_,
      fun hnone => ?_, ?_⟩
    · simp only [unsent, Status.transferred, hsock, hwire, hreplies, hf.opened, World.record_self,
        Nat.add_zero, Nat.sub_zero, List.flatten_append, List.flatten_singleton, hdelivered]
      rw [← hf.reply]
      rfl
    · simp only [unacted, hsock, hpackets, World.record_self, List.flatten_append,
        List.flatten_singleton, List.length_append, hpacket, htaken, Nat.add_zero]
    · exact hwindow.sent_le
    · simp only [hsock, hkey, Option.getD_some]
    · simp only [hsock, hkey] at hnone
      simp at hnone
    · simp only [hsock]
      exact hc ▸ hl.present

/-- An iteration that forms no reply, and leaves the slot to its connection: it keeps the
sessions if it keeps what is on the way. -/
theorem DeliveryOk.ofSameRecords {n : Net Os} (h : DeliveryOk env n) (hg : Good n.world) {i : Slot}
    (hi : i ≠ 0) {o o' : Op} {w : World Os} (hl : Link n i o) (honly : n.world.Only i w)
    (hrec : n.world.SameRecords w) (hrun : w.fault = none)
    (hhandles : w.srv.handles = n.world.srv.handles)
    (hsock : (w.srv.gCtxs i).socket = (n.world.srv.gCtxs i).socket)
    (hkey : (w.srv.gCtxs i).key = (n.world.srv.gCtxs i).key) (hops : w.pending i = [o'])
    (hunsent : unsent (w.srv.gCtxs i) o' = unsent (n.world.srv.gCtxs i) o)
    (hunacted : unacted o' = unacted o)
    (hwindow : o'.block = .send → Window (w.srv.gCtxs i) ∧
      (w.srv.gCtxs i).szSend + o'.status.transferred ≤ (w.srv.gCtxs i).szSendTotal ∧
      (o'.status = .done 0 → (w.srv.gCtxs i).szSendTotal = (w.srv.gCtxs i).szSend))
    (hleaving : o'.block = .cancel ∨ (o'.block = .recv ∧ o'.status = .done 0) →
      (n.peers (n.world.srv.gCtxs i).socket).phase = .exited)
    (hunopened : keyHandle n.world.srv.handles.keys (n.world.srv.gCtxs i).socket = none →
      (w.srv.gCtxs i).szSend = 0 ∧ o'.block ≠ .send) :
    DeliveryOk env { n with world := w } := by
  refine h.setSlot hg hi rfl rfl honly hrun (fun d _ => by rw [hrec.wire])
    (fun d _ => by rw [hrec.packets]) (fun d _ => by rw [hrec.replies])
    (fun d _ => by rw [hrec.handled]) (fun _ _ => rfl) (fun d _ => by rw [hhandles]) ?_ ?_
    (by rw [hrec.wire]) (fun _ => ⟨o', hops, ?_⟩) (by rw [hhandles]; exact h.closed)
  · rw [hhandles, hrec.packets, hrec.replies, hrec.handled]
    exact h.session _
  · rw [hrec.wire, hrec.replies]
    exact h.wire _
  · refine ⟨?_, ?_, hwindow, ?_, ?_, ?_, ?_⟩
    · simp only [hsock, hrec.wire, hrec.replies, hunsent]
      exact hl.delivered
    · simp only [hsock, hrec.packets, hunacted]
      exact hl.taken
    · simp only [hsock]
      exact hleaving
    · simp only [hsock, hkey, hhandles]
      exact hl.key
    · simp only [hsock, hhandles]
      exact hunopened
    · simp only [hsock]
      exact hl.present

/-- A send that has completed is still inside the window. -/
theorem Link.advance {n : Net Os} {i : Slot} {o : Op} (h : Link n i o) (hb : o.block = .send)
    {m : ℕ} (hst : o.status = .done m) :
    ((n.world.srv.gCtxs i).advance m).szSend = (n.world.srv.gCtxs i).szSend + m ∧
      Window ((n.world.srv.gCtxs i).advance m) := by
  obtain ⟨hwin, hle, _⟩ := h.window hb
  rw [hst] at hle
  exact hwin.advance (by rw [hwin.usub_eq]; exact Nat.le_sub_of_add_le' hle)

/-- Where the sending does not go on, nothing of the reply is left: the last send took the rest,
or there was none. -/
theorem Link.sent_all {n : Net Os} {i : Slot} {o : Op} (h : Link n i o) (hb : o.block = .send)
    {m : ℕ} (hst : o.status = .done m) (hlast : (n.world.srv.gCtxs i).sendsOn m = false) :
    (n.world.srv.gCtxs i).szSendTotal = (n.world.srv.gCtxs i).szSend + m := by
  obtain ⟨hwin, hle, hzero⟩ := h.window hb
  rw [hst] at hle hzero
  rcases Nat.eq_zero_or_pos m with rfl | hpos
  · exact hzero rfl
  · rw [ClientCtx.sendsOn, (h.advance hb hst).1, ClientCtx.advance_szSendTotal] at hlast
    have hnot : ¬ (n.world.srv.gCtxs i).szSend + m < (n.world.srv.gCtxs i).szSendTotal := by
      simpa [hpos] using hlast
    have hle' : (n.world.srv.gCtxs i).szSend + m ≤ (n.world.srv.gCtxs i).szSendTotal := hle
    omega

/-- The connection of a client that has exited is closed. -/
theorem DeliveryOk.closes {n : Net Os} (h : DeliveryOk env n) (hg : Good n.world) {i : Slot}
    (hi : i ≠ 0) {w : World Os} (honly : n.world.Only i w)
    (hsrv : w.srv = overlapCancelHandler n.world.srv i) (hrec : n.world.SameRecords w)
    (hrun : w.fault = none) (hexit : (n.peers (n.world.srv.gCtxs i).socket).phase = .exited) :
    DeliveryOk env { n with world := w } := by
  have hhandles : w.srv.handles.keys = n.world.srv.handles.keys := by rw [hsrv]; rfl
  have hfree : (w.srv.gCtxs i).socket = 0 := by
    rw [hsrv]
    simp [overlapCancelHandler, ClientCtx.zero]
  refine h.setSlot hg hi rfl rfl honly hrun (fun d _ => by rw [hrec.wire])
    (fun d _ => by rw [hrec.packets]) (fun d _ => by rw [hrec.replies])
    (fun d _ => by rw [hrec.handled]) (fun _ _ => rfl) (fun d _ => by rw [hhandles]) ?_ ?_
    (by rw [hrec.wire]) (fun hne => absurd hfree hne) (fun d hd => ?_)
  · rw [hhandles, hrec.packets, hrec.replies, hrec.handled]
    exact h.session _
  · rw [hrec.wire, hrec.replies]
    exact h.wire _
  · have hclosed : w.srv.handles.closed =
        n.world.srv.handles.closed ++ [(n.world.srv.gCtxs i).socket] := by
      rw [hsrv]
      rfl
    rw [hclosed, List.mem_append, List.mem_singleton] at hd
    rcases hd with hd | rfl
    · exact h.closed d hd
    · exact hexit

/-- **An iteration with a client's completion keeps the sessions.** -/
theorem deliveryOk_iterates (hlaw : env.csp.Lawful) (htext : env.Texts) {n : Net Os}
    (h : DeliveryOk env n) (hok : SessionOk env n) (hg : Good n.world) {i : Slot} (hi : i ≠ 0)
    {k m : ℕ} {o : Op} {ans : Answers Os} {w : World Os} (ho : (n.world.pending i)[k]? = some o)
    (hst : o.status = .done m) (hans : ans.Succeed)
    (hs : World.Step env n.world (.dequeue i k ans) w) : DeliveryOk env { n with world := w } := by
  obtain ⟨honly, hit⟩ := iterates_of_dequeue hg hi ho hst hans hs
  obtain ⟨_, _, hop, hl⟩ := h.op hg hi ho
  generalize hblock : o.block = b at hit
  cases hit with
  | hangUp hsrv hops hrec hrun =>
    refine h.ofSameRecords hg hi hl honly hrec hrun (by rw [hsrv]) (by rw [hsrv]) (by rw [hsrv])
      hops ?_ ?_ (fun hb => by simp at hb) (fun _ => hl.leaving (.inr ⟨hblock, hst⟩))
      (fun hnone => ⟨by rw [hsrv]; exact (hl.unopened hnone).1, by simp⟩)
    · simp [unsent, hblock]
    · simp [unacted, hblock, hst, Status.transferred]
  | stop hm herr _ _ _ _ _ _ _ =>
    obtain ⟨s, r, _, hf⟩ := h.forms hlaw htext hok hg hi ho hblock hst hm hans
    exact absurd (hf.handler.symm.trans herr) (by simp)
  | reply hm hrec hops hwire hpackets hreplies hhandled hrun =>
    obtain ⟨s, r, _, hf⟩ := h.forms hlaw htext hok hg hi ho hblock hst hm hans
    obtain rfl : s = w.srv := congrArg Prod.fst (Except.ok.inj (hf.handler.symm.trans hrec))
    exact hf.deliveryOk h hg hi ho hblock hst hm honly hops hwire hpackets hreplies hhandled
      hrun
  | more hmore hsrv hops hrec hrun =>
    obtain ⟨hadv, hwin⟩ := hl.advance hblock hst
    have hctx : w.srv.gCtxs i = (n.world.srv.gCtxs i).advance m := by
      rw [hsrv, Server.setCtx_gCtxs_self]
    refine h.ofSameRecords hg hi hl honly hrec hrun (by rw [hsrv]; rfl) (by rw [hctx]; rfl)
      (by rw [hctx]; rfl) hops ?_ ?_ (fun _ => ⟨hctx ▸ hwin, ?_, fun hz => by simp at hz⟩)
      (fun hx => by simp at hx) (fun hnone => absurd hblock (hl.unopened hnone).2)
    · simp only [unsent, hblock, hst, hctx, hadv, Status.transferred, Nat.add_zero,
        ClientCtx.advance_bufSend, ClientCtx.advance_szSendTotal]
    · simp only [unacted, hblock]
    · rw [hctx]
      exact hwin.sent_le
  | last hlast hsrv hops hrec hrun =>
    have hend := hl.sent_all hblock hst hlast
    have hctx : w.srv.gCtxs i = ((n.world.srv.gCtxs i).advance m).rearm := by
      rw [hsrv, Server.setCtx_gCtxs_self]
    refine h.ofSameRecords hg hi hl honly hrec hrun (by rw [hsrv]; rfl) (by rw [hctx]; rfl)
      (by rw [hctx]; rfl) hops ?_ ?_ (fun hx => by simp at hx) (fun hx => by simp at hx)
      (fun hnone => absurd hblock (hl.unopened hnone).2)
    · simp [unsent, hblock, hst, Status.transferred, hend]
    · simp [unacted, hblock, Status.transferred]
  | close hsrv hops hrec hrun =>
    exact h.closes hg hi honly hsrv hrec hrun (hl.leaving (.inl hblock))

/-! ## Accepting -/

/-- The server holds the connection: its client has connected, and the server has not
closed it. -/
def Net.Held (n : Net Os) (c : ℕ) : Prop :=
  (n.peers c).phase ≠ .absent ∧ c ∉ n.world.srv.handles.closed

/-- At most 99 connections are in this situation. -/
def AtMost99 (live : ℕ → Prop) : Prop := ∀ S : Finset ℕ, (∀ c ∈ S, live c) → S.card ≤ 99

/-- The client slots that are searched. -/
def clientSlot (j : Fin 99) : Slot := ⟨j.val + 1, by unfold maxClients; omega⟩

theorem clientSlot_injective : Function.Injective clientSlot := fun a b h => by
  have hval := congrArg Fin.val h
  exact Fin.ext (Nat.succ_injective hval)

/-- **While the server holds at most 99 connections, the accepted one gets a slot.** -/
theorem findFree_ne_none {n : Net Os} (h : DeliveryOk env n) (hg : Good n.world)
    (hat : AtMost99 n.Held) (hphase : (n.peers n.world.srv.gAcceptedSocket).phase ≠ .absent) :
    findFree n.world.srv ≠ none := by
  intro hfull
  have hsock : ∀ j, (n.world.srv.gCtxs (clientSlot j)).socket ≠ 0 := fun j =>
    findFree_eq_none_iff.mp hfull _ (show j.val + 1 < 100 by omega)
  have hne : ∀ j, clientSlot j ≠ 0 := fun j hz => by
    have hval := congrArg Fin.val hz
    exact Nat.succ_ne_zero j.val hval
  obtain ⟨S, hS⟩ : ∃ S : Finset ℕ,
      S = Finset.univ.image fun j : Fin 99 => (n.world.srv.gCtxs (clientSlot j)).socket := ⟨_, rfl⟩
  have hcard : S.card = 99 := by
    rw [hS, Finset.card_image_of_injective _ ?_, Finset.card_univ, Fintype.card_fin]
    intro a b hab
    exact clientSlot_injective (hg.sockets.injective _ _ (hsock a) hab)
  have hnot : n.world.srv.gAcceptedSocket ∉ S := by
    rw [hS, Finset.mem_image]
    rintro ⟨j, _, hj⟩
    have hlt := hg.sockets.below (clientSlot j)
    omega
  have hlive : ∀ c ∈ insert n.world.srv.gAcceptedSocket S, n.Held c := by
    intro c hc
    rcases Finset.mem_insert.mp hc with rfl | hc
    · exact ⟨hphase, fun hx => absurd (hg.sockets.closedBelow _ hx) (lt_irrefl _)⟩
    · rw [hS, Finset.mem_image] at hc
      obtain ⟨j, _, rfl⟩ := hc
      obtain ⟨o, _, hl⟩ := h.link _ (hne j) (hsock j)
      exact ⟨hl.present, hg.sockets.live _ (hsock j)⟩
  have hle := hat _ hlive
  rw [Finset.card_insert_of_notMem hnot, hcard] at hle
  omega

/-- The listener has one accept. -/
theorem DeliveryOk.acceptOp {n : Net Os} (h : DeliveryOk env n) {k : ℕ} {o : Op}
    (ho : (n.world.pending 0)[k]? = some o) : n.world.pending 0 = [o] ∧ k = 0 ∧
      (o.status = .posted ∨ (n.peers n.world.srv.gAcceptedSocket).phase ≠ .absent) := by
  obtain ⟨o', hops, haccept⟩ := h.accept
  rw [hops, List.getElem?_singleton] at ho
  split at ho
  · obtain rfl := Option.some.inj ho
    exact ⟨hops, ‹_›, haccept⟩
  · simp at ho

/-- A client that connects begins its session, and completes the accept. -/
theorem deliveryOk_connect {n : Net Os} (h : DeliveryOk env n) {k : ℕ} {w : World Os}
    (hs : World.Step env n.world (.accepted k) w)
    (hphase : (n.peers n.world.srv.gAcceptedSocket).phase = .absent) :
    DeliveryOk env ({ n with world := w }.setPeer n.world.srv.gAcceptedSocket
      { n.peers n.world.srv.gAcceptedSocket with phase := .connected }) := by
  obtain ⟨c, hc⟩ : ∃ c, c = n.world.srv.gAcceptedSocket := ⟨_, rfl⟩
  rw [← hc] at hphase ⊢
  have hsession := h.session c
  have hnew : Session env { n.peers c with phase := .connected }
      (keyHandle n.world.srv.handles.keys c) (n.world.packets c).length (n.world.replies c)
      (n.world.handled c) := by
    generalize keyHandle n.world.srv.handles.keys c = handle at hsession ⊢
    generalize (n.world.packets c).length = m at hsession ⊢
    generalize n.world.replies c = replies at hsession ⊢
    generalize n.world.handled c = handled at hsession ⊢
    cases hsession with
    | silent _ hsent hrequests htype => exact .silent (.inr rfl) hsent hrequests htype
    | asked hph _ _ => simp [hphase] at hph
    | keyed hk => simpa [hphase] using hk.phase
  have h' := h.setPeer (p := { n.peers c with phase := .connected }) rfl hnew (h.read c)
    (fun hx => by simp [hphase] at hx) (by simp)
  cases hs with
  | @accepted _ o running ho hst =>
    obtain ⟨hops, rfl, _⟩ := h.acceptOp ho
    refine ⟨h'.running, h'.publicKey, h'.session, fun i hi hsock => ?_, h'.wire, h'.read,
      ⟨{ o with status := .done 0 }, ?_, .inr ?_⟩, h'.unborn, h'.closed⟩
    · obtain ⟨o', hopsi, hl⟩ := h'.link i hi hsock
      exact ⟨o', (World.setPending_pending_of_ne _ _ hi _).trans hopsi,
        hl.frame rfl rfl rfl rfl rfl rfl id hl.present⟩
    · exact (World.setPending_pending_self _ _ _).trans (by rw [hops, List.set_cons_zero])
    · simp [Net.setPeer, hc]

/-- A connection that has been given no slot has no history. -/
theorem Session.unborn {p : Peer} {handle : Option ℕ} {m : ℕ} {replies : List (List UInt8)}
    {handled : List (Handling Os)} (h : Session env p handle m replies handled)
    (hnone : handle = none) : m = 0 ∧ replies = [] := by
  cases h with
  | silent _ _ _ _ => exact ⟨rfl, rfl⟩
  | asked _ _ _ => exact ⟨rfl, rfl⟩
  | keyed _ => simp at hnone

/-- **An iteration with key zero keeps the sessions**, and the connection gets a slot. -/
theorem deliveryOk_accepts {n : Net Os} (h : DeliveryOk env n) (hg : Good n.world) {k m : ℕ}
    {o : Op} {ans : Answers Os} {w : World Os} (ho : (n.world.pending 0)[k]? = some o)
    (hst : o.status = .done m) (hans : ans.Succeed) (hat : AtMost99 n.Held)
    (hs : World.Step env n.world (.dequeue 0 k ans) w) : DeliveryOk env { n with world := w } := by
  obtain ⟨hslot, hrec, hrun, hzero⟩ := accepts_of_dequeue hg ho hst hans hs
  obtain ⟨hops, rfl, haccept⟩ := h.acceptOp ho
  have hphase : (n.peers n.world.srv.gAcceptedSocket).phase ≠ .absent :=
    haccept.resolve_left (by simp [hst])
  rw [hops] at hzero
  rcases hslot with ⟨i, ha⟩ | hr
  · obtain ⟨c, hc⟩ : ∃ c, c = n.world.srv.gAcceptedSocket := ⟨_, rfl⟩
    have hhandles : w.srv.handles.keys = n.world.srv.handles.keys ∧
        w.srv.handles.closed = n.world.srv.handles.closed := by
      rw [ha.srv]
      exact ⟨rfl, rfl⟩
    have hfresh : w.srv.gAcceptedSocket = n.world.srv.gAcceptedSocket + 1 := by
      rw [ha.srv, hg.sockets.accepted]
      rfl
    obtain ⟨hnone, htaken⟩ := h.unborn c hc.ge
    obtain ⟨hpackets, hreplies⟩ := (h.session c).unborn hnone
    have hwire : n.world.wire c = [] := by
      have hprefix := h.wire c
      rw [hreplies] at hprefix
      exact List.prefix_nil.mp hprefix
    have hctx := ha.ctx
    rw [← hc] at hctx
    have hsock : (w.srv.gCtxs i).socket = c := by rw [hctx]
    have hopsi : w.pending i = [⟨.recv, c, 0, bufSize, .posted⟩] := by
      rw [ha.ops, hans.associated, hans.started, ← hc]
      rfl
    refine ⟨hrun, h.publicKey, fun d => ?_, fun j hj hjs => ?_, fun d => ?_, fun d => ?_, ?_,
      fun d hd => ?_, fun d hd => h.closed d (hhandles.2 ▸ hd)⟩
    · rw [hhandles.1, hrec.packets, hrec.replies, hrec.handled]
      exact h.session d
    · by_cases hji : j = i
      · subst hji
        refine ⟨_, hopsi, ?_, ?_, fun hx => by simp at hx, fun hx => by simp at hx, ?_,
          fun _ => ?_, ?_⟩
        · simp only [unsent, hsock, hrec.wire, hrec.replies, hwire, hreplies]
          rfl
        · simp only [unacted, Status.transferred, hsock, hrec.packets, htaken,
            List.length_eq_zero_iff.mp hpackets]
          rfl
        · simp only [hhandles.1, hnone, hctx]
          rfl
        · simp only [hctx]
          exact ⟨rfl, by simp⟩
        · simp only [hsock]
          exact hc ▸ hphase
      · obtain ⟨hctxj, hpendj⟩ := ha.others j hj hji
        rw [hctxj] at hjs
        obtain ⟨oj, hopsj, hlj⟩ := h.link j hj hjs
        exact ⟨oj, hpendj.trans hopsj, hlj.frame hctxj (by rw [hrec.wire]) (by rw [hrec.packets])
          (by rw [hrec.replies]) rfl (by rw [hhandles.1]) id hlj.present⟩
    · rw [hrec.wire, hrec.replies]
      exact h.wire d
    · rw [hrec.wire]
      exact h.read d
    · exact ⟨_, hzero, .inl rfl⟩
    · rw [hhandles.1]
      exact h.unborn d (by rw [hfresh] at hd; omega)
  · exact absurd hr.full (findFree_ne_none h hg hat hphase)

/-! ## Every step -/

/-- The steps the clients of the repository take, with nothing cut and at most 99
connections of a kind. -/
structure Orderly (live : Net Os → ℕ → Prop) (n : Net Os) (e : NetEvent Os) : Prop where
  whole : Whole n e
  recognisable : Recognisable n e
  room : AtMost99 (live n)

/-- **Every orderly step keeps the sessions.** -/
theorem deliveryOk_step (hlaw : env.csp.Lawful) (htext : env.Texts) {n n' : Net Os}
    {e : NetEvent Os}
    (hg : Good n.world) (hok : SessionOk env n) (h : DeliveryOk env n) (ho : Orderly Net.Held n e)
    (hs : Net.Step env n e n') : DeliveryOk env n' := by
  cases hs with
  | connect hs hphase => exact deliveryOk_connect h hs hphase
  | received hs ho' hdata hend => exact deliveryOk_received h hg hs ho' fun hnil => (hend hnil).2
  | sent hs ho' hpos => exact deliveryOk_sent h hg hs ho' hpos
  | @dequeue i k m ans w o hs ho' hst hans =>
    by_cases hi : i = 0
    · subst hi
      exact deliveryOk_accepts h hg ho' hst hans ho.room hs
    · exact deliveryOk_iterates hlaw htext h hok hg hi ho' hst hans hs
  | sendKey hphase hform => exact deliveryOk_sendKey h hphase hform
  | request hphase harg hform =>
    exact deliveryOk_request hlaw h hok hphase harg hform (ho.recognisable _ hform)
  | receive hphase _ _ hdata => exact deliveryOk_receive hlaw h hok hphase hdata ho.whole
  | exit hphase => exact deliveryOk_exit h hphase

end Tcp
end BsitLabs
