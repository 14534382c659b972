import BsitLabs.Tcp.Segmentation
import BsitLabs.Tcp.SendWindow

/-!
# The sessions of the repository's own clients

What holds of every connection, and of every slot, while the clients follow `main`,
nothing is cut, and no request is mistaken for a key.

A session is in one of three stages (`Session`): the client has sent nothing; it has
sent its key packet; or it has a key.  In the last one everything on the connection
is determined by the requests and the texts of their handlers.  A slot is tied to its
session by what is still on the way (`Link`): the bytes of the last reply that are
posted and not sent, and the bytes of the next packet that are received and not acted
on.

The shared fields `csp`, `c_public_key` and `g_accepted_socket` do not occur in
either, which is why the other clients cannot disturb a session.
-/

namespace BsitLabs
namespace Tcp

open MachineInt Transition

variable {Os : Type} {env : Env Os}

/-! ## The handle of a connection's key -/

/-- The handle of the first key generated for a connection. -/
def keyHandle (keys : List ℕ) (c : ℕ) : Option ℕ :=
  (keys.findIdx? (· == c)).map (· + 1)

/-- The handle belongs to the connection. -/
theorem keyHandle_eq_some {keys : List ℕ} {c key : ℕ} (h : keyHandle keys c = some key) :
    key ≠ 0 ∧ keys[key - 1]? = some c := by
  obtain ⟨i, hi, rfl⟩ := Option.map_eq_some_iff.mp h
  obtain ⟨hlt, hp, _⟩ := List.findIdx?_eq_some_iff_getElem.mp hi
  refine ⟨Nat.succ_ne_zero i, ?_⟩
  rw [Nat.add_sub_cancel, List.getElem?_eq_getElem hlt]
  simpa using hp

/-- A key generated for another connection changes nothing. -/
theorem keyHandle_append_of_ne {keys : List ℕ} {c d : ℕ} (h : c ≠ d) :
    keyHandle (keys ++ [d]) c = keyHandle keys c := by
  unfold keyHandle
  rw [List.findIdx?_append]
  have hd : [d].findIdx? (· == c) = none := by simp [h.symm]
  rw [hd, Option.map_none, Option.or_none]

/-- The first key generated for a connection. -/
theorem keyHandle_append_self {keys : List ℕ} {c : ℕ} (h : keyHandle keys c = none) :
    keyHandle (keys ++ [c]) c = some (keys.length + 1) := by
  unfold keyHandle at h ⊢
  rw [Option.map_eq_none_iff] at h
  rw [List.findIdx?_append, h]
  simp

/-! ## The stages of a session -/

/-- The text that the handler of a request has written, from what it was given: a buffer that
begins with the request, and what the system answered. -/
structure IsTextOf (env : Env Os) (rh : (RequestType × List UInt8) × Handling Os)
    (text : List UInt8) : Prop where
  request : rh.2.bufRecv.slice 0 (rh.1.1.plain rh.1.2).length = rh.1.1.plain rh.1.2
  written : (env.handler rh.1.1 rh.2.bufRecv rh.2.os).map (List.takeWhile (· != 0)) = some text

/-- The replies of a session: a zero and the session blob, and then the texts,
enciphered. -/
def Csp.replies (csp : Csp) (key : ℕ) (pub : List UInt8) (texts : List (List UInt8)) :
    List (List UInt8) :=
  (0 :: csp.simpleBlob key pub) :: texts.map (csp.keystream key).apply

/-- The packets of a session: a zero and the public key, and then the requests,
enciphered. -/
def Csp.packets (csp : Csp) (key : ℕ) (pub : List UInt8)
    (requests : List (RequestType × List UInt8)) : List (List UInt8) :=
  (0 :: pub) :: requests.map fun r => (csp.keystream key).apply (r.1.plain r.2)

/-- The client's side of a session that has a key, once these texts have been formed by handlers
that were given this. -/
structure Keyed (env : Env Os) (p : Peer) (key : ℕ) (texts : List (List UInt8))
    (handled : List (Handling Os)) : Prop where
  sent : p.sent = env.csp.packets key p.client.publicKey p.requests
  /-- The texts answer the requests, in order. -/
  formed : List.Forall₂ (IsTextOf env) (p.requests.zip handled) texts
  answered : handled.length ≤ p.requests.length
  /-- The arguments fit the line that they are typed into. -/
  typed : ∀ r ∈ p.requests, r.2.length < requestArgSize
  /-- No request begins, enciphered, with the mark of a key. -/
  unmarked : ∀ r ∈ p.requests, env.csp.keystream key 0 ≠ r.1.code
  /-- The client waits for one reply at most. -/
  phase : (p.phase = .keySent ∧ p.got = [] ∧ p.requests = []) ∨
    (p.phase = .requested ∧ p.got.length = p.requests.length) ∨
    ((p.phase = .menu ∨ p.phase = .exited) ∧ p.got.length = p.requests.length + 1)

/-- What is appended behind the length of the other list is not paired. -/
theorem zip_append_of_length_le {α β : Type} {as : List α} {bs : List β}
    (h : bs.length ≤ as.length) (as' : List α) : (as ++ as').zip bs = as.zip bs := by
  induction bs generalizing as with
  | nil => rw [List.zip_nil_right, List.zip_nil_right]
  | cons b bs ih =>
    cases as with
    | nil => exact absurd h (Nat.not_succ_le_zero _)
    | cons a as =>
      rw [List.cons_append, List.zip_cons_cons, List.zip_cons_cons,
        ih (Nat.le_of_succ_le_succ h)]

/-- There is a text for every request that has been handled. -/
theorem Keyed.length_texts {p : Peer} {key : ℕ} {texts : List (List UInt8)}
    {handled : List (Handling Os)} (h : Keyed env p key texts handled) :
    texts.length = handled.length := by
  rw [← h.formed.length_eq, List.length_zip, Nat.min_eq_right h.answered]

/-- The stages of a session: the client, the handle of its key, how many packets have been acted
on, which replies formed, and what the handlers of the requests were given. -/
inductive Session (env : Env Os) (p : Peer) :
    Option ℕ → ℕ → List (List UInt8) → List (Handling Os) → Prop where
  | silent (hphase : p.phase = .absent ∨ p.phase = .connected) (hsent : p.sent = [])
      (hrequests : p.requests = []) (htype : p.client.requestType = none) :
      Session env p none 0 [] []
  | asked (hphase : p.phase = .keySent) (hsent : p.sent = [0 :: p.client.publicKey])
      (hrequests : p.requests = []) : Session env p none 0 [] []
  | keyed {key : ℕ} {texts : List (List UInt8)} {handled : List (Handling Os)}
      (h : Keyed env p key texts handled) :
      Session env p (some key) (texts.length + 1)
        (env.csp.replies key p.client.publicKey texts) handled

/-! ## What is on the way between a slot and its session -/

/-- The bytes that a completed operation has transferred. -/
def Status.transferred : Status → ℕ
  | .done n => n
  | _ => 0

/-- The bytes of the reply that are posted and have not left. -/
def unsent (c : ClientCtx) (o : Op) : List UInt8 :=
  match o.block with
  | .send => c.bufSend.slice (c.szSend + o.status.transferred)
      (c.szSendTotal - (c.szSend + o.status.transferred))
  | _ => []

/-- The number of bytes that have been received and not acted on. -/
def unacted (o : Op) : ℕ :=
  match o.block with
  | .recv => o.status.transferred
  | _ => 0

/-- What ties the slot `i`, with its only operation `o`, to its connection. -/
structure Link (n : Net Os) (i : Slot) (o : Op) : Prop where
  /-- What has left and what is on the way are the replies. -/
  delivered : n.world.wire (n.world.srv.gCtxs i).socket ++ unsent (n.world.srv.gCtxs i) o =
    (n.world.replies (n.world.srv.gCtxs i).socket).flatten
  /-- What has been taken has been acted on, but for what is on the way. -/
  taken : n.taken (n.world.srv.gCtxs i).socket =
    (n.world.packets (n.world.srv.gCtxs i).socket).flatten.length + unacted o
  /-- What is being sent lies in the window, and a send that has completed with nothing
  had nothing to send. -/
  window : o.block = .send → Window (n.world.srv.gCtxs i) ∧
    (n.world.srv.gCtxs i).szSend + o.status.transferred ≤ (n.world.srv.gCtxs i).szSendTotal ∧
    (o.status = .done 0 → (n.world.srv.gCtxs i).szSendTotal = (n.world.srv.gCtxs i).szSend)
  /-- A slot about to be closed is that of a client that has exited. -/
  leaving : o.block = .cancel ∨ (o.block = .recv ∧ o.status = .done 0) →
    (n.peers (n.world.srv.gCtxs i).socket).phase = .exited
  /-- The slot has the connection's key. -/
  key : (n.world.srv.gCtxs i).key =
    (keyHandle n.world.srv.handles.keys (n.world.srv.gCtxs i).socket).getD 0
  /-- Before there is a key, nothing has been sent or is being sent. -/
  unopened : keyHandle n.world.srv.handles.keys (n.world.srv.gCtxs i).socket = none →
    (n.world.srv.gCtxs i).szSend = 0 ∧ o.block ≠ .send
  /-- The client has connected. -/
  present : (n.peers (n.world.srv.gCtxs i).socket).phase ≠ .absent

/-- What holds of the server, its clients and their sessions. -/
structure DeliveryOk (env : Env Os) (n : Net Os) : Prop where
  running : n.world.fault = none
  publicKey : ∀ c, env.csp.wellFormed (n.peers c).client.publicKey = true ∧
    (n.peers c).client.publicKey.length < bufSize
  session : ∀ c, Session env (n.peers c) (keyHandle n.world.srv.handles.keys c)
    (n.world.packets c).length (n.world.replies c) (n.world.handled c)
  /-- A slot that is taken has one operation, which ties it to its session. -/
  link : ∀ i, i ≠ 0 → (n.world.srv.gCtxs i).socket ≠ 0 →
    ∃ o, n.world.pending i = [o] ∧ Link n i o
  /-- What has left is a beginning of the replies. -/
  wire : ∀ c, n.world.wire c <+: (n.world.replies c).flatten
  /-- What the client has received is a beginning of what has left. -/
  read : ∀ c, (n.peers c).got.flatten <+: n.world.wire c
  /-- The listener has one accept; once it has completed, its client has connected. -/
  accept : ∃ o, n.world.pending 0 = [o] ∧
    (o.status = .posted ∨ (n.peers n.world.srv.gAcceptedSocket).phase ≠ .absent)
  /-- The connections that have not been given a slot have no history. -/
  unborn : ∀ c, n.world.srv.gAcceptedSocket ≤ c →
    keyHandle n.world.srv.handles.keys c = none ∧ n.taken c = 0
  /-- The server closes what its client has closed. -/
  closed : ∀ c ∈ n.world.srv.handles.closed, (n.peers c).phase = .exited

theorem deliveryOk_initial {n : Net Os} (h : (netMachine env).init n) : DeliveryOk env n := by
  obtain ⟨hworld, htaken, pub, buf, hpub, hpeers⟩ := h
  have hkeys : ∀ c, keyHandle n.world.srv.handles.keys c = none := fun c => by
    rw [hworld]
    rfl
  refine ⟨by rw [hworld]; rfl, fun c => ?_, fun c => ?_, fun i hi hsock => ?_, fun c => ?_,
    fun c => ?_, ?_, fun c _ => ⟨hkeys c, by rw [htaken]⟩, fun c hc => ?_⟩
  · rw [hpeers]
    exact hpub c
  · rw [hkeys, hworld, hpeers]
    exact .silent (.inl rfl) rfl rfl rfl
  · rw [hworld] at hsock
    simp [World.initial, hi, ClientCtx.zero] at hsock
  · rw [hworld]
    exact List.nil_prefix
  · rw [hpeers]
    exact List.nil_prefix
  · rw [hworld]
    exact ⟨⟨.recv, 1, 0, 0, .posted⟩, rfl, .inl rfl⟩
  · rw [hworld] at hc
    exact absurd hc List.not_mem_nil

/-! ## Changes confined to one connection -/

/-- A step that leaves the slot and its connection alone, and undoes no exit, keeps the
link. -/
theorem Link.frame {n n' : Net Os} {i : Slot} {o : Op} (h : Link n i o)
    (hctx : n'.world.srv.gCtxs i = n.world.srv.gCtxs i)
    (hwire : n'.world.wire (n.world.srv.gCtxs i).socket = n.world.wire (n.world.srv.gCtxs i).socket)
    (hpackets : n'.world.packets (n.world.srv.gCtxs i).socket =
      n.world.packets (n.world.srv.gCtxs i).socket)
    (hreplies : n'.world.replies (n.world.srv.gCtxs i).socket =
      n.world.replies (n.world.srv.gCtxs i).socket)
    (htaken : n'.taken (n.world.srv.gCtxs i).socket = n.taken (n.world.srv.gCtxs i).socket)
    (hkeys : keyHandle n'.world.srv.handles.keys (n.world.srv.gCtxs i).socket =
      keyHandle n.world.srv.handles.keys (n.world.srv.gCtxs i).socket)
    (hexit : (n.peers (n.world.srv.gCtxs i).socket).phase = .exited →
      (n'.peers (n.world.srv.gCtxs i).socket).phase = .exited)
    (hpresent : (n'.peers (n.world.srv.gCtxs i).socket).phase ≠ .absent) : Link n' i o where
  delivered := by
    rw [hctx, hwire, hreplies]
    exact h.delivered
  taken := by
    rw [hctx, htaken, hpackets]
    exact h.taken
  window := by
    rw [hctx]
    exact h.window
  leaving hl := by
    rw [hctx]
    exact hexit (h.leaving hl)
  key := by
    rw [hctx, hkeys]
    exact h.key
  unopened hnone := by
    rw [hctx] at hnone ⊢
    rw [hkeys] at hnone
    exact h.unopened hnone
  present := by
    rw [hctx]
    exact hpresent

/-- A client's step keeps everything, if it keeps the client's session. -/
theorem DeliveryOk.setPeer {n : Net Os} (h : DeliveryOk env n) {c : ℕ} {p : Peer}
    (hpub : p.client.publicKey = (n.peers c).client.publicKey)
    (hsession : Session env p (keyHandle n.world.srv.handles.keys c) (n.world.packets c).length
      (n.world.replies c) (n.world.handled c))
    (hread : p.got.flatten <+: n.world.wire c)
    (hexit : (n.peers c).phase = .exited → p.phase = .exited) (hpresent : p.phase ≠ .absent) :
    DeliveryOk env (n.setPeer c p) := by
  have hself : (n.setPeer c p).peers c = p := by simp [Net.setPeer]
  have hother : ∀ {d}, d ≠ c → (n.setPeer c p).peers d = n.peers d := fun hd => by
    simp [Net.setPeer, hd]
  have hphase : ∀ d, (n.peers d).phase ≠ .absent → ((n.setPeer c p).peers d).phase ≠ .absent := by
    intro d hd
    by_cases hdc : d = c
    · rw [hdc, hself]
      exact hpresent
    · rw [hother hdc]
      exact hd
  have hgone : ∀ d, (n.peers d).phase = .exited → ((n.setPeer c p).peers d).phase = .exited := by
    intro d hd
    by_cases hdc : d = c
    · rw [hdc] at hd ⊢
      rw [hself]
      exact hexit hd
    · rw [hother hdc]
      exact hd
  refine ⟨h.running, fun d => ?_, fun d => ?_, fun i hi hsock => ?_, h.wire, fun d => ?_, ?_,
    h.unborn, fun d hd => hgone d (h.closed d hd)⟩
  · by_cases hdc : d = c
    · rw [hdc, hself, hpub]
      exact h.publicKey c
    · rw [hother hdc]
      exact h.publicKey d
  · by_cases hdc : d = c
    · rw [hdc, hself]
      exact hsession
    · rw [hother hdc]
      exact h.session d
  · obtain ⟨o, hops, hl⟩ := h.link i hi hsock
    exact ⟨o, hops, hl.frame rfl rfl rfl rfl rfl rfl (hgone _) (hphase _ hl.present)⟩
  · by_cases hdc : d = c
    · rw [hdc, hself]
      exact hread
    · rw [hother hdc]
      exact h.read d
  · obtain ⟨o, hops, hst⟩ := h.accept
    exact ⟨o, hops, hst.imp id (hphase _)⟩

/-- A step of the server on one client slot keeps everything, if it keeps the session of
the slot's connection and what ties the slot to it. -/
theorem DeliveryOk.setSlot {n n' : Net Os} (h : DeliveryOk env n) (hg : Good n.world) {i : Slot}
    (hi : i ≠ 0) {c : ℕ} (hc : (n.world.srv.gCtxs i).socket = c)
    (hpeers : n'.peers = n.peers) (honly : n.world.Only i n'.world)
    (hrun : n'.world.fault = none)
    (hwire : ∀ d, d ≠ c → n'.world.wire d = n.world.wire d)
    (hpackets : ∀ d, d ≠ c → n'.world.packets d = n.world.packets d)
    (hreplies : ∀ d, d ≠ c → n'.world.replies d = n.world.replies d)
    (hhandled : ∀ d, d ≠ c → n'.world.handled d = n.world.handled d)
    (htaken : ∀ d, d ≠ c → n'.taken d = n.taken d)
    (hkeys : ∀ d, d ≠ c →
      keyHandle n'.world.srv.handles.keys d = keyHandle n.world.srv.handles.keys d)
    (hsession : Session env (n.peers c) (keyHandle n'.world.srv.handles.keys c)
      (n'.world.packets c).length (n'.world.replies c) (n'.world.handled c))
    (hleft : n'.world.wire c <+: (n'.world.replies c).flatten)
    (hread : n.world.wire c <+: n'.world.wire c)
    (hlink : (n'.world.srv.gCtxs i).socket ≠ 0 → ∃ o, n'.world.pending i = [o] ∧ Link n' i o)
    (hclosed : ∀ d ∈ n'.world.srv.handles.closed, (n.peers d).phase = .exited) :
    DeliveryOk env n' := by
  refine ⟨hrun, fun d => hpeers ▸ h.publicKey d, fun d => ?_, fun j hj hsock => ?_, fun d => ?_,
    fun d => ?_, ?_, fun d hd => ?_, fun d hd => hpeers ▸ hclosed d hd⟩
  · rw [hpeers]
    by_cases hd : d = c
    · rw [hd]
      exact hsession
    · rw [hkeys d hd, hpackets d hd, hreplies d hd, hhandled d hd]
      exact h.session d
  · by_cases hji : j = i
    · rw [hji] at hsock ⊢
      exact hlink hsock
    · rw [honly.ctxs j hji] at hsock
      obtain ⟨o, hops, hl⟩ := h.link j hj hsock
      have hne : (n.world.srv.gCtxs j).socket ≠ c := fun heq =>
        hji (hg.sockets.injective j i hsock (heq.trans hc.symm))
      refine ⟨o, (honly.pending j hji).trans hops, hl.frame (honly.ctxs j hji) (hwire _ hne)
        (hpackets _ hne) (hreplies _ hne) (htaken _ hne) (hkeys _ hne) ?_ ?_⟩
      · rw [hpeers]
        exact id
      · rw [hpeers]
        exact hl.present
  · by_cases hd : d = c
    · rw [hd]
      exact hleft
    · rw [hwire d hd, hreplies d hd]
      exact h.wire d
  · rw [hpeers]
    by_cases hd : d = c
    · rw [hd]
      exact (h.read c).trans hread
    · rw [hwire d hd]
      exact h.read d
  · rw [honly.pending 0 hi.symm, honly.accepted, hpeers]
    exact h.accept
  · rw [honly.accepted] at hd
    have hne : d ≠ c := by
      have hlt := hg.sockets.below i
      rw [hc] at hlt
      omega
    rw [hkeys d hne, htaken d hne]
    exact h.unborn d hd

/-! ## What a client does to its session -/

section Client

variable {p : Peer} {handle : Option ℕ} {m : ℕ} {replies : List (List UInt8)}
  {handled : List (Handling Os)}

/-- A connected client sends its key packet. -/
theorem Session.sendKey (h : Session env p handle m replies handled) (hphase : p.phase = .connected)
    (hpub : p.client.publicKey.length < bufSize) {packet : List UInt8}
    (hform : p.client.requestFormation = some packet) :
    Session env (p.send packet .keySent) handle m replies handled := by
  cases h with
  | silent _ hsent hrequests htype =>
    have hlen : p.client.publicKey.length < clientBufSize := hpub.trans (by decide)
    rw [Client.requestFormation_key htype hlen] at hform
    obtain rfl := Option.some.inj hform
    exact .asked rfl (by simp [Peer.send, hsent]) hrequests
  | asked hph _ _ => simp [hphase] at hph
  | keyed hk => simpa [hphase] using hk.phase

/-- A client that has received the reply to its key has the connection's key. -/
theorem Session.sessionKey (hlaw : env.csp.Lawful) {key : ℕ}
    (h : Session env p (some key) m replies handled) (hp : PeerOk env.csp p)
    (hwf : env.csp.wellFormed p.client.publicKey = true) (hgot : p.got <+: replies)
    (hne : p.got ≠ []) : p.client.sessionKey = some (env.csp.keystream key) ∨
      p.phase = .aborted := by
  cases h with
  | keyed _ =>
    cases hp with
    | fresh _ _ hnil _ => exact absurd hnil hne
    | failed hab _ _ => exact .inr hab
    | @keyed ks r rest _ hkey hcons hset _ =>
      rw [hcons] at hgot
      obtain ⟨later, hlater⟩ := hgot
      have hr : r = 0 :: env.csp.simpleBlob key p.client.publicKey := (List.cons.inj hlater).1
      have hopen : p.client.setKey env.csp r = some (env.csp.keystream key) := by
        rw [Client.setKey, hr, List.drop_one, List.tail_cons]
        exact hlaw.open_simpleBlob key _ hwf
      rw [hkey, ← hset, hopen]
      exact .inl rfl

/-- A client with a key sends a request. -/
theorem Session.request (h : Session env p handle m replies handled) (hphase : p.phase = .menu)
    {t : RequestType} {arg packet : List UInt8} (harg : arg.length < requestArgSize)
    (hkey : ∀ key, handle = some key → p.client.sessionKey = some (env.csp.keystream key))
    (hplain : ∀ ks, p.client.sessionKey = some ks → ks 0 ≠ t.code)
    (hform : (p.ask t arg).client.requestFormation = some packet) :
    Session env ((p.ask t arg).send packet .requested) handle m replies handled := by
  cases h with
  | silent hph _ _ _ => simp [hphase] at hph
  | asked hph _ _ => simp [hphase] at hph
  | @keyed key texts handled hk =>
    have hks := hkey key rfl
    have hgot : p.got.length = p.requests.length + 1 := by simpa [hphase] using hk.phase
    have hpacket : (p.ask t arg).client.requestFormation =
        some ((env.csp.keystream key).apply (t.plain arg)) :=
      Client.requestFormation_request rfl hks harg
    rw [hpacket] at hform
    obtain rfl := Option.some.inj hform
    refine .keyed ⟨?_, ?_, ?_, ?_, ?_, .inr (.inl ⟨rfl, ?_⟩)⟩
    · simp [Peer.send, Peer.ask, hk.sent, Csp.packets]
    · rw [show ((p.ask t arg).send _ .requested).requests = p.requests ++ [(t, arg)] from rfl,
        zip_append_of_length_le hk.answered]
      exact hk.formed
    · exact hk.answered.trans (by simp [Peer.send, Peer.ask])
    · intro r hr
      rcases List.mem_append.mp hr with hr | hr
      · exact hk.typed r hr
      · rw [List.mem_singleton] at hr
        rw [hr]
        exact harg
    · intro r hr
      rcases List.mem_append.mp hr with hr | hr
      · exact hk.unmarked r hr
      · rw [List.mem_singleton] at hr
        rw [hr]
        exact hplain _ hks
    · simp [Peer.send, Peer.ask, hgot]

/-- A client receives a whole reply. -/
theorem Session.receive (hlaw : env.csp.Lawful) (h : Session env p handle m replies handled)
    (hphase : p.phase = .keySent ∨ p.phase = .requested)
    (hwf : env.csp.wellFormed p.client.publicKey = true)
    (hkey : ∀ key, handle = some key → p.phase = .requested →
      p.client.sessionKey = some (env.csp.keystream key))
    {data : List UInt8} (hdata : replies[p.got.length]? = some data) :
    Session env (p.receive env.csp data) handle m replies handled ∧
      (p.receive env.csp data).phase = .menu := by
  cases h with
  | silent _ _ _ _ => simp at hdata
  | asked _ _ _ => simp at hdata
  | @keyed key texts handled hk =>
    rcases hk.phase with ⟨hks, hnil, hrequests⟩ | ⟨hreq, hgot⟩ | ⟨hmenu, _⟩
    · -- the first reply carries the session key
      rw [hnil, List.length_nil, Csp.replies, List.getElem?_cons_zero] at hdata
      have hset : p.client.setKey env.csp data = some (env.csp.keystream key) := by
        rw [Client.setKey, ← Option.some.inj hdata, List.drop_one, List.tail_cons]
        exact hlaw.open_simpleBlob key _ hwf
      have hrecv : p.receive env.csp data =
          { p with
            client := { p.client with sessionKey := some (env.csp.keystream key) }
            phase := .menu
            got := [data] } := by
        unfold Peer.receive Peer.takeKey
        rw [if_pos hks]
        simp only [hset, cryptTest_some, if_true, hnil, List.nil_append]
      rw [hrecv]
      exact ⟨.keyed ⟨hk.sent, hk.formed, hk.answered, hk.typed, hk.unmarked,
        .inr (.inr ⟨.inl rfl, by simp [hrequests]⟩)⟩, rfl⟩
    · have hdec : p.client.decryptMsg data = some ((env.csp.keystream key).apply data) := by
        simp [Client.decryptMsg, cryptDecrypt, hkey key rfl hreq]
      have hrecv : p.receive env.csp data =
          { p with
            phase := .menu
            got := p.got ++ [data]
            printed := p.printed ++ [(env.csp.keystream key).apply data] } := by
        unfold Peer.receive Peer.takeText
        rw [if_neg (by simp [hreq])]
        simp only [hdec]
      rw [hrecv]
      exact ⟨.keyed ⟨hk.sent, hk.formed, hk.answered, hk.typed, hk.unmarked,
        .inr (.inr ⟨.inl rfl, by simp [hgot]⟩)⟩, rfl⟩
    · rcases hphase with h | h <;> rcases hmenu with h' | h' <;> simp [h] at h'

/-- A client exits. -/
theorem Session.exit (h : Session env p handle m replies handled) (hphase : p.phase = .menu) :
    Session env { p with phase := .exited } handle m replies handled := by
  cases h with
  | silent hph _ _ _ => simp [hphase] at hph
  | asked hph _ _ => simp [hphase] at hph
  | keyed hk =>
    have hgot : p.got.length = p.requests.length + 1 := by simpa [hphase] using hk.phase
    exact .keyed ⟨hk.sent, hk.formed, hk.answered, hk.typed, hk.unmarked,
      .inr (.inr ⟨.inr rfl, hgot⟩)⟩

/-- A client of a session has not been ended by an assertion. -/
theorem Session.not_aborted (h : Session env p handle m replies handled) : p.phase ≠ .aborted := by
  cases h with
  | silent hph _ _ _ => rcases hph with h | h <;> simp [h]
  | asked hph _ _ => simp [hph]
  | keyed hk => rcases hk.phase with ⟨h, _⟩ | ⟨h, _⟩ | ⟨h | h, _⟩ <;> simp [h]

/-- What a client of a session has typed in fits the line. -/
theorem Session.typed (h : Session env p handle m replies handled) :
    ∀ r ∈ p.requests, r.2.length < requestArgSize := by
  cases h with
  | silent _ _ hrequests _ => simp [hrequests]
  | asked _ _ hrequests => simp [hrequests]
  | keyed hk => exact hk.typed

end Client

/-! ## The clients' steps -/

/-- No request begins, once enciphered, with the byte that marks a key. -/
def Recognisable (n : Net Os) : NetEvent Os → Prop
  | .request c t arg => ∀ packet, ((n.peers c).ask t arg).client.requestFormation = some packet →
      packet.head? ≠ some 0
  | _ => True

/-- A piece of what is left extends a beginning. -/
theorem append_prefix_of_drop {α : Type} {l s x : List α} (h : l <+: s)
    (hx : x <+: s.drop l.length) : l ++ x <+: s := by
  obtain ⟨rest, rfl⟩ := h
  rw [List.drop_left] at hx
  exact (List.prefix_append_right_inj l).mpr hx

/-- A client with a key has the key of its connection. -/
theorem DeliveryOk.sessionKey {n : Net Os} (hlaw : env.csp.Lawful) (h : DeliveryOk env n)
    (hok : SessionOk env n) {c : ℕ} (hphase : (n.peers c).phase = .menu ∨
      (n.peers c).phase = .requested) {key : ℕ}
    (hkey : keyHandle n.world.srv.handles.keys c = some key) :
    (n.peers c).client.sessionKey = some (env.csp.keystream key) := by
  have hsession := h.session c
  rw [hkey] at hsession
  have hne : (n.peers c).got ≠ [] := by
    cases hok.peers c with
    | fresh hph _ _ _ => rcases hphase with h' | h' <;> simp [h'] at hph
    | keyed _ _ hgot _ _ => simp [hgot]
    | failed hph _ _ => rcases hphase with h' | h' <;> simp [h'] at hph
  exact (hsession.sessionKey hlaw (hok.peers c) (h.publicKey c).1 (hok.replies c) hne).resolve_right
    hsession.not_aborted

/-- A client that sends its key packet keeps the sessions. -/
theorem deliveryOk_sendKey {n : Net Os} (h : DeliveryOk env n) {c : ℕ} {packet : List UInt8}
    (hphase : (n.peers c).phase = .connected)
    (hform : (n.peers c).client.requestFormation = some packet) :
    DeliveryOk env (n.setPeer c ((n.peers c).send packet .keySent)) :=
  h.setPeer rfl ((h.session c).sendKey hphase (h.publicKey c).2 hform) (h.read c)
    (fun hx => by simp [hphase] at hx) (by simp [Peer.send])

/-- So does one that sends a request that is not mistaken for a key. -/
theorem deliveryOk_request {n : Net Os} (hlaw : env.csp.Lawful) (h : DeliveryOk env n)
    (hok : SessionOk env n) {c : ℕ} {t : RequestType} {arg packet : List UInt8}
    (hphase : (n.peers c).phase = .menu) (harg : arg.length < requestArgSize)
    (hform : ((n.peers c).ask t arg).client.requestFormation = some packet)
    (hplain : packet.head? ≠ some 0) :
    DeliveryOk env (n.setPeer c (((n.peers c).ask t arg).send packet .requested)) := by
  have hkey : ∀ key, keyHandle n.world.srv.handles.keys c = some key →
      (n.peers c).client.sessionKey = some (env.csp.keystream key) :=
    fun key => h.sessionKey hlaw hok (.inl hphase)
  refine h.setPeer rfl ((h.session c).request hphase harg hkey (fun ks hks hcode => ?_) hform)
    (h.read c) (fun hx => by simp [hphase] at hx) (by simp [Peer.send])
  rw [Client.requestFormation_request (c := ((n.peers c).ask t arg).client) rfl hks harg,
    RequestType.plain, ks.apply_cons] at hform
  obtain rfl := Option.some.inj hform
  refine hplain ?_
  rw [List.head?_cons, hcode, UInt8.xor_self]

/-- So does one that receives a whole reply. -/
theorem deliveryOk_receive {n : Net Os} (hlaw : env.csp.Lawful) (h : DeliveryOk env n)
    (hok : SessionOk env n) {c : ℕ} {data : List UInt8}
    (hphase : (n.peers c).phase = .keySent ∨ (n.peers c).phase = .requested)
    (hdata : data <+: n.toClient c)
    (hwhole : (n.world.replies c)[(n.peers c).got.length]? = some data) :
    DeliveryOk env (n.setPeer c ((n.peers c).receive env.csp data)) := by
  obtain ⟨hsession, hmenu⟩ := (h.session c).receive hlaw hphase (h.publicKey c).1
    (fun key hkey hreq => h.sessionKey hlaw hok (.inr hreq) hkey) hwhole
  refine h.setPeer ?_ hsession ?_ (fun hx => ?_) (by simp [hmenu])
  · exact (n.peers c).receive_publicKey env.csp data
  · rw [((n.peers c).receive_records env.csp data).1, List.flatten_append, List.flatten_singleton]
    exact append_prefix_of_drop (h.read c) hdata
  · rcases hphase with h' | h' <;> simp [h'] at hx

/-- So does one that exits. -/
theorem deliveryOk_exit {n : Net Os} (h : DeliveryOk env n) {c : ℕ}
    (hphase : (n.peers c).phase = .menu) :
    DeliveryOk env (n.setPeer c { n.peers c with phase := .exited }) :=
  h.setPeer rfl ((h.session c).exit hphase) (h.read c) (fun _ => rfl) (by simp)

end Tcp
end BsitLabs
