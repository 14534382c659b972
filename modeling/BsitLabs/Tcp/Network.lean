import BsitLabs.Tcp.Client
import BsitLabs.Tcp.Exchange
import BsitLabs.Tcp.Iteration

/-!
# The server and its clients

A `Net` is the server with its system (`World`) and a client process at the other
end of every connection.  A client follows `main`: it connects, sends its key
packet, takes the reply as the session key, and then asks, one request at a time,
until it exits.

A connection is two byte streams.  What a client has sent is the concatenation of
its packets, and the server has taken some beginning of it; what the server has sent
is `wire`, and the client has taken some beginning of that.  A receive on either side
brings any non-empty piece of what is next, so a packet may arrive in pieces and a
`recv` may return part of a reply.  The server's receive brings nothing only when the
client has gone and everything has been taken.

Every call succeeds here: the runs with failing operations are those of `machine`,
to which these project (`netProjection`).
-/

namespace BsitLabs
namespace Tcp

open Transition

variable {Os : Type}

/-- Where a client stands in `main`. -/
inductive Phase where
  /-- Not connected yet. -/
  | absent
  /-- Connected, the key packet not sent yet. -/
  | connected
  /-- In `recv_request`, for the reply to the key packet. -/
  | keySent
  /-- In `ask_request_type`. -/
  | menu
  /-- In `recv_request`, for the reply to a request. -/
  | requested
  /-- `main` has returned. -/
  | exited
  /-- An assertion has ended the process. -/
  | aborted
  deriving DecidableEq, Repr

/-- The process has ended and its socket is closed. -/
def Phase.gone : Phase → Bool
  | .exited | .aborted => true
  | _ => false

/-- A client process, with what it has sent, asked, received and printed. -/
structure Peer where
  client : Client
  phase : Phase
  /-- The packets sent. -/
  sent : List (List UInt8)
  /-- The requests among them, as typed in. -/
  requests : List (RequestType × List UInt8)
  /-- What each `recv_request` returned. -/
  got : List (List UInt8)
  /-- What each `decrypt_msg` printed. -/
  printed : List (List UInt8)

namespace Peer

/-- A client that has started and not connected: what it will do depends on its key
pair and on what lies in its buffer. -/
def start (publicKey : List UInt8) (sendBuf : Buffer clientBufSize) : Peer where
  client := ⟨sendBuf, publicKey, none, none, []⟩
  phase := .absent
  sent := []
  requests := []
  got := []
  printed := []

/-- `request_formation` and `send_request` have put a packet on the connection. -/
def send (p : Peer) (packet : List UInt8) (phase : Phase) : Peer :=
  { p with sent := p.sent ++ [packet], phase := phase }

/-- A request has been typed in. -/
def ask (p : Peer) (t : RequestType) (arg : List UInt8) : Peer :=
  { p with
    client := { p.client with requestType := some t, requestArg := arg }
    requests := p.requests ++ [(t, arg)] }

/-- `set_key` and the self-test after it. -/
def takeKey (csp : Csp) (p : Peer) (data : List UInt8) : Peer :=
  match p.client.setKey csp data with
  | some ks =>
    if cryptTest (some ks) = some true then
      { p with client := { p.client with sessionKey := some ks }, phase := .menu }
    else { p with phase := .aborted }
  | none => { p with phase := .aborted }

/-- `decrypt_msg`. -/
def takeText (p : Peer) (data : List UInt8) : Peer :=
  match p.client.decryptMsg data with
  | some text => { p with printed := p.printed ++ [text], phase := .menu }
  | none => { p with phase := .aborted }

/-- `recv_request` has returned, and what it returned goes where `main` puts it. -/
def receive (csp : Csp) (p : Peer) (data : List UInt8) : Peer :=
  let p' := { p with got := p.got ++ [data] }
  if p.phase = .keySent then p'.takeKey csp data else p'.takeText data

/-- Taking in a reply is put on record, and changes nothing of what has been sent. -/
theorem receive_records (csp : Csp) (p : Peer) (data : List UInt8) :
    (p.receive csp data).got = p.got ++ [data] ∧ (p.receive csp data).sent = p.sent ∧
      (p.receive csp data).requests = p.requests := by
  unfold receive takeKey takeText
  split
  · cases hset : p.client.setKey csp data <;> simp [hset, cryptTest_some]
  · cases hdec : p.client.decryptMsg data <;> simp [hdec]

/-- Nor does it change the key pair. -/
theorem receive_publicKey (csp : Csp) (p : Peer) (data : List UInt8) :
    (p.receive csp data).client.publicKey = p.client.publicKey := by
  unfold receive takeKey takeText
  split
  · cases hset : p.client.setKey csp data <;> simp [hset, cryptTest_some]
  · cases hdec : p.client.decryptMsg data <;> simp [hdec]

end Peer

/-- The server, its clients, and how much of each client's stream the server has
taken. -/
structure Net (Os : Type) where
  world : World Os
  peers : ℕ → Peer
  taken : ℕ → ℕ

namespace Net

/-- What a client has sent and the server has not taken. -/
def toServer (n : Net Os) (c : ℕ) : List UInt8 := (n.peers c).sent.flatten.drop (n.taken c)

/-- What the server has sent and the client has not taken. -/
def toClient (n : Net Os) (c : ℕ) : List UInt8 :=
  (n.world.wire c).drop (n.peers c).got.flatten.length

/-- Replace a client. -/
def setPeer (n : Net Os) (c : ℕ) (p : Peer) : Net Os :=
  { n with peers := Function.update n.peers c p }

theorem setPeer_peers (n : Net Os) (c : ℕ) (p : Peer) (d : ℕ) :
    (n.setPeer c p).peers d = if d = c then p else n.peers d := Function.update_apply _ _ _ _

/-- What is true of the client that is replaced, and of every client that stays as it is. -/
theorem setPeer_relates (n : Net Os) {R : Peer → Peer → Prop} (hrefl : ∀ q, R q q) {d : ℕ}
    {p : Peer} (h : R (n.peers d) p) (c : ℕ) : R (n.peers c) ((n.setPeer d p).peers c) := by
  rw [setPeer_peers]
  by_cases hc : c = d
  · subst hc
    rwa [if_pos rfl]
  · rw [if_neg hc]
    exact hrefl _

end Net

/-- What happens in a step. -/
inductive NetEvent (Os : Type) where
  | connect (k : ℕ)
  | received (i : Slot) (k : ℕ) (data : List UInt8)
  | sent (i : Slot) (k : ℕ) (m : ℕ)
  | dequeue (i : Slot) (k : ℕ) (ans : Answers Os)
  | sendKey (c : ℕ)
  | request (c : ℕ) (t : RequestType) (arg : List UInt8)
  | receive (c : ℕ) (data : List UInt8)
  | exit (c : ℕ)

/-- The steps of the server and its clients. -/
inductive Net.Step (env : Env Os) : Net Os → NetEvent Os → Net Os → Prop where
  | connect {n : Net Os} {k : ℕ} {w : World Os}
      (hs : World.Step env n.world (.accepted k) w)
      (hphase : (n.peers n.world.srv.gAcceptedSocket).phase = .absent) :
      Step env n (.connect k)
        ({ n with world := w }.setPeer n.world.srv.gAcceptedSocket
          { n.peers n.world.srv.gAcceptedSocket with phase := .connected })
  | received {n : Net Os} {i : Slot} {k : ℕ} {data : List UInt8} {w : World Os} {o : Op}
      (hs : World.Step env n.world (.received i k data) w)
      (ho : (n.world.pending i)[k]? = some o) (hdata : data <+: n.toServer o.sock)
      (hend : data = [] → n.toServer o.sock = [] ∧ (n.peers o.sock).phase.gone) :
      Step env n (.received i k data)
        { n with
          world := w
          taken := Function.update n.taken o.sock (n.taken o.sock + data.length) }
  | sent {n : Net Os} {i : Slot} {k m : ℕ} {w : World Os} {o : Op}
      (hs : World.Step env n.world (.sent i k m) w) (ho : (n.world.pending i)[k]? = some o)
      (hpos : 0 < m ∨ o.len = 0) :
      Step env n (.sent i k m) { n with world := w }
  | dequeue {n : Net Os} {i : Slot} {k m : ℕ} {ans : Answers Os} {w : World Os} {o : Op}
      (hs : World.Step env n.world (.dequeue i k ans) w)
      (ho : (n.world.pending i)[k]? = some o) (hst : o.status = .done m)
      (hans : ans.Succeed) :
      Step env n (.dequeue i k ans) { n with world := w }
  | sendKey {n : Net Os} {c : ℕ} {packet : List UInt8} (hphase : (n.peers c).phase = .connected)
      (hform : (n.peers c).client.requestFormation = some packet) :
      Step env n (.sendKey c) (n.setPeer c ((n.peers c).send packet .keySent))
  | request {n : Net Os} {c : ℕ} {t : RequestType} {arg packet : List UInt8}
      (hphase : (n.peers c).phase = .menu) (harg : arg.length < requestArgSize)
      (hform : ((n.peers c).ask t arg).client.requestFormation = some packet) :
      Step env n (.request c t arg)
        (n.setPeer c (((n.peers c).ask t arg).send packet .requested))
  | receive {n : Net Os} {c : ℕ} {data : List UInt8}
      (hphase : (n.peers c).phase = .keySent ∨ (n.peers c).phase = .requested)
      (hne : data ≠ []) (hlen : data.length ≤ clientBufSize) (hdata : data <+: n.toClient c) :
      Step env n (.receive c data) (n.setPeer c ((n.peers c).receive env.csp data))
  | exit {n : Net Os} {c : ℕ} (hphase : (n.peers c).phase = .menu) :
      Step env n (.exit c) (n.setPeer c { n.peers c with phase := .exited })

/-- The runs of the server and its clients.  Each client starts with a key pair whose
exported blob is well formed and fits, behind a zero, in the server's buffer. -/
def netMachine (env : Env Os) : Machine (Net Os) (NetEvent Os) where
  init n := n.world = World.initial true ∧ n.taken = (fun _ => 0) ∧
    ∃ (pub : ℕ → List UInt8) (buf : ℕ → Buffer clientBufSize),
      (∀ c, env.csp.wellFormed (pub c) = true ∧ (pub c).length < bufSize) ∧
        n.peers = fun c => Peer.start (pub c) (buf c)
  step := Net.Step env

/-! ## The server's view -/

theorem nothingFails_of_succeed {w : World Os} {i : Slot} {k m : ℕ} {ans : Answers Os} {o : Op}
    (ho : (w.pending i)[k]? = some o) (hst : o.status = .done m) (hans : ans.Succeed) :
    NothingFails w (.dequeue i k ans) := by
  intro o' ho'
  obtain rfl := Option.some.inj (ho.symm.trans ho')
  refine ⟨by simp [hst], ?_⟩
  unfold CallsSucceed
  split
  · exact ⟨hans.accepting, fun _ => ⟨hans.associated, hans.started⟩⟩
  · split
    · split
      · exact hans.posted
      · exact hans.started
    · exact hans.started
    · trivial

/-- The server sees a run of its own in which nothing fails. -/
def netProjection (env : Env Os) :
    Projection (netMachine env) ((machine env true).restrict NothingFails) where
  map n := n.world
  init n h := h.1
  step n e n' h := by
    cases h with
    | @connect k w hs _ => exact .inr ⟨.accepted k, trivial, hs⟩
    | @received i k data w o hs _ _ _ => exact .inr ⟨.received i k data, trivial, hs⟩
    | @sent i k m w o hs _ _ => exact .inr ⟨.sent i k m, trivial, hs⟩
    | dequeue hs ho hst hans => exact .inr ⟨_, nothingFails_of_succeed ho hst hans, hs⟩
    | sendKey _ _ => exact .inl rfl
    | request _ _ _ => exact .inl rfl
    | receive _ _ _ _ => exact .inl rfl
    | exit _ => exact .inl rfl

theorem good_of_net {env : Env Os} {n : Net Os} (h : (netMachine env).Reachable n) :
    Good n.world := good_reachable ((netProjection env).reachable h).of_restrict

/-! ## One exchange -/

namespace Net

/-- A packet has arrived whole at a slot that reads. -/
def arrived (n : Net Os) (i : Slot) (packet : List UInt8) : Net Os where
  world := n.world.receives i packet
  peers := n.peers
  taken := Function.update n.taken (n.world.srv.gCtxs i).socket
    (n.taken (n.world.srv.gCtxs i).socket + packet.length)

/-- What an exchange leaves: the slot reads again, the clients are as they were, and the packet
and the whole reply have gone over the connection `c`. -/
structure Exchanged (i : Slot) (packet reply : List UInt8) (handling : List (Handling Os))
    (n n' : Net Os) : Prop where
  peers : n'.peers = n.peers
  reads : Reads n'.world i
  others : n.world.SameButFor i n'.world
  taken : n'.taken (n.world.srv.gCtxs i).socket =
    n.taken (n.world.srv.gCtxs i).socket + packet.length
  wire : n'.world.wire (n.world.srv.gCtxs i).socket =
    n.world.wire (n.world.srv.gCtxs i).socket ++ reply
  packets : n'.world.packets (n.world.srv.gCtxs i).socket =
    n.world.packets (n.world.srv.gCtxs i).socket ++ [packet]
  replies : n'.world.replies (n.world.srv.gCtxs i).socket =
    n.world.replies (n.world.srv.gCtxs i).socket ++ [reply]
  handled : n'.world.handled (n.world.srv.gCtxs i).socket =
    n.world.handled (n.world.srv.gCtxs i).socket ++ handling

/-- The steps of an exchange meet a condition. -/
structure ExchangeOk (ok : Net Os → NetEvent Os → Prop) (n : Net Os) (i : Slot)
    (packet : List UInt8) (os : Os) : Prop where
  received : ok n (.received i 0 packet)
  dequeue : ok (n.arrived i packet) (.dequeue i 0 (.allYes os))
  sent : ∀ (n₁ : Net Os) (m : ℕ), n₁.peers = n.peers → ok n₁ (.sent i 0 m)
  again : ∀ n₁ : Net Os, n₁.peers = n.peers → (∀ o ∈ n₁.world.pending i, o.block = .send) →
    ok n₁ (.dequeue i 0 (.allYes os))

/-- A packet of a client arrives whole at a slot that reads, the answer to it leaves whole,
and the slot reads again. -/
theorem exchange {env : Env Os} {ok : Net Os → NetEvent Os → Prop} {n : Net Os}
    (hr : ((netMachine env).restrict ok).Reachable n) {i : Slot} {packet reply : List UInt8}
    {os : Os} {w : World Os} {handling : List (Handling Os)} (hreads : Reads n.world i)
    (hpacket : n.toServer (n.world.srv.gCtxs i).socket = packet) (hne : packet ≠ [])
    (hlen : packet.length ≤ bufSize)
    (hstep : World.Step env (n.world.receives i packet) (.dequeue i 0 (.allYes os)) w)
    (hsends : Sends w i reply) (hbut : (n.world.receives i packet).SameButFor i w)
    (hrecords : World.Records ((n.world.receives i packet).srv.gCtxs i).socket packet reply
      handling (n.world.receives i packet) w)
    (hok : ExchangeOk ok n i packet os) :
    ∃ n', ((netMachine env).restrict ok).Reachable n' ∧ Exchanged i packet reply handling n n' ∧
      (n'.world.srv.gCtxs i).key = (w.srv.gCtxs i).key := by
  obtain ⟨hrecv, hhas, hbut₁, _⟩ := hreads.receives env hne hlen
  have hget : (n.world.pending i)[0]? =
      some ⟨.recv, (n.world.srv.gCtxs i).socket, 0, bufSize, .posted⟩ := by
    rw [hreads.op]
    rfl
  have hs₁ : Step env n (.received i 0 packet) (n.arrived i packet) :=
    .received hrecv hget (by rw [hpacket]) fun hnil => absurd hnil hne
  have hs₂ : Step env (n.arrived i packet) (.dequeue i 0 (.allYes os))
      { n.arrived i packet with world := w } :=
    .dequeue hstep hhas.getElem? rfl (Answers.allYes_succeed os)
  -- the reply leaves, and the slot reads again
  obtain ⟨w₁, w₂, hsent, hdeq, _, hreads₂, hbut₂, _, ⟨hpackets₂, hreplies₂, hhandled₂⟩, hwire₂,
    hkey, hops⟩ := hsends.completes env os
  have hop : (w.pending i)[0]? =
      some ⟨.send, (w.srv.gCtxs i).socket, 0, reply.length, .posted⟩ := by
    rw [hsends.op]
    rfl
  have hop₁ : (w₁.pending i)[0]? =
      some ⟨.send, (w.srv.gCtxs i).socket, 0, reply.length, .done reply.length⟩ := by
    rw [hops]
    rfl
  have hs₃ : Step env { n.arrived i packet with world := w } (.sent i 0 reply.length)
      { n.arrived i packet with world := w₁ } := .sent hsent hop (Nat.eq_zero_or_pos _).symm
  have hs₄ : Step env { n.arrived i packet with world := w₁ } (.dequeue i 0 (.allYes os))
      { n.arrived i packet with world := w₂ } :=
    .dequeue hdeq hop₁ rfl (Answers.allYes_succeed os)
  have hsending : ∀ o ∈ w₁.pending i, o.block = .send := by
    rw [hops]
    exact fun o ho => List.mem_singleton.mp ho ▸ rfl
  have hr₂ : ((netMachine env).restrict ok).Reachable { n.arrived i packet with world := w } :=
    .step (.step hr ⟨hok.received, hs₁⟩) ⟨hok.dequeue, hs₂⟩
  have hr₄ : ((netMachine env).restrict ok).Reachable { n.arrived i packet with world := w₂ } :=
    .step (.step hr₂ ⟨hok.sent _ _ rfl, hs₃⟩) ⟨hok.again _ rfl hsending, hs₄⟩
  have hsock : ((n.world.receives i packet).srv.gCtxs i).socket = (n.world.srv.gCtxs i).socket :=
    hbut₁.srv.socket
  rw [hsock] at hrecords
  refine ⟨_, hr₄, ⟨rfl, hreads₂, (hbut₁.trans hbut).trans hbut₂, Function.update_self _ _ _, ?_,
    ?_, ?_, ?_⟩, hkey⟩
  · rw [hwire₂, (hbut₁.trans hbut).srv.socket, World.record_self, hrecords.wire]
    rfl
  · rw [hpackets₂, hrecords.packets, World.record_self]
    rfl
  · rw [hreplies₂, hrecords.replies, World.record_self]
    rfl
  · rw [hhandled₂, hrecords.handled, World.record_self]
    rfl

end Net

/-! ## The first client

The beginning of a run: the first client connects and sends its key packet. -/

namespace Net

/-- A client of the sample run, before it connects. -/
def samplePeer : Peer := Peer.start [6] (Buffer.zero clientBufSize)

/-- Nobody has connected. -/
def sample : Net Os := ⟨World.initial true, fun _ => samplePeer, fun _ => 0⟩

/-- The first client has connected. -/
def sampleConnecting : Net Os :=
  ({ (sample : Net Os) with world := World.connecting } : Net Os).setPeer 2
    { samplePeer with phase := .connected }

/-- The first client has been given slot one. -/
def sampleConnected (os : Os) : Net Os :=
  { (sampleConnecting : Net Os) with world := World.connected os }

/-- Nobody else has connected. -/
def Alone (n : Net Os) : Prop := ∀ d, d ≠ 2 → n.peers d = samplePeer

theorem Alone.setPeer {n : Net Os} (h : n.Alone) (p : Peer) : (n.setPeer 2 p).Alone := by
  intro d hd
  rw [setPeer_peers, if_neg hd]
  exact h d hd

theorem alone_sample : (sample : Net Os).Alone := fun _ _ => rfl

/-- The first client has sent its key packet. -/
def sampleKeySent (os : Os) : Net Os :=
  (sampleConnected os).setPeer 2
    (({ samplePeer with phase := .connected } : Peer).send [0, 6] .keySent)

theorem alone_sampleConnecting : (sampleConnecting : Net Os).Alone := by
  have h : (sample : Net Os).Alone := alone_sample
  exact Alone.setPeer (n := { (sample : Net Os) with world := World.connecting }) h _

theorem alone_sampleConnected (os : Os) : (sampleConnected os).Alone := by
  have h : (sampleConnecting : Net Os).Alone := alone_sampleConnecting
  exact h

theorem alone_sampleKeySent (os : Os) : (sampleKeySent os).Alone :=
  (alone_sampleConnected os).setPeer _

theorem sample_init {env : Env Os} (hwf : env.csp.wellFormed [6] = true) :
    (netMachine env).init sample :=
  ⟨rfl, rfl, fun _ => [6], fun _ => Buffer.zero clientBufSize,
    fun _ => ⟨hwf, show 1 < bufSize by decide⟩, rfl⟩

theorem step_sampleConnecting (env : Env Os) : Step env sample (.connect 0) sampleConnecting :=
  .connect (World.step_connecting env) rfl

theorem step_sampleConnected (env : Env Os) (os : Os) :
    Step env sampleConnecting (.dequeue 0 0 (.allYes os)) (sampleConnected os) :=
  .dequeue (m := 0) (o := ⟨.recv, 1, 0, 0, .done 0⟩) (World.step_connected env os) rfl rfl
    (Answers.allYes_succeed os)

theorem sampleConnected_peer (os : Os) :
    (sampleConnected os).peers 2 = { samplePeer with phase := .connected } := by
  simp [sampleConnected, sampleConnecting, setPeer]

theorem step_sampleKeySent (env : Env Os) (os : Os) :
    Step env (sampleConnected os) (.sendKey 2) (sampleKeySent os) := by
  have hform : ((sampleConnected os).peers 2).client.requestFormation = some [0, 6] := by
    rw [sampleConnected_peer]
    exact Client.requestFormation_key rfl (show 1 < clientBufSize by decide)
  have hs : Step env (sampleConnected os) (.sendKey 2) _ :=
    .sendKey (by rw [sampleConnected_peer]) hform
  rw [sampleConnected_peer] at hs
  exact hs

/-- The sample run is one of those whose steps meet a condition, if its three steps do. -/
theorem reachable_sampleKeySent {env : Env Os} (hwf : env.csp.wellFormed [6] = true) (os : Os)
    {ok : Net Os → NetEvent Os → Prop} (hconnect : ok sample (.connect 0))
    (hdequeue : ok sampleConnecting (.dequeue 0 0 (.allYes os)))
    (hsend : ok (sampleConnected os) (.sendKey 2)) :
    ((netMachine env).restrict ok).Reachable (sampleKeySent os) := by
  have h₁ : ((netMachine env).restrict ok).Reachable sampleConnecting :=
    .step (.init (sample_init hwf)) ⟨hconnect, step_sampleConnecting env⟩
  have h₂ : ((netMachine env).restrict ok).Reachable (sampleConnected os) :=
    h₁.step ⟨hdequeue, step_sampleConnected env os⟩
  exact h₂.step ⟨hsend, step_sampleKeySent env os⟩

theorem sampleKeySent_peer (os : Os) : (sampleKeySent os).peers 2 =
    ({ samplePeer with phase := .connected } : Peer).send [0, 6] .keySent := by
  simp [sampleKeySent, setPeer]

theorem sampleKeySent_toServer (os : Os) : (sampleKeySent os).toServer 2 = [0, 6] := by
  rw [toServer, sampleKeySent_peer]
  rfl

theorem sampleKeySent_socket (os : Os) : ((sampleKeySent os).world.srv.gCtxs 1).socket = 2 :=
  congrArg ClientCtx.socket (World.connected_ctx os)

/-- The key packet of the first client has been answered. -/
structure KeyAnswered (env : Env Os) (os : Os) (n : Net Os) : Prop where
  peers : n.peers = (sampleKeySent os).peers
  reads : Reads n.world 1
  others : (World.connected os).SameButFor 1 n.world
  key : (n.world.srv.gCtxs 1).key = 1
  taken : n.taken 2 = 2
  wire : n.world.wire 2 = 0 :: env.csp.simpleBlob 1 [6]
  packets : n.world.packets 2 = [[0, 6]]
  replies : n.world.replies 2 = [0 :: env.csp.simpleBlob 1 [6]]
  handled : n.world.handled 2 = []

theorem KeyAnswered.alone {env : Env Os} {os : Os} {n : Net Os} (h : n.KeyAnswered env os) :
    n.Alone := fun d hd => by
  rw [h.peers]
  exact alone_sampleKeySent os d hd

/-- The sample run goes on with the answer to the key packet. -/
theorem exists_keyAnswered {env : Env Os} (hwf : env.csp.wellFormed [6] = true)
    (hblob : (env.csp.simpleBlob 1 [6]).length < bufSize) {os : Os}
    {ok : Net Os → NetEvent Os → Prop}
    (hr : ((netMachine env).restrict ok).Reachable (sampleKeySent os))
    (hok : ExchangeOk ok (sampleKeySent os) 1 [0, 6] os) :
    ∃ n, ((netMachine env).restrict ok).Reachable n ∧ n.KeyAnswered env os := by
  obtain ⟨_, hhas, _, hsz⟩ :=
    (reads_connected os).receives env (List.cons_ne_nil (0 : UInt8) [6]) (by decide)
  have hopen : (((World.connected os).receives 1 [0, 6]).srv.gCtxs 1).szSend = 0 := by
    rw [hsz, World.connected_ctx]
    rfl
  have hfirst : ((World.connected os).receives 1 [0, 6]).srv.handles.keys.length + 1 = 1 := rfl
  obtain ⟨w, hstep, hsends, hbut, hrecords, hkey⟩ :=
    hhas.answersKey hwf (by rw [hfirst]; exact hblob) hopen os
  rw [hfirst] at hsends hrecords hkey
  obtain ⟨n, hr', hex, hkey'⟩ := exchange hr (reads_connected os)
    (by rw [sampleKeySent_socket, sampleKeySent_toServer]) (List.cons_ne_nil _ _) (by decide)
    hstep hsends hbut hrecords hok
  obtain ⟨hwire, hpackets, hreplies, hhandled⟩ := World.connected_records os
  have hsock := sampleKeySent_socket os
  have htaken := hex.taken
  have hwire' := hex.wire
  have hpackets' := hex.packets
  have hreplies' := hex.replies
  have hhandled' := hex.handled
  rw [hsock] at htaken hwire' hpackets' hreplies' hhandled'
  refine ⟨n, hr', hex.peers, hex.reads, hex.others, hkey'.trans hkey, htaken, ?_, ?_, ?_, ?_⟩
  · rw [hwire', show (sampleKeySent os).world.wire = fun _ => [] from hwire, List.nil_append]
  · rw [hpackets', show (sampleKeySent os).world.packets = fun _ => [] from hpackets,
      List.nil_append]
  · rw [hreplies', show (sampleKeySent os).world.replies = fun _ => [] from hreplies,
      List.nil_append]
  · rw [hhandled', show (sampleKeySent os).world.handled = fun _ => [] from hhandled,
      List.nil_append]

/-! ## Its first request

With a provider of one-byte keystreams the client takes its key and asks a request that names
no path, and the reply is printed. -/

/-- The first client has its key. -/
def keyedPeer : Peer :=
  let p := ({ samplePeer with phase := .connected } : Peer).send [0, 6] .keySent
  { p with
    client := { p.client with sessionKey := some (Csp.oneByte.keystream 1) }
    phase := .menu
    got := [[0, 1]] }

/-- It has asked. -/
def askedPeer (t : RequestType) : Peer := (keyedPeer.ask t []).send [t.code ^^^ 1] .requested

/-- It has printed the text of the reply. -/
def answeredPeer (t : RequestType) (text : List UInt8) : Peer :=
  { askedPeer t with
    phase := .menu
    got := [[0, 1], (Csp.oneByte.keystream 1).apply text]
    printed := [text] }

/-- The first request has been answered and the reply printed. -/
structure Answered (t : RequestType) (text : List UInt8) (os : Os) (n : Net Os) : Prop where
  peer : n.peers 2 = answeredPeer t text
  packets : n.world.packets 2 = [[0, 6], [t.code ^^^ 1]]
  replies : n.world.replies 2 = [[0, 1], (Csp.oneByte.keystream 1).apply text]
  handled : ∃ buf : Buffer bufSize, buf.get 0 = t.code ∧ n.world.handled 2 = [⟨buf, os⟩]

section FirstRequest

variable {env : Env Os} {os : Os} {ok : Net Os → NetEvent Os → Prop} {n : Net Os}
  {t : RequestType}

/-- What it sends when it asks without a path. -/
theorem requestFormation_keyedPeer (ht : t.takesPath = false) :
    (keyedPeer.ask t []).client.requestFormation = some [t.code ^^^ 1] := by
  have harg : (keyedPeer.ask t []).client.requestArg.length < requestArgSize :=
    show 0 < requestArgSize by decide
  rw [Client.requestFormation_request rfl rfl harg, RequestType.plain, ht]
  rfl

/-- The client takes the key. -/
theorem KeyAnswered.step_takeKey (hcsp : env.csp = .oneByte) (hk : n.KeyAnswered env os) :
    Step env n (.receive 2 [0, 1]) (n.setPeer 2 keyedPeer) := by
  have hpeer :
      n.peers 2 = ({ samplePeer with phase := .connected } : Peer).send [0, 6] .keySent := by
    rw [hk.peers, sampleKeySent_peer]
  have hwire : n.world.wire 2 = [0, 1] := by
    rw [hk.wire, hcsp]
    rfl
  have hs : Step env n (.receive 2 [0, 1]) (n.setPeer 2 ((n.peers 2).receive env.csp [0, 1])) := by
    refine .receive (.inl (by rw [hpeer]; rfl)) (List.cons_ne_nil _ _) (by decide) ?_
    rw [toClient, hwire, hpeer]
    exact List.prefix_rfl
  have hkeyed : (n.peers 2).receive env.csp [0, 1] = keyedPeer := by
    rw [hpeer, hcsp]
    rfl
  rwa [hkeyed] at hs

/-- The client takes the key and asks. -/
theorem reachable_asked (hcsp : env.csp = .oneByte)
    (hr : ((netMachine env).restrict ok).Reachable n) (hk : n.KeyAnswered env os)
    (ht : t.takesPath = false) (hreceive : ok n (.receive 2 [0, 1]))
    (hrequest : ok (n.setPeer 2 keyedPeer) (.request 2 t [])) :
    ((netMachine env).restrict ok).Reachable (n.setPeer 2 (askedPeer t)) := by
  have hself : (n.setPeer 2 keyedPeer).peers 2 = keyedPeer := by rw [setPeer_peers, if_pos rfl]
  have hs : Step env (n.setPeer 2 keyedPeer) (.request 2 t []) _ :=
    .request (by rw [hself]; rfl) (show 0 < requestArgSize by decide)
      (by rw [hself]; exact requestFormation_keyedPeer ht)
  have htwice : (n.setPeer 2 keyedPeer).setPeer 2
      (((n.setPeer 2 keyedPeer).peers 2).ask t [] |>.send [t.code ^^^ 1] .requested) =
        n.setPeer 2 (askedPeer t) := by
    rw [hself]
    simp only [setPeer, Function.update_idem]
    rfl
  rw [htwice] at hs
  exact .step (.step hr ⟨hreceive, hk.step_takeKey hcsp⟩) ⟨hrequest, hs⟩

/-- The server has taken the key packet and not the request. -/
theorem KeyAnswered.toServer (hk : n.KeyAnswered env os) :
    (n.setPeer 2 (askedPeer t)).toServer 2 = [t.code ^^^ 1] := by
  have hsent : ((n.setPeer 2 (askedPeer t)).peers 2).sent = [[0, 6], [t.code ^^^ 1]] := by
    rw [setPeer_peers, if_pos rfl]
    rfl
  rw [Net.toServer, hsent, show (n.setPeer 2 (askedPeer t)).taken 2 = 2 from hk.taken]
  rfl

/-- The request is answered. -/
theorem exists_served (hcsp : env.csp = .oneByte) (hk : n.KeyAnswered env os)
    (hr : ((netMachine env).restrict ok).Reachable (n.setPeer 2 (askedPeer t)))
    {written : List UInt8}
    (hhandler : ∀ buf : Buffer bufSize, buf.get 0 = t.code → env.handler t buf os = some written)
    (hfits : (written.takeWhile (· != 0)).length ≤ bufSize) (hmark : t.code ^^^ 1 ≠ 0)
    (hok : ExchangeOk ok (n.setPeer 2 (askedPeer t)) 1 [t.code ^^^ 1] os) :
    ∃ n' buf, ((netMachine env).restrict ok).Reachable n' ∧ buf.get 0 = t.code ∧
      Exchanged 1 [t.code ^^^ 1]
        ((Csp.oneByte.keystream 1).apply (written.takeWhile (· != 0))) [⟨buf, os⟩]
        (n.setPeer 2 (askedPeer t)) n' := by
  have hsock : (n.world.srv.gCtxs 1).socket = 2 := by
    rw [hk.others.srv.socket, World.connected_ctx]
  have hlen : [t.code ^^^ 1].length ≤ bufSize := show 1 ≤ bufSize by decide
  obtain ⟨_, hhas, hbut, _⟩ := hk.reads.receives env (List.cons_ne_nil (t.code ^^^ 1) []) hlen
  obtain ⟨c, hc⟩ : ∃ c, c = ((n.world.receives 1 [t.code ^^^ 1]).srv.gCtxs 1).count
    ([t.code ^^^ 1] : List UInt8).length := ⟨_, rfl⟩
  have hkey : env.csp.keyOf c.key = some (Csp.oneByte.keystream 1) := by
    rw [hc, World.receives_ctx, ClientCtx.count_key, hcsp, show (n.world.srv.gCtxs 1).key = 1 from
      hk.key]
    rfl
  have hfirst : (c.plainBuf (Csp.oneByte.keystream 1)).get 0 = t.code := by
    have hholds : Holds c [t.code ^^^ 1] := hc ▸ hhas.holds
    rw [hholds.plainBuf_get_zero]
    show t.code ^^^ 1 ^^^ 1 = t.code
    rw [UInt8.xor_assoc, UInt8.xor_self, UInt8.xor_zero]
  have hwritten : c.written env (Csp.oneByte.keystream 1) t os = written := by
    rw [ClientCtx.written, hhandler _ hfirst, Option.getD_some]
  have htext : c.replyText env (Csp.oneByte.keystream 1) t os = written.takeWhile (· != 0) := by
    rw [ClientCtx.replyText, hwritten]
  have hacc : MsgAccepted env c (Csp.oneByte.keystream 1) t os := by
    refine ⟨hkey, by rw [hfirst, RequestType.ofByte_code], ?_, by rw [htext]; exact hfits⟩
    rw [hhandler _ hfirst]
    rfl
  rw [hc] at hacc htext
  obtain ⟨w, hstep, hsends, hbut', hrecords⟩ :=
    hhas.answersMsg (by rw [List.head?_cons]; exact fun h => hmark (Option.some.inj h)) hacc
  rw [htext] at hsends hrecords
  obtain ⟨n', hr', hex, _⟩ := exchange hr hk.reads
    (by rw [show ((n.setPeer 2 (askedPeer t)).world.srv.gCtxs 1).socket = 2 from hsock]
        exact hk.toServer)
    (List.cons_ne_nil _ _) hlen hstep hsends hbut' hrecords hok
  exact ⟨n', _, hr', hc ▸ hfirst, hex⟩

/-- The client has read the reply. -/
theorem exists_answered (hcsp : env.csp = .oneByte) (hk : n.KeyAnswered env os)
    (hr : ((netMachine env).restrict ok).Reachable (n.setPeer 2 (askedPeer t)))
    {written : List UInt8}
    (hhandler : ∀ buf : Buffer bufSize, buf.get 0 = t.code → env.handler t buf os = some written)
    (hfits : (written.takeWhile (· != 0)).length ≤ bufSize)
    (hspeaks : written.takeWhile (· != 0) ≠ []) (hmark : t.code ^^^ 1 ≠ 0)
    (hok : ExchangeOk ok (n.setPeer 2 (askedPeer t)) 1 [t.code ^^^ 1] os)
    (hreceive : ∀ n' : Net Os, n'.Alone → n'.peers 2 = askedPeer t →
      n'.world.replies 2 =
        [[0, 1], (Csp.oneByte.keystream 1).apply (written.takeWhile (· != 0))] →
      ok n' (.receive 2 ((Csp.oneByte.keystream 1).apply (written.takeWhile (· != 0))))) :
    ∃ n', ((netMachine env).restrict ok).Reachable n' ∧
      n'.Answered t (written.takeWhile (· != 0)) os := by
  obtain ⟨n₁, buf, hr₁, hbuf, hex⟩ := exists_served hcsp hk hr hhandler hfits hmark hok
  generalize written.takeWhile (· != 0) = text at *
  obtain ⟨cipher, hcipher⟩ : ∃ cipher, cipher = (Csp.oneByte.keystream 1).apply text := ⟨_, rfl⟩
  rw [← hcipher] at hex hreceive
  have hsock : ((n.setPeer 2 (askedPeer t)).world.srv.gCtxs 1).socket = 2 := by
    rw [show (n.setPeer 2 (askedPeer t)).world = n.world from rfl, hk.others.srv.socket,
      World.connected_ctx]
  have hwire := hex.wire
  have hpackets := hex.packets
  have hreplies := hex.replies
  have hhandled := hex.handled
  rw [hsock] at hwire hpackets hreplies hhandled
  rw [show (n.setPeer 2 (askedPeer t)).world = n.world from rfl] at hwire hpackets hreplies hhandled
  rw [hk.wire, hcsp] at hwire
  rw [hk.packets] at hpackets
  rw [hk.replies, hcsp] at hreplies
  rw [hk.handled] at hhandled
  have hpeer : n₁.peers 2 = askedPeer t := by rw [hex.peers, setPeer_peers, if_pos rfl]
  have halone : n₁.Alone := fun d hd => by
    rw [hex.peers]
    exact hk.alone.setPeer _ d hd
  have hclient : n₁.toClient 2 = cipher := by
    rw [toClient, hpeer, hwire]
    rfl
  have hlen : cipher.length ≤ clientBufSize := by
    rw [hcipher, KeyStream.length_apply]
    exact hfits.trans (by decide)
  have hne : cipher ≠ [] := by
    rw [hcipher, ne_eq, KeyStream.apply_eq_nil_iff]
    exact hspeaks
  have hs : Step env n₁ (.receive 2 cipher) (n₁.setPeer 2 ((n₁.peers 2).receive env.csp cipher)) :=
    .receive (.inr (by rw [hpeer]; rfl)) hne hlen (by rw [hclient])
  have hprinted : (n₁.peers 2).receive env.csp cipher = answeredPeer t text := by
    have hdecrypt : (askedPeer t).client.decryptMsg cipher = some text := by
      rw [Client.decryptMsg, hcipher]
      exact congrArg some (KeyStream.apply_apply _ text)
    rw [hpeer, Peer.receive, if_neg (show ¬ (askedPeer t).phase = .keySent by
      rw [show (askedPeer t).phase = .requested from rfl]; decide), Peer.takeText]
    rw [show ({ askedPeer t with got := (askedPeer t).got ++ [cipher] } : Peer).client.decryptMsg
      cipher = some text from hdecrypt, hcipher]
    rfl
  rw [hprinted] at hs
  refine ⟨_, .step hr₁ ⟨hreceive n₁ halone hpeer hreplies, hs⟩, ?_, hpackets,
    hcipher ▸ hreplies, buf, hbuf, hhandled⟩
  rw [setPeer_peers, if_pos rfl]

/-- The steps of the first client's session meet a condition. -/
structure FirstOk (env : Env Os) (os : Os) (ok : Net Os → NetEvent Os → Prop) (t : RequestType)
    (text : List UInt8) : Prop where
  connect : ok sample (.connect 0)
  accept : ok sampleConnecting (.dequeue 0 0 (.allYes os))
  sendKey : ok (sampleConnected os) (.sendKey 2)
  key : ExchangeOk ok (sampleKeySent os) 1 [0, 6] os
  takeKey : ∀ n : Net Os, n.KeyAnswered env os → ok n (.receive 2 [0, 1])
  request : ∀ n : Net Os, n.KeyAnswered env os → ok (n.setPeer 2 keyedPeer) (.request 2 t [])
  answer : ∀ n : Net Os, n.KeyAnswered env os →
    ExchangeOk ok (n.setPeer 2 (askedPeer t)) 1 [t.code ^^^ 1] os
  takeText : ∀ n : Net Os, n.Alone → n.peers 2 = askedPeer t →
    n.world.replies 2 = [[0, 1], (Csp.oneByte.keystream 1).apply text] →
    ok n (.receive 2 ((Csp.oneByte.keystream 1).apply text))

/-- **The first client's session**: the key packet and the first request are answered, and the
client has printed the text. -/
theorem exists_firstAnswered (env : Env Os) (os : Os) (t : RequestType) (written : List UInt8)
    (hcsp : env.csp = .oneByte) (ht : t.takesPath = false) (hmark : t.code ^^^ 1 ≠ 0)
    (hhandler : ∀ buf : Buffer bufSize, buf.get 0 = t.code → env.handler t buf os = some written)
    (hfits : (written.takeWhile (· != 0)).length ≤ bufSize)
    (hspeaks : written.takeWhile (· != 0) ≠ [])
    (hok : FirstOk env os ok t (written.takeWhile (· != 0))) :
    ∃ n, ((netMachine env).restrict ok).Reachable n ∧
      n.Answered t (written.takeWhile (· != 0)) os := by
  have hwf : env.csp.wellFormed [6] = true := by rw [hcsp]; rfl
  have hblob : (env.csp.simpleBlob 1 [6]).length < bufSize := by
    rw [hcsp]
    exact show 1 < bufSize by decide
  obtain ⟨n, hr, hk⟩ := exists_keyAnswered hwf hblob
    (reachable_sampleKeySent hwf os hok.connect hok.accept hok.sendKey) hok.key
  exact exists_answered hcsp hk
    (reachable_asked hcsp hr hk ht (hok.takeKey n hk) (hok.request n hk)) hhandler hfits hspeaks
    hmark (hok.answer n hk) hok.takeText

end FirstRequest

end Net

end Tcp
end BsitLabs
