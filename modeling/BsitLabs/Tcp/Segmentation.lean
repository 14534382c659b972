import BsitLabs.Tcp.Network
import Mathlib.Data.List.Infix

/-!
# What the pieces do to a session

TCP keeps the bytes of a connection in order and nothing else; where one receive ends
and the next begins is not the sender's doing.  Both programs rely on it: the server
acts on whatever a completion brings, and the client takes whatever one `recv`
returns for the whole reply.

`Faithful` is what the programs are meant to do with a connection: the packets acted
on are the packets sent, and the session key and the printed texts are those of the
replies as formed.  It holds in every run in which each receive brings a whole packet
and each `recv` a whole reply (`Whole`), and a single cut packet breaks it.
-/

namespace BsitLabs
namespace Tcp

open MachineInt Transition

variable {Os : Type} {env : Env Os}

/-- A receive brings the whole of the next packet, and a `recv` the whole of the next
reply. -/
def Whole (n : Net Os) : NetEvent Os → Prop
  | .received i k data => data ≠ [] → ∀ o, (n.world.pending i)[k]? = some o →
      (n.peers o.sock).sent[(n.world.packets o.sock).length]? = some data
  | .receive c data => (n.world.replies c)[(n.peers c).got.length]? = some data
  | _ => True

/-- The server acts on the packets the client sent, in order, and the client's session
key and printed texts are those of the replies the server formed, in order. -/
structure Faithful (env : Env Os) (n : Net Os) (c : ℕ) : Prop where
  packets : n.world.packets c <+: (n.peers c).sent
  replies : (n.peers c).got <+: n.world.replies c
  sessionKey : ∀ ks, (n.peers c).client.sessionKey = some ks →
    ∃ r, (n.world.replies c).head? = some r ∧
      (n.peers c).client.setKey env.csp r = some ks
  printed : (n.peers c).printed <+:
    (n.world.replies c).tail.filterMap (n.peers c).client.decryptMsg

/-! ## The client on its own -/

/-- What a client's fields say of what it has received. -/
inductive PeerOk (csp : Csp) (p : Peer) : Prop where
  | fresh (hphase : p.phase = .absent ∨ p.phase = .connected ∨ p.phase = .keySent)
      (hkey : p.client.sessionKey = none) (hgot : p.got = []) (hprinted : p.printed = [])
  | keyed {ks : KeyStream} {r : List UInt8} {rest : List (List UInt8)}
      (hphase : p.phase = .menu ∨ p.phase = .requested ∨ p.phase = .exited)
      (hkey : p.client.sessionKey = some ks) (hgot : p.got = r :: rest)
      (hset : p.client.setKey csp r = some ks) (hprinted : p.printed = rest.map ks.apply)
  | failed (hphase : p.phase = .aborted) (hkey : p.client.sessionKey = none)
      (hprinted : p.printed = [])

/-- What `recv_request` returns is taken for the session key once, and for a text
afterwards. -/
theorem PeerOk.receive {csp : Csp} {p : Peer} (h : PeerOk csp p)
    (hphase : p.phase = .keySent ∨ p.phase = .requested) (data : List UInt8) :
    PeerOk csp (p.receive csp data) := by
  cases h with
  | fresh hph hkey hgot hprinted =>
    have hks : p.phase = .keySent := by
      rcases hphase with h | h
      · exact h
      · rw [h] at hph
        simp at hph
    unfold Peer.receive Peer.takeKey
    rw [if_pos hks]
    cases hset : p.client.setKey csp data with
    | none => exact .failed rfl hkey hprinted
    | some ks =>
      simp only [cryptTest_some, if_true]
      have hgot' : p.got ++ [data] = data :: [] := by rw [hgot, List.nil_append]
      exact .keyed (.inl rfl) rfl hgot' hset hprinted
  | @keyed ks r rest hph hkey hgot hset hprinted =>
    have hreq : p.phase = .requested := by
      rcases hphase with h | h
      · rw [h] at hph
        simp at hph
      · exact h
    unfold Peer.receive Peer.takeText
    rw [if_neg (by simp [hreq])]
    have htext : p.client.decryptMsg data = some (ks.apply data) := by
      simp [Client.decryptMsg, cryptDecrypt, hkey]
    simp only [htext]
    have hgot' : p.got ++ [data] = r :: (rest ++ [data]) := by rw [hgot, List.cons_append]
    exact .keyed (.inl rfl) hkey hgot' hset (by simp [hprinted])
  | failed hph hkey hprinted =>
    rw [hph] at hphase
    simp at hphase

/-- What a client has received is its replies: then so are its key and its texts. -/
theorem PeerOk.faithful {n : Net Os} {c : ℕ} (h : PeerOk env.csp (n.peers c))
    (hpackets : n.world.packets c <+: (n.peers c).sent)
    (hreplies : (n.peers c).got <+: n.world.replies c) : Faithful env n c := by
  refine ⟨hpackets, hreplies, fun ks hks => ?_, ?_⟩
  · cases h with
    | fresh _ hkey _ _ => simp [hkey] at hks
    | failed _ hkey _ => simp [hkey] at hks
    | @keyed ks' r rest _ hkey hgot hset _ =>
      obtain rfl := Option.some.inj (hkey.symm.trans hks)
      rw [hgot] at hreplies
      obtain ⟨later, hlater⟩ := hreplies
      exact ⟨r, by rw [← hlater]; rfl, hset⟩
  · cases h with
    | fresh _ _ _ hprinted =>
      rw [hprinted]
      exact List.nil_prefix
    | failed _ _ hprinted =>
      rw [hprinted]
      exact List.nil_prefix
    | @keyed ks r rest _ hkey hgot hset hprinted =>
      rw [hgot] at hreplies
      obtain ⟨later, hlater⟩ := hreplies
      have hdec : (n.peers c).client.decryptMsg = fun data => some (ks.apply data) := by
        funext data
        simp [Client.decryptMsg, cryptDecrypt, hkey]
      rw [← hlater, hdec, hprinted, List.filterMap_eq_map']
      simp only [List.cons_append, List.tail_cons, List.map_append]
      exact List.prefix_append _ _

/-! ## The packets on their way -/

/-- The packet in a slot's buffer is the client's next. -/
def ArrivedAt (n : Net Os) (i : Slot) : Prop :=
  ∀ (k m : ℕ) (o : Op), (n.world.pending i)[k]? = some o → o.block = .recv →
    o.status = .done m → m ≠ 0 →
      (n.peers (n.world.srv.gCtxs i).socket).sent[
        (n.world.packets (n.world.srv.gCtxs i).socket).length]? =
          some ((n.world.srv.gCtxs i).bufRecv.slice 0 m)

/-- A step that leaves the slot and its connection's packets alone, and lets clients
send more, keeps what has arrived there. -/
theorem ArrivedAt.frame {n n' : Net Os} {i : Slot} (h : ArrivedAt n i)
    (hctx : n'.world.srv.gCtxs i = n.world.srv.gCtxs i)
    (hpend : n'.world.pending i = n.world.pending i)
    (hpackets : n'.world.packets (n.world.srv.gCtxs i).socket =
      n.world.packets (n.world.srv.gCtxs i).socket)
    (hsent : ∀ c, (n.peers c).sent <+: (n'.peers c).sent) : ArrivedAt n' i := by
  intro k m o ho hb hst hm
  rw [hpend] at ho
  rw [hctx, hpackets]
  have hat := h k m o ho hb hst hm
  obtain ⟨later, hlater⟩ := hsent (n.world.srv.gCtxs i).socket
  rw [← hlater, List.getElem?_append_left (List.getElem?_eq_some_iff.mp hat).1]
  exact hat

/-- A slot whose only operation is not a receive that has brought something. -/
theorem arrivedAt_of_ops {n : Net Os} {i : Slot} {ops : List Op} (hops : n.world.pending i = ops)
    (hnot : ∀ o ∈ ops, o.block = .recv → ∀ m, o.status = .done m → m = 0) : ArrivedAt n i := by
  intro k m o ho hb hst hm
  rw [hops] at ho
  exact absurd (hnot o (List.mem_of_getElem? ho) hb m hst) hm

/-- A beginning of a list, with the next element. -/
theorem append_prefix_of_getElem? {α : Type} {l s : List α} {x : α} (h : l <+: s)
    (hx : s[l.length]? = some x) : l ++ [x] <+: s := by
  obtain ⟨hl, rfl⟩ := List.getElem?_eq_some_iff.mp hx
  exact List.concat_get_prefix h hl

/-- What holds of a session whose pieces have all been whole. -/
structure SessionOk (env : Env Os) (n : Net Os) : Prop where
  peers : ∀ c, PeerOk env.csp (n.peers c)
  packets : ∀ c, n.world.packets c <+: (n.peers c).sent
  replies : ∀ c, (n.peers c).got <+: n.world.replies c
  arrived : ∀ i, i ≠ 0 → ArrivedAt n i

theorem sessionOk_initial {n : Net Os} (h : (netMachine env).init n) : SessionOk env n := by
  obtain ⟨hworld, _, pub, buf, _, hpeers⟩ := h
  have hpending : ∀ i, i ≠ 0 → n.world.pending i = [] := fun i hi => by
    simp [hworld, World.initial, hi]
  refine ⟨fun c => ?_, fun c => ?_, fun c => ?_, fun i hi => ?_⟩
  · rw [hpeers]
    exact .fresh (.inl rfl) rfl rfl rfl
  · rw [hworld]
    exact List.nil_prefix
  · rw [hpeers]
    exact List.nil_prefix
  · exact arrivedAt_of_ops (hpending i hi) (by simp)

/-- A client's step keeps the session if the client sends more at most, and receives
replies. -/
theorem SessionOk.setPeer {n : Net Os} (h : SessionOk env n) {c : ℕ} {p : Peer}
    (hp : PeerOk env.csp p) (hsent : (n.peers c).sent <+: p.sent)
    (hgot : p.got <+: n.world.replies c) : SessionOk env (n.setPeer c p) := by
  have hsent' : ∀ d, (n.peers d).sent <+: ((n.setPeer c p).peers d).sent := by
    intro d
    by_cases hd : d = c
    · subst hd
      simpa [Net.setPeer] using hsent
    · simp [Net.setPeer, hd]
  refine ⟨fun d => ?_, fun d => (h.packets d).trans (hsent' d), fun d => ?_,
    fun i hi => (h.arrived i hi).frame rfl rfl rfl hsent'⟩
  · by_cases hd : d = c
    · subst hd
      simpa [Net.setPeer] using hp
    · simpa [Net.setPeer, hd] using h.peers d
  · by_cases hd : d = c
    · subst hd
      simpa [Net.setPeer] using hgot
    · simpa [Net.setPeer, hd] using h.replies d

/-- A server's step keeps the session if it acts on packets that have arrived, and
forms more replies at most. -/
theorem SessionOk.setWorld {n n' : Net Os} (h : SessionOk env n) (hpeers : n'.peers = n.peers)
    (hpackets : ∀ c, n'.world.packets c <+: (n.peers c).sent)
    (hreplies : ∀ c, n.world.replies c <+: n'.world.replies c)
    (harrived : ∀ i, i ≠ 0 → ArrivedAt n' i) : SessionOk env n' where
  peers c := hpeers ▸ h.peers c
  packets c := hpeers ▸ hpackets c
  replies c := hpeers ▸ (h.replies c).trans (hreplies c)
  arrived := harrived

/-- A client slot's iteration keeps the session. -/
theorem SessionOk.iterates {n : Net Os} (h : SessionOk env n) (hg : Good n.world) {i : Slot}
    (hi : i ≠ 0) {k m : ℕ} {o : Op} {ans : Answers Os} {w : World Os}
    (ho : (n.world.pending i)[k]? = some o) (hst : o.status = .done m) (hans : ans.Succeed)
    (hs : World.Step env n.world (.dequeue i k ans) w) :
    SessionOk env { n with world := w } := by
  obtain ⟨honly, hit⟩ := iterates_of_dequeue hg hi ho hst hans hs
  have hrest : ∀ (hpackets : ∀ c, c ≠ (n.world.srv.gCtxs i).socket →
      w.packets c = n.world.packets c) (j : Slot), j ≠ 0 → j ≠ i →
      ArrivedAt { n with world := w } j := by
    intro hpackets j hj hji
    by_cases hsock : (n.world.srv.gCtxs j).socket = 0
    · refine arrivedAt_of_ops ((honly.pending j hji).trans
        ((hg.slots j hj).of_socket_eq_zero hsock).2) (by simp)
    · refine (h.arrived j hj).frame (honly.ctxs j hji) (honly.pending j hji) (hpackets _ ?_)
        fun _ => List.prefix_rfl
      exact fun heq => hji (hg.sockets.injective j i hsock heq)
  have hgrow : o.block = .recv → m ≠ 0 →
      w.packets = World.record n.world.packets (n.world.srv.gCtxs i).socket
        [((n.world.srv.gCtxs i).count m).packet] →
      ∀ c, w.packets c <+: (n.peers c).sent := by
    intro hb hm hpackets c
    rw [hpackets]
    by_cases hc : c = (n.world.srv.gCtxs i).socket
    · rw [hc, World.record_self, (hg.holds hi ho hb hst hm).packet_eq]
      exact append_prefix_of_getElem? (h.packets _) (h.arrived i hi k m o ho hb hst hm)
    · rw [World.record_of_ne _ hc]
      exact h.packets c
  have harrived : (∀ c, c ≠ (n.world.srv.gCtxs i).socket → w.packets c = n.world.packets c) →
      ∀ ops, w.pending i = ops →
      (∀ o ∈ ops, o.block = .recv → ∀ m, o.status = .done m → m = 0) →
      ∀ j, j ≠ 0 → ArrivedAt { n with world := w } j := by
    intro hpackets ops hops hnot j hj
    by_cases hji : j = i
    · rw [hji]
      exact arrivedAt_of_ops hops hnot
    · exact hrest hpackets j hj hji
  have hquiet : n.world.SameRecords w → ∀ ops, w.pending i = ops →
      (∀ o ∈ ops, o.block = .recv → ∀ m, o.status = .done m → m = 0) →
      SessionOk env { n with world := w } := by
    intro hrec ops hops hnot
    refine h.setWorld rfl (fun c => ?_) (fun c => ?_)
      (harrived (fun _ _ => by rw [hrec.packets]) ops hops hnot)
    · rw [hrec.packets]
      exact h.packets c
    · rw [hrec.replies]
  generalize hblock : o.block = b at hit
  cases hit with
  | hangUp hsrv hops hrec hrun => exact hquiet hrec _ hops (by simp)
  | stop hm herr hsrv hops hwire hpackets hreplies hhandled hrun =>
    refine h.setWorld rfl (hgrow hblock hm hpackets) (fun c => ?_)
      (harrived (fun c hc => by rw [hpackets, World.record_of_ne _ hc]) _ hops (by simp))
    rw [hreplies]
  | reply hm hok hops hwire hpackets hreplies hhandled hrun =>
    refine h.setWorld rfl (hgrow hblock hm hpackets) (fun c => ?_)
      (harrived (fun c hc => by rw [hpackets, World.record_of_ne _ hc]) _ hops (by simp))
    rw [hreplies]
    by_cases hc : c = (w.srv.gCtxs i).socket
    · rw [hc, World.record_self]
      exact List.prefix_append _ _
    · rw [World.record_of_ne _ hc]
  | more hmore hsrv hops hrec hrun => exact hquiet hrec _ hops (by simp)
  | last hlast hsrv hops hrec hrun => exact hquiet hrec _ hops (by simp)
  | close hsrv hops hrec hrun => exact hquiet hrec _ hops (by simp)

/-- An iteration with key zero keeps the session. -/
theorem SessionOk.accepts {n : Net Os} (h : SessionOk env n) (hg : Good n.world) {k m : ℕ} {o : Op}
    {ans : Answers Os} {w : World Os} (ho : (n.world.pending 0)[k]? = some o)
    (hst : o.status = .done m) (hans : ans.Succeed)
    (hs : World.Step env n.world (.dequeue 0 k ans) w) :
    SessionOk env { n with world := w } := by
  obtain ⟨hslot, hrec, _, _⟩ := accepts_of_dequeue hg ho hst hans hs
  refine h.setWorld rfl (fun c => ?_) (fun c => ?_) fun j hj => ?_
  · rw [hrec.packets]
    exact h.packets c
  · rw [hrec.replies]
  · have hframe : w.srv.gCtxs j = n.world.srv.gCtxs j ∧ w.pending j = n.world.pending j →
        ArrivedAt { n with world := w } j := fun ⟨hctx, hpend⟩ =>
      (h.arrived j hj).frame hctx hpend (by rw [hrec.packets]) fun _ => List.prefix_rfl
    rcases hslot with ⟨i, ha⟩ | hr
    · by_cases hji : j = i
      · rw [hji]
        refine arrivedAt_of_ops ha.ops ?_
        split <;> simp
      · exact hframe (ha.others j hj hji)
    · exact hframe (hr.others j hj)

/-- **Every step whose piece is whole keeps the session.** -/
theorem sessionOk_step {n n' : Net Os} {e : NetEvent Os} (hg : Good n.world)
    (h : SessionOk env n) (hw : Whole n e) (hs : Net.Step env n e n') : SessionOk env n' := by
  cases hs with
  | @connect k w hs hphase =>
    have hpeer : PeerOk env.csp
        { n.peers n.world.srv.gAcceptedSocket with phase := .connected } := by
      cases h.peers n.world.srv.gAcceptedSocket with
      | fresh _ hkey hgot hprinted => exact .fresh (.inr (.inl rfl)) hkey hgot hprinted
      | keyed hph _ _ _ _ => simp [hphase] at hph
      | failed hph _ _ => simp [hphase] at hph
    cases hs with
    | accepted running ho hst =>
      refine SessionOk.setPeer (n := { n with world := _ }) ?_ hpeer List.prefix_rfl
        (h.replies _)
      exact h.setWorld rfl h.packets (fun _ => List.prefix_rfl) fun i hi =>
        (h.arrived i hi).frame rfl (World.setPending_pending_of_ne _ _ hi _) rfl
          fun _ => List.prefix_rfl
  | @received i k data w o hs ho hdata hend =>
    obtain ⟨hi, rfl, hops, hctx, hlen, honly, hrec, _⟩ := received_leaves hg hs
    refine h.setWorld rfl (fun c => ?_) (fun c => ?_) fun j hj => ?_
    · rw [hrec.packets]
      exact h.packets c
    · rw [hrec.replies]
    · by_cases hji : j = i
      · subst hji
        intro k' m o' ho' _ hst' hm
        rw [hops] at ho'
        obtain rfl := List.mem_singleton.mp (List.mem_of_getElem? ho')
        obtain rfl := Status.done.inj hst'
        have hne : data ≠ [] := fun hnil => hm (by rw [hnil]; rfl)
        have hwhole := hw hne o ho
        rw [((hg.slots j hj).of_getElem? ho).2.2.2.sock] at hwhole
        rw [hctx, hrec.packets, Buffer.slice_write _ rfl (by omega)]
        exact hwhole
      · exact (h.arrived j hj).frame (honly.ctxs j hji) (honly.pending j hji)
          (by rw [hrec.packets]) fun _ => List.prefix_rfl
  | @sent i k m w o hs ho hpos =>
    cases hs with
    | @sent _ _ _ o' running hi ho' hst hb hlen =>
      refine h.setWorld rfl h.packets (fun _ => List.prefix_rfl) fun j hj => ?_
      by_cases hji : j = i
      · subst hji
        refine arrivedAt_of_ops (World.setPending_pending_self _ _ _) ?_
        obtain ⟨hops, rfl, _, _⟩ := (hg.slots j hi).of_getElem? ho'
        simp [hops, hb]
      · exact (h.arrived j hj).frame rfl (World.setPending_pending_of_ne _ _ hji _) rfl
          fun _ => List.prefix_rfl
  | @dequeue i k m ans w o hs ho hst hans =>
    by_cases hi : i = 0
    · subst hi
      exact h.accepts hg ho hst hans hs
    · exact h.iterates hg hi ho hst hans hs
  | @sendKey c packet hphase hform =>
    refine h.setPeer ?_ (List.prefix_append _ _) (h.replies c)
    cases h.peers c with
    | fresh _ hkey hgot hprinted => exact .fresh (.inr (.inr rfl)) hkey hgot hprinted
    | keyed hph _ _ _ _ => simp [hphase] at hph
    | failed hph _ _ => simp [hphase] at hph
  | @request c t arg packet hphase harg hform =>
    refine h.setPeer ?_ (List.prefix_append _ _) (h.replies c)
    cases h.peers c with
    | fresh hph _ _ _ => simp [hphase] at hph
    | keyed _ hkey hgot hset hprinted => exact .keyed (.inr (.inl rfl)) hkey hgot hset hprinted
    | failed hph _ _ => simp [hphase] at hph
  | @receive c data hphase hne hlen hdata =>
    obtain ⟨hgot, hsent, _⟩ := (n.peers c).receive_records env.csp data
    refine h.setPeer ((h.peers c).receive hphase data) ?_ ?_
    · rw [hsent]
    · rw [hgot]
      exact append_prefix_of_getElem? (h.replies c) hw
  | @exit c hphase =>
    refine h.setPeer ?_ List.prefix_rfl (h.replies c)
    cases h.peers c with
    | fresh hph _ _ _ => simp [hphase] at hph
    | keyed _ hkey hgot hset hprinted => exact .keyed (.inr (.inr rfl)) hkey hgot hset hprinted
    | failed hph _ _ => simp [hphase] at hph

/-- **Segmentation**: in every run whose pieces are all whole, the server acts on the
packets the clients sent, and the clients' session keys and printed texts are those of
the replies the server formed. -/
theorem faithful_of_whole (env : Env Os) {n : Net Os}
    (hr : ((netMachine env).restrict Whole).Reachable n) (c : ℕ) : Faithful env n c := by
  have h : SessionOk env n :=
    hr.invariant (M := (netMachine env).restrict Whole) (P := SessionOk env)
      (fun _ hi => sessionOk_initial hi)
      fun m e m' hm hP hs => sessionOk_step (good_of_net hm.of_restrict) hP hs.1 hs.2
  exact (h.peers c).faithful (h.packets c) (h.replies c)

/-- Nothing is cut in the first client's session. -/
theorem Net.firstOk_whole {os : Os} (hcsp : env.csp = .oneByte) (t : RequestType)
    (text : List UInt8) : FirstOk env os Whole t text where
  connect := trivial
  accept := trivial
  sendKey := trivial
  key := by
    refine ⟨fun _ o ho => ?_, trivial, fun _ _ _ => trivial, fun _ _ _ => trivial⟩
    rw [show (sampleKeySent os).world = World.connected os from rfl, World.connected_pending] at ho
    obtain rfl := Option.some.inj ho
    show ((sampleKeySent os).peers 2).sent[((World.connected os).packets 2).length]? = some [0, 6]
    rw [sampleKeySent_peer, (World.connected_records os).2.1]
    rfl
  takeKey n hk := by
    show (n.world.replies 2)[(n.peers 2).got.length]? = some [0, 1]
    rw [hk.replies, hk.peers, sampleKeySent_peer, hcsp]
    rfl
  request _ _ := trivial
  answer n hk := by
    refine ⟨fun _ o ho => ?_, trivial, fun _ _ _ => trivial, fun _ _ _ => trivial⟩
    rw [show (n.setPeer 2 (askedPeer t)).world = n.world from rfl, hk.reads.op,
      hk.others.srv.socket, World.connected_ctx] at ho
    obtain rfl := Option.some.inj ho
    show ((n.setPeer 2 (askedPeer t)).peers 2).sent[(n.world.packets 2).length]? = _
    rw [setPeer_peers, if_pos rfl, hk.packets]
    rfl
  takeText n _ hpeer hreplies := by
    show (n.world.replies 2)[(n.peers 2).got.length]? = _
    rw [hpeer, hreplies]
    rfl

/-- The first client has received its key and the answer to its request, and has printed it. -/
theorem faithful_of_whole_sample :
    ∃ n : Net Unit, n.Answered .currentTime [79, 75] () ∧ Faithful Env.sample n 2 := by
  obtain ⟨n, hr, hanswered⟩ := Net.exists_firstAnswered Env.sample () .currentTime [79, 75] rfl rfl
    (by decide) (fun _ _ => rfl) (by decide) (by decide) (Net.firstOk_whole rfl _ _)
  exact ⟨n, hanswered, faithful_of_whole Env.sample hr 2⟩

/-! ## A single cut breaks it -/

/-- What a `recv` returns keeps the session exactly if it is the whole reply. -/
theorem faithful_receive_iff {n n' : Net Os} {c : ℕ} {data : List UInt8} (hg : Good n.world)
    (h : SessionOk env n) (hs : Net.Step env n (.receive c data) n') :
    Faithful env n' c ↔ Whole n (.receive c data : NetEvent Os) := by
  constructor
  · intro hf
    cases hs with
    | receive hphase hne hlen hdata =>
      obtain ⟨later, hlater⟩ := hf.replies
      have hgot : ((n.setPeer c ((n.peers c).receive env.csp data)).peers c).got =
          (n.peers c).got ++ [data] := by
        simp [Net.setPeer, (n.peers c).receive_records env.csp data]
      have hlist : n.world.replies c = (n.peers c).got ++ data :: later := by
        rw [hgot, List.append_assoc] at hlater
        exact hlater.symm
      show (n.world.replies c)[(n.peers c).got.length]? = some data
      rw [hlist, List.getElem?_append_right le_rfl, Nat.sub_self]
      rfl
  · intro hw
    have h' := sessionOk_step hg h hw hs
    exact (h'.peers c).faithful (h'.packets c) (h'.replies c)

/-- What a receive of the server brings keeps the session, once it is acted on,
exactly if it is the whole packet. -/
theorem faithful_received_iff {n n₁ n₂ : Net Os} {i : Slot} {k : ℕ} {data : List UInt8}
    {ans : Answers Os} {o : Op} (hg : Good n.world) (hg₁ : Good n₁.world) (h : SessionOk env n)
    (ho : (n.world.pending i)[k]? = some o) (hi : i ≠ 0) (hne : data ≠ [])
    (hs₁ : Net.Step env n (.received i k data) n₁)
    (hs₂ : Net.Step env n₁ (.dequeue i k ans) n₂) :
    Faithful env n₂ o.sock ↔ Whole n (.received i k data : NetEvent Os) := by
  constructor
  · intro hf _ o' ho'
    obtain rfl := Option.some.inj (ho.symm.trans ho')
    obtain ⟨_, _, _, hop⟩ := (hg.slots i hi).of_getElem? ho
    have hfinal : n₂.peers = n.peers ∧
        n₂.world.packets = World.record n.world.packets o.sock [data] := by
      cases hs₁ with
      | received hs _ _ _ =>
        cases hs₂ with
        | dequeue hs' _ _ hans =>
          refine ⟨rfl, ?_⟩
          rw [hop.sock]
          exact packets_of_received hg hg₁ hne hs hans hs'
    obtain ⟨later, hlater⟩ := hf.packets
    rw [hfinal.2, hfinal.1, World.record_self, List.append_assoc] at hlater
    rw [← hlater, List.getElem?_append_right le_rfl, Nat.sub_self]
    rfl
  · intro hw
    have hw₂ : Whole n₁ (.dequeue i k ans) := trivial
    have h' := sessionOk_step hg₁ (sessionOk_step hg h hw hs₁) hw₂ hs₂
    exact (h'.peers o.sock).faithful (h'.packets o.sock) (h'.replies o.sock)

/-- The first byte of the key packet arrives on its own, and the server acts on it. -/
theorem not_faithful_of_cut_key : ¬ ∀ n, (netMachine Env.sample).Reachable n →
    ∀ c, Faithful Env.sample n c := by
  intro hall
  have hr₀ : (netMachine Env.sample).Reachable (Net.sampleKeySent ()) :=
    .step (.step (.step (.init (Net.sample_init rfl)) (Net.step_sampleConnecting _))
      (Net.step_sampleConnected _ ())) (Net.step_sampleKeySent _ ())
  obtain ⟨hs₁, hrecv, _, _⟩ := (reads_connected ()).receives Env.sample
    (List.cons_ne_nil 0 []) (by decide)
  have hget :
      ((Net.sampleKeySent ()).world.pending 1)[0]? = some ⟨.recv, 2, 0, bufSize, .posted⟩ := by
    rw [show (Net.sampleKeySent ()).world = World.connected () from rfl, World.connected_pending]
    rfl
  have hn₁ : Net.Step Env.sample (Net.sampleKeySent ()) (.received 1 0 [0]) _ :=
    .received hs₁ hget (by rw [Net.sampleKeySent_toServer]; exact ⟨[6], rfl⟩) (by simp)
  have hs₂ := World.step_dequeue Env.sample (.allYes ()) hrecv.running hrecv.op rfl
  have hn₂ : Net.Step Env.sample _ (.dequeue 1 0 (.allYes ())) _ :=
    .dequeue (n := { Net.sampleKeySent () with
      world := (World.connected ()).receives 1 [0]
      taken :=
        Function.update (Net.sampleKeySent ()).taken 2 ((Net.sampleKeySent ()).taken 2 + 1) })
      hs₂ hrecv.getElem? rfl (Answers.allYes_succeed ())
  have hr₂ := (hr₀.step (M := netMachine Env.sample) hn₁).step (M := netMachine Env.sample) hn₂
  have hprefix := (hall _ hr₂ 2).packets
  obtain ⟨_, hit⟩ := iterates_of_dequeue (good_of_net (hr₀.step (M := netMachine Env.sample) hn₁))
    (by decide) hrecv.getElem? rfl (Answers.allYes_succeed ()) hs₂
  have hsock : (((World.connected ()).receives 1 [0]).srv.gCtxs 1).socket = 2 := by
    rw [World.receives_ctx, World.connected_ctx]
  have hnone : ((World.connected ()).receives 1 [0]).packets = fun _ => [] :=
    (World.connected_records ()).2.1
  rw [hit.packets_recv (by decide), hrecv.holds.packet_eq, hsock, World.record_self,
    hnone] at hprefix
  have hsent : ((Net.sampleKeySent ()).peers 2).sent = [[0, 6]] := by
    rw [Net.sampleKeySent_peer]
    rfl
  rw [hsent] at hprefix
  simp at hprefix

end Tcp
end BsitLabs
