import BsitLabs.Tcp.Serving
import Mathlib.Order.Interval.Finset.Nat

/-!
# What is delivered to the clients

The bytes that leave for a client are a zero and its session blob, and then the texts
of its own requests, enciphered under the key generated for its own connection: in
order, whatever the other connections do and however the sends are split
(`delivered_of_orderly`).  This needs a slot for every connection, so it is about runs
in which the server holds at most 99.

The number that counts is what the server holds, not how many clients are running.  A
client that has exited keeps its slot until the server has noticed, and a server full
of such slots closes the connection of a client that has just connected
(`not_delivered_while_slots_linger`).
-/

namespace BsitLabs
namespace Tcp

open MachineInt Transition

variable {Os : Type} {env : Env Os}

/-- The server waits for a packet of the connection, and has taken all that its client
has sent. -/
def Net.Idle (n : Net Os) (c : ℕ) : Prop :=
  n.toServer c = [] ∧ ∃ i o, i ≠ 0 ∧ (n.world.srv.gCtxs i).socket = c ∧ o ∈ n.world.pending i ∧
    o.block = .recv ∧ o.status = .posted

/-- What has been delivered on a connection with a key: the replies with these texts. -/
structure Deliveries (env : Env Os) (n : Net Os) (c key : ℕ) (texts : List (List UInt8)) :
    Prop where
  /-- The key was generated for this connection. -/
  owner : key ≠ 0 ∧ n.world.srv.handles.keys[key - 1]? = some c
  /-- The replies that have been formed for the connection are the session blob and the texts. -/
  replies : n.world.replies c = env.csp.replies key (n.peers c).client.publicKey texts
  /-- Each text was formed when a request of the connection was handled. -/
  handled : texts.length = (n.world.handled c).length
  /-- They were the client's own requests, in order, and the texts are what their handlers have
  made of what they were given. -/
  formed : List.Forall₂ (IsTextOf env) ((n.peers c).requests.zip (n.world.handled c)) texts
  /-- What has left is the replies, as far as it goes. -/
  left : n.world.wire c <+: (env.csp.replies key (n.peers c).client.publicKey texts).flatten
  /-- What the client has received is the replies, as far as it goes. -/
  received : (n.peers c).got <+: env.csp.replies key (n.peers c).client.publicKey texts
  /-- A client that is not waiting has received the reply to each of its requests. -/
  complete : (n.peers c).phase = .menu ∨ (n.peers c).phase = .exited →
    texts.length = (n.peers c).requests.length ∧
      (n.peers c).got = env.csp.replies key (n.peers c).client.publicKey texts
  /-- When nothing is on the way, the reply to each request has left. -/
  settled : n.Idle c → texts.length = (n.peers c).requests.length ∧
    n.world.wire c = (env.csp.replies key (n.peers c).client.publicKey texts).flatten

/-- What the client of the connection `c` is to receive is delivered. -/
structure Delivered (env : Env Os) (n : Net Os) (c : ℕ) : Prop where
  /-- No assertion has ended the server. -/
  running : n.world.fault = none
  /-- The server closes a connection only when its client has. -/
  kept : c ∈ n.world.srv.handles.closed → (n.peers c).phase = .exited
  /-- Nothing has left before the connection has a key, and then the replies. -/
  bytes : (c ∉ n.world.srv.handles.keys ∧ n.world.wire c = [] ∧ (n.peers c).got = [] ∧
      (n.peers c).requests = [] ∧ (n.Idle c → (n.peers c).sent = [])) ∨
    ∃ key texts, Deliveries env n c key texts

/-- A beginning that flattens to everything is everything, if nothing is empty. -/
theorem eq_of_flatten_drop {α : Type} {l s : List (List α)} (h : l <+: s) (hne : ∀ x ∈ s, x ≠ [])
    (hdrop : s.flatten.drop l.flatten.length = []) : l = s := by
  obtain ⟨rest, rfl⟩ := h
  rw [List.flatten_append, List.drop_left, List.flatten_eq_nil_iff] at hdrop
  cases rest with
  | nil => rw [List.append_nil]
  | cons x xs => exact absurd (hdrop x (by simp)) (hne x (by simp))

/-- No packet of a session is empty. -/
theorem Csp.packets_ne_nil (csp : Csp) (key : ℕ) (pub : List UInt8)
    (requests : List (RequestType × List UInt8)) : ∀ x ∈ csp.packets key pub requests, x ≠ [] := by
  intro x hx
  rw [Csp.packets, List.mem_cons, List.mem_map] at hx
  rcases hx with rfl | ⟨r, _, rfl⟩
  · exact List.cons_ne_nil _ _
  · rw [ne_eq, KeyStream.apply_eq_nil_iff]
    exact r.1.plain_ne_nil r.2

/-- No key has been generated for a connection without one. -/
theorem not_mem_of_keyHandle_eq_none {keys : List ℕ} {c : ℕ} (h : keyHandle keys c = none) :
    c ∉ keys := by
  intro hmem
  rw [keyHandle, Option.map_eq_none_iff, List.findIdx?_eq_none_iff] at h
  simpa using h c hmem

/-- A slot that waits, with all taken, has acted on all packets and sent all replies. -/
theorem DeliveryOk.idle {n : Net Os} (h : DeliveryOk env n) (hok : SessionOk env n)
    (hg : Good n.world) {c : ℕ} (hidle : n.Idle c) (hne : ∀ x ∈ (n.peers c).sent, x ≠ []) :
    n.world.packets c = (n.peers c).sent ∧ n.world.wire c = (n.world.replies c).flatten := by
  obtain ⟨hnone, i, o, hi, rfl, ho, hb, hst⟩ := hidle
  obtain ⟨k, hk⟩ := List.mem_iff_getElem?.mp ho
  obtain ⟨_, _, _, hl⟩ := h.op hg hi hk
  have htaken := hl.taken
  have hdelivered := hl.delivered
  simp only [unacted, hb, hst, Status.transferred, Nat.add_zero] at htaken
  simp only [unsent, hb, List.append_nil] at hdelivered
  refine ⟨eq_of_flatten_drop (hok.packets _) hne ?_, hdelivered⟩
  rw [← htaken]
  exact hnone

/-- **What holds of the sessions is what the clients are to receive.** -/
theorem DeliveryOk.delivered {n : Net Os} (h : DeliveryOk env n) (hok : SessionOk env n)
    (hg : Good n.world) (c : ℕ) : Delivered env n c := by
  refine ⟨h.running, h.closed c, ?_⟩
  have hsession := h.session c
  have hwire := h.wire c
  have hgot := hok.replies c
  have hidle := h.idle hok hg (c := c)
  generalize hhandle : keyHandle n.world.srv.handles.keys c = handle at hsession
  generalize hpackets : (n.world.packets c).length = m at hsession
  generalize hreplies : n.world.replies c = replies at hsession hwire hgot hidle
  generalize hhandled : n.world.handled c = handled at hsession
  cases hsession with
  | silent _ hsent hrequests _ =>
    exact .inl ⟨not_mem_of_keyHandle_eq_none hhandle, List.prefix_nil.mp hwire,
      List.prefix_nil.mp hgot, hrequests, fun _ => hsent⟩
  | asked _ hsent hrequests =>
    refine .inl ⟨not_mem_of_keyHandle_eq_none hhandle, List.prefix_nil.mp hwire,
      List.prefix_nil.mp hgot, hrequests, fun hi => ?_⟩
    rw [← (hidle hi (by simp [hsent])).1]
    exact List.length_eq_zero_iff.mp hpackets
  | @keyed key texts _ hk =>
    refine .inr ⟨key, texts, keyHandle_eq_some hhandle, hreplies, hhandled ▸ hk.length_texts,
      hhandled ▸ hk.formed, hwire, hgot, fun hphase => ?_, fun hi => ?_⟩
    · have hlen : (n.peers c).got.length = (n.peers c).requests.length + 1 := by
        rcases hk.phase with ⟨hx, _⟩ | ⟨hx, _⟩ | ⟨_, hlen⟩
        · simp [hx] at hphase
        · simp [hx] at hphase
        · exact hlen
      have hrep : (env.csp.replies key (n.peers c).client.publicKey texts).length =
          texts.length + 1 := by simp [Csp.replies]
      have hle := hgot.length_le
      have hanswered := hk.answered
      rw [← hk.length_texts] at hanswered
      exact ⟨by omega, hgot.eq_of_length (by omega)⟩
    · obtain ⟨hall, hflat⟩ := hidle hi (hk.sent ▸ env.csp.packets_ne_nil key _ _)
      refine ⟨?_, hflat⟩
      rw [hall, hk.sent] at hpackets
      simpa [Csp.packets] using hpackets.symm

/-- What holds in an orderly run. -/
theorem deliveryOk_reachable (hlaw : env.csp.Lawful) (htext : env.Texts) {n : Net Os}
    (h : ((netMachine env).restrict (Orderly Net.Held)).Reachable n) :
    SessionOk env n ∧ DeliveryOk env n :=
  h.invariant (M := (netMachine env).restrict (Orderly Net.Held))
    (P := fun n => SessionOk env n ∧ DeliveryOk env n)
    (fun _ hi => ⟨sessionOk_initial hi, deliveryOk_initial hi⟩)
    fun _ _ _ hr hp hs =>
      ⟨sessionOk_step (good_of_net hr.of_restrict) hp.1 hs.1.whole hs.2,
        deliveryOk_step hlaw htext (good_of_net hr.of_restrict) hp.1 hp.2 hs.1 hs.2⟩

/-- **Every client receives what it is to receive**, in every orderly run in which the
server never holds more than 99 connections. -/
theorem delivered_of_orderly (env : Env Os) (hlaw : env.csp.Lawful) (htext : env.Texts) {n : Net Os}
    (h : ((netMachine env).restrict (Orderly Net.Held)).Reachable n) (c : ℕ) :
    Delivered env n c := by
  obtain ⟨hok, hdelivery⟩ := deliveryOk_reachable hlaw htext h
  exact hdelivery.delivered hok (good_of_net h.of_restrict) c

/-! ## The first client's session -/

theorem Env.sample_texts : Env.sample.Texts := fun _ _ _ hslice =>
  ⟨[79, 75], ⟨hslice, rfl⟩, List.cons_ne_nil _ _, show 2 < bufSize by decide⟩

/-- There is room while one client only has connected. -/
theorem atMost99_of_one {live : ℕ → Prop} {c : ℕ} (h : ∀ d, live d → d = c) : AtMost99 live := by
  intro S hS
  have hsub : S ⊆ {c} := fun d hd => Finset.mem_singleton.mpr (h d (hS d hd))
  have hcard := Finset.card_le_card hsub
  rw [Finset.card_singleton] at hcard
  omega

namespace Net

theorem Alone.atMost99 {n : Net Os} (h : n.Alone) {live : ℕ → Prop}
    (hlive : ∀ d, live d → (n.peers d).phase ≠ .absent) : AtMost99 live :=
  atMost99_of_one fun d hd => by
    by_contra hne
    exact hlive d hd (congrArg Peer.phase (h d hne))

/-- An exchange in which nothing is cut is orderly, if there is room. -/
theorem ExchangeOk.orderly {live : Net Os → ℕ → Prop} {n : Net Os} {i : Slot}
    {packet : List UInt8} {os : Os} (h : ExchangeOk Whole n i packet os)
    (hroom : ∀ n' : Net Os, n'.peers = n.peers → AtMost99 (live n')) :
    ExchangeOk (Orderly live) n i packet os where
  received := ⟨h.received, trivial, hroom n rfl⟩
  dequeue := ⟨h.dequeue, trivial, hroom _ rfl⟩
  sent n₁ m hpeers := ⟨h.sent n₁ m hpeers, trivial, hroom n₁ hpeers⟩
  again n₁ hpeers hops := ⟨h.again n₁ hpeers hops, trivial, hroom n₁ hpeers⟩

/-- The first client's session is orderly. -/
theorem firstOk_orderly {os : Os} (live : Net Os → ℕ → Prop) (hcsp : env.csp = .oneByte)
    {t : RequestType} (ht : t.takesPath = false) (hmark : t.code ^^^ 1 ≠ 0) (text : List UInt8)
    (hlive : ∀ n d, live n d → (n.peers d).phase ≠ .absent) :
    FirstOk env os (Orderly live) t text := by
  have hw : FirstOk env os Whole t text := firstOk_whole hcsp t text
  have hroom : ∀ {n : Net Os}, n.Alone → AtMost99 (live n) := fun {n} h => h.atMost99 (hlive n)
  have hsame : ∀ {n n' : Net Os}, n.Alone → n'.peers = n.peers → AtMost99 (live n') :=
    fun h hpeers => hroom fun d hd => by rw [hpeers]; exact h d hd
  refine ⟨⟨hw.connect, trivial, hroom alone_sample⟩,
    ⟨hw.accept, trivial, hroom alone_sampleConnecting⟩,
    ⟨hw.sendKey, trivial, hroom (alone_sampleConnected os)⟩,
    hw.key.orderly fun _ => hsame (alone_sampleKeySent os),
    fun n hk => ⟨hw.takeKey n hk, trivial, hroom hk.alone⟩,
    fun n hk => ⟨hw.request n hk, fun packet hform => ?_, hroom (hk.alone.setPeer _)⟩,
    fun n hk => (hw.answer n hk).orderly fun _ => hsame (hk.alone.setPeer _),
    fun n halone hpeer hreplies => ⟨hw.takeText n halone hpeer hreplies, trivial, hroom halone⟩⟩
  rw [setPeer_peers, if_pos rfl, requestFormation_keyedPeer ht] at hform
  obtain rfl := Option.some.inj hform
  rw [List.head?_cons]
  exact fun h => hmark (Option.some.inj h)

end Net

/-- The first client has received its key and the answer to its request. -/
theorem delivered_of_orderly_sample :
    ∃ n : Net Unit, n.Answered .currentTime [79, 75] () ∧ Delivered Env.sample n 2 := by
  obtain ⟨n, hr, hanswered⟩ := Net.exists_firstAnswered Env.sample () .currentTime [79, 75] rfl rfl
    (by decide) (fun _ _ => rfl) (by decide) (by decide)
    (Net.firstOk_orderly Net.Held rfl rfl (by decide) _ fun _ _ hheld => hheld.1)
  exact ⟨n, hanswered, delivered_of_orderly Env.sample Csp.oneByte_lawful Env.sample_texts hr 2⟩

/-! ## Slots that linger

A client that has exited keeps its slot until the server has dequeued the completion
of its receive.  Here the first client exits and the server does not come to see it,
while further clients connect: one slot goes to each of them, and the ninety-ninth
finds none. -/

namespace Net

/-- The client is running. -/
def Live (n : Net Os) (c : ℕ) : Prop :=
  (n.peers c).phase ≠ .absent ∧ (n.peers c).phase.gone = false

/-- The first `k` connections have been made and hold a slot each, but the first client
has exited. -/
structure Crowd (k : ℕ) (n : Net Os) : Prop where
  running : n.world.fault = none
  accept : ∃ o, n.world.pending 0 = [o] ∧ o.status = .posted
  latest : n.world.srv.gAcceptedSocket = k + 2
  exited : (n.peers 2).phase = .exited
  present : ∀ c, (n.peers c).phase ≠ .absent → 2 ≤ c ∧ c < k + 2
  held : ∃ F : Finset Slot, F.card = k ∧
    ∀ i ∈ F, i ≠ 0 ∧ i.val < maxClients ∧ (n.world.srv.gCtxs i).socket ≠ 0

/-- Running are the connected clients but the first. -/
theorem atMost99_of_present {n : Net Os} {k : ℕ} (hk : k ≤ 100)
    (hexit : (n.peers 2).phase = .exited)
    (hpresent : ∀ c, (n.peers c).phase ≠ .absent → 2 ≤ c ∧ c < k + 2) : AtMost99 n.Live := by
  intro S hS
  have hsub : S ⊆ Finset.Ico 3 (k + 2) := by
    intro c hc
    obtain ⟨hpres, hgone⟩ := hS c hc
    obtain ⟨hlow, hhigh⟩ := hpresent c hpres
    have hne : c ≠ 2 := by
      rintro rfl
      rw [hexit] at hgone
      simp [Phase.gone] at hgone
    rw [Finset.mem_Ico]
    omega
  have hcard := Finset.card_le_card hsub
  rw [Nat.card_Ico] at hcard
  omega

/-- The searched slots are at most 99. -/
theorem Crowd.le {k : ℕ} {n : Net Os} (h : Crowd k n) : k ≤ 99 := by
  obtain ⟨F, hcard, hF⟩ := h.held
  have hsub : F ⊆ Finset.univ.image clientSlot := by
    intro i hi
    obtain ⟨hne, hlt, _⟩ := hF i hi
    have hpos : i.val ≠ 0 := fun hz => hne (Fin.ext hz)
    have hmax : maxClients = 100 := rfl
    refine Finset.mem_image.mpr ⟨⟨i.val - 1, by omega⟩, Finset.mem_univ _, Fin.ext ?_⟩
    show i.val - 1 + 1 = i.val
    omega
  have hle := (Finset.card_le_card hsub).trans Finset.card_image_le
  rwa [hcard, Finset.card_univ, Fintype.card_fin] at hle

/-- One more orderly step. -/
theorem reachable_of_step {n n' : Net Unit} {e : NetEvent Unit}
    (hr : ((netMachine Env.sample).restrict (Orderly Live)).Reachable n)
    (hs : Step Env.sample n e n') (hwhole : Whole n e) (hrecognisable : Recognisable n e)
    (hroom : AtMost99 n.Live) :
    ((netMachine Env.sample).restrict (Orderly Live)).Reachable n' :=
  hr.step (M := (netMachine Env.sample).restrict (Orderly Live))
    ⟨⟨hwhole, hrecognisable, hroom⟩, hs⟩

/-- The next client has connected, and the server has not dequeued the accept. -/
structure Connecting (k : ℕ) (n n₁ : Net Os) : Prop where
  running : n₁.world.fault = none
  srv : n₁.world.srv = n.world.srv
  accept : ∃ o, n₁.world.pending 0 = [o] ∧ o.status = .done 0
  exited : (n₁.peers 2).phase = .exited
  present : ∀ c, (n₁.peers c).phase ≠ .absent → 2 ≤ c ∧ c < k + 1 + 2
  newcomer : (n₁.peers (k + 2)).phase = .connected

/-- One more client connects. -/
theorem Crowd.connects {k : ℕ} {n : Net Unit} (h : Crowd k n)
    (hr : ((netMachine Env.sample).restrict (Orderly Live)).Reachable n) :
    ∃ n₁, ((netMachine Env.sample).restrict (Orderly Live)).Reachable n₁ ∧ Connecting k n n₁ := by
  have hk := h.le
  obtain ⟨o, hops, hst⟩ := h.accept
  have habsent : (n.peers (k + 2)).phase = .absent := by
    by_contra hne
    have hlt := (h.present _ hne).2
    omega
  have hget : (n.world.pending 0)[0]? = some o := by
    rw [hops]
    rfl
  have hs : Step Env.sample n (.connect 0) _ :=
    .connect (.accepted h.running hget hst) (by rw [h.latest]; exact habsent)
  rw [hops, List.set_cons_zero, h.latest] at hs
  obtain ⟨n₁, hn₁⟩ : ∃ n₁, n₁ = ({ n with
    world := n.world.setPending 0 [{ o with status := .done 0 }] } : Net Unit).setPeer (k + 2)
      { n.peers (k + 2) with phase := .connected } := ⟨_, rfl⟩
  rw [← hn₁] at hs
  have hpeers : ∀ c, n₁.peers c = if c = k + 2 then { n.peers (k + 2) with phase := .connected }
      else n.peers c := fun c => by
    rw [hn₁, setPeer_peers]
  have hpos : k ≠ 0 := by
    rintro rfl
    have hlt := (h.present 2 (by rw [h.exited]; simp)).2
    omega
  refine ⟨n₁, reachable_of_step hr hs trivial trivial
    (atMost99_of_present (by omega) h.exited h.present), by rw [hn₁]; exact h.running,
    by rw [hn₁]; rfl, ⟨{ o with status := .done 0 }, ?_, rfl⟩, ?_, fun c hc => ?_, ?_⟩
  · rw [hn₁]
    exact World.setPending_pending_self _ _ _
  · rw [hpeers, if_neg (by omega)]
    exact h.exited
  · rw [hpeers] at hc
    split at hc
    · omega
    · have hrange := h.present c hc
      omega
  · rw [hpeers, if_pos rfl]

/-- One more client connects, and gets a slot or is turned away. -/
theorem Crowd.more {k : ℕ} {n : Net Unit} (h : Crowd k n)
    (hr : ((netMachine Env.sample).restrict (Orderly Live)).Reachable n) :
    ∃ n', ((netMachine Env.sample).restrict (Orderly Live)).Reachable n' ∧
      (Crowd (k + 1) n' ∨ ∃ c ∈ n'.world.srv.handles.closed, (n'.peers c).phase = .connected) := by
  have hk := h.le
  obtain ⟨n₁, hr₁, hc⟩ := h.connects hr
  obtain ⟨o, hops, hst⟩ := hc.accept
  have hg := good_of_net hr₁.of_restrict
  have hget : (n₁.world.pending 0)[0]? = some o := by
    rw [hops]
    rfl
  obtain ⟨w, hw⟩ : ∃ w, World.Step Env.sample n₁.world (.dequeue 0 0 (.allYes ())) w :=
    ⟨_, .dequeue hc.running hget hst⟩
  obtain ⟨hslot, _, hrun, hzero⟩ :=
    accepts_of_dequeue hg hget hst (Answers.allYes_succeed ()) hw
  have hs : Step Env.sample n₁ (.dequeue 0 0 (.allYes ())) { n₁ with world := w } :=
    .dequeue hw hget hst (Answers.allYes_succeed ())
  refine ⟨_, reachable_of_step hr₁ hs trivial trivial
    (atMost99_of_present (by omega) hc.exited hc.present), ?_⟩
  rcases hslot with ⟨i, ha⟩ | href
  · refine .inl ⟨hrun, ⟨⟨.recv, (n₁.world.srv.gCtxs 0).socket, 0, 0, .posted⟩, ?_, rfl⟩, ?_,
      hc.exited, hc.present, ?_⟩
    · rw [hzero, hops]
      rfl
    · show w.srv.gAcceptedSocket = k + 1 + 2
      have haccepted := hg.sockets.accepted
      rw [ha.srv]
      show n₁.world.srv.handles.sockets + 1 = k + 1 + 2
      rw [← haccepted, hc.srv, h.latest]
    · obtain ⟨F, hcard, hF⟩ := h.held
      have hfree : (n.world.srv.gCtxs i).socket = 0 := by
        rw [← hc.srv, ha.wasFree]
        rfl
      have hnot : i ∉ F := fun hi => (hF i hi).2.2 hfree
      refine ⟨insert i F, by rw [Finset.card_insert_of_notMem hnot, hcard], fun j hj => ?_⟩
      rcases Finset.mem_insert.mp hj with rfl | hj
      · refine ⟨ha.slot, (findFree_eq_some ha.found).2, ?_⟩
        show (w.srv.gCtxs j).socket ≠ 0
        rw [ha.ctx, hc.srv, h.latest]
        simp
      · obtain ⟨hne, hlt, hsock⟩ := hF j hj
        refine ⟨hne, hlt, ?_⟩
        show (w.srv.gCtxs j).socket ≠ 0
        rw [(ha.others j hne fun hji => hnot (hji ▸ hj)).1, hc.srv]
        exact hsock
  · refine .inr ⟨k + 2, ?_, hc.newcomer⟩
    show k + 2 ∈ w.srv.handles.closed
    rw [href.srv]
    simp [scheduleAccept, hc.srv, h.latest]

/-- The first client has taken its key and exited. -/
theorem exists_crowd_one :
    ∃ n, ((netMachine Env.sample).restrict (Orderly Live)).Reachable n ∧ Crowd 1 n := by
  have hok : FirstOk Env.sample () (Orderly Live) .currentTime [] :=
    firstOk_orderly Live rfl rfl (by decide) _ fun _ _ hlive => hlive.1
  obtain ⟨n, hr, hk⟩ := exists_keyAnswered (show Env.sample.csp.wellFormed [6] = true from rfl)
    (show 1 < bufSize by decide)
    (reachable_sampleKeySent rfl () hok.connect hok.accept hok.sendKey) hok.key
  have hself : (n.setPeer 2 keyedPeer).peers 2 = keyedPeer := by rw [setPeer_peers, if_pos rfl]
  have halone : (n.setPeer 2 keyedPeer).Alone := hk.alone.setPeer _
  have hexit : Step Env.sample (n.setPeer 2 keyedPeer) (.exit 2) _ := .exit (by rw [hself]; rfl)
  have hr' : ((netMachine Env.sample).restrict (Orderly Live)).Reachable
      (n.setPeer 2 keyedPeer) := .step hr ⟨hok.takeKey n hk, hk.step_takeKey rfl⟩
  refine ⟨_, reachable_of_step hr' hexit trivial trivial (halone.atMost99 fun _ hlive => hlive.1),
    hk.reads.running, ⟨⟨.recv, 1, 0, 0, .posted⟩, ?_, rfl⟩, ?_, ?_, fun c hc => ?_,
    ⟨{1}, rfl, fun i hi => ?_⟩⟩
  · exact (hk.others.pending 0 (by decide)).trans (World.connected_pending_zero ())
  · exact hk.others.srv.accepted.trans (World.connected_accepted ())
  · rw [setPeer_peers, if_pos rfl]
  · by_contra hne
    refine hc (congrArg Peer.phase (halone.setPeer _ c ?_))
    omega
  · obtain rfl := Finset.mem_singleton.mp hi
    have hsock : (n.world.srv.gCtxs 1).socket = 2 := by
      rw [hk.others.srv.socket, World.connected_ctx]
    refine ⟨by decide, by decide, ?_⟩
    show (n.world.srv.gCtxs 1).socket ≠ 0
    rw [hsock]
    simp

end Net

/-- **With at most 99 clients running, one that has just connected may be turned away.** -/
theorem not_delivered_while_slots_linger :
    ¬ ∀ n, ((netMachine Env.sample).restrict (Orderly Net.Live)).Reachable n →
      ∀ c, Delivered Env.sample n c := by
  intro hall
  have hcrowd : ∀ k, ∃ n, ((netMachine Env.sample).restrict (Orderly Net.Live)).Reachable n ∧
      Net.Crowd (k + 1) n := by
    intro k
    induction k with
    | zero => exact Net.exists_crowd_one
    | succ k ih =>
      obtain ⟨n, hr, hc⟩ := ih
      obtain ⟨n', hr', hc' | ⟨c, hclosed, hphase⟩⟩ := hc.more hr
      · exact ⟨n', hr', hc'⟩
      · have hkept := (hall n' hr' c).kept hclosed
        rw [hphase] at hkept
        simp at hkept
  obtain ⟨n, _, hc⟩ := hcrowd 99
  exact absurd hc.le (by omega)

end Tcp
end BsitLabs
