import BsitLabs.Foundation.Rest
import BsitLabs.Tcp.Delivery
import BsitLabs.Tcp.SlotTable
import Mathlib.Algebra.BigOperators.Group.Finset.Basic
import Mathlib.Algebra.Order.BigOperators.Group.Finset

/-!
# What is still to come of the server

Between two steps of its clients the server is on its own (`serverMachine`): it receives, acts
on what it has received, sends and accepts, in whatever order the system lets it.  In an orderly
run every connection that is not closed has its place, in a slot or under the accept (`Placed`),
and what the server can still do for them is counted by `work`: the packets not acted on, and
for each operation the bytes of the reply that have not left.  Every step of the server lowers
it (`work_lt_of_step`).
-/

namespace BsitLabs
namespace Tcp

open MachineInt Transition

variable {Os : Type} {env : Env Os}

/-! ## The turns of the server -/

/-- A step of the server, or of the system for it. -/
def NetEvent.OfServer : NetEvent Os → Prop
  | .received .. | .sent .. | .dequeue .. => True
  | _ => False

/-- The orderly steps of the server. -/
def ServersTurn (n : Net Os) (e : NetEvent Os) : Prop := Orderly Net.Held n e ∧ e.OfServer

/-- The server on its own, while its clients do nothing. -/
def serverMachine (env : Env Os) : Machine (Net Os) (NetEvent Os) :=
  (netMachine env).restrict ServersTurn

/-! ## Every connection has its place -/

/-- What holds of the connections and the operations while no connection is turned away. -/
structure Placed (n : Net Os) : Prop where
  /-- No operation has failed. -/
  intact : ∀ i, ∀ o ∈ n.world.pending i, o.status ≠ .failed
  /-- A connection that is not closed has a slot, or it is the one that has been accepted. -/
  seated : ∀ c, n.Held c → (∃ i, i ≠ 0 ∧ (n.world.srv.gCtxs i).socket = c) ∨
    (c = n.world.srv.gAcceptedSocket ∧ ∃ o ∈ n.world.pending 0, o.status ≠ .posted)
  /-- A client that has connected has a socket at the server. -/
  socket : ∀ c, (n.peers c).phase ≠ .absent → c ≠ 0

theorem Net.setPeer_world (n : Net Os) (c : ℕ) (p : Peer) : (n.setPeer c p).world = n.world := rfl

theorem placed_initial {n : Net Os} (h : (netMachine env).init n) : Placed n := by
  obtain ⟨hworld, _, pub, buf, _, hpeers⟩ := h
  refine ⟨fun i o ho => ?_, fun c hc => ?_, fun c hc => ?_⟩
  · rw [hworld] at ho
    by_cases hi : i = 0
    · subst hi
      obtain rfl := List.mem_singleton.mp (show o ∈ [⟨.recv, 1, 0, 0, .posted⟩] from ho)
      simp
    · simp [World.initial, hi] at ho
  · rw [Net.Held, hpeers] at hc
    exact absurd rfl hc.1
  · rw [hpeers] at hc
    exact absurd rfl hc

/-- A client's step undoes nothing, if the client has connected. -/
theorem Placed.setPeer {n : Net Os} (h : Placed n) {c : ℕ} {p : Peer}
    (hpresent : (n.peers c).phase ≠ .absent) : Placed (n.setPeer c p) := by
  have hback : ∀ d, ((n.setPeer c p).peers d).phase ≠ .absent → (n.peers d).phase ≠ .absent := by
    intro d hd
    by_cases hdc : d = c
    · rw [hdc]
      exact hpresent
    · rwa [Net.setPeer_peers, if_neg hdc] at hd
  exact ⟨h.intact, fun d hd => h.seated d ⟨hback d hd.1, hd.2⟩,
    fun d hd => h.socket d (hback d hd)⟩

/-- A step of the server on a client slot takes a place away only by closing the connection. -/
theorem Placed.of_socketMove {n n' : Net Os} (h : Placed n) (hpeers : n'.peers = n.peers)
    (hzero : n'.world.pending 0 = n.world.pending 0)
    (hintact : ∀ i, ∀ o ∈ n'.world.pending i, o.status ≠ .failed)
    (hmove : SocketMove n.world.srv n'.world.srv) : Placed n' := by
  refine ⟨hintact, fun c hc => ?_, fun c hc => h.socket c (hpeers ▸ hc)⟩
  rw [Net.Held, hpeers] at hc
  cases hmove with
  | same hsock haccepted hclosed =>
    rw [hclosed] at hc
    simp only [hsock, haccepted, hzero]
    exact h.seated c hc
  | left i hi hsock haccepted hclosed =>
    rw [hclosed, List.mem_append, List.mem_singleton, not_or] at hc
    obtain ⟨hpresent, hopen, hne⟩ := hc
    rw [haccepted, hzero]
    refine (h.seated c ⟨hpresent, hopen⟩).imp_left ?_
    rintro ⟨j, hj, rfl⟩
    refine ⟨j, hj, ?_⟩
    rw [hsock, if_neg fun hji => hne (congrArg (fun k => (n.world.srv.gCtxs k).socket) hji)]

/-- The connection that has been accepted gets a slot. -/
theorem Placed.of_acceptMove {n n' : Net Os} (h : Placed n) (hpeers : n'.peers = n.peers)
    (hintact : ∀ i, ∀ o ∈ n'.world.pending i, o.status ≠ .failed)
    (hmove : AcceptMove n.world.srv n'.world.srv) (hfree : findFree n.world.srv ≠ none)
    (hlistener : (n.world.srv.gCtxs 0).socket ≠ 0) : Placed n' := by
  refine ⟨hintact, fun c hc => .inl ?_, fun c hc => h.socket c (hpeers ▸ hc)⟩
  rw [Net.Held, hpeers] at hc
  cases hmove with
  | refused hfull _ _ _ => exact absurd hfull hfree
  | seated i hfound hsock haccepted hclosed =>
    rw [hclosed] at hc
    have hempty := (findFree_eq_some hfound).1
    have hi : i ≠ 0 := fun hi => hlistener (hi ▸ hempty)
    rcases h.seated c hc with ⟨j, hj, hcj⟩ | ⟨rfl, _⟩
    · have hji : j ≠ i := by
        rintro rfl
        exact h.socket c hc.1 (hcj.symm.trans hempty)
      exact ⟨j, hj, by rw [hsock, if_neg hji, hcj]⟩
    · exact ⟨i, hi, by rw [hsock, if_pos rfl]⟩

/-- The operations of the slot that a step of the server has changed. -/
theorem intact_of_slot {w w' : World Os} (h : ∀ j, ∀ o ∈ w.pending j, o.status ≠ .failed) (i : Slot)
    (hothers : ∀ j, j ≠ i → w'.pending j = w.pending j)
    (hslot : ∀ o ∈ w'.pending i, o.status ≠ .failed) :
    ∀ j, ∀ o ∈ w'.pending j, o.status ≠ .failed := by
  intro j
  by_cases hj : j = i
  · rw [hj]
    exact hslot
  · rw [hothers j hj]
    exact h j

/-- An iteration leaves no failed operation. -/
theorem Iterates.intact {ans : Answers Os} {w w' : World Os} {i : Slot} {b : Block} {m : ℕ}
    (h : Iterates env ans w i w' b m) : ∀ o ∈ w'.pending i, o.status ≠ .failed := by
  cases h with
  | hangUp _ hops _ _ => simp [hops]
  | stop _ _ _ hops _ _ _ _ _ => simp [hops]
  | reply _ _ hops _ _ _ _ _ => simp [hops]
  | more _ _ hops _ _ => simp [hops]
  | last _ _ hops _ _ => simp [hops]
  | close _ hops _ _ => simp [hops]

/-- An accept leaves no failed operation. -/
theorem intact_of_accepts {ans : Answers Os} {w w' : World Os}
    (h : ∀ j, ∀ o ∈ w.pending j, o.status ≠ .failed)
    (hslot : (∃ i, Admits ans w w' i) ∨ Refuses w w')
    (hlistener : ∀ o ∈ w'.pending 0, o.status ≠ .failed) :
    ∀ j, ∀ o ∈ w'.pending j, o.status ≠ .failed := by
  rcases hslot with ⟨i, ha⟩ | hr
  · intro j
    by_cases hj : j = 0
    · rw [hj]
      exact hlistener
    · by_cases hji : j = i
      · rw [hji, ha.ops]
        split <;> simp
      · rw [(ha.others j hj hji).2]
        exact h j
  · exact intact_of_slot h 0 (fun j hj => (hr.others j hj).2) hlistener

/-- Only the completion of an accept is dequeued under key zero. -/
theorem not_accepts_of_ne {w : World Os} {i : Slot} (hi : i ≠ 0) (k : ℕ) (ans ans' : Answers Os) :
    ¬ Accepts w (.dequeue i k ans) ans' := by
  rintro ⟨_, _, _, he, _⟩
  cases he
  exact hi rfl

/-- A client that connects waits for its slot: the accept that has completed is for it. -/
theorem placed_connect {n n' : Net Os} {k : ℕ} (h : Placed n) (hd : DeliveryOk env n)
    (hg : Good n.world) (hs : Net.Step env n (.connect k) n') : Placed n' := by
  cases hs with
  | @connect k w hs hphase =>
    cases hs with
    | @accepted _ o running hop hst =>
      obtain ⟨hops, rfl, _⟩ := hd.acceptOp hop
      obtain ⟨w, hw⟩ : ∃ w, w = n.world.setPending 0
          ((n.world.pending 0).set 0 { o with status := .done 0 }) := ⟨_, rfl⟩
      have hzero : w.pending 0 = [{ o with status := .done 0 }] := by
        rw [hw, World.setPending_pending_self, hops, List.set_cons_zero]
      have hothers : ∀ j, j ≠ 0 → w.pending j = n.world.pending j := fun j hj => by
        rw [hw, World.setPending_pending_of_ne _ _ hj]
      rw [← hw]
      refine ⟨intact_of_slot h.intact 0 hothers (by simp [Net.setPeer_world, hzero]),
        fun c hc => ?_, fun c hc => ?_⟩
      · have hclosed : w.srv = n.world.srv := by rw [hw, World.setPending_srv]
        by_cases hnew : c = n.world.srv.gAcceptedSocket
        · refine .inr ⟨hclosed ▸ hnew, { o with status := .done 0 }, ?_, by simp⟩
          exact hzero ▸ List.mem_singleton.mpr rfl
        · rw [Net.Held, Net.setPeer_peers, if_neg hnew, Net.setPeer_world] at hc
          rw [Net.setPeer_world, hclosed]
          have hold : n.Held c := ⟨hc.1, by rw [← hclosed]; exact hc.2⟩
          exact (h.seated c hold).imp_right fun hlatest => absurd hlatest.1 hnew
      · rw [Net.setPeer_peers] at hc
        split at hc
        · next hnew =>
          have hbelow := hg.sockets.below 0
          rw [hnew]
          exact fun hz => absurd hbelow (by rw [hz]; exact Nat.not_lt_zero _)
        · exact h.socket c hc

/-- **Every orderly step leaves each connection its place.** -/
theorem placed_step {n n' : Net Os} {e : NetEvent Os} (h : Placed n) (hd : DeliveryOk env n)
    (hg : Good n.world) (ho : Orderly Net.Held n e) (hs : Net.Step env n e n') : Placed n' := by
  cases hs with
  | connect hs hphase => exact placed_connect h hd hg (.connect hs hphase)
  | @received i k data w o hs hop hdata hend =>
    obtain ⟨hi, _, hops, _, _, honly, _, _⟩ := received_leaves hg hs
    refine h.of_socketMove rfl (honly.pending 0 hi.symm)
      (intact_of_slot h.intact i honly.pending (by simp [hops]))
      (socketMove_step hs ?_)
    rintro ans ⟨_, _, _, he, _⟩
    cases he
  | @sent i k m w o hs hop hpos =>
    have hmove : SocketMove n.world.srv w.srv := socketMove_step hs fun ans hacc => by
      obtain ⟨_, _, _, he, _⟩ := hacc
      cases he
    cases hs with
    | @sent _ _ _ o' running hi hop' hst hb hlen =>
      obtain ⟨hops, rfl, _⟩ := (hg.slots i hi).of_getElem? hop'
      refine h.of_socketMove rfl (World.setPending_pending_of_ne _ _ hi.symm _)
        (intact_of_slot h.intact i (fun j hj => World.setPending_pending_of_ne _ _ hj _) ?_) hmove
      simp [hops]
  | @dequeue i k m ans w o hs hop hst hans =>
    by_cases hi : i = 0
    · subst hi
      obtain ⟨hslot, _, _, hzero⟩ := accepts_of_dequeue hg hop hst hans hs
      obtain ⟨hops, rfl, haccept⟩ := hd.acceptOp hop
      have hphase := haccept.resolve_left (by simp [hst])
      exact h.of_acceptMove rfl (intact_of_accepts h.intact hslot (by simp [hzero, hops]))
        (acceptMove_step hg hs ⟨_, _, _, rfl, hop, hst⟩)
        (findFree_ne_none hd hg ho.room hphase) hg.sockets.listener
    · obtain ⟨honly, hit⟩ := iterates_of_dequeue hg hi hop hst hans hs
      exact h.of_socketMove rfl (honly.pending 0 (Ne.symm hi))
        (intact_of_slot h.intact i honly.pending hit.intact)
        (socketMove_step hs fun ans' => not_accepts_of_ne hi k ans ans')
  | sendKey hphase hform => exact h.setPeer (by simp [hphase])
  | request hphase harg hform => exact h.setPeer (by simp [hphase])
  | receive hphase hne hlen hdata =>
    exact h.setPeer (by rcases hphase with hphase | hphase <;> simp [hphase])
  | exit hphase => exact h.setPeer (by simp [hphase])

/-- Every connection has its place in every orderly run. -/
theorem placed_reachable (hlaw : env.csp.Lawful) (htext : env.Texts) {n : Net Os}
    (hr : ((netMachine env).restrict (Orderly Net.Held)).Reachable n) : Placed n :=
  hr.invariant (M := (netMachine env).restrict (Orderly Net.Held)) (P := Placed)
    (fun _ hi => placed_initial hi)
    fun _ _ _ hr' h hs =>
      placed_step h (deliveryOk_reachable hlaw htext hr').2 (good_of_net hr'.of_restrict) hs.1 hs.2

/-! ## What is still to come -/

/-- The packets of a client that the server has not acted on. -/
def Net.unanswered (n : Net Os) (c : ℕ) : ℕ := (n.peers c).sent.length - (n.world.packets c).length

/-- The steps a packet may lead to: each byte of the reply leaves and is counted. -/
def packetWork : ℕ := 2 * bufSize + 4

/-- The steps an operation may lead to, before the next packet. -/
def opWork (c : ClientCtx) (o : Op) : ℕ :=
  match o.block, o.status with
  | .recv, .posted => 3
  | .recv, _ => 2
  | .send, .posted => 2 * (c.szSendTotal - c.szSend) + 5
  | .send, .done m => if m = 0 then 4 else 2 * (c.szSendTotal - (c.szSend + m)) + 6
  | .send, .failed => 0
  | .cancel, _ => 1

/-- The steps to come in a client slot. -/
def slotWork (n : Net Os) (i : Slot) : ℕ :=
  ((n.world.pending i).map fun o => opWork (n.world.srv.gCtxs i) o +
    packetWork * n.unanswered (n.world.srv.gCtxs i).socket).sum

/-- The steps to come for a connection that waits to be given a slot. -/
def acceptWork (n : Net Os) : ℕ :=
  ((n.world.pending 0).map fun o => if o.status = .posted then 0
    else packetWork * n.unanswered n.world.srv.gAcceptedSocket + 4).sum

/-- The steps to come of the server. -/
def work (n : Net Os) : ℕ := acceptWork n + ∑ i ∈ Finset.univ.erase (0 : Slot), slotWork n i

/-- A client slot on its own lowers the work. -/
theorem work_lt_of_slot {n n' : Net Os} {i : Slot} (hi : i ≠ 0)
    (haccept : acceptWork n' = acceptWork n)
    (hothers : ∀ j, j ≠ 0 → j ≠ i → slotWork n' j = slotWork n j)
    (hless : slotWork n' i < slotWork n i) : work n' < work n := by
  have hsum : ∑ j ∈ Finset.univ.erase (0 : Slot), slotWork n' j <
      ∑ j ∈ Finset.univ.erase (0 : Slot), slotWork n j := by
    refine Finset.sum_lt_sum (fun j hj => ?_)
      ⟨i, Finset.mem_erase.mpr ⟨hi, Finset.mem_univ i⟩, hless⟩
    by_cases hji : j = i
    · rw [hji]
      exact hless.le
    · exact (hothers j (Finset.mem_erase.mp hj).1 hji).le
  unfold work
  omega

/-- A step that leaves a slot and its connection alone leaves its work. -/
theorem slotWork_congr {n n' : Net Os} {j : Slot}
    (hctx : n'.world.srv.gCtxs j = n.world.srv.gCtxs j)
    (hpend : n'.world.pending j = n.world.pending j)
    (hleft : n.world.pending j ≠ [] → n'.unanswered (n.world.srv.gCtxs j).socket =
      n.unanswered (n.world.srv.gCtxs j).socket) : slotWork n' j = slotWork n j := by
  unfold slotWork
  rw [hctx, hpend]
  by_cases hnone : n.world.pending j = []
  · rw [hnone]
    rfl
  · rw [hleft hnone]

/-- A step of the server on a client slot lowers the work if it lowers that of the slot. -/
theorem work_lt_of_only {n n' : Net Os} (hg : Good n.world) {i : Slot} (hi : i ≠ 0)
    (hsock : (n.world.srv.gCtxs i).socket ≠ 0) (hpeers : n'.peers = n.peers)
    (honly : n.world.Only i n'.world)
    (hpackets : ∀ d, d ≠ (n.world.srv.gCtxs i).socket →
      n'.world.packets d = n.world.packets d)
    (hless : slotWork n' i < slotWork n i) : work n' < work n := by
  have hleft : ∀ d, d ≠ (n.world.srv.gCtxs i).socket → n'.unanswered d = n.unanswered d := by
    intro d hd
    unfold Net.unanswered
    rw [hpeers, hpackets d hd]
  refine work_lt_of_slot hi ?_ (fun j hj hji => slotWork_congr (honly.ctxs j hji)
    (honly.pending j hji) fun _ => hleft _ fun heq => ?_) hless
  · unfold acceptWork
    rw [honly.pending 0 hi.symm, honly.accepted, hleft _ (hg.sockets.below i).ne']
  · exact hji (hg.sockets.injective i j hsock heq.symm).symm

/-- The work of a slot with one operation. -/
theorem slotWork_of_op {n : Net Os} {i : Slot} {o : Op} (hops : n.world.pending i = [o]) :
    slotWork n i = opWork (n.world.srv.gCtxs i) o +
      packetWork * n.unanswered (n.world.srv.gCtxs i).socket := by
  simp [slotWork, hops]

/-- A packet that is acted on is one of the client's. -/
theorem unanswered_succ {n n' : Net Os} {c : ℕ} {packet : List UInt8} (hpeers : n'.peers = n.peers)
    (hpackets : n'.world.packets c = n.world.packets c ++ [packet])
    (hbegins : n'.world.packets c <+: (n'.peers c).sent) :
    n.unanswered c = n'.unanswered c + 1 := by
  have hle := hbegins.length_le
  unfold Net.unanswered
  rw [hpackets, List.length_append, List.length_singleton, hpeers] at hle ⊢
  omega

/-- A completed receive lowers the work. -/
theorem work_lt_of_received {n : Net Os} (hg : Good n.world) {i : Slot} {k : ℕ} {data : List UInt8}
    {w : World Os} {o : Op} (hs : World.Step env n.world (.received i k data) w)
    (ho : (n.world.pending i)[k]? = some o) (taken : ℕ → ℕ) :
    work { n with world := w, taken := taken } < work n := by
  obtain ⟨hi, rfl, hops, hctx, _, honly, hrec, _⟩ := received_leaves hg hs
  obtain ⟨hold, _, hsock, _⟩ := (hg.slots i hi).of_getElem? ho
  have hposted : o.block = .recv ∧ o.status = .posted := by
    cases hs with
    | received _ _ ho' hst hb _ =>
      obtain rfl := Option.some.inj (ho.symm.trans ho')
      exact ⟨hb, hst⟩
  have hless : slotWork { n with world := w, taken := taken } i < slotWork n i := by
    rw [slotWork_of_op hops, slotWork_of_op hold]
    simp only [hctx, opWork, hposted, Net.unanswered, hrec.packets]
    omega
  exact work_lt_of_only hg hi hsock rfl honly (fun d _ => by rw [hrec.packets]) hless

/-- A completed send lowers the work. -/
theorem work_lt_of_sent {n : Net Os} (hd : DeliveryOk env n) (hg : Good n.world) {i : Slot}
    {k m : ℕ} {w : World Os} {o : Op} (hs : World.Step env n.world (.sent i k m) w)
    (ho : (n.world.pending i)[k]? = some o) :
    work { n with world := w } < work n := by
  cases hs with
  | @sent _ _ _ o' running hi ho' hst hb hlen =>
    obtain rfl := Option.some.inj (ho.symm.trans ho')
    obtain ⟨hops, rfl, hop, hl⟩ := hd.op hg hi ho
    obtain ⟨hwin, _, _⟩ := hl.window hb
    obtain ⟨_, hlength, _⟩ := hop.of_send hb
    rw [hwin.usub_eq] at hlength
    refine work_lt_of_only hg hi ((hg.slots i hi).of_getElem? ho).2.2.1 rfl ⟨fun _ _ => rfl,
      fun j hj => World.setPending_pending_of_ne _ _ hj _, rfl⟩ (fun _ _ => rfl) ?_
    have hops' : ((n.world.deliver i o m).setPending i
        ((n.world.pending i).set 0 { o with status := .done m })).pending i =
        [{ o with status := .done m }] := by
      rw [World.setPending_pending_self, hops, List.set_cons_zero]
    rw [slotWork_of_op hops', slotWork_of_op hops]
    simp only [opWork, hb, hst, Net.unanswered, World.setPending_srv, World.deliver_srv,
      World.setPending_packets, World.deliver_packets]
    split <;> omega

/-- An iteration with a client's completion lowers the work. -/
theorem work_lt_of_iterates (hlaw : env.csp.Lawful) (htext : env.Texts) {n : Net Os}
    (hok : SessionOk env n) (hd : DeliveryOk env n) (hg : Good n.world) {i : Slot} (hi : i ≠ 0)
    {k m : ℕ} {o : Op} {ans : Answers Os} {w : World Os} (ho : (n.world.pending i)[k]? = some o)
    (hst : o.status = .done m) (hans : ans.Succeed)
    (hs : World.Step env n.world (.dequeue i k ans) w) : work { n with world := w } < work n := by
  have hok' := hok.iterates hg hi ho hst hans hs
  obtain ⟨honly, hit⟩ := iterates_of_dequeue hg hi ho hst hans hs
  obtain ⟨hold, rfl, hop, hl⟩ := hd.op hg hi ho
  have hsock := ((hg.slots i hi).of_getElem? ho).2.2.1
  have hrest : (∀ d, d ≠ (n.world.srv.gCtxs i).socket → w.packets d = n.world.packets d) →
      slotWork { n with world := w } i < slotWork n i → work { n with world := w } < work n :=
    fun hpackets hless => work_lt_of_only hg hi hsock rfl honly hpackets hless
  have hwork := slotWork_of_op hold
  generalize hblock : o.block = b at hit
  cases hit with
  | hangUp hsrv hops hrec hrun =>
    refine hrest (fun d _ => by rw [hrec.packets]) ?_
    rw [slotWork_of_op hops, hwork]
    simp only [opWork, hblock, hst, hsrv, Net.unanswered, hrec.packets]
    omega
  | stop hm herr _ _ _ _ _ _ _ =>
    obtain ⟨s, r, _, hf⟩ := hd.forms hlaw htext hok hg hi ho hblock hst hm hans
    exact absurd (hf.handler.symm.trans herr) (by simp)
  | reply hm hrec hops hwire hpackets hreplies hhandled hrun =>
    obtain ⟨s, r, _, hf⟩ := hd.forms hlaw htext hok hg hi ho hblock hst hm hans
    obtain rfl : s = w.srv := congrArg Prod.fst (Except.ok.inj (hf.handler.symm.trans hrec))
    refine hrest (fun d hne => by rw [hpackets, World.record_of_ne _ hne]) ?_
    have hfits := hf.fits
    have hsocket := (overlapRecvHandler_local hrec).socket
    have hacted : n.unanswered (n.world.srv.gCtxs i).socket =
        ({ n with world := w } : Net Os).unanswered (n.world.srv.gCtxs i).socket + 1 :=
      unanswered_succ rfl ((congrFun hpackets _).trans (World.record_self _ _ _)) (hok'.packets _)
    rw [slotWork_of_op hops, hwork]
    simp only [opWork, hblock, hst, hsocket, hacted]
    have hbuf : packetWork = 2 * bufSize + 4 := rfl
    rw [Nat.mul_add, Nat.mul_one]
    omega
  | more hmore hsrv hops hrec hrun =>
    obtain ⟨hwin, hle, _⟩ := hl.window hblock
    rw [hst] at hle
    have hadv := (hl.advance hblock hst).1
    have hpos : m ≠ 0 := by
      rintro rfl
      simp [ClientCtx.sendsOn] at hmore
    refine hrest (fun d _ => by rw [hrec.packets]) ?_
    rw [slotWork_of_op hops, hwork]
    simp only [opWork, hblock, hst, hsrv, Server.setCtx_gCtxs_self, hadv, if_neg hpos,
      ClientCtx.advance_szSendTotal, ClientCtx.advance_socket, Net.unanswered, hrec.packets]
    omega
  | last hlast hsrv hops hrec hrun =>
    refine hrest (fun d _ => by rw [hrec.packets]) ?_
    rw [slotWork_of_op hops, hwork]
    simp only [opWork, hblock, hst, hsrv, Server.setCtx_gCtxs_self, ClientCtx.rearm_socket,
      ClientCtx.advance_socket, Net.unanswered, hrec.packets]
    split <;> omega
  | close hsrv hops hrec hrun =>
    refine hrest (fun d _ => by rw [hrec.packets]) ?_
    have hclosed : slotWork { n with world := w } i = 0 := by simp [slotWork, hops]
    rw [hclosed, hwork]
    simp only [opWork, hblock]
    omega

/-- An iteration with the completion of an accept lowers the work. -/
theorem work_lt_of_accepts {n : Net Os} (hd : DeliveryOk env n) (hg : Good n.world)
    (hat : AtMost99 n.Held) {k m : ℕ} {o : Op} {ans : Answers Os} {w : World Os}
    (ho : (n.world.pending 0)[k]? = some o) (hst : o.status = .done m) (hans : ans.Succeed)
    (hs : World.Step env n.world (.dequeue 0 k ans) w) : work { n with world := w } < work n := by
  obtain ⟨hslot, hrec, _, hzero⟩ := accepts_of_dequeue hg ho hst hans hs
  obtain ⟨hops, rfl, haccept⟩ := hd.acceptOp ho
  have hphase := haccept.resolve_left (by simp [hst])
  obtain ⟨i, ha⟩ := hslot.resolve_right fun hr => findFree_ne_none hd hg hat hphase hr.full
  have hleft : ∀ d, ({ n with world := w } : Net Os).unanswered d = n.unanswered d := fun d => by
    simp only [Net.unanswered, hrec.packets]
  have hafter : acceptWork { n with world := w } = 0 := by simp [acceptWork, hzero, hops]
  have hbefore : acceptWork n = packetWork * n.unanswered n.world.srv.gAcceptedSocket + 4 := by
    simp [acceptWork, hops, hst]
  have hidle : slotWork n i = 0 := by simp [slotWork, ha.wasIdle]
  have hreads : w.pending i = [⟨.recv, n.world.srv.gAcceptedSocket, 0, bufSize, .posted⟩] := by
    rw [ha.ops, hans.associated, hans.started]
    rfl
  have htaken : slotWork { n with world := w } i =
      3 + packetWork * n.unanswered n.world.srv.gAcceptedSocket := by
    rw [slotWork_of_op hreads, hleft, ha.ctx]
    rfl
  have hmem : i ∈ Finset.univ.erase (0 : Slot) := Finset.mem_erase.mpr ⟨ha.slot, Finset.mem_univ i⟩
  have hothers : ∑ j ∈ (Finset.univ.erase (0 : Slot)).erase i, slotWork { n with world := w } j =
      ∑ j ∈ (Finset.univ.erase (0 : Slot)).erase i, slotWork n j := by
    refine Finset.sum_congr rfl fun j hj => ?_
    obtain ⟨hji, hj0, _⟩ := Finset.mem_erase.mp hj |>.imp_right Finset.mem_erase.mp
    obtain ⟨hctx, hpend⟩ := ha.others j hj0 hji
    exact slotWork_congr hctx hpend fun _ => hleft _
  unfold work
  rw [← Finset.add_sum_erase _ _ hmem, ← Finset.add_sum_erase _ (slotWork n) hmem, hothers, hafter,
    hbefore, htaken, hidle]
  omega

/-- **Every step of the server lowers the work.** -/
theorem work_lt_of_step (hlaw : env.csp.Lawful) (htext : env.Texts) {n n' : Net Os}
    {e : NetEvent Os} (hr : ((netMachine env).restrict (Orderly Net.Held)).Reachable n)
    (hs : (serverMachine env).step n e n') : work n' < work n := by
  obtain ⟨hok, hd⟩ := deliveryOk_reachable hlaw htext hr
  have hg := good_of_net hr.of_restrict
  obtain ⟨⟨ho, hserver⟩, hs⟩ := hs
  cases hs with
  | received hs hop hdata hend => exact work_lt_of_received hg hs hop _
  | sent hs hop hpos => exact work_lt_of_sent hd hg hs hop
  | @dequeue i k m ans w o hs hop hst hans =>
    by_cases hi : i = 0
    · subst hi
      exact work_lt_of_accepts hd hg ho.room hop hst hans hs
    · exact work_lt_of_iterates hlaw htext hok hd hg hi hop hst hans hs
  | connect => exact hserver.elim
  | sendKey => exact hserver.elim
  | request => exact hserver.elim
  | receive => exact hserver.elim
  | exit => exact hserver.elim

end Tcp
end BsitLabs
