import BsitLabs.Tcp.Script
import Mathlib.Data.Set.Finite.Basic

/-!
# Every script comes to its end

The clients that have connected read their requests from their users, the server answers, and no
more clients connect (`presentMachine`).  Whatever the order in which things happen, this comes to
an end: what the clients have still to ask and what the server has still to do is bounded by
`effort`, which every step lowers (`effort_lt_of_step`).  And where it ends nothing is left over:
each user has read the reports on the whole script and has gone, and the server has closed the
connection.

There is one exception, which is none of the users': a request that begins, enciphered, with the
mark of a key would be taken for a key packet, and a client that is about to send one is `HeldUp`.
-/

namespace BsitLabs
namespace Tcp

open MachineInt Transition SystemInfo

section Net

variable {Os : Type} {env : Env Os} {n n' : Net Os} {e : NetEvent Os}

/-! ## The clients that are there -/

/-- A client connects. -/
def NetEvent.Connects : NetEvent Os → Prop
  | .connect _ => True
  | _ => False

/-- Only a client that connects was not there before. -/
theorem absent_iff_of_step (he : ¬ e.Connects) (hs : Net.Step env n e n') (c : ℕ) :
    (n'.peers c).phase = .absent ↔ (n.peers c).phase = .absent := by
  have hpeer : ∀ (d : ℕ) (p : Peer), p.phase ≠ .absent → (n.peers d).phase ≠ .absent → _ :=
    fun d p hp hphase => n.setPeer_relates (R := fun q q' => q'.phase = .absent ↔ q.phase = .absent)
      (fun _ => Iff.rfl) (d := d) (p := p) (iff_of_false hp hphase) c
  cases hs with
  | connect => exact absurd trivial he
  | received => exact Iff.rfl
  | sent => exact Iff.rfl
  | dequeue => exact Iff.rfl
  | sendKey hphase => exact hpeer _ _ (by simp [Peer.send]) (by simp [hphase])
  | request hphase => exact hpeer _ _ (by simp [Peer.send]) (by simp [hphase])
  | @receive d data hphase =>
    refine hpeer _ _ ?_ (by rcases hphase with h | h <;> simp [h])
    rcases (n.peers d).receive_phase env.csp data with h | h <;> simp [h]
  | exit hphase => exact hpeer _ _ (by simp) (by simp [hphase])

/-- Only finitely many clients have connected. -/
theorem finite_present {ok : Net Os → NetEvent Os → Prop}
    (hr : ((netMachine env).restrict ok).Reachable n) :
    {c | (n.peers c).phase ≠ .absent}.Finite := by
  induction hr with
  | init hi =>
    obtain ⟨_, _, pub, buf, _, hpeers⟩ := hi
    simp [hpeers, Peer.start]
  | @step n n' e _ hs ih =>
    by_cases he : e.Connects
    · cases hs.2 with
      | @connect k w _ _ =>
        refine (ih.insert n.world.srv.gAcceptedSocket).subset fun c hc => ?_
        rw [Set.mem_ofPred_eq, Net.setPeer_peers] at hc
        split at hc
        · next heq => exact .inl heq
        · exact .inr hc
      | _ => exact he.elim
    · refine ih.subset fun c hc => ?_
      rwa [Set.mem_ofPred_eq, ne_eq, absent_iff_of_step he hs.2 c] at hc

/-- The server holds no more connections after a step in which no client connects. -/
theorem AtMost99.of_step (hat : AtMost99 n.Held) (he : ¬ e.Connects) (hs : Net.Step env n e n') :
    AtMost99 n'.Held := by
  have hclosed : n.world.srv.handles.closed ⊆ n'.world.srv.handles.closed := by
    cases hs with
    | connect => exact absurd trivial he
    | received hs _ _ _ => exact closed_subset_step hs
    | sent hs _ _ => exact closed_subset_step hs
    | dequeue hs _ _ _ => exact closed_subset_step hs
    | sendKey => exact List.Subset.refl _
    | request => exact List.Subset.refl _
    | receive => exact List.Subset.refl _
    | exit => exact List.Subset.refl _
  refine fun S hS => hat S fun c hc => ?_
  obtain ⟨hpresent, hopen⟩ := hS c hc
  exact ⟨fun habsent => hpresent ((absent_iff_of_step he hs c).mpr habsent),
    fun hmem => hopen (hclosed hmem)⟩

/-! ## A packet more -/

/-- A client that has sent one packet more. -/
theorem unanswered_setPeer {c : ℕ} {p : Peer}
    (hsent : p.sent.length ≤ (n.peers c).sent.length + 1) :
    (n.setPeer c p).unanswered c ≤ n.unanswered c + 1 ∧
      ∀ d, d ≠ c → (n.setPeer c p).unanswered d = n.unanswered d := by
  refine ⟨?_, fun d hd => ?_⟩
  · unfold Net.unanswered
    rw [Net.setPeer_peers, if_pos rfl, Net.setPeer_world]
    omega
  · unfold Net.unanswered
    rw [Net.setPeer_peers, if_neg hd, Net.setPeer_world]

/-- The packet waits in one place: in a slot, or with the connection that is to be given one. -/
theorem work_setPeer_le (hd : DeliveryOk env n) (hg : Good n.world) {c : ℕ} (hc : c ≠ 0) {p : Peer}
    (hsent : p.sent.length ≤ (n.peers c).sent.length + 1) :
    work (n.setPeer c p) ≤ work n + packetWork := by
  obtain ⟨hmore, hothers⟩ := unanswered_setPeer hsent
  have hslot : ∀ j, (n.world.srv.gCtxs j).socket ≠ c →
      slotWork (n.setPeer c p) j = slotWork n j := fun j hj =>
    slotWork_congr rfl rfl fun _ => hothers _ hj
  have hmul : packetWork * (n.setPeer c p).unanswered c ≤
      packetWork * n.unanswered c + packetWork := by
    rw [← Nat.mul_succ]
    exact Nat.mul_le_mul_left _ hmore
  by_cases hseat : ∃ i, i ≠ 0 ∧ (n.world.srv.gCtxs i).socket = c
  · obtain ⟨i, hi, rfl⟩ := hseat
    have haccept : acceptWork (n.setPeer (n.world.srv.gCtxs i).socket p) = acceptWork n := by
      unfold acceptWork
      rw [Net.setPeer_world, hothers _ (hg.sockets.below i).ne']
    have hown : slotWork (n.setPeer (n.world.srv.gCtxs i).socket p) i ≤
        slotWork n i + packetWork := by
      obtain ⟨o, hops, _⟩ := hd.link i hi hc
      rw [slotWork_of_op (n := n.setPeer _ p) hops, slotWork_of_op hops, Net.setPeer_world]
      omega
    have hmem : i ∈ Finset.univ.erase (0 : Slot) := Finset.mem_erase.mpr ⟨hi, Finset.mem_univ i⟩
    have hrest : ∑ j ∈ (Finset.univ.erase (0 : Slot)).erase i,
        slotWork (n.setPeer (n.world.srv.gCtxs i).socket p) j =
        ∑ j ∈ (Finset.univ.erase (0 : Slot)).erase i, slotWork n j := by
      refine Finset.sum_congr rfl fun j hj => hslot j fun heq => ?_
      exact (Finset.mem_erase.mp hj).1 (hg.sockets.injective i j hc heq.symm).symm
    unfold work
    rw [← Finset.add_sum_erase _ _ hmem, ← Finset.add_sum_erase _ (slotWork n) hmem, hrest, haccept]
    omega
  · have hslots : ∑ j ∈ Finset.univ.erase (0 : Slot), slotWork (n.setPeer c p) j =
        ∑ j ∈ Finset.univ.erase (0 : Slot), slotWork n j :=
      Finset.sum_congr rfl fun j hj => hslot j fun heq =>
        hseat ⟨j, (Finset.mem_erase.mp hj).1, heq⟩
    have haccept : acceptWork (n.setPeer c p) ≤ acceptWork n + packetWork := by
      obtain ⟨o, hops, _⟩ := hd.accept
      by_cases hacc : n.world.srv.gAcceptedSocket = c
      · simp only [acceptWork, Net.setPeer_world, hops, hacc, List.map_cons, List.map_nil,
          List.sum_singleton]
        split
        · exact Nat.zero_le _
        · omega
      · unfold acceptWork
        rw [Net.setPeer_world, hothers _ hacc]
        exact Nat.le_add_right _ _
    unfold work
    omega

end Net

/-! ## The end of the scripts -/

/-- The steps that a client has still to take, by its script. -/
def stepsLeft (s : Script) (p : Peer) : ℕ :=
  match p.phase with
  | .connected => 2 * s.entries.length + 3
  | .keySent => 2 * s.entries.length + 2
  | .menu => 2 * (s.entries.length - p.requests.length) + 1
  | .requested => 2 * (s.entries.length - p.requests.length) + 2
  | .absent | .exited | .aborted => 0

/-- The steps that are still to come, of the server and of these clients. -/
def effort (scripts : ℕ → Script) (S : Finset ℕ) (n : Net Os) : ℕ :=
  work n + (packetWork + 1) * ∑ c ∈ S, stepsLeft (scripts c) (n.peers c)

/-- A step of a client lowers the effort, even if it sends a packet. -/
theorem effort_setPeer_lt {Os : Type} {env : Env Os} {scripts : ℕ → Script} {S : Finset ℕ}
    {n : Net Os} (hd : DeliveryOk env n) (hg : Good n.world) {c : ℕ} (hc : c ≠ 0) (hmem : c ∈ S)
    {p : Peer}
    (hsent : p.sent.length ≤ (n.peers c).sent.length + 1)
    (hless : stepsLeft (scripts c) p < stepsLeft (scripts c) (n.peers c)) :
    effort scripts S (n.setPeer c p) < effort scripts S n := by
  have hwork := work_setPeer_le hd hg hc hsent
  have hothers : ∑ d ∈ S.erase c, stepsLeft (scripts d) ((n.setPeer c p).peers d) =
      ∑ d ∈ S.erase c, stepsLeft (scripts d) (n.peers d) := by
    refine Finset.sum_congr rfl fun d hd => ?_
    rw [Net.setPeer_peers, if_neg (Finset.mem_erase.mp hd).1]
  have hown : (n.setPeer c p).peers c = p := by rw [Net.setPeer_peers, if_pos rfl]
  have hmul : (packetWork + 1) * stepsLeft (scripts c) p + (packetWork + 1) ≤
      (packetWork + 1) * stepsLeft (scripts c) (n.peers c) := by
    rw [← Nat.mul_succ]
    exact Nat.mul_le_mul_left _ hless
  unfold effort
  rw [← Finset.add_sum_erase _ _ hmem,
    ← Finset.add_sum_erase _ (fun d => stepsLeft (scripts d) (n.peers d)) hmem, hothers, hown,
    Nat.mul_add, Nat.mul_add]
  omega

/-- The server's steps leave the clients what they have to do. -/
theorem effort_lt_of_work {scripts : ℕ → Script} {S : Finset ℕ} {n n' : Net Os}
    (hpeers : n'.peers = n.peers) (hless : work n' < work n) :
    effort scripts S n' < effort scripts S n := by
  unfold effort
  rw [hpeers]
  omega

section Users

variable {Os : Type} {scan : IntScan} {env : Env Os} {scripts : ℕ → Script}

/-- The users that are there, and the server: no more clients connect. -/
def presentMachine (scan : IntScan) (env : Env Os) (scripts : ℕ → Script) :
    Machine (Users Os) (NetEvent Os) :=
  (userMachine scan env (Orderly Net.Held) scripts).restrict fun _ e => ¬ e.Connects

/-- A state of an orderly run, where these are the clients that have connected. -/
structure Present (scan : IntScan) (env : Env Os) (scripts : ℕ → Script) (S : Finset ℕ)
    (u : Users Os) : Prop where
  reachable : (userMachine scan env (Orderly Net.Held) scripts).Reachable u
  room : AtMost99 u.net.Held
  present : ∀ c, c ∈ S ↔ (u.net.peers c).phase ≠ .absent

theorem Present.net {S : Finset ℕ} {u : Users Os} (h : Present scan env scripts S u) :
    ((netMachine env).restrict (Orderly Net.Held)).Reachable u.net :=
  (userProjection scan env (Orderly Net.Held) scripts).reachable h.reachable

theorem Present.step {S : Finset ℕ} {u u' : Users Os} {e : NetEvent Os}
    (h : Present scan env scripts S u) (hs : (presentMachine scan env scripts).step u e u') :
    Present scan env scripts S u' := by
  obtain ⟨he, hok, hs⟩ := hs
  refine ⟨h.reachable.step (M := userMachine _ _ _ _) ⟨hok, hs⟩, h.room.of_step he hs.net,
    fun c => ?_⟩
  rw [h.present c, ne_eq, ne_eq, absent_iff_of_step he hs.net]

/-- **Every step lowers the effort**, whoever takes it. -/
theorem effort_lt_of_step (hlaw : env.csp.Lawful) (htext : env.Texts) {S : Finset ℕ}
    {u u' : Users Os} {e : NetEvent Os} (h : Present scan env scripts S u)
    (hs : (presentMachine scan env scripts).step u e u') :
    effort scripts S u'.net < effort scripts S u.net := by
  obtain ⟨_, hd⟩ := deliveryOk_reachable hlaw htext h.net
  have hg := good_of_net h.net.of_restrict
  have hp := placed_reachable hlaw htext h.net
  have hlower : ∀ (c : ℕ) (p : Peer), (u.net.peers c).phase ≠ .absent →
      p.sent.length ≤ (u.net.peers c).sent.length + 1 →
      stepsLeft (scripts c) p < stepsLeft (scripts c) (u.net.peers c) →
      effort scripts S (u.net.setPeer c p) < effort scripts S u.net := fun c p hpresent =>
    effort_setPeer_lt hd hg (hp.socket c hpresent) ((h.present c).mpr hpresent)
  have hreceive : ∀ (c : ℕ) (data : List UInt8), (u.net.peers c).phase = .keySent ∨
      (u.net.peers c).phase = .requested →
      effort scripts S (u.net.setPeer c ((u.net.peers c).receive env.csp data)) <
        effort scripts S u.net := fun c data hphase => by
    obtain ⟨_, hsent, hrequests⟩ := (u.net.peers c).receive_records env.csp data
    refine hlower c _ (by rcases hphase with h | h <;> simp [h]) (by rw [hsent]; omega) ?_
    rcases (u.net.peers c).receive_phase env.csp data with hto | hto <;>
      rcases hphase with hfrom | hfrom <;> simp only [stepsLeft, hto, hfrom, hrequests] <;> omega
  obtain ⟨he, hok, hs⟩ := hs
  cases hs with
  | @request n c t fuel a hask htype hs =>
    cases hs with
    | request hphase _ _ =>
      obtain ⟨done, rest, hon⟩ := onScripts_reachable h.reachable c
      obtain ⟨_, rest, rfl, _⟩ := hon.asked hphase hask
      refine hlower c _ (by simp [hphase]) (by simp [Peer.send, Peer.ask]) ?_
      have hmore : (u.net.peers c).requests.length < (scripts c).entries.length := by
        rw [hon.requests, hon.entries, List.length_map, List.length_append, List.length_cons]
        omega
      simp only [stepsLeft, hphase, Peer.send, Peer.ask, List.length_append, List.length_singleton]
      omega
  | exit _ hs =>
    cases hs with
    | exit hphase => exact hlower _ _ (by simp [hphase]) (by simp) (by simp [stepsLeft, hphase])
  | printed _ hs =>
    cases hs with
    | receive hphase _ _ _ => exact hreceive _ _ hphase
  | received _ hs =>
    cases hs with
    | receive hphase _ _ _ => exact hreceive _ _ hphase
  | @unattended n e hun hs =>
    have hserver : e.OfServer → effort scripts S n < effort scripts S u.net := fun hof =>
      effort_lt_of_work (peers_of_serverStep ⟨⟨hok, hof⟩, hs⟩).1
        (work_lt_of_step hlaw htext h.net ⟨⟨hok, hof⟩, hs⟩)
    cases hs with
    | connect => exact absurd trivial he
    | received => exact hserver trivial
    | sent => exact hserver trivial
    | dequeue => exact hserver trivial
    | sendKey hphase =>
      exact hlower _ _ (by simp [hphase]) (by simp [Peer.send])
        (by simp [stepsLeft, hphase, Peer.send])
    | request => exact hun.elim
    | receive => exact hun.elim
    | exit => exact hun.elim

/-! ## Where nothing is possible -/

/-- The next request of a client would be taken for a key packet. -/
structure HeldUp (s : Script) (p : Peer) : Prop where
  menu : p.phase = .menu
  mark : ∃ e packet, s.entries[p.requests.length]? = some e ∧
    (p.ask e.type e.path.bytes).client.requestFormation = some packet ∧ packet.head? = some 0

/-- A client that has connected has not asked for anything yet. -/
theorem Session.requestType_of_connected {p : Peer} {handle : Option ℕ} {m : ℕ}
    {replies : List (List UInt8)} {handled : List (Handling Os)}
    (h : Session env p handle m replies handled) (hphase : p.phase = .connected) :
    p.client.requestType = none := by
  cases h with
  | silent _ _ _ htype => exact htype
  | asked hph _ _ => simp [hph] at hphase
  | keyed hk => rcases hk.phase with ⟨h, _⟩ | ⟨h, _⟩ | ⟨h | h, _⟩ <;> simp [h] at hphase

/-- A client at the menu has a key. -/
theorem Session.exists_key {p : Peer} {handle : Option ℕ} {m : ℕ} {replies : List (List UInt8)}
    {handled : List (Handling Os)} (h : Session env p handle m replies handled)
    (hphase : p.phase = .menu) : ∃ key, handle = some key := by
  cases h with
  | silent hph _ _ _ => rcases hph with h | h <;> simp [h] at hphase
  | asked hph _ _ => simp [hph] at hphase
  | keyed _ => exact ⟨_, rfl⟩

/-- A client at the menu can send a request. -/
theorem requestFormation_of_menu (hlaw : env.csp.Lawful) {n : Net Os} (hok : SessionOk env n)
    (hd : DeliveryOk env n) {c : ℕ} (hphase : (n.peers c).phase = .menu) (t : RequestType)
    {arg : List UInt8} (harg : arg.length < requestArgSize) :
    ∃ packet, ((n.peers c).ask t arg).client.requestFormation = some packet := by
  obtain ⟨key, hkey⟩ := (hd.session c).exists_key hphase
  have hsession := hd.sessionKey hlaw hok (.inl hphase) hkey
  exact ⟨_, Client.requestFormation_request (c := ((n.peers c).ask t arg).client) rfl hsession harg⟩

section AtRest

variable {S : Finset ℕ} {u : Users Os} (h : Present scan env scripts S u)
  (hrest : (presentMachine scan env scripts).AtRest u)

include hrest

/-- Then nothing is possible for the server. -/
theorem server_atRest : (serverMachine env).AtRest u.net := by
  rintro e n ⟨⟨hok, hserver⟩, hs⟩
  have hun : e.Unattended ∧ ¬ e.Connects := by
    cases e <;> first | exact hserver.elim | exact ⟨trivial, id⟩
  exact hrest e ⟨n, u.consoles⟩ ⟨hun.2, hok, .unattended hun.1 hs⟩

/-- Nor can a client take in what it waits for. -/
theorem not_receive_atRest {c : ℕ} {data : List UInt8} {n : Net Os} :
    ¬ ((netMachine env).restrict (Orderly Net.Held)).step u.net (.receive c data) n := by
  rintro ⟨hok, hs⟩
  by_cases hphase : (u.net.peers c).phase = .requested ∧ (n.peers c).phase = .menu
  · exact hrest _ _ ⟨id, hok, .printed hphase hs⟩
  · exact hrest _ _ ⟨id, hok, .received hphase hs⟩

include h

/-- A client at the menu is held up: its user has typed the next entry, or the exit. -/
theorem heldUp_atRest (hlaw : env.csp.Lawful) (htext : env.Texts) {c : ℕ}
    (hphase : (u.net.peers c).phase = .menu) : HeldUp (scripts c) (u.net.peers c) := by
  obtain ⟨hok, hd⟩ := deliveryOk_reachable hlaw htext h.net
  obtain ⟨done, rest, hon⟩ := onScripts_reachable h.reachable c
  have hlen : (u.net.peers c).requests.length = done.length := by
    rw [hon.requests, List.length_map]
  cases rest with
  | nil =>
    obtain ⟨fuel, a, hask⟩ := hon.left scan hphase
      (by rw [hlen, hon.entries, List.append_nil])
    exact (hrest (.exit c) _ ⟨id, ⟨trivial, trivial, h.room⟩, .exit hask (.exit hphase)⟩).elim
  | cons e rest =>
    obtain ⟨packet, hform⟩ := requestFormation_of_menu hlaw hok hd hphase e.type e.fits
    refine ⟨hphase, e, packet, by rw [hlen, hon.entries]; simp, hform, ?_⟩
    by_contra hmark
    have hasks : Asks (scripts c)
        (((u.net.peers c).ask e.type e.path.bytes).send packet .requested) := by
      refine ⟨?_, fun hexit => by simp [Peer.send] at hexit⟩
      rw [hon.entries, List.map_append, List.map_cons, ← hon.requests, List.append_cons]
      exact List.prefix_append _ _
    obtain ⟨fuel, a, hask, htype, hpath⟩ := hon.typed scan hphase rfl hasks
    have hfits : (a.memory.cString 1).length < requestArgSize := hpath ▸ e.fits
    rw [← hpath] at hform
    refine hrest (.request c e.type _) _ ⟨id, ⟨trivial, fun packet' hform' => ?_, h.room⟩,
      .request hask htype (.request hphase hfits hform)⟩
    rwa [Option.some.inj (hform'.symm.trans hform)]

/-- **Where nothing is possible, every client has left**, or it is held up. -/
theorem exited_atRest (hlaw : env.csp.Lawful) (htext : env.Texts) (os : Os) {c : ℕ} (hc : c ∈ S) :
    ((u.net.peers c).phase = .exited ∧ c ∈ u.net.world.srv.handles.closed) ∨
      HeldUp (scripts c) (u.net.peers c) := by
  obtain ⟨hok, hd⟩ := deliveryOk_reachable hlaw htext h.net
  have hpresent := (h.present c).mp hc
  have hsettled := settled_of_atRest hlaw htext h.net h.room os (server_atRest hrest) hpresent
  have hwaits : ¬ u.net.Waiting c := fun hw => by
    rcases hsettled with ⟨_, hexit⟩ | hsettled
    · rcases hw with hw | hw <;> simp [hw] at hexit
    · obtain ⟨r, n', _, hs, _⟩ := hsettled.awaited hw
      exact not_receive_atRest hrest hs
  cases hphase : (u.net.peers c).phase with
  | absent => exact absurd hphase hpresent
  | connected =>
    have hlen := (hd.publicKey c).2
    have hform := Client.requestFormation_key ((hd.session c).requestType_of_connected hphase)
      (hlen.trans (by decide))
    exact (hrest (.sendKey c) ⟨_, u.consoles⟩ ⟨id, ⟨trivial, trivial, h.room⟩,
      .unattended trivial (.sendKey hphase hform)⟩).elim
  | keySent => exact absurd (.inl hphase) hwaits
  | requested => exact absurd (.inr hphase) hwaits
  | menu => exact .inr (heldUp_atRest h hrest hlaw htext hphase)
  | exited =>
    refine .inl ⟨rfl, ?_⟩
    rcases hsettled with ⟨hclosed, _⟩ | hsettled
    · exact hclosed
    · have hrunning := hsettled.running
      rw [hphase] at hrunning
      cases hrunning
  | aborted => exact absurd hphase (hd.session c).not_aborted

end AtRest

end Users

/-! ## The end -/

/-- The user has read a report on every entry of the script, and the server has closed the
connection. -/
structure Finished {A : Win32 → Prop} (s : Script) (n : Net { w : Win32 // A w }) (c : ℕ) :
    Prop where
  exited : (n.peers c).phase = .exited
  closed : c ∈ n.world.srv.handles.closed
  /-- There is a report on every entry. -/
  complete : (n.peers c).printed.length = s.entries.length
  /-- Each report is that on what the system answered when the request was handled. -/
  reports : List.Forall₂ (fun eh text => text = report eh.2.os.val eh.1.path eh.1.type)
    (s.entries.zip (n.world.handled c)) (n.peers c).printed

/-- A client that has left has read every report. -/
theorem Present.finished {scan : IntScan} {csp : Csp} (hlaw : csp.Lawful) {A : Win32 → Prop}
    (hA : ∀ w, A w → Responsive w) {scripts : ℕ → Script} {S : Finset ℕ}
    {u : Users { w : Win32 // A w }} (h : Present scan (Env.answering csp A) scripts S u) {c : ℕ}
    (hexit : (u.net.peers c).phase = .exited) (hclosed : c ∈ u.net.world.srv.handles.closed) :
    Finished (scripts c) u.net c := by
  have hlaw' : (Env.answering csp A).csp.Lawful := hlaw
  obtain ⟨done, rest, hon⟩ := onScripts_reachable h.reachable c
  obtain ⟨hok, hd⟩ := deliveryOk_reachable hlaw' (Env.answering_texts csp hA) h.net
  have hscripted := (hd.reported hlaw hok c).scripted scan hon
  have hcomplete := hscripted.complete hexit
  have hreports := hscripted.reports
  have hlen : ((scripts c).entries.zip (u.net.world.handled c)).length ≤
      (u.net.peers c).printed.length := by
    rw [List.length_zip, hcomplete]
    exact Nat.min_le_left _ _
  rw [List.take_of_length_le hlen] at hreports
  exact ⟨hexit, hclosed, hcomplete, hreports⟩

/-- **Every run ends, and every script is done.**  From every state of an orderly run the clients
that have connected, with their users, and the server, while no more clients connect, take a
bounded number of steps, in whatever order; some run ends; and whenever nothing more is possible,
each of these clients has left, its user has read the report on every entry of the script, in
order, each on what the system answered when that request was handled, and the server has closed
the connection --- or its next request would be taken for a key. -/
theorem finished_of_orderly (scan : IntScan) (csp : Csp) (hlaw : csp.Lawful) {A : Win32 → Prop}
    (hA : ∀ w, A w → Responsive w) {w : Win32} (hw : A w) {scripts : ℕ → Script}
    {u : Users { w : Win32 // A w }}
    (hr : (userMachine scan (Env.answering csp A) (Orderly Net.Held) scripts).Reachable u)
    (hat : AtMost99 u.net.Held) :
    ∃ S : Finset ℕ, (∀ c, c ∈ S ↔ (u.net.peers c).phase ≠ .absent) ∧
      (∃ count u', (presentMachine scan (Env.answering csp A) scripts).Run count u u' ∧
        (presentMachine scan (Env.answering csp A) scripts).AtRest u') ∧
      ∀ count u', (presentMachine scan (Env.answering csp A) scripts).Run count u u' →
        count ≤ effort scripts S u.net ∧
        ((presentMachine scan (Env.answering csp A) scripts).AtRest u' → ∀ c ∈ S,
          Finished (scripts c) u'.net c ∨ HeldUp (scripts c) (u'.net.peers c)) := by
  have htext := Env.answering_texts csp hA
  have hlaw' : (Env.answering csp A).csp.Lawful := hlaw
  have hfinite := finite_present
    ((userProjection scan (Env.answering csp A) (Orderly Net.Held) scripts).reachable hr)
  have hpresent : Present scan (Env.answering csp A) scripts hfinite.toFinset u :=
    ⟨hr, hat, fun c => hfinite.mem_toFinset⟩
  refine ⟨hfinite.toFinset, hpresent.present, ?_, fun count u' hrun => ⟨?_, fun hrest c hc => ?_⟩⟩
  · exact Machine.exists_atRest (fun _ _ _ h hs => h.step hs)
      (fun _ _ _ h hs => effort_lt_of_step hlaw' htext h hs) hpresent
  · have hbound := hrun.add_le (fun _ _ _ h hs => Present.step h hs)
      (fun _ _ _ h hs => effort_lt_of_step hlaw' htext h hs) hpresent
    omega
  · have hlast := hrun.invariant (fun _ _ _ h hs => Present.step h hs) hpresent
    exact (exited_atRest hlast hrest hlaw' htext ⟨w, hw⟩ hc).imp_left
      fun hleft => hlast.finished hlaw hA hleft.1 hleft.2

/-- The user of the sample leaves in the end. -/
theorem finished_of_orderly_sample : ∃ (t : RequestType) (ht : t.takesPath = true)
    (u' : Users { w : Win32 // w = sampleSystem }),
    (presentMachine .sample (Env.answering .oneByte (· = sampleSystem))
      (Script.sample t ht)).AtRest u' ∧
    Finished (Script.sample t ht 2) u'.net 2 := by
  have hA : ∀ w, w = sampleSystem → Responsive w := fun w hw => hw ▸ responsive_sampleSystem
  obtain ⟨t, ht, u, hr, hat, hmenu, hrequests⟩ := exists_users_sample
  obtain ⟨S, hS, ⟨count, u', hrun, hrest⟩, hall⟩ :=
    finished_of_orderly .sample .oneByte Csp.oneByte_lawful hA (w := sampleSystem) rfl hr hat
  have hmem : 2 ∈ S := (hS 2).mpr (by simp [hmenu])
  refine ⟨t, ht, u', hrest, ((hall count u' hrun).2 hrest 2 hmem).resolve_right fun hheld => ?_⟩
  -- nothing is left to be asked
  have hkept : (u.net.peers 2).requests <+: (u'.net.peers 2).requests := by
    refine hrun.invariant (P := fun v => (u.net.peers 2).requests <+: (v.net.peers 2).requests)
      (fun v e v' h hs => ?_) List.prefix_rfl
    exact h.trans (requests_of_step hs.2.2.net 2).1
  obtain ⟨e, _, hentry, _⟩ := hheld.mark
  have hlen := hkept.length_le
  have hlt := (List.getElem?_eq_some_iff.mp hentry).1
  rw [hrequests, List.length_map] at hlen
  omega

end Tcp
end BsitLabs
