import BsitLabs.Tcp.Deadlock
import BsitLabs.Tcp.Progress

/-!
# The server comes to rest

The server, left to itself, takes a bounded number of steps, and when no step is left to it
nothing is left to do for its clients (`Settled`): every packet has been acted on, every reply
has left, and a client that waits can take the whole of its reply.  The connections of the
clients that have gone are closed (`settled_of_atRest`).
-/

namespace BsitLabs
namespace Tcp

open MachineInt Transition

variable {Os : Type} {env : Env Os}

/-! ## At rest -/

/-- What is still to come of a stream of packets begins with the next packet. -/
theorem exists_next_of_flatten_drop {l s : List (List UInt8)} (h : l <+: s)
    (hmore : s.flatten.drop l.flatten.length ≠ []) :
    ∃ x, s[l.length]? = some x ∧ x <+: s.flatten.drop l.flatten.length := by
  obtain ⟨rest, rfl⟩ := h
  rw [List.flatten_append, List.drop_left] at hmore ⊢
  cases rest with
  | nil => exact absurd rfl hmore
  | cons x xs => exact ⟨x, by simp, by simp⟩

/-- The packets of a session are not empty, and fit the server's buffer. -/
theorem DeliveryOk.packet_fits {n : Net Os} (h : DeliveryOk env n) (c : ℕ) :
    ∀ x ∈ (n.peers c).sent, x ≠ [] ∧ x.length ≤ bufSize := by
  have hpub := (h.publicKey c).2
  have hsession := h.session c
  generalize keyHandle n.world.srv.handles.keys c = handle at hsession
  generalize (n.world.packets c).length = m at hsession
  generalize n.world.replies c = replies at hsession
  generalize n.world.handled c = handled at hsession
  cases hsession with
  | silent _ hsent _ _ => simp [hsent]
  | asked _ hsent _ =>
    intro x hx
    rw [hsent] at hx
    obtain rfl := List.mem_singleton.mp hx
    exact ⟨List.cons_ne_nil _ _, hpub⟩
  | @keyed key texts handled hk =>
    intro x hx
    rw [hk.sent] at hx
    refine ⟨env.csp.packets_ne_nil _ _ _ x hx, ?_⟩
    rw [Csp.packets, List.mem_cons, List.mem_map] at hx
    rcases hx with rfl | ⟨r, hr, rfl⟩
    · exact hpub
    · have hlen := r.1.length_plain_le r.2
      have harg : r.2.length < 128 := hk.typed r hr
      have hbuf : bufSize = 512 := rfl
      rw [KeyStream.length_apply]
      omega

section AtRest

variable {n : Net Os} (hd : DeliveryOk env n) (hp : Placed n) (hat : AtMost99 n.Held) (os : Os)
  (hrest : (serverMachine env).AtRest n)

include hd hp hat os hrest

/-- What is outstanding at rest has not completed. -/
theorem posted_of_atRest {i : Slot} {o : Op} (ho : o ∈ n.world.pending i) : o.status = .posted := by
  obtain ⟨k, hk⟩ := List.mem_iff_getElem?.mp ho
  cases hst : o.status with
  | posted => rfl
  | failed => exact absurd hst (hp.intact i o ho)
  | done m =>
    exact (hrest (.dequeue i k (.allYes os)) _ ⟨⟨⟨trivial, trivial, hat⟩, trivial⟩,
      .dequeue (.dequeue hd.running hk hst) hk hst (Answers.allYes_succeed os)⟩).elim

/-- A connection that is not closed has a slot at rest. -/
theorem seated_of_atRest {c : ℕ} (hc : n.Held c) :
    ∃ i, i ≠ 0 ∧ (n.world.srv.gCtxs i).socket = c := by
  rcases hp.seated c hc with hseat | ⟨_, o, ho, hne⟩
  · exact hseat
  · exact absurd (posted_of_atRest hd hp hat os hrest ho) hne

/-- **A slot at rest reads**, has taken all that its client has sent, and its client has not
gone. -/
theorem reads_of_atRest (hok : SessionOk env n) (hg : Good n.world) {i : Slot} (hi : i ≠ 0)
    (hsock : (n.world.srv.gCtxs i).socket ≠ 0) :
    Reads n.world i ∧ n.toServer (n.world.srv.gCtxs i).socket = [] ∧
      (n.peers (n.world.srv.gCtxs i).socket).phase.gone = false := by
  obtain ⟨o, hops, hl⟩ := hd.link i hi hsock
  have hget : (n.world.pending i)[0]? = some o := by rw [hops, List.getElem?_cons_zero]
  have hst := posted_of_atRest hd hp hat os hrest (List.mem_of_getElem? hget)
  obtain ⟨_, _, _, hop⟩ := (hg.slots i hi).of_getElem? hget
  have htaken := hl.taken
  cases hop with
  | closing => exact absurd hst (by simp)
  | @writing st _ =>
    -- the rest of the reply could leave at once
    exact (hrest (.sent i 0 _) _ ⟨⟨⟨trivial, trivial, hat⟩, trivial⟩,
      .sent (.sent hd.running hi hget hst rfl le_rfl) hget (Nat.eq_zero_or_pos _).symm⟩).elim
  | @reading st hsz _ =>
    obtain rfl : st = .posted := hst
    have hnone : n.toServer (n.world.srv.gCtxs i).socket = [] := by
      by_contra hmore
      simp only [unacted, Status.transferred, Nat.add_zero] at htaken
      rw [Net.toServer, htaken] at hmore
      -- the next packet could be received
      obtain ⟨packet, hnext, hnew⟩ := exists_next_of_flatten_drop (hok.packets _) hmore
      obtain ⟨hne, hfits⟩ := hd.packet_fits _ packet (List.mem_of_getElem? hnext)
      rw [← htaken] at hnew
      refine hrest (.received i 0 packet) _ ⟨⟨⟨fun _ o' ho' => ?_, trivial, hat⟩, trivial⟩,
        .received (.received hd.running hi hget rfl rfl hfits) hget hnew
          fun hnil => absurd hnil hne⟩
      obtain rfl := Option.some.inj (hget.symm.trans ho')
      exact hnext
    refine ⟨⟨hd.running, hi, hops, hsz⟩, hnone, Bool.eq_false_iff.mpr fun hgone => ?_⟩
    -- the end of the connection could be noticed
    exact hrest (.received i 0 []) _ ⟨⟨⟨fun hnil => absurd rfl hnil, trivial, hat⟩, trivial⟩,
      .received (.received hd.running hi hget rfl rfl (Nat.zero_le _)) hget List.nil_prefix
        fun _ => ⟨hnone, hgone⟩⟩

end AtRest

/-- The server has nothing left to do for the client of the connection `c`. -/
structure Settled (env : Env Os) (n : Net Os) (c : ℕ) : Prop where
  /-- The client is running. -/
  running : (n.peers c).phase.gone = false
  /-- A slot waits for its next packet. -/
  reads : ∃ i, (n.world.srv.gCtxs i).socket = c ∧ Reads n.world i
  /-- Every packet has been acted on. -/
  acted : n.world.packets c = (n.peers c).sent
  /-- Every packet has been answered. -/
  answered : (n.world.replies c).length = (n.peers c).sent.length
  /-- Every reply has left. -/
  left : n.world.wire c = (n.world.replies c).flatten
  /-- A client that waits can take the whole of its reply, and is then back at the menu. -/
  awaited : n.Waiting c → ∃ r n', n.toClient c = r ∧
    ((netMachine env).restrict (Orderly Net.Held)).step n (.receive c r) n' ∧
    (n'.peers c).phase = .menu

/-- No reply of a session is empty, and the client's buffer holds it. -/
theorem Session.reply_fits (hlaw : env.csp.Lawful) (htext : env.Texts) {p : Peer}
    {handle : Option ℕ} {m : ℕ} {replies : List (List UInt8)} {handled : List (Handling Os)}
    (h : Session env p handle m replies handled)
    (hwf : env.csp.wellFormed p.client.publicKey = true)
    (hpub : p.client.publicKey.length < bufSize) :
    ∀ r ∈ replies, r ≠ [] ∧ r.length ≤ clientBufSize := by
  have hsizes : bufSize = 512 ∧ clientBufSize = 1024 := ⟨rfl, rfl⟩
  cases h with
  | silent _ _ _ _ => simp
  | asked _ _ _ => simp
  | @keyed key texts handled hk =>
    intro r hr
    rw [Csp.replies, List.mem_cons, List.mem_map] at hr
    rcases hr with rfl | ⟨text, ht, rfl⟩
    · have hblob := hlaw.length_simpleBlob key _ hwf
      refine ⟨List.cons_ne_nil _ _, ?_⟩
      rw [List.length_cons]
      omega
    · obtain ⟨i, hi, rfl⟩ := List.mem_iff_getElem.mp ht
      have hi' : i < (p.requests.zip handled).length := hk.formed.length_eq ▸ hi
      have htextOf := hk.formed.get hi' hi
      have hr := (List.of_mem_zip (List.get_mem (p.requests.zip handled) ⟨i, hi'⟩)).1
      obtain ⟨text, htextOf', hne, hfits⟩ := htext _ _ (hk.typed _ hr) htextOf.request
      obtain rfl := Option.some.inj (htextOf'.written.symm.trans htextOf.written)
      rw [ne_eq, KeyStream.apply_eq_nil_iff, KeyStream.length_apply]
      exact ⟨hne, hfits.le.trans (by decide)⟩

/-- Every packet acted on has been answered. -/
theorem Session.length_replies {p : Peer} {handle : Option ℕ} {m : ℕ}
    {replies : List (List UInt8)} {handled : List (Handling Os)}
    (h : Session env p handle m replies handled) : replies.length = m := by
  cases h with
  | silent _ _ _ _ => rfl
  | asked _ _ _ => rfl
  | keyed _ => simp [Csp.replies]

/-- A client that waits has one reply to take: the last. -/
theorem Session.awaited {p : Peer} {handle : Option ℕ} {m : ℕ} {replies : List (List UInt8)}
    {handled : List (Handling Os)} (h : Session env p handle m replies handled)
    (hphase : p.phase = .keySent ∨ p.phase = .requested)
    (hgot : p.got <+: replies) (hall : m = p.sent.length) :
    ∃ r, replies = p.got ++ [r] := by
  cases h with
  | silent hph _ _ _ => rcases hphase with h | h <;> simp [h] at hph
  | asked _ hsent _ => simp [hsent] at hall
  | @keyed key texts handled hk =>
    have hlast : (env.csp.replies key p.client.publicKey texts).length = p.got.length + 1 := by
      rw [hk.sent] at hall
      simp only [Csp.packets, Csp.replies, List.length_cons, List.length_map] at hall ⊢
      rcases hk.phase with ⟨_, hnone, hreq⟩ | ⟨_, hlen⟩ | ⟨hph, _⟩
      · rw [hall, hnone, hreq]
        rfl
      · omega
      · rcases hphase with h | h <;> simp [h] at hph
    obtain ⟨rest, hrest⟩ := hgot
    rw [← hrest] at hlast ⊢
    rw [List.length_append, Nat.add_left_cancel_iff] at hlast
    obtain ⟨r, rfl⟩ := List.length_eq_one_iff.mp hlast
    exact ⟨r, rfl⟩

/-- **At rest nothing is left to do for a client that has connected**: it has exited and its
connection is closed, or it is settled. -/
theorem settled_of_atRest (hlaw : env.csp.Lawful) (htext : env.Texts) {n : Net Os}
    (hr : ((netMachine env).restrict (Orderly Net.Held)).Reachable n) (hat : AtMost99 n.Held)
    (os : Os) (hrest : (serverMachine env).AtRest n) {c : ℕ} (hc : (n.peers c).phase ≠ .absent) :
    (c ∈ n.world.srv.handles.closed ∧ (n.peers c).phase = .exited) ∨ Settled env n c := by
  obtain ⟨hok, hd⟩ := deliveryOk_reachable hlaw htext hr
  have hg := good_of_net hr.of_restrict
  have hp := placed_reachable hlaw htext hr
  by_cases hclosed : c ∈ n.world.srv.handles.closed
  · exact .inl ⟨hclosed, hd.closed c hclosed⟩
  · obtain ⟨i, hi, rfl⟩ := seated_of_atRest hd hp hat os hrest ⟨hc, hclosed⟩
    obtain ⟨hreads, hnone, hrunning⟩ :=
      reads_of_atRest hd hp hat os hrest hok hg hi (hp.socket _ hc)
    generalize hsock : (n.world.srv.gCtxs i).socket = c at *
    have hidle : n.Idle c :=
      ⟨hnone, i, _, hi, hsock, hreads.op ▸ List.mem_singleton.mpr rfl, rfl, rfl⟩
    have hpacket := hd.packet_fits c
    obtain ⟨hacted, hleft⟩ := hd.idle hok hg hidle fun x hx => (hpacket x hx).1
    have hsession := hd.session c
    have hreplies := hsession.reply_fits hlaw htext (hd.publicKey c).1 (hd.publicKey c).2
    refine .inr ⟨hrunning, ⟨i, hsock, hreads⟩, hacted, ?_, hleft, fun hw => ?_⟩
    · rw [hsession.length_replies, hacted]
    · obtain ⟨r, hlast⟩ := hsession.awaited hw (hok.replies c) (congrArg List.length hacted)
      have hto : n.toClient c = r := by
        rw [Net.toClient, hleft, hlast, List.flatten_append, List.drop_left, List.flatten_singleton]
      obtain ⟨hne, hfits⟩ := hreplies r (by simp [hlast])
      have hwhole : (n.world.replies c)[(n.peers c).got.length]? = some r := by simp [hlast]
      obtain ⟨_, hmenu⟩ := hsession.receive hlaw hw (hd.publicKey c).1
        (fun key hkey hreq => hd.sessionKey hlaw hok (.inr hreq) hkey) hwhole
      refine ⟨r, _, hto, ⟨⟨hwhole, trivial, hat⟩, .receive hw hne hfits (by rw [hto])⟩, ?_⟩
      rw [Net.setPeer_peers, if_pos rfl]
      exact hmenu

/-- Only the server has moved. -/
theorem peers_of_serverStep {n n' : Net Os} {e : NetEvent Os}
    (hs : (serverMachine env).step n e n') :
    n'.peers = n.peers ∧ n.world.srv.handles.closed ⊆ n'.world.srv.handles.closed := by
  obtain ⟨⟨_, hserver⟩, hs⟩ := hs
  cases hs with
  | received hs _ _ _ => exact ⟨rfl, closed_subset_step hs⟩
  | sent hs _ _ => exact ⟨rfl, closed_subset_step hs⟩
  | dequeue hs _ _ _ => exact ⟨rfl, closed_subset_step hs⟩
  | connect => exact hserver.elim
  | sendKey => exact hserver.elim
  | request => exact hserver.elim
  | receive => exact hserver.elim
  | exit => exact hserver.elim

/-- The server's steps are steps of the whole. -/
theorem reachable_of_serverStep {n n' : Net Os} {e : NetEvent Os}
    (hr : ((netMachine env).restrict (Orderly Net.Held)).Reachable n)
    (hs : (serverMachine env).step n e n') :
    ((netMachine env).restrict (Orderly Net.Held)).Reachable n' :=
  hr.step (M := (netMachine env).restrict (Orderly Net.Held)) ⟨hs.1.1, hs.2⟩

theorem reachable_of_serverRun {n n' : Net Os} {count : ℕ}
    (hrun : (serverMachine env).Run count n n')
    (hr : ((netMachine env).restrict (Orderly Net.Held)).Reachable n) :
    ((netMachine env).restrict (Orderly Net.Held)).Reachable n' :=
  hrun.invariant (P := ((netMachine env).restrict (Orderly Net.Held)).Reachable)
    (fun _ _ _ => reachable_of_serverStep) hr

/-- The server holds no more connections than before. -/
theorem AtMost99.of_serverRun {n n' : Net Os} (hat : AtMost99 n.Held) {count : ℕ}
    (hrun : (serverMachine env).Run count n n') : AtMost99 n'.Held ∧ n'.peers = n.peers := by
  have hkept : n'.peers = n.peers ∧
      n.world.srv.handles.closed ⊆ n'.world.srv.handles.closed :=
    hrun.invariant (P := fun m => m.peers = n.peers ∧
        n.world.srv.handles.closed ⊆ m.world.srv.handles.closed)
      (fun _ _ _ ⟨hpeers, hsub⟩ hs => ⟨(peers_of_serverStep hs).1.trans hpeers,
        List.Subset.trans hsub (peers_of_serverStep hs).2⟩) ⟨rfl, List.Subset.refl _⟩
  refine ⟨fun S hS => hat S fun c hc => ?_, hkept.1⟩
  obtain ⟨hpresent, hopen⟩ := hS c hc
  exact ⟨hkept.1 ▸ hpresent, fun hmem => hopen (hkept.2 hmem)⟩

section Orderly

variable (hlaw : env.csp.Lawful) (htext : env.Texts)

include hlaw htext

/-- So it comes to rest. -/
theorem exists_atRest_of_orderly {n : Net Os}
    (hr : ((netMachine env).restrict (Orderly Net.Held)).Reachable n) :
    ∃ count n', (serverMachine env).Run count n n' ∧ (serverMachine env).AtRest n' :=
  Machine.exists_atRest (P := ((netMachine env).restrict (Orderly Net.Held)).Reachable)
    (fun _ _ _ => reachable_of_serverStep) (fun _ _ _ => work_lt_of_step hlaw htext) hr

/-- **A client that waits can be brought back to the menu**, by the server alone but for its own
`recv`. -/
theorem exists_menu (os : Os) {n : Net Os}
    (hr : ((netMachine env).restrict (Orderly Net.Held)).Reachable n) (hat : AtMost99 n.Held)
    {c : ℕ} (hw : n.Waiting c) :
    ∃ n', ((netMachine env).restrict (Orderly Net.Held)).Reachable n' ∧ AtMost99 n'.Held ∧
      (n'.peers c).phase = .menu ∧ (n'.peers c).requests = (n.peers c).requests ∧
      ∀ d, d ≠ c → n'.peers d = n.peers d := by
  obtain ⟨count, n₁, hrun, hrest⟩ := exists_atRest_of_orderly hlaw htext hr
  obtain ⟨hat₁, hpeers⟩ := hat.of_serverRun hrun
  have hr₁ := reachable_of_serverRun hrun hr
  have hpresent : (n₁.peers c).phase ≠ .absent := by
    rw [hpeers]
    rcases hw with h | h <;> simp [h]
  have hsettled := (settled_of_atRest hlaw htext hr₁ hat₁ os hrest hpresent).resolve_left
    fun hgone => by
      rw [hpeers] at hgone
      rcases hw with h | h <;> simp [h] at hgone
  obtain ⟨r, n₂, _, hstep, hmenu⟩ := hsettled.awaited (by rwa [Net.Waiting, hpeers])
  refine ⟨n₂, hr₁.step (M := (netMachine env).restrict (Orderly Net.Held)) hstep, ?_, hmenu, ?_,
    fun d hd => ?_⟩
  · cases hstep.2 with
    | receive hphase _ _ _ =>
      refine fun S hS => hat₁ S fun d hd => ⟨fun habsent => ?_, (hS d hd).2⟩
      by_cases hdc : d = c
      · exact hpresent (hdc ▸ habsent)
      · refine (hS d hd).1 ?_
        rw [Net.setPeer_peers, if_neg hdc, habsent]
  · cases hstep.2 with
    | receive hphase _ _ _ =>
      rw [Net.setPeer_peers, if_pos rfl, ((n₁.peers c).receive_records env.csp r).2.2, hpeers]
  · cases hstep.2 with
    | receive hphase _ _ _ => rw [Net.setPeer_peers, if_neg hd, hpeers]

end Orderly

end Tcp
end BsitLabs
