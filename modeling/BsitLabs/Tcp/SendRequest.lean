import BsitLabs.Tcp.Network

/-!
# A packet leaves in pieces

In `Net` a client's packet leaves at once.  `send_request` gives `send` what is left of
`send_buf` until nothing is left, and `send` takes as much of it as it likes; in between the server
may take what has left already, and if a `send` fails the rest of the packet never leaves, which
`main` does not notice.

`StreamNet` has the loop, one `send` a step, and the stream of bytes that have left.

* `leaves_reachable` --- in every run a stream consists of beginnings of the client's packets, one
  of each, in order;
* `exists_streamNet_iff` --- where no `send` fails, the states of the network that come up are
  those that come up with packets that leave at once.
-/

namespace BsitLabs
namespace Tcp

open Transition

/-! ## The loop -/

/-- `send_request`: what it sends, and `send_bytes`. -/
structure Sending where
  sendBuf : List UInt8
  sendBytes : ℕ

namespace Sending

/-- The condition of the loop. -/
def Continues (s : Sending) : Prop := s.sendBytes < s.sendBuf.length

/-- What is given to `send`. -/
def rest (s : Sending) : List UInt8 := s.sendBuf.drop s.sendBytes

/-- There is nothing to send, or the loop has been left. -/
def idle : Sending := ⟨[], 0⟩

/-- An iteration, for a result of `send`: a negative one ends the loop. -/
def next (s : Sending) (res : ℤ) : Sending :=
  if res < 0 then idle else { s with sendBytes := s.sendBytes + res.toNat }

theorem rest_eq_nil_iff (s : Sending) : s.rest = [] ↔ ¬ s.Continues := by
  rw [rest, List.drop_eq_nil_iff, Continues, Nat.not_lt]

@[simp] theorem rest_idle : idle.rest = [] := rfl

@[simp] theorem rest_start (packet : List UInt8) : (Sending.mk packet 0).rest = packet := rfl

theorem next_of_neg {s : Sending} {res : ℤ} (h : res < 0) : s.next res = idle := if_pos h

theorem next_of_nonneg {s : Sending} {res : ℤ} (h : 0 ≤ res) :
    s.next res = { s with sendBytes := s.sendBytes + res.toNat } := if_neg (by omega)

/-- What `send` takes stands in front of what is left. -/
theorem take_append_rest_next (s : Sending) {res : ℤ} (h : 0 ≤ res) :
    s.rest.take res.toNat ++ (s.next res).rest = s.rest := by
  rw [next_of_nonneg h, rest, rest, ← List.drop_drop, List.take_append_drop]

/-- And behind what has been taken. -/
theorem take_next (s : Sending) {res : ℤ} (h : 0 ≤ res) :
    s.sendBuf.take s.sendBytes ++ s.rest.take res.toNat =
      (s.next res).sendBuf.take (s.next res).sendBytes := by
  rw [next_of_nonneg h, rest, List.take_add]

end Sending

/-! ## The network with streams -/

/-- The network, where the packets in `sent` are those that `send_request` has been called for. -/
structure StreamNet (Os : Type) where
  net : Net Os
  sending : ℕ → Sending
  /-- What has left of each client. -/
  stream : ℕ → List UInt8

/-- What happens in a step. -/
inductive StreamEvent (Os : Type) where
  | net (e : NetEvent Os)
  | send (c : ℕ) (res : ℤ)

/-- What has nothing to do with the clients' streams. -/
def NetEvent.Still {Os : Type} : NetEvent Os → Prop
  | .connect .. | .sent .. | .dequeue .. | .exit .. => True
  | _ => False

variable {Os : Type} {env : Env Os}

/-- The steps of the network, where packets leave by `send`. -/
inductive StreamNet.Step (env : Env Os) : StreamNet Os → StreamEvent Os → StreamNet Os → Prop where
  | still {v : StreamNet Os} {e : NetEvent Os} {n : Net Os} (he : e.Still)
      (hs : Net.Step env v.net e n) : Step env v (.net e) { v with net := n }
  /-- The server takes what has left. -/
  | received {v : StreamNet Os} {i : Slot} {k : ℕ} {data : List UInt8} {w : World Os} {o : Op}
      (hs : World.Step env v.net.world (.received i k data) w)
      (ho : (v.net.world.pending i)[k]? = some o)
      (hdata : data <+: (v.stream o.sock).drop (v.net.taken o.sock))
      (hend : data = [] → (v.stream o.sock).drop (v.net.taken o.sock) = [] ∧
        (v.net.peers o.sock).phase.gone) :
      Step env v (.net (.received i k data))
        { v with
          net :=
            { v.net with
              world := w
              taken := Function.update v.net.taken o.sock (v.net.taken o.sock + data.length) } }
  /-- The key packet is formed, and `send_request` is called. -/
  | sendKey {v : StreamNet Os} {c : ℕ} {packet : List UInt8} {n : Net Os}
      (hform : (v.net.peers c).client.requestFormation = some packet)
      (hs : Net.Step env v.net (.sendKey c) n) :
      Step env v (.net (.sendKey c))
        { v with net := n, sending := Function.update v.sending c ⟨packet, 0⟩ }
  /-- A request is formed, and `send_request` is called. -/
  | request {v : StreamNet Os} {c : ℕ} {t : RequestType} {arg packet : List UInt8} {n : Net Os}
      (hform : ((v.net.peers c).ask t arg).client.requestFormation = some packet)
      (hs : Net.Step env v.net (.request c t arg) n) :
      Step env v (.net (.request c t arg))
        { v with net := n, sending := Function.update v.sending c ⟨packet, 0⟩ }
  /-- `send` has returned. -/
  | send {v : StreamNet Os} {c : ℕ} {res : ℤ} (hloop : (v.sending c).Continues)
      (hres : res ≤ (v.sending c).rest.length) :
      Step env v (.send c res)
        { v with
          sending := Function.update v.sending c ((v.sending c).next res)
          stream := Function.update v.stream c
            (v.stream c ++ (v.sending c).rest.take res.toNat) }
  /-- `recv` is called when the loop has been left. -/
  | receive {v : StreamNet Os} {c : ℕ} {data : List UInt8} {n : Net Os}
      (hreturned : ¬ (v.sending c).Continues) (hs : Net.Step env v.net (.receive c data) n) :
      Step env v (.net (.receive c data)) { v with net := n }

/-- The runs of the network with streams. -/
def streamMachine (env : Env Os) : Machine (StreamNet Os) (StreamEvent Os) where
  init v := (netMachine env).init v.net ∧ v.sending = (fun _ => .idle) ∧ v.stream = fun _ => []
  step := StreamNet.Step env

/-! ## What leaves -/

/-- The client is in `send_request` or `recv_request`. -/
def Phase.Exchanging (phase : Phase) : Prop := phase = .keySent ∨ phase = .requested

/-- The stream consists of beginnings of the packets, one of each, in order; if `send_request`
has been called for the last and has not failed, what has left of it is what the loop has
counted. -/
def Leaves (sent : List (List UInt8)) (stream : List UInt8) (s : Sending) : Prop :=
  ∃ front pieces, List.Forall₂ (· <+: ·) pieces front ∧
    (sent = front ∧ stream = pieces.flatten ∧ ¬ s.Continues ∨
      sent = front ++ [s.sendBuf] ∧ stream = pieces.flatten ++ s.sendBuf.take s.sendBytes)

namespace Leaves

variable {sent : List (List UInt8)} {stream : List UInt8} {s : Sending}

/-- One beginning of each packet. -/
theorem pieces (h : Leaves sent stream s) :
    ∃ pieces, List.Forall₂ (· <+: ·) pieces sent ∧ stream = pieces.flatten := by
  obtain ⟨front, pieces, hpieces, ⟨rfl, rfl, -⟩ | ⟨rfl, rfl⟩⟩ := h
  · exact ⟨pieces, hpieces, rfl⟩
  · refine ⟨pieces ++ [s.sendBuf.take s.sendBytes], ?_, ?_⟩
    · exact List.rel_append hpieces (.cons (List.take_prefix _ _) .nil)
    · rw [List.flatten_append, List.flatten_singleton]

/-- The next packet. -/
theorem start (h : Leaves sent stream s) (packet : List UInt8) :
    Leaves (sent ++ [packet]) stream ⟨packet, 0⟩ := by
  obtain ⟨pieces, hpieces, rfl⟩ := h.pieces
  exact ⟨sent, pieces, hpieces, .inr ⟨rfl, by rw [List.take_zero, List.append_nil]⟩⟩

/-- An iteration. -/
theorem next (h : Leaves sent stream s) (hloop : s.Continues) (res : ℤ) :
    Leaves sent (stream ++ s.rest.take res.toNat) (s.next res) := by
  obtain ⟨front, pieces, hpieces, ⟨-, -, hnot⟩ | ⟨rfl, rfl⟩⟩ := h
  · exact absurd hloop hnot
  rcases lt_or_ge res 0 with hneg | hpos
  · have hall : Leaves (front ++ [s.sendBuf]) (pieces.flatten ++ s.sendBuf.take s.sendBytes) s :=
      ⟨front, pieces, hpieces, .inr ⟨rfl, rfl⟩⟩
    obtain ⟨pieces', hpieces', hstream⟩ := hall.pieces
    rw [Sending.next_of_neg hneg, Int.toNat_of_nonpos hneg.le, List.take_zero, List.append_nil]
    exact ⟨_, pieces', hpieces', .inl ⟨rfl, hstream, by simp [Sending.Continues, Sending.idle]⟩⟩
  · refine ⟨front, pieces, hpieces, .inr ⟨?_, ?_⟩⟩
    · rw [Sending.next_of_nonneg hpos]
    · rw [List.append_assoc, s.take_next hpos]

end Leaves

/-- A client's loop goes on only in an exchange. -/
structure StreamOk (v : StreamNet Os) (c : ℕ) : Prop where
  returned : ¬ (v.net.peers c).phase.Exchanging → ¬ (v.sending c).Continues
  leaves : Leaves (v.net.peers c).sent (v.stream c) (v.sending c)

/-- Without an exchange, a client has sent what it had. -/
theorem sent_of_still {n n' : Net Os} {e : NetEvent Os} (he : e.Still) (hs : Net.Step env n e n')
    (c : ℕ) : (n'.peers c).sent = (n.peers c).sent ∧
      ((n.peers c).phase.Exchanging → (n'.peers c).phase.Exchanging) := by
  have hpeer : ∀ (d : ℕ) (p : Peer), p.sent = (n.peers d).sent →
      ¬ (n.peers d).phase.Exchanging → _ := fun d p hsent hphase =>
    n.setPeer_relates
      (R := fun q q' => q'.sent = q.sent ∧ (q.phase.Exchanging → q'.phase.Exchanging))
      (fun _ => ⟨rfl, id⟩) (d := d) (p := p) ⟨hsent, fun h => absurd h hphase⟩ c
  cases hs with
  | connect _ hphase => exact hpeer _ _ rfl (by simp [hphase, Phase.Exchanging])
  | received => exact he.elim
  | sent => exact ⟨rfl, id⟩
  | dequeue => exact ⟨rfl, id⟩
  | sendKey => exact he.elim
  | request => exact he.elim
  | receive => exact he.elim
  | exit hphase => exact hpeer _ _ rfl (by simp [hphase, Phase.Exchanging])

/-- A packet is handed to `send_request`, and the others have what they had. -/
theorem peers_of_packet {n n' : Net Os} {e : NetEvent Os} {c : ℕ} {packet : List UInt8}
    (he : (e = .sendKey c ∧ (n.peers c).client.requestFormation = some packet) ∨
      ∃ t arg, e = .request c t arg ∧
        ((n.peers c).ask t arg).client.requestFormation = some packet)
    (hs : Net.Step env n e n') : ¬ (n.peers c).phase.Exchanging ∧
      (n'.peers c).phase.Exchanging ∧ (n'.peers c).sent = (n.peers c).sent ++ [packet] ∧
      ∀ d, d ≠ c → n'.peers d = n.peers d := by
  rcases he with ⟨rfl, hform⟩ | ⟨t, arg, rfl, hform⟩
  · cases hs with
    | sendKey hphase hform' =>
      obtain rfl := Option.some.inj (hform.symm.trans hform')
      refine ⟨by simp [hphase, Phase.Exchanging], ?_, ?_, fun d hd => ?_⟩
      · rw [Net.setPeer_peers, if_pos rfl]
        exact .inl rfl
      · rw [Net.setPeer_peers, if_pos rfl]
        rfl
      · rw [Net.setPeer_peers, if_neg hd]
  · cases hs with
    | request hphase harg hform' =>
      obtain rfl := Option.some.inj (hform.symm.trans hform')
      refine ⟨by simp [hphase, Phase.Exchanging], ?_, ?_, fun d hd => ?_⟩
      · rw [Net.setPeer_peers, if_pos rfl]
        exact .inr rfl
      · rw [Net.setPeer_peers, if_pos rfl]
        rfl
      · rw [Net.setPeer_peers, if_neg hd]

/-- Receiving sends nothing. -/
theorem sent_of_receive {n n' : Net Os} {c : ℕ} {data : List UInt8}
    (hs : Net.Step env n (.receive c data) n') (d : ℕ) : (n'.peers d).sent = (n.peers d).sent ∧
      (d ≠ c → (n.peers d).phase.Exchanging → (n'.peers d).phase.Exchanging) := by
  cases hs with
  | receive _ _ _ _ =>
    rw [Net.setPeer_peers]
    by_cases hd : d = c
    · rw [if_pos hd, hd]
      exact ⟨(Peer.receive_records _ _ _).2.1, fun hne => absurd rfl hne⟩
    · rw [if_neg hd]
      exact ⟨rfl, fun _ => id⟩

/-- What `send_request` has been called with is on its way. -/
theorem StreamOk.start {v : StreamNet Os} (h : ∀ d, StreamOk v d) {c : ℕ} {packet : List UInt8}
    {n : Net Os} (hphase : (n.peers c).phase.Exchanging)
    (hsent : (n.peers c).sent = (v.net.peers c).sent ++ [packet])
    (hothers : ∀ d, d ≠ c → n.peers d = v.net.peers d) (d : ℕ) :
    StreamOk { v with net := n, sending := Function.update v.sending c ⟨packet, 0⟩ } d := by
  by_cases hd : d = c
  · subst hd
    refine ⟨fun hnot => absurd hphase hnot, ?_⟩
    simp only [Function.update_self, hsent]
    exact (h d).leaves.start packet
  · refine ⟨?_, ?_⟩
    · simpa only [Function.update_of_ne hd, hothers d hd] using (h d).returned
    · simpa only [Function.update_of_ne hd, hothers d hd] using (h d).leaves

theorem streamOk_step {v v' : StreamNet Os} {e : StreamEvent Os} (h : ∀ c, StreamOk v c)
    (hs : StreamNet.Step env v e v') (d : ℕ) : StreamOk v' d := by
  cases hs with
  | still he hs =>
    obtain ⟨hsent, hphase⟩ := sent_of_still he hs d
    exact ⟨fun hnot => (h d).returned fun hx => hnot (hphase hx), hsent ▸ (h d).leaves⟩
  | received => exact ⟨(h d).returned, (h d).leaves⟩
  | sendKey hform hs =>
    obtain ⟨_, hphase, hsent, hothers⟩ := peers_of_packet (.inl ⟨rfl, hform⟩) hs
    exact StreamOk.start h hphase hsent hothers d
  | request hform hs =>
    obtain ⟨_, hphase, hsent, hothers⟩ := peers_of_packet (.inr ⟨_, _, rfl, hform⟩) hs
    exact StreamOk.start h hphase hsent hothers d
  | @send c res hloop hres =>
    by_cases hd : d = c
    · subst hd
      refine ⟨fun hnot => absurd hloop ((h d).returned hnot), ?_⟩
      simp only [Function.update_self]
      exact (h d).leaves.next hloop res
    · refine ⟨?_, ?_⟩
      · simpa only [Function.update_of_ne hd] using (h d).returned
      · simpa only [Function.update_of_ne hd] using (h d).leaves
  | @receive c data n hreturned hs =>
    obtain ⟨hsent, hphase⟩ := sent_of_receive hs d
    refine ⟨fun hnot => ?_, hsent ▸ (h d).leaves⟩
    by_cases hd : d = c
    · rw [hd]
      exact hreturned
    · exact (h d).returned fun hx => hnot (hphase hd hx)

theorem streamOk_reachable {v : StreamNet Os} (hr : (streamMachine env).Reachable v) (c : ℕ) :
    StreamOk v c := by
  induction hr generalizing c with
  | init hi =>
    obtain ⟨⟨_, _, pub, buf, _, hpeers⟩, hsending, hstream⟩ := hi
    refine ⟨fun _ => by simp [hsending, Sending.Continues, Sending.idle], [], [], .nil, .inl ?_⟩
    rw [hpeers, hsending, hstream]
    exact ⟨rfl, rfl, by simp [Sending.Continues, Sending.idle]⟩
  | step _ hs ih => exact streamOk_step ih hs c

/-- **What leaves of the packets.**  In every run, whether `send` fails or not and however little it
takes, a client's stream consists of beginnings of its packets, one of each, in order. -/
theorem leaves_reachable (env : Env Os) {v : StreamNet Os} (hr : (streamMachine env).Reachable v)
    (c : ℕ) : ∃ pieces, List.Forall₂ (· <+: ·) pieces (v.net.peers c).sent ∧
      v.stream c = pieces.flatten := (streamOk_reachable hr c).leaves.pieces

/-- The first client's key packet is cut behind its first byte. -/
theorem leaves_reachable_sample : ∃ v : StreamNet Unit, (streamMachine Env.sample).Reachable v ∧
    (v.net.peers 2).sent = [[0, 6]] ∧ v.stream 2 = [0] ∧
    ∃ pieces, List.Forall₂ (· <+: ·) pieces (v.net.peers 2).sent ∧ v.stream 2 = pieces.flatten := by
  have hwf : Env.sample.csp.wellFormed [6] = true := rfl
  have hform : ((Net.sampleConnected ()).peers 2).client.requestFormation = some [0, 6] := by
    rw [Net.sampleConnected_peer]
    exact Client.requestFormation_key rfl (show 1 < clientBufSize by decide)
  have h₀ : (streamMachine Env.sample).Reachable ⟨Net.sample, fun _ => .idle, fun _ => []⟩ :=
    .init ⟨Net.sample_init hwf, rfl, rfl⟩
  have h₁ := h₀.step (M := streamMachine Env.sample) (e := .net (.connect 0))
    (.still trivial (Net.step_sampleConnecting Env.sample))
  have h₂ := h₁.step (M := streamMachine Env.sample) (e := .net (.dequeue 0 0 (.allYes ())))
    (.still trivial (Net.step_sampleConnected Env.sample ()))
  have h₃ := h₂.step (M := streamMachine Env.sample) (e := .net (.sendKey 2))
    (.sendKey hform (Net.step_sampleKeySent Env.sample ()))
  -- one byte leaves, and the next `send` fails
  have h₄ := h₃.step (M := streamMachine Env.sample) (e := .send 2 1)
    (.send (show 0 < 2 by decide) (show (1 : ℤ) ≤ (2 : ℕ) by decide))
  have h₅ := h₄.step (M := streamMachine Env.sample) (e := .send 2 (-1))
    (.send (show 1 < 2 by decide) (show (-1 : ℤ) ≤ (1 : ℕ) by decide))
  have hsent : ((Net.sampleKeySent ()).peers 2).sent = [[0, 6]] := by
    rw [Net.sampleKeySent_peer]
    rfl
  exact ⟨_, h₅, hsent, rfl, leaves_reachable Env.sample h₅ 2⟩

/-! ## Packets that leave at once -/

/-- No `send` fails, and the network's steps meet a condition. -/
def Unbroken (ok : Net Os → NetEvent Os → Prop) (v : StreamNet Os) : StreamEvent Os → Prop
  | .net e => ok v.net e
  | .send _ res => 0 ≤ res

/-- Nothing is lost: what has left and what the loop still has to send are the packets. -/
def Kept (v : StreamNet Os) : Prop :=
  ∀ c, v.stream c ++ (v.sending c).rest = (v.net.peers c).sent.flatten

variable {ok : Net Os → NetEvent Os → Prop}

theorem Kept.start {v : StreamNet Os} (h : Kept v) (hok : ∀ d, StreamOk v d) {c : ℕ}
    {packet : List UInt8} {n : Net Os} (hphase : ¬ (v.net.peers c).phase.Exchanging)
    (hsent : (n.peers c).sent = (v.net.peers c).sent ++ [packet])
    (hothers : ∀ d, d ≠ c → n.peers d = v.net.peers d) :
    Kept { v with net := n, sending := Function.update v.sending c ⟨packet, 0⟩ } := by
  intro d
  by_cases hd : d = c
  · subst hd
    have hrest := (Sending.rest_eq_nil_iff _).mpr ((hok d).returned hphase)
    have hkept := h d
    rw [hrest, List.append_nil] at hkept
    simp only [Function.update_self, Sending.rest_start, hsent, hkept, List.flatten_append,
      List.flatten_singleton]
  · simpa only [Function.update_of_ne hd, hothers d hd] using h d

theorem kept_step {v v' : StreamNet Os} {e : StreamEvent Os} (h : Kept v) (hok : ∀ c, StreamOk v c)
    (hs : ((streamMachine env).restrict (Unbroken ok)).step v e v') : Kept v' := by
  obtain ⟨hunbroken, hs⟩ := hs
  cases hs with
  | still he hs =>
    intro d
    rw [(sent_of_still he hs d).1]
    exact h d
  | received => exact h
  | sendKey hform hs =>
    obtain ⟨hphase, _, hsent, hothers⟩ := peers_of_packet (.inl ⟨rfl, hform⟩) hs
    exact h.start hok hphase hsent hothers
  | request hform hs =>
    obtain ⟨hphase, _, hsent, hothers⟩ := peers_of_packet (.inr ⟨_, _, rfl, hform⟩) hs
    exact h.start hok hphase hsent hothers
  | @send c res hloop hres =>
    intro d
    by_cases hd : d = c
    · subst hd
      simp only [Function.update_self]
      rw [List.append_assoc, Sending.take_append_rest_next _ hunbroken]
      exact h d
    · simpa only [Function.update_of_ne hd] using h d
  | receive _ hs =>
    intro d
    rw [(sent_of_receive hs d).1]
    exact h d

theorem kept_reachable {v : StreamNet Os}
    (hr : ((streamMachine env).restrict (Unbroken ok)).Reachable v) : Kept v := by
  induction hr with
  | init hi =>
    obtain ⟨⟨_, _, pub, buf, _, hpeers⟩, hsending, hstream⟩ := hi
    intro c
    rw [hpeers, hsending, hstream]
    rfl
  | step hr hs ih => exact kept_step ih (streamOk_reachable hr.of_restrict) hs

/-- What has left is a beginning of the packets, and is all of them when the loop has been left. -/
theorem Kept.stream {v : StreamNet Os} (h : Kept v) (c : ℕ) :
    v.stream c <+: (v.net.peers c).sent.flatten ∧
      (¬ (v.sending c).Continues → v.stream c = (v.net.peers c).sent.flatten) := by
  have hkept := h c
  refine ⟨⟨_, hkept⟩, fun hleft => ?_⟩
  rwa [(Sending.rest_eq_nil_iff _).mpr hleft, List.append_nil] at hkept

/-- A step of the network with streams is a step of the network, or none. -/
theorem net_of_streamStep {v v' : StreamNet Os} {e : StreamEvent Os} (h : Kept v)
    (hok : ∀ c, StreamOk v c) (hs : StreamNet.Step env v e v') :
    (∃ c res, e = .send c res ∧ v'.net = v.net) ∨
      ∃ e', e = .net e' ∧ Net.Step env v.net e' v'.net := by
  cases hs with
  | still _ hs => exact .inr ⟨_, rfl, hs⟩
  | @received i k data w o hs ho hdata hend =>
    obtain ⟨hstream, hleft⟩ := h.stream o.sock
    refine .inr ⟨_, rfl, .received hs ho (hdata.trans (hstream.drop _)) fun hnil => ?_⟩
    obtain ⟨hall, hphase⟩ := hend hnil
    refine ⟨?_, hphase⟩
    have hnot : ¬ (v.net.peers o.sock).phase.Exchanging := by
      rintro (hx | hx) <;> simp [hx, Phase.gone] at hphase
    rw [Net.toServer, ← hleft ((hok o.sock).returned hnot), hall]
  | sendKey _ hs => exact .inr ⟨_, rfl, hs⟩
  | request _ hs => exact .inr ⟨_, rfl, hs⟩
  | send => exact .inl ⟨_, _, rfl, rfl⟩
  | receive _ hs => exact .inr ⟨_, rfl, hs⟩

/-- The network does not see the pieces. -/
theorem net_reachable {v : StreamNet Os}
    (hr : ((streamMachine env).restrict (Unbroken ok)).Reachable v) :
    ((netMachine env).restrict ok).Reachable v.net := by
  induction hr with
  | init hi => exact .init hi.1
  | @step v v' e hr hs ih =>
    obtain ⟨hunbroken, hstep⟩ := hs
    rcases net_of_streamStep (kept_reachable hr) (streamOk_reachable hr.of_restrict) hstep with
      ⟨c, res, rfl, hnet⟩ | ⟨e, rfl, hnet⟩
    · rwa [hnet]
    · exact ih.step (M := (netMachine env).restrict ok) ⟨hunbroken, hnet⟩

/-- A packet can leave by one `send`. -/
theorem exists_left {v : StreamNet Os}
    (hr : ((streamMachine env).restrict (Unbroken ok)).Reachable v)
    {c : ℕ} (hloop : (v.sending c).Continues) (hothers : ∀ d, d ≠ c → ¬ (v.sending d).Continues) :
    ∃ v', ((streamMachine env).restrict (Unbroken ok)).Reachable v' ∧ v'.net = v.net ∧
      ∀ d, ¬ (v'.sending d).Continues := by
  have hpos : (0 : ℤ) ≤ (v.sending c).rest.length := Int.natCast_nonneg _
  refine ⟨_, hr.step (M := (streamMachine env).restrict (Unbroken ok))
    (e := .send c (v.sending c).rest.length) ⟨hpos, .send hloop le_rfl⟩, rfl, fun d => ?_⟩
  by_cases hd : d = c
  · subst hd
    rw [← Sending.rest_eq_nil_iff]
    have hall := (v.sending d).take_append_rest_next hpos
    rw [Int.toNat_natCast, List.take_length] at hall
    simpa only [Function.update_self] using List.append_right_eq_self.mp hall
  · simpa only [Function.update_of_ne hd] using hothers d hd

/-- What is sent is sent before anything else happens. -/
theorem exists_sent {v : StreamNet Os}
    (hr : ((streamMachine env).restrict (Unbroken ok)).Reachable v)
    (hidle : ∀ c, ¬ (v.sending c).Continues) {e : NetEvent Os} {c : ℕ} {packet : List UInt8}
    (hne : packet ≠ []) {n : Net Os} (hok : ok v.net e) (hs : StreamNet.Step env v (.net e)
      { v with net := n, sending := Function.update v.sending c ⟨packet, 0⟩ }) :
    ∃ v', ((streamMachine env).restrict (Unbroken ok)).Reachable v' ∧ v'.net = n ∧
      ∀ d, ¬ (v'.sending d).Continues := by
  have hpos : (Sending.mk packet 0).Continues := List.length_pos_iff.mpr hne
  refine exists_left (hr.step (M := (streamMachine env).restrict (Unbroken ok)) (e := .net e)
    ⟨hok, hs⟩) (c := c) ?_ fun d hd => ?_
  · simpa only [Function.update_self] using hpos
  · simpa only [Function.update_of_ne hd] using hidle d

/-- A state of the network comes up with every packet gone. -/
theorem exists_streamNet {n : Net Os} (hr : ((netMachine env).restrict ok).Reachable n) :
    ∃ v, ((streamMachine env).restrict (Unbroken ok)).Reachable v ∧ v.net = n ∧
      ∀ c, ¬ (v.sending c).Continues := by
  induction hr with
  | @init n hi =>
    exact ⟨⟨n, fun _ => .idle, fun _ => []⟩, .init ⟨hi, rfl, rfl⟩, rfl,
      fun c => by simp [Sending.Continues, Sending.idle]⟩
  | @step n n' e _ hs ih =>
    obtain ⟨v, hv, rfl, hidle⟩ := ih
    obtain ⟨hok, hs⟩ := hs
    have hstill : ∀ {w : StreamNet Os}, StreamNet.Step env v (.net e) w → w.sending = v.sending →
        ∃ v', ((streamMachine env).restrict (Unbroken ok)).Reachable v' ∧ v'.net = w.net ∧
          ∀ c, ¬ (v'.sending c).Continues := fun hstep hsame =>
      ⟨_, hv.step (M := (streamMachine env).restrict (Unbroken ok)) (e := .net e) ⟨hok, hstep⟩, rfl,
        fun c => hsame ▸ hidle c⟩
    cases e with
    | connect k => exact hstill (.still trivial hs) rfl
    | received i k data =>
      cases hs with
      | @received _ _ _ w o hs ho hdata hend =>
        have hstream := ((kept_reachable hv).stream o.sock).2 (hidle o.sock)
        rw [Net.toServer, ← hstream] at hdata hend
        exact hstill (.received hs ho hdata hend) rfl
    | sent i k m => exact hstill (.still trivial hs) rfl
    | dequeue i k ans => exact hstill (.still trivial hs) rfl
    | sendKey c =>
      obtain ⟨packet, hform⟩ : ∃ packet, (v.net.peers c).client.requestFormation = some packet := by
        cases hs with
        | sendKey _ hform => exact ⟨_, hform⟩
      exact exists_sent hv hidle (Client.requestFormation_ne_nil hform) hok (.sendKey hform hs)
    | request c t arg =>
      obtain ⟨packet, hform⟩ :
          ∃ packet, ((v.net.peers c).ask t arg).client.requestFormation = some packet := by
        cases hs with
        | request _ _ hform => exact ⟨_, hform⟩
      exact exists_sent hv hidle (Client.requestFormation_ne_nil hform) hok (.request hform hs)
    | receive c data => exact hstill (.receive (hidle c) hs) rfl
    | exit c => exact hstill (.still trivial hs) rfl

/-- **Packets may as well leave at once.**  Where no `send` fails, the states of the network that
come up with packets that leave in pieces, which the server takes while they leave, are those that
come up with packets that leave at once. -/
theorem exists_streamNet_iff (env : Env Os) (ok : Net Os → NetEvent Os → Prop) (n : Net Os) :
    (∃ v, ((streamMachine env).restrict (Unbroken ok)).Reachable v ∧ v.net = n) ↔
      ((netMachine env).restrict ok).Reachable n := by
  constructor
  · rintro ⟨v, hv, rfl⟩
    exact net_reachable hv
  · intro hr
    obtain ⟨v, hv, hnet, _⟩ := exists_streamNet hr
    exact ⟨v, hv, hnet⟩

end Tcp
end BsitLabs
