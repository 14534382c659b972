import BsitLabs.Foundation.CText
import BsitLabs.Tcp.Client
import BsitLabs.Tcp.Packets
import Mathlib.Data.List.Forall2

/-!
# What the ciphertexts of a session tell

Requests and replies of a session are enciphered under one session key, and every call
of `CryptEncrypt` has `Final = TRUE`, on both sides.  So the keystream starts again with
every message, and messages of both directions are combined with the same bytes.

A listener who knows the lengths and the directions can rule out a session if no
keystream gives it the ciphertexts that were seen.  What can be ruled out is
`differences_iff`: the sessions that differ from the real one differently in two messages that
overlap.  Only a session with a single message that is not empty is hidden among all of
its shape (`secret_iff`).
-/

namespace BsitLabs
namespace Tcp

/-- A message of a session: a request, with what was typed in as its path, or the text
of a reply. -/
inductive Message where
  | request (t : RequestType) (arg : CText) (fits : arg.length < requestArgSize)
  | reply (text : CText) (fits : text.length ≤ bufSize)

/-- Another request of the same form. -/
def RequestType.other : RequestType → RequestType
  | .osVersion => .currentTime
  | .accessRight => .owner
  | .owner => .accessRight
  | _ => .osVersion

namespace Message

/-- The message goes from the client to the server. -/
def fromClient : Message → Bool
  | request .. => true
  | reply .. => false

/-- What is enciphered. -/
def plain : Message → List UInt8
  | request t arg _ => t.plain arg.bytes
  | reply text _ => text.bytes

/-- The ciphertext: what `request_formation` leaves in `send_buf`, and `msg_handler` in
`buf_send`. -/
def packet (c : Client) (ks : KeyStream) : Message → Option (List UInt8)
  | request t arg _ =>
    { c with sessionKey := some ks, requestType := some t,
             requestArg := arg.bytes }.requestFormation
  | reply text _ => cryptEncrypt (some ks) text.bytes bufSize

/-- **Every message is combined with the keystream from its start.** -/
theorem packet_eq (c : Client) (ks : KeyStream) (m : Message) :
    m.packet c ks = some (ks.apply m.plain) := by
  cases m with
  | request t arg fits =>
    exact Client.requestFormation_request (c := { c with
      sessionKey := some ks, requestType := some t, requestArg := arg.bytes }) rfl rfl fits
  | reply text fits => exact cryptEncrypt_some ks fits

/-- **What `msg_handler` leaves is the message of a reply**: the text of the request's handler,
enciphered under the key of the slot. -/
theorem exists_reply_of_msgHandler (c : Client) {Os : Type} {env : Env Os} {ans : Answers Os}
    {s s' : Server} {idx : Slot} (h : msgHandler env ans s idx = .ok s') :
    ∃ ks t text fits, MsgAccepted env (s.gCtxs idx) ks t ans.os ∧
      text.bytes = (s.gCtxs idx).replyText env ks t ans.os ∧
      (reply text fits).packet c ks = some (s'.gCtxs idx).reply := by
  obtain ⟨ks, t, hacc, rfl⟩ := msgHandler_eq_ok_iff.mp h
  have hnonzero : ∀ b ∈ (s.gCtxs idx).replyText env ks t ans.os, b ≠ 0 := fun b hb => by
    simpa using List.mem_takeWhile_imp hb
  refine ⟨ks, t, ⟨_, hnonzero⟩, hacc.fits, hacc, rfl, ?_⟩
  rw [packet_eq, Server.setCtx_gCtxs_self, answMsg_reply hacc.fits]
  rfl

/-- The same direction, and the same length. -/
structure SameShape (m m' : Message) : Prop where
  direction : m.fromClient = m'.fromClient
  length : m.plain.length = m'.plain.length

/-- A message of the same shape that begins with another byte, if it is not empty. -/
def vary : Message → Message
  | request t arg fits => request t.other arg fits
  | reply ⟨[], h⟩ fits => reply ⟨[], h⟩ fits
  | reply ⟨b :: text, h⟩ fits =>
    reply ⟨(if b = 1 then 2 else 1) :: text, fun x hx => by
      rcases List.mem_cons.mp hx with rfl | hx
      · split <;> decide
      · exact h x (List.mem_cons_of_mem _ hx)⟩ fits

theorem sameShape_vary (m : Message) : SameShape m m.vary := by
  match m with
  | request t arg _ => cases t <;> exact ⟨rfl, rfl⟩
  | reply ⟨[], _⟩ _ => exact ⟨rfl, rfl⟩
  | reply ⟨_ :: _, _⟩ _ => exact ⟨rfl, rfl⟩

theorem vary_getD_zero {m : Message} (h : m.plain ≠ []) :
    m.vary.plain.getD 0 0 ≠ m.plain.getD 0 0 := by
  match m with
  | request t _ _ =>
    show t.other.code ≠ t.code
    cases t <;> decide
  | reply ⟨[], _⟩ _ => exact absurd rfl h
  | reply ⟨b :: _, _⟩ _ =>
    show (if b = 1 then 2 else 1) ≠ b
    split
    · next hb => rw [hb]; decide
    · next hb => exact fun heq => hb heq.symm

end Message

/-! ## Sessions -/

/-- What goes over the wire: the direction and the ciphertext of each message. -/
def transcript (c : Client) (ks : KeyStream) (ms : List Message) :
    List (Bool × Option (List UInt8)) :=
  ms.map fun m => (m.fromClient, m.packet c ks)

/-- Whatever the keystream of the first session was, under some keystream the second has
the same transcript. -/
def Hidden (c : Client) (ms ms' : List Message) : Prop :=
  ∀ ks, ∃ ks', transcript c ks' ms' = transcript c ks ms

/-- The plaintexts of two sessions, side by side. -/
def plains (ms ms' : List Message) : List (List UInt8 × List UInt8) :=
  (ms.zip ms').map fun x => (x.1.plain, x.2.plain)

theorem length_of_mem_plains {ms ms' : List Message}
    (h : List.Forall₂ Message.SameShape ms ms') :
    ∀ x ∈ plains ms ms', x.1.length = x.2.length := by
  induction h with
  | nil => exact fun x hx => absurd hx List.not_mem_nil
  | cons hshape _ ih =>
    intro x hx
    rcases List.mem_cons.mp hx with rfl | hx
    · exact hshape.length
    · exact ih x hx

/-- Transcripts are equal message by message. -/
theorem transcript_eq_iff (c : Client) {ks ks' : KeyStream} {ms ms' : List Message}
    (h : List.Forall₂ Message.SameShape ms ms') :
    transcript c ks' ms' = transcript c ks ms ↔
      ∀ x ∈ plains ms ms', ks'.apply x.2 = ks.apply x.1 := by
  induction h with
  | nil => exact iff_of_true rfl fun x hx => absurd hx List.not_mem_nil
  | @cons m m' ms ms' hshape _ ih =>
    have hhead : (m'.fromClient, m'.packet c ks') = (m.fromClient, m.packet c ks) ↔
        ks'.apply m'.plain = ks.apply m.plain := by
      rw [hshape.direction, Message.packet_eq, Message.packet_eq]
      simp
    have htail : transcript c ks' (m' :: ms') = transcript c ks (m :: ms) ↔
        (m'.fromClient, m'.packet c ks') = (m.fromClient, m.packet c ks) ∧
          transcript c ks' ms' = transcript c ks ms := List.cons_eq_cons
    have hplains : plains (m :: ms) (m' :: ms') = (m.plain, m'.plain) :: plains ms ms' := rfl
    rw [htail, hhead, ih, hplains, List.forall_mem_cons]

/-- **What is hidden**: of two sessions of one shape, either could have been the one that
was seen, if and only if they differ in the same way wherever two of their messages
overlap. -/
theorem differences_iff (c : Client) (ms ms' : List Message)
    (h : List.Forall₂ Message.SameShape ms ms') :
    Hidden c ms ms' ↔ KeyStream.DifferencesAgree (plains ms ms') := by
  have hlen := length_of_mem_plains h
  constructor
  · intro hidden
    obtain ⟨ks', heq⟩ := hidden fun _ => 0
    exact (KeyStream.exists_apply_eq_iff _ hlen).mp ⟨ks', (transcript_eq_iff c h).mp heq⟩
  · intro hagree ks
    obtain ⟨ks', heq⟩ := (KeyStream.exists_apply_eq_iff ks hlen).mpr hagree
    exact ⟨ks', (transcript_eq_iff c h).mpr heq⟩

/-! ## Sessions that tell nothing -/

theorem plains_cons (m m' : Message) (ms ms' : List Message) :
    plains (m :: ms) (m' :: ms') = (m.plain, m'.plain) :: plains ms ms' := rfl

/-- A session and the one in which every message is another. -/
theorem forall₂_vary (ms : List Message) :
    List.Forall₂ Message.SameShape ms (ms.map Message.vary) := by
  induction ms with
  | nil => exact .nil
  | cons m ms ih => exact .cons m.sameShape_vary ih

theorem mem_plains_vary {ms : List Message} {n : Message} (hn : n ∈ ms) :
    (n.plain, n.vary.plain) ∈ plains ms (ms.map Message.vary) := by
  induction ms with
  | nil => exact absurd hn List.not_mem_nil
  | cons m ms ih =>
    rw [List.map_cons, plains_cons]
    rcases List.mem_cons.mp hn with rfl | hn
    · exact List.mem_cons_self
    · exact List.mem_cons_of_mem _ (ih hn)

theorem exists_of_mem_plains {ms ms' : List Message} {x : List UInt8 × List UInt8}
    (hx : x ∈ plains ms ms') : ∃ n ∈ ms, x.1 = n.plain := by
  obtain ⟨y, hy, rfl⟩ := List.mem_map.mp hx
  exact ⟨y.1, (List.of_mem_zip hy).1, rfl⟩

/-- The differences of a session agree with those of any other if and only if its
messages do not overlap. -/
theorem forall_differencesAgree_iff (ms : List Message) :
    (∀ ms', List.Forall₂ Message.SameShape ms ms' →
      KeyStream.DifferencesAgree (plains ms ms')) ↔
        ms.Pairwise fun m n => m.plain = [] ∨ n.plain = [] := by
  induction ms with
  | nil =>
    refine iff_of_true (fun ms' _ x hx => ?_) List.Pairwise.nil
    exact absurd hx List.not_mem_nil
  | cons m ms ih =>
    rw [List.pairwise_cons, ← ih]
    constructor
    · intro hall
      refine ⟨fun n hn => ?_, fun ms' hshape x hx y hy => ?_⟩
      · by_contra hboth
        rw [not_or] at hboth
        have hagree := hall (m :: ms.map Message.vary) (.cons ⟨rfl, rfl⟩ (forall₂_vary ms))
        have hdiff := hagree _ List.mem_cons_self _ (List.mem_cons_of_mem _ (mem_plains_vary hn)) 0
          (List.length_pos_iff.mpr hboth.1) (List.length_pos_iff.mpr hboth.2)
        rw [UInt8.xor_self, eq_comm, UInt8.xor_eq_zero_iff] at hdiff
        exact Message.vary_getD_zero hboth.2 hdiff.symm
      · have hagree := hall (m :: ms') (.cons ⟨rfl, rfl⟩ hshape)
        exact hagree x (List.mem_cons_of_mem _ hx) y (List.mem_cons_of_mem _ hy)
    · rintro ⟨hhead, htail⟩ _ (_ | @⟨_, m', _, ms', hm, hshape⟩)
      rw [plains_cons]
      have hmixed : ∀ y ∈ plains ms ms', ∀ p, p < m.plain.length → p < y.1.length → False := by
        intro y hy p hpm hpy
        obtain ⟨n, hn, hyn⟩ := exists_of_mem_plains hy
        rw [hyn] at hpy
        rcases hhead n hn with hnil | hnil
        · rw [hnil] at hpm
          exact absurd hpm (Nat.not_lt_zero p)
        · rw [hnil] at hpy
          exact absurd hpy (Nat.not_lt_zero p)
      intro x hx y hy p hpx hpy
      rcases List.mem_cons.mp hx with rfl | hx <;> rcases List.mem_cons.mp hy with rfl | hy
      · rfl
      · exact (hmixed y hy p hpx hpy).elim
      · exact (hmixed x hx p hpy hpx).elim
      · exact htail _ hshape x hx y hy p hpx hpy

/-- **Which sessions tell nothing but their shape**: those with no more than one message
that is not empty.  With two, their ciphertexts share the beginning of the keystream. -/
theorem secret_iff (c : Client) (ms : List Message) :
    (∀ ms', List.Forall₂ Message.SameShape ms ms' → Hidden c ms ms') ↔
      ms.Pairwise fun m n => m.plain = [] ∨ n.plain = [] := by
  rw [← forall_differencesAgree_iff]
  exact forall₂_congr fun ms' hshape => differences_iff c ms ms' hshape

/-- **What a listener can rule out**, of one other session and of all of them. -/
theorem session_hidden_iff (c : Client) (ms : List Message) :
    (∀ ms', List.Forall₂ Message.SameShape ms ms' →
      (Hidden c ms ms' ↔ KeyStream.DifferencesAgree (plains ms ms'))) ∧
    ((∀ ms', List.Forall₂ Message.SameShape ms ms' → Hidden c ms ms') ↔
      ms.Pairwise fun m n => m.plain = [] ∨ n.plain = []) :=
  ⟨fun ms' hshape => differences_iff c ms ms' hshape, secret_iff c ms⟩

/-- A client with nothing in its buffer. -/
def Client.blank : Client := ⟨Buffer.zero clientBufSize, [], none, none, []⟩

/-- A session in which a request is answered with `OK`. -/
def askedOnce (t : RequestType) : List Message :=
  [.request t .nil (by decide), .reply (.lit "OK") (by decide)]

theorem sameShape_askedOnce : List.Forall₂ Message.SameShape (askedOnce .osVersion)
    (askedOnce .currentTime) :=
  .cons ⟨rfl, rfl⟩ (.cons ⟨rfl, rfl⟩ .nil)

/-- The first bytes of request and reply tell whether two sessions differ in the request
alone. -/
theorem not_hidden_askedOnce :
    ¬ ∀ ms ms', List.Forall₂ Message.SameShape ms ms' → Hidden Client.blank ms ms' := by
  intro hall
  obtain ⟨ks', heq⟩ := hall _ _ sameShape_askedOnce fun _ => 0
  rw [transcript_eq_iff _ sameShape_askedOnce] at heq
  have hagree := (KeyStream.exists_apply_eq_iff _ (length_of_mem_plains sameShape_askedOnce)).mp
    ⟨ks', heq⟩
  have hdiff := hagree ([1], [2]) (by decide) (ascii "OK", ascii "OK") (by decide) 0 (by decide)
    (by decide)
  exact absurd hdiff (by decide)

end Tcp
end BsitLabs
