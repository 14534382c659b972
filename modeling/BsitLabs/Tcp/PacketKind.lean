import BsitLabs.Tcp.Client
import BsitLabs.Tcp.CompletionPort
import BsitLabs.Tcp.Packets

/-!
# Telling the two kinds of packet apart

A key packet begins with a plain zero, a request with a byte of ciphertext, and the
server takes a packet for a key exactly if its first byte is zero.  The first byte
of a request is its type combined with the first byte of the keystream, so a request
whose type is that byte is taken for a key.
-/

namespace BsitLabs
namespace Tcp

variable {Os : Type}

/-- The case that the switch of `msg_handler` takes, once it has deciphered. -/
def ClientCtx.dispatch (env : Env Os) (c : ClientCtx) : Option RequestType :=
  (env.csp.keyOf c.key).bind fun ks => RequestType.ofByte ((c.plainBuf ks).get 0)

/-- A request that is accepted is dispatched. -/
theorem MsgAccepted.dispatch_eq {env : Env Os} {c : ClientCtx} {ks : KeyStream} {t : RequestType}
    {os : Os} (h : MsgAccepted env c ks t os) : c.dispatch env = some t := by
  rw [ClientCtx.dispatch, h.key, Option.bind_some, h.request]

/-- **`msg_handler` runs the handler of the request that is dispatched**, and no other. -/
theorem msgHandler_eq_ok_iff_dispatch {env : Env Os} {ans : Answers Os} {s s' : Server}
    {idx : Slot} {t : RequestType} (h : (s.gCtxs idx).dispatch env = some t) :
    msgHandler env ans s idx = .ok s' ↔ ∃ ks, MsgAccepted env (s.gCtxs idx) ks t ans.os ∧
      s' = s.setCtx idx ((s.gCtxs idx).answMsg env ks t ans.os) := by
  rw [msgHandler_eq_ok_iff]
  refine exists_congr fun ks => ⟨?_, fun hacc => ⟨t, hacc⟩⟩
  rintro ⟨t', hacc, hs⟩
  obtain rfl : t' = t := Option.some.inj (hacc.dispatch_eq.symm.trans h)
  exact ⟨hacc, hs⟩

/-- The server takes the packet in the slot for what the client meant: a key for a
key, and a request for the same request. -/
def TakenAsMeant (env : Env Os) (s : Server) (idx : Slot) : Option RequestType → Prop
  | none => clientSendCryptKey s idx = true
  | some t => clientSendCryptKey s idx = false ∧ (s.gCtxs idx).dispatch env = some t

/-- The packet in the slot is accepted and answered: as a key by `form_answ_key`, or as this
request by its handler. -/
def AnsweredAs (env : Env Os) (ans : Answers Os) (s : Server) (idx : Slot) (s' : Server) :
    Option RequestType → Prop
  | none => KeyAccepted env ans (s.gCtxs idx) ∧ s' = s.answKey env idx
  | some t => ∃ ks, MsgAccepted env (s.gCtxs idx) ks t ans.os ∧
      s' = s.setCtx idx ((s.gCtxs idx).answMsg env ks t ans.os)

/-- **A packet that is taken as meant is answered as meant.** -/
theorem TakenAsMeant.formReply_eq_ok_iff {env : Env Os} {ans : Answers Os} {s s' : Server}
    {idx : Slot} {meant : Option RequestType} (h : TakenAsMeant env s idx meant) :
    formReply env ans s idx = .ok s' ↔ AnsweredAs env ans s idx s' meant := by
  unfold formReply
  cases meant with
  | none =>
    rw [show clientSendCryptKey s idx = true from h, if_pos rfl]
    exact formAnswKey_eq_ok_iff
  | some t =>
    rw [h.1, if_neg Bool.false_ne_true]
    exact msgHandler_eq_ok_iff_dispatch h.2

/-- The first byte of a packet decides whether it is taken for a key. -/
theorem Holds.clientSendCryptKey_eq {s : Server} {idx : Slot} {b : UInt8} {rest : List UInt8}
    (h : Holds (s.gCtxs idx) (b :: rest)) : clientSendCryptKey s idx = (b == 0) := by
  rw [clientSendCryptKey, h.get_zero]

/-- **Which packets are taken for what they are.**  Every key packet is; a request
under the key that both sides have is exactly if its type is not the first byte of
the keystream. -/
theorem takenAsMeant_iff (env : Env Os) (s : Server) (idx : Slot) (c : Client) (ks : KeyStream)
    {packet : List UInt8} (hpublic : c.publicKey.length < clientBufSize)
    (harg : c.requestArg.length < requestArgSize)
    (hkeys : c.requestType ≠ none →
      c.sessionKey = some ks ∧ env.csp.keyOf (s.gCtxs idx).key = some ks)
    (hform : c.requestFormation = some packet) (hholds : Holds (s.gCtxs idx) packet) :
    TakenAsMeant env s idx c.requestType ↔ ∀ t, c.requestType = some t → ks 0 ≠ t.code := by
  cases ht : c.requestType with
  | none =>
    rw [Client.requestFormation_key ht hpublic] at hform
    obtain rfl := Option.some.inj hform
    refine iff_of_true ?_ (by simp)
    exact hholds.clientSendCryptKey_eq
  | some t =>
    obtain ⟨hclient, hserver⟩ := hkeys (by simp [ht])
    rw [Client.requestFormation_request ht hclient harg, RequestType.plain, ks.apply_cons] at hform
    obtain rfl := Option.some.inj hform
    have hdispatch : (s.gCtxs idx).dispatch env = some t := by
      rw [ClientCtx.dispatch, hserver, Option.bind_some, hholds.plainBuf_get_zero,
        UInt8.xor_assoc, UInt8.xor_self, UInt8.xor_zero, RequestType.ofByte_code]
    have hfirst : clientSendCryptKey s idx = false ↔ ks 0 ≠ t.code := by
      rw [hholds.clientSendCryptKey_eq, beq_eq_false_iff_ne, ne_eq, UInt8.xor_eq_zero_iff,
        ne_comm]
    constructor
    · rintro ⟨hmsg, _⟩ t' ht'
      obtain rfl := Option.some.inj ht'
      exact hfirst.mp hmsg
    · intro hne
      exact ⟨hfirst.mpr (hne t rfl), hdispatch⟩

/-- A client that asks for the system's version with a session key whose keystream
begins with this byte. -/
def Client.asking (b : UInt8) : Client where
  sendBuf := Buffer.zero clientBufSize
  publicKey := [6]
  sessionKey := some fun _ => b
  requestType := some .osVersion
  requestArg := []

/-- The server that has received the packet of `Client.asking b` in slot one, under
the handle `key`. -/
def Server.asked (key : ℕ) (b : UInt8) : Server :=
  (World.initial true : World Unit).srv.setCtx 1
    (({ ClientCtx.zero with
      socket := 2, key := key, bufRecv := (Buffer.zero bufSize).write 0 [1 ^^^ b] }).count 1)

theorem holds_asked (key : ℕ) (b : UInt8) : Holds ((Server.asked key b).gCtxs 1) [1 ^^^ b] := by
  rw [Server.asked, Server.setCtx_gCtxs_self]
  have hlen : [1 ^^^ b].length ≤ bufSize := show 1 ≤ bufSize by decide
  exact holds_received rfl (List.cons_ne_nil _ _) hlen
    (Buffer.slice_write _ rfl ((Nat.zero_add _).trans_le hlen))

theorem requestFormation_asking (b : UInt8) :
    (Client.asking b).requestFormation = some [1 ^^^ b] := by
  have harg : (Client.asking b).requestArg.length < requestArgSize :=
    show 0 < requestArgSize by decide
  rw [Client.requestFormation_request rfl rfl harg]
  rfl

theorem takenAsMeant_iff_asking :
    TakenAsMeant Env.sample (Server.asked 2 2) 1 (some .osVersion) :=
  (takenAsMeant_iff Env.sample (Server.asked 2 2) 1 (Client.asking 2) (fun _ => 2) (by decide)
    (by decide) (fun _ => ⟨rfl, by rw [Server.asked, Server.setCtx_gCtxs_self]; rfl⟩)
    (requestFormation_asking 2) (holds_asked 2 2)).mpr fun t ht => by
      obtain rfl := Option.some.inj ht
      decide

/-- Under a session key whose keystream begins with one, the request for the system's
version is taken for a key. -/
theorem not_takenAsMeant_version : ¬ ∀ (s : Server) (c : Client) (ks : KeyStream) (packet : _),
    c.sessionKey = some ks → Env.sample.csp.keyOf (s.gCtxs 1).key = some ks →
      c.requestFormation = some packet → Holds (s.gCtxs 1) packet →
        TakenAsMeant Env.sample s 1 c.requestType := by
  intro hall
  have hmeant := hall (Server.asked 1 1) (Client.asking 1) (fun _ => 1) [1 ^^^ 1] rfl
    (by rw [Server.asked, Server.setCtx_gCtxs_self]; rfl) (requestFormation_asking 1)
    (holds_asked 1 1)
  have hkey : clientSendCryptKey (Server.asked 1 1) 1 = true :=
    (holds_asked 1 1).clientSendCryptKey_eq
  have hmsg : clientSendCryptKey (Server.asked 1 1) 1 = false := hmeant.1
  rw [hkey] at hmsg
  simp at hmsg

end Tcp
end BsitLabs
