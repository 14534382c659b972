import BsitLabs.Tcp.KeyFraming
import BsitLabs.Tcp.PacketKind
import BsitLabs.Tcp.RequestHandlers

/-!
# The path of a request

A request for the owner or the access rights of a path carries the path behind its
length.  What a client sends comes out as it went in (`pathRequest_roundTrip`), whatever
earlier packets have left in `buf_recv`.

A request that somebody else has made need not be so.  The length is not compared with
what has been received, so that a request may be completed by the leftovers of earlier
ones, and as a signed `char` it may be negative, which stores far past the end of `path`.
Which requests are parsed from their own bytes and into the array is
`pathParsed_iff`.
-/

namespace BsitLabs
namespace Tcp

open MachineInt SystemInfo

/-! ## What the copy leaves -/

section Copy

variable (b : Buffer bufSize)

/-- How many bytes `strncpy` stores. -/
theorem top_copyPath : (copyPath b).top = sizeT (schar (b.get 1)) := by
  unfold copyPath Region.strncpy
  rw [Region.top_blit]
  split
  · next h => exact h.symm
  · rw [Nat.zero_add]
    exact Nat.max_eq_right (Nat.zero_le _)

theorem get_copyPath (i : ℕ) :
    (copyPath b).get i =
      if i < sizeT (schar (b.get 1)) then (pathSource b).getD i 0 else 0 := by
  have hclear : (Region.ofList (List.replicate pathSize (0 : UInt8))).get i = 0 := by
    simp [Region.ofList, List.getD_eq_getElem?_getD]
  unfold copyPath Region.strncpy
  rw [Region.get_blit, hclear, Nat.zero_add, Nat.sub_zero]
  simp only [Nat.zero_le, true_and]

/-- The path is the beginning of the string at `buf_recv + 2`. -/
theorem text_copyPath : ((copyPath b).text 0).bytes = (pathSource b).take
    (sizeT (schar (b.get 1))) := by
  have hsource : ∀ x ∈ pathSource b, x ≠ 0 := ((Region.ofList b.bytes).text 2).nonzero
  apply Region.cString_eq_of_get
  · intro x hx
    exact hsource x (List.mem_of_mem_take hx)
  · intro j hj
    rw [List.length_take] at hj
    rw [Nat.zero_add, get_copyPath, if_pos (by omega), List.getElem_take,
      List.getD_eq_getElem _ _ (by omega)]
  · rw [Nat.zero_add, get_copyPath, List.length_take]
    split
    · rw [List.getD_eq_default _ _ (by omega)]
    · rfl

/-- A length that is not negative is the count of the copy. -/
theorem sizeT_schar {b : UInt8} (h : 0 ≤ schar b) : sizeT (schar b) = (schar b).toNat := by
  have hbounds := schar_bounds b
  exact sizeT_of_nonneg h (by omega)

/-- The copy keeps to the array exactly if the length is not negative. -/
theorem pathExtent_iff :
    (pathExtent b).used ≤ (pathExtent b).size ↔ 0 ≤ schar (b.get 1) := by
  have hbounds := schar_bounds (b.get 1)
  have hsize : pathSize = 128 := rfl
  show (copyPath b).top ≤ pathSize ↔ _
  rw [top_copyPath]
  constructor
  · intro h
    by_contra hneg
    have hhuge := sizeT_of_neg (by omega) hbounds.1
    omega
  · intro h
    rw [sizeT_schar h]
    omega

theorem takePath_eq_ok_iff {path : CText} :
    takePath b = .ok path ↔ 0 ≤ schar (b.get 1) ∧ pathOf b = path := by
  unfold takePath
  rw [keep_bind_eq_ok_iff, fit_cons_iff, pathExtent_iff, and_iff_left fit_nil]
  exact and_congr_right fun _ => ⟨Except.ok.inj, congrArg Except.ok⟩

theorem get_source (i : ℕ) : (Region.ofList b.bytes).get i = b.get i := rfl

/-- **`msg_handler` gets through a request about a path only if the copy keeps to the array.** -/
theorem inside_of_msgHandler {csp : Csp} {ans : Answers Win32} {s s' : Server} {idx : Slot}
    (hok : msgHandler (.windows csp) ans s idx = .ok s') :
    ∃ ks t, MsgAccepted (.windows csp) (s.gCtxs idx) ks t ans.os ∧
      (t.takesPath = true → (copyPath ((s.gCtxs idx).plainBuf ks)).top ≤ pathSize) := by
  obtain ⟨ks, t, hacc, _⟩ := msgHandler_eq_ok_iff.mp hok
  obtain ⟨written, hwritten⟩ := Option.isSome_iff_exists.mp hacc.handled
  obtain ⟨reply, hreply, _⟩ := leaves_eq_some_iff.mp hwritten
  refine ⟨ks, t, hacc, fun htakes => (pathExtent_iff _).mpr ?_⟩
  cases t with
  | accessRight =>
    obtain ⟨path, hpath, _⟩ := except_bind_eq_ok_iff.mp hreply
    exact ((takePath_eq_ok_iff _).mp hpath).1
  | owner =>
    obtain ⟨path, hpath, _⟩ := except_bind_eq_ok_iff.mp hreply
    exact ((takePath_eq_ok_iff _).mp hpath).1
  | _ => cases htakes

end Copy

/-! ## The deciphered request -/

section Request

variable {ks : KeyStream} {data : List UInt8} {c : ClientCtx}

/-- What the handlers find in `buf_recv`: the deciphered packet, and behind it what was
there before. -/
theorem Holds.get_plainBuf (h : Holds c (ks.apply data)) (i : ℕ) :
    (c.plainBuf ks).get i = if i < data.length then data.getD i 0 else c.bufRecv.get i := by
  have hfits := h.fits
  rw [ks.length_apply] at hfits
  rw [ClientCtx.plainBuf, h.packet_eq, ks.apply_apply, Buffer.get_write _ (by omega)]
  simp

/-- The context of a slot that had this left in its buffer when the packet came. -/
def leftBefore (leftover : Buffer bufSize) (packet : List UInt8) : ClientCtx :=
  { ClientCtx.zero with bufRecv := leftover }.takeIn packet

theorem holds_leftBefore (leftover : Buffer bufSize) (hne : data ≠ [])
    (hfits : data.length ≤ bufSize) :
    Holds (leftBefore leftover (ks.apply data)) (ks.apply data) := by
  refine holds_takeIn rfl ?_ (by rwa [ks.length_apply])
  rwa [ne_eq, ks.apply_eq_nil_iff]

theorem get_leftBefore (leftover : Buffer bufSize) (hne : data ≠ [])
    (hfits : data.length ≤ bufSize) (i : ℕ) :
    ((leftBefore leftover (ks.apply data)).plainBuf ks).get i =
      if i < data.length then data.getD i 0 else leftover.get i := by
  rw [(holds_leftBefore leftover hne hfits).get_plainBuf]
  split
  · rfl
  · show (leftover.write 0 (ks.apply data)).get i = _
    rw [Buffer.get_write _ (by rw [ks.length_apply]; omega), if_neg]
    rw [ks.length_apply]
    omega

/-- A buffer full of one byte. -/
def fullOf (b : UInt8) : Buffer bufSize := ⟨List.replicate bufSize b, List.length_replicate⟩

theorem get_fullOf (b : UInt8) {i : ℕ} (h : i < bufSize) : (fullOf b).get i = b := by
  rw [Buffer.get, fullOf, List.getD_eq_getElem _ _ (by rwa [List.length_replicate]),
    List.getElem_replicate]

/-! ## Requests that are parsed from their own bytes -/

/-- The path of a request is copied into the array, is terminated there, and does not
depend on what earlier requests have left behind the packet. -/
structure PathParsed (ks : KeyStream) (data : List UInt8) : Prop where
  inside : ∀ c, Holds c (ks.apply data) → (copyPath (c.plainBuf ks)).top ≤ pathSize
  terminated : ∀ c, Holds c (ks.apply data) →
    ∃ i, i < pathSize ∧ (copyPath (c.plainBuf ks)).get i = 0
  same : ∀ c c', Holds c (ks.apply data) → Holds c' (ks.apply data) →
    (copyPath (c'.plainBuf ks)).text 0 = (copyPath (c.plainBuf ks)).text 0

/-- The request has a length byte, the length is not negative, and the path ends within
the request: it is there in full, or there is a zero in it. -/
structure SelfContained (data : List UInt8) : Prop where
  counted : 2 ≤ data.length
  nonneg : 0 ≤ schar (data.getD 1 0)
  ends : 2 + schar (data.getD 1 0) ≤ data.length ∨ 0 ∈ data.drop 2

namespace SelfContained

variable (h : SelfContained data)

include h

theorem top_copyPath (hc : Holds c (ks.apply data)) :
    (copyPath (c.plainBuf ks)).top = (schar (data.getD 1 0)).toNat := by
  have hcounted := h.counted
  rw [Tcp.top_copyPath, hc.get_plainBuf, if_pos (by omega), sizeT_schar h.nonneg]

/-- What is copied is decided by the request's own bytes. -/
theorem get_copyPath_congr {c' : ClientCtx} (hc : Holds c (ks.apply data))
    (hc' : Holds c' (ks.apply data)) (i : ℕ) :
    (copyPath (c'.plainBuf ks)).get i = (copyPath (c.plainBuf ks)).get i := by
  have hcounted := h.counted
  have hagree : ∀ j, j < data.length → (c'.plainBuf ks).get j = (c.plainBuf ks).get j :=
    fun j hj => by rw [hc.get_plainBuf, hc'.get_plainBuf, if_pos hj, if_pos hj]
  have hbefore : ∀ j, 2 + j < data.length →
      (pathSource (c'.plainBuf ks)).getD j 0 = (pathSource (c.plainBuf ks)).getD j 0 :=
    fun j hj => Region.getD_cString_congr fun i hi => hagree _ (by omega)
  have hlen : sizeT (schar ((c.plainBuf ks).get 1)) = (schar (data.getD 1 0)).toNat := by
    rw [hc.get_plainBuf, if_pos (by omega), sizeT_schar h.nonneg]
  rw [get_copyPath, get_copyPath, hagree 1 (by omega), hlen]
  split
  · next hi =>
    rcases h.ends with hfull | hzero
    · exact hbefore i (by omega)
    · -- behind a zero of its own the request's path is over
      obtain ⟨z, hz, hget⟩ := List.mem_iff_getElem.mp hzero
      rw [List.length_drop] at hz
      rw [List.getElem_drop] at hget
      rcases Nat.lt_or_ge z i with hlt | hge
      · have hend : ∀ d : ClientCtx, Holds d (ks.apply data) →
            (pathSource (d.plainBuf ks)).getD i 0 = 0 := fun d hd => by
          refine Region.getD_cString_of_le _ (Nat.le_trans (Region.strlen_le_of_get _ ?_) hlt.le)
          rw [get_source, hd.get_plainBuf, if_pos (by omega),
            List.getD_eq_getElem _ _ (by omega), hget]
        rw [hend c hc, hend c' hc']
      · exact hbefore i (by omega)
  · rfl

theorem pathParsed (ks : KeyStream) : PathParsed ks data := by
  have hbounds := schar_bounds (data.getD 1 0)
  have hsize : pathSize = 128 := rfl
  refine ⟨fun c hc => ?_, fun c hc => ⟨127, by omega, ?_⟩, fun c c' hc hc' => ?_⟩
  · rw [h.top_copyPath hc]
    omega
  · have htop : (copyPath (c.plainBuf ks)).top = _ := h.top_copyPath hc
    rw [Tcp.top_copyPath] at htop
    rw [get_copyPath, htop, if_neg (by omega)]
  · apply CText.ext
    rw [Region.bytes_text, Region.bytes_text]
    exact Region.cString_congr fun j _ => h.get_copyPath_congr hc hc' (0 + j)

end SelfContained

namespace PathParsed

variable (h : PathParsed ks data) (hne : data ≠ []) (hfits : data.length ≤ bufSize)

include h hne hfits

/-- The copy into the array keeps to the array, so its length is not negative. -/
theorem schar_nonneg (leftover : Buffer bufSize) :
    0 ≤ schar (((leftBefore leftover (ks.apply data)).plainBuf ks).get 1) := by
  have hbounds := schar_bounds (((leftBefore leftover (ks.apply data)).plainBuf ks).get 1)
  have hinside := h.inside _ (holds_leftBefore leftover hne hfits)
  have hsize : pathSize = 128 := rfl
  by_contra hneg
  rw [top_copyPath] at hinside
  have hhuge := sizeT_of_neg (by omega) hbounds.1
  omega

theorem counted : 2 ≤ data.length := by
  have hbuf : bufSize = 512 := rfl
  by_contra hlt
  have hnonneg := h.schar_nonneg hne hfits (fullOf 255)
  rw [get_leftBefore _ hne hfits, if_neg (by omega), get_fullOf _ (by omega)] at hnonneg
  exact absurd hnonneg (by decide)

theorem nonneg : 0 ≤ schar (data.getD 1 0) := by
  have hcounted := h.counted hne hfits
  have hnonneg := h.schar_nonneg hne hfits (fullOf 0)
  rwa [get_leftBefore _ hne hfits, if_pos (by omega)] at hnonneg

/-- How long the path is for two leftovers: a path that is not over with the request ends
with it for zeros, and goes on for anything else. -/
theorem ends : 2 + schar (data.getD 1 0) ≤ data.length ∨ 0 ∈ data.drop 2 := by
  have hcounted := h.counted hne hfits
  have hnonneg := h.nonneg hne hfits
  have hbounds := schar_bounds (data.getD 1 0)
  have hbuf : bufSize = 512 := rfl
  by_contra hopen
  rw [not_or] at hopen
  obtain ⟨hlong, hzero⟩ := hopen
  have hdata : ∀ (leftover : Buffer bufSize) (j : ℕ), j < data.length - 2 →
      (Region.ofList ((leftBefore leftover (ks.apply data)).plainBuf ks).bytes).get (2 + j) ≠ 0 :=
    fun leftover j hj hget => by
      rw [get_source, get_leftBefore _ hne hfits, if_pos (by omega),
        List.getD_eq_getElem _ _ (by omega)] at hget
      refine hzero (List.mem_iff_getElem.mpr ⟨j, by rw [List.length_drop]; omega, ?_⟩)
      rw [List.getElem_drop, hget]
  have hlen : ∀ leftover : Buffer bufSize,
      ((copyPath ((leftBefore leftover (ks.apply data)).plainBuf ks)).text 0).bytes.length =
        min (schar (data.getD 1 0)).toNat
          (pathSource ((leftBefore leftover (ks.apply data)).plainBuf ks)).length :=
    fun leftover => by
      rw [text_copyPath, List.length_take, get_leftBefore _ hne hfits, if_pos (by omega),
        sizeT_schar hnonneg]
  have hshort : (pathSource ((leftBefore (fullOf 0) (ks.apply data)).plainBuf ks)).length =
      data.length - 2 := by
    rw [pathSource, Region.length_cString]
    refine (Region.strlen_eq_iff _).mpr ⟨?_, fun j hj => hdata _ j hj⟩
    rw [get_source, get_leftBefore _ hne hfits, if_neg (by omega), get_fullOf _ (by omega)]
  have hmore : data.length - 2 <
      (pathSource ((leftBefore (fullOf 1) (ks.apply data)).plainBuf ks)).length := by
    rw [pathSource, Region.length_cString, Region.strlen_add _ (hdata _)]
    refine Nat.lt_add_of_pos_right (Nat.pos_of_ne_zero fun hend => ?_)
    have hnul := Region.get_add_strlen
      (Region.ofList ((leftBefore (fullOf 1) (ks.apply data)).plainBuf ks).bytes)
      (2 + (data.length - 2))
    rw [hend, get_source, get_leftBefore _ hne hfits, if_neg (by omega),
      get_fullOf _ (by omega)] at hnul
    exact absurd hnul (by decide)
  have hsame := h.same _ _ (holds_leftBefore (fullOf 0) hne hfits)
    (holds_leftBefore (fullOf 1) hne hfits)
  have heq := congrArg (fun t : CText => t.bytes.length) hsame
  simp only [hlen, hshort] at heq
  omega

end PathParsed

/-- **Which requests are parsed from their own bytes**: those that contain their path. -/
theorem pathParsed_iff (ks : KeyStream) (hne : data ≠ []) (hfits : data.length ≤ bufSize) :
    PathParsed ks data ↔ SelfContained data := by
  constructor
  · intro h
    exact ⟨h.counted hne hfits, h.nonneg hne hfits, h.ends hne hfits⟩
  · intro h
    exact h.pathParsed ks

/-- A request for the owner of a path of one byte. -/
theorem pathParsed_iff_owner : PathParsed (fun _ => 5) [8, 1, 65] :=
  (pathParsed_iff (fun _ => 5) (by decide) (by decide)).mpr
    ⟨by decide, by decide, .inl (by decide)⟩

/-- A request of two bytes whose length byte is 255, which is minus one. -/
theorem not_pathParsed_negative : ¬ ∀ (ks : KeyStream) (data : List UInt8), data ≠ [] →
    data.length ≤ bufSize → data.head? = some RequestType.owner.code → PathParsed ks data := by
  intro hall
  have hparsed := hall (fun _ => 5) [8, 255] (by decide) (by decide) rfl
  exact absurd (hparsed.nonneg (by decide) (by decide)) (by decide)

end Request

/-! ## What a client sends -/

section RoundTrip

variable {ks : KeyStream} {c : ClientCtx} {path : CText}

/-- The handler of a request that carries a path, on a path. -/
def onPath (w : Win32) (t : RequestType) (path : CText) : Except Misuse (Region UInt8) :=
  match t with
  | .owner => owner w clearSend path
  | _ => accessRight w clearSend path

/-- The packet in the slot makes the handler of this request work on this path. -/
structure PathArrives (csp : Csp) (w : Win32) (t : RequestType) (c : ClientCtx) (ks : KeyStream)
    (path : CText) : Prop where
  /-- The switch of `msg_handler` takes the request's case. -/
  request : c.dispatch (Env.windows csp) = some t
  /-- The copy stores in the array alone. -/
  inside : (copyPath (c.plainBuf ks)).top ≤ pathSize
  /-- The array holds the path and zeros behind it. -/
  array : ∀ i, (copyPath (c.plainBuf ks)).get i = path.bytes.getD i 0
  /-- There is a zero in the array. -/
  terminated : path.length < pathSize
  /-- What is left in `buf_send` is what the handler leaves for the path. -/
  written : (Env.windows csp).handler t (c.plainBuf ks) w = leaves (onPath w t path)

/-- The plaintext that a client sends for a path. -/
theorem plain_of_takesPath {t : RequestType} (h : t.takesPath = true) (arg : List UInt8) :
    t.plain arg = t.code :: UInt8.ofNat arg.length :: arg := by
  rw [RequestType.plain, h]
  rfl

/-- A path that is there in full is what is copied. -/
theorem get_copyPath_of_holds {b : UInt8}
    (hc : Holds c (ks.apply (b :: UInt8.ofNat path.length :: path.bytes)))
    (hlen : path.length ≤ 127) :
    (copyPath (c.plainBuf ks)).top = path.length ∧
      ∀ i, (copyPath (c.plainBuf ks)).get i = path.bytes.getD i 0 := by
  have hlength : path.bytes.length = path.length := rfl
  have hschar : schar (UInt8.ofNat path.length) = path.length := by
    rw [schar_eq_iff (by omega), UInt8.toNat_ofNat', Nat.mod_eq_of_lt (by omega)]
  have hone : (c.plainBuf ks).get 1 = UInt8.ofNat path.length := by
    rw [hc.get_plainBuf, if_pos (by rw [List.length_cons, List.length_cons]; omega)]
    rfl
  have hcount : sizeT (schar ((c.plainBuf ks).get 1)) = path.length := by
    rw [hone, hschar, sizeT_of_nonneg (by omega) (by omega), Int.toNat_natCast]
  have hbytes : ∀ j, j < path.length →
      (Region.ofList (c.plainBuf ks).bytes).get (2 + j) = path.bytes.getD j 0 := fun j hj => by
    rw [get_source, hc.get_plainBuf,
      if_pos (by rw [List.length_cons, List.length_cons]; omega), Nat.add_comm 2 j]
    rfl
  refine ⟨by rw [top_copyPath, hcount], fun i => ?_⟩
  rw [get_copyPath, hcount]
  split
  · next hi =>
    have hnonzero : ∀ j, j < path.length →
        (Region.ofList (c.plainBuf ks).bytes).get (2 + j) ≠ 0 := fun j hj => by
      rw [hbytes j hj, List.getD_eq_getElem _ _ hj]
      exact path.nonzero _ (List.getElem_mem hj)
    rw [pathSource, Region.getD_cString_of_lt, hbytes i hi]
    rw [Region.strlen_add _ hnonzero]
    exact Nat.lt_add_right _ hi
  · next hi => rw [List.getD_eq_default _ _ (Nat.le_of_not_lt hi)]

/-- **A path arrives as it was sent**, whatever stood in `buf_recv`, and its packet is
two bytes longer than the path. -/
theorem pathRequest_roundTrip (csp : Csp) (client : Client) (t : RequestType) (w : Win32)
    (htype : client.requestType = some t) (htakes : t.takesPath = true)
    (harg : client.requestArg = path.bytes) (hlen : path.length ≤ 127)
    (hclient : client.sessionKey = some ks) (hserver : csp.keyOf c.key = some ks)
    (hsz : c.szRecv = 0) :
    ∃ packet, client.requestFormation = some packet ∧ packet.length = path.length + 2 ∧
      PathArrives csp w t (c.takeIn packet) ks path := by
  have hbuf : bufSize = 512 := rfl
  have hsize : pathSize = 128 := rfl
  have hargSize : requestArgSize = 128 := rfl
  have hlength : path.bytes.length = path.length := rfl
  have hplain : t.plain client.requestArg =
      t.code :: UInt8.ofNat path.length :: path.bytes := by
    rw [plain_of_takesPath htakes, harg]
    rfl
  have hform := Client.requestFormation_request htype hclient (by rw [harg]; omega)
  rw [hplain] at hform
  have hpacket : (ks.apply (t.code :: UInt8.ofNat path.length :: path.bytes)).length =
      path.length + 2 := by
    rw [ks.length_apply, List.length_cons, List.length_cons, hlength]
  have hholds : Holds (c.takeIn (ks.apply (t.code :: UInt8.ofNat path.length :: path.bytes)))
      (ks.apply (t.code :: UInt8.ofNat path.length :: path.bytes)) := by
    refine holds_takeIn hsz ?_ (by omega)
    rw [ne_eq, ks.apply_eq_nil_iff]
    exact List.cons_ne_nil _ _
  obtain ⟨htop, hget⟩ := get_copyPath_of_holds hholds hlen
  refine ⟨_, hform, hpacket, ⟨?_, by omega, hget, by omega, ?_⟩⟩
  · have hfirst := hholds.get_plainBuf 0
    rw [if_pos (by rw [List.length_cons]; omega), List.getD_cons_zero] at hfirst
    have hkey : (Env.windows csp).csp.keyOf (c.takeIn (ks.apply
        (t.code :: UInt8.ofNat path.length :: path.bytes))).key = some ks := hserver
    rw [ClientCtx.dispatch, hkey, Option.bind_some, hfirst, RequestType.ofByte_code]
  · have htaken : takePath ((c.takeIn (ks.apply
        (t.code :: UInt8.ofNat path.length :: path.bytes))).plainBuf ks) = .ok path := by
      have hinside : (copyPath ((c.takeIn (ks.apply
          (t.code :: UInt8.ofNat path.length :: path.bytes))).plainBuf ks)).top ≤ pathSize := by
        omega
      refine (takePath_eq_ok_iff _).mpr ⟨(pathExtent_iff _).mp hinside, CText.ext ?_⟩
      rw [pathOf, Region.bytes_text]
      refine Region.cString_eq_of_get path.nonzero (fun j hj => ?_) ?_
      · rw [Nat.zero_add, hget, List.getD_eq_getElem _ _ hj]
      · rw [Nat.zero_add, hget, List.getD_eq_default _ _ le_rfl]
    cases t with
    | owner =>
      simp only [Env.windows, requestHandler, ownerHandler, htaken]
      rfl
    | accessRight =>
      simp only [Env.windows, requestHandler, accessRightHandler, htaken]
      rfl
    | _ => exact absurd htakes (by decide)

/-- **`msg_handler` answers with what the handler leaves for the path** that has arrived. -/
theorem PathArrives.msgHandler_eq_ok_iff {csp : Csp} {t : RequestType} {ans : Answers Win32}
    {s s' : Server} {idx : Slot} (h : PathArrives csp ans.os t (s.gCtxs idx) ks path)
    (hkey : csp.keyOf (s.gCtxs idx).key = some ks) :
    msgHandler (.windows csp) ans s idx = .ok s' ↔
      ∃ written, leaves (onPath ans.os t path) = some written ∧
        (written.takeWhile (· != 0)).length ≤ bufSize ∧
        s' = s.setCtx idx ((s.gCtxs idx).answMsg (.windows csp) ks t ans.os) ∧
        (s'.gCtxs idx).reply = ks.apply (written.takeWhile (· != 0)) := by
  have htext : ∀ {written}, leaves (onPath ans.os t path) = some written →
      (s.gCtxs idx).replyText (.windows csp) ks t ans.os = written.takeWhile (· != 0) :=
    fun hwritten => by
      rw [ClientCtx.replyText, ClientCtx.written, h.written, hwritten, Option.getD_some]
  rw [msgHandler_eq_ok_iff_dispatch h.request]
  constructor
  · rintro ⟨ks', hacc, rfl⟩
    obtain rfl : ks' = ks := Option.some.inj (hacc.key.symm.trans hkey)
    obtain ⟨written, hwritten⟩ := Option.isSome_iff_exists.mp (h.written ▸ hacc.handled)
    have hreply := answMsg_reply hacc.fits
    rw [htext hwritten] at hreply
    refine ⟨written, hwritten, htext hwritten ▸ hacc.fits, rfl, ?_⟩
    rw [Server.setCtx_gCtxs_self, hreply]
  · rintro ⟨written, hwritten, hfits, rfl, _⟩
    have hcase : RequestType.ofByte (((s.gCtxs idx).plainBuf ks).get 0) = some t := by
      have hrequest := h.request
      rwa [ClientCtx.dispatch, show (Env.windows csp).csp.keyOf _ = some ks from hkey,
        Option.bind_some] at hrequest
    refine ⟨ks, ⟨hkey, hcase, ?_, (htext hwritten).symm ▸ hfits⟩, rfl⟩
    rw [h.written, hwritten]
    rfl

/-- A client that asks for the owner of the path `C:`. -/
def Client.askingOwner : Client where
  sendBuf := Buffer.zero clientBufSize
  publicKey := [6]
  sessionKey := some fun _ => 3
  requestType := some .owner
  requestArg := ascii "C:"

theorem pathRequest_roundTrip_owner :
    ∃ packet, Client.askingOwner.requestFormation = some packet ∧
      packet.length = (CText.lit "C:").length + 2 ∧
      PathArrives .oneByte .silent .owner ({ ClientCtx.zero with key := 3 }.takeIn packet)
        (fun _ => 3) (.lit "C:") :=
  pathRequest_roundTrip .oneByte Client.askingOwner .owner .silent rfl rfl rfl (by decide) rfl
    rfl rfl

end RoundTrip

end Tcp
end BsitLabs
