import BsitLabs.SystemInfo.Contents
import BsitLabs.Tcp.ReplyBounds
import BsitLabs.Tcp.Served

/-!
# What a user of the service reads

`report` is what the information service is for: the text that the system's answers come to,
for each of the eight requests and for a path.  Between it and the screen of a user lie the
handlers that put it together in `buf_send`, the path that travels behind its length, the
cipher of the session, and sends and receives that split the bytes as they like.

* `pathOf_of_slice` --- the path a handler finds is the one that was typed in, up to a zero in
  it;
* `IsTextOf.eq_report` --- so the text it writes is the report on that path, from what the system
  answered to this handler;
* `printed_reports` --- so in every orderly run each client has printed the reports on its own
  requests, in order, and all of them when it is back at the menu.

The system may answer differently at each request, and what it answered to each is on record
(`World.handled`).  `Env.answering` is the server on a system whose answers have some property,
so that a property of a single value is a system that never changes.
-/

namespace BsitLabs
namespace Tcp

open MachineInt Transition SystemInfo

/-! ## The path -/

/-- What has been typed in, as a string: it ends at a zero. -/
def pathText (arg : List UInt8) : CText where
  bytes := arg.takeWhile (· ≠ 0)
  nonzero _ hb := by simpa using List.mem_takeWhile_imp hb

/-- The bytes of a packet in the buffer. -/
theorem get_of_slice {n : ℕ} {b : Buffer n} {data : List UInt8}
    (h : b.slice 0 data.length = data) {j : ℕ} (hj : j < data.length) : b.get j = data[j] := by
  have hget : (b.slice 0 data.length)[j]? = some data[j] := by
    rw [h, List.getElem?_eq_getElem hj]
  rw [Buffer.slice, List.drop_zero, List.getElem?_take_of_lt hj] at hget
  rw [Buffer.get, List.getD_eq_getElem?_getD, hget, Option.getD_some]

section Typed

variable {b : Buffer bufSize} {t : RequestType} {arg : List UInt8}

/-- The length in front of a path that was typed in is not negative. -/
theorem length_of_slice (htakes : t.takesPath = true) (harg : arg.length < requestArgSize)
    (h : b.slice 0 (t.plain arg).length = t.plain arg) : schar (b.get 1) = arg.length := by
  have hsize : requestArgSize = 128 := rfl
  rw [plain_of_takesPath htakes] at h
  have hone : b.get 1 = UInt8.ofNat arg.length := get_of_slice h (j := 1) (by simp)
  rw [hone, schar_eq_iff (by omega), UInt8.toNat_ofNat', Nat.mod_eq_of_lt (by omega)]

/-- **A handler finds the path that was typed in**, whatever stands behind the request. -/
theorem pathOf_of_slice (htakes : t.takesPath = true) (harg : arg.length < requestArgSize)
    (h : b.slice 0 (t.plain arg).length = t.plain arg) : pathOf b = pathText arg := by
  have hsize : requestArgSize = 128 := rfl
  have hcount : sizeT (schar (b.get 1)) = arg.length := by
    rw [length_of_slice htakes harg h, sizeT_of_nonneg (by omega) (by omega), Int.toNat_natCast]
  rw [plain_of_takesPath htakes] at h
  apply CText.ext
  show ((copyPath b).text 0).bytes = _
  rw [text_copyPath, hcount, pathSource]
  refine (Region.ofList b.bytes).take_cString fun j hj => ?_
  rw [get_source, Nat.add_comm 2 j]
  exact get_of_slice h (j := j + 2) (by simp only [List.length_cons]; omega)

end Typed

/-! ## The service -/

/-- The server on a system whose answers to each request have this property. -/
def Env.answering (csp : Csp) (A : Win32 → Prop) : Env { w : Win32 // A w } where
  csp := csp
  handler t bufRecv w := (Env.windows csp).handler t bufRecv w.val

/-- The system has something to say to every request, and the handlers get through with it. -/
def Responsive (w : Win32) : Prop := ∀ path t, Answerable w path t ∧ Talks w path t

/-- The text of a request that has been typed in is the report on its path, from what the system
answered. -/
theorem IsTextOf.eq_report {csp : Csp} {A : Win32 → Prop}
    {rh : (RequestType × List UInt8) × Handling { w : Win32 // A w }} {text : List UInt8}
    (h : IsTextOf (Env.answering csp A) rh text) (htyped : rh.1.2.length < requestArgSize) :
    text = report rh.2.os.val (pathText rh.1.2) rh.1.1 := by
  obtain ⟨written, hwritten, rfl⟩ := Option.map_eq_some_iff.mp h.written
  rw [← report_congr rh.2.os.val fun htakes => pathOf_of_slice htakes htyped h.request]
  have hwindows : (Env.windows csp).handler rh.1.1 rh.2.bufRecv rh.2.os.val = some written :=
    hwritten
  exact (takeWhile_handler hwindows).1

/-- The handlers of a responsive system always leave a text. -/
theorem Env.answering_texts (csp : Csp) {A : Win32 → Prop} (hA : ∀ w, A w → Responsive w) :
    (Env.answering csp A).Texts := fun r h htyped hslice => by
  obtain ⟨hanswerable, htalks⟩ := hA h.os.val h.os.property (pathOf h.bufRecv) r.1
  have hlength : r.1.takesPath = true → 0 ≤ schar (h.bufRecv.get 1) := fun htakes => by
    rw [length_of_slice htakes htyped hslice]
    exact Int.natCast_nonneg _
  obtain ⟨written, hwritten⟩ := Option.isSome_iff_exists.mp
    ((handler_isSome_iff csp).mpr ⟨hlength, hanswerable⟩)
  obtain ⟨htext, hfits⟩ := takeWhile_handler hwritten
  refine ⟨written.takeWhile (· != 0), ⟨hslice, Option.map_eq_some_iff.mpr ⟨_, hwritten, rfl⟩⟩, ?_,
    htext ▸ hfits⟩
  rw [htext]
  exact (report_ne_nil_iff h.os.val hanswerable.within).mpr htalks

section Printed

variable {Os : Type} {env : Env Os} {p : Peer} {handle : Option ℕ} {m : ℕ}
  {replies : List (List UInt8)} {handled : List (Handling Os)}

/-- A client with a key has printed all that it has received but for the first, which is the
key. -/
theorem PeerOk.length_printed {csp : Csp} (hp : PeerOk csp p)
    (hphase : p.phase = .menu ∨ p.phase = .requested ∨ p.phase = .exited) :
    p.got.length = p.printed.length + 1 := by
  cases hp with
  | fresh hph _ _ _ => rcases hph with h | h | h <;> simp [h] at hphase
  | failed habort _ _ => simp [habort] at hphase
  | keyed _ _ hgot _ hprinted => rw [hgot, hprinted, List.length_cons, List.length_map]

/-- A client has printed what its replies decipher to. -/
theorem Session.printed (hlaw : env.csp.Lawful) (h : Session env p handle m replies handled)
    (hp : PeerOk env.csp p) (hwf : env.csp.wellFormed p.client.publicKey = true)
    (hgot : p.got <+: replies) :
    List.Forall₂ (IsTextOf env) ((p.requests.zip handled).take p.printed.length) p.printed := by
  cases hp with
  | fresh _ _ _ hprinted => simp [hprinted]
  | failed habort _ _ => exact absurd habort h.not_aborted
  | @keyed ks r rest hphase hkey hcons hset hprinted =>
    cases h with
    | silent hph _ _ _ => rcases hph with h | h <;> simp [h] at hphase
    | asked hph _ _ => simp [hph] at hphase
    | @keyed key texts _ hk =>
      have hown : p.client.sessionKey = some (env.csp.keystream key) :=
        ((Session.keyed hk).sessionKey hlaw (.keyed hphase hkey hcons hset hprinted) hwf hgot
          (hcons ▸ List.cons_ne_nil r rest)).resolve_right (Session.keyed hk).not_aborted
      obtain rfl := Option.some.inj (hkey.symm.trans hown)
      rw [hcons, Csp.replies, List.cons_prefix_cons] at hgot
      -- deciphering what was enciphered gives the texts back
      obtain ⟨more, hmore⟩ : p.printed <+: texts := by
        have hmap := hgot.2.map (env.csp.keystream key).apply
        rw [← hprinted, List.map_map] at hmap
        simpa [Function.comp_def, KeyStream.apply_apply] using hmap
      have hformed := hk.formed
      rw [← hmore] at hformed
      exact List.forall₂_take_append _ p.printed more hformed

/-- A client with a key has received the key, and a reply to each request but the one that it
waits for. -/
theorem Session.length_got (h : Session env p handle m replies handled)
    (hphase : p.phase = .menu ∨ p.phase = .requested ∨ p.phase = .exited) :
    p.got.length = p.requests.length + if p.phase = .requested then 0 else 1 := by
  cases h with
  | silent hph _ _ _ => rcases hph with h | h <;> simp [h] at hphase
  | asked hph _ _ => simp [hph] at hphase
  | keyed hk =>
    rcases hk.phase with ⟨hph, _⟩ | ⟨hph, hlen⟩ | ⟨hph | hph, hlen⟩
    · simp [hph] at hphase
    · rw [hlen, if_pos hph, Nat.add_zero]
    · rw [hlen, hph, if_neg (by decide)]
    · rw [hlen, hph, if_neg (by decide)]

end Printed

/-- The client of the connection `c` has printed the reports on its requests, in order. -/
structure Reported {A : Win32 → Prop} (n : Net { w : Win32 // A w }) (c : ℕ) : Prop where
  /-- Each report is that on what the system answered when the request was handled. -/
  reports : List.Forall₂ (fun rh text => text = report rh.2.os.val (pathText rh.1.2) rh.1.1)
    (((n.peers c).requests.zip (n.world.handled c)).take (n.peers c).printed.length)
    (n.peers c).printed
  /-- The last of them is missing while it is waited for. -/
  waiting : (n.peers c).phase = .requested →
    (n.peers c).printed.length + 1 = (n.peers c).requests.length
  /-- None is missing at the menu, and when `main` has returned. -/
  complete : (n.peers c).phase = .menu ∨ (n.peers c).phase = .exited →
    (n.peers c).printed.length = (n.peers c).requests.length

/-- A client whose session is in order has printed the reports. -/
theorem DeliveryOk.reported {csp : Csp} (hlaw : csp.Lawful) {A : Win32 → Prop}
    {n : Net { w : Win32 // A w }} (hd : DeliveryOk (Env.answering csp A) n)
    (hok : SessionOk (Env.answering csp A) n) (c : ℕ) : Reported n c := by
  have hp := hok.peers c
  have hsession := hd.session c
  have hlaw' : (Env.answering csp A).csp.Lawful := hlaw
  refine ⟨?_, fun hwait => ?_, fun hdone => ?_⟩
  · have hformed := hsession.printed hlaw' hp (hd.publicKey c).1 (hok.replies c)
    have htyped : ∀ rh ∈ ((n.peers c).requests.zip (n.world.handled c)).take
        (n.peers c).printed.length, rh.1.2.length < requestArgSize := fun rh hrh =>
      hsession.typed _ (List.of_mem_zip (List.mem_of_mem_take hrh)).1
    exact ((List.forall₂_and_left _ _).mpr ⟨htyped, hformed⟩).imp
      fun _ _ ⟨hlen, htext⟩ => htext.eq_report hlen
  · have hlen := hp.length_printed (.inr (.inl hwait))
    have hcount := hsession.length_got (.inr (.inl hwait))
    rw [if_pos hwait] at hcount
    omega
  · have hphase : (n.peers c).phase = .menu ∨ (n.peers c).phase = .requested ∨
        (n.peers c).phase = .exited := hdone.imp_right .inr
    have hlen := hp.length_printed hphase
    have hcount := hsession.length_got hphase
    rw [if_neg (by rcases hdone with h | h <;> simp [h])] at hcount
    omega

/-- **Users read the reports.**  In every orderly run, whatever the other clients do and
however sends and receives split the bytes, each client has printed the reports on its own
requests, in order, and each of them on what the system answered when that request was handled:
all but the last while it waits, and all when it is at the menu or has exited. -/
theorem printed_reports (csp : Csp) (hlaw : csp.Lawful) {A : Win32 → Prop}
    (hA : ∀ w, A w → Responsive w) {n : Net { w : Win32 // A w }}
    (hr : ((netMachine (Env.answering csp A)).restrict (Orderly Net.Held)).Reachable n) (c : ℕ) :
    Reported n c := by
  have hlaw' : (Env.answering csp A).csp.Lawful := hlaw
  obtain ⟨hok, hd⟩ := deliveryOk_reachable hlaw' (Env.answering_texts csp hA) hr
  exact hd.reported hlaw hok c

/-! ## A run -/

/-- A system with one fixed drive, on which everything belongs to `u`. -/
def sampleSystem : Win32 :=
  { Win32.silent with
    rtlGetVersion := some 10
    getLogicalDrives := 4
    getDriveType := fun _ => driveFixed
    daclOf := fun _ => some (some [⟨0, []⟩])
    lookupAccountSid := fun _ _ => some (.lit "u")
    convertSidToStringSid := fun _ => some (.lit "S-1-5-18") }

/-- Its only account has a short name. -/
theorem user_sampleSystem {sid : Sid} {capacity size : ℕ} (hsize : 1 < size) :
    ∀ user ∈ sampleSystem.lookupAccountSid sid capacity, user.length < size := fun _ huser =>
  Option.some.inj huser ▸ hsize

theorem responsive_sampleSystem : Responsive sampleSystem := by
  have hentry : EntryKept sampleSystem ⟨0, []⟩ :=
    ⟨user_sampleSystem (by decide), fun _ h => (by cases h), fun _ h => (by cases h)⟩
  intro path t
  cases t with
  | osVersion => exact ⟨⟨trivial, trivial⟩, show versionName sampleSystem ≠ none by decide⟩
  | currentTime => exact ⟨⟨trivial, trivial⟩, trivial⟩
  | osTime => exact ⟨⟨trivial, trivial⟩, trivial⟩
  | memoryStatus => exact ⟨⟨trivial, trivial⟩, trivial⟩
  | disksTypes =>
    refine ⟨⟨fun _ _ _ h => (by cases h), ?_⟩, ?_⟩
    · show listingLength sampleSystem sampleSystem.stray.nameFileSystem sampleSystem.drives <
        bufSize
      decide
    · show sampleSystem.drives ≠ []
      decide
  | freeSpace =>
    refine ⟨⟨?_, trivial⟩, ?_⟩
    · show ∀ space ∈ shownSpaces sampleSystem, (figureOf sampleSystem space).length < gcvtSize
      decide
    · show sampleSystem.fixedDrives ≠ []
      decide
  | accessRight =>
    refine ⟨⟨⟨_, rfl, fun ace hace => Option.some.inj hace ▸ hentry⟩, ?_⟩, ⟨0, []⟩, [], rfl, ?_⟩
    · show rightsLength sampleSystem .nil < bufSize
      decide
    · exact Option.some_ne_none _
  | owner =>
    exact ⟨⟨⟨user_sampleSystem (by decide), fun _ h => (by cases h)⟩, trivial⟩, trivial⟩

/-- A client at the menu asks, and is brought back to it. -/
theorem exists_printed {csp : Csp} (hlaw : csp.Lawful) {A : Win32 → Prop}
    (hA : ∀ w, A w → Responsive w) (w : { w : Win32 // A w }) {n : Net { w : Win32 // A w }}
    (hr : ((netMachine (Env.answering csp A)).restrict (Orderly Net.Held)).Reachable n)
    (hat : AtMost99 n.Held) {c : ℕ} (hmenu : (n.peers c).phase = .menu) {arg : List UInt8}
    (harg : arg.length < requestArgSize) :
    ∃ t n', t.takesPath = true ∧
      ((netMachine (Env.answering csp A)).restrict (Orderly Net.Held)).Reachable n' ∧
      (n'.peers c).phase = .menu ∧ (n'.peers c).requests = (n.peers c).requests ++ [(t, arg)] ∧
      ∀ d, d ≠ c → n'.peers d = n.peers d := by
  have htext := Env.answering_texts csp hA
  have hlaw' : (Env.answering csp A).csp.Lawful := hlaw
  obtain ⟨ks, hks⟩ : ∃ ks, (n.peers c).client.sessionKey = some ks := by
    cases (deliveryOk_reachable hlaw' htext hr).1.peers c with
    | fresh hph _ _ _ => simp [hmenu] at hph
    | failed hph _ _ => simp [hmenu] at hph
    | keyed _ hkey _ _ _ => exact ⟨_, hkey⟩
  -- one of the two requests does not begin with the mark of a key
  obtain ⟨t, htakes, hcode⟩ : ∃ t : RequestType, t.takesPath = true ∧ t.code ≠ ks 0 := by
    by_cases heq : RequestType.owner.code = ks 0
    · exact ⟨.accessRight, rfl, fun h => absurd (h.trans heq.symm) (by decide)⟩
    · exact ⟨.owner, rfl, heq⟩
  have hform : ((n.peers c).ask t arg).client.requestFormation = some (ks.apply (t.plain arg)) :=
    Client.requestFormation_request (c := ((n.peers c).ask t arg).client) rfl hks harg
  have hrecognisable : Recognisable n (.request c t arg : NetEvent { w : Win32 // A w }) := by
    intro packet hpacket
    obtain rfl := Option.some.inj (hform.symm.trans hpacket)
    rw [RequestType.plain, ks.apply_cons, List.head?_cons]
    simpa using hcode
  have hstep : Net.Step (Env.answering csp A) n (.request c t arg) _ := .request hmenu harg hform
  have hself : ∀ p, (n.setPeer c p).peers c = p := fun p => by
    rw [Net.setPeer_peers, if_pos rfl]
  have hwhole : Whole n (.request c t arg : NetEvent { w : Win32 // A w }) := trivial
  have hr' := hr.step (M := (netMachine (Env.answering csp A)).restrict (Orderly Net.Held))
    ⟨⟨hwhole, hrecognisable, hat⟩, hstep⟩
  have hheld : ∀ d, (n.setPeer c (((n.peers c).ask t arg).send (ks.apply (t.plain arg))
      .requested)).Held d → n.Held d := by
    refine fun d hd => ⟨fun habsent => ?_, hd.2⟩
    by_cases hdc : d = c
    · simp [hdc, hmenu] at habsent
    · refine hd.1 ?_
      rw [Net.setPeer_peers, if_neg hdc, habsent]
  obtain ⟨n', hr'', _, hmenu', hrequests, hothers⟩ := exists_menu hlaw' htext w hr'
    (fun S hS => hat S fun d hd => hheld d (hS d hd)) (.inr (by rw [hself]; rfl))
  refine ⟨t, n', htakes, hr'', hmenu', ?_, fun d hd => ?_⟩
  · rw [hrequests, hself]
    rfl
  · rw [hothers d hd, Net.setPeer_peers, if_neg hd]

/-- The first client of the sample asks for something about `C:`. -/
theorem exists_printed_sample : ∃ (t : RequestType) (n : Net { w : Win32 // w = sampleSystem }),
    t.takesPath = true ∧ ((netMachine (Env.answering .oneByte (· = sampleSystem))).restrict
      (Orderly Net.Held)).Reachable n ∧ (n.peers 2).phase = .menu ∧
    (n.peers 2).requests = [(t, ascii "C:")] ∧
    ∀ d, d ≠ 2 → n.peers d = (Net.sampleKeySent (⟨sampleSystem, rfl⟩ :
      { w : Win32 // w = sampleSystem })).peers d := by
  have hA : ∀ w, w = sampleSystem → Responsive w := fun w hw => hw ▸ responsive_sampleSystem
  obtain ⟨os, hos⟩ : ∃ os : { w : Win32 // w = sampleSystem }, os = ⟨sampleSystem, rfl⟩ := ⟨_, rfl⟩
  rw [← hos]
  have hok : Net.FirstOk (Env.answering .oneByte (· = sampleSystem)) os (Orderly Net.Held)
      .currentTime [] := Net.firstOk_orderly Net.Held rfl rfl (by decide) _ fun _ _ hheld => hheld.1
  have hpeer : ((Net.sampleKeySent os).peers 2).phase = .keySent ∧
      ((Net.sampleKeySent os).peers 2).requests = [] := by
    rw [Net.sampleKeySent_peer]
    exact ⟨rfl, rfl⟩
  obtain ⟨n₁, hr₁, hat₁, hmenu₁, hrequests₁, hothers₁⟩ :=
    exists_menu Csp.oneByte_lawful (Env.answering_texts .oneByte hA) os
      (Net.reachable_sampleKeySent rfl os hok.connect hok.accept hok.sendKey)
      ((Net.alone_sampleKeySent os).atMost99 fun _ hheld => hheld.1) (.inl hpeer.1)
  obtain ⟨t, n, htakes, hr, hmenu, hrequests, hothers⟩ :=
    exists_printed Csp.oneByte_lawful hA os hr₁ hat₁ hmenu₁
      (show (ascii "C:").length < requestArgSize by decide)
  rw [hrequests₁, hpeer.2, List.nil_append] at hrequests
  exact ⟨t, n, htakes, hr, hmenu, hrequests, fun d hd => (hothers d hd).trans (hothers₁ d hd)⟩

/-- It reads the report. -/
theorem printed_reports_sample : ∃ (t : RequestType) (n : Net { w : Win32 // w = sampleSystem }),
    t.takesPath = true ∧ (n.peers 2).requests = [(t, ascii "C:")] ∧
    (n.peers 2).printed = [report sampleSystem (.lit "C:") t] := by
  obtain ⟨t, n, htakes, hr, hmenu, hrequests, _⟩ := exists_printed_sample
  have hA : ∀ w, w = sampleSystem → Responsive w := fun w hw => hw ▸ responsive_sampleSystem
  have hreported := printed_reports .oneByte Csp.oneByte_lawful hA hr 2
  have hlen := hreported.complete (.inl hmenu)
  have hreports := hreported.reports
  rw [hrequests, List.length_singleton] at hlen
  rw [hrequests, hlen] at hreports
  obtain ⟨text, hprinted⟩ := List.length_eq_one_iff.mp hlen
  rw [hprinted] at hreports
  obtain ⟨⟨r, h⟩, rest, htext, _, hzip⟩ := List.forall₂_cons_right_iff.mp hreports
  have hmem : (r, h) ∈ [(t, ascii "C:")].zip (n.world.handled 2) :=
    List.mem_of_mem_take (hzip ▸ List.mem_cons_self)
  obtain rfl := List.mem_singleton.mp (List.of_mem_zip hmem).1
  rw [h.os.property] at htext
  exact ⟨t, n, htakes, hrequests, htext ▸ hprinted⟩

end Tcp
end BsitLabs
