import BsitLabs.Tcp.Menu
import BsitLabs.Tcp.Reports

/-!
# What a user types, and what comes of it

`main` of the client is a loop over its standard input: the question for a request, the exchange
with the server, the answer, and two `getchar` that hold it on the screen.  A `Script` is what a
user means to type: a list of entries and the exit.  Here the clients read their input by
`ask_request_type`, and the steps of the network that depend on a user are taken only when it has
answered.

* `exists_asked_entry` --- whatever memory holds, the question takes an entry off the input, as
  it is meant, and leaves what stands behind it;
* `onScripts_step`, `onScripts_reachable` --- so in every run each client asks for the entries
  of its script, in order, and exits behind the last;
* `scripted_reports` --- and in every orderly run the user has read the reports on the entries,
  in order, all of them when `main` has returned;
* `exists_users_iff` --- a state of the network comes up in this way for some scripts if and
  only if its clients have asked for what can be typed.
-/

namespace BsitLabs
namespace Tcp

open MachineInt Transition Loop Decimal Asking SystemInfo

/-! ## Scripts -/

/-- A request as it is typed, and the two characters that the user types to go on. -/
structure Entry where
  /-- White space in front of the number. -/
  blanks : List UInt8
  type : RequestType
  path : CText
  pause : UInt8 × UInt8
  /-- The white space is what `scanf` skips. -/
  skipped : ∀ b ∈ blanks, isSpace b = true
  /-- The path is one line. -/
  line : 10 ∉ path.bytes
  /-- The path fits `request_arg`. -/
  fits : path.bytes.length < requestArgSize
  /-- Only two of the requests ask for a path. -/
  pathless : type.takesPath = false → path = .nil

namespace Entry

/-- What the client is asked for. -/
def request (e : Entry) : RequestType × List UInt8 := (e.type, e.path.bytes)

/-- The lines that are read by `ask_request_type`. -/
def lines (e : Entry) : List UInt8 :=
  e.blanks ++ (48 + e.type.code) :: 10 :: if e.type.takesPath then e.path.bytes ++ [10] else []

/-- The characters that are read by `getchar`. -/
def pauses (e : Entry) : List UInt8 := [e.pause.1, e.pause.2]

end Entry

/-- Requests, and the exit: what stands behind it is not read. -/
structure Script where
  entries : List Entry
  blanks : List UInt8
  unread : List UInt8
  skipped : ∀ b ∈ blanks, isSpace b = true

namespace Script

/-- What is still typed when these entries are left. -/
def textOf (s : Script) (rest : List Entry) : List UInt8 :=
  rest.flatMap (fun e => e.lines ++ e.pauses) ++ (s.blanks ++ 57 :: 10 :: s.unread)

/-- What is typed. -/
def text (s : Script) : List UInt8 := s.textOf s.entries

@[simp] theorem textOf_nil (s : Script) : s.textOf [] = s.blanks ++ 57 :: 10 :: s.unread := rfl

@[simp] theorem textOf_cons (s : Script) (e : Entry) (rest : List Entry) :
    s.textOf (e :: rest) = e.lines ++ (e.pauses ++ s.textOf rest) := by
  rw [textOf, List.flatMap_cons, List.append_assoc, List.append_assoc]
  rfl

end Script

namespace Asking

variable {scan : IntScan} {a final : Asking}

/-! ## The question takes an entry -/

/-- `%d` skips white space. -/
theorem scanInt_blanks {blanks : List UInt8} (h : ∀ b ∈ blanks, isSpace b = true)
    (input : List UInt8) : scanInt (blanks ++ input) = scanInt input := by
  unfold scanInt
  rw [List.dropWhile_append_of_pos h]

/-- A digit in front of the end of a line is the number that it is. -/
theorem scanInt_digit {d : UInt8} (hd : d.toNat ≤ 9) (rest : List UInt8) :
    scanInt ((48 + d) :: 10 :: rest) = (some (d.toNat : ℤ), 10 :: rest) := by
  obtain ⟨n, hn⟩ : ∃ n, n = d.toNat := ⟨_, rfl⟩
  obtain rfl : d = UInt8.ofNat n := by rw [hn, UInt8.ofNat_toNat]
  rw [← hn] at hd
  interval_cases n <;> rfl

/-- The number of an entry, or of the exit, ends the loop for the number at once. -/
theorem returns_digit (scan : IntScan) {blanks : List UInt8}
    (hblanks : ∀ b ∈ blanks, isSpace b = true) {d : UInt8}
    (hd : InMenu d) {rest : List UInt8} (h : a.input = blanks ++ (48 + d) :: 10 :: rest) :
    ∃ chosen, Returns (typeStep scan) a chosen ∧ chosen.requestType = d ∧ chosen.input = rest ∧
      chosen.memory.get 1 = 0 := by
  have hscan : scanInt a.input = (some (d.toNat : ℤ), 10 :: rest) := by
    rw [h, scanInt_blanks hblanks, scanInt_digit hd.2]
  have hz : 1 ≤ (d.toNat : ℤ) ∧ (d.toNat : ℤ) ≤ 9 := by
    have hmenu := hd
    unfold InMenu at hmenu
    omega
  obtain ⟨hmenu, hleft⟩ : InMenu (scanType scan a).requestType ∧ _ := left_scanType hscan hz
  refine ⟨_, .of_result (if_pos hmenu), UInt8.toNat_inj.mp (Int.ofNat_inj.mp hleft.number),
    hleft.input, ?_⟩
  rw [hleft.clear 1 le_rfl]
  rfl

/-- The loop for the path reads up to the end of the line. -/
theorem input_of_line {i : ℕ} {line rest : List UInt8} (hinput : a.input = line ++ 10 :: rest)
    (hline : 10 ∉ line) (h : Returns pathStep (i, a) final) : final.input = rest := by
  induction line generalizing i a with
  | nil =>
    obtain rfl := h.unique (.of_result (pathStep_end hinput))
    rfl
  | cons c line ih =>
    rw [List.mem_cons, not_or] at hline
    exact ih rfl hline.2 ((Returns.next_iff (pathStep_char hinput (Ne.symm hline.1))).mp h)

/-- What the question returns is decided by the number. -/
theorem code_of_askRequestType {fuel : ℕ} {code : ℤ}
    (h : askRequestType scan fuel a = some (final, code)) :
    code = if final.requestType = 9 then -1 else 0 := by
  simp only [askRequestType, Option.bind_eq_some_iff, Option.map_eq_some_iff,
    Prod.mk.injEq] at h
  obtain ⟨_, _, _, _, rfl, rfl⟩ := h
  rfl

/-- The question has one answer. -/
theorem askRequestType_unique {fuel fuel' : ℕ} {final' : Asking} {code code' : ℤ}
    (h : askRequestType scan fuel a = some (final, code))
    (h' : askRequestType scan fuel' a = some (final', code')) : final = final' ∧ code = code' := by
  obtain ⟨chosen, hchosen, hfinal⟩ := exists_askRequestType_iff.mp ⟨fuel, code, h⟩
  obtain ⟨chosen', hchosen', hfinal'⟩ := exists_askRequestType_iff.mp ⟨fuel', code', h'⟩
  obtain rfl := hchosen.unique hchosen'
  have hsame : final = final' := by
    split at hfinal
    · next hpath =>
      rw [if_pos hpath] at hfinal'
      exact hfinal.unique hfinal'
    · next hpath =>
      rw [if_neg hpath] at hfinal'
      exact hfinal.trans hfinal'.symm
  exact ⟨hsame, by rw [code_of_askRequestType h, code_of_askRequestType h', hsame]⟩

/-- The number of a request is one of the menu, and is not the exit. -/
theorem inMenu_code (t : RequestType) : InMenu t.code ∧ t.code ≠ 9 := by
  cases t <;> decide

theorem takesPath_code (t : RequestType) (h : a.requestType = t.code) :
    a.takesPath ↔ t.takesPath = true := by
  rw [takesPath, h]
  cases t <;> decide

/-- **The question takes an entry off the input**, as it is meant, whatever memory holds. -/
theorem exists_asked_entry (scan : IntScan) (memory : Region UInt8) (e : Entry)
    (rest : List UInt8) : ∃ fuel a, askRequestType scan fuel ⟨memory, e.lines ++ rest, []⟩ =
      some (a, 0) ∧ a.requestType = e.type.code ∧ a.memory.cString 1 = e.path.bytes ∧
      a.input = rest := by
  obtain ⟨hmenu, hstay⟩ := inMenu_code e.type
  have hlines : e.lines ++ rest = e.blanks ++ (48 + e.type.code) :: 10 ::
      ((if e.type.takesPath then e.path.bytes ++ [10] else []) ++ rest) := by
    simp [Entry.lines]
  obtain ⟨chosen, hreturns, htype, hinput, hclear⟩ :=
    returns_digit scan (a := ⟨memory, e.lines ++ rest, []⟩) e.skipped hmenu hlines
  have hcode {final : Asking} (hsame : final.requestType = e.type.code) :
      (if final.requestType = 9 then -1 else 0 : ℤ) = 0 := if_neg (hsame ▸ hstay)
  by_cases hpath : e.type.takesPath = true
  · rw [if_pos hpath, List.append_assoc] at hinput
    obtain ⟨final, hfinal, hget, _⟩ := returns_of_line (a := chosen) (i := 0) hinput e.line
    have hsame := (frame_of_returns hfinal).2.trans htype
    obtain ⟨fuel, code, hrun⟩ := exists_askRequestType_iff.mpr
      ⟨chosen, hreturns, by rwa [if_pos ((takesPath_code e.type htype).mpr hpath)]⟩
    refine ⟨fuel, final, ?_, hsame, ?_, input_of_line hinput e.line hfinal⟩
    · rw [hrun, code_of_askRequestType hrun, hcode hsame]
    · rw [Region.cString_congr (r := chosen.memory.strcpy 1 e.path.bytes) fun j _ => by rw [hget]]
      exact Region.cString_strcpy _ 1 e.path.nonzero
  · rw [if_neg hpath, List.nil_append] at hinput
    obtain ⟨fuel, code, hrun⟩ := exists_askRequestType_iff.mpr
      ⟨chosen, hreturns, by rw [if_neg fun h => hpath ((takesPath_code e.type htype).mp h)]⟩
    refine ⟨fuel, chosen, ?_, htype, ?_, hinput⟩
    · rw [hrun, code_of_askRequestType hrun, hcode htype]
    · rw [e.pathless (by simpa using hpath)]
      exact (chosen.memory.cString_eq_nil_iff 1).mpr hclear

/-- Behind the entries it reads the exit. -/
theorem exists_asked_exit (scan : IntScan) (memory : Region UInt8) (s : Script) :
    ∃ fuel a, askRequestType scan fuel ⟨memory, s.textOf [], []⟩ = some (a, -1) ∧
      a.input = s.unread := by
  obtain ⟨chosen, hreturns, htype, hinput, _⟩ := returns_digit scan
    (a := ⟨memory, s.textOf [], []⟩) (d := 9) s.skipped (by decide) s.textOf_nil
  have hpath : ¬ chosen.takesPath := by
    rw [takesPath, htype]
    decide
  obtain ⟨fuel, code, hrun⟩ := exists_askRequestType_iff.mpr
    ⟨chosen, hreturns, by rw [if_neg hpath]⟩
  refine ⟨fuel, chosen, ?_, hinput⟩
  rw [hrun, code_of_askRequestType hrun, if_pos htype]

end Asking

/-! ## The network and its users -/

/-- What a client's question works on: `request_type` and `request_arg`, and what is still to be
read of what its user types. -/
structure Console where
  memory : Region UInt8
  input : List UInt8

/-- The client that begins to ask. -/
def Console.asking (k : Console) : Asking := ⟨k.memory, k.input, []⟩

/-- The two `getchar` of `main` behind `decrypt_msg`. -/
def Console.pause (k : Console) : Console := { k with input := k.input.drop 2 }

/-- The network, with the consoles of the clients. -/
structure Users (Os : Type) where
  net : Net Os
  consoles : ℕ → Console

/-- What needs no user. -/
def NetEvent.Unattended {Os : Type} : NetEvent Os → Prop
  | .request .. | .exit .. | .receive .. => False
  | _ => True

section Users

variable {Os : Type}

/-- The steps of the network, where the clients ask their users. -/
inductive Users.Step (scan : IntScan) (env : Env Os) :
    Users Os → NetEvent Os → Users Os → Prop where
  | request {u : Users Os} {n : Net Os} {c : ℕ} {t : RequestType} {fuel : ℕ} {a : Asking}
      (hask : askRequestType scan fuel (u.consoles c).asking = some (a, 0))
      (htype : a.requestType = t.code)
      (hs : Net.Step env u.net (.request c t (a.memory.cString 1)) n) :
      Step scan env u (.request c t (a.memory.cString 1))
        ⟨n, Function.update u.consoles c ⟨a.memory, a.input⟩⟩
  | exit {u : Users Os} {n : Net Os} {c : ℕ} {fuel : ℕ} {a : Asking}
      (hask : askRequestType scan fuel (u.consoles c).asking = some (a, -1))
      (hs : Net.Step env u.net (.exit c) n) :
      Step scan env u (.exit c) ⟨n, Function.update u.consoles c ⟨a.memory, a.input⟩⟩
  /-- A text has been printed. -/
  | printed {u : Users Os} {n : Net Os} {c : ℕ} {data : List UInt8}
      (hphase : (u.net.peers c).phase = .requested ∧ (n.peers c).phase = .menu)
      (hs : Net.Step env u.net (.receive c data) n) :
      Step scan env u (.receive c data) ⟨n, Function.update u.consoles c (u.consoles c).pause⟩
  /-- The key has been set, or an assertion has failed. -/
  | received {u : Users Os} {n : Net Os} {c : ℕ} {data : List UInt8}
      (hphase : ¬ ((u.net.peers c).phase = .requested ∧ (n.peers c).phase = .menu))
      (hs : Net.Step env u.net (.receive c data) n) :
      Step scan env u (.receive c data) ⟨n, u.consoles⟩
  | unattended {u : Users Os} {n : Net Os} {e : NetEvent Os} (he : e.Unattended)
      (hs : Net.Step env u.net e n) : Step scan env u e ⟨n, u.consoles⟩

/-- The runs of the network whose steps meet a condition, with users that type these scripts.
What the clients' memory holds before the first question is left open. -/
def userMachine (scan : IntScan) (env : Env Os) (ok : Net Os → NetEvent Os → Prop)
    (scripts : ℕ → Script) : Machine (Users Os) (NetEvent Os) where
  init u := (netMachine env).init u.net ∧ ∀ c, (u.consoles c).input = (scripts c).text
  step u e u' := ok u.net e ∧ Users.Step scan env u e u'

variable {scan : IntScan} {env : Env Os} {ok : Net Os → NetEvent Os → Prop} {scripts : ℕ → Script}

/-- The network does not see its users. -/
theorem Users.Step.net {u u' : Users Os} {e : NetEvent Os} (h : Users.Step scan env u e u') :
    Net.Step env u.net e u'.net := by
  cases h with
  | request _ _ hs => exact hs
  | exit _ hs => exact hs
  | printed _ hs => exact hs
  | received _ hs => exact hs
  | unattended _ hs => exact hs

/-- A run with users is a run of the network. -/
def userProjection (scan : IntScan) (env : Env Os) (ok : Net Os → NetEvent Os → Prop)
    (scripts : ℕ → Script) :
    Projection (userMachine scan env ok scripts) ((netMachine env).restrict ok) where
  map u := u.net
  init _ h := h.1
  step _ e _ h := .inr ⟨e, h.1, h.2.net⟩

/-! ## Where a user stands -/

/-- These entries have been typed and these are left. -/
structure OnScript (s : Script) (p : Peer) (input : List UInt8) (done rest : List Entry) :
    Prop where
  entries : s.entries = done ++ rest
  requests : p.requests = done.map Entry.request
  reading : p.phase ≠ .requested → p.phase.gone = false → input = s.textOf rest
  paused : p.phase = .requested → ∃ e : Entry, input = e.pauses ++ s.textOf rest
  exited : p.phase = .exited → rest = []

variable {s : Script} {p : Peer} {k : Console} {done rest : List Entry}

/-- A client at the menu asks for the next entry. -/
theorem OnScript.asked (h : OnScript s p k.input done rest) (hphase : p.phase = .menu) {fuel : ℕ}
    {a : Asking} (hask : askRequestType scan fuel k.asking = some (a, 0)) :
    ∃ e rest', rest = e :: rest' ∧ a.requestType = e.type.code ∧
      a.memory.cString 1 = e.path.bytes ∧ a.input = e.pauses ++ s.textOf rest' := by
  have hinput := h.reading (by simp [hphase]) (by rw [hphase]; rfl)
  cases rest with
  | nil =>
    obtain ⟨fuel', a', hexit, _⟩ := exists_asked_exit scan k.memory s
    rw [Console.asking, hinput] at hask
    exact absurd (askRequestType_unique hask hexit).2 (by decide)
  | cons e rest =>
    obtain ⟨fuel', a', hentry, htype, hpath, hrest⟩ :=
      exists_asked_entry scan k.memory e (e.pauses ++ s.textOf rest)
    rw [Console.asking, hinput, s.textOf_cons] at hask
    obtain ⟨rfl, -⟩ := askRequestType_unique hask hentry
    exact ⟨e, rest, rfl, htype, hpath, hrest⟩

/-- It exits behind the last. -/
theorem OnScript.eq_nil (h : OnScript s p k.input done rest) (hphase : p.phase = .menu) {fuel : ℕ}
    {a : Asking} (hask : askRequestType scan fuel k.asking = some (a, -1)) : rest = [] := by
  have hinput := h.reading (by simp [hphase]) (by rw [hphase]; rfl)
  cases rest with
  | nil => rfl
  | cons e rest =>
    obtain ⟨_, _, hentry, _⟩ :=
      exists_asked_entry scan k.memory e (e.pauses ++ s.textOf rest)
    rw [Console.asking, hinput, s.textOf_cons] at hask
    exact absurd (askRequestType_unique hask hentry).2 (by decide)

/-- Only what a client has asked, and where it stands, matters to its user. -/
theorem OnScript.of_peer {p' : Peer} {input : List UInt8} (h : OnScript s p input done rest)
    (hrequests : p'.requests = p.requests) (hphase : p.phase = p'.phase ∨
      p.phase ≠ .requested ∧ p.phase.gone = false ∧ p'.phase ≠ .requested ∧ p'.phase ≠ .exited) :
    OnScript s p' input done rest := by
  have hasked := hrequests.trans h.requests
  rcases hphase with hsame | ⟨hne, hgone, hne', hstay⟩
  · exact ⟨h.entries, hasked, hsame ▸ h.reading, hsame ▸ h.paused, hsame ▸ h.exited⟩
  · exact ⟨h.entries, hasked, fun _ _ => h.reading hne hgone, fun hw => absurd hw hne',
      fun hx => absurd hx hstay⟩

/-- An answer is read, and its user goes on. -/
theorem OnScript.printed {p' : Peer} (h : OnScript s p k.input done rest)
    (hphase : p.phase = .requested) (hrequests : p'.requests = p.requests)
    (hmenu : p'.phase = .menu) : OnScript s p' k.pause.input done rest := by
  obtain ⟨e, hinput⟩ := h.paused hphase
  refine ⟨h.entries, hrequests.trans h.requests, fun _ _ => ?_, fun hw => ?_, fun hx => ?_⟩
  · show k.input.drop 2 = _
    rw [hinput]
    rfl
  · rw [hmenu] at hw
    cases hw
  · rw [hmenu] at hx
    cases hx

/-- The key is set, or the client has ended. -/
theorem OnScript.received {csp : Csp} {data input : List UInt8} (h : OnScript s p input done rest)
    (hphase : p.phase = .keySent ∨ p.phase = .requested)
    (hnot : ¬ (p.phase = .requested ∧ (p.receive csp data).phase = .menu)) :
    OnScript s (p.receive csp data) input done rest := by
  have hrequests := (p.receive_records csp data).2.2
  rcases p.receive_phase csp data with hmenu | habort
  · have hkey : p.phase = .keySent := hphase.resolve_right fun hw => hnot ⟨hw, hmenu⟩
    exact h.of_peer hrequests (.inr (by simp [hkey, hmenu, Phase.gone]))
  · exact ⟨h.entries, hrequests.trans h.requests,
      fun _ hgone => by simp [habort, Phase.gone] at hgone,
      fun hw => by simp [habort] at hw, fun hx => by simp [habort] at hx⟩

/-- Without its user a client does not get further than to wait for the key. -/
theorem peers_of_unattended {n n' : Net Os} {e : NetEvent Os} (he : e.Unattended)
    (hs : Net.Step env n e n') (c : ℕ) :
    (n'.peers c).requests = (n.peers c).requests ∧ ((n.peers c).phase = (n'.peers c).phase ∨
      (n.peers c).phase ≠ .requested ∧ (n.peers c).phase.gone = false ∧
        (n'.peers c).phase ≠ .requested ∧ (n'.peers c).phase ≠ .exited) := by
  have hpeer : ∀ (d : ℕ) (p : Peer), p.requests = (n.peers d).requests →
      ((n.peers d).phase ≠ .requested ∧ (n.peers d).phase.gone = false ∧ p.phase ≠ .requested ∧
        p.phase ≠ .exited) → _ := fun d p hrequests hphase =>
    n.setPeer_relates (R := fun q q' => q'.requests = q.requests ∧ (q.phase = q'.phase ∨
      q.phase ≠ .requested ∧ q.phase.gone = false ∧ q'.phase ≠ .requested ∧ q'.phase ≠ .exited))
      (fun _ => ⟨rfl, .inl rfl⟩) (d := d) (p := p) ⟨hrequests, .inr hphase⟩ c
  cases hs with
  | connect hs hphase => exact hpeer _ _ rfl (by simp [hphase, Phase.gone])
  | received => exact ⟨rfl, .inl rfl⟩
  | sent => exact ⟨rfl, .inl rfl⟩
  | dequeue => exact ⟨rfl, .inl rfl⟩
  | sendKey hphase => exact hpeer _ _ rfl (by simp [hphase, Phase.gone, Peer.send])
  | request => exact he.elim
  | receive => exact he.elim
  | exit => exact he.elim

/-- Every user is somewhere in the script. -/
def Users.OnScripts (scripts : ℕ → Script) (u : Users Os) : Prop :=
  ∀ c, ∃ done rest, OnScript (scripts c) (u.net.peers c) (u.consoles c).input done rest

/-- What happens at one console leaves the others where they were. -/
theorem Users.OnScripts.update {u : Users Os} (h : u.OnScripts scripts) {c : ℕ} {p : Peer}
    {k : Console} (hc : ∃ done rest, OnScript (scripts c) p k.input done rest) {n : Net Os}
    (hn : n.peers = Function.update u.net.peers c p) :
    (Users.mk n (Function.update u.consoles c k)).OnScripts scripts := by
  intro d
  by_cases hd : d = c
  · subst hd
    simpa only [hn, Function.update_self] using hc
  · simpa only [hn, Function.update_of_ne hd] using h d

/-- Every step keeps every user on the script. -/
theorem onScripts_step {u u' : Users Os} {e : NetEvent Os} (h : u.OnScripts scripts)
    (hs : Users.Step scan env u e u') : u'.OnScripts scripts := by
  cases hs with
  | @request n c t fuel a hask htype hs =>
    cases hs with
    | request hphase _ _ =>
      obtain ⟨done, rest, hon⟩ := h c
      obtain ⟨e, rest, rfl, htype', hpath, hinput⟩ := hon.asked hphase hask
      obtain rfl := RequestType.code_injective (htype.symm.trans htype')
      refine h.update ⟨done ++ [e], rest, ?_⟩ rfl
      refine ⟨by rw [hon.entries, List.append_assoc]; rfl, ?_, fun hw => absurd rfl hw,
        fun _ => ⟨e, hinput⟩, fun hx => by cases hx⟩
      show (u.net.peers c).requests ++ [(e.type, a.memory.cString 1)] = _
      rw [hon.requests, hpath, List.map_append]
      rfl
  | @exit n c fuel a hask hs =>
    cases hs with
    | exit hphase =>
      obtain ⟨done, rest, hon⟩ := h c
      have hleft : OnScript (scripts c) { u.net.peers c with phase := .exited } a.input done rest :=
        ⟨hon.entries, hon.requests, fun _ hgone => (by cases hgone), fun hw => (by cases hw),
          fun _ => hon.eq_nil hphase hask⟩
      exact h.update ⟨done, rest, hleft⟩ rfl
  | @printed n c data hphase hs =>
    cases hs with
    | receive _ _ _ _ =>
      obtain ⟨done, rest, hon⟩ := h c
      have hmenu := hphase.2
      rw [Net.setPeer_peers, if_pos rfl] at hmenu
      exact h.update ⟨done, rest, hon.printed hphase.1 (Peer.receive_records _ _ _).2.2 hmenu⟩ rfl
  | @received n c data hphase hs =>
    cases hs with
    | receive hw _ _ _ =>
      intro d
      obtain ⟨done, rest, hon⟩ := h d
      refine ⟨done, rest, ?_⟩
      show OnScript (scripts d) ((u.net.setPeer c _).peers d) _ _ _
      rw [Net.setPeer_peers] at hphase ⊢
      split
      · next hd =>
        subst hd
        exact hon.received hw (by rwa [if_pos rfl] at hphase)
      · exact hon
  | unattended he hs =>
    intro d
    obtain ⟨done, rest, hon⟩ := h d
    obtain ⟨hrequests, hphase⟩ := peers_of_unattended he hs d
    exact ⟨done, rest, hon.of_peer hrequests hphase⟩

/-- **In every run each client asks for the entries of its script**, in order, and exits behind
the last. -/
theorem onScripts_reachable {u : Users Os} (hr : (userMachine scan env ok scripts).Reachable u) :
    u.OnScripts scripts := by
  induction hr with
  | init hi =>
    intro c
    obtain ⟨⟨_, _, pub, buf, _, hpeers⟩, hinput⟩ := hi
    refine ⟨[], (scripts c).entries, rfl, by rw [hpeers]; rfl, fun _ _ => hinput c, fun hw => ?_,
      fun hx => ?_⟩
    · rw [hpeers] at hw
      cases hw
    · rw [hpeers] at hx
      cases hx
  | step _ hs ih => exact onScripts_step ih hs.2

/-! ## Which states come up -/

/-- The client has asked for the first entries of the script, and if it has exited, for all. -/
def Asks (s : Script) (p : Peer) : Prop :=
  p.requests <+: s.entries.map Entry.request ∧
    (p.phase = .exited → p.requests.length = s.entries.length)

theorem OnScript.asks {input : List UInt8} (h : OnScript s p input done rest) : Asks s p := by
  refine ⟨?_, fun hexit => ?_⟩
  · rw [h.requests, h.entries, List.map_append]
    exact List.prefix_append _ _
  · rw [h.requests, h.entries, h.exited hexit, List.append_nil, List.length_map]

/-- What a client has asked is not taken back, and one that has exited stays as it is. -/
theorem requests_of_step {n n' : Net Os} {e : NetEvent Os} (hs : Net.Step env n e n') (c : ℕ) :
    (n.peers c).requests <+: (n'.peers c).requests ∧
      ((n.peers c).phase = .exited → n'.peers c = n.peers c) := by
  have hpeer : ∀ (d : ℕ) (p : Peer), (n.peers d).requests <+: p.requests →
      (n.peers d).phase ≠ .exited → _ := fun d p hrequests hphase =>
    n.setPeer_relates (R := fun q q' => q.requests <+: q'.requests ∧ (q.phase = .exited → q' = q))
      (fun _ => ⟨List.prefix_rfl, fun _ => rfl⟩) (d := d) (p := p)
      ⟨hrequests, fun hx => absurd hx hphase⟩ c
  cases hs with
  | connect _ hphase => exact hpeer _ _ List.prefix_rfl (by simp [hphase])
  | received => exact ⟨List.prefix_rfl, fun _ => rfl⟩
  | sent => exact ⟨List.prefix_rfl, fun _ => rfl⟩
  | dequeue => exact ⟨List.prefix_rfl, fun _ => rfl⟩
  | sendKey hphase => exact hpeer _ _ List.prefix_rfl (by simp [hphase])
  | request hphase => exact hpeer _ _ (List.prefix_append _ _) (by simp [hphase])
  | receive hphase =>
    refine hpeer _ _ ?_ (by rcases hphase with h | h <;> simp [h])
    rw [(Peer.receive_records _ _ _).2.2]
  | exit hphase => exact hpeer _ _ List.prefix_rfl (by simp [hphase])

/-- What has been asked for later had been asked for in part before. -/
theorem Asks.of_step {n n' : Net Os} {e : NetEvent Os} (hs : Net.Step env n e n') {c : ℕ}
    (h : Asks s (n'.peers c)) : Asks s (n.peers c) := by
  obtain ⟨hrequests, hexited⟩ := requests_of_step hs c
  exact ⟨hrequests.trans h.1, fun hx => hexited hx ▸ h.2 (hexited hx ▸ hx)⟩

/-- A user types what the client asks for next. -/
theorem OnScript.typed (scan : IntScan) {t : RequestType} {arg : List UInt8}
    (h : OnScript s p k.input done rest) (hphase : p.phase = .menu) {p' : Peer}
    (hrequests : p'.requests = p.requests ++ [(t, arg)]) (hasks : Asks s p') :
    ∃ fuel a, askRequestType scan fuel k.asking = some (a, 0) ∧
      a.requestType = t.code ∧ a.memory.cString 1 = arg := by
  have hinput := h.reading (by simp [hphase]) (by rw [hphase]; rfl)
  have hnext := hasks.1
  rw [hrequests, h.requests, h.entries, List.map_append, List.prefix_append_right_inj] at hnext
  cases rest with
  | nil => exact absurd (List.prefix_nil.mp hnext) (List.cons_ne_nil _ _)
  | cons e rest =>
    obtain ⟨hrequest, -⟩ := List.cons_prefix_cons.mp hnext
    obtain ⟨rfl, rfl⟩ := Prod.mk.inj hrequest
    obtain ⟨fuel, a, hask, htype, hpath, -⟩ :=
      exists_asked_entry scan k.memory e (e.pauses ++ s.textOf rest)
    refine ⟨fuel, a, ?_, htype, hpath⟩
    rw [Console.asking, hinput, s.textOf_cons, hask]

/-- A user types the exit. -/
theorem OnScript.left (scan : IntScan) (h : OnScript s p k.input done rest)
    (hphase : p.phase = .menu) (hall : p.requests.length = s.entries.length) :
    ∃ fuel a, askRequestType scan fuel k.asking = some (a, -1) := by
  have hinput := h.reading (by simp [hphase]) (by rw [hphase]; rfl)
  obtain rfl : rest = [] := by
    rw [h.requests, h.entries, List.length_map, List.length_append] at hall
    exact List.length_eq_zero_iff.mp (by omega)
  obtain ⟨fuel, a, hask, -⟩ := exists_asked_exit scan k.memory s
  exact ⟨fuel, a, by rw [Console.asking, hinput, hask]⟩

/-- A step of the network to a state where each client asks for its script is taken with the
users. -/
theorem exists_userStep {u : Users Os} (h : u.OnScripts scripts) {e : NetEvent Os} {n : Net Os}
    (hs : Net.Step env u.net e n) (hasks : ∀ c, Asks (scripts c) (n.peers c)) :
    ∃ u', Users.Step scan env u e u' ∧ u'.net = n := by
  cases e with
  | request c t arg =>
    obtain ⟨done, rest, hon⟩ := h c
    cases hs with
    | request hphase harg hform =>
      have hstep : Net.Step env u.net (.request c t arg) _ := .request hphase harg hform
      have hnext := hasks c
      rw [Net.setPeer_peers, if_pos rfl] at hnext
      obtain ⟨fuel, a, hask, htype, rfl⟩ := hon.typed scan hphase rfl hnext
      exact ⟨_, .request hask htype hstep, rfl⟩
  | exit c =>
    obtain ⟨done, rest, hon⟩ := h c
    cases hs with
    | exit hphase =>
      have hall := (hasks c).2
      rw [Net.setPeer_peers, if_pos rfl] at hall
      obtain ⟨fuel, a, hask⟩ := hon.left scan hphase (hall rfl)
      exact ⟨_, .exit hask (.exit hphase), rfl⟩
  | receive c data =>
    by_cases hphase : (u.net.peers c).phase = .requested ∧ (n.peers c).phase = .menu
    · exact ⟨_, .printed hphase hs, rfl⟩
    · exact ⟨_, .received hphase hs, rfl⟩
  | connect k => exact ⟨_, .unattended trivial hs, rfl⟩
  | received i k data => exact ⟨_, .unattended trivial hs, rfl⟩
  | sent i k m => exact ⟨_, .unattended trivial hs, rfl⟩
  | dequeue i k ans => exact ⟨_, .unattended trivial hs, rfl⟩
  | sendKey c => exact ⟨_, .unattended trivial hs, rfl⟩

/-- So is a whole run. -/
theorem exists_users (scan : IntScan) {n : Net Os} (hr : ((netMachine env).restrict ok).Reachable n)
    (hasks : ∀ c, Asks (scripts c) (n.peers c)) :
    ∃ u, (userMachine scan env ok scripts).Reachable u ∧ u.net = n := by
  induction hr with
  | @init n hi =>
    exact ⟨⟨n, fun c => ⟨.ofList [], (scripts c).text⟩⟩, .init ⟨hi, fun _ => rfl⟩, rfl⟩
  | step _ hs ih =>
    obtain ⟨u, hu, rfl⟩ := ih fun c => (hasks c).of_step hs.2
    obtain ⟨u', hs', hnet⟩ := exists_userStep (onScripts_reachable hu) hs.2 hasks
    exact ⟨u', hu.step ⟨hs.1, hs'⟩, hnet⟩

/-- **Which states of the network come up with users that type these scripts**: those in which
every client has asked for the first entries of its script, and exits only behind the last. -/
theorem exists_users_iff (scan : IntScan) (env : Env Os) (ok : Net Os → NetEvent Os → Prop)
    (scripts : ℕ → Script) (n : Net Os) :
    (∃ u, (userMachine scan env ok scripts).Reachable u ∧ u.net = n) ↔
      ((netMachine env).restrict ok).Reachable n ∧ ∀ c, Asks (scripts c) (n.peers c) := by
  constructor
  · rintro ⟨u, hu, rfl⟩
    refine ⟨(userProjection scan env ok scripts).reachable hu, fun c => ?_⟩
    obtain ⟨done, rest, hon⟩ := onScripts_reachable hu c
    exact hon.asks
  · rintro ⟨hr, hasks⟩
    exact exists_users scan hr hasks

end Users

/-! ## What the users read -/

/-- The user of the connection `c` has read the reports on the entries of the script, in order. -/
structure Scripted (scan : IntScan) {A : Win32 → Prop} (s : Script)
    (u : Users { w : Win32 // A w }) (c : ℕ) : Prop where
  /-- Each report is that on what the system answered when the request was handled. -/
  reports : List.Forall₂ (fun eh text => text = report eh.2.os.val eh.1.path eh.1.type)
    ((s.entries.zip (u.net.world.handled c)).take (u.net.peers c).printed.length)
    (u.net.peers c).printed
  /-- At the menu the question returns, with the next entry or, behind the last, the exit. -/
  next : (u.net.peers c).phase = .menu →
    ∃ fuel a code, askRequestType scan fuel (u.consoles c).asking = some (a, code) ∧
      match s.entries[(u.net.peers c).printed.length]? with
      | some e => code = 0 ∧ a.requestType = e.type.code ∧ a.memory.cString 1 = e.path.bytes
      | none => code = -1
  /-- None is missing when `main` has returned. -/
  complete : (u.net.peers c).phase = .exited →
    (u.net.peers c).printed.length = s.entries.length

theorem pathText_bytes (path : CText) : pathText path.bytes = path :=
  CText.ext (List.takeWhile_eq_self_iff.mpr fun b hb => by simpa using path.nonzero b hb)

/-- The reports on the requests are those on the entries. -/
theorem Reported.scripted {A : Win32 → Prop} {s : Script} {u : Users { w : Win32 // A w }} {c : ℕ}
    {done rest : List Entry} (scan : IntScan) (h : Reported u.net c)
    (hon : OnScript s (u.net.peers c) (u.consoles c).input done rest) : Scripted scan s u c := by
  have hrequests : (u.net.peers c).requests.length = done.length := by
    rw [hon.requests, List.length_map]
  have hprinted := h.reports.length_eq
  rw [List.length_take, List.length_zip] at hprinted
  have htake : ((u.net.peers c).requests.zip (u.net.world.handled c)).take
      (u.net.peers c).printed.length =
      ((s.entries.zip (u.net.world.handled c)).take (u.net.peers c).printed.length).map
        (Prod.map Entry.request id) := by
    have hzip : ∀ entries : List Entry, (entries.zip (u.net.world.handled c)).take
        (u.net.peers c).printed.length = (entries.take (u.net.peers c).printed.length).zip
          ((u.net.world.handled c).take (u.net.peers c).printed.length) := fun _ =>
      List.take_zipWith
    rw [hon.requests, List.zip_map_left, ← List.map_take, hzip, hzip, hon.entries,
      List.take_append_of_le_length (by omega)]
  refine ⟨?_, fun hmenu => ?_, fun hexit => ?_⟩
  · have hreports := h.reports
    rw [htake, List.forall₂_map_left_iff] at hreports
    refine hreports.imp fun eh text htext => ?_
    rw [htext, Prod.map_fst, Prod.map_snd, Entry.request, pathText_bytes, id]
  · rw [h.complete (.inl hmenu), hrequests, hon.entries,
      List.getElem?_append_right le_rfl, Nat.sub_self]
    have hinput := hon.reading (by simp [hmenu]) (by rw [hmenu]; rfl)
    cases rest with
    | nil =>
      obtain ⟨fuel, a, hask, _⟩ := exists_asked_exit scan (u.consoles c).memory s
      exact ⟨fuel, a, -1, by rw [Console.asking, hinput, hask], rfl⟩
    | cons e rest =>
      obtain ⟨fuel, a, hask, htype, hpath, _⟩ :=
        exists_asked_entry scan (u.consoles c).memory e (e.pauses ++ s.textOf rest)
      exact ⟨fuel, a, 0, by rw [Console.asking, hinput, s.textOf_cons, hask], rfl, htype, hpath⟩
  · rw [h.complete (.inr hexit), hrequests, hon.entries, hon.exited hexit, List.append_nil]

/-- **Users read the reports on what they have typed.**  In every orderly run in which the clients
read their requests from their users, whatever the other users type and however sends and receives
split the bytes, each user has read the reports on the entries of the script, in order, and each of
them on what the system answered when that request was handled; at the menu the question returns,
with the next entry; and when `main` has returned, none is missing. -/
theorem scripted_reports (scan : IntScan) (csp : Csp) (hlaw : csp.Lawful) {A : Win32 → Prop}
    (hA : ∀ w, A w → Responsive w) {scripts : ℕ → Script} {u : Users { w : Win32 // A w }}
    (hr : (userMachine scan (Env.answering csp A) (Orderly Net.Held) scripts).Reachable u) (c : ℕ) :
    Scripted scan (scripts c) u c := by
  obtain ⟨done, rest, hon⟩ := onScripts_reachable hr c
  have hnet := (userProjection scan (Env.answering csp A) (Orderly Net.Held) scripts).reachable hr
  have hlaw' : (Env.answering csp A).csp.Lawful := hlaw
  have htext := Env.answering_texts csp hA
  obtain ⟨hok, hd⟩ := deliveryOk_reachable hlaw' htext hnet
  exact (hd.reported hlaw hok c).scripted scan hon

/-! ## A script -/

/-- A request about `C:`. -/
def Entry.sample (t : RequestType) (ht : t.takesPath = true) : Entry where
  blanks := []
  type := t
  path := .lit "C:"
  pause := (10, 10)
  skipped := by simp
  line := by decide
  fits := by decide
  pathless h := absurd (ht.symm.trans h) (by decide)

/-- It is asked by one user, and the others leave at once. -/
def Script.sample (t : RequestType) (ht : t.takesPath = true) (c : ℕ) : Script where
  entries := if c = 2 then [Entry.sample t ht] else []
  blanks := []
  unread := []
  skipped := by simp

example : (Script.sample .owner rfl 2).text = ascii "8\nC:\n\n\n9\n" := by decide

/-- The user has read the answer. -/
theorem exists_users_sample : ∃ (t : RequestType) (ht : t.takesPath = true)
    (u : Users { w : Win32 // w = sampleSystem }),
    (userMachine .sample (Env.answering .oneByte (· = sampleSystem)) (Orderly Net.Held)
      (Script.sample t ht)).Reachable u ∧ AtMost99 u.net.Held ∧ (u.net.peers 2).phase = .menu ∧
    (u.net.peers 2).requests = (Script.sample t ht 2).entries.map Entry.request := by
  obtain ⟨t, n, ht, hr, hmenu, hrequests, hothers⟩ := exists_printed_sample
  have halone : n.Alone := fun d hd =>
    (hothers d hd).trans (Net.alone_sampleKeySent _ d hd)
  have hat : AtMost99 n.Held := halone.atMost99 fun _ hheld => hheld.1
  have hasks : ∀ c, Asks (Script.sample t ht c) (n.peers c) := by
    intro c
    by_cases hc : c = 2
    · rw [hc]
      exact ⟨by rw [hrequests]; exact List.prefix_rfl, fun h => by simp [hmenu] at h⟩
    · rw [halone c hc]
      exact ⟨List.nil_prefix, fun h => by cases h⟩
  obtain ⟨u, hu, rfl⟩ := exists_users .sample hr hasks
  exact ⟨t, ht, u, hu, hat, hmenu, hrequests⟩

/-- It leaves. -/
theorem scripted_reports_sample : ∃ (t : RequestType) (ht : t.takesPath = true)
    (u : Users { w : Win32 // w = sampleSystem }),
    (userMachine .sample (Env.answering .oneByte (· = sampleSystem)) (Orderly Net.Held)
      (Script.sample t ht)).Reachable u ∧ (u.net.peers 2).phase = .exited ∧
    (u.net.peers 2).printed = [report sampleSystem (.lit "C:") t] := by
  have hA : ∀ w, w = sampleSystem → Responsive w := fun w hw => hw ▸ responsive_sampleSystem
  obtain ⟨t, ht, u, hr, hat, hmenu, hrequests⟩ := exists_users_sample
  obtain ⟨done, rest, hon⟩ := onScripts_reachable hr 2
  obtain ⟨fuel, a, hask⟩ := hon.left .sample hmenu (by rw [hrequests, List.length_map])
  have hexit := hr.step (M := userMachine .sample _ _ _) (e := .exit 2)
    ⟨⟨trivial, trivial, hat⟩, .exit hask (.exit hmenu)⟩
  have hscripted := scripted_reports .sample .oneByte Csp.oneByte_lawful hA hexit 2
  have hphase : ((u.net.setPeer 2 { u.net.peers 2 with phase := .exited }).peers 2).phase =
      .exited := by rw [Net.setPeer_peers, if_pos rfl]
  have hlen : _ = 1 := hscripted.complete hphase
  have hreports := hscripted.reports
  rw [hlen] at hreports
  obtain ⟨text, hprinted⟩ := List.length_eq_one_iff.mp hlen
  rw [hprinted] at hreports
  obtain ⟨⟨e, h⟩, rest, htext, _, hzip⟩ := List.forall₂_cons_right_iff.mp hreports
  have hmem := List.mem_of_mem_take (hzip ▸ List.mem_cons_self)
  obtain rfl := List.mem_singleton.mp (List.of_mem_zip hmem).1
  rw [h.os.property] at htext
  exact ⟨t, ht, _, hexit, hphase, htext ▸ hprinted⟩

end Tcp
end BsitLabs
