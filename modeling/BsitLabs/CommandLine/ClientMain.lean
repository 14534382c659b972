import BsitLabs.CommandLine.CmdLoop

/-!
# The whole client

`main` of the two clients reads three words from its input: the address of the server, a login and
a password.  The constructor takes the first apart at its colon; where there is none, `find` is
`npos`, and `npos + 1` is zero, so that the whole word is taken for both parts.  It asserts that a
binding can be made of them.  Unless the login fails, `main` goes into the command loop.

`main_returns_iff` says what becomes of an input that is typed as `main` asks for it (`Typed`),
whatever the handlers do.
-/

namespace BsitLabs
namespace CommandLine

open Tokens

variable {w : ℕ}

/-! ## The address -/

/-- `s.c_str()`, as far as it is read. -/
def StdString.cStr (s : StdString w) : CText where
  bytes := s.chars.takeWhile (· ≠ 0)
  nonzero _ hb := by simpa using List.mem_takeWhile_imp hb

theorem StdString.cStr_of_chars {s : StdString w} {text : CText} (h : s.chars = text.bytes) :
    s.cStr = text := by
  refine CText.ext ?_
  show s.chars.takeWhile (· ≠ 0) = _
  rw [h]
  exact List.takeWhile_eq_self_iff.mpr fun b hb => by simpa using text.nonzero b hb

/-- Addition of `size_t`. -/
def sizeAdd (w a b : ℕ) : ℕ := (a + b) % 2 ^ w

/-- `Client::Client`: `ip` and `port`. -/
def address (ip_port : StdString w) : Except Fault (StdString w × StdString w) := do
  let ip ← inRange (ip_port.substr 0 (ip_port.find 58 0))
  let port ← inRange (ip_port.substr (sizeAdd w (ip_port.find 58 0) 1) ip_port.length)
  return (ip, port)

/-- A part of a string that begins at a position in it. -/
theorem exists_substr (s : StdString w) (pos n : ℕ) (h : pos ≤ s.length) :
    ∃ part, s.substr pos n = some part ∧ part.chars = (s.chars.drop pos).take n :=
  ⟨_, if_pos h, rfl⟩

/-- With a colon, the parts are what stands before the first and behind it. -/
theorem address_of_colon {s : StdString w} {ip port : List UInt8} (h : s.chars = ip ++ 58 :: port)
    (hip : 58 ∉ ip) : ∃ a b, address s = .ok (a, b) ∧ a.chars = ip ∧ b.chars = port := by
  have hlt := s.length_lt
  have hlen : s.length = ip.length + 1 + port.length := by
    rw [StdString.length, h, List.length_append, List.length_cons]
    omega
  have hfind : s.find 58 0 = ip.length := by
    rw [StdString.find, List.drop_zero, h, if_pos (by simp), List.idxOf_append_of_notMem hip,
      List.idxOf_cons_self, Nat.zero_add, Nat.add_zero]
  have hnext : sizeAdd w ip.length 1 = ip.length + 1 := by
    unfold npos at hlt
    unfold StdString.length at hlen
    exact Nat.mod_eq_of_lt (by omega)
  obtain ⟨a, hfirst, ha⟩ := exists_substr s 0 ip.length (Nat.zero_le _)
  obtain ⟨b, hsecond, hb⟩ := exists_substr s (ip.length + 1) s.length (by omega)
  refine ⟨a, b, ?_, ?_, ?_⟩
  · rw [address, hfind, hnext, hfirst, hsecond]
    rfl
  · rw [ha, List.drop_zero, h, List.take_left]
  · have hdrop : s.chars.drop (ip.length + 1) = port := by
      rw [h, ← List.drop_drop, List.drop_left]
      rfl
    rw [hb, hdrop]
    exact List.take_of_length_le (by omega)

/-- Without a colon, both are the whole. -/
theorem address_of_notMem {s : StdString w} (h : 58 ∉ s.chars) : address s = .ok (s, s) := by
  have hlt : s.length < npos w := s.length_lt
  have hfind : s.find 58 0 = npos w := if_neg (by rwa [List.drop_zero])
  have hnext : sizeAdd w (npos w) 1 = 0 := by
    rw [sizeAdd, npos, Nat.sub_add_cancel (Nat.two_pow_pos w), Nat.mod_self]
  have hwhole : ∀ n, s.length ≤ n → s.substr 0 n = some s := fun n hn => by
    obtain ⟨part, hsubstr, hpart⟩ := exists_substr s 0 n (Nat.zero_le _)
    rw [hsubstr, Option.some_inj]
    exact StdString.ext (hpart.trans (List.take_of_length_le hn))
  rw [address, hfind, hnext, hwhole _ hlt.le, hwhole _ le_rfl]
  rfl

/-- The constructor does not throw. -/
theorem exists_address (s : StdString w) : ∃ a b, address s = .ok (a, b) := by
  by_cases h : 58 ∈ s.chars
  · obtain ⟨ip, port, hchars, hip⟩ := List.eq_append_cons_of_mem h
    obtain ⟨a, b, hok, -⟩ := address_of_colon hchars hip
    exact ⟨a, b, hok⟩
  · exact ⟨s, s, address_of_notMem h⟩

example : (address (⟨ascii "10.0.0.1", by decide⟩ : StdString 32)).map
    (fun a => (a.1.chars, a.2.chars)) = .ok (ascii "10.0.0.1", ascii "10.0.0.1") := by decide

/-! ## The program -/

/-- The word that `>>` takes, as a string. -/
def Stream.word (cin : Stream w) : StdString w where
  chars := cin.extract.2
  length_lt := by
    unfold extract
    split
    · refine cin.fit _ ?_ fun h => ?_
      · exact ((List.takeWhile_prefix _).isInfix).trans (List.dropWhile_suffix _).isInfix
      · have hspace := List.mem_takeWhile_imp h
        exact absurd hspace (by decide)
    · exact cin.fit [] List.nil_infix List.not_mem_nil

/-- What the client connects with, and logs in with. -/
structure Login where
  ip : CText
  port : CText
  login : CText
  password : CText
  deriving DecidableEq

/-- How `main` may end. -/
inductive Ending (Call W : Type*) where
  /-- It returns, with the handlers that have been called and what they have made of the world. -/
  | returned (code : ℤ) (calls : List Call) (x : W)
  | crashed (crash : Crash)
  /-- An assertion of the constructor has failed. -/
  | aborted
  /-- The constructor, the call for the login, or a handler has thrown. -/
  | thrown

section Main

variable {Call : Type} {W : Type*} (client : Client w Call) (status : ℕ → ℤ)
  (perform : W → Call → Option W) (binding : CText → CText → ℤ) (serv_login : Login → Option ℤ)

/-- What becomes of `main` when the loop has ended. -/
def Ending.ofLoop : Option (Except Crash (List Call) × W) → Ending Call W
  | some (.ok calls, x) => .returned 0 calls x
  | some (.error crash, _) => .crashed crash
  | none => .thrown

/-- `main`, with no more than this many steps of the command loop.  `binding` is the first status
of `RpcStringBindingComposeA` and `RpcBindingFromStringBindingA` that is not zero. -/
def clientMain (cin : Stream w) (x : W) (fuel : ℕ) : Option (Ending Call W) :=
  match address cin.word with
  | .error _ => some .thrown
  | .ok (ip, port) =>
    if binding ip.cStr port.cStr ≠ 0 then some .aborted
    else
      match serv_login ⟨ip.cStr, port.cStr, cin.extract.1.word.cStr,
        cin.extract.1.extract.1.word.cStr⟩ with
      | none => some .thrown
      | some check =>
        if check = 0 then
          (Loop.run (Loop.acting (cmdLoop client status) Shell.calls perform) fuel
            (Shell.start cin.afterPassword, x)).map Ending.ofLoop
        else some (.returned (-1) [] x)

/-- `main` comes to this end. -/
def MainReturns (cin : Stream w) (x : W) (ending : Ending Call W) : Prop :=
  ∃ fuel, clientMain client status perform binding serv_login cin x fuel = some ending

end Main

/-! ## What is typed -/

/-- Three words, with white space around them, the first an address and a port with a colon
between; and behind them other lines. -/
structure Typed (cin : Stream w) (l : Login) (body : List UInt8) : Prop where
  good : cin.good = true
  rest : ∃ b₀ b₁ b₂ : List UInt8, (∀ c ∈ b₀ ++ b₁ ++ b₂, isSpace c = true) ∧ b₁ ≠ [] ∧ b₂ ≠ [] ∧
    cin.rest = b₀ ++ ((l.ip.bytes ++ 58 :: l.port.bytes) ++ (b₁ ++ (l.login.bytes ++ (b₂ ++
      (l.password.bytes ++ 10 :: body)))))
  words : ∀ c ∈ l.ip.bytes ++ l.port.bytes ++ l.login.bytes ++ l.password.bytes,
    isSpace c = false
  colon : 58 ∉ l.ip.bytes
  login : l.login.bytes ≠ []
  password : l.password.bytes ≠ []

/-- A word is taken off the input. -/
theorem Stream.extract_word {cin : Stream w} (blanks : List UInt8) (hgood : cin.good = true)
    {word rest : List UInt8} {c : UInt8} (hrest : cin.rest = blanks ++ (word ++ c :: rest))
    (hblanks : ∀ b ∈ blanks, isSpace b = true) (hword : ∀ b ∈ word, isSpace b = false)
    (hne : word ≠ []) (hc : isSpace c = true) :
    cin.word.chars = word ∧ cin.extract.1.rest = c :: rest ∧ cin.extract.1.good = true := by
  have hdrop : cin.rest.dropWhile isSpace = word ++ c :: rest := by
    rw [hrest, List.dropWhile_append_of_pos hblanks]
    cases word with
    | nil => exact absurd rfl hne
    | cons b word =>
      have hb := hword b List.mem_cons_self
      exact List.dropWhile_cons_of_neg (by simp [hb])
  have hnot : ∀ b ∈ word, (!isSpace b) = true := fun b hb => by rw [hword b hb]; rfl
  have hend : (word ++ c :: rest).dropWhile (!isSpace ·) = c :: rest := by
    rw [List.dropWhile_append_of_pos hnot, List.dropWhile_cons_of_neg (by simp [hc])]
  refine ⟨?_, ?_, ?_⟩
  · show cin.extract.2 = word
    rw [extract, if_pos hgood]
    show (cin.rest.dropWhile isSpace).takeWhile (!isSpace ·) = word
    rw [hdrop, List.takeWhile_append_of_pos hnot, List.takeWhile_cons_of_neg (by simp [hc]),
      List.append_nil]
  · rw [extract, if_pos hgood]
    show (cin.rest.dropWhile isSpace).dropWhile (!isSpace ·) = c :: rest
    rw [hdrop, hend]
  · rw [extract, if_pos hgood]
    show decide ((cin.rest.dropWhile isSpace).dropWhile (!isSpace ·) ≠ []) = true
    rw [hdrop, hend]
    exact decide_eq_true (List.cons_ne_nil _ _)

/-- What `main` reads of what is typed. -/
theorem Typed.read {cin : Stream w} {l : Login} {body : List UInt8} (h : Typed cin l body) :
    (∃ ip port, address cin.word = .ok (ip, port) ∧ ip.cStr = l.ip ∧ port.cStr = l.port) ∧
      cin.extract.1.word.cStr = l.login ∧ cin.extract.1.extract.1.word.cStr = l.password ∧
      cin.afterPassword.rest = 10 :: body ∧ cin.afterPassword.good = true := by
  obtain ⟨b₀, b₁, b₂, hblanks, hb₁, hb₂, hrest⟩ := h.rest
  have hwords := h.words
  simp only [List.forall_mem_append] at hblanks hwords
  obtain ⟨c₁, b₁, rfl⟩ := List.exists_cons_of_ne_nil hb₁
  obtain ⟨c₂, b₂, rfl⟩ := List.exists_cons_of_ne_nil hb₂
  have hspace₁ := List.forall_mem_cons.mp hblanks.1.2
  have hspace₂ := List.forall_mem_cons.mp hblanks.2
  have haddress : ∀ b ∈ l.ip.bytes ++ 58 :: l.port.bytes, isSpace b = false := by
    simp only [List.forall_mem_append, List.forall_mem_cons]
    exact ⟨hwords.1.1.1, rfl, hwords.1.1.2⟩
  obtain ⟨hword₁, hrest₁, hgood₁⟩ := Stream.extract_word b₀ h.good hrest hblanks.1.1 haddress
    (by simp) hspace₁.1
  obtain ⟨hword₂, hrest₂, hgood₂⟩ := Stream.extract_word (c₁ :: b₁) hgood₁ hrest₁
    hblanks.1.2 hwords.1.2 h.login hspace₂.1
  obtain ⟨hword₃, hrest₃, hgood₃⟩ := Stream.extract_word (c₂ :: b₂) hgood₂ hrest₂
    hblanks.2 hwords.2 h.password rfl
  obtain ⟨ip, port, hok, hip, hport⟩ := address_of_colon hword₁ h.colon
  exact ⟨⟨ip, port, hok, ip.cStr_of_chars hip, port.cStr_of_chars hport⟩,
    StdString.cStr_of_chars hword₂, StdString.cStr_of_chars hword₃, hrest₃, hgood₃⟩

/-- The lines of the body are those that the loop dispatches. -/
theorem Stream.lines_of_body {cin : Stream w} {body : List UInt8} (hrest : cin.rest = 10 :: body)
    (hgood : cin.good = true) : cin.seen = body.splitOn 10 ∧ cin.entered = body.splitOn 10 := by
  have hsplit : cin.rest.splitOn 10 = [] :: body.splitOn 10 := by
    rw [hrest]
    exact List.splitOn_append_cons_of_beq [] body (beq_self_eq_true 10)
  refine ⟨?_, by rw [entered, hsplit]; rfl⟩
  rw [seen, pending, if_pos hgood, hsplit]
  cases hbody : body.splitOn 10 with
  | nil => exact absurd hbody (List.splitOn_ne_nil _ _)
  | cons line lines => rfl

section Main

variable {Call : Type} {W : Type*} {client : Client w Call}
  {asked : List (List UInt8) → Option Call} {status : ℕ → ℤ}
    {perform : W → Call → Option W} {binding : CText → CText → ℤ}
  {serv_login : Login → Option ℤ} {cin : Stream w}
  {l : Login} {body : List UInt8} {x x' : W} {code : ℤ} {calls : List Call}

/-- What `main` is for: if the login is accepted, it executes the lines up to the first `exit`,
if it comes to one, and returns zero; and if not, it does nothing and returns `-1`. -/
def MainMeant (asked : List (List UInt8) → Option Call) (perform : W → Call → Option W)
    (lines : List (List UInt8)) (accepted : Bool) (x : W) (code : ℤ) (calls : List Call) (x' : W) :
    Prop :=
  if accepted then
    (∃ before, BeforeExit lines before ∧ before.length + 2 < 2 ^ 31) ∧ code = 0 ∧
      calls = commands asked (lines.takeWhile (¬ IsExit ·)) ∧ calls.foldlM perform x = some x'
  else code = -1 ∧ calls = [] ∧ x' = x

/-- `main` returns zero where the loop returns, and nothing else of it. -/
theorem Ending.ofLoop_eq_returned_iff {result : Option (Except Crash (List Call) × W)} :
    Ending.ofLoop result = .returned code calls x' ↔ code = 0 ∧ result = some (.ok calls, x') := by
  rcases result with _ | ⟨crash | calls', x''⟩
  · simp [Ending.ofLoop]
  · simp [Ending.ofLoop]
  · simp [Ending.ofLoop, eq_comm]

/-- `main` returns from the loop with zero. -/
theorem exists_returned_iff :
    (∃ fuel, (Loop.run (Loop.acting (cmdLoop client status) Shell.calls perform) fuel
      (Shell.start cin, x)).map Ending.ofLoop = some (.returned code calls x')) ↔
    code = 0 ∧ Loop.Returns (Loop.acting (cmdLoop client status) Shell.calls perform)
      (Shell.start cin, x) (some (.ok calls, x')) := by
  simp only [Option.map_eq_some_iff, Ending.ofLoop_eq_returned_iff]
  constructor
  · rintro ⟨fuel, result, hrun, hcode, rfl⟩
    exact ⟨hcode, fuel, hrun⟩
  · rintro ⟨hcode, fuel, hrun⟩
    exact ⟨fuel, _, hrun, hcode, rfl⟩

/-- What becomes of an input that is typed as `main` asks for it. -/
theorem Client.Follows.mainReturns_iff (h : client.Follows asked)
    (hstatus : ∀ k, status k ≠ rpcSNotListening) (ht : Typed cin l body) :
    MainReturns client status perform binding serv_login cin x (.returned code calls x') ↔
      binding l.ip l.port = 0 ∧ ∃ check, serv_login l = some check ∧
        MainMeant asked perform (body.splitOn 10) (check = 0) x code calls x' := by
  obtain ⟨⟨ip, port, haddress, hip, hport⟩, hlogin, hpassword, hrest, hgood⟩ := ht.read
  obtain ⟨hseen, hentered⟩ := Stream.lines_of_body hrest hgood
  unfold MainReturns clientMain MainMeant
  simp only [haddress, hip, hport, hlogin, hpassword, decide_eq_true_eq]
  by_cases hbound : binding l.ip l.port = 0
  · rw [and_iff_right hbound]
    simp only [hbound, ne_eq, not_true_eq_false, if_false]
    cases hchecked : serv_login l with
    | none => simp
    | some check =>
      simp only [Option.some_inj, exists_eq_left']
      split_ifs with haccepted
      · rw [exists_returned_iff, h.returns_acting_iff hstatus, hseen, hentered]
        exact and_left_comm
      · simp [eq_comm]
  · simp [hbound]

/-- **What a whole client does**, of what is typed as `main` asks for it: it makes a binding of the
two parts of the address, and returns only if there is one; it logs in with the other two words; as
long as the server is listening and the login is accepted, it returns exactly if it comes to an
`exit`, having called the handlers that the lines before it ask for, in order, whatever these do;
and if the login is not accepted, it returns `-1` and calls nothing. -/
theorem main_returns_iff (hstatus : ∀ k, status k ≠ rpcSNotListening)
    (binding : CText → CText → ℤ) (serv_login : Login → Option ℤ) (ht : Typed cin l body) (x x' : W)
    (code : ℤ) :
    (∀ perform calls,
      MainReturns FileClient.client status perform binding serv_login cin x
          (.returned code calls x') ↔
        binding l.ip l.port = 0 ∧ ∃ check, serv_login l = some check ∧
          MainMeant FileClient.asked perform (body.splitOn 10) (check = 0) x code calls x') ∧
      ∀ perform calls,
        MainReturns InfoClient.client status perform binding serv_login cin x
            (.returned code calls x') ↔
          binding l.ip l.port = 0 ∧ ∃ check, serv_login l = some check ∧
            MainMeant InfoClient.asked perform (body.splitOn 10) (check = 0) x code calls x' :=
  ⟨fun _ _ => FileClient.follows.mainReturns_iff hstatus ht,
    fun _ _ => InfoClient.follows.mainReturns_iff hstatus ht⟩

end Main

/-- Three words for `main`, a command and an `exit`. -/
def oneSession : Stream 32 where
  rest := ascii "host:90 me pw\nrm a\nexit"
  good := true
  fit := .of_length (by decide)

def oneLogin : Login := ⟨.lit "host", .lit "90", .lit "me", .lit "pw"⟩

theorem typed_oneSession : Typed oneSession oneLogin (ascii "rm a\nexit") where
  good := rfl
  rest := ⟨[], [32], [32], List.all_eq_true.mp rfl, by simp, by simp, rfl⟩
  words c hc := by
    have hall : (ascii "host" ++ ascii "90" ++ ascii "me" ++ ascii "pw").all (!isSpace ·) = true :=
      rfl
    simpa using List.all_eq_true.mp hall c hc
  colon := by decide
  login := by decide
  password := by decide

/-- The command is executed, and `main` returns. -/
theorem main_returns_iff_sample :
    MainReturns FileClient.client (fun _ => 0) (fun done call => some (done ++ [call]))
      (fun _ _ => 0) (fun l => some (if l = oneLogin then 0 else 1326)) oneSession []
      (.returned 0 [.remove (ascii "a")] [.remove (ascii "a")]) := by
  have hbefore : BeforeExit ((ascii "rm a\nexit").splitOn 10) [ascii "rm a"] :=
    ⟨⟨ascii "exit", [], by decide, by decide⟩, by decide⟩
  refine ((main_returns_iff (fun _ => by decide) _ _ typed_oneSession _ _ _).1 _ _).mpr ?_
  exact ⟨rfl, 0, rfl, ⟨_, hbefore, by decide⟩, rfl, by decide, rfl⟩

end CommandLine
end BsitLabs
