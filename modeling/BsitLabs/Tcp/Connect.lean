import BsitLabs.Foundation.Format
import BsitLabs.Tcp.Menu

/-!
# The start of the client

The TCP client is started with one argument, `host:port`.  The constructor takes it apart at the
colon with `strtok_s`, copies the first part into `ip`, which has 16 bytes, and reads the port with
`atoi`; it looks up the host, and `try_connect` calls `connect` until it succeeds, ten times at
most.

`strncpy` leaves `ip` without a terminator if there is no room for one, and what is looked up then
goes on with the bytes of `port`, the member behind it.  `connects_as_told_iff` says for which
hosts and ports the client connects to what it has been told.
-/

namespace BsitLabs
namespace Tcp

open MachineInt CText Decimal Format

/-! ## The constructor -/

/-- `strtok_s(str, delim, &context)`: the token, if there is one, and what is left behind it. -/
def strtok (delim : UInt8) (str : List UInt8) : Option (List UInt8) × List UInt8 :=
  let rest := str.dropWhile (· = delim)
  let token := rest.takeWhile (· ≠ delim)
  (if token = [] then none else some token, (rest.dropWhile (· ≠ delim)).drop 1)

/-- `atoi`: zero where there is no number. -/
def atoi (scan : IntScan) (str : List UInt8) : ℤ := scan.stored ((scanInt str).1.getD 0)

/-- `htons`, of an `int`: the bytes of the result in memory. -/
def htons (port : ℤ) : UInt8 × UInt8 :=
  (UInt8.ofNat ((port % 2 ^ 16).toNat / 256), UInt8.ofNat (port % 2 ^ 16).toNat)

/-- What `getaddrinfo` finds. -/
structure AddrInfo where
  aiFamily : ℤ
  /-- The address, of an entry of the family `AF_INET`. -/
  sAddr : UInt32

/-- `AF_INET`. -/
def afInet : ℤ := 2

/-- The loop of `get_host_ipn`. -/
def firstInet : List AddrInfo → UInt32
  | [] => 0
  | cur :: next => if cur.aiFamily = afInet then cur.sAddr else firstInet next

/-- `get_host_ipn`. -/
def getHostIpn (getaddrinfo : List UInt8 → Option (List AddrInfo)) (name : List UInt8) : UInt32 :=
  match getaddrinfo name with
  | some addr => firstInet addr
  | none => 0

/-- `addr`. -/
structure SockaddrIn where
  sinPort : UInt8 × UInt8
  sAddr : UInt32
  deriving DecidableEq

/-- What the client gets from the system. -/
structure Winsock where
  /-- The result of `WSAStartup`. -/
  startup : ℤ
  /-- The result of `socket`. -/
  socket : ℕ
  getaddrinfo : List UInt8 → Option (List AddrInfo)
  /-- The results of the calls of `connect`. -/
  connect : SockaddrIn → ℕ → ℤ

/-- The members `ip` and `port`, behind each other, once they are set. -/
def members (memory : Region UInt8) (token : List UInt8) (port : ℤ) : Region UInt8 :=
  (memory.strncpy 0 token 16).write 16 (int32Bytes port)

/-! ## The program -/

/-- `try_connect`: whether one of so many calls of `connect` succeeds, and how many have failed. -/
def tryConnect (connect : ℕ → ℤ) : ℕ → ℕ → Bool × ℕ
  | 0, i => (false, i)
  | tries + 1, i => if connect i ≠ 0 then tryConnect connect tries (i + 1) else (true, i)

/-- How the client has started. -/
inductive Started where
  /-- There are not two arguments: `main` returns `-1`. -/
  | usage
  /-- There is no token, and `strncpy` is called with a null pointer. -/
  | undefined
  /-- An assertion of the constructor has failed. -/
  | aborted
  /-- No call of `connect` has succeeded: `main` returns `-1`. -/
  | noConnection
  /-- `main` goes on, after so many failures. -/
  | connected (addr : SockaddrIn) (failures : ℕ)
  deriving DecidableEq

/-- `main`, up to the key. -/
def start (scan : IntScan) (ws : Winsock) (memory : Region UInt8) : List CText → Started
  | [_, arg] =>
    match strtok 58 arg.bytes with
    | (none, _) => .undefined
    | (some token, rest) =>
      let port := atoi scan rest
      if ws.startup ≠ 0 ∨ ws.socket = 0 then .aborted
      else
        let addr : SockaddrIn :=
          ⟨htons port, getHostIpn ws.getaddrinfo ((members memory token port).cString 0)⟩
        match tryConnect (ws.connect addr) 10 0 with
        | (true, failures) => .connected addr failures
        | (false, _) => .noConnection
  | _ => .usage

/-! ## What is done with the argument -/

/-- A host is taken off in front of the first colon. -/
theorem strtok_host {host : List UInt8} (hne : host ≠ []) (hcolon : 58 ∉ host)
    (rest : List UInt8) : strtok 58 (host ++ 58 :: rest) = (some host, rest) := by
  have hskip : (host ++ 58 :: rest).dropWhile (· = 58) = host ++ 58 :: rest := by
    cases host with
    | nil => exact absurd rfl hne
    | cons c host =>
      have hc : ¬ decide (c = 58) = true := by
        simpa using fun h : c = 58 => hcolon (h ▸ List.mem_cons_self)
      exact List.dropWhile_cons_of_neg hc
  have hkeep : ∀ c ∈ host, decide (c ≠ 58) = true := fun c hc =>
    decide_eq_true fun h => hcolon (h ▸ hc)
  unfold strtok
  simp only [hskip]
  rw [Region.takeWhile_ne hcolon, if_neg hne, List.dropWhile_append_of_pos hkeep,
    List.dropWhile_cons_of_neg (by simp)]
  rfl

/-- Digits, and nothing else, are a number. -/
theorem scanInt_of_digits {row : List UInt8} (hne : row ≠ [])
    (hrow : ∀ c ∈ row, isDigit c = true) : scanInt row = (some (numberOf row : ℤ), []) := by
  cases row with
  | nil => exact absurd rfl hne
  | cons c row =>
    have hc := (isDigit_iff c).mp (hrow c List.mem_cons_self)
    have hspace : ¬ isSpace c = true := by
      simp only [isSpace, Bool.or_eq_true, decide_eq_true_eq, Bool.and_eq_true,
        UInt8.le_iff_toNat_le, ← UInt8.toNat_inj]
      simp only [UInt8.reduceToNat]
      omega
    have htake : (c :: row).takeWhile isDigit = c :: row := List.takeWhile_eq_self_iff.mpr hrow
    have hdrop : (c :: row).dropWhile isDigit = [] := List.dropWhile_eq_nil_iff.mpr hrow
    unfold scanInt
    rw [List.dropWhile_cons_of_neg hspace]
    dsimp only
    split
    · next h =>
      obtain rfl := (List.cons.inj h).1
      exact absurd hc (by decide)
    · next h =>
      obtain rfl := (List.cons.inj h).1
      exact absurd hc (by decide)
    · simp only [htake, hdrop]
      rw [if_neg (List.cons_ne_nil _ _)]
      rfl

/-- A number is read as it is printed. -/
theorem atoi_decimal (scan : IntScan) {n : ℕ} (h : n < 2 ^ 31) :
    atoi scan (decimal n).bytes = n := by
  rw [atoi, scanInt_of_digits (decimal_ne_nil n) (isDigit_decimal n), numberOf_decimal]
  exact scan.exact _ (show -2 ^ 31 ≤ (n : ℤ) by omega) (show (n : ℤ) < 2 ^ 31 by omega)

/-- The port, as it is called. -/
theorem htons_natCast {port : ℕ} (h : port < 2 ^ 16) :
    256 * (htons port).1.toNat + (htons port).2.toNat = port := by
  have hmod : ((port : ℤ) % 2 ^ 16).toNat = port := by omega
  unfold htons
  rw [hmod, UInt8.toNat_ofNat', UInt8.toNat_ofNat']
  omega

/-- And it is called as no other port is. -/
theorem eq_htons {a b : UInt8} {port : ℕ} (h : 256 * a.toNat + b.toNat = port) :
    (a, b) = htons port := by
  have ha := a.toNat_lt
  have hb := b.toNat_lt
  have hmod : ((port : ℤ) % 2 ^ 16).toNat = port := by omega
  unfold htons
  rw [hmod, Prod.mk.injEq, ← UInt8.toNat_inj, ← UInt8.toNat_inj, UInt8.toNat_ofNat',
    UInt8.toNat_ofNat']
  omega

/-- The bytes of a port in memory: the last two are zero. -/
theorem getElem_int32Bytes_port {port : ℕ} (h : port < 2 ^ 16)
    (hlt : 2 < (int32Bytes port).length) :
    (int32Bytes port)[2] = 0 := by
  have hmod : ((port : ℤ) % 2 ^ 32).toNat = port := by omega
  simp only [int32Bytes, List.getElem_map, List.getElem_range, hmod]
  rw [Nat.div_eq_of_lt (by omega)]
  rfl

/-- Which name is looked up. -/
theorem cString_members (memory : Region UInt8) (host : CText) {port : ℕ} (hport : port < 2 ^ 16) :
    (members memory host.bytes port).cString 0 = if host.length < 16 then host.bytes
      else host.bytes.take 16 ++ (int32Bytes port).takeWhile (· ≠ 0) := by
  have hip : ∀ j, j < 16 → (members memory host.bytes port).get j = host.bytes.getD j 0 := by
    intro j hj
    rw [members, Region.get_write_of_lt _ _ hj, Region.strncpy, Region.get_blit, if_pos (by omega),
      Nat.sub_zero]
  split
  · next hlt =>
    refine Region.cString_eq_of_get host.nonzero (fun j hj => ?_) ?_
    · rw [Nat.zero_add, hip j (hj.trans hlt), List.getD_eq_getElem _ _ hj]
    · rw [Nat.zero_add, hip host.bytes.length hlt, List.getD_eq_default _ _ le_rfl]
  · next hge =>
    have hlen : (host.bytes.take 16).length = 16 :=
      List.length_take_of_le (Nat.le_of_not_lt hge)
    have hget : ∀ j, (hj : j < (host.bytes.take 16 ++ int32Bytes port).length) →
        (members memory host.bytes port).get (0 + j) =
          (host.bytes.take 16 ++ int32Bytes port)[j] := by
      intro j hj
      rw [Nat.zero_add]
      rcases Nat.lt_or_ge j 16 with hlt | hlt
      · rw [hip j hlt, List.getElem_append_left (by omega), List.getElem_take,
          List.getD_eq_getElem]
      · have hj' : j - 16 < (int32Bytes port).length := by
          rw [List.length_append, hlen] at hj
          omega
        have hbyte := Region.get_write_add (memory.strncpy 0 host.bytes 16) 16 (int32Bytes port) hj'
        rw [Nat.add_sub_cancel' hlt] at hbyte
        rw [members, hbyte, List.getElem_append_right (by omega)]
        simp only [hlen]
    -- the string ends in the bytes of the port
    have hend : (members memory host.bytes port).strlen 0 ≤ 18 := by
      refine Region.strlen_le_of_get _ ?_
      rw [hget 18 (by rw [List.length_append, hlen, length_int32Bytes]; omega),
        List.getElem_append_right (by omega)]
      simp only [hlen]
      exact getElem_int32Bytes_port hport
        (Nat.lt_of_lt_of_eq (by decide) (length_int32Bytes _).symm)
    have htake := Region.take_cString _ hget
    rw [List.take_of_length_le (by
      rw [Region.length_cString, List.length_append, hlen, length_int32Bytes]; omega)] at htake
    rw [htake, List.takeWhile_append_of_pos fun c hc =>
      decide_eq_true (host.nonzero c (List.mem_of_mem_take hc))]

/-- **When `try_connect` succeeds**: with the first call that does, if it is one of so many. -/
theorem tryConnect_eq_true_iff (connect : ℕ → ℤ) {tries i k : ℕ} :
    tryConnect connect tries i = (true, k) ↔
      i ≤ k ∧ k < i + tries ∧ connect k = 0 ∧ ∀ j, i ≤ j → j < k → connect j ≠ 0 := by
  induction tries generalizing i with
  | zero =>
    rw [tryConnect]
    constructor
    · intro h
      cases h
    · rintro ⟨hle, hlt, _⟩
      omega
  | succ tries ih =>
    rw [tryConnect]
    split
    · next hfail =>
      rw [ih]
      constructor
      · rintro ⟨hle, hlt, hk, hbefore⟩
        refine ⟨by omega, by omega, hk, fun j hj hjk => ?_⟩
        rcases hj.lt_or_eq with hlater | rfl
        · exact hbefore j hlater hjk
        · exact hfail
      · rintro ⟨hle, hlt, hk, hbefore⟩
        have hne : i ≠ k := fun h => hfail (h ▸ hk)
        exact ⟨by omega, by omega, hk, fun j hj hjk => hbefore j (by omega) hjk⟩
    · next hdone =>
      have hzero : connect i = 0 := by simpa using hdone
      rw [Prod.mk.injEq]
      constructor
      · rintro ⟨_, rfl⟩
        exact ⟨le_rfl, by omega, hzero, fun j hj hjk => by omega⟩
      · rintro ⟨hle, _, _, hbefore⟩
        refine ⟨rfl, ?_⟩
        by_contra hne
        exact hbefore i le_rfl (by omega) hzero

/-! ## What the client connects to -/

/-- What the client is for: it connects to the first address of the host, and to the port, with the
first of ten calls that succeeds. -/
structure ConnectsTo (ws : Winsock) (host : CText) (port : ℕ) (addr : SockaddrIn) (failures : ℕ) :
    Prop where
  startup : ws.startup = 0
  socket : ws.socket ≠ 0
  sAddr : addr.sAddr = getHostIpn ws.getaddrinfo host.bytes
  sinPort : 256 * addr.sinPort.1.toNat + addr.sinPort.2.toNat = port
  attempts : failures < 10
  succeeds : ws.connect addr failures = 0
  first : ∀ j, j < failures → ws.connect addr j ≠ 0

section Told

variable {host : CText} (hne : host.bytes ≠ []) (hcolon : 58 ∉ host.bytes) {port : ℕ}
  (hport : port < 2 ^ 16)

include hne hcolon hport

/-- What `main` does with a host and a port. -/
theorem start_eq_connected_iff (scan : IntScan) (ws : Winsock) (memory : Region UInt8)
    (prog : CText) {addr : SockaddrIn} {failures : ℕ} :
    start scan ws memory [prog, host ++ lit ":" ++ decimal port] = .connected addr failures ↔
      ws.startup = 0 ∧ ws.socket ≠ 0 ∧ addr = ⟨htons port,
        getHostIpn ws.getaddrinfo ((members memory host.bytes port).cString 0)⟩ ∧
      failures < 10 ∧ ws.connect addr failures = 0 ∧
      ∀ j, j < failures → ws.connect addr j ≠ 0 := by
  have hbytes : (host ++ lit ":" ++ decimal port).bytes =
      host.bytes ++ 58 :: (decimal port).bytes := by
    rw [bytes_append, bytes_append, List.append_assoc]
    rfl
  obtain ⟨told, htold⟩ : ∃ a : SockaddrIn, a = ⟨htons port,
    getHostIpn ws.getaddrinfo ((members memory host.bytes port).cString 0)⟩ := ⟨_, rfl⟩
  unfold start
  simp only [hbytes, strtok_host hne hcolon, atoi_decimal scan (show port < 2 ^ 31 by omega),
    ← htold]
  by_cases hready : ws.startup ≠ 0 ∨ ws.socket = 0
  · rw [if_pos hready]
    refine iff_of_false (fun h => by cases h) ?_
    rintro ⟨hstartup, hsocket, _⟩
    exact hready.elim (fun h => h hstartup) hsocket
  · obtain ⟨hstartup, hsocket⟩ := not_or.mp hready
    rw [if_neg hready, and_iff_right (not_not.mp hstartup), and_iff_right hsocket]
    rcases htry : tryConnect (ws.connect told) 10 0 with ⟨success, count⟩
    have htried := @tryConnect_eq_true_iff (ws.connect told) 10 0 failures
    rw [htry, Prod.mk.injEq] at htried
    cases success with
    | false =>
      refine iff_of_false (fun h => by cases h) ?_
      rintro ⟨rfl, hlt, hzero, hbefore⟩
      have hmore := htried.mpr ⟨Nat.zero_le _, by omega, hzero, fun j _ hj => hbefore j hj⟩
      cases hmore.1
    | true =>
      constructor
      · intro h
        obtain ⟨rfl, rfl⟩ := Started.connected.inj h
        obtain ⟨_, hlt, hzero, hbefore⟩ := htried.mp ⟨rfl, rfl⟩
        exact ⟨rfl, by omega, hzero, fun j hj => hbefore j (Nat.zero_le _) hj⟩
      · rintro ⟨rfl, hlt, hzero, hbefore⟩
        obtain ⟨_, rfl⟩ := htried.mpr ⟨Nat.zero_le _, by omega, hzero, fun j _ hj => hbefore j hj⟩
        rfl

/-- **When the client connects to what it has been told**, whatever the system does: if the host
leaves room for a terminator in `ip`, or goes on, behind the 16 bytes of it, as the bytes of the
port do. -/
theorem connects_as_told_iff (scan : IntScan) (memory : Region UInt8) (prog : CText) :
    (∀ ws addr failures,
      start scan ws memory [prog, host ++ lit ":" ++ decimal port] = .connected addr failures ↔
        ConnectsTo ws host port addr failures) ↔
      host.length < 16 ∨ host.bytes.drop 16 = (int32Bytes port).takeWhile (· ≠ 0) := by
  have hname : (members memory host.bytes port).cString 0 = host.bytes ↔
      host.length < 16 ∨ host.bytes.drop 16 = (int32Bytes port).takeWhile (· ≠ 0) := by
    rw [cString_members memory host hport]
    split
    · next hlt => exact iff_of_true rfl (.inl hlt)
    · next hge =>
      rw [or_iff_right hge]
      have hsplit := List.take_append_drop 16 host.bytes
      constructor
      · intro h
        exact (List.append_cancel_left (h.trans hsplit.symm)).symm
      · intro h
        rw [← h, hsplit]
  rw [← hname]
  constructor
  · intro hall
    -- a system that knows the host, and no other name
    obtain ⟨ws, hws⟩ : ∃ ws : Winsock, ws = ⟨0, 1,
      fun name => if name = host.bytes then some [⟨afInet, 1⟩] else none, fun _ _ => 0⟩ := ⟨_, rfl⟩
    have htold : ConnectsTo ws host port ⟨htons port, 1⟩ 0 := by
      refine ⟨by rw [hws], by rw [hws]; simp, ?_, htons_natCast hport, by decide, by rw [hws],
        fun j hj => absurd hj (Nat.not_lt_zero j)⟩
      simp [hws, getHostIpn, firstInet]
    obtain ⟨_, _, haddr, _⟩ :=
      (start_eq_connected_iff hne hcolon hport scan ws memory prog).mp ((hall ws _ _).mpr htold)
    by_contra hother
    have hnone := congrArg SockaddrIn.sAddr haddr
    simp [hws, getHostIpn, hother] at hnone
  · intro hsame ws addr failures
    rw [start_eq_connected_iff hne hcolon hport scan ws memory prog, hsame]
    constructor
    · rintro ⟨hstartup, hsocket, rfl, hlt, hzero, hbefore⟩
      exact ⟨hstartup, hsocket, rfl, htons_natCast hport, hlt, hzero, hbefore⟩
    · rintro ⟨hstartup, hsocket, haddr, hport', hlt, hzero, hbefore⟩
      refine ⟨hstartup, hsocket, ?_, hlt, hzero, hbefore⟩
      rw [← haddr, ← eq_htons hport']

end Told

/-- A system that knows one host by a number, with a server that is slow to come up. -/
def Winsock.sample : Winsock where
  startup := 0
  socket := 1
  getaddrinfo name := if name = ascii "localhost" then some [⟨23, 0⟩, ⟨afInet, 7⟩] else none
  connect _ i := if i < 3 then -1 else 0

/-- The fourth call succeeds. -/
theorem connects_as_told_iff_sample :
    start .sample .sample (.ofList []) [lit "Client1", lit "localhost" ++ lit ":" ++ decimal 9000] =
      .connected ⟨htons 9000, 7⟩ 3 := by
  have htold : ConnectsTo .sample (lit "localhost") 9000 ⟨htons 9000, 7⟩ 3 := by
    refine ⟨rfl, by decide, by decide, htons_natCast (by decide), by decide, rfl, ?_⟩
    decide
  exact ((connects_as_told_iff (by decide) (by decide) (by decide) .sample (.ofList [])
    (lit "Client1")).mpr (.inl (by decide)) _ _ _).mpr htold

end Tcp
end BsitLabs
