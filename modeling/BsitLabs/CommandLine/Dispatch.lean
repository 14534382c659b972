import BsitLabs.CommandLine.Split
import BsitLabs.Foundation.CText

/-!
# One line of a client

An iteration of `Client::cmd_loop` splits its line, takes the first token, asks `wrong_args`
whether there are as many tokens as the command needs, and goes through a chain of commands.
The loops of the two clients differ in `wrong_args` and in the chain only (`Client`), and for
each of them these two together do what the tokens ask for (`FileClient.follows`,
`InfoClient.follows`).

What is not asked is whether there is a token: a line of separators only is not empty.
-/

namespace BsitLabs
namespace CommandLine

open Tokens

/-- What an iteration does. -/
inductive Turn (Call : Type) where
  /-- `continue`, at an empty line. -/
  | blank
  /-- This text goes to `std::cerr`. -/
  | cerr (text : List UInt8)
  /-- This text goes to `std::cout`. -/
  | cout (text : List UInt8)
  /-- One of the handlers, with its arguments. -/
  | handler (call : Call)
  /-- `return`. -/
  | exit
  deriving DecidableEq

/-- The handler that is called, if one is. -/
def Turn.called {Call : Type} : Turn Call → Option Call
  | .handler call => some call
  | _ => none

/-- What the two clients do not share. -/
structure Client (w : ℕ) (Call : Type) where
  /-- `wrong_args`. -/
  wrongArgs : StdString w → List (StdString w) → Bool
  /-- The chain of commands, from `cmd`, `first_arg` and `second_arg`. -/
  dispatch : List UInt8 → List UInt8 → List UInt8 → Turn Call

variable {w : ℕ} {Call : Type}

/-- `if (tokens.size() > k) arg = *(... tokens.begin());`, where `arg` is empty before. -/
def argument (tokens : List (StdString w)) (k : ℕ) : Except Fault (List UInt8) :=
  if k < tokens.length then StdString.chars <$> inRange tokens[k]? else return []

/-- The body of the loop, from the test for an empty line on; the loops of `split` have no
more than this many iterations. -/
def iteration (client : Client w Call) (line : StdString w) (fuel : ℕ) :
    Except Fault (Turn Call) :=
  if line.chars = [] then return .blank
  else do
    let tokens ← split line 32 fuel
    let cmd ← inRange tokens.head?
    if client.wrongArgs cmd tokens then
      return .cerr (ascii "Incorect arguments for " ++ cmd.chars ++ ascii " see \"help\"\n")
    else
      let first_arg ← argument tokens 1
      let second_arg ← argument tokens 2
      return client.dispatch cmd.chars first_arg second_arg

/-- The body of the loop from `wrong_args` on, for a line that has a token. -/
def Client.turn (client : Client w Call) (cmd : StdString w) (args : List (StdString w)) :
    Turn Call :=
  if client.wrongArgs cmd (cmd :: args) then
    .cerr (ascii "Incorect arguments for " ++ cmd.chars ++ ascii " see \"help\"\n")
  else
    client.dispatch cmd.chars ((args.map StdString.chars).getD 0 [])
      ((args.map StdString.chars).getD 1 [])

/-- What leaves the loop is known of the chain, if `wrong_args` lets it pass. -/
theorem Client.turn_eq_exit_iff {client : Client w Call}
    (hdispatch : ∀ cmd first_arg second_arg,
      client.dispatch cmd first_arg second_arg = .exit ↔ cmd = ascii "exit")
    (hargs : ∀ cmd t, cmd.chars = ascii "exit" → client.wrongArgs cmd t = false)
    (cmd : StdString w) (args : List (StdString w)) :
    client.turn cmd args = .exit ↔ cmd.chars = ascii "exit" := by
  rw [Client.turn]
  by_cases hexit : cmd.chars = ascii "exit"
  · rw [hargs cmd _ hexit, if_neg Bool.false_ne_true, hdispatch]
  · refine iff_of_false (fun h => hexit ?_) hexit
    cases hwrong : client.wrongArgs cmd (cmd :: args) with
    | false =>
      rw [hwrong, if_neg Bool.false_ne_true] at h
      exact (hdispatch _ _ _).mp h
    | true =>
      rw [hwrong, if_pos rfl] at h
      cases h

/-- What is called is known of the words that have a handler, if no other word has one. -/
theorem Client.called_turn {client : Client w Call} {asked : List (List UInt8) → Option Call}
    {words : List (List UInt8)}
    (hmem : ∀ cmd args, cmd.chars ∈ words →
      (client.turn cmd args).called = asked (cmd.chars :: args.map StdString.chars))
    (hasked : ∀ cmd args, cmd ∉ words → asked (cmd :: args) = none)
    (hdispatch : ∀ cmd first_arg second_arg, cmd ∉ words →
      (client.dispatch cmd first_arg second_arg).called = none)
    (cmd : StdString w) (args : List (StdString w)) :
    (client.turn cmd args).called = asked (cmd.chars :: args.map StdString.chars) := by
  by_cases hword : cmd.chars ∈ words
  · exact hmem cmd args hword
  · rw [hasked _ _ hword, Client.turn]
    split
    · rfl
    · exact hdispatch _ _ _ hword

/-- A line that has a token does what its tokens ask for, no token asks for nothing, and `exit`
is the only command that leaves the loop. -/
structure Client.Follows (client : Client w Call) (asked : List (List UInt8) → Option Call) :
    Prop where
  nothing : asked [] = none
  called : ∀ cmd args,
    (client.turn cmd args).called = asked (cmd.chars :: args.map StdString.chars)
  exits : ∀ cmd args, client.turn cmd args = .exit ↔ cmd.chars = ascii "exit"

/-! ## The client of the file server -/

namespace FileClient

/-- The functions of `Client::Handler`, with what they are called with. -/
inductive Handler where
  | remove (path_file : List UInt8)
  | download (path_from path_to : List UInt8)
  | upload (path_from path_to : List UInt8)
  deriving DecidableEq

/-- `Client::wrong_args`. -/
def wrongArgs (cmd : StdString w) (t : List (StdString w)) : Bool :=
  if cmd.chars = ascii "rm" then t.length ≠ 2
  else if cmd.chars = ascii "down" then t.length ≠ 3
  else if cmd.chars = ascii "up" then t.length ≠ 3
  else false

def helpText : List UInt8 :=
  ascii "\trm   [path] -- remove file\n" ++
    ascii "\tdown [path_from] [path_to] -- download file\n" ++
    ascii "\tup   [path_from] [path_to] -- upload file\n" ++
    ascii "\t!! path without spaces!!\n" ++
    ascii "\texit\n"

def dispatch (cmd first_arg second_arg : List UInt8) : Turn Handler :=
  if cmd = ascii "rm" then .handler (.remove first_arg)
  else if cmd = ascii "down" then .handler (.download first_arg second_arg)
  else if cmd = ascii "up" then .handler (.upload first_arg second_arg)
  else if cmd = ascii "exit" then .exit
  else if cmd = ascii "help" then .cout helpText
  else .cerr (ascii "Incorrect command\n")

def client : Client w Handler := ⟨wrongArgs, dispatch⟩

/-- What these tokens ask for. -/
def asked : List (List UInt8) → Option Handler
  | [cmd, path] => if cmd = ascii "rm" then some (.remove path) else none
  | [cmd, path_from, path_to] =>
    if cmd = ascii "down" then some (.download path_from path_to)
    else if cmd = ascii "up" then some (.upload path_from path_to)
    else none
  | _ => none

theorem dispatch_eq_exit_iff (cmd first_arg second_arg : List UInt8) :
    dispatch cmd first_arg second_arg = .exit ↔ cmd = ascii "exit" := by
  constructor
  · intro h
    by_contra hexit
    rw [dispatch] at h
    split_ifs at h
  · rintro rfl
    rfl

theorem wrongArgs_exit (cmd : StdString w) (t : List (StdString w))
    (h : cmd.chars = ascii "exit") : wrongArgs cmd t = false := by
  rw [wrongArgs, h]
  rfl

/-- The commands that have a handler. -/
def words : List (List UInt8) := [ascii "rm", ascii "down", ascii "up"]

theorem asked_of_notMem (cmd : List UInt8) (args : List (List UInt8)) (h : cmd ∉ words) :
    asked (cmd :: args) = none := by
  simp only [words, List.mem_cons, List.not_mem_nil, or_false, not_or] at h
  rcases args with _ | ⟨a, _ | ⟨b, _ | ⟨c, args⟩⟩⟩ <;> simp [asked, h]

theorem called_dispatch_of_notMem (cmd first_arg second_arg : List UInt8) (h : cmd ∉ words) :
    (dispatch cmd first_arg second_arg).called = none := by
  simp only [words, List.mem_cons, List.not_mem_nil, or_false, not_or] at h
  simp only [dispatch, h, if_false]
  split_ifs <;> rfl

/-- Each command, with each number of arguments. -/
theorem called_turn_of_mem (cmd : StdString w) (args : List (StdString w))
    (h : cmd.chars ∈ words) :
    (client.turn cmd args).called = asked (cmd.chars :: args.map StdString.chars) := by
  simp only [words, List.mem_cons, List.not_mem_nil, or_false] at h
  rcases args with _ | ⟨a, _ | ⟨b, _ | ⟨c, args⟩⟩⟩ <;> rcases h with h | h | h <;>
  simp +decide [Client.turn, client, wrongArgs, dispatch, asked, Turn.called, h]

theorem follows : (client : Client w Handler).Follows asked where
  nothing := rfl
  called := Client.called_turn called_turn_of_mem asked_of_notMem called_dispatch_of_notMem
  exits := Client.turn_eq_exit_iff dispatch_eq_exit_iff wrongArgs_exit

end FileClient

/-! ## The client of the information server -/

namespace InfoClient

/-- The functions of `Client::Handler`, with what they are called with. -/
inductive Handler where
  | osVersion
  | curtime
  | ostime
  | memstat
  | diskstype
  | freespace
  | fowner (path : List UInt8)
  | frights (path : List UInt8)
  deriving DecidableEq

/-- `Client::wrong_args`. -/
def wrongArgs (cmd : StdString w) (t : List (StdString w)) : Bool :=
  if cmd.chars = ascii "osversion" ∨ cmd.chars = ascii "curtime" ∨ cmd.chars = ascii "ostime" ∨
      cmd.chars = ascii "memstat" ∨ cmd.chars = ascii "diskstype" ∨
      cmd.chars = ascii "freespace" then t.length ≠ 1
  else if cmd.chars = ascii "fowner" ∨ cmd.chars = ascii "frights" then t.length ≠ 2
  else false

def helpText : List UInt8 :=
  ascii "\tosversion\n" ++ ascii "\tcurtime\n" ++ ascii "\tostime\n" ++ ascii "\tmemstat\n" ++
    ascii "\tdiskstype\n" ++ ascii "\tfreespace\n" ++ ascii "\tfowner [path]\n" ++
    ascii "\tfrights [path]\n" ++ ascii "\texit\n"

/-- The second argument is for no command. -/
def dispatch (cmd first_arg _second_arg : List UInt8) : Turn Handler :=
  if cmd = ascii "osversion" then .handler .osVersion
  else if cmd = ascii "curtime" then .handler .curtime
  else if cmd = ascii "ostime" then .handler .ostime
  else if cmd = ascii "memstat" then .handler .memstat
  else if cmd = ascii "diskstype" then .handler .diskstype
  else if cmd = ascii "freespace" then .handler .freespace
  else if cmd = ascii "fowner" then .handler (.fowner first_arg)
  else if cmd = ascii "frights" then .handler (.frights first_arg)
  else if cmd = ascii "exit" then .exit
  else if cmd = ascii "help" then .cout helpText
  else .cerr (ascii "Incorrect command\n")

def client : Client w Handler := ⟨wrongArgs, dispatch⟩

/-- What these tokens ask for. -/
def asked : List (List UInt8) → Option Handler
  | [cmd] =>
    if cmd = ascii "osversion" then some .osVersion
    else if cmd = ascii "curtime" then some .curtime
    else if cmd = ascii "ostime" then some .ostime
    else if cmd = ascii "memstat" then some .memstat
    else if cmd = ascii "diskstype" then some .diskstype
    else if cmd = ascii "freespace" then some .freespace
    else none
  | [cmd, path] =>
    if cmd = ascii "fowner" then some (.fowner path)
    else if cmd = ascii "frights" then some (.frights path)
    else none
  | _ => none

theorem dispatch_eq_exit_iff (cmd first_arg second_arg : List UInt8) :
    dispatch cmd first_arg second_arg = .exit ↔ cmd = ascii "exit" := by
  constructor
  · intro h
    by_contra hexit
    rw [dispatch] at h
    split_ifs at h
  · rintro rfl
    rfl

theorem wrongArgs_exit (cmd : StdString w) (t : List (StdString w))
    (h : cmd.chars = ascii "exit") : wrongArgs cmd t = false := by
  rw [wrongArgs, h]
  rfl

/-- The commands that have a handler. -/
def words : List (List UInt8) :=
  [ascii "osversion", ascii "curtime", ascii "ostime", ascii "memstat", ascii "diskstype",
    ascii "freespace", ascii "fowner", ascii "frights"]

theorem asked_of_notMem (cmd : List UInt8) (args : List (List UInt8)) (h : cmd ∉ words) :
    asked (cmd :: args) = none := by
  simp only [words, List.mem_cons, List.not_mem_nil, or_false, not_or] at h
  rcases args with _ | ⟨a, _ | ⟨b, args⟩⟩ <;> simp [asked, h]

theorem called_dispatch_of_notMem (cmd first_arg second_arg : List UInt8) (h : cmd ∉ words) :
    (dispatch cmd first_arg second_arg).called = none := by
  simp only [words, List.mem_cons, List.not_mem_nil, or_false, not_or] at h
  simp only [dispatch, h, if_false]
  split_ifs <;> rfl

/-- Each command, with each number of arguments. -/
theorem called_turn_of_mem (cmd : StdString w) (args : List (StdString w))
    (h : cmd.chars ∈ words) :
    (client.turn cmd args).called = asked (cmd.chars :: args.map StdString.chars) := by
  simp only [words, List.mem_cons, List.not_mem_nil, or_false] at h
  rcases args with _ | ⟨a, _ | ⟨b, args⟩⟩ <;> rcases h with h | h | h | h | h | h | h | h <;>
  simp +decide [Client.turn, client, wrongArgs, dispatch, asked, Turn.called, h]

theorem follows : (client : Client w Handler).Follows asked where
  nothing := rfl
  called := Client.called_turn called_turn_of_mem asked_of_notMem called_dispatch_of_notMem
  exits := Client.turn_eq_exit_iff dispatch_eq_exit_iff wrongArgs_exit

end InfoClient

/-! ## One iteration -/

section Iteration

variable (client : Client w Call) {line : StdString w}

theorem iteration_of_nil (h : line.chars = []) (fuel : ℕ) :
    iteration client line fuel = .ok .blank := by
  rw [iteration, if_pos h]
  rfl

/-- An argument is taken only if there is one. -/
theorem argument_cons (cmd : StdString w) (args : List (StdString w)) (k : ℕ) :
    argument (cmd :: args) (k + 1) = .ok ((args.map StdString.chars).getD k []) := by
  unfold argument
  rcases Nat.lt_or_ge k args.length with hlt | hge
  · rw [if_pos (by simpa using hlt), List.getElem?_cons_succ, List.getElem?_eq_getElem hlt,
      List.getD_eq_getElem _ _ (by simpa using hlt), List.getElem_map]
    rfl
  · rw [if_neg (by simpa using hge), List.getD_eq_default _ _ (by simpa using hge)]
    rfl

/-- The line is not empty, but there are separators only. -/
def OnlySpaces (line : List UInt8) : Prop := line ≠ [] ∧ ∀ c ∈ line, c = 32

instance (line : List UInt8) : Decidable (OnlySpaces line) := inferInstanceAs (Decidable (_ ∧ _))

/-- The first token is `exit`. -/
def IsExit (line : List UInt8) : Prop := (tokens 32 line).head? = some (ascii "exit")

instance (line : List UInt8) : Decidable (IsExit line) := inferInstanceAs (Decidable (_ = _))

theorem IsExit.not_onlySpaces {line : List UInt8} (h : IsExit line) : ¬ OnlySpaces line := by
  intro hspaces
  rw [IsExit, (tokens_eq_nil_iff line).mpr hspaces.2] at h
  cases h

/-- Such a line has no token, and the first is taken all the same. -/
theorem iteration_of_onlySpaces (h : OnlySpaces line.chars) {fuel : ℕ}
    (hfuel : line.length + 2 ≤ fuel) : iteration client line fuel = .error .range := by
  obtain ⟨words, hreturns, htokens⟩ := exists_returns line 32
  rw [(tokens_eq_nil_iff _).mpr h.2, List.map_eq_nil_iff] at htokens
  rw [iteration, if_neg h.1, hreturns fuel hfuel, htokens]
  rfl

/-- A line with tokens is taken apart, and nothing is taken that is not there. -/
theorem iteration_of_tokens_ne_nil (h : tokens 32 line.chars ≠ []) :
    ∃ cmd args, tokens 32 line.chars = cmd.chars :: args.map StdString.chars ∧
      ∀ fuel, line.length + 2 ≤ fuel → iteration client line fuel = .ok (client.turn cmd args) := by
  obtain ⟨words, hreturns, htokens⟩ := exists_returns line 32
  have hne : line.chars ≠ [] := fun hnil => h (by rw [hnil, tokens_nil])
  cases words with
  | nil => exact absurd htokens.symm h
  | cons cmd args =>
    refine ⟨cmd, args, htokens.symm, fun fuel hfuel => ?_⟩
    rw [iteration, if_neg hne, hreturns fuel hfuel, Client.turn]
    show (if client.wrongArgs cmd (cmd :: args) then Except.ok _ else _) = _
    cases client.wrongArgs cmd (cmd :: args)
    · simp only [argument_cons]
      rfl
    · rfl

/-- Every other line does what its tokens ask for, and leaves the loop if the first is
`exit`. -/
theorem Client.Follows.iteration_eq_ok {client : Client w Call}
    {asked : List (List UInt8) → Option Call} (h : client.Follows asked)
    (hline : ¬ OnlySpaces line.chars) :
    ∃ turn, (∀ fuel, line.length + 2 ≤ fuel → iteration client line fuel = .ok turn) ∧
      turn.called = asked (tokens 32 line.chars) ∧
      (turn = .exit ↔ IsExit line.chars) := by
  by_cases hempty : line.chars = []
  · refine ⟨.blank, fun fuel _ => iteration_of_nil client hempty fuel, ?_⟩
    rw [IsExit, hempty, tokens_nil, h.nothing]
    exact ⟨rfl, iff_of_false (fun h => nomatch h) fun h => nomatch h⟩
  · have htokens : tokens 32 line.chars ≠ [] := fun hnil =>
      hline ⟨hempty, (tokens_eq_nil_iff _).mp hnil⟩
    obtain ⟨cmd, args, hsplit, hturn⟩ := iteration_of_tokens_ne_nil client htokens
    refine ⟨_, hturn, by rw [h.called, hsplit], ?_⟩
    rw [h.exits, IsExit, hsplit, List.head?_cons, Option.some.injEq]

end Iteration

/-- The iteration comes to an end, takes no token that is not there, and calls the handler that
the tokens of the line ask for, or none. -/
def Dispatches (client : Client w Call) (asked : List (List UInt8) → Option Call)
    (line : StdString w) : Prop :=
  ∃ turn, (∀ fuel, line.length + 2 ≤ fuel → iteration client line fuel = .ok turn) ∧
    turn.called = asked (tokens 32 line.chars)

theorem Client.Follows.dispatches_iff_not_onlySpaces {client : Client w Call}
    {asked : List (List UInt8) → Option Call} (h : client.Follows asked) (line : StdString w) :
    Dispatches client asked line ↔ ¬ OnlySpaces line.chars := by
  constructor
  · rintro ⟨turn, hturn, -⟩ hline
    have hrange := iteration_of_onlySpaces client hline le_rfl
    rw [hturn _ le_rfl] at hrange
    cases hrange
  · intro hline
    obtain ⟨turn, hturn, hcalled, -⟩ := h.iteration_eq_ok hline
    exact ⟨turn, hturn, hcalled⟩

/-- **What a line does**: in both clients it does what its tokens ask for, and takes no other
token, unless it has characters and all of them are separators. -/
theorem dispatches_iff (line : StdString w) :
    (Dispatches FileClient.client FileClient.asked line ↔ ¬ OnlySpaces line.chars) ∧
      (Dispatches InfoClient.client InfoClient.asked line ↔ ¬ OnlySpaces line.chars) :=
  ⟨FileClient.follows.dispatches_iff_not_onlySpaces line,
    InfoClient.follows.dispatches_iff_not_onlySpaces line⟩

/-- The line of one space. -/
def oneSpace : StdString 32 := ⟨[32], by decide⟩

theorem not_dispatches_oneSpace (client : Client 32 Call)
    (asked : List (List UInt8) → Option Call) : ¬ Dispatches client asked oneSpace := by
  rintro ⟨turn, hturn, -⟩
  have hrange : iteration client oneSpace 3 = .error .range := rfl
  rw [hturn 3 le_rfl] at hrange
  cases hrange

theorem oneSpace_not_dispatched :
    ¬ Dispatches FileClient.client FileClient.asked oneSpace ∧
      ¬ Dispatches InfoClient.client InfoClient.asked oneSpace :=
  ⟨not_dispatches_oneSpace _ _, not_dispatches_oneSpace _ _⟩

end CommandLine
end BsitLabs
