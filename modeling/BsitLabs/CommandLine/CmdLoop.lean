import BsitLabs.CommandLine.Dispatch
import BsitLabs.CommandLine.StandardInput
import BsitLabs.Foundation.Acting
import BsitLabs.Foundation.MachineInt

/-!
# The command loop

`Client::cmd_loop` asks whether the server is listening, reads a line and dispatches it, until
a line says `exit`.  It reads once more in its first iteration, since `std::cin >> password` in
`main` leaves the end of the line of the password in the stream; a static counter tells the
first `getline` from the others, and a `goto` goes back to it.

Whether `getline` has read anything is never asked.  At the end of the input it leaves `line`
as it is, so that the last line stays and is executed again and again (`exists_repeated`), and
the loop does not come to an end.  What the loop sees is `Stream.seen`, and `executes_iff` says
for which inputs it executes what has been entered.
-/

namespace BsitLabs
namespace CommandLine

open Tokens MachineInt

variable {w : ℕ}

/-! ## The loop -/

/-- How the loop may go wrong. -/
inductive Crash where
  /-- In an iteration. -/
  | line (fault : Fault)
  /-- The counter is the largest `int`. -/
  | overflow
  deriving DecidableEq, Repr

/-- Where the loop is. -/
inductive Label where
  | prompt
  | metkaKostil
  deriving DecidableEq

/-- A client in its loop. -/
structure Shell (w : ℕ) (Call : Type) where
  label : Label
  cin : Stream w
  line : StdString w
  kostil : ℤ
  /-- How often the server has been asked whether it is listening. -/
  polls : ℕ
  /-- The handlers that have been called. -/
  calls : List Call

/-- `RPC_S_NOT_LISTENING`. -/
def rpcSNotListening : ℤ := 1715

section Loop

variable {Call : Type} (client : Client w Call)

/-- What becomes of an iteration. -/
def Shell.proceed (s : Shell w Call) :
    Except Fault (Turn Call) → Shell w Call ⊕ Except Crash (List Call)
  | .error fault => .inr (.error (.line fault))
  | .ok .exit => .inr (.ok s.calls)
  | .ok turn => .inl { s with label := .prompt, calls := s.calls ++ turn.called.toList }

/-- `Client::cmd_loop`: from the head of the loop to `metka_kostil`, and from there on. -/
def cmdLoop (status : ℕ → ℤ) (s : Shell w Call) : Shell w Call ⊕ Except Crash (List Call) :=
  match s.label with
  | .prompt =>
    if status s.polls = rpcSNotListening then .inr (.ok s.calls)
    else .inl { s with label := .metkaKostil, polls := s.polls + 1 }
  | .metkaKostil =>
    let (cin, line) := s.cin.getline s.line
    match checked (s.kostil + 1) with
    | none => .inr (.error .overflow)
    | some kostil =>
      if s.kostil = 0 then .inl { s with cin, line, kostil }
      else Shell.proceed { s with cin, line, kostil } (iteration client line (line.length + 2))

end Loop

/-! ## What is to be executed -/

section Spec

variable {Call : Type} (asked : List (List UInt8) → Option Call)

/-- What these lines ask for. -/
def commands (lines : List (List UInt8)) : List Call :=
  lines.filterMap fun line => asked (tokens 32 line)

/-- Where `cmd_loop` begins. -/
def Shell.start (cin : Stream w) : Shell w Call where
  label := .prompt
  cin := cin
  line := ⟨[], cin.fit [] List.nil_infix List.not_mem_nil⟩
  kostil := 0
  polls := 0
  calls := []

/-- As long as the server is listening, the loop returns, and the handlers that it has called
are those that the lines ask for that have been entered, up to the first `exit`. -/
def Executes (client : Client w Call) (cin : Stream w) : Prop :=
  ∀ status : ℕ → ℤ, (∀ k, status k ≠ rpcSNotListening) →
    Loop.Returns (cmdLoop client status) (Shell.start cin)
      (.ok (commands asked (cin.entered.takeWhile (¬ IsExit ·))))

end Spec

/-- These lines are followed by the first `exit`, and none of them has characters but only
separators. -/
structure BeforeExit (lines before : List (List UInt8)) : Prop where
  exit : ∃ line after, lines = before ++ line :: after ∧ IsExit line
  others : ∀ line ∈ before, ¬ IsExit line ∧ ¬ OnlySpaces line

@[simp] theorem commands_nil {Call : Type} (asked : List (List UInt8) → Option Call) :
    commands asked [] = [] := rfl

theorem commands_cons {Call : Type} (asked : List (List UInt8) → Option Call) (line : List UInt8)
    (lines : List (List UInt8)) :
    commands asked (line :: lines) = (asked (tokens 32 line)).toList ++ commands asked lines := by
  rw [commands, List.filterMap_cons, commands]
  cases asked (tokens 32 line) <;> rfl

/-- Another line is the last of them. -/
theorem commands_concat {Call : Type} (asked : List (List UInt8) → Option Call)
    (lines : List (List UInt8)) (line : List UInt8) :
    commands asked (lines ++ [line]) = commands asked lines ++ (asked (tokens 32 line)).toList := by
  rw [commands, List.filterMap_append, commands]
  cases h : asked (tokens 32 line) <;> simp [h]

/-! ## The first `exit` -/

/-- It is in the next line, or behind that one, which may be the same. -/
theorem beforeExit_cons_iff (line : List UInt8) (lines before : List (List UInt8)) :
    BeforeExit (line :: lines) before ↔
      (IsExit line ∧ before = []) ∨
        ∃ rest, before = line :: rest ∧ (¬ IsExit line ∧ ¬ OnlySpaces line) ∧
          BeforeExit (advance (line :: lines)) rest := by
  constructor
  · rintro ⟨⟨last, after, hlines, hexit⟩, hothers⟩
    cases before with
    | nil => exact .inl ⟨(List.cons.inj hlines).1 ▸ hexit, rfl⟩
    | cons first rest =>
      obtain ⟨rfl, rfl⟩ := List.cons.inj hlines
      refine .inr ⟨rest, rfl, hothers _ List.mem_cons_self, ⟨last, after, ?_, hexit⟩,
        fun l hl => hothers l (List.mem_cons_of_mem _ hl)⟩
      cases rest <;> rfl
  · rintro (⟨hexit, rfl⟩ | ⟨rest, rfl, hline, ⟨last, after, hlines, hexit⟩, hothers⟩)
    · exact ⟨⟨line, lines, rfl, hexit⟩, fun l hl => absurd hl List.not_mem_nil⟩
    · refine ⟨⟨last, after, ?_, hexit⟩, List.forall_mem_cons.mpr ⟨hline, hothers⟩⟩
      cases lines with
      | nil =>
        -- the last line stays, and is not the one that says `exit`
        have hlast : last ∈ [line] := (show [line] = rest ++ last :: after from hlines) ▸
          List.mem_append_right _ List.mem_cons_self
        exact absurd (List.mem_singleton.mp hlast ▸ hexit) hline.1
      | cons next lines => exact congrArg _ hlines

/-- Up to the first `exit`. -/
theorem BeforeExit.takeWhile {lines before : List (List UInt8)} (h : BeforeExit lines before) :
    lines.takeWhile (¬ IsExit ·) = before := by
  obtain ⟨line, after, rfl, hexit⟩ := h.exit
  rw [List.takeWhile_append_of_pos fun l hl => decide_eq_true (h.others l hl).1,
    List.takeWhile_cons_of_neg (by simpa using hexit), List.append_nil]

theorem BeforeExit.of_singleton {line : List UInt8} {before : List (List UInt8)}
    (h : BeforeExit [line] before) : IsExit line ∧ before = [] := by
  obtain ⟨last, after, hlines, hexit⟩ := h.exit
  cases before with
  | nil => exact ⟨(List.cons.inj hlines).1 ▸ hexit, rfl⟩
  | cons first before => exact absurd (List.cons.inj hlines).2 (by simp)

/-! ## One step -/

namespace Shell

variable {Call : Type} (s : Shell w Call)

/-- What stands in `line` from here on. -/
def pending : List (List UInt8) := s.cin.pending s.line.chars

/-- Behind a `getline`, which is counted. -/
def read : Shell w Call :=
  { s with
    cin := (s.cin.getline s.line).1
    line := (s.cin.getline s.line).2
    kostil := s.kostil + 1 }

theorem kostil_read {k : ℕ} (hk : s.kostil = k) : s.read.kostil = (k + 1 : ℕ) := by
  rw [read, hk]
  exact (Nat.cast_succ k).symm

theorem pending_read :
    ∃ lines, s.pending = s.read.line.chars :: lines ∧ s.read.pending = advance s.pending :=
  s.cin.pending_getline s.line

end Shell

section Step

variable {Call : Type} {client : Client w Call} {asked : List (List UInt8) → Option Call}
  {status : ℕ → ℤ} {s : Shell w Call} {k : ℕ}

theorem cmdLoop_prompt (hlabel : s.label = .prompt) (hstatus : ∀ k, status k ≠ rpcSNotListening) :
    cmdLoop client status s = .inl { s with label := .metkaKostil, polls := s.polls + 1 } := by
  rw [cmdLoop, hlabel]
  exact if_neg (hstatus _)

theorem cmdLoop_metkaKostil (client : Client w Call) (status : ℕ → ℤ)
    (hlabel : s.label = .metkaKostil) (hk : s.kostil = k) :
    cmdLoop client status s =
      if k + 1 < 2 ^ 31 then
        if k = 0 then .inl s.read
        else s.read.proceed (iteration client s.read.line (s.read.line.length + 2))
      else .inr (.error .overflow) := by
  rw [cmdLoop, hlabel, Shell.read]
  dsimp only
  rw [hk]
  by_cases hlt : k + 1 < 2 ^ 31
  · rw [checked_of_le (by omega) (by omega), if_pos hlt]
    simp only [Nat.cast_eq_zero, hlabel]
  · rw [if_neg hlt, show checked ((k : ℤ) + 1) = none from if_neg (by omega)]

/-- The first `getline`. -/
theorem cmdLoop_goto (client : Client w Call) (status : ℕ → ℤ)
    (hlabel : s.label = .metkaKostil) (hk : s.kostil = (0 : ℕ)) :
    cmdLoop client status s = .inl s.read := by
  rw [cmdLoop_metkaKostil client status hlabel hk, if_pos (by decide), if_pos rfl]

/-- Behind the first `getline`: a line that is not only of spaces is dispatched, and unless it
says `exit`, the loop goes on. -/
theorem Client.Follows.cmdLoop_line (h : client.Follows asked) (status : ℕ → ℤ)
    (hlabel : s.label = .metkaKostil) (hk : s.kostil = k) (hpos : 0 < k) :
    cmdLoop client status s =
      if k + 1 < 2 ^ 31 then
        if OnlySpaces s.read.line.chars then .inr (.error (.line .range))
        else if IsExit s.read.line.chars then .inr (.ok s.calls)
        else .inl { s.read with
          label := .prompt
          calls := s.calls ++ (asked (tokens 32 s.read.line.chars)).toList }
      else .inr (.error .overflow) := by
  rw [cmdLoop_metkaKostil client status hlabel hk, if_neg hpos.ne']
  split_ifs with hlt hspaces hexit
  · rw [iteration_of_onlySpaces client hspaces le_rfl]
    rfl
  · obtain ⟨turn, hturn, -, hiff⟩ := h.iteration_eq_ok hspaces
    rw [hturn _ le_rfl, hiff.mpr hexit]
    rfl
  · obtain ⟨turn, hturn, hcalled, hiff⟩ := h.iteration_eq_ok hspaces
    rw [hturn _ le_rfl, ← hcalled]
    cases turn with
    | exit => exact absurd (hiff.mp rfl) hexit
    | _ => rfl
  · rfl

end Step

/-! ## The run -/

section Run

variable {Call : Type} {client : Client w Call} {asked : List (List UInt8) → Option Call}
  {status : ℕ → ℤ} {s : Shell w Call} {k : ℕ} {calls : List Call}

/-- At the head of the loop the server is asked, and nothing else is done. -/
theorem returns_of_metkaKostil {result : Except Crash (List Call)}
    (hstatus : ∀ k, status k ≠ rpcSNotListening)
    (h : ∀ polls, Loop.Returns (cmdLoop client status)
      { s with label := .metkaKostil, polls := polls } result) :
    Loop.Returns (cmdLoop client status) s result := by
  obtain ⟨label, cin, line, kostil, polls, calls⟩ := s
  cases label with
  | prompt => exact .of_next (cmdLoop_prompt rfl hstatus) (h (polls + 1))
  | metkaKostil => exact h polls

/-- The loop returns at the first `exit`: by induction on the lines before. -/
theorem Client.Follows.returns (h : client.Follows asked)
    (hstatus : ∀ k, status k ≠ rpcSNotListening) {before : List (List UInt8)}
    (hbefore : BeforeExit s.pending before) (hk : s.kostil = k) (hpos : 0 < k)
    (hcount : k + before.length + 1 < 2 ^ 31) :
    Loop.Returns (cmdLoop client status) s (.ok (s.calls ++ commands asked before)) := by
  induction before generalizing s k with
  | nil =>
    obtain ⟨lines, hpending, -⟩ := s.pending_read
    rw [hpending, beforeExit_cons_iff] at hbefore
    rcases hbefore with ⟨hexit, -⟩ | ⟨rest, hrest, -⟩
    · refine returns_of_metkaKostil hstatus fun polls => .of_result ?_
      have hstep := h.cmdLoop_line (s := { s with label := .metkaKostil, polls := polls }) status
        rfl hk hpos
      rw [if_pos (by simpa using hcount)] at hstep
      rw [commands_nil, List.append_nil]
      exact hstep.trans ((if_neg hexit.not_onlySpaces).trans (if_pos hexit))
    · cases hrest
  | cons line before ih =>
    obtain ⟨lines, hpending, hadvance⟩ := s.pending_read
    rw [hpending, beforeExit_cons_iff, ← hpending, ← hadvance] at hbefore
    rcases hbefore with ⟨-, hnil⟩ | ⟨rest, hrest, ⟨hexit, hspaces⟩, hbefore⟩
    · cases hnil
    · obtain ⟨rfl, rfl⟩ := List.cons.inj hrest
      rw [List.length_cons] at hcount
      refine returns_of_metkaKostil hstatus fun polls => ?_
      have hstep := h.cmdLoop_line (s := { s with label := .metkaKostil, polls := polls }) status
        rfl hk hpos
      rw [if_pos (by omega)] at hstep
      have hnext := hstep.trans ((if_neg hspaces).trans (if_neg hexit))
      rw [commands_cons, ← List.append_assoc]
      exact .of_next hnext (ih hbefore (s.kostil_read hk) (Nat.succ_pos k) (by omega))

/-- If the loop returns, there is an `exit`. -/
theorem Client.Follows.beforeExit_of_returns (h : client.Follows asked)
    (hstatus : ∀ k, status k ≠ rpcSNotListening)
    (hreturns : Loop.Returns (cmdLoop client status) s (.ok calls)) (hk : s.kostil = k)
    (hpos : 0 < k) :
    ∃ before, BeforeExit s.pending before ∧ k + before.length + 1 < 2 ^ 31 ∧
      calls = s.calls ++ commands asked before := by
  induction hreturns using Loop.Returns.induct generalizing k with
  | last s hstep =>
    cases hlabel : s.label with
    | prompt =>
      rw [cmdLoop_prompt hlabel hstatus] at hstep
      cases hstep
    | metkaKostil =>
      obtain ⟨lines, hpending, -⟩ := s.pending_read
      rw [h.cmdLoop_line status hlabel hk hpos] at hstep
      split_ifs at hstep with hlt hspaces hexit
      · cases hstep
      · have hcalls : s.calls = calls := Except.ok.inj (Sum.inr.inj hstep)
        refine ⟨[], ?_, hlt, hcalls.symm.trans (List.append_nil _).symm⟩
        rw [hpending, beforeExit_cons_iff]
        exact .inl ⟨hexit, rfl⟩
      · cases hstep
  | next s s' hstep _ ih =>
    cases hlabel : s.label with
    | prompt =>
      rw [cmdLoop_prompt hlabel hstatus] at hstep
      obtain rfl := Sum.inl.inj hstep
      exact ih hk hpos
    | metkaKostil =>
      obtain ⟨lines, hpending, hadvance⟩ := s.pending_read
      rw [h.cmdLoop_line status hlabel hk hpos] at hstep
      split_ifs at hstep with hlt hspaces hexit
      obtain rfl := Sum.inl.inj hstep
      obtain ⟨before, hbefore, hcount, hcalls⟩ := ih (s.kostil_read hk) (Nat.succ_pos k)
      refine ⟨s.read.line.chars :: before, ?_, ?_, ?_⟩
      · rw [hpending, beforeExit_cons_iff, ← hpending, ← hadvance]
        exact .inr ⟨before, rfl, ⟨hexit, hspaces⟩, hbefore⟩
      · rw [List.length_cons]
        omega
      · rw [hcalls, commands_cons, List.append_assoc]

theorem Client.Follows.returns_iff (h : client.Follows asked)
    (hstatus : ∀ k, status k ≠ rpcSNotListening) (hk : s.kostil = k) (hpos : 0 < k) :
    Loop.Returns (cmdLoop client status) s (.ok calls) ↔
      ∃ before, BeforeExit s.pending before ∧ k + before.length + 1 < 2 ^ 31 ∧
        calls = s.calls ++ commands asked before := by
  refine ⟨fun hreturns => h.beforeExit_of_returns hstatus hreturns hk hpos, ?_⟩
  rintro ⟨before, hbefore, hcount, rfl⟩
  exact h.returns hstatus hbefore hk hpos hcount

/-- From where it begins, the loop reads twice before it dispatches a line. -/
theorem Client.Follows.returns_start_iff (h : client.Follows asked)
    (hstatus : ∀ k, status k ≠ rpcSNotListening) {cin : Stream w} :
    Loop.Returns (cmdLoop client status) (Shell.start cin) (.ok calls) ↔
      ∃ before, BeforeExit cin.seen before ∧ before.length + 2 < 2 ^ 31 ∧
        calls = commands asked before := by
  obtain ⟨-, -, hseen⟩ := (Shell.start cin : Shell w Call).pending_read
  have hprompt : cmdLoop client status (Shell.start cin) = _ := cmdLoop_prompt rfl hstatus
  refine (Loop.Returns.next_iff hprompt).trans
    ((Loop.Returns.next_iff (cmdLoop_goto client status rfl rfl)).trans
      ((h.returns_iff hstatus rfl Nat.one_pos).trans (exists_congr fun before => ?_)))
  refine and_congr (iff_of_eq (congrArg (BeforeExit · before) hseen)) (and_congr ?_ Iff.rfl)
  omega

/-- The lines that the loop sees, up to the first `exit`, are those that have been entered. -/
theorem Stream.takeWhile_entered {cin : Stream w} {before : List (List UInt8)}
    (h : BeforeExit cin.seen before) : cin.entered.takeWhile (¬ IsExit ·) = before := by
  cases hgood : cin.good with
  | false =>
    have hseen : cin.seen = [[]] := congrArg advance (if_neg (by simp [hgood]))
    rw [hseen] at h
    exact absurd h.of_singleton.1 (by decide)
  | true =>
    have hseen : cin.seen = advance (cin.rest.splitOn 10) := congrArg advance (if_pos hgood)
    rw [Stream.entered]
    rw [hseen] at h
    match hlines : cin.rest.splitOn 10 with
    | [] => exact absurd hlines (List.splitOn_ne_nil _ _)
    | [line] =>
      rw [hlines] at h
      exact h.of_singleton.2.symm
    | _ :: line :: lines =>
      rw [hlines] at h
      exact h.takeWhile

/-- The loop does what has been entered exactly if there is an `exit` that it comes to. -/
theorem Client.Follows.executes_iff_beforeExit (h : client.Follows asked) (cin : Stream w) :
    Executes asked client cin ↔
      ∃ before, BeforeExit cin.seen before ∧ before.length + 2 < 2 ^ 31 := by
  constructor
  · intro hexecutes
    have hreturns := hexecutes (fun _ => 0) fun _ => by decide
    rw [h.returns_start_iff fun _ => by decide] at hreturns
    obtain ⟨before, hbefore, hcount, -⟩ := hreturns
    exact ⟨before, hbefore, hcount⟩
  · rintro ⟨before, hbefore, hcount⟩ status hstatus
    rw [h.returns_start_iff hstatus]
    exact ⟨before, hbefore, hcount, by rw [Stream.takeWhile_entered hbefore]⟩

/-- Without an `exit` the loop does not return. -/
theorem Client.Follows.not_executes (h : client.Follows asked) {cin : Stream w}
    (hnone : ∀ line ∈ cin.seen, ¬ IsExit line) : ¬ Executes asked client cin := by
  rw [h.executes_iff_beforeExit]
  rintro ⟨before, ⟨⟨line, after, hseen, hexit⟩, -⟩, -⟩
  exact hnone line (hseen ▸ List.mem_append_right _ List.mem_cons_self) hexit

end Run

/-- **What a whole input does**: the two clients execute what has been entered behind the line
of the password, each command once and in order, and return, exactly if an `exit` is entered,
before it no line of separators only, and fewer lines than an `int` counts. -/
theorem executes_iff (cin : Stream w) :
    (Executes FileClient.asked FileClient.client cin.afterPassword ↔
        ∃ before, BeforeExit cin.afterPassword.seen before ∧ before.length + 2 < 2 ^ 31) ∧
      (Executes InfoClient.asked InfoClient.client cin.afterPassword ↔
        ∃ before, BeforeExit cin.afterPassword.seen before ∧ before.length + 2 < 2 ^ 31) :=
  ⟨FileClient.follows.executes_iff_beforeExit _, InfoClient.follows.executes_iff_beforeExit _⟩

/-- Three words for `main`, and a command that ends with the input. -/
def oneCommand : Stream 32 where
  rest := ascii "localhost:5000 user password\nrm a"
  good := true
  fit := .of_length (by decide)

theorem oneCommand_not_executed :
    ¬ Executes FileClient.asked FileClient.client oneCommand.afterPassword ∧
      ¬ Executes InfoClient.asked InfoClient.client oneCommand.afterPassword := by
  have hseen : oneCommand.afterPassword.seen = [ascii "rm a"] := by decide
  have hnone : ∀ line ∈ oneCommand.afterPassword.seen, ¬ IsExit line := by
    rw [hseen, List.forall_mem_singleton]
    decide
  exact ⟨FileClient.follows.not_executes hnone, InfoClient.follows.not_executes hnone⟩

/-! ## What the calls do

The handlers act on something, and what they do there the loop does not see. -/

section Acting

variable {Call : Type} {client : Client w Call} {asked : List (List UInt8) → Option Call}
  {status : ℕ → ℤ} {s : Shell w Call} {cin : Stream w} {calls : List Call}

/-- The loop strikes no call off. -/
theorem logs_cmdLoop (client : Client w Call) (status : ℕ → ℤ) :
    Loop.Logs (cmdLoop client status) Shell.calls := by
  intro s next hstep
  unfold cmdLoop at hstep
  split at hstep
  · split_ifs at hstep
    obtain rfl := Sum.inl.inj hstep
    exact List.prefix_rfl
  · dsimp only at hstep
    split at hstep
    · cases hstep
    · split_ifs at hstep
      · obtain rfl := Sum.inl.inj hstep
        exact List.prefix_rfl
      · unfold Shell.proceed at hstep
        split at hstep
        · cases hstep
        · cases hstep
        · obtain rfl := Sum.inl.inj hstep
          exact List.prefix_append _ _

/-- What it returns are the calls that it has made. -/
theorem cmdLoop_eq_ok (hstep : cmdLoop client status s = .inr (.ok calls)) : s.calls = calls := by
  unfold cmdLoop at hstep
  split at hstep
  · split_ifs at hstep
    exact Except.ok.inj (Sum.inr.inj hstep)
  · dsimp only at hstep
    split at hstep
    · cases hstep
    · split_ifs at hstep
      unfold Shell.proceed at hstep
      split at hstep
      · cases hstep
      · exact Except.ok.inj (Sum.inr.inj hstep)
      · cases hstep

/-- **What a session comes to**: as long as the server is listening, the loop with its handlers
returns exactly if it comes to an `exit` and no handler throws, and what the handlers act on is
then what the commands that have been entered before make of it, in order. -/
theorem Client.Follows.returns_acting_iff {W : Type*} {perform : W → Call → Option W} {x x' : W}
    (h : client.Follows asked) (hstatus : ∀ k, status k ≠ rpcSNotListening) :
    Loop.Returns (Loop.acting (cmdLoop client status) Shell.calls perform) (Shell.start cin, x)
        (some (.ok calls, x')) ↔
      (∃ before, BeforeExit cin.seen before ∧ before.length + 2 < 2 ^ 31) ∧
        calls = commands asked (cin.entered.takeWhile (¬ IsExit ·)) ∧
        calls.foldlM perform x = some x' := by
  have hloop : Loop.Returns (cmdLoop client status) (Shell.start cin) (.ok calls) ↔ _ :=
    h.returns_start_iff hstatus
  rw [Loop.returns_iff_after] at hloop
  rw [Loop.returns_acting_iff (logs_cmdLoop _ _)]
  constructor
  · rintro ⟨count, shell, hafter, hlast, hworld⟩
    obtain ⟨before, hbefore, hcount, hcalls⟩ := hloop.mp ⟨count, shell, hafter, hlast⟩
    rw [cmdLoop_eq_ok hlast] at hworld
    refine ⟨⟨before, hbefore, hcount⟩, ?_, hworld⟩
    rw [Stream.takeWhile_entered hbefore, hcalls]
  · rintro ⟨⟨before, hbefore, hcount⟩, hcalls, hworld⟩
    rw [Stream.takeWhile_entered hbefore] at hcalls
    obtain ⟨count, shell, hafter, hlast⟩ := hloop.mpr ⟨before, hbefore, hcount, hcalls⟩
    refine ⟨count, shell, hafter, hlast, ?_⟩
    rw [cmdLoop_eq_ok hlast]
    exact hworld

end Acting

/-! ## Every run -/

section Every

variable {Call : Type} {client : Client w Call} {asked : List (List UInt8) → Option Call}
  {status : ℕ → ℤ} {s s' : Shell w Call} {cin : Stream w}

/-- What holds of the loop wherever it is: it has dispatched one line fewer than it has read,
and has called the handlers that these lines ask for. -/
def UpToNow (asked : List (List UInt8) → Option Call) (cin : Stream w) (s : Shell w Call) : Prop :=
  ∃ k : ℕ, s.kostil = k ∧ s.pending = advance^[k] (cin.pending []) ∧
    s.calls = commands asked (cin.dispatched (k - 1))

theorem Client.Follows.upToNow_step (h : client.Follows asked) (hs : UpToNow asked cin s)
    (hstep : cmdLoop client status s = .inl s') : UpToNow asked cin s' := by
  obtain ⟨k, hk, hpending, hcalls⟩ := hs
  cases hlabel : s.label with
  | prompt =>
    rw [cmdLoop, hlabel] at hstep
    dsimp only at hstep
    split_ifs at hstep
    obtain rfl := Sum.inl.inj hstep
    exact ⟨k, hk, hpending, hcalls⟩
  | metkaKostil =>
    obtain ⟨lines, hlines, hadvance⟩ := s.pending_read
    have hnext : s.read.pending = advance^[k + 1] (cin.pending []) := by
      rw [hadvance, hpending, Function.iterate_succ_apply']
    rcases Nat.eq_zero_or_pos k with rfl | hpos
    · rw [cmdLoop_goto client status hlabel hk] at hstep
      obtain rfl := Sum.inl.inj hstep
      exact ⟨1, s.kostil_read hk, hnext, hcalls⟩
    · rw [h.cmdLoop_line status hlabel hk hpos] at hstep
      split_ifs at hstep
      obtain rfl := Sum.inl.inj hstep
      refine ⟨k + 1, s.kostil_read hk, hnext, ?_⟩
      obtain ⟨j, rfl⟩ := Nat.exists_eq_add_of_le' hpos
      -- the line that has been read is the first of those that were pending
      have hline : (advance^[j] cin.seen).headD [] = s.read.line.chars := by
        rw [Stream.seen, ← Function.iterate_succ_apply, ← hpending, hlines]
        rfl
      rw [Nat.add_sub_cancel, Stream.dispatched_succ, commands_concat, hline]
      exact congrArg (· ++ _) hcalls

/-- **What has been executed, in every state of every run**: what the lines ask for that have
been dispatched, in order, and nothing else; whether the server is listening or not. -/
theorem Client.Follows.calls_of_after (h : client.Follows asked) {count : ℕ}
    (hafter : Loop.after (cmdLoop client status) count (Shell.start cin) = some s) :
    ∃ k : ℕ, s.calls = commands asked (cin.dispatched (k - 1)) ∧ s.kostil = k := by
  have hstart : UpToNow asked cin (Shell.start cin) := ⟨0, rfl, rfl, rfl⟩
  obtain ⟨k, hk, -, hcalls⟩ := Loop.after_invariant hstart (fun _ _ => h.upToNow_step) hafter
  exact ⟨k, hcalls, hk⟩

/-- **A command that is the last line** is executed again and again, as long as the counter does
not overflow. -/
theorem Client.Follows.exists_repeated (h : client.Follows asked)
    (hstatus : ∀ k, status k ≠ rpcSNotListening) {line : List UInt8} (hseen : cin.seen = [line])
    {call : Call} (hasked : asked (tokens 32 line) = some call) (count : ℕ)
    (hcount : count + 1 < 2 ^ 31) :
    ∃ steps s, Loop.after (cmdLoop client status) steps (Shell.start cin) = some s ∧
      s.label = .metkaKostil ∧ s.kostil = (count + 1 : ℕ) ∧ s.pending = [line] ∧
      s.calls = List.replicate count call := by
  induction count with
  | zero =>
    obtain ⟨-, -, hpending⟩ := (Shell.start cin : Shell w Call).pending_read
    have hprompt : cmdLoop client status (Shell.start cin) = _ := cmdLoop_prompt rfl hstatus
    exact ⟨2, _, Loop.after_succ (Loop.after_succ rfl hprompt) (cmdLoop_goto client status rfl rfl),
      rfl, rfl, hpending.trans hseen, rfl⟩
  | succ count ih =>
    obtain ⟨steps, s, hafter, hlabel, hk, hpending, hcalls⟩ := ih (by omega)
    obtain ⟨lines, hlines, hadvance⟩ := s.pending_read
    rw [hpending] at hlines hadvance
    obtain ⟨rfl, -⟩ := List.cons.inj hlines
    have hspaces : ¬ OnlySpaces s.read.line.chars := fun hspaces => by
      rw [(tokens_eq_nil_iff _).mpr hspaces.2, h.nothing] at hasked
      cases hasked
    have hexit : ¬ IsExit s.read.line.chars := fun hexit => by
      obtain ⟨turn, -, hcalled, hiff⟩ := h.iteration_eq_ok hspaces
      rw [hiff.mpr hexit, hasked] at hcalled
      cases hcalled
    have hstep := h.cmdLoop_line status hlabel hk (Nat.succ_pos count)
    rw [if_pos hcount, if_neg hspaces, if_neg hexit, hasked] at hstep
    refine ⟨steps + 2, _, Loop.after_succ (Loop.after_succ hafter hstep)
      (cmdLoop_prompt rfl hstatus), rfl, s.kostil_read hk, hadvance, ?_⟩
    rw [List.replicate_succ', ← hcalls]
    rfl

end Every

end CommandLine
end BsitLabs
