import BsitLabs.Tcp.Outstanding
import Mathlib.Data.Finset.Card
import Mathlib.Data.Fintype.Card
import Mathlib.Order.Interval.Finset.Nat

/-!
# The slot table

A `Table` is the world together with what the completion port has been told: the
completion key that each socket was associated under.  The table is right when the listener
has slot zero and every open connection one client slot of its own, whose index is its
completion key (`SlotTable`); and an accept is right when it turns a connection away only
from a full table and takes back a slot that it could not associate (`AcceptRight`).

`add_accepted_connection` looks at `max_clients` indices, and the listener has one of them;
so a connection is turned away when 99 are open.  And when the association fails it returns
with the socket in the slot.  In every run in which neither happens the table is right, and
the first accept at which one does is not (`slotTable_of_seats`).
-/

namespace BsitLabs
namespace Tcp

open MachineInt Transition

variable {Os : Type} {env : Env Os}

/-! ## What an accept does to the sockets -/

/-- The step runs `add_accepted_connection`, with these answers. -/
def Accepts (w : World Os) (e : Event Os) (ans : Answers Os) : Prop :=
  ∃ (k : ℕ) (o : Op) (n : ℕ), e = .dequeue 0 k ans ∧ (w.pending 0)[k]? = some o ∧
    o.status = .done n

/-- What a step does to the sockets in the slots. -/
inductive SocketMove (s s' : Server) : Prop where
  | same (hsock : ∀ j, (s'.gCtxs j).socket = (s.gCtxs j).socket)
      (haccepted : s'.gAcceptedSocket = s.gAcceptedSocket)
      (hclosed : s'.handles.closed = s.handles.closed)
  | left (i : Slot) (hi : i ≠ 0)
      (hsock : ∀ j, (s'.gCtxs j).socket = if j = i then 0 else (s.gCtxs j).socket)
      (haccepted : s'.gAcceptedSocket = s.gAcceptedSocket)
      (hclosed : s'.handles.closed = s.handles.closed ++ [(s.gCtxs i).socket])

/-- What `add_accepted_connection` and the accept after it do to the sockets. -/
inductive AcceptMove (s s' : Server) : Prop where
  | seated (i : Slot) (hfound : findFree s = some i)
      (hsock : ∀ j, (s'.gCtxs j).socket = if j = i then s.gAcceptedSocket else (s.gCtxs j).socket)
      (haccepted : s'.gAcceptedSocket = s.gAcceptedSocket + 1)
      (hclosed : s'.handles.closed = s.handles.closed)
  | refused (hfull : findFree s = none) (hsock : ∀ j, (s'.gCtxs j).socket = (s.gCtxs j).socket)
      (haccepted : s'.gAcceptedSocket = s.gAcceptedSocket + 1)
      (hclosed : s'.handles.closed = s.handles.closed ++ [s.gAcceptedSocket])

theorem Server.Local.socketMove {i : Slot} {s s' : Server} (h : s.Local i s') : SocketMove s s' :=
  .same h.socket_eq h.accepted h.closed

theorem socketMove_cancel (s : Server) {i : Slot} (hi : i ≠ 0) :
    SocketMove s (overlapCancelHandler s i) := by
  refine .left i hi (fun j => ?_) rfl rfl
  show (Function.update s.gCtxs i ClientCtx.zero j).socket = _
  rw [Function.update_apply]
  split <;> rfl

theorem acceptMove_acceptIteration (ans : Answers Os) {w : World Os} (hg : Good w) (n : ℕ) :
    AcceptMove w.srv (w.acceptIteration ans n).srv := by
  have hnext : w.srv.handles.sockets + 1 = w.srv.gAcceptedSocket + 1 := by
    rw [hg.sockets.accepted]
  rcases hg.acceptIteration_cases ans n with ⟨i, ha⟩ | hr
  · refine .seated i ha.found (fun j => ?_) ?_ ?_
    · split
      · next hji =>
          rw [hji, ha.ctx]
      · next hji =>
          by_cases hj : j = 0
          · rw [hj, ha.listener]
          · rw [(ha.others j hj hji).1]
    · rw [ha.srv]
      exact hnext
    · rw [ha.srv]
      rfl
  · refine .refused hr.full (fun j => ?_) ?_ ?_
    · by_cases hj : j = 0
      · rw [hj, hr.listener]
      · rw [(hr.others j hj).1]
    · rw [hr.srv]
      exact hnext
    · rw [hr.srv]
      rfl

/-- **What a step does to the sockets**, apart from an accept. -/
theorem socketMove_step {w w' : World Os} {e : Event Os} (hs : World.Step env w e w')
    (hother : ∀ ans, ¬ Accepts w e ans) : SocketMove w.srv w'.srv := by
  cases hs with
  | accepted => exact .same (fun _ => rfl) rfl rfl
  | @received i _ data o =>
    have hlocal : w.srv.Local i (w.store i o.off data).srv := w.srv.local_setCtx rfl
    exact hlocal.socketMove
  | sent => exact .same (fun _ => rfl) rfl rfl
  | failed => exact .same (fun _ => rfl) rfl rfl
  | dropped => exact .same (fun _ => rfl) rfl rfl
  | @dequeue i k n ans o running ho hst =>
    have hi : i ≠ 0 := by
      rintro rfl
      exact hother ans ⟨k, o, n, rfl, ho, hst⟩
    unfold World.exec
    rw [if_neg hi]
    cases o.block with
    | send => exact (overlapSendHandler_local w.srv i n).socketMove
    | cancel => exact socketMove_cancel w.srv hi
    | recv =>
      rcases recvIteration_cases env ans (w.setPending i ((w.pending i).eraseIdx k)) i n with
        ⟨_, h⟩ | ⟨_, f, _, h⟩ | ⟨_, s, hok, h⟩
      · simp only [h]
        exact .same (fun _ => rfl) rfl rfl
      · simp only [h]
        exact .same (fun _ => rfl) rfl rfl
      · simp only [h]
        exact (overlapRecvHandler_local hok).socketMove

theorem acceptMove_step {w w' : World Os} {e : Event Os} {ans : Answers Os} (hg : Good w)
    (hs : World.Step env w e w') (hacc : Accepts w e ans) : AcceptMove w.srv w'.srv := by
  obtain ⟨k, o, n, rfl, ho, hst⟩ := hacc
  rw [hs.dequeue_eq ho hst]
  exact acceptMove_acceptIteration ans (hg.of_setPending_zero ((w.pending 0).eraseIdx k)) n

/-! ## The table -/

/-- The world, and the completion key of each socket that has been associated. -/
structure Table (Os : Type) where
  world : World Os
  keyOf : ℕ → Option Slot

/-- The associations after `add_accepted_connection`: the accepted socket is associated
under the index found. -/
def associate (ans : Answers Os) (s : Server) (keyOf : ℕ → Option Slot) : ℕ → Option Slot :=
  match findFree s with
  | some i => if ans.associated then Function.update keyOf s.gAcceptedSocket (some i) else keyOf
  | none => keyOf

/-- The steps of the world, with what they tell the completion port. -/
inductive Table.Step (env : Env Os) : Table Os → Event Os → Table Os → Prop where
  | accepts {t : Table Os} {e : Event Os} {w' : World Os} {ans : Answers Os}
      (hs : World.Step env t.world e w') (hacc : Accepts t.world e ans) :
      Step env t e ⟨w', associate ans t.world.srv t.keyOf⟩
  | other {t : Table Os} {e : Event Os} {w' : World Os} (hs : World.Step env t.world e w')
      (hother : ∀ ans, ¬ Accepts t.world e ans) : Step env t e ⟨w', t.keyOf⟩

/-- The constructor associates the listening socket under zero. -/
def Table.initial (accepting : Bool) : Table Os where
  world := World.initial accepting
  keyOf := Function.update (fun _ => none) 1 (some 0)

/-- The server's runs, with the associations. -/
def tableMachine (env : Env Os) (accepting : Bool) : Machine (Table Os) (Event Os) where
  init t := t = Table.initial accepting
  step := Table.Step env

/-- The table forgets its associations. -/
def Table.forget (env : Env Os) (accepting : Bool) :
    Projection (tableMachine env accepting) (machine env accepting) where
  map := Table.world
  init t h := by
    obtain rfl : t = Table.initial accepting := h
    exact rfl
  step t e t' hs := by
    cases hs with
    | accepts hs _ => exact .inr ⟨e, hs⟩
    | other hs _ => exact .inr ⟨e, hs⟩

theorem good_table {accepting : Bool} {t : Table Os}
    (hr : (tableMachine env accepting).Reachable t) :
    Good t.world := good_reachable ((Table.forget env accepting).reachable hr)

/-- The listener has slot zero, and every accepted connection that is not closed has one
client slot, whose index is its completion key. -/
structure SlotTable (t : Table Os) : Prop where
  listener : (t.world.srv.gCtxs 0).socket = 1
  seated : ∀ c, 2 ≤ c → c < t.world.srv.gAcceptedSocket → c ∉ t.world.srv.handles.closed →
    ∃ i, i ≠ 0 ∧ (t.world.srv.gCtxs i).socket = c ∧ t.keyOf c = some i ∧
      ∀ j, (t.world.srv.gCtxs j).socket = c → j = i
  distinct : ∀ i j, (t.world.srv.gCtxs i).socket ≠ 0 →
    (t.world.srv.gCtxs i).socket = (t.world.srv.gCtxs j).socket → i = j

/-- The connections that have been accepted and not closed. -/
def Server.openConnections (s : Server) : Finset ℕ :=
  (Finset.Ico 2 s.gAcceptedSocket).filter (· ∉ s.handles.closed)

/-- The accept that leads from `s` to `s'` is right. -/
structure AcceptRight (ans : Answers Os) (s s' : Server) : Prop where
  /-- A connection is turned away only when `max_clients` are open.  (The other way to be
  closed at once is that of `undone`.) -/
  refused : s.gAcceptedSocket ∈ s'.handles.closed →
    (∃ i, findFree s = some i ∧ ans.associated = false) ∨ maxClients ≤ s.openConnections.card
  /-- When the association fails the slot is free again and the socket closed. -/
  undone : ∀ i, findFree s = some i → ans.associated = false →
    (s'.gCtxs i).socket = 0 ∧ s.gAcceptedSocket ∈ s'.handles.closed

/-- Every accept finds one of the indices `1 .. max_clients - 1` free, and its association
succeeds. -/
def Seats (t : Table Os) (e : Event Os) : Prop :=
  ∀ ans, Accepts t.world e ans → ans.associated = true ∧
    ∃ i : Slot, 1 ≤ i.val ∧ i.val < maxClients ∧ (t.world.srv.gCtxs i).socket = 0

/-! ## The table is right as long as connections are seated -/

/-- What holds of the table in the runs that seat every connection. -/
structure TableInv (t : Table Os) : Prop where
  table : SlotTable t
  /-- The last slot is never taken. -/
  last : ∀ i : Slot, maxClients ≤ i.val → (t.world.srv.gCtxs i).socket = 0

theorem tableInv_initial (accepting : Bool) : TableInv (Table.initial accepting : Table Os) := by
  have hgood : Good (World.initial accepting : World Os) := good_initial accepting
  refine ⟨⟨rfl, fun c hge hlt _ => ?_, hgood.sockets.injective⟩, fun i hi => ?_⟩
  · exact absurd hlt (Nat.not_lt.mpr hge)
  · have hne : i ≠ 0 := by
      rintro rfl
      exact absurd hi (by decide)
    simp [Table.initial, World.initial, hne, ClientCtx.zero]

/-- A step other than an accept keeps the table right. -/
theorem TableInv.of_socketMove {t : Table Os} {w' : World Os} (h : TableInv t) (hg : Good w')
    (hmove : SocketMove t.world.srv w'.srv) : TableInv ⟨w', t.keyOf⟩ := by
  cases hmove with
  | same hsock haccepted hclosed =>
    refine ⟨⟨?_, fun c hge hlt hopen => ?_, hg.sockets.injective⟩, fun i hi => ?_⟩
    · rw [hsock]
      exact h.table.listener
    · rw [haccepted] at hlt
      rw [hclosed] at hopen
      simp only [hsock]
      exact h.table.seated c hge hlt hopen
    · rw [hsock]
      exact h.last i hi
  | left k hk hsock haccepted hclosed =>
    refine ⟨⟨?_, fun c hge hlt hopen => ?_, hg.sockets.injective⟩, fun i hi => ?_⟩
    · rw [hsock, if_neg (Ne.symm hk)]
      exact h.table.listener
    · rw [haccepted] at hlt
      rw [hclosed, List.mem_append, List.mem_singleton, not_or] at hopen
      obtain ⟨i, hi, hc, hkey, honly⟩ := h.table.seated c hge hlt hopen.1
      have hik : i ≠ k := by
        rintro rfl
        exact hopen.2 hc.symm
      refine ⟨i, hi, ?_, hkey, fun j hj => ?_⟩
      · rw [hsock, if_neg hik]
        exact hc
      · rw [hsock] at hj
        split at hj
        · omega
        · exact honly j hj
    · rw [hsock]
      split
      · rfl
      · exact h.last i hi

/-- An accept that seats its connection keeps the table right. -/
theorem TableInv.of_seated {t : Table Os} {w' : World Os} {ans : Answers Os} (h : TableInv t)
    (hg : Good t.world) (hg' : Good w') (hassoc : ans.associated = true) {k : Slot}
    (hfound : findFree t.world.srv = some k)
    (hsock : ∀ j, (w'.srv.gCtxs j).socket =
      if j = k then t.world.srv.gAcceptedSocket else (t.world.srv.gCtxs j).socket)
    (haccepted : w'.srv.gAcceptedSocket = t.world.srv.gAcceptedSocket + 1)
    (hclosed : w'.srv.handles.closed = t.world.srv.handles.closed) :
    TableInv ⟨w', associate ans t.world.srv t.keyOf⟩ := by
  obtain ⟨hfree, hlt⟩ := findFree_eq_some hfound
  have hkeys : associate ans t.world.srv t.keyOf =
      Function.update t.keyOf t.world.srv.gAcceptedSocket (some k) := by
    simp only [associate, hfound, hassoc, if_true]
  have hk : k ≠ 0 := by
    rintro rfl
    exact hg.sockets.listener hfree
  rw [hkeys]
  refine ⟨⟨?_, fun c hge hc hopen => ?_, hg'.sockets.injective⟩, fun i hi => ?_⟩
  · rw [hsock, if_neg (Ne.symm hk)]
    exact h.table.listener
  · rw [haccepted] at hc
    rw [hclosed] at hopen
    by_cases hnew : c = t.world.srv.gAcceptedSocket
    · refine ⟨k, hk, ?_, ?_, fun j hj => ?_⟩
      · rw [hsock, if_pos rfl, hnew]
      · rw [hnew]
        exact Function.update_self _ _ _
      · rw [hsock] at hj
        split at hj
        · assumption
        · have hbelow := hg.sockets.below j
          omega
    · obtain ⟨i, hi, hsocket, hkey, honly⟩ := h.table.seated c hge (by omega) hopen
      have hik : i ≠ k := by
        rintro rfl
        omega
      refine ⟨i, hi, ?_, ?_, fun j hj => ?_⟩
      · rw [hsock, if_neg hik]
        exact hsocket
      · exact (Function.update_of_ne hnew _ _).trans hkey
      · rw [hsock] at hj
        split at hj
        · exact absurd hj.symm hnew
        · exact honly j hj
  · rw [hsock, if_neg (by rintro rfl; omega)]
    exact h.last i hi

/-- An index is found exactly if one of the client's is free. -/
theorem exists_findFree_iff {s : Server} (hlistener : (s.gCtxs 0).socket ≠ 0) :
    (∃ i, findFree s = some i) ↔
      ∃ i : Slot, 1 ≤ i.val ∧ i.val < maxClients ∧ (s.gCtxs i).socket = 0 := by
  constructor
  · rintro ⟨i, hi⟩
    obtain ⟨hfree, hlt⟩ := findFree_eq_some hi
    refine ⟨i, Nat.one_le_iff_ne_zero.mpr fun hz => hlistener ?_, hlt, hfree⟩
    rwa [show i = 0 from Fin.ext hz] at hfree
  · rintro ⟨i, _, hlt, hfree⟩
    refine Option.ne_none_iff_exists'.mp fun hnone => ?_
    exact findFree_eq_none_iff.mp hnone i hlt hfree

/-- **Fewer than `max_clients` connections are ever open.** -/
theorem TableInv.openConnections_lt {t : Table Os} (h : TableInv t) :
    t.world.srv.openConnections.card < maxClients := by
  obtain ⟨taken, htaken⟩ : ∃ taken : Finset Slot,
      taken = Finset.univ.filter fun i => i ≠ 0 ∧ i.val < maxClients := ⟨_, rfl⟩
  have hsub : t.world.srv.openConnections ⊆
      taken.image fun i => (t.world.srv.gCtxs i).socket := by
    intro c hc
    obtain ⟨hrange, hopen⟩ := Finset.mem_filter.mp hc
    obtain ⟨hge, hlt⟩ := Finset.mem_Ico.mp hrange
    obtain ⟨i, hi, hsocket, _⟩ := h.table.seated c hge hlt hopen
    refine Finset.mem_image.mpr ⟨i, ?_, hsocket⟩
    rw [htaken, Finset.mem_filter]
    refine ⟨Finset.mem_univ i, hi, Nat.lt_of_not_le fun hlast => ?_⟩
    rw [h.last i hlast] at hsocket
    omega
  have hcard : taken.card < maxClients := by
    rw [htaken]
    decide
  exact lt_of_le_of_lt ((Finset.card_le_card hsub).trans Finset.card_image_le) hcard

/-- **A step keeps the table right if it seats its connection, and only then is it right.** -/
theorem tableInv_step {t t' : Table Os} {e : Event Os} (h : TableInv t) (hg : Good t.world)
    (hs : Table.Step env t e t') :
    ((SlotTable t' ∧ ∀ ans, Accepts t.world e ans → AcceptRight ans t.world.srv t'.world.srv) ↔
      Seats t e) ∧ (Seats t e → TableInv t') := by
  cases hs with
  | @other w' hs hother =>
    have hinv := h.of_socketMove (good_step hg hs) (socketMove_step hs hother)
    exact ⟨iff_of_true ⟨hinv.table, fun ans hacc => (hother ans hacc).elim⟩
      fun ans hacc => (hother ans hacc).elim, fun _ => hinv⟩
  | @accepts w' ans hs hacc =>
    have honly : ∀ ans', Accepts t.world e ans' → ans' = ans := by
      rintro ans' ⟨_, _, _, he', _⟩
      obtain ⟨_, _, _, he, _⟩ := hacc
      rw [he] at he'
      cases he'
      rfl
    have hseats : Seats t e ↔ ans.associated = true ∧ ∃ i, findFree t.world.srv = some i := by
      rw [exists_findFree_iff hg.sockets.listener]
      refine ⟨fun hseats => hseats ans hacc, fun hseats ans' hacc' => ?_⟩
      rw [honly ans' hacc']
      exact hseats
    have hg' := good_step hg hs
    cases acceptMove_step hg hs hacc with
    | refused hfull hsock haccepted hclosed =>
      have hno : ¬ Seats t e := fun hyes => by
        obtain ⟨_, i, hi⟩ := hseats.mp hyes
        rw [hfull] at hi
        cases hi
      refine ⟨iff_of_false (fun hright => ?_) hno, fun hyes => (hno hyes).elim⟩
      have hnow : t.world.srv.gAcceptedSocket ∈ w'.srv.handles.closed := by
        rw [hclosed]
        exact List.mem_append_right _ (List.mem_singleton.mpr rfl)
      rcases (hright.2 ans hacc).refused hnow with ⟨i, hi, _⟩ | hmany
      · rw [hfull] at hi
        cases hi
      · exact absurd h.openConnections_lt (Nat.not_lt.mpr hmany)
    | seated i hfound hsock haccepted hclosed =>
      cases hassoc : ans.associated with
      | false =>
        have hno : ¬ Seats t e := fun hyes => by
          rw [hassoc] at hseats
          cases (hseats.mp hyes).1
        refine ⟨iff_of_false (fun hright => ?_) hno, fun hyes => (hno hyes).elim⟩
        obtain ⟨hfree, _⟩ := (hright.2 ans hacc).undone i hfound hassoc
        rw [hsock, if_pos rfl] at hfree
        have hbelow := hg.sockets.below 0
        omega
      | true =>
        have hinv := h.of_seated hg hg' hassoc hfound hsock haccepted hclosed
        refine ⟨iff_of_true ⟨hinv.table, fun ans' hacc' => ?_⟩
          (hseats.mpr ⟨hassoc, i, hfound⟩), fun _ => hinv⟩
        rw [honly ans' hacc']
        refine ⟨fun hnow => ?_, fun _ _ hfailed => ?_⟩
        · rw [hclosed] at hnow
          exact absurd (hg.sockets.closedBelow _ hnow) (lt_irrefl _)
        · rw [hassoc] at hfailed
          cases hfailed

theorem tableInv_of_seats {accepting : Bool} {t : Table Os}
    (hr : ((tableMachine env accepting).restrict Seats).Reachable t) : TableInv t := by
  induction hr with
  | init hi =>
    obtain rfl : _ = Table.initial accepting := hi
    exact tableInv_initial accepting
  | step hr hs ih => exact (tableInv_step ih (good_table hr.of_restrict) hs.2).2 hs.1

/-- **The slot table is right** in every run that seats every connection it accepts; and the
first accept that does not is not right or leaves the table wrong. -/
theorem slotTable_of_seats (env : Env Os) (accepting : Bool) {t : Table Os}
    (hr : ((tableMachine env accepting).restrict Seats).Reachable t) :
    SlotTable t ∧ ∀ (e : Event Os) (t' : Table Os), Table.Step env t e t' →
      ((SlotTable t' ∧ ∀ ans, Accepts t.world e ans → AcceptRight ans t.world.srv t'.world.srv) ↔
        Seats t e) :=
  ⟨(tableInv_of_seats hr).table, fun _ _ hs =>
    (tableInv_step (tableInv_of_seats hr) (good_table hr.of_restrict) hs).1⟩

/-- The completion of an accept is no accept. -/
theorem not_accepts_accepted (w : World Os) (k : ℕ) (ans : Answers Os) :
    ¬ Accepts w (.accepted k) ans := by
  rintro ⟨_, _, _, he, _⟩
  cases he

/-- The table while the first connection waits to be taken. -/
def Table.connecting : Table Os := ⟨World.connecting, (Table.initial true : Table Os).keyOf⟩

theorem Table.step_connecting (env : Env Os) :
    Table.Step env (Table.initial true) (.accepted 0) Table.connecting :=
  .other (World.step_connecting env) (not_accepts_accepted _ 0)

/-- The first connection waits to be taken. -/
theorem accepts_connecting (ans : Answers Os) :
    Accepts Table.connecting.world (.dequeue 0 0 ans) ans :=
  ⟨0, ⟨.recv, 1, 0, 0, .done 0⟩, 0, rfl, rfl, rfl⟩

/-- The first connection is seated. -/
theorem slotTable_of_seats_connected : ∃ t, t.world = World.connected () ∧ SlotTable t := by
  have hfirst : Seats (Table.initial true) (.accepted 0 : Event Unit) := fun ans hacc =>
    (not_accepts_accepted _ 0 ans hacc).elim
  have hsecond : Seats Table.connecting (.dequeue 0 0 (.allYes ())) := by
    rintro ans ⟨_, _, _, he, _⟩
    cases he
    exact ⟨rfl, 1, by decide, by decide, rfl⟩
  have hr : ((tableMachine Env.sample true).restrict Seats).Reachable Table.connecting :=
    .step (.init rfl) ⟨hfirst, Table.step_connecting Env.sample⟩
  have hr' := hr.step ⟨hsecond, .accepts (World.step_connected Env.sample ())
    (accepts_connecting (.allYes ()))⟩
  exact ⟨_, rfl, (slotTable_of_seats Env.sample true hr').1⟩

/-- The answers of an accept whose association fails. -/
def Answers.unassociated : Answers Unit := { Answers.allYes () with associated := false }

/-- The first client's socket cannot be associated, and stays in its slot. -/
theorem not_slotTable_unassociated : ¬ ∀ t, (tableMachine Env.sample true).Reachable t →
    SlotTable t ∧ ∀ (e : Event Unit) (t' : Table Unit), Table.Step Env.sample t e t' →
      ∀ ans, Accepts t.world e ans → AcceptRight ans t.world.srv t'.world.srv := by
  intro hall
  have hacc := accepts_connecting Answers.unassociated
  have hs : World.Step Env.sample World.connecting (.dequeue 0 0 .unassociated) _ :=
    .dequeue (w := World.connecting) (i := 0) (o := ⟨.recv, 1, 0, 0, .done 0⟩) rfl rfl rfl
  have hr : (tableMachine Env.sample true).Reachable Table.connecting :=
    .step (.init rfl) (Table.step_connecting Env.sample)
  have hright := (hall _ hr).2 _ _ (.accepts hs hacc) _ hacc
  obtain ⟨hfree, _⟩ := hright.undone 1 rfl rfl
  cases acceptMove_step World.good_connecting hs hacc with
  | refused hfull => cases hfull
  | seated i hfound hsock =>
    obtain rfl : 1 = i := Option.some.inj hfound
    rw [hsock, if_pos rfl] at hfree
    cases hfree

end Tcp
end BsitLabs
