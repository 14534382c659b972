import BsitLabs.Tcp.Exchange

/-!
# Outstanding operations: whose they are, and whether they get lost

Two properties of the operations outstanding or queued under the completion keys.

The first holds in every run.  A completion carries only an index and the address
of a block inside a context that is cleared and reused, so nothing in it says which
connection it belongs to.  It need not: a slot has at most one operation
(`SlotState`), so nothing of an earlier connection can be left when the slot is
taken again.

The second holds as long as nothing fails.  `Served` says that the listener and
every connection have one operation under way.  The loop drops every completion
that reports an error and no handler looks at the result of the call that starts
the next operation, so `Served` survives a step exactly when neither happens
(`served_step_iff`): an operation that fails takes its slot with it.
-/

namespace BsitLabs
namespace Tcp

open MachineInt Transition

variable {Os : Type} {env : Env Os}

/-! ## Nothing of an earlier connection is left -/

/-- A closed socket stays closed. -/
theorem closed_subset_exec (env : Env Os) (ans : Answers Os) (w : World Os) (i : Slot)
    (block : Block) (n : ℕ) :
    w.srv.handles.closed ⊆ (w.exec env ans i block n).srv.handles.closed := by
  unfold World.exec
  split
  · rcases acceptIteration_cases ans w n with ⟨i, _, hsrv, _⟩ | ⟨_, hsrv, _⟩
    · rw [hsrv]
      exact List.Subset.refl _
    · rw [hsrv]
      exact List.subset_append_left _ _
  · cases block with
    | recv =>
      rcases recvIteration_cases env ans w i n with ⟨_, h⟩ | ⟨_, f, _, h⟩ | ⟨_, s, hrun, h⟩
      · simp only [h]
        exact List.Subset.refl _
      · simp only [h]
        exact List.Subset.refl _
      · simp only [h]
        exact (overlapRecvHandler_local hrun).closed ▸ List.Subset.refl _
    | send => exact (overlapSendHandler_local w.srv i n).closed ▸ List.Subset.refl _
    | cancel => exact List.subset_append_left _ _

theorem closed_subset_step {w w' : World Os} {e : Event Os} (hs : World.Step env w e w') :
    w.srv.handles.closed ⊆ w'.srv.handles.closed := by
  cases hs with
  | @dequeue i k n ans o running ho hst =>
    exact closed_subset_exec env ans (w.setPending i ((w.pending i).eraseIdx k)) i o.block n
  | _ => exact List.Subset.refl _

/-- No client slot has an operation of a closed connection. -/
theorem Good.sock_not_mem_closed {w : World Os} (h : Good w) {i : Slot} (hi : i ≠ 0) {k : ℕ}
    {o : Op} (ho : (w.pending i)[k]? = some o) : o.sock ∉ w.srv.handles.closed := by
  obtain ⟨_, _, hsock, hop⟩ := (h.slots i hi).of_getElem? ho
  rw [hop.sock]
  exact h.sockets.live i hsock

/-- After a connection has been closed, no operation of it turns up again. -/
theorem not_pending_of_closed {accepting : Bool} {w w' : World Os} {c : ℕ}
    (hr : (machine env accepting).Reachable w) (hc : c ∈ w.srv.handles.closed)
    (hsteps : (machine env accepting).Steps w w') {i : Slot} (hi : i ≠ 0) {k : ℕ} {o : Op}
    (ho : (w'.pending i)[k]? = some o) : o.sock ≠ c := by
  have hlater := Machine.Steps.invariant (P := fun v => c ∈ v.srv.handles.closed)
    (fun _ _ _ _ hmem hs => closed_subset_step hs hmem) hr hsteps hc
  intro heq
  exact (good_reachable hlater.1).sock_not_mem_closed hi ho (heq ▸ hlater.2)

/-- **No stale completion reaches a new owner.**  In every run, whatever fails: a
successful completion dequeued under a client key was started by the connection
that holds the slot; the completion that closes a connection is the slot's only
operation; and once it has been handled, the connection has no operation under any
key again, so it is closed once. -/
theorem completion_of_occupant (env : Env Os) (accepting : Bool) {w : World Os}
    (hr : (machine env accepting).Reachable w) {i : Slot} (hi : i ≠ 0) {k n : ℕ} {o : Op}
    (ho : (w.pending i)[k]? = some o) (hst : o.status = .done n) :
    (o.sock ≠ 0 ∧ o.sock = (w.srv.gCtxs i).socket) ∧
    (o.block = .cancel →
      (∀ (k' : ℕ) (o' : Op), (w.pending i)[k']? = some o' → k' = k) ∧
      o.sock ∉ w.srv.handles.closed ∧
      ∀ ans w' w'', (machine env accepting).step w (.dequeue i k ans) w' →
        w'.srv.handles.closed = w.srv.handles.closed ++ [o.sock] ∧
        ((machine env accepting).Steps w' w'' →
          ∀ j, j ≠ 0 → ∀ (k' : ℕ) (o' : Op),
            (w''.pending j)[k']? = some o' → o'.sock ≠ o.sock)) := by
  have hg := good_reachable hr
  obtain ⟨hops, hk, hsock, hop⟩ := (hg.slots i hi).of_getElem? ho
  refine ⟨⟨hop.sock ▸ hsock, hop.sock⟩, fun hb => ⟨fun k' o' ho' => ?_, ?_, ?_⟩⟩
  · rw [hk]
    exact ((hg.slots i hi).of_getElem? ho').2.1
  · exact hg.sock_not_mem_closed hi ho
  · intro ans w' w'' hs
    have hclosed : w'.srv.handles.closed = w.srv.handles.closed ++ [o.sock] := by
      rw [World.Step.dequeue_eq hs ho hst, hop.sock]
      simp only [World.exec, if_neg hi, hb]
      rfl
    refine ⟨hclosed, fun hsteps j hj k' o' ho' => ?_⟩
    refine not_pending_of_closed (hr.step hs) ?_ hsteps hj ho'
    rw [hclosed]
    exact List.mem_append_right _ (List.mem_singleton.mpr rfl)

/-- The completion that closes the first client. -/
theorem completion_of_occupant_first : ∃ w, (machine Env.sample true).Reachable w ∧
    (w.pending 1)[0]? = some ⟨.cancel, 2, 0, 0, .done 0⟩ ∧ 2 = (w.srv.gCtxs 1).socket := by
  obtain ⟨w, hs₁, hs₂, _, hops⟩ := (reads_connected ()).hangsUp Env.sample ()
  have hr : (machine Env.sample true).Reachable w :=
    ((reachable_connected Env.sample ()).step hs₁).step hs₂
  have ho : (w.pending 1)[0]? = some ⟨.cancel, 2, 0, 0, .done 0⟩ := by
    rw [hops, World.connected_ctx]
    rfl
  exact ⟨w, hr, ho, (completion_of_occupant Env.sample true hr (by decide) ho rfl).1.2⟩

/-! ## One operation for every connection -/

/-- Between two iterations: one accept is outstanding or queued, every occupied
client slot has one operation outstanding or queued, and every free slot none. -/
structure Served (w : World Os) : Prop where
  listener : (w.pending 0).length = 1
  occupied : ∀ i, i ≠ 0 → (w.srv.gCtxs i).socket ≠ 0 → (w.pending i).length = 1
  free : ∀ i, i ≠ 0 → (w.srv.gCtxs i).socket = 0 → w.pending i = []

/-- Every call that the iteration with the dequeued operation `o` makes to start an
operation succeeds. -/
def CallsSucceed (ans : Answers Os) (w : World Os) (i : Slot) (o : Op) : Prop :=
  if i = 0 then
    ans.accepting = true ∧
      ((findFree w.srv).isSome → ans.associated = true ∧ ans.started = true)
  else match o.block with
    | .recv => if o.status = .done 0 then ans.posted = true else ans.started = true
    | .send => ans.started = true
    | .cancel => True

/-- The step dequeues no completion with an error, and no call in it that starts an
operation fails at once. -/
def NothingFails (w : World Os) : Event Os → Prop
  | .dequeue i k ans =>
    ∀ o, (w.pending i)[k]? = some o → o.status ≠ .failed ∧ CallsSucceed ans w i o
  | _ => True

/-- The number of operations of every slot and the occupation of every slot decide. -/
theorem Served.of_counts {w w' : World Os} (h : Served w)
    (hsock : ∀ j, (w'.srv.gCtxs j).socket = (w.srv.gCtxs j).socket)
    (hlen : ∀ j, (w'.pending j).length = (w.pending j).length) : Served w' where
  listener := by rw [hlen, h.listener]
  occupied i hi hne := by
    rw [hsock] at hne
    rw [hlen, h.occupied i hi hne]
  free i hi hz := by
    rw [hsock] at hz
    rw [← List.length_eq_zero_iff, hlen, h.free i hi hz, List.length_nil]

/-- When one client slot has changed, that slot decides. -/
theorem Served.iff_of_others {w v : World Os} (h : Served w) {i : Slot} (hi : i ≠ 0)
    (hctx : ∀ j, j ≠ i → v.srv.gCtxs j = w.srv.gCtxs j)
    (hpend : ∀ j, j ≠ i → v.pending j = w.pending j) :
    Served v ↔ (v.pending i).length = if (v.srv.gCtxs i).socket = 0 then 0 else 1 := by
  constructor
  · intro h'
    split
    · rw [h'.free i hi ‹_›, List.length_nil]
    · exact h'.occupied i hi ‹_›
  · intro hslot
    refine ⟨?_, fun j hj hne => ?_, fun j hj hz => ?_⟩
    · rw [hpend 0 hi.symm]
      exact h.listener
    · by_cases hji : j = i
      · subst hji
        rw [hslot, if_neg hne]
      · rw [hctx j hji] at hne
        rw [hpend j hji]
        exact h.occupied j hj hne
    · by_cases hji : j = i
      · subst hji
        rw [← List.length_eq_zero_iff, hslot, if_pos hz]
      · rw [hctx j hji] at hz
        rw [hpend j hji]
        exact h.free j hj hz

/-- The slot of a request that has been started, or failed to start, is served
exactly when it was started. -/
theorem served_submit_iff {w v : World Os} (h : Served w) {i : Slot} (hi : i ≠ 0)
    {ans : Answers Os} {req : Request} (hctx : ∀ j, j ≠ i → v.srv.gCtxs j = w.srv.gCtxs j)
    (hpend : ∀ j, j ≠ i → v.pending j = w.pending j) (hnone : v.pending i = [])
    (hsock : (v.srv.gCtxs i).socket ≠ 0) :
    Served (v.submit ans i req) ↔ req.starts ans = true := by
  have hothers : ∀ j, j ≠ i → (v.submit ans i req).pending j = w.pending j := by
    intro j hj
    rw [World.submit_pending_of_ne _ _ _ _ hj, hpend j hj]
  rw [h.iff_of_others hi (v := v.submit ans i req) hctx hothers,
    World.submit_pending_self _ _ _ _ hnone, World.submit_srv, if_neg hsock]
  cases req.starts ans <;> simp

/-- An iteration with key zero keeps every slot served exactly when its calls
succeed. -/
theorem served_acceptIteration_iff {w : World Os} (hg : Good w) (h : Served w)
    (ans : Answers Os) (n : ℕ) :
    Served ((w.setPending 0 []).acceptIteration ans n) ↔
      ans.accepting = true ∧
        ((findFree w.srv).isSome → ans.associated = true ∧ ans.started = true) := by
  have hlistener : (((w.setPending 0 []).acceptIteration ans n).pending 0).length = 1 ↔
      ans.accepting = true := by
    rw [acceptIteration_pending_zero ans n (w := w.setPending 0 []) hg.sockets.listener,
      World.setPending_pending_self]
    cases ans.accepting <;> simp
  have hidle : ∀ j, j ≠ 0 → (w.setPending 0 []).pending j = w.pending j := fun j hj =>
    World.setPending_pending_of_ne _ _ hj _
  rcases (hg.of_setPending_zero []).acceptIteration_cases ans n with ⟨i, ha⟩ | hr
  · have hpos : w.srv.gAcceptedSocket ≠ 0 :=
      (lt_of_le_of_lt (Nat.zero_le _) (hg.sockets.below 0)).ne'
    have hslot : (((w.setPending 0 []).acceptIteration ans n).pending i).length = 1 ↔
        ans.associated = true ∧ ans.started = true := by
      rw [ha.ops, ← Bool.and_eq_true]
      split <;> simp [*]
    have hfound : (findFree w.srv).isSome := Option.isSome_iff_exists.mpr ⟨i, ha.found⟩
    constructor
    · intro h'
      refine ⟨hlistener.mp h'.listener, fun _ => hslot.mp (h'.occupied i ha.slot ?_)⟩
      rw [ha.ctx]
      exact hpos
    · rintro ⟨hacc, hrest⟩
      refine ⟨hlistener.mpr hacc, fun j hj hne => ?_, fun j hj hz => ?_⟩
      · by_cases hji : j = i
        · rw [hji]
          exact hslot.mpr (hrest hfound)
        · obtain ⟨hctx, hpend⟩ := ha.others j hj hji
          rw [hctx] at hne
          rw [hpend, hidle j hj]
          exact h.occupied j hj hne
      · by_cases hji : j = i
        · rw [hji, ha.ctx] at hz
          exact absurd hz hpos
        · obtain ⟨hctx, hpend⟩ := ha.others j hj hji
          rw [hctx] at hz
          rw [hpend, hidle j hj]
          exact h.free j hj hz
  · have hfull : findFree w.srv = none := hr.full
    constructor
    · intro h'
      exact ⟨hlistener.mp h'.listener, fun hsome => by simp [hfull] at hsome⟩
    · rintro ⟨hacc, _⟩
      refine ⟨hlistener.mpr hacc, fun j hj hne => ?_, fun j hj hz => ?_⟩
      · rw [(hr.others j hj).1] at hne
        rw [(hr.others j hj).2, hidle j hj]
        exact h.occupied j hj hne
      · rw [(hr.others j hj).1] at hz
        rw [(hr.others j hj).2, hidle j hj]
        exact h.free j hj hz

/-- An iteration with a client key keeps every slot served exactly when the call it
makes to start the next operation succeeds. -/
theorem served_exec_iff {w : World Os} (hg : Good w) (h : Served w) {i : Slot} (hi : i ≠ 0)
    {k n : ℕ} {o : Op} {ans : Answers Os} (ho : (w.pending i)[k]? = some o)
    (hst : o.status = .done n)
    (hrun : ((w.setPending i []).exec env ans i o.block n).fault = none) :
    Served ((w.setPending i []).exec env ans i o.block n) ↔ CallsSucceed ans w i o := by
  obtain ⟨_, _, hsock, _⟩ := (hg.slots i hi).of_getElem? ho
  have hnone : (w.setPending i []).pending i = [] := World.setPending_pending_self _ _ _
  have hpend : ∀ j, j ≠ i → (w.setPending i []).pending j = w.pending j := fun j hj =>
    World.setPending_pending_of_ne _ _ hj _
  unfold CallsSucceed
  rw [if_neg hi]
  unfold World.exec at hrun ⊢
  rw [if_neg hi] at hrun ⊢
  cases hb : o.block with
  | recv =>
    rw [hb] at hrun
    rcases recvIteration_cases env ans (w.setPending i []) i n with
      ⟨rfl, heq⟩ | ⟨_, f, _, heq⟩ | ⟨hn, s, hok, heq⟩
    · simp only [heq, if_pos hst]
      exact served_submit_iff h hi (v := w.setPending i []) (fun _ _ => rfl) hpend hnone hsock
    · simp [heq] at hrun
    · have hloc := overlapRecvHandler_local hok
      have hne : o.status ≠ .done 0 := by
        rw [hst]
        exact fun heq => hn (Status.done.inj heq)
      simp only [heq, if_neg hne]
      refine served_submit_iff h hi (v := ((w.setPending i []).actOn i n).reply ans i s)
        (fun j hj => hloc.others j hj) hpend hnone ?_
      rw [show (((w.setPending i []).actOn i n).reply ans i s).srv = s from rfl, hloc.socket_eq]
      exact hsock
  | send =>
    have hloc := overlapSendHandler_local (w.setPending i []).srv i n
    have hstarts : (overlapSendHandler (w.setPending i []).srv i n).2.starts ans =
        ans.started := by
      rcases overlapSendHandler_cases (w.setPending i []).srv i n with ⟨_, hreq⟩ | ⟨_, hreq⟩
      · rw [hreq]
        rfl
      · rw [hreq]
        rfl
    rw [← hstarts]
    refine served_submit_iff h hi (v := { w.setPending i [] with
      srv := (overlapSendHandler (w.setPending i []).srv i n).1 })
      (fun j hj => hloc.others j hj) hpend hnone ?_
    rw [hloc.socket_eq]
    exact hsock
  | cancel =>
    refine iff_of_true ?_ trivial
    refine (h.iff_of_others hi (v := { w.setPending i [] with
      srv := overlapCancelHandler (w.setPending i []).srv i }) (fun j hj => ?_) hpend).mpr ?_
    · simp [overlapCancelHandler, Server.setCtx, hj]
    · simp [overlapCancelHandler, Server.setCtx, ClientCtx.zero]

/-- **An operation that fails is lost, and nothing else is**: a step from a state in
which every slot is served leaves every slot served exactly when nothing fails in
it. -/
theorem served_step_iff {w w' : World Os} {e : Event Os} (hg : Good w) (h : Served w)
    (hs : World.Step env w e w') (hrun : w'.fault = none) : Served w' ↔ NothingFails w e := by
  have hset : ∀ (v : World Os) (i : Slot) (k : ℕ) (o : Op), v.pending = w.pending →
      (∀ j, (v.srv.gCtxs j).socket = (w.srv.gCtxs j).socket) →
      Served (v.setPending i ((w.pending i).set k o)) := by
    intro v i k o hpend hsock
    refine h.of_counts hsock fun j => ?_
    by_cases hj : j = i
    · subst hj
      rw [World.setPending_pending_self, List.length_set]
    · rw [World.setPending_pending_of_ne _ _ hj, hpend]
  cases hs with
  | accepted running ho hst => exact iff_of_true (hset w 0 _ _ rfl fun _ => rfl) trivial
  | @received i k data o running hi ho hst hb hlen =>
    have hloc : w.srv.Local i (w.store i o.off data).srv := w.srv.local_setCtx rfl
    exact iff_of_true (hset (w.store i o.off data) i _ _ rfl hloc.socket_eq) trivial
  | @sent i k n o running hi ho hst hb hlen =>
    exact iff_of_true (hset (w.deliver i o n) i _ _ rfl fun _ => rfl) trivial
  | failed running ho hst => exact iff_of_true (hset w _ _ _ rfl fun _ => rfl) trivial
  | @dequeue i k n ans o running ho hst =>
    have hfails : NothingFails w (.dequeue i k ans) ↔ CallsSucceed ans w i o := by
      constructor
      · intro hnf
        exact (hnf o ho).2
      · intro hcalls o' ho'
        obtain rfl := Option.some.inj (ho.symm.trans ho')
        exact ⟨by simp [hst], hcalls⟩
    rw [hfails]
    have herase : (w.pending i).eraseIdx k = [] := by
      have hlen : (w.pending i).length = 1 := by
        by_cases hi : i = 0
        · rw [hi]
          exact h.listener
        · exact h.occupied i hi ((hg.slots i hi).of_getElem? ho).2.2.1
      obtain ⟨o', hops⟩ := List.length_eq_one_iff.mp hlen
      have hk : k < 1 := hlen ▸ (List.getElem?_eq_some_iff.mp ho).1
      obtain rfl : k = 0 := by omega
      rw [hops]
      rfl
    rw [herase] at hrun ⊢
    by_cases hi : i = 0
    · subst hi
      unfold CallsSucceed World.exec
      rw [if_pos rfl, if_pos rfl]
      exact served_acceptIteration_iff hg h ans n
    · exact served_exec_iff hg h hi ho hst hrun
  | @dropped i k ans o running ho hst =>
    refine iff_of_false (fun h' => ?_) fun hnf => (hnf o ho).1 hst
    have hlt := (List.getElem?_eq_some_iff.mp ho).1
    by_cases hi : i = 0
    · subst hi
      have hone := h'.listener
      have hlen := h.listener
      rw [World.setPending_pending_self, List.length_eraseIdx_of_lt hlt] at hone
      omega
    · have hsock := ((hg.slots i hi).of_getElem? ho).2.2.1
      have hone := h'.occupied i hi hsock
      have hlen := h.occupied i hi hsock
      rw [World.setPending_pending_self, List.length_eraseIdx_of_lt hlt] at hone
      omega

theorem served_initial : Served (World.initial true : World Os) where
  listener := rfl
  occupied i hi hne := by simp [World.initial, hi, ClientCtx.zero] at hne
  free i hi _ := by simp [World.initial, hi]

/-- **No lost slot and no lost listener**, in the runs in which nothing fails: in
every state between two iterations one accept is outstanding or queued, every
occupied client slot has one operation, and every free slot has none. -/
theorem served_of_nothingFails (env : Env Os) {w : World Os}
    (hr : ((machine env true).restrict NothingFails).Reachable w) (hrun : w.fault = none) :
    Served w := by
  refine hr.invariant (P := fun v => v.fault = none → Served v) (fun s hi _ => ?_)
    (fun v e v' hv hP hs hrun' => ?_) hrun
  · obtain rfl : s = World.initial true := hi
    exact served_initial
  · have hg := good_reachable hv.of_restrict
    exact (served_step_iff hg (hP hs.2.running) hs.2 hrun').mpr hs.1

theorem nothingFails_connected (env : Env Os) (os : Os) :
    ((machine env true).restrict NothingFails).Reachable (World.connected os) := by
  have hconnecting : ((machine env true).restrict NothingFails).Reachable World.connecting :=
    .step (.init rfl) (e := .accepted 0) ⟨trivial, World.step_connecting env⟩
  have hnothing : NothingFails World.connecting (.dequeue 0 0 (.allYes os)) := by
    intro o ho
    obtain rfl : (⟨.recv, 1, 0, 0, .done 0⟩ : Op) = o := Option.some.inj ho
    exact ⟨by simp, rfl, fun _ => ⟨rfl, rfl⟩⟩
  exact hconnecting.step ⟨hnothing, World.step_connected env os⟩

theorem served_of_nothingFails_connected : Served (World.connected ()) :=
  served_of_nothingFails Env.sample (nothingFails_connected Env.sample ())
    (World.connected_fault ())

/-- The first client resets its connection while the server reads: the completion is
an error, the loop drops it, and the slot is occupied with nothing outstanding. -/
theorem not_served_after_reset :
    ¬ ∀ w, (machine Env.sample true).Reachable w → w.fault = none → Served w := by
  intro hall
  have hget : ((World.connected ()).pending 1)[0]? = some ⟨.recv, 2, 0, bufSize, .posted⟩ := by
    rw [World.connected_pending]
    rfl
  have hfail : World.Step Env.sample (World.connected ()) (.failed 1 0) _ :=
    .failed (World.connected_fault ()) hget rfl
  have hr := (reachable_connected Env.sample ()).step (M := machine Env.sample true) hfail
  rw [World.connected_pending, List.set_cons_zero] at hr
  have hget' : (((World.connected ()).setPending 1
      [⟨.recv, 2, 0, bufSize, .failed⟩]).pending 1)[0]? =
      some ⟨.recv, 2, 0, bufSize, .failed⟩ := by
    rw [World.setPending_pending_self]
    rfl
  have hdrop : World.Step Env.sample
      ((World.connected ()).setPending 1 [⟨.recv, 2, 0, bufSize, .failed⟩])
      (.dequeue 1 0 (.allYes ())) _ := .dropped (World.connected_fault ()) hget' rfl
  have hserved := hall _ (hr.step (M := machine Env.sample true) hdrop) (World.connected_fault ())
  have hone := hserved.occupied 1 (by decide) (by
    simp [World.connected_ctx])
  simp at hone

end Tcp
end BsitLabs
