import BsitLabs.Tcp.Isolation

/-!
# Overlapped operations

`WSARecv` and `WSASend` get a pointer into the context of their slot and come back before they
are done; until the operation has completed the buffer belongs to the system, and the context
must stay where it is.  The server keeps to that: between the call and the iteration that
dequeues its completion nothing happens to the slot but the completion itself, which for a
receive stores the bytes that came (`untouched_while_outstanding`).  In particular the slot is
not cleared and not given away.
-/

namespace BsitLabs
namespace Tcp

open MachineInt Transition

variable {Os : Type} {env : Env Os}

/-- What can happen to a slot with an operation. -/
inductive Concerns (o : Op) : ConnEvent Os → Prop where
  | received {data : List UInt8} (hb : o.block = .recv) (hst : o.status = .posted)
      (hlen : data.length ≤ bufSize) : Concerns o (.received data)
  | sent {n : ℕ} (hb : o.block = .send) (hst : o.status = .posted) (hlen : n ≤ o.len) :
      Concerns o (.sent n)
  | failed (hst : o.status = .posted) : Concerns o .failed
  | dequeued {ans : Answers Os} {key : ℕ} : Concerns o (.dequeued ans key)

/-- An operation that has completed waits for its completion to be dequeued. -/
theorem Concerns.eq_dequeued {o : Op} {d : ConnEvent Os} (h : Concerns o d)
    (hst : o.status ≠ .posted) : ∃ ans key, d = .dequeued ans key := by
  cases h with
  | received _ hposted _ => exact absurd hposted hst
  | sent _ hposted _ => exact absurd hposted hst
  | failed hposted => exact absurd hposted hst
  | dequeued => exact ⟨_, _, rfl⟩

/-- **A slot with an operation is concerned by that operation only**: it is not free, so no
connection is seated there. -/
theorem concerns_of_sees {w w' : World Os} (hg : Good w) {i : Slot} (hi : i ≠ 0) {o : Op}
    (hops : w.pending i = [o]) {e : Event Os} (hs : World.Step env w e w') {d : ConnEvent Os}
    (hd : Conn.sees i w e = some d) : Concerns o d := by
  have hget : ∀ {k : ℕ} {o' : Op}, (w.pending i)[k]? = some o' → o' = o ∧
      OpState (w.srv.gCtxs i) o := fun ho' => by
    obtain ⟨hops', _, _, hop⟩ := (hg.slots i hi).of_getElem? ho'
    obtain rfl := List.singleton_inj.mp (hops'.symm.trans hops)
    exact ⟨rfl, hop⟩
  cases e with
  | accepted k => cases hd
  | received j k data =>
    simp only [Conn.sees, Option.ite_none_right_eq_some, Option.some.injEq] at hd
    obtain ⟨rfl, rfl⟩ := hd
    cases hs with
    | received running hj ho hst hb hlen =>
      obtain ⟨rfl, hop⟩ := hget ho
      exact .received hb hst (hlen.trans_eq (hop.of_recv hb).2.2.1)
  | sent j k n =>
    simp only [Conn.sees, Option.ite_none_right_eq_some, Option.some.injEq] at hd
    obtain ⟨rfl, rfl⟩ := hd
    cases hs with
    | sent running hj ho hst hb hlen =>
      obtain ⟨rfl, _⟩ := hget ho
      exact .sent hb hst hlen
  | failed j k =>
    simp only [Conn.sees, Option.ite_none_right_eq_some, Option.some.injEq] at hd
    obtain ⟨rfl, rfl⟩ := hd
    cases hs with
    | failed running ho hst =>
      obtain ⟨rfl, _⟩ := hget ho
      exact .failed hst
  | dequeue j k ans =>
    by_cases hj : j = 0
    · -- a slot with an operation is not free
      subst hj
      have hbusy : findFree w.srv ≠ some i := fun hfree => by
        have hidle := ((hg.slots i hi).of_socket_eq_zero (findFree_eq_some hfree).1).2
        rw [hops] at hidle
        cases hidle
      simp only [Conn.sees, if_true, if_neg hbusy] at hd
      split at hd <;> cases hd
    · simp only [Conn.sees, if_neg hj, Option.ite_none_right_eq_some, Option.some.injEq] at hd
      obtain ⟨rfl, rfl⟩ := hd
      exact .dequeued

/-- What has happened to a slot since the operation `o` was outstanding there. -/
inductive Untouched (env : Env Os) (o : Op) (v : Conn) : Conn → Prop where
  | outstanding : Untouched env o v v
  | received {data : List UInt8} (hb : o.block = .recv) (hlen : data.length ≤ bufSize) :
      Untouched env o v (v.after env (.received data))
  | sent {n : ℕ} (hb : o.block = .send) (hlen : n ≤ o.len) :
      Untouched env o v (v.after env (.sent n))
  | failed : Untouched env o v (v.after env .failed)

/-- **An outstanding operation keeps its slot.**  In every run, whatever fails: from the moment an
operation is outstanding until its completion is dequeued, the slot's context with its buffers,
and what has gone over its connection, are as they were, or have changed by the one completion
of this operation. -/
theorem untouched_while_outstanding (env : Env Os) (accepting : Bool) {w w' : World Os}
    (hr : (machine env accepting).Reachable w) {i : Slot} (hi : i ≠ 0) {o : Op}
    (hops : w.pending i = [o]) {l : List (ConnEvent Os)}
    (hrun : (machine env accepting).Observes (Conn.sees i) l w w')
    (hno : ∀ ans key, .dequeued ans key ∉ l) : Untouched env o (w.conn i) (w'.conn i) := by
  induction hrun with
  | refl => exact .outstanding
  | unseen hrun hs hd ih =>
    rw [(component env accepting hi).unseen (hrun.reachable hr) hs hd]
    exact ih hr hops hno
  | @seen l v u u' e d hrun hs hd ih =>
    have hg := good_reachable (hrun.reachable hr)
    have hbefore := ih hr hops fun ans key hmem => hno ans key (List.mem_append_left _ hmem)
    have hlast : ∀ ans key, d ≠ .dequeued ans key := by
      rintro ans key rfl
      exact hno ans key (by simp)
    -- once the operation has completed, nothing but its completion concerns the slot
    have hcompleted : ∀ o' : Op, o'.status ≠ .posted → u.pending i ≠ [o'] := by
      intro o' hne hops'
      obtain ⟨ans, key, heq⟩ := (concerns_of_sees hg hi hops' hs hd).eq_dequeued hne
      exact hlast ans key heq
    rw [(component env accepting hi).seen (hrun.reachable hr) hs hd]
    generalize hv : u.conn i = v at hbefore
    cases hbefore with
    | outstanding =>
      cases concerns_of_sees hg hi ((congrArg Conn.ops hv).trans hops) hs hd with
      | received hb _ hlen => exact .received hb hlen
      | sent hb _ hlen => exact .sent hb hlen
      | failed _ => exact .failed
      | dequeued => exact absurd rfl (hlast _ _)
    | @received data _ _ =>
      exact absurd ((congrArg Conn.ops hv).trans (by simp [Conn.after, World.conn, hops]))
        (hcompleted { o with status := .done data.length } (by simp))
    | @sent n _ _ =>
      exact absurd ((congrArg Conn.ops hv).trans (by simp [Conn.after, World.conn, hops]))
        (hcompleted { o with status := .done n } (by simp))
    | failed =>
      exact absurd ((congrArg Conn.ops hv).trans (by simp [Conn.after, World.conn, hops]))
        (hcompleted { o with status := .failed } (by simp))

/-- The first client's first receive: what it brings is stored, and nothing else happens. -/
theorem untouched_while_outstanding_sample : ∃ w : World Unit,
    Untouched Env.sample ⟨.recv, 2, 0, bufSize, .posted⟩ ((World.connected ()).conn 1)
      (w.conn 1) ∧ (w.srv.gCtxs 1).bufRecv.slice 0 2 = [0, 6] := by
  have hne : ([0, 6] : List UInt8) ≠ [] := List.cons_ne_nil _ _
  obtain ⟨hrecv, hhas, _⟩ := (reads_connected ()).receives Env.sample hne (by decide)
  exact ⟨_, untouched_while_outstanding Env.sample true (reachable_connected Env.sample ())
    (by decide) (World.connected_pending ()) (.seen (.refl _) hrecv rfl) (by simp),
    hhas.holds.bytes⟩

end Tcp
end BsitLabs
