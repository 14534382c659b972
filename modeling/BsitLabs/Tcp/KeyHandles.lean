import BsitLabs.Foundation.Ledger
import BsitLabs.Tcp.Exchange

/-!
# What becomes of the session keys

`CryptGenKey` hands out a key for every key packet, and `CryptDestroyKey` takes one back
for every connection that closes.  But `overlap_cancel_handler` clears the context first
and destroys the key it finds there then, which is none; and `form_answ_key` puts the new
key over the old one.  So a step is one of three to the books of the keys
(`keyBooks_step`): it gives a key to a slot, forgets that of a slot, or does nothing.

The books are in order in every run in which neither happens to a slot that has a key,
and the first time it does they are not (`keysAccounted_step_iff`).
-/

namespace BsitLabs
namespace Tcp

open MachineInt Transition

variable {Os : Type} {env : Env Os}

/-- The keys handed out, those in the contexts and those destroyed. -/
def Server.keyBooks (s : Server) : Ledger Slot where
  held i := (s.gCtxs i).key
  made := s.handles.keys.length
  destroyed := s.handles.destroyed

/-- The keys that are out are those in the key fields of the occupied slots, and every
other key that was handed out has been destroyed once. -/
structure KeysAccounted (s : Server) : Prop where
  live : ∀ k, (1 ≤ k ∧ k ≤ s.handles.keys.length ∧ k ∉ s.handles.destroyed) ↔
    (k ≠ 0 ∧ ∃ i, (s.gCtxs i).socket ≠ 0 ∧ (s.gCtxs i).key = k)
  once : ∀ k, 1 ≤ k → k ≤ s.handles.keys.length →
    (∀ i, (s.gCtxs i).socket ≠ 0 → (s.gCtxs i).key ≠ k) → s.handles.destroyed.count k = 1

/-! ## What a step does to the books -/

/-- The step closes the connection of a slot. -/
def ClosesSlot (w : World Os) (e : Event Os) (i : Slot) : Prop :=
  i ≠ 0 ∧ ∃ (k : ℕ) (ans : Answers Os) (o : Op) (n : ℕ), e = .dequeue i k ans ∧
    (w.pending i)[k]? = some o ∧ o.status = .done n ∧ o.block = .cancel

/-- The step answers a key packet that has come to a slot. -/
def AnswersKey (env : Env Os) (w : World Os) (e : Event Os) (i : Slot) : Prop :=
  i ≠ 0 ∧ ∃ (k : ℕ) (ans : Answers Os) (o : Op) (n : ℕ), e = .dequeue i k ans ∧
    (w.pending i)[k]? = some o ∧ o.status = .done n ∧ o.block = .recv ∧ n ≠ 0 ∧
      KeyAccepted env ans ((w.srv.gCtxs i).count n)

/-- No slot that has a key is closed or given another. -/
def KeyKept (env : Env Os) (w : World Os) (e : Event Os) : Prop :=
  ∀ i, ClosesSlot w e i ∨ AnswersKey env w e i → (w.srv.gCtxs i).key = 0

/-- What a step does to the books. -/
inductive KeyMove (env : Env Os) (w : World Os) (e : Event Os) (w' : World Os) : Prop where
  | same (hclose : ∀ i, ¬ ClosesSlot w e i) (hkey : ∀ i, ¬ AnswersKey env w e i)
      (hbooks : w'.srv.keyBooks = w.srv.keyBooks)
  | given (i : Slot) (hkey : AnswersKey env w e i)
      (hbooks : w'.srv.keyBooks = w.srv.keyBooks.give i)
  | forgotten (i : Slot) (hclose : ClosesSlot w e i)
      (hbooks : w'.srv.keyBooks = w.srv.keyBooks.forget i)

/-- A step that closes or answers dequeues a completion of the slot. -/
theorem slot_of_dequeue {w : World Os} {e : Event Os} {i : Slot}
    (h : ClosesSlot w e i ∨ AnswersKey env w e i) : ∃ k ans, e = .dequeue i k ans := by
  rcases h with ⟨_, k, ans, _, _, he, _⟩ | ⟨_, k, ans, _, _, he, _⟩
  · exact ⟨k, ans, he⟩
  · exact ⟨k, ans, he⟩

/-- The completion that is dequeued is the one that may close a slot. -/
theorem closesSlot_dequeue_iff {w : World Os} {i j : Slot} {k : ℕ} {ans : Answers Os} {o : Op}
    (ho : (w.pending i)[k]? = some o) :
    ClosesSlot w (.dequeue i k ans) j ↔
      j = i ∧ i ≠ 0 ∧ (∃ n, o.status = .done n) ∧ o.block = .cancel := by
  constructor
  · rintro ⟨hj, _, _, o', n, he, ho', hst, hb⟩
    cases he
    obtain rfl := Option.some.inj (ho.symm.trans ho')
    exact ⟨rfl, hj, ⟨n, hst⟩, hb⟩
  · rintro ⟨rfl, hi, ⟨n, hst⟩, hb⟩
    exact ⟨hi, k, ans, o, n, rfl, ho, hst, hb⟩

/-- And the one that may be answered. -/
theorem answersKey_dequeue_iff {w : World Os} {i j : Slot} {k : ℕ} {ans : Answers Os} {o : Op}
    (ho : (w.pending i)[k]? = some o) :
    AnswersKey env w (.dequeue i k ans) j ↔
      j = i ∧ i ≠ 0 ∧ ∃ n, o.status = .done n ∧ o.block = .recv ∧ n ≠ 0 ∧
        KeyAccepted env ans ((w.srv.gCtxs i).count n) := by
  constructor
  · rintro ⟨hj, _, _, o', n, he, ho', hst, hb, hn, hacc⟩
    cases he
    obtain rfl := Option.some.inj (ho.symm.trans ho')
    exact ⟨rfl, hj, n, hst, hb, hn, hacc⟩
  · rintro ⟨rfl, hi, n, hst, hb, hn, hacc⟩
    exact ⟨hi, k, ans, o, n, rfl, ho, hst, hb, hn, hacc⟩

/-- The step neither closes a slot nor answers a key packet. -/
def Quiet (env : Env Os) (w : World Os) (e : Event Os) : Prop :=
  ∀ i, ¬ ClosesSlot w e i ∧ ¬ AnswersKey env w e i

theorem quiet_of_ne {w : World Os} {e : Event Os} (h : ∀ i k ans, e ≠ .dequeue i k ans) :
    Quiet env w e := by
  refine fun i => ⟨fun hc => ?_, fun ha => ?_⟩
  · have hor : ClosesSlot w e i ∨ AnswersKey env w e i := .inl hc
    obtain ⟨k, ans, he⟩ := slot_of_dequeue hor
    exact h i k ans he
  · obtain ⟨k, ans, he⟩ := slot_of_dequeue (.inr ha)
    exact h i k ans he

theorem quiet_of_zero {w : World Os} {k : ℕ} {ans : Answers Os} :
    Quiet env w (.dequeue 0 k ans) := by
  refine fun i => ⟨fun hc => ?_, fun ha => ?_⟩
  · obtain ⟨hi, _, _, _, _, he, _⟩ := hc
    cases he
    exact hi rfl
  · obtain ⟨hi, _, _, _, _, he, _⟩ := ha
    cases he
    exact hi rfl

/-- Only a cancelled slot is closed and only a received packet answered. -/
theorem quiet_of_op {w : World Os} {i : Slot} {k : ℕ} {ans : Answers Os} {o : Op}
    (ho : (w.pending i)[k]? = some o)
    (hb : o.block = .send ∨ o.block = .recv ∧ o.status = .done 0) :
    Quiet env w (.dequeue i k ans) := by
  refine fun j => ⟨fun hc => ?_, fun ha => ?_⟩
  · obtain ⟨_, _, _, hcancel⟩ := (closesSlot_dequeue_iff ho).mp hc
    rcases hb with hb | ⟨hb, _⟩
    · exact absurd (hb.symm.trans hcancel) (by decide)
    · exact absurd (hb.symm.trans hcancel) (by decide)
  · obtain ⟨_, _, n, hst, hrecv, hn, _⟩ := (answersKey_dequeue_iff ho).mp ha
    rcases hb with hb | ⟨_, hzero⟩
    · exact absurd (hb.symm.trans hrecv) (by decide)
    · exact hn (Status.done.inj (hst.symm.trans hzero))

theorem KeyMove.of_quiet {w w' : World Os} {e : Event Os} (h : Quiet env w e)
    (hbooks : w'.srv.keyBooks = w.srv.keyBooks) : KeyMove env w e w' :=
  .same (fun i => (h i).1) (fun i => (h i).2) hbooks

/-- Contexts with the same keys have the same books. -/
theorem keyBooks_of_keys {s s' : Server} (hkey : ∀ i, (s'.gCtxs i).key = (s.gCtxs i).key)
    (hkeys : s'.handles.keys = s.handles.keys)
    (hdestroyed : s'.handles.destroyed = s.handles.destroyed) : s'.keyBooks = s.keyBooks := by
  unfold Server.keyBooks
  simp only [hkey, hkeys, hdestroyed]

/-- A slot whose context is replaced by one with the same key. -/
theorem keyBooks_setCtx (s : Server) {i : Slot} {c : ClientCtx}
    (h : c.key = (s.gCtxs i).key) : (s.setCtx i c).keyBooks = s.keyBooks := by
  refine keyBooks_of_keys (fun j => ?_) rfl rfl
  by_cases hji : j = i
  · rw [hji, Server.setCtx_gCtxs_self, h]
  · rw [Server.setCtx_gCtxs_of_ne _ hji]

/-- The key field of a replaced context. -/
theorem key_update (s : Server) (i j : Slot) (c : ClientCtx) :
    (Function.update s.gCtxs i c j).key =
      Function.update (fun j => (s.gCtxs j).key) i c.key j := by
  rw [Function.update_apply, Function.update_apply]
  split <;> rfl

theorem keyBooks_answKey (s : Server) (i : Slot) :
    (s.answKey env i).keyBooks = s.keyBooks.give i := by
  refine Ledger.ext ?_ List.length_append rfl
  ext1 j
  exact key_update s i j _

theorem keyBooks_cancel (s : Server) (i : Slot) :
    (overlapCancelHandler s i).keyBooks = s.keyBooks.forget i := by
  refine Ledger.ext ?_ rfl ?_
  · ext1 j
    exact key_update s i j _
  · simp [Server.keyBooks, overlapCancelHandler, Ledger.forget, ClientCtx.zero]

theorem keyBooks_acceptIteration (ans : Answers Os) (w : World Os) (n : ℕ) :
    (w.acceptIteration ans n).srv.keyBooks = w.srv.keyBooks := by
  have hcount : (w.srv.setCtx 0 ((w.srv.gCtxs 0).count n)).keyBooks = w.srv.keyBooks :=
    keyBooks_setCtx _ rfl
  rcases acceptIteration_cases ans w n with ⟨i, _, hsrv, _⟩ | ⟨_, hsrv, _⟩
  · rw [hsrv, ← hcount]
    exact keyBooks_setCtx _ rfl
  · rw [hsrv, ← hcount]
    rfl

/-- What an iteration with a receive does to the books. -/
theorem keyMove_recv {w : World Os} {i : Slot} {k n : ℕ} {ans : Answers Os} {o : Op} (hi : i ≠ 0)
    (ho : (w.pending i)[k]? = some o) (hst : o.status = .done n) (hb : o.block = .recv) :
    KeyMove env w (.dequeue i k ans)
      ((w.setPending i ((w.pending i).eraseIdx k)).recvIteration env ans i n) := by
  have hquiet : (n ≠ 0 → ¬ KeyAccepted env ans ((w.srv.gCtxs i).count n)) →
      Quiet env w (.dequeue i k ans) := fun hnot j => by
    refine ⟨fun hc => ?_, fun ha => ?_⟩
    · exact absurd (hb.symm.trans ((closesSlot_dequeue_iff ho).mp hc).2.2.2) (by decide)
    · obtain ⟨_, _, n', hst', _, hn, hacc⟩ := (answersKey_dequeue_iff ho).mp ha
      obtain rfl := Status.done.inj (hst.symm.trans hst')
      exact hnot hn hacc
  rcases recvIteration_cases env ans (w.setPending i ((w.pending i).eraseIdx k)) i n with
    ⟨hzero, h⟩ | ⟨hn, f, herr, h⟩ | ⟨hn, s, hok, h⟩
  · rw [h]
    exact .of_quiet (hquiet fun hn => absurd hzero hn) rfl
  · rw [h]
    refine .of_quiet (hquiet fun _ hacc => ?_) rfl
    have hok : overlapRecvHandler env ans w.srv i n = .ok _ :=
      (overlapRecvHandler_eq_ok_iff hn).mpr ⟨rfl, .inl ⟨hacc.mark, hacc, rfl⟩⟩
    rw [World.setPending_srv] at herr
    exact absurd (hok.symm.trans herr) (by simp)
  · rw [h]
    rcases ((overlapRecvHandler_eq_ok_iff hn).mp hok).2 with
      ⟨_, hacc, rfl⟩ | ⟨hmark, ks, t, _, rfl⟩
    · refine .given i ((answersKey_dequeue_iff ho).mpr ⟨rfl, hi, n, hst, hb, hn, hacc⟩) ?_
      have hcount := keyBooks_setCtx w.srv (i := i) (c := (w.srv.gCtxs i).count n) rfl
      rw [← hcount]
      exact keyBooks_answKey _ i
    · exact .of_quiet (hquiet fun _ hacc => hmark hacc.mark) (keyBooks_setCtx _ rfl)

/-- **What a step does to the books of the keys.** -/
theorem keyBooks_step {w w' : World Os} {e : Event Os} (hs : World.Step env w e w') :
    KeyMove env w e w' := by
  cases hs with
  | accepted => exact .of_quiet (quiet_of_ne fun _ _ _ h => nomatch h) rfl
  | received => exact .of_quiet (quiet_of_ne fun _ _ _ h => nomatch h) (keyBooks_setCtx _ rfl)
  | sent => exact .of_quiet (quiet_of_ne fun _ _ _ h => nomatch h) rfl
  | failed => exact .of_quiet (quiet_of_ne fun _ _ _ h => nomatch h) rfl
  | dropped _ ho hst =>
    refine .of_quiet (fun j => ⟨fun hc => ?_, fun ha => ?_⟩) rfl
    · obtain ⟨_, _, ⟨n, hdone⟩, _⟩ := (closesSlot_dequeue_iff ho).mp hc
      exact absurd (hst.symm.trans hdone) (by simp)
    · obtain ⟨_, _, n, hdone, _⟩ := (answersKey_dequeue_iff ho).mp ha
      exact absurd (hst.symm.trans hdone) (by simp)
  | @dequeue i k n ans o _ ho hst =>
    by_cases hi : i = 0
    · subst hi
      refine .of_quiet quiet_of_zero ?_
      simp only [World.exec, if_true]
      exact keyBooks_acceptIteration ans _ n
    · unfold World.exec
      rw [if_neg hi]
      cases hb : o.block with
      | recv => exact keyMove_recv hi ho hst hb
      | cancel =>
        exact .forgotten i ((closesSlot_dequeue_iff ho).mpr ⟨rfl, hi, ⟨n, hst⟩, hb⟩)
          (keyBooks_cancel _ i)
      | send =>
        refine .of_quiet (quiet_of_op ho (.inl hb)) ?_
        show (overlapSendHandler w.srv i n).1.keyBooks = _
        rcases overlapSendHandler_cases w.srv i n with ⟨_, h⟩ | ⟨_, h⟩
        · rw [h]
          exact keyBooks_setCtx _ rfl
        · rw [h]
          exact keyBooks_setCtx _ rfl

/-! ## When the books are in order -/

/-- A slot that has a key is occupied. -/
theorem Good.occupied_of_key {w : World Os} (hg : Good w) {i : Slot} (h : (w.srv.gCtxs i).key ≠ 0) :
    (w.srv.gCtxs i).socket ≠ 0 := by
  by_cases hi : i = 0
  · rw [hi]
    exact hg.sockets.listener
  · intro hfree
    rw [((hg.slots i hi).of_socket_eq_zero hfree).1] at h
    exact h rfl

/-- Between two iterations the keys are accounted for if the books are in order. -/
theorem Good.keysAccounted_iff {w : World Os} (hg : Good w) :
    KeysAccounted w.srv ↔ w.srv.keyBooks.Accounted := by
  have hheld : ∀ k, (k ≠ 0 ∧ ∃ i, (w.srv.gCtxs i).socket ≠ 0 ∧ (w.srv.gCtxs i).key = k) ↔
      (k ≠ 0 ∧ ∃ i, w.srv.keyBooks.held i = k) := by
    refine fun k => and_congr_right fun hk => exists_congr fun i => ⟨fun h => h.2, fun h => ?_⟩
    refine ⟨hg.occupied_of_key ?_, h⟩
    rwa [show (w.srv.gCtxs i).key = k from h]
  have hfree : ∀ k, 1 ≤ k →
      ((∀ i, (w.srv.gCtxs i).socket ≠ 0 → (w.srv.gCtxs i).key ≠ k) ↔
        ∀ i, w.srv.keyBooks.held i ≠ k) := by
    refine fun k hk => forall_congr' fun i => ⟨fun h heq => ?_, fun h _ => h⟩
    refine h (hg.occupied_of_key ?_) heq
    rw [show (w.srv.gCtxs i).key = k from heq]
    omega
  constructor
  · intro h
    exact ⟨fun k => (h.live k).trans (hheld k),
      fun k hpos hle hnone => h.once k hpos hle ((hfree k hpos).mpr hnone)⟩
  · intro h
    exact ⟨fun k => (h.live k).trans (hheld k).symm,
      fun k hpos hle hnone => h.once k hpos hle ((hfree k hpos).mp hnone)⟩

theorem tidy_initial (accepting : Bool) :
    (World.initial accepting : World Os).srv.keyBooks.Tidy := by
  have hkey : ∀ i, (World.initial accepting : World Os).srv.keyBooks.held i = 0 := fun i => by
    by_cases hi : i = 0 <;> simp [World.initial, Server.keyBooks, hi, ClientCtx.zero]
  refine ⟨fun i => ?_, fun i j h => absurd (hkey i) h, fun k hpos hle => ?_, fun k hk => ?_⟩
  · rw [hkey]
    exact Nat.zero_le _
  · exact absurd hle (Nat.not_le.mpr hpos)
  · exact absurd hk List.not_mem_nil

/-- **A step keeps the books in order exactly if it keeps the keys.** -/
theorem tidy_step {w w' : World Os} {e : Event Os} (h : w.srv.keyBooks.Tidy)
    (hs : World.Step env w e w') :
    (w'.srv.keyBooks.Accounted ↔ KeyKept env w e) ∧ (KeyKept env w e → w'.srv.keyBooks.Tidy) := by
  have honly : ∀ i, ClosesSlot w e i ∨ AnswersKey env w e i →
      (KeyKept env w e ↔ w.srv.keyBooks.held i = 0) := fun i hi => by
    refine ⟨fun hkept => hkept i hi, fun hzero j hj => ?_⟩
    obtain ⟨k, ans, he⟩ := slot_of_dequeue hi
    obtain ⟨k', ans', he'⟩ := slot_of_dequeue hj
    rw [he] at he'
    cases he'
    exact hzero
  cases keyBooks_step hs with
  | same hclose hkey hbooks =>
    have hkept : KeyKept env w e := fun i hi => hi.elim (fun h => (hclose i h).elim)
      fun h => (hkey i h).elim
    rw [hbooks]
    exact ⟨iff_of_true h.accounted hkept, fun _ => h⟩
  | given i hkey hbooks =>
    rw [hbooks, honly i (.inr hkey)]
    exact ⟨h.give_accounted_iff, h.give⟩
  | forgotten i hclose hbooks =>
    rw [hbooks, honly i (.inl hclose)]
    exact ⟨h.forget_accounted_iff, h.forget⟩

theorem tidy_of_keyKept {accepting : Bool} {w : World Os}
    (hr : ((machine env accepting).restrict (KeyKept env)).Reachable w) :
    w.srv.keyBooks.Tidy := by
  induction hr with
  | init hi =>
    obtain rfl : _ = World.initial accepting := hi
    exact tidy_initial accepting
  | step _ hs ih => exact (tidy_step ih hs.2).2 hs.1

/-- The keys are accounted for after a step exactly if it keeps the keys. -/
theorem keysAccounted_step_iff {accepting : Bool} {w w' : World Os} {e : Event Os}
    (hr : ((machine env accepting).restrict (KeyKept env)).Reachable w)
    (hs : World.Step env w e w') : KeysAccounted w'.srv ↔ KeyKept env w e := by
  have hg' : Good w' := good_step (good_reachable hr.of_restrict) hs
  rw [hg'.keysAccounted_iff]
  exact (tidy_step (tidy_of_keyKept hr) hs).1

/-! ## The first client leaves

The first client connects, is given a key, and hangs up. -/

/-- A send that has completed is queued as one. -/
theorem pending_of_sent {w w' : World Os} {i : Slot} {k n : ℕ}
    (hs : World.Step env w (.sent i k n) w') :
    ∃ o, (w'.pending i)[k]? = some o ∧ o.block = .send := by
  cases hs with
  | @sent _ _ _ o running hi ho hst hb hlen =>
    refine ⟨{ o with status := .done n }, ?_, hb⟩
    rw [World.setPending_pending_self, List.getElem?_set_self (List.getElem?_eq_some_iff.mp ho).1]

/-- A step that neither closes nor answers keeps the keys and leaves the books alone. -/
theorem step_of_quiet {accepting : Bool} {w w' : World Os} {e : Event Os}
    (hr : ((machine env accepting).restrict (KeyKept env)).Reachable w)
    (hs : World.Step env w e w') (hquiet : Quiet env w e) :
    ((machine env accepting).restrict (KeyKept env)).Reachable w' ∧
      w'.srv.keyBooks = w.srv.keyBooks := by
  constructor
  · refine hr.step ⟨fun i hi => ?_, hs⟩
    rcases hi with hclose | hkey
    · exact ((hquiet i).1 hclose).elim
    · exact ((hquiet i).2 hkey).elim
  · cases keyBooks_step hs with
    | same _ _ hbooks => exact hbooks
    | given i hkey _ => exact ((hquiet i).2 hkey).elim
    | forgotten i hclose _ => exact ((hquiet i).1 hclose).elim

/-- The first client has been given a key and has left; its slot is about to be closed. -/
theorem exists_hungUp : ∃ w, ((machine Env.sample true).restrict (KeyKept Env.sample)).Reachable w ∧
    w.fault = none ∧ (w.srv.gCtxs 1).key ≠ 0 ∧
    ∃ sock, w.pending 1 = [⟨.cancel, sock, 0, 0, .done 0⟩] := by
  have hlen : ([0, 6] : List UInt8).length ≤ bufSize := by decide
  have hr₀ : ((machine Env.sample true).restrict (KeyKept Env.sample)).Reachable
      (World.connected ()) := by
    have hfirst := World.step_connecting Env.sample
    have hsecond := World.step_connected Env.sample ()
    exact (step_of_quiet (step_of_quiet (.init rfl) hfirst (quiet_of_ne (by simp))).1 hsecond
      quiet_of_zero).1
  -- the key packet comes
  obtain ⟨hs₁, hrecv, _, hopen⟩ :=
    (reads_connected ()).receives Env.sample (List.cons_ne_nil (0 : UInt8) [6]) hlen
  have hr₁ := (step_of_quiet hr₀ hs₁ (quiet_of_ne (by simp))).1
  have hkey₁ : (((World.connected ()).receives 1 [0, 6]).srv.gCtxs 1).key = 0 := by
    rw [World.receives_ctx, World.connected_ctx]
    rfl
  rw [World.connected_ctx] at hopen
  -- and is answered
  obtain ⟨w₂, hs₂, hsends, _, _, hkey⟩ :=
    hrecv.answersKey (show Env.sample.csp.wellFormed [6] = true from rfl) (by decide) hopen ()
  have hkept₂ : KeyKept Env.sample ((World.connected ()).receives 1 [0, 6])
      (.dequeue 1 0 (.allYes ())) := by
    intro j hj
    obtain ⟨_, _, he⟩ := slot_of_dequeue hj
    cases he
    exact hkey₁
  have hr₂ := hr₁.step ⟨hkept₂, hs₂⟩
  have hkey₂ : w₂.srv.keyBooks.held 1 ≠ 0 := by
    show (w₂.srv.gCtxs 1).key ≠ 0
    rw [hkey]
    exact Nat.succ_ne_zero _
  -- the reply leaves and the client with it
  obtain ⟨w₃, w₄, hs₃, hs₄, _, hreads, _, _, _, _⟩ := hsends.completes Env.sample ()
  obtain ⟨w₆, hs₅, hs₆, hrun, hcancel⟩ := hreads.hangsUp Env.sample ()
  obtain ⟨o, ho, hb⟩ := pending_of_sent hs₃
  obtain ⟨hr₃, hbooks₃⟩ := step_of_quiet hr₂ hs₃ (quiet_of_ne (by simp))
  obtain ⟨hr₄, hbooks₄⟩ := step_of_quiet hr₃ hs₄ (quiet_of_op ho (.inl hb))
  obtain ⟨hr₅, hbooks₅⟩ := step_of_quiet hr₄ hs₅ (quiet_of_ne (by simp))
  obtain ⟨hr₆, hbooks₆⟩ := step_of_quiet hr₅ hs₆
    (quiet_of_op (by rw [World.receives_pending]; rfl) (.inr ⟨rfl, rfl⟩))
  refine ⟨w₆, hr₆, hrun, ?_, _, hcancel⟩
  rw [← hbooks₃, ← hbooks₄, ← hbooks₅, ← hbooks₆] at hkey₂
  exact hkey₂

/-! ## The keys of a run -/

/-- **The keys are accounted for** in every run that closes no connection with a key and
answers no second key packet; and at the first step that does, they are not. -/
theorem keysAccounted_of_keyKept (env : Env Os) (accepting : Bool) {w : World Os}
    (hr : ((machine env accepting).restrict (KeyKept env)).Reachable w) :
    KeysAccounted w.srv ∧ ∀ (e : Event Os) (w' : World Os), World.Step env w e w' →
      (KeysAccounted w'.srv ↔ KeyKept env w e) :=
  ⟨(good_reachable hr.of_restrict).keysAccounted_iff.mpr (tidy_of_keyKept hr).accounted,
    fun _ _ hs => keysAccounted_step_iff hr hs⟩

/-- The keys are accounted for while the first client has one. -/
theorem keysAccounted_of_keyKept_first :
    ∃ w : World Unit, (w.srv.gCtxs 1).key ≠ 0 ∧ KeysAccounted w.srv := by
  obtain ⟨w, hr, _, hkey, _⟩ := exists_hungUp
  exact ⟨w, hkey, (keysAccounted_of_keyKept Env.sample true hr).1⟩

/-- A client that has a key leaves, and its key is neither held nor destroyed. -/
theorem not_keysAccounted_hangUp :
    ¬ ∀ w, (machine Env.sample true).Reachable w → KeysAccounted w.srv := by
  intro hall
  obtain ⟨w, hr, hrun, hkey, sock, hcancel⟩ := exists_hungUp
  have hs := World.step_dequeue Env.sample (.allYes ()) hrun hcancel rfl
  have hkept := (keysAccounted_step_iff hr hs).mp (hall _ (hr.of_restrict.step hs))
  have hget : (w.pending 1)[0]? = some ⟨.cancel, sock, 0, 0, .done 0⟩ := by
    rw [hcancel]
    rfl
  exact hkey (hkept 1 (.inl ⟨by decide, 0, _, _, 0, rfl, hget, rfl, rfl⟩))

end Tcp
end BsitLabs
