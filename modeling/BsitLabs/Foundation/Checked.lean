import BsitLabs.Foundation.CText

/-!
# Computations that may misuse memory

A procedure in C that stores behind the end of an array, or reads what nothing has set, has
no result that could be told.  Here it is a computation in `Except`, whose errors say what
was done wrong.  `keep` ends it unless the stores that are listed keep to their arrays, and
`readSet` unless the variable that it reads has been set.

A list of stores is a list of `Extent`s: the size of an array, and how much of it is used.
-/

namespace BsitLabs

/-! ## Arrays -/

/-- An array, and how much of it is stored into or announced. -/
structure Extent where
  size : ℕ
  used : ℕ

/-- Every array has room. -/
def Fit (extents : List Extent) : Prop := ∀ a ∈ extents, a.used ≤ a.size

instance (extents : List Extent) : Decidable (Fit extents) := List.decidableBAll _ _

@[simp] theorem fit_nil : Fit [] := fun _ h => absurd h List.not_mem_nil

@[simp] theorem fit_cons_iff (a : Extent) (as : List Extent) :
    Fit (a :: as) ↔ a.used ≤ a.size ∧ Fit as := by
  unfold Fit
  simp

@[simp] theorem fit_append_iff (as bs : List Extent) : Fit (as ++ bs) ↔ Fit as ∧ Fit bs := by
  unfold Fit
  simp only [List.mem_append, or_imp, forall_and]

/-- The store of a string into an array of this size, if there is one. -/
def storeOf (size : ℕ) : Option CText → List Extent
  | some s => [⟨size, s.length + 1⟩]
  | none => []

/-- A string that is stored fits, if there is one. -/
@[simp] theorem fit_storeOf_iff (size : ℕ) (o : Option CText) :
    Fit (storeOf size o) ↔ ∀ s ∈ o, s.length < size := by
  cases o with
  | none => exact iff_of_true fit_nil fun _ h => by cases h
  | some s =>
    rw [storeOf, fit_cons_iff]
    simp only [fit_nil, and_true, Option.mem_def, Option.some.injEq, forall_eq']
    exact Nat.succ_le_iff

/-! ## Checks -/

variable {ε α β : Type}

/-- The stores keep to their arrays. -/
def keep (overrun : ε) (extents : List Extent) : Except ε Unit :=
  if Fit extents then .ok () else .error overrun

/-- The value of a variable, if something has set it. -/
def readSet (misuse : ε) : Option α → Except ε α
  | some a => .ok a
  | none => .error misuse

@[simp] theorem keep_eq_ok_iff {overrun : ε} {extents : List Extent} {u : Unit} :
    keep overrun extents = .ok u ↔ Fit extents := by
  unfold keep
  split
  · next h => exact iff_of_true rfl h
  · next h => exact iff_of_false (fun heq => nomatch heq) h

@[simp] theorem readSet_eq_ok_iff {misuse : ε} {o : Option α} {a : α} :
    readSet misuse o = .ok a ↔ o = some a := by
  cases o <;> simp [readSet]

@[simp] theorem except_bind_eq_ok_iff {x : Except ε α} {f : α → Except ε β} {b : β} :
    (x >>= f) = .ok b ↔ ∃ a, x = .ok a ∧ f a = .ok b := by
  cases x with
  | error e => simp [bind, Except.bind]
  | ok a => simp [bind, Except.bind]

@[simp] theorem except_map_eq_ok_iff {x : Except ε α} {f : α → β} {b : β} :
    x.map f = .ok b ↔ ∃ a, x = .ok a ∧ f a = b := by
  cases x with
  | error e => simp [Except.map]
  | ok a => simp [Except.map]

/-- A mapped result with a property is a result whose image has it. -/
theorem exists_except_map_iff {x : Except ε α} {f : α → β} {p : β → Prop} :
    (∃ b, x.map f = .ok b ∧ p b) ↔ ∃ a, x = .ok a ∧ p (f a) := by
  constructor
  · rintro ⟨_, hmap, hb⟩
    obtain ⟨a, hok, rfl⟩ := except_map_eq_ok_iff.mp hmap
    exact ⟨a, hok, hb⟩
  · rintro ⟨a, hok, ha⟩
    exact ⟨f a, except_map_eq_ok_iff.mpr ⟨a, hok, rfl⟩, ha⟩

@[simp] theorem except_toOption_eq_some_iff {x : Except ε α} {a : α} :
    x.toOption = some a ↔ x = .ok a := by
  cases x with
  | error e => simp [Except.toOption]
  | ok a => simp [Except.toOption]

theorem except_bind_eq_error_iff {x : Except ε α} {f : α → Except ε β} {e : ε} :
    (x >>= f) = .error e ↔ x = .error e ∨ ∃ a, x = .ok a ∧ f a = .error e := by
  cases x with
  | error e' => simp [bind, Except.bind]
  | ok a => simp [bind, Except.bind]

@[simp] theorem except_map_eq_error_iff {x : Except ε α} {f : α → β} {e : ε} :
    x.map f = .error e ↔ x = .error e := by
  cases x with
  | error e' => simp [Except.map]
  | ok a => simp [Except.map]

/-- What is computed once the stores have kept to their arrays. -/
theorem keep_bind_eq_ok_iff {overrun : ε} {extents : List Extent} {x : Except ε α} {a : α} :
    (keep overrun extents >>= fun _ => x) = .ok a ↔ Fit extents ∧ x = .ok a := by
  rw [except_bind_eq_ok_iff]
  simp only [keep_eq_ok_iff, exists_and_left, exists_const]

/-- Stores that do not fit end in an overrun and in nothing else. -/
theorem keep_bind_ok_ne {overrun misuse : ε} (hne : overrun ≠ misuse) {extents : List Extent}
    {a : α} : (keep overrun extents >>= fun _ => .ok a) ≠ .error misuse := by
  unfold keep
  split
  · exact fun h => nomatch h
  · exact fun h => hne (Except.error.inj h)

end BsitLabs
