import Mathlib.Logic.Basic

/-!
# Steps that may fail

What is needed to take a sequence of fallible steps apart: `bind_eq_ok` for the sequence,
`mapError_eq_ok` for a step with another error, `ensure_eq_ok` for a check. Results are
compared up to their errors through `toOption`, and `exists_mapM` takes a list of steps apart.
-/

set_option autoImplicit false

namespace Avon

variable {ε ε' α β : Type}

variable {x : Except ε α} {a : α} {f : α → Option β} {l : List α} {p : Prop} {e : ε} {b : β}
  {bs : List β}

theorem bind_eq_ok {f : α → Except ε β} : x >>= f = .ok b ↔ ∃ a, x = .ok a ∧ f a = .ok b := by
  cases x <;> simp [bind, Except.bind]

theorem map_eq_ok {f : α → β} : f <$> x = .ok b ↔ ∃ a, x = .ok a ∧ f a = b := by
  cases x <;> simp [Functor.map, Except.map]

theorem exists_ok {p : α → Bool} (h : x.toOption.any p = true) :
    ∃ a, x = .ok a ∧ p a = true := by
  cases x with
  | error e => cases h
  | ok a => exact ⟨a, rfl, h⟩

@[simp] theorem mapError_eq_ok {f : ε → ε'} :
    x.mapError f = .ok a ↔ x = .ok a := by
  cases x with
  | error e => exact iff_of_false (by rintro ⟨⟩) (by rintro ⟨⟩)
  | ok b =>
    change Except.ok b = Except.ok a ↔ _
    simp only [Except.ok.injEq]

@[simp] theorem toOption_mapError (f : ε → ε') (x : Except ε α) :
    (x.mapError f).toOption = x.toOption := by
  cases x <;> rfl

theorem toOption_eq_some : x.toOption = some a ↔ x = .ok a := by
  cases x <;> simp [Except.toOption]

theorem toOption_bind (x : Except ε α) (f : α → Except ε β) :
    (x >>= f).toOption = x.toOption.bind fun a => (f a).toOption := by
  cases x <;> rfl

theorem toOption_mapM (f : α → Except ε β) (l : List α) :
    (l.mapM f).toOption = l.mapM fun a => (f a).toOption := by
  induction l with
  | nil => rfl
  | cons a l ih =>
    simp only [List.mapM_cons, toOption_bind, ih]
    rfl

theorem exists_mapM {p : β → Prop} :
    (∃ bs, l.mapM f = some bs ∧ ∀ b ∈ bs, p b) ↔ ∀ a ∈ l, ∃ b, f a = some b ∧ p b := by
  induction l with
  | nil => simp
  | cons a l ih =>
    simp only [List.mapM_cons, Option.bind_eq_bind, Option.bind_eq_some_iff, Option.pure_def,
      Option.some.injEq, List.forall_mem_cons, ← ih]
    grind

theorem isSome_mapM :
    (l.mapM f).isSome ↔ ∀ a ∈ l, (f a).isSome := by
  simpa [Option.isSome_iff_exists] using exists_mapM (f := f) (p := fun _ => True) (l := l)

theorem mapM_nil_iff (h : l.mapM f = some bs) : bs = [] ↔ l = [] := by
  cases l with
  | nil =>
    cases h
    simp
  | cons a l =>
    simp only [List.mapM_cons, Option.bind_eq_bind, Option.bind_eq_some_iff, Option.pure_def,
      Option.some.injEq] at h
    obtain ⟨b, -, bs', -, rfl⟩ := h
    simp

theorem mem_mapM (h : l.mapM f = some bs) : b ∈ bs ↔ ∃ a ∈ l, f a = some b := by
  induction l generalizing bs with
  | nil =>
    cases h
    simp
  | cons a l ih =>
    simp only [List.mapM_cons, Option.bind_eq_bind, Option.bind_eq_some_iff, Option.pure_def,
      Option.some.injEq] at h
    obtain ⟨b', hb', bs', hbs', rfl⟩ := h
    simp [ih hbs', hb', eq_comm]

/-- A check: an early return with an error unless the condition holds. -/
def ensure (p : Prop) [Decidable p] (e : ε) : Except ε Unit :=
  if p then .ok () else .error e

@[simp] theorem ensure_eq_ok [Decidable p] {u : Unit} :
    ensure p e = .ok u ↔ p := by
  unfold ensure
  split <;> simp [*]

theorem ite_error_eq_ok [Decidable p] :
    (if p then .error e else x) = .ok a ↔ ¬ p ∧ x = .ok a := by
  split <;> simp [*]

theorem ite_throw_eq_ok [Decidable p] {x : α → Except ε β} {y : Except ε β} :
    (if p then throw e >>= x else y) = .ok b ↔ ¬ p ∧ y = .ok b := by
  split <;> simp [*, throw, throwThe, MonadExceptOf.throw, bind, Except.bind]

end Avon
