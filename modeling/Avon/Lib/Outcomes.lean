import Mathlib.Data.List.Basic

/-!
# Programs of statements that may fail

A program takes a state and has a list of outcomes, each a value or an error with the state that it
leaves, one for each statement at which it may end. `Keeps R p`: every outcome of `p` is in the
relation `R` to the state before.
-/

set_option autoImplicit false

namespace Avon.Lib.Outcomes

/-- A program on states of type `σ` with errors of type `ε`. -/
def Prog (σ ε α : Type) := σ → List (Except ε α × σ)

namespace Prog

variable {σ ε α β : Type}

def next (f : α → Prog σ ε β) : Except ε α × σ → List (Except ε β × σ)
  | (.ok a, s) => f a s
  | (.error e, s) => [(.error e, s)]

instance : Monad (Prog σ ε) where
  pure a := fun s => [(.ok a, s)]
  bind p f := fun s => (p s).flatMap (next f)

def raise (e : ε) : Prog σ ε α := fun s => [(.error e, s)]

def statement (fault : ε) (f : σ → Except ε σ) : Prog σ ε Unit := fun s =>
  [(.error fault, s), match f s with
    | .ok s' => (.ok (), s')
    | .error e => (.error e, s)]

def query (fault : ε) (f : σ → α) : Prog σ ε α := fun s => [(.error fault, s), (.ok (f s), s)]

def suppress (p : Prog σ ε Unit) : Prog σ ε Unit := fun s => (p s).map fun o => (.ok (), o.2)

def forEach (xs : List β) (f : β → Prog σ ε Unit) : Prog σ ε Unit :=
  match xs with
  | [] => pure ()
  | x :: xs => do
    f x
    forEach xs f

section Members

variable {s : σ} {o : Except ε β × σ} {p : Prog σ ε α} {f : α → Prog σ ε β}

@[simp] theorem mem_pure {b : β} : o ∈ (pure b : Prog σ ε β) s ↔ o = (.ok b, s) :=
  List.mem_singleton

@[simp] theorem mem_raise {e : ε} : o ∈ (raise e : Prog σ ε β) s ↔ o = (.error e, s) :=
  List.mem_singleton

@[simp] theorem mem_query {fault : ε} {g : σ → β} :
    o ∈ query fault g s ↔ o = (.error fault, s) ∨ o = (.ok (g s), s) := by
  simp [query]

theorem mem_bind : o ∈ (p >>= f) s ↔ (∃ a s', (.ok a, s') ∈ p s ∧ o ∈ f a s') ∨
    ∃ e s', (.error e, s') ∈ p s ∧ o = (.error e, s') := by
  show o ∈ (p s).flatMap (next f) ↔ _
  rw [List.mem_flatMap]
  constructor
  · rintro ⟨⟨r, s'⟩, hp, ho⟩
    cases r with
    | ok a => exact .inl ⟨a, s', hp, ho⟩
    | error e => exact .inr ⟨e, s', hp, List.mem_singleton.mp ho⟩
  rintro (⟨a, s', hp, ho⟩ | ⟨e, s', hp, rfl⟩)
  · exact ⟨_, hp, ho⟩
  · exact ⟨_, hp, List.mem_singleton.mpr rfl⟩

theorem mem_query_bind {fault : ε} {g : σ → α} :
    o ∈ (query fault g >>= f) s ↔ o = (.error fault, s) ∨ o ∈ f (g s) s := by
  simp only [mem_bind, mem_query, Prod.mk.injEq, reduceCtorEq, false_and, false_or,
    Except.ok.injEq, Except.error.injEq]
  grind

theorem ok_mem_bind {b : β} {s' : σ} : (.ok b, s') ∈ (p >>= f) s ↔
    ∃ a t, (.ok a, t) ∈ p s ∧ (.ok b, s') ∈ f a t := by
  simp [mem_bind]

theorem ok_mem_statement {fault : ε} {g : σ → Except ε σ} {s' : σ} :
    (.ok (), s') ∈ statement fault g s ↔ g s = .ok s' := by
  cases h : g s <;> simp [statement, h, eq_comm]
end Members

end Prog

open Prog

variable {σ ε α β : Type} {R : σ → σ → Prop}

def Keeps (R : σ → σ → Prop) (p : Prog σ ε α) : Prop := ∀ s, ∀ o ∈ p s, R s o.2

theorem keeps_pure (hrefl : ∀ s, R s s) (a : α) : Keeps R (pure a : Prog σ ε α) := by
  intro s o ho
  obtain rfl := mem_pure.mp ho
  exact hrefl s

theorem keeps_raise (hrefl : ∀ s, R s s) (e : ε) : Keeps R (raise e : Prog σ ε α) := by
  intro s o ho
  obtain rfl := mem_raise.mp ho
  exact hrefl s

theorem keeps_query (hrefl : ∀ s, R s s) (fault : ε) (f : σ → α) : Keeps R (query fault f) := by
  intro s o ho
  rcases mem_query.mp ho with rfl | rfl <;> exact hrefl s

theorem keeps_statement (hrefl : ∀ s, R s s) (fault : ε) {f : σ → Except ε σ}
    (hf : ∀ s s', f s = .ok s' → R s s') : Keeps R (statement fault f) := by
  intro s o ho
  rcases List.mem_cons.mp ho with rfl | ho
  · exact hrefl s
  obtain rfl := List.mem_singleton.mp ho
  cases h : f s with
  | ok s' => exact hf s s' h
  | error e => exact hrefl s

variable {p : Prog σ ε α} {f : α → Prog σ ε β}

theorem Keeps.bind (htrans : ∀ a b c, R a b → R b c → R a c) (hp : Keeps R p)
    (hf : ∀ a, Keeps R (f a)) : Keeps R (p >>= f) := by
  intro s o ho
  rcases mem_bind.mp ho with ⟨a, s', hmem, ho⟩ | ⟨e, s', hmem, rfl⟩
  · exact htrans _ _ _ (hp s _ hmem) (hf a s' o ho)
  · exact hp s _ hmem

theorem Keeps.bind_eq (hp : Keeps Eq p) (hf : ∀ a, Keeps Eq (f a)) : Keeps Eq (p >>= f) :=
  Keeps.bind (fun _ _ _ h h' => h.trans h') hp hf

theorem Keeps.of_eq (hp : Keeps Eq p) (hrefl : ∀ s, R s s) : Keeps R p := by
  intro s o ho
  rw [← hp s o ho]
  exact hrefl s

theorem Keeps.suppress {p : Prog σ ε Unit} (hp : Keeps R p) : Keeps R p.suppress := by
  intro s o ho
  obtain ⟨o', ho', rfl⟩ := List.mem_map.mp ho
  exact hp s o' ho'

theorem keeps_forEach (hrefl : ∀ s, R s s) (htrans : ∀ a b c, R a b → R b c → R a c)
    (xs : List β) {f : β → Prog σ ε Unit} (hf : ∀ x ∈ xs, Keeps R (f x)) :
    Keeps R (forEach xs f) := by
  induction xs with
  | nil => exact keeps_pure hrefl ()
  | cons x xs ih =>
    exact (hf x (by simp)).bind htrans fun _ => ih fun y hy => hf y (by simp [hy])

end Avon.Lib.Outcomes
