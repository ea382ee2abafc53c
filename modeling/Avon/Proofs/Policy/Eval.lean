import Avon.Lib.Except
import Avon.Policy.Compile

/-!
# Evaluation of conditions

Evaluation as a condition, one lemma per connective. `Means x φ` says that a result is not an error
and is `true` exactly if `φ` holds; it composes along the connectives.
-/

set_option autoImplicit false

namespace Avon.Cedar

def andAlso (x y : Except EvalError Bool) : Except EvalError Bool :=
  match x with
  | .ok true => y
  | .ok false => .ok false
  | .error e => .error e

def orElse (x y : Except EvalError Bool) : Except EvalError Bool :=
  match x with
  | .ok true => .ok true
  | .ok false => y
  | .error e => .error e

def anyOf : List (Except EvalError Bool) → Except EvalError Bool
  | [] => .ok false
  | x :: xs => orElse x (anyOf xs)

def allOf : List (Except EvalError Bool) → Except EvalError Bool
  | [] => .ok true
  | x :: xs => andAlso x (allOf xs)

@[simp] theorem andAlso_ok (a b : Bool) : andAlso (.ok a) (.ok b) = .ok (a && b) := by
  cases a <;> rfl

@[simp] theorem orElse_ok (a b : Bool) : orElse (.ok a) (.ok b) = .ok (a || b) := by
  cases a <;> rfl

theorem orElse_assoc (x y z : Except EvalError Bool) :
    orElse (orElse x y) z = orElse x (orElse y z) := by
  rcases x with _ | (_ | _) <;> rfl

theorem andAlso_assoc (x y z : Except EvalError Bool) :
    andAlso (andAlso x y) z = andAlso x (andAlso y z) := by
  rcases x with _ | (_ | _) <;> rfl

@[simp] theorem orElse_false (x : Except EvalError Bool) : orElse x (.ok false) = x := by
  rcases x with _ | (_ | _) <;> rfl

@[simp] theorem andAlso_true (x : Except EvalError Bool) : andAlso x (.ok true) = x := by
  rcases x with _ | (_ | _) <;> rfl

theorem anyOf_append (xs ys : List (Except EvalError Bool)) :
    anyOf (xs ++ ys) = orElse (anyOf xs) (anyOf ys) := by
  induction xs with
  | nil => rfl
  | cons x xs ih => rw [List.cons_append, anyOf, ih, anyOf, orElse_assoc]

theorem allOf_append (xs ys : List (Except EvalError Bool)) :
    allOf (xs ++ ys) = andAlso (allOf xs) (allOf ys) := by
  induction xs with
  | nil => rfl
  | cons x xs ih => rw [List.cons_append, allOf, ih, allOf, andAlso_assoc]

/-- The result is a Boolean, and it is `true` if and only if `φ` holds. -/
def Means (x : Except EvalError Bool) (φ : Prop) : Prop := ∃ b, x = .ok b ∧ (b = true ↔ φ)

namespace Means

variable {x y : Except EvalError Bool} {φ ψ : Prop}

theorem ok (b : Bool) : Means (.ok b) (b = true) := ⟨b, rfl, Iff.rfl⟩

theorem congr (h : Means x φ) (hiff : φ ↔ ψ) : Means x ψ := by
  obtain ⟨b, rfl, hb⟩ := h
  exact ⟨b, rfl, hb.trans hiff⟩

theorem andAlso (hx : Means x φ) (hy : Means y ψ) : Means (andAlso x y) (φ ∧ ψ) := by
  obtain ⟨a, rfl, ha⟩ := hx
  obtain ⟨b, rfl, hb⟩ := hy
  exact ⟨a && b, andAlso_ok a b, by rw [Bool.and_eq_true, ha, hb]⟩

theorem orElse (hx : Means x φ) (hy : Means y ψ) : Means (orElse x y) (φ ∨ ψ) := by
  obtain ⟨a, rfl, ha⟩ := hx
  obtain ⟨b, rfl, hb⟩ := hy
  exact ⟨a || b, orElse_ok a b, by rw [Bool.or_eq_true, ha, hb]⟩

theorem anyOf {α : Type*} {l : List α} {f : α → Except EvalError Bool} {φ : α → Prop}
    (h : ∀ a ∈ l, Means (f a) (φ a)) : Means (anyOf (l.map f)) (∃ a ∈ l, φ a) := by
  induction l with
  | nil => exact ⟨false, rfl, by simp⟩
  | cons a l ih =>
    refine ((h a List.mem_cons_self).orElse
      (ih fun b hb => h b (List.mem_cons_of_mem _ hb))).congr ?_
    simp

theorem allOf_option {α β : Type*} {o : Option α} {g : α → β} {f : β → Except EvalError Bool}
    {φ : α → Prop} (h : ∀ a, Means (f (g a)) (φ a)) :
    Means (Cedar.allOf ((o.map g).toList.map f)) (∀ a, o = some a → φ a) := by
  cases o with
  | none => exact ⟨true, rfl, by simp⟩
  | some a => exact ((h a).andAlso (ok true)).congr (by simp)

end Means

namespace Expr

variable (req : Request) (es : Entities)

@[simp] theorem evalBool_always : Expr.always.evalBool req es = .ok true := rfl

@[simp] theorem evalBool_and (a b : Expr) :
    (Expr.and a b).evalBool req es = andAlso (a.evalBool req es) (b.evalBool req es) := by
  unfold evalBool
  rw [eval]
  rcases a.eval req es with e | v
  · rfl
  rcases v with (_ | _) | _ | _ | _ | _ <;> try rfl
  rcases b.eval req es with e | w
  · rfl
  · cases w <;> rfl

@[simp] theorem evalBool_or (a b : Expr) :
    (Expr.or a b).evalBool req es = orElse (a.evalBool req es) (b.evalBool req es) := by
  unfold evalBool
  rw [eval]
  rcases a.eval req es with e | v
  · rfl
  rcases v with (_ | _) | _ | _ | _ | _ <;> try rfl
  rcases b.eval req es with e | w
  · rfl
  · cases w <;> rfl

theorem evalBool_foldl_or (e : Expr) (exprs : List Expr) :
    (exprs.foldl .or e).evalBool req es
      = orElse (e.evalBool req es) (anyOf (exprs.map (evalBool req es))) := by
  induction exprs generalizing e with
  | nil => simp [anyOf]
  | cons x xs ih => rw [List.foldl_cons, ih, evalBool_or, orElse_assoc]; rfl

theorem evalBool_foldl_and (e : Expr) (exprs : List Expr) :
    (exprs.foldl .and e).evalBool req es
      = andAlso (e.evalBool req es) (allOf (exprs.map (evalBool req es))) := by
  induction exprs generalizing e with
  | nil => simp [allOf]
  | cons x xs ih => rw [List.foldl_cons, ih, evalBool_and, andAlso_assoc]; rfl

end Expr

end Avon.Cedar

namespace Avon.Policy

open Avon.Cedar

theorem evalBool_joinOr (req : Request) (es : Entities) {exprs : List Expr} (hne : exprs ≠ []) :
    (joinOr exprs).evalBool req es = anyOf (exprs.map (Expr.evalBool req es)) := by
  cases exprs with
  | nil => exact absurd rfl hne
  | cons e exprs => exact Expr.evalBool_foldl_or req es e exprs

theorem evalBool_joinAnd (req : Request) (es : Entities) (exprs : List Expr) :
    (joinAnd exprs).evalBool req es = allOf (exprs.map (Expr.evalBool req es)) := by
  cases exprs with
  | nil => rfl
  | cons e exprs => exact Expr.evalBool_foldl_and req es e exprs

end Avon.Policy
