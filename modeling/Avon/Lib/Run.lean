import Mathlib.Data.List.Basic

/-!
# Runs of a step function

A system is a total step function on states and events; an event that is not enabled leaves the
state alone. `Guarded G` is a run whose every event meets the guard `G` in the state it happens in,
and `Guarded.invariant` is the induction rule over such runs.
-/

set_option autoImplicit false

namespace Avon.Lib.Run

variable {σ ε ω : Type*} (step : σ → ε → σ)

def run (s : σ) (events : List ε) : σ :=
  events.foldl step s

@[simp] theorem run_nil (s : σ) : run step s [] = s := rfl

@[simp] theorem run_cons (s : σ) (e : ε) (events : List ε) :
    run step s (e :: events) = run step (step s e) events := rfl

@[simp] theorem run_append (s : σ) (xs ys : List ε) :
    run step s (xs ++ ys) = run step (run step s xs) ys := by
  simp [run, List.foldl_append]

/-- Every event of the run meets the guard `G` in the state it happens in. -/
def Guarded (G : σ → ε → Prop) : σ → List ε → Prop
  | _, [] => True
  | s, e :: events => G s e ∧ Guarded G (step s e) events

instance decidableGuarded (G : σ → ε → Prop) [∀ s e, Decidable (G s e)] :
    (s : σ) → (events : List ε) → Decidable (Guarded step G s events)
  | _, [] => isTrue trivial
  | s, e :: events =>
    have : Decidable (Guarded step G (step s e) events) := decidableGuarded G (step s e) events
    inferInstanceAs (Decidable (G s e ∧ Guarded step G (step s e) events))

variable {G : σ → ε → Prop}

theorem guarded_append {step : σ → ε → σ} {s : σ} {xs ys : List ε} :
    Guarded step G s (xs ++ ys) ↔ Guarded step G s xs ∧ Guarded step G (run step s xs) ys := by
  induction xs generalizing s with
  | nil => simp [Guarded]
  | cons e xs ih => simp only [List.cons_append, Guarded, ih, run_cons, and_assoc]

/-- The guarded induction rule: what every guarded step keeps holds after a guarded
run. -/
theorem Guarded.invariant {step : σ → ε → σ} {I : σ → Prop}
    (hstep : ∀ s e, I s → G s e → I (step s e)) {s : σ} {events : List ε}
    (hs : I s) (hG : Guarded step G s events) : I (run step s events) := by
  induction events generalizing s with
  | nil => exact hs
  | cons e events ih => exact ih (hstep s e hs hG.1) hG.2

theorem guarded_of_forall {step : σ → ε → σ} (h : ∀ s e, G s e) (s : σ)
    (events : List ε) : Guarded step G s events := by
  induction events generalizing s with
  | nil => trivial
  | cons e events ih => exact ⟨h s e, ih (step s e)⟩

theorem run_invariant {step : σ → ε → σ} {I : σ → Prop}
    (hstep : ∀ s e, I s → I (step s e)) {s : σ} (hs : I s) (events : List ε) :
    I (run step s events) :=
  Guarded.invariant (G := fun _ _ => True) (fun s e h _ => hstep s e h) hs
    (guarded_of_forall (fun _ _ => trivial) s events)

def Leads (G : σ → ε → Prop) (s s' : σ) : Prop :=
  ∃ events, Guarded step G s events ∧ run step s events = s'

/-- What a run emits, in order: `out s e` is what event `e` emits in state `s`. -/
def trace (out : σ → ε → List ω) : σ → List ε → List ω
  | _, [] => []
  | s, e :: events => out s e ++ trace out (step s e) events

@[simp] theorem trace_append (out : σ → ε → List ω) (s : σ) (xs ys : List ε) :
    trace step out s (xs ++ ys) = trace step out s xs ++ trace step out (run step s xs) ys := by
  induction xs generalizing s with
  | nil => rfl
  | cons e xs ih => simp [trace, ih]

/-- If the events `out s e` of a second system answer every event of the first one, the two stay
related in every run. -/
theorem run_refines {σ' ε' : Type*} {step : σ → ε → σ} {step' : σ' → ε' → σ'}
    {out : σ → ε → List ε'} {R : σ' → σ → Prop}
    (hstep : ∀ t s e, R t s → R (run step' t (out s e)) (step s e)) {t : σ'} {s : σ} (h : R t s)
    (events : List ε) : R (run step' t (trace step out s events)) (run step s events) := by
  induction events generalizing t s with
  | nil => exact h
  | cons e events ih =>
    rw [trace, run_append, run_cons]
    exact ih (hstep t s e h)

end Avon.Lib.Run
