import Avon.Lib.Run
import Mathlib.Data.List.Induction

/-!
# What has happened in a run

`Happened step s [P₁, …, Pₙ] events` says that in the run there were events that meet `Pₙ`, …, `P₁`,
in this order. Each predicate is about an event and the state in which it happens.
-/

set_option autoImplicit false

namespace Avon.Lib.Run

variable {σ ε : Type*} (step : σ → ε → σ)

def Happened (s : σ) : List (σ → ε → Prop) → List ε → Prop
  | [], _ => True
  | P :: earlier, events =>
    ∃ pre e post, events = pre ++ e :: post ∧ P (run step s pre) e ∧ Happened s earlier pre

variable {step} {s : σ} {P : σ → ε → Prop} {earlier : List (σ → ε → Prop)} {events : List ε}

theorem Happened.append (h : Happened step s earlier events) (more : List ε) :
    Happened step s earlier (events ++ more) := by
  cases earlier with
  | nil => trivial
  | cons P earlier =>
    obtain ⟨pre, e, post, rfl, hP, hearlier⟩ := h
    exact ⟨pre, e, post ++ more, by simp, hP, hearlier⟩

variable {I : List ε → σ → Prop} {e : ε}

theorem Happened.snoc (h : Happened step s earlier events) (hP : P (run step s events) e) :
    Happened step s (P :: earlier) (events ++ [e]) :=
  ⟨events, e, [], rfl, hP, h⟩

theorem Happened.exists_mem {Ps : List (σ → ε → Prop)} (h : Happened step s Ps events)
    (hP : P ∈ Ps) : ∃ e ∈ events, ∃ s', P s' e := by
  induction Ps generalizing events with
  | nil => cases hP
  | cons Q earlier ih =>
    obtain ⟨pre, e, post, rfl, hQ, hearlier⟩ := h
    rcases List.mem_cons.mp hP with rfl | hP
    · exact ⟨e, by simp, _, hQ⟩
    · obtain ⟨e', hmem, hP'⟩ := ih hearlier hP
      exact ⟨e', List.mem_append_left _ hmem, hP'⟩

/-- What holds at the start, and is kept by every guarded step with its event added to the
events so far, holds at the end of a guarded run. -/
theorem Guarded.history {G : σ → ε → Prop} (hs : I [] s)
    (hstep : ∀ xs e, I xs (run step s xs) → G (run step s xs) e →
      I (xs ++ [e]) (step (run step s xs) e))
    (hG : Guarded step G s events) : I events (run step s events) := by
  induction events using List.reverseRecOn with
  | nil => exact hs
  | append_singleton xs e ih =>
    obtain ⟨hxs, hlast⟩ := guarded_append.mp hG
    have hrun : run step s (xs ++ [e]) = step (run step s xs) e := by simp
    rw [hrun]
    exact hstep xs e (ih hxs) hlast.1

theorem run_history (hs : I [] s)
    (hstep : ∀ xs e, I xs (run step s xs) → I (xs ++ [e]) (step (run step s xs) e))
    (events : List ε) : I events (run step s events) :=
  Guarded.history (G := fun _ _ => True) hs (fun xs e h _ => hstep xs e h)
    (guarded_of_forall (fun _ _ => trivial) s events)

theorem happened_last (hP : P (run step s events) e) : Happened step s [P] (events ++ [e]) :=
  ⟨events, e, [], rfl, hP, trivial⟩

end Avon.Lib.Run
