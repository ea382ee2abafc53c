import Mathlib.Logic.Function.Iterate

/-!
# Where a deterministic machine gets to

`Reaches step s t` says that the machine gets from `s` to `t` in some number of steps. A state
that `step` leaves as it is, is where the machine stays: it has halted there, or waits for
ever. `Reaches.eq_of_fixed` says that there is at most one such state.
-/

set_option autoImplicit false

namespace Avon.Lib

variable {σ : Type*} {step : σ → σ} {s t u : σ}

def Reaches (step : σ → σ) (s t : σ) : Prop := ∃ n, step^[n] s = t

namespace Reaches

theorem refl (s : σ) : Reaches step s s := ⟨0, rfl⟩

theorem head (h : Reaches step (step s) t) : Reaches step s t := by
  obtain ⟨n, hn⟩ := h
  exact ⟨n + 1, hn⟩

theorem eq_of_fixed (ht : Reaches step s t) (hu : Reaches step s u) (htt : step t = t)
    (huu : step u = u) : t = u := by
  obtain ⟨n, rfl⟩ := ht
  obtain ⟨m, rfl⟩ := hu
  -- Both are where the machine is after `n + m` steps.
  calc step^[n] s = step^[m] (step^[n] s) := (Function.iterate_fixed htt m).symm
    _ = step^[n] (step^[m] s) := by
        rw [← Function.iterate_add_apply, ← Function.iterate_add_apply, Nat.add_comm]
    _ = step^[m] s := Function.iterate_fixed huu n

end Reaches

end Avon.Lib
