import Mathlib.Data.List.Basic

/-!
# Exclusive locks

Locks on rows, or on anything else that has a name of type `κ`. A lock has at most one holder, of
type `ι`. A holder takes locks that are free, keeps them, and gives all of them back at once.
-/

set_option autoImplicit false

namespace Avon.Lib

abbrev Locks (κ ι : Type*) := κ → Option ι

namespace Locks

variable {κ ι : Type*} {l : Locks κ ι} {k k' : ι} {c : κ} {cs : List κ}

def free [DecidableEq ι] (l : Locks κ ι) (k : ι) (cs : List κ) : Bool :=
  cs.all fun c => l c = none ∨ l c = some k

def acquire [DecidableEq κ] (l : Locks κ ι) (k : ι) (cs : List κ) : Locks κ ι :=
  fun c => if c ∈ cs then some k else l c

def release [DecidableEq ι] (l : Locks κ ι) (k : ι) : Locks κ ι :=
  fun c => if l c = some k then none else l c

theorem acquire_of_mem [DecidableEq κ] (h : c ∈ cs) : l.acquire k cs c = some k := if_pos h

theorem holds_acquire [DecidableEq κ] [DecidableEq ι] (hfree : l.free k cs = true)
    (h : l c = some k') : l.acquire k cs c = some k' := by
  unfold acquire
  split
  · next hc =>
    have hc' := of_decide_eq_true (List.all_eq_true.mp hfree c hc)
    rcases hc' with hnone | hsome
    · rw [hnone] at h
      cases h
    · exact hsome.symm.trans h
  · exact h

theorem holds_release [DecidableEq ι] (hne : k' ≠ k) (h : l c = some k') :
    l.release k c = some k' := by
  unfold release
  rw [if_neg]
  · exact h
  · intro hk
    exact hne (Option.some.inj (h.symm.trans hk))

end Locks

end Avon.Lib
