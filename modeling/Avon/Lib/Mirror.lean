import Mathlib.Data.List.Basic

/-!
# Copies that follow an original through messages

A copy follows an original through messages that may carry a value for a topic. `settle` is the copy
after all that waits in an inbox: a copy is in step if settling it gives the value of the original.
-/

set_option autoImplicit false

namespace Avon.Lib.Mirror

variable {μ τ ν : Type*} (carried : μ → τ → Option ν) (merge : τ → ν → ν → ν)

def update (topic : τ) (v : ν) (msg : μ) : ν :=
  match carried msg topic with
  | some w => merge topic v w
  | none => v

def settle (topic : τ) (v : ν) (inbox : List μ) : ν :=
  inbox.foldl (update carried merge topic) v

variable {carried merge} {topic : τ} {v : ν}

theorem update_of_some {msg : μ} {w : ν} (h : carried msg topic = some w) :
    update carried merge topic v msg = merge topic v w := by
  rw [update, h]

theorem update_of_none {msg : μ} (h : carried msg topic = none) :
    update carried merge topic v msg = v := by
  rw [update, h]

@[simp] theorem settle_nil : settle carried merge topic v [] = v := rfl

@[simp] theorem settle_cons (msg : μ) (inbox : List μ) :
    settle carried merge topic v (msg :: inbox) =
      settle carried merge topic (update carried merge topic v msg) inbox := rfl

@[simp] theorem settle_concat (inbox : List μ) (msg : μ) :
    settle carried merge topic v (inbox ++ [msg]) =
      update carried merge topic (settle carried merge topic v inbox) msg := by
  simp [settle]

theorem settle_of_none {inbox : List μ} (h : ∀ msg ∈ inbox, carried msg topic = none) :
    settle carried merge topic v inbox = v := by
  induction inbox with
  | nil => rfl
  | cons msg inbox ih =>
    rw [settle_cons, update_of_none (h msg List.mem_cons_self)]
    exact ih fun m hm => h m (List.mem_cons_of_mem _ hm)

/-- What merging keeps holds of the copy at the end, if it holds at the start and of all that
the messages carry. -/
theorem settle_invariant {I : ν → Prop} (hmerge : ∀ v w, I v → I w → I (merge topic v w))
    {inbox : List μ} (hinbox : ∀ msg ∈ inbox, ∀ w, carried msg topic = some w → I w) (hv : I v) :
    I (settle carried merge topic v inbox) := by
  induction inbox generalizing v with
  | nil => exact hv
  | cons msg inbox ih =>
    refine ih (fun m hm => hinbox m (List.mem_cons_of_mem _ hm)) ?_
    cases hcarried : carried msg topic with
    | none => rwa [update_of_none hcarried]
    | some w =>
      rw [update_of_some hcarried]
      exact hmerge v w hv (hinbox msg List.mem_cons_self w hcarried)

end Avon.Lib.Mirror
