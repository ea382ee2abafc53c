import Avon.Lib.Except
import Mathlib.Data.Nat.Notation
import Mathlib.Tactic.Simproc.ExistsAndEq

/-!
# Readers with a position, and what they read

A reader gets a buffer and keeps a position in it. `Reads` relates its values to what it read for
them. It holds at every place in a buffer, so it goes through `>>=`.
-/

set_option autoImplicit false

namespace Avon.Lib

variable {σ ε α β : Type}

abbrev Reader (σ ε α : Type) := List σ → StateT ℕ (Except ε) α

/-- Anywhere in a buffer, the reader reads what `R` relates to its value and nothing else. It stops
at the end of it. -/
def Reads (r : Reader σ ε α) (R : α → List σ → Prop) : Prop :=
  ∀ pre suf a pos, (r (pre ++ suf)).run pre.length = .ok (a, pos) ↔
    ∃ e rest, R a e ∧ suf = e ++ rest ∧ pos = (pre ++ e).length

variable {r : Reader σ ε α} {R R' : α → List σ → Prop}

theorem Reads.congr (h : Reads r R) (hR : ∀ a e, R a e ↔ R' a e) : Reads r R' := by
  intro pre suf a pos
  simp only [h pre suf a pos, hR]

theorem reads_pure (a : α) :
    Reads (fun _ => pure a : Reader σ ε α) fun b e => b = a ∧ e = [] := by
  intro pre suf b pos
  show Except.ok (a, pre.length) = .ok (b, pos) ↔ _
  simp [eq_comm]

/-- One reader after another. -/
theorem Reads.bind (h : Reads r R) {f : α → Reader σ ε β} {Q : α → β → List σ → Prop}
    (hf : ∀ a, Reads (f a) (Q a)) :
    Reads (fun buf => r buf >>= fun a => f a buf)
      fun b e => ∃ a e₁, R a e₁ ∧ ∃ e₂, Q a b e₂ ∧ e = e₁ ++ e₂ := by
  intro pre suf b pos
  rw [StateT.run_bind, bind_eq_ok]
  constructor
  · rintro ⟨⟨a, mid⟩, hr, hrest⟩
    obtain ⟨e₁, rest, ha, rfl, rfl⟩ := (h pre suf a mid).mp hr
    rw [← List.append_assoc] at hrest
    obtain ⟨e₂, rest', hb, rfl, rfl⟩ := (hf a _ _ b pos).mp hrest
    exact ⟨_, rest', ⟨a, e₁, ha, e₂, hb, rfl⟩, (List.append_assoc _ _ _).symm,
      by rw [List.append_assoc]⟩
  rintro ⟨_, rest, ⟨a, e₁, ha, e₂, hb, rfl⟩, rfl, rfl⟩
  have hfirst := (h pre (e₁ ++ (e₂ ++ rest)) a _).mpr ⟨e₁, _, ha, rfl, rfl⟩
  have hsecond := (hf a (pre ++ e₁) (e₂ ++ rest) b _).mpr ⟨e₂, _, hb, rfl, rfl⟩
  rw [List.append_assoc] at hsecond
  exact ⟨(a, _), by rw [List.append_assoc]; exact hfirst, by simpa using hsecond⟩

theorem Reads.guard {p : Prop} [Decidable p] {x : ε}
    {k : List σ → PUnit → StateT ℕ (Except ε) α} (h : Reads r R) :
    Reads (fun buf => if p then throw x >>= k buf else r buf) fun a e => ¬ p ∧ R a e := by
  intro pre suf a pos
  split
  · next hp =>
    refine iff_of_false (fun hrun => ?_) (by simp [hp])
    cases hrun
  next hp => simp only [h pre suf a pos, hp, not_false_eq_true, true_and]

end Avon.Lib
