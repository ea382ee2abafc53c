import Mathlib.Data.List.TakeDrop
import Mathlib.Data.List.TakeWhile

/-!
# Lists cut at a separator

What `List.span` and `List.splitOn` make of a list, up to its first separator.
-/

set_option autoImplicit false

namespace Avon.Lib

variable {α : Type*} [DecidableEq α] {c : α} {a b : List α}

section
variable (h : c ∉ a)
include h

theorem forall_ne : ∀ d ∈ a, decide (d ≠ c) = true := by
  intro d hd
  simpa using fun heq : d = c => h (heq ▸ hd)

theorem takeWhile_ne : (a ++ c :: b).takeWhile (· ≠ c) = a := by
  rw [List.takeWhile_append_of_pos (forall_ne h)]
  simp

theorem dropWhile_ne : (a ++ c :: b).dropWhile (· ≠ c) = c :: b := by
  rw [List.dropWhile_append_of_pos (forall_ne h)]
  simp

theorem span_ne : (a ++ c :: b).span (· ≠ c) = (a, c :: b) := by
  rw [List.span_eq_takeWhile_dropWhile, takeWhile_ne h, dropWhile_ne h]

theorem span_ne_all : a.span (· ≠ c) = (a, []) := by
  rw [List.span_eq_takeWhile_dropWhile, List.takeWhile_eq_self_iff.mpr (forall_ne h),
    List.dropWhile_eq_nil_iff.mpr (forall_ne h)]

theorem splitOn_segment : (a ++ c :: b).splitOn c = a :: b.splitOn c := by
  rw [List.splitOn_append_cons_self, List.splitOn_eq_singleton h]
  rfl

theorem cut_inj {a' b' : List α} (h' : c ∉ a') (heq : a ++ c :: b = a' ++ c :: b') :
    a = a' ∧ b = b' := by
  have hspan := congrArg (List.span (· ≠ c)) heq
  rw [span_ne h, span_ne h', Prod.mk.injEq, List.cons.injEq] at hspan
  exact ⟨hspan.1, hspan.2.2⟩

end

theorem cut_cases (c : α) (s : List α) : c ∉ s ∨ ∃ a b, c ∉ a ∧ s = a ++ c :: b := by
  by_cases h : c ∈ s
  · obtain ⟨a, b, rfl, ha⟩ := List.eq_append_cons_of_mem h
    exact .inr ⟨a, b, ha, rfl⟩
  · exact .inl h

end Avon.Lib
