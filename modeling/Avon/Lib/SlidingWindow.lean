import Mathlib.Data.Finset.Max
import Mathlib.Order.Interval.Finset.Nat

/-!
# The ideal sliding window

A sliding window of width `n` accepts an item exactly when the item is new and no accepted item is
`n` or more ahead of it (`Admits`). `kept` is the part of the accepted set that the rule can still
read: the items within `n` of the highest one. The items are of any type `α` with a number `val a`.
-/

set_option autoImplicit false

namespace Avon.Lib.SlidingWindow

variable {α : Type*} (val : α → ℕ) (n : ℕ)

/-- The rule of the ideal window: `c` was not accepted before, and every accepted
item is less than `n` ahead of `c`. -/
def Admits (accepted : Finset α) (c : α) : Prop :=
  c ∉ accepted ∧ ∀ a ∈ accepted, val a < val c + n

instance [DecidableEq α] (accepted : Finset α) (c : α) : Decidable (Admits val n accepted c) :=
  inferInstanceAs (Decidable (_ ∧ _))

/-- The accepted items within `n` of the highest accepted one. -/
def kept (accepted : Finset α) : Finset α :=
  accepted.filter fun c => ∀ a ∈ accepted, val a < val c + n

def IsHighest (accepted : Finset α) (h : α) : Prop :=
  h ∈ accepted ∧ ∀ a ∈ accepted, val a ≤ val h

variable {val n} {accepted : Finset α} {h : α} {c : α}

theorem mem_kept : c ∈ kept val n accepted ↔ c ∈ accepted ∧ ∀ a ∈ accepted, val a < val c + n := by
  simp [kept]

/-- Being less than `n` behind every accepted item is being less than `n` behind
the highest one. -/
theorem forall_lt_iff_of_isHighest (hh : IsHighest val accepted h) (c : α) :
    (∀ a ∈ accepted, val a < val c + n) ↔ val h < val c + n := by
  constructor
  · intro hall
    exact hall h hh.1
  · intro hlt a ha
    exact Nat.lt_of_le_of_lt (hh.2 a ha) hlt

theorem mem_kept_of_isHighest (hh : IsHighest val accepted h) :
    c ∈ kept val n accepted ↔ c ∈ accepted ∧ val h < val c + n := by
  rw [mem_kept, forall_lt_iff_of_isHighest hh]

theorem admits_empty (c : α) : Admits val n ∅ c := by
  simp [Admits]

theorem admits_of_lt {h c : α} (hn : 0 < n)
    (hh : IsHighest val accepted h) (hc : val h < val c) : Admits val n accepted c := by
  refine ⟨fun hmem => ?_, fun a ha => ?_⟩
  · have := hh.2 c hmem
    omega
  · have := hh.2 a ha
    omega

/-- An item that is not ahead of the highest one is admitted exactly when it is
inside the window and `kept` does not hold it. -/
theorem admits_iff_of_isHighest (hh : IsHighest val accepted h) (c : α) :
    Admits val n accepted c ↔ val h < val c + n ∧ c ∉ kept val n accepted := by
  unfold Admits
  rw [forall_lt_iff_of_isHighest hh, mem_kept_of_isHighest hh]
  tauto

section
variable [DecidableEq α]

theorem IsHighest.insert_ahead (hh : IsHighest val accepted h) (hc : val h ≤ val c) :
    IsHighest val (insert c accepted) c := by
  refine ⟨Finset.mem_insert_self _ _, fun a ha => ?_⟩
  rcases Finset.mem_insert.mp ha with rfl | ha
  · exact Nat.le_refl _
  · exact (hh.2 a ha).trans hc

theorem IsHighest.insert_behind (hh : IsHighest val accepted h) (hc : val c ≤ val h) :
    IsHighest val (insert c accepted) h := by
  refine ⟨Finset.mem_insert_of_mem hh.1, fun a ha => ?_⟩
  rcases Finset.mem_insert.mp ha with rfl | ha
  · exact hc
  · exact hh.2 a ha

/-- Accepting an item ahead of the highest one: `kept` loses what falls out of the
window and gains the item. -/
theorem kept_insert_ahead (hn : 0 < n)
    (hh : IsHighest val accepted h) (hc : val h < val c) :
    kept val n (insert c accepted)
      = insert c ((kept val n accepted).filter fun x => val c < val x + n) := by
  ext x
  rw [mem_kept_of_isHighest (hh.insert_ahead hc.le), Finset.mem_insert, Finset.mem_insert,
    Finset.mem_filter, mem_kept_of_isHighest hh]
  constructor
  · rintro ⟨rfl | hx, hlt⟩
    · exact .inl rfl
    · exact .inr ⟨⟨hx, by omega⟩, hlt⟩
  rintro (rfl | ⟨⟨hx, _⟩, hlt⟩)
  · exact ⟨.inl rfl, by omega⟩
  · exact ⟨.inr hx, hlt⟩

/-- Accepting an item inside the window, not ahead of the highest one: `kept` gains
the item and loses nothing. -/
theorem kept_insert_behind (hh : IsHighest val accepted h) (hc : val c ≤ val h)
    (hin : val h < val c + n) :
    kept val n (insert c accepted) = insert c (kept val n accepted) := by
  ext x
  rw [mem_kept_of_isHighest (hh.insert_behind hc), Finset.mem_insert, Finset.mem_insert,
    mem_kept_of_isHighest hh]
  grind

end

/-- A window of width `n` keeps at most `n` items: their numbers are distinct and lie
in the `n` numbers up to the highest. -/
theorem card_kept_le (hinj : Function.Injective val) (accepted : Finset α) :
    (kept val n accepted).card ≤ n := by
  rcases accepted.eq_empty_or_nonempty with rfl | hne
  · simp [kept]
  obtain ⟨h, hmem, hmax⟩ := accepted.exists_max_image val hne
  have hh : IsHighest val accepted h := ⟨hmem, hmax⟩
  have hsub : (kept val n accepted).image val ⊆ Finset.Ico (val h + 1 - n) (val h + 1) := by
    intro v hv
    obtain ⟨x, hx, rfl⟩ := Finset.mem_image.mp hv
    obtain ⟨hxa, hlt⟩ := (mem_kept_of_isHighest hh).mp hx
    have hle := hh.2 x hxa
    exact Finset.mem_Ico.mpr ⟨by omega, by omega⟩
  have hcard := Finset.card_le_card hsub
  rw [Finset.card_image_of_injective _ hinj, Nat.card_Ico] at hcard
  omega

end Avon.Lib.SlidingWindow
