import Mathlib.Computability.Language

/-!
# Patterns over classes of letters

Regular expressions whose letters are classes, given by predicates. `denote` is the language of a
pattern, `accepts` decides it by taking derivatives letter by letter, and `accepts_iff` says that
they agree.
-/

set_option autoImplicit false

namespace Avon.Lib

open Computability

/-- A pattern. `fail` matches nothing, `empty` the empty word only, `cls p` one letter of the class
`p`. -/
inductive Pattern (α : Type*) where
  | fail
  | empty
  | cls (p : α → Bool)
  | alt (a b : Pattern α)
  | seq (a b : Pattern α)
  | star (a : Pattern α)

namespace Pattern

variable {α : Type*}

def letter (p : α → Bool) : Language α := {w | ∃ c, p c = true ∧ w = [c]}

def denote : Pattern α → Language α
  | fail => 0
  | empty => 1
  | cls p => letter p
  | alt a b => a.denote + b.denote
  | seq a b => a.denote * b.denote
  | star a => a.denote∗

def opt (a : Pattern α) : Pattern α := alt empty a

def times (a : Pattern α) : ℕ → Pattern α
  | 0 => empty
  | n + 1 => seq a (a.times n)

def nullable : Pattern α → Bool
  | fail => false
  | empty => true
  | cls _ => false
  | alt a b => a.nullable || b.nullable
  | seq a b => a.nullable && b.nullable
  | star _ => true

def deriv (c : α) : Pattern α → Pattern α
  | fail => fail
  | empty => fail
  | cls p => if p c then empty else fail
  | alt a b => alt (a.deriv c) (b.deriv c)
  | seq a b =>
    if a.nullable then alt (seq (a.deriv c) b) (b.deriv c) else seq (a.deriv c) b
  | star a => seq (a.deriv c) (star a)

def accepts (r : Pattern α) : List α → Bool
  | [] => r.nullable
  | c :: w => (r.deriv c).accepts w

/-! ### The language, decided -/

variable {w : List α} {c : α}

theorem mem_letter {p : α → Bool} : w ∈ letter p ↔ ∃ c, p c = true ∧ w = [c] := Iff.rfl

theorem nil_mem_denote (r : Pattern α) : [] ∈ r.denote ↔ r.nullable = true := by
  induction r with
  | fail | empty => simp [denote, nullable]
  | cls p => simp [denote, nullable, mem_letter]
  | alt a b iha ihb => simp only [denote, nullable, Language.mem_add, iha, ihb, Bool.or_eq_true]
  | seq a b iha ihb => simp [denote, nullable, Language.mem_mul, iha, ihb]
  | star a iha => simp only [denote, nullable, Language.nil_mem_kstar]

theorem cons_mem_mul {l m : Language α} :
    c :: w ∈ l * m ↔ (∃ u v, w = u ++ v ∧ c :: u ∈ l ∧ v ∈ m) ∨ ([] ∈ l ∧ c :: w ∈ m) := by
  rw [Language.mem_mul]
  constructor
  · rintro ⟨u, hu, v, hv, heq⟩
    cases u with
    | nil => exact .inr ⟨hu, heq ▸ hv⟩
    | cons c' u =>
      obtain ⟨rfl, rfl⟩ := List.cons.inj heq
      exact .inl ⟨u, v, rfl, hu, hv⟩
  rintro (⟨u, v, rfl, hu, hv⟩ | ⟨hnil, hw⟩)
  · exact ⟨c :: u, hu, v, hv, rfl⟩
  · exact ⟨[], hnil, c :: w, hw, rfl⟩

theorem cons_mem_kstar {l : Language α} :
    c :: w ∈ l∗ ↔ ∃ u v, w = u ++ v ∧ c :: u ∈ l ∧ v ∈ l∗ := by
  constructor
  · intro h
    rw [Language.kstar_def_nonempty] at h
    obtain ⟨S, hS, hmem⟩ := h
    cases S with
    | nil => cases hS
    | cons x S =>
      obtain ⟨hx, hne⟩ := hmem x List.mem_cons_self
      cases x with
      | nil => exact absurd rfl hne
      | cons c' u =>
        obtain ⟨rfl, rfl⟩ := List.cons.inj hS
        refine ⟨u, S.flatten, rfl, hx, Language.join_mem_kstar fun y hy => ?_⟩
        exact (hmem y (List.mem_cons_of_mem _ hy)).1
  · rintro ⟨u, v, rfl, hu, hv⟩
    obtain ⟨L, rfl, hL⟩ := Language.mem_kstar.mp hv
    exact Language.mem_kstar.mpr ⟨(c :: u) :: L, rfl, List.forall_mem_cons.mpr ⟨hu, hL⟩⟩

theorem cons_mem_denote (r : Pattern α) : c :: w ∈ r.denote ↔ w ∈ (r.deriv c).denote := by
  induction r generalizing w with
  | fail | empty => simp [denote, deriv]
  | cls p =>
    simp only [denote, deriv, mem_letter]
    split
    · rename_i hp
      simp [denote, hp]
    · rename_i hp
      simp [denote, hp]
  | alt a b iha ihb => simp only [denote, deriv, Language.mem_add, iha, ihb]
  | seq a b iha ihb =>
    simp only [denote, deriv, cons_mem_mul, nil_mem_denote, iha, ihb]
    have hfirst : (∃ u v, w = u ++ v ∧ u ∈ (a.deriv c).denote ∧ v ∈ b.denote) ↔
        w ∈ (a.deriv c).denote * b.denote := by
      rw [Language.mem_mul]
      grind
    rw [hfirst]
    split
    · rename_i hnull
      simp only [denote, Language.mem_add, hnull, true_and]
    · rename_i hnull
      simp [denote, hnull]
  | star a iha =>
    simp only [denote, deriv, cons_mem_kstar, iha, Language.mem_mul]
    grind

theorem accepts_iff {r : Pattern α} : r.accepts w = true ↔ w ∈ r.denote := by
  induction w generalizing r with
  | nil => exact (nil_mem_denote r).symm
  | cons c w ih => rw [accepts, ih, cons_mem_denote]

/-! ### Words of a pattern -/

section Words

variable {a b : Pattern α} {p : α → Bool}

@[simp] theorem mem_alt : w ∈ (alt a b).denote ↔ w ∈ a.denote ∨ w ∈ b.denote :=
  Language.mem_add _ _ _

theorem mem_seq : w ∈ (seq a b).denote ↔ ∃ u ∈ a.denote, ∃ v ∈ b.denote, u ++ v = w :=
  Language.mem_mul

@[simp] theorem mem_empty : w ∈ (empty : Pattern α).denote ↔ w = [] := Language.mem_one _

theorem mem_cls : w ∈ (cls p).denote ↔ ∃ c, p c = true ∧ w = [c] := Iff.rfl

@[simp] theorem mem_opt : w ∈ a.opt.denote ↔ w = [] ∨ w ∈ a.denote := by
  rw [opt, mem_alt, mem_empty]

theorem mem_seq_cls :
    w ∈ (seq (cls p) b).denote ↔ ∃ c v, p c = true ∧ v ∈ b.denote ∧ w = c :: v := by
  rw [mem_seq]
  constructor
  · rintro ⟨_, ⟨c, hc, rfl⟩, v, hv, rfl⟩
    exact ⟨c, v, hc, hv, rfl⟩
  · rintro ⟨c, v, hc, hv, rfl⟩
    exact ⟨[c], ⟨c, hc, rfl⟩, v, hv, rfl⟩

@[simp] theorem cons_mem_cls : c :: w ∈ (cls p).denote ↔ p c = true ∧ w = [] := by simp [mem_cls]

@[simp] theorem nil_mem_cls : [] ∈ (cls p).denote ↔ False := by simp [mem_cls]

@[simp] theorem cons_mem_seq_cls : c :: w ∈ (seq (cls p) b).denote ↔ p c = true ∧ w ∈ b.denote := by
  simp [mem_seq_cls]

@[simp] theorem nil_mem_seq_cls : [] ∈ (seq (cls p) b).denote ↔ False := by simp [mem_seq_cls]

@[simp] theorem mem_seq_opt : w ∈ (seq a.opt b).denote ↔ w ∈ b.denote ∨ w ∈ (seq a b).denote := by
  rw [mem_seq, mem_seq]
  constructor
  · rintro ⟨u, hu, v, hv, rfl⟩
    rcases mem_opt.mp hu with rfl | hu
    · exact .inl hv
    · exact .inr ⟨u, hu, v, hv, rfl⟩
  rintro (hw | ⟨u, hu, v, hv, rfl⟩)
  · exact ⟨[], mem_opt.mpr (.inl rfl), w, hw, rfl⟩
  · exact ⟨u, mem_opt.mpr (.inr hu), v, hv, rfl⟩

theorem mem_star_cls : w ∈ (star (cls p)).denote ↔ ∀ c ∈ w, p c = true := by
  induction w with
  | nil => simp only [denote, Language.nil_mem_kstar, List.not_mem_nil, false_implies, implies_true]
  | cons c w ih =>
    rw [List.forall_mem_cons, ← ih]
    simp only [denote, cons_mem_kstar, mem_letter]
    grind

end Words

end Pattern

end Avon.Lib
