import Avon.Lib.BigEndian
import Avon.Lib.Except

/-!
# Readers that undo an encoder

A reader takes a value from the front of a list and leaves the rest. `Reads r enc P` says that it
accepts exactly the encodings of the values in `P`.
-/

set_option autoImplicit false

namespace Avon.Lib.Codec

open Avon.Lib.BigEndian

variable {ε β α γ : Type}

abbrev ListReader (ε β α : Type) := StateT (List β) (Except ε) α

/-- The reader accepts exactly the encodings of the values in `P`. -/
def Reads (r : ListReader ε β α) (enc : α → List β) (P : α → Prop) : Prop :=
  ∀ buf a rest, r.run buf = .ok (a, rest) ↔ P a ∧ buf = enc a ++ rest

variable {r : ListReader ε β α} {enc : α → List β} {P : α → Prop}

variable {f : α → ListReader ε β γ} {buf : List β} {out : γ × List β}

theorem run_bind_eq_ok :
    (r >>= f).run buf = .ok out ↔
      ∃ a mid, r.run buf = .ok (a, mid) ∧ (f a).run mid = .ok out := by
  simp only [StateT.run_bind, bind_eq_ok, Prod.exists]

variable {y : ListReader ε β γ} {rest : List β} {p : Prop} {e : ε} {a : α}

theorem run_pure_eq_ok {b : α} :
    (pure a : ListReader ε β α).run buf = .ok (b, rest) ↔ b = a ∧ rest = buf := by
  show Except.ok (a, buf) = Except.ok (b, rest) ↔ _
  rw [Except.ok.injEq, Prod.mk.injEq, eq_comm, @eq_comm _ buf]

theorem run_throw_ne_ok {out : α × List β} :
    (throw e : ListReader ε β α).run buf ≠ .ok out := nofun

theorem run_lift_eq_ok {x : Except ε α} :
    (liftM x : ListReader ε β α).run buf = .ok (a, rest) ↔ x = .ok a ∧ rest = buf := by
  show (x >>= fun a => pure (a, buf)) = .ok (a, rest) ↔ _
  rw [bind_eq_ok]
  constructor
  · rintro ⟨a', hx, heq⟩
    cases heq
    exact ⟨hx, rfl⟩
  · rintro ⟨hx, rfl⟩
    exact ⟨a, hx, rfl⟩

theorem run_ite_throw [Decidable p] :
    (if p then throw e else y).run buf = .ok out ↔ ¬ p ∧ y.run buf = .ok out := by
  split
  · simp only [run_throw_ne_ok, false_and, *, not_true_eq_false]
  · simp only [*, not_false_eq_true, true_and]

theorem run_ite_throw_eq_ok [Decidable p] {x : α → ListReader ε β γ} :
    (if p then throw e >>= x else y).run buf = .ok out ↔ ¬ p ∧ y.run buf = .ok out := run_ite_throw

theorem ite_bind [Decidable p] {x y : ListReader ε β α} :
    (if p then x >>= f else y >>= f) = (if p then x else y) >>= f := by
  split <;> rfl

theorem Reads.map (h : Reads r enc P) {Q : γ → Prop} {f : α → γ} {g : γ → α}
    (hf : ∀ a, P a → Q (f a) ∧ g (f a) = a) (hg : ∀ c, Q c → P (g c) ∧ f (g c) = c) :
    Reads (do return f (← r)) (fun c => enc (g c)) Q := by
  intro buf c rest
  simp only [run_bind_eq_ok, run_pure_eq_ok]
  constructor
  · rintro ⟨a, mid, hr, rfl, rfl⟩
    obtain ⟨hP, rfl⟩ := (h _ _ _).mp hr
    obtain ⟨hQ, hgf⟩ := hf a hP
    exact ⟨hQ, by rw [hgf]⟩
  rintro ⟨hQ, rfl⟩
  obtain ⟨hP, hfg⟩ := hg c hQ
  exact ⟨g c, rest, (h _ _ _).mpr ⟨hP, rfl⟩, hfg.symm, rfl⟩

theorem exists_split {n : ℕ} (buf : List β) (h : n ≤ buf.length) :
    ∃ x y, x.length = n ∧ buf = x ++ y :=
  ⟨buf.take n, buf.drop n, List.length_take_of_le h, (List.take_append_drop n buf).symm⟩

theorem append_eq_iff {x x' y y' : List β} (h : x.length = x'.length) :
    x ++ y = x' ++ y' ↔ x = x' ∧ y = y' := by
  constructor
  · exact fun heq => List.append_inj heq h
  · rintro ⟨rfl, rfl⟩
    rfl

end Avon.Lib.Codec
