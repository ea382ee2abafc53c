import Mathlib.Data.Nat.Notation
import Mathlib.Data.Option.Basic
import Mathlib.Logic.Function.Basic

/-!
# Tables as partial functions

A table is a function to `Option`, and `Function.update` writes one entry of it or takes it out.
`Expiring.Store` is a table whose entries have a time at which they expire: until then an entry can
be read, and from then on it cannot. `ExpiresBy P t` says that every entry whose value has the
property `P` expires by `t`.
-/

set_option autoImplicit false

namespace Avon.Lib

/-- The entries of a table after one of them was written. -/
theorem update_eq_some {κ β : Type*} [DecidableEq κ] {f : κ → Option β} {a b : κ} {v : Option β}
    {x : β} :
    Function.update f a v b = some x ↔ (b = a ∧ v = some x) ∨ (b ≠ a ∧ f b = some x) := by
  by_cases h : b = a
  · subst h
    simp
  · simp [h]

end Avon.Lib

namespace Avon.Lib.Expiring

variable {κ ν : Type*}

structure Store (κ ν : Type*) where
  entries : κ → Option (ν × ℕ)

namespace Store

def empty : Store κ ν := ⟨fun _ => none⟩

def get (s : Store κ ν) (now : ℕ) (k : κ) : Option ν :=
  (s.entries k).bind fun e => if now < e.2 then some e.1 else none

def setEx [DecidableEq κ] (s : Store κ ν) (now : ℕ) (k : κ) (v : ν) (ttl : ℕ) : Store κ ν :=
  ⟨Function.update s.entries k (some (v, now + ttl))⟩

variable {s : Store κ ν} {P Q : ν → Prop} {k k' : κ} {v : ν} {now ttl t : ℕ}

theorem get_eq_some :
    s.get now k = some v ↔ ∃ expiry, s.entries k = some (v, expiry) ∧ now < expiry := by
  unfold get
  cases h : s.entries k with
  | none => simp
  | some e =>
    obtain ⟨w, expiry⟩ := e
    simp only [Option.bind_some, Option.ite_none_right_eq_some, Option.some.injEq,
      Prod.mk.injEq]
    grind

/-- Every entry whose value has the property expires by `t`. -/
def ExpiresBy (P : ν → Prop) (t : ℕ) (s : Store κ ν) : Prop :=
  ∀ k v expiry, s.entries k = some (v, expiry) → P v → expiry ≤ t

theorem expiresBy_empty (P : ν → Prop) (t : ℕ) : ExpiresBy P t (empty : Store κ ν) :=
  fun _ _ _ h => nomatch h

theorem ExpiresBy.imp (h : ExpiresBy P t s) (hQ : ∀ v, Q v → P v) : ExpiresBy Q t s :=
  fun k v expiry he hv => h k v expiry he (hQ v hv)

theorem ExpiresBy.lt_of_get (h : ExpiresBy P t s)
    (hget : s.get now k = some v) (hv : P v) : now < t := by
  obtain ⟨expiry, hentry, hlive⟩ := get_eq_some.mp hget
  exact Nat.lt_of_lt_of_le hlive (h _ _ _ hentry hv)

variable [DecidableEq κ]

theorem setEx_entries_self : (s.setEx now k v ttl).entries k = some (v, now + ttl) := by
  simp [setEx]

theorem setEx_entries_ne (h : k' ≠ k) : (s.setEx now k v ttl).entries k' = s.entries k' := by
  simp [setEx, h]

theorem setEx_entries_cases {v' : ν} {expiry : ℕ}
    (h : (s.setEx now k v ttl).entries k' = some (v', expiry)) :
    (v' = v ∧ expiry = now + ttl) ∨ s.entries k' = some (v', expiry) := by
  by_cases hk : k' = k
  · subst hk
    rw [setEx_entries_self] at h
    cases h
    exact .inl ⟨rfl, rfl⟩
  · rw [setEx_entries_ne hk] at h
    exact .inr h

theorem ExpiresBy.setEx (h : ExpiresBy P t s) (hnew : P v → now + ttl ≤ t) :
    ExpiresBy P t (s.setEx now k v ttl) := by
  intro k' v' expiry he hv
  rcases setEx_entries_cases he with ⟨rfl, rfl⟩ | hold
  · exact hnew hv
  · exact h _ _ _ hold hv

end Store

end Avon.Lib.Expiring
