import Avon.Crypto.Cipher
import Avon.Proofs.Crypto.ReplayWindow

/-!
# What a window refuses, it refuses for good

Facts about the total window of a cipher that hold without a history of what it accepted, all from
`commit_cases`. `represents_commit` is the commit against the ideal window.
-/

set_option autoImplicit false

namespace Avon.Crypto.Window

open Avon.Crypto.ReplayWindow Avon.Lib.SlidingWindow

variable {w w' : Window} {c : UInt64}

/-- A committed counter was not accepted before, and the window then stands for one more
counter. -/
theorem represents_commit {A : Finset UInt64} {counter : UInt64}
    (hr : Represents w.1 A) (h : w.checkAndUpdate counter = (.ok (), w')) :
    counter ∉ A ∧ Represents w'.1 (insert counter A) := by
  obtain ⟨r, v, heq, hadm, hok, -⟩ := checkAndUpdate_represents hr counter
  rw [Window.checkAndUpdate_spec, h] at heq
  obtain ⟨rfl, rfl⟩ := Prod.mk.inj (Option.some.inj heq)
  exact ⟨(hadm.mp rfl).1, hok rfl⟩

/-- What a commit does: it opens an empty window, moves it ahead, or fills a gap in it. -/
theorem commit_cases (h : w.checkAndUpdate c = (.ok (), w')) :
    (w.1.highest = none ∧ w'.1 = ⟨insert c w.1.seen, some c⟩) ∨
    (∃ hi, w.1.highest = some hi ∧ hi < c ∧ w'.1 = ⟨insert c
      (if c - hi ≥ SIZE then ∅ else w.1.seen.filter fun x => c - x < SIZE), some c⟩) ∨
    (∃ hi, w.1.highest = some hi ∧ c ≤ hi ∧ w'.1 = ⟨insert c w.1.seen, some hi⟩) := by
  have hspec := checkAndUpdate_spec w c
  rw [h, ReplayWindow.checkAndUpdate_eq w.2] at hspec
  cases hh : w.1.highest with
  | none =>
    simp only [hh, Option.some.injEq, Prod.mk.injEq, true_and] at hspec
    exact .inl ⟨rfl, hspec.symm⟩
  | some hi =>
    simp only [hh] at hspec
    split at hspec
    · rename_i hgt
      simp only [Option.some.injEq, Prod.mk.injEq, true_and] at hspec
      exact .inr (.inl ⟨hi, rfl, hgt, hspec.symm⟩)
    rename_i hgt
    split at hspec
    · cases hspec
    split at hspec
    · cases hspec
    · simp only [Option.some.injEq, Prod.mk.injEq, true_and] at hspec
      exact .inr (.inr ⟨hi, rfl, UInt64.not_lt.mp hgt, hspec.symm⟩)

/-- The window refuses the counter: it is at or below the highest one, and too old or seen. -/
def Refuses (w : Window) (c : UInt64) : Prop :=
  ∃ hi, w.1.highest = some hi ∧ c ≤ hi ∧ (SIZE ≤ hi - c ∨ c ∈ w.1.seen)

theorem Refuses.not_commit (h : w.Refuses c) :
    w.checkAndUpdate c ≠ (.ok (), w') := by
  intro hcommit
  obtain ⟨hi, hhi, hle, hwhy⟩ := h
  have hspec := checkAndUpdate_spec w c
  rw [hcommit, ReplayWindow.checkAndUpdate_eq w.2] at hspec
  simp only [hhi, gt_iff_lt, UInt64.not_lt.mpr hle, if_false] at hspec
  rcases hwhy with hold | hseen
  · simp [hold] at hspec
  · rw [if_pos hseen] at hspec
    split at hspec <;> cases hspec

theorem refuses_of_commit
    (h : w.checkAndUpdate c = (.ok (), w')) : w'.Refuses c := by
  rcases commit_cases h with ⟨-, heq⟩ | ⟨hi, -, -, heq⟩ | ⟨hi, -, hle, heq⟩
  · exact ⟨c, by rw [heq], UInt64.le_refl c, .inr (by rw [heq]; simp)⟩
  · exact ⟨c, by rw [heq], UInt64.le_refl c, .inr (by rw [heq]; simp)⟩
  · exact ⟨hi, by rw [heq], hle, .inr (by rw [heq]; simp)⟩

/-- A refused counter stays refused. When the window moves ahead, a counter that is still
inside it was seen before and is kept. -/
theorem Refuses.commit {c' : UInt64} (hr : w.Refuses c)
    (h : w.checkAndUpdate c' = (.ok (), w')) : w'.Refuses c := by
  obtain ⟨hi, hhi, hle, hwhy⟩ := hr
  rcases commit_cases h with ⟨hnone, -⟩ | ⟨hi', hhi', hlt, heq⟩ | ⟨hi', hhi', -, heq⟩
  · rw [hhi] at hnone
    cases hnone
  · obtain rfl : hi = hi' := Option.some.inj (hhi.symm.trans hhi')
    have hle' : c ≤ c' := UInt64.le_trans hle (UInt64.le_of_lt hlt)
    refine ⟨c', by rw [heq], hle', ?_⟩
    by_cases hin : SIZE ≤ c' - c
    · exact .inl hin
    have hlt2048 : c'.toNat < c.toNat + 2048 :=
      (sub_lt_size_iff hle').mp (UInt64.not_le.mp hin)
    have hcle := UInt64.le_iff_toNat_le.mp hle
    have hclt := UInt64.lt_iff_toNat_lt.mp hlt
    have hseen : c ∈ w.1.seen := by
      rcases hwhy with hold | hseen
      · have hfar : ¬ hi - c < SIZE := UInt64.not_lt.mpr hold
        rw [sub_lt_size_iff hle] at hfar
        omega
      · exact hseen
    have hjump : ¬ c' - hi ≥ SIZE := by
      rw [ge_iff_le, UInt64.not_le, sub_lt_size_iff (UInt64.le_of_lt hlt)]
      omega
    refine .inr ?_
    rw [heq, if_neg hjump]
    exact Finset.mem_insert_of_mem
      (Finset.mem_filter.mpr ⟨hseen, UInt64.not_le.mp hin⟩)
  · obtain rfl : hi = hi' := Option.some.inj (hhi.symm.trans hhi')
    refine ⟨hi, by rw [heq], hle, ?_⟩
    rcases hwhy with hold | hseen
    · exact .inl hold
    · exact .inr (by rw [heq]; exact Finset.mem_insert_of_mem hseen)

def Below (w : Window) (b : ℕ) : Prop := ∀ hi, w.1.highest = some hi → hi.toNat < b

theorem below_new (b : ℕ) : new.Below b := by
  intro hi hhi
  cases hhi

theorem Below.mono {b b' : ℕ} (h : w.Below b) (hle : b ≤ b') : w.Below b' :=
  fun hi hhi => Nat.lt_of_lt_of_le (h hi hhi) hle

theorem Below.commit {b : ℕ} (hb : w.Below b) (hc : c.toNat < b)
    (h : w.checkAndUpdate c = (.ok (), w')) : w'.Below b := by
  intro hi hhi
  rcases commit_cases h with ⟨-, heq⟩ | ⟨_, -, -, heq⟩ | ⟨hi', hhi', -, heq⟩
  · rw [heq] at hhi
    cases hhi
    exact hc
  · rw [heq] at hhi
    cases hhi
    exact hc
  rw [heq] at hhi
  cases hhi
  exact hb hi hhi'

theorem Below.commits (hb : w.Below c.toNat) :
    ∃ w', w.checkAndUpdate c = (.ok (), w') := by
  have hspec := checkAndUpdate_spec w c
  rw [ReplayWindow.checkAndUpdate_eq w.2] at hspec
  refine ⟨(w.checkAndUpdate c).2, Prod.ext ?_ rfl⟩
  cases hh : w.1.highest with
  | none =>
    simp only [hh, Option.some.injEq, Prod.mk.injEq] at hspec
    exact hspec.1.symm
  | some hi =>
    have hgt : hi < c := UInt64.lt_iff_toNat_lt.mpr (hb hi hh)
    simp only [hh, gt_iff_lt, hgt, if_true, Option.some.injEq, Prod.mk.injEq] at hspec
    exact hspec.1.symm

theorem commits_of_admits {A : Finset UInt64} (hr : Represents w.1 A)
    (hadm : Admits UInt64.toNat 2048 A c) : ∃ w', w.checkAndUpdate c = (.ok (), w') := by
  obtain ⟨r, v, heq, hiff, -⟩ := checkAndUpdate_represents hr c
  rw [Window.checkAndUpdate_spec] at heq
  obtain ⟨hresult, -⟩ := Prod.mk.inj (Option.some.inj heq)
  exact ⟨(w.checkAndUpdate c).2, Prod.ext (hresult.trans (hiff.mpr hadm)) rfl⟩

end Avon.Crypto.Window

namespace Avon.Crypto.SessionCipher

open Avon.Crypto.ReplayWindow Avon.Lib.SlidingWindow

/-- A cipher opens what was sealed with its receive key, under a counter that the ideal window
admits. -/
theorem open_of_admits {P : AeadImpl} {c : SessionCipher} {A : Finset UInt64} {counter : UInt64}
    {aad buf plaintext : Bytes} (hr : Represents c.window.1 A)
    (hadm : Admits UInt64.toNat 2048 A counter) (htag : Suite.TAG_LEN ≤ buf.length)
    (hdec : P.decryptInPlace c.recv (nonceFor counter) aad buf = some plaintext) :
    ∃ window, c.open P counter aad buf = (.ok plaintext, { c with window }) := by
  obtain ⟨window, hcommit⟩ := Window.commits_of_admits hr hadm
  -- The highest counter is an accepted one, so the early check does not refuse.
  have hfresh : c.window.1.highest.any
      (fun highest => highest ≥ counter && highest - counter ≥ SIZE) = false := by
    cases hh : c.window.1.highest with
    | none => rfl
    | some hi =>
      have hnear := hadm.2 hi (hr.highest hi hh).1
      by_cases hle : counter ≤ hi
      · have hlt := (sub_lt_size_iff hle).mpr hnear
        simp [hlt]
      · simp [hle]
  have hopen : c.recv.openInPlace P (nonceFor counter) aad buf = .ok plaintext := by
    rw [AeadKey.openInPlace, if_neg (Nat.not_lt.mpr htag), hdec]
  refine ⟨window, ?_⟩
  simp only [SessionCipher.open, hfresh, Bool.false_eq_true, if_false, hopen, hcommit]

end Avon.Crypto.SessionCipher
