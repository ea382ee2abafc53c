import Avon.Crypto.Replay
import Avon.Lib.SlidingWindow

/-!
# The window is the ideal sliding window

`ReplayWindow` keeps a pruned set and a high-water mark. The ideal window of
`Avon.Lib.SlidingWindow` keeps every counter it ever accepted. `Represents w A` ties the two: the
pruned set is `kept` of `A`, and the mark is a highest element of `A`.
-/

set_option autoImplicit false

namespace Avon.Crypto.ReplayWindow

open Avon.Lib.SlidingWindow

structure Represents (w : ReplayWindow) (A : Finset UInt64) : Prop where
  seen : w.seen = kept UInt64.toNat 2048 A
  empty : w.highest = none → A = ∅
  highest : ∀ h, w.highest = some h → IsHighest UInt64.toNat A h

theorem represents_new : Represents new ∅ where
  seen := rfl
  empty _ := rfl
  highest h hh := by simp [new] at hh

theorem sub_lt_size_iff {a b : UInt64} (h : b ≤ a) :
    a - b < SIZE ↔ a.toNat < b.toNat + 2048 := by
  rw [UInt64.lt_iff_toNat_lt, UInt64.toNat_sub_of_le _ _ h]
  have hle := UInt64.le_iff_toNat_le.mp h
  show a.toNat - b.toNat < 2048 ↔ _
  omega

variable {w : ReplayWindow} {A : Finset UInt64}

theorem Represents.of_isHighest {h : UInt64} (hseen : w.seen = kept UInt64.toNat 2048 A)
    (hw : w.highest = some h) (hh : IsHighest UInt64.toNat A h) : Represents w A where
  seen := hseen
  empty hnone := nomatch hw.symm.trans hnone
  highest h' hw' := by
    cases hw.symm.trans hw'
    exact hh

theorem Represents.exists_highest (hr : Represents w A) {a : UInt64} (ha : a ∈ A) :
    ∃ h, w.highest = some h ∧ IsHighest UInt64.toNat A h := by
  cases hh : w.highest with
  | none =>
    rw [hr.empty hh] at ha
    simp at ha
  | some h => exact ⟨h, rfl, hr.highest h hh⟩

theorem Represents.wellFormed (hr : Represents w A) : w.WellFormed := by
  intro c hc
  rw [hr.seen, mem_kept] at hc
  obtain ⟨h, hh, hhigh⟩ := hr.exists_highest hc.1
  exact ⟨h, hh, UInt64.le_iff_toNat_le.mpr (hhigh.2 c hc.1)⟩

/-- A counter above the highest one: the pruned set after the advance is `kept` of the
new accepted set. The jump of `SIZE` or more clears the set, and then no old counter
is within the window of the new one. -/
theorem kept_advance (hr : Represents w A)
    {h counter : UInt64} (hh : w.highest = some h) (hgt : counter > h) :
    insert counter (if counter - h ≥ SIZE then ∅
        else w.seen.filter fun c => counter - c < SIZE)
      = kept UInt64.toNat 2048 (insert counter A) := by
  have hhigh := hr.highest h hh
  have hlt : h.toNat < counter.toNat := UInt64.lt_iff_toNat_lt.mp hgt
  have hle : h ≤ counter := UInt64.le_of_lt hgt
  rw [kept_insert_ahead (by decide) hhigh hlt, ← hr.seen]
  congr 1
  have hold : ∀ c ∈ w.seen, c ≤ h := by
    intro c hc
    obtain ⟨h', hsome, hch⟩ := hr.wellFormed c hc
    cases hh.symm.trans hsome
    exact hch
  split
  · rename_i hjump
    symm
    rw [Finset.filter_eq_empty_iff]
    intro c hc hin
    have hcle := UInt64.le_iff_toNat_le.mp (hold c hc)
    have hfar : ¬ counter - h < SIZE := UInt64.not_lt.mpr hjump
    rw [sub_lt_size_iff hle] at hfar
    omega
  · exact Finset.filter_congr fun c hc => 
      sub_lt_size_iff (UInt64.le_trans (hold c hc) hle)

/-- One call on a window that represents `A`. The call never panics. It accepts exactly
what the ideal window admits, the new window represents the new accepted set, and a
refusal leaves the window as it was. -/
theorem checkAndUpdate_represents (hr : Represents w A) (counter : UInt64) :
    ∃ r w', w.checkAndUpdate counter = some (r, w') ∧
      (r = .ok () ↔ Admits UInt64.toNat 2048 A counter) ∧
      (r = .ok () → Represents w' (insert counter A)) ∧
      (r ≠ .ok () → w' = w) := by
  rw [checkAndUpdate_eq hr.wellFormed]
  cases hh : w.highest with
  | none =>
    have hA := hr.empty hh
    subst hA
    refine ⟨_, _, rfl, ⟨fun _ => admits_empty _, fun _ => rfl⟩, fun _ => ?_,
      fun h => absurd rfl h⟩
    have hseen : w.seen = ∅ := by
      rw [hr.seen]
      rfl
    refine .of_isHighest ?_ rfl ⟨Finset.mem_insert_self _ _, by simp⟩
    rw [hseen]
    ext x
    simp only [mem_kept, Finset.mem_insert, Finset.notMem_empty, or_false]
    constructor
    · rintro rfl
      exact ⟨rfl, fun a ha => by rw [ha]; omega⟩
    · exact fun hx => hx.1
  | some h =>
    have hhigh := hr.highest h hh
    simp only
    by_cases hgt : counter > h
    · have hlt : h.toNat < counter.toNat := UInt64.lt_iff_toNat_lt.mp hgt
      rw [if_pos hgt]
      refine ⟨_, _, rfl, ⟨fun _ => admits_of_lt (by decide) hhigh hlt, fun _ => rfl⟩,
        fun _ => ?_, fun h => absurd rfl h⟩
      exact .of_isHighest (kept_advance hr hh hgt) rfl (hhigh.insert_ahead hlt.le)
    · have hle : counter ≤ h := UInt64.not_lt.mp hgt
      have hadmits := admits_iff_of_isHighest (n := 2048) hhigh counter
      rw [← hr.seen, ← sub_lt_size_iff hle] at hadmits
      rw [if_neg hgt]
      by_cases hold : h - counter ≥ SIZE
      · -- Too old: the ideal window is out of reach as well.
        have hnot : ¬ h - counter < SIZE := UInt64.not_lt.mpr hold
        rw [if_pos hold]
        refine ⟨_, _, rfl, ⟨fun h => (nomatch h), fun h => absurd (hadmits.mp h).1 hnot⟩,
          fun h => (nomatch h), fun _ => rfl⟩
      have hin : h - counter < SIZE := UInt64.not_le.mp hold
      rw [if_neg hold]
      by_cases hmem : counter ∈ w.seen
      · rw [if_pos hmem]
        refine ⟨_, _, rfl, ⟨fun h => (nomatch h), fun h => absurd hmem (hadmits.mp h).2⟩,
          fun h => (nomatch h), fun _ => rfl⟩
      rw [if_neg hmem]
      refine ⟨_, _, rfl, ⟨fun _ => hadmits.mpr ⟨hin, hmem⟩, fun _ => rfl⟩, fun _ => ?_,
        fun h => absurd rfl h⟩
      have hcle : counter.toNat ≤ h.toNat := UInt64.le_iff_toNat_le.mp hle
      refine .of_isHighest ?_ rfl (hhigh.insert_behind hcle)
      rw [kept_insert_behind hhigh hcle ((sub_lt_size_iff hle).mp hin), ← hr.seen]

/-- Offer one counter to a window, next to the list of the counters accepted so far. -/
def offer (st : ReplayWindow × List UInt64) (counter : UInt64) :
    Option (ReplayWindow × List UInt64) := do
  let (r, w) ← st.1.checkAndUpdate counter
  match r with
  | .ok () => some (w, st.2 ++ [counter])
  | .error _ => some (w, st.2)

/-- Feed a list of counters to a fresh window: the window after them, and the accepted
counters in order. `none` is a panic on the way. -/
def feed (counters : List UInt64) : Option (ReplayWindow × List UInt64) :=
  counters.foldlM offer (new, [])

theorem represents_offer {acc : List UInt64} (hr : Represents w acc.toFinset) (counter : UInt64) :
    ∃ w' acc', offer (w, acc) counter = some (w', acc') ∧ Represents w' acc'.toFinset := by
  obtain ⟨r, w', heq, -, hok, herr⟩ := checkAndUpdate_represents hr counter
  cases r with
  | ok u =>
    refine ⟨w', acc ++ [counter], by simp [offer, heq], ?_⟩
    have hins : (acc ++ [counter]).toFinset = insert counter acc.toFinset := by
      ext x
      simp
    rw [hins]
    exact hok rfl
  | error e =>
    refine ⟨w', acc, by simp [offer, heq], ?_⟩
    rw [herr (by simp)]
    exact hr

/-- Feeding never panics, and the window after any list represents the counters it
accepted. -/
theorem represents_feed (counters : List UInt64) :
    ∃ w acc, feed counters = some (w, acc) ∧ Represents w acc.toFinset := by
  unfold feed
  suffices h : ∀ (cs : List UInt64) (w : ReplayWindow) (acc : List UInt64),
      Represents w acc.toFinset →
      ∃ w' acc', cs.foldlM offer (w, acc) = some (w', acc') ∧ Represents w' acc'.toFinset from
    h counters new [] (by simpa using represents_new)
  intro cs
  induction cs with
  | nil => intro w acc hr; exact ⟨w, acc, rfl, hr⟩
  | cons c cs ih =>
    intro w acc hr
    obtain ⟨w₁, acc₁, hstep, hr₁⟩ := represents_offer hr c
    obtain ⟨w₂, acc₂, hrest, hr₂⟩ := ih w₁ acc₁ hr₁
    refine ⟨w₂, acc₂, ?_, hr₂⟩
    rw [List.foldlM_cons, hstep]
    exact hrest

/-- The window after any list of counters, against the ideal sliding window.

No subtraction of the list or of one more call panics. The next call accepts `c`
exactly when `c` was not accepted before and, for the highest accepted counter `h` if
there is one, `c > h` or `h - c < 2048`. A refused call leaves the window unchanged. The
mark is the highest accepted counter, and the stored set is exactly the accepted
counters within 2048 of it, so it has at most 2048 entries. -/
theorem checkAndUpdate_ideal (counters : List UInt64) (c : UInt64) :
    ∃ w acc, feed counters = some (w, acc) ∧
      (∃ r w', w.checkAndUpdate c = some (r, w') ∧
        (r = .ok () ↔ c ∉ acc ∧ ∀ h ∈ acc, (∀ a ∈ acc, a ≤ h) →
          c > h ∨ h.toNat - c.toNat < 2048) ∧
        (r ≠ .ok () → w' = w)) ∧
      (∀ h, w.highest = some h ↔ h ∈ acc ∧ ∀ a ∈ acc, a ≤ h) ∧
      (∀ x, x ∈ w.seen ↔ x ∈ acc ∧ ∀ h ∈ acc, (∀ a ∈ acc, a ≤ h) →
        h.toNat - x.toNat < 2048) ∧
      w.seen.card ≤ 2048 := by
  obtain ⟨w, acc, hfeed, hr⟩ := represents_feed counters
  have hle : ∀ {a b : UInt64}, a ≤ b ↔ a.toNat ≤ b.toNat := UInt64.le_iff_toNat_le
  -- The highest accepted counter, as the statement spells it.
  have hhigh : ∀ h, (h ∈ acc ∧ ∀ a ∈ acc, a ≤ h) ↔ IsHighest UInt64.toNat acc.toFinset h := by
    intro h
    simp [IsHighest, hle]
  refine ⟨w, acc, hfeed, ?_, ?_, ?_, ?_⟩
  · obtain ⟨r, w', heq, hadm, -, herr⟩ := checkAndUpdate_represents hr c
    refine ⟨r, w', heq, ?_, herr⟩
    rw [hadm, Admits, List.mem_toFinset]
    refine and_congr_right fun _ => ?_
    constructor
    · intro hall h hmem _
      have := hall h (List.mem_toFinset.mpr hmem)
      rcases Nat.lt_or_ge h.toNat c.toNat with hlt | hge
      · exact .inl (UInt64.lt_iff_toNat_lt.mpr hlt)
      · exact .inr (by omega)
    intro hall a ha
    obtain ⟨h, -, hhi⟩ := hr.exists_highest ha
    obtain ⟨hmem, hmax⟩ := (hhigh h).mpr hhi
    have hah := hhi.2 a ha
    rcases hall h hmem hmax with hgt | hnear
    · have := UInt64.lt_iff_toNat_lt.mp hgt
      omega
    · omega
  · intro h
    rw [hhigh]
    constructor
    · exact hr.highest h
    intro hhi
    obtain ⟨h', hm, hhi'⟩ := hr.exists_highest hhi.1
    have heq : h'.toNat = h.toNat := Nat.le_antisymm (hhi.2 h' hhi'.1) (hhi'.2 h hhi.1)
    rw [hm, UInt64.toNat_inj.mp heq]
  · intro x
    rw [hr.seen, mem_kept, List.mem_toFinset]
    refine and_congr_right fun hx => ?_
    constructor
    · intro hall h hmem _
      have := hall h (List.mem_toFinset.mpr hmem)
      omega
    intro hall a ha
    obtain ⟨h, -, hhi⟩ := hr.exists_highest ha
    obtain ⟨hmem, hmax⟩ := (hhigh h).mpr hhi
    have := hall h hmem hmax
    have := hhi.2 a ha
    omega
  · rw [hr.seen]
    exact card_kept_le (fun _ _ h => UInt64.toNat_inj.mp h) _

end Avon.Crypto.ReplayWindow
