import Mathlib.Data.Finset.Card

/-!
# The replay window and the send counter

`ReplayWindow` keeps the counters it has seen in the last `SIZE` numbers and the highest one. Every
`u64` subtraction of `checkAndUpdate` goes through `checkedSub`, so `none` is the overflow panic.
`SendCounter` hands out `0, 1, 2, …` and stops for good at `LIMIT`.
-/

set_option autoImplicit false

namespace Avon.Crypto

/-- Subtraction on `u64`. `none` is the overflow panic. -/
def checkedSub (a b : UInt64) : Option UInt64 :=
  if b ≤ a then some (a - b) else none

theorem checkedSub_of_le {a b : UInt64} (h : b ≤ a) : checkedSub a b = some (a - b) := by
  simp [checkedSub, h]

inductive ReplayError where
  | replayed
  | tooOld
  deriving DecidableEq, Repr

/-- The window: the counters seen near the top, and the highest counter accepted. -/
structure ReplayWindow where
  seen : Finset UInt64
  highest : Option UInt64
  deriving DecidableEq

namespace ReplayWindow

def SIZE : UInt64 := 2048

def new : ReplayWindow := ⟨∅, none⟩

/-- `seen.retain(|&c| counter - c < SIZE)`. The subtraction runs once for every entry,
so one entry above `counter` is enough for the panic. -/
def retainRecent (seen : Finset UInt64) (counter : UInt64) : Option (Finset UInt64) :=
  if (seen.filter fun c => counter < c) = ∅ then some (seen.filter fun c => counter - c < SIZE)
  else none

theorem retainRecent_of_forall_le {seen : Finset UInt64} {counter : UInt64}
    (h : ∀ c ∈ seen, c ≤ counter) :
    retainRecent seen counter = some (seen.filter fun c => counter - c < SIZE) := by
  rw [retainRecent, if_pos]
  exact Finset.filter_eq_empty_iff.mpr fun c hc => UInt64.not_lt.mpr (h c hc)

/-- Accept `counter` or say why not. The outer `none` is an arithmetic panic. -/
def checkAndUpdate (w : ReplayWindow) (counter : UInt64) :
    Option (Except ReplayError Unit × ReplayWindow) :=
  match w.highest with
  | none => some (.ok (), ⟨insert counter w.seen, some counter⟩)
  | some highest =>
    if counter > highest then do
      -- Advance: prune the entries that are now too old.
      let diff ← checkedSub counter highest
      let recent ← if diff ≥ SIZE then some ∅ else retainRecent w.seen counter
      some (.ok (), ⟨insert counter recent, some counter⟩)
    else do
      let age ← checkedSub highest counter
      if age ≥ SIZE then some (.error .tooOld, w)
      -- `HashSet::insert` on a present entry reports it and changes nothing.
      else if counter ∈ w.seen then some (.error .replayed, w)
      else some (.ok (), ⟨insert counter w.seen, some highest⟩)

/-- Every entry lies at or below the highest counter. This is all that the subtractions
of `checkAndUpdate` need. -/
def WellFormed (w : ReplayWindow) : Prop :=
  ∀ c ∈ w.seen, ∃ h, w.highest = some h ∧ c ≤ h

theorem wellFormed_new : WellFormed new := by
  intro c hc
  simp [new] at hc

/-- What `checkAndUpdate` does on a well-formed window, branch by branch. No branch
panics. -/
theorem checkAndUpdate_eq {w : ReplayWindow} (hw : w.WellFormed) (counter : UInt64) :
    w.checkAndUpdate counter =
      match w.highest with
      | none => some (.ok (), ⟨insert counter w.seen, some counter⟩)
      | some highest =>
        if counter > highest then
          some (.ok (), ⟨insert counter
            (if counter - highest ≥ SIZE then ∅
              else w.seen.filter fun c => counter - c < SIZE), some counter⟩)
        else if highest - counter ≥ SIZE then some (.error .tooOld, w)
        else if counter ∈ w.seen then some (.error .replayed, w)
        else some (.ok (), ⟨insert counter w.seen, some highest⟩) := by
  unfold checkAndUpdate
  cases hh : w.highest with
  | none => rfl
  | some highest =>
    by_cases hgt : counter > highest
    · have hle : highest ≤ counter := UInt64.le_of_lt hgt
      have hall : ∀ c ∈ w.seen, c ≤ counter := by
        intro c hc
        obtain ⟨h, hsome, hch⟩ := hw c hc
        rw [hh] at hsome
        cases hsome
        exact UInt64.le_trans hch hle
      simp only [hgt, if_true, checkedSub_of_le hle, Option.bind_eq_bind, Option.bind_some]
      by_cases hjump : counter - highest ≥ SIZE
      · simp [hjump]
      · simp [hjump, retainRecent_of_forall_le hall]
    · have hle : counter ≤ highest := UInt64.not_lt.mp hgt
      simp only [hgt, if_false, checkedSub_of_le hle, Option.bind_eq_bind, Option.bind_some]

theorem wellFormed_checkAndUpdate {w w' : ReplayWindow} {counter : UInt64}
    {r : Except ReplayError Unit} (hw : w.WellFormed)
    (h : w.checkAndUpdate counter = some (r, w')) : w'.WellFormed := by
  rw [checkAndUpdate_eq hw] at h
  cases hh : w.highest with
  | none =>
    simp only [hh, Option.some.injEq, Prod.mk.injEq] at h
    obtain ⟨-, rfl⟩ := h
    intro c hc
    rcases Finset.mem_insert.mp hc with rfl | hc
    · exact ⟨c, rfl, UInt64.le_refl c⟩
    · obtain ⟨h, hsome, -⟩ := hw c hc
      simp [hh] at hsome
  | some highest =>
    have hbelow : ∀ c ∈ w.seen, c ≤ highest := by
      intro c hc
      obtain ⟨h, hsome, hch⟩ := hw c hc
      rw [hh] at hsome
      cases hsome
      exact hch
    simp only [hh] at h
    split at h
    · rename_i hgt
      simp only [Option.some.injEq, Prod.mk.injEq] at h
      obtain ⟨-, rfl⟩ := h
      intro c hc
      refine ⟨counter, rfl, ?_⟩
      rcases Finset.mem_insert.mp hc with rfl | hc
      · exact UInt64.le_refl c
      split at hc
      · simp at hc
      · exact UInt64.le_trans (hbelow c (Finset.mem_filter.mp hc).1) (UInt64.le_of_lt hgt)
    · rename_i hgt
      split at h
      · simp only [Option.some.injEq, Prod.mk.injEq] at h
        obtain ⟨-, rfl⟩ := h
        exact hw
      split at h
      · simp only [Option.some.injEq, Prod.mk.injEq] at h
        obtain ⟨-, rfl⟩ := h
        exact hw
      simp only [Option.some.injEq, Prod.mk.injEq] at h
      obtain ⟨-, rfl⟩ := h
      intro c hc
      refine ⟨highest, rfl, ?_⟩
      rcases Finset.mem_insert.mp hc with rfl | hc
      · exact UInt64.not_lt.mp hgt
      · exact hbelow c hc

end ReplayWindow

structure SendCounter where
  value : UInt64
  deriving DecidableEq, Repr

namespace SendCounter

/-- The counter value that is never handed out: `u64::MAX - 1`. -/
def LIMIT : UInt64 := 18446744073709551615 - 1

def new : SendCounter := ⟨0⟩

/-- The next counter value. `none` is `CounterExhausted`. The `compare_exchange` loop
of the source runs under the epoch lock, so its first exchange succeeds. -/
def next (c : SendCounter) : Option UInt64 × SendCounter :=
  if c.value ≥ LIMIT then (none, c) else (some c.value, ⟨c.value + 1⟩)

def remaining (c : SendCounter) : UInt64 :=
  if c.value ≤ LIMIT then LIMIT - c.value else 0

end SendCounter

end Avon.Crypto
