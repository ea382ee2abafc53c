import Avon.Proofs.Policy.Decide

/-!
# The next change of a time window

`next_window_change` looks at whole minutes only, and misses no change if the local time changes
at whole minutes.
-/

set_option autoImplicit false

namespace Avon.Policy

/-- Offsets and transitions of the zone fall on whole minutes: within a minute, the weekday and the
minute of the day stay as they are. -/
def WholeMinutes (tz : TzDb) (zone : tz.Tz) : Prop :=
  ∀ t, tz.localTime zone t = tz.localTime zone (60 * (t / 60))

section
variable {tz : TzDb} {tw : TimeWindow} {zone : tz.Tz} {t u now limit : ℤ} {current : Bool}

theorem windowActive_congr (hzone : tz.parse tw.timezone = some zone)
    (h : tz.localTime zone t = tz.localTime zone u) :
    windowActive tz tw t = windowActive tz tw u := by
  unfold windowActive
  simp only [hzone, h]

theorem windowActive_minute (hzone : tz.parse tw.timezone = some zone) (h : WholeMinutes tz zone)
    (hminute : t / 60 = u / 60) : windowActive tz tw t = windowActive tz tw u :=
  windowActive_congr hzone ((h t).trans (hminute ▸ (h u).symm))

theorem windowActive_ok (hvalid : tw.validate tz = .ok ())
    (hzone : tz.parse tw.timezone = some zone) (h : (tz.localTime zone t).isSome) :
    ∃ b, windowActive tz tw t = .ok b := by
  unfold TimeWindow.validate at hvalid
  obtain ⟨-, hvalid⟩ := ite_error_eq_ok.mp hvalid
  obtain ⟨-, hvalid⟩ := ite_error_eq_ok.mp hvalid
  obtain ⟨start, hstart, hvalid⟩ := bind_eq_ok.mp hvalid
  obtain ⟨stop, hstop, -⟩ := bind_eq_ok.mp hvalid
  obtain ⟨⟨today, minute⟩, hlocal⟩ := Option.isSome_iff_exists.mp h
  unfold windowActive
  simp only [hzone, hlocal, hstart, hstop]
  by_cases hle : start.1 * 60 + start.2 ≤ stop.1 * 60 + stop.2
  · exact ⟨_, if_pos hle⟩
  · exact ⟨_, if_neg hle⟩

theorem scanWindow_turn {b : Bool} (hle : t ≤ limit) (hb : windowActive tz tw t = .ok b)
    (fuel : ℕ) : scanWindow tz tw current limit (fuel + 1) t =
      if b = current then scanWindow tz tw current limit fuel (t + 60) else .ok t := by
  rw [scanWindow, if_pos hle, hb]
  show (if b ≠ current then Except.ok t else scanWindow tz tw current limit fuel (t + 60)) = _
  by_cases h : b = current <;> simp [h]

/-- A scan that returns `r` has passed over no change before `r`. What is known at a whole minute is
known of the minute, so the induction carries that the window stays as it is up to `t`. -/
theorem windowActive_of_scan (hzone : tz.parse tw.timezone = some zone)
    (hwhole : WholeMinutes tz zone) (fuel : ℕ) (ht : t % 60 = 0) (hfuel : limit < t + 60 * fuel)
    (hconst : ∀ u, now ≤ u → u < t → windowActive tz tw u = .ok current) {r : ℤ}
    (h : scanWindow tz tw current limit fuel t = .ok r) :
    ∀ u, now ≤ u → u < r → windowActive tz tw u = .ok current := by
  induction fuel generalizing t with
  | zero =>
    cases h
    exact fun u hu hlt => hconst u hu (by omega)
  | succ fuel ih =>
    by_cases hle : t ≤ limit
    · cases hb : windowActive tz tw t with
      | error e =>
        rw [scanWindow, if_pos hle, hb] at h
        cases h
      | ok b =>
        rw [scanWindow_turn hle hb] at h
        by_cases hsame : b = current
        · rw [if_pos hsame] at h
          push_cast at hfuel
          refine ih (by omega) (by omega) (fun u hu hlt => ?_) h
          by_cases hbefore : u < t
          · exact hconst u hu hbefore
          · rw [windowActive_minute hzone hwhole (u := t) (by omega), hb, hsame]
        · rw [if_neg hsame] at h
          cases h
          exact hconst
    · rw [scanWindow, if_neg hle] at h
      cases h
      exact fun u hu hlt => hconst u hu (by omega)

theorem parse_of_nextWindowChange {r : ℤ} (h : nextWindowChange tz tw now = .ok r) :
    (tz.parse tw.timezone).isSome := by
  obtain ⟨current, hcurrent, -⟩ := bind_eq_ok.mp h
  unfold windowActive at hcurrent
  cases hzone : tz.parse tw.timezone with
  | none =>
    rw [hzone] at hcurrent
    cases hcurrent
  | some zone => rfl

/-- The scan returns if the window can be evaluated at every time it looks at. -/
theorem scanWindow_returns (current : Bool)
    (hok : ∀ t, now ≤ t → t ≤ limit → ∃ b, windowActive tz tw t = .ok b) (hlimit : now < limit)
    (fuel : ℕ) (hnow : now < t) : ∃ r, scanWindow tz tw current limit fuel t = .ok r ∧ now < r ∧
      r ≤ limit ∧ (r < limit → windowActive tz tw r ≠ .ok current) := by
  induction fuel generalizing t with
  | zero => exact ⟨limit, rfl, hlimit, le_rfl, by omega⟩
  | succ fuel ih =>
    by_cases hle : t ≤ limit
    · obtain ⟨b, hb⟩ := hok t hnow.le hle
      rw [scanWindow_turn hle hb]
      by_cases hsame : b = current
      · rw [if_pos hsame]
        exact ih (by omega)
      · rw [if_neg hsame]
        exact ⟨t, rfl, hnow, hle, fun _ h => hsame (Except.ok.inj (hb.symm.trans h))⟩
    · rw [scanWindow, if_neg hle]
      exact ⟨limit, rfl, hlimit, le_rfl, by omega⟩

/-- Up to the time that `next_window_change` returns, the window stays as it is. -/
theorem windowActive_of_nextWindowChange (hzone : tz.parse tw.timezone = some zone)
    (hwhole : WholeMinutes tz zone) (hnow : 0 ≤ now) {r : ℤ}
    (h : nextWindowChange tz tw now = .ok r) :
    ∀ u, now ≤ u → u < r → windowActive tz tw u = windowActive tz tw now := by
  obtain ⟨current, hcurrent, h⟩ := bind_eq_ok.mp h
  have hmod : now.tmod 60 = now % 60 := Int.tmod_eq_emod_of_nonneg hnow
  rw [hcurrent]
  refine windowActive_of_scan hzone hwhole _ (by omega) (scanWindow_start now)
    (fun u hu hlt => ?_) h
  rw [windowActive_minute hzone hwhole (u := now) (by omega), hcurrent]

end

/-- For a valid window of such a zone, and a time from which eight days can be represented:
`next_window_change` returns a time in these days, up to which the window stays as it is. If it is
not the last one, the window changes there. -/
theorem nextWindowChange_spec {tz : TzDb} (tw : TimeWindow) {zone : tz.Tz} (now : ℤ)
    (hvalid : tw.validate tz = .ok ()) (hzone : tz.parse tw.timezone = some zone)
    (hwhole : WholeMinutes tz zone) (hnow : 0 ≤ now)
    (hrange : ∀ t, now ≤ t → t ≤ now + 8 * 86400 → (tz.localTime zone t).isSome) :
    ∃ r, nextWindowChange tz tw now = .ok r ∧ now < r ∧ r ≤ now + 8 * 86400 ∧
      (∀ t, now ≤ t → t < r → windowActive tz tw t = windowActive tz tw now) ∧
      (r < now + 8 * 86400 → windowActive tz tw r ≠ windowActive tz tw now) := by
  have hok : ∀ t, now ≤ t → t ≤ now + 8 * 86400 → ∃ b, windowActive tz tw t = .ok b :=
    fun t h h' => windowActive_ok hvalid hzone (hrange t h h')
  obtain ⟨current, hcurrent⟩ := hok now le_rfl (by omega)
  have hmod : now.tmod 60 = now % 60 := Int.tmod_eq_emod_of_nonneg hnow
  obtain ⟨r, hr, hlt, hle, hchange⟩ :=
    scanWindow_returns current hok (by omega) (8 * 1440 + 1)
      (show now < now - now.tmod 60 + 60 by omega)
  have hnext : nextWindowChange tz tw now = .ok r := by rw [nextWindowChange, hcurrent]; exact hr
  exact ⟨r, hnext, hlt, hle, windowActive_of_nextWindowChange hzone hwhole hnow hnext,
    hcurrent ▸ hchange⟩

def nightShift : TimeWindow := ⟨"22:00", "06:00", [.fri], "UTC"⟩

theorem wholeMinutes_utc : WholeMinutes utc () := by
  intro t
  have hday : 60 * (t / 60) / 86400 = t / 86400 := by omega
  have hminute : 60 * (t / 60) % 86400 / 60 = t % 86400 / 60 := by omega
  simp only [utc, hday, hminute]

/-- From a Friday noon the night shift changes within eight days. -/
theorem nextWindowChange_friday :
    ∃ r, nextWindowChange utc nightShift 129600 = .ok r ∧ 129600 < r ∧ r ≤ 129600 + 8 * 86400 := by
  obtain ⟨r, hr, hlt, hle, -⟩ := nextWindowChange_spec nightShift 129600
    (by decide +kernel) rfl wholeMinutes_utc (by decide) fun _ _ _ => rfl
  exact ⟨r, hr, hlt, hle⟩

def chronoUtc : TzDb where
  Tz := Unit
  parse := utc.parse
  localTime _ now := if now ≤ 8210266876799 then utc.localTime () now else none

/-- A time that cannot be represented is an error. -/
theorem nextWindowChange_out_of_range : nightShift.validate chronoUtc = .ok () ∧
    WholeMinutes chronoUtc () ∧
    nextWindowChange chronoUtc nightShift (2 ^ 62) = .error (.time "now") := by
  refine ⟨by decide +kernel, fun t => ?_, by decide +kernel⟩
  have hrange : 60 * (t / 60) ≤ 8210266876799 ↔ t ≤ 8210266876799 := by omega
  simp only [chronoUtc, hrange]
  by_cases ht : t ≤ 8210266876799
  · rw [if_pos ht, if_pos ht]
    exact wholeMinutes_utc t
  · rw [if_neg ht, if_neg ht]

end Avon.Policy
