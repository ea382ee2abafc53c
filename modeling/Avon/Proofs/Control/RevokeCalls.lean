import Avon.Control.RevokeCalls

/-!
# When the cached CRL does not go back

A call writes the list of the CA into the cache later, whatever is there by then, so an older list
can replace a newer one (`crl_goes_back`). It does not as long as no call asks the CA while another
holds a list that is not stored yet.
-/

set_option autoImplicit false

namespace Avon.Control.Revoker

open Avon.Ca Avon.Lib.Run

/-- The CA is asked only while no other call holds a list, and what is stored verifies. -/
def OneAtATime (s : Revoker) : RevokeEvent → Prop
  | .caRevoke call _ => (s.calls.eraseIdx call).all fun c => c.held.isNone
  | .store _ verifies => verifies
  | _ => True

instance (s : Revoker) : (e : RevokeEvent) → Decidable (s.OneAtATime e)
  | .caRevoke .. => inferInstanceAs (Decidable (_ = true))
  | .store .. => inferInstanceAs (Decidable (_ = true))
  | .tick _ => isTrue trivial
  | .start _ => isTrue trivial
  | .finish .. => isTrue trivial

/-- The list has every revoked certificate that has not expired. -/
def Complete (s : Revoker) (crl : CrlRow) : Prop :=
  ∀ x ∈ s.revoked, s.now < s.notAfter x → x ∈ crl.serials

/-- The CA has revoked the serial, and the cached list has it until it expires. -/
def Listed (s : Revoker) (x : Serial) : Prop :=
  x ∈ s.revoked ∧ (s.now < s.notAfter x → x ∈ s.crl.serials)

/-- A list that a call holds is the last one of the CA. -/
def CallOk (s : Revoker) : RevokeCall → Prop
  | .revoking done _ none => done = []
  | .revoking done _ (some crl) => crl.version = s.version ∧ s.Complete crl ∧ done ⊆ s.revoked
  | .stored serials => ∀ x ∈ serials, s.Listed x
  | .ended => True

structure Inv (s : Revoker) : Prop where
  cached : s.crl.version ≤ s.version
  calls : ∀ c ∈ s.calls, s.CallOk c
  returned : ∀ x ∈ s.returned, s.Listed x

theorem mem_set_cases {α : Type} {l : List α} {i : ℕ} {a b : α} (h : a ∈ l.set i b) :
    a = b ∨ a ∈ l.eraseIdx i := by
  obtain ⟨j, hj⟩ := List.mem_iff_getElem?.mp h
  rw [List.getElem?_set] at hj
  split at hj
  · split at hj
    · exact .inl (Option.some.inj hj).symm
    · cases hj
  · rename_i hne
    exact .inr (List.mem_eraseIdx_iff_getElem?.mpr ⟨j, Ne.symm hne, hj⟩)

variable {s : Revoker} {call : ℕ}

theorem Inv.tick (h : Inv s) (d : ℕ) : Inv { s with now := s.now + d } := by
  have hlisted : ∀ x, s.Listed x → Listed { s with now := s.now + d } x := fun x hx =>
    ⟨hx.1, fun hlt => hx.2 (by simp only at hlt; omega)⟩
  refine ⟨h.cached, fun c hc => ?_, fun x hx => hlisted x (h.returned x hx)⟩
  have hok := h.calls c hc
  cases c with
  | revoking done todo latest =>
    cases latest with
    | none => exact hok
    | some crl =>
      obtain ⟨hversion, hcomplete, hdone⟩ := hok
      exact ⟨hversion, fun x hx hlt => hcomplete x hx (by simp only at hlt; omega), hdone⟩
  | stored serials => exact fun x hx => hlisted x (hok x hx)
  | ended => trivial

theorem Listed.caApply {x : Serial} (h : s.Listed x) (serial : Serial) :
    (s.caApply serial).Listed x :=
  ⟨List.mem_cons_of_mem _ h.1, h.2⟩

/-- A revocation at the CA keeps the invariant when no other call holds a list: there is nothing
that could be out of date. -/
theorem Inv.caApply (h : Inv s) {serial : Serial} {c : RevokeCall}
    (hheld : ∀ other ∈ s.calls.eraseIdx call, other.held = none)
    (hc : (s.caApply serial).CallOk c) : Inv ((s.caApply serial).setCall call c) := by
  refine ⟨Nat.le_succ_of_le h.cached, fun other hother => ?_,
    fun x hx => (h.returned x hx).caApply serial⟩
  rcases mem_set_cases hother with rfl | hother
  · exact hc
  have hnone := hheld other hother
  have hok := h.calls other (List.mem_of_mem_eraseIdx hother)
  cases other with
  | revoking done todo latest =>
    obtain rfl : latest = none := hnone
    exact hok
  | stored serials => exact fun x hx => (hok x hx).caApply serial
  | ended => trivial

theorem Inv.end (h : Inv s) : Inv (s.setCall call .ended) := by
  refine ⟨h.cached, fun c hc => ?_, h.returned⟩
  rcases mem_set_cases hc with rfl | hc
  · trivial
  · exact h.calls c (List.mem_of_mem_eraseIdx hc)

theorem CallOk.done_subset {done todo : List Serial} {latest : Option CrlRow}
    (h : s.CallOk (.revoking done todo latest)) : done ⊆ s.revoked := by
  cases latest with
  | none =>
    have hnil : done = [] := h
    simp [hnil]
  | some crl => exact h.2.2

theorem Inv.caRevokeStep (h : Inv s) {outcome : CaOutcome}
    (hG : s.OneAtATime (.caRevoke call outcome)) : Inv (s.caRevokeStep call outcome) := by
  have hheld : ∀ other ∈ s.calls.eraseIdx call, other.held = none := fun other hother =>
    Option.isNone_iff_eq_none.mp (List.all_eq_true.mp hG other hother)
  unfold Revoker.caRevokeStep
  split
  · rename_i done serial todo latest hcall
    have hdone := CallOk.done_subset (h.calls _ (List.mem_of_getElem? hcall))
    cases outcome with
    | answered =>
      -- The new list has all that the CA has revoked.
      refine h.caApply hheld ⟨rfl, fun x hx hlt => ?_, List.cons_subset_cons _ hdone⟩
      exact List.mem_filter.mpr ⟨hx, decide_eq_true hlt⟩
    | failed => exact h.end
    | lost => exact h.caApply hheld trivial
  · exact h

theorem Inv.storeStep (h : Inv s) :
    Inv (s.storeStep call true) ∧ s.crl.version ≤ (s.storeStep call true).crl.version := by
  unfold Revoker.storeStep
  split
  · rename_i done latest hcall
    have hok := h.calls _ (List.mem_of_getElem? hcall)
    cases latest with
    | none =>
      obtain rfl : done = [] := hok
      refine ⟨⟨h.cached, fun c hc => ?_, h.returned⟩, le_rfl⟩
      rcases mem_set_cases hc with rfl | hc
      · exact fun x hx => absurd hx List.not_mem_nil
      · exact h.calls c (List.mem_of_mem_eraseIdx hc)
    | some crl =>
      obtain ⟨hversion, hcomplete, hdone⟩ := hok
      have hlisted : ∀ x ∈ s.revoked,
          Listed { s.setCall call (.stored done) with crl := crl } x := fun x hx =>
        ⟨hx, hcomplete x hx⟩
      refine ⟨⟨hversion.le, fun c hc => ?_, fun x hx => hlisted x (h.returned x hx).1⟩,
        hversion ▸ h.cached⟩
      rcases mem_set_cases hc with rfl | hc
      · exact fun x hx => hlisted x (hdone hx)
      have hother := h.calls c (List.mem_of_mem_eraseIdx hc)
      cases c with
      | revoking done' todo latest =>
        cases latest with
        | none | some => exact hother
      | stored serials => exact fun x hx => hlisted x (hother x hx).1
      | ended => trivial
  · exact ⟨h, le_rfl⟩

theorem Inv.finishStep (h : Inv s) (ok : Bool) : Inv (s.finishStep call ok) := by
  unfold Revoker.finishStep
  split
  · rename_i serials hcall
    refine ⟨h.cached, h.end.calls, fun x hx => ?_⟩
    cases ok with
    | false => exact h.returned x hx
    | true =>
      rcases List.mem_append.mp hx with hx | hx
      · have hstored : s.CallOk (.stored serials) := h.calls _ (List.mem_of_getElem? hcall)
        exact hstored x hx
      · exact h.returned x hx
  · exact h

theorem Inv.step (h : Inv s) (e : RevokeEvent) (hG : s.OneAtATime e) :
    Inv (s.step e) ∧ s.crl.version ≤ (s.step e).crl.version := by
  cases e with
  | tick d => exact ⟨h.tick d, le_rfl⟩
  | start serials =>
    refine ⟨⟨h.cached, fun c hc => ?_, h.returned⟩, le_rfl⟩
    rcases List.mem_append.mp hc with hc | hc
    · exact h.calls c hc
    · obtain rfl := List.mem_singleton.mp hc
      rfl
  | caRevoke call outcome =>
    refine ⟨h.caRevokeStep hG, ?_⟩
    simp only [Revoker.step, Revoker.caRevokeStep]
    split
    · cases outcome <;> exact le_rfl
    · exact le_rfl
  | store call verifies =>
    obtain rfl : verifies = true := hG
    exact h.storeStep
  | finish call ok =>
    refine ⟨h.finishStep ok, ?_⟩
    simp only [Revoker.step, Revoker.finishStep]
    split <;> exact le_rfl

def init (notAfter : Serial → ℕ) : Revoker := ⟨0, notAfter, [], 0, ⟨0, []⟩, [], []⟩

theorem inv_init (notAfter : Serial → ℕ) : Inv (init notAfter) :=
  ⟨le_rfl, fun _ hc => absurd hc List.not_mem_nil, fun _ hx => absurd hx List.not_mem_nil⟩

/-- While no call asks the CA when another one holds a list, the version of the cached CRL never
decreases, and the CRL has every serial whose call has returned until the certificate expires. -/
theorem crl_monotone (notAfter : Serial → ℕ) (xs ys : List RevokeEvent)
    (hG : Guarded step OneAtATime (init notAfter) (xs ++ ys)) :
    (run step (init notAfter) xs).crl.version ≤ (run step (init notAfter) (xs ++ ys)).crl.version ∧
      ∀ x ∈ (run step (init notAfter) (xs ++ ys)).returned,
        (run step (init notAfter) (xs ++ ys)).Listed x := by
  obtain ⟨hxs, hys⟩ := guarded_append.mp hG
  have hinv : Inv (run step (init notAfter) xs) :=
    hxs.invariant (fun s e h hGe => (h.step e hGe).1) (inv_init notAfter)
  rw [run_append]
  have hend := hys.invariant
    (I := fun s => Inv s ∧ (run step (init notAfter) xs).crl.version ≤ s.crl.version)
    (fun s e h hGe => ⟨(h.1.step e hGe).1, h.2.trans (h.1.step e hGe).2⟩) ⟨hinv, le_rfl⟩
  exact ⟨hend.2, hend.1.returned⟩

/-- Two devices with one certificate each are revoked, one after the other. -/
def inTurn : List RevokeEvent :=
  [.start [1], .start [2], .caRevoke 0 .answered, .store 0 true, .finish 0 true,
    .caRevoke 1 .answered, .store 1 true, .finish 1 true]

/-- The first call is overtaken by the second between the CA and the cache. -/
def overtaken : List RevokeEvent :=
  [.start [1], .start [2], .caRevoke 0 .answered, .caRevoke 1 .answered, .store 1 true,
    .finish 1 true]

theorem crl_monotone_inTurn :
    (run step (init fun _ => 100) ([] ++ inTurn)).returned ≠ [] ∧
    ∀ x ∈ (run step (init fun _ => 100) ([] ++ inTurn)).returned,
      (run step (init fun _ => 100) ([] ++ inTurn)).Listed x :=
  ⟨by decide +kernel, (crl_monotone (fun _ => 100) [] inTurn (by decide +kernel)).2⟩

/-- The cache goes from version 2 back to version 1, which does not have the serial 2. -/
theorem crl_goes_back :
    (run step (init fun _ => 100) overtaken).returned = [2] ∧
      (run step (init fun _ => 100) overtaken).crl = ⟨2, [2, 1]⟩ ∧
      (run step (init fun _ => 100) (overtaken ++ [.store 0 true])).crl = ⟨1, [1]⟩ := by
  decide +kernel

end Avon.Control.Revoker
