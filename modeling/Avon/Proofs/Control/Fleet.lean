import Avon.Proofs.Control.FleetStreams

/-!
# Quiet gateways in orderly runs

`quiet_consistent`: in an orderly run, a gateway that is quiet has control's versions. Nothing in
the code keeps a run orderly, and `quiet_not_consistent` has a run for each of five ways in which
a message is lost or control falls back.
-/

set_option autoImplicit false

namespace Avon.Control

open Avon.Policy Avon.Gateway Avon.Lib.Run Avon.Lib.Mirror

namespace Fleet

variable {n : ℕ} {s s' : Fleet n}

theorem sound_other : s.Sound .other := by
  intro topic v hcarried
  cases hcarried

theorem Inv.step (h : Inv s) {env : PushEnv} {e : FleetEvent n} (hok : s.Orderly env e) :
    Inv (s.step env e) := by
  cases e with
  | loadTenant call now => exact h.loadTenantStep hok
  | storeCrl call => exact h.storeCrlStep hok
  | visit call => exact h.visitStep hok
  | sendOther g => exact h.trySend sound_other fun _ => rfl
  | register g boot tenants => exact h.registerStep hok
  | readForRegistration g db => exact h.readForRegistrationStep hok
  | loadForRegistration g now => exact h.loadForRegistrationStep hok
  | answer g => exact h.answerStep
  | applyConfig g now => exact h.applyConfigStep hok
  | openEvents g => exact h.openEventsStep g
  | inboundEnds stream => exact h.inboundEndsStep hok
  | takeDown stream => exact h.takeDown
  | forward stream => exact h.forward
  | receive g now => exact h.receiveStep hok
  | restart g => exact h.setPhase_of_off g (.inr (.inl rfl))
  | hangUp g =>
    simp only [Fleet.step]
    split
    · exact h.setPhase_of_off g (.inl rfl)
    · exact h
  | callFails g =>
    simp only [Fleet.step]
    split
    · rename_i boot _ _ _ _
      cases boot with
      | true => exact h.setPhase_of_off g (.inr (.inl rfl))
      | false => exact h.setPhase_of_off g (.inl rfl)
    · exact h.setPhase_of_off g (.inl rfl)
    · exact h
  | refreshTenant | revokeDevice =>
    simp only [Fleet.step]
    split
    · rename_i hcall
      exact h.setCall (by simp [hcall]) nofun
    · exact h
  | readTenant call db =>
    simp only [Fleet.step]
    split
    · rename_i hcall
      exact h.setCall (by simp [hcall]) (by simp)
    · exact h
  | revokeSerial call verified =>
    simp only [Fleet.step]
    split
    · rename_i hcall
      exact h.setCall (by simp [hcall]) nofun
    · rename_i hcall
      exact h.setCall (by simp [hcall]) nofun
    · exact h
  | callEnds call =>
    simp only [Fleet.step]
    split
    · rename_i hcall
      exact h.setCall (by simp [hcall]) nofun
    · rename_i hcall
      exact h.setCall (by simp [hcall]) nofun
    · rename_i hcall
      exact h.setCall (by simp [hcall]) nofun
    · exact h

/-- In an orderly run, a gateway whose stream is open and empty has control's CRL version and,
for each of control's engines, its snapshot version, as soon as no refresh and no revocation is
running. -/
theorem quiet_consistent (env : PushEnv) (crl : Crl) (events : List (FleetEvent n))
    (horderly : Guarded (Fleet.step env) (Orderly env) (init n crl) events) {g : Fin n}
    (hquiet : (run (Fleet.step env) (init n crl) events).Quiet g) :
    (run (Fleet.step env) (init n crl) events).Consistent g := by
  have hinv : Inv (run (Fleet.step env) (init n crl) events) :=
    horderly.invariant (fun _ _ h hok => h.step hok) (Inv.init n crl)
  exact hinv.consistent hquiet

/-! ### Tenant 7 -/

def bareEnv : PushEnv := ⟨⟨Unit, fun _ => none, fun _ _ => none⟩, fun _ => none⟩

def tablesAt (version : ℤ) : Db := ⟨[7], [], [], [], [], [], [], [⟨7, version⟩], 0⟩

def registers (g : Fin n) (boot : Bool) (db : Db) : List (FleetEvent n) :=
  [.register g boot (some db), .readForRegistration g (some db), .loadForRegistration g 0,
    .answer g]

def serves (g : Fin n) : List (FleetEvent n) :=
  [.applyConfig g 0, .applyConfig g 0, .openEvents g]

def refreshes (n : ℕ) (db : Db) : List (FleetEvent n) :=
  [.refreshTenant 0 7, .readTenant 0 (some db), .loadTenant 0 0] ++
    List.replicate (n + 1) (.visit 0)

def revokes (n call : ℕ) (version : UInt64) : List (FleetEvent n) :=
  [.revokeDevice call, .revokeSerial call (some ⟨version, []⟩), .storeCrl call] ++
    List.replicate (n + 1) (.visit call)

def delivers (g : Fin n) (stream : ℕ) : List (FleetEvent n) :=
  [.takeDown stream, .forward stream, .receive g 0]

/-- A fleet is quiet if the calls up to a number have ended, and the stream that a gateway serves is
empty. The calls beyond that number have not been started. -/
theorem quiet_of_calls {s : Fleet n} {g : Fin n} (calls stream : ℕ)
    (hbeyond : ∀ k, s.calls (k + calls) = none)
    (hdone : (∀ call < calls, (s.calls call).isNone = true) ∧ s.phases g = .serving stream ∧
      (s.streams[stream]?.any fun st =>
        st.inbound && st.down.isEmpty && st.held.isNone && st.response.isEmpty) = true) :
    s.Quiet g := by
  obtain ⟨hcalls, hphase, hstream⟩ := hdone
  refine ⟨fun call => ?_, ?_⟩
  · rcases Nat.lt_or_ge call calls with hlt | hge
    · exact Option.isNone_iff_eq_none.mp (hcalls call hlt)
    · obtain ⟨k, rfl⟩ := Nat.exists_eq_add_of_le' hge
      exact hbeyond k
  obtain ⟨st, hst, hempty⟩ := (Option.any_eq_true _ _).mp hstream
  simp only [Bool.and_eq_true, List.isEmpty_iff, Option.isNone_iff_eq_none] at hempty
  obtain ⟨⟨⟨hinbound, hdown⟩, hheld⟩, hresponse⟩ := hempty
  exact ⟨stream, st, hphase, hst, hinbound, hdown, hheld, hresponse⟩

def after (events : List (FleetEvent n)) : Fleet n :=
  run (Fleet.step bareEnv) (init n ⟨5, []⟩) events

/-- A gateway starts and opens its stream, then a snapshot and a CRL are sent. -/
def orderlyDay : List (FleetEvent 1) :=
  registers 0 true (tablesAt 1) ++ registers 0 false (tablesAt 1) ++ serves 0 ++
    refreshes 1 (tablesAt 2) ++ revokes 1 0 6 ++ delivers 0 0 ++ delivers 0 0

theorem quiet_orderlyDay : (after orderlyDay).Quiet 0 :=
  quiet_of_calls 1 0 (fun _ => rfl) (by decide +kernel)

/-- The gateway has what was sent last. -/
theorem orderlyDay_consistent :
    versionsOf ((after orderlyDay).gateways 0) .crl = 6 ∧
    versionsOf ((after orderlyDay).gateways 0) (.tenant 7) = 2 ∧ (after orderlyDay).Consistent 0 :=
  ⟨by decide +kernel, by decide +kernel,
    quiet_consistent bareEnv ⟨5, []⟩ orderlyDay (by decide +kernel) quiet_orderlyDay⟩

/-! ### Gateways out of step -/

/-- The refresh and the revocation come before the gateway has opened its stream. -/
def earlyPush : List (FleetEvent 1) :=
  registers 0 true (tablesAt 1) ++ registers 0 false (tablesAt 1) ++
    [.applyConfig 0 0, .applyConfig 0 0] ++ refreshes 1 (tablesAt 2) ++ revokes 1 0 6 ++
    [.openEvents 0]

def fullChannel : List (FleetEvent 1) :=
  registers 0 true (tablesAt 1) ++ registers 0 false (tablesAt 1) ++ serves 0 ++
    List.replicate 256 (.sendOther 0) ++ refreshes 1 (tablesAt 2) ++
    (List.replicate 256 (delivers 0 0)).flatten

/-- The gateway connects again, and only then control notices the end of the first stream. -/
def lateEnd : List (FleetEvent 1) :=
  registers 0 true (tablesAt 1) ++ registers 0 false (tablesAt 1) ++ serves 0 ++ [.hangUp 0] ++
    registers 0 false (tablesAt 1) ++ serves 0 ++ [.inboundEnds 0] ++ refreshes 1 (tablesAt 2)

/-- A second gateway starts, and its registration loads a newer snapshot. -/
def secondGateway : List (FleetEvent 2) :=
  registers 0 true (tablesAt 1) ++ registers 0 false (tablesAt 1) ++ serves 0 ++
    registers 1 true (tablesAt 2)

/-- Two revocations run, and the one with the older CRL stores it last. -/
def crossedRevocations : List (FleetEvent 1) :=
  registers 0 true (tablesAt 1) ++ registers 0 false (tablesAt 1) ++ serves 0 ++
    [.revokeDevice 1, .revokeSerial 1 (some ⟨6, []⟩)] ++ revokes 1 0 7 ++
    [.storeCrl 1, .visit 1, .visit 1] ++ delivers 0 0 ++ delivers 0 0

theorem quiet_earlyPush : (after earlyPush).Quiet 0 :=
  quiet_of_calls 1 0 (fun _ => rfl) (by decide +kernel)

set_option maxRecDepth 50000 in
theorem quiet_fullChannel : (after fullChannel).Quiet 0 :=
  quiet_of_calls 1 0 (fun _ => rfl) (by decide +kernel)

theorem quiet_lateEnd : (after lateEnd).Quiet 0 :=
  quiet_of_calls 1 1 (fun _ => rfl) (by decide +kernel)

theorem quiet_secondGateway : (after secondGateway).Quiet 0 :=
  quiet_of_calls 0 0 (fun _ => rfl) (by decide +kernel)

theorem quiet_crossedRevocations : (after crossedRevocations).Quiet 0 :=
  quiet_of_calls 2 0 (fun _ => rfl) (by decide +kernel)

theorem not_consistent {g : Fin n} (tenant : TenantId)
    (h : (s.engines tenant).isSome = true ∧
      versionsOf (s.gateways g) (.tenant tenant) ≠ s.versions (.tenant tenant)) :
    ¬ s.Consistent g := by
  intro hconsistent
  obtain ⟨engine, he⟩ := Option.isSome_iff_exists.mp h.1
  refine h.2 ?_
  simp only [versions, versionAt, he]
  exact hconsistent.2 tenant engine he

/-- In each of these runs the gateway is quiet, and it has an old snapshot or control has an old
CRL. -/
theorem quiet_not_consistent :
    ((after earlyPush).Quiet 0 ∧ ¬ (after earlyPush).Consistent 0) ∧
    ((after fullChannel).Quiet 0 ∧ ¬ (after fullChannel).Consistent 0) ∧
    ((after lateEnd).Quiet 0 ∧ ¬ (after lateEnd).Consistent 0) ∧
    ((after secondGateway).Quiet 0 ∧ ¬ (after secondGateway).Consistent 0) ∧
    ((after crossedRevocations).Quiet 0 ∧ ¬ (after crossedRevocations).Consistent 0) := by
  refine ⟨⟨quiet_earlyPush, fun h => ?_⟩, ⟨quiet_fullChannel, not_consistent 7 ?_⟩,
    ⟨quiet_lateEnd, not_consistent 7 ?_⟩, ⟨quiet_secondGateway, not_consistent 7 ?_⟩,
    ⟨quiet_crossedRevocations, fun h => ?_⟩⟩
  · exact absurd h.1 (by decide +kernel)
  · decide +kernel
  · decide +kernel
  · decide +kernel
  · exact absurd h.1 (by decide +kernel)

end Fleet

end Avon.Control
