import Avon.Proofs.Policy.Decide

/-!
# The admission request against concrete flows

Before a session is opened, control asks the engine for admission: a request without protocol and
port, for which every layer-4 rule counts as met. This holds for deny policies too.
-/

set_option autoImplicit false

namespace Avon.Policy

open Semantics Engine

structure Journey where
  device : DeviceId
  destination : Destination
  dstIp : IpAddr
  deriving DecidableEq, Repr

namespace Journey

def flow (j : Journey) (protocol : Protocol) (dstPort : UInt16) : DecisionRequest :=
  ⟨j.device, j.destination, j.dstIp, protocol, dstPort, false⟩

def admission (j : Journey) : DecisionRequest :=
  ⟨j.device, j.destination, j.dstIp, .any, 0, true⟩

/-- A deny policy in force matches the journey, if its layer-4 rules are left aside. -/
def DeniedBesideL4 (tz : TzDb) (data : SnapshotData) (now : ℤ) (j : Journey) : Prop :=
  ∃ dev, ActiveDevice data j.admission dev ∧
    ∃ p ∈ data.policies, InForce tz now p.spec ∧ p.spec.effect = .deny ∧
      SourceMatches data p.spec.source j.device ∧
      DestinationReads data p.spec.destination j.admission ∧
      ConditionsHold hoursSinceUpdate now p.spec.conditions dev.attrs

end Journey

section
variable {data : SnapshotData} {now : ℤ} {j : Journey} {dev : DeviceEntity} {p : PolicySpec}

theorem reads_admission_iff : Reads data now dev j.admission p ↔
    SourceMatches data p.source j.device ∧ DestinationReads data p.destination j.admission ∧
      ConditionsHold hoursSinceUpdate now p.conditions dev.attrs := by
  have hl4 : L4Matches p.l4 j.admission := Or.inr (.inl rfl)
  simp only [Reads, hl4, true_and]
  rfl

theorem reads_admission_of_flow {protocol : Protocol} {port : UInt16}
    (h : Reads data now dev (j.flow protocol port) p) : Reads data now dev j.admission p := by
  obtain ⟨hsource, hdest, -, hcond⟩ := h
  exact reads_admission_iff.mpr ⟨hsource, hdest, hcond⟩

end

/-- A journey with a permitted flow is admitted, and not forbidden, if and only if it has no
permitted flow, or no deny policy in force matches it apart from layer-4 rules. -/
theorem admission_implied_iff {tz : TzDb} {data : SnapshotData} {now : ℤ} {l : Loaded}
    (hl : LoadedAt tz data now l) (tenant : TenantId) (j : Journey) :
    (∀ protocol port, ((mk tenant (some l)).decide (j.flow protocol port)).allow = true →
        ((mk tenant (some l)).decide j.admission).allow = true ∧
          ((mk tenant (some l)).decide j.admission).reason ≠ .forbid) ↔
      (∀ protocol port,
          ((mk tenant (some l)).decide (j.flow protocol port)).allow = false) ∨
        ¬ j.DeniedBesideL4 tz data now := by
  have hadmission := decide_allow_iff hl tenant j.admission
  have hforbid := decide_forbid_iff hl tenant j.admission
  have hflow := fun protocol port => decide_allow_iff hl tenant (j.flow protocol port)
  simp only [reads_admission_iff] at hforbid
  constructor
  · intro himplied
    by_cases hnone : ∀ protocol port,
        ((mk tenant (some l)).decide (j.flow protocol port)).allow = false
    · exact .inl hnone
    simp only [not_forall] at hnone
    obtain ⟨protocol, port, hallow⟩ := hnone
    obtain ⟨hadmitted, -⟩ := himplied protocol port (Bool.eq_true_of_not_eq_false hallow)
    obtain ⟨dev, hdev, -, -, hdeny⟩ := hadmission.mp hadmitted
    right
    rintro ⟨dev', hdev', p, hp, hforce, heffect, hreads⟩
    cases (activeDevice_iff hdev dev').mp hdev'
    exact hdeny p hp hforce heffect (reads_admission_iff.mpr hreads)
  · rintro (hnone | hdenied) protocol port hallow
    · rw [hnone protocol port] at hallow
      cases hallow
    obtain ⟨dev, hdev, hstuck, ⟨p, hp, hforce, heffect, hreads⟩, -⟩ :=
      (hflow protocol port).mp hallow
    refine ⟨hadmission.mpr
      ⟨dev, hdev, hstuck, ⟨p, hp, hforce, heffect, reads_admission_of_flow hreads⟩, ?_⟩,
      fun hreason => ?_⟩
    · intro q hq hforce' heffect' hreads'
      exact hdenied ⟨dev, hdev, q, hq, hforce', heffect', reads_admission_iff.mp hreads'⟩
    · obtain ⟨dev', hdev', -, hdeny⟩ := hforbid.mp hreason
      exact hdenied ⟨dev', hdev', hdeny⟩

def noWebSpec : PolicySpec :=
  { sshSpec with effect := .deny, l4 := [⟨.tcp, ⟨[⟨80, 80⟩]⟩⟩] }

def sshNoWeb : SnapshotData :=
  { officeSnapshot sshSpec with policies := [⟨30, sshSpec⟩, ⟨31, noWebSpec⟩] }

def to2 : Journey := ⟨1, .device 2, .v4 0x0A140002⟩

/-- SSH from device 1 to device 2 is permitted, and its admission is forbidden. -/
theorem admission_refused_beside_permit : ∃ e,
    (empty 7).load utc sshNoWeb 3600 = .ok e ∧
      (e.decide (to2.flow .tcp 22)).allow = true ∧
      (e.decide to2.admission).allow = false ∧ (e.decide to2.admission).reason = .forbid := by
  obtain ⟨e, hload, hrun⟩ := exists_ok (x := (empty 7).load utc sshNoWeb 3600)
    (p := fun e => (e.decide (to2.flow .tcp 22)).allow = true ∧
      (e.decide to2.admission).allow = false ∧ (e.decide to2.admission).reason = .forbid)
    (by decide +kernel)
  exact ⟨e, hload, of_decide_eq_true hrun⟩

/-- With the SSH policy alone, device 1 is admitted to device 2. -/
theorem admission_with_ssh : ∃ e,
    (empty 7).load utc (officeSnapshot sshSpec) 3600 = .ok e ∧
      (e.decide (to2.flow .tcp 22)).allow = true ∧ (e.decide to2.admission).allow = true := by
  obtain ⟨e, hload, hflow⟩ := exists_ok
    (x := (empty 7).load utc (officeSnapshot sshSpec) 3600)
    (p := fun e => (e.decide (to2.flow .tcp 22)).allow) (by decide +kernel)
  obtain ⟨l, rfl, -, hl⟩ := loadedAt_of_load hload
  refine ⟨_, hload, hflow, ((admission_implied_iff hl _ to2).mpr (.inr ?_) .tcp 22 hflow).1⟩
  rintro ⟨dev, -, p, hp, -, hdeny, -⟩
  cases List.mem_singleton.mp hp
  cases hdeny

end Avon.Policy
