import Avon.Control.Peer
import Avon.Proofs.Policy.Decide

/-!
# Peer sessions against the policy

A peer session carries traffic that no gateway checks, so a pair of devices whose every flow is
denied should get none. Flows are denied because nothing permits them, while admission asks for a
policy that forbids.
-/

set_option autoImplicit false

namespace Avon.Control

open Avon.Policy Semantics Lib.BigEndian

/-- The engine denies every flow from `a` to `b`, at the addresses that `b` has. -/
def AllFlowsDenied (engine : Engine) (a b : DeviceId) (overlay : List IpAddr) : Prop :=
  ∀ ip ∈ overlay, ∀ protocol port,
    (engine.decide ⟨a, .device b, ip, protocol, port, false⟩).allow = false

def Outcome.Refused (o : Outcome) : Prop :=
  (∃ status, o.result = .error status) ∧ ∀ target offer, .sendOffer target offer ∉ o.effects

/-- Everything outside the policy that an offer needs: a well-formed request, both devices
active and with a certificate, one tenant, an open stream, and no failure on the way. -/
structure OfferReady (w : PeerWorld) (info : SessionInfo) (req : PeerSessionRequest)
    (b : DeviceId) : Prop where
  request : ∃ suite, checkRequest info req = .ok (b, suite)
  target : ∃ row, loadDeviceCertAndOverlay w.targetDb b = .ok row
  tenant : targetTenant w.tenantDb b = .ok info.tenant
  connected : w.connected b = true
  admission : ∃ row, loadDeviceCertAndOverlay w.admissionDb b = .ok row
  initiator : ∃ row, loadDeviceCertAndOverlay w.initiatorDb info.device = .ok row
  sessionId : ∃ id, w.sessionId = some id
  inserted : w.insertOk = true
  pushed : w.pushed = true

theorem allow_of_forbid {e : Engine} {req : DecisionRequest}
    (h : (e.decide req).reason = .forbid) : (e.decide req).allow = false := by
  unfold Engine.decide at h ⊢
  split
  · rfl
  simp only at h ⊢
  split
  · rfl
  split
  · rfl
  split
  · rfl
  split
  · split
    · simp_all
    · rfl
  · split <;> rfl

variable {w : PeerWorld} {info : SessionInfo} {target : DeviceId} {req : PeerSessionRequest}

/-- With an engine, admission passes if and only if the target is found again and the engine
does not forbid. -/
theorem admit_ok_iff {engine : Engine}
    (hengine : w.engines info.tenant = some engine) :
    admissionCheck w info target = .ok () ↔
      (∃ row, loadDeviceCertAndOverlay w.admissionDb target = .ok row) ∧
        (engine.decide (admissionRequest info target)).reason ≠ .forbid := by
  unfold admissionCheck
  rw [hengine]
  simp only
  cases hload : loadDeviceCertAndOverlay w.admissionDb target with
  | error e => simp
  | ok row =>
    by_cases hforbid : (engine.decide (admissionRequest info target)).reason = .forbid
    · simp [hforbid, allow_of_forbid hforbid]
    · simp [hforbid]

theorem prepare_ok_iff {suite : Crypto.Suite}
    {initiator : Crypto.Bytes × Option IpNet × Option IpNet} :
    prepare w info req = .ok (target, suite, initiator) ↔
      checkRequest info req = .ok (target, suite) ∧
        (∃ row, loadDeviceCertAndOverlay w.targetDb target = .ok row) ∧
        targetTenant w.tenantDb target = .ok info.tenant ∧ w.connected target = true ∧
        admissionCheck w info target = .ok () ∧
        loadDeviceCertAndOverlay w.initiatorDb info.device = .ok initiator := by
  unfold prepare
  constructor
  · intro h
    obtain ⟨⟨t, s⟩, hreq, h⟩ := bind_eq_ok.mp h
    obtain ⟨row, htarget, h⟩ := bind_eq_ok.mp h
    obtain ⟨tenant, htenant, h⟩ := bind_eq_ok.mp h
    split at h
    · cases h
    rename_i hsame
    split at h
    · cases h
    rename_i hconnected
    obtain ⟨⟨⟩, hadmit, h⟩ := bind_eq_ok.mp h
    obtain ⟨i, hinitiator, h⟩ := bind_eq_ok.mp h
    cases h
    exact ⟨hreq, ⟨row, htarget⟩, not_not.mp hsame ▸ htenant, by simpa using hconnected,
      hadmit, hinitiator⟩
  · rintro ⟨hreq, ⟨row, htarget⟩, htenant, hconnected, hadmit, hinitiator⟩
    simp [hreq, htarget, htenant, hconnected, hadmit, hinitiator, bind, Except.bind, pure,
      Except.pure]

/-- An offer goes out if and only if everything before it passes; then the call is not
refused, whatever the answer. -/
theorem refused_iff_prepare :
    (requestPeerSession w info req).Refused ↔
      ¬ ((∃ r, prepare w info req = .ok r) ∧ (∃ id, w.sessionId = some id) ∧
        w.insertOk = true ∧ w.pushed = true) := by
  unfold requestPeerSession
  rcases hprep : prepare w info req with e | ⟨target, suite, cert, v4, v6⟩
  · simp [Outcome.Refused]
  cases hid : w.sessionId with
  | none => simp [Outcome.Refused]
  | some id =>
    cases hins : w.insertOk with
    | false => simp [Outcome.Refused]
    | true =>
      cases hpush : w.pushed with
      | false => simp [Outcome.Refused]
      | true =>
        simp only [Bool.not_true, Bool.false_eq_true, if_false]
        exact iff_of_false
          (fun h => h.2 target _ (List.mem_append_right _ List.mem_cons_self)) (by simp)

theorem target_of_checkRequest {b : DeviceId} {suite : Crypto.Suite}
    (hb : req.targetDevice = some (beBytes 16 b.toNat))
    (h : checkRequest info req = .ok (target, suite)) : target = b := by
  have hname : BitVec.ofNat 128 (ofBe (beBytes 16 b.toNat)) = b := by
    rw [ofBe_beBytes (by have := b.isLt; omega), BitVec.ofNat_toNat,
      BitVec.setWidth_eq]
  unfold checkRequest at h
  rw [hb] at h
  simp only [hname] at h
  split at h
  · cases h
  split at h
  · cases h
  split at h
  · cases h
  split at h
  · cases h
  · cases h
    rfl

section
variable {b : DeviceId} {engine : Engine} (hengine : w.engines info.tenant = some engine)
  (hb : req.targetDevice = some (beBytes 16 b.toNat))
include hengine hb

/-- When a request to `b` is refused: something outside the policy fails, or the engine
forbids the admission request. -/
theorem requestPeerSession_refused_iff :
    (requestPeerSession w info req).Refused ↔
      (engine.decide (admissionRequest info b)).reason = .forbid ∨ ¬ OfferReady w info req b := by
  rw [refused_iff_prepare, ← not_iff_not, not_not, not_or, not_not]
  constructor
  · rintro ⟨⟨⟨target, suite, initiator⟩, hprep⟩, hid, hins, hpush⟩
    obtain ⟨hreq, htarget, htenant, hconnected, hadmit, hinitiator⟩ := prepare_ok_iff.mp hprep
    cases target_of_checkRequest hb hreq
    obtain ⟨hadmission, hforbid⟩ := (admit_ok_iff hengine).mp hadmit
    exact ⟨hforbid, ⟨suite, hreq⟩, htarget, htenant, hconnected, hadmission, ⟨_, hinitiator⟩,
      hid, hins, hpush⟩
  rintro ⟨hforbid, h⟩
  obtain ⟨suite, hreq⟩ := h.request
  obtain ⟨initiator, hinitiator⟩ := h.initiator
  exact ⟨⟨_, prepare_ok_iff.mpr ⟨hreq, h.target, h.tenant, h.connected,
    (admit_ok_iff hengine).mpr ⟨h.admission, hforbid⟩, hinitiator⟩⟩, h.sessionId, h.inserted,
    h.pushed⟩

/-- Denying every flow from a device to `b` refuses its peer session with `b` if and only if
not every flow is denied, or a deny policy in force matches the admission request, or
something outside the policy fails. -/
theorem peer_not_weaker_iff {tz : TzDb} {data : SnapshotData} {now : ℤ} {l : Loaded}
    (hinner : engine.inner = some l) (hl : LoadedAt tz data now l)
    (overlay : List IpAddr) :
    (AllFlowsDenied engine info.device b overlay → (requestPeerSession w info req).Refused) ↔
      ¬ AllFlowsDenied engine info.device b overlay ∨
        (∃ dev, ActiveDevice data (admissionRequest info b) dev ∧
          ∃ p ∈ data.policies, InForce tz now p.spec ∧ p.spec.effect = .deny ∧
            Reads data now dev (admissionRequest info b) p.spec) ∨
        ¬ OfferReady w info req b := by
  obtain ⟨tenant, inner⟩ := engine
  cases hinner
  have hforbid := decide_forbid_iff hl tenant (admissionRequest info b)
  have hip : (admissionRequest info b).dstIp.isV4Mapped = false := rfl
  simp only [hip, true_and] at hforbid
  rw [requestPeerSession_refused_iff hengine hb, ← hforbid]
  exact imp_iff_not_or

end

/-! ### Two devices of one tenant -/

def upToDate : Json := .object [("firewall_enabled", .bool true), ("last_update_unix", .int 0)]

def officeDb : Db where
  tenants := [7]
  pods := [⟨10, 7, none⟩, ⟨11, 7, some 10⟩]
  deviceClasses := [⟨20, 7⟩, ⟨21, 7⟩]
  devices :=
    [⟨1, 7, "active", none, some upToDate, "none", 0, some (.host (.v4 0x64400001)), none⟩,
      ⟨2, 7, "active", some 20, some upToDate, "none", 0, some (.host (.v4 0x64400002)), none⟩]
  devicePods := [⟨1, 11⟩]
  certificates := [⟨1, [1], 9000, none⟩, ⟨2, [2], 9000, none⟩]
  policies := []
  policySnapshots := []
  now := 3600

def dial2 : PeerSessionRequest where
  targetDevice := some (beBytes 16 2)
  ephKemPk := List.replicate HYBRID_KEM_PUBLIC_KEY_BYTES 0
  suites := [2, 1]
  candidates := []
  initiatorIndex := 5

def goodDay (engine : Engine) : PeerWorld where
  targetDb := some officeDb
  tenantDb := some officeDb
  connected d := d = 1 ∨ d = 2
  engines t := if t = 7 then some engine else none
  admissionDb := some officeDb
  initiatorDb := some officeDb
  sessionId := some 99
  insertOk := true
  pushed := true
  answer := some ⟨beBytes 16 99, some ⟨[], [], [], 6, "", 1, []⟩, []⟩
  responderDb := some officeDb
  activateOk := true

def onlyFrom2 : PolicySpec :=
  { sshSpec with source := ⟨[], [2], [], [], false⟩, destination := ⟨[], [], [], [], true⟩ }

def notTo2 : PolicySpec := { sshSpec with effect := .deny }

/-- Every flow from device 1 to the address of device 2 is denied, and a deny policy in force
refuses the session. -/
theorem peer_refused_by_deny : ∃ engine,
    (Engine.empty 7).load utc (officeSnapshot notTo2) 3600 = .ok engine ∧
      AllFlowsDenied engine 1 2 [.v4 0x64400002] ∧
      (requestPeerSession (goodDay engine) ⟨1, 7⟩ dial2).Refused := by
  obtain ⟨engine, hload, hforbid⟩ := exists_ok
    (x := (Engine.empty 7).load utc (officeSnapshot notTo2) 3600)
    (p := fun e => (e.decide (admissionRequest ⟨1, 7⟩ 2)).reason = .forbid) (by decide +kernel)
  obtain ⟨l, rfl, -, hl⟩ := loadedAt_of_load hload
  obtain ⟨dev, hdev, -, hdeny⟩ := (decide_forbid_iff hl _ _).mp (of_decide_eq_true hforbid)
  have hdenied : AllFlowsDenied ⟨7, some l⟩ 1 2 [.v4 0x64400002] := by
    intro ip _ protocol port
    rw [Bool.eq_false_iff, ne_eq, decide_allow_iff hl]
    rintro ⟨-, -, -, ⟨p, hp, -, heffect, -⟩, -⟩
    cases List.mem_singleton.mp hp
    cases heffect
  exact ⟨_, hload, hdenied, (peer_not_weaker_iff (b := 2) rfl rfl rfl hl [.v4 0x64400002]).mpr
    (.inr (.inl ⟨dev, hdev, hdeny⟩)) hdenied⟩

/-- Every flow from device 1 to device 2 is denied, as nothing permits it, and the peer
session between them is brokered. -/
theorem peer_without_permit : ∃ engine,
    (Engine.empty 7).load utc (officeSnapshot onlyFrom2) 3600 = .ok engine ∧
      engine.hasPolicies = true ∧ (∀ overlay, AllFlowsDenied engine 1 2 overlay) ∧
      (requestPeerSession (goodDay engine) ⟨1, 7⟩ dial2).result.isOk = true ∧
      ∃ offer, .sendOffer 2 offer ∈ (requestPeerSession (goodDay engine) ⟨1, 7⟩ dial2).effects := by
  obtain ⟨engine, hload, hrun⟩ := exists_ok
    (x := (Engine.empty 7).load utc (officeSnapshot onlyFrom2) 3600)
    (p := fun e => e.hasPolicies ∧
      (requestPeerSession (goodDay e) ⟨1, 7⟩ dial2).result.isOk = true ∧
      .sendOffer 2 ⟨99, [1], dial2.ephKemPk, .aes256Gcm, [], some (.host (.v4 0x64400001)), none,
        5⟩ ∈ (requestPeerSession (goodDay e) ⟨1, 7⟩ dial2).effects) (by decide +kernel)
  obtain ⟨hpolicies, hok, hoffer⟩ := of_decide_eq_true hrun
  refine ⟨engine, hload, hpolicies, fun overlay ip _ protocol port => ?_, hok, _, hoffer⟩
  obtain ⟨l, rfl, -, hl⟩ := loadedAt_of_load hload
  rw [Bool.eq_false_iff, ne_eq, decide_allow_iff hl]
  -- The only policy has another source.
  rintro ⟨dev, -, -, ⟨p, hp, -, -, hsource, -⟩, -⟩
  cases List.mem_singleton.mp hp
  rcases hsource with hany | hlisted | ⟨pod, hpod, -⟩ | ⟨c, hc, -⟩
  · cases hany
  · cases List.mem_singleton.mp hlisted
  · cases hpod
  · cases hc

end Avon.Control
