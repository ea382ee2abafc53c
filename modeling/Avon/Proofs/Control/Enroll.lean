import Avon.Control.Enroll
import Avon.Proofs.Ca.Issue

/-!
# What a certificate's hardware binding is worth

The CA copies the binding of a CSR, so the binding of a certificate is as good as the check before
the CA. An enrollment makes the check (`enroll_bound`). A renewal makes none, and `sound_run_iff`
says exactly which runs end with sound bindings.
-/

set_option autoImplicit false

namespace Avon.Control

open Avon.Ca Avon.Crypto Avon.Keystore Avon.Lib Avon.Lib.Run Avon.Proto Registry
open TbsCertificate (decode)

/-! ### The CA copies -/

def csrBinding (csr : Csr) : Option HardwareBinding :=
  (HardwareBinding.decode csr.hardwareBinding).toOption

theorem csrBinding_of_empty {csr : Csr} (h : csr.hardwareBinding = []) : csrBinding csr = none := by
  rw [csrBinding, h]
  rfl

section
variable {C : HybridImpl} {csr : Csr} {cert : Certificate}

theorem decodeBinding_cases {binding : Option HardwareBinding}
    (h : decodeBinding csr = .ok binding) : binding = csrBinding csr := by
  unfold decodeBinding at h
  split at h
  · next hempty =>
    cases h
    exact (csrBinding_of_empty hempty).symm
  split at h
  · next b hdecode =>
    cases h
    rw [csrBinding, hdecode]
    rfl
  · cases h

variable {kind : SubjectKind} {sans : List String} {w : CaWorld C} {tenant : TenantId}
  {device : Uuid}

theorem issue_keys {data : CsrData}
    {tenant : Option TenantId} {subject : Uuid} {lifetimeSecs : Int64}
    {issued : Issued} (h : issue C w data kind tenant subject sans lifetimeSecs = .ok issued) :
    issued.certificate.tbs.signingKey = data.template.signingKey ∧
      issued.certificate.tbs.kemKey = data.template.kemKey ∧
      issued.certificate.tbs.hardwareBinding = data.hardwareBinding := by
  obtain ⟨serial, der, signature, -, -, -, rfl⟩ := issue_cases h
  exact ⟨rfl, rfl, rfl⟩

theorem issueDeviceCredential_subject
    (h : issueDeviceCredential C w tenant device csr kind sans = .ok cert) :
    cert.tbs.tenantId = uuidText tenant ∧ cert.tbs.subjectId = device := by
  obtain ⟨data, -, h⟩ := bind_eq_ok.mp h
  obtain ⟨-, -, h⟩ := bind_eq_ok.mp h
  obtain ⟨issued, hissue, h⟩ := bind_eq_ok.mp h
  obtain ⟨-, -, h⟩ := bind_eq_ok.mp h
  cases h
  obtain ⟨serial, der, signature, -, -, -, rfl⟩ := issue_cases hissue
  exact ⟨rfl, rfl⟩

theorem issueDeviceCredential_cases
    (h : issueDeviceCredential C w tenant device csr kind sans = .ok cert) :
    ∃ template kem, decode C csr.tbsTemplate = .ok template ∧
      template.kemKey = some kem ∧ cert.tbs.signingKey = template.signingKey ∧
      cert.tbs.kemKey = some kem ∧ cert.tbs.hardwareBinding = csrBinding csr := by
  obtain ⟨data, hdata, h⟩ := bind_eq_ok.mp h
  obtain ⟨-, -, h⟩ := bind_eq_ok.mp h
  obtain ⟨certificate, hissue, h⟩ := bind_eq_ok.mp h
  obtain ⟨-, -, h⟩ := bind_eq_ok.mp h
  cases h
  obtain ⟨htemplate, hkem, hbinding⟩ := verifyCsr_cases hdata
  replace hbinding := decodeBinding_cases hbinding
  obtain ⟨hsigning, hkey, hcopied⟩ := issue_keys hissue
  obtain ⟨kem, hkem⟩ := Option.ne_none_iff_exists'.mp hkem
  exact ⟨data.template, kem, htemplate, hkem, hsigning, hkey.trans hkem, hcopied.trans hbinding⟩

end

/-! ### Sound bindings -/

/-- The binding of a certificate verifies against its keys and a hint. -/
def Bound (B : BindingImpl) (hint : Bytes) (cert : Certificate) : Prop :=
  ∀ b, cert.tbs.hardwareBinding = some b → ∃ kem, cert.tbs.kemKey = some kem ∧
    verifyBinding B b cert.tbs.signingKey kem hint = .ok ()

/-- The CSR has no binding, or one that verifies against its keys and a hint. -/
def BindingChecked (C : HybridImpl) (B : BindingImpl) (hint : Bytes) (csr : Csr) : Prop :=
  ∀ b, csrBinding csr = some b → ∃ template kem,
    decode C csr.tbsTemplate = .ok template ∧ template.kemKey = some kem ∧
      verifyBinding B b template.signingKey kem hint = .ok ()

section
variable {C : HybridImpl} {B : BindingImpl} {csr : Csr} {cert : Certificate} {req : EnrollRequest}
  {template : TbsCertificate} {device : EnrolledDevice} {taken : Uuid → Bool} {tenant : TenantId}
  {w : EnrollWorld C} {hint : Bytes}

theorem bound_iff_bindingChecked {w : CaWorld C} {device : Uuid} {kind : SubjectKind}
    {sans : List String} (h : issueDeviceCredential C w tenant device csr kind sans = .ok cert) :
    Bound B hint cert ↔ BindingChecked C B hint csr := by
  obtain ⟨template, kem, htemplate, hkem, hsigning, hkey, hbinding⟩ :=
    issueDeviceCredential_cases h
  constructor
  · intro hbound b hb
    obtain ⟨kem', hkem', hverify⟩ := hbound b (hbinding.trans hb)
    cases hkey.symm.trans hkem'
    exact ⟨template, kem, htemplate, hkem, hsigning ▸ hverify⟩
  intro hchecked b hb
  obtain ⟨template', kem', htemplate', hkem', hverify⟩ := hchecked b (hbinding.symm.trans hb)
  cases htemplate.symm.trans htemplate'
  cases hkem.symm.trans hkem'
  exact ⟨kem, hkey, hsigning ▸ hverify⟩

theorem keyProviderOf_cases {provider : String}
    (htemplate : decode C csr.tbsTemplate = .ok template)
    (h : keyProviderOf B req csr template = .ok provider) :
    BindingChecked C B ((fingerprintOf req).getD []) csr := by
  intro b hb
  unfold keyProviderOf at h
  split at h
  · next hempty =>
    rw [csrBinding_of_empty hempty] at hb
    cases hb
  split at h
  · cases h
  next binding hdecode =>
  split at h
  · cases h
  next kem hkem =>
  split at h
  · cases h
  next hverify =>
  have hsame : binding = b := by
    simpa [csrBinding, hdecode, Except.toOption] using hb
  exact ⟨template, kem, htemplate, hkem, hsame ▸ hverify⟩

theorem enrollTemplate_cases (h : enrollTemplate C req = .ok (csr, template)) :
    req.csr = some csr ∧ decode C csr.tbsTemplate = .ok template := by
  unfold enrollTemplate at h
  split at h
  · cases h
  next hcsr =>
  split at h
  · cases h
  next hdecode =>
  split at h
  · cases h
  · cases h
    exact ⟨hcsr, hdecode⟩

theorem enroll_eq_ok : enroll C B taken req w = .ok (device, cert) ↔
      (req.token.utf8ByteSize ≠ 0 ∧ req.token.utf8ByteSize ≤ 256) ∧
      ∃ csr template, enrollTemplate C req = .ok (csr, template) ∧ w.beginOk = true ∧
      ∃ token, w.consumeToken = .ok token ∧ checkToken req token = .ok () ∧
      ∃ keyProvider, keyProviderOf B req csr template = .ok keyProvider ∧
        (taken w.deviceId = false ∧ w.createOk = true) ∧
        issueDeviceCredential C w.ca token.tenantId w.deviceId csr .device
          (deviceSans token.tenantId w.deviceId) = .ok cert ∧ w.commitOk = true ∧
        device = {
          tenantId := token.tenantId
          name := deviceName req token w.deviceId
          kind := token.deviceKind
          status := if token.requireApproval then "pending" else "active"
          deviceClassId := token.deviceClassId
          fingerprint := fingerprintOf req
          keyProvider := keyProvider } := by
  simp only [enroll, bind_eq_ok, ensure_eq_ok, mapError_eq_ok, Prod.exists, exists_and_left]
  constructor
  · rintro ⟨hlen, -, csr, template, htemplate, hbegin, -, token, htoken, ⟨⟩, hcheck, keyProvider,
      hkey, hrow, -, cert', hissue, hcommit, -, hresult⟩
    cases hresult
    exact ⟨hlen, csr, template, htemplate, hbegin, token, htoken, hcheck, keyProvider, hkey, hrow,
      hissue, hcommit, rfl⟩
  rintro ⟨hlen, csr, template, htemplate, hbegin, token, htoken, hcheck, keyProvider, hkey, hrow,
    hissue, hcommit, rfl⟩
  exact ⟨hlen, (), csr, template, htemplate, hbegin, (), token, htoken, (), hcheck, keyProvider,
    hkey, hrow, (), cert, hissue, hcommit, (), rfl⟩

/-- An enrollment gives a new device a certificate that is bound to the fingerprint of its
row. -/
theorem enroll_bound (h : enroll C B taken req w = .ok (device, cert)) :
    taken w.deviceId = false ∧ Bound B (device.fingerprint.getD []) cert := by
  obtain ⟨-, csr, template, htemplate, -, token, -, -, provider, hprovider, hrow, hissue, -, rfl⟩ :=
    enroll_eq_ok.mp h
  refine ⟨hrow.1, ?_⟩
  rw [bound_iff_bindingChecked hissue]
  exact keyProviderOf_cases (enrollTemplate_cases htemplate).2 hprovider

/-- A renewal makes no check: its certificate is bound if and only if the CSR would pass
one. -/
theorem renew_bound_iff {current : Option (Option IssuedRow)} {device : DeviceId} {w : CaWorld C}
    (h : renew C current tenant device csr w = .ok cert) :
    Bound B hint cert ↔ BindingChecked C B hint csr := by
  obtain ⟨template, -, h⟩ := bind_eq_ok.mp h
  obtain ⟨-, -, h⟩ := bind_eq_ok.mp h
  split at h
  · cases h
  · obtain ⟨-, -, h⟩ := bind_eq_ok.mp h
    exact bound_iff_bindingChecked (mapError_eq_ok.mp h)

end

/-! ### Runs -/

namespace Registry

variable {C : HybridImpl} {B : BindingImpl} {s : Registry}

/-- Every certificate is bound to the fingerprint of its device. -/
def Sound (B : BindingImpl) (s : Registry) : Prop :=
  ∀ row ∈ s.certificates, Bound B (s.fingerprint row.subjectId) row.certificate

def Owned (s : Registry) : Prop :=
  ∀ row ∈ s.certificates, (s.devices row.subjectId).isSome = true

/-- A renewal that gives a certificate has a binding that was worth checking. -/
def RenewalChecked (B : BindingImpl) (s : Registry) : RegistryEvent C → Prop
  | .renew device csr readOk w => (s.renewal device csr readOk w).isSome = true →
      BindingChecked C B (s.fingerprint device) csr
  | _ => True

def issued (s : Registry) (device : DeviceId) (cert : Certificate) : Registry :=
  { s with certificates := s.certificates ++ [⟨device, cert, false⟩] }

variable {device : DeviceId} {cert : Certificate} {id : Uuid}

theorem sound_issued :
    Sound B (s.issued device cert) ↔ Sound B s ∧ Bound B (s.fingerprint device) cert := by
  simp [Sound, issued, fingerprint, or_imp, forall_and]

def enrolled (s : Registry) (id : Uuid) (device : EnrolledDevice) : Registry :=
  { s with devices := Function.update s.devices id (some device) }

theorem ne_of_free (ho : s.Owned) (hfree : (s.devices id).isSome = false)
    {row : IssuedRow} (hrow : row ∈ s.certificates) : row.subjectId ≠ id := by
  rintro rfl
  exact absurd (ho row hrow) (by simp [hfree])

theorem sound_enrolled (ho : s.Owned) (hfree : (s.devices id).isSome = false)
    {device : EnrolledDevice} : Sound B (s.enrolled id device) ↔ Sound B s := by
  refine forall₂_congr fun row hrow => ?_
  have hother := ne_of_free ho hfree hrow
  simp [enrolled, fingerprint, Function.update_of_ne hother]

theorem owned_enrolled (ho : s.Owned) {device : EnrolledDevice} : (s.enrolled id device).Owned := by
  intro row hrow
  by_cases hid : row.subjectId = id
  · simp [enrolled, hid]
  · simpa [enrolled, Function.update_of_ne hid] using ho row hrow

theorem owned_issued (ho : s.Owned)
    (hrow : (s.devices device).isSome = true) : (s.issued device cert).Owned := by
  intro row hmem
  obtain hmem | rfl := List.mem_append.mp hmem |>.imp_right List.mem_singleton.mp
  · exact ho row hmem
  · exact hrow

theorem step_cases (s : Registry) (e : RegistryEvent C) :
    (s.step B e = s ∧ RenewalChecked B s e) ∨
    (∃ id device cert, (s.devices id).isSome = false ∧ Bound B (device.fingerprint.getD []) cert ∧
      s.step B e = (s.enrolled id device).issued id cert ∧ RenewalChecked B s e) ∨
    (∃ device csr readOk w cert, e = .renew device csr readOk w ∧
      s.renewal device csr readOk w = some cert ∧ s.step B e = s.issued device cert) ∨
    ∃ device, e = .revoke device := by
  cases e with
  | enroll req w =>
    simp only [step]
    split
    · exact .inl ⟨rfl, trivial⟩
    next device cert h =>
    obtain ⟨hfree, hbound⟩ := enroll_bound h
    exact .inr (.inl ⟨w.deviceId, device, cert, hfree, hbound, rfl, trivial⟩)
  | renew device csr readOk w =>
    simp only [step]
    split
    · next h => exact .inl ⟨rfl, fun hsome => absurd hsome (by simp [h])⟩
    · next cert h => exact .inr (.inr (.inl ⟨device, csr, readOk, w, cert, rfl, h, rfl⟩))
  | revoke device => exact .inr (.inr (.inr ⟨device, rfl⟩))

theorem sound_revoke : Sound B (s.step B (.revoke device : RegistryEvent C)) ↔ Sound B s := by
  have hrow (row : IssuedRow) :
      Bound B (s.fingerprint (if row.subjectId = device then { row with revoked := true }
        else row).subjectId) (if row.subjectId = device then { row with revoked := true }
        else row).certificate ↔ Bound B (s.fingerprint row.subjectId) row.certificate := by
    split <;> rfl
  simp only [Sound, step, fingerprint, List.forall_mem_map]
  exact forall₂_congr fun row _ => hrow row

theorem owned_revoke (ho : s.Owned) : (s.step B (.revoke device : RegistryEvent C)).Owned := by
  simp only [Owned, step, List.forall_mem_map]
  intro row hrow
  split <;> exact ho row hrow

theorem devices_of_renewal {csr : Csr} {readOk : Bool} {w : CaWorld C}
    (h : s.renewal device csr readOk w = some cert) :
    (s.devices device).isSome = true ∧
      ∀ hint, Bound B hint cert ↔ BindingChecked C B hint csr := by
  unfold renewal at h
  split at h
  · cases h
  · next row hrow =>
    exact ⟨by simp [hrow], fun hint => renew_bound_iff (toOption_eq_some.mp h)⟩

theorem Owned.step (ho : s.Owned) (e : RegistryEvent C) : (s.step B e).Owned := by
  obtain ⟨h, -⟩ | ⟨id, device, cert, -, -, h, -⟩ |
    ⟨device, csr, readOk, w, cert, -, hrenewal, h⟩ | ⟨device, rfl⟩ := step_cases (B := B) s e
  · rwa [h]
  · rw [h]
    exact owned_issued (owned_enrolled ho) (by simp [enrolled])
  · rw [h]
    exact owned_issued ho (devices_of_renewal (B := B) hrenewal).1
  · exact owned_revoke ho

/-- One call keeps the certificates sound if and only if it is not a renewal with a binding
that does not verify. -/
theorem sound_step (ho : s.Owned) (e : RegistryEvent C) :
    Sound B (s.step B e) ↔ Sound B s ∧ RenewalChecked B s e := by
  obtain ⟨h, hchecked⟩ | ⟨id, device, cert, hfree, hbound, h, hchecked⟩ |
    ⟨device, csr, readOk, w, cert, rfl, hrenewal, h⟩ | ⟨device, rfl⟩ := step_cases (B := B) s e
  · rw [h, and_iff_left hchecked]
  · have hnew : Bound B ((s.enrolled id device).fingerprint id) cert := by
      simpa [enrolled, fingerprint] using hbound
    rw [h, sound_issued, sound_enrolled ho hfree, and_iff_left hnew, and_iff_left hchecked]
  · have hchecked : RenewalChecked B s (.renew device csr readOk w) ↔
        BindingChecked C B (s.fingerprint device) csr := by
      simp [RenewalChecked, hrenewal]
    rw [h, sound_issued, hchecked, (devices_of_renewal hrenewal).2]
  · simp [sound_revoke, RenewalChecked]

/-- The bindings are sound after a run if and only if every renewal of the run that gave a
certificate had a CSR without a binding, or with one that verifies. -/
theorem sound_run_iff (ho : s.Owned) (events : List (RegistryEvent C)) :
    Sound B (run (step B) s events) ↔
      Sound B s ∧ Guarded (step B) (RenewalChecked B) s events := by
  induction events generalizing s with
  | nil => simp [Guarded]
  | cons e events ih => rw [run_cons, ih (ho.step e), sound_step ho, and_assoc, Guarded]

end Registry

/-! ### Providers -/

theorem verifyBinding_provider (B : BindingImpl) (b : HardwareBinding) (p : ProviderKind)
    (signing kem hint : Bytes) :
    verifyBinding B { b with provider := p } signing kem hint =
      verifyBinding B b signing kem hint := rfl

theorem exists_other_provider (p : ProviderKind) : ∃ q : ProviderKind, q ≠ p := by
  cases p with
  | software => exact ⟨.tpm2, by decide⟩
  | tpm2 | keychain | cng => exact ⟨.software, by decide⟩

/-- After any run the bindings of all certificates verify if and only if the renewals of the run
had bindings that do; and a binding verifies with one provider only if and only if it does not
verify at all. -/
theorem hardware_binding_iff (C : HybridImpl) (B : BindingImpl) :
    (∀ events : List (RegistryEvent C),
      Registry.Sound B (run (step B) init events) ↔
        Guarded (step B) (Registry.RenewalChecked B) init events) ∧
    ∀ (b : HardwareBinding) (signing kem hint : Bytes),
      (∀ p, p ≠ b.provider → ¬ (verifyBinding B b signing kem hint = .ok () ∧
        verifyBinding B { b with provider := p } signing kem hint = .ok ())) ↔
      verifyBinding B b signing kem hint ≠ .ok () := by
  constructor
  · intro events
    have hinit : Registry.Sound B init := by simp [Registry.Sound, init]
    rw [sound_run_iff (by simp [Registry.Owned, init]), and_iff_right hinit]
  intro b signing kem hint
  constructor
  · intro hone hok
    obtain ⟨p, hp⟩ := exists_other_provider b.provider
    exact hone p hp ⟨hok, (verifyBinding_provider B b p signing kem hint).trans hok⟩
  · intro hno p _ hboth
    exact hno hboth.1

/-! ### A renewal with another KEM key -/

def transparentScheme : Scheme where
  Key := Bytes
  Signature := Bytes
  keyFromDer der := some der
  signatureFromBytes sig := some sig
  verify key msg sig := sig = transparentSignature key .offer msg

def transparentBinding : BindingImpl := ⟨transparentScheme, transparentScheme⟩

def deviceTemplate (kem : UInt8) : TbsCertificate where
  version := 2
  serial := 0
  tenantId := ""
  subjectId := 0
  kind := .device
  signingKey := [11]
  kemKey := some [kem]
  notBefore := 0
  notAfter := 0
  issuerKeyId := 0
  sans := []
  tlsCertSha256 := none
  hardwareBinding := none

def tpmBinding : HardwareBinding where
  provider := .tpm2
  algorithm := "ecdsa-p256-sha256"
  publicKey := [9]
  signature := transparentSignature [9] .offer (bindingMessage [11] [5] [])
  attestation := none

def tpmCsr (kem : UInt8) : Csr where
  tbsTemplate := (deviceTemplate kem).encode
  proof := transparentSignature [11] .csr (deviceTemplate kem).encode
  tlsCsrPem := ""
  hardwareBinding := tpmBinding.encode

def quietCa : CaWorld transparentHybrid where
  issuing := (20 : UInt8)
  serial := some 1
  nowBefore := 1000
  nowAfter := 1000
  lifetimeSecs := 86400
  signTlsCsr _ _ _ _ _ := .ok []
  coins := ()
  storeOk := true

def rebound : List (RegistryEvent transparentHybrid) :=
  [.enroll ⟨"token", some (tpmCsr 5), none, none, "laptop"⟩
      ⟨true, .ok ⟨7, none, "laptop", none, false, false, none⟩, 1, true, quietCa, true⟩,
    .renew 1 (tpmCsr 7) true quietCa]

def unbound (B : BindingImpl) (s : Registry) (row : IssuedRow) : Bool :=
  row.certificate.tbs.hardwareBinding.any fun b =>
    row.certificate.tbs.kemKey.all fun kem =>
      (verifyBinding B b row.certificate.tbs.signingKey kem
        (s.fingerprint row.subjectId)).toOption.isNone

theorem not_sound_of_unbound {B : BindingImpl} {s : Registry}
    (h : s.certificates.any (unbound B s) = true) : ¬ s.Sound B := by
  intro hsound
  obtain ⟨row, hrow, hunbound⟩ := List.any_eq_true.mp h
  obtain ⟨b, hb, hall⟩ := (Option.any_eq_true _ _).mp hunbound
  obtain ⟨kem, hkem, hverify⟩ := hsound row hrow b hb
  simp [hkem, hverify, Except.toOption] at hall

/-- The renewed certificate has a binding that does not verify, and the binding of the first one
verifies with every provider. -/
theorem rebound_not_sound :
    ¬ Registry.Sound transparentBinding
      (run (step transparentBinding) init rebound) ∧
    verifyBinding transparentBinding tpmBinding [11] [5] [] = .ok () ∧
    verifyBinding transparentBinding { tpmBinding with provider := .software } [11] [5] [] =
      .ok () := by
  refine ⟨not_sound_of_unbound ?_, ?_, ?_⟩ <;> decide +kernel

end Avon.Control
