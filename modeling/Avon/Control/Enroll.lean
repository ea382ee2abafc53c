import Avon.Ca.Issue
import Avon.Control.Peer
import Avon.Keystore.Binding
import Avon.Lib.Run

/-!
# Enrollment and renewal

`enroll.rs` and `renew.rs` over the tables `devices` and `certificates`. `Registry.step` is one
whole call. A certificate whose enrollment does not commit is left out: it is returned to no one. A
renewal is for a device with a row.
-/

set_option autoImplicit false

namespace Avon.Control

open Avon.Ca Avon.Crypto Avon.Keystore Avon.Proto

structure Fingerprint where
  version : UInt32
  hash : Bytes

structure AttestationEvidence where
  format : String
  evidence : Bytes

structure EnrollRequest where
  token : String
  csr : Option Csr
  fingerprint : Option Fingerprint
  attestation : Option AttestationEvidence
  requestedName : String

/-- The columns of `enrollment_tokens` that an enrollment reads. -/
structure EnrollmentToken where
  tenantId : TenantId
  deviceName : Option String
  deviceKind : String
  deviceClassId : Option Uuid
  requireAttestation : Bool
  requireApproval : Bool
  expectedFingerprint : Option Bytes

inductive EnrollError where
  | invalidToken
  | expired
  | exhausted
  | db
  deriving DecidableEq, Repr

structure EnrolledDevice where
  tenantId : TenantId
  name : String
  kind : String
  status : String
  deviceClassId : Option Uuid
  fingerprint : Option Bytes
  keyProvider : String

structure EnrollWorld (C : HybridImpl) where
  beginOk : Bool
  consumeToken : Except EnrollError EnrollmentToken
  deviceId : Uuid
  createOk : Bool
  ca : CaWorld C
  commitOk : Bool

def providerText : ProviderKind → String
  | .software => "software"
  | .tpm2 => "tpm2"
  | .keychain => "keychain"
  | .cng => "cng"

def rejected : Status := ⟨.permissionDenied, "enrollment rejected"⟩

/-- The fingerprint of a request, if it is of version 2 and 32 bytes long. -/
def fingerprintOf (req : EnrollRequest) : Option Bytes :=
  (req.fingerprint.filter fun f => f.version = 2 ∧ f.hash.length = 32).map (·.hash)

/-- The CSR of a request, with its template: a device template with no tenant and no subject. -/
def enrollTemplate (C : HybridImpl) (req : EnrollRequest) : Except Status (Csr × TbsCertificate) :=
  match req.csr with
  | none => .error ⟨.invalidArgument, "csr required"⟩
  | some csr =>
    match TbsCertificate.decode C csr.tbsTemplate with
    | .error _ => .error ⟨.invalidArgument, "csr template"⟩
    | .ok template =>
      if template.kind ≠ .device ∨ template.tenantId ≠ "" ∨ template.subjectId ≠ 0 then
        .error ⟨.invalidArgument,
          "csr template must be a device template with empty tenant and zero subject"⟩
      else .ok (csr, template)

def checkToken (req : EnrollRequest) (token : EnrollmentToken) : Except Status Unit :=
  if token.expectedFingerprint.any fun expected => fingerprintOf req ≠ some expected then
    .error rejected
  else if token.requireAttestation &&
      (req.attestation.map fun a => a.format = "none" || a.evidence = []).getD true then
    .error rejected
  else .ok ()

/-- The key provider to record. A binding has to verify against the keys of the template and
the fingerprint. -/
def keyProviderOf (B : BindingImpl) (req : EnrollRequest) (csr : Csr) (template : TbsCertificate) :
    Except Status String :=
  if csr.hardwareBinding = [] then .ok "software"
  else match HardwareBinding.decode csr.hardwareBinding with
    | .error _ => .error ⟨.invalidArgument, "binding decode"⟩
    | .ok binding =>
      match template.kemKey with
      | none => .error ⟨.invalidArgument, "kem required for binding"⟩
      | some kem =>
        match verifyBinding B binding template.signingKey kem
            ((fingerprintOf req).getD []) with
        | .error _ => .error ⟨.invalidArgument, "binding verification failed"⟩
        | .ok () => .ok (providerText binding.provider)

def deviceName (req : EnrollRequest) (token : EnrollmentToken) (id : Uuid) : String :=
  match token.deviceName.filter (· ≠ "") with
  | some name => name
  | none =>
    if req.requestedName = "" then uuidText id
    else String.ofList (req.requestedName.toList.take 255)

def deviceSans (tenant : TenantId) (device : Uuid) : List String :=
  ["spiffe://avon/" ++ uuidText tenant ++ "/device/" ++ uuidText device]

/-- `enroll`. `taken` says which ids have a row already. -/
def enroll (C : HybridImpl) (B : BindingImpl) (taken : Uuid → Bool) (req : EnrollRequest)
    (w : EnrollWorld C) : Except Status (EnrolledDevice × Certificate) := do
  ensure (req.token.utf8ByteSize ≠ 0 ∧ req.token.utf8ByteSize ≤ 256) rejected
  let (csr, template) ← enrollTemplate C req
  ensure (w.beginOk = true) ⟨.unavailable, "database"⟩
  let token ← w.consumeToken.mapError fun e =>
    if e = .db then ⟨.unavailable, "database"⟩ else rejected
  checkToken req token
  let keyProvider ← keyProviderOf B req csr template
  ensure (taken w.deviceId = false ∧ w.createOk = true) ⟨.unavailable, "database"⟩
  let certificate ← (issueDeviceCredential C w.ca token.tenantId w.deviceId csr .device
    (deviceSans token.tenantId w.deviceId)).mapError
      fun _ => ⟨.unavailable, "certificate authority"⟩
  ensure (w.commitOk = true) ⟨.unavailable, "database"⟩
  return ({ tenantId := token.tenantId
            name := deviceName req token w.deviceId
            kind := token.deviceKind
            status := if token.requireApproval then "pending" else "active"
            deviceClassId := token.deviceClassId
            fingerprint := fingerprintOf req
            keyProvider := keyProvider }, certificate)

structure IssuedRow where
  subjectId : Uuid
  certificate : Certificate
  revoked : Bool

/-- The same signing key must be used across renewals. A stored certificate that does not
decode says nothing. -/
def sameSigningKey (C : HybridImpl) (current : Option IssuedRow) (template : TbsCertificate) :
    Bool :=
  match current with
  | none => true
  | some row =>
    match Certificate.decode C row.certificate.encode with
    | .error _ => true
    | .ok c => c.tbs.signingKey = template.signingKey

/-- `renew`. `current` is the answer to the query for the device's certificate, `none` if the
query fails. -/
def renew (C : HybridImpl) (current : Option (Option IssuedRow)) (tenant : TenantId)
    (device : DeviceId) (csr : Csr) (w : CaWorld C) : Except Status Certificate := do
  let template ← (TbsCertificate.decode C csr.tbsTemplate).mapError fun _ =>
    (⟨.invalidArgument, "csr template"⟩ : Status)
  ensure (template.kind = .device) ⟨.invalidArgument, "csr kind"⟩
  match current with
  | none => .error ⟨.unavailable, "database"⟩
  | some row => do
    ensure (sameSigningKey C row template = true)
      ⟨.permissionDenied, "signing key must match the current credential"⟩
    (issueDeviceCredential C w tenant device csr .device (deviceSans tenant device)).mapError
      fun _ => ⟨.unavailable, "certificate authority"⟩

structure Registry where
  devices : DeviceId → Option EnrolledDevice
  certificates : List IssuedRow

inductive RegistryEvent (C : HybridImpl) where
  | enroll (req : EnrollRequest) (w : EnrollWorld C)
  /-- A renewal by a device. `readOk` says whether the query for its certificate succeeds. -/
  | renew (device : DeviceId) (csr : Csr) (readOk : Bool) (w : CaWorld C)
  | revoke (device : DeviceId)

namespace Registry

def init : Registry := ⟨fun _ => none, []⟩

/-- The certificate of a device that is not revoked and expires last. -/
def currentCertificate (s : Registry) (device : DeviceId) : Option IssuedRow :=
  (s.certificates.filter fun row => row.subjectId = device ∧ row.revoked = false).foldl
    (fun best row => match best with
      | none => some row
      | some b => if b.certificate.tbs.notAfter < row.certificate.tbs.notAfter then some row
          else some b) none

/-- The certificate that a renewal gives to a device with a row. -/
def renewal {C : HybridImpl} (s : Registry) (device : DeviceId) (csr : Csr) (readOk : Bool)
    (w : CaWorld C) : Option Certificate :=
  match s.devices device with
  | none => none
  | some row =>
    (Control.renew C (if readOk then some (s.currentCertificate device) else none) row.tenantId
      device csr w).toOption

def step {C : HybridImpl} (B : BindingImpl) (s : Registry) : RegistryEvent C → Registry
  | .enroll req w =>
    match Control.enroll C B (fun id => (s.devices id).isSome) req w with
    | .error _ => s
    | .ok (device, certificate) =>
      ⟨Function.update s.devices w.deviceId (some device),
        s.certificates ++ [⟨w.deviceId, certificate, false⟩]⟩
  | .renew device csr readOk w =>
    match s.renewal device csr readOk w with
    | none => s
    | some certificate =>
      { s with certificates := s.certificates ++ [⟨device, certificate, false⟩] }
  | .revoke device =>
    { s with certificates := s.certificates.map fun row =>
        if row.subjectId = device then { row with revoked := true } else row }

/-- The fingerprint on record, as `verify_binding` takes it. -/
def fingerprint (s : Registry) (device : DeviceId) : Bytes :=
  ((s.devices device).bind (·.fingerprint)).getD []

end Registry

end Avon.Control
