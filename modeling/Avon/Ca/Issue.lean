import Avon.Crypto.Cert
import Avon.Lib.Except
import Avon.Proto

/-!
# From a CSR to a certificate

`hybrid.rs`, and the two calls of `service.rs` that issue credentials. What the CA draws, reads from
the clock and gets from the X.509 signer is in `CaWorld`. The TLS certificate is its DER.
-/

set_option autoImplicit false

namespace Avon.Ca

open Avon.Crypto Avon.Proto

inductive PkiError where
  | csrProof
  | csrTemplate (what : String)
  | x509 (what : String)
  | crypto (e : CryptoError)
  | db
  | random
  deriving DecidableEq

/-- A signing request. `hardwareBinding` is empty if there is none. -/
structure Csr where
  tbsTemplate : Bytes
  proof : Bytes
  tlsCsrPem : String
  hardwareBinding : Bytes
  deriving DecidableEq

structure CsrData where
  template : TbsCertificate
  tlsCsrPem : String
  hardwareBinding : Option HardwareBinding
  deriving DecidableEq

def decodeBinding (csr : Csr) : Except PkiError (Option HardwareBinding) :=
  if csr.hardwareBinding = [] then .ok none
  else match HardwareBinding.decode csr.hardwareBinding with
    | .ok b => .ok (some b)
    | .error e => .error (.csrTemplate e.text)

/-- `verify_csr`: proof of possession and template hygiene. -/
def verifyCsr (C : HybridImpl) (csr : Csr) : Except PkiError CsrData := do
  let template ← (TbsCertificate.decode C csr.tbsTemplate).mapError fun e => .csrTemplate e.text
  ensure (template.kind = .device ∨ template.kind = .gateway ∨ template.kind = .service)
    (.csrTemplate "kind must be device, gateway or service")
  ensure (template.serial = 0 ∧ template.issuerKeyId = 0 ∧ template.notBefore = 0 ∧
    template.notAfter = 0) (.csrTemplate "serial, issuer and validity must be zero")
  ensure (template.kemKey ≠ none) (.csrTemplate "kem key required")
  (C.signatureFromBytes csr.proof).mapError fun _ => .csrProof
  (C.verify template.signingKey .csr csr.tbsTemplate csr.proof).mapError fun _ => .csrProof
  let hardwareBinding ← decodeBinding csr
  return ⟨template, csr.tlsCsrPem, hardwareBinding⟩

structure CaWorld (C : HybridImpl) where
  issuing : C.SigningKey
  serial : Option (BitVec 128)
  nowBefore : Int64
  nowAfter : Int64
  lifetimeSecs : Int64
  signTlsCsr : String → BitVec 128 → List String → Int64 → Int64 → Except PkiError Bytes
  coins : C.SignCoins
  storeOk : Bool

/-- A new certificate and the TLS certificate whose hash it has. -/
structure Issued where
  certificate : Certificate
  tlsCertDer : Bytes
  deriving DecidableEq

/-- What `issue` signs: the keys and the binding of the CSR, and the rest from the CA. -/
def issuedTbs (C : HybridImpl) (w : CaWorld C) (csr : CsrData) (kind : SubjectKind)
    (tenant : Option TenantId) (subject : Uuid) (sans : List String) (lifetimeSecs : Int64)
    (serial : BitVec 128) (der : Bytes) : TbsCertificate where
  version := 2
  serial := serial
  tenantId := (tenant.map uuidText).getD ""
  subjectId := subject
  kind := kind
  signingKey := csr.template.signingKey
  kemKey := csr.template.kemKey
  notBefore := w.nowBefore - 300
  notAfter := w.nowAfter + lifetimeSecs
  issuerKeyId := C.keyId (C.verifyingKey w.issuing)
  sans := sans
  tlsCertSha256 := some (C.sha256 der)
  hardwareBinding := csr.hardwareBinding

def issue (C : HybridImpl) (w : CaWorld C) (csr : CsrData) (kind : SubjectKind)
    (tenant : Option TenantId) (subject : Uuid) (sans : List String) (lifetimeSecs : Int64) :
    Except PkiError Issued :=
  match w.serial with
  | none => .error .random
  | some serial => do
    let der ← w.signTlsCsr csr.tlsCsrPem serial sans (w.nowBefore - 300)
      (w.nowAfter + lifetimeSecs)
    let tbs := issuedTbs C w csr kind tenant subject sans lifetimeSecs serial der
    let signature ← (C.sign w.issuing .cert tbs.encode w.coins).mapError PkiError.crypto
    return ⟨⟨tbs, signature⟩, der⟩

/-- `issue_device_credential`. An empty tenant and a zero subject of the template are filled
from the request; anything else must match. -/
def issueDeviceCredential (C : HybridImpl) (w : CaWorld C) (tenant : TenantId) (device : Uuid)
    (csr : Csr) (kind : SubjectKind) (sans : List String) : Except PkiError Certificate := do
  let data ← verifyCsr C csr
  ensure (data.template.kind = kind ∧
    (data.template.tenantId = "" ∨ data.template.tenantId = uuidText tenant) ∧
    (data.template.subjectId = 0 ∨ data.template.subjectId = device))
    (.csrTemplate "csr template does not match request")
  let issued ← issue C w data kind (some tenant) device sans w.lifetimeSecs
  ensure (w.storeOk = true) .db
  return issued.certificate

def serviceSans (serviceName : String) (dnsSans : List String) : List String :=
  ("spiffe://avon/service/" ++ serviceName) :: dnsSans

def SERVICE_LIFETIME_SECS : Int64 := 7 * 86400

def issueServiceCredential (C : HybridImpl) (w : CaWorld C) (serviceId : Uuid) (csr : Csr)
    (serviceName : String) (dnsSans : List String) : Except PkiError Issued := do
  let data ← verifyCsr C csr
  ensure (data.template.kind = .service) (.csrTemplate "csr kind must be service")
  let issued ← issue C w data .service none serviceId (serviceSans serviceName dnsSans)
    SERVICE_LIFETIME_SECS
  ensure (w.storeOk = true) .db
  return issued

end Avon.Ca
