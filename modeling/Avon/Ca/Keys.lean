import Avon.Crypto.Cert

/-!
# The keys of the CA and their certificates

The model of `avon-ca/src/keys/mod.rs`: a root that signs itself and an issuing CA that the root
signs. The rows of `ca_keys` hold the encodings of the two certificates and the sealed secret keys;
here they are the certificates and the keys. The TLS CA is in `CaWorld.signTlsCsr`.
-/

set_option autoImplicit false

namespace Avon.Ca

open Avon.Crypto

def ROOT_LIFETIME_SECS : Int64 := 10 * 365 * 86400
def ISSUING_LIFETIME_SECS : Int64 := 2 * 365 * 86400

inductive KeyError where
  | random
  deriving DecidableEq

structure CaKeys (C : HybridImpl) where
  issuing : C.SigningKey
  rootCert : Certificate
  issuingCert : Certificate

/-- What is drawn and read for one CA certificate. The clock is read twice. -/
structure KeyWorld (C : HybridImpl) where
  key : Option C.SigningKey
  serial : Option (BitVec 128)
  nowBefore : Int64
  nowAfter : Int64
  coins : C.SignCoins

def caTbs (C : HybridImpl) (w : KeyWorld C) (kind : SubjectKind) (kp issuer : C.SigningKey)
    (lifetime : Int64) : Except KeyError TbsCertificate :=
  match w.serial with
  | none => .error .random
  | some serial => .ok {
      version := 2
      serial := serial
      tenantId := ""
      subjectId := 0
      kind := kind
      signingKey := C.verifyingKey kp
      kemKey := none
      notBefore := w.nowBefore - 300
      notAfter := w.nowAfter + lifetime
      issuerKeyId := C.keyId (C.verifyingKey issuer)
      sans := []
      tlsCertSha256 := none
      hardwareBinding := none }

/-- A key pair with its certificate. Without an issuer it is its own. -/
def signedKey (C : HybridImpl) (w : KeyWorld C) (kind : SubjectKind) (issuer : Option C.SigningKey)
    (lifetime : Int64) : Except KeyError (C.SigningKey × Certificate) :=
  match w.key with
  | none => .error .random
  | some kp => do
    let tbs ← caTbs C w kind kp (issuer.getD kp) lifetime
    let signature ← (C.sign (issuer.getD kp) .cert tbs.encode w.coins).mapError fun _ => .random
    return (kp, ⟨tbs, signature⟩)

def initKeys (C : HybridImpl) (root issuing : KeyWorld C) : Except KeyError (CaKeys C) := do
  let (rootKp, rootCert) ← signedKey C root .rootCa none ROOT_LIFETIME_SECS
  let (issuingKp, issuingCert) ← signedKey C issuing .issuingCa (some rootKp) ISSUING_LIFETIME_SECS
  return ⟨issuingKp, rootCert, issuingCert⟩

end Avon.Ca
