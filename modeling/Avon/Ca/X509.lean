import Avon.Ca.Issue

/-!
# The names in a TLS certificate

The model of `avon-ca/src/pki/x509.rs` up to the names. `rcgen` and `x509-parser` are a
parameter: the first makes a certificate with a list of names, the second reads the list back.
-/

set_option autoImplicit false

namespace Avon.Ca

open Avon.Crypto

inductive SanType where
  | uri (name : String)
  | dnsName (name : String)
  deriving DecidableEq

structure X509Impl where
  Request : Type
  fromPem : String → Except String Request
  ia5 : String → Bool
  /-- The certificate in DER, for a serial number, names and a validity period. -/
  signedBy : Request → BitVec 128 → List SanType → Int64 → Int64 → Except String Bytes
  /-- The names in a certificate, `none` if it does not have the extension. -/
  generalNames : Bytes → Except String (Option (List SanType))

/-- What is assumed: the names that a certificate was made with are read back in order. -/
def X509Impl.ReadsBack (X : X509Impl) : Prop :=
  ∀ req serial names notBefore notAfter der,
    X.signedBy req serial names notBefore notAfter = .ok der → names ≠ [] →
      X.generalNames der = .ok (some names)

/-- A name that starts with the scheme is a URI, any other one is of the DNS. -/
def sanType (X : X509Impl) (san : String) : Except PkiError SanType :=
  if "spiffe://".toList.isPrefixOf san.toList then
    if X.ia5 san then .ok (.uri san) else .error (.x509 "bad uri san")
  else if X.ia5 san then .ok (.dnsName san) else .error (.x509 "bad dns san")

def signTlsCsr (X : X509Impl) (csrPem : String) (serial : BitVec 128) (sans : List String)
    (notBefore notAfter : Int64) : Except PkiError Bytes := do
  let req ← (X.fromPem csrPem).mapError .x509
  let names ← sans.mapM (sanType X)
  (X.signedBy req serial names notBefore notAfter).mapError .x509

end Avon.Ca
