import Avon.Crypto.Cert

/-!
# What a hybrid signature signs

Ed25519 and ML-DSA sign the same bytes: the label of the domain, the length of the message and the
message. The two schemes are parameters.
-/

set_option autoImplicit false

namespace Avon.Crypto

open Avon.Lib.BigEndian

def Domain.label : Domain → Bytes
  | .cert => utf8 "AVON-CERT-V2"
  | .csr => utf8 "AVON-CSR-V2"
  | .auth => utf8 "AVON-AUTH-V2"
  | .session => utf8 "AVON-SESSION-V2"
  | .crl => utf8 "AVON-CRL-V2"
  | .offer => utf8 "AVON-OFFER-V2"

/-- `framed_message`. The length is written modulo `2 ^ 32`. -/
def framedMessage (domain : Domain) (msg : Bytes) : Bytes :=
  domain.label ++ beBytes 4 msg.length ++ msg

structure ComponentScheme where
  SigningKey : Type
  VerifyingKey : Type
  Signature : Type
  Coins : Type
  verifyingKey : SigningKey → VerifyingKey
  sign : SigningKey → Bytes → Coins → Except CryptoError Signature
  verify : VerifyingKey → Bytes → Signature → Except CryptoError Unit

variable (ed25519 mldsa : ComponentScheme)

def hybridSign (key : ed25519.SigningKey × mldsa.SigningKey) (domain : Domain) (msg : Bytes)
    (coins : ed25519.Coins × mldsa.Coins) :
    Except CryptoError (ed25519.Signature × mldsa.Signature) := do
  let framed := framedMessage domain msg
  let first ← ed25519.sign key.1 framed coins.1
  let second ← mldsa.sign key.2 framed coins.2
  return (first, second)

def hybridVerify (key : ed25519.VerifyingKey × mldsa.VerifyingKey) (domain : Domain) (msg : Bytes)
    (sig : ed25519.Signature × mldsa.Signature) : Except CryptoError Unit := do
  let framed := framedMessage domain msg
  ed25519.verify key.1 framed sig.1
  mldsa.verify key.2 framed sig.2

end Avon.Crypto
