import Avon.Crypto.Primitives

/-!
# Hybrid signatures, byte forms and SHA-256

The hybrid signature, the byte forms of keys, ciphertexts and signatures, and SHA-256, as a
parameter. A value is represented by its bytes: `from_bytes` checks that some bytes are one. The
lengths are part of the parameter.
-/

set_option autoImplicit false

namespace Avon.Crypto

def CryptoError.text : CryptoError → String
  | .invalidKeyLength expected actual =>
    "invalid key length: expected " ++ toString expected ++ ", got " ++ toString actual
  | .encryptionFailed what => "encryption failed: " ++ what
  | .decryptionFailed what => "decryption failed: " ++ what
  | .authenticationFailed => "authentication failed"
  | .keyDerivationFailed what => "key derivation failed: " ++ what
  | .invalidSignature => "invalid signature"
  | .randomGenerationFailed what => "random generation failed: " ++ what
  | .replay .replayed => "replay check failed: Replayed"
  | .replay .tooOld => "replay check failed: TooOld"
  | .counterExhausted => "send counter exhausted"

/-- What a signature is for. Its label is signed before the message. -/
inductive Domain where
  | cert
  | csr
  | auth
  | session
  | crl
  | offer
  deriving DecidableEq, Repr

/-- The hybrid KEM and the hybrid signature with their byte forms, and SHA-256. -/
structure HybridImpl extends HybridKem where
  SigningKey : Type
  SignCoins : Type
  publicKeyBytes : ℕ
  verifyingKeyBytes : ℕ
  signatureBytes : ℕ
  publicKeyFromBytes : Bytes → Except CryptoError Unit
  ciphertextFromBytes : Bytes → Except CryptoError Unit
  verifyingKeyFromBytes : Bytes → Except CryptoError Unit
  signatureFromBytes : Bytes → Except CryptoError Unit
  verifyingKey : SigningKey → Bytes
  sign : SigningKey → Domain → Bytes → SignCoins → Except CryptoError Bytes
  verify : Bytes → Domain → Bytes → Bytes → Except CryptoError Unit
  sha256 : Bytes → Key

/-- The SHA-256 of a verifying key, the `issuer_key_id` of what it signs. -/
def HybridImpl.keyId (C : HybridImpl) (verifyingKey : Bytes) : Key := C.sha256 verifyingKey

theorem Key.bytes_inj {k k' : Key} (h : k.bytes = k'.bytes) : k = k' :=
  Lib.BigEndian.bitVec_beBytes_inj (w := 32) h

/-! ### Primitives without secrecy -/

def transparentHash (bytes : Bytes) : Key :=
  BitVec.ofNat 256 (bytes.foldl (fun acc b => 257 * acc + b.toNat + 1) 0)

def transparentSignature (key : Bytes) (domain : Domain) (msg : Bytes) : Bytes :=
  key ++ UInt8.ofNat domain.ctorIdx :: (transparentHash msg).bytes

def checkLength (n : ℕ) (bytes : Bytes) : Except CryptoError Unit :=
  if bytes.length = n then .ok () else .error (.invalidKeyLength n bytes.length)

/-- Primitives that hide nothing. A signature is accepted only if it is the one that the key
makes, so what is documented can be met and runs can be evaluated. -/
def transparentHybrid : HybridImpl where
  toHybridKem := transparentKem
  SigningKey := UInt8
  SignCoins := Unit
  publicKeyBytes := 1
  verifyingKeyBytes := 1
  signatureBytes := 34
  publicKeyFromBytes := checkLength 1
  ciphertextFromBytes := checkLength 2
  verifyingKeyFromBytes := checkLength 1
  signatureFromBytes := checkLength 34
  verifyingKey key := [key]
  sign key domain msg _ := .ok (transparentSignature [key] domain msg)
  verify key domain msg sig :=
    if sig = transparentSignature key domain msg then .ok () else .error .invalidSignature
  sha256 := transparentHash

end Avon.Crypto
