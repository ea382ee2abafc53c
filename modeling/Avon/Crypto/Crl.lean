import Avon.Crypto.Cert

/-!
# Signed revocation lists

The model of `avon-crypto/src/cert/crl.rs`.
-/

set_option autoImplicit false

namespace Avon.Crypto

open Avon.Lib.BigEndian

structure Crl where
  version : UInt64
  issuedAt : Int64
  serials : List (BitVec 128)
  deriving DecidableEq

namespace Crl

def MAX_SERIALS : ℕ := 1000000

def encodeTbs (crl : Crl) : Bytes :=
  beBytes 8 crl.version.toNat ++ beBytes 8 crl.issuedAt.toBitVec.toNat ++
    beBytes 4 crl.serials.length ++ crl.serials.flatMap fun s => beBytes 16 s.toNat

def chunks (size : ℕ) : ℕ → Bytes → List Bytes
  | 0, _ => []
  | n + 1, bytes => bytes.take size :: chunks size n (bytes.drop size)

def decodeTbs (bytes : Bytes) : Except CertError Crl :=
  if bytes.length < 20 then .error (.encoding "crl truncated")
  else
    let version := UInt64.ofNat (ofBe (bytes.take 8))
    let issuedAt := Int64.ofBitVec (BitVec.ofNat 64 (ofBe ((bytes.drop 8).take 8)))
    let count := ofBe ((bytes.drop 16).take 4)
    if count > MAX_SERIALS ∨ bytes.length ≠ 20 + count * 16 then .error (.encoding "crl length")
    else
      let body := bytes.drop 20
      .ok ⟨version, issuedAt,
        (chunks 16 (body.length / 16) body).map fun c => BitVec.ofNat 128 (ofBe c)⟩

def verify (C : HybridImpl) (tbs signature issuer : Bytes) : Except CertError Crl :=
  match C.signatureFromBytes signature with
  | .error _ => .error .signature
  | .ok () =>
    match C.verify issuer .crl tbs signature with
    | .error _ => .error .signature
    | .ok () => decodeTbs tbs

def contains (crl : Crl) (serial : BitVec 128) : Bool := crl.serials.any fun s => s = serial

end Crl

end Avon.Crypto
