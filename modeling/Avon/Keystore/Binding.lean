import Avon.Crypto.Cert

/-!
# What a hardware key vouches for

The model of `avon-keystore/src/binding.rs`. A hardware key signs the device's signing key, its
KEM key and a hint (the fingerprint), each behind its length. The two signature schemes are
third-party code and a parameter.
-/

set_option autoImplicit false

namespace Avon.Keystore

open Avon.Crypto Avon.Lib.BigEndian

inductive BindingError where
  | unsupportedAlgorithm (name : String)
  | publicKey
  | signature
  deriving DecidableEq, Repr

/-- A signature scheme: a key in DER, a signature in its bytes, and the check. -/
structure Scheme where
  Key : Type
  Signature : Type
  keyFromDer : Bytes → Option Key
  signatureFromBytes : Bytes → Option Signature
  verify : Key → Bytes → Signature → Bool

structure BindingImpl where
  ecdsaP256 : Scheme
  rsaPss : Scheme

def LABEL : Bytes := utf8 "AVON-HW-BINDING-V2"

def put32 (bytes : Bytes) : Bytes := beBytes 4 bytes.length ++ bytes

def bindingMessage (signing kem deviceHint : Bytes) : Bytes :=
  LABEL ++ put32 signing ++ put32 kem ++ put32 deviceHint

/-- Key, signature and check of one scheme, in the order of the source. -/
def Scheme.check (S : Scheme) (publicKey signature msg : Bytes) : Except BindingError Unit :=
  match S.keyFromDer publicKey with
  | none => .error .publicKey
  | some key =>
    match S.signatureFromBytes signature with
    | none => .error .signature
    | some sig => if S.verify key msg sig then .ok () else .error .signature

def verifyBinding (B : BindingImpl) (b : HardwareBinding) (signing kem deviceHint : Bytes) :
    Except BindingError Unit :=
  let msg := bindingMessage signing kem deviceHint
  if b.algorithm = "ecdsa-p256-sha256" ∨ b.algorithm = "ecdsa-p256-sha256-se" then
    B.ecdsaP256.check b.publicKey b.signature msg
  else if b.algorithm = "rsa-pss-sha256" then B.rsaPss.check b.publicKey b.signature msg
  else .error (.unsupportedAlgorithm b.algorithm)

end Avon.Keystore
