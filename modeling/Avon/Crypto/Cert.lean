import Avon.Common
import Avon.Crypto.Hybrid

/-!
# Certificates and their verification

The certificate with its two encodings, the reader that decodes it, and `ChainVerifier`. The reader
of the source is a buffer with a position; here it is the rest of the buffer.
-/

set_option autoImplicit false

namespace Avon.Crypto

open Avon.Lib.BigEndian

inductive SubjectKind where
  | rootCa
  | issuingCa
  | device
  | gateway
  | service
  deriving DecidableEq, Repr

inductive CertError where
  | encoding (what : String)
  | signature
  | expired
  | notYetValid
  | unknownIssuer
  | wrongKind (expected : String) (found : SubjectKind)
  | chain (what : String)
  deriving DecidableEq, Repr

namespace SubjectKind

def toU8 : SubjectKind → UInt8
  | .rootCa => 1
  | .issuingCa => 2
  | .device => 3
  | .gateway => 4
  | .service => 5

def fromU8 (v : UInt8) : Except CertError SubjectKind :=
  if v = 1 then .ok .rootCa
  else if v = 2 then .ok .issuingCa
  else if v = 3 then .ok .device
  else if v = 4 then .ok .gateway
  else if v = 5 then .ok .service
  else .error (.encoding ("unknown subject kind " ++ toString v.toNat))

def text : SubjectKind → String
  | .rootCa => "RootCa"
  | .issuingCa => "IssuingCa"
  | .device => "Device"
  | .gateway => "Gateway"
  | .service => "Service"

end SubjectKind

def CertError.text : CertError → String
  | .encoding what => "certificate encoding error: " ++ what
  | .signature => "certificate signature invalid"
  | .expired => "certificate expired"
  | .notYetValid => "certificate not yet valid"
  | .unknownIssuer => "certificate issuer unknown"
  | .wrongKind expected found =>
    "wrong certificate kind: expected " ++ expected ++ ", found " ++ found.text
  | .chain what => "chain error: " ++ what

/-! ### Hardware bindings -/

inductive ProviderKind where
  | software
  | tpm2
  | keychain
  | cng
  deriving DecidableEq, Repr

namespace ProviderKind

def toU8 : ProviderKind → UInt8
  | .software => 1
  | .tpm2 => 2
  | .keychain => 3
  | .cng => 4

def fromU8 (v : UInt8) : Except CertError ProviderKind :=
  if v = 1 then .ok .software
  else if v = 2 then .ok .tpm2
  else if v = 3 then .ok .keychain
  else if v = 4 then .ok .cng
  else .error (.encoding ("unknown provider " ++ toString v.toNat))

end ProviderKind

def utf8 (s : String) : Bytes := s.toUTF8.data.toList

def put16 (bytes : Bytes) : Bytes := beBytes 2 bytes.length ++ bytes

def MAX_BINDING_BYTES : ℕ := 12 * 1024

structure HardwareBinding where
  provider : ProviderKind
  algorithm : String
  publicKey : Bytes
  signature : Bytes
  attestation : Option Bytes
  deriving DecidableEq

namespace HardwareBinding

def encode (b : HardwareBinding) : Bytes :=
  b.provider.toU8 :: (put16 (utf8 b.algorithm) ++ put16 b.publicKey ++ put16 b.signature ++
    put16 (b.attestation.getD []))

def take16 (buf : Bytes) : Except CertError (Bytes × Bytes) :=
  if buf.length < 2 then .error (.encoding "truncated binding")
  else
    let len := ofBe (buf.take 2)
    if buf.length < 2 + len then .error (.encoding "truncated binding")
    else .ok ((buf.drop 2).take len, (buf.drop 2).drop len)

def decode (bytes : Bytes) : Except CertError HardwareBinding :=
  if bytes.length > MAX_BINDING_BYTES then .error (.encoding "binding too large")
  else match bytes with
    | [] => .error (.encoding "empty binding")
    | kind :: rest => do
      let provider ← ProviderKind.fromU8 kind
      let (algorithm, rest) ← take16 rest
      match String.fromUTF8? algorithm.toByteArray with
      | none => .error (.encoding "invalid utf-8 algorithm")
      | some algorithm => do
        let (publicKey, rest) ← take16 rest
        let (signature, rest) ← take16 rest
        let (attestation, rest) ← take16 rest
        if rest ≠ [] then .error (.encoding "trailing bytes in binding")
        else .ok ⟨provider, algorithm, publicKey, signature,
          if attestation = [] then none else some attestation⟩

end HardwareBinding

/-! ### Certificates -/

structure TbsCertificate where
  version : UInt8
  serial : BitVec 128
  tenantId : String
  subjectId : Uuid
  kind : SubjectKind
  signingKey : Bytes
  kemKey : Option Bytes
  notBefore : Int64
  notAfter : Int64
  issuerKeyId : Key
  sans : List String
  tlsCertSha256 : Option Key
  hardwareBinding : Option HardwareBinding
  deriving DecidableEq

structure Certificate where
  tbs : TbsCertificate
  signature : Bytes
  deriving DecidableEq

def MAX_TBS_LEN : ℕ := 16 * 1024
def MAX_SANS : ℕ := 32
def MAX_STRING : ℕ := 512

abbrev Reader := StateT Bytes (Except CertError)

namespace Reader

def take (n : ℕ) : Reader Bytes := fun buf =>
  if buf.length < n then .error (.encoding "truncated") else .ok (buf.take n, buf.drop n)

def number (w : ℕ) : Reader ℕ := do return ofBe (← take w)

def u8 : Reader UInt8 := do return UInt8.ofNat (← number 1)

def i64 : Reader Int64 := do return Int64.ofBitVec (BitVec.ofNat 64 (← number 8))

def array (n : ℕ) : Reader (BitVec (8 * n)) := do return BitVec.ofNat (8 * n) (← number n)

def bytes16 (max : ℕ) : Reader Bytes := do
  let len ← number 2
  if len > max then throw (.encoding ("field too long: " ++ toString len)) else take len

def string16 : Reader String := do
  let b ← bytes16 MAX_STRING
  match String.fromUTF8? b.toByteArray with
  | none => throw (.encoding "invalid utf-8")
  | some s => return s

def done : Reader Unit := do
  if (← get) = [] then return () else throw (.encoding "trailing bytes")

def times {α : Type} (r : Reader α) : ℕ → Reader (List α)
  | 0 => return []
  | n + 1 => do
    let a ← r
    return a :: (← times r n)

def key (check : Bytes → Except CryptoError Unit) (b : Bytes) : Reader Bytes :=
  match check b with
  | .ok () => return b
  | .error e => throw (.encoding e.text)

end Reader

namespace TbsCertificate

def encode (t : TbsCertificate) : Bytes :=
  t.version :: (beBytes 16 t.serial.toNat ++ put16 (utf8 t.tenantId) ++
    beBytes 16 t.subjectId.toNat ++ t.kind.toU8 :: (t.signingKey ++ put16 (t.kemKey.getD []) ++
    beBytes 8 t.notBefore.toBitVec.toNat ++ beBytes 8 t.notAfter.toBitVec.toNat ++
    t.issuerKeyId.bytes ++ beBytes 2 t.sans.length ++
    (t.sans.flatMap fun san => put16 (utf8 san)) ++
    put16 ((t.tlsCertSha256.map Key.bytes).getD []) ++
    put16 ((t.hardwareBinding.map HardwareBinding.encode).getD [])))

def read (C : HybridImpl) : Reader TbsCertificate := do
  let version ← Reader.u8
  if version ≠ 2 then throw (.encoding ("unsupported version " ++ toString version.toNat))
  let serial ← Reader.array 16
  let tenantId ← Reader.string16
  let subjectId ← Reader.array 16
  let kind ← SubjectKind.fromU8 (← Reader.u8)
  let signingKey ← Reader.key C.verifyingKeyFromBytes (← Reader.take C.verifyingKeyBytes)
  let kemBytes ← Reader.bytes16 C.publicKeyBytes
  let kemKey ←
    if kemBytes.length = 0 then pure none
    else if kemBytes.length = C.publicKeyBytes then
      some <$> Reader.key C.publicKeyFromBytes kemBytes
    else throw (.encoding ("bad kem key length " ++ toString kemBytes.length))
  let notBefore ← Reader.i64
  let notAfter ← Reader.i64
  let issuerKeyId ← Reader.array 32
  let nSans ← Reader.number 2
  if nSans > MAX_SANS then throw (.encoding "too many sans")
  let sans ← Reader.string16.times nSans
  let tls ← Reader.bytes16 32
  let tlsCertSha256 ←
    if tls.length = 0 then pure none
    else if tls.length = 32 then pure (some (BitVec.ofNat 256 (ofBe tls)))
    else throw (.encoding ("bad tls hash length " ++ toString tls.length))
  let hwBytes ← Reader.bytes16 MAX_BINDING_BYTES
  let hardwareBinding ←
    if hwBytes = [] then pure none else some <$> (HardwareBinding.decode hwBytes : Reader _)
  Reader.done
  return { version, serial, tenantId, subjectId, kind, signingKey, kemKey, notBefore, notAfter,
           issuerKeyId, sans, tlsCertSha256, hardwareBinding }

def decode (C : HybridImpl) (bytes : Bytes) : Except CertError TbsCertificate :=
  if bytes.length > MAX_TBS_LEN then .error (.encoding "tbs too large")
  else Prod.fst <$> (read C).run bytes

end TbsCertificate

namespace Certificate

def encode (c : Certificate) : Bytes :=
  beBytes 4 c.tbs.encode.length ++ c.tbs.encode ++ c.signature

def decode (C : HybridImpl) (bytes : Bytes) : Except CertError Certificate :=
  if bytes.length < 4 then .error (.encoding "truncated")
  else
    let len := ofBe (bytes.take 4)
    if len > MAX_TBS_LEN ∨ bytes.length ≠ 4 + len + C.signatureBytes then
      .error (.encoding "bad length")
    else do
      let tbs ← TbsCertificate.decode C ((bytes.drop 4).take len)
      let signature := bytes.drop (4 + len)
      (C.signatureFromBytes signature).mapError fun e => .encoding e.text
      return ⟨tbs, signature⟩

def id (C : HybridImpl) (c : Certificate) : Key := C.sha256 c.encode

def verifySignature (C : HybridImpl) (c : Certificate) (issuer : Bytes) : Except CertError Unit :=
  (C.verify issuer .cert c.tbs.encode c.signature).mapError fun _ => .signature

end Certificate

/-! ### Verification of a chain -/

structure VerifiedCertificate where
  cert : Certificate
  chain : List Key

def checkRoot (C : HybridImpl) (root : Certificate) : Except CertError Unit :=
  if root.tbs.kind ≠ .rootCa then .error (.wrongKind "RootCa" root.tbs.kind)
  else if root.tbs.issuerKeyId ≠ C.keyId root.tbs.signingKey then
    .error (.chain "root is not self-issued")
  else root.verifySignature C root.tbs.signingKey

structure ChainVerifier (C : HybridImpl) where
  roots : List Certificate
  checked : roots.forM (checkRoot C) = .ok ()

namespace ChainVerifier

def new (C : HybridImpl) (roots : List Certificate) : Except CertError (ChainVerifier C) :=
  match h : roots.forM (checkRoot C) with
  | .ok () => .ok ⟨roots, h⟩
  | .error e => .error e

def checkValidity (cert : Certificate) (now : Int64) : Except CertError Unit :=
  if now < cert.tbs.notBefore then .error .notYetValid
  else if now > cert.tbs.notAfter then .error .expired
  else .ok ()

def verify {C : HybridImpl} (v : ChainVerifier C) (leaf : Certificate)
    (intermediates : List Certificate) (now : Int64) : Except CertError VerifiedCertificate := do
  if ¬ (leaf.tbs.kind = .device ∨ leaf.tbs.kind = .gateway ∨ leaf.tbs.kind = .service) then
    throw (.wrongKind "Device|Gateway|Service" leaf.tbs.kind)
  checkValidity leaf now
  match intermediates.find? fun c => C.keyId c.tbs.signingKey = leaf.tbs.issuerKeyId with
  | none => .error .unknownIssuer
  | some issuing => do
    if issuing.tbs.kind ≠ .issuingCa then throw (.wrongKind "IssuingCa" issuing.tbs.kind)
    checkValidity issuing now
    leaf.verifySignature C issuing.tbs.signingKey
    match v.roots.find? fun r => C.keyId r.tbs.signingKey = issuing.tbs.issuerKeyId with
    | none => .error .unknownIssuer
    | some root => do
      checkValidity root now
      issuing.verifySignature C root.tbs.signingKey
      return ⟨leaf, [root.id C, issuing.id C, leaf.id C]⟩

end ChainVerifier

end Avon.Crypto
