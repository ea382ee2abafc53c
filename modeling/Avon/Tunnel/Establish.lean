import Avon.Crypto.Cert
import Avon.Proto
import Avon.Tunnel.Wire

/-!
# Session establishment

`Initiator`, `Responder`, `Transcript` and `SessionKeys::derive`. Both ends have two entry points:
one that holds the private key, and one that is given the private operation. They are separate code
in the source and separate definitions here.
-/

set_option autoImplicit false

namespace Avon.Crypto

open Avon.Lib.BigEndian Avon.Proto

def Suite.id : Suite → UInt8
  | .aes256Gcm => 1
  | .chaCha20Poly1305 => 2

def Suite.fromId (id : UInt8) : Option Suite :=
  if id = 1 then some .aes256Gcm else if id = 2 then some .chaCha20Poly1305 else none

/-- Everything both parties saw during session establishment, in a fixed order. -/
structure Transcript where
  sessionId : SessionId
  initiatorCertId : Key
  responderCertId : Key
  ephKemPk : Bytes
  ctE : Bytes
  ctS : Bytes
  suite : Suite
  deriving DecidableEq

namespace Transcript

def put32 (bytes : Bytes) : Bytes := beBytes 4 bytes.length ++ bytes

def encode (t : Transcript) : Bytes :=
  utf8 "AVON-ATP2" ++ uuidBytes t.sessionId ++ t.initiatorCertId.bytes ++
    t.responderCertId.bytes ++ put32 t.ephKemPk ++ put32 t.ctE ++ put32 t.ctS ++ [t.suite.id]

def hash (C : HybridImpl) (t : Transcript) : Key := C.sha256 t.encode

end Transcript

/-- The keys of the first epoch, salted with the transcript. -/
def SessionKeys.derive (C : HybridImpl) (H : Hkdf) (transcript : Transcript) (ssE ssS : Key) :
    SessionKeys :=
  fromPrk H (transcript.hash C).bytes (ssE.bytes ++ ssS.bytes) 0

end Avon.Crypto

namespace Avon.Tunnel

open Avon.Crypto Avon.Proto

/-- What the initiator keeps between its offer and the answer. The bytes that it offers are
those of its key pair. -/
structure PendingOffer (C : HybridImpl) where
  eph : C.KeyPair
  ephPkBytes : Bytes
  suites : List Suite
  ephPkBytes_eq : ephPkBytes = C.publicKey eph

structure Established where
  keys : SessionKeys
  suite : Suite
  transcriptHash : Key
  deriving DecidableEq

def liftCrypto {α : Type} (x : Except CryptoError α) : Except TunnelError α :=
  x.mapError TunnelError.crypto

/-- A suite from its number in a message, which has to fit a byte first. -/
def suiteFromPb (v : ℤ) : Except TunnelError Suite :=
  if v < 0 ∨ 255 < v then .error (.protocol "suite")
  else match Suite.fromId (UInt8.ofNat v.toNat) with
    | some suite => .ok suite
    | none => .error (.protocol "unknown suite")

namespace Initiator

/-- `generated` is the outcome of drawing the ephemeral key pair. -/
def offer (C : HybridImpl) (generated : Except CryptoError C.KeyPair) (suites : List Suite) :
    Except TunnelError (PendingOffer C) := do
  let eph ← liftCrypto generated
  return ⟨eph, C.publicKey eph, suites, rfl⟩

/-- Verify the responder's signature against its certificate and derive keys. -/
def complete (C : HybridImpl) (H : Hkdf) (pending : PendingOffer C) (answer : SessionAnswer)
    (sessionId : SessionId) (myCertId : Key) (myStaticKem : C.KeyPair)
    (responderCert : Certificate) : Except TunnelError Established := do
  let suite ← suiteFromPb answer.suite
  ensure (suite ∈ pending.suites) (TunnelError.protocol "responder chose a suite we did not offer")
  ensure (answer.sessionId = uuidBytes sessionId) (TunnelError.protocol "session id mismatch")
  let transcript : Transcript := {
    sessionId := sessionId
    initiatorCertId := myCertId
    responderCertId := responderCert.id C
    ephKemPk := pending.ephPkBytes
    ctE := answer.ctE
    ctS := answer.ctS
    suite := suite }
  let hash := transcript.hash C
  (C.signatureFromBytes answer.signature).mapError fun _ => TunnelError.protocol "answer signature"
  (C.verify responderCert.tbs.signingKey .session hash.bytes answer.signature).mapError
    fun _ => TunnelError.protocol "answer signature invalid"
  liftCrypto (C.ciphertextFromBytes answer.ctE)
  liftCrypto (C.ciphertextFromBytes answer.ctS)
  let ssE ← liftCrypto (C.decapsulate pending.eph answer.ctE)
  let ssS ← liftCrypto (C.decapsulate myStaticKem answer.ctS)
  return ⟨SessionKeys.derive C H transcript ssE ssS, suite, hash⟩

/-- Like `complete`, but the static private operation is `decapsulateStatic`. -/
def completeWith (C : HybridImpl) (H : Hkdf) (pending : PendingOffer C) (answer : SessionAnswer)
    (sessionId : SessionId) (myCertId : Key) (decapsulateStatic : Bytes → Except TunnelError Key)
    (responderCert : Certificate) : Except TunnelError Established := do
  let suite ← suiteFromPb answer.suite
  ensure (suite ∈ pending.suites) (TunnelError.protocol "responder chose a suite we did not offer")
  ensure (answer.sessionId = uuidBytes sessionId) (TunnelError.protocol "session id mismatch")
  let transcript : Transcript := {
    sessionId := sessionId
    initiatorCertId := myCertId
    responderCertId := responderCert.id C
    ephKemPk := pending.ephPkBytes
    ctE := answer.ctE
    ctS := answer.ctS
    suite := suite }
  let hash := transcript.hash C
  (C.signatureFromBytes answer.signature).mapError fun _ => TunnelError.protocol "answer signature"
  (C.verify responderCert.tbs.signingKey .session hash.bytes answer.signature).mapError
    fun _ => TunnelError.protocol "answer signature invalid"
  liftCrypto (C.ciphertextFromBytes answer.ctE)
  liftCrypto (C.ciphertextFromBytes answer.ctS)
  let ssE ← liftCrypto (C.decapsulate pending.eph answer.ctE)
  let ssS ← decapsulateStatic answer.ctS
  return ⟨SessionKeys.derive C H transcript ssE ssS, suite, hash⟩

end Initiator

namespace Responder

/-- Encapsulate to the ephemeral key and to the certificate's static key, then sign the
transcript. -/
def answer (C : HybridImpl) (H : Hkdf) (sessionId : SessionId) (initiatorCert : Certificate)
    (ephPk : Bytes) (suite : Suite) (myCertId : Key) (mySigning : C.SigningKey)
    (myIndex : UInt32) (myEndpoint : Option String) (coinsE coinsS : C.Coins)
    (signCoins : C.SignCoins) : Except TunnelError (SessionAnswer × Established) := do
  liftCrypto (C.publicKeyFromBytes ephPk)
  match initiatorCert.tbs.kemKey with
  | none => .error (.protocol "initiator certificate has no kem key")
  | some staticPk => do
    let (ctE, ssE) ← liftCrypto (C.encapsulate ephPk coinsE)
    let (ctS, ssS) ← liftCrypto (C.encapsulate staticPk coinsS)
    let transcript : Transcript := {
      sessionId := sessionId
      initiatorCertId := initiatorCert.id C
      responderCertId := myCertId
      ephKemPk := ephPk
      ctE := ctE
      ctS := ctS
      suite := suite }
    let hash := transcript.hash C
    let signature ← liftCrypto (C.sign mySigning .session hash.bytes signCoins)
    let keys := SessionKeys.derive C H transcript ssE ssS
    return (⟨uuidBytes sessionId, ctE, ctS, myIndex, myEndpoint.getD "", suite.id.toNat,
      signature⟩, ⟨keys, suite, hash⟩)

def answerWith (C : HybridImpl) (H : Hkdf) (sessionId : SessionId) (initiatorCert : Certificate)
    (ephPk : Bytes) (suite : Suite) (myCertId : Key)
    (signFn : Domain → Bytes → Except TunnelError Bytes)
    (myIndex : UInt32) (myEndpoint : Option String) (coinsE coinsS : C.Coins) :
    Except TunnelError (SessionAnswer × Established) := do
  liftCrypto (C.publicKeyFromBytes ephPk)
  match initiatorCert.tbs.kemKey with
  | none => .error (.protocol "initiator certificate has no kem key")
  | some staticPk => do
    let (ctE, ssE) ← liftCrypto (C.encapsulate ephPk coinsE)
    let (ctS, ssS) ← liftCrypto (C.encapsulate staticPk coinsS)
    let transcript : Transcript := {
      sessionId := sessionId
      initiatorCertId := initiatorCert.id C
      responderCertId := myCertId
      ephKemPk := ephPk
      ctE := ctE
      ctS := ctS
      suite := suite }
    let hash := transcript.hash C
    let signature ← signFn .session hash.bytes
    let keys := SessionKeys.derive C H transcript ssE ssS
    return (⟨uuidBytes sessionId, ctE, ctS, myIndex, myEndpoint.getD "", suite.id.toNat,
      signature⟩, ⟨keys, suite, hash⟩)

end Responder

end Avon.Tunnel
