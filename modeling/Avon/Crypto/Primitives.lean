import Avon.Crypto.Replay
import Avon.Lib.BigEndian

/-!
# The cryptographic crates, as parameters

The third-party code is not modelled. Each of the AEAD, the hybrid KEM and HKDF is a structure of
functions, and a result that needs one of their documented properties takes it as a named
hypothesis. `AeadKey` and its two methods are from `aead.rs`.
-/

set_option autoImplicit false

namespace Avon.Crypto

open Avon.Lib.BigEndian

abbrev Bytes := List UInt8

abbrev Key := BitVec 256

inductive Suite where
  | aes256Gcm
  | chaCha20Poly1305
  deriving DecidableEq, Repr

def Suite.TAG_LEN : ℕ := 16

inductive CryptoError where
  | invalidKeyLength (expected actual : ℕ)
  | encryptionFailed (what : String)
  | decryptionFailed (what : String)
  | authenticationFailed
  | keyDerivationFailed (what : String)
  | invalidSignature
  | randomGenerationFailed (what : String)
  | replay (why : ReplayError)
  | counterExhausted
  deriving DecidableEq, Repr

structure AeadKey where
  suite : Suite
  raw : Key
  deriving DecidableEq, Repr

/-- The AEAD crates: `encrypt_in_place` appends the tag, `decrypt_in_place` checks and
removes it. The arguments are key, nonce, associated data and buffer. -/
structure AeadImpl where
  encryptInPlace : AeadKey → Bytes → Bytes → Bytes → Option Bytes
  decryptInPlace : AeadKey → Bytes → Bytes → Bytes → Option Bytes

/-- What the AEADs are documented to do: they open what was sealed under the same key, nonce and
associated data, and a ciphertext has a tag. That nothing else opens is not among it. -/
structure AeadImpl.Correct (P : AeadImpl) : Prop where
  opens : ∀ {k nonce aad pt ct}, P.encryptInPlace k nonce aad pt = some ct →
    P.decryptInPlace k nonce aad ct = some pt
  tagged : ∀ {k nonce aad pt ct}, P.encryptInPlace k nonce aad pt = some ct →
    Suite.TAG_LEN ≤ ct.length

namespace AeadKey

def sealInPlace (P : AeadImpl) (k : AeadKey) (nonce aad buf : Bytes) :
    Except CryptoError Bytes :=
  match P.encryptInPlace k nonce aad buf with
  | some ct => .ok ct
  | none => .error (.encryptionFailed "aead seal")

def openInPlace (P : AeadImpl) (k : AeadKey) (nonce aad buf : Bytes) :
    Except CryptoError Bytes :=
  if buf.length < Suite.TAG_LEN then .error .authenticationFailed
  else match P.decryptInPlace k nonce aad buf with
    | some pt => .ok pt
    | none => .error .authenticationFailed

theorem openInPlace_eq_ok {P : AeadImpl} {k : AeadKey} {nonce aad buf pt : Bytes}
    (h : k.openInPlace P nonce aad buf = .ok pt) : P.decryptInPlace k nonce aad buf = some pt := by
  unfold openInPlace at h
  split at h
  · cases h
  split at h
  · rename_i hdec
    cases h
    exact hdec
  · cases h

end AeadKey

/-- The hybrid KEM. `encapsulate` parses the public key and draws `Coins`;
`decapsulate` parses the ciphertext. -/
structure HybridKem where
  KeyPair : Type
  Coins : Type
  publicKey : KeyPair → Bytes
  encapsulate : Bytes → Coins → Except CryptoError (Bytes × Key)
  decapsulate : KeyPair → Bytes → Except CryptoError Key

/-- Decapsulation recovers the secret that was encapsulated to the same key pair. -/
def HybridKem.Correct (K : HybridKem) : Prop :=
  ∀ kp coins ct ss, K.encapsulate (K.publicKey kp) coins = .ok (ct, ss) →
    K.decapsulate kp ct = .ok ss

/-- HKDF-SHA256 to 32 bytes: salt, input key material, info. Expanding to 32 bytes is
within the length HKDF allows, so it does not fail. -/
structure Hkdf where
  derive : Bytes → Bytes → Bytes → Key

def Key.bytes (k : Key) : Bytes := beBytes 32 k.toNat

/-! ### Primitives without secrecy

They hide nothing, but behave as the crates are documented to do, so that the hypotheses
on the parameters can be met together and runs can be evaluated. -/

def transparentTag (k : AeadKey) (nonce aad : Bytes) : Bytes :=
  (match k.suite with
    | .aes256Gcm => 1
    | .chaCha20Poly1305 => 2) :: (k.raw.bytes ++ nonce ++ aad)

/-- An AEAD that hides nothing: the ciphertext is the plaintext behind the key, the nonce
and the associated data. It opens exactly what it sealed, so the hypotheses on an
`AeadImpl` can be met together. -/
def transparentAead : AeadImpl where
  encryptInPlace k nonce aad buf := some (transparentTag k nonce aad ++ buf)
  decryptInPlace k nonce aad buf :=
    if transparentTag k nonce aad <+: buf then some (buf.drop (transparentTag k nonce aad).length)
    else none

theorem transparentAead_decrypt_iff {k : AeadKey} {nonce aad ct pt : Bytes} :
    transparentAead.decryptInPlace k nonce aad ct = some pt ↔
      transparentAead.encryptInPlace k nonce aad pt = some ct := by
  simp only [transparentAead, Option.some.injEq]
  constructor
  · intro h
    split at h
    · rename_i hpre
      obtain ⟨rest, rfl⟩ := hpre
      cases h
      rw [List.drop_left]
    · cases h
  · rintro rfl
    rw [if_pos (List.prefix_append _ _), List.drop_left]

theorem length_transparentTag (k : AeadKey) (nonce aad : Bytes) :
    (transparentTag k nonce aad).length = 33 + nonce.length + aad.length := by
  simp [transparentTag, Key.bytes]
  omega

theorem transparentAead_correct : transparentAead.Correct where
  opens h := transparentAead_decrypt_iff.mpr h
  tagged {k nonce aad pt ct} h := by
    have heq : transparentTag k nonce aad ++ pt = ct := Option.some.inj h
    rw [← heq, List.length_append, length_transparentTag]
    simp only [Suite.TAG_LEN]
    omega

/-- A KEM that hides nothing. The ciphertext names the key pair and the coins. A key pair
that does not match decapsulates to another secret, as ML-KEM's implicit rejection does. -/
def transparentKem : HybridKem where
  KeyPair := UInt8
  Coins := UInt8
  publicKey kp := [kp]
  encapsulate
    | [p], coins => .ok ([p, coins], BitVec.ofNat 256 (256 * p.toNat + coins.toNat + 1))
    | pk, _ => .error (.invalidKeyLength 1 pk.length)
  decapsulate
    | kp, [p, coins] =>
      if kp = p then .ok (BitVec.ofNat 256 (256 * p.toNat + coins.toNat + 1))
      else .ok (BitVec.ofNat 256 (65536 * kp.toNat + 256 * p.toNat + coins.toNat + 65536))
    | _, ct => .error (.invalidKeyLength 2 ct.length)

theorem transparentKem_correct : transparentKem.Correct := by
  intro kp coins ct ss h
  simp only [transparentKem, Except.ok.injEq, Prod.mk.injEq] at h ⊢
  obtain ⟨rfl, rfl⟩ := h
  exact if_pos rfl

/-- A key derivation that hides nothing: the low bytes of its input. -/
def transparentHkdf : Hkdf where
  derive salt ikm info := BitVec.ofNat 256 (ofBe (salt ++ ikm ++ info))

end Avon.Crypto
