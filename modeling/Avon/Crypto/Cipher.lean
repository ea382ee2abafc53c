import Avon.Crypto.Primitives

/-!
# Session keys and the per-epoch cipher

A `SessionCipher` is one epoch: a send key with its counter, and a receive key with its replay
window. `open` looks at the window, then opens the AEAD, and commits the counter last. A `Window`
carries the proof that its subtractions cannot panic, so `Window.checkAndUpdate` is total.
-/

set_option autoImplicit false

namespace Avon.Crypto

open Avon.Lib.BigEndian

/-! ### Session keys -/

structure SessionKeys where
  kI2r : Key
  kR2i : Key
  rekeySecret : Key
  epoch : UInt32
  deriving DecidableEq, Repr

namespace SessionKeys

/-- `expand`: the info is the label and the epoch, big-endian. -/
def expand (H : Hkdf) (salt ikm : Bytes) (label : String) (epoch : UInt32) : Key :=
  H.derive salt ikm (label.toUTF8.toList ++ beBytes 4 epoch.toNat)

/-- `from_prk`, with the pseudorandom key given by its salt and input key material. -/
def fromPrk (H : Hkdf) (salt ikm : Bytes) (epoch : UInt32) : SessionKeys where
  kI2r := expand H salt ikm "i2r" epoch
  kR2i := expand H salt ikm "r2i" epoch
  rekeySecret := expand H salt ikm "rekey" epoch
  epoch := epoch

/-- The keys of the next epoch, from a fresh shared secret. -/
def rekey (H : Hkdf) (keys : SessionKeys) (ssNew : Key) : SessionKeys :=
  fromPrk H keys.rekeySecret.bytes ssNew.bytes (keys.epoch + 1)

@[simp] theorem rekey_epoch (H : Hkdf) (keys : SessionKeys) (ss : Key) :
    (keys.rekey H ss).epoch = keys.epoch + 1 := rfl

end SessionKeys

/-! ### The replay window of a cipher -/

abbrev Window := { w : ReplayWindow // w.WellFormed }

namespace Window

def new : Window := ⟨ReplayWindow.new, ReplayWindow.wellFormed_new⟩

/-- `check_and_update`, which never panics on a `Window`. -/
def checkAndUpdate (w : Window) (counter : UInt64) : Except ReplayError Unit × Window :=
  match h : w.1.checkAndUpdate counter with
  | some (r, w') => (r, ⟨w', ReplayWindow.wellFormed_checkAndUpdate w.2 h⟩)
  -- Not reached: see `checkAndUpdate_spec`.
  | none => (.error .replayed, w)

theorem checkAndUpdate_spec (w : Window) (counter : UInt64) :
    w.1.checkAndUpdate counter
      = some ((w.checkAndUpdate counter).1, (w.checkAndUpdate counter).2.1) := by
  unfold checkAndUpdate
  split
  · rename_i h
    exact h
  rename_i h
  rw [ReplayWindow.checkAndUpdate_eq w.2] at h
  -- Every branch of the source returns.
  split at h
  · cases h
  split at h
  · cases h
  split at h
  · cases h
  · split at h <;> cases h

theorem checkAndUpdate_of_error {w : Window} {counter : UInt64} {e : ReplayError}
    (h : (w.checkAndUpdate counter).1 = .error e) : (w.checkAndUpdate counter).2 = w := by
  have hspec := checkAndUpdate_spec w counter
  rw [h, ReplayWindow.checkAndUpdate_eq w.2] at hspec
  apply Subtype.ext
  split at hspec
  · cases hspec
  split at hspec
  · cases hspec
  split at hspec
  · exact (Prod.mk.inj (Option.some.inj hspec)).2.symm
  split at hspec
  · exact (Prod.mk.inj (Option.some.inj hspec)).2.symm
  · cases hspec

end Window

/-! ### The cipher -/

inductive Role where
  | initiator
  | responder
  deriving DecidableEq, Repr

namespace Role

def sendKey : Role → SessionKeys → Key
  | .initiator, keys => keys.kI2r
  | .responder, keys => keys.kR2i

def recvKey : Role → SessionKeys → Key
  | .initiator, keys => keys.kR2i
  | .responder, keys => keys.kI2r

end Role

def nonceFor (counter : UInt64) : Bytes := [0, 0, 0, 0] ++ beBytes 8 counter.toNat

theorem nonceFor_inj {m n : UInt64} (h : nonceFor m = nonceFor n) : m = n :=
  UInt64.toNat_inj.mp
    (beBytes_inj (by have := m.toNat_lt; omega) (by have := n.toNat_lt; omega)
      (List.append_cancel_left h))

/-- One epoch: a send key with counter and a receive key with a replay window. -/
structure SessionCipher where
  send : AeadKey
  recv : AeadKey
  counter : SendCounter
  window : Window
  epoch : UInt32

/-- One call of the AEAD's encryption: the key and the nonce. -/
structure AeadCall where
  key : AeadKey
  nonce : Bytes
  deriving DecidableEq, Repr

/-- What `seal_with` gives: its result, the cipher after it, and the calls it made of the
AEAD. -/
structure CipherSeal where
  result : Except CryptoError (UInt64 × Bytes)
  cipher : SessionCipher
  calls : List AeadCall

namespace SessionCipher

def new (keys : SessionKeys) (role : Role) (suite : Suite) : SessionCipher where
  send := ⟨suite, role.sendKey keys⟩
  recv := ⟨suite, role.recvKey keys⟩
  counter := SendCounter.new
  window := Window.new
  epoch := keys.epoch

def packetsSent (c : SessionCipher) : UInt64 :=
  18446744073709551615 - 1 - c.counter.remaining

/-- Seal where the AAD depends on the counter. The counter is spent before the AEAD runs,
so a failing AEAD spends it too. -/
def sealWith (P : AeadImpl) (c : SessionCipher) (aadFor : UInt64 → Bytes) (plaintext : Bytes) :
    CipherSeal :=
  match c.counter.next with
  | (none, counter) => ⟨.error .counterExhausted, { c with counter }, []⟩
  | (some n, counter) =>
    let calls := [⟨c.send, nonceFor n⟩]
    match c.send.sealInPlace P (nonceFor n) (aadFor n) plaintext with
    | .ok ct => ⟨.ok (n, ct), { c with counter }, calls⟩
    | .error e => ⟨.error e, { c with counter }, calls⟩

/-- Open a body: refuse a counter below the window, open the AEAD, commit the counter. -/
def «open» (P : AeadImpl) (c : SessionCipher) (counter : UInt64) (aad buf : Bytes) :
    Except CryptoError Bytes × SessionCipher :=
  if c.window.1.highest.any
      (fun highest => highest ≥ counter && highest - counter ≥ ReplayWindow.SIZE) then
    (.error (.replay .tooOld), c)
  else match c.recv.openInPlace P (nonceFor counter) aad buf with
    | .error e => (.error e, c)
    | .ok plaintext =>
      match c.window.checkAndUpdate counter with
      | (.ok (), window) => (.ok plaintext, { c with window })
      | (.error e, window) => (.error (.replay e), { c with window })

/-- What `open` can do: fail and change nothing, or open the AEAD and commit the counter. -/
theorem open_cases (P : AeadImpl) (c : SessionCipher) (counter : UInt64) (aad buf : Bytes) :
    (∃ e, c.open P counter aad buf = (.error e, c)) ∨
    (∃ plaintext window, P.decryptInPlace c.recv (nonceFor counter) aad buf = some plaintext ∧
      c.window.checkAndUpdate counter = (.ok (), window) ∧
      c.open P counter aad buf = (.ok plaintext, { c with window })) := by
  unfold «open»
  split
  · exact .inl ⟨_, rfl⟩
  split
  · exact .inl ⟨_, rfl⟩
  rename_i plaintext hopen
  split
  · rename_i window hcheck
    exact .inr ⟨plaintext, window, AeadKey.openInPlace_eq_ok hopen, hcheck, rfl⟩
  rename_i e window hcheck
  -- The commit refused, so it kept the window.
  have hsame := Window.checkAndUpdate_of_error (e := e) (by rw [hcheck])
  rw [hcheck] at hsame
  subst hsame
  exact .inl ⟨_, rfl⟩

end SessionCipher

end Avon.Crypto
