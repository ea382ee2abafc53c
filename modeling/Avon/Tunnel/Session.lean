import Avon.Common
import Avon.Lib.Run
import Avon.Tunnel.Wire

/-!
# One tunnel session

A session has a current epoch and, for the overlap after a rekey, the previous one, both addressed
by their local index. Each function returns the session after the call; `now` is an argument
wherever the source reads the clock. `Op` and `apply` put the calls together as a step function.
-/

set_option autoImplicit false

namespace Avon.Tunnel

open Avon.Crypto

structure Epoch where
  localIndex : UInt32
  remoteIndex : UInt32
  cipher : SessionCipher
  keys : SessionKeys
  started : ℕ

structure Session where
  id : SessionId
  role : Role
  suite : Suite
  current : Epoch
  previous : Option (Epoch × ℕ)
  epoch : UInt32
  peerEndpoint : Option SocketAddr
  closed : Bool
  rekeyPending : Bool

/-- What `Session::seal` gives: its result, the session after it, and the calls it made of
the AEAD. -/
structure Sealed where
  result : Except TunnelError Bytes
  session : Session
  calls : List AeadCall

namespace Session

def new (id : SessionId) (role : Role) (suite : Suite) (keys : SessionKeys)
    (localIndex remoteIndex : UInt32) (peerEndpoint : Option SocketAddr) (now : ℕ) : Session where
  id := id
  role := role
  suite := suite
  current := ⟨localIndex, remoteIndex, SessionCipher.new keys role suite, keys, now⟩
  previous := none
  epoch := keys.epoch
  peerEndpoint := peerEndpoint
  closed := false
  rekeyPending := false

variable (P : AeadImpl) (s : Session)

def packetsSentThisEpoch : UInt64 := s.current.cipher.packetsSent

/-- Every local index this session can still be addressed by. -/
def indexes : List UInt32 :=
  s.current.localIndex :: (s.previous.map fun p => p.1.localIndex).toList

/-- The live epochs: the current one and, during the overlap, the previous one. -/
def epochs : List Epoch :=
  s.current :: (s.previous.map Prod.fst).toList

def close : Session := { s with closed := true }

/-- The flag that a rekey has been signalled and not yet completed. -/
def setRekeyPending (pending : Bool) : Session := { s with rekeyPending := pending }

def headerFor (counter : UInt64) : Header where
  kind := TYPE_DATA
  flags := if s.previous.isSome then FLAG_EPOCH_OVERLAP else 0
  receiverIndex := s.current.remoteIndex
  counter := counter

def «seal» (inner : Inner) : Sealed :=
  if s.closed then ⟨.error .closed, s, []⟩
  else
    let out := s.current.cipher.sealWith P (fun n => (s.headerFor n).encode) inner.encode
    let s' := { s with current := { s.current with cipher := out.cipher } }
    match out.result with
    | .ok (n, body) => ⟨.ok ((s.headerFor n).encode ++ body), s', out.calls⟩
    | .error e => ⟨.error (.crypto e), s', out.calls⟩

def openError : CryptoError → TunnelError
  | .replay _ => .replay
  | e => .crypto e

/-- The part of `open` under the epoch lock: find the epoch that the header names and open
the body with its cipher. -/
def openBody (header : Header) (body : Bytes) : Except TunnelError Bytes × Session :=
  if s.current.localIndex = header.receiverIndex then
    match s.current.cipher.open P header.counter header.encode body with
    | (r, cipher) => (r.mapError openError, { s with current := { s.current with cipher } })
  else match s.previous with
    | some (prev, since) =>
      if prev.localIndex = header.receiverIndex then
        match prev.cipher.open P header.counter header.encode body with
        | (r, cipher) =>
          (r.mapError openError, { s with previous := some ({ prev with cipher }, since) })
      else (.error (.unknownIndex header.receiverIndex), s)
    | none => (.error (.unknownIndex header.receiverIndex), s)

/-- Decrypt a body whose header named one of our indexes. -/
def «open» (header : Header) (body : Bytes) : Except TunnelError Inner × Session :=
  if s.closed then (.error .closed, s)
  else match s.openBody P header body with
    | (r, s') => (r.bind Inner.decode, s')

/-- Install a new epoch and keep the old one addressable for the overlap. -/
def rotate (newKeys : SessionKeys) (newLocalIndex newRemoteIndex : UInt32) (now : ℕ) : Session :=
  { s with
    current :=
      ⟨newLocalIndex, newRemoteIndex, SessionCipher.new newKeys s.role s.suite, newKeys, now⟩
    previous := some (s.current, now)
    epoch := s.epoch + 1
    rekeyPending := false }

/-- Drop the previous epoch once `overlap` has passed. Returns the index the caller should
release from its table. -/
def expirePreviousEpoch (overlap now : ℕ) : Option UInt32 × Session :=
  match s.previous with
  | some (p, since) =>
    if now - since ≥ overlap then (some p.localIndex, { s with previous := none })
    else (none, s)
  | none => (none, s)

/-- Responder half of a rekey: encapsulate to the peer's fresh ephemeral key and derive the
next epoch from the current one. -/
def answerRekey (K : HybridKem) (H : Hkdf) (s : Session) (ephPk : Bytes) (coins : K.Coins) :
    Except TunnelError (Bytes × SessionKeys) :=
  match K.encapsulate ephPk coins with
  | .ok (ct, ss) => .ok (ct, s.current.keys.rekey H ss)
  | .error e => .error (.crypto e)

/-- Initiator half: decapsulate the responder's answer against the ephemeral key and derive
the next epoch. -/
def completeRekey (K : HybridKem) (H : Hkdf) (s : Session) (eph : K.KeyPair) (ct : Bytes) :
    Except TunnelError SessionKeys :=
  match K.decapsulate eph ct with
  | .ok ss => .ok (s.current.keys.rekey H ss)
  | .error e => .error (.crypto e)

/-! ### Sequences of calls -/

inductive Op where
  | «seal» (inner : Inner)
  | «open» (header : Header) (body : Bytes)
  | rotate (newKeys : SessionKeys) (newLocalIndex newRemoteIndex : UInt32) (now : ℕ)
  | expirePreviousEpoch (overlap now : ℕ)
  | close
  deriving DecidableEq

def apply (P : AeadImpl) (s : Session) : Op → Session
  | .seal inner => (s.seal P inner).session
  | .open header body => (s.open P header body).2
  | .rotate keys l r now => s.rotate keys l r now
  | .expirePreviousEpoch overlap now => (s.expirePreviousEpoch overlap now).2
  | .close => s.close

abbrev after (P : AeadImpl) (s : Session) (ops : List Op) : Session :=
  Lib.Run.run (apply P) s ops

@[simp] theorem after_cons (op : Op) (ops : List Op) :
    s.after P (op :: ops) = (s.apply P op).after P ops := rfl

/-- The keys and the local index of each rotation in a sequence of calls, in order. -/
def rotations (ops : List Op) : List (SessionKeys × UInt32) :=
  ops.filterMap fun
    | .rotate keys l _ _ => some (keys, l)
    | _ => none

@[simp] theorem rotations_nil : rotations [] = [] := rfl

@[simp] theorem rotations_append (xs ys : List Op) :
    rotations (xs ++ ys) = rotations xs ++ rotations ys := by
  simp [rotations]

end Session

end Avon.Tunnel
