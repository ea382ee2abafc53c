import Avon.Control.Attest

/-!
# Challenges, and the streams of devices and gateways

`Challenges`, and the tasks of the streams that `pulse` and `events` open. An entry of a registry
has the number of the stream to which its sender belongs. Neither the registries nor `Challenges`
know of streams, and `latest` is not kept by the code.
-/

set_option autoImplicit false

namespace Avon.Control

open Avon.Crypto
open Function (update)

/-! ### Challenges -/

/-- `Challenges`: one outstanding challenge per device. -/
abbrev Challenges (δ : Type) := δ → Option Outstanding

namespace Challenges

variable {δ : Type} [DecidableEq δ]

def issue (c : Challenges δ) (device : δ) (nonce : Bytes) (now : ℕ) : Challenges δ :=
  update c device (some ⟨nonce, now⟩)

def forget (c : Challenges δ) (device : δ) : Challenges δ := update c device none

/-- The nonce that `take` returns. It removes the challenge in any case, as `forget` does. -/
def take (c : Challenges δ) (device : δ) (now : ℕ) : Option Bytes :=
  ((c device).filter fun o => o.fresh now).map (·.nonce)

def sweep (c : Challenges δ) (now : ℕ) : Challenges δ :=
  fun device => (c device).filter fun o => o.fresh now

end Challenges

inductive ChallengeOp (δ : Type) where
  | tick (d : ℕ)
  | issue (device : δ) (nonce : Bytes)
  | take (device : δ)
  | forget (device : δ)
  | sweep

structure ChallengeState (δ : Type) where
  now : ℕ
  challenges : Challenges δ

namespace ChallengeState

variable {δ : Type} [DecidableEq δ]

def init (now : ℕ) : ChallengeState δ := ⟨now, fun _ => none⟩

def step (s : ChallengeState δ) : ChallengeOp δ → ChallengeState δ
  | .tick d => { s with now := s.now + d }
  | .issue device nonce => { s with challenges := s.challenges.issue device nonce s.now }
  | .take device => { s with challenges := s.challenges.forget device }
  | .forget device => { s with challenges := s.challenges.forget device }
  | .sweep => { s with challenges := s.challenges.sweep s.now }

def taken (s : ChallengeState δ) : ChallengeOp δ → List Bytes
  | .take device => (s.challenges.take device s.now).toList
  | _ => []

end ChallengeState

/-! ### Streams -/

inductive Identity where
  | device (id : DeviceId)
  | gateway (id : GatewayId)
  deriving DecidableEq

/-- The task that issues challenges. Only a pulse stream has one. -/
inductive Ticker where
  | running
  | leaving
  | ended
  deriving DecidableEq

structure OpenStream where
  owner : Identity
  inbound : Bool
  ticker : Ticker

def OpenStream.live (st : OpenStream) : Bool := st.inbound || st.ticker ≠ .ended

def OpenStream.isOpen (st : OpenStream) : Bool :=
  st.inbound && match st.owner with
    | .device _ => st.ticker = .running
    | .gateway _ => true

structure Streams where
  now : ℕ
  registry : Identity → Option ℕ
  challenges : Challenges DeviceId
  streams : ℕ → Option OpenStream
  latest : Identity → Option ℕ

inductive StreamOp where
  | tick (d : ℕ)
  | open (k : ℕ) (owner : Identity)
  | challenge (k : ℕ) (nonce : Bytes) (sent : Bool)
  | forget (k : ℕ)
  | answer (k : ℕ)
  | inboundEnds (k : ℕ)
  | sweep

namespace Streams

def init (now : ℕ) : Streams := ⟨now, fun _ => none, fun _ => none, fun _ => none, fun _ => none⟩

variable (s : Streams) (k : ℕ)

def setStream (st : OpenStream) : Streams :=
  { s with streams := update s.streams k (some st) }

def openStep (owner : Identity) : Streams :=
  match s.streams k with
  | some _ => s
  | none =>
    let ticker := match owner with
      | .device _ => .running
      | .gateway _ => .ended
    { s.setStream k ⟨owner, true, ticker⟩ with
        registry := update s.registry owner (some k)
        latest := update s.latest owner (some k) }

def challengeStep (nonce : Bytes) (sent : Bool) : Streams :=
  match s.streams k with
  | some ⟨.device id, inbound, .running⟩ =>
    { s.setStream k ⟨.device id, inbound, if sent then .running else .leaving⟩ with
        challenges := s.challenges.issue id nonce s.now }
  | _ => s

def forgetStep : Streams :=
  match s.streams k with
  | some ⟨.device id, inbound, .leaving⟩ =>
    { s.setStream k ⟨.device id, inbound, .ended⟩ with challenges := s.challenges.forget id }
  | _ => s

def answerStep : Streams :=
  match s.streams k with
  | some ⟨.device id, true, _⟩ => { s with challenges := s.challenges.forget id }
  | _ => s

def inboundEndsStep : Streams :=
  match s.streams k with
  | some ⟨owner, true, ticker⟩ =>
    { s.setStream k ⟨owner, false, ticker⟩ with
        registry := update s.registry owner none }
  | _ => s

def step (s : Streams) : StreamOp → Streams
  | .tick d => { s with now := s.now + d }
  | .open k owner => s.openStep k owner
  | .challenge k nonce sent => s.challengeStep k nonce sent
  | .forget k => s.forgetStep k
  | .answer k => s.answerStep k
  | .inboundEnds k => s.inboundEndsStep k
  | .sweep => { s with challenges := s.challenges.sweep s.now }

end Streams

end Avon.Control
