import Avon.Tunnel.Session

/-!
# Control frames and who handles them

Control frames, and their handlers on the gateway (`handle_control`) and on an agent
(`SessionManager::handle_event`). Both take the way a frame is sent as an argument, so that they run
over frames and over sealed datagrams. What they draw at random is an argument.
-/

set_option autoImplicit false

namespace Avon.Tunnel

open Avon.Crypto

inductive TunnelFrame where
  | rekey (newEpoch : UInt32) (ephKemPk : Bytes) (newIndex : UInt32)
  | rekeyAck (newEpoch : UInt32) (ct : Bytes) (newIndex : UInt32)
  | indexUpdate (newIndex : UInt32)
  | close (reason : String)
  | mtuProbe (size : UInt32) (padding : Bytes)
  | mtuProbeAck (size : UInt32)
  deriving DecidableEq, Repr

/-- How an endpoint sends a frame on a session: an error, or what goes on the wire, and the
session after it. -/
abbrev SendFrame (ω : Type) := Session → TunnelFrame → Except TunnelError ω × Session

end Avon.Tunnel

namespace Avon.Gateway

open Avon.Crypto Avon.Tunnel

/-- What `handle_control` did: the session after it, what it sent, the index it bound to
the session in the table, and whether it closed the session. -/
structure ControlOutcome (ω : Type) where
  session : Session
  sent : Option ω
  bound : Option UInt32
  closed : Bool

/-- `handle_control`. The answer to a rekey goes out under the old epoch; then the session
rotates. `allocated` is the result of `allocate_index`. -/
def handleControl {ω : Type} (send : SendFrame ω) (K : HybridKem) (H : Hkdf) (session : Session)
    (frame : TunnelFrame) (coins : K.Coins) (allocated : Except TunnelError UInt32) (now : ℕ) :
    ControlOutcome ω :=
  match frame with
  | .rekey newEpoch ephKemPk newIndex =>
    match session.answerRekey K H ephKemPk coins with
    | .error _ => ⟨session, none, none, false⟩
    | .ok (ct, next) =>
      match allocated with
      | .error _ => ⟨session, none, none, false⟩
      | .ok newLocal =>
        match send session (.rekeyAck newEpoch ct newLocal) with
        | (.error _, session) => ⟨session, none, none, false⟩
        | (.ok out, session) =>
          ⟨session.rotate next newLocal newIndex now, some out, some newLocal, false⟩
  | .close _ => ⟨session, none, none, true⟩
  | .mtuProbe size _ =>
    match send session (.mtuProbeAck size) with
    | (.error _, session) => ⟨session, none, none, false⟩
    | (.ok out, session) => ⟨session, some out, none, false⟩
  -- `IndexUpdate` and `RekeyAck` are initiator-side; a gateway never gets them.
  | _ => ⟨session, none, none, false⟩

end Avon.Gateway

namespace Avon.Agent

open Avon.Crypto Avon.Tunnel

/-- The pending rekey of a `SessionManager`: one ephemeral key pair and one new local index
for the whole agent. -/
abbrev PendingRekey (K : HybridKem) := Option (K.KeyPair × UInt32)

/-- What the agent did with an event: the session and the pending slot after it, what it
sent, the index it bound to the session in the table, and whether it closed the session. -/
structure EventOutcome (K : HybridKem) (ω : Type) where
  session : Session
  pending : PendingRekey K
  sent : Option ω
  bound : Option UInt32
  closed : Bool

/-- `handle_event` on `EndpointEvent::Control`. An ack takes the pending slot, whichever
session filled it. -/
def handleControl (ω : Type) (K : HybridKem) (H : Hkdf) (pending : PendingRekey K)
    (session : Session) (frame : TunnelFrame) (now : ℕ) : EventOutcome K ω :=
  match frame with
  | .rekeyAck _ ct newIndex =>
    match pending with
    | none => ⟨session, none, none, none, false⟩
    | some (eph, newLocal) =>
      match session.completeRekey K H eph ct with
      | .ok next =>
        ⟨session.rotate next newLocal newIndex now, none, none, some newLocal, false⟩
      | .error _ => ⟨session, none, none, none, false⟩
  | .close _ => ⟨session, pending, none, none, true⟩
  | _ => ⟨session, pending, none, none, false⟩

/-- `handle_event` on `EndpointEvent::RekeyDue`. `offer` is the result of `rekey_offer` and
`allocated` that of `allocate_index`. -/
def handleRekeyDue {ω : Type} (send : SendFrame ω) (K : HybridKem) (pending : PendingRekey K)
    (session : Session) (offer : Except TunnelError K.KeyPair)
    (allocated : Except TunnelError UInt32) : EventOutcome K ω :=
  match offer with
  | .error _ => ⟨session.setRekeyPending false, pending, none, none, false⟩
  | .ok eph =>
    match allocated with
    | .error _ => ⟨session.setRekeyPending false, pending, none, none, false⟩
    | .ok newIndex =>
      match send session (.rekey (session.epoch + 1) (K.publicKey eph) newIndex) with
      | (.ok out, session) => ⟨session, some (eph, newIndex), some out, none, false⟩
      | (.error _, session) => ⟨session.setRekeyPending false, pending, none, none, false⟩

end Avon.Agent
