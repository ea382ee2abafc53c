import Avon.Tunnel.Frame

/-!
# An agent with several sessions

One agent, the sessions it initiated, and the other end of each: a gateway, or an agent that does
not answer a `Rekey`. Frames can be delayed, reordered and lost. The pending rekey is one slot for
the whole agent. `asker` is not in the code.
-/

set_option autoImplicit false

namespace Avon.Agent

open Avon.Crypto Avon.Tunnel

/-- One session of the agent, with its other end and the frames in flight. -/
structure Link where
  hub : Bool
  agent : Session
  remote : Session
  due : Bool
  toRemote : List TunnelFrame
  toAgent : List TunnelFrame

/-- The agent, its links in the order of their opening, and the pending slot. -/
structure RekeyState (K : HybridKem) where
  links : List Link
  pending : PendingRekey K
  asker : ℕ

inductive RekeyEvent (K : HybridKem) where
  /-- A session is established: both ends have the same keys and each other's index. -/
  | establish (hub : Bool) (id : SessionId) (suite : Suite) (keys : SessionKeys)
      (agentIndex remoteIndex : UInt32) (now : ℕ)
  | timer (link : ℕ)
  | expire (link : ℕ) (atAgent : Bool) (overlap now : ℕ)
  | rekeyDue (link : ℕ) (offer : Except TunnelError K.KeyPair)
      (allocated : Except TunnelError UInt32) (sendOk : Bool)
  | deliverToRemote (link frame : ℕ) (coins : K.Coins) (allocated : Except TunnelError UInt32)
      (sendOk : Bool) (now : ℕ)
  | deliverToAgent (link frame : ℕ) (now : ℕ)
  | lose (link frame : ℕ) (onTheWayToAgent : Bool)

/-- Sending at the level of frames: it succeeds or fails. -/
def sendWhole (ok : Bool) : SendFrame TunnelFrame :=
  fun s frame => (if ok then .ok frame else .error (.protocol "send failed"), s)

namespace RekeyState

variable {K : HybridKem}

def init (K : HybridKem) : RekeyState K := ⟨[], none, 0⟩

def setLink (s : RekeyState K) (i : ℕ) (l : Link) : RekeyState K :=
  { s with links := s.links.set i l }

def remoteHandles (K : HybridKem) (H : Hkdf) (l : Link) (frame : TunnelFrame) (coins : K.Coins)
    (allocated : Except TunnelError UInt32) (sendOk : Bool) (now : ℕ) : Link :=
  if l.hub then
    let out := Gateway.handleControl (sendWhole sendOk) K H l.remote frame coins allocated now
    { l with remote := out.session, toAgent := l.toAgent ++ out.sent.toList }
  else
    -- A peer agent runs the same event handler; this session has nothing in its slot.
    { l with remote := (handleControl TunnelFrame K H none l.remote frame now).session }

/-- One step of the system. An event that is not enabled changes nothing. -/
def step (H : Hkdf) (s : RekeyState K) : RekeyEvent K → RekeyState K
  | .establish hub id suite keys agentIndex remoteIndex now =>
    { s with links := s.links ++
        [{ hub := hub
           agent := Session.new id .initiator suite keys agentIndex remoteIndex none now
           remote := Session.new id .responder suite keys remoteIndex agentIndex none now
           due := false
           toRemote := []
           toAgent := [] }] }
  | .timer i =>
    match s.links[i]? with
    | some l =>
      if l.agent.rekeyPending then s
      else s.setLink i { l with agent := l.agent.setRekeyPending true, due := true }
    | none => s
  | .expire i atAgent overlap now =>
    match s.links[i]? with
    | some l =>
      if atAgent then s.setLink i { l with agent := (l.agent.expirePreviousEpoch overlap now).2 }
      else s.setLink i { l with remote := (l.remote.expirePreviousEpoch overlap now).2 }
    | none => s
  | .rekeyDue i offer allocated sendOk =>
    match s.links[i]? with
    | some l =>
      if l.due then
        let out := handleRekeyDue (sendWhole sendOk) K s.pending l.agent offer allocated
        { s.setLink i
            { l with agent := out.session, due := false, toRemote := l.toRemote ++ out.sent.toList }
          with
          pending := out.pending
          asker := if out.sent.isSome then i else s.asker }
      else s
    | none => s
  | .deliverToRemote i n coins allocated sendOk now =>
    match s.links[i]? with
    | some l =>
      match l.toRemote[n]? with
      | some frame =>
        s.setLink i (remoteHandles K H { l with toRemote := l.toRemote.eraseIdx n } frame
          coins allocated sendOk now)
      | none => s
    | none => s
  | .deliverToAgent i n now =>
    match s.links[i]? with
    | some l =>
      match l.toAgent[n]? with
      | some frame =>
        let out := handleControl TunnelFrame K H s.pending l.agent frame now
        { s.setLink i { l with agent := out.session, toAgent := l.toAgent.eraseIdx n } with
          pending := out.pending }
      | none => s
    | none => s
  | .lose i n onTheWayToAgent =>
    match s.links[i]? with
    | some l =>
      if onTheWayToAgent then s.setLink i { l with toAgent := l.toAgent.eraseIdx n }
      else s.setLink i { l with toRemote := l.toRemote.eraseIdx n }
    | none => s

end RekeyState

/-- Two epochs of the same number are the two ends of one epoch: the same keys, the send
key of each the receive key of the other, and each other's index. -/
def Agrees (a b : Epoch) : Prop :=
  a.keys.epoch = b.keys.epoch →
    a.keys = b.keys ∧ a.cipher.send = b.cipher.recv ∧ a.cipher.recv = b.cipher.send ∧
      a.remoteIndex = b.localIndex ∧ b.remoteIndex = a.localIndex

/-- On every link, each end counts the epoch of its current keys, and all live epochs of
the two ends agree. -/
def RekeyAgreement {K : HybridKem} (s : RekeyState K) : Prop :=
  ∀ l ∈ s.links, l.agent.epoch = l.agent.current.keys.epoch ∧
    l.remote.epoch = l.remote.current.keys.epoch ∧
    ∀ a ∈ l.agent.epochs, ∀ b ∈ l.remote.epochs, Agrees a b

end Avon.Agent
