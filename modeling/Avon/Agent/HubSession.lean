import Avon.Tunnel.Endpoint

/-!
# One session between an agent and a gateway

The two ends of one hub session over a channel that may drop, duplicate and reorder datagrams. Each
end runs its loops and its event handler as separate steps. `keys` is not in the code.
-/

set_option autoImplicit false

namespace Avon.Agent

open Avon.Crypto Avon.Tunnel

/-- What `handle_event` leaves behind: the end of the session, the pending slot, and what it
sent. -/
structure Handled (K : HybridKem) where
  endpoint : Endpoint
  pending : PendingRekey K
  sent : Option Bytes

/-- `handle_event` on the next event of a session. `PeerEndpointChanged` is left out: it changes the
routes, not the session. -/
def handleEvent (P : AeadImpl) (C : FrameCodec) (K : HybridKem) (H : Hkdf) (e : Endpoint)
    (pending : PendingRekey K) (offer : Except TunnelError K.KeyPair) (draw : Option UInt32)
    (socketOk : Bool) (now : ℕ) : Handled K :=
  match e.queue with
  | [] => ⟨e, pending, none⟩
  | .control frame :: queue =>
    let out := handleControl Bytes K H pending e.session frame now
    let e := { e with session := out.session, bound := e.bound ++ out.bound.toList, queue := queue }
    ⟨if out.closed then e.remove else e, out.pending, none⟩
  | .ip _ :: queue => ⟨{ e with queue := queue }, pending, none⟩
  | .idle :: queue => ⟨{ e with queue := queue }.remove, pending, none⟩
  | .rekeyDue :: queue =>
    let out := handleRekeyDue (Endpoint.sendFrame P C socketOk) K pending e.session offer
      (allocateIndex e.bound draw)
    ⟨{ e with session := out.session, queue := queue }, out.pending, out.sent⟩

structure HubState (K : HybridKem) where
  now : ℕ
  agent : Endpoint
  pending : PendingRekey K
  gateway : Endpoint
  toGateway : List Bytes
  toAgent : List Bytes
  keys : List SessionKeys

/-- One step. `atAgent` says at which end it happens, `toAgent` on which channel. -/
inductive HubEvent (K : HybridKem) where
  | tick (d : ℕ)
  | timer (atAgent : Bool) (idle : Bool)
  | send (atAgent : Bool) (packet : Option Bytes) (socketOk : Bool)
  | receive (atAgent : Bool) (position : ℕ) (sender : SocketAddr)
  | agentHandles (offer : Except TunnelError K.KeyPair) (draw : Option UInt32) (socketOk : Bool)
  | gatewayHandles (coins : K.Coins) (draw : Option UInt32) (socketOk : Bool)
  | close (atAgent : Bool)
  | drop (toAgent : Bool) (position : ℕ)
  | duplicate (toAgent : Bool) (position : ℕ)

namespace HubState

variable {K : HybridKem}

/-- An established session: both ends have the same keys and each other's index, and the
agent knows where the gateway is. -/
def init (K : HybridKem) (id : SessionId) (suite : Suite) (keys : SessionKeys)
    (agentIndex gatewayIndex : UInt32) (gatewayAt : SocketAddr) (now : ℕ) : HubState K where
  now := now
  agent := ⟨Session.new id .initiator suite keys agentIndex gatewayIndex (some gatewayAt) now,
    [agentIndex], []⟩
  pending := none
  gateway := ⟨Session.new id .responder suite keys gatewayIndex agentIndex none now,
    [gatewayIndex], []⟩
  toGateway := []
  toAgent := []
  keys := [keys]

/-- What an end sends on its own: an IP packet or a keepalive. -/
def payload : Option Bytes → Inner
  | some packet => .ip packet
  | none => .keepalive

/-- The agent handles its next event. -/
def agentHandles (P : AeadImpl) (C : FrameCodec) (H : Hkdf) (s : HubState K)
    (offer : Except TunnelError K.KeyPair) (draw : Option UInt32) (socketOk : Bool) : HubState K :=
  let out := handleEvent P C K H s.agent s.pending offer draw socketOk s.now
  { s with
    agent := out.endpoint
    pending := out.pending
    toGateway := s.toGateway ++ out.sent.toList }

variable (P : AeadImpl) (C : FrameCodec) (H : Hkdf) (s : HubState K)

/-- The gateway handles its next event. An IP packet leaves this session alone, and a
gateway does nothing on `RekeyDue`. -/
def gatewayHandles (coins : K.Coins) (draw : Option UInt32) (socketOk : Bool) : HubState K :=
  match s.gateway.queue with
  | [] => s
  | .control frame :: queue =>
    let out := Gateway.handleControl (Endpoint.sendFrame P C socketOk) K H s.gateway.session frame
      coins (allocateIndex s.gateway.bound draw) s.now
    let gateway := { s.gateway with
      session := out.session, bound := s.gateway.bound ++ out.bound.toList, queue := queue }
    { s with
      gateway := if out.closed then gateway.remove else gateway
      toAgent := s.toAgent ++ out.sent.toList
      keys := if out.bound.isSome then s.keys ++ [out.session.current.keys] else s.keys }
  | .idle :: queue => { s with gateway := { s.gateway with queue := queue }.remove }
  | _ :: queue => { s with gateway := { s.gateway with queue := queue } }

/-- One step of the system. An event that is not enabled changes nothing. -/
def step (P : AeadImpl) (C : FrameCodec) (H : Hkdf) (cfg : TimerConfig) (s : HubState K) :
    HubEvent K → HubState K
  | .tick d => { s with now := s.now + d }
  | .timer true idle => { s with agent := s.agent.timer cfg idle s.now }
  | .timer false idle => { s with gateway := s.gateway.timer cfg idle s.now }
  | .send true packet socketOk =>
    match Endpoint.sendInner P socketOk s.agent.session (payload packet) with
    | (r, session) =>
      { s with
        agent := { s.agent with session := session }
        toGateway := s.toGateway ++ r.toOption.toList }
  | .send false packet socketOk =>
    match Endpoint.sendInner P socketOk s.gateway.session (payload packet) with
    | (r, session) =>
      { s with
        gateway := { s.gateway with session := session }
        toAgent := s.toAgent ++ r.toOption.toList }
  | .receive true n sender =>
    match s.toAgent[n]? with
    | some datagram =>
      { s with agent := s.agent.receive P C sender datagram, toAgent := s.toAgent.eraseIdx n }
    | none => s
  | .receive false n sender =>
    match s.toGateway[n]? with
    | some datagram =>
      { s with
        gateway := s.gateway.receive P C sender datagram
        toGateway := s.toGateway.eraseIdx n }
    | none => s
  | .agentHandles offer draw socketOk => s.agentHandles P C H offer draw socketOk
  | .gatewayHandles coins draw socketOk => s.gatewayHandles P C H coins draw socketOk
  | .close true => { s with agent := s.agent.remove }
  | .close false => { s with gateway := s.gateway.remove }
  | .drop true n => { s with toAgent := s.toAgent.eraseIdx n }
  | .drop false n => { s with toGateway := s.toGateway.eraseIdx n }
  | .duplicate true n => { s with toAgent := s.toAgent ++ s.toAgent[n]?.toList }
  | .duplicate false n => { s with toGateway := s.toGateway ++ s.toGateway[n]?.toList }

/-- A control frame is in flight: a datagram on its way that its receiver would accept as
one, or a received frame that waits in a queue. -/
def ControlInFlight : Prop :=
  (∃ d ∈ s.toAgent, ∃ f, (s.agent.accept P d).1 = some (.control f)) ∨
  (∃ d ∈ s.toGateway, ∃ f, (s.gateway.accept P d).1 = some (.control f)) ∨
  (∃ f, .control f ∈ s.agent.queue) ∨ (∃ f, .control f ∈ s.gateway.queue)

/-- The agent would accept the datagram as the ack of a rekey. -/
def acceptsAck (d : Bytes) : Bool :=
  match (s.agent.accept P d).1 with
  | some (.control f) =>
    match C.decode f with
    | some (.rekeyAck ..) => true
    | _ => false
  | _ => false

/-- No ack that the agent would accept is lost: when the channel drops one, a copy of it is
left. -/
def ackKept : HubEvent K → Bool
  | .drop true n =>
    match s.toAgent[n]? with
    | some d => !s.acceptsAck P C d || d ∈ s.toAgent.eraseIdx n
    | none => true
  | _ => true

/-- A datagram that is received opens under at most one of the keys that this session has had
for its direction. -/
def opensOnce (P : AeadImpl) (suite : Suite) (s : HubState K) : HubEvent K → Bool
  | .receive true n _ =>
    s.toAgent[n]?.all (Endpoint.opensOnce P (s.keys.map fun ks => ⟨suite, ks.kR2i⟩))
  | .receive false n _ =>
    s.toGateway[n]?.all (Endpoint.opensOnce P (s.keys.map fun ks => ⟨suite, ks.kI2r⟩))
  | _ => true

/-- The traffic keys that the gateway derives were never used before in this session. -/
def keysFresh : HubEvent K → Bool
  | .gatewayHandles coins draw socketOk =>
    ((s.gatewayHandles P C H coins draw socketOk).keys.drop s.keys.length).all fun new =>
      s.keys.all fun old => new.kI2r ≠ old.kI2r && new.kR2i ≠ old.kR2i
  | _ => true

end HubState

def epochAt (s : Session) (index : UInt32) : Option Epoch :=
  if s.current.localIndex = index then some s.current
  else match s.previous with
    | some (prev, _) => if prev.localIndex = index then some prev else none
    | none => none

/-- The receiver can open what the sender seals: the index leads to an epoch that receives
with the sender's key. -/
def CanOpen (sender receiver : Endpoint) : Prop :=
  sender.session.current.remoteIndex ∈ receiver.bound ∧
    ∃ e, epochAt receiver.session sender.session.current.remoteIndex = some e ∧
      e.cipher.recv = sender.session.current.cipher.send

/-- While both ends are open and no control frame is in flight, each can open what the
other seals. -/
def EpochsMeet {K : HybridKem} (P : AeadImpl) (s : HubState K) : Prop :=
  s.agent.session.closed = false → s.gateway.session.closed = false → ¬ s.ControlInFlight P →
    CanOpen s.agent s.gateway ∧ CanOpen s.gateway s.agent

end Avon.Agent
