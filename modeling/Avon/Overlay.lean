import Avon.Agent.Tun
import Avon.Gateway.Dataplane
import Avon.Gateway.Packet

/-!
# One gateway and its agents

The gateway and any number of agents, with the packets between them. The tunnels are taken to be
secure: an end of a session opens only what the other end has sealed on it. `log` is what was sealed
so far, by whom and for whom. A packet may be opened late, more than once or never.
-/

set_option autoImplicit false

namespace Avon.Overlay

open Avon.Agent Avon.Crypto Avon.Gateway Avon.Tunnel

inductive Party where
  | gateway
  | device (id : DeviceId)
  deriving DecidableEq, Repr

/-- An IP packet that `sender` sealed on a session with `receiver`. -/
structure Sealed where
  sender : Party
  receiver : Party
  session : SessionId
  packet : Bytes
  deriving DecidableEq, Repr

structure Setting (C : HybridImpl) where
  env : Env
  hkdf : Hkdf
  identity : DeviceId → Identity C
  parse : String → Option IpNet
  holder : Key → Party
  overlay : DeviceId → List IpAddr

structure Node (C : HybridImpl) where
  agent : AgentState C
  router : RouteTable
  /-- The sessions that it has had so far. A session that has lost its id to another one is still
  found by its index. -/
  sessions : List PeerSession

structure State (C : HybridImpl) where
  gateway : GatewayState
  /-- The sessions that the gateway has had so far, the last one first, with the device of the
  certificate. -/
  hubs : List (SessionId × DeviceId)
  nodes : DeviceId → Node C
  log : List Sealed
  tuns : List (DeviceId × Bytes)

def State.init (C : HybridImpl) (crl : Gateway.Crl) (overlayPrefixes : List IpNet) : State C where
  gateway := .bootstrap crl overlayPrefixes
  hubs := []
  nodes _ := ⟨.init C, .empty, []⟩
  log := []
  tuns := []

/-- The operations on the router: `set_routes` is a `removeSession` and then an `insert` for each
network. -/
inductive RouteChange where
  | insert (net : IpNet) (session : SessionId)
  | remove (net : IpNet)
  | removeSession (session : SessionId)

def RouteChange.apply (t : RouteTable) : RouteChange → RouteTable
  | .insert net session => t.insert net session
  | .remove net => t.remove net
  | .removeSession session => t.removeSession session

inductive Event (C : HybridImpl) where
  | gateway (e : Gateway.Event)
  | agent (device : DeviceId) (e : AgentEvent C)
  /-- A hub opens, a peer is reached or lost, or control sends routes. -/
  | route (device : DeviceId) (change : RouteChange)
  /-- The agent reads a packet from its TUN. `order` is the order of its map of peers, `sent`
  whether `send_inner` succeeds. -/
  | tun (device : DeviceId) (packet : Bytes) (order : List DeviceId) (sent : Bool)
  | ip (device : DeviceId) (position : ℕ) (packet : Bytes)

section
variable {C : HybridImpl}

def sessionMade (H : Hkdf) (identity : Identity C) (parse : String → Option IpNet)
    (s : AgentState C) : AgentEvent C → Option PeerSession
  | .dialed position provider response now clock => s.dials[position]?.bind fun dial =>
    (dialPeerFinish H identity parse dial provider response now clock).toOption.map (·.session)
  | .offered offer provider index coinsE coinsS now clock =>
    (handleOffer H identity parse s provider offer index coinsE coinsS now clock).toOption.bind
      fun e => e.map (·.session)
  | .hubOpened position provider resolve response now clock =>
    s.hubOpens[position]?.bind fun hubOpen =>
      (openHubFinish H identity hubOpen provider resolve response now clock).toOption
  | _ => none

/-- The session that the gateway makes in a step, and the device it is for. -/
def hubMade (env : Env) (s : GatewayState) : Gateway.Event → List (SessionId × DeviceId)
  | .control (.offer offer now (some _)) =>
    if s.blocked then []
    else match checkOffer env s offer now with
      | .ok (id, cert) => [(id, cert.subjectId)]
      | .error _ => []
  | _ => []

/-- A packet arrives at the gateway if the device of one of its sessions has sealed it there. -/
def arrives (s : State C) : Gateway.Event → Bool
  | .ip id packet => s.hubs.any fun hub =>
    hub.1 = id ∧ ⟨.device hub.2, .gateway, id, packet⟩ ∈ s.log
  | _ => true

/-- What the gateway sends on a session is sealed for the device of that session. -/
def sealedFor (hubs : List (SessionId × DeviceId)) : Output → Option Sealed
  | .send target packet true => (hubs.find? fun hub => hub.1 = target).map fun hub =>
    ⟨.gateway, .device hub.2, target, packet⟩
  | _ => none

def State.setNode (s : State C) (device : DeviceId) (node : Node C) : State C :=
  { s with nodes := Function.update s.nodes device node }

variable (cfg : Setting C)

def step (s : State C) : Event C → State C
  | .gateway e =>
    if arrives s e then
      { s with
        gateway := Gateway.step cfg.env s.gateway e
        hubs := hubMade cfg.env s.gateway e ++ s.hubs
        log := s.log ++ (outputs cfg.env s.gateway e).filterMap (sealedFor s.hubs) }
    else s
  | .agent device e =>
    let node := s.nodes device
    let made := sessionMade cfg.hkdf (cfg.identity device) cfg.parse node.agent e
    s.setNode device { node with
      agent := agentStep cfg.hkdf (cfg.identity device) cfg.parse node.agent e
      sessions := node.sessions ++ made.toList }
  | .route device change =>
    let node := s.nodes device
    s.setNode device { node with router := change.apply node.router }
  | .tun device packet order sent =>
    match forwardFromTun (s.nodes device).agent (s.nodes device).router order packet with
    | .error _ => s
    | .ok p =>
      if sent then
        { s with
          log := s.log ++ [⟨.device device, cfg.holder p.peerCertId, p.session.id, packet⟩] }
      else s
  | .ip device position packet =>
    match (s.nodes device).sessions[position]? with
    | none => s
    | some p =>
      if ⟨cfg.holder p.peerCertId, .device device, p.session.id, packet⟩ ∈ s.log then
        { s with tuns := s.tuns ++ [(device, packet)] }
      else s

/-- The packets that were written to the TUN of a device, with an overlay address of another device
as their source, were sealed by that other device, on its hub session or on a session with the one
that wrote it. -/
def Authentic (s : State C) : Prop :=
  ∀ w ∈ s.tuns, ∀ d, d ≠ w.1 → ∀ a ∈ cfg.overlay d, sourceOf w.2 = some a →
    ∃ x ∈ s.log, x.sender = .device d ∧ x.packet = w.2 ∧
      (x.receiver = .gateway ∨ x.receiver = .device w.1)

end

end Avon.Overlay
