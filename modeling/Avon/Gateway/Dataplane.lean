import Avon.Gateway.ControlLink

/-!
# Forwarding, and the gateway as a whole

`handle_ip` in two halves and the body of `tun_loop`. A list of `Event`s is an interleaving of the
data plane, the TUN and the control link. `Event.tunnel` stands for whatever the receive loop, the
timers and the control frames do to a session.
-/

set_option autoImplicit false

namespace Avon.Gateway

open Avon.Crypto Avon.Tunnel Avon.Policy

/-- What the gateway sends: a packet on a session, and whether `send_inner` succeeded, or a
packet to the TUN. -/
inductive Output where
  | send (target : SessionId) (packet : Bytes) (ok : Bool)
  | egress (packet : Bytes)
  deriving DecidableEq, Repr

/-- `send_inner` on a session of the table: the datagram is sealed, and the session has spent
a counter. A session that is gone drops the packet. -/
def relay (env : Env) (s : GatewayState) (target : SessionId) (packet : Bytes) (socketOk : Bool) :
    GatewayState × List Output :=
  match s.table.byId target with
  | none => (s, [])
  | some _ =>
    let (result, session) := Endpoint.sendInner env.aead socketOk (s.session target) (.ip packet)
    ({ s with session := Function.update s.session target session },
      [.send target packet result.isOk])

/-- The context of a packet that a session may send: the packet is well formed, the session
is known and owns the source address. -/
def contextOf (s : GatewayState) (id : SessionId) (packet : Bytes) : Option FlowContext :=
  match parseFlow id packet with
  | none => none
  | some flow =>
    match s.sessionsMeta.lookup id with
    | none => none
    | some m =>
      if !m.ownsSource flow.src then none
      else
        let destinationDevice := (s.routes.lookup flow.dst).bind fun target =>
          (s.sessionsMeta.lookup target).map (·.deviceId)
        some ⟨id, m.tenant, m.deviceId, destinationDevice, flow⟩

/-- The first half of `handle_ip`: everything up to the decision. -/
def receiveIp (s : GatewayState) (id : SessionId) (packet : Bytes) : GatewayState :=
  match contextOf s id packet with
  | none => s
  | some ctx =>
    let (decision, policy) := s.policy.allow ctx
    if !decision.allow then { s with policy }
    else { s with policy, pending := Function.update s.pending id (some ⟨ctx, packet⟩) }

/-- The second half of `handle_ip`: look the destination up again and forward. A route back
to the sender drops the packet. -/
def forwardIp (env : Env) (s : GatewayState) (id : SessionId) (socketOk : Bool) :
    GatewayState × List Output :=
  match s.pending id with
  | none => (s, [])
  | some p =>
    let s := { s with pending := Function.update s.pending id none }
    match s.routes.lookup p.ctx.flow.dst with
    | some target => if target ≠ id then relay env s target p.packet socketOk else (s, [])
    | none => (s, if s.isProtectedOrExternal p.ctx.flow.dst then [.egress p.packet] else [])

def ingress (env : Env) (s : GatewayState) (packet : Bytes) (socketOk : Bool) :
    GatewayState × List Output :=
  match parseFlow 0 packet with
  | none => (s, [])
  | some flow =>
    match s.routes.lookup flow.dst with
    | none => (s, [])
    | some target => relay env s target packet socketOk

/-! ### The gateway -/

inductive ControlEvent where
  | offer (offer : SessionOffer) (now : ℤ) (built : Option Session)
  | close (id : SessionId)
  | crl (verified : Option Crl)
  | routes (update : RouteUpdate)
  | policy (data : Option SnapshotData) (now : ℤ)
  | deviceUpdate (tenant : TenantId) (device : DeviceId) (attrs : DeviceAttrs) (now : ℤ)

inductive Event where
  /-- A packet has arrived on a session: the first half of `handle_ip`. -/
  | ip (id : SessionId) (packet : Bytes)
  | forward (id : SessionId) (socketOk : Bool)
  | tun (packet : Bytes) (socketOk : Bool)
  | tunnel (id : SessionId) (session : Session)
  | closed (id : SessionId)
  | control (e : ControlEvent)

def controlStep (env : Env) (s : GatewayState) : ControlEvent → GatewayState
  | .offer offer now built => (acceptOffer env s offer now built).2
  | .close id => s.closeSession id
  | .crl verified => applyCrl s verified
  | .routes update => applyRoutes env s update
  | .policy data now => applySnapshot env s data now
  | .deviceUpdate tenant device attrs now => applyDeviceUpdate env s tenant device attrs now

def handle (env : Env) (s : GatewayState) : Event → GatewayState × List Output
  | .ip id packet => (receiveIp s id packet, [])
  | .forward id socketOk => forwardIp env s id socketOk
  | .tun packet socketOk => ingress env s packet socketOk
  | .tunnel id session => (s.changeSession id session, [])
  | .closed id => (s.closeSession id, [])
  | .control e => (if s.blocked then s else controlStep env s e, [])

def step (env : Env) (s : GatewayState) (e : Event) : GatewayState := (handle env s e).1

def outputs (env : Env) (s : GatewayState) (e : Event) : List Output := (handle env s e).2

end Avon.Gateway
