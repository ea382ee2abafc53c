import Avon.Gateway.State
import Avon.Proto

/-!
# What control tells the gateway

The message handlers of `control_link.rs`, one step each. The parsers, and the verification of a
certificate chain, are parameters. What `allocate_index` and `Responder::answer` make of an offer
comes with the offer.
-/

set_option autoImplicit false

namespace Avon.Gateway

open Avon.Crypto Avon.Tunnel Avon.Policy Avon.Proto

/-- The code that the handlers call and that is not modelled. -/
structure Env where
  certificate : Bytes → Option Certificate
  verify : Certificate → ℤ → Bool
  tenantId : String → Option TenantId
  ipNet : String → Option IpNet
  ipAddr : String → Option IpAddr
  tz : TzDb
  aead : AeadImpl

structure SessionOffer where
  sessionId : Bytes
  deviceCertificate : Option Bytes
  suite : ℤ
  initiatorIndex : UInt32
  overlayIpv4 : String
  overlayIpv6 : String
  advertisedRoutes : List String
  deriving DecidableEq, Repr

structure RouteUpdate where
  sessionId : Bytes
  cidrs : List String
  remove : Bool
  deriving DecidableEq, Repr

inductive OfferError where
  | sessionId
  | noCertificate
  | certificate
  | untrusted
  | revoked
  | suite
  | noInitiatorIndex
  | answer
  | tenant
  deriving DecidableEq, Repr

/-- `parse_net`: a network, or an address as a network of its own. -/
def parseNet (env : Env) (text : String) : Option IpNet :=
  if text = "" then none
  else match env.ipNet text with
    | some net => some net
    | none => (env.ipAddr text).map IpNet.host

def suiteOf (n : ℤ) : Option Suite :=
  if n = 1 then some .aes256Gcm else if n = 2 then some .chaCha20Poly1305 else none

/-- The metadata of a session, from the certificate and the offer. -/
def metaOf (env : Env) (offer : SessionOffer) (cert : Certificate) (tenant : TenantId) :
    SessionMeta where
  deviceId := cert.subjectId
  tenant := tenant
  serial := cert.serial
  overlayV4 := parseNet env offer.overlayIpv4
  overlayV6 := parseNet env offer.overlayIpv6
  advertised := offer.advertisedRoutes.filterMap env.ipNet

/-- The checks of `accept_offer` before a session is built. -/
def checkOffer (env : Env) (s : GatewayState) (offer : SessionOffer) (now : ℤ) :
    Except OfferError (SessionId × Certificate) :=
  match uuidOf offer.sessionId with
  | none => .error .sessionId
  | some id =>
    match offer.deviceCertificate with
    | none => .error .noCertificate
    | some bytes =>
      match env.certificate bytes with
      | none => .error .certificate
      | some cert =>
        if !env.verify cert now then .error .untrusted
        else if s.isRevoked cert.serial then .error .revoked
        else if suiteOf offer.suite = none then .error .suite
        else if offer.initiatorIndex = 0 then .error .noInitiatorIndex
        else .ok (id, cert)

def insertRoutes (t : RouteTable) (nets : List IpNet) (session : SessionId) : RouteTable :=
  nets.foldl (fun t net => t.insert net session) t

/-- `accept_offer`. The session is in the table before the tenant of the certificate is
parsed, so a tenant that does not parse leaves it there without metadata. -/
def acceptOffer (env : Env) (s : GatewayState) (offer : SessionOffer) (now : ℤ)
    (built : Option Session) : Except OfferError Unit × GatewayState :=
  match checkOffer env s offer now with
  | .error e => (.error e, s)
  | .ok (id, cert) =>
    match built with
    | none => (.error .answer, s)
    | some session =>
      let s := s.insertSession ⟨id, cert, session.current.localIndex⟩ session
      match env.tenantId cert.tenantId with
      | none => (.error .tenant, s)
      | some tenant =>
        let m := metaOf env offer cert tenant
        (.ok (), { s with
          routes := insertRoutes s.routes m.routes id
          sessionsMeta := s.sessionsMeta.insert id m })

/-- `apply_routes`. A removal does not look at the session. -/
def applyRoutes (env : Env) (s : GatewayState) (update : RouteUpdate) : GatewayState :=
  match uuidOf update.sessionId with
  | none => s
  | some session =>
    let nets := update.cidrs.filterMap env.ipNet
    if update.remove then { s with routes := nets.foldl RouteTable.remove s.routes }
    else { s with routes := insertRoutes s.routes nets session }

/-- `apply_crl`, for the result of `Crl::verify`. An older CRL is ignored; otherwise the
sessions whose certificate is revoked are closed. -/
def applyCrl (s : GatewayState) (verified : Option Crl) : GatewayState :=
  match verified with
  | none => s
  | some crl =>
    if crl.version < s.crl.version then s
    else
      let s := { s with crl }
      let revoked := s.sessionsMeta.entries.filter fun e => s.isRevoked e.2.serial
      revoked.foldl (fun s e => s.closeSession e.1) s

/-- `apply_snapshot`, for the result of `snapshot::decode`. -/
def applySnapshot (env : Env) (s : GatewayState) (data : Option SnapshotData) (now : ℤ) :
    GatewayState :=
  match data with
  | none => s
  | some data => { s with policy := s.policy.applySnapshot env.tz data.tenantId data now }

/-- `apply_device_update`, for an update that parses. If the device is no longer active its
sessions are closed in a loop over the metadata, and the first session that is in the table
removes an entry of the map that the loop holds a lock on: the task never gets further. -/
def applyDeviceUpdate (env : Env) (s : GatewayState) (tenant : TenantId) (device : DeviceId)
    (attrs : DeviceAttrs) (now : ℤ) : GatewayState :=
  let s := { s with policy := s.policy.patchDevice env.tz tenant device attrs now }
  if attrs.status = "active" then s
  else match s.sessionsMeta.entries.find? fun e =>
      e.2.deviceId = device && (s.table.byId e.1).isSome with
    | none => s
    | some e => { s.unroute e.1 with blocked := true }

end Avon.Gateway
