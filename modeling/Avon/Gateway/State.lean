import Avon.Gateway.FlowPolicy
import Avon.Tunnel.Endpoint
import Avon.Tunnel.Routes
import Avon.Tunnel.Table
import Mathlib.Data.List.AList

/-!
# What the control link and the data plane share

The session table leads to sessions from their ids and from their indexes; the metadata are a map of
their own. `pending` holds the packets that `handle_ip` has let through and not yet forwarded.
`blocked` says that the control link hangs in a lock it holds itself.

A session that an offer has put out of its place in `by_id` keeps its indexes, so the table is about
`Handle`s, and only the states of the sessions that have their ids are kept (`session`). What
arrives on an index is an event of the data plane with the session id (`Dataplane`), whichever of
the sessions with that id it came on.
-/

set_option autoImplicit false

namespace Avon.Gateway

open Avon.Crypto Avon.Tunnel

abbrev Serial := BitVec 128

/-- `IpNet::new`: an error if the length is too large for the address. -/
def ipNetNew (addr : IpAddr) (len : ℕ) : Option IpNet :=
  if h : len ≤ addr.width then some ⟨addr, len, h⟩ else none

/-- What the gateway remembers about a session beyond its keys. -/
structure SessionMeta where
  deviceId : DeviceId
  tenant : TenantId
  serial : Serial
  overlayV4 : Option IpNet
  overlayV6 : Option IpNet
  advertised : List IpNet
  deriving DecidableEq, Repr

namespace SessionMeta

/-- A session may only send from its own overlay addresses or from networks it advertises. -/
def ownsSource (m : SessionMeta) (src : IpAddr) : Bool :=
  m.overlayV4.map (·.addr) = some src || m.overlayV6.map (·.addr) = some src ||
    m.advertised.any fun n => n.contains src

/-- The routes that reach this session: its addresses as hosts, and what it advertises. -/
def routes (m : SessionMeta) : List IpNet :=
  (m.overlayV4.bind fun n => ipNetNew n.addr 32).toList ++
    (m.overlayV6.bind fun n => ipNetNew n.addr 128).toList ++ m.advertised

end SessionMeta

structure Crl where
  version : UInt64
  serials : List Serial
  deriving DecidableEq, Repr

/-- The fields of a device certificate that the gateway reads. -/
structure Certificate where
  subjectId : Uuid
  tenantId : String
  serial : Serial
  deriving DecidableEq, Repr

/-- What tells the sessions of the table apart: the id, the certificate of the offer, and the index
that was allocated for it. -/
structure Handle where
  id : SessionId
  cert : Certificate
  index : UInt32
  deriving DecidableEq, Repr

structure Pending where
  ctx : FlowContext
  packet : Bytes
  deriving DecidableEq, Repr

structure GatewayState where
  table : SessionTable Handle
  /-- The session that has the id, if the table has one. -/
  session : SessionId → Session
  routes : RouteTable
  policy : CedarFlowPolicy
  crl : Crl
  sessionsMeta : AList fun _ : SessionId => SessionMeta
  overlayPrefixes : List IpNet
  pending : SessionId → Option Pending
  blocked : Bool

namespace GatewayState

/-- The state that `bootstrap` makes: the CRL comes from the first registration. -/
def bootstrap (crl : Crl) (overlayPrefixes : List IpNet) : GatewayState where
  table := .empty
  session id := .new id .responder .aes256Gcm ⟨0, 0, 0, 0⟩ 0 0 none 0
  routes := .empty
  policy := .empty
  crl := crl
  sessionsMeta := ∅
  overlayPrefixes := overlayPrefixes
  pending _ := none
  blocked := false

variable (s : GatewayState)

def isRevoked (serial : Serial) : Bool := s.crl.serials.contains serial

/-- Anything that is not inside the overlay goes to the TUN. -/
def isProtectedOrExternal (dst : IpAddr) : Bool :=
  !s.overlayPrefixes.any fun n => n.contains dst

/-- `SessionTable::insert` of a new session. -/
def insertSession (h : Handle) (session : Session) : GatewayState :=
  { s with
    table := s.table.insert Handle.id (fun _ => session.indexes) h
    session := Function.update s.session h.id session }

/-- A session of the table changes, and with it the indexes that lead to it. -/
def changeSession (id : SessionId) (session : Session) : GatewayState :=
  match s.table.byId id with
  | none => s
  | some h =>
    let free := (s.session id).indexes.foldl (fun m i => Function.update m i none) s.table.byIndex
    { s with
      table := { s.table with
        byIndex := session.indexes.foldl (fun m i => Function.update m i (some h)) free }
      session := Function.update s.session id session }

/-- `SessionTable::remove`, with the indexes that the session has now. -/
def leaveTable (id : SessionId) : GatewayState :=
  { s with table := s.table.remove (fun _ => (s.session id).indexes) id }

/-- The part of `close_session` before the metadata is touched: the session leaves the table
and the routes. -/
def unroute (id : SessionId) : GatewayState :=
  { s.leaveTable id with routes := s.routes.removeSession id }

/-- `close_session`, without the mirror and the report to control. A session that is not in
the table is left alone. -/
def closeSession (id : SessionId) : GatewayState :=
  match s.table.byId id with
  | none => s
  | some _ => { s.unroute id with sessionsMeta := s.sessionsMeta.erase id }

end GatewayState

end Avon.Gateway
