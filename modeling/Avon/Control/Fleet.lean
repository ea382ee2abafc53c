import Avon.Control.PolicyPush
import Avon.Control.Sessions
import Avon.Gateway.ControlLink

/-!
# Policy and revocation state on its way to the gateways

Control and any number of gateways: registrations, refreshes, revocations and broadcasts. Each read
of the tables, each load of an engine, each write of the cached CRL and each send or receive on a
channel is one step. The gateways are numbered in the order in which a broadcast visits them. All
messages but snapshots and CRLs are `other`.
-/

set_option autoImplicit false

namespace Avon.Control

open Avon.Policy Avon.Gateway
open Function (update)

/-- The size of the channel of the response that `events` creates. -/
def STREAM_CAPACITY : ℕ := 256

inductive PushMessage where
  /-- A CRL as `Crl::verify` reads it, which both ends call with the same key. -/
  | crl (verified : Option Crl)
  | policy (data : SnapshotData)
  | other
  deriving DecidableEq, Repr

structure EventStream (n : ℕ) where
  gateway : Fin n
  down : List PushMessage
  held : Option PushMessage
  response : List PushMessage
  inbound : Bool

inductive PushCall (n : ℕ) where
  | refreshing (tenant : TenantId)
  | read (data : SnapshotData)
  | revoking
  | revoked (verified : Option Crl)
  | sending (msg : PushMessage) (rest : List (Fin n))
  deriving DecidableEq, Repr

inductive GatewayPhase where
  | stopped
  | idle
  /-- A call of `register` runs: in `fetch_chain` if `boot`, where the snapshots are not used.
  It has tenants to do, a snapshot in hand, and those for the answer. -/
  | registering (boot : Bool) (todo : List TenantId) (read : Option SnapshotData)
      (out : List SnapshotData)
  | configuring (todo : List PushMessage)
  | serving (stream : ℕ)
  deriving DecidableEq, Repr

structure Fleet (n : ℕ) where
  engines : Engines
  known : List TenantId
  crl : Crl
  registry : Fin n → Option ℕ
  streams : List (EventStream n)
  calls : ℕ → Option (PushCall n)
  phases : Fin n → GatewayPhase
  gateways : Fin n → GatewayState

inductive FleetEvent (n : ℕ) where
  | refreshTenant (call : ℕ) (tenant : TenantId)
  | readTenant (call : ℕ) (db : Option Db)
  | loadTenant (call : ℕ) (now : ℤ)
  | revokeDevice (call : ℕ)
  /-- The CA revokes a certificate of the device and answers with a CRL. -/
  | revokeSerial (call : ℕ) (verified : Option Crl)
  | storeCrl (call : ℕ)
  | callEnds (call : ℕ)
  | visit (call : ℕ)
  | sendOther (g : Fin n)
  | register (g : Fin n) (boot : Bool) (tenants : Option Db)
  | readForRegistration (g : Fin n) (db : Option Db)
  | loadForRegistration (g : Fin n) (now : ℤ)
  | answer (g : Fin n)
  | callFails (g : Fin n)
  | applyConfig (g : Fin n) (now : ℤ)
  | openEvents (g : Fin n)
  | hangUp (g : Fin n)
  | restart (g : Fin n)
  | inboundEnds (stream : ℕ)
  | takeDown (stream : ℕ)
  | forward (stream : ℕ)
  | receive (g : Fin n) (now : ℤ)

def receiveMessage (env : PushEnv) (s : GatewayState) (now : ℤ) : PushMessage → GatewayState
  | .crl verified => applyCrl s verified
  | .policy data => { s with policy := s.policy.applySnapshot env.tz data.tenantId data now }
  | .other => s

/-- Whether a call of `register` runs, which holds the lock on the chain for reading. -/
def GatewayPhase.readsChain : GatewayPhase → Bool
  | .registering .. => true
  | _ => false

namespace Fleet

variable {n : ℕ}

def init (n : ℕ) (crl : Crl) : Fleet n where
  engines _ := none
  known := []
  crl := crl
  registry _ := none
  streams := []
  calls _ := none
  phases _ := .stopped
  gateways _ := .bootstrap crl []

variable (env : PushEnv) (s : Fleet n) (call : ℕ) (g : Fin n)

def setCall (c : Option (PushCall n)) : Fleet n :=
  { s with calls := update s.calls call c }

def setPhase (phase : GatewayPhase) : Fleet n :=
  { s with phases := update s.phases g phase }

def setGateway (gateway : GatewayState) : Fleet n :=
  { s with gateways := update s.gateways g gateway }

def modifyStream (stream : ℕ) (f : EventStream n → EventStream n) : Fleet n :=
  { s with streams := s.streams.modify stream f }

def hasRoom (stream : ℕ) : Bool :=
  s.streams[stream]?.any fun st => st.down.length < DOWN_CAPACITY

/-- `try_send`: a message for a channel that is full is dropped. -/
def trySend (msg : PushMessage) : Fleet n :=
  match s.registry g with
  | some stream =>
    if s.hasRoom stream then s.modifyStream stream fun st => { st with down := st.down ++ [msg] }
    else s
  | none => s

def loadData (data : SnapshotData) (now : ℤ) : Fleet n :=
  { s with
    engines := (loadEngine env s.engines data.tenantId data now).1
    known := s.known.insert data.tenantId }

def loadOk (data : SnapshotData) (now : ℤ) : Bool :=
  (loadEngine env s.engines data.tenantId data now).2.isOk

/-! ### Control -/

def loadTenantStep (now : ℤ) : Fleet n :=
  match s.calls call with
  | some (.read data) =>
    (s.loadData env data now).setCall call
      (if s.loadOk env data now then some (.sending (.policy data) (List.finRange n)) else none)
  | _ => s

/-- The lock on the chain is taken for writing. A CRL that does not verify is not cached, and is
sent all the same. -/
def storeCrlStep : Fleet n :=
  match s.calls call with
  | some (.revoked verified) =>
    if ∃ g, (s.phases g).readsChain then s
    else { s with crl := verified.getD s.crl }.setCall call
      (some (.sending (.crl verified) (List.finRange n)))
  | _ => s

def visitStep : Fleet n :=
  match s.calls call with
  | some (.sending msg (g :: rest)) => (s.trySend g msg).setCall call (some (.sending msg rest))
  | some (.sending _ []) => s.setCall call none
  | _ => s

/-! ### A registration -/

/-- `unwrap_or_default`: after an error the answer has no snapshots. -/
def registrationFailed (boot : Bool) : GatewayPhase := .registering boot [] none []

def registerStep (boot : Bool) (tenants : Option Db) : Fleet n :=
  if s.phases g = (if boot then .stopped else .idle) then
    s.setPhase g (match tenants with
      | some db => .registering boot db.tenants none []
      | none => registrationFailed boot)
  else s

def readForRegistrationStep (db : Option Db) : Fleet n :=
  match s.phases g with
  | .registering boot (tenant :: todo) none out =>
    s.setPhase g (match db with
      | some db => .registering boot todo (some (loadSnapshot env.tz env.decode db tenant)) out
      | none => registrationFailed boot)
  | _ => s

def loadForRegistrationStep (now : ℤ) : Fleet n :=
  match s.phases g with
  | .registering boot todo (some data) out =>
    (s.loadData env data now).setPhase g
      (if s.loadOk env data now then .registering boot todo none (out ++ [data])
        else registrationFailed boot)
  | _ => s

/-- The answer has the cached CRL. `fetch_chain` takes only that. -/
def answerStep : Fleet n :=
  match s.phases g with
  | .registering true [] none _ =>
    (s.setGateway g (.bootstrap s.crl [])).setPhase g .idle
  | .registering false [] none out =>
    s.setPhase g (.configuring (.crl (some s.crl) :: out.map .policy))
  | _ => s

/-! ### A stream -/

def applyConfigStep (now : ℤ) : Fleet n :=
  match s.phases g with
  | .configuring (msg :: todo) =>
    (s.setGateway g (receiveMessage env (s.gateways g) now msg)).setPhase g (.configuring todo)
  | _ => s

/-- `events`: the handle of the new stream replaces the one of the gateway. -/
def openStream : Fleet n :=
  { s with
    streams := s.streams ++ [⟨g, [], none, [], true⟩]
    registry := update s.registry g (some s.streams.length)
    phases := update s.phases g (.serving s.streams.length) }

def openEventsStep : Fleet n :=
  match s.phases g with
  | .configuring [] => s.openStream g
  | _ => s

/-- `remove`: the handle of the gateway, whichever stream it belongs to. -/
def removeHandle : Fleet n :=
  { s with registry := update s.registry g none }

def inboundEndsStep (stream : ℕ) : Fleet n :=
  match s.streams[stream]? with
  | some st =>
    if st.inbound then
      (s.modifyStream stream fun st => { st with inbound := false }).removeHandle st.gateway
    else s
  | none => s

def takeDown (st : EventStream n) : EventStream n :=
  match st.held, st.down with
  | none, msg :: down => { st with held := some msg, down := down }
  | _, _ => st

def forward (st : EventStream n) : EventStream n :=
  match st.held with
  | some msg =>
    if st.response.length < STREAM_CAPACITY then
      { st with held := none, response := st.response ++ [msg] }
    else st
  | none => st

/-- The gateway handles the first message of a response. -/
def deliver (now : ℤ) (stream : ℕ) (msg : PushMessage) (response : List PushMessage) : Fleet n :=
  (s.setGateway g (receiveMessage env (s.gateways g) now msg)).modifyStream stream fun st =>
    { st with response := response }

def receiveStep (now : ℤ) : Fleet n :=
  match s.phases g with
  | .serving stream =>
    match s.streams[stream]?.map (·.response) with
    | some (msg :: response) => s.deliver env g now stream msg response
    | _ => s
  | _ => s

/-! ### The system -/

def step (env : PushEnv) (s : Fleet n) : FleetEvent n → Fleet n
  | .refreshTenant call tenant =>
    if s.calls call = none then s.setCall call (some (.refreshing tenant)) else s
  | .readTenant call db =>
    match s.calls call with
    | some (.refreshing tenant) =>
      s.setCall call (db.map fun db => .read (loadSnapshot env.tz env.decode db tenant))
    | _ => s
  | .loadTenant call now => s.loadTenantStep env call now
  | .revokeDevice call => if s.calls call = none then s.setCall call (some .revoking) else s
  | .revokeSerial call verified =>
    match s.calls call with
    | some .revoking | some (.revoked _) => s.setCall call (some (.revoked verified))
    | _ => s
  | .storeCrl call => s.storeCrlStep call
  | .callEnds call =>
    match s.calls call with
    | some (.refreshing _) | some .revoking | some (.revoked _) => s.setCall call none
    | _ => s
  | .visit call => s.visitStep call
  | .sendOther g => s.trySend g .other
  | .register g boot tenants => s.registerStep g boot tenants
  | .readForRegistration g db => s.readForRegistrationStep env g db
  | .loadForRegistration g now => s.loadForRegistrationStep env g now
  | .answer g => s.answerStep g
  | .callFails g =>
    match s.phases g with
    | .registering boot _ _ _ => s.setPhase g (if boot then .stopped else .idle)
    | .configuring _ => s.setPhase g .idle
    | _ => s
  | .applyConfig g now => s.applyConfigStep env g now
  | .openEvents g => s.openEventsStep g
  | .hangUp g =>
    match s.phases g with
    | .serving _ => s.setPhase g .idle
    | _ => s
  | .restart g => s.setPhase g .stopped
  | .inboundEnds stream => s.inboundEndsStep stream
  | .takeDown stream => s.modifyStream stream takeDown
  | .forward stream => s.modifyStream stream forward
  | .receive g now => s.receiveStep env g now

/-! ### Quiet states -/

/-- The stream of the gateway is open at both ends and nothing is on it, and no refresh and no
revocation runs. -/
def Quiet : Prop :=
  (∀ call, s.calls call = none) ∧ ∃ stream st, s.phases g = .serving stream ∧
    s.streams[stream]? = some st ∧ st.inbound = true ∧
    st.down = [] ∧ st.held = none ∧ st.response = []

/-- The gateway has control's CRL version, and for each of control's engines the version of its
snapshot. -/
def Consistent : Prop :=
  (s.gateways g).crl.version = s.crl.version ∧
  ∀ tenant engine, s.engines tenant = some engine →
    (s.gateways g).policy.version tenant = engine.version

end Fleet

end Avon.Control
