import Avon.Common
import Avon.Lib.Run

/-!
# The life of a row of `sessions`

All that writes the table `sessions`. Each SQL statement, each send on a queue and each wait is one
step; a statement may fail, and a call may end at any wait. A gateway's messages go through a
channel that its stream opened. `sent` and `cut` are not in the code: what was put into the channels
of a gateway, and that a suspension has returned with no activation since.
-/

set_option autoImplicit false

namespace Avon.Control

open Function (update)

inductive DeviceStatus where
  | pending
  | active
  | suspended
  | revoked
  deriving DecidableEq, Repr

inductive SessionState where
  | offered
  | active
  | closed
  deriving DecidableEq, Repr

structure SessionRow where
  id : SessionId
  deviceId : DeviceId
  peerDeviceId : Option DeviceId
  gatewayId : Option GatewayId
  state : SessionState
  deriving DecidableEq, Repr

def SessionRow.Involves (row : SessionRow) (device : DeviceId) : Prop :=
  row.deviceId = device ∨ row.peerDeviceId = some device

instance (row : SessionRow) (device : DeviceId) : Decidable (row.Involves device) :=
  inferInstanceAs (Decidable (_ ∨ _))

inductive GatewayDown where
  | sessionOffer (id : SessionId)
  | close (id : SessionId)
  | other
  deriving DecidableEq, Repr

structure DownChannel where
  gateway : GatewayId
  queue : List GatewayDown
  isOpen : Bool

def DOWN_CAPACITY : ℕ := 256

inductive OfferTo where
  | gateway (id : GatewayId) (channel : ℕ)
  | peer (target : DeviceId)
  deriving DecidableEq, Repr

inductive Brokering where
  | opening (device : DeviceId)
  | dialing (device target : DeviceId)
  | admitted (device : DeviceId) (dest : OfferTo) (id : SessionId)
  | stored (dest : OfferTo) (id : SessionId)
  | waiting (dest : OfferTo) (id : SessionId)
  | answered (target : DeviceId) (id : SessionId)
  | ready (id : SessionId)
  | failed (id : SessionId)
  deriving DecidableEq, Repr

/-- How far a call of `suspend_device` or `revoke_device` is. `holds` is not in the code: the
call is a suspension, and its device has not been activated since. -/
inductive Closing where
  | marked (device : DeviceId) (holds : Bool)
  /-- The rows are closed, and the gateways of some are still to be told. -/
  | telling (device : DeviceId) (holds : Bool) (todo : List (SessionId × Option GatewayId))
  deriving DecidableEq, Repr

def Closing.lapse (device : DeviceId) : Closing → Closing
  | .marked d holds => .marked d (holds && d ≠ device)
  | .telling d holds todo => .telling d (holds && d ≠ device) todo

structure Broker where
  devices : DeviceId → Option DeviceStatus
  sessions : List SessionRow
  registry : GatewayId → Option ℕ
  channels : List DownChannel
  brokerings : ℕ → Option Brokering
  closings : ℕ → Option Closing
  sent : GatewayId → List GatewayDown
  cut : DeviceId → Bool

namespace Broker

/-- A control plane that has just started, with some devices. -/
def init (devices : DeviceId → Option DeviceStatus) : Broker where
  devices := devices
  sessions := []
  registry := fun _ => none
  channels := []
  brokerings := fun _ => none
  closings := fun _ => none
  sent := fun _ => []
  cut := fun _ => false

/-! ### Statements -/

variable (s : Broker) (call : ℕ)

def setStatus (device : DeviceId) (status : DeviceStatus) : Broker :=
  { s with devices := update s.devices device ((s.devices device).map fun _ => status) }

def setState (state : SessionState) (where' : SessionRow → Bool) : Broker :=
  { s with sessions := s.sessions.map fun row =>
      if where' row then { row with state := state } else row }

/-- `INSERT INTO sessions … 'offered'`, which the primary key may refuse. -/
def insertRow (row : SessionRow) : Option Broker :=
  if s.sessions.any (fun r => r.id = row.id) then none
  else some { s with sessions := s.sessions ++ [row] }

def rowFor (device : DeviceId) (dest : OfferTo) (id : SessionId) : SessionRow :=
  match dest with
  | .gateway g _ => ⟨id, device, none, some g, .offered⟩
  | .peer target => ⟨id, device, some target, none, .offered⟩

/-! ### Channels -/

def hasRoom (channel : ℕ) : Bool :=
  s.channels[channel]?.any fun c => c.isOpen && c.queue.length < DOWN_CAPACITY

def push (gateway : GatewayId) (channel : ℕ) (msg : GatewayDown) : Broker :=
  { s with
    channels := s.channels.modify channel fun c => { c with queue := c.queue ++ [msg] }
    sent := update s.sent gateway (s.sent gateway ++ [msg]) }

/-- `try_send`: a message for a channel that is full or closed is dropped. -/
def trySend (gateway : GatewayId) (msg : GatewayDown) : Broker :=
  match s.registry gateway with
  | some channel => if s.hasRoom channel then s.push gateway channel msg else s
  | none => s

/-! ### Calls -/

def setBrokering (b : Option Brokering) : Broker :=
  { s with brokerings := update s.brokerings call b }

def setClosing (c : Option Closing) : Broker :=
  { s with closings := update s.closings call c }

end Broker

inductive SessionEventKind where
  | active
  | closed
  | other
  deriving DecidableEq, Repr

/-- One step. `call` names the call that takes it, and `ok` says that a statement succeeds. -/
inductive BrokerEvent where
  | openSession (call : ℕ) (device : DeviceId)
  | pickGateway (call : ℕ) (gateway : GatewayId) (id : SessionId)
  | requestPeer (call : ℕ) (device target : DeviceId)
  | checkInitiator (call : ℕ) (id : SessionId)
  | insertSession (call : ℕ) (ok : Bool)
  | sendOffer (call : ℕ)
  | pushOffer (call : ℕ) (pushed : Bool)
  | answer (call : ℕ)
  | timeout (call : ℕ)
  | loadResponder (call : ℕ)
  | activate (call : ℕ) (ok : Bool)
  | closeFailed (call : ℕ) (ok : Bool)
  | abandon (call : ℕ)
  | reportClosed (device : DeviceId) (id : SessionId) (ok : Bool)
  | sessionEvent (id : SessionId) (kind : SessionEventKind) (ok : Bool)
  | suspendDevice (call : ℕ) (device : DeviceId) (ok : Bool)
  | revokeDevice (call : ℕ) (device : DeviceId) (ok : Bool)
  | closingFails (call : ℕ)
  | closeSessions (call : ℕ) (ok : Bool)
  | tellGateway (call : ℕ)
  | closingReturns (call : ℕ)
  | reactivate (device : DeviceId)
  | openStream (gateway : GatewayId)
  | streamEnds (gateway : GatewayId)
  | closeChannel (channel : ℕ)
  | takeMessage (channel : ℕ)
  | broadcast (gateway : GatewayId)
  deriving DecidableEq, Repr

namespace Broker

variable (s : Broker) (call : ℕ)

def insertStep (ok : Bool) : Broker :=
  match s.brokerings call with
  | some (.admitted device dest id) =>
    match if ok then s.insertRow (rowFor device dest id) else none with
    | some s' => s'.setBrokering call (some (.stored dest id))
    | none => s.setBrokering call none
  | _ => s

/-- `gateway.tx.send`: it waits for room, and fails if the channel is closed. -/
def sendOfferStep : Broker :=
  match s.brokerings call with
  | some (.stored (.gateway g channel) id) =>
    if s.hasRoom channel then
      (s.push g channel (.sessionOffer id)).setBrokering call
        (some (.waiting (.gateway g channel) id))
    else if s.channels[channel]?.any (·.isOpen) then s
    else s.setBrokering call none
  | _ => s

/-- `UPDATE sessions SET state = 'closed' … WHERE device_id = $1 AND state <> 'closed'
RETURNING id, gateway_id`. A statement that fails returns no rows. -/
def closeSessionsStep (ok : Bool) : Broker :=
  match s.closings call with
  | some (.marked device holds) =>
    if ok then
      let hit : SessionRow → Bool := fun row => row.deviceId = device && row.state ≠ .closed
      (s.setState .closed hit).setClosing call
        (some (.telling device holds ((s.sessions.filter hit).map fun row =>
          (row.id, row.gatewayId))))
    else s.setClosing call (some (.telling device holds []))
  | _ => s

def tellGatewayStep : Broker :=
  match s.closings call with
  | some (.telling device holds ((id, gateway) :: todo)) =>
    (match gateway with
      | some g => s.trySend g (.close id)
      | none => s).setClosing call (some (.telling device holds todo))
  | _ => s

def closingReturnsStep : Broker :=
  match s.closings call with
  | some (.telling device holds []) =>
    { s.setClosing call none with
      cut := if holds then update s.cut device true else s.cut }
  | _ => s

def step (s : Broker) : BrokerEvent → Broker
  | .openSession call device =>
    if s.brokerings call = none ∧ s.devices device = some .active then
      s.setBrokering call (some (.opening device))
    else s
  | .pickGateway call gateway id =>
    match s.brokerings call, s.registry gateway with
    | some (.opening device), some channel =>
      s.setBrokering call (some (.admitted device (.gateway gateway channel) id))
    | _, _ => s
  | .requestPeer call device target =>
    if s.brokerings call = none ∧ s.devices target = some .active then
      s.setBrokering call (some (.dialing device target))
    else s
  | .checkInitiator call id =>
    match s.brokerings call with
    | some (.dialing device target) =>
      if s.devices device = some .active then
        s.setBrokering call (some (.admitted device (.peer target) id))
      else s.setBrokering call none
    | _ => s
  | .insertSession call ok => s.insertStep call ok
  | .sendOffer call => s.sendOfferStep call
  | .pushOffer call pushed =>
    match s.brokerings call with
    | some (.stored (.peer target) id) =>
      s.setBrokering call
        (some (if pushed then .waiting (.peer target) id else .failed id))
    | _ => s
  | .answer call =>
    match s.brokerings call with
    | some (.waiting (.gateway _ _) id) => s.setBrokering call (some (.ready id))
    | some (.waiting (.peer target) id) => s.setBrokering call (some (.answered target id))
    | _ => s
  | .timeout call =>
    match s.brokerings call with
    | some (.waiting _ id) => s.setBrokering call (some (.failed id))
    | _ => s
  | .loadResponder call =>
    match s.brokerings call with
    | some (.answered target id) =>
      s.setBrokering call (if s.devices target = some .active then some (.ready id) else none)
    | _ => s
  | .activate call ok =>
    match s.brokerings call with
    | some (.ready id) =>
      (if ok then s.setState .active fun row => row.id = id else s).setBrokering call none
    | _ => s
  | .closeFailed call ok =>
    match s.brokerings call with
    | some (.failed id) =>
      (if ok then s.setState .closed fun row => row.id = id else s).setBrokering call none
    | _ => s
  | .abandon call => s.setBrokering call none
  | .reportClosed device id ok =>
    if ok then s.setState .closed fun row => row.id = id && row.deviceId = device else s
  | .sessionEvent id kind ok =>
    match kind, ok with
    | .active, true => s.setState .active fun row => row.id = id
    | .closed, true => s.setState .closed fun row => row.id = id
    | _, _ => s
  | .suspendDevice call device ok =>
    if s.closings call = none ∧ ok then
      (s.setStatus device .suspended).setClosing call (some (.marked device true))
    else s
  | .revokeDevice call device ok =>
    if s.closings call = none ∧ ok then
      (s.setStatus device .revoked).setClosing call (some (.marked device false))
    else s
  | .closingFails call =>
    match s.closings call with
    | some (.marked _ _) => s.setClosing call none
    | _ => s
  | .closeSessions call ok => s.closeSessionsStep call ok
  | .tellGateway call => s.tellGatewayStep call
  | .closingReturns call => s.closingReturnsStep call
  | .reactivate device =>
    { s.setStatus device .active with
      cut := update s.cut device false
      closings := fun call => (s.closings call).map (Closing.lapse device) }
  | .openStream gateway =>
    { s with
      channels := s.channels ++ [⟨gateway, [], true⟩]
      registry := update s.registry gateway (some s.channels.length) }
  | .streamEnds gateway => { s with registry := update s.registry gateway none }
  | .closeChannel channel =>
    { s with channels := s.channels.modify channel fun c => { c with isOpen := false } }
  | .takeMessage channel =>
    { s with channels := s.channels.modify channel fun c => { c with queue := c.queue.tail } }
  | .broadcast gateway => s.trySend gateway .other

end Broker

end Avon.Control
