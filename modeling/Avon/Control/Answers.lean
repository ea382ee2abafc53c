import Avon.Control.Peer
import Avon.Control.Sessions

/-!
# Who answers an offer

The brokering calls with the tables of waiters between them. Each SQL statement, each access to a
table of waiters and each wait is one step; a call begins with its `INSERT`. The sender of an answer
is not in the code, and neither are the lists `opened`, `dialed` and `touched`.
-/

set_option autoImplicit false

namespace Avon.Control

open Avon.Crypto Avon.Proto Avon.Lib.BigEndian
open Function (update)

def sessionIdBytes (id : SessionId) : Bytes := beBytes 16 id.toNat

structure BrokeredRow where
  id : SessionId
  deviceId : DeviceId
  peerDeviceId : Option DeviceId
  gatewayId : Option GatewayId
  state : SessionState
  closeReason : Option String
  closedAt : Option ℤ
  bytesTx : Int64
  bytesRx : Int64
  deriving DecidableEq

structure SessionEvent where
  sessionId : Bytes
  event : String
  reason : String
  bytesTx : UInt64
  bytesRx : UInt64
  deriving DecidableEq

def BrokeredRow.recordEvent (row : BrokeredRow) (e : SessionEvent) (now : ℤ) : BrokeredRow :=
  { row with
    state :=
      if e.event = "closed" then .closed else if e.event = "active" then .active else row.state
    closeReason := if e.event = "closed" then some e.reason else row.closeReason
    closedAt := if e.event = "closed" then some now else row.closedAt
    bytesTx := e.bytesTx.toInt64
    bytesRx := e.bytesRx.toInt64 }

def BrokeredRow.close (row : BrokeredRow) (reason : String) (now : ℤ) : BrokeredRow :=
  { row with state := .closed, closeReason := some reason, closedAt := some now }

/-- `PendingAnswers` and its sibling for peers: the call that waits for a session id, and what was
put into the channel of a call, with its sender. -/
structure Waiters (σ α : Type) where
  table : Bytes → Option ℕ
  inbox : ℕ → Option (σ × α)

namespace Waiters

variable {σ α : Type}

def empty : Waiters σ α := ⟨fun _ => none, fun _ => none⟩

def register (w : Waiters σ α) (id : Bytes) (call : ℕ) : Waiters σ α :=
  { w with table := update w.table id (some call) }

/-- `resolve`. `listening` says whether the receiver of a call is still there. -/
def resolve (w : Waiters σ α) (listening : ℕ → Bool) (id : Bytes) (sender : σ) (answer : α) :
    Waiters σ α :=
  match w.table id with
  | none => w
  | some call =>
    { table := update w.table id none
      inbox := if listening call then update w.inbox call (some (sender, answer))
        else w.inbox }

def cancel (w : Waiters σ α) (id : Bytes) : Waiters σ α :=
  { w with table := update w.table id none }

end Waiters

inductive CallPhase (σ α : Type) where
  | stored
  | registered
  | offered
  | answered (sender : σ) (answer : α)
  | loaded (sender : σ) (answer : α)
  | activated (sender : σ) (answer : α)
  | failing (reason : String)
  | returned

def CallPhase.listening {σ α : Type} : CallPhase σ α → Bool
  | .registered => true
  | .offered => true
  | _ => false

/-- A call that has asked `asked`, a gateway or a device, for session `id`. -/
structure BrokerCall (σ α : Type) where
  asked : σ
  id : SessionId
  phase : CallPhase σ α

structure Exchange where
  rows : List BrokeredRow
  pendingAnswers : Waiters GatewayId SessionAnswer
  peerPending : Waiters DeviceId PeerAnswer
  opens : ℕ → Option (BrokerCall GatewayId SessionAnswer)
  dials : ℕ → Option (BrokerCall DeviceId PeerAnswer)
  answering : ℕ → Option (DeviceId × PeerAnswer)
  opened : List (BrokerCall GatewayId SessionAnswer × GatewayId × SessionAnswer)
  dialed : List (BrokerCall DeviceId PeerAnswer × DeviceId × SessionAnswer)
  touched : List (GatewayId × BrokeredRow)

inductive ExchangeEvent where
  | insertOpen (call : ℕ) (device : DeviceId) (gateway : GatewayId) (id : SessionId) (ok : Bool)
  | registerOpen (call : ℕ)
  | sendOffer (call : ℕ) (ok : Bool)
  | receiveAnswer (call : ℕ)
  | offerTimeout (call : ℕ)
  | activateOpen (call : ℕ) (ok : Bool)
  | gatewayCertificate (call : ℕ) (ok : Bool)
  | insertDial (call : ℕ) (device target : DeviceId) (id : SessionId) (ok : Bool)
  | registerDial (call : ℕ)
  | pushOffer (call : ℕ) (pushed : Bool)
  | receivePeerAnswer (call : ℕ)
  | peerTimeout (call : ℕ)
  | loadResponder (call : ℕ) (ok : Bool)
  | activateDial (call : ℕ) (ok : Bool)
  | closeOpen (call : ℕ) (now : ℤ) (ok : Bool)
  | closeDial (call : ℕ) (now : ℤ) (ok : Bool)
  /-- The client of a call goes away, or a step that is not modelled fails. -/
  | abandonOpen (call : ℕ)
  | abandonDial (call : ℕ)
  | sessionAnswer (gateway : GatewayId) (answer : SessionAnswer)
  | sessionEvent (gateway : GatewayId) (e : SessionEvent) (now : ℤ) (ok : Bool)
  | checkAnswer (call : ℕ) (device : DeviceId) (answer : PeerAnswer) (ok : Bool)
  | resolveAnswer (call : ℕ)
  | closeRows (ids : List SessionId) (reason : String) (now : ℤ)

namespace Exchange

def init : Exchange where
  rows := []
  pendingAnswers := .empty
  peerPending := .empty
  opens _ := none
  dials _ := none
  answering _ := none
  opened := []
  dialed := []
  touched := []

/-! ### Statements -/

variable (s : Exchange) (call : ℕ)

def insertRow (row : BrokeredRow) : Option Exchange :=
  if s.rows.any (fun r => r.id = row.id) then none else some { s with rows := s.rows ++ [row] }

def updateRows (where' : BrokeredRow → Bool) (f : BrokeredRow → BrokeredRow) : Exchange :=
  { s with rows := s.rows.map fun row => if where' row then f row else row }

def activateRow (id : SessionId) : Exchange :=
  s.updateRows (fun row => row.id = id) fun row => { row with state := .active }

def gatewayRow (device : DeviceId) (gateway : GatewayId) (id : SessionId) : BrokeredRow :=
  ⟨id, device, none, some gateway, .offered, none, none, 0, 0⟩

def peerRow (device target : DeviceId) (id : SessionId) : BrokeredRow :=
  ⟨id, device, some target, none, .offered, none, none, 0, 0⟩

/-! ### Calls -/

def setOpen (c : BrokerCall GatewayId SessionAnswer) : Exchange :=
  { s with opens := update s.opens call (some c) }

def setDial (c : BrokerCall DeviceId PeerAnswer) : Exchange :=
  { s with dials := update s.dials call (some c) }

def listensOpen : Bool := (s.opens call).any fun c => c.phase.listening

def listensDial : Bool := (s.dials call).any fun c => c.phase.listening

def insertOpenStep (device : DeviceId) (gateway : GatewayId) (id : SessionId) (ok : Bool) :
    Exchange :=
  match s.opens call, if ok then s.insertRow (gatewayRow device gateway id) else none with
  | none, some s' => s'.setOpen call ⟨gateway, id, .stored⟩
  | _, _ => s

def registerOpenStep : Exchange :=
  match s.opens call with
  | some ⟨g, id, .stored⟩ =>
    { s.setOpen call ⟨g, id, .registered⟩ with
      pendingAnswers := s.pendingAnswers.register (sessionIdBytes id) call }
  | _ => s

/-- The offer is sent. If the stream is closed, the call returns and its waiter stays. -/
def sendOfferStep (ok : Bool) : Exchange :=
  match s.opens call with
  | some ⟨g, id, .registered⟩ => s.setOpen call ⟨g, id, if ok then .offered else .returned⟩
  | _ => s

def receiveAnswerStep : Exchange :=
  match s.opens call, s.pendingAnswers.inbox call with
  | some ⟨g, id, .offered⟩, some (sender, answer) => s.setOpen call ⟨g, id, .answered sender answer⟩
  | _, _ => s

def offerTimeoutStep : Exchange :=
  match s.opens call with
  | some ⟨g, id, .offered⟩ =>
    { s.setOpen call ⟨g, id, .failing "offer timeout"⟩ with
      pendingAnswers := s.pendingAnswers.cancel (sessionIdBytes id) }
  | _ => s

def activateOpenStep (ok : Bool) : Exchange :=
  match s.opens call with
  | some ⟨g, id, .answered sender answer⟩ =>
    if ok then (s.activateRow id).setOpen call ⟨g, id, .activated sender answer⟩
    else s.setOpen call ⟨g, id, .returned⟩
  | _ => s

/-- The last query of `open_session`; then it returns the answer. -/
def gatewayCertificateStep (ok : Bool) : Exchange :=
  match s.opens call with
  | some ⟨g, id, .activated sender answer⟩ =>
    let s' := s.setOpen call ⟨g, id, .returned⟩
    if ok then { s' with opened := (⟨g, id, .returned⟩, sender, answer) :: s.opened } else s'
  | _ => s

def insertDialStep (device target : DeviceId) (id : SessionId) (ok : Bool) : Exchange :=
  match s.dials call,
    if ok && target ≠ device then s.insertRow (peerRow device target id) else none with
  | none, some s' => s'.setDial call ⟨target, id, .stored⟩
  | _, _ => s

def registerDialStep : Exchange :=
  match s.dials call with
  | some ⟨target, id, .stored⟩ =>
    { s.setDial call ⟨target, id, .registered⟩ with
      peerPending := s.peerPending.register (sessionIdBytes id) call }
  | _ => s

def pushOfferStep (pushed : Bool) : Exchange :=
  match s.dials call with
  | some ⟨target, id, .registered⟩ =>
    if pushed then s.setDial call ⟨target, id, .offered⟩
    else { s.setDial call ⟨target, id, .failing "peer offline"⟩ with
      peerPending := s.peerPending.cancel (sessionIdBytes id) }
  | _ => s

/-- The answer is received. One for another session id or without an answer in it ends the call. -/
def receivePeerAnswerStep : Exchange :=
  match s.dials call, s.peerPending.inbox call with
  | some ⟨target, id, .offered⟩, some (sender, answer) =>
    s.setDial call ⟨target, id,
      if answer.sessionId = sessionIdBytes id ∧ answer.answer.isSome then .answered sender answer
      else .returned⟩
  | _, _ => s

def peerTimeoutStep : Exchange :=
  match s.dials call with
  | some ⟨target, id, .offered⟩ =>
    { s.setDial call ⟨target, id, .failing "offer timeout"⟩ with
      peerPending := s.peerPending.cancel (sessionIdBytes id) }
  | _ => s

def loadResponderStep (ok : Bool) : Exchange :=
  match s.dials call with
  | some ⟨target, id, .answered sender answer⟩ =>
    s.setDial call ⟨target, id, if ok then .loaded sender answer else .returned⟩
  | _ => s

/-- The last statement of `request_peer_session`; then it returns the answer. -/
def activateDialStep (ok : Bool) : Exchange :=
  match s.dials call with
  | some ⟨target, id, .loaded sender answer⟩ =>
    let s' := s.setDial call ⟨target, id, .returned⟩
    match answer.answer, ok with
    | some a, true =>
      { s'.activateRow id with dialed := (⟨target, id, .returned⟩, sender, a) :: s.dialed }
    | _, _ => s'
  | _ => s

def closeOpenStep (now : ℤ) (ok : Bool) : Exchange :=
  match s.opens call with
  | some ⟨g, id, .failing reason⟩ =>
    (if ok then s.updateRows (fun row => row.id = id) (·.close reason now) else s).setOpen call
      ⟨g, id, .returned⟩
  | _ => s

def closeDialStep (now : ℤ) (ok : Bool) : Exchange :=
  match s.dials call with
  | some ⟨target, id, .failing reason⟩ =>
    (if ok then s.updateRows (fun row => row.id = id) (·.close reason now) else s).setDial call
      ⟨target, id, .returned⟩
  | _ => s

/-! ### What comes in -/

/-- A `SessionAnswer` on the stream of a gateway: it is resolved by its session id alone. -/
def sessionAnswerStep (gateway : GatewayId) (answer : SessionAnswer) : Exchange :=
  { s with pendingAnswers :=
      s.pendingAnswers.resolve s.listensOpen answer.sessionId gateway answer }

/-- `record_session_event`: the gateway is not looked at. -/
def sessionEventStep (gateway : GatewayId) (e : SessionEvent) (now : ℤ) (ok : Bool) : Exchange :=
  if ok then
    let hit : BrokeredRow → Bool := fun row => sessionIdBytes row.id = e.sessionId
    { s.updateRows hit (·.recordEvent e now) with
      touched :=
        (s.rows.filter fun row => hit row && row.recordEvent e now ≠ row).map (gateway, ·) ++
          s.touched }
  else s

/-- The checks of `answer_peer_session`. The caller may be either end. -/
def mayAnswer (row : BrokeredRow) (device : DeviceId) : Bool :=
  (row.peerDeviceId = some device || row.deviceId = device) && row.state = .offered

/-- A row without a peer does not decode, so the query fails. -/
def checkAnswerStep (device : DeviceId) (answer : PeerAnswer) (ok : Bool) : Exchange :=
  match s.answering call, s.rows.find? fun row => sessionIdBytes row.id = answer.sessionId with
  | none, some row =>
    if ok && !answer.sessionId.isEmpty && row.peerDeviceId.isSome && mayAnswer row device then
      { s with answering := update s.answering call (some (device, answer)) }
    else s
  | _, _ => s

def resolveAnswerStep : Exchange :=
  match s.answering call with
  | some (device, answer) =>
    { s with
      answering := update s.answering call none
      peerPending := s.peerPending.resolve s.listensDial answer.sessionId device answer }
  | none => s

def step (s : Exchange) : ExchangeEvent → Exchange
  | .insertOpen call device gateway id ok => s.insertOpenStep call device gateway id ok
  | .registerOpen call => s.registerOpenStep call
  | .sendOffer call ok => s.sendOfferStep call ok
  | .receiveAnswer call => s.receiveAnswerStep call
  | .offerTimeout call => s.offerTimeoutStep call
  | .activateOpen call ok => s.activateOpenStep call ok
  | .gatewayCertificate call ok => s.gatewayCertificateStep call ok
  | .insertDial call device target id ok => s.insertDialStep call device target id ok
  | .registerDial call => s.registerDialStep call
  | .pushOffer call pushed => s.pushOfferStep call pushed
  | .receivePeerAnswer call => s.receivePeerAnswerStep call
  | .peerTimeout call => s.peerTimeoutStep call
  | .loadResponder call ok => s.loadResponderStep call ok
  | .activateDial call ok => s.activateDialStep call ok
  | .closeOpen call now ok => s.closeOpenStep call now ok
  | .closeDial call now ok => s.closeDialStep call now ok
  | .abandonOpen call =>
    match s.opens call with
    | some c => s.setOpen call { c with phase := .returned }
    | none => s
  | .abandonDial call =>
    match s.dials call with
    | some c => s.setDial call { c with phase := .returned }
    | none => s
  | .sessionAnswer gateway answer => s.sessionAnswerStep gateway answer
  | .sessionEvent gateway e now ok => s.sessionEventStep gateway e now ok
  | .checkAnswer call device answer ok => s.checkAnswerStep call device answer ok
  | .resolveAnswer call => s.resolveAnswerStep call
  | .closeRows ids reason now => s.updateRows (fun row => ids.contains row.id) (·.close reason now)

end Exchange

end Avon.Control
