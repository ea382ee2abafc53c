import Avon.Net
import Avon.Tunnel.Establish
import Avon.Tunnel.Session

/-!
# How an agent gets its sessions

`dial_peer`, `handle_offer` and `open_hub_session`, with everything that takes sessions away again.
What the control plane answers and offers is an argument. A call that waits for control is two
steps.
-/

set_option autoImplicit false

namespace Avon.Agent

open Avon.Crypto Avon.Proto Avon.Tunnel

inductive AgentError where
  | control (what : String)
  | reauthenticate
  | tunnel (e : TunnelError)
  | protocol (what : String)
  | endpoint (what : String)
  deriving DecidableEq, Repr

structure Identity (C : HybridImpl) where
  certificate : Certificate
  verifier : ChainVerifier C
  issuing : Certificate

/-- What the key provider does during one call. An error is its text. -/
structure Provider where
  decapsulate : Bytes → Except String Key
  sign : Domain → Bytes → Except String Bytes

structure PeerSessionResponse where
  sessionId : Bytes
  answer : Option SessionAnswer
  responderCertificate : Option Bytes
  overlayIpv4 : String

structure PeerOffer where
  sessionId : Bytes
  initiatorCertificate : Option Bytes
  ephKemPk : Bytes
  suite : ℤ
  overlayIpv4 : String
  initiatorIndex : UInt32

structure OpenSessionResponse where
  sessionId : Bytes
  answer : Option SessionAnswer
  gatewayCertificate : Option Bytes

/-- A session and the certificate id that it was created with. -/
structure PeerSession where
  session : Session
  peerCertId : Key

inductive PeerState where
  | probing
  | direct
  deriving DecidableEq, Repr

structure PeerEntry where
  session : PeerSession
  peerDevice : DeviceId
  overlayV4 : IpNet
  state : PeerState

structure Dial (C : HybridImpl) where
  target : DeviceId
  pending : PendingOffer C
  initiatorIndex : UInt32

structure HubOpen (C : HybridImpl) where
  pending : PendingOffer C
  initiatorIndex : UInt32

structure AgentState (C : HybridImpl) where
  peers : DeviceId → Option PeerEntry
  hub : Option PeerSession
  table : SessionId → Option PeerSession
  dials : List (Dial C)
  hubOpens : List (HubOpen C)

def AgentState.init (C : HybridImpl) : AgentState C :=
  ⟨fun _ => none, none, fun _ => none, [], []⟩

section
variable {C : HybridImpl} (H : Hkdf) (identity : Identity C)

def offeredSuites : List Suite := [.aes256Gcm, .chaCha20Poly1305]

def required {α : Type} (what : String) : Option α → Except AgentError α
  | some a => .ok a
  | none => .error (.protocol what)

def sessionIdFromSlice (bytes : Bytes) : Except AgentError SessionId :=
  required ("invalid session id length " ++ toString bytes.length) (uuidOf bytes)

def decodeCertificate (bytes : Bytes) : Except AgentError Certificate :=
  (Certificate.decode C bytes).mapError fun e => .protocol e.text

/-- The chain to the pinned root, with a text that says whose certificate it is. -/
def verifyChain (whose : String) (cert : Certificate) (now : Int64) :
    Except AgentError VerifiedCertificate :=
  (identity.verifier.verify cert [identity.issuing] now).mapError fun e =>
    .protocol (whose ++ " cert verify: " ++ e.text)

/-- The overlay network in a message. `parse` is `str::parse::<Ipv4Net>`. -/
def overlayOf (parse : String → Option IpNet) (missing text : String) :
    Except AgentError IpNet :=
  if text = "" then .error (.protocol missing) else required "overlay v4" (parse text)

/-- `dial_peer` up to its request: nothing to do for a known peer. -/
def dialPeerStart (s : AgentState C) (target : DeviceId)
    (generated : Except CryptoError C.KeyPair) (index : Except TunnelError UInt32) :
    Except AgentError (Option (Dial C)) := do
  if (s.peers target).isSome then return none
  else
    let pending ← (Initiator.offer C generated offeredSuites).mapError AgentError.tunnel
    let initiatorIndex ← index.mapError AgentError.tunnel
    return some ⟨target, pending, initiatorIndex⟩

/-- `dial_peer` from its response to the entry that it inserts under the target. -/
def dialPeerFinish (parse : String → Option IpNet) (dial : Dial C) (provider : Provider)
    (response : Except AgentError PeerSessionResponse) (now : Int64) (clock : ℕ) :
    Except AgentError PeerEntry := do
  let resp ← response
  let sessionId ← sessionIdFromSlice resp.sessionId
  let answer ← required "no answer" resp.answer
  let encoded ← required "no responder cert" resp.responderCertificate
  let responderCert ← decodeCertificate (C := C) encoded
  let _ ← verifyChain identity "responder" responderCert now
  let est ← (Initiator.completeWith C H dial.pending answer sessionId (identity.certificate.id C)
    (fun ct => (provider.decapsulate ct).mapError TunnelError.protocol) responderCert).mapError
      AgentError.tunnel
  let overlayV4 ← overlayOf parse "no overlay in response" resp.overlayIpv4
  let session := Session.new sessionId .initiator est.suite est.keys dial.initiatorIndex
    answer.responderIndex none clock
  return ⟨⟨session, responderCert.id C⟩, dial.target, overlayV4, .probing⟩

def offerSuite (v : ℤ) : Except AgentError Suite :=
  if v = 1 then .ok .aes256Gcm
  else if v = 2 then .ok .chaCha20Poly1305
  else if v = 0 then .error (.protocol "unknown suite")
  else .error (.protocol "bad suite")

/-- `handle_offer` up to the entry that it inserts, under the subject of the initiator's
certificate. A known peer is left alone. -/
def handleOffer (parse : String → Option IpNet) (s : AgentState C) (provider : Provider)
    (offer : PeerOffer) (index : Except TunnelError UInt32) (coinsE coinsS : C.Coins)
    (now : Int64) (clock : ℕ) : Except AgentError (Option PeerEntry) := do
  let sessionId ← sessionIdFromSlice offer.sessionId
  let encoded ← required "no initiator cert" offer.initiatorCertificate
  let initiatorCert ← decodeCertificate (C := C) encoded
  let _ ← verifyChain identity "initiator" initiatorCert now
  let suite ← offerSuite offer.suite
  let initiatorDevice := initiatorCert.tbs.subjectId
  if (s.peers initiatorDevice).isSome then return none
  else
    let myIndex ← index.mapError AgentError.tunnel
    let (_, est) ← (Responder.answerWith C H sessionId initiatorCert offer.ephKemPk suite
      (identity.certificate.id C) (fun domain msg =>
        (provider.sign domain msg).mapError TunnelError.protocol)
      myIndex none coinsE coinsS).mapError AgentError.tunnel
    let overlayV4 ← overlayOf parse "offer missing overlay" offer.overlayIpv4
    ensure (offer.initiatorIndex ≠ 0) (AgentError.protocol "initiator_index missing")
    let session := Session.new sessionId .responder est.suite est.keys myIndex
      offer.initiatorIndex none clock
    return some ⟨⟨session, initiatorCert.id C⟩, initiatorDevice, overlayV4, .probing⟩

def openHubStart (generated : Except CryptoError C.KeyPair) (index : Except TunnelError UInt32) :
    Except AgentError (HubOpen C) := do
  let pending ← (Initiator.offer C generated offeredSuites).mapError AgentError.tunnel
  let initiatorIndex ← index.mapError AgentError.tunnel
  return ⟨pending, initiatorIndex⟩

/-- `open_hub_session` from its response to the session that becomes the hub. `resolve` is
`resolve_endpoint`. -/
def openHubFinish (hubOpen : HubOpen C) (provider : Provider)
    (resolve : String → Except String SocketAddr)
    (response : Except AgentError OpenSessionResponse) (now : Int64) (clock : ℕ) :
    Except AgentError PeerSession := do
  let resp ← response
  let sessionId ← sessionIdFromSlice resp.sessionId
  let answer ← required "no answer" resp.answer
  let encoded ← required "no gateway cert" resp.gatewayCertificate
  let gwCert ← decodeCertificate (C := C) encoded
  let _ ← verifyChain identity "gateway" gwCert now
  let est ← (Initiator.completeWith C H hubOpen.pending answer sessionId
    (identity.certificate.id C)
    (fun ct => (provider.decapsulate ct).mapError TunnelError.protocol) gwCert).mapError
      AgentError.tunnel
  let gatewayEndpoint ← (resolve answer.responderEndpoint).mapError AgentError.endpoint
  let session := Session.new sessionId .initiator est.suite est.keys hubOpen.initiatorIndex
    answer.responderIndex (some gatewayEndpoint) clock
  return ⟨session, gwCert.id C⟩

end

/-! ### Steps -/

namespace AgentState

variable {C : HybridImpl}

variable (s : AgentState C)

def insertSession (p : PeerSession) : AgentState C :=
  { s with table := Function.update s.table p.session.id (some p) }

def insertPeer (device : DeviceId) (e : PeerEntry) : AgentState C :=
  { s with peers := Function.update s.peers device (some e) }

def removePeer (device : DeviceId) : AgentState C :=
  { s with peers := Function.update s.peers device none }

def removeSession (id : SessionId) : AgentState C :=
  { s with table := Function.update s.table id none }

def leaveHub (id : SessionId) : AgentState C :=
  { s with hub := s.hub.filter fun h => h.session.id ≠ id }

def setDirect (device : DeviceId) : AgentState C :=
  match s.peers device with
  | some e => s.insertPeer device { e with state := .direct }
  | none => s

end AgentState

/-- One step of an agent. What control, the key provider, the resolver and the random source
return is part of the step. -/
inductive AgentEvent (C : HybridImpl) where
  | dial (target : DeviceId) (generated : Except CryptoError C.KeyPair)
      (index : Except TunnelError UInt32)
  | dialed (position : ℕ) (provider : Provider)
      (response : Except AgentError PeerSessionResponse) (now : Int64) (clock : ℕ)
  | offered (offer : PeerOffer) (provider : Provider) (index : Except TunnelError UInt32)
      (coinsE coinsS : C.Coins) (now : Int64) (clock : ℕ)
  | openHub (generated : Except CryptoError C.KeyPair) (index : Except TunnelError UInt32)
  | hubOpened (position : ℕ) (provider : Provider) (resolve : String → Except String SocketAddr)
      (response : Except AgentError OpenSessionResponse) (now : Int64) (clock : ℕ)
  | direct (device : DeviceId)
  /-- Probing a peer fails: the entry of the device goes, whatever its session is. -/
  | probeFailed (device : DeviceId) (session : SessionId)
  /-- A `Close` frame, or a session that has been idle: `position` finds the entry. -/
  | sessionEnded (id : SessionId) (position : DeviceId)
  | closePushed (id : SessionId)
  | closeOne (id : SessionId)
  | closedAll

def agentStep {C : HybridImpl} (H : Hkdf) (identity : Identity C) (parse : String → Option IpNet)
    (s : AgentState C) : AgentEvent C → AgentState C
  | .dial target generated index =>
    match dialPeerStart s target generated index with
    | .ok (some dial) => { s with dials := s.dials ++ [dial] }
    | _ => s
  | .dialed position provider response now clock =>
    match s.dials[position]? with
    | none => s
    | some dial =>
      let s := { s with dials := s.dials.eraseIdx position }
      match dialPeerFinish H identity parse dial provider response now clock with
      | .ok e => (s.insertSession e.session).insertPeer dial.target e
      | .error _ => s
  | .offered offer provider index coinsE coinsS now clock =>
    match handleOffer H identity parse s provider offer index coinsE coinsS now clock with
    | .ok (some e) => (s.insertSession e.session).insertPeer e.peerDevice e
    | _ => s
  | .openHub generated index =>
    match openHubStart generated index with
    | .ok hubOpen => { s with hubOpens := s.hubOpens ++ [hubOpen] }
    | .error _ => s
  | .hubOpened position provider resolve response now clock =>
    match s.hubOpens[position]? with
    | none => s
    | some hubOpen =>
      let s := { s with hubOpens := s.hubOpens.eraseIdx position }
      match openHubFinish H identity hubOpen provider resolve response now clock with
      | .ok p => { s.insertSession p with hub := some p }
      | .error _ => s
  | .direct device => s.setDirect device
  | .probeFailed device session =>
    if (s.peers device).isSome then (s.removePeer device).removeSession session else s
  | .sessionEnded id position =>
    let s :=
      if (s.peers position).any fun e => e.session.session.id = id then s.removePeer position
      else s
    (s.removeSession id).leaveHub id
  | .closePushed id => (s.removeSession id).leaveHub id
  | .closeOne id => s.removeSession id
  | .closedAll => { s with hub := none }

end Avon.Agent
