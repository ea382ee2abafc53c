import Avon.Control.Db
import Avon.Proto

/-!
# Brokering peer sessions

`request_peer_session`. `PeerWorld` holds what the reads of one call return, in the order of the
code. The outcome of a call is its result and the effects it had, in order.
-/

set_option autoImplicit false

namespace Avon.Control

open Avon.Crypto Avon.Policy Avon.Proto

inductive Code where
  | invalidArgument
  | notFound
  | failedPrecondition
  | permissionDenied
  | unavailable
  | internal
  deriving DecidableEq, Repr

structure Status where
  code : Code
  message : String
  deriving DecidableEq, Repr

def HYBRID_KEM_PUBLIC_KEY_BYTES : ℕ := 32 + 1184

/-- `PeerSessionRequest`. The target is 16 bytes if it is well formed, and `suites` are the
numbers on the wire. -/
structure PeerSessionRequest where
  targetDevice : Option Bytes
  ephKemPk : Bytes
  suites : List ℤ
  candidates : List Candidate
  initiatorIndex : UInt32
  deriving DecidableEq, Repr

structure PeerAnswer where
  sessionId : Bytes
  answer : Option SessionAnswer
  candidates : List Candidate
  deriving DecidableEq, Repr

/-- `PeerOffer`. The texts of the overlay networks are the networks, `none` if empty. -/
structure PeerOffer where
  sessionId : SessionId
  initiatorCertificate : Bytes
  ephKemPk : Bytes
  suite : Suite
  candidates : List Candidate
  overlayIpv4 : Option IpNet
  overlayIpv6 : Option IpNet
  initiatorIndex : UInt32
  deriving DecidableEq, Repr

structure PeerSessionResponse where
  sessionId : SessionId
  answer : SessionAnswer
  candidates : List Candidate
  responderCertificate : Bytes
  overlayIpv4 : Option IpNet
  overlayIpv6 : Option IpNet
  deriving DecidableEq, Repr

structure SessionInfo where
  device : DeviceId
  tenant : TenantId
  deriving DecidableEq, Repr

structure PeerWorld where
  targetDb : Option Db
  tenantDb : Option Db
  connected : DeviceId → Bool
  engines : TenantId → Option Engine
  /-- The tables at the query for the target in the admission check. -/
  admissionDb : Option Db
  initiatorDb : Option Db
  sessionId : Option SessionId
  insertOk : Bool
  pushed : Bool
  answer : Option PeerAnswer
  responderDb : Option Db
  activateOk : Bool

inductive PeerEffect where
  | insertSession (id : SessionId) (tenant : TenantId) (device peer : DeviceId) (suite : Suite)
  | register (id : SessionId)
  | sendOffer (target : DeviceId) (offer : PeerOffer)
  | cancel (id : SessionId)
  | closeSession (id : SessionId) (reason : String)
  | activate (id : SessionId)
  deriving DecidableEq, Repr

structure Outcome where
  result : Except Status PeerSessionResponse
  effects : List PeerEffect

def loadDeviceCertAndOverlay (db : Option Db) (device : DeviceId) :
    Except Status (Bytes × Option IpNet × Option IpNet) :=
  match db with
  | none => .error ⟨.unavailable, "database"⟩
  | some db =>
    match db.devices.find? fun d => d.id = device ∧ d.status = "active" with
    | none => .error ⟨.notFound, "peer device not found"⟩
    | some row =>
      match db.certificateOf device with
      | none => .error ⟨.failedPrecondition, "peer has no certificate"⟩
      | some c => .ok (c.certificate, row.overlayIpv4, row.overlayIpv6)

/-- A suite from its number on the wire, `none` if it is unknown or unspecified. -/
def suiteOfWire (n : ℤ) : Option Suite :=
  if n = 1 then some .aes256Gcm else if n = 2 then some .chaCha20Poly1305 else none

/-- AES-256-GCM if it is offered, or the first suite offered. -/
def chooseSuite (suites : List ℤ) : Option Suite :=
  let suites := suites.filterMap suiteOfWire
  if suites.contains .aes256Gcm then some .aes256Gcm else suites.head?

/-- The checks on the request itself, up to the choice of a suite. -/
def checkRequest (info : SessionInfo) (req : PeerSessionRequest) :
    Except Status (DeviceId × Suite) :=
  if req.ephKemPk.length ≠ HYBRID_KEM_PUBLIC_KEY_BYTES then
    .error ⟨.invalidArgument, "eph_kem_pk length"⟩
  else match req.targetDevice with
    | none => .error ⟨.invalidArgument, "target_device"⟩
    | some bytes =>
      if bytes.length ≠ 16 then .error ⟨.invalidArgument, "target_device length"⟩
      else
        let target : DeviceId := BitVec.ofNat 128 (Lib.BigEndian.ofBe bytes)
        if target = info.device then .error ⟨.invalidArgument, "cannot dial self"⟩
        else match chooseSuite req.suites with
          | none => .error ⟨.invalidArgument, "no supported suite"⟩
          | some suite => .ok (target, suite)

/-- The tenant of a device, an error if the query fails or finds no row. -/
def targetTenant (db : Option Db) (target : DeviceId) : Except Status TenantId :=
  match db.bind fun db => db.devices.find? fun d => d.id = target with
  | none => .error ⟨.unavailable, "database"⟩
  | some row => .ok row.tenantId

/-- The synthetic request of the admission check: every protocol, port 0, and a fixed address
in place of the target's own. -/
def admissionRequest (info : SessionInfo) (target : DeviceId) : DecisionRequest where
  device := info.device
  destination := .device target
  dstIp := .v4 0x0A140001
  protocol := .any
  dstPort := 0
  admission := true

/-- The admission check. Without an engine there is none, and only a decision that forbids
refuses the session. -/
def admissionCheck (w : PeerWorld) (info : SessionInfo) (target : DeviceId) : Except Status Unit :=
  match w.engines info.tenant with
  | none => .ok ()
  | some engine =>
    match loadDeviceCertAndOverlay w.admissionDb target with
    | .error e => .error e
    | .ok _ =>
      let res := engine.decide (admissionRequest info target)
      if !res.allow ∧ res.reason = .forbid then .error ⟨.permissionDenied, "forbid"⟩
      else .ok ()

/-- Everything before the session id is drawn: the target, the suite, and the certificate and
networks of the initiator. -/
def prepare (w : PeerWorld) (info : SessionInfo) (req : PeerSessionRequest) :
    Except Status (DeviceId × Suite × Bytes × Option IpNet × Option IpNet) := do
  let (target, suite) ← checkRequest info req
  let _ ← loadDeviceCertAndOverlay w.targetDb target
  let tenant ← targetTenant w.tenantDb target
  if tenant ≠ info.tenant then .error ⟨.permissionDenied, "peer in different tenant"⟩
  else if !w.connected target then .error ⟨.unavailable, "peer offline"⟩
  else do
    admissionCheck w info target
    let initiator ← loadDeviceCertAndOverlay w.initiatorDb info.device
    return (target, suite, initiator)

/-- What follows the answer of the target, or its silence. -/
def finish (w : PeerWorld) (target : DeviceId) (id : SessionId) :
    Except Status PeerSessionResponse × List PeerEffect :=
  match w.answer with
  | none => (.error ⟨.unavailable, "peer did not answer"⟩,
      [.cancel id, .closeSession id "offer timeout"])
  | some peerAnswer =>
    if peerAnswer.sessionId ≠ Lib.BigEndian.beBytes 16 id.toNat then
      (.error ⟨.invalidArgument, "answer session id mismatch"⟩, [])
    else match peerAnswer.answer with
      | none => (.error ⟨.invalidArgument, "answer missing"⟩, [])
      | some answer =>
        match loadDeviceCertAndOverlay w.responderDb target with
        | .error e => (.error e, [])
        | .ok (cert, v4, v6) =>
          if !w.activateOk then (.error ⟨.unavailable, "database"⟩, [])
          else (.ok ⟨id, answer, peerAnswer.candidates, cert, v4, v6⟩, [.activate id])

def requestPeerSession (w : PeerWorld) (info : SessionInfo) (req : PeerSessionRequest) : Outcome :=
  match prepare w info req with
  | .error e => ⟨.error e, []⟩
  | .ok (target, suite, cert, v4, v6) =>
    match w.sessionId with
    | none => ⟨.error ⟨.internal, "rng"⟩, []⟩
    | some id =>
      if !w.insertOk then ⟨.error ⟨.unavailable, "database"⟩, []⟩
      else
        let stored := [.insertSession id info.tenant info.device target suite, .register id]
        if !w.pushed then
          ⟨.error ⟨.unavailable, "peer offline"⟩,
            stored ++ [.cancel id, .closeSession id "peer offline"]⟩
        else
          let offer := ⟨id, cert, req.ephKemPk, suite, req.candidates, v4, v6,
            req.initiatorIndex⟩
          let (result, effects) := finish w target id
          ⟨result, stored ++ .sendOffer target offer :: effects⟩

end Avon.Control
