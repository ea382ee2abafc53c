import Avon.Policy.Compile

/-!
# Loading a snapshot and deciding requests

The model of `avon-policy/src/engine.rs`. The `ArcSwap` of the source holds what was loaded
last; the functions that replace it return the new engine.
-/

set_option autoImplicit false

namespace Avon.Policy

open Avon.Cedar

inductive Destination where
  | device (id : Uuid)
  | ip (addr : IpAddr)
  deriving DecidableEq, Repr

structure DecisionRequest where
  device : Uuid
  destination : Destination
  dstIp : IpAddr
  protocol : Protocol
  dstPort : UInt16
  admission : Bool
  deriving DecidableEq, Repr

inductive Reason where
  | noSnapshot
  | unknownDevice
  | deviceStatus (status : String)
  | requestBuildFailed (e : Cedar.Error)
  | permit
  | evaluationErrors (errors : List (Uuid × EvalError))
  | noMatchingPermit
  | forbid
  deriving DecidableEq, Repr

structure DecisionResult where
  allow : Bool
  policyIds : List Uuid
  reason : Reason
  snapshotVersion : UInt64
  deriving DecidableEq, Repr

structure Loaded where
  data : SnapshotData
  compiled : Compiled
  entities : Entities

structure Engine where
  tenant : TenantId
  inner : Option Loaded

def deny (reason : Reason) (version : UInt64) : DecisionResult := ⟨false, [], reason, version⟩

def SnapshotData.findDevice (data : SnapshotData) (id : Uuid) : Option DeviceEntity :=
  data.devices.find? fun d => d.id = id

/-- The first device with this id gets the new attributes. If there is none, a device without
pods is added. -/
def patchDevices (id : Uuid) (attrs : DeviceAttrs) : List DeviceEntity → List DeviceEntity
  | [] => [⟨id, [], attrs⟩]
  | d :: ds => if d.id = id then { d with attrs } :: ds else d :: patchDevices id attrs ds

namespace Engine

def empty (tenant : TenantId) : Engine := ⟨tenant, none⟩

def version (e : Engine) : UInt64 :=
  match e.inner with
  | some l => l.data.version
  | none => 0

/-- Whether this tenant has authored any policy at all. -/
def hasPolicies (e : Engine) : Bool :=
  match e.inner with
  | some l => !l.data.policies.isEmpty
  | none => false

def load (tz : TzDb) (e : Engine) (data : SnapshotData) (now : ℤ) : Except CompileError Engine :=
  if data.tenantId ≠ e.tenant then .error .tenant
  else do
    let compiled ← compile tz data now
    let entities ← buildEntities data now
    return { e with inner := some ⟨data, compiled, entities⟩ }

/-- Whether a time window may have changed since the snapshot was compiled. -/
def needsRecompile (e : Engine) (now : ℤ) : Bool :=
  match e.inner.bind fun l => l.compiled.nextWindowChange with
  | some t => t ≤ now
  | none => false

def patchDevice (tz : TzDb) (e : Engine) (id : Uuid) (attrs : DeviceAttrs) (now : ℤ) :
    Except CompileError Engine :=
  match e.inner with
  | none => .error .notLoaded
  | some loaded => do
    let data := { loaded.data with devices := patchDevices id attrs loaded.data.devices }
    let entities ← buildEntities data now
    let compiled ← compile tz data now
    return { e with inner := some ⟨data, compiled, entities⟩ }

def request (req : DecisionRequest) : Except Cedar.Error Request :=
  match parseIp (.host req.dstIp) with
  | none => .error .ipText
  | some dstIp => .ok
      { principal := .device req.device
        resource := match req.destination with
          | .device d => .device d
          | .ip _ => .external
        context := ⟨req.protocol.text, req.dstPort.toNat, dstIp, req.admission⟩ }

def decide (e : Engine) (req : DecisionRequest) : DecisionResult :=
  match e.inner with
  | none => deny .noSnapshot 0
  | some loaded =>
    let version := loaded.data.version
    match loaded.data.findDevice req.device with
    | none => deny .unknownDevice version
    | some device =>
      if device.attrs.status ≠ "active" then deny (.deviceStatus device.attrs.status) version
      else match request req with
        | .error err => deny (.requestBuildFailed err) version
        | .ok request =>
          let response := isAuthorized request loaded.compiled.policies loaded.entities
          match response.decision with
          | .allow =>
            if response.errors.isEmpty then ⟨true, response.reason, .permit, version⟩
            else deny (.evaluationErrors response.errors) version
          | .deny =>
            if response.reason.isEmpty then deny .noMatchingPermit version
            else ⟨false, response.reason, .forbid, version⟩

end Engine

end Avon.Policy
