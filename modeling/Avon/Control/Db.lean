import Avon.Crypto.Primitives
import Avon.Json
import Avon.Policy.Engine

/-!
# The tables that control reads

The columns of `migrations/0001_initial.sql` that the modelled queries read. A query sees one
state of the tables. `none` in place of a state stands for a query that fails.

`loadSnapshot` is `avon-policy/src/db.rs`: one transaction, at one state, from rows to the
snapshot that the engine loads.
-/

set_option autoImplicit false

namespace Avon.Control

open Avon.Crypto Avon.Policy

structure PodRow where
  id : Uuid
  tenantId : TenantId
  parentId : Option Uuid

structure DeviceClassRow where
  id : Uuid
  tenantId : TenantId

structure DeviceRow where
  id : DeviceId
  tenantId : TenantId
  status : String
  deviceClassId : Option Uuid
  posture : Option Json
  attestationState : String
  riskScore : ℤ
  overlayIpv4 : Option IpNet
  overlayIpv6 : Option IpNet

structure DevicePodRow where
  deviceId : DeviceId
  podId : Uuid

structure CertificateRow where
  subjectId : Uuid
  certificate : Bytes
  notAfter : ℤ
  revokedAt : Option ℤ

structure PolicyRow where
  id : Uuid
  tenantId : TenantId
  enabled : Bool
  spec : Json

structure SnapshotRow where
  tenantId : TenantId
  version : ℤ

/-- A state of the tables, with the time that `now()` gives. -/
structure Db where
  tenants : List TenantId
  pods : List PodRow
  deviceClasses : List DeviceClassRow
  devices : List DeviceRow
  devicePods : List DevicePodRow
  certificates : List CertificateRow
  policies : List PolicyRow
  policySnapshots : List SnapshotRow
  now : ℤ

/-! ### Loading a snapshot -/

/-- The attributes of a device row. Both readers of the posture take a missing key, a key of
another type and a posture that is no object as absent. -/
def deviceAttrs (row : DeviceRow) : DeviceAttrs :=
  let p := row.posture.getD (.object [])
  { status := row.status
    class? := row.deviceClassId
    firewallEnabled := (p.get "firewall_enabled").bind Json.asBool
    diskEncrypted := (p.get "disk_encrypted").bind Json.asBool
    screenLockEnabled := (p.get "screen_lock_enabled").bind Json.asBool
    osVersion := (p.get "os_version").bind Json.asStr
    lastUpdateUnix := (p.get "last_update_unix").bind Json.asI64
    attestation := row.attestationState
    riskScore := UInt8.ofNat (min 100 (max 0 row.riskScore)).toNat }

/-- A policy row as an entry, `none` if its specification does not decode or is invalid:
such a row is skipped with a warning. `decode` is `serde_json::from_value`. -/
def policyEntry (tz : TzDb) (decode : Json → Option PolicySpec) (row : PolicyRow) :
    Option PolicyEntry :=
  match decode row.spec with
  | none => none
  | some spec =>
    match spec.validate tz with
    | .error _ => none
    | .ok () => some ⟨row.id, spec⟩

def Db.enabledPolicies (db : Db) (tenant : TenantId) : List PolicyRow :=
  db.policies.filter fun row => row.tenantId = tenant ∧ row.enabled = true

/-- `load_snapshot`, in the state that its transaction sees. -/
def loadSnapshot (tz : TzDb) (decode : Json → Option PolicySpec) (db : Db) (tenant : TenantId) :
    SnapshotData where
  tenantId := tenant
  version := match db.policySnapshots.find? fun row => row.tenantId = tenant with
    | some row => UInt64.ofInt row.version
    | none => 1
  pods := (db.pods.filter fun row => row.tenantId = tenant).map fun row => ⟨row.id, row.parentId⟩
  deviceClasses := (db.deviceClasses.filter fun row => row.tenantId = tenant).map (·.id)
  devices := (db.devices.filter fun row => row.tenantId = tenant).map fun row =>
    ⟨row.id, (db.devicePods.filter fun m => m.deviceId = row.id).map (·.podId), deviceAttrs row⟩
  policies := (db.enabledPolicies tenant).filterMap (policyEntry tz decode)

/-! ### The certificate of a device -/

/-- The later of two rows by expiry, the first one if they expire together. -/
def CertificateRow.later (best : Option CertificateRow) (c : CertificateRow) :
    Option CertificateRow :=
  match best with
  | none => some c
  | some b => if b.notAfter < c.notAfter then some c else some b

/-- The valid certificate of a subject that expires last. -/
def Db.certificateOf (db : Db) (subject : Uuid) : Option CertificateRow :=
  let live := db.certificates.filter fun c =>
    c.subjectId = subject ∧ c.revokedAt = none ∧ db.now < c.notAfter
  live.foldl CertificateRow.later none

end Avon.Control
