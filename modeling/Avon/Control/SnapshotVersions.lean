import Avon.Control.PolicyListener

/-!
# Writes, and the triggers that count them

The statements on the tables that `load_snapshot` reads, with the foreign keys of
`migrations/0001_initial.sql` that write to other rows and the triggers that call
`bump_policy_snapshot`. A statement that a constraint refuses changes nothing, so the constraints
are left out.
-/

set_option autoImplicit false

namespace Avon.Control

open Avon.Policy

/-- A statement on the rows of one table. `set` is what an `UPDATE` makes of a row. -/
inductive Change (κ ρ : Type) where
  | insert (row : ρ)
  | update (key : κ) (set : ρ → ρ)
  | delete (key : κ)

namespace Change

variable {κ ρ : Type} [DecidableEq κ] (id : ρ → κ)

def apply (rows : List ρ) : Change κ ρ → List ρ
  | .insert row => rows ++ [row]
  | .update key set => rows.map fun r => if id r = key then set r else r
  | .delete key => rows.filter fun r => id r ≠ key

/-- The records that a trigger for each row is fired with: `NEW`, or `OLD` of a `DELETE`. -/
def fired (rows : List ρ) : Change κ ρ → List ρ
  | .insert row => [row]
  | .update key set => (rows.filter fun r => id r = key).map set
  | .delete key => rows.filter fun r => id r = key

/-- The rows that are written, as they were before and as they are after. -/
def written (rows : List ρ) : Change κ ρ → List ρ
  | .insert row => [row]
  | .update key set => (rows.filter fun r => id r = key).flatMap fun r => [r, set r]
  | .delete key => rows.filter fun r => id r = key

def deleted : Change κ ρ → Option κ
  | .delete key => some key
  | _ => none

end Change

inductive Write where
  | pods (c : Change Uuid PodRow)
  | deviceClasses (c : Change Uuid DeviceClassRow)
  | policies (c : Change Uuid PolicyRow)
  | devicePods (c : Change (DeviceId × Uuid) DevicePodRow)
  /-- `named` is whether an `UPDATE` names one of the columns of `devices_bump`. The others of them
  it leaves as they are. -/
  | devices (c : Change DeviceId DeviceRow) (named : Bool)

def DeviceRow.withPolicyColumns (row old : DeviceRow) : DeviceRow :=
  { row with
    status := old.status, deviceClassId := old.deviceClassId
    attestationState := old.attestationState, riskScore := old.riskScore }

/-- An `UPDATE` of `devices` that names none of the columns of `devices_bump` keeps them. -/
def keepPolicyColumns (named : Bool) : Change DeviceId DeviceRow → Change DeviceId DeviceRow
  | .update key set => .update key fun r => if named then set r else (set r).withPolicyColumns r
  | c => c

namespace Db

def podTenant (db : Db) (pod : Uuid) : Option TenantId :=
  (db.pods.find? fun p => p.id = pod).map (·.tenantId)

def deviceTenants (db : Db) (device : DeviceId) : List TenantId :=
  (db.devices.filter fun d => d.id = device).map (·.tenantId)

/-- The devices that `ON DELETE SET NULL` takes the class from. -/
def ofDeletedClass (db : Db) (c : Change Uuid DeviceClassRow) : List DeviceRow :=
  db.devices.filter fun d => d.deviceClassId.isSome ∧ d.deviceClassId = c.deleted

/-- The tables after a statement, except for the versions. -/
def apply (db : Db) : Write → Db
  | .pods c =>
    { db with
      pods := c.apply (·.id) db.pods
      devicePods := db.devicePods.filter fun m => c.deleted ≠ some m.podId }
  | .deviceClasses c =>
    { db with
      deviceClasses := c.apply (·.id) db.deviceClasses
      devices := db.devices.map fun d =>
        if d.deviceClassId.isSome ∧ d.deviceClassId = c.deleted then
          { d with deviceClassId := none }
        else d }
  | .policies c => { db with policies := c.apply (·.id) db.policies }
  | .devicePods c =>
    { db with devicePods := c.apply (fun m => (m.deviceId, m.podId)) db.devicePods }
  | .devices c named =>
    { db with
      devices := (keepPolicyColumns named c).apply (·.id) db.devices
      devicePods := db.devicePods.filter fun m => c.deleted ≠ some m.deviceId }

/-- The tenants that the triggers of a statement find, in order. A membership has the tenant of its
pod, and that of a deleted pod has none. `device_pods_bump` is not for updates, and `devices_bump`
for nothing else. -/
def bumps (db : Db) : Write → List TenantId
  | .pods c => (c.fired (·.id) db.pods).map (·.tenantId)
  | .deviceClasses c =>
    (db.ofDeletedClass c).map (·.tenantId) ++ (c.fired (·.id) db.deviceClasses).map (·.tenantId)
  | .policies c => (c.fired (·.id) db.policies).map (·.tenantId)
  | .devicePods (.update ..) => []
  | .devicePods c =>
    (c.fired (fun m => (m.deviceId, m.podId)) db.devicePods).filterMap fun m => db.podTenant m.podId
  | .devices (.insert _) _ => []
  | .devices (.update key set) named =>
    if named then ((Change.update key set).fired (·.id) db.devices).map (·.tenantId) else []
  | .devices (.delete key) _ =>
    (db.devicePods.filter fun m => m.deviceId = key).filterMap fun m => db.podTenant m.podId

def write (db : Db) (w : Write) : Db :=
  { db.apply w with policySnapshots := bumpPolicySnapshot (db.bumps w) db.policySnapshots }

def maxVersion : ℤ := 2 ^ 63 - 1

/-- A transaction. A version that gets out of range is an error. -/
def transact (db : Db) (tx : List Write) : Db :=
  let after := tx.foldl write db
  if after.policySnapshots.all fun row => row.version ≤ maxVersion then after else db

end Db

end Avon.Control
