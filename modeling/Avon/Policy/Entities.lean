import Avon.Cedar
import Avon.Policy.Spec

/-!
# Snapshots and their entities

The snapshot of one tenant, and the Cedar entities built from it. `i64` values are integers.
`now - ts` wraps as in a release build.
-/

set_option autoImplicit false

namespace Avon.Policy

open Avon.Cedar

structure PodEntity where
  id : Uuid
  parent : Option Uuid
  deriving DecidableEq, Repr

structure DeviceAttrs where
  status : String
  class? : Option Uuid
  firewallEnabled : Option Bool
  diskEncrypted : Option Bool
  screenLockEnabled : Option Bool
  osVersion : Option String
  lastUpdateUnix : Option ℤ
  attestation : String
  riskScore : UInt8
  deriving DecidableEq, Repr

structure DeviceEntity where
  id : Uuid
  pods : List Uuid
  attrs : DeviceAttrs
  deriving DecidableEq, Repr

structure PolicyEntry where
  id : Uuid
  spec : PolicySpec
  deriving DecidableEq, Repr

structure SnapshotData where
  tenantId : TenantId
  version : UInt64
  pods : List PodEntity
  deviceClasses : List Uuid
  devices : List DeviceEntity
  policies : List PolicyEntry
  deriving DecidableEq, Repr

inductive CompileError where
  | cedar (e : Cedar.Error)
  | tenant
  | notLoaded
  | spec (e : SpecError)
  deriving DecidableEq, Repr

/-- `parse_os_version`: the first two parts of a dotted version, 0 where there is no
number. -/
def parseOsVersion (s : String) : ℤ × ℤ :=
  match s.toList.splitOn '.' with
  | major :: minor :: _ => ((parseI64 major).getD 0, (parseI64 minor).getD 0)
  | [major] => ((parseI64 major).getD 0, 0)
  | [] => (0, 0)

def hoursSinceUpdate (now ts : ℤ) : ℤ := max 0 ((Int.bmod (now - ts) (2 ^ 64)).tdiv 3600)

def podEntity (pod : PodEntity) : Entity :=
  ⟨.pod pod.id, [], pod.parent.toList.map .pod⟩

def deviceAttributes (now : ℤ) (a : DeviceAttrs) : List (Attr × Value) :=
  [(.status, .string a.status), (.attestation, .string a.attestation),
    (.riskScore, .long a.riskScore.toNat)] ++
  (a.firewallEnabled.map fun v => (Attr.firewallEnabled, Value.bool v)).toList ++
  (a.diskEncrypted.map fun v => (Attr.diskEncrypted, Value.bool v)).toList ++
  (a.screenLockEnabled.map fun v => (Attr.screenLockEnabled, Value.bool v)).toList ++
  (match a.osVersion with
    | some os => [(.osVersionMajor, .long (parseOsVersion os).1),
        (.osVersionMinor, .long (parseOsVersion os).2)]
    | none => []) ++
  (a.lastUpdateUnix.map fun ts =>
    (Attr.hoursSinceUpdate, Value.long (hoursSinceUpdate now ts))).toList

/-- The entity of a device. Its parents are its pods and its class. -/
def deviceEntity (now : ℤ) (dev : DeviceEntity) : Entity :=
  ⟨.device dev.id, deviceAttributes now dev.attrs,
    dev.pods.map .pod ++ dev.attrs.class?.toList.map .deviceClass⟩

/-- The entities of a snapshot, in the order in which `build_entities` makes them. -/
def entityList (data : SnapshotData) (now : ℤ) : List Entity :=
  data.pods.map podEntity ++ data.deviceClasses.map (fun c => ⟨.deviceClass c, [], []⟩) ++
    [⟨.external, [], []⟩] ++ data.devices.map (deviceEntity now)

def buildEntities (data : SnapshotData) (now : ℤ) : Except CompileError Entities :=
  (Entities.fromEntities (entityList data now)).mapError .cedar

end Avon.Policy
