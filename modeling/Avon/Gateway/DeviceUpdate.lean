import Avon.Gateway.ControlLink
import Avon.Lib.Reaches
import Avon.Proto

/-!
# A device update, lock by lock

`apply_device_update` as a machine. An element that `iter()` of a `DashMap` yields holds a read lock
on its shard, and `remove` waits for the write lock. The loop calls `close_session` while it holds
the element. `applyDeviceUpdate` is what becomes of the whole call.
-/

set_option autoImplicit false

namespace Avon.Gateway

open Avon.Crypto Avon.Policy Avon.Proto

structure DeviceUpdate where
  tenantId : Option Bytes
  deviceId : Option Bytes
  attrsJson : String
  deriving DecidableEq, Repr

/-- The checks before anything is done. `parse` is `serde_json::from_str` to `DeviceAttrs`. -/
def DeviceUpdate.decode (parse : String → Option DeviceAttrs) (upd : DeviceUpdate) :
    Option (TenantId × DeviceId × DeviceAttrs) := do
  let tenant ← upd.tenantId
  let device ← upd.deviceId
  let tenant ← uuidOf tenant
  let device ← uuidOf device
  let attrs ← parse upd.attrsJson
  return (tenant, device, attrs)

abbrev MetaEntry := Sigma fun _ : SessionId => SessionMeta

inductive Point where
  | next (todo : List MetaEntry)
  | leaveTable (entry : MetaEntry) (todo : List MetaEntry)
  | leaveRoutes (entry : MetaEntry) (todo : List MetaEntry)
  | leaveMeta (entry : MetaEntry) (todo : List MetaEntry)
  | returned
  deriving DecidableEq, Repr

/-- The shard of the metadata that the handler holds a read lock on. -/
def Point.readLocked (shardOf : SessionId → ℕ) : Point → Option ℕ
  | .next _ => none
  | .leaveTable e _ => some (shardOf e.1)
  | .leaveRoutes e _ => some (shardOf e.1)
  | .leaveMeta e _ => some (shardOf e.1)
  | .returned => none

def deviceUpdateStep (shardOf : SessionId → ℕ) (device : DeviceId) :
    GatewayState × Point → GatewayState × Point
  | (s, .next []) => (s, .returned)
  | (s, .next (e :: todo)) =>
    if e.2.deviceId = device then (s, .leaveTable e todo) else (s, .next todo)
  | (s, .leaveTable e todo) =>
    -- A session that is not in the table ends `close_session`.
    match s.table.byId e.1 with
    | none => (s, .next todo)
    | some _ => (s.leaveTable e.1, .leaveRoutes e todo)
  | (s, .leaveRoutes e todo) =>
    ({ s with routes := s.routes.removeSession e.1 }, .leaveMeta e todo)
  | (s, .leaveMeta e todo) =>
    -- The write lock is not free while the shard has a reader, and the reader is the task
    -- itself.
    if (Point.leaveMeta e todo).readLocked shardOf = some (shardOf e.1) then
      (s, .leaveMeta e todo)
    else ({ s with sessionsMeta := s.sessionsMeta.erase e.1 }, .next todo)
  | (s, .returned) => (s, .returned)

def deviceUpdateStart (env : Env) (parse : String → Option DeviceAttrs) (s : GatewayState)
    (upd : DeviceUpdate) (now : ℤ) : GatewayState × Point :=
  match upd.decode parse with
  | none => (s, .returned)
  | some (tenant, device, attrs) =>
    let s := { s with policy := s.policy.patchDevice env.tz tenant device attrs now }
    if attrs.status = "active" then (s, .returned) else (s, .next s.sessionsMeta.entries)

end Avon.Gateway
