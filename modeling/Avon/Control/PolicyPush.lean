import Avon.Control.Db
import Avon.Gateway.FlowPolicy
import Avon.Lib.Run

/-!
# From policy rows to a gateway

`Link` is control and one gateway: control's engines, what is on its way, and the gateway's policy.
Three fields are not in the code: `lastRead` is the state of the tables that the gateway was last
told about, `loadedAt` the time at which an engine of the gateway was last loaded or patched, and
`asked` the context for which a cached decision was made.
-/

set_option autoImplicit false

namespace Avon.Control

open Avon.Policy Avon.Gateway
open Function (update)

/-- The time zones, and the decoder of policy specifications. -/
structure PushEnv where
  tz : TzDb
  decode : Json → Option PolicySpec

inductive PushError where
  | db
  | compile (e : CompileError)
  deriving DecidableEq, Repr

abbrev Engines := TenantId → Option Engine

/-- Load a snapshot into the engine of a tenant. The engine is created if there is none, and
stays also if the snapshot does not load. -/
def loadEngine (env : PushEnv) (engines : Engines) (tenant : TenantId) (data : SnapshotData)
    (now : ℤ) : Engines × Except PushError Unit :=
  let engine := (engines tenant).getD (Engine.empty tenant)
  match engine.load env.tz data now with
  | .ok engine => (update engines tenant (some engine), .ok ())
  | .error e => (update engines tenant (some engine), .error (.compile e))

def refreshTenant (env : PushEnv) (engines : Engines) (tenant : TenantId) (db : Option Db)
    (now : ℤ) : Engines × Except PushError SnapshotData :=
  match db with
  | none => (engines, .error .db)
  | some db =>
    let data := loadSnapshot env.tz env.decode db tenant
    match loadEngine env engines tenant data now with
    | (engines, .ok ()) => (engines, .ok data)
    | (engines, .error e) => (engines, .error e)

/-- The loop of `snapshots_for_registration`. `reads` is the state that the transaction of
each tenant sees, and the time at which its snapshot is loaded. The first error ends the
loop. -/
def snapshotsFor (env : PushEnv) (reads : TenantId → Option Db × ℤ) :
    List TenantId → Engines → Engines × Except PushError (List SnapshotData)
  | [], engines => (engines, .ok [])
  | tenant :: tenants, engines =>
    match refreshTenant env engines tenant (reads tenant).1 (reads tenant).2 with
    | (engines, .error e) => (engines, .error e)
    | (engines, .ok data) =>
      match snapshotsFor env reads tenants engines with
      | (engines, .error e) => (engines, .error e)
      | (engines, .ok out) => (engines, .ok (data :: out))

def snapshotsForRegistration (env : PushEnv) (engines : Engines) (tenants : Option Db)
    (reads : TenantId → Option Db × ℤ) : Engines × Except PushError (List SnapshotData) :=
  match tenants with
  | none => (engines, .error .db)
  | some db => snapshotsFor env reads db.tenants engines

/-! ### Control and one gateway -/

inductive Phase where
  | offline
  /-- The gateway has called `register` and has not yet opened its stream. -/
  | registered
  | online
  deriving DecidableEq, Repr

inductive Message where
  /-- A snapshot of a tenant, read from `db`. `none` if the read did not give one, or if the
  channel did not take it. -/
  | snapshot (tenant : TenantId) (db : Db) (data : Option SnapshotData)
  | deviceUpdate (tenant : TenantId) (device : DeviceId) (attrs : DeviceAttrs)

structure Link where
  engines : Engines
  phase : Phase
  queue : List Message
  policy : CedarFlowPolicy
  lastRead : TenantId → Option Db
  loadedAt : TenantId → ℤ
  asked : FlowKey → Option FlowContext

inductive LinkEvent where
  /-- The gateway registers. The stream of an earlier registration is gone. -/
  | register (tenants : Option Db) (reads : TenantId → Option Db × ℤ)
  | openEvents
  | hangUp
  /-- Control refreshes a tenant. `taken` is whether the channel takes the message. -/
  | refresh (tenant : TenantId) (db : Option Db) (now : ℤ) (taken : Bool)
  | patch (tenant : TenantId) (device : DeviceId) (db : Option Db) (now : ℤ) (taken : Bool)
  | deliver (now : ℤ)
  | flow (ctx : FlowContext)

/-- The messages that the answer to a registration stands for: a registration that fails
answers with no snapshot at all. -/
def registrationMessages (reads : TenantId → Option Db × ℤ) (tenants : List TenantId)
    (result : Except PushError (List SnapshotData)) : List Message :=
  tenants.filterMap fun tenant => (reads tenant).1.map fun db =>
    .snapshot tenant db <| match result with
      | .ok out => out.find? fun data => data.tenantId = tenant
      | .error _ => none

/-- What a refresh puts on the way: the broadcast reaches a gateway that is online, and its
channel may be full. -/
def refreshMessages (phase : Phase) (taken : Bool) (tenant : TenantId) (db : Option Db)
    (result : Except PushError SnapshotData) : List Message :=
  match phase, db with
  | .offline, _ => []
  | _, none => []
  | .registered, some db => [.snapshot tenant db none]
  | .online, some db => [.snapshot tenant db (if taken then result.toOption else none)]

/-- `patch_device_attrs`: the engine of the tenant, and the update for the gateways. -/
def patchDeviceAttrs (env : PushEnv) (engines : Engines) (tenant : TenantId) (device : DeviceId)
    (db : Option Db) (now : ℤ) : Engines × Option DeviceAttrs :=
  match db.bind fun db => db.devices.find? fun row => row.id = device with
  | none => (engines, none)
  | some row =>
    let attrs := deviceAttrs row
    match engines tenant with
    | none => (engines, some attrs)
    | some engine =>
      match engine.patchDevice env.tz device attrs now with
      | .ok engine => (update engines tenant (some engine), some attrs)
      | .error _ => (engines, some attrs)

/-- The contexts of the decisions that are still cached, after a decision on `ctx`. -/
def askedAfter (before after : CedarFlowPolicy) (asked : FlowKey → Option FlowContext)
    (ctx : FlowContext) : FlowKey → Option FlowContext :=
  if before.cache ctx.key = after.cache ctx.key then asked
  else update asked ctx.key (some ctx)

namespace Link

def start : Link := ⟨fun _ => none, .offline, [], .empty, fun _ => none, fun _ => 0, fun _ => none⟩

/-- The times after a load or patch of the tenant's engine, if it succeeds. -/
def timesAfter (loadedAt : TenantId → ℤ) (tenant : TenantId) (now : ℤ)
    (result : Except CompileError Engine) : TenantId → ℤ :=
  if result.isOk then update loadedAt tenant now else loadedAt

def receive (env : PushEnv) (l : Link) (now : ℤ) : Message → Link
  | .snapshot tenant db data =>
    let lastRead := update l.lastRead tenant (some db)
    match data with
    | none => { l with lastRead }
    | some data =>
      { l with
        lastRead
        policy := l.policy.applySnapshot env.tz data.tenantId data now
        loadedAt := timesAfter l.loadedAt data.tenantId now
          ((l.policy.engineFor data.tenantId).load env.tz data now) }
  | .deviceUpdate tenant device attrs =>
    { l with
      policy := l.policy.patchDevice env.tz tenant device attrs now
      loadedAt := timesAfter l.loadedAt tenant now
        ((l.policy.engineFor tenant).patchDevice env.tz device attrs now) }

def step (env : PushEnv) (l : Link) : LinkEvent → Link
  | .register tenants reads =>
    let (engines, result) := snapshotsForRegistration env l.engines tenants reads
    { l with
      engines
      phase := .registered
      queue := registrationMessages reads ((tenants.map (·.tenants)).getD []) result }
  | .openEvents => if l.phase = .registered ∧ l.queue.isEmpty then
    { l with phase := .online } else l
  | .hangUp => { l with phase := .offline, queue := [] }
  | .refresh tenant db now taken =>
    let (engines, result) := refreshTenant env l.engines tenant db now
    { l with engines, queue := l.queue ++ refreshMessages l.phase taken tenant db result }
  | .patch tenant device db now taken =>
    let (engines, attrs) := patchDeviceAttrs env l.engines tenant device db now
    let sent := if l.phase = .online ∧ taken then
      (attrs.map fun attrs => Message.deviceUpdate tenant device attrs).toList else []
    { l with engines, queue := l.queue ++ sent }
  | .deliver now =>
    match l.queue with
    | [] => l
    | m :: rest => receive env { l with queue := rest } now m
  | .flow ctx =>
    let policy := (l.policy.allow ctx).2
    { l with policy, asked := askedAfter l.policy policy l.asked ctx }

end Link

/-! ### The debounce -/

def DEVICE_DEBOUNCE : ℕ := 5000000000

/-- The tables, control's engines, and the times at which the devices were last patched. -/
structure Patching where
  now : ℕ
  db : Db
  engines : Engines
  devicePatchAt : DeviceId → Option ℕ

inductive PatchEvent where
  | tick (d : ℕ)
  | write (db : Db)
  /-- A call of `patch_device_attrs`. `read` is whether its query succeeds. -/
  | patch (tenant : TenantId) (device : DeviceId) (read : Bool) (unix : ℤ)

namespace Patching

def debounced (s : Patching) (device : DeviceId) : Bool :=
  (s.devicePatchAt device).any fun last => s.now - last < DEVICE_DEBOUNCE

def step (env : PushEnv) (s : Patching) : PatchEvent → Patching
  | .tick d => { s with now := s.now + d }
  | .write db => { s with db }
  | .patch tenant device read unix =>
    if s.debounced device then s
    else
      let db := if read then some s.db else none
      { s with
        engines := (patchDeviceAttrs env s.engines tenant device db unix).1
        devicePatchAt := update s.devicePatchAt device (some s.now) }

end Patching

end Avon.Control
