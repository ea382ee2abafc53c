import Avon.Ca.Crl
import Avon.Control.Auth
import Avon.Json
import Avon.Lib.Outcomes

/-!
# What is done to devices

The operations that write the status of a device: those of control, the endpoints of the admin API
with the `AdminService` behind them, and SCIM. One follows the other, and each may fail at any
statement, Redis command or call of the CA. `Plane` is what control keeps besides the tables.
-/

set_option autoImplicit false

namespace Avon.Lifecycle

open Avon.Lib Avon.Lib.Outcomes Avon.Lib.Outcomes.Prog
open Avon.Control (DeviceStatus SessionRow DOWN_CAPACITY)

/-! ### Tables -/

abbrev UserId := Uuid

/-- The values of `managed_by`: `'local'` and `'scim'`. -/
inductive ManagedBy where
  | locally
  | scim
  deriving DecidableEq, Repr

structure UserRow where
  id : UserId
  tenantId : TenantId
  isAdmin : Bool
  isActive : Bool
  managedBy : ManagedBy
  deriving DecidableEq, Repr

structure DeviceRow where
  id : DeviceId
  tenantId : TenantId
  name : String
  status : DeviceStatus
  enrolledBy : Option UserId
  deriving DecidableEq, Repr

structure Db where
  users : List UserRow
  devices : List DeviceRow
  deriving DecidableEq, Repr

def Db.setStatus (db : Db) (device : DeviceId) (status : DeviceStatus) : Db :=
  { db with devices := db.devices.map fun d => if d.id = device then { d with status } else d }

def Db.setActive (db : Db) (user : UserId) (isActive : Bool) : Db :=
  { db with users := db.users.map fun u => if u.id = user then { u with isActive } else u }

structure CertificateRow where
  serial : Ca.Serial
  subjectId : DeviceId
  notAfter : ℕ
  revoked : Bool
  deriving DecidableEq, Repr

def CertificateRow.toCa (c : CertificateRow) : Ca.CertRow := ⟨c.serial, c.notAfter, c.revoked⟩

inductive Down where
  | crl (serials : List Ca.Serial)
  | close (id : SessionId) (reason : String)
  deriving DecidableEq, Repr

structure Plane where
  now : ℕ
  certificates : List CertificateRow
  sessions : List SessionRow
  redis : Expiring.Store String Control.Auth.Stored
  crl : List Ca.Serial
  gateways : GatewayId → Option (List Down)

structure System where
  db : Db
  plane : Plane

/-! ### The control plane -/

structure ControlEnv where
  ttlSecs : ℕ
  verifies : List Ca.Serial → Bool

abbrev Call (α : Type) := Prog System Control.Auth.Status α

def DATABASE : Control.Auth.Status := ⟨.unavailable, "database"⟩

def CA_UNAVAILABLE : Control.Auth.Status := ⟨.unavailable, "ca"⟩

def onPlane (fault : Control.Auth.Status) (f : Plane → Plane) : Call Unit :=
  statement fault fun s => .ok { s with plane := f s.plane }

def writeStatus {ε : Type} (fault : ε) (device : DeviceId) (status : DeviceStatus) :
    Prog System ε Unit :=
  statement fault fun s => .ok { s with db := s.db.setStatus device status }

def lookup (p : Plane) (token : Crypto.Key) : Option Control.Auth.SessionInfo :=
  match p.redis.get p.now (Control.Auth.sessionKey token) with
  | some (.session info) =>
    if (p.redis.get p.now (Control.Auth.revokedKey info.device)).isSome then none else some info
  | _ => none

def revokeTokens (K : ControlEnv) (device : DeviceId) : Call Unit :=
  onPlane Control.Auth.STORE_UNAVAILABLE fun p =>
    let key := Control.Auth.revokedKey device
    { p with redis := p.redis.setEx p.now key .marker (K.ttlSecs * 1000) }

def trySend (queue : List Down) (msg : Down) : List Down :=
  if queue.length < DOWN_CAPACITY then queue ++ [msg] else queue

def openFor (device : DeviceId) (row : SessionRow) : Bool :=
  row.deviceId = device && row.state ≠ .closed

/-- A gateway is told that a session is closed, if it is connected. -/
def tell (reason : String) (gateways : GatewayId → Option (List Down)) (row : SessionRow) :
    GatewayId → Option (List Down) :=
  match row.gatewayId with
  | none => gateways
  | some g => Function.update gateways g
      ((gateways g).map fun queue => trySend queue (.close row.id reason))

/-- `close_device_sessions`. A statement that fails closes nothing, and is not reported. -/
def closeDeviceSessions (device : DeviceId) (reason : String) : Call Unit :=
  suppress (onPlane DATABASE fun p => { p with
    sessions := p.sessions.map fun row =>
      if openFor device row then { row with state := .closed } else row
    gateways := (p.sessions.filter (openFor device)).foldl (tell reason) p.gateways })

def suspendDevice (K : ControlEnv) (device : DeviceId) (reason : String) : Call Unit := do
  writeStatus DATABASE device .suspended
  revokeTokens K device
  -- The tenant of the device is read for `patch_device_attrs`.
  query DATABASE fun _ => ()
  closeDeviceSessions device reason

/-- `ca.revoke` marks the certificate; the CRL that it returns is made after that. -/
def caRevoke (serial : Ca.Serial) : Call Unit :=
  onPlane CA_UNAVAILABLE fun p => { p with certificates := p.certificates.map fun c =>
    if c.serial = serial then { c with revoked := true } else c }

def caCrl (p : Plane) : List Ca.Serial :=
  Ca.revokedSerials (p.certificates.map CertificateRow.toCa) p.now

/-- The cached CRL is replaced, if the new one verifies, and the gateways get the new one. -/
def publish (K : ControlEnv) (crl : List Ca.Serial) (p : Plane) : Plane :=
  { p with
    crl := if K.verifies crl then crl else p.crl
    gateways := fun g => (p.gateways g).map fun queue => trySend queue (.crl crl) }

/-- The CRL of the last call of the CA, if there was one; its answer may be lost. -/
def publishLast (K : ControlEnv) (serials : List Ca.Serial) : Call Unit :=
  if serials.isEmpty then pure () else onPlane CA_UNAVAILABLE fun p => publish K (caCrl p) p

def revokeDevice (K : ControlEnv) (device : DeviceId) (reason : String) : Call Unit := do
  writeStatus DATABASE device .revoked
  let serials ← query DATABASE fun s : System =>
    (s.plane.certificates.filter fun c => c.subjectId = device && !c.revoked).map
      CertificateRow.serial
  forEach serials caRevoke
  publishLast K serials
  revokeTokens K device
  closeDeviceSessions device reason

/-! ### The device router -/

inductive Failure where
  | http (status : ℕ) (detail : String)
  | internal
  deriving DecidableEq, Repr

abbrev Handler (α : Type) := Prog System Failure α

def fail {α : Type} (status : ℕ) (detail : String) : Handler α := raise (.http status detail)

/-- `get_current_admin`, for a valid token of this user. -/
def getCurrentAdmin (id : UserId) : Handler UserRow := do
  match ← query .internal fun s : System => s.db.users.find? fun u => u.id = id with
  | none => fail 401 "User not found"
  | some user =>
    if !user.isActive then fail 403 "User account is disabled"
    else if user.isAdmin then pure user
    else fail 403 "Admin privileges required"

/-- `log_activity`. The table has a `CHECK` on the type of the actor. -/
def logActivity (actorType : String) : Handler Unit :=
  statement .internal fun s =>
    if actorType ∈ ["user", "device", "service", "system"] then .ok s else .error .internal

/-- `suspend_device` and `activate_device`: a device of the tenant gets a status that it does not
have yet. -/
def changeStatus (id : UserId) (device : DeviceId) (status : DeviceStatus)
    (already word : String) : Handler String := do
  let user ← getCurrentAdmin id
  let row ← query .internal fun s : System =>
    s.db.devices.find? fun d => d.id = device && d.tenantId = user.tenantId
  match row with
  | none => fail 404 "Device not found"
  | some d =>
    if d.status = status then fail 400 already
    else do
      writeStatus .internal device status
      logActivity "user"
      pure ("Device " ++ d.name ++ " has been " ++ word)

def suspendEndpoint (id : UserId) (device : DeviceId) : Handler String :=
  changeStatus id device .suspended "Device is already suspended" "suspended"

def activateEndpoint (id : UserId) (device : DeviceId) : Handler String :=
  changeStatus id device .active "Device is already active" "activated"

structure Ack where
  ok : Bool
  message : String
  deriving DecidableEq, Repr

namespace AdminService

def revokeDevice (_tenant : TenantId) (_device : DeviceId) (_reason : String) (p : Plane) :
    Ack × Plane := (⟨true, ""⟩, p)

def approveDevice (_tenant : TenantId) (_device : DeviceId) (p : Plane) : Ack × Plane :=
  (⟨true, ""⟩, p)

end AdminService

/-- A method of `ControlClient`. It raises if there is no answer; what the answer says is not looked
at. -/
def callControl (method : Plane → Ack × Plane) (error : String) : Handler Unit :=
  statement (.http 503 ("control unavailable: " ++ error)) fun s =>
    .ok { s with plane := (method s.plane).2 }

/-- `approve_device_endpoint` and `revoke_device_endpoint`: the status is written when the control
plane has acknowledged. -/
def throughControl (id : UserId) (method : TenantId → Plane → Ack × Plane) (error : String)
    (device : DeviceId) (status : DeviceStatus) : Handler Unit := do
  let user ← getCurrentAdmin id
  callControl (method user.tenantId) error
  writeStatus .internal device status
  suppress (logActivity "user")

def approveEndpoint (id : UserId) (device : DeviceId) (error : String) : Handler Unit :=
  throughControl id (fun tenant => AdminService.approveDevice tenant device) error device .active

def revokeEndpoint (id : UserId) (device : DeviceId) (reason error : String) : Handler Unit :=
  throughControl id (fun tenant => AdminService.revokeDevice tenant device reason) error device
    .revoked

/-! ### SCIM -/

namespace Scim

/-- The arguments of `update_user` that `_scim_to_field` gives. -/
inductive Field where
  | userName
  | active
  | fullName
  | externalId
  deriving DecidableEq, Repr

def scimToField (scimAttr : String) : Option Field :=
  if scimAttr = "userName" then some .userName
  else if scimAttr = "active" then some .active
  else if scimAttr = "name.formatted" ∨ scimAttr = "displayName" then some .fullName
  else if scimAttr = "externalId" then some .externalId
  else none

structure Changes where
  active : Json
  others : List (Field × Json)

def Changes.set (c : Changes) (field : Field) (v : Json) : Changes :=
  if field = .active then { c with active := v } else { c with others := c.others ++ [(field, v)] }

/-- A value as a parameter of type `boolean`; asyncpg refuses other values. -/
def boolParam : Json → Option (Option Bool)
  | .null => some none
  | .bool b => some (some b)
  | _ => none

def getUser (tenant : TenantId) (id : UserId) : Handler (Option UserRow) :=
  query .internal fun s => s.db.users.find? fun u => u.id = id && u.tenantId = tenant

def setActive (id : UserId) (isActive : Bool) : Handler Unit :=
  statement .internal fun s => .ok { s with db := s.db.setActive id isActive }

/-- `SELECT id FROM devices WHERE enrolled_by = … AND status = 'active'`. -/
def activeDevices (id : UserId) (db : Db) : List DeviceId :=
  (db.devices.filter fun d => d.enrolledBy = some id && d.status = .active).map DeviceRow.id

def deprovisionUser (id : UserId) : Handler Unit := do
  setActive id false
  let devices ← query .internal fun s : System => activeDevices id s.db
  forEach devices fun device => do
    writeStatus .internal device .suspended
    logActivity "scim"

def writeActive (user : UserRow) (active : Json) : Handler Unit :=
  match boolParam active with
  | none => raise .internal
  | some none => pure ()
  | some (some b) =>
    if b = false ∧ user.isActive then deprovisionUser user.id else setActive user.id b

/-- What the other columns take depends on their types and on the other rows. -/
def writeOthers (accepts : List (Field × Json) → Bool) (c : Changes) : Handler Unit :=
  statement .internal fun s =>
    if c.others.isEmpty || accepts c.others then .ok s else .error .internal

section Service

variable (accepts : List (Field × Json) → Bool) (tenant : TenantId) (id : UserId)

def mutabilityError {α : Type} : Handler α := fail 403 "user is managed locally, not by the IdP"

def updateUser (c : Changes) : Handler (Option UserRow) := do
  match ← getUser tenant id with
  | none => pure none
  | some user =>
    if user.managedBy = .scim then do
      writeActive user c.active
      writeOthers accepts c
      getUser tenant id
    else mutabilityError

def deleteUser : Handler Bool := do
  match ← getUser tenant id with
  | none => pure false
  | some user =>
    if user.managedBy = .scim then do
      deprovisionUser user.id
      logActivity "scim"
      pure true
    else mutabilityError

end Service

structure PatchOperation where
  op : String
  path : Option String
  value : Json

def asFlag : Json → Json
  | .string s =>
    if s.toLower = "true" then .bool true
    else if s.toLower = "false" then .bool false
    else .string s
  | v => v

inductive PatchStep where
  | skip
  /-- The attribute of the path is unknown: `None` is no name of an argument. -/
  | raise
  | update (changes : Changes)

def PatchOperation.step (o : PatchOperation) : PatchStep :=
  if o.op.toLower = "replace" then
    match o.path.filter (· ≠ "") with
    | some path =>
      match scimToField path with
      | none => .raise
      | some field => .update (Changes.set ⟨.null, []⟩ field (asFlag o.value))
    | none =>
      match o.value with
      | .object fields =>
        let known := fields.filterMap fun (k, v) => (scimToField k).map fun field => (field, v)
        if known.isEmpty then .skip
        else .update (known.foldl (fun c (field, v) => c.set field v) ⟨.null, []⟩)
      | _ => .skip
  else .skip

inductive Request where
  | replaceUser (active : Bool) (others : List (Field × Json))
  | patchUser (operations : List PatchOperation)
  | deleteUser

def patchSteps (accepts : List (Field × Json) → Bool) (tenant : TenantId) (id : UserId) :
    List PatchStep → Handler Unit
  | [] => pure ()
  | .skip :: steps => patchSteps accepts tenant id steps
  | .raise :: _ => Prog.raise .internal
  | .update c :: steps => do
    let _ ← updateUser accepts tenant id c
    patchSteps accepts tenant id steps

/-- The endpoints. A user that is not found is the answer 404. -/
def handle (accepts : List (Field × Json) → Bool) (tenant : TenantId) (id : UserId) :
    Request → Handler Unit
  | .replaceUser active others => do
    if (← updateUser accepts tenant id ⟨.bool active, others⟩).isNone then fail 404 "User not found"
  | .patchUser operations => do
    patchSteps accepts tenant id (operations.map PatchOperation.step)
    if (← getUser tenant id).isNone then fail 404 "User not found"
  | .deleteUser => do
    if !(← deleteUser tenant id) then fail 404 "User not found"

end Scim

/-! ### Events -/

inductive Operation where
  | approve (id : UserId) (device : DeviceId) (error : String)
  | suspend (id : UserId) (device : DeviceId)
  | activate (id : UserId) (device : DeviceId)
  | revoke (id : UserId) (device : DeviceId) (reason error : String)
  | scim (accepts : List (Scim.Field × Json) → Bool) (tenant : TenantId) (id : UserId)
      (req : Scim.Request)
  | controlSuspend (K : ControlEnv) (device : DeviceId) (reason : String)
  | controlRevoke (K : ControlEnv) (device : DeviceId) (reason : String)

/-- The states in which an operation may leave the system. -/
def Operation.ends (s : System) : Operation → List System
  | .approve id device error => (approveEndpoint id device error s).map Prod.snd
  | .suspend id device => (suspendEndpoint id device s).map Prod.snd
  | .activate id device => (activateEndpoint id device s).map Prod.snd
  | .revoke id device reason error => (revokeEndpoint id device reason error s).map Prod.snd
  | .scim accepts tenant id req => (Scim.handle accepts tenant id req s).map Prod.snd
  | .controlSuspend K device reason => (suspendDevice K device reason s).map Prod.snd
  | .controlRevoke K device reason => (revokeDevice K device reason s).map Prod.snd

/-- One operation, with the number of the state in which it ends. -/
def step (s : System) (e : Operation × ℕ) : System := (e.1.ends s)[e.2]?.getD s

end Avon.Lifecycle
