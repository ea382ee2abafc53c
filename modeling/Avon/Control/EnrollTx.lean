import Avon.Control.Ipam
import Avon.Lib.Locks

/-!
# Enrollments that run at the same time

`enroll` as one transaction among others. `ι` is the type of calls, and `Event.next` lets a call run
its next statement with what comes before it. The isolation level is READ COMMITTED, and
`SELECT ... FOR UPDATE` waits until nobody else holds the row. `committed` is not in the database.
-/

set_option autoImplicit false

namespace Avon.Control.Enrollment

open Avon.Ca Avon.Crypto Avon.Keystore Avon.Lib

/-- The arguments of `enroll`, and what it draws and is told on the way. -/
structure Call (C : HybridImpl) where
  req : EnrollRequest
  clientIp : Option IpAddr
  deviceId : Uuid
  ca : CaWorld C

structure Enrolling (C : HybridImpl) where
  call : Call C
  csr : Csr
  template : TbsCertificate
  token : TokenRow

structure EnrollResponse where
  deviceId : DeviceId
  tenantId : TenantId
  credential : Certificate
  status : String

inductive Outcome where
  | enrolled (response : EnrollResponse)
  | allocated (nets : IpNet × IpNet)
  | failed (status : Status)

def Outcome.ok : Outcome → Bool
  | .failed _ => false
  | _ => true

inductive Phase (C : HybridImpl) where
  | idle
  | consuming (call : Call C) (csr : Csr) (template : TbsCertificate)
  | counting (e : Enrolling C)
  | creating (e : Enrolling C)
  | addingPods (e : Enrolling C) (rest : List Uuid)
  | allocating (e : Option (Enrolling C)) (tenant : TenantId) (device : DeviceId)
      (phase : AllocPhase)
  | recording (e : Enrolling C)
  | issuing (e : Enrolling C)
  | committing (outcome : Outcome)
  | ended (outcome : Outcome)

structure System (C : HybridImpl) (ι : Type) where
  db : Tables
  holder : Locks Lock ι
  phase : ι → Phase C
  writes : ι → Writes
  committed : List (ι × Writes)

def hashToken (C : HybridImpl) (token : String) : Key := C.sha256 (utf8 token)

def Tables.findToken (t : Tables) (hash : Key) : Option TokenRow :=
  t.tokens.find? fun row => row.tokenHash = hash

def TokenRow.checkUse (token : TokenRow) (now : ℤ) : Except EnrollError Unit :=
  if token.expiresAt < now then .error .expired
  else if token.useCount ≥ token.maxUses then .error .exhausted
  else .ok ()

def consumeToken (C : HybridImpl) (t : Tables) (token : String) (now : ℤ) :
    Except EnrollError TokenRow :=
  match t.findToken (hashToken C token) with
  | none => .error .invalidToken
  | some row => do
    row.checkUse now
    return row

def databaseUnavailable : Status := ⟨.unavailable, "database"⟩

/-- `pending` until somebody approves the device, if the token asks for it. -/
def TokenRow.deviceStatus (token : TokenRow) : String :=
  if token.requireApproval then "pending" else "active"

def Enrolling.deviceRow {C : HybridImpl} (e : Enrolling C) (keyProvider : String) : Device where
  tenantId := e.token.tenantId
  name := deviceName e.call.req e.token.toEnrollmentToken e.call.deviceId
  kind := e.token.deviceKind
  status := e.token.deviceStatus
  deviceClassId := e.token.deviceClassId
  fingerprint := fingerprintOf e.call.req
  keyProvider := keyProvider
  id := e.call.deviceId
  overlayIpv4 := none
  overlayIpv6 := none

/-- The rows of `device_pods` with one more, unless it is there. -/
def addPod (t : Tables) (device : DeviceId) (pod : Uuid) (new : List (DeviceId × Uuid)) :
    List (DeviceId × Uuid) :=
  if (device, pod) ∈ t.devicePods then new else new ++ [(device, pod)]

/-- The columns that refer to other tables refer to rows that exist. Nothing asks for the tenant of
those rows. -/
def Tables.hasClass (t : Tables) (deviceClassId : Option Uuid) : Bool :=
  deviceClassId.all fun id => t.deviceClasses.any fun row => row.id = id

def Tables.hasPod (t : Tables) (pod : Uuid) : Bool := t.pods.any fun row => row.id = pod

/-- What the database tells a call that runs alone. Its statements may still fail: `w` says so. What
`w` has for `consume_token` is not looked at. -/
def worldIn (C : HybridImpl) (t : Tables) (now : ℤ) (req : EnrollRequest) (w : EnrollWorld C) :
    EnrollWorld C :=
  let token := consumeToken C t req.token now
  { w with
    consumeToken := token.map (·.toEnrollmentToken)
    createOk := w.createOk && token.toOption.any fun token =>
      t.hasClass token.deviceClassId && token.podIds.all t.hasPod }

def enrollIn (C : HybridImpl) (B : BindingImpl) (t : Tables) (now : ℤ) (req : EnrollRequest)
    (w : EnrollWorld C) : Except Status (EnrolledDevice × Certificate) :=
  enroll C B (fun id => t.devices.any fun row => row.id = id) req (worldIn C t now req w)

namespace System

variable {C : HybridImpl} {ι : Type} [DecidableEq ι]

def init (C : HybridImpl) (ι : Type) (db : Tables) : System C ι where
  db := db
  holder _ := none
  phase _ := .idle
  writes _ := .none
  committed := []

variable (s : System C ι) (k : ι)

def view : Tables := s.db.apply (s.writes k)

/-- The call goes on, with more locks and these writes. -/
def goto (phase : Phase C) (locks : List Lock) (writes : Writes) : System C ι :=
  { s with
    holder := s.holder.acquire k locks
    phase := Function.update s.phase k phase
    writes := Function.update s.writes k writes }

def finish (outcome : Outcome) : System C ι :=
  { s with
    holder := s.holder.release k
    phase := Function.update s.phase k (.ended outcome)
    writes := Function.update s.writes k .none }

def rollback (status : Status) : System C ι := s.finish k (.failed status)

def commit (outcome : Outcome) : System C ι :=
  { s.finish k outcome with
    db := s.view k
    committed := s.committed ++ [(k, s.writes k)] }

def allocNext (tenant : TenantId) (device : DeviceId) (phase : AllocPhase) : AllocStep :=
  Enrollment.allocNext (s.holder.free k) (s.view k) tenant device phase

/-- The next statement of call `k`. A statement that has to wait changes nothing. -/
def next (B : BindingImpl) (s : System C ι) (k : ι) (now : ℤ) : System C ι :=
  match s.phase k with
  | .idle | .ended _ => s
  | .consuming call csr template =>
    match s.db.findToken (hashToken C call.req.token) with
    | none => s.rollback k rejected
    | some token =>
      if !s.holder.free k [.token token.id] then s
      else match token.checkUse now with
        | .error _ => s.rollback k rejected
        | .ok () =>
          s.goto k (.counting ⟨call, csr, template, token⟩) [.token token.id] (s.writes k)
  | .counting e =>
    s.goto k (.creating e) [] { s.writes k with counted := some e.token.id }
  | .creating e =>
    match checkToken e.call.req e.token.toEnrollmentToken with
    | .error status => s.rollback k status
    | .ok () =>
      match keyProviderOf B e.call.req e.csr e.template with
      | .error status => s.rollback k status
      | .ok keyProvider =>
        if (s.view k).devices.any fun row => row.id = e.call.deviceId then
          s.rollback k databaseUnavailable
        else if !(s.view k).hasClass e.token.deviceClassId then
          s.rollback k databaseUnavailable
        else if !s.holder.free k [.device e.call.deviceId] then s
        else s.goto k (.addingPods e e.token.podIds) [.device e.call.deviceId]
          { s.writes k with device := some (e.deviceRow keyProvider) }
  | .addingPods e [] =>
    s.goto k (.allocating (some e) e.token.tenantId e.call.deviceId .lockPool) [] (s.writes k)
  | .addingPods e (pod :: rest) =>
    if !(s.view k).hasPod pod then s.rollback k databaseUnavailable
    else s.goto k (.addingPods e rest) [] { s.writes k with
      devicePods := addPod (s.view k) e.call.deviceId pod (s.writes k).devicePods }
  | .allocating e tenant device phase =>
    match s.allocNext k tenant device phase with
    | .wait => s
    | .go locks phase' => s.goto k (.allocating e tenant device phase') locks (s.writes k)
    | .done _ _ (.error _) => s.rollback k databaseUnavailable
    | .done locks overlay (.ok nets) =>
      s.goto k (match e with | some e => .recording e | none => .committing (.allocated nets))
        locks { s.writes k with overlay := overlay }
  | .recording e =>
    s.goto k (.issuing e) [] { s.writes k with
      enrolled := some ⟨e.token.id, e.call.deviceId, e.call.clientIp⟩ }
  | .issuing e =>
    match issueDeviceCredential C e.call.ca e.token.tenantId e.call.deviceId e.csr .device
        (deviceSans e.token.tenantId e.call.deviceId) with
    | .error _ => s.rollback k ⟨.unavailable, "certificate authority"⟩
    | .ok certificate =>
      s.goto k (.committing (.enrolled ⟨e.call.deviceId, e.token.tenantId, certificate,
        e.token.deviceStatus⟩)) [] (s.writes k)
  | .committing outcome => s.commit k outcome

def begin (call : Call C) : System C ι :=
  if call.req.token.utf8ByteSize = 0 ∨ call.req.token.utf8ByteSize > 256 then s.rollback k rejected
  else match enrollTemplate C call.req with
    | .error status => s.rollback k status
    | .ok (csr, template) => s.goto k (.consuming call csr template) [] (s.writes k)

end System

inductive Event (C : HybridImpl) (ι : Type) where
  | enroll (k : ι) (call : Call C)
  | allocate (k : ι) (tenant : TenantId) (device : DeviceId)
  | next (k : ι) (now : ℤ)
  /-- A statement or the commit of a call fails, or the call is given up. -/
  | fail (k : ι)

def step {C : HybridImpl} {ι : Type} [DecidableEq ι] (B : BindingImpl) (s : System C ι) :
    Event C ι → System C ι
  | .enroll k call =>
    match s.phase k with
    | .idle => s.begin k call
    | _ => s
  | .allocate k tenant device =>
    match s.phase k with
    | .idle => s.goto k (.allocating none tenant device .lockPool) [] (s.writes k)
    | _ => s
  | .next k now => s.next B k now
  | .fail k =>
    match s.phase k with
    | .idle | .ended _ => s
    | _ => s.rollback k databaseUnavailable

end Avon.Control.Enrollment
