import Avon.Control.PolicyPush

/-!
# From a committed change to control's engine

`policy_listener` with the trigger `bump_policy_snapshot`. When the connection is lost, nothing is
delivered that was sent in between. Starting over spawns a new drain task, and the old one goes on:
the line that aborts it is unreachable. A refresh is a read and a load. `lastRefresh` is not in the
code.
-/

set_option autoImplicit false

namespace Avon.Control

open Avon.Policy

/-- The version of a tenant's snapshot, as `load_snapshot` reads it. -/
def Db.snapshotVersion (db : Db) (tenant : TenantId) : UInt64 :=
  match db.policySnapshots.find? fun row => row.tenantId = tenant with
  | some row => UInt64.ofInt row.version
  | none => 1

/-- `INSERT INTO policy_snapshots … ON CONFLICT (tenant_id) DO UPDATE`. -/
def bumpVersion (tenant : TenantId) : List SnapshotRow → List SnapshotRow
  | [] => [⟨tenant, 1⟩]
  | row :: rows =>
    if row.tenantId = tenant then { row with version := row.version + 1 } :: rows
    else row :: bumpVersion tenant rows

/-- `bump_policy_snapshot`, for the rows of one transaction. `changes` are the tenants of its rows,
in order. -/
def bumpPolicySnapshot (changes : List TenantId) (rows : List SnapshotRow) : List SnapshotRow :=
  changes.foldl (fun rows tenant => bumpVersion tenant rows) rows

def DEBOUNCE : ℕ := 250

abbrev Refresh := TenantId × SnapshotData

/-- A drain task: its map, the tenants it has taken out and not yet refreshed, and the refresh it
is in. -/
structure Drainer where
  pending : List (TenantId × ℕ)
  due : List TenantId
  running : Option Refresh

namespace Drainer

def new : Drainer := ⟨[], [], none⟩

/-- A notification for a tenant: its entry in the map is replaced. -/
def insert (d : Drainer) (tenant : TenantId) (now : ℕ) : Drainer :=
  { d with pending := (tenant, now) :: d.pending.filter fun entry => entry.1 ≠ tenant }

/-- One tick, if the last one is done with: the entries that are old enough are taken out. -/
def tick (d : Drainer) (now : ℕ) : Drainer :=
  if d.due.isEmpty ∧ d.running.isNone then
    { d with
      pending := d.pending.filter fun entry => ¬ now - entry.2 ≥ DEBOUNCE
      due := (d.pending.filter fun entry => now - entry.2 ≥ DEBOUNCE).map Prod.fst }
  else d

def waiting (d : Drainer) : List TenantId := d.pending.map Prod.fst ++ d.due

end Drainer

inductive Connection where
  | down
  | listening
  | lost
  deriving DecidableEq, Repr

structure Listener where
  db : Db
  connection : Connection
  notifications : List TenantId
  drainers : List Drainer
  others : List Refresh
  engines : Engines
  clock : ℕ
  lastRefresh : TenantId → Option Bool

inductive ListenerEvent where
  /-- A transaction commits: `tables` are the tables after it, except for the versions. -/
  | commit (tables : Db) (changes : List TenantId)
  | connect
  /-- The connection is lost, and all but the first `kept` of what was sent on it. -/
  | lose (kept : ℕ)
  | reconnect
  | fail
  | receive
  | elapse (d : ℕ)
  | tick (position : ℕ)
  /-- It reads the snapshot of a due tenant. The map has no order, so it can be any of them. -/
  | read (position : ℕ) (tenant : TenantId) (ok : Bool)
  | load (position : ℕ) (now : ℤ)
  | otherRead (tenant : TenantId) (ok : Bool)
  | otherLoad (position : ℕ) (now : ℤ)

namespace Listener

def start (db : Db) : Listener := ⟨db, .down, [], [], [], fun _ => none, 0, fun _ => none⟩

def finish (env : PushEnv) (s : Listener) (r : Refresh) (now : ℤ) : Listener :=
  let (engines, result) := loadEngine env s.engines r.1 r.2 now
  { s with engines, lastRefresh := Function.update s.lastRefresh r.1 (some result.isOk) }

def step (env : PushEnv) (s : Listener) : ListenerEvent → Listener
  | .commit tables changes =>
    { s with
      db := { tables with policySnapshots := bumpPolicySnapshot changes s.db.policySnapshots }
      notifications := if s.connection = .listening then s.notifications ++ changes
        else s.notifications }
  | .connect =>
    if s.connection = .down then
      { s with connection := .listening, drainers := .new :: s.drainers }
    else s
  | .lose kept =>
    if s.connection = .listening then
      { s with connection := .lost, notifications := s.notifications.take kept }
    else s
  | .reconnect => if s.connection = .lost then { s with connection := .listening } else s
  | .fail => { s with connection := .down, notifications := [] }
  | .receive =>
    match s.notifications, s.drainers with
    | tenant :: notifications, d :: drainers =>
      { s with notifications, drainers := d.insert tenant s.clock :: drainers }
    | _, _ => s
  | .elapse d => { s with clock := s.clock + d }
  | .tick i =>
    match s.drainers[i]? with
    | some d => { s with drainers := s.drainers.set i (d.tick s.clock) }
    | none => s
  | .read i tenant ok =>
    match s.drainers[i]? with
    | some d =>
      if d.running.isNone ∧ tenant ∈ d.due then
        let due := d.due.erase tenant
        if ok then
          let running := some (tenant, loadSnapshot env.tz env.decode s.db tenant)
          { s with drainers := s.drainers.set i { d with due, running } }
        else
          { s with
            drainers := s.drainers.set i { d with due }
            lastRefresh := Function.update s.lastRefresh tenant (some false) }
      else s
    | none => s
  | .load i now =>
    match s.drainers[i]? with
    | some d =>
      match d.running with
      | some r =>
        let drainers := s.drainers.set i { d with running := none }
        { s with drainers }.finish env r now
      | none => s
    | none => s
  | .otherRead tenant ok =>
    if ok then
      { s with others := (tenant, loadSnapshot env.tz env.decode s.db tenant) :: s.others }
    else { s with lastRefresh := Function.update s.lastRefresh tenant (some false) }
  | .otherLoad n now =>
    match s.others[n]? with
    | some r => { s with others := s.others.eraseIdx n }.finish env r now
    | none => s

/-- The tenants with a notification that is queued or pending. -/
def waiting (s : Listener) : List TenantId :=
  s.notifications ++ s.drainers.flatMap Drainer.waiting

variable (s : Listener)

def refreshes : List Refresh := s.drainers.filterMap (·.running) ++ s.others

/-- The engine of the tenant was loaded from the current version of its snapshot. -/
def Loaded (tenant : TenantId) : Prop :=
  ∃ e loaded, s.engines tenant = some e ∧ e.inner = some loaded ∧
    loaded.data.version = s.db.snapshotVersion tenant

/-- No change is lost: while the listener is connected, a tenant that waits for no refresh, is in
none and whose last one did not fail has its current snapshot loaded. There is one drain task at
most. -/
def NoChangeLost : Prop :=
  (s.connection = .listening → ∀ tenant ∈ s.db.tenants, tenant ∉ s.waiting →
    (∀ r ∈ s.refreshes, r.1 ≠ tenant) → s.lastRefresh tenant ≠ some false → s.Loaded tenant) ∧
  s.drainers.length ≤ 1

/-- Some refresh of each tenant has ended. Control starts without engines, and neither
`policy_listener` nor `main` loads one before a tenant changes. -/
def EachRefreshed : Prop := ∀ tenant ∈ s.db.tenants, s.lastRefresh tenant ≠ none

/-- Nothing is committed while the listener is not connected, no notification is lost with the
connection, the listener connects once, and refreshes of a tenant do not overlap. -/
def undisturbed : ListenerEvent → Bool
  | .commit _ changes => changes.isEmpty || s.connection = .listening
  | .connect => s.drainers.isEmpty
  | .lose kept => s.notifications.length ≤ kept
  | .fail => s.notifications.isEmpty
  | .read _ tenant _ | .otherRead tenant _ => s.refreshes.all fun r => r.1 ≠ tenant
  | _ => true

end Listener

end Avon.Control
