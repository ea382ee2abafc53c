import Avon.Lib.Run
import Mathlib.Data.BitVec

/-!
# Revocation and the stored CRL versions

`crl.rs` against its database. A `Call` stands before one of its statements, and an `Event` lets one
call run its next statement, or lets time pass. The isolation level is READ COMMITTED, and `now()`
is the time at which the transaction began. Of two transactions that insert the same version, the
second waits for the first and fails when that one commits.
-/

set_option autoImplicit false

namespace Avon.Ca

/-- A 16-byte certificate serial. The column has a `CHECK` on the length. -/
abbrev Serial := BitVec 128

structure CertRow where
  serial : Serial
  notAfter : ℕ
  revoked : Bool
  deriving DecidableEq, Repr

structure CrlRow where
  version : ℕ
  serials : List Serial
  deriving DecidableEq, Repr

/-- A running call. The target is the serial of a `revoke`; `current_crl` has none. -/
inductive Call where
  | building (target : Option Serial)
  | begun (target : Option Serial) (start : ℕ)
  /-- The serials are read. `seen` is the highest version committed at that moment; the
  code does not keep it. -/
  | read (target : Option Serial) (serials : List Serial) (seen : ℕ)
  | numbered (target : Option Serial) (serials : List Serial) (version : ℕ)
  | inserted (target : Option Serial) (serials : List Serial) (version : ℕ)
  | done (target : Option Serial)
  | failed
  deriving DecidableEq, Repr

/-- The database, the clock and the calls, in the order in which they started. -/
structure State where
  now : ℕ
  certificates : List CertRow
  crlVersions : List CrlRow
  calls : List Call
  deriving DecidableEq, Repr

def State.init (now : ℕ) : State := ⟨now, [], [], []⟩

def maxVersion (rows : List CrlRow) : ℕ := (rows.map CrlRow.version).foldr max 0

/-- `SELECT serial ... WHERE revoked_at IS NOT NULL AND not_after > now() ORDER BY serial`. -/
def revokedSerials (certificates : List CertRow) (start : ℕ) : List Serial :=
  ((certificates.filter fun c => c.revoked && start < c.notAfter).map CertRow.serial).insertionSort
    fun a b => a.toNat ≤ b.toNat

def markRevoked (certificates : List CertRow) (serial : Serial) : List CertRow :=
  certificates.map fun c => if c.serial = serial then { c with revoked := true } else c

def MAX_VERSION : ℕ := 2 ^ 63 - 1

inductive Event where
  | tick (d : ℕ)
  | issue (serial : Serial) (notAfter : ℕ)
  | revoke (serial : Serial)
  | currentCrl
  | begin (call : ℕ)
  | selectSerials (call : ℕ)
  | selectNext (call : ℕ)
  | insert (call : ℕ)
  | commit (call : ℕ)
  | fail (call : ℕ)
  deriving DecidableEq, Repr

namespace Call

def pending : Call → Option ℕ
  | .inserted _ _ v => some v
  | _ => none

def returned : Call → Bool
  | .done _ | .failed => true
  | _ => false

end Call

namespace State

def setCall (s : State) (i : ℕ) (c : Call) : State := { s with calls := s.calls.set i c }

/-- The next statement of call `i`. An event that the call is not ready for changes
nothing. -/
def step (s : State) : Event → State
  | .tick d => { s with now := s.now + d }
  | .issue serial notAfter =>
    if s.certificates.any fun c => c.serial = serial then s
    else { s with certificates := s.certificates ++ [⟨serial, notAfter, false⟩] }
  | .revoke serial =>
    -- `rows_affected() == 0` is the error "unknown serial".
    if s.certificates.any fun c => c.serial = serial then
      { s with
        certificates := markRevoked s.certificates serial
        calls := s.calls ++ [.building (some serial)] }
    else { s with calls := s.calls ++ [.failed] }
  | .currentCrl =>
    if s.crlVersions.isEmpty then { s with calls := s.calls ++ [.building none] }
    else { s with calls := s.calls ++ [.done none] }
  | .begin i =>
    match s.calls[i]? with
    | some (.building t) => s.setCall i (.begun t s.now)
    | _ => s
  | .selectSerials i =>
    match s.calls[i]? with
    | some (.begun t start) =>
      s.setCall i (.read t (revokedSerials s.certificates start) (maxVersion s.crlVersions))
    | _ => s
  | .selectNext i =>
    match s.calls[i]? with
    | some (.read t serials _) =>
      if maxVersion s.crlVersions < MAX_VERSION then
        s.setCall i (.numbered t serials (maxVersion s.crlVersions + 1))
      else s.setCall i .failed
    | _ => s
  | .insert i =>
    match s.calls[i]? with
    | some (.numbered t serials version) =>
      if s.crlVersions.any fun r => r.version = version then s.setCall i .failed
      -- Another transaction holds this version: the insert waits.
      else if s.calls.any fun c => c.pending = some version then s
      else s.setCall i (.inserted t serials version)
    | _ => s
  | .commit i =>
    match s.calls[i]? with
    | some (.inserted t serials version) =>
      { s.setCall i (.done t) with crlVersions := s.crlVersions ++ [⟨version, serials⟩] }
    | _ => s
  | .fail i =>
    match s.calls[i]? with
    | some c => if c.returned then s else s.setCall i .failed
    | none => s

def Unexpired (s : State) (serial : Serial) : Prop :=
  ∃ c ∈ s.certificates, c.serial = serial ∧ s.now < c.notAfter

/-- A serial in a stored version is in every higher stored version while its certificate
has not expired. -/
def CrlMonotone (s : State) : Prop :=
  ∀ a ∈ s.crlVersions, ∀ b ∈ s.crlVersions, a.version < b.version →
    ∀ x ∈ a.serials, s.Unexpired x → x ∈ b.serials

/-- The serial of a `revoke` that returned `Ok` is in the highest stored version while its
certificate has not expired. -/
def RevokedPublished (s : State) : Prop :=
  ∀ x, .done (some x) ∈ s.calls → s.Unexpired x →
    ∃ top ∈ s.crlVersions, (∀ r ∈ s.crlVersions, r.version ≤ top.version) ∧ x ∈ top.serials

end State

end Avon.Ca
