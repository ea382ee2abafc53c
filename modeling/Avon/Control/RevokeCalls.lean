import Avon.Ca.Crl

/-!
# Concurrent revocations and the cached CRL

The calls of `revoke_device`, against a CA that answers each revocation with the next version of its
list. A call begins when it has read the serials of its device. `returned` is not in the code.
-/

set_option autoImplicit false

namespace Avon.Control

open Avon.Ca

inductive RevokeCall where
  /-- In the loop over the serials: those revoked, those to go, and the last list of the CA. -/
  | revoking (done todo : List Serial) (latest : Option CrlRow)
  | stored (serials : List Serial)
  | ended

/-- The CRL that a call has received and not yet stored. -/
def RevokeCall.held : RevokeCall → Option CrlRow
  | .revoking _ _ latest => latest
  | _ => none

structure Revoker where
  now : ℕ
  notAfter : Serial → ℕ
  revoked : List Serial
  version : ℕ
  crl : CrlRow
  calls : List RevokeCall
  returned : List Serial

/-- How a request to the CA ends. The answer can be lost when the revocation has taken effect. -/
inductive CaOutcome where
  | answered
  | failed
  | lost

inductive RevokeEvent where
  | tick (d : ℕ)
  | start (serials : List Serial)
  | caRevoke (call : ℕ) (outcome : CaOutcome)
  /-- It writes the cache. A list whose signature does not verify is left out. -/
  | store (call : ℕ) (verifies : Bool)
  | finish (call : ℕ) (ok : Bool)

namespace Revoker

variable (s : Revoker) (call : ℕ)

/-- The list that the CA builds: expired certificates are left out. -/
def caCrl : CrlRow :=
  ⟨s.version, s.revoked.filter fun x => s.now < s.notAfter x⟩

def setCall (c : RevokeCall) : Revoker :=
  { s with calls := s.calls.set call c }

/-- What a revocation does at the CA. -/
def caApply (serial : Serial) : Revoker :=
  { s with revoked := serial :: s.revoked, version := s.version + 1 }

def caRevokeStep (outcome : CaOutcome) : Revoker :=
  match s.calls[call]? with
  | some (.revoking done (serial :: todo) _) =>
    let s' := s.caApply serial
    match outcome with
    | .answered => s'.setCall call (.revoking (serial :: done) todo (some s'.caCrl))
    | .failed => s.setCall call .ended
    | .lost => s'.setCall call .ended
  | _ => s

def storeStep (verifies : Bool) : Revoker :=
  match s.calls[call]? with
  | some (.revoking done [] latest) =>
    { s.setCall call (.stored done) with
      crl := match latest, verifies with
        | some crl, true => crl
        | _, _ => s.crl }
  | _ => s

def finishStep (ok : Bool) : Revoker :=
  match s.calls[call]? with
  | some (.stored serials) =>
    { s.setCall call .ended with returned := if ok then serials ++ s.returned else s.returned }
  | _ => s

def step (s : Revoker) : RevokeEvent → Revoker
  | .tick d => { s with now := s.now + d }
  | .start serials => { s with calls := s.calls ++ [.revoking [] serials none] }
  | .caRevoke call outcome => s.caRevokeStep call outcome
  | .store call verifies => s.storeStep call verifies
  | .finish call ok => s.finishStep call ok

end Revoker

end Avon.Control
