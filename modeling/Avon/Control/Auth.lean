import Avon.Control.Sessions
import Avon.Crypto.Cert
import Avon.Lib.Except
import Avon.Lib.Table
import Avon.Proto

/-!
# Authentication and session tokens

`authenticate` with `auth.rs`, `authz.rs` and `session_token.rs`. The replicas share the database
and Redis, and each SQL statement, Redis command and message is one step. Times are in milliseconds
on the clock of Redis; the wall clock of a replica comes with the events. `marks` is not in the
code: it counts the completed calls of `SessionStore::revoke_device`.
-/

set_option autoImplicit false

namespace Avon.Control.Auth

open Avon.Crypto Avon.Proto Avon.Lib
open Function (update)

inductive Code where
  | invalidArgument
  | unauthenticated
  | permissionDenied
  | unavailable
  | internal
  | cancelled
  deriving DecidableEq, Repr

structure Status where
  code : Code
  message : String
  deriving DecidableEq, Repr

inductive SpiffeKind where
  | service (name : String) (instanceId : Option Uuid)
  | device (tenant : TenantId) (device : DeviceId)
  deriving DecidableEq, Repr

structure Env where
  C : HybridImpl
  /-- The SPIFFE id in a TLS certificate. A certificate that does not parse has none. -/
  spiffe : Bytes → Option SpiffeKind
  base64 : String → Option Bytes
  tenantOf : String → Option TenantId
  serverCertSha256 : Key
  ttlSecs : ℕ

/-! ### Who is calling -/

/-- What a request has: the certificates that the TLS layer has verified, and the header
`x-avon-session`, `some none` if it is not text. -/
structure Caller where
  peerCerts : Option (List Bytes)
  session : Option (Option String)
  deriving DecidableEq

inductive Principal where
  | service (name : String) (instanceId : Option Uuid)
  | device (tenant : TenantId) (device : DeviceId) (tlsCertSha256 : Key)
  | anonymous
  deriving DecidableEq, Repr

def principalOf (E : Env) (caller : Caller) : Principal :=
  match caller.peerCerts.bind List.head? with
  | none => .anonymous
  | some leaf =>
    match E.spiffe leaf with
    | some (.service name instanceId) => .service name instanceId
    | some (.device tenant device) => .device tenant device (E.C.sha256 leaf)
    | none => .anonymous

def requireDevice (E : Env) (caller : Caller) : Except Status (TenantId × DeviceId × Key) :=
  match principalOf E caller with
  | .device tenant device tlsCertSha256 => .ok (tenant, device, tlsCertSha256)
  | _ => .error ⟨.unauthenticated, "device client certificate required"⟩

def sessionToken (E : Env) (caller : Caller) : Except Status Key :=
  match caller.session with
  | none => .error ⟨.unauthenticated, "missing x-avon-session"⟩
  | some none => .error ⟨.unauthenticated, "invalid x-avon-session"⟩
  | some (some value) =>
    match E.base64 value with
    | none => .error ⟨.unauthenticated, "invalid x-avon-session"⟩
    | some bytes =>
      if bytes.length = 32 then .ok (BitVec.ofNat 256 (BigEndian.ofBe bytes))
      else .error ⟨.unauthenticated, "invalid x-avon-session"⟩

structure DeviceCredentials where
  tenant : TenantId
  device : DeviceId
  tlsCertSha256 : Key
  token : Key
  deriving DecidableEq

def deviceCredentials (E : Env) (caller : Caller) : Except Status DeviceCredentials := do
  let (tenant, device, tlsCertSha256) ← requireDevice E caller
  let token ← sessionToken E caller
  return { tenant, device, tlsCertSha256, token }

/-! ### The session store -/

structure SessionInfo where
  tenant : TenantId
  device : DeviceId
  tlsCertSha256 : Key
  issuedAt : Int64
  deriving DecidableEq

/-- What Redis holds under a key: the text of a session, or `1`. -/
inductive Stored where
  | session (info : SessionInfo)
  | marker
  deriving DecidableEq

def sessionKey (token : Key) : String :=
  "avon:session:" ++ String.ofList (Hex.encode token.bytes)

def revokedKey (device : DeviceId) : String :=
  "avon:device-revoked:" ++ uuidText device

/-- The reply to a write. A write that failed for the caller may have been made. -/
inductive Reply where
  | ok
  | failed (applied : Bool)
  deriving DecidableEq, Repr

def Reply.applied : Reply → Bool
  | .ok => true
  | .failed applied => applied

def STORE_UNAVAILABLE : Status := ⟨.unavailable, "session store"⟩

/-! ### Authentication -/

structure ChainCache (C : HybridImpl) where
  verifier : ChainVerifier C
  issuing : Certificate
  crl : List (BitVec 128)

inductive Inbound where
  | hello (certificate : Option Bytes)
  | proof (signature : Bytes)
  | other
  | done
  | broken (e : Status)

def authMessage (nonce tlsClientCertSha256 serverTlsCertSha256 : Key) : Bytes :=
  nonce.bytes ++ tlsClientCertSha256.bytes ++ serverTlsCertSha256.bytes

def readHello : Inbound → Except Status Bytes
  | .hello (some encoded) => .ok encoded
  | .hello none => .error ⟨.invalidArgument, "certificate"⟩
  | .broken e => .error e
  | _ => .error ⟨.invalidArgument, "expected hello"⟩

def checkCertificate (E : Env) (chain : ChainCache E.C) (cert : Certificate) (tls : Key)
    (unix : Int64) : Except Status (TenantId × DeviceId) := do
  let _ ← (chain.verifier.verify cert [chain.issuing] unix).mapError fun _ =>
    (⟨.unauthenticated, "certificate invalid"⟩ : Status)
  ensure (cert.tbs.tlsCertSha256 = some tls)
    (⟨.unauthenticated, "certificate not bound to this TLS identity"⟩ : Status)
  ensure (cert.tbs.serial ∉ chain.crl) (⟨.permissionDenied, "certificate revoked"⟩ : Status)
  match E.tenantOf cert.tbs.tenantId with
  | none => .error ⟨.unauthenticated, "certificate tenant"⟩
  | some tenant => .ok (tenant, cert.tbs.subjectId)

def checkHello (E : Env) (chain : ChainCache E.C) (m : Inbound) (tls : Key) (unix : Int64) :
    Except Status (Certificate × TenantId × DeviceId) := do
  let encoded ← readHello m
  let cert ← (Certificate.decode E.C encoded).mapError fun _ =>
    (⟨.invalidArgument, "certificate encoding"⟩ : Status)
  let (tenant, device) ← checkCertificate E chain cert tls unix
  return (cert, tenant, device)

abbrev DeviceRow := TenantId × DeviceStatus

/-- The query for the status, and the end of `verify_device_certificate`. -/
def checkStatus (row : Option DeviceRow) (tenant : TenantId) : Except Status Unit :=
  match row.filter fun r => r.1 = tenant with
  | some (_, .active) => .ok ()
  | some _ => .error ⟨.permissionDenied, "device not active"⟩
  | none => .error ⟨.unauthenticated, "unknown device"⟩

def checkProof (E : Env) (cert : Certificate) (nonce tls : Key) (m : Inbound) :
    Except Status Unit := do
  match m with
  | .proof signature =>
    (E.C.signatureFromBytes signature).mapError fun _ => (⟨.unauthenticated, "proof"⟩ : Status)
    (E.C.verify cert.tbs.signingKey .auth (authMessage nonce tls E.serverCertSha256)
      signature).mapError fun _ => (⟨.unauthenticated, "proof invalid"⟩ : Status)
  | _ => .error ⟨.unauthenticated, "expected proof"⟩

def checkKem (E : Env) (cert : Certificate) (coins : E.C.Coins) : Except Status Unit :=
  match cert.tbs.kemKey with
  | none => .error ⟨.unauthenticated, "certificate has no kem key"⟩
  | some kemKey =>
    ((E.C.encapsulate kemKey coins).map fun _ => ()).mapError fun _ => ⟨.internal, "kem"⟩

inductive CallPhase where
  | begun
  | certified (cert : Certificate) (tenant : TenantId) (device : DeviceId)
  /-- The device is active. `marks` is the counter of the device at the query. -/
  | admitted (cert : Certificate) (tenant : TenantId) (device : DeviceId) (marks : ℕ)
  | challenged (cert : Certificate) (tenant : TenantId) (device : DeviceId) (marks : ℕ)
      (nonce : Key) (since : ℕ)
  | proved (cert : Certificate) (tenant : TenantId) (device : DeviceId) (marks : ℕ)
  | issued (token : Key)
  | failed (e : Status)
  deriving DecidableEq

def CallPhase.ofResult : Except Status CallPhase → CallPhase
  | .ok phase => phase
  | .error e => .failed e

/-- A call of `authenticate` at a replica, under a TLS certificate. -/
structure Call where
  replica : ℕ
  tls : Key
  phase : CallPhase
  deriving DecidableEq

def PROOF_TIMEOUT : ℕ := 10 * 1000

/-! ### Requests -/

inductive RequestPhase where
  | asked (creds : DeviceCredentials)
  | found (creds : DeviceCredentials) (info : SessionInfo)
  | answered (result : Except Status SessionInfo)
  deriving DecidableEq

structure Request where
  caller : Caller
  phase : RequestPhase
  deriving DecidableEq

/-- The checks of `session_for` on the outcome of a lookup. -/
def sessionFor (creds : DeviceCredentials) (found : Option SessionInfo) :
    Except Status SessionInfo :=
  match found with
  | none => .error ⟨.unauthenticated, "session expired"⟩
  | some info =>
    if info.tenant ≠ creds.tenant ∨ info.device ≠ creds.device ∨
        info.tlsCertSha256 ≠ creds.tlsCertSha256 then
      .error ⟨.unauthenticated, "session does not match TLS identity"⟩
    else .ok info

/-! ### Suspension and revocation -/

inductive Withdrawal where
  | suspend
  | revoke
  deriving DecidableEq, Repr

def Withdrawal.status : Withdrawal → DeviceStatus
  | .suspend => .suspended
  | .revoke => .revoked

inductive WithdrawalPhase where
  | revoking
  | marking
  | returned
  deriving DecidableEq, Repr

structure WithdrawalCall where
  replica : ℕ
  device : DeviceId
  phase : WithdrawalPhase
  deriving DecidableEq

/-! ### The system -/

structure State (C : HybridImpl) where
  now : ℕ
  redis : Expiring.Store String Stored
  devices : DeviceId → Option DeviceRow
  chains : ℕ → ChainCache C
  calls : ℕ → Option Call
  requests : ℕ → Option Request
  withdrawals : ℕ → Option WithdrawalCall
  marks : DeviceId → ℕ

inductive Event (C : HybridImpl) where
  | tick (d : ℕ)
  | setRow (device : DeviceId) (row : Option DeviceRow)
  | authenticate (call : ℕ) (replica : ℕ) (caller : Caller)
  | hello (call : ℕ) (m : Inbound) (unix : Int64)
  | readStatus (call : ℕ) (ok : Bool)
  | challenge (call : ℕ) (nonce : Option Key) (sent : Bool)
  | proof (call : ℕ) (m : Inbound)
  | proofTimeout (call : ℕ)
  | issue (call : ℕ) (coins : C.Coins) (token : Option Key) (unix : Int64) (reply : Reply)
  | request (req : ℕ) (caller : Caller)
  | getSession (req : ℕ) (ok : Bool)
  /-- The `EXISTS` of `SessionStore::lookup`; then `session_for` returns. -/
  | existsRevoked (req : ℕ) (ok : Bool)
  | withdraw (call : ℕ) (replica : ℕ) (kind : Withdrawal) (device : DeviceId) (ok : Bool)
  /-- The certificates of a revoked device are revoked. `crl` is the CRL that follows, if there
  is one and it verifies. -/
  | revokeCertificates (call : ℕ) (crl : Option (List (BitVec 128))) (ok : Bool)
  | mark (call : ℕ) (reply : Reply)

namespace State

/-- The control plane before any call, with no token in Redis. -/
def init {C : HybridImpl} (chains : ℕ → ChainCache C) (devices : DeviceId → Option DeviceRow) :
    State C where
  now := 0
  redis := .empty
  devices := devices
  chains := chains
  calls _ := none
  requests _ := none
  withdrawals _ := none
  marks _ := 0

section Writes

variable {C : HybridImpl} (s : State C)

def setCall (n : ℕ) (c : Call) : State C :=
  { s with calls := update s.calls n (some c) }

def setRequest (m : ℕ) (r : Request) : State C :=
  { s with requests := update s.requests m (some r) }

def setWithdrawal (n : ℕ) (w : WithdrawalCall) : State C :=
  { s with withdrawals := update s.withdrawals n (some w) }

/-- `SET` with a time to live, which Redis refuses if it is zero. -/
def setEx (key : String) (value : Stored) (ttlSecs : ℕ) (reply : Reply) : State C :=
  { s with redis :=
      if reply.applied ∧ 0 < ttlSecs then s.redis.setEx s.now key value (1000 * ttlSecs)
      else s.redis }

end Writes

variable (E : Env) (s : State E.C)

/-- Whether a write with the time to live of the store succeeds. -/
def written (reply : Reply) : Bool := reply = .ok && 0 < E.ttlSecs

def authenticateStep (n replica : ℕ) (caller : Caller) : State E.C :=
  match s.calls n with
  | some _ => s
  | none =>
    match requireDevice E caller with
    | .ok (_, _, tls) => s.setCall n ⟨replica, tls, .begun⟩
    | .error _ => s

def helloStep (n : ℕ) (m : Inbound) (unix : Int64) : State E.C :=
  match s.calls n with
  | some ⟨replica, tls, .begun⟩ =>
    s.setCall n ⟨replica, tls, .ofResult do
      let (cert, tenant, device) ← checkHello E (s.chains replica) m tls unix
      return .certified cert tenant device⟩
  | _ => s

def readStatusStep (n : ℕ) (ok : Bool) : State E.C :=
  match s.calls n with
  | some ⟨replica, tls, .certified cert tenant device⟩ =>
    s.setCall n ⟨replica, tls, .ofResult do
      ensure (ok = true) (⟨.unavailable, "database"⟩ : Status)
      checkStatus (s.devices device) tenant
      return .admitted cert tenant device (s.marks device)⟩
  | _ => s

def challengeStep (n : ℕ) (nonce : Option Key) (sent : Bool) : State E.C :=
  match s.calls n with
  | some ⟨replica, tls, .admitted cert tenant device marks⟩ =>
    s.setCall n ⟨replica, tls,
      match nonce with
      | none => .failed ⟨.internal, "rng"⟩
      | some nonce =>
        if sent then .challenged cert tenant device marks nonce s.now
        else .failed ⟨.cancelled, "client gone"⟩⟩
  | _ => s

def proofStep (n : ℕ) (m : Inbound) : State E.C :=
  match s.calls n with
  | some ⟨replica, tls, .challenged cert tenant device marks nonce _⟩ =>
    s.setCall n ⟨replica, tls, .ofResult do
      checkProof E cert nonce tls m
      return .proved cert tenant device marks⟩
  | _ => s

/-- A message that is there is taken even if the time is over. -/
def proofTimeoutStep (n : ℕ) : State E.C :=
  match s.calls n with
  | some ⟨replica, tls, .challenged _ _ _ _ _ since⟩ =>
    if since + PROOF_TIMEOUT ≤ s.now then
      s.setCall n ⟨replica, tls, .failed ⟨.unauthenticated, "expected proof"⟩⟩
    else s
  | _ => s

def issueStep (n : ℕ) (coins : E.C.Coins) (token : Option Key) (unix : Int64) (reply : Reply) :
    State E.C :=
  match s.calls n with
  | some ⟨replica, tls, .proved cert tenant device _⟩ =>
    match checkKem E cert coins, token with
    | .error e, _ => s.setCall n ⟨replica, tls, .failed e⟩
    | .ok (), none => s.setCall n ⟨replica, tls, .failed ⟨.internal, "rng"⟩⟩
    | .ok (), some token =>
      (s.setEx (sessionKey token) (.session ⟨tenant, device, tls, unix⟩) E.ttlSecs
        reply).setCall n ⟨replica, tls,
          if written E reply then .issued token else .failed STORE_UNAVAILABLE⟩
  | _ => s

def requestStep (m : ℕ) (caller : Caller) : State E.C :=
  match s.requests m with
  | some _ => s
  | none =>
    s.setRequest m ⟨caller,
      match deviceCredentials E caller with
      | .ok creds => .asked creds
      | .error e => .answered (.error e)⟩

def getSessionStep (m : ℕ) (ok : Bool) : State E.C :=
  match s.requests m with
  | some ⟨caller, .asked creds⟩ =>
    s.setRequest m ⟨caller,
      if ok then
        match s.redis.get s.now (sessionKey creds.token) with
        | none => .answered (sessionFor creds none)
        | some .marker => .answered (.error ⟨.internal, "decode"⟩)
        | some (.session info) => .found creds info
      else .answered (.error STORE_UNAVAILABLE)⟩
  | _ => s

/-- The end of `SessionStore::lookup`, for a token that was found. -/
def lookupResult (info : SessionInfo) (ok : Bool) : Except Status (Option SessionInfo) :=
  if ok then
    if (s.redis.get s.now (revokedKey info.device)).isSome then .ok none else .ok (some info)
  else .error STORE_UNAVAILABLE

def existsRevokedStep (m : ℕ) (ok : Bool) : State E.C :=
  match s.requests m with
  | some ⟨caller, .found creds info⟩ =>
    s.setRequest m ⟨caller, .answered (lookupResult E s info ok >>= sessionFor creds)⟩
  | _ => s

def withdrawStep (n replica : ℕ) (kind : Withdrawal) (device : DeviceId) (ok : Bool) : State E.C :=
  match s.withdrawals n with
  | some _ => s
  | none =>
    if ok then
      { s.setWithdrawal n ⟨replica, device,
          match kind with
          | .suspend => .marking
          | .revoke => .revoking⟩ with
        devices := update s.devices device
          ((s.devices device).map fun row => (row.1, kind.status)) }
    else s.setWithdrawal n ⟨replica, device, .returned⟩

def revokeCertificatesStep (n : ℕ) (crl : Option (List (BitVec 128))) (ok : Bool) : State E.C :=
  match s.withdrawals n with
  | some ⟨replica, device, .revoking⟩ =>
    if ok then
      { s.setWithdrawal n ⟨replica, device, .marking⟩ with
        chains := match crl with
          | none => s.chains
          | some crl => update s.chains replica { s.chains replica with crl := crl } }
    else s.setWithdrawal n ⟨replica, device, .returned⟩
  | _ => s

def markStep (n : ℕ) (reply : Reply) : State E.C :=
  match s.withdrawals n with
  | some ⟨replica, device, .marking⟩ =>
    { (s.setEx (revokedKey device) .marker E.ttlSecs reply).setWithdrawal n
        ⟨replica, device, .returned⟩ with
      marks := if written E reply then
        update s.marks device (s.marks device + 1) else s.marks }
  | _ => s

def step : Event E.C → State E.C
  | .tick d => { s with now := s.now + d }
  | .setRow device row => { s with devices := update s.devices device row }
  | .authenticate n replica caller => authenticateStep E s n replica caller
  | .hello n m unix => helloStep E s n m unix
  | .readStatus n ok => readStatusStep E s n ok
  | .challenge n nonce sent => challengeStep E s n nonce sent
  | .proof n m => proofStep E s n m
  | .proofTimeout n => proofTimeoutStep E s n
  | .issue n coins token unix reply => issueStep E s n coins token unix reply
  | .request m caller => requestStep E s m caller
  | .getSession m ok => getSessionStep E s m ok
  | .existsRevoked m ok => existsRevokedStep E s m ok
  | .withdraw n replica kind device ok => withdrawStep E s n replica kind device ok
  | .revokeCertificates n crl ok => revokeCertificatesStep E s n crl ok
  | .mark n reply => markStep E s n reply

end State

end Avon.Control.Auth
