import Avon.Proofs.Control.AuthSteps

/-!
# A session comes from an authentication

`Authenticated` lists what must have happened in a call of `authenticate` before a token is given
out. The invariant goes from the phase of a call to what has happened in it, from there to the
sessions in Redis, and from these to the requests.
-/

set_option autoImplicit false

namespace Avon.Control.Auth

open Avon.Crypto Avon.Lib Avon.Lib.Run State

/-! ### What happens in a call -/

section Events

variable (E : Env) (n : ℕ) (tls : Key)

/-- Call `n` begins on a connection with this TLS certificate. -/
def Began (s : State E.C) (e : Event E.C) : Prop :=
  ∃ replica caller tenant device, e = .authenticate n replica caller ∧ s.calls n = none ∧
    requireDevice E caller = .ok (tenant, device, tls)

variable (cert : Certificate) (tenant : TenantId) (device : DeviceId)

/-- The certificate is chain-valid, unrevoked, of this tenant and subject, and bound to `tls`. -/
def Verified (s : State E.C) (e : Event E.C) : Prop :=
  ∃ replica encoded unix, e = .hello n (.hello (some encoded)) unix ∧
    s.calls n = some ⟨replica, tls, .begun⟩ ∧ Certificate.decode E.C encoded = .ok cert ∧
    Certifies E (s.chains replica) unix tls cert tenant device

def ReadActive (s : State E.C) (e : Event E.C) : Prop :=
  e = .readStatus n true ∧
    (∃ replica, s.calls n = some ⟨replica, tls, .certified cert tenant device⟩) ∧
    s.devices device = some (tenant, .active)

variable (nonce : Key)

def DrewNonce (s : State E.C) (e : Event E.C) : Prop :=
  e = .challenge n (some nonce) true ∧
    ∃ replica marks, s.calls n = some ⟨replica, tls, .admitted cert tenant device marks⟩

/-- A signature by the key of the certificate over the nonce verifies. -/
def ProvedKey (s : State E.C) (e : Event E.C) : Prop :=
  ∃ signature, e = .proof n (.proof signature) ∧
    (∃ replica marks since,
      s.calls n = some ⟨replica, tls, .challenged cert tenant device marks nonce since⟩) ∧
    E.C.verify cert.tbs.signingKey .auth (authMessage nonce tls E.serverCertSha256) signature =
      .ok ()

end Events

section History

variable (E : Env) (start : State E.C) (events : List (Event E.C))

/-- Some call under this TLS certificate has authenticated the device. -/
def Authenticated (tls : Key) (tenant : TenantId) (device : DeviceId) : Prop :=
  ∃ n cert nonce, Happened (step E) start
    [ProvedKey E n tls cert tenant device nonce, DrewNonce E n tls cert tenant device nonce,
      ReadActive E n tls cert tenant device, Verified E n tls cert tenant device, Began E n tls]
    events

def CallHistory (n : ℕ) (c : Call) : Prop :=
  match c.phase with
  | .begun => Happened (step E) start [Began E n c.tls] events
  | .certified cert tenant device => Happened (step E) start
      [Verified E n c.tls cert tenant device, Began E n c.tls] events
  | .admitted cert tenant device _ => Happened (step E) start
      [ReadActive E n c.tls cert tenant device, Verified E n c.tls cert tenant device,
        Began E n c.tls] events
  | .challenged cert tenant device _ nonce _ => Happened (step E) start
      [DrewNonce E n c.tls cert tenant device nonce, ReadActive E n c.tls cert tenant device,
        Verified E n c.tls cert tenant device, Began E n c.tls] events
  | .proved _ tenant device _ => Authenticated E start events c.tls tenant device
  | .issued _ => True
  | .failed _ => True

def RequestHistory (r : Request) : Prop :=
  match r.phase with
  | .asked creds => deviceCredentials E r.caller = .ok creds
  | .found creds info => deviceCredentials E r.caller = .ok creds ∧
      Authenticated E start events info.tlsCertSha256 info.tenant info.device
  | .answered (.ok info) =>
    requireDevice E r.caller = .ok (info.tenant, info.device, info.tlsCertSha256) ∧
      Authenticated E start events info.tlsCertSha256 info.tenant info.device
  | .answered (.error _) => True

structure AuthInv (s : State E.C) : Prop where
  calls : ∀ n c, s.calls n = some c → CallHistory E start events n c
  sessions : ∀ key info expiry, s.redis.entries key = some (.session info, expiry) →
    Authenticated E start events info.tlsCertSha256 info.tenant info.device
  requests : ∀ m r, s.requests m = some r → RequestHistory E start events r

end History

/-! ### The invariant -/

section Invariant

variable {E : Env} {start : State E.C} {events : List (Event E.C)}

theorem Authenticated.append {tls : Key} {tenant : TenantId} {device : DeviceId}
    (h : Authenticated E start events tls tenant device) (more : List (Event E.C)) :
    Authenticated E start (events ++ more) tls tenant device := by
  obtain ⟨n, cert, nonce, h⟩ := h
  exact ⟨n, cert, nonce, h.append more⟩

variable {creds : DeviceCredentials} {e : Event E.C} {r : Request} {c : Call} {n : ℕ}

theorem CallHistory.append (h : CallHistory E start events n c)
    (more : List (Event E.C)) : CallHistory E start (events ++ more) n c := by
  obtain ⟨replica, tls, phase⟩ := c
  cases phase with
  | begun | certified | admitted | challenged => exact Happened.append h more
  | proved cert tenant device marks => exact Authenticated.append h more
  | issued | failed => trivial

theorem RequestHistory.append (h : RequestHistory E start events r)
    (more : List (Event E.C)) : RequestHistory E start (events ++ more) r := by
  obtain ⟨caller, phase⟩ := r
  match phase, h with
  | .asked creds, h => exact h
  | .found creds info, h => exact ⟨h.1, h.2.append more⟩
  | .answered (.ok info), h => exact ⟨h.1, h.2.append more⟩
  | .answered (.error why), _ => trivial

theorem AuthInv.advance (h : AuthInv E start events (run (step E) start events))
    (hc : Advances E (run (step E) start events) e n c) :
    CallHistory E start (events ++ [e]) n c := by
  cases hc with
  | begun hnew hcaller =>
    exact happened_last ⟨_, _, _, _, rfl, hnew, hcaller⟩
  | certified hcall hdecode hcert =>
    exact Happened.snoc (h.calls _ _ hcall) ⟨_, _, _, rfl, hcall, hdecode, hcert⟩
  | admitted hcall hactive =>
    exact Happened.snoc (h.calls _ _ hcall) ⟨rfl, ⟨_, hcall⟩, hactive⟩
  | challenged hcall =>
    exact Happened.snoc (h.calls _ _ hcall) ⟨rfl, _, _, hcall⟩
  | proved hcall hproof =>
    exact ⟨_, _, _, Happened.snoc (h.calls _ _ hcall) ⟨_, rfl, ⟨_, _, _, hcall⟩, hproof⟩⟩
  | failed => trivial

theorem requireDevice_of_credentials {caller : Caller}
    (h : deviceCredentials E caller = .ok creds) :
    requireDevice E caller = .ok (creds.tenant, creds.device, creds.tlsCertSha256) := by
  obtain ⟨⟨tenant, device, tls⟩, hdevice, h⟩ := bind_eq_ok.mp h
  obtain ⟨token, -, h⟩ := bind_eq_ok.mp h
  cases h
  exact hdevice

theorem sessionFor_eq_ok {found : Option SessionInfo}
    {info : SessionInfo} (h : sessionFor creds found = .ok info) :
    found = some info ∧ info.tenant = creds.tenant ∧ info.device = creds.device ∧
      info.tlsCertSha256 = creds.tlsCertSha256 := by
  unfold sessionFor at h
  split at h
  · cases h
  split at h
  · cases h
  rename_i hsame
  cases h
  simpa [not_or] using hsame

theorem lookupResult_eq_some {s : State E.C} {info info' : SessionInfo} {ok : Bool}
    (h : s.lookupResult E info ok = .ok (some info')) :
    info' = info ∧ ok = true ∧ s.redis.get s.now (revokedKey info.device) = none := by
  unfold lookupResult at h
  split at h
  · rename_i hok
    split at h
    · cases h
    rename_i hmarker
    cases h
    exact ⟨rfl, hok, by simpa using hmarker⟩
  · cases h

theorem AuthInv.answer {m : ℕ} (h : AuthInv E start events (run (step E) start events))
    (hr : Answers E (run (step E) start events) e m r) :
    RequestHistory E start events r := by
  cases hr with
  | asked hcreds => exact hcreds
  | found hreq hget =>
    obtain ⟨expiry, hentry, -⟩ := Expiring.Store.get_eq_some.mp hget
    exact ⟨h.requests _ _ hreq, h.sessions _ _ _ hentry⟩
  | @answered m caller creds info ok hreq =>
    obtain ⟨hcreds, hauth⟩ := h.requests _ _ hreq
    cases hresult : (lookupResult E _ info ok >>= sessionFor creds) with
    | error why => trivial
    | ok info' =>
      obtain ⟨found, hlookup, hsession⟩ := bind_eq_ok.mp hresult
      obtain ⟨rfl, htenant, hdevice, htls⟩ := sessionFor_eq_ok hsession
      obtain ⟨rfl, -, -⟩ := lookupResult_eq_some hlookup
      refine ⟨?_, hauth⟩
      rw [htenant, hdevice, htls]
      exact requireDevice_of_credentials hcreds
  | refused => trivial

theorem AuthInv.step (h : AuthInv E start events (run (step E) start events)) :
    AuthInv E start (events ++ [e]) ((run (step E) start events).step E e) where
  calls := by
    intro n c hc
    rcases (step_effect E _ e).calls_cases hc with hc | hc | ⟨token, hphase⟩
    · exact (h.calls n c hc).append [e]
    · exact h.advance hc
    obtain ⟨replica, tls, phase⟩ := c
    subst hphase
    trivial
  sessions := by
    intro key info expiry hentry
    rcases (step_effect E _ e).sessions_cases hentry with hentry |
      ⟨⟨n, _, _, _, _, _, _, _, -, hcall, -⟩, -⟩
    · exact (h.sessions key info expiry hentry).append [e]
    · exact Authenticated.append (h.calls _ _ hcall) [e]
  requests := by
    intro m r hr
    rcases (step_effect E _ e).requests_cases hr with hr | hr
    · exact (h.requests m r hr).append [e]
    · exact (h.answer hr).append [e]

theorem authInv_run (chains : ℕ → ChainCache E.C) (devices : DeviceId → Option DeviceRow)
    (events : List (Event E.C)) :
    AuthInv E (.init chains devices) events (run (step E) (.init chains devices) events) := by
  refine run_history (I := AuthInv E (.init chains devices)) ?_ (fun xs e h => h.step) events
  constructor
  · intro n c hc
    cases hc
  · intro key info expiry hentry
    cases hentry
  · intro m r hr
    cases hr

end Invariant

/-- In every run, a request that gets a session presents the TLS identity of the session, and some
earlier call on a connection with the same TLS certificate has authenticated the device. -/
theorem session_authenticated (E : Env) (chains : ℕ → ChainCache E.C)
    (devices : DeviceId → Option DeviceRow) (events : List (Event E.C)) {m : ℕ} {caller : Caller}
    {info : SessionInfo}
    (h : (run (step E) (.init chains devices) events).requests m =
      some ⟨caller, .answered (.ok info)⟩) :
    requireDevice E caller = .ok (info.tenant, info.device, info.tlsCertSha256) ∧
      Authenticated E (.init chains devices) events info.tlsCertSha256 info.tenant info.device :=
  (authInv_run chains devices events).requests m _ h

/-! ### A laptop signs in -/

def desk : Env where
  C := transparentHybrid
  spiffe leaf := if leaf = [1] then some (.device 7 3) else none
  base64 _ := some (Key.bytes 5)
  tenantOf text := if text = "7" then some 7 else none
  serverCertSha256 := 9
  ttlSecs := 60

/-- A certificate for the key `[signing]` under the key `[issuer]`. -/
def issuedBy (issuer : UInt8) (kind : SubjectKind) (subject : Uuid) (signing : UInt8)
    (tls : Option Key) : Certificate :=
  let tbs : TbsCertificate :=
    { version := 2, serial := subject, tenantId := "7", subjectId := subject, kind := kind
      signingKey := [signing], kemKey := some [2], notBefore := 0, notAfter := 100
      issuerKeyId := transparentHash [issuer], sans := [], tlsCertSha256 := tls
      hardwareBinding := none }
  ⟨tbs, transparentSignature [issuer] .cert tbs.encode⟩

def deskChain : ChainCache transparentHybrid where
  verifier := ⟨[issuedBy 30 .rootCa 100 30 none], by decide +kernel⟩
  issuing := issuedBy 30 .issuingCa 101 20 none
  crl := []

def laptopCert : Certificate := issuedBy 20 .device 3 4 (some (transparentHash [1]))

def laptop : Caller := ⟨some [[1]], some (some "token")⟩

def deskDevices : DeviceId → Option DeviceRow := fun device =>
  if device = 3 then some (7, .active) else none

def deskStart : State desk.C := .init (fun _ => deskChain) deskDevices

def hello : List (Event desk.C) :=
  [.authenticate 0 0 laptop, .hello 0 (.hello (some laptopCert.encode)) 50, .readStatus 0 true]

def finish : List (Event desk.C) :=
  [.challenge 0 (some 11) true,
    .proof 0 (.proof (transparentSignature [4] .auth (authMessage 11 (transparentHash [1]) 9))),
    .issue 0 (1 : UInt8) (some 5) 50 .ok]

def useToken : List (Event desk.C) :=
  [.request 0 laptop, .getSession 0 true, .existsRevoked 0 true]

theorem session_authenticated_laptop :
    ∃ events info, (run (step desk) deskStart events).requests 0 =
        some ⟨laptop, .answered (.ok info)⟩ ∧ info.device = 3 ∧
      Authenticated desk deskStart events info.tlsCertSha256 info.tenant info.device := by
  have hrun : ∃ events info, (run (step desk) deskStart events).requests 0 =
      some ⟨laptop, .answered (.ok info)⟩ ∧ info.device = 3 :=
    ⟨hello ++ finish ++ useToken, ⟨7, 3, transparentHash [1], 50⟩, by decide +kernel⟩
  obtain ⟨events, info, hanswer, hdevice⟩ := hrun
  have hauth := session_authenticated desk (fun _ => deskChain) deskDevices events hanswer
  exact ⟨events, info, hanswer, hdevice, hauth.2⟩

end Avon.Control.Auth
