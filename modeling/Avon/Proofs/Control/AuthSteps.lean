import Avon.Control.Auth
import Avon.Lib.History
import Avon.Lib.Table

/-!
# What a step of authentication can do

`Effect` is what an event can make of the whole state. `step_effect` is the one proof that goes
through the step functions, and the lemmas after it say it for one part of the state at a time.
-/

set_option autoImplicit false

namespace Avon.Control.Auth

open Avon.Crypto Avon.Lib Avon.Proto State

/-! ### Writes -/

section Writes

variable {C : HybridImpl} {s : State C}

theorem setCall_cases {n k : ℕ} {c c' : Call} (h : (s.setCall n c).calls k = some c') :
    (k = n ∧ c' = c) ∨ s.calls k = some c' := by
  rcases update_eq_some.mp h with ⟨hk, hc⟩ | ⟨-, hc⟩
  · exact .inl ⟨hk, (Option.some.inj hc).symm⟩
  · exact .inr hc

theorem setRequest_cases {m k : ℕ} {r r' : Request}
    (h : (s.setRequest m r).requests k = some r') : (k = m ∧ r' = r) ∨ s.requests k = some r' := by
  rcases update_eq_some.mp h with ⟨hk, hr⟩ | ⟨-, hr⟩
  · exact .inl ⟨hk, (Option.some.inj hr).symm⟩
  · exact .inr hr

theorem setEx_redis_cases {key key' : String} {value value' : Stored} {ttlSecs expiry : ℕ}
    {reply : Reply}
    (h : (s.setEx key value ttlSecs reply).redis.entries key' = some (value', expiry)) :
    (value' = value ∧ expiry = s.now + 1000 * ttlSecs) ∨
      s.redis.entries key' = some (value', expiry) := by
  simp only [setEx] at h
  split at h
  · exact Expiring.Store.setEx_entries_cases h
  · exact .inr h

end Writes

section Steps

variable {E : Env} {s s' : State E.C} {e : Event E.C} {tenant : TenantId} {cert : Certificate}
  {tls : Key} {device : DeviceId} {m : Inbound} {key : String} {value : Stored} {expiry : ℕ}
  {chain : ChainCache E.C} {unix : Int64} {u : Unit} {k : ℕ}

theorem checkStatus_eq_ok {row : Option DeviceRow}
    (h : checkStatus row tenant = .ok u) : row = some (tenant, .active) := by
  unfold checkStatus at h
  split at h
  · rename_i hrow
    obtain ⟨hmem, htenant⟩ := Option.filter_eq_some_iff.mp hrow
    have htenant := of_decide_eq_true htenant
    subst htenant
    exact hmem
  · cases h
  · cases h

/-- What `verify_device_certificate` has checked when it comes to its query. -/
structure Certifies (E : Env) (chain : ChainCache E.C) (unix : Int64) (tls : Key)
    (cert : Certificate) (tenant : TenantId) (device : DeviceId) : Prop where
  chainValid : ∃ v, chain.verifier.verify cert [chain.issuing] unix = .ok v
  bound : cert.tbs.tlsCertSha256 = some tls
  unrevoked : cert.tbs.serial ∉ chain.crl
  tenant : E.tenantOf cert.tbs.tenantId = some tenant
  subject : cert.tbs.subjectId = device

theorem checkCertificate_eq_ok (h : checkCertificate E chain cert tls unix = .ok (tenant, device)) :
    Certifies E chain unix tls cert tenant device := by
  obtain ⟨v, hv, h⟩ := bind_eq_ok.mp h
  obtain ⟨_, hbound, h⟩ := bind_eq_ok.mp h
  obtain ⟨_, hcrl, h⟩ := bind_eq_ok.mp h
  split at h
  · cases h
  rename_i htenant
  cases h
  exact ⟨⟨v, mapError_eq_ok.mp hv⟩, ensure_eq_ok.mp hbound, ensure_eq_ok.mp hcrl, htenant, rfl⟩

theorem readHello_eq_ok {encoded : Bytes} (h : readHello m = .ok encoded) :
    m = .hello (some encoded) := by
  unfold readHello at h
  split at h <;> cases h
  rfl

theorem checkHello_eq_ok (h : checkHello E chain m tls unix = .ok (cert, tenant, device)) :
    ∃ encoded, m = .hello (some encoded) ∧ Certificate.decode E.C encoded = .ok cert ∧
      Certifies E chain unix tls cert tenant device := by
  obtain ⟨encoded, hread, h⟩ := bind_eq_ok.mp h
  obtain ⟨cert', hdecode, h⟩ := bind_eq_ok.mp h
  obtain ⟨⟨tenant', device'⟩, hcheck, h⟩ := bind_eq_ok.mp h
  cases h
  exact ⟨encoded, readHello_eq_ok hread, mapError_eq_ok.mp hdecode, checkCertificate_eq_ok hcheck⟩

theorem checkProof_eq_ok {nonce : Key} (h : checkProof E cert nonce tls m = .ok u) :
    ∃ signature, m = .proof signature ∧
      E.C.verify cert.tbs.signingKey .auth (authMessage nonce tls E.serverCertSha256) signature =
        .ok () := by
  unfold checkProof at h
  split at h
  · rename_i signature
    obtain ⟨_, _, h⟩ := bind_eq_ok.mp h
    exact ⟨signature, rfl, mapError_eq_ok.mp h⟩
  · cases h

/-! ### Calls -/

inductive Advances (E : Env) (s : State E.C) : Event E.C → ℕ → Call → Prop where
  | begun {n replica : ℕ} {caller : Caller} {tenant : TenantId} {device : DeviceId} {tls : Key}
      (hnew : s.calls n = none) (hcaller : requireDevice E caller = .ok (tenant, device, tls)) :
      Advances E s (.authenticate n replica caller) n ⟨replica, tls, .begun⟩
  | certified {n replica : ℕ} {encoded : Bytes} {unix : Int64} {tls : Key} {cert : Certificate}
      {tenant : TenantId} {device : DeviceId} (hcall : s.calls n = some ⟨replica, tls, .begun⟩)
      (hdecode : Certificate.decode E.C encoded = .ok cert)
      (hcert : Certifies E (s.chains replica) unix tls cert tenant device) :
      Advances E s (.hello n (.hello (some encoded)) unix) n
        ⟨replica, tls, .certified cert tenant device⟩
  | admitted {n replica : ℕ} {tls : Key} {cert : Certificate} {tenant : TenantId}
      {device : DeviceId} (hcall : s.calls n = some ⟨replica, tls, .certified cert tenant device⟩)
      (hactive : s.devices device = some (tenant, .active)) :
      Advances E s (.readStatus n true) n
        ⟨replica, tls, .admitted cert tenant device (s.marks device)⟩
  | challenged {n replica : ℕ} {tls nonce : Key} {cert : Certificate} {tenant : TenantId}
      {device : DeviceId} {marks : ℕ}
      (hcall : s.calls n = some ⟨replica, tls, .admitted cert tenant device marks⟩) :
      Advances E s (.challenge n (some nonce) true) n
        ⟨replica, tls, .challenged cert tenant device marks nonce s.now⟩
  | proved {n replica : ℕ} {tls nonce : Key} {cert : Certificate} {tenant : TenantId}
      {device : DeviceId} {marks since : ℕ} {signature : Bytes}
      (hcall : s.calls n =
        some ⟨replica, tls, .challenged cert tenant device marks nonce since⟩)
      (hproof : E.C.verify cert.tbs.signingKey .auth (authMessage nonce tls E.serverCertSha256)
        signature = .ok ()) :
      Advances E s (.proof n (.proof signature)) n
        ⟨replica, tls, .proved cert tenant device marks⟩
  | failed {e : Event E.C} {n replica : ℕ} {tls : Key} {why : Status} :
      Advances E s e n ⟨replica, tls, .failed why⟩

/-! ### Requests -/

inductive Answers (E : Env) (s : State E.C) : Event E.C → ℕ → Request → Prop where
  | asked {m : ℕ} {caller : Caller} {creds : DeviceCredentials}
      (hcreds : deviceCredentials E caller = .ok creds) :
      Answers E s (.request m caller) m ⟨caller, .asked creds⟩
  | found {m : ℕ} {caller : Caller} {creds : DeviceCredentials} {info : SessionInfo}
      (hreq : s.requests m = some ⟨caller, .asked creds⟩)
      (hget : s.redis.get s.now (sessionKey creds.token) = some (.session info)) :
      Answers E s (.getSession m true) m ⟨caller, .found creds info⟩
  | answered {m : ℕ} {caller : Caller} {creds : DeviceCredentials} {info : SessionInfo} {ok : Bool}
      (hreq : s.requests m = some ⟨caller, .found creds info⟩) :
      Answers E s (.existsRevoked m ok) m
        ⟨caller, .answered (s.lookupResult E info ok >>= sessionFor creds)⟩
  | refused {e : Event E.C} {m : ℕ} {caller : Caller} {why : Status} :
      Answers E s e m ⟨caller, .answered (.error why)⟩

/-! ### The whole state -/

inductive Effect (E : Env) (s : State E.C) : Event E.C → State E.C → Prop where
  | idle {e : Event E.C} : Effect E s e s
  | tick {d : ℕ} : Effect E s (.tick d) { s with now := s.now + d }
  | setRow {device : DeviceId} {row : Option DeviceRow} : Effect E s (.setRow device row)
      { s with devices := Function.update s.devices device row }
  | call {e : Event E.C} {n : ℕ} {c : Call} (h : Advances E s e n c) : Effect E s e (s.setCall n c)
  | issue {n replica marks : ℕ} {tls token : Key} {cert : Certificate} {tenant : TenantId}
      {device : DeviceId} {coins : E.C.Coins} {unix : Int64} {reply : Reply} {phase : CallPhase}
      (hcall : s.calls n = some ⟨replica, tls, .proved cert tenant device marks⟩)
      (hkem : checkKem E cert coins = .ok ())
      (hphase : phase = .issued token ∨ ∃ why, phase = .failed why) :
      Effect E s (.issue n coins (some token) unix reply)
        ((s.setEx (sessionKey token) (.session ⟨tenant, device, tls, unix⟩) E.ttlSecs
          reply).setCall n ⟨replica, tls, phase⟩)
  | request {e : Event E.C} {m : ℕ} {r : Request} (h : Answers E s e m r) :
      Effect E s e (s.setRequest m r)
  | withdraw {n replica : ℕ} {kind : Withdrawal} {device : DeviceId} {w : WithdrawalCall} :
      Effect E s (.withdraw n replica kind device true)
        { s.setWithdrawal n w with
          devices := Function.update s.devices device
            ((s.devices device).map fun row => (row.1, kind.status)) }
  | withdrawal {e : Event E.C} {n : ℕ} {w : WithdrawalCall} {chains : ℕ → ChainCache E.C} :
      Effect E s e { s.setWithdrawal n w with chains := chains }
  | mark {n replica : ℕ} {device : DeviceId} {reply : Reply}
      (hcall : s.withdrawals n = some ⟨replica, device, .marking⟩) :
      Effect E s (.mark n reply)
        { (s.setEx (revokedKey device) .marker E.ttlSecs reply).setWithdrawal n
            ⟨replica, device, .returned⟩ with
          marks := if written E reply then
            Function.update s.marks device (s.marks device + 1) else s.marks }

theorem step_effect (E : Env) (s : State E.C) (e : Event E.C) : Effect E s e (s.step E e) := by
  cases e with
  | tick d => exact .tick
  | setRow device row => exact .setRow
  | authenticate n replica caller =>
    simp only [step, authenticateStep]
    split
    · exact .idle
    rename_i hnew
    split
    · rename_i hcaller
      exact .call (.begun hnew hcaller)
    · exact .idle
  | hello n m unix =>
    simp only [step, helloStep]
    split
    · rename_i replica tls hcall
      apply Effect.call
      cases hcheck : checkHello E (s.chains replica) m tls unix with
      | error why => exact .failed
      | ok r =>
        obtain ⟨cert, tenant, device⟩ := r
        obtain ⟨encoded, rfl, hdecode, hcert⟩ := checkHello_eq_ok hcheck
        exact .certified hcall hdecode hcert
    · exact .idle
  | readStatus n ok =>
    simp only [step, readStatusStep]
    split
    · rename_i replica tls cert tenant device hcall
      apply Effect.call
      cases ok with
      | false => exact .failed
      | true =>
        cases hcheck : checkStatus (s.devices device) tenant with
        | error why => exact .failed
        | ok u => exact .admitted hcall (checkStatus_eq_ok hcheck)
    · exact .idle
  | challenge n nonce sent =>
    simp only [step, challengeStep]
    split
    · rename_i hcall
      apply Effect.call
      cases nonce with
      | none => exact .failed
      | some nonce =>
        cases sent with
        | false => exact .failed
        | true => exact .challenged hcall
    · exact .idle
  | proof n m =>
    simp only [step, proofStep]
    split
    · rename_i replica tls cert tenant device marks nonce since hcall
      apply Effect.call
      cases hcheck : checkProof E cert nonce tls m with
      | error why => exact .failed
      | ok u =>
        obtain ⟨signature, rfl, hproof⟩ := checkProof_eq_ok hcheck
        exact .proved hcall hproof
    · exact .idle
  | proofTimeout n =>
    simp only [step, proofTimeoutStep]
    split
    · split
      · exact .call .failed
      · exact .idle
    · exact .idle
  | issue n coins token unix reply =>
    simp only [step, issueStep]
    split
    · rename_i hcall
      split
      · exact .call .failed
      · exact .call .failed
      rename_i hkem
      apply Effect.issue hcall hkem
      split
      · exact .inl rfl
      · exact .inr ⟨_, rfl⟩
    · exact .idle
  | request m caller =>
    simp only [step, requestStep]
    split
    · exact .idle
    apply Effect.request
    split
    · rename_i hcreds
      exact .asked hcreds
    · exact .refused
  | getSession m ok =>
    simp only [step, getSessionStep]
    split
    · rename_i hreq
      apply Effect.request
      cases ok with
      | false => exact .refused
      | true =>
        simp only [↓reduceIte]
        split
        · exact .refused
        · exact .refused
        · rename_i hget
          exact .found hreq hget
    · exact .idle
  | existsRevoked m ok =>
    simp only [step, existsRevokedStep]
    split
    · rename_i hreq
      exact .request (.answered hreq)
    · exact .idle
  | withdraw n replica kind device ok =>
    simp only [step, withdrawStep]
    split
    · exact .idle
    cases ok with
    | false => exact .withdrawal
    | true => exact .withdraw
  | revokeCertificates n crl ok =>
    simp only [step, revokeCertificatesStep]
    split
    · split
      · exact .withdrawal
      · exact .withdrawal
    · exact .idle
  | mark n reply =>
    simp only [step, markStep]
    split
    · rename_i hcall
      exact .mark hcall
    · exact .idle

/-! ### One part at a time -/

section Parts

variable (heffect : Effect E s e s')
include heffect

namespace Effect

theorem calls_cases {c : Call} (h : s'.calls k = some c) :
    s.calls k = some c ∨ Advances E s e k c ∨ (∃ token, c.phase = .issued token) := by
  cases heffect with
  | call hadvances =>
    obtain ⟨rfl, rfl⟩ | h := setCall_cases h
    · exact .inr (.inl hadvances)
    · exact .inl h
  | issue hcall hkem hphase =>
    obtain ⟨rfl, rfl⟩ | h := setCall_cases h
    · obtain rfl | ⟨why, rfl⟩ := hphase
      · exact .inr (.inr ⟨_, rfl⟩)
      · exact .inr (.inl .failed)
    · exact .inl h
  | _ => exact .inl h

theorem requests_cases {r : Request} (h : s'.requests k = some r) :
    s.requests k = some r ∨ Answers E s e k r := by
  cases heffect with
  | request hanswers =>
    obtain ⟨rfl, rfl⟩ | h := setRequest_cases h
    · exact .inr hanswers
    · exact .inl h
  | _ => exact .inl h

theorem redis_cases (h : s'.redis.entries key = some (value, expiry)) :
    s.redis.entries key = some (value, expiry) ∨ expiry = s.now + 1000 * E.ttlSecs := by
  cases heffect with
  | issue | mark =>
    obtain ⟨-, hexpiry⟩ | h := setEx_redis_cases h
    · exact .inr hexpiry
    · exact .inl h
  | _ => exact .inl h

theorem now_le : s.now ≤ s'.now := by
  cases heffect with
  | tick => exact Nat.le_add_right _ _
  | _ => exact le_rfl

theorem active_cases (h : s'.devices device = some (tenant, .active)) :
    s.devices device = some (tenant, .active) ∨ e = .setRow device (some (tenant, .active)) := by
  cases heffect with
  | @setRow device' row =>
    rcases update_eq_some.mp h with ⟨rfl, hrow⟩ | ⟨-, h⟩
    · exact .inr (by rw [hrow])
    · exact .inl h
  | @withdraw n replica kind device' w =>
    rcases update_eq_some.mp h with ⟨-, hrow⟩ | ⟨-, h⟩
    · simp only [Option.map_eq_some_iff, Prod.mk.injEq] at hrow
      obtain ⟨row, -, -, hstatus⟩ := hrow
      cases kind <;> cases hstatus
    · exact .inl h
  | _ => exact .inl h

theorem marks_le (device : DeviceId) : s.marks device ≤ s'.marks device := by
  cases heffect with
  | @mark n replica device' reply hcall =>
    simp only
    split
    · by_cases hdevice : device = device'
      · subst hdevice
        simp
      · simp [hdevice]
    · exact le_rfl
  | _ => exact le_rfl

end Effect

end Parts

/-- A token for the device is stored by call `n`, which has proved its key. -/
def Issues (E : Env) (n : ℕ) (tls : Key) (tenant : TenantId) (device : DeviceId) (s : State E.C)
    (e : Event E.C) : Prop :=
  ∃ replica cert marks coins token unix reply, e = .issue n coins (some token) unix reply ∧
    s.calls n = some ⟨replica, tls, .proved cert tenant device marks⟩ ∧
    checkKem E cert coins = .ok ()

/-- A session gets into Redis only by `SessionStore::issue`, at the end of a call. -/
theorem Effect.sessions_cases {info : SessionInfo}
    (heffect : Effect E s e s') (h : s'.redis.entries key = some (.session info, expiry)) :
    s.redis.entries key = some (.session info, expiry) ∨
      ((∃ n, Issues E n info.tlsCertSha256 info.tenant info.device s e) ∧
        expiry = s.now + 1000 * E.ttlSecs) := by
  cases heffect with
  | issue hcall hkem hphase =>
    obtain ⟨hinfo, hexpiry⟩ | h := setEx_redis_cases h
    · cases hinfo
      exact .inr ⟨⟨_, _, _, _, _, _, _, _, rfl, hcall, hkem⟩, hexpiry⟩
    · exact .inl h
  | mark hcall =>
    obtain ⟨hmarker, -⟩ | h := setEx_redis_cases h
    · cases hmarker
    · exact .inl h
  | _ => exact .inl h

theorem revokedKey_ne_sessionKey (device : DeviceId) (token : Key) :
    revokedKey device ≠ sessionKey token := by
  unfold revokedKey sessionKey
  generalize uuidText device = id
  generalize String.ofList (Hex.encode token.bytes) = hex
  intro h
  have hlist := congrArg String.toList h
  simp [String.toList_append] at hlist

theorem Effect.marker_cases (heffect : Effect E s e s')
    (h : s.redis.entries (revokedKey device) = some (value, expiry)) :
    s'.redis.entries (revokedKey device) = some (value, expiry) ∨
      s'.redis.entries (revokedKey device) = some (.marker, s.now + 1000 * E.ttlSecs) := by
  cases heffect with
  | issue hcall hkem hphase =>
    left
    simp only [setCall, setEx]
    split
    · exact (Expiring.Store.setEx_entries_ne (revokedKey_ne_sessionKey _ _)).trans h
    · exact h
  | @mark n replica device' reply hcall =>
    simp only [setWithdrawal, setEx]
    split
    · by_cases hkey : revokedKey device = revokedKey device'
      · right
        rw [hkey]
        exact Expiring.Store.setEx_entries_self
      · left
        exact (Expiring.Store.setEx_entries_ne hkey).trans h
    · exact .inl h
  | _ => exact .inl h

end Steps

end Avon.Control.Auth
