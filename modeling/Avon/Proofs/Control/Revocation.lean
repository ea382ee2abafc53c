import Avon.Proofs.Control.Auth

/-!
# How final the revocation of tokens is

A revocation leaves a marker that lives as long as a token. It fails to be final if a call that read
the status before it stores a token later, if a lookup finds a token before both expire and looks
for the marker after that, or if the device is active again by then. `Careful` rules these out, and
`Barred` is the invariant after a revocation.
-/

set_option autoImplicit false

namespace Avon.Control.Auth

open Avon.Crypto Avon.Lib Avon.Lib.Run

/-! ### The property -/

section Property

variable (E : Env) (device : DeviceId)

def Revokes (s : State E.C) (e : Event E.C) : Prop :=
  ∃ n reply replica, e = .mark n reply ∧ State.written E reply = true ∧
    s.withdrawals n = some ⟨replica, device, .marking⟩

/-- `SessionStore::lookup` returns a session of the device. -/
def LooksUp (s : State E.C) (e : Event E.C) : Prop :=
  ∃ m caller creds info, e = .existsRevoked m true ∧
    s.requests m = some ⟨caller, .found creds info⟩ ∧
    s.lookupResult E info true = .ok (some info) ∧ info.device = device

def SetsActive (_ : State E.C) (e : Event E.C) : Prop :=
  ∃ tenant, e = .setRow device (some (tenant, .active))

/-- The device was set to active, then a call has read it as active, then this call has stored a
token. -/
def Reauthenticated (start : State E.C) (events : List (Event E.C)) : Prop :=
  ∃ n tls cert tenant, Happened (State.step E) start
    [Issues E n tls tenant device, ReadActive E n tls cert tenant device, SetsActive E device]
    events

/-- After a revocation, a lookup returns the device only if it has authenticated again. -/
def RevocationFinal (start : State E.C) (events : List (Event E.C)) : Prop :=
  ∀ device pre e mid last post, events = pre ++ e :: (mid ++ last :: post) →
    Revokes E device (run (State.step E) start pre) e →
    LooksUp E device (run (State.step E) start (pre ++ e :: mid)) last →
    Reauthenticated E device (run (State.step E) start (pre ++ [e])) mid

end Property

/-- No token is stored for a device that was revoked after its status was read, the marker is
looked for while the token is still there, and it is set while the device is not active. -/
def Careful (E : Env) (s : State E.C) : Event E.C → Prop
  | .issue n _ _ _ _ =>
    match s.calls n with
    | some ⟨_, _, .proved _ _ device marks⟩ => s.marks device = marks
    | _ => True
  | .existsRevoked m _ =>
    match s.requests m with
    | some ⟨_, .found creds info⟩ =>
      s.redis.get s.now (sessionKey creds.token) = some (.session info)
    | _ => True
  | .mark n _ =>
    match s.withdrawals n with
    | some ⟨_, device, .marking⟩ => (s.devices device).map Prod.snd ≠ some .active
    | _ => True
  | _ => True

instance (E : Env) (s : State E.C) (e : Event E.C) : Decidable (Careful E s e) := by
  unfold Careful
  split
  · split <;> infer_instance
  · split <;> infer_instance
  · split <;> infer_instance
  · infer_instance

/-! ### Expiry and the counter -/

/-- What a call that has read the status knows: certificate, tenant, device and counter. -/
def CallPhase.read? : CallPhase → Option (Certificate × TenantId × DeviceId × ℕ)
  | .admitted cert tenant device marks => some (cert, tenant, device, marks)
  | .challenged cert tenant device marks _ _ => some (cert, tenant, device, marks)
  | .proved cert tenant device marks => some (cert, tenant, device, marks)
  | _ => none

/-- Nothing in Redis outlives a write made now, and no call has read a counter ahead of time. -/
structure Timely (E : Env) (s : State E.C) : Prop where
  expires : s.redis.ExpiresBy (fun _ => True) (s.now + 1000 * E.ttlSecs)
  read : ∀ n c cert tenant device marks, s.calls n = some c →
    c.phase.read? = some (cert, tenant, device, marks) → marks ≤ s.marks device

variable {E : Env} {s : State E.C} {e : Event E.C} {device : DeviceId}

theorem read_cases {n marks : ℕ} {c : Call} {cert : Certificate} {tenant : TenantId}
    (hc : (s.step E e).calls n = some c)
    (hread : c.phase.read? = some (cert, tenant, device, marks)) :
    (∃ c', s.calls n = some c' ∧ c'.tls = c.tls ∧
        c'.phase.read? = some (cert, tenant, device, marks)) ∨
      (ReadActive E n c.tls cert tenant device s e ∧ marks = s.marks device) := by
  rcases (step_effect E s e).calls_cases hc with hc | hc | ⟨token, hphase⟩
  · exact .inl ⟨c, hc, rfl, hread⟩
  · cases hc with
    | begun | certified | failed => cases hread
    | admitted hcall hactive =>
      cases hread
      exact .inr ⟨⟨rfl, ⟨_, hcall⟩, hactive⟩, rfl⟩
    | challenged hcall | proved hcall hproof => exact .inl ⟨_, hcall, rfl, hread⟩
  · rw [hphase] at hread
    cases hread

theorem Timely.step (h : Timely E s) (e : Event E.C) : Timely E (s.step E e) where
  expires := by
    intro key value expiry hentry _
    have hnow := (step_effect E s e).now_le
    rcases (step_effect E s e).redis_cases hentry with hentry | rfl
    · have hold := h.expires key value expiry hentry trivial
      omega
    · omega
  read := by
    intro n c cert tenant device marks hc hread
    have hmarks := (step_effect E s e).marks_le device
    rcases read_cases hc hread with ⟨c', hc', -, hread'⟩ | ⟨-, rfl⟩
    · exact (h.read n c' cert tenant device marks hc' hread').trans hmarks
    · exact hmarks

theorem Timely.init (chains : ℕ → ChainCache E.C) (devices : DeviceId → Option DeviceRow) :
    Timely E (.init chains devices) where
  expires := Expiring.Store.expiresBy_empty _ _
  read := by
    intro n c cert tenant device marks hc
    cases hc

/-! ### After a revocation -/

/-- What holds after a revocation of the device in `start`, until it has authenticated again. -/
structure Barred (E : Env) (device : DeviceId) (start : State E.C) (events : List (Event E.C))
    (s : State E.C) : Prop where
  marker : ∃ value expiry, s.redis.entries (revokedKey device) = some (value, expiry) ∧
    s.redis.ExpiresBy (fun v => ∃ info, v = .session info ∧ info.device = device) expiry
  active : ∀ tenant, s.devices device = some (tenant, .active) →
    Happened (State.step E) start [SetsActive E device] events
  read : ∀ n c cert tenant, s.calls n = some c →
    c.phase.read? = some (cert, tenant, device, s.marks device) →
    Happened (State.step E) start
      [ReadActive E n c.tls cert tenant device, SetsActive E device] events

theorem step_mark {n replica : ℕ} {reply : Reply} (hwritten : State.written E reply = true)
    (hcall : s.withdrawals n = some ⟨replica, device, .marking⟩) :
    s.step E (.mark n reply) =
      { s.setWithdrawal n ⟨replica, device, .returned⟩ with
        redis := s.redis.setEx s.now (revokedKey device) .marker (1000 * E.ttlSecs)
        marks := Function.update s.marks device (s.marks device + 1) } := by
  have hwrites : reply.applied ∧ 0 < E.ttlSecs := by
    simp only [State.written, Bool.and_eq_true, decide_eq_true_eq] at hwritten
    obtain ⟨rfl, httl⟩ := hwritten
    exact ⟨rfl, httl⟩
  simp only [State.step, State.markStep, hcall, hwritten, State.setEx, if_pos hwrites, ↓reduceIte,
    State.setWithdrawal]

theorem barred_of_revokes (htimely : Timely E s) (hcareful : Careful E s e)
    (h : Revokes E device s e) : Barred E device (s.step E e) [] (s.step E e) := by
  obtain ⟨n, reply, replica, rfl, hwritten, hcall⟩ := h
  rw [step_mark hwritten hcall]
  simp only [Careful, hcall] at hcareful
  constructor
  · refine ⟨.marker, _, Expiring.Store.setEx_entries_self, Expiring.Store.ExpiresBy.setEx
      (htimely.expires.imp fun _ _ => trivial) ?_⟩
    rintro ⟨info, hmarker, -⟩
    cases hmarker
  · intro tenant hactive
    have hrow : s.devices device = some (tenant, .active) := hactive
    rw [hrow] at hcareful
    exact absurd rfl hcareful
  intro n c cert tenant hc hread
  -- a counter that was read before is behind the new one
  have hle := htimely.read n c cert tenant device _ hc hread
  simp only [Function.update_self] at hle
  omega

section Steps

variable {start : State E.C} {events : List (Event E.C)}

theorem Barred.step (htimely : Timely E (run (State.step E) start events))
    (h : Barred E device start events (run (State.step E) start events))
    (hcareful : Careful E (run (State.step E) start events) e) :
    Barred E device start (events ++ [e]) ((run (State.step E) start events).step E e) ∨
      Reauthenticated E device start (events ++ [e]) := by
  by_cases hissues :
      ∃ n tls tenant, Issues E n tls tenant device (run (State.step E) start events) e
  · right
    obtain ⟨n, tls, tenant, hissues⟩ := hissues
    obtain ⟨replica, cert, marks, coins, token, unix, reply, rfl, hcall, hkem⟩ := hissues
    simp only [Careful, hcall] at hcareful
    subst hcareful
    have hread := h.read n _ cert tenant hcall rfl
    exact ⟨n, tls, cert, tenant, hread.snoc ⟨_, _, _, _, _, _, _, rfl, hcall, hkem⟩⟩
  · left
    constructor
    · obtain ⟨value, expiry, hmarker, htokens⟩ := h.marker
      have hlate := htimely.expires _ _ _ hmarker trivial
      have hnew : ∀ t, expiry ≤ t → ((run (State.step E) start events).step E e).redis.ExpiresBy
          (fun v => ∃ info, v = .session info ∧ info.device = device) t := by
        rintro t ht key value' expiry' hentry ⟨info, rfl, rfl⟩
        rcases (step_effect E _ e).sessions_cases hentry with hentry | ⟨⟨n, hn⟩, -⟩
        · exact (htokens _ _ _ hentry ⟨info, rfl, rfl⟩).trans ht
        · exact absurd ⟨n, _, _, hn⟩ hissues
      rcases (step_effect E _ e).marker_cases hmarker with hkept | hlater
      · exact ⟨value, expiry, hkept, hnew _ le_rfl⟩
      · exact ⟨.marker, _, hlater, hnew _ hlate⟩
    · intro tenant hactive
      rcases (step_effect E _ e).active_cases hactive with hactive | rfl
      · exact (h.active tenant hactive).append [e]
      · exact happened_last ⟨tenant, rfl⟩
    · intro n c cert tenant hc hread
      rcases read_cases hc hread with ⟨c', hc', htls, hread'⟩ | ⟨hactive, -⟩
      · -- the counter has not moved since this call has read it
        have hle := htimely.read n c' cert tenant device _ hc' hread'
        have hge := (step_effect E (run (State.step E) start events) e).marks_le device
        rw [le_antisymm hle hge] at hread'
        rw [← htls]
        exact (h.read n c' cert tenant hc' hread').append [e]
      · exact (h.active tenant hactive.2.2).snoc hactive

theorem Barred.not_looksUp (h : Barred E device start events s) (hcareful : Careful E s e) :
    ¬ LooksUp E device s e := by
  rintro ⟨m, caller, creds, info, rfl, hreq, hlookup, rfl⟩
  obtain ⟨value, expiry, hmarker, htokens⟩ := h.marker
  simp only [Careful, hreq] at hcareful
  -- the token is still there, so the marker is there too
  have hlive : s.now < expiry := htokens.lt_of_get hcareful ⟨info, rfl, rfl⟩
  have hget := Expiring.Store.get_eq_some.mpr ⟨expiry, hmarker, hlive⟩
  obtain ⟨-, -, hnone⟩ := lookupResult_eq_some hlookup
  rw [hget] at hnone
  cases hnone

theorem Reauthenticated.append (h : Reauthenticated E device start events)
    (more : List (Event E.C)) : Reauthenticated E device start (events ++ more) := by
  obtain ⟨n, tls, cert, tenant, h⟩ := h
  exact ⟨n, tls, cert, tenant, h.append more⟩

theorem barred_run (htimely : Timely E start) (hbarred : Barred E device start [] start)
    (hcareful : Guarded (State.step E) (Careful E) start events) :
    Timely E (run (State.step E) start events) ∧
      (Barred E device start events (run (State.step E) start events) ∨
        Reauthenticated E device start events) := by
  refine Guarded.history (I := fun xs s => Timely E s ∧
    (Barred E device start xs s ∨ Reauthenticated E device start xs)) ⟨htimely, .inl hbarred⟩ ?_
    hcareful
  rintro xs e ⟨ht, hb | hr⟩ hc
  · exact ⟨ht.step e, hb.step ht hc⟩
  · exact ⟨ht.step e, .inr (hr.append [e])⟩

end Steps

/-! ### A revocation in the middle of a call -/

/-- Up to the marker: the laptop has been read as active, and is then revoked. -/
def revokedMeanwhile : List (Event desk.C) :=
  hello ++ [.withdraw 0 0 .revoke 3 true, .revokeCertificates 0 (some [3]) true]

/-- The call goes on and stores a token. The marker expires a second before it. -/
def signedInLater : List (Event desk.C) :=
  .tick 1000 :: (finish ++ [.tick 59000, .request 0 laptop, .getSession 0 true])

def suspendedAtOnce : List (Event desk.C) :=
  hello ++ finish ++ [.withdraw 0 0 .suspend 3 true]

/-- A lookup finds the token in its last millisecond, and asks for the marker after it. -/
def slowLookup : List (Event desk.C) :=
  [.tick 59999, .request 0 laptop, .getSession 0 true, .tick 1]

theorem not_final {pre mid : List (Event desk.C)} (creds : DeviceCredentials) (info : SessionInfo)
    (hdevice : info.device = 3) (hquiet : ∀ row, .setRow 3 row ∉ mid)
    (hrun : (run (State.step desk) deskStart pre).withdrawals 0 = some ⟨0, 3, .marking⟩ ∧
      (run (State.step desk) deskStart (pre ++ .mark 0 .ok :: mid)).requests 0 =
        some ⟨laptop, .found creds info⟩ ∧
      (run (State.step desk) deskStart (pre ++ .mark 0 .ok :: mid)).lookupResult desk info true =
        .ok (some info)) :
    ¬ RevocationFinal desk deskStart (pre ++ .mark 0 .ok :: (mid ++ [.existsRevoked 0 true])) := by
  obtain ⟨hcall, hreq, hlookup⟩ := hrun
  intro hfinal
  obtain ⟨n, tls, cert, tenant, hagain⟩ := hfinal 3 _ _ _ _ [] rfl
    ⟨0, .ok, 0, rfl, by decide, hcall⟩ ⟨0, laptop, creds, info, rfl, hreq, hlookup, hdevice⟩
  obtain ⟨e, hmem, s, tenant', rfl⟩ := hagain.exists_mem (List.mem_of_getLast? rfl)
  exact hquiet _ hmem

theorem revocation_not_final :
    ¬ RevocationFinal desk deskStart
        (revokedMeanwhile ++ .mark 0 .ok :: (signedInLater ++ [.existsRevoked 0 true])) ∧
      ¬ RevocationFinal desk deskStart
        (suspendedAtOnce ++ .mark 0 .ok :: (slowLookup ++ [.existsRevoked 0 true])) := by
  constructor
  · refine not_final ⟨7, 3, transparentHash [1], 5⟩ ⟨7, 3, transparentHash [1], 50⟩ rfl ?_ ?_
    · simp [signedInLater, finish]
    · decide +kernel
  refine not_final ⟨7, 3, transparentHash [1], 5⟩ ⟨7, 3, transparentHash [1], 50⟩ rfl ?_ ?_
  · simp [slowLookup]
  · decide +kernel

/-- In every careful run, the revocation of the tokens of a device is final. -/
theorem revocation_final (E : Env) (chains : ℕ → ChainCache E.C)
    (devices : DeviceId → Option DeviceRow) (events : List (Event E.C))
    (hcareful : Guarded (State.step E) (Careful E) (.init chains devices) events) :
    RevocationFinal E (.init chains devices) events := by
  rintro device pre e mid last post rfl hrevokes hlooksUp
  obtain ⟨hpre, hrevoke, hrest⟩ := guarded_append.mp hcareful
  obtain ⟨hmid, hlast, -⟩ := guarded_append.mp hrest
  have htimely : Timely E (run (State.step E) (.init chains devices) pre) :=
    run_invariant (fun s e h => h.step e) (.init chains devices) pre
  have hbarred := barred_of_revokes htimely hrevoke hrevokes
  have hstart : run (State.step E) (.init chains devices) (pre ++ [e]) =
      (run (State.step E) (.init chains devices) pre).step E e := by simp
  have hreached : run (State.step E) (.init chains devices) (pre ++ e :: mid) =
      run (State.step E) ((run (State.step E) (.init chains devices) pre).step E e) mid := by simp
  rw [hreached] at hlooksUp
  rw [hstart]
  obtain ⟨-, hbarred | hreauth⟩ := barred_run (htimely.step e) hbarred hmid
  · exact absurd hlooksUp (hbarred.not_looksUp hlast)
  · exact hreauth

def suspended : List (Event desk.C) :=
  hello ++ finish ++ [.withdraw 0 0 .suspend 3 true, .mark 0 .ok, .tick 59000] ++ useToken

theorem revocation_final_suspended : ∃ events,
    Guarded (State.step desk) (Careful desk) deskStart events ∧
      (run (State.step desk) deskStart events).requests 0 =
        some ⟨laptop, .answered (.error ⟨.unauthenticated, "session expired"⟩)⟩ ∧
      RevocationFinal desk deskStart events := by
  have hrun : ∃ events, Guarded (State.step desk) (Careful desk) deskStart events ∧
      (run (State.step desk) deskStart events).requests 0 =
        some ⟨laptop, .answered (.error ⟨.unauthenticated, "session expired"⟩)⟩ :=
    ⟨suspended, by decide +kernel⟩
  obtain ⟨events, hcareful, hanswer⟩ := hrun
  have hfinal := revocation_final desk (fun _ => deskChain) deskDevices events hcareful
  exact ⟨events, hcareful, hanswer, hfinal⟩

end Avon.Control.Auth
