import Avon.Attest.Quote
import Avon.Proofs.Control.EnrollTx

/-!
# What an enrollment with a token has checked

Two things that a token asks for are not enforced: an enrollment never parses or verifies the
evidence, and the pods and the class of a token only have to exist. `enrolled_refines` carries the
checks over to enrollments that run at the same time.
-/

set_option autoImplicit false

namespace Avon.Control.Enrollment

open Avon.Attest Avon.Ca Avon.Crypto Avon.Keystore Avon.Lib Avon.Lib.Run Avon.Proto

variable {C : HybridImpl} {B : BindingImpl} {Q : QuoteImpl} {t : Tables} {token : TokenRow}
  {now : ℤ} {req : EnrollRequest} {w : EnrollWorld C} {device : EnrolledDevice}
  {certificate : Certificate}

/-- The pods and the class of the token are of its tenant. -/
structure Confined (t : Tables) (token : TokenRow) : Prop where
  pods : ∀ pod ∈ token.podIds, ∀ row ∈ t.pods, row.id = pod → row.tenantId = token.tenantId
  deviceClass : ∀ id, token.deviceClassId = some id → ∀ row ∈ t.deviceClasses, row.id = id →
    row.tenantId = token.tenantId

/-- The evidence of a request parses, and some check with `verify` accepts it. -/
def Attested (Q : QuoteImpl) (req : EnrollRequest) : Prop :=
  ∃ a evidence nonce known policy, req.attestation = some a ∧
    parse a.format a.evidence = .ok evidence ∧
      (verify Q evidence nonce known policy).state = .verified

/-- The certificate has the keys of the CSR, the tenant of the token and the id of the device. -/
def CertifiedFor (C : HybridImpl) (req : EnrollRequest) (token : TokenRow) (id : DeviceId)
    (certificate : Certificate) : Prop :=
  ∃ csr template, req.csr = some csr ∧ TbsCertificate.decode C csr.tbsTemplate = .ok template ∧
    certificate.tbs.signingKey = template.signingKey ∧ certificate.tbs.kemKey = template.kemKey ∧
      certificate.tbs.tenantId = uuidText token.tenantId ∧ certificate.tbs.subjectId = id

structure Conditions (C : HybridImpl) (Q : QuoteImpl) (t : Tables) (token : TokenRow) (now : ℤ)
    (req : EnrollRequest) (id : DeviceId) (device : EnrolledDevice) (certificate : Certificate) :
    Prop where
  expiry : ¬ token.expiresAt < now
  fingerprint : ∀ expected, token.expectedFingerprint = some expected →
    fingerprintOf req = some expected
  approval : token.requireApproval = true → device.status = "pending"
  confined : Confined t token
  attestation : token.requireAttestation = true → Attested Q req
  certified : CertifiedFor C req token id certificate

/-- Every enrollment with the token meets its conditions. -/
def Enforced (C : HybridImpl) (B : BindingImpl) (Q : QuoteImpl) (t : Tables) (token : TokenRow) :
    Prop :=
  ∀ now req w device certificate, t.findToken (hashToken C req.token) = some token →
    enrollIn C B t now req w = .ok (device, certificate) →
      Conditions C Q t token now req w.deviceId device certificate

/-! ### What is checked -/

theorem checkToken_iff {token : EnrollmentToken} : checkToken req token = .ok () ↔
    (∀ expected, token.expectedFingerprint = some expected → fingerprintOf req = some expected) ∧
      (token.requireAttestation = true →
        ∃ a, req.attestation = some a ∧ a.format ≠ "none" ∧ a.evidence ≠ []) := by
  unfold checkToken
  rw [ite_error_eq_ok, ite_error_eq_ok]
  cases token.expectedFingerprint <;> cases token.requireAttestation <;>
    cases req.attestation <;> simp

theorem consumeToken_eq_ok {text : String} : consumeToken C t text now = .ok token ↔
    t.findToken (hashToken C text) = some token ∧ token.checkUse now = .ok () := by
  unfold consumeToken
  split
  · next hnone => simp [hnone]
  next row hrow =>
  rw [bind_eq_ok, hrow]
  constructor
  · rintro ⟨⟨⟩, huse, ⟨⟩⟩
    exact ⟨rfl, huse⟩
  · rintro ⟨⟨⟩, huse⟩
    exact ⟨(), huse, rfl⟩

theorem map_consumeToken_eq_ok {text : String} {row : EnrollmentToken} :
    (consumeToken C t text now).map (·.toEnrollmentToken) = .ok row ↔
      ∃ token, consumeToken C t text now = .ok token ∧ token.toEnrollmentToken = row := by
  cases consumeToken C t text now <;> simp [Except.map]

theorem certifiedFor_of_issue {csr : Csr} {template : TbsCertificate} {ca : CaWorld C}
    {id : DeviceId} {kind : SubjectKind} {sans : List String}
    (htemplate : enrollTemplate C req = .ok (csr, template))
    (hissue : issueDeviceCredential C ca token.tenantId id csr kind sans = .ok certificate) :
    CertifiedFor C req token id certificate := by
  obtain ⟨hcsr, hdecode⟩ := enrollTemplate_cases htemplate
  obtain ⟨template', kem, hdecode', hkem, hsigning, hkey, -⟩ := issueDeviceCredential_cases hissue
  obtain ⟨htenant, hsubject⟩ := issueDeviceCredential_subject hissue
  cases hdecode.symm.trans hdecode'
  exact ⟨csr, template, hcsr, hdecode, hsigning, hkey.trans hkem.symm, htenant, hsubject⟩

theorem enrollIn_checks (htoken : t.findToken (hashToken C req.token) = some token)
    (h : enrollIn C B t now req w = .ok (device, certificate)) :
    ¬ token.expiresAt < now ∧
      (∀ expected, token.expectedFingerprint = some expected →
        fingerprintOf req = some expected) ∧
      (token.requireApproval = true → device.status = "pending") ∧
      CertifiedFor C req token w.deviceId certificate := by
  unfold enrollIn at h
  obtain ⟨-, csr, template, htemplate, -, row, hconsume, hcheck, -, -, -, hissue, -, rfl⟩ :=
    enroll_eq_ok.mp h
  obtain ⟨token', htoken', rfl⟩ := map_consumeToken_eq_ok.mp hconsume
  obtain ⟨hfind, huse⟩ := consumeToken_eq_ok.mp htoken'
  cases htoken.symm.trans hfind
  exact ⟨(TokenRow.checkUse_ok huse).1, (checkToken_iff.mp hcheck).1,
    fun happroval => if_pos happroval, certifiedFor_of_issue htemplate hissue⟩

theorem enrollIn_attestation {r : EnrolledDevice × Certificate}
    (h : enrollIn C B t now req w = .ok r) (a : AttestationEvidence) (hformat : a.format ≠ "none")
    (hevidence : a.evidence ≠ []) :
    enrollIn C B t now { req with attestation := some a } w = .ok r := by
  -- Only `checkToken` looks at the evidence.
  have hworld : worldIn C t now { req with attestation := some a } w = worldIn C t now req w := rfl
  have hkey : keyProviderOf B { req with attestation := some a } = keyProviderOf B req := rfl
  unfold enrollIn at h ⊢
  obtain ⟨hlen, csr, template, htemplate, hbegin, row, hconsume, hcheck, rest⟩ := enroll_eq_ok.mp h
  rw [hworld]
  refine enroll_eq_ok.mpr ⟨hlen, csr, template, htemplate, hbegin, row, hconsume, ?_, ?_⟩
  · exact checkToken_iff.mpr ⟨(checkToken_iff.mp hcheck).1, fun _ => ⟨a, rfl, hformat, hevidence⟩⟩
  · rw [hkey]
    exact rest

/-- Take a token with which some enrollment succeeds. Every enrollment with it meets its conditions
if and only if it does not require attestation, and its pods and its class are of its tenant. -/
theorem enrollment_conditions_iff (C : HybridImpl) (B : BindingImpl) (Q : QuoteImpl) (t : Tables)
    (token : TokenRow)
    (husable : ∃ now req w r, t.findToken (hashToken C req.token) = some token ∧
      enrollIn C B t now req w = .ok r) :
    Enforced C B Q t token ↔ token.requireAttestation = false ∧ Confined t token := by
  constructor
  · intro henforced
    obtain ⟨now, req, w, ⟨device, certificate⟩, htoken, h⟩ := husable
    refine ⟨?_, (henforced now req w device certificate htoken h).confined⟩
    by_contra hrequired
    -- The same enrollment with evidence of an unknown format.
    have hjunk := enrollIn_attestation h ⟨"junk", [0]⟩ (by decide) (by decide)
    obtain ⟨a, evidence, -, -, -, ha, hparse, -⟩ :=
      (henforced now { req with attestation := some ⟨"junk", [0]⟩ } w device certificate htoken
        hjunk).attestation (by simpa using hrequired)
    cases ha
    cases hparse
  · rintro ⟨hrequired, hconfined⟩ now req w device certificate htoken h
    obtain ⟨hexpiry, hfingerprint, happroval, hcertified⟩ := enrollIn_checks htoken h
    refine ⟨hexpiry, hfingerprint, happroval, hconfined, fun hrequire => ?_, hcertified⟩
    cases hrequired.symm.trans hrequire

def anyQuote : QuoteImpl := ⟨transparentScheme, fun _ => []⟩

def junkRequest : EnrollRequest :=
  ⟨"token", some (tpmCsr 5), none, some ⟨"junk", [0]⟩, "laptop"⟩

def quietWorld : EnrollWorld transparentHybrid :=
  ⟨true, .error .invalidToken, 1, true, quietCa, true⟩

/-- A token with a pod, a class and a fingerprint, for devices that have to be approved. -/
def strictToken : TokenRow :=
  { oneUseToken with
    podIds := [30]
    deviceClassId := some 20
    requireApproval := true
    expectedFingerprint := some (List.replicate 32 1) }

def strict : Tables :=
  { oneUse with tokens := [strictToken], pods := [⟨30, 7, none⟩], deviceClasses := [⟨20, 7⟩] }

def strictRequest : EnrollRequest :=
  ⟨"token", some { tpmCsr 5 with hardwareBinding := [] }, some ⟨2, List.replicate 32 1⟩, none,
    "laptop"⟩

theorem enrollment_conditions_strict :
    Enforced transparentHybrid transparentBinding anyQuote strict strictToken := by
  have hconfined : Confined strict strictToken := by
    constructor
    · intro pod _ row hrow _
      cases List.mem_singleton.mp hrow
      rfl
    · intro id _ row hrow _
      cases List.mem_singleton.mp hrow
      rfl
  refine (enrollment_conditions_iff transparentHybrid transparentBinding anyQuote strict
    strictToken ?_).mpr ⟨rfl, hconfined⟩
  obtain ⟨r, hr, -⟩ := exists_ok (p := fun _ => true)
    (x := enrollIn transparentHybrid transparentBinding strict 1000 strictRequest quietWorld)
    (by decide +kernel)
  exact ⟨1000, strictRequest, quietWorld, r, rfl, hr⟩

def attestedOnly : Tables :=
  { oneUse with tokens := [{ oneUseToken with requireAttestation := true }] }

def strayPod : Tables :=
  { oneUse with tokens := [{ oneUseToken with podIds := [30] }], pods := [⟨30, 8, none⟩] }

/-- The token that requires attestation takes evidence that does not parse, and the other token puts
a device of tenant 7 in a pod of tenant 8. -/
theorem enrollment_unchecked :
    (∃ r, enrollIn transparentHybrid transparentBinding attestedOnly 1000 junkRequest quietWorld =
        .ok r ∧ ¬ Attested anyQuote junkRequest) ∧
    ∃ r, enrollIn transparentHybrid transparentBinding strayPod 1000 junkRequest quietWorld =
        .ok r ∧ ¬ Confined strayPod { oneUseToken with podIds := [30] } := by
  constructor
  · obtain ⟨r, hr, -⟩ := exists_ok (p := fun _ => true)
      (x := enrollIn transparentHybrid transparentBinding attestedOnly 1000 junkRequest quietWorld)
      (by decide +kernel)
    refine ⟨r, hr, ?_⟩
    rintro ⟨a, evidence, -, -, -, ⟨⟩, hparse, -⟩
    cases hparse
  obtain ⟨r, hr, -⟩ := exists_ok (p := fun _ => true)
    (x := enrollIn transparentHybrid transparentBinding strayPod 1000 junkRequest quietWorld)
    (by decide +kernel)
  refine ⟨r, hr, fun hconfined => ?_⟩
  have htenant := hconfined.pods 30 (List.mem_singleton_self _) ⟨30, 8, none⟩
    (List.mem_singleton_self _) rfl
  revert htenant
  decide

/-! ### Calls at the same time -/

section
variable {ι : Type} [DecidableEq ι] {s : System C ι} {k : ι} {events : List (Event C ι)}
  (start : Tables) (P : Call C → Prop)

/-- The token is one of the start, but for the number of its uses. -/
def Issued (token : TokenRow) : Prop :=
  ∃ row ∈ start.tokens, ∃ used, token = { row with useCount := used }

structure Taken (e : Enrolling C) : Prop where
  call : P e.call
  token : Issued start e.token
  len : e.call.req.token.utf8ByteSize ≠ 0 ∧ e.call.req.token.utf8ByteSize ≤ 256
  template : enrollTemplate C e.call.req = .ok (e.csr, e.template)
  hash : e.token.tokenHash = hashToken C e.call.req.token
  use : ∃ now, e.token.checkUse now = .ok ()

/-- A call that has inserted its device has made its checks. -/
structure Cleared (B : BindingImpl) (e : Enrolling C) : Prop extends Taken start P e where
  check : checkToken e.call.req e.token.toEnrollmentToken = .ok ()
  key : ∃ keyProvider, keyProviderOf B e.call.req e.csr e.template = .ok keyProvider

def Answers (B : BindingImpl) (r : EnrollResponse) (e : Enrolling C) : Prop :=
  Cleared start P B e ∧
    issueDeviceCredential C e.call.ca e.token.tenantId e.call.deviceId e.csr .device
      (deviceSans e.token.tenantId e.call.deviceId) = .ok r.credential ∧
    r.deviceId = e.call.deviceId ∧ r.tenantId = e.token.tenantId ∧ r.status = e.token.deviceStatus

/-- What a call has checked, for each place it can stand at. -/
def Checked (B : BindingImpl) : Phase C → Prop
  | .consuming call csr template =>
    P call ∧ (call.req.token.utf8ByteSize ≠ 0 ∧ call.req.token.utf8ByteSize ≤ 256) ∧
      enrollTemplate C call.req = .ok (csr, template)
  | .counting e | .creating e => Taken start P e
  | .addingPods e _ | .allocating (some e) .. | .recording e | .issuing e =>
    Cleared start P B e
  | .committing (.enrolled r) | .ended (.enrolled r) =>
    ∃ e : Enrolling C, Answers start P B r e
  | _ => True

variable {start P}

theorem Checked.advance {e : Event C ι} {phase : Phase C} {locks : List Lock} {writes : Writes}
    (htokens : ∀ token ∈ s.db.tokens, Issued start token)
    (hP : ∀ call, e = .enroll e.call call → P call) (h : Checked start P B (s.phase e.call))
    (hadvance : Advance B s e phase locks writes) : Checked start P B phase := by
  cases hadvance with
  | enroll hphase hlen htemplate => exact ⟨hP _ rfl, hlen, htemplate⟩
  | allocate | returned => trivial
  | @consume k now call csr template token hphase hfind hfree huse =>
    rw [Event.call, hphase] at h
    obtain ⟨hmem, hhash⟩ := Tables.findToken_eq_some hfind
    exact ⟨h.1, htokens token hmem, h.2.1, h.2.2, hhash, now, huse⟩
  | create hphase hcheck hkey =>
    rw [Event.call, hphase] at h
    exact ⟨h, hcheck, _, hkey⟩
  | @alloc _ _ enrolling _ _ _ _ _ hphase =>
    rw [Event.call, hphase] at h
    cases enrolling with
    | none => trivial
    | some e => exact h
  | issue hphase hissue =>
    rw [Event.call, hphase] at h
    exact ⟨_, h, hissue, rfl, rfl, rfl⟩
  | count hphase | podsDone hphase | pod hphase | allocated hphase | record hphase =>
    rw [Event.call, hphase] at h
    exact h

structure AllChecked (start : Tables) (B : BindingImpl) (events : List (Event C ι))
    (s : System C ι) : Prop where
  tokens : ∀ token ∈ s.db.tokens, Issued start token
  calls : ∀ k, Checked start (fun call => .enroll k call ∈ events) B (s.phase k)

theorem AllChecked.step (h : AllChecked start B events s) {e : Event C ι} (he : e ∈ events) :
    AllChecked start B events (step B s e) := by
  have hmoves := step_moves (B := B) s e
  generalize Enrollment.step B s e = s' at hmoves
  refine ⟨fun token htoken => ?_, fun k => ?_⟩
  · rcases hmoves.db_cases with hdb | ⟨outcome, -, rfl⟩
    · exact h.tokens token (hdb ▸ htoken)
    obtain ⟨old, hold, rfl⟩ := List.mem_map.mp htoken
    obtain ⟨row, hrow, used, rfl⟩ := h.tokens old hold
    unfold TokenRow.count
    split <;> exact ⟨row, hrow, _, rfl⟩
  by_cases hk : k = e.call
  · subst hk
    cases hmoves with
    | stay => exact h.calls e.call
    | goto phase locks writes hadvance =>
      rw [System.phase_goto]
      exact Checked.advance h.tokens (fun _ hcall => hcall ▸ he) (h.calls e.call) hadvance
    | rollback status hlive =>
      rw [System.phase_rollback]
      trivial
    | commit outcome hphase =>
      have hcall := h.calls e.call
      rw [hphase] at hcall
      rw [System.phase_commit]
      cases outcome with
      | enrolled r => exact hcall
      | allocated | failed => trivial
  · rw [(hmoves.frame hk).1]
    exact h.calls k

/-- In every interleaving, a call that has returned a response was started with a request for which
`enroll` succeeds with this response, with the token of the database that has the hash of the
request and could be used at some time. -/
theorem enrolled_refines (start : Tables) (events : List (Event C ι)) {r : EnrollResponse}
    (h : (run (step B) (System.init C ι start) events).phase k = .ended (.enrolled r)) :
    ∃ call : Call C, ∃ token ∈ start.tokens, ∃ (used : ℕ) (now : ℤ) (device : EnrolledDevice),
      .enroll k call ∈ events ∧ token.tokenHash = hashToken C call.req.token ∧
      { token with useCount := used }.checkUse now = .ok () ∧
      enroll C B (fun _ => false) call.req
        ⟨true, .ok token.toEnrollmentToken, call.deviceId, true, call.ca, true⟩ =
          .ok (device, r.credential) ∧
      r.deviceId = call.deviceId ∧ r.tenantId = device.tenantId ∧ r.status = device.status := by
  have hrun : ∀ es ⊆ events, ∀ s, AllChecked start B events s →
      AllChecked start B events (run (step B) s es) := by
    intro es hes
    induction es with
    | nil => exact fun _ h => h
    | cons e es ih =>
      obtain ⟨he, hes⟩ := List.cons_subset.mp hes
      exact fun _ h => ih hes _ (h.step he)
  have hcall := (hrun events (List.Subset.refl _) (System.init C ι start)
    ⟨fun row hrow => ⟨row, hrow, _, rfl⟩, fun _ => trivial⟩).calls k
  rw [h] at hcall
  obtain ⟨⟨call, csr, template, _⟩, hcleared, hissue, hid, htenant, hstatus⟩ := hcall
  obtain ⟨token, htoken, used, rfl⟩ := hcleared.token
  obtain ⟨now, huse⟩ := hcleared.use
  obtain ⟨keyProvider, hkey⟩ := hcleared.key
  exact ⟨call, token, htoken, used, now, _, hcleared.call, hcleared.hash, huse, enroll_eq_ok.mpr
    ⟨hcleared.len, csr, template, hcleared.template, rfl, token.toEnrollmentToken, rfl,
    hcleared.check, keyProvider, hkey, ⟨rfl, rfl⟩, hissue, rfl, rfl⟩, hid, htenant, hstatus⟩

end

set_option maxRecDepth 8000 in
theorem enrolled_refines_race : ∃ r call,
    (run (step transparentBinding) (System.init transparentHybrid Bool oneUse) race).phase false =
      .ended (.enrolled r) ∧ .enroll false call ∈ race ∧ r.deviceId = call.deviceId := by
  obtain ⟨r, hr⟩ : ∃ r, (run (step transparentBinding) (System.init transparentHybrid Bool oneUse)
      race).phase false = .ended (.enrolled r) := ⟨_, rfl⟩
  obtain ⟨call, -, -, -, -, -, hmem, -, -, -, hid, -⟩ := enrolled_refines oneUse race hr
  exact ⟨r, call, hr, hmem, hid⟩

end Avon.Control.Enrollment
