import Avon.Tunnel.Establish

/-!
# Agreement of the two ends

`Trusted` is what an initiator relies on: a signature that verifies was made by a `ResponderRun`,
and no two of the hashed texts collide. The transcript leaves out the index and the endpoint of an
answer.
-/

set_option autoImplicit false

namespace Avon.Tunnel

open Avon.Crypto Avon.Proto Avon.Lib.BigEndian Initiator
open Responder (answerWith)

variable {sent relayed : SessionAnswer} {est : Established} {α : Type}

@[simp] theorem liftCrypto_eq_ok {x : Except CryptoError α} {a : α} :
    liftCrypto x = .ok a ↔ x = .ok a := mapError_eq_ok

@[simp] theorem toOption_liftCrypto (x : Except CryptoError α) :
    (liftCrypto x).toOption = x.toOption := toOption_mapError _ x

theorem eq_id_of_fromId {id : UInt8} {suite : Suite} (h : Suite.fromId id = some suite) :
    id = suite.id := by
  unfold Suite.fromId at h
  split_ifs at h with hone htwo <;> cases h <;> assumption

theorem eq_id_of_suiteFromPb {v : ℤ} {suite : Suite} (h : suiteFromPb v = .ok suite) :
    v = suite.id.toNat := by
  unfold suiteFromPb at h
  split at h
  · cases h
  rename_i hbyte
  split at h
  · rename_i suite' hfrom
    cases h
    have hnat : (UInt8.ofNat v.toNat).toNat = v.toNat := by
      rw [UInt8.toNat_ofNat']
      omega
    rw [eq_id_of_fromId hfrom] at hnat
    omega
  · cases h

section
variable {C : HybridImpl} {H : Hkdf}

/-! ### The initiator -/

/-- The transcript that the initiator sees in an answer. -/
def PendingOffer.transcript (pending : PendingOffer C) (answer : SessionAnswer)
    (sessionId : SessionId) (myCertId : Key) (responderCert : Certificate) (suite : Suite) :
    Transcript where
  sessionId := sessionId
  initiatorCertId := myCertId
  responderCertId := responderCert.id C
  ephKemPk := pending.ephPkBytes
  ctE := answer.ctE
  ctS := answer.ctS
  suite := suite

variable {pending : PendingOffer C} {answer : SessionAnswer} {sessionId : SessionId}
  {myCertId : Key} {responderCert : Certificate}

variable {dec : Bytes → Except TunnelError Key} {kem : C.KeyPair}

/-- Everything that has to hold for `completeWith` to succeed, and what it returns. -/
theorem completeWith_eq_ok :
    completeWith C H pending answer sessionId myCertId dec responderCert = .ok est ↔
      ∃ suite ssE ssS, suiteFromPb answer.suite = .ok suite ∧ suite ∈ pending.suites ∧
        answer.sessionId = uuidBytes sessionId ∧ C.signatureFromBytes answer.signature = .ok () ∧
        C.verify responderCert.tbs.signingKey .session
          ((pending.transcript answer sessionId myCertId responderCert suite).hash C).bytes
          answer.signature = .ok () ∧
        C.ciphertextFromBytes answer.ctE = .ok () ∧ C.ciphertextFromBytes answer.ctS = .ok () ∧
        C.decapsulate pending.eph answer.ctE = .ok ssE ∧ dec answer.ctS = .ok ssS ∧
        est = ⟨SessionKeys.derive C H
          (pending.transcript answer sessionId myCertId responderCert suite) ssE ssS, suite,
          (pending.transcript answer sessionId myCertId responderCert suite).hash C⟩ := by
  simp only [completeWith, bind_eq_ok, ensure_eq_ok, mapError_eq_ok, liftCrypto_eq_ok,
    PendingOffer.transcript, exists_and_left, exists_const, pure, Except.pure, Except.ok.injEq,
    eq_comm (b := est)]
  grind

/-- The two entry points of the initiator give the same result if the given operation
decapsulates as the key does. -/
theorem toOption_complete
    (hdec : ∀ ct, (dec ct).toOption = (C.decapsulate kem ct).toOption) :
    (complete C H pending answer sessionId myCertId kem responderCert).toOption =
      (completeWith C H pending answer sessionId myCertId dec responderCert).toOption := by
  simp only [complete, completeWith, toOption_bind, toOption_liftCrypto, hdec]

/-! ### The responder -/

def SignsWith (C : HybridImpl) (signFn : Domain → Bytes → Except TunnelError Bytes)
    (key : C.SigningKey) : Prop :=
  ∀ domain msg sig, signFn domain msg = .ok sig → ∃ coins, C.sign key domain msg coins = .ok sig

/-- A call of the responder that returned, by either entry point. -/
structure ResponderRun (C : HybridImpl) (H : Hkdf) where
  sessionId : SessionId
  initiatorCert : Certificate
  ephPk : Bytes
  suite : Suite
  myCertId : Key
  key : C.SigningKey
  myIndex : UInt32
  myEndpoint : Option String
  coinsE : C.Coins
  coinsS : C.Coins
  answer : SessionAnswer
  established : Established
  ran : (∃ coins, Responder.answer C H sessionId initiatorCert ephPk suite myCertId key myIndex
      myEndpoint coinsE coinsS coins = .ok (answer, established)) ∨
    ∃ signFn, SignsWith C signFn key ∧ answerWith C H sessionId initiatorCert ephPk suite
      myCertId signFn myIndex myEndpoint coinsE coinsS = .ok (answer, established)

def ResponderRun.transcript (r : ResponderRun C H) : Transcript where
  sessionId := r.sessionId
  initiatorCertId := r.initiatorCert.id C
  responderCertId := r.myCertId
  ephKemPk := r.ephPk
  ctE := r.answer.ctE
  ctS := r.answer.ctS
  suite := r.suite

/-- The two entry points of the responder give the same result if the given operation signs as
the key does. -/
theorem toOption_answer {initiatorCert : Certificate} {ephPk : Bytes} {suite : Suite}
    {key : C.SigningKey} {signFn : Domain → Bytes → Except TunnelError Bytes} {myIndex : UInt32}
    {myEndpoint : Option String} {coinsE coinsS : C.Coins} {signCoins : C.SignCoins}
    (hsign : ∀ domain msg,
      (signFn domain msg).toOption = (C.sign key domain msg signCoins).toOption) :
    (Responder.answer C H sessionId initiatorCert ephPk suite myCertId key myIndex myEndpoint
        coinsE coinsS signCoins).toOption =
      (answerWith C H sessionId initiatorCert ephPk suite myCertId signFn myIndex
        myEndpoint coinsE coinsS).toOption := by
  cases hkey : initiatorCert.tbs.kemKey with
  | none => simp only [Responder.answer, answerWith, hkey]
  | some staticPk =>
    simp only [Responder.answer, answerWith, hkey, toOption_bind,
      toOption_liftCrypto, hsign]

/-- What `answerWith` has done when it returns: it has encapsulated to the ephemeral key and to the
key of the certificate, and has derived the keys from the transcript. -/
theorem answerWith_cases {initiatorCert : Certificate} {ephPk : Bytes} {suite : Suite}
    {signFn : Domain → Bytes → Except TunnelError Bytes} {myIndex : UInt32}
    {myEndpoint : Option String} {coinsE coinsS : C.Coins}
    (h : answerWith C H sessionId initiatorCert ephPk suite myCertId signFn myIndex myEndpoint
      coinsE coinsS = .ok (answer, est)) :
    let transcript : Transcript :=
      ⟨sessionId, initiatorCert.id C, myCertId, ephPk, answer.ctE, answer.ctS, suite⟩
    ∃ staticPk ssE ssS, initiatorCert.tbs.kemKey = some staticPk ∧
      C.encapsulate ephPk coinsE = .ok (answer.ctE, ssE) ∧
      C.encapsulate staticPk coinsS = .ok (answer.ctS, ssS) ∧ answer.suite = suite.id.toNat ∧
      est = ⟨SessionKeys.derive C H transcript ssE ssS, suite, transcript.hash C⟩ := by
  unfold answerWith at h
  obtain ⟨-, -, h⟩ := bind_eq_ok.mp h
  cases hkey : initiatorCert.tbs.kemKey with
  | none =>
    rw [hkey] at h
    cases h
  | some staticPk =>
    rw [hkey] at h
    obtain ⟨⟨ctE, ssE⟩, hctE, h⟩ := bind_eq_ok.mp h
    obtain ⟨⟨ctS, ssS⟩, hctS, h⟩ := bind_eq_ok.mp h
    obtain ⟨sig, -, h⟩ := bind_eq_ok.mp h
    obtain ⟨rfl, rfl⟩ := Prod.mk.inj (Except.ok.inj h)
    exact ⟨staticPk, ssE, ssS, rfl, liftCrypto_eq_ok.mp hctE, liftCrypto_eq_ok.mp hctS, rfl, rfl⟩

theorem ResponderRun.spec (r : ResponderRun C H) : ∃ staticPk ssE ssS,
    r.initiatorCert.tbs.kemKey = some staticPk ∧
      C.encapsulate r.ephPk r.coinsE = .ok (r.answer.ctE, ssE) ∧
      C.encapsulate staticPk r.coinsS = .ok (r.answer.ctS, ssS) ∧
      r.answer.suite = r.suite.id.toNat ∧ r.established =
        ⟨SessionKeys.derive C H r.transcript ssE ssS, r.suite, r.transcript.hash C⟩ := by
  -- A call that holds the key is one that is given an operation.
  have hran : ∃ signFn, answerWith C H r.sessionId r.initiatorCert r.ephPk r.suite
      r.myCertId signFn r.myIndex r.myEndpoint r.coinsE r.coinsS =
        .ok (r.answer, r.established) := by
    rcases r.ran with ⟨coins, hran⟩ | ⟨signFn, -, hran⟩
    · refine ⟨fun domain msg => liftCrypto (C.sign r.key domain msg coins), ?_⟩
      rw [← toOption_eq_some, ← toOption_answer fun _ _ => toOption_liftCrypto _,
        toOption_eq_some]
      exact hran
    · exact ⟨signFn, hran⟩
  obtain ⟨signFn, hran⟩ := hran
  exact answerWith_cases hran

/-! ### What an initiator relies on -/

/-- What an initiator relies on. `unforged`: a signature that verifies under the responder's
key was made by one of the calls. The rest: SHA-256 gives different hashes to the transcripts,
and to the certificates, that meet here. -/
structure Trusted (log : List (ResponderRun C H)) (pending : PendingOffer C)
    (answer : SessionAnswer) (sessionId : SessionId) (myCert responderCert : Certificate) :
    Prop where
  unforged : ∀ suite, C.verify responderCert.tbs.signingKey .session
      ((pending.transcript answer sessionId (myCert.id C) responderCert suite).hash C).bytes
      answer.signature = .ok () →
    ∃ r ∈ log, C.verifyingKey r.key = responderCert.tbs.signingKey ∧ (r.transcript.hash C).bytes =
      ((pending.transcript answer sessionId (myCert.id C) responderCert suite).hash C).bytes
  transcripts : ∀ suite, ∀ r ∈ log, r.transcript.hash C =
      (pending.transcript answer sessionId (myCert.id C) responderCert suite).hash C →
    r.transcript = pending.transcript answer sessionId (myCert.id C) responderCert suite
  certificates : ∀ r ∈ log, r.initiatorCert.id C = myCert.id C → r.initiatorCert = myCert

variable {log : List (ResponderRun C H)} {myCert : Certificate}

/-- The responder's call behind a completed establishment: it signed the same transcript. -/
theorem Trusted.exists_run (htrusted : Trusted log pending answer sessionId myCert responderCert)
    (hok : completeWith C H pending answer sessionId (myCert.id C) dec responderCert =
      .ok est) :
    ∃ r ∈ log, C.verifyingKey r.key = responderCert.tbs.signingKey ∧ r.transcript =
      pending.transcript answer sessionId (myCert.id C) responderCert est.suite := by
  obtain ⟨suite, ssE, ssS, -, -, -, -, hverify, -, -, -, -, rfl⟩ := completeWith_eq_ok.mp hok
  obtain ⟨r, hr, hkey, hhash⟩ := htrusted.unforged suite hverify
  exact ⟨r, hr, hkey, htrusted.transcripts suite r hr (Key.bytes_inj hhash)⟩

theorem established_of_transcript (hkem : C.toHybridKem.Correct)
    (hcert : myCert.tbs.kemKey = some (C.publicKey kem))
    (hdec : ∀ ct, (dec ct).toOption = (C.decapsulate kem ct).toOption)
    (hok : completeWith C H pending answer sessionId (myCert.id C) dec responderCert =
      .ok est) {r : ResponderRun C H} (hinitiator : r.initiatorCert = myCert)
    (htranscript : r.transcript =
      pending.transcript answer sessionId (myCert.id C) responderCert est.suite) :
    r.established = est := by
  obtain ⟨suite, ssE, ssS, -, -, -, -, -, -, -, hssE, hssS, rfl⟩ := completeWith_eq_ok.mp hok
  obtain ⟨staticPk, ssE', ssS', hstatic, hctE, hctS, -, hest⟩ := r.spec
  have hephPk : r.ephPk = C.publicKey pending.eph :=
    (congrArg Transcript.ephKemPk htranscript).trans pending.ephPkBytes_eq
  have hsuite : r.suite = suite := congrArg Transcript.suite htranscript
  have hanswerE : r.answer.ctE = answer.ctE := congrArg Transcript.ctE htranscript
  have hanswerS : r.answer.ctS = answer.ctS := congrArg Transcript.ctS htranscript
  rw [hinitiator, hcert] at hstatic
  cases hstatic
  -- Each shared secret is decapsulated from the ciphertext that it was encapsulated in.
  have hsameE : ssE' = ssE := by
    have hopen := hkem _ _ _ _ (hephPk ▸ hctE)
    rw [hanswerE, hssE] at hopen
    exact (Except.ok.inj hopen).symm
  have hsameS : ssS' = ssS := by
    have hopen := hkem _ _ _ _ hctS
    rw [hanswerS, ← toOption_eq_some, ← hdec, hssS] at hopen
    exact (Option.some.inj hopen).symm
  rw [hest, htranscript, hsameE, hsameS, hsuite]

theorem completeWith_of_complete
    (hok : complete C H pending answer sessionId myCertId kem responderCert = .ok est) :
    completeWith C H pending answer sessionId myCertId
      (fun ct => liftCrypto (C.decapsulate kem ct)) responderCert = .ok est := by
  rw [← toOption_eq_some, ← toOption_complete fun _ => toOption_liftCrypto _, toOption_eq_some]
  exact hok

end

/-! ### A device and a gateway -/

def plainCert (kind : SubjectKind) (subject : Uuid) (signing : UInt8) (kem : Option UInt8) :
    Certificate where
  tbs := {
    version := 2
    serial := 1
    tenantId := "office"
    subjectId := subject
    kind := kind
    signingKey := [signing]
    kemKey := kem.map fun k => [k]
    notBefore := 0
    notAfter := 1000
    issuerKeyId := 0
    sans := []
    tlsCertSha256 := none
    hardwareBinding := none }
  signature := []

def deviceCert : Certificate := plainCert .device 1 11 (some 5)

def gatewayCert : Certificate := plainCert .gateway 9 12 none

def deviceOffer : PendingOffer transparentHybrid := ⟨(6 : UInt8), [6], [.aes256Gcm], rfl⟩

def gatewayCall : Except TunnelError (SessionAnswer × Established) :=
  Responder.answer transparentHybrid transparentHkdf 77 deviceCert [6] .aes256Gcm
    (gatewayCert.id transparentHybrid) (12 : UInt8) 40 (some "gateway:4600") (1 : UInt8)
    (2 : UInt8) ()

def gatewayRun (answer : SessionAnswer) (established : Established)
    (h : gatewayCall = .ok (answer, established)) :
    ResponderRun transparentHybrid transparentHkdf where
  sessionId := 77
  initiatorCert := deviceCert
  ephPk := [6]
  suite := .aes256Gcm
  myCertId := gatewayCert.id transparentHybrid
  key := (12 : UInt8)
  myIndex := 40
  myEndpoint := some "gateway:4600"
  coinsE := (1 : UInt8)
  coinsS := (2 : UInt8)
  answer := answer
  established := established
  ran := Or.inl ⟨(), h⟩

def otherSuiteRefused (answer : SessionAnswer) : Bool :=
  let other := (deviceOffer.transcript answer 77 (deviceCert.id transparentHybrid) gatewayCert
    .chaCha20Poly1305).hash transparentHybrid
  other ≠ (deviceOffer.transcript answer 77 (deviceCert.id transparentHybrid) gatewayCert
    .aes256Gcm).hash transparentHybrid &&
  answer.signature ≠ transparentSignature [12] .session other.bytes

theorem gatewayCall_returns : ∃ p, gatewayCall = .ok p ∧ otherSuiteRefused p.1 = true := by
  exact exists_ok (x := gatewayCall) (p := fun p => otherSuiteRefused p.1) (by decide +kernel)

theorem trusted_gatewayRun
    (h : gatewayCall = .ok (sent, est)) (hrefused : otherSuiteRefused sent = true)
    (hctE : relayed.ctE = sent.ctE) (hctS : relayed.ctS = sent.ctS)
    (hsig : relayed.signature = sent.signature) :
    Trusted [gatewayRun sent est h] deviceOffer relayed 77 deviceCert gatewayCert := by
  have hsame : ∀ suite, deviceOffer.transcript relayed 77 (deviceCert.id transparentHybrid)
      gatewayCert suite = deviceOffer.transcript sent 77 (deviceCert.id transparentHybrid)
      gatewayCert suite := by
    intro suite
    simp only [PendingOffer.transcript, hctE, hctS]
  simp only [otherSuiteRefused, Bool.and_eq_true, decide_eq_true_eq] at hrefused
  obtain ⟨hhash, hforged⟩ := hrefused
  refine ⟨?_, ?_, ?_⟩
  · intro suite hverify
    refine ⟨_, List.mem_singleton_self _, rfl, ?_⟩
    rw [hsame, hsig] at hverify
    cases suite with
    | aes256Gcm =>
      rw [hsame]
      rfl
    | chaCha20Poly1305 =>
      have hreject : transparentHybrid.verify [12] .session
          ((deviceOffer.transcript sent 77 (deviceCert.id transparentHybrid) gatewayCert
            .chaCha20Poly1305).hash transparentHybrid).bytes sent.signature =
          .error .invalidSignature := if_neg hforged
      cases hreject.symm.trans hverify
  · intro suite r hr heq
    cases List.mem_singleton.mp hr
    rw [hsame] at heq ⊢
    cases suite with
    | aes256Gcm => rfl
    | chaCha20Poly1305 => exact absurd heq.symm hhash
  · intro r hr _
    cases List.mem_singleton.mp hr
    rfl

/-- The device completes with every answer that has all of the gateway's but the index and the
endpoint. -/
theorem complete_of_gatewayCall
    (h : gatewayCall = .ok (sent, est)) (hid : relayed.sessionId = sent.sessionId)
    (hsuite : relayed.suite = sent.suite) (hctE : relayed.ctE = sent.ctE)
    (hctS : relayed.ctS = sent.ctS) (hsig : relayed.signature = sent.signature) :
    complete transparentHybrid transparentHkdf deviceOffer relayed 77
      (deviceCert.id transparentHybrid) (5 : UInt8) gatewayCert = .ok est := by
  have hsent : gatewayCall.toOption.all (fun p => (complete transparentHybrid
      transparentHkdf deviceOffer p.1 77 (deviceCert.id transparentHybrid) (5 : UInt8)
      gatewayCert).toOption = some p.2) = true := by
    decide +kernel
  rw [h] at hsent
  have hcomplete := toOption_eq_some.mp (of_decide_eq_true hsent)
  rw [← hcomplete]
  simp only [complete, hid, hsuite, hctE, hctS, hsig]

/-! ### Agreement of the two ends -/

/-- An initiator that completes has a call of the responder on the other side, for its session,
its certificate and its ephemeral key, with the same suite, transcript hash and keys. The entry
points that are given the private operation agree with those that hold the key. -/
theorem establishment_agreement (C : HybridImpl) (H : Hkdf) (hkem : C.toHybridKem.Correct) :
    (∀ (log : List (ResponderRun C H)) (pending : PendingOffer C) (answer : SessionAnswer)
        (sessionId : SessionId) (myCert responderCert : Certificate) (kem : C.KeyPair)
        (dec : Bytes → Except TunnelError Key) (est : Established),
      Trusted log pending answer sessionId myCert responderCert →
      myCert.tbs.kemKey = some (C.publicKey kem) →
      (∀ ct, (dec ct).toOption = (C.decapsulate kem ct).toOption) →
      (complete C H pending answer sessionId (myCert.id C) kem responderCert = .ok est ∨
        completeWith C H pending answer sessionId (myCert.id C) dec responderCert =
          .ok est) →
      est.suite ∈ pending.suites ∧ ∃ r ∈ log,
        C.verifyingKey r.key = responderCert.tbs.signingKey ∧ r.myCertId = responderCert.id C ∧
          r.sessionId = sessionId ∧ r.initiatorCert = myCert ∧ r.ephPk = pending.ephPkBytes ∧
          est.suite = r.established.suite ∧ est.transcriptHash = r.established.transcriptHash ∧
          est.keys = r.established.keys) ∧
    (∀ (pending : PendingOffer C) (answer : SessionAnswer) (sessionId : SessionId) (myCertId : Key)
        (responderCert : Certificate) (kem : C.KeyPair) (dec : Bytes → Except TunnelError Key),
      (∀ ct, (dec ct).toOption = (C.decapsulate kem ct).toOption) →
      (complete C H pending answer sessionId myCertId kem responderCert).toOption =
        (completeWith C H pending answer sessionId myCertId dec responderCert).toOption) ∧
    (∀ (sessionId : SessionId) (initiatorCert : Certificate) (ephPk : Bytes) (suite : Suite)
        (myCertId : Key) (key : C.SigningKey) (signFn : Domain → Bytes → Except TunnelError Bytes)
        (myIndex : UInt32) (myEndpoint : Option String) (coinsE coinsS : C.Coins)
        (signCoins : C.SignCoins),
      (∀ domain msg, (signFn domain msg).toOption = (C.sign key domain msg signCoins).toOption) →
      (Responder.answer C H sessionId initiatorCert ephPk suite myCertId key myIndex myEndpoint
          coinsE coinsS signCoins).toOption =
        (answerWith C H sessionId initiatorCert ephPk suite myCertId signFn myIndex
          myEndpoint coinsE coinsS).toOption) := by
  refine ⟨?_, fun _ _ _ _ _ _ _ hdec => toOption_complete hdec,
    fun _ _ _ _ _ _ _ _ _ _ _ _ hsign => toOption_answer hsign⟩
  intro log pending answer sessionId myCert responderCert kem dec est htrusted hcert hdec hok
  -- Both entry points come down to the one that is given the operation.
  have hwith : completeWith C H pending answer sessionId (myCert.id C) dec
      responderCert = .ok est := by
    rcases hok with hok | hok
    · rw [← toOption_eq_some, ← toOption_complete hdec, toOption_eq_some]
      exact hok
    · exact hok
  obtain ⟨r, hr, hkey, htranscript⟩ := htrusted.exists_run hwith
  have hinitiator : r.initiatorCert = myCert :=
    htrusted.certificates r hr (congrArg Transcript.initiatorCertId htranscript)
  have hsame := established_of_transcript hkem hcert hdec hwith hinitiator htranscript
  obtain ⟨suite, ssE, ssS, -, hoffered, -, -, -, -, -, -, -, hest⟩ := completeWith_eq_ok.mp hwith
  refine ⟨by rw [hest]; exact hoffered, r, hr, hkey,
    congrArg Transcript.responderCertId htranscript, congrArg Transcript.sessionId htranscript,
    hinitiator, congrArg Transcript.ephKemPk htranscript,
    ?_⟩
  rw [hsame]
  exact ⟨rfl, rfl, rfl⟩

/-- The device and the gateway agree. -/
theorem establishment_office : ∃ r : ResponderRun transparentHybrid transparentHkdf,
    complete transparentHybrid transparentHkdf deviceOffer r.answer 77
        (deviceCert.id transparentHybrid) (5 : UInt8) gatewayCert = .ok r.established ∧
      r.established.suite ∈ deviceOffer.suites ∧ ∃ r' ∈ [r], r'.initiatorCert = deviceCert ∧
        r.established.keys = r'.established.keys := by
  obtain ⟨⟨sent, est⟩, hcall, hrefused⟩ := gatewayCall_returns
  have hcomplete := complete_of_gatewayCall hcall rfl rfl rfl rfl rfl
  obtain ⟨hoffered, r', hr', -, -, -, hinitiator, -, -, -, hkeys⟩ :=
    (establishment_agreement transparentHybrid transparentHkdf transparentKem_correct).1
      [gatewayRun sent est hcall] deviceOffer sent 77 deviceCert gatewayCert (5 : UInt8)
      (fun ct => liftCrypto (transparentHybrid.decapsulate (5 : UInt8) ct)) est
      (trusted_gatewayRun hcall hrefused rfl rfl rfl) rfl (fun _ => toOption_liftCrypto _)
      (.inl hcomplete)
  exact ⟨gatewayRun sent est hcall, hcomplete, hoffered, r', hr', hinitiator, hkeys⟩

/-! ### What a relay can change -/

section
variable {C : HybridImpl} {H : Hkdf} {pending : PendingOffer C} {answer : SessionAnswer}
  {sessionId : SessionId} {myCert responderCert : Certificate} {log : List (ResponderRun C H)}

/-- The fields of an answer that the agent goes on to use are those of another one. -/
structure Intact (answer sent : SessionAnswer) : Prop where
  suite : answer.suite = sent.suite
  ctE : answer.ctE = sent.ctE
  ctS : answer.ctS = sent.ctS
  responderIndex : answer.responderIndex = sent.responderIndex
  responderEndpoint : answer.responderEndpoint = sent.responderEndpoint

/-- The call of the holder of a certificate's key that signed a transcript hash. -/
def ResponderRun.SignedFor (r : ResponderRun C H) (cert : Certificate) (hash : Key) : Prop :=
  C.verifyingKey r.key = cert.tbs.signingKey ∧ r.transcript.hash C = hash

/-- An initiator that completes used an answer for a transcript that the responder signed. What
it used is what the responder sent if and only if the index and the endpoint are. -/
theorem answer_integrity_iff {kem : C.KeyPair} (dec : Bytes → Except TunnelError Key)
    (htrusted : Trusted log pending answer sessionId myCert responderCert)
    (hok : complete C H pending answer sessionId (myCert.id C) kem responderCert =
        .ok est ∨
      completeWith C H pending answer sessionId (myCert.id C) dec responderCert =
        .ok est) :
    (∃ r ∈ log, r.SignedFor responderCert est.transcriptHash) ∧
      ∀ r ∈ log, r.SignedFor responderCert est.transcriptHash →
        (Intact answer r.answer ↔ answer.responderIndex = r.answer.responderIndex ∧
          answer.responderEndpoint = r.answer.responderEndpoint) := by
  obtain ⟨dec, hwith⟩ : ∃ dec, completeWith C H pending answer sessionId (myCert.id C)
      dec responderCert = .ok est := by
    rcases hok with hok | hok
    · exact ⟨_, completeWith_of_complete hok⟩
    · exact ⟨dec, hok⟩
  obtain ⟨suite, ssE, ssS, hsuite, -, -, -, -, -, -, -, -, hest⟩ := completeWith_eq_ok.mp hwith
  have hhash : est.transcriptHash =
      (pending.transcript answer sessionId (myCert.id C) responderCert suite).hash C := by rw [hest]
  constructor
  · obtain ⟨r, hr, hkey, htranscript⟩ := htrusted.exists_run hwith
    refine ⟨r, hr, hkey, ?_⟩
    rw [htranscript, hest]
  rintro r hr ⟨-, hsigned⟩
  constructor
  · intro hintact
    exact ⟨hintact.responderIndex, hintact.responderEndpoint⟩
  rintro ⟨hindex, hendpoint⟩
  -- The other three fields are in the transcript.
  have htranscript := htrusted.transcripts suite r hr (hsigned.trans hhash)
  have hsame : r.suite = suite := congrArg Transcript.suite htranscript
  obtain ⟨-, -, -, -, -, -, hwire, -⟩ := r.spec
  exact {
    suite := by rw [hwire, hsame, eq_id_of_suiteFromPb hsuite]
    ctE := (congrArg Transcript.ctE htranscript).symm
    ctS := (congrArg Transcript.ctS htranscript).symm
    responderIndex := hindex
    responderEndpoint := hendpoint }

end

def redirected (sent : SessionAnswer) : SessionAnswer :=
  { sent with responderIndex := 66, responderEndpoint := "relay:4600" }

/-- A relay sends the device to another endpoint and another index. -/
theorem relay_redirects : ∃ r : ResponderRun transparentHybrid transparentHkdf,
    Trusted [r] deviceOffer (redirected r.answer) 77 deviceCert gatewayCert ∧
      complete transparentHybrid transparentHkdf deviceOffer (redirected r.answer) 77
        (deviceCert.id transparentHybrid) (5 : UInt8) gatewayCert = .ok r.established ∧
      r.SignedFor gatewayCert r.established.transcriptHash ∧
      ¬ Intact (redirected r.answer) r.answer := by
  obtain ⟨⟨sent, est⟩, hcall, hrefused⟩ := gatewayCall_returns
  refine ⟨gatewayRun sent est hcall, trusted_gatewayRun hcall hrefused rfl rfl rfl,
    complete_of_gatewayCall hcall rfl rfl rfl rfl rfl, ⟨rfl, ?_⟩, ?_⟩
  · obtain ⟨_, ssE, ssS, -, -, -, -, hest⟩ := (gatewayRun sent est hcall).spec
    rw [hest]
  intro hintact
  have hindex : sent.responderIndex = 40 := by
    have hall : gatewayCall.toOption.all (fun p => p.1.responderIndex = 40) = true := by
      decide +kernel
    rw [hcall] at hall
    exact of_decide_eq_true hall
  have hother : (66 : UInt32) = 40 := hintact.responderIndex.trans hindex
  exact absurd hother (by decide)

/-- An answer that is relayed as it was sent is used as it was sent. -/
theorem relay_unchanged : ∃ r : ResponderRun transparentHybrid transparentHkdf,
    complete transparentHybrid transparentHkdf deviceOffer r.answer 77
        (deviceCert.id transparentHybrid) (5 : UInt8) gatewayCert = .ok r.established ∧
      ∃ r' ∈ [r], Intact r.answer r'.answer := by
  obtain ⟨⟨sent, est⟩, hcall, hrefused⟩ := gatewayCall_returns
  have hcomplete := complete_of_gatewayCall hcall rfl rfl rfl rfl rfl
  obtain ⟨⟨r', hr', hsigned⟩, hiff⟩ := answer_integrity_iff
    (fun _ => .error .closed) (trusted_gatewayRun hcall hrefused rfl rfl rfl)
    (.inl hcomplete)
  refine ⟨gatewayRun sent est hcall, hcomplete, r', hr', (hiff r' hr' hsigned).mpr ?_⟩
  cases List.mem_singleton.mp hr'
  exact ⟨rfl, rfl⟩

end Avon.Tunnel
