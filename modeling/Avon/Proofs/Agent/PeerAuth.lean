import Avon.Agent.Peers
import Avon.Proofs.Crypto.Cert
import Avon.Proofs.Tunnel.Establish

/-!
# Who is at the other end of a session

A session's certificate id is that of a certificate that verified, and its keys are bound to that
certificate (`BoundTo`): the other end has signed the transcript with its signing key, or needs its
KEM key to get at the keys. Nothing in `dial_peer`, `handle_offer` and `open_hub_session` looks at
whose certificate it is: `vouched` is what they would have to check. Nothing is assumed of control,
of the key provider or of the primitives.
-/

set_option autoImplicit false

namespace Avon.Agent

open Avon.Crypto Avon.Lib Avon.Lib.Run Avon.Proto Avon.Tunnel Certificate
open AgentState (init)

section
variable {C : HybridImpl} {H : Hkdf} {identity : Identity C} {parse : String → Option IpNet}

/-- A certificate id that stands for a verified certificate of a certain kind. -/
def VerifiedAs (identity : Identity C) (certId : Key) (who : Certificate → Prop) : Prop :=
  ∃ cert now v, identity.verifier.verify cert [identity.issuing] now = .ok v ∧
    cert.id C = certId ∧ who cert

/-- Whoever shares the keys of the session has the private keys of the certificate. The keys are
derived from a transcript of both certificates. Where the agent is the initiator, that transcript
was signed under the certificate's signing key; where it is the responder, one of the two secrets
was encapsulated to the certificate's KEM key. -/
def BoundTo (H : Hkdf) (identity : Identity C) (s : Session) (cert : Certificate) : Prop :=
  ∃ t ssE ssS, s.current.keys = SessionKeys.derive C H t ssE ssS ∧
    match s.role with
    | .initiator => t.initiatorCertId = identity.certificate.id C ∧
        t.responderCertId = cert.id C ∧
        ∃ sig, C.verify cert.tbs.signingKey .session (t.hash C).bytes sig = .ok ()
    | .responder => t.initiatorCertId = cert.id C ∧
        t.responderCertId = identity.certificate.id C ∧
        ∃ pk coins, cert.tbs.kemKey = some pk ∧ C.encapsulate pk coins = .ok (t.ctS, ssS)

/-- The entry of a device holds a session with the device, and the hub is a gateway. -/
structure Authenticated (H : Hkdf) (identity : Identity C) (s : AgentState C) : Prop where
  peers : ∀ d e, s.peers d = some e → VerifiedAs identity e.session.peerCertId fun cert =>
    (cert.tbs.subjectId = d ∧ cert.tbs.kind = .device) ∧ BoundTo H identity e.session.session cert
  hub : ∀ p, s.hub = some p → VerifiedAs identity p.peerCertId fun cert =>
    cert.tbs.kind = .gateway ∧ BoundTo H identity p.session cert

/-! ### What the calls check -/

theorem required_eq_ok {α : Type} {what : String} {o : Option α} {a : α} :
    required what o = .ok a ↔ o = some a := by
  cases o <;> simp [required]

variable {cert : Certificate} {now : Int64} {provider : Provider} {clock : ℕ}

theorem decodeCertificate_eq_ok {bytes : Bytes} :
    decodeCertificate (C := C) bytes = .ok cert ↔ decode C bytes = .ok cert :=
  mapError_eq_ok

theorem verifyChain_eq_ok {whose : String}
    {v : VerifiedCertificate} : verifyChain identity whose cert now = .ok v ↔
      identity.verifier.verify cert [identity.issuing] now = .ok v :=
  mapError_eq_ok

/-- A session of the initiator is bound to the certificate that `completeWith` was given. -/
theorem boundTo_of_completeWith {pending : PendingOffer C} {answer : SessionAnswer}
    {sessionId : SessionId} {dec : Bytes → Except TunnelError Key} {est : Established}
    (h : Initiator.completeWith C H pending answer sessionId (identity.certificate.id C) dec cert =
      .ok est) (l r : UInt32) (peer : Option SocketAddr) :
    BoundTo H identity (Session.new sessionId .initiator est.suite est.keys l r peer clock)
      cert := by
  obtain ⟨suite, ssE, ssS, -, -, -, -, hverify, -, -, -, -, rfl⟩ := completeWith_eq_ok.mp h
  exact ⟨_, ssE, ssS, rfl, rfl, rfl, _, hverify⟩

/-- The id of an entry is that of the certificate in the response, which verified. -/
theorem dialPeerFinish_cases {dial : Dial C}
    {response : Except AgentError PeerSessionResponse} {e : PeerEntry}
    (h : dialPeerFinish H identity parse dial provider response now clock = .ok e) :
    ∃ resp encoded cert v, response = .ok resp ∧ resp.responderCertificate = some encoded ∧
      decode C encoded = .ok cert ∧
      identity.verifier.verify cert [identity.issuing] now = .ok v ∧
      cert.id C = e.session.peerCertId ∧ BoundTo H identity e.session.session cert := by
  obtain ⟨resp, hresp, h⟩ := bind_eq_ok.mp h
  obtain ⟨sessionId, -, h⟩ := bind_eq_ok.mp h
  obtain ⟨answer, -, h⟩ := bind_eq_ok.mp h
  obtain ⟨encoded, hencoded, h⟩ := bind_eq_ok.mp h
  obtain ⟨cert, hcert, h⟩ := bind_eq_ok.mp h
  obtain ⟨v, hv, h⟩ := bind_eq_ok.mp h
  obtain ⟨est, hest, h⟩ := bind_eq_ok.mp h
  obtain ⟨overlay, -, h⟩ := bind_eq_ok.mp h
  cases h
  exact ⟨resp, encoded, cert, v, hresp, required_eq_ok.mp hencoded,
    decodeCertificate_eq_ok.mp hcert, verifyChain_eq_ok.mp hv, rfl,
    boundTo_of_completeWith (mapError_eq_ok.mp hest) _ _ _⟩

theorem handleOffer_cases {s : AgentState C} {offer : PeerOffer}
    {index : Except TunnelError UInt32} {coinsE coinsS : C.Coins}
    {e : PeerEntry}
    (h : handleOffer H identity parse s provider offer index coinsE coinsS now clock =
      .ok (some e)) :
    ∃ encoded cert v, offer.initiatorCertificate = some encoded ∧
      decode C encoded = .ok cert ∧
      identity.verifier.verify cert [identity.issuing] now = .ok v ∧
      cert.id C = e.session.peerCertId ∧ cert.tbs.subjectId = e.peerDevice ∧
      BoundTo H identity e.session.session cert := by
  obtain ⟨sessionId, -, h⟩ := bind_eq_ok.mp h
  obtain ⟨encoded, hencoded, h⟩ := bind_eq_ok.mp h
  obtain ⟨cert, hcert, h⟩ := bind_eq_ok.mp h
  obtain ⟨v, hv, h⟩ := bind_eq_ok.mp h
  obtain ⟨suite, -, h⟩ := bind_eq_ok.mp h
  dsimp only at h
  split at h
  · cases h
  obtain ⟨myIndex, -, h⟩ := bind_eq_ok.mp h
  obtain ⟨⟨answer, est⟩, hest, h⟩ := bind_eq_ok.mp h
  obtain ⟨overlay, -, h⟩ := bind_eq_ok.mp h
  obtain ⟨-, -, h⟩ := bind_eq_ok.mp h
  obtain ⟨staticPk, ssE, ssS, hkem, -, hctS, -, rfl⟩ := answerWith_cases (mapError_eq_ok.mp hest)
  cases h
  exact ⟨encoded, cert, v, required_eq_ok.mp hencoded, decodeCertificate_eq_ok.mp hcert,
    verifyChain_eq_ok.mp hv, rfl, rfl, _, ssE, ssS, rfl, rfl, rfl, staticPk, _, hkem, hctS⟩

/-- The id of the hub session is that of the certificate in the response, which verified. -/
theorem openHubFinish_cases {hubOpen : HubOpen C}
    {resolve : String → Except String SocketAddr}
    {response : Except AgentError OpenSessionResponse} {p : PeerSession}
    (h : openHubFinish H identity hubOpen provider resolve response now clock = .ok p) :
    ∃ resp encoded cert v, response = .ok resp ∧ resp.gatewayCertificate = some encoded ∧
      decode C encoded = .ok cert ∧
      identity.verifier.verify cert [identity.issuing] now = .ok v ∧
      cert.id C = p.peerCertId ∧ BoundTo H identity p.session cert := by
  obtain ⟨resp, hresp, h⟩ := bind_eq_ok.mp h
  obtain ⟨sessionId, -, h⟩ := bind_eq_ok.mp h
  obtain ⟨answer, -, h⟩ := bind_eq_ok.mp h
  obtain ⟨encoded, hencoded, h⟩ := bind_eq_ok.mp h
  obtain ⟨cert, hcert, h⟩ := bind_eq_ok.mp h
  obtain ⟨v, hv, h⟩ := bind_eq_ok.mp h
  obtain ⟨est, hest, h⟩ := bind_eq_ok.mp h
  obtain ⟨endpoint, -, h⟩ := bind_eq_ok.mp h
  cases h
  exact ⟨resp, encoded, cert, v, hresp, required_eq_ok.mp hencoded,
    decodeCertificate_eq_ok.mp hcert, verifyChain_eq_ok.mp hv, rfl,
    boundTo_of_completeWith (mapError_eq_ok.mp hest) _ _ _⟩

/-! ### What they would have to check -/

/-- The certificate in a message is one of those that were meant, if it is one at all. -/
def certificateIs (C : HybridImpl) (encoded : Option Bytes) (meant : Certificate → Bool) : Bool :=
  encoded.all fun bytes => (decode C bytes).toOption.all meant

theorem certificateIs_apply {encoded : Option Bytes} {meant : Certificate → Bool}
    (h : certificateIs C encoded meant = true) {bytes : Bytes} (hbytes : encoded = some bytes)
    (hcert : decode C bytes = .ok cert) : meant cert = true := by
  rw [hbytes] at h
  simpa [certificateIs, hcert, Except.toOption] using h

/-- A response to a dial brings a certificate of the device that was dialled, an offer that of
some device, and a hub that of a gateway. -/
def vouched (s : AgentState C) : AgentEvent C → Bool
  | .dialed position _ response _ _ =>
    s.dials[position]?.all fun dial => response.toOption.all fun resp =>
      certificateIs C resp.responderCertificate fun cert =>
        cert.tbs.subjectId = dial.target && cert.tbs.kind = .device
  | .offered offer _ _ _ _ _ _ =>
    certificateIs C offer.initiatorCertificate fun cert => cert.tbs.kind = .device
  | .hubOpened _ _ _ response _ _ =>
    response.toOption.all fun resp =>
      certificateIs C resp.gatewayCertificate fun cert => cert.tbs.kind = .gateway
  | _ => true

namespace Authenticated

variable {s s' : AgentState C}

section
variable (h : Authenticated H identity s)
include h

theorem mono (hpeers : ∀ d e, s'.peers d = some e →
      ∃ e₀, s.peers d = some e₀ ∧ e₀.session = e.session)
    (hhub : ∀ p, s'.hub = some p → s.hub = some p) : Authenticated H identity s' := by
  refine ⟨fun d e he => ?_, fun p hp => h.hub p (hhub p hp)⟩
  obtain ⟨e₀, he₀, hsame⟩ := hpeers d e he
  rw [← hsame]
  exact h.peers d e₀ he₀

theorem insertPeer {device : DeviceId} {e : PeerEntry}
    (he : VerifiedAs identity e.session.peerCertId fun cert =>
      (cert.tbs.subjectId = device ∧ cert.tbs.kind = .device) ∧
        BoundTo H identity e.session.session cert) :
    Authenticated H identity (s.insertPeer device e) := by
  refine ⟨fun d e' he' => ?_, h.hub⟩
  by_cases hd : d = device
  · subst hd
    have hsame : some e = some e' := (Function.update_self d _ s.peers).symm.trans he'
    cases hsame
    exact he
  · have hother : s.peers d = some e' := (Function.update_of_ne hd _ s.peers).symm.trans he'
    exact h.peers d e' hother

theorem removePeer (device : DeviceId) : Authenticated H identity (s.removePeer device) := by
  refine h.mono (fun d e he => ?_) fun _ hp => hp
  by_cases hd : d = device
  · subst hd
    have hnone : none = some e := (Function.update_self d _ s.peers).symm.trans he
    cases hnone
  · exact ⟨e, (Function.update_of_ne hd _ s.peers).symm.trans he, rfl⟩

theorem setDirect (device : DeviceId) : Authenticated H identity (s.setDirect device) := by
  unfold AgentState.setDirect
  split
  · rename_i e he
    exact h.insertPeer (h.peers device e he)
  · exact h

theorem leaveHub (id : SessionId) : Authenticated H identity (s.leaveHub id) :=
  h.mono (fun _ e he => ⟨e, he, rfl⟩) fun _ hp => (Option.filter_eq_some_iff.mp hp).1

theorem of_eq (hpeers : s'.peers = s.peers) (hhub : s'.hub = s.hub) : Authenticated H identity s' :=
  h.mono (fun _ e he => ⟨e, hpeers ▸ he, rfl⟩) fun _ hp => hhub ▸ hp

theorem insertSession (p : PeerSession) :
    Authenticated H identity (s.insertSession p) := h.of_eq rfl rfl

theorem removeSession (id : SessionId) :
    Authenticated H identity (s.removeSession id) := h.of_eq rfl rfl

theorem step {event : AgentEvent C} (hv : vouched s event = true) :
    Authenticated H identity (agentStep H identity parse s event) := by
  cases event with
  | dial | openHub =>
    simp only [agentStep]
    split
    · exact h.of_eq rfl rfl
    · exact h
  | dialed position provider response now clock =>
    simp only [agentStep]
    split
    · exact h
    rename_i dial hdial
    split
    · rename_i e hfinish
      obtain ⟨resp, encoded, cert, v, rfl, hencoded, hcert, hverify, hid, hbound⟩ :=
        dialPeerFinish_cases hfinish
      simp only [vouched, hdial, Option.all_some, Except.toOption] at hv
      have hmeant := certificateIs_apply hv hencoded hcert
      simp only [Bool.and_eq_true, decide_eq_true_eq] at hmeant
      refine insertPeer ?_ ⟨cert, now, v, hverify, hid, hmeant, hbound⟩
      exact h.of_eq rfl rfl
    · exact h.of_eq rfl rfl
  | offered offer provider index coinsE coinsS now clock =>
    simp only [agentStep]
    split
    · rename_i e hoffer
      obtain ⟨encoded, cert, v, hencoded, hcert, hverify, hid, hsubject, hbound⟩ :=
        handleOffer_cases hoffer
      have hmeant := certificateIs_apply hv hencoded hcert
      exact (h.insertSession e.session).insertPeer
        ⟨cert, now, v, hverify, hid, ⟨hsubject, of_decide_eq_true hmeant⟩, hbound⟩
    · exact h
  | hubOpened position provider resolve response now clock =>
    simp only [agentStep]
    split
    · exact h
    split
    · rename_i p hfinish
      obtain ⟨resp, encoded, cert, v, rfl, hencoded, hcert, hverify, hid, hbound⟩ :=
        openHubFinish_cases hfinish
      have hmeant := certificateIs_apply hv hencoded hcert
      refine ⟨h.peers, fun p' hp' => ?_⟩
      cases hp'
      exact ⟨cert, now, v, hverify, hid, of_decide_eq_true hmeant, hbound⟩
    · exact h.of_eq rfl rfl
  | direct device => exact h.setDirect device
  | probeFailed device session =>
    simp only [agentStep]
    split
    · exact (h.removePeer device).removeSession session
    · exact h
  | sessionEnded id position =>
    simp only [agentStep]
    split
    · exact ((h.removePeer position).removeSession id).leaveHub id
    · exact (h.removeSession id).leaveHub id
  | closePushed id => exact (h.removeSession id).leaveHub id
  | closeOne id => exact h.removeSession id
  | closedAll => exact h.mono (fun _ e he => ⟨e, he, rfl⟩) (by rintro _ ⟨⟩)

end

end Authenticated

end

/-! ### The certificate of a service -/

def issuedCert (issuer : UInt8) (kind : SubjectKind) (subject : Uuid) (signing : UInt8)
    (kem : Option UInt8) : Certificate :=
  let tbs := (plainCert kind subject signing kem).tbs
  ⟨tbs, transparentSignature [issuer] .cert tbs.encode⟩

def rootCert : Certificate := issuedCert 30 .rootCa 100 30 none
def issuingCert : Certificate := issuedCert 30 .issuingCa 101 20 none

def serviceCert : Certificate := issuedCert 20 .service 3 13 (some 7)

def peerCert : Certificate := issuedCert 20 .device 3 13 (some 7)

def markedHybrid : HybridImpl :=
  { transparentHybrid with sha256 := fun bytes => if bytes = serviceCert.encode then 1 else 0 }

def device1 : Identity markedHybrid where
  certificate := deviceCert
  verifier := ⟨[rootCert], by decide +kernel⟩
  issuing := issuingCert

def provider1 : Provider where
  decapsulate ct := (transparentKem.decapsulate (5 : UInt8) ct).mapError CryptoError.text
  sign domain msg := .ok (transparentSignature [11] domain msg)

def answerFrom (cert : Certificate) : Option SessionAnswer :=
  (Responder.answer markedHybrid transparentHkdf 77 deviceCert [6] .aes256Gcm
    (cert.id markedHybrid) (13 : UInt8) 40 none (1 : UInt8) (2 : UInt8) ()).toOption.map Prod.fst

def dialResponse (cert : Certificate) : PeerSessionResponse :=
  ⟨uuidBytes 77, answerFrom cert, some cert.encode, "10.20.0.3/32"⟩

def overlay3 : String → Option IpNet := fun _ => some (.host (.v4 0x0A140003))

def dialRun (target : DeviceId) (cert : Certificate) : List (AgentEvent markedHybrid) :=
  [.dial target (.ok (6 : UInt8)) (.ok 30),
    .dialed 0 provider1 (.ok (dialResponse cert)) 5 0]

/-- Control answers everything with the service: the dial of device 2, the opening of the hub,
and an offer. -/
def serviceRun : List (AgentEvent markedHybrid) :=
  dialRun 2 serviceCert ++
    [.openHub (.ok (6 : UInt8)) (.ok 31),
      .hubOpened 0 provider1 (fun _ => .ok ⟨.v4 0x0A000001, 4600⟩)
        (.ok ⟨uuidBytes 77, answerFrom serviceCert, some serviceCert.encode⟩) 5 0,
      .offered ⟨uuidBytes 78, some serviceCert.encode, [6], 1, "10.20.0.3/32", 50⟩ provider1
        (.ok 32) (1 : UInt8) (2 : UInt8) 5 0]

theorem service_of_id {who : Certificate → Prop} (h : VerifiedAs device1 1 who) :
    ∃ cert, who cert ∧ cert.tbs.subjectId = 3 ∧ cert.tbs.kind = .service := by
  obtain ⟨cert, -, -, -, hid, hwho⟩ := h
  have hencode : cert.encode = serviceCert.encode := by
    by_contra hother
    have hzero : cert.id markedHybrid = 0 := if_neg hother
    rw [hzero] at hid
    exact absurd hid (by decide)
  obtain ⟨hsubject, hkind⟩ := subject_of_encode_eq hencode (by rw [hencode]; decide +kernel)
  exact ⟨cert, hwho, hsubject, hkind⟩

def impersonated : AgentState markedHybrid :=
  run (agentStep transparentHkdf device1 overlay3) (init markedHybrid) serviceRun

end Avon.Agent
