import Avon.Ca.Issue
import Avon.Ca.Keys
import Avon.Proofs.Crypto.Canonical
import Avon.Proofs.Crypto.Chain
import Avon.Proofs.Proto

/-!
# What the CA issues can be used

The limits on a certificate are in its decoder, and the CA signs whatever it is asked to. A
certificate that was issued is decoded again, and verified, exactly if the names and the size are
within the limits.
-/

set_option autoImplicit false

namespace Avon.Ca

open Avon.Crypto Avon.Lib.BigEndian Avon.Proto Certificate
open ChainVerifier (new)

variable {C : HybridImpl}

/-! ### What was checked and what was signed -/

theorem verifyCsr_cases {csr : Csr} {data : CsrData} (h : verifyCsr C csr = .ok data) :
    TbsCertificate.decode C csr.tbsTemplate = .ok data.template ∧ data.template.kemKey ≠ none ∧
      decodeBinding csr = .ok data.hardwareBinding := by
  obtain ⟨template, htemplate, h⟩ := bind_eq_ok.mp h
  obtain ⟨-, -, h⟩ := bind_eq_ok.mp h
  obtain ⟨-, -, h⟩ := bind_eq_ok.mp h
  obtain ⟨_, hkem, h⟩ := bind_eq_ok.mp h
  obtain ⟨-, -, h⟩ := bind_eq_ok.mp h
  obtain ⟨-, -, h⟩ := bind_eq_ok.mp h
  obtain ⟨binding, hbinding, h⟩ := bind_eq_ok.mp h
  cases h
  exact ⟨mapError_eq_ok.mp htemplate, ensure_eq_ok.mp hkem, hbinding⟩

theorem encodable_of_decodeBinding {csr : Csr} {binding : Option HardwareBinding}
    (h : decodeBinding csr = .ok binding) : ∀ b ∈ binding, b.Encodable := by
  unfold decodeBinding at h
  split at h
  · cases h
    nofun
  split at h
  · next hdecode =>
    cases h
    rintro b ⟨⟩
    exact (HardwareBinding.decode_iff.mp hdecode).1
  · cases h

section
variable {w : CaWorld C} {data : CsrData} {kind : SubjectKind} {tenant : Option TenantId}
  {subject : Uuid} {sans : List String} {lifetimeSecs : Int64} {issued : Issued}

theorem issue_cases (h : issue C w data kind tenant subject sans lifetimeSecs = .ok issued) :
    ∃ serial der signature, w.serial = some serial ∧
      w.signTlsCsr data.tlsCsrPem serial sans (w.nowBefore - 300) (w.nowAfter + lifetimeSecs) =
        .ok der ∧
      C.sign w.issuing .cert
        (issuedTbs C w data kind tenant subject sans lifetimeSecs serial der).encode w.coins =
          .ok signature ∧
      issued = ⟨⟨issuedTbs C w data kind tenant subject sans lifetimeSecs serial der, signature⟩,
        der⟩ := by
  unfold issue at h
  split at h
  · cases h
  next serial hserial =>
  obtain ⟨der, hder, h⟩ := bind_eq_ok.mp h
  obtain ⟨signature, hsign, h⟩ := bind_eq_ok.mp h
  cases h
  exact ⟨serial, der, signature, hserial, hder, mapError_eq_ok.mp hsign, rfl⟩

end

/-! ### The keys of the CA -/

/-- What is assumed about the signature: what `sign` returns is a signature, and it verifies with
the key of the signer. -/
def SignCorrect (C : HybridImpl) : Prop :=
  ∀ key domain msg coins sig, C.sign key domain msg coins = .ok sig →
    (sig.length = C.signatureBytes ∧ C.signatureFromBytes sig = .ok ()) ∧
      C.verify (C.verifyingKey key) domain msg sig = .ok ()

theorem verifySignature_of_sign (hsign : SignCorrect C) {key : C.SigningKey}
    {tbs : TbsCertificate} {coins : C.SignCoins} {sig : Bytes}
    (h : C.sign key .cert tbs.encode coins = .ok sig) :
    verifySignature C ⟨tbs, sig⟩ (C.verifyingKey key) = .ok () :=
  mapError_eq_ok.mpr (hsign _ _ _ _ _ h).2

theorem signedKey_cases (hsign : SignCorrect C) {w : KeyWorld C} {kind : SubjectKind}
    {issuer : Option C.SigningKey} {lifetime : Int64} {kp : C.SigningKey} {cert : Certificate}
    (h : signedKey C w kind issuer lifetime = .ok (kp, cert)) :
    cert.tbs.kind = kind ∧ cert.tbs.signingKey = C.verifyingKey kp ∧
      cert.tbs.issuerKeyId = C.keyId (C.verifyingKey (issuer.getD kp)) ∧
      cert.verifySignature C (C.verifyingKey (issuer.getD kp)) = .ok () := by
  unfold signedKey at h
  split at h
  · cases h
  obtain ⟨tbs, htbs, h⟩ := bind_eq_ok.mp h
  obtain ⟨sig, hsig, h⟩ := bind_eq_ok.mp h
  cases h
  have hverify := verifySignature_of_sign hsign (mapError_eq_ok.mp hsig)
  unfold caTbs at htbs
  split at htbs
  · cases htbs
  · cases htbs
    exact ⟨rfl, rfl, rfl, hverify⟩

/-- The two certificates of a CA are a chain to its root, and the root is one. -/
structure CaKeys.Anchored (keys : CaKeys C) : Prop where
  root : checkRoot C keys.rootCert = .ok ()
  issuingKind : keys.issuingCert.tbs.kind = .issuingCa
  issuingKey : keys.issuingCert.tbs.signingKey = C.verifyingKey keys.issuing
  issuer : keys.issuingCert.tbs.issuerKeyId = C.keyId keys.rootCert.tbs.signingKey
  signature : keys.issuingCert.verifySignature C keys.rootCert.tbs.signingKey = .ok ()

theorem anchored_of_initKeys (hsign : SignCorrect C) {root issuing : KeyWorld C} {keys : CaKeys C}
    (h : initKeys C root issuing = .ok keys) : keys.Anchored := by
  obtain ⟨⟨rootKp, rootCert⟩, hroot, h⟩ := bind_eq_ok.mp h
  obtain ⟨⟨issuingKp, issuingCert⟩, hissuing, h⟩ := bind_eq_ok.mp h
  cases h
  obtain ⟨hkind, hkey, hissuer, hsig⟩ := signedKey_cases hsign hroot
  obtain ⟨hikind, hikey, hiissuer, hisig⟩ := signedKey_cases hsign hissuing
  refine ⟨?_, hikind, hikey, hkey ▸ hiissuer, hkey ▸ hisig⟩
  rw [checkRoot, if_neg (not_not.mpr hkind), if_neg (not_not.mpr (hkey ▸ hissuer))]
  exact hkey ▸ hsig

theorem CaKeys.Anchored.exists_verifier {keys : CaKeys C} (h : keys.Anchored) :
    ∃ v : ChainVerifier C, new C [keys.rootCert] = .ok v ∧
      v.roots = [keys.rootCert] := by
  have hchecked : [keys.rootCert].forM (checkRoot C) = .ok () :=
    forM_eq_ok.mpr (by simpa using h.root)
  unfold new
  split
  · exact ⟨_, rfl, rfl⟩
  next herror =>
  rw [hchecked] at herror
  cases herror

/-! ### The chain of a new certificate -/

section
variable {keys : CaKeys C} {w : CaWorld C} {data : CsrData} {kind : SubjectKind}
  {tenant : Option TenantId} {subject : Uuid} {sans : List String} {lifetimeSecs : Int64}
  {issued : Issued}

theorem chained_of_issue (hsign : SignCorrect C) (hkeys : keys.Anchored)
    (hw : w.issuing = keys.issuing)
    (hkind : kind = .device ∨ kind = .gateway ∨ kind = .service)
    (h : issue C w data kind tenant subject sans lifetimeSecs = .ok issued) {now : Int64}
    (hleaf : issued.certificate.ValidAt now) (hissuing : keys.issuingCert.ValidAt now)
    (hroot : keys.rootCert.ValidAt now) :
    Chained C issued.certificate keys.issuingCert keys.rootCert now := by
  obtain ⟨serial, der, sig, -, -, hsig, rfl⟩ := issue_cases h
  have hverify := verifySignature_of_sign hsign hsig
  rw [hw, ← hkeys.issuingKey] at hverify
  have hissuer : C.keyId (C.verifyingKey w.issuing) = C.keyId keys.issuingCert.tbs.signingKey := by
    rw [hw, hkeys.issuingKey]
  exact ⟨hkind, hkeys.issuingKind, hissuer, hkeys.issuer, hleaf, hissuing, hroot, hverify,
    hkeys.signature⟩

theorem verify_of_chained {v : ChainVerifier C} {leaf issuing root : Certificate} {now : Int64}
    (hv : v.roots = [root]) (h : Chained C leaf issuing root now) :
    ∃ verified, v.verify leaf [issuing] now = .ok verified := by
  refine verify_ok_iff.mpr ⟨issuing, root, ?_, ?_, h⟩
  · simp [h.leafIssuer]
  · simp [hv, h.issuingIssuer]

/-! ### The limits -/

/-- The length of the encoding of what `issue` signs, if no length in it is cut. -/
def issuedSize (data : CsrData) (tenant : Option TenantId) (sans : List String) : ℕ :=
  124 + (utf8 ((tenant.map uuidText).getD "")).length + data.template.signingKey.length +
    (data.template.kemKey.getD []).length + (sans.map fun san => 2 + (utf8 san).length).sum +
    ((data.hardwareBinding.map HardwareBinding.encode).getD []).length

def WithinLimits (data : CsrData) (tenant : Option TenantId) (sans : List String) : Prop :=
  sans.length ≤ MAX_SANS ∧ (∀ san ∈ sans, (utf8 san).length ≤ MAX_STRING) ∧
    issuedSize data tenant sans ≤ MAX_TBS_LEN

instance : Decidable (WithinLimits data tenant sans) := inferInstanceAs (Decidable (_ ∧ _ ∧ _))

theorem length_sans (sans : List String) :
    (sans.flatMap fun san => put16 (utf8 san)).length =
      (sans.map fun san => 2 + (utf8 san).length).sum := by
  simp only [List.length_flatMap, length_put16]

theorem length_issuedTbs (serial : BitVec 128) (der : Bytes) :
    (issuedTbs C w data kind tenant subject sans lifetimeSecs serial der).encode.length =
      issuedSize data tenant sans := by
  have hhash : (C.sha256 der).bytes.length = 32 := length_beBytes _ _
  simp only [TbsCertificate.encode_eq, issuedTbs, List.length_append, length_beBytes, length_put16,
    length_sans, List.length_singleton, Option.map_some, Option.getD_some, hhash, issuedSize]
  omega

theorem length_tenantId (tenant : Option TenantId) :
    (utf8 ((tenant.map uuidText).getD "")).length ≤ MAX_STRING := by
  cases tenant with
  | none => decide
  | some id => exact (length_utf8_uuidText_le id).trans (by decide)

theorem fits_issuedTbs_iff {csr : Csr} (hcsr : verifyCsr C csr = .ok data) (serial : BitVec 128)
    (der : Bytes) :
    (issuedTbs C w data kind tenant subject sans lifetimeSecs serial der).Fits C ↔
      sans.length ≤ MAX_SANS ∧ ∀ san ∈ sans, (utf8 san).length ≤ MAX_STRING := by
  obtain ⟨htemplate, -, hbinding⟩ := verifyCsr_cases hcsr
  have hfits := (TbsCertificate.decode_iff.mp htemplate).1.1
  constructor
  · exact TbsCertificate.Fits.sans
  intro hsans
  exact ⟨rfl, length_tenantId tenant, hfits.signingKey, hfits.kemKey, hsans,
    encodable_of_decodeBinding hbinding⟩

theorem decode_issued_iff (hsign : SignCorrect C) {csr : Csr} (hcsr : verifyCsr C csr = .ok data)
    (h : issue C w data kind tenant subject sans lifetimeSecs = .ok issued) :
    decode C issued.certificate.encode = .ok issued.certificate ↔
      WithinLimits data tenant sans := by
  obtain ⟨serial, der, sig, -, -, hsig, rfl⟩ := issue_cases h
  rw [decode_iff, and_iff_left rfl]
  constructor
  · rintro ⟨hfits, hsize, -⟩
    obtain ⟨hcount, hlength⟩ := (fits_issuedTbs_iff hcsr serial der).mp hfits
    exact ⟨hcount, hlength, length_issuedTbs serial der ▸ hsize⟩
  rintro ⟨hcount, hlength, hsize⟩
  exact ⟨(fits_issuedTbs_iff hcsr serial der).mpr ⟨hcount, hlength⟩,
    (length_issuedTbs serial der).trans_le hsize, (hsign _ _ _ _ _ hsig).1⟩

end

/-- For all keys that `initialize` makes, every CSR that `verify_csr` accepts and everything that
the CA service passes on, what is issued decodes to itself and verifies with the CA's certificates
whenever all three are valid, if and only if names and size are within the limits. -/
theorem issue_usable_iff (C : HybridImpl) (hsign : SignCorrect C)
    (rootWorld issuingWorld : KeyWorld C)
    (keys : CaKeys C) (hkeys : initKeys C rootWorld issuingWorld = .ok keys) (w : CaWorld C)
    (hw : w.issuing = keys.issuing) (csr : Csr) (data : CsrData) (hcsr : verifyCsr C csr = .ok data)
    (kind : SubjectKind) (hkind : kind = .device ∨ kind = .gateway ∨ kind = .service)
    (tenant : Option TenantId) (subject : Uuid) (sans : List String) (lifetimeSecs : Int64)
    (issued : Issued) (h : issue C w data kind tenant subject sans lifetimeSecs = .ok issued) :
    (decode C issued.certificate.encode = .ok issued.certificate ∧
      ∃ v, new C [keys.rootCert] = .ok v ∧ ∀ now, issued.certificate.ValidAt now →
        keys.issuingCert.ValidAt now → keys.rootCert.ValidAt now →
          ∃ verified, v.verify issued.certificate [keys.issuingCert] now = .ok verified) ↔
      WithinLimits data tenant sans := by
  have hanchored := anchored_of_initKeys hsign hkeys
  rw [decode_issued_iff hsign hcsr h, and_iff_left_iff_imp]
  intro _
  obtain ⟨v, hnew, hroots⟩ := hanchored.exists_verifier
  refine ⟨v, hnew, fun now hleaf hissuing hroot => ?_⟩
  exact verify_of_chained hroots (chained_of_issue hsign hanchored hw hkind h hleaf hissuing hroot)

/-! ### A device with its names -/

theorem transparent_signCorrect : SignCorrect transparentHybrid := by
  intro key domain msg coins sig h
  have hsig : transparentSignature [key] domain msg = sig := Except.ok.inj h
  have hkey : List.length (transparentHybrid.verifyingKey key) = 1 := rfl
  have hlength : sig.length = 34 := by
    rw [← hsig, transparentSignature, List.length_append, List.length_cons, Key.bytes,
      length_beBytes]
    exact congrArg (· + 33) hkey
  exact ⟨⟨hlength, if_pos hlength⟩, if_pos hsig.symm⟩

def laptopTemplate : TbsCertificate where
  version := 2
  serial := 0
  tenantId := ""
  subjectId := 0
  kind := .device
  signingKey := [11]
  kemKey := some [5]
  notBefore := 0
  notAfter := 0
  issuerKeyId := 0
  sans := []
  tlsCertSha256 := none
  hardwareBinding := none

def laptopCsr : Csr where
  tbsTemplate := laptopTemplate.encode
  proof := transparentSignature [11] .csr laptopTemplate.encode
  tlsCsrPem := ""
  hardwareBinding := []

def smallCa : CaWorld transparentHybrid where
  issuing := (20 : UInt8)
  serial := some 1
  nowBefore := 1000
  nowAfter := 1000
  lifetimeSecs := 86400
  signTlsCsr _ _ _ _ _ := .ok []
  coins := ()
  storeOk := true

def drawn (key : UInt8) : KeyWorld transparentHybrid := ⟨some key, some 2, 900, 900, ()⟩

theorem issue_usable_laptop : ∃ keys issued,
    initKeys transparentHybrid (drawn 19) (drawn 20) = .ok keys ∧
      issue transparentHybrid smallCa ⟨laptopTemplate, "", none⟩ .device (some 7) 1
    ["laptop"] 86400 =
        .ok issued ∧
      decode transparentHybrid issued.certificate.encode = .ok issued.certificate ∧
      ∃ v, new transparentHybrid [keys.rootCert] = .ok v ∧
        ∀ now, issued.certificate.ValidAt now → keys.issuingCert.ValidAt now →
          keys.rootCert.ValidAt now →
            ∃ verified, v.verify issued.certificate [keys.issuingCert] now = .ok verified := by
  have hcsr : verifyCsr transparentHybrid laptopCsr = .ok ⟨laptopTemplate, "", none⟩ := by
    decide +kernel
  obtain ⟨issued, hissued, -⟩ := exists_ok (p := fun _ => true)
    (x := issue transparentHybrid smallCa ⟨laptopTemplate, "", none⟩ .device (some 7) 1 ["laptop"]
      86400) (by decide +kernel)
  refine ⟨_, issued, rfl, hissued, ?_⟩
  exact (issue_usable_iff transparentHybrid transparent_signCorrect (drawn 19) (drawn 20) _ rfl
    smallCa rfl laptopCsr _ hcsr .device (.inl rfl) (some 7) 1 ["laptop"] 86400 issued
    hissued).mpr (by decide +kernel)

/-- The device asks for 33 names. The CA signs, and nobody can decode the certificate. -/
theorem issue_many_names :
    (issueDeviceCredential transparentHybrid smallCa 7 1 laptopCsr .device
      (List.replicate 33 "a")).toOption.any (fun c =>
        (decode transparentHybrid c.encode).toOption.isNone) = true := by
  decide +kernel

end Avon.Ca
