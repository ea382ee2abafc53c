import Avon.Crypto.Cert
import Avon.Lib.Except

/-!
# Which chains `ChainVerifier::verify` accepts

`verify` takes the first certificates with the right key ids. A CA certificate that is issued again
for the same key has the same key id, so an expired one can hide a valid one. `Uniform`: nothing is
hidden.
-/

set_option autoImplicit false

namespace Avon.Crypto

variable {C : HybridImpl} {leaf issuing root : Certificate} {now : Int64}

def Certificate.ValidAt (c : Certificate) (now : Int64) : Prop :=
  c.tbs.notBefore ≤ now ∧ now ≤ c.tbs.notAfter

instance (c : Certificate) (now : Int64) : Decidable (c.ValidAt now) :=
  inferInstanceAs (Decidable (_ ∧ _))

/-- A leaf certificate with its issuer and the root above. -/
structure Chained (C : HybridImpl) (leaf issuing root : Certificate) (now : Int64) : Prop where
  leafKind : leaf.tbs.kind = .device ∨ leaf.tbs.kind = .gateway ∨ leaf.tbs.kind = .service
  issuingKind : issuing.tbs.kind = .issuingCa
  leafIssuer : leaf.tbs.issuerKeyId = C.keyId issuing.tbs.signingKey
  issuingIssuer : issuing.tbs.issuerKeyId = C.keyId root.tbs.signingKey
  leafValid : leaf.ValidAt now
  issuingValid : issuing.ValidAt now
  rootValid : root.ValidAt now
  leafSignature : leaf.verifySignature C issuing.tbs.signingKey = .ok ()
  issuingSignature : issuing.verifySignature C root.tbs.signingKey = .ok ()

/-- If there is a chain, then every intermediate with the key id of the leaf's issuer has a root
with the key id of its own issuer, and forms a chain with every such root. -/
def Uniform (C : HybridImpl) (roots intermediates : List Certificate) (leaf : Certificate)
    (now : Int64) : Prop :=
  (∃ i ∈ intermediates, ∃ r ∈ roots, Chained C leaf i r now) →
    ∀ i ∈ intermediates, C.keyId i.tbs.signingKey = leaf.tbs.issuerKeyId →
      (∃ r ∈ roots, C.keyId r.tbs.signingKey = i.tbs.issuerKeyId) ∧
        ∀ r ∈ roots, C.keyId r.tbs.signingKey = i.tbs.issuerKeyId → Chained C leaf i r now

variable {c : Certificate} {v : ChainVerifier C} {intermediates roots l : List Certificate}

theorem checkValidity_eq_ok :
    ChainVerifier.checkValidity c now = .ok () ↔ c.ValidAt now := by
  unfold ChainVerifier.checkValidity Certificate.ValidAt
  rw [ite_error_eq_ok, ite_error_eq_ok, Int64.not_lt, gt_iff_lt, Int64.not_lt,
    and_iff_left rfl]

/-- What `verify` accepts: a chain of the first certificates that have the right key ids. -/
theorem verify_ok_iff :
    (∃ verified, v.verify leaf intermediates now = .ok verified) ↔
      ∃ i r, intermediates.find? (fun c => C.keyId c.tbs.signingKey = leaf.tbs.issuerKeyId) =
          some i ∧
        v.roots.find? (fun c => C.keyId c.tbs.signingKey = i.tbs.issuerKeyId) = some r ∧
        Chained C leaf i r now := by
  have hunit : ∀ {x : Except CertError Unit} {q : Prop}, (∃ u, x = .ok u ∧ q) ↔ x = .ok () ∧ q :=
    ⟨fun ⟨(), hx⟩ => hx, fun hx => ⟨(), hx⟩⟩
  unfold ChainVerifier.verify
  simp only [ite_throw_eq_ok, bind_eq_ok, hunit, checkValidity_eq_ok, not_not, exists_and_left]
  constructor
  · rintro ⟨hkind, hvalid, verified, h⟩
    split at h
    · cases h
    rename_i i hi
    simp only [ite_throw_eq_ok, bind_eq_ok, hunit, checkValidity_eq_ok, ne_eq, not_not] at h
    obtain ⟨hikind, hivalid, hsig, h⟩ := h
    split at h
    · cases h
    rename_i r hr
    simp only [bind_eq_ok, hunit, checkValidity_eq_ok] at h
    obtain ⟨hrvalid, hisig, -⟩ := h
    have hikey := List.find?_some hi
    have hrkey := List.find?_some hr
    simp only [decide_eq_true_eq] at hikey hrkey
    exact ⟨i, hi, r, hr, hkind, hikind, hikey.symm, hrkey.symm, hvalid, hivalid, hrvalid, hsig,
      hisig⟩
  · rintro ⟨i, hi, r, hr, h⟩
    refine ⟨h.leafKind, h.leafValid, ⟨leaf, [r.id C, i.id C, leaf.id C]⟩, ?_⟩
    simp only [hi, hr, ite_throw_eq_ok, bind_eq_ok, hunit, checkValidity_eq_ok, ne_eq, not_not]
    exact ⟨h.issuingKind, h.issuingValid, h.leafSignature, h.rootValid, h.issuingSignature, rfl⟩

variable {roots' intermediates' : List Certificate} {p : Certificate → Prop}

theorem exists_chained_congr
    (hroots : roots'.Perm roots) (hint : intermediates'.Perm intermediates) :
    (∃ i ∈ intermediates', ∃ r ∈ roots', Chained C leaf i r now) ↔
      ∃ i ∈ intermediates, ∃ r ∈ roots, Chained C leaf i r now := by
  simp only [hroots.mem_iff, hint.mem_iff]

theorem Uniform.congr (h : Uniform C roots intermediates leaf now) (hroots : roots'.Perm roots)
    (hint : intermediates'.Perm intermediates) : Uniform C roots' intermediates' leaf now := by
  unfold Uniform at h ⊢
  simpa only [hroots.mem_iff, hint.mem_iff] using h

theorem exists_chained_of_verify
    (h : ∃ verified, v.verify leaf intermediates now = .ok verified) :
    ∃ i ∈ intermediates, ∃ r ∈ v.roots, Chained C leaf i r now := by
  obtain ⟨i, r, hi, hr, hchain⟩ := verify_ok_iff.mp h
  exact ⟨i, List.mem_of_find?_eq_some hi, r, List.mem_of_find?_eq_some hr, hchain⟩

theorem exists_find [DecidablePred p] (hc : c ∈ l) (hp : p c) : ∃ c₀ ∈ l, l.find?
    (p ·) = some c₀ ∧ p c₀ := by
  have hsome : (l.find? (p ·)).isSome = true :=
    List.find?_isSome.mpr ⟨c, hc, decide_eq_true hp⟩
  obtain ⟨c₀, hc₀⟩ := Option.isSome_iff_exists.mp hsome
  exact ⟨c₀, List.mem_of_find?_eq_some hc₀, hc₀, by simpa using List.find?_some hc₀⟩

theorem verify_of_uniform
    (hu : Uniform C v.roots intermediates leaf now)
    (h : ∃ i ∈ intermediates, ∃ r ∈ v.roots, Chained C leaf i r now) :
    ∃ verified, v.verify leaf intermediates now = .ok verified := by
  have hall := hu h
  obtain ⟨i, hi, r, hr, hchain⟩ := h
  obtain ⟨i₀, hi₀, hfind, hkey⟩ := exists_find
    (p := fun c => C.keyId c.tbs.signingKey = leaf.tbs.issuerKeyId) hi hchain.leafIssuer.symm
  obtain ⟨⟨r₁, hr₁, hr₁key⟩, hroots⟩ := hall i₀ hi₀ hkey
  obtain ⟨r₀, hr₀, hrfind, hrkey⟩ := exists_find
    (p := fun c => C.keyId c.tbs.signingKey = i₀.tbs.issuerKeyId) hr₁ hr₁key
  exact verify_ok_iff.mpr ⟨i₀, r₀, hfind, hrfind, hroots r₀ hr₀ hrkey⟩

theorem exists_perm_find [DecidablePred p] (hc : c ∈ l) (hp : p c) :
    ∃ l' : List Certificate, l'.Perm l ∧ l'.find? (p ·) = some c := by
  obtain ⟨l₁, l₂, rfl⟩ := List.append_of_mem hc
  exact ⟨c :: (l₁ ++ l₂), List.perm_middle.symm, by simp [hp]⟩

theorem forM_eq_ok {f : Certificate → Except CertError Unit} :
    l.forM f = .ok () ↔ ∀ c ∈ l, f c = .ok () := by
  induction l with
  | nil => simp [pure, Except.pure]
  | cons c l ih =>
    show (f c >>= fun _ => l.forM f) = .ok () ↔ _
    rw [bind_eq_ok, List.forall_mem_cons, ← ih]
    exact ⟨fun ⟨(), hc, hl⟩ => ⟨hc, hl⟩, fun ⟨hc, hl⟩ => ⟨(), hc, hl⟩⟩

theorem exists_verifier (v : ChainVerifier C)
    (h : roots.Perm v.roots) : ∃ v' : ChainVerifier C, v'.roots = roots := by
  refine ⟨⟨roots, forM_eq_ok.mpr fun c hc => ?_⟩, rfl⟩
  exact forM_eq_ok.mp v.checked c (h.mem_iff.mp hc)

/-- For every verifier, list of intermediates, leaf and time: in every order of the roots and of the
intermediates `verify` accepts exactly if there is a chain, if and only if the certificates are
`Uniform`. -/
theorem verify_complete_iff (C : HybridImpl) (v : ChainVerifier C)
    (intermediates : List Certificate) (leaf : Certificate) (now : Int64) :
    (∀ (v' : ChainVerifier C) (intermediates' : List Certificate), v'.roots.Perm v.roots →
      intermediates'.Perm intermediates →
      ((∃ verified, v'.verify leaf intermediates' now = .ok verified) ↔
        ∃ i ∈ intermediates, ∃ r ∈ v.roots, Chained C leaf i r now)) ↔
      Uniform C v.roots intermediates leaf now := by
  constructor
  · intro hall hexists i hi hkey
    -- the intermediate comes first in some order, and is therefore the one that is tried
    obtain ⟨intermediates', hperm, hfind⟩ := exists_perm_find
      (p := fun c => C.keyId c.tbs.signingKey = leaf.tbs.issuerKeyId) hi hkey
    have htried : ∀ v' : ChainVerifier C, v'.roots.Perm v.roots → ∃ r,
        v'.roots.find? (fun c => C.keyId c.tbs.signingKey = i.tbs.issuerKeyId) = some r ∧
          Chained C leaf i r now := by
      intro v' hroots
      obtain ⟨i', r, hi', hr, hchain⟩ :=
        verify_ok_iff.mp ((hall v' intermediates' hroots hperm).mpr hexists)
      rw [hfind] at hi'
      cases hi'
      exact ⟨r, hr, hchain⟩
    constructor
    · obtain ⟨r, hr, hchain⟩ := htried v (List.Perm.refl _)
      exact ⟨r, List.mem_of_find?_eq_some hr, hchain.issuingIssuer.symm⟩
    intro r hr hrkey
    obtain ⟨roots, hroots, hrfind⟩ := exists_perm_find
      (p := fun c => C.keyId c.tbs.signingKey = i.tbs.issuerKeyId) hr hrkey
    obtain ⟨v', rfl⟩ := exists_verifier v hroots
    obtain ⟨r', hr', hchain⟩ := htried v' hroots
    rw [hrfind] at hr'
    cases hr'
    exact hchain
  · intro hu v' intermediates' hroots hperm
    rw [← exists_chained_congr hroots hperm]
    exact ⟨exists_chained_of_verify, verify_of_uniform (hu.congr hroots hperm)⟩

/-! ### An issuing certificate that was issued again -/

def signedCert (kind : SubjectKind) (key issuer : UInt8) (notAfter : Int64) : Certificate :=
  let tbs : TbsCertificate := {
    version := 2
    serial := 0
    tenantId := ""
    subjectId := 0
    kind := kind
    signingKey := [key]
    kemKey := none
    notBefore := 0
    notAfter := notAfter
    issuerKeyId := transparentHash [issuer]
    sans := []
    tlsCertSha256 := none
    hardwareBinding := none }
  ⟨tbs, transparentSignature [issuer] .cert tbs.encode⟩

def rootOneVerifier : ChainVerifier transparentHybrid :=
  ⟨[signedCert .rootCa 1 1 1000], by decide +kernel⟩

/-- Two issuing certificates for key 2. At time 50 the first is expired and the second is valid:
with it the leaf has a chain. `verify` looks at the first one only, and accepts in the other order.
-/
theorem expired_hides_valid :
    let leaf := signedCert .device 3 2 1000
    let old := signedCert .issuingCa 2 1 10
    let fresh := signedCert .issuingCa 2 1 1000
    Chained transparentHybrid leaf fresh (signedCert .rootCa 1 1 1000) 50 ∧
      (rootOneVerifier.verify leaf [old, fresh] 50).toOption.isSome = false ∧
      (rootOneVerifier.verify leaf [fresh, old] 50).toOption.isSome = true := by
  refine ⟨⟨?_, ?_, ?_, ?_, ?_, ?_, ?_, ?_, ?_⟩, ?_, ?_⟩ <;> decide +kernel

end Avon.Crypto
