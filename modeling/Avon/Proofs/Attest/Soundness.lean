import Avon.Proofs.Attest.Tpms

/-!
# What a verified quote says

A TPM signs a nonce, a selection of PCRs and the digest of their values. The values themselves come
from the agent, and `verify` puts them together to compare the digest. It does not look at their
lengths, sorts the selection, and skips the banks other than SHA-256.
-/

set_option autoImplicit false

namespace Avon.Attest

open Avon.Crypto Avon.Lib Avon.Lib.BigEndian

variable {α β : Type}

/-- A quote as a TPM makes it. `pcr` is the content of its banks at that moment. -/
structure TpmQuote (sha256 : Bytes → Bytes) where
  qualifiedSigner : Bytes
  extraData : Bytes
  clock : ClockInfo
  firmwareVersion : ℕ
  selections : List (ℕ × Bytes)
  pcr : ℕ → ℕ → Bytes
  short : qualifiedSigner.length < 256 ^ 2 ∧ extraData.length < 256 ^ 2
  counters : clock.clockMs < 256 ^ 8 ∧ clock.resetCount < 256 ^ 4 ∧ clock.restartCount < 256 ^ 4 ∧
    firmwareVersion < 256 ^ 8
  banks : selections.length < 256 ^ 4 ∧ ∀ s ∈ selections, s.1 < 256 ^ 2 ∧ s.2.length < 256 ^ 1
  sizes : ∀ i, (pcr TPM_ALG_SHA256 i).length = 32
  digestSize : (sha256 (selections.flatMap fun s => (bits s.2).flatMap (pcr s.1))).length = 32

namespace TpmQuote
variable {sha256 : Bytes → Bytes} (t : TpmQuote sha256)

/-- What a TPM hashes: the values of each selection, in the order of the selections. -/
def hashed : Bytes := t.selections.flatMap fun s => (bits s.2).flatMap (t.pcr s.1)

def selected : List ℕ :=
  (t.selections.map fun s => if s.1 ≠ TPM_ALG_SHA256 then [] else bits s.2).flatten.insertionSort
    (· ≤ ·)

def encode : Bytes :=
  beBytes 4 TPM_GENERATED_VALUE ++ (beBytes 2 TPM_ST_ATTEST_QUOTE ++
    (encodeField t.qualifiedSigner ++ (encodeField t.extraData ++
      (beBytes 8 t.clock.clockMs ++ (beBytes 4 t.clock.resetCount ++
        (beBytes 4 t.clock.restartCount ++ (beBytes 1 t.clock.safe.toNat ++
          (beBytes 8 t.firmwareVersion ++ (beBytes 4 t.selections.length ++
            (t.selections.flatMap encodeSelection ++ encodeField (sha256 t.hashed)))))))))))

end TpmQuote

variable {sha256 : Bytes → Bytes}

theorem flatMap_encodeSelection_inj {l l' : List (ℕ × Bytes)} {x y : Bytes}
    (hlength : l.length = l'.length) (hl : ∀ s ∈ l, s.1 < 256 ^ 2 ∧ s.2.length < 256 ^ 1)
    (hl' : ∀ s ∈ l', s.1 < 256 ^ 2 ∧ s.2.length < 256 ^ 1)
    (h : l.flatMap TpmQuote.encodeSelection ++ x = l'.flatMap TpmQuote.encodeSelection ++ y) :
    l = l' ∧ x = y := by
  induction l generalizing l' with
  | nil =>
    obtain rfl := List.length_eq_zero_iff.mp hlength.symm
    exact ⟨rfl, h⟩
  | cons s l ih =>
    obtain ⟨s', l', rfl⟩ := List.exists_cons_of_length_eq_add_one hlength.symm
    simp only [List.flatMap_cons, TpmQuote.encodeSelection, List.append_assoc] at h
    rw [List.forall_mem_cons] at hl hl'
    obtain ⟨halg, h⟩ := beBytes_append_inj hl.1.1 hl'.1.1 h
    obtain ⟨hbitmap, h⟩ := field_append_inj hl.1.2 hl'.1.2 h
    obtain ⟨rfl, rfl⟩ := ih (Nat.succ.inj hlength) hl.2 hl'.2 h
    exact ⟨congrArg (· :: l) (Prod.ext halg hbitmap), rfl⟩

variable {attest : QuoteAttest} {policy : QuotePolicy} {Q : QuoteImpl} {nonce : Bytes} {q : Quote}

theorem parseQuote_encode (t : TpmQuote sha256)
    (h : parseQuote t.encode = .ok attest) : attest.extraData = t.extraData ∧
      attest.selectedPcrs = t.selected ∧ attest.pcrDigest = sha256 t.hashed := by
  obtain ⟨safe, selections, ⟨hfits, -, -, hcount, hbanks, hselected⟩, rest, h⟩ :=
    parseQuote_eq_ok.mp h
  obtain ⟨hsigner, hextra, hclock, hreset, hrestart, hfirmware, hdigest⟩ := hfits
  simp only [attestBytes, TpmQuote.encode, encodeField, List.append_assoc] at h
  -- The fields, one after the other.
  obtain ⟨-, h⟩ := List.append_inj h (by simp)
  obtain ⟨-, h⟩ := List.append_inj h (by simp)
  obtain ⟨-, h⟩ := field_append_inj hsigner t.short.1 h
  obtain ⟨hextraData, h⟩ := field_append_inj hextra t.short.2 h
  obtain ⟨-, h⟩ := List.append_inj h (by simp)
  obtain ⟨-, h⟩ := List.append_inj h (by simp)
  obtain ⟨-, h⟩ := List.append_inj h (by simp)
  obtain ⟨-, h⟩ := List.append_inj h (by simp)
  obtain ⟨-, h⟩ := List.append_inj h (by simp)
  obtain ⟨hlength, h⟩ := beBytes_append_inj (hcount.trans_lt (by decide)) t.banks.1 h
  obtain ⟨rfl, htail⟩ := flatMap_encodeSelection_inj hlength
    (fun s hs => ⟨(hbanks s hs).1, (hbanks s hs).2.trans_lt (by decide)⟩) t.banks.2 h
  obtain ⟨hpcr, -⟩ := field_append_inj (w := 2) (x := rest) (y := [])
    (hdigest.trans_lt (by decide)) (t.digestSize.trans_lt (by decide))
    (by rwa [List.append_nil])
  exact ⟨hextraData, hselected, hpcr⟩

def quoteHeader : Bytes := beBytes 4 TPM_GENERATED_VALUE ++ beBytes 2 TPM_ST_ATTEST_QUOTE

theorem parseQuote_header {buf : Bytes} (h : parseQuote buf = .ok attest) :
    quoteHeader <+: buf := by
  obtain ⟨safe, selections, -, rest, rfl⟩ := parseQuote_eq_ok.mp h
  rw [attestBytes, ← List.append_assoc, List.append_assoc]
  exact List.prefix_append _ _

/-- The value that `verify` finds for a PCR. -/
def Quote.sent (q : Quote) (index : ℕ) : Option Bytes :=
  (q.pcrs.find? fun p => p.1 = index).map Prod.snd

theorem pcrValues_eq_ok {indexes : List ℕ} {values : Bytes}
    (h : pcrValues q.pcrs indexes = .ok values) :
    (∀ i ∈ indexes, ∃ v, q.sent i = some v) ∧
      values = indexes.flatMap fun i => (q.sent i).getD [] := by
  induction indexes generalizing values with
  | nil =>
    cases h
    simp
  | cons i indexes ih =>
    unfold pcrValues at h
    split at h
    · cases h
    next v hv =>
    have hsent : q.sent i = some v := by rw [Quote.sent, hv]; rfl
    obtain ⟨rest, hrest, rfl⟩ := map_eq_ok.mp h
    obtain ⟨hall, rfl⟩ := ih hrest
    simp only [List.mem_cons, forall_eq_or_imp, List.flatMap_cons, hsent]
    exact ⟨⟨⟨v, rfl⟩, hall⟩, rfl⟩

theorem flatMap_inj {l : List α} {f g : α → List β} (hsize : ∀ a ∈ l, (f a).length = (g a).length)
    (h : l.flatMap f = l.flatMap g) : ∀ a ∈ l, f a = g a := by
  induction l with
  | nil => simp
  | cons a l ih =>
    rw [List.flatMap_cons, List.flatMap_cons] at h
    obtain ⟨hhead, htail⟩ := List.append_inj h (hsize a (by simp))
    simp only [List.mem_cons, forall_eq_or_imp]
    exact ⟨hhead, ih (fun b hb => hsize b (by simp [hb])) htail⟩

/-- What the holder of a key signs: quotes of its TPM, and messages without their header. -/
def Unforgeable (Q : QuoteImpl) (signed : Q.ecdsa.Key → TpmQuote Q.sha256 → Prop) : Prop :=
  ∀ key msg sig, Q.ecdsa.verify key msg sig = true →
    (∃ t, signed key t ∧ msg = t.encode) ∨ ¬ quoteHeader <+: msg

theorem quoteFault_none (h : quoteFault Q q attest nonce policy = none) :
    attest.extraData = nonce ∧ (∀ r ∈ policy.requiredPcrs, r ∈ attest.selectedPcrs) ∧
      (∃ values, pcrValues q.pcrs attest.selectedPcrs = .ok values ∧
        Q.sha256 values = attest.pcrDigest) ∧
      ∃ key sig, Q.ecdsa.keyFromDer q.akPublic = some key ∧
        Q.ecdsa.verify key q.quote sig = true := by
  unfold quoteFault at h
  split_ifs at h with hnonce
  split at h
  · cases h
  next hrequired =>
  split at h
  · cases h
  next values hvalues =>
  split_ifs at h with hdigest
  split at h
  · cases h
  next key hkey =>
  split at h
  · cases h
  next sig hsig =>
  split_ifs at h with hverify
  exact ⟨not_not.mp hnonce, by simpa using hrequired,
    ⟨values, hvalues, not_not.mp hdigest⟩, key, sig, hkey, hverify⟩

theorem verify_verified {ev : Evidence} {known : Option Bytes} (h :
    (verify Q ev nonce known policy).state = .verified) :
    ∃ q attest, ev = .tpm2Quote q ∧ parseQuote q.quote = .ok attest ∧
      quoteFault Q q attest nonce policy = none := by
  unfold verify at h
  split at h
  · cases h
  next q =>
  split at h
  · cases h
  next attest hattest =>
  split at h
  · cases h
  · next hfault => exact ⟨q, attest, rfl, hattest, hfault⟩

theorem verified_quote_iff (Q : QuoteImpl) (signed : Q.ecdsa.Key → TpmQuote Q.sha256 → Prop)
    (hsigned : Unforgeable Q signed) (hsha : Function.Injective Q.sha256) (ev : Evidence)
    (nonce : Bytes) (known : Option Bytes) (policy : QuotePolicy)
    (h : (verify Q ev nonce known policy).state = .verified) :
    ∃ q key t, ev = .tpm2Quote q ∧ Q.ecdsa.keyFromDer q.akPublic = some key ∧ signed key t ∧
      q.quote = t.encode ∧ t.extraData = nonce ∧ (∀ r ∈ policy.requiredPcrs, r ∈ t.selected) ∧
      ((∀ i ∈ t.selected, q.sent i = some (t.pcr TPM_ALG_SHA256 i)) ↔
        (∀ i ∈ t.selected, ∀ v, q.sent i = some v → v.length = 32) ∧
          t.hashed = t.selected.flatMap (t.pcr TPM_ALG_SHA256)) := by
  obtain ⟨q, attest, rfl, hparse, hfault⟩ := verify_verified h
  obtain ⟨rfl, hrequired, ⟨values, hvalues, hdigest⟩, key, sig, hkey, hverify⟩ :=
    quoteFault_none hfault
  obtain ⟨t, ht, hquote⟩ : ∃ t, signed key t ∧ q.quote = t.encode :=
    (hsigned key q.quote sig hverify).resolve_right (not_not.mpr (parseQuote_header hparse))
  rw [hquote] at hparse
  obtain ⟨hextra, hselected, hpcr⟩ := parseQuote_encode t hparse
  rw [hselected] at hrequired hvalues
  obtain ⟨hsent, hconcat⟩ := pcrValues_eq_ok hvalues
  -- The digest fixes the concatenation of the values, and nothing about where they are cut.
  have hhashed : values = t.hashed := hsha (hdigest.trans hpcr)
  refine ⟨q, key, t, rfl, hkey, ht, hquote, hextra.symm, hrequired, fun htrue => ⟨?_, ?_⟩, ?_⟩
  · intro i hi v hv
    cases (htrue i hi).symm.trans hv
    exact t.sizes i
  · rw [← hhashed, hconcat]
    exact List.flatMap_congr fun i hi => by rw [htrue i hi]; rfl
  rintro ⟨hsize, heq⟩ i hi
  obtain ⟨v, hv⟩ := hsent i hi
  have hcut := flatMap_inj (fun j hj => ?_) (hconcat.symm.trans (hhashed.trans heq)) i hi
  · rw [hv] at hcut ⊢
    exact congrArg some hcut
  obtain ⟨w, hw⟩ := hsent j hj
  rw [hw, t.sizes j]
  exact hsize j hj w hw

/-! The attestation key signed one quote, of the PCRs 0 and 7 for the nonce `[1]`. -/

def registers (index : ℕ) : Bytes := List.replicate 32 (UInt8.ofNat index)

def sampleSha : Bytes → Bytes := Equiv.swap (registers 0 ++ registers 7) zeroDigest

def sampleQuote : TpmQuote sampleSha where
  qualifiedSigner := []
  extraData := [1]
  clock := ⟨0, 0, 0, true⟩
  firmwareVersion := 0
  selections := [(TPM_ALG_SHA256, [0x81])]
  pcr := fun _ => registers
  short := by decide
  counters := by decide
  banks := by decide
  sizes := fun _ => List.length_replicate
  digestSize := by decide +kernel

def sampleImpl : QuoteImpl where
  ecdsa := ⟨Unit, Unit, fun _ => some (), fun _ => some (), fun _ msg _ => msg = sampleQuote.encode⟩
  sha256 := sampleSha

theorem sample_unforgeable : Unforgeable sampleImpl fun _ t => t = sampleQuote :=
  fun _ _ _ h => .inl ⟨sampleQuote, rfl, of_decide_eq_true h⟩

theorem sampleSha_injective : Function.Injective sampleImpl.sha256 :=
  (Equiv.swap (registers 0 ++ registers 7) zeroDigest).injective

def sampleEvidence (pcrs : List (ℕ × Bytes)) : Quote := ⟨sampleQuote.encode, [], [], pcrs, [1]⟩

theorem verified_true_values : sampleQuote.selected = [0, 7] ∧ ∀ i ∈ sampleQuote.selected,
    (sampleEvidence [(0, registers 0), (7, registers 7)]).sent i = some (registers i) := by
  refine ⟨by decide +kernel, ?_⟩
  obtain ⟨q, key, t, hq, -, ht, -, -, -, hiff⟩ := verified_quote_iff sampleImpl _ sample_unforgeable
    sampleSha_injective (.tpm2Quote (sampleEvidence [(0, registers 0), (7, registers 7)])) [1] none
    .default (by decide +kernel)
  cases hq
  cases ht
  refine hiff.mpr ⟨fun i hi v hv => ?_, by decide +kernel⟩
  have hselected : ∀ i ∈ sampleQuote.selected, i = 0 ∨ i = 7 := by decide +kernel
  obtain rfl | rfl := hselected i hi <;> cases hv <;> rfl

/-- The agent sends both values as the one of PCR 0, and nothing for PCR 7. -/
theorem shifted_values_verified : Unforgeable sampleImpl (fun _ t => t = sampleQuote) ∧
    Function.Injective sampleImpl.sha256 ∧
    (verify sampleImpl (.tpm2Quote (sampleEvidence [(0, registers 0 ++ registers 7), (7, [])])) [1]
      none .default).state = .verified ∧
    7 ∈ sampleQuote.selected ∧
      (sampleEvidence [(0, registers 0 ++ registers 7), (7, [])]).sent 7 ≠
        some (sampleQuote.pcr TPM_ALG_SHA256 7) :=
  ⟨sample_unforgeable, sampleSha_injective, by decide +kernel, by decide +kernel, by decide +kernel⟩

end Avon.Attest
