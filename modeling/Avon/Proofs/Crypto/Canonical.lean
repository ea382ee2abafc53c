import Avon.Crypto.Crl
import Avon.Lib.Codec
import Mathlib.Tactic.Simproc.ExistsAndEq
import Avon.Proofs.Crypto.Cert

/-!
# One encoding for each signed object

Each decoder accepts exactly the encodings of the values within its limits
(`HardwareBinding.decode_iff`, `TbsCertificate.decode_iff`, `Certificate.decode_iff`,
`Crl.decodeTbs_iff`). So what is accepted is encoded back to the bytes it came from.
-/

set_option autoImplicit false

namespace Avon.Crypto

open Avon.Lib.BigEndian Avon.Lib.Codec Reader ProviderKind
open Certificate (decode)

/-! ### Readers -/

theorem fromUTF8_eq_some {b : Bytes} {s : String} :
    String.fromUTF8? b.toByteArray = some s ↔ b = utf8 s := by
  constructor
  · intro h
    unfold String.fromUTF8? at h
    split at h
    · rw [Option.some.injEq] at h
      subst h
      show b = b.toByteArray.data.toList
      rw [List.data_toByteArray]
    · cases h
  · rintro rfl
    have hbytes : (utf8 s).toByteArray = s.toUTF8 := by
      apply ByteArray.ext
      rw [utf8, List.data_toByteArray, Array.toArray_toList]
    rw [hbytes]
    unfold String.fromUTF8?
    rw [String.toUTF8_eq_toByteArray, dif_pos s.isValidUTF8]
    rfl

namespace Reader

theorem reads_take (n : ℕ) : Reads (take n) (fun b => b) fun b => b.length = n := by
  intro buf b rest
  show (if buf.length < n then _ else _) = _ ↔ b.length = n ∧ buf = b ++ rest
  rw [ite_error_eq_ok, Except.ok.injEq, Prod.mk.injEq]
  constructor
  · rintro ⟨hlen, rfl, rfl⟩
    exact ⟨by rw [List.length_take]; omega, (List.take_append_drop n buf).symm⟩
  · rintro ⟨rfl, rfl⟩
    simp

theorem reads_number (w : ℕ) : Reads (number w) (beBytes w) fun n => n < 256 ^ w := by
  refine (reads_take w).map (f := ofBe) (g := beBytes w) ?_ ?_
  · rintro b rfl
    exact ⟨ofBe_lt b, beBytes_ofBe b⟩
  · intro n hn
    exact ⟨length_beBytes w n, ofBe_beBytes hn⟩

theorem reads_u8 : Reads u8 (fun b => [b]) fun _ => True := by
  have henc : (fun b : UInt8 => beBytes 1 b.toNat) = fun b => [b] := by
    funext b
    simp [beBytes]
  rw [← henc]
  refine (reads_number 1).map (f := UInt8.ofNat) (g := UInt8.toNat) ?_ ?_
  · intro n hn
    exact ⟨trivial, UInt8.toNat_ofNat_of_lt' hn⟩
  · intro b _
    exact ⟨b.toNat_lt, UInt8.ofNat_toNat⟩

theorem reads_array (n : ℕ) : Reads (array n) (fun v => beBytes n v.toNat) fun _ => True := by
  have hpow : 256 ^ n = 2 ^ (8 * n) := by rw [Nat.pow_mul]
  refine (reads_number n).map (f := BitVec.ofNat (8 * n)) (g := BitVec.toNat) ?_ ?_
  · intro m hm
    rw [hpow] at hm
    exact ⟨trivial, by rw [BitVec.toNat_ofNat, Nat.mod_eq_of_lt hm]⟩
  · intro v _
    exact ⟨hpow ▸ v.isLt, by simp⟩

theorem reads_i64 : Reads i64 (fun v => beBytes 8 v.toBitVec.toNat) fun _ => True := by
  refine (reads_number 8).map (f := fun n => Int64.ofBitVec (BitVec.ofNat 64 n))
    (g := fun v => v.toBitVec.toNat) ?_ ?_
  · intro m hm
    refine ⟨trivial, ?_⟩
    show (BitVec.ofNat 64 m).toNat = m
    rw [BitVec.toNat_ofNat, Nat.mod_eq_of_lt (by omega)]
  intro v _
  refine ⟨by have := v.toBitVec.isLt; omega, ?_⟩
  simp

theorem reads_bytes16 (max : ℕ) :
    Reads (bytes16 max) put16 fun b => b.length ≤ max ∧ b.length < 2 ^ 16 := by
  intro buf b rest
  simp only [bytes16, run_bind_eq_ok, run_ite_throw, reads_number 2 _ _ _,
    reads_take _ _ _ _]
  simp [put16, and_comm, and_assoc]

theorem reads_string16 :
    Reads string16 (fun s => put16 (utf8 s)) fun s => (utf8 s).length ≤ MAX_STRING := by
  intro buf s rest
  have hshort : (utf8 s).length ≤ MAX_STRING → (utf8 s).length < 2 ^ 16 :=
    fun h => h.trans_lt (by decide)
  simp only [string16, run_bind_eq_ok, reads_bytes16 MAX_STRING _ _ _]
  constructor
  · rintro ⟨b, mid, ⟨⟨hmax, -⟩, rfl⟩, h⟩
    split at h
    · cases h
    rename_i s' hs
    obtain ⟨rfl, rfl⟩ := run_pure_eq_ok.mp h
    rw [← fromUTF8_eq_some.mp hs]
    exact ⟨hmax, rfl⟩
  · rintro ⟨hmax, rfl⟩
    refine ⟨utf8 s, rest, ⟨⟨hmax, hshort hmax⟩, rfl⟩, ?_⟩
    rw [fromUTF8_eq_some.mpr rfl]
    exact run_pure_eq_ok.mpr ⟨rfl, rfl⟩

theorem reads_times {α : Type} {r : Reader α} {enc : α → Bytes} {P : α → Prop}
    (h : Reads r enc P) (n : ℕ) :
    Reads (times r n) (fun l => l.flatMap enc) fun l => l.length = n ∧ ∀ a ∈ l, P a := by
  induction n with
  | zero =>
    intro buf l rest
    simp only [times, run_pure_eq_ok, List.length_eq_zero_iff]
    constructor
    · rintro ⟨rfl, rfl⟩
      simp
    · rintro ⟨⟨rfl, -⟩, rfl⟩
      simp
  | succ n ih =>
    intro buf l rest
    simp only [times, run_bind_eq_ok, run_pure_eq_ok, h _ _ _, ih _ _ _]
    constructor
    · rintro ⟨a, mid, ⟨ha, rfl⟩, l', mid', ⟨⟨rfl, hl⟩, rfl⟩, rfl, rfl⟩
      exact ⟨⟨rfl, List.forall_mem_cons.mpr ⟨ha, hl⟩⟩, by simp⟩
    rintro ⟨⟨hlen, hall⟩, rfl⟩
    cases l with
    | nil => cases hlen
    | cons a l =>
      obtain ⟨ha, hl⟩ := List.forall_mem_cons.mp hall
      exact ⟨a, l.flatMap enc ++ rest, ⟨ha, by simp⟩, l, rest,
        ⟨⟨Nat.succ.inj hlen, hl⟩, rfl⟩, rfl, rfl⟩

theorem run_key_eq_ok {check : Bytes → Except CryptoError Unit} {b a buf rest : Bytes} :
    (key check b).run buf = .ok (a, rest) ↔ check b = .ok () ∧ a = b ∧ rest = buf := by
  unfold key
  cases check b with
  | ok u =>
    rw [run_pure_eq_ok]
    simp
  | error e =>
    simp only [reduceCtorEq, false_and, iff_false]
    exact run_throw_ne_ok

theorem run_done_eq_ok {buf rest : Bytes} {u : Unit} :
    done.run buf = .ok (u, rest) ↔ buf = [] ∧ rest = [] := by
  show ((if buf = [] then pure () else throw (.encoding "trailing bytes") : Reader Unit).run buf) =
    .ok (u, rest) ↔ _
  split
  · rename_i hnil
    rw [run_pure_eq_ok]
    simp [hnil]
  rename_i hne
  simp only [hne, false_and, iff_false]
  exact run_throw_ne_ok

end Reader

/-! ### Hardware bindings -/

theorem ProviderKind.fromU8_eq_ok {v : UInt8} {k : ProviderKind} :
    fromU8 v = .ok k ↔ v = k.toU8 := by
  constructor
  · intro h
    unfold fromU8 at h
    split_ifs at h <;> cases h <;> assumption
  · rintro rfl
    cases k <;> rfl

theorem SubjectKind.fromU8_eq_ok {v : UInt8} {k : SubjectKind} :
    SubjectKind.fromU8 v = .ok k ↔ v = k.toU8 := by
  constructor
  · intro h
    unfold SubjectKind.fromU8 at h
    split_ifs at h <;> cases h <;> assumption
  · rintro rfl
    cases k <;> rfl

namespace HardwareBinding

structure Encodable (b : HardwareBinding) : Prop where
  attestation : b.attestation ≠ some []
  size : b.encode.length ≤ MAX_BINDING_BYTES

theorem take16_eq_ok {buf b rest : Bytes} :
    take16 buf = .ok (b, rest) ↔ b.length < 2 ^ 16 ∧ buf = put16 b ++ rest := by
  unfold take16
  simp only [ite_error_eq_ok, Except.ok.injEq, Prod.mk.injEq, not_lt]
  constructor
  · rintro ⟨htwo, hlen, rfl, rfl⟩
    obtain ⟨n, tail, hn, rfl⟩ := exists_split buf htwo
    rw [List.take_left' hn, List.length_append, hn] at hlen
    obtain ⟨b, rest, hb, rfl⟩ := exists_split tail (Nat.le_of_add_le_add_left hlen)
    simp only [List.take_left' hn, List.drop_left' hn, List.take_left' hb, List.drop_left' hb,
      put16]
    rw [hb, beBytes_ofBe_of_length hn, List.append_assoc]
    exact ⟨ofBe_lt_of_length hn, rfl⟩
  · rintro ⟨hlt, rfl⟩
    have hn := length_beBytes 2 b.length
    rw [put16, List.append_assoc, List.take_left' hn, List.drop_left' hn, ofBe_beBytes hlt]
    simp

theorem attestation_iff {bytes : Bytes} {a : Option Bytes} :
    (if bytes = [] then none else some bytes) = a ↔ bytes = a.getD [] ∧ a ≠ some [] := by
  split
  · rename_i hnil
    cases a with
    | none => simp [hnil]
    | some x => simp [hnil, eq_comm]
  rename_i hne
  cases a with
  | none => simp [hne]
  | some x =>
    simp only [Option.some.injEq, Option.getD_some, ne_eq]
    grind

theorem decode_iff {bytes : Bytes} {b : HardwareBinding} :
    HardwareBinding.decode bytes = .ok b ↔ b.Encodable ∧ bytes = b.encode := by
  unfold HardwareBinding.decode
  rw [ite_error_eq_ok]
  constructor
  · rintro ⟨hsize, h⟩
    cases bytes with
    | nil => cases h
    | cons kind rest =>
      simp only [bind_eq_ok, Prod.exists, take16_eq_ok, fromU8_eq_ok] at h
      obtain ⟨provider, rfl, algorithm, rest, ⟨-, rfl⟩, h⟩ := h
      split at h
      · cases h
      rename_i text htext
      simp only [bind_eq_ok, Prod.exists, take16_eq_ok, ite_error_eq_ok, Except.ok.injEq] at h
      obtain ⟨publicKey, rest, ⟨-, rfl⟩, signature, rest, ⟨-, rfl⟩, attestation, rest, ⟨-, rfl⟩,
        hrest, rfl⟩ := h
      obtain rfl : rest = [] := not_not.mp hrest
      obtain rfl := fromUTF8_eq_some.mp htext
      obtain ⟨hatt, hne⟩ := attestation_iff.mp
        (Eq.refl (if attestation = [] then none else some attestation))
      have henc : provider.toU8 :: (put16 (utf8 text) ++ (put16 publicKey ++
          (put16 signature ++ (put16 attestation ++ [])))) =
          HardwareBinding.encode ⟨provider, text, publicKey, signature,
            if attestation = [] then none else some attestation⟩ := by
        simp only [HardwareBinding.encode, ← hatt, List.append_assoc, List.append_nil]
      rw [henc] at hsize
      exact ⟨⟨hne, not_lt.mp hsize⟩, henc⟩
  · rintro ⟨⟨hatt, hsize⟩, rfl⟩
    have hmax : MAX_BINDING_BYTES = 12288 := rfl
    have hlength : b.encode.length = 1 + ((2 + (utf8 b.algorithm).length) +
        (2 + b.publicKey.length) + (2 + b.signature.length) +
        (2 + (b.attestation.getD []).length)) := by
      simp only [HardwareBinding.encode, List.length_cons, List.length_append, length_put16]
      omega
    refine ⟨by omega, ?_⟩
    show (do
      let provider ← fromU8 b.provider.toU8
      _) = _
    simp only [bind_eq_ok, Prod.exists, take16_eq_ok, fromU8_eq_ok, List.append_assoc]
    refine ⟨b.provider, rfl, utf8 b.algorithm, _, ⟨by omega, rfl⟩, ?_⟩
    rw [fromUTF8_eq_some.mpr rfl]
    simp only [bind_eq_ok, Prod.exists, take16_eq_ok, ite_error_eq_ok, Except.ok.injEq]
    refine ⟨b.publicKey, _, ⟨by omega, rfl⟩, b.signature, _, ⟨by omega, rfl⟩, b.attestation.getD [],
      [], ⟨by omega, (List.append_nil _).symm⟩, not_not.mpr rfl, ?_⟩
    rw [attestation_iff.mpr ⟨rfl, hatt⟩]

theorem encode_ne_nil (b : HardwareBinding) : b.encode ≠ [] := List.cons_ne_nil _ _

end HardwareBinding

/-! ### Certificates -/

namespace TbsCertificate

/-- The limits of `TbsCertificate::decode`, except for the size of the whole. -/
structure Fits (C : HybridImpl) (t : TbsCertificate) : Prop where
  version : t.version = 2
  tenantId : (utf8 t.tenantId).length ≤ MAX_STRING
  signingKey : t.signingKey.length = C.verifyingKeyBytes ∧
    C.verifyingKeyFromBytes t.signingKey = .ok ()
  kemKey : ∀ k ∈ t.kemKey, k ≠ [] ∧ k.length = C.publicKeyBytes ∧ k.length < 2 ^ 16 ∧
    C.publicKeyFromBytes k = .ok ()
  sans : t.sans.length ≤ MAX_SANS ∧ ∀ san ∈ t.sans, (utf8 san).length ≤ MAX_STRING
  hardwareBinding : ∀ b ∈ t.hardwareBinding, b.Encodable

variable {bytes buf rest : Bytes} {C : HybridImpl} {t : TbsCertificate}

theorem run_kem_eq_ok {k : Option Bytes} : (if bytes.length = 0 then pure none
      else if bytes.length = C.publicKeyBytes then some <$> key C.publicKeyFromBytes bytes
      else throw (.encoding ("bad kem key length " ++ toString bytes.length)) :
        Reader (Option Bytes)).run buf = .ok (k, rest) ↔
      (bytes = k.getD [] ∧ ∀ x ∈ k, x ≠ [] ∧ x.length = C.publicKeyBytes ∧
        C.publicKeyFromBytes x = .ok ()) ∧ rest = buf := by
  split_ifs with hnil hlen
  · rw [List.length_eq_zero_iff] at hnil
    rw [run_pure_eq_ok]
    cases k <;> simp +contextual [hnil, eq_comm]
  · simp only [map_eq_pure_bind, run_bind_eq_ok, run_key_eq_ok, run_pure_eq_ok]
    cases k <;> simp <;> grind
  · refine iff_of_false run_throw_ne_ok ?_
    cases k <;> simp <;> grind

theorem run_tls_eq_ok {h : Option Key} : (if bytes.length = 0 then pure none
      else if bytes.length = 32 then pure (some (BitVec.ofNat 256 (ofBe bytes)))
      else throw (.encoding ("bad tls hash length " ++ toString bytes.length)) :
        Reader (Option Key)).run buf = .ok (h, rest) ↔
      bytes = (h.map Key.bytes).getD [] ∧ rest = buf := by
  have hlength : ∀ x : Key, x.bytes.length = 32 := fun _ => length_beBytes _ _
  split_ifs with hnil hlen
  · rw [run_pure_eq_ok]
    cases h <;> simp <;> grind
  · rw [run_pure_eq_ok]
    have hne : bytes ≠ [] := List.length_eq_zero_iff.not.mp hnil
    have hhash (x : Key) : x = BitVec.ofNat 256 (ofBe bytes) ↔ bytes = x.bytes :=
      eq_comm.trans (bitVec_ofBe_eq_iff (w := 32) hlen)
    cases h <;> simp [hhash, hne]
  · refine iff_of_false run_throw_ne_ok ?_
    cases h <;> simp <;> grind

theorem run_binding_eq_ok {b : Option HardwareBinding} :
    (if bytes = [] then pure none else some <$> (HardwareBinding.decode bytes : Reader _) :
        Reader (Option HardwareBinding)).run buf = .ok (b, rest) ↔
      (bytes = (b.map HardwareBinding.encode).getD [] ∧ ∀ x ∈ b, x.Encodable) ∧ rest = buf := by
  split_ifs with hnil
  · rw [run_pure_eq_ok]
    cases b <;> simp [hnil, (HardwareBinding.encode_ne_nil _).symm]
  simp only [map_eq_pure_bind, run_bind_eq_ok, run_lift_eq_ok, run_pure_eq_ok,
    HardwareBinding.decode_iff]
  cases b <;> simp [hnil, and_comm]

theorem encode_eq (t : TbsCertificate) : t.encode =
    [t.version] ++ (beBytes 16 t.serial.toNat ++ (put16 (utf8 t.tenantId) ++
      (beBytes 16 t.subjectId.toNat ++ ([t.kind.toU8] ++ (t.signingKey ++
      (put16 (t.kemKey.getD []) ++ (beBytes 8 t.notBefore.toBitVec.toNat ++
      (beBytes 8 t.notAfter.toBitVec.toNat ++ (beBytes 32 t.issuerKeyId.toNat ++
      (beBytes 2 t.sans.length ++ ((t.sans.flatMap fun san => put16 (utf8 san)) ++
      (put16 ((t.tlsCertSha256.map Key.bytes).getD []) ++
      put16 ((t.hardwareBinding.map HardwareBinding.encode).getD []))))))))))))) := by
  simp only [encode, Key.bytes, List.append_assoc, List.cons_append, List.nil_append]

theorem run_read_eq_ok {buf rest : Bytes} :
    (read C).run buf = .ok (t, rest) ↔ t.Fits C ∧ buf = t.encode ∧ rest = [] := by
  unfold read
  simp only [ite_bind, run_bind_eq_ok, run_ite_throw_eq_ok, run_pure_eq_ok, reads_u8 _ _ _,
    reads_array _ _ _ _, reads_string16 _ _ _, reads_take _ _ _ _,
    run_key_eq_ok, reads_bytes16 _ _ _ _, reads_i64 _ _ _,
    reads_number _ _ _ _, reads_times reads_string16 _ _ _ _,
    run_kem_eq_ok, run_tls_eq_ok, run_binding_eq_ok, run_done_eq_ok, run_lift_eq_ok,
    SubjectKind.fromU8_eq_ok]
  obtain ⟨_, _, _, _, _, _, kemKey, _, _, _, _, tls, binding⟩ := t
  simp [encode_eq]
  constructor
  · rintro ⟨rfl, htenant, hlength, hkey, ⟨-, hshort⟩, hkem, -, hsans, hsan, -, -, hbinding, rfl,
      rfl⟩
    refine ⟨⟨rfl, htenant, ⟨hlength, hkey⟩, ?_, ⟨hsans, hsan⟩, hbinding⟩, rfl, rfl⟩
    rintro k ⟨⟩
    obtain ⟨hne, hlen, hok⟩ := hkem k rfl
    exact ⟨hne, hlen, hshort, hok⟩
  rintro ⟨⟨rfl, htenant, ⟨hlength, hkey⟩, hkem, ⟨hsans, hsan⟩, hbinding⟩, rfl, rfl⟩
  have hkemLen : (kemKey.getD []).length ≤ C.publicKeyBytes ∧ (kemKey.getD []).length < 2 ^ 16 := by
    cases kemKey with
    | none => simp
    | some k => exact ⟨(hkem k rfl).2.1.le, (hkem k rfl).2.2.1⟩
  have htls : ((tls.map Key.bytes).getD []).length ≤ 32 := by
    cases tls with
    | none => simp
    | some h => exact (length_beBytes 32 _).le
  have hsize : ((binding.map HardwareBinding.encode).getD []).length ≤ MAX_BINDING_BYTES := by
    cases binding with
    | none => simp
    | some b => exact (hbinding b rfl).size
  exact ⟨rfl, htenant, hlength, hkey, hkemLen,
    fun k hk => ⟨(hkem k hk).1, (hkem k hk).2.1, (hkem k hk).2.2.2⟩,
    hsans.trans_lt (by decide), hsans, hsan, ⟨htls, htls.trans_lt (by decide)⟩,
    ⟨hsize, hsize.trans_lt (by decide)⟩, hbinding, rfl, rfl⟩

theorem decode_iff {bytes : Bytes} : TbsCertificate.decode C bytes = .ok t ↔
      (t.Fits C ∧ t.encode.length ≤ MAX_TBS_LEN) ∧ bytes = t.encode := by
  unfold TbsCertificate.decode
  rw [ite_error_eq_ok]
  rw [map_eq_ok]
  constructor
  · rintro ⟨hsize, ⟨_, rest⟩, hrun, rfl⟩
    obtain ⟨hfits, rfl, -⟩ := run_read_eq_ok.mp hrun
    exact ⟨⟨hfits, not_lt.mp hsize⟩, rfl⟩
  · rintro ⟨⟨hfits, hsize⟩, rfl⟩
    exact ⟨not_lt.mpr hsize, _, run_read_eq_ok.mpr ⟨hfits, rfl, rfl⟩, rfl⟩

end TbsCertificate

namespace Certificate

structure Encodable (C : HybridImpl) (c : Certificate) : Prop where
  fits : c.tbs.Fits C
  size : c.tbs.encode.length ≤ MAX_TBS_LEN
  signature : c.signature.length = C.signatureBytes ∧ C.signatureFromBytes c.signature = .ok ()

theorem take_encode (c : Certificate) : c.encode.take 4 = beBytes 4 c.tbs.encode.length := by
  simp [encode]

theorem drop_encode (c : Certificate) : c.encode.drop 4 = c.tbs.encode ++ c.signature := by
  simp [encode]

theorem decode_iff {C : HybridImpl} {bytes : Bytes} {c : Certificate} :
    decode C bytes = .ok c ↔ c.Encodable C ∧ bytes = c.encode := by
  unfold decode
  simp only [ite_error_eq_ok, bind_eq_ok, TbsCertificate.decode_iff, mapError_eq_ok]
  have hmax : MAX_TBS_LEN = 16384 := rfl
  constructor
  · rintro ⟨hfour, hlen, t, ⟨⟨hfits, hsize⟩, ht⟩, _, hsig, heq⟩
    cases heq
    simp only [not_or, not_lt, not_not, gt_iff_lt] at hfour hlen
    obtain ⟨hbound, hlength⟩ := hlen
    have htake : (bytes.take 4).length = 4 := by
      rw [List.length_take]
      omega
    have htlen : t.encode.length = ofBe (bytes.take 4) := by
      rw [← ht, List.length_take, List.length_drop]
      omega
    refine ⟨⟨hfits, hsize, ?_, hsig⟩, ?_⟩
    · rw [List.length_drop]
      omega
    · rw [encode, htlen, beBytes_ofBe_of_length htake, ← ht, List.append_assoc, ← List.drop_drop,
        List.take_append_drop, List.take_append_drop]
  · rintro ⟨⟨hfits, hsize, hsigLen, hsig⟩, rfl⟩
    have hlength : c.encode.length = 4 + c.tbs.encode.length + c.signature.length := by
      simp [encode]
      omega
    rw [take_encode, ofBe_beBytes (by omega), ← List.drop_drop, drop_encode]
    refine ⟨by omega, by omega, c.tbs, ⟨⟨hfits, hsize⟩, by simp⟩, (), ?_, ?_⟩
    · simpa using hsig
    · rw [List.drop_left]
      rfl

end Certificate

/-! ### Revocation lists -/

namespace Crl

theorem chunks_eq_iff {n : ℕ} {body : Bytes} (h : body.length = n * 16)
    {serials : List (BitVec 128)} :
    (chunks 16 n body).map (fun c => BitVec.ofNat 128 (ofBe c)) = serials ↔
      serials.length = n ∧ body = serials.flatMap fun s => beBytes 16 s.toNat := by
  induction n generalizing body serials with
  | zero =>
    have hnil : body = [] := List.length_eq_zero_iff.mp (by omega)
    cases serials <;> simp [chunks, hnil]
  | succ n ih =>
    obtain ⟨c, rest, hc, rfl⟩ := exists_split (n := 16) body (by omega)
    have hrest : rest.length = n * 16 := by
      rw [List.length_append] at h
      omega
    rw [chunks, List.take_left' hc, List.drop_left' hc, List.map_cons]
    cases serials with
    | nil => simp
    | cons s serials =>
      rw [List.cons.injEq, bitVec_ofBe_eq_iff (w := 16) hc, ih hrest, List.flatMap_cons,
        append_eq_iff (by simp [hc]), List.length_cons, Nat.add_right_cancel_iff, and_left_comm]

theorem u64_ofBe_eq_iff {b : Bytes} (h : b.length = 8) {x : UInt64} :
    UInt64.ofNat (ofBe b) = x ↔ b = beBytes 8 x.toNat := by
  rw [← ofBe_eq_iff h x.toNat_lt, ← UInt64.toNat_inj,
    UInt64.toNat_ofNat_of_lt' (ofBe_lt_of_length h)]

theorem i64_ofBe_eq_iff {b : Bytes} (h : b.length = 8) {x : Int64} :
    Int64.ofBitVec (BitVec.ofNat 64 (ofBe b)) = x ↔ b = beBytes 8 x.toBitVec.toNat := by
  rw [← Int64.toBitVec_inj]
  exact bitVec_ofBe_eq_iff (w := 8) h

theorem decodeTbs_append {v i n body : Bytes} (hv : v.length = 8) (hi : i.length = 8)
    (hn : n.length = 4) : decodeTbs (v ++ (i ++ (n ++ body))) =
      if ofBe n > MAX_SERIALS ∨ body.length ≠ ofBe n * 16 then .error (.encoding "crl length")
      else .ok ⟨UInt64.ofNat (ofBe v), Int64.ofBitVec (BitVec.ofNat 64 (ofBe i)),
        (chunks 16 (body.length / 16) body).map fun c => BitVec.ofNat 128 (ofBe c)⟩ := by
  have hlength : (v ++ (i ++ (n ++ body))).length = 20 + body.length := by
    simp [hv, hi, hn]
    omega
  rw [decodeTbs, if_neg (by omega), hlength]
  simp [hv, hi, hn, List.drop_append, List.drop_of_length_le]

theorem decodeTbs_iff {bytes : Bytes} {crl : Crl} :
    decodeTbs bytes = .ok crl ↔ crl.serials.length ≤ MAX_SERIALS ∧ bytes = crl.encodeTbs := by
  obtain ⟨version, issuedAt, serials⟩ := crl
  rcases Nat.lt_or_ge bytes.length 20 with hshort | hlong
  · refine iff_of_false (by simp [decodeTbs, hshort]) ?_
    rintro ⟨-, rfl⟩
    simp [encodeTbs] at hshort
    omega
  -- the three fields before the serials
  obtain ⟨v, rest, hv, rfl⟩ := exists_split (n := 8) bytes (by omega)
  rw [List.length_append] at hlong
  obtain ⟨i, rest, hi, rfl⟩ := exists_split (n := 8) rest (by omega)
  rw [List.length_append] at hlong
  obtain ⟨n, body, hn, rfl⟩ := exists_split (n := 4) rest (by omega)
  have hfour : serials.length ≤ MAX_SERIALS → serials.length < 256 ^ 4 :=
    fun h => h.trans_lt (by decide)
  rw [decodeTbs_append hv hi hn, ite_error_eq_ok, Except.ok.injEq, Crl.mk.injEq, not_or, not_lt,
    not_not, u64_ofBe_eq_iff hv, i64_ofBe_eq_iff hi, encodeTbs, List.append_assoc,
    List.append_assoc, append_eq_iff (by simp [hv]), append_eq_iff (by simp [hi]),
    append_eq_iff (by simp [hn])]
  constructor
  · rintro ⟨⟨hcount, hbody⟩, hversion, hissued, hserials⟩
    rw [hbody, Nat.mul_div_cancel _ (by omega), chunks_eq_iff hbody] at hserials
    obtain ⟨hlength, hserials⟩ := hserials
    rw [← hlength] at hcount
    exact ⟨hcount, hversion, hissued, (ofBe_eq_iff hn (hfour hcount)).mp hlength.symm, hserials⟩
  · rintro ⟨hcount, hversion, hissued, hlength, hserials⟩
    rw [← ofBe_eq_iff hn (hfour hcount)] at hlength
    have hbody : body.length = ofBe n * 16 := by
      simp [hserials, hlength, List.length_flatMap]
    rw [hbody, Nat.mul_div_cancel _ (by omega), chunks_eq_iff hbody]
    exact ⟨⟨hlength ▸ hcount, rfl⟩, hversion, hissued, hlength.symm, hserials⟩

end Crl

/-! ### What is signed, and what is hashed -/

theorem Certificate.tbs_of_decode {C : HybridImpl} {b : Bytes} {c : Certificate}
    (h : decode C b = .ok c) :
    c.tbs.encode = (b.drop 4).take (ofBe (b.take 4)) := by
  obtain ⟨hc, rfl⟩ := Certificate.decode_iff.mp h
  have hsize := hc.size
  have hmax : MAX_TBS_LEN = 16384 := rfl
  rw [take_encode, drop_encode, ofBe_beBytes (by omega), List.take_left]

/-- Every decoder inverts its encoder on what it accepts. So a signature is checked against the TBS
bytes that were received, the id of a certificate is the hash of the bytes that were received, and
where SHA-256 has no collision two certificates have one id exactly if their bytes are the same. -/
theorem encodings_canonical (C : HybridImpl) :
    (∀ b c, decode C b = .ok c →
      c.encode = b ∧ decode C c.encode = .ok c ∧ c.id C = C.sha256 b ∧
        ∀ issuer, c.verifySignature C issuer =
          (C.verify issuer .cert ((b.drop 4).take (ofBe (b.take 4))) c.signature).mapError
            fun _ => .signature) ∧
    (∀ b t, TbsCertificate.decode C b = .ok t →
      t.encode = b ∧ TbsCertificate.decode C t.encode = .ok t) ∧
    (∀ b x, HardwareBinding.decode b = .ok x →
      x.encode = b ∧ HardwareBinding.decode x.encode = .ok x) ∧
    (∀ b x, Crl.decodeTbs b = .ok x → x.encodeTbs = b ∧ Crl.decodeTbs x.encodeTbs = .ok x) ∧
    ∀ received : Set Bytes, Set.InjOn C.sha256 received → ∀ b ∈ received, ∀ b' ∈ received,
      ∀ c c', decode C b = .ok c → decode C b' = .ok c' →
        (c.id C = c'.id C ↔ b = b') := by
  refine ⟨?_, ?_, ?_, ?_, ?_⟩
  · intro b c h
    have hb := (Certificate.decode_iff.mp h).2
    refine ⟨hb.symm, hb ▸ h, by rw [Certificate.id, ← hb], fun issuer => ?_⟩
    rw [Certificate.verifySignature, Certificate.tbs_of_decode h]
  · intro b t h
    have hb := (TbsCertificate.decode_iff.mp h).2
    exact ⟨hb.symm, hb ▸ h⟩
  · intro b x h
    have hb := (HardwareBinding.decode_iff.mp h).2
    exact ⟨hb.symm, hb ▸ h⟩
  · intro b x h
    have hb := (Crl.decodeTbs_iff.mp h).2
    exact ⟨hb.symm, hb ▸ h⟩
  · intro received hinj b hb b' hb' c c' h h'
    rw [Certificate.id, Certificate.id, ← (Certificate.decode_iff.mp h).2,
      ← (Certificate.decode_iff.mp h').2]
    exact hinj.eq_iff hb hb'

end Avon.Crypto
