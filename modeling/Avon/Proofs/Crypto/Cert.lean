import Avon.Crypto.Cert

/-!
# What an encoding says of a certificate

`subject_of_encode_eq`: two certificates with one encoding have the same subject and kind.
-/

set_option autoImplicit false

namespace Avon.Crypto

open Avon.Lib.BigEndian

@[simp] theorem length_put16 (b : Bytes) : (put16 b).length = 2 + b.length := by
  simp [put16]

theorem SubjectKind.toU8_inj {k k' : SubjectKind} (h : k.toU8 = k'.toU8) : k = k' := by
  cases k <;> cases k' <;> first | rfl | exact absurd h (by decide)

theorem length_tenantId_le (c : Certificate) :
    (utf8 c.tbs.tenantId).length ≤ c.encode.length := by
  simp only [Certificate.encode, TbsCertificate.encode, List.length_append, List.length_cons,
    length_put16]
  omega

theorem subject_of_encode_eq {c c' : Certificate} (h : c.encode = c'.encode)
    (hshort : c.encode.length < 2 ^ 16) :
    c.tbs.subjectId = c'.tbs.subjectId ∧ c.tbs.kind = c'.tbs.kind := by
  have htenant := length_tenantId_le c
  have htenant' := length_tenantId_le c'
  rw [← h] at htenant'
  simp only [Certificate.encode, TbsCertificate.encode, put16, List.append_assoc,
    List.cons_append] at h
  -- The fields before the subject: the length, the version, the serial and the tenant.
  obtain ⟨-, h⟩ := List.append_inj h (by simp)
  obtain ⟨-, h⟩ := List.cons.inj h
  obtain ⟨-, h⟩ := List.append_inj h (by simp)
  obtain ⟨-, h⟩ := field_append_inj (by omega) (by omega) h
  obtain ⟨hsubject, h⟩ := List.append_inj h (by simp)
  obtain ⟨hkind, -⟩ := List.cons.inj h
  exact ⟨bitVec_beBytes_inj (w := 16) hsubject, SubjectKind.toU8_inj hkind⟩

end Avon.Crypto
