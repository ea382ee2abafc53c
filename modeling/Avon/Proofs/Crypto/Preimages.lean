import Avon.Crypto.Signature
import Avon.Keystore.Binding
import Avon.Tunnel.Establish

/-!
# What is signed and hashed is unambiguous

No label is the beginning of another one, and every field of variable length but the last one stands
behind its length.
-/

set_option autoImplicit false

namespace Avon.Crypto

open Avon.Lib.BigEndian Avon.Proto Avon.Keystore

theorem label_cancel {d d' : Domain} (h : d.label <+: d'.label) : d = d' := by
  cases d <;> cases d' <;> first | rfl | exact absurd h (by decide +kernel)

theorem framedMessage_inj {d d' : Domain} {m m' : Bytes}
    (h : framedMessage d m = framedMessage d' m') : d = d' ∧ m = m' := by
  simp only [framedMessage, List.append_assoc] at h
  obtain rfl : d = d' := by
    -- both labels begin the same bytes, so one of them begins the other
    have hd' : d'.label <+: d.label ++ (beBytes 4 m.length ++ m) := h ▸ List.prefix_append _ _
    rcases List.prefix_or_prefix_of_prefix (List.prefix_append _ _) hd' with hle | hle
    · exact label_cancel hle
    · exact (label_cancel hle).symm
  exact ⟨rfl, (List.append_inj (List.append_cancel_left h) (by simp)).2⟩

/-- The lengths that the transcript has room for. -/
def Transcript.Short (t : Transcript) : Prop :=
  t.ephKemPk.length < 2 ^ 32 ∧ t.ctE.length < 2 ^ 32 ∧ t.ctS.length < 2 ^ 32

theorem Suite.id_inj {s s' : Suite} (h : s.id = s'.id) : s = s' := by
  cases s <;> cases s' <;> first | rfl | cases h

theorem Transcript.encode_inj {t t' : Transcript} (ht : t.Short) (ht' : t'.Short)
    (h : t.encode = t'.encode) : t = t' := by
  obtain ⟨hpk, hctE, hctS⟩ := ht
  obtain ⟨hpk', hctE', hctS'⟩ := ht'
  have hid := t.sessionId.isLt
  have hid' := t'.sessionId.isLt
  simp only [encode, put32, uuidBytes, Key.bytes, List.append_assoc] at h
  -- The fields, one after the other.
  replace h := List.append_cancel_left h
  obtain ⟨hsession, h⟩ := beBytes_append_inj (by omega) (by omega) h
  obtain ⟨hinitiator, h⟩ := List.append_inj h (by simp)
  obtain ⟨hresponder, h⟩ := List.append_inj h (by simp)
  obtain ⟨hephKemPk, h⟩ := field_append_inj hpk hpk' h
  obtain ⟨hfirst, h⟩ := field_append_inj hctE hctE' h
  obtain ⟨hsecond, h⟩ := field_append_inj hctS hctS' h
  have hsuite := Suite.id_inj (List.singleton_inj.mp h)
  cases t
  cases t'
  rw [mk.injEq]
  exact ⟨BitVec.eq_of_toNat_eq hsession, Key.bytes_inj hinitiator, Key.bytes_inj hresponder,
    hephKemPk, hfirst, hsecond, hsuite⟩

theorem bindingMessage_inj {signing signing' kem kem' hint hint' : Bytes}
    (hsigning : signing.length = signing'.length) (hkem : kem.length = kem'.length)
    (h : bindingMessage signing kem hint = bindingMessage signing' kem' hint') :
    signing = signing' ∧ kem = kem' ∧ hint = hint' := by
  simp only [bindingMessage, Keystore.put32, List.append_assoc] at h
  replace h := (List.append_inj (List.append_cancel_left h) (by simp)).2
  obtain ⟨hfirst, h⟩ := List.append_inj h hsigning
  obtain ⟨hsecond, h⟩ := List.append_inj (List.append_inj h (by simp)).2 hkem
  exact ⟨hfirst, hsecond, (List.append_inj h (by simp)).2⟩

/-- The bytes that `hybridSign` has both schemes sign in these calls. -/
def signedBytes (calls : List (Domain × Bytes)) : List Bytes :=
  calls.map fun call => framedMessage call.1 call.2

/-- The scheme accepts the signature for bytes that it has not signed. -/
def ComponentScheme.AcceptsUnsigned (S : ComponentScheme) (key : S.VerifyingKey)
    (signed : List Bytes) (sig : S.Signature) : Prop :=
  ∃ msg, S.verify key msg sig = .ok () ∧ msg ∉ signed

/-- A message that was not signed in this domain has bytes that were not signed at all. -/
theorem framedMessage_notMem {calls : List (Domain × Bytes)} {d : Domain} {m : Bytes}
    (h : (d, m) ∉ calls) : framedMessage d m ∉ signedBytes calls := by
  intro hmem
  obtain ⟨⟨d', m'⟩, hcall, heq⟩ := List.mem_map.mp hmem
  obtain ⟨rfl, rfl⟩ := framedMessage_inj heq
  exact h hcall

/-- A scheme whose signature is the message. -/
def transparentComponent : ComponentScheme where
  SigningKey := Unit
  VerifyingKey := Unit
  Signature := Bytes
  Coins := Unit
  verifyingKey := id
  sign _ msg _ := .ok msg
  verify _ msg sig := if msg = sig then .ok () else .error .invalidSignature

end Avon.Crypto
