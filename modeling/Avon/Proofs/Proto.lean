import Avon.Crypto.Cert
import Avon.Proto
import Mathlib.Algebra.Order.BigOperators.Group.Finset

/-!
# The text of an id

An id is written with 32 hexadecimal digits and four hyphens.
-/

set_option autoImplicit false

namespace Avon.Proto

open Avon.Crypto Avon.Lib Avon.Lib.BigEndian

theorem length_encode_uuidBytes (id : Uuid) : (Hex.encode (uuidBytes id)).length = 32 := by
  rw [Hex.length_encode, uuidBytes, length_beBytes]

theorem length_uuidText (id : Uuid) : (uuidText id).toList.length = 36 := by
  simp [uuidText, length_encode_uuidBytes]

theorem mem_uuidText {c : Char} {id : Uuid} (h : c ∈ (uuidText id).toList) :
    c = '-' ∨ ∃ n < 16, c = Nat.digitChar n := by
  rw [or_iff_not_imp_left]
  intro hne
  have hmem : c ∈ Hex.encode (uuidBytes id) := by
    simp only [uuidText, String.toList_ofList, List.mem_append, List.mem_cons, hne, false_or,
      or_assoc] at h
    rcases h with h | h | h | h | h
    · exact List.mem_of_mem_take h
    · exact List.mem_of_mem_drop (List.mem_of_mem_take h)
    · exact List.mem_of_mem_drop (List.mem_of_mem_take h)
    · exact List.mem_of_mem_drop (List.mem_of_mem_take h)
    · exact List.mem_of_mem_drop h
  exact Hex.exists_digit hmem

theorem filter_uuidText (id : Uuid) :
    (uuidText id).toList.filter (· ≠ '-') = Hex.encode (uuidBytes id) := by
  rw [uuidText, String.toList_ofList]
  have hdigit : ∀ c ∈ Hex.encode (uuidBytes id), c ≠ '-' := by
    have hne : ∀ n < 16, Nat.digitChar n ≠ '-' := by decide
    intro c hc
    obtain ⟨n, hn, rfl⟩ := Hex.exists_digit hc
    exact hne n hn
  generalize Hex.encode (uuidBytes id) = h at hdigit ⊢
  have hself : ∀ l : List Char, (∀ c ∈ l, c ∈ h) → l.filter (· ≠ '-') = l := fun l hl =>
    List.filter_eq_self.mpr fun c hc => decide_eq_true (hdigit c (hl c hc))
  have hfilter : ∀ l r : List Char, (∀ c ∈ l, c ∈ h) →
      (l ++ '-' :: r).filter (· ≠ '-') = l ++ r.filter (· ≠ '-') := by
    intro l r hl
    rw [List.filter_append, hself l hl, List.filter_cons_of_neg (by simp)]
  have htake : ∀ n m, (h.drop n).take m ++ h.drop (n + m) = h.drop n := fun n m => by
    rw [← List.drop_drop, List.take_append_drop]
  have hmem : ∀ n m, ∀ c ∈ (h.drop n).take m, c ∈ h := fun n m c hc =>
    List.mem_of_mem_drop (List.mem_of_mem_take hc)
  simp only [List.append_assoc, List.cons_append]
  rw [hfilter _ _ fun c hc => List.mem_of_mem_take hc, hfilter _ _ (hmem 8 4),
    hfilter _ _ (hmem 12 4), hfilter _ _ (hmem 16 4), hself _ fun c hc => List.mem_of_mem_drop hc,
    htake 16 4, htake 12 4, htake 8 4, List.take_append_drop]

theorem uuidOf_uuidBytes (id : Uuid) : uuidOf (uuidBytes id) = some id := by
  have hid := id.isLt
  rw [uuidOf, uuidBytes, if_pos (length_beBytes _ _), ofBe_beBytes (by omega), BitVec.ofNat_toNat,
    BitVec.setWidth_eq]

theorem uuidText_injective : Function.Injective uuidText := by
  intro a b h
  have hencode : Hex.encode (uuidBytes a) = Hex.encode (uuidBytes b) := by
    rw [← filter_uuidText a, ← filter_uuidText b, h]
  have hbytes := congrArg Hex.decode hencode
  rw [Hex.decode_encode, Hex.decode_encode, Option.some.injEq] at hbytes
  exact Option.some.inj (by rw [← uuidOf_uuidBytes a, hbytes, uuidOf_uuidBytes])

theorem length_utf8_ofList (cs : List Char) :
    (utf8 (String.ofList cs)).length = (cs.map Char.utf8Size).sum := by
  rw [utf8, String.toUTF8, String.toByteArray_ofList, List.utf8Encode, Array.length_toList]
  change (List.toByteArray _).size = _
  rw [List.size_toByteArray, List.length_flatMap]
  simp only [String.length_utf8EncodeChar]

theorem length_utf8_uuidText_le (id : Uuid) : (utf8 (uuidText id)).length ≤ 144 := by
  have hsum : ∀ x ∈ (uuidText id).toList.map Char.utf8Size, x ≤ 4 := by
    rintro x hx
    obtain ⟨c, -, rfl⟩ := List.mem_map.mp hx
    exact c.utf8Size_le_four
  have h := List.sum_le_card_nsmul _ 4 hsum
  rw [List.length_map, length_uuidText] at h
  rw [← String.ofList_toList (s := uuidText id), length_utf8_ofList]
  simpa using h

end Avon.Proto
