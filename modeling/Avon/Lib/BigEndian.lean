import Mathlib.Data.List.Induction
import Mathlib.Tactic.Ring

/-!
# Fixed-width big-endian numbers

`beBytes w n` is the `w`-byte big-endian encoding of `n % 256 ^ w`, and `ofBe` reads a byte string
back. `ofBe_beBytes` and `beBytes_ofBe` are the round trips: both sides take the last byte off.
-/

set_option autoImplicit false

namespace Avon.Lib.BigEndian

def beBytes : ℕ → ℕ → List UInt8
  | 0, _ => []
  | w + 1, n => UInt8.ofNat (n / 256 ^ w) :: beBytes w n

def ofBe (bytes : List UInt8) : ℕ :=
  bytes.foldl (fun acc b => 256 * acc + b.toNat) 0

@[simp] theorem length_beBytes (w n : ℕ) : (beBytes w n).length = w := by
  induction w with
  | zero => rfl
  | succ w ih => simp [beBytes, ih]

theorem beBytes_succ (w n : ℕ) :
    beBytes (w + 1) n = beBytes w (n / 256) ++ [UInt8.ofNat n] := by
  induction w with
  | zero => simp [beBytes]
  | succ w ih => rw [beBytes, ih, beBytes, Nat.pow_succ', Nat.div_div_eq_div_mul, List.cons_append]

theorem ofBe_concat (bytes : List UInt8) (b : UInt8) :
    ofBe (bytes ++ [b]) = 256 * ofBe bytes + b.toNat := by
  simp [ofBe]

theorem ofBe_beBytes {w n : ℕ} (h : n < 256 ^ w) : ofBe (beBytes w n) = n := by
  induction w generalizing n with
  | zero => simpa [beBytes, ofBe, eq_comm] using h
  | succ w ih =>
    rw [beBytes_succ, ofBe_concat, ih (Nat.div_lt_of_lt_mul (by rwa [← Nat.pow_succ'])),
      UInt8.toNat_ofNat']
    omega

variable {bytes : List UInt8} {a b : List UInt8} {w m n : ℕ}

theorem beBytes_inj (hm : m < 256 ^ w) (hn : n < 256 ^ w)
    (h : beBytes w m = beBytes w n) : m = n := by
  rw [← ofBe_beBytes hm, h, ofBe_beBytes hn]

theorem beBytes_append_inj (hm : m < 256 ^ w) (hn : n < 256 ^ w)
    (h : beBytes w m ++ a = beBytes w n ++ b) : m = n ∧ a = b := by
  obtain ⟨hhead, htail⟩ := List.append_inj h (by simp)
  exact ⟨beBytes_inj hm hn hhead, htail⟩

/-- A field behind its length can be told from what follows it. -/
theorem field_append_inj {w : ℕ} {a b x y : List UInt8} (ha : a.length < 256 ^ w)
    (hb : b.length < 256 ^ w)
    (h : beBytes w a.length ++ (a ++ x) = beBytes w b.length ++ (b ++ y)) : a = b ∧ x = y := by
  obtain ⟨hlength, hrest⟩ := beBytes_append_inj ha hb h
  exact List.append_inj hrest hlength

theorem ofBe_lt (bytes : List UInt8) : ofBe bytes < 256 ^ bytes.length := by
  induction bytes using List.reverseRecOn with
  | nil => simp [ofBe]
  | append_singleton bytes b ih =>
    have hb := b.toNat_lt
    rw [ofBe_concat, List.length_append, List.length_singleton, Nat.pow_succ]
    omega

theorem beBytes_ofBe (bytes : List UInt8) : beBytes bytes.length (ofBe bytes) = bytes := by
  induction bytes using List.reverseRecOn with
  | nil => rfl
  | append_singleton bytes b ih =>
    have hb := b.toNat_lt
    have hdiv : (256 * ofBe bytes + b.toNat) / 256 = ofBe bytes := by omega
    have hlast : UInt8.ofNat (256 * ofBe bytes + b.toNat) = b := by
      apply UInt8.toNat_inj.mp
      rw [UInt8.toNat_ofNat']
      omega
    rw [ofBe_concat, List.length_append, List.length_singleton, beBytes_succ, hdiv, ih, hlast]

theorem ofBe_lt_of_length {w : ℕ} (h : bytes.length = w) :
    ofBe bytes < 256 ^ w := h ▸ ofBe_lt bytes

theorem beBytes_ofBe_of_length {w : ℕ} (h : bytes.length = w) :
    beBytes w (ofBe bytes) = bytes := h ▸ beBytes_ofBe bytes

theorem ofBe_eq_iff (h : bytes.length = w) (hn : n < 256 ^ w) :
    ofBe bytes = n ↔ bytes = beBytes w n := by
  constructor
  · rintro rfl
    exact (beBytes_ofBe_of_length h).symm
  · rintro rfl
    exact ofBe_beBytes hn

theorem bitVec_ofBe_eq_iff (h : bytes.length = w) {x : BitVec (8 * w)} :
    BitVec.ofNat (8 * w) (ofBe bytes) = x ↔ bytes = beBytes w x.toNat := by
  have hpow : 256 ^ w = 2 ^ (8 * w) := by rw [Nat.pow_mul]
  have hlt := ofBe_lt_of_length h
  rw [← BitVec.toNat_inj, BitVec.toNat_ofNat, Nat.mod_eq_of_lt (hpow ▸ hlt),
    ofBe_eq_iff h (hpow ▸ x.isLt)]

theorem bitVec_beBytes_inj {x y : BitVec (8 * w)} (h : beBytes w x.toNat = beBytes w y.toNat) :
    x = y := by
  rw [← (bitVec_ofBe_eq_iff (length_beBytes w x.toNat)).mpr rfl]
  exact (bitVec_ofBe_eq_iff (length_beBytes w _)).mpr h

theorem eq_ofBe_beBytes {w n : ℕ} : n = ofBe (beBytes w n) ↔ n < 256 ^ w := by
  refine ⟨fun h => ?_, fun h => (ofBe_beBytes h).symm⟩
  rw [h]
  exact ofBe_lt_of_length (length_beBytes w n)

end Avon.Lib.BigEndian
