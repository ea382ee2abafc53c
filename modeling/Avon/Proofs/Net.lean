import Avon.Net

/-!
# Networks as intervals

A network of length `len` is `2 ^ (w - len)` addresses from its first one on, which is a multiple of
that number.
-/

set_option autoImplicit false

namespace Avon

variable {w len : ℕ}

theorem toNat_hostMask (h : len ≤ w) : (BitVec.allOnes w >>> len).toNat = 2 ^ (w - len) - 1 := by
  have hsplit : 2 ^ w = 2 ^ len * 2 ^ (w - len) := by rw [← pow_add, Nat.add_sub_cancel' h]
  have hpos := Nat.mul_pos (Nat.two_pow_pos len) (Nat.two_pow_pos (w - len))
  have hdiv := Nat.mul_sub_div 0 (2 ^ len) (2 ^ (w - len)) hpos
  rw [BitVec.toNat_ushiftRight, BitVec.toNat_allOnes, Nat.shiftRight_eq_div_pow, hsplit]
  simpa using hdiv

theorem netLow_eq (a : BitVec w) (h : len ≤ w) :
    netLow a len = (a >>> (w - len)) <<< (w - len) := by
  ext i hi
  simp only [netLow, BitVec.getElem_and, BitVec.getElem_not, BitVec.getElem_ushiftRight,
    BitVec.getLsbD_allOnes, BitVec.getElem_shiftLeft]
  by_cases hlt : i < w - len
  · have hmask : len + i < w := by omega
    simp [hlt, hmask]
  have hmask : ¬ len + i < w := by omega
  have hback : w - len + (i - (w - len)) = i := by omega
  simp [hlt, hmask, hback, BitVec.getLsbD_eq_getElem hi]

theorem toNat_netLow (a : BitVec w) (h : len ≤ w) :
    (netLow a len).toNat = a.toNat / 2 ^ (w - len) * 2 ^ (w - len) := by
  have hlt : a.toNat / 2 ^ (w - len) * 2 ^ (w - len) < 2 ^ w :=
    lt_of_le_of_lt (Nat.div_mul_le_self _ _) a.isLt
  rw [netLow_eq a h, BitVec.toNat_shiftLeft, BitVec.toNat_ushiftRight, Nat.shiftRight_eq_div_pow,
    Nat.shiftLeft_eq, Nat.mod_eq_of_lt hlt]

theorem toNat_netLow_add_le (a : BitVec w) (h : len ≤ w) :
    (netLow a len).toNat + 2 ^ (w - len) ≤ 2 ^ w := by
  have hsplit : 2 ^ w = 2 ^ len * 2 ^ (w - len) := by rw [← pow_add, Nat.add_sub_cancel' h]
  have hlt : a.toNat / 2 ^ (w - len) < 2 ^ len := by
    rw [Nat.div_lt_iff_lt_mul (Nat.two_pow_pos _), ← hsplit]
    exact a.isLt
  calc (netLow a len).toNat + 2 ^ (w - len)
      = (a.toNat / 2 ^ (w - len) + 1) * 2 ^ (w - len) := by rw [toNat_netLow a h, add_one_mul]
    _ ≤ 2 ^ len * 2 ^ (w - len) := Nat.mul_le_mul_right _ hlt
    _ = 2 ^ w := hsplit.symm

theorem toNat_netLow_or (a x : BitVec w) (h : len ≤ w) (hx : x.toNat < 2 ^ (w - len)) :
    (netLow a len ||| x).toNat = (netLow a len).toNat + x.toNat := by
  rw [BitVec.toNat_or, toNat_netLow a h, ← Nat.shiftLeft_eq, Nat.shiftLeft_add_eq_or_of_lt hx]

theorem toNat_netHigh (a : BitVec w) (h : len ≤ w) :
    (netHigh a len).toNat = (netLow a len).toNat + (2 ^ (w - len) - 1) := by
  have hor : netHigh a len = netLow a len ||| (BitVec.allOnes w >>> len) := by
    ext i hi
    simp only [netHigh, netLow, BitVec.getElem_or, BitVec.getElem_and, BitVec.getElem_not]
    cases a[i] <;> cases (BitVec.allOnes w >>> len)[i] <;> rfl
  have hmask := toNat_hostMask h
  have hpos := Nat.two_pow_pos (w - len)
  rw [hor, toNat_netLow_or a _ h (by omega), hmask]

theorem mem_net_iff (a b : BitVec w) (h : len ≤ w) :
    netLow a len ≤ b ∧ b ≤ netHigh a len ↔
      (netLow a len).toNat ≤ b.toNat ∧ b.toNat < (netLow a len).toNat + 2 ^ (w - len) := by
  have hpos := Nat.two_pow_pos (w - len)
  rw [BitVec.le_def, BitVec.le_def, toNat_netHigh a h]
  omega

end Avon
