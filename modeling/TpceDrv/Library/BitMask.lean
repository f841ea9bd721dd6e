import Mathlib.Algebra.Order.Group.Nat

namespace TpceDrv.Library.BitMask

variable {w : ℕ}

theorem and_one_shiftLeft_ne_zero (x : BitVec w) (i : ℕ) :
    x &&& (1#w <<< i) ≠ 0 ↔ x.getLsbD i = true := by
  rw [← BitVec.twoPow_eq, BitVec.and_twoPow]
  by_cases h : x.getLsbD i
  · have hi : i < w := BitVec.lt_of_getLsbD h
    simp only [h, if_true, iff_true]
    intro hz
    have := congrArg (BitVec.getLsbD · i) hz
    simp [hi] at this
  · simp [h]

theorem getLsbD_or_one_shiftLeft (x : BitVec w) {i j : ℕ} (hj : j < w) :
    (x ||| (1#w <<< i)).getLsbD j = (x.getLsbD j || decide (j = i)) := by
  rw [BitVec.getLsbD_or, ← BitVec.twoPow_eq, BitVec.getLsbD_twoPow]
  congr 1
  rw [Bool.eq_iff_iff]
  simp only [Bool.and_eq_true, decide_eq_true_eq]
  omega

theorem getLsbD_andNot_one_shiftLeft (x : BitVec w) {i j : ℕ} (hj : j < w) :
    (x &&& ~~~(1#w <<< i)).getLsbD j = (x.getLsbD j && !decide (j = i)) := by
  rw [BitVec.getLsbD_and, ← BitVec.twoPow_eq, BitVec.getLsbD_not, BitVec.getLsbD_twoPow]
  congr 1
  rw [Bool.eq_iff_iff]
  simp only [Bool.and_eq_true, decide_eq_true_eq, Bool.not_eq_true', Bool.and_eq_false_iff,
    decide_eq_false_iff_not]
  omega

theorem and_and_and_not (x m : BitVec w) : (x &&& m) &&& (x &&& ~~~m) = 0#w := by
  ext i hi
  simp only [BitVec.getElem_and, BitVec.getElem_not, BitVec.getElem_zero]
  cases m[i] <;> simp

theorem and_add_and_not (x m : BitVec w) : (x &&& m) + (x &&& ~~~m) = x := by
  rw [BitVec.add_eq_or_of_and_eq_zero _ _ (and_and_and_not x m)]
  ext i hi
  simp only [BitVec.getElem_or, BitVec.getElem_and, BitVec.getElem_not]
  rw [← Bool.and_or_distrib_left, Bool.or_not_self, Bool.and_true]

theorem toNat_and_add_and_not (x m : BitVec w) : (x &&& m).toNat + (x &&& ~~~m).toNat = x.toNat := by
  rw [← BitVec.toNat_add_of_and_eq_zero (and_and_and_not x m), and_add_and_not]

theorem toNat_and_lowBits (x : BitVec w) {k : ℕ} (hk : k ≤ w) :
    (x &&& BitVec.ofNat w (2 ^ k - 1)).toNat = x.toNat % 2 ^ k := by
  have hle : 2 ^ k ≤ 2 ^ w := Nat.pow_le_pow_right (by decide) hk
  have hlt : 2 ^ k - 1 < 2 ^ w := Nat.lt_of_lt_of_le (Nat.sub_lt (Nat.two_pow_pos k) Nat.one_pos) hle
  rw [BitVec.toNat_and, BitVec.toNat_ofNat, Nat.mod_eq_of_lt hlt, Nat.and_two_pow_sub_one_eq_mod]

theorem toNat_and_not_lowBits (x : BitVec w) {k : ℕ} (hk : k ≤ w) :
    (x &&& ~~~BitVec.ofNat w (2 ^ k - 1)).toNat = 2 ^ k * (x.toNat / 2 ^ k) := by
  have hsum := toNat_and_add_and_not x (BitVec.ofNat w (2 ^ k - 1))
  rw [toNat_and_lowBits x hk] at hsum
  have := Nat.mod_add_div x.toNat (2 ^ k)
  omega

end TpceDrv.Library.BitMask
